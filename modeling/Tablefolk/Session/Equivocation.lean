import Tablefolk.Deck.Wire
import Tablefolk.Protocol.Codec
import Tablefolk.Session.Registry
import Tablefolk.Session.SmallGroup

/-!
# Equivocation

The model of `protocol/violation.ts` and of `session/equivocation.ts`: two envelopes of one sender
with the same sequence number are evidence against it.

* `normalizeEvidence_eq_ok`: which pairs of envelopes are evidence, and in which order.
* `decodeEquivocationViolationBody_encode`: an encoded violation is decoded.
* `equivocation_is_provable`: which pairs make a violation, and when it can be signed.
-/

namespace Tablefolk

/-- `EquivocationViolationBody`. -/
structure EquivocationViolationBody where
  seat : ℕ
  reason : String
  evidence : SignedEnvelope × SignedEnvelope
  deriving DecidableEq

def VIOLATION_KEYS : List String := ["seat", "reason", "evidence"]

/-- `compareBytes`. -/
def compareBytes : List UInt8 → List UInt8 → ℤ
  | left :: lefts, right :: rights =>
      let difference := (left.toNat : ℤ) - right.toNat
      if difference ≠ 0 then difference else compareBytes lefts rights
  | _, _ => 0

section

variable {q : ℕ} {G : Type} [AddCommGroup G] [Module (ZMod q) G] (P : Primitives q G)
  (ed : Ed25519)

/-! ## Violation bodies -/

/-- `decodeAndVerifyEnvelope` of one of the two envelopes. -/
def verifyEvidence (index : ℕ) (value : CborValue) (message : String) :
    Except ProtocolSchemaError SignedEnvelope :=
  (do decodeAndVerifyEnvelope ed (← encodeEnvelope value)).mapError fun _ =>
    ⟨indexed "VIOLATION.body.evidence" index, message⟩

/-- The order of two envelopes by their hashes. -/
def orderEvidence (left right : SignedEnvelope) : SignedEnvelope × SignedEnvelope :=
  if compareBytes (P.hashEnvelope left).val (P.hashEnvelope right).val < 0 then (left, right)
  else (right, left)

/-- `normalizeEvidence`. -/
def normalizeEvidence (candidates : SignedEnvelope × SignedEnvelope) (requireCanonicalOrder : Bool) :
    Except ProtocolSchemaError (SignedEnvelope × SignedEnvelope) := do
  let left ← verifyEvidence ed 0 candidates.1.value "must be a valid signed envelope artifact"
  let right ← verifyEvidence ed 1 candidates.2.value "must be a valid signed envelope artifact"
  throwIf (left.game ≠ right.game ∨ left.from_ ≠ right.from_ ∨ left.seq ≠ right.seq)
    ⟨"VIOLATION.body.evidence", "envelopes must have the same game, sender, and sequence"⟩
  throwIf (P.hashEnvelope left = P.hashEnvelope right)
    ⟨"VIOLATION.body.evidence", "envelopes must have different hashes"⟩
  throwIf (requireCanonicalOrder = true ∧
      0 < compareBytes (P.hashEnvelope left).val (P.hashEnvelope right).val)
    ⟨"VIOLATION.body.evidence", "envelopes must be ordered by ascending hash"⟩
  return orderEvidence P left right

/-- The check of the reason. -/
def requireEquivocation (reason : String) : Except ProtocolSchemaError Unit :=
  throwIf (reason ≠ "equivocation") ⟨"VIOLATION.body.reason", "must be exactly \"equivocation\""⟩

/-- The fields of a violation body. -/
def violationEntries (seat : ℕ) (evidence : SignedEnvelope × SignedEnvelope) : CborRecord :=
  [("seat", .int seat), ("reason", .text "equivocation"),
    ("evidence", .array [evidence.1.value, evidence.2.value])]

/-- `encodeEquivocationViolationBody`. -/
def encodeEquivocationViolationBody (body : EquivocationViolationBody) :
    Except ProtocolSchemaError CborValue := do
  let seat ← expectUnsignedInteger (.int body.seat) "VIOLATION.body.seat" 7
  requireEquivocation body.reason
  let evidence ← normalizeEvidence P ed body.evidence false
  return cborMap (violationEntries seat evidence)

/-- The two envelopes in the evidence of a body. -/
def decodeEvidence (values : List CborValue) :
    Except ProtocolSchemaError (SignedEnvelope × SignedEnvelope) :=
  match values with
  | [first, second] => do
      let left ← verifyEvidence ed 0 first "must be a valid signed envelope"
      let right ← verifyEvidence ed 1 second "must be a valid signed envelope"
      return (left, right)
  | _ => throw ⟨"VIOLATION.body.evidence", "must contain exactly two envelopes"⟩

/-- `decodeEquivocationViolationBody`. -/
def decodeEquivocationViolationBody (value : CborValue) :
    Except ProtocolSchemaError EquivocationViolationBody := do
  let body ← expectExactMap value VIOLATION_KEYS "VIOLATION.body"
  let seat ← expectUnsignedInteger (field body "seat") "VIOLATION.body.seat" 7
  let reason ← expectNonEmptyText (field body "reason") "VIOLATION.body.reason"
  requireEquivocation reason
  let encodedEvidence ← expectArray (field body "evidence") "VIOLATION.body.evidence"
  let evidence ← decodeEvidence ed encodedEvidence
  let normalized ← normalizeEvidence P ed evidence true
  return ⟨seat, reason, normalized⟩

/-! ## Evidence in a session -/

/-- `EquivocationViolationAssessment`. -/
inductive EquivocationViolationAssessment where
  | valid (seat : ℕ) (sender : IdentityPublicKey) (body : EquivocationViolationBody)
  | malformed_evidence | seat_out_of_roster | sender_seat_mismatch | wrong_game
  deriving DecidableEq

/-- The text of a rejected assessment. -/
def EquivocationViolationAssessment.reason : EquivocationViolationAssessment → String
  | .valid .. => "valid"
  | .malformed_evidence => "malformed_evidence"
  | .seat_out_of_roster => "seat_out_of_roster"
  | .sender_seat_mismatch => "sender_seat_mismatch"
  | .wrong_game => "wrong_game"

/-- `EquivocationEvidenceError`. -/
inductive EquivocationEvidenceError where
  | message (text : String)
  deriving DecidableEq, Repr

variable {P}

/-- The assessment of a body that was decoded again. -/
def assessBody (registry : SessionChainRegistry P) (body : EquivocationViolationBody) :
    EquivocationViolationAssessment :=
  let sender := body.evidence.1.from_
  if body.evidence.1.game ≠ registry.gameId then .wrong_game
  else
    match registry.roster.seats[body.seat]? with
    | none => .seat_out_of_roster
    | some expected =>
        if sender ≠ expected then .sender_seat_mismatch else .valid body.seat sender body

/-- `assessEquivocationViolation`. -/
def assessEquivocationViolation (registry : SessionChainRegistry P)
    (candidate : EquivocationViolationBody) : EquivocationViolationAssessment :=
  match encodeEquivocationViolationBody P ed candidate >>= decodeEquivocationViolationBody P ed with
  | .error _ => .malformed_evidence
  | .ok body => assessBody registry body

/-- The end of `createEquivocationViolation`. -/
def requireValid (assessment : EquivocationViolationAssessment) :
    Except EquivocationEvidenceError EquivocationViolationBody :=
  match assessment with
  | .valid _ _ body => return body
  | rejected => throw (.message
      ("Equivocation evidence is invalid for this session: " ++ rejected.reason))

/-- The seat of the sender of an artifact. -/
def requireSeat (registry : SessionChainRegistry P) (sender : IdentityPublicKey) :
    Except EquivocationEvidenceError ℕ :=
  match registry.roster.seatOf sender with
  | none => throw (.message "Equivocation sender is outside the finalized roster")
  | some seat => return seat

/-- `createEquivocationViolation`. -/
def createEquivocationViolation (registry : SessionChainRegistry P)
    (leftCandidate rightCandidate : SignedEnvelope) :
    Except EquivocationEvidenceError EquivocationViolationBody := do
  let left ← (verifyArtifact ed leftCandidate).mapError fun _ =>
    EquivocationEvidenceError.message "First equivocation artifact is invalid"
  let seat ← requireSeat registry left.from_
  let body ← (encodeEquivocationViolationBody P ed ⟨seat, "equivocation", (left, rightCandidate)⟩ >>=
    decodeEquivocationViolationBody P ed).mapError fun _ =>
      EquivocationEvidenceError.message "Artifacts do not prove equivocation"
  requireValid (assessEquivocationViolation ed registry body)

/-! ## Which pairs are evidence -/

theorem compareBytes_swap (left right : List UInt8) :
    compareBytes left right = -compareBytes right left := by
  induction left generalizing right with
  | nil => cases right <;> simp [compareBytes]
  | cons first lefts ih =>
      cases right with
      | nil => simp [compareBytes]
      | cons second rights =>
          simp only [compareBytes]
          rw [ih rights]
          split_ifs <;> omega

theorem eq_of_compareBytes {left right : List UInt8} (hlength : left.length = right.length)
    (h : compareBytes left right = 0) : left = right := by
  induction left generalizing right with
  | nil => exact (List.length_eq_zero_iff.1 hlength.symm).symm
  | cons first lefts ih =>
      cases right with
      | nil => simp at hlength
      | cons second rights =>
          simp only [compareBytes] at h
          split_ifs at h with hdifference
          · exact absurd h hdifference
          · have hfirst : first = second := UInt8.toNat_inj.1 (by omega)
            rw [hfirst, ih (by simpa using hlength) h]

variable {ed}

theorem verifyEvidence_eq_ok {index : ℕ} {e e' : SignedEnvelope} {message : String} :
    verifyEvidence ed index e.value message = .ok e' ↔ e' = e ∧ e.Artifact ed :=
  mapError_eq_ok.trans verifyArtifact_eq_ok

variable (P ed) in
/-- Two envelopes that are evidence of equivocation. -/
structure Conflicting (left right : SignedEnvelope) : Prop where
  first : left.Artifact ed
  second : right.Artifact ed
  game : left.game = right.game
  from_ : left.from_ = right.from_
  seq : left.seq = right.seq
  hash : P.hashEnvelope left ≠ P.hashEnvelope right

theorem Conflicting.symm {left right : SignedEnvelope} (h : Conflicting P ed left right) :
    Conflicting P ed right left :=
  ⟨h.second, h.first, h.game.symm, h.from_.symm, h.seq.symm, h.hash.symm⟩

theorem normalizeEvidence_eq_ok {left right : SignedEnvelope} {requireCanonicalOrder : Bool}
    {evidence : SignedEnvelope × SignedEnvelope} :
    normalizeEvidence P ed (left, right) requireCanonicalOrder = .ok evidence ↔
      Conflicting P ed left right ∧ evidence = orderEvidence P left right ∧
      ¬ (requireCanonicalOrder = true ∧
        0 < compareBytes (P.hashEnvelope left).val (P.hashEnvelope right).val) := by
  unfold normalizeEvidence
  constructor
  · intro h
    obtain ⟨left', hleft, h⟩ := bind_eq_ok.1 h
    obtain ⟨right', hright, h⟩ := bind_eq_ok.1 h
    obtain ⟨hsameLeft, hleft⟩ := verifyEvidence_eq_ok.1 hleft
    obtain ⟨hsameRight, hright⟩ := verifyEvidence_eq_ok.1 hright
    rw [hsameLeft, hsameRight] at h
    simp only [check_bind_eq_ok, throwIf_eq_ok, not_or, not_not, except_pure_eq,
      Except.ok.injEq] at h
    obtain ⟨⟨hgame, hfrom, hseq⟩, hhash, horder, rfl⟩ := h
    exact ⟨⟨hleft, hright, hgame, hfrom, hseq, hhash⟩, rfl, horder⟩
  · rintro ⟨h, rfl, horder⟩
    rw [verifyEvidence_eq_ok.2 ⟨rfl, h.first⟩, ok_bind, verifyEvidence_eq_ok.2 ⟨rfl, h.second⟩, ok_bind,
      throwIf_neg (by simp [h.game, h.from_, h.seq]), ok_bind, throwIf_neg h.hash, ok_bind,
      throwIf_neg horder]
    rfl

/-- The order does not depend on which envelope comes first, and it is ascending. -/
theorem orderEvidence_cases {left right : SignedEnvelope} (h : Conflicting P ed left right) :
    orderEvidence P right left = orderEvidence P left right ∧
    compareBytes (P.hashEnvelope (orderEvidence P left right).1).val
      (P.hashEnvelope (orderEvidence P left right).2).val < 0 ∧
    (orderEvidence P left right = (left, right) ∨ orderEvidence P left right = (right, left)) := by
  have hswap := compareBytes_swap (P.hashEnvelope left).val (P.hashEnvelope right).val
  have hne : compareBytes (P.hashEnvelope left).val (P.hashEnvelope right).val ≠ 0 := by
    intro hzero
    have hlength : (P.hashEnvelope left).val.length = (P.hashEnvelope right).val.length := by
      rw [(P.hashEnvelope left).property, (P.hashEnvelope right).property]
    exact h.hash (Subtype.ext (eq_of_compareBytes hlength hzero))
  unfold orderEvidence
  by_cases hless : compareBytes (P.hashEnvelope left).val (P.hashEnvelope right).val < 0
  · rw [if_pos hless, if_neg (by omega)]
    exact ⟨rfl, hless, .inl rfl⟩
  · rw [if_neg hless, if_pos (by omega)]
    exact ⟨rfl, by simp only; omega, .inr rfl⟩

/-- Ordered evidence is normal. -/
theorem normalizeEvidence_ordered {left right : SignedEnvelope} (h : Conflicting P ed left right)
    (requireCanonicalOrder : Bool) :
    normalizeEvidence P ed (orderEvidence P left right) requireCanonicalOrder
      = .ok (orderEvidence P left right) := by
  obtain ⟨-, hless, hpair⟩ := orderEvidence_cases h
  obtain ⟨first, second, hordered, hconflicting⟩ : ∃ first second,
      orderEvidence P left right = (first, second) ∧ Conflicting P ed first second := by
    rcases hpair with hpair | hpair
    · exact ⟨left, right, hpair, h⟩
    · exact ⟨right, left, hpair, h.symm⟩
  rw [hordered] at hless ⊢
  refine normalizeEvidence_eq_ok.2 ⟨hconflicting, ?_, by simp only at hless; omega⟩
  unfold orderEvidence
  rw [if_pos hless]

/-! ## Bodies -/

theorem expectUnsignedInteger_natCast {value maximum : ℕ} {path : String} {result : ℕ} :
    expectUnsignedInteger (.int value) path maximum = .ok result ↔
      result = value ∧ value ≤ maximum := by
  unfold expectUnsignedInteger
  simp only
  split_ifs with hbad
  · simp only [false_iff]
    rintro ⟨-, hle⟩
    omega
  · simp only [Int.toNat_natCast, Except.ok.injEq]
    constructor
    · rintro rfl
      exact ⟨rfl, by omega⟩
    · exact fun h => h.1.symm

/-- An encoded body is decoded. -/
theorem decodeEquivocationViolationBody_encode {seat : ℕ} {left right : SignedEnvelope}
    (hseat : seat ≤ 7) (h : Conflicting P ed left right) :
    decodeEquivocationViolationBody P ed
      (cborMap (violationEntries seat (orderEvidence P left right))) =
        .ok ⟨seat, "equivocation", orderEvidence P left right⟩ := by
  have hmap : expectExactMap (cborMap (violationEntries seat (orderEvidence P left right)))
      VIOLATION_KEYS "VIOLATION.body" = .ok ((violationEntries seat
        (orderEvidence P left right)).insertionSort canonicalKeyLe) :=
    expectExactMap_cborMap _ rfl (by simp [violationEntries, VIOLATION_KEYS])
  have hkeys : ((violationEntries seat (orderEvidence P left right)).map Prod.fst).Nodup := by
    simp [violationEntries]
  obtain ⟨first, second, hordered, hfirst, hsecond⟩ : ∃ first second,
      orderEvidence P left right = (first, second) ∧ first.Artifact ed ∧ second.Artifact ed := by
    rcases (orderEvidence_cases h).2.2 with hpair | hpair
    · exact ⟨left, right, hpair, h.first, h.second⟩
    · exact ⟨right, left, hpair, h.second, h.first⟩
  have hnormal := normalizeEvidence_ordered h true
  rw [hordered] at hmap hkeys hnormal ⊢
  unfold decodeEquivocationViolationBody
  rw [hmap, ok_bind, field_cborMap hkeys, field_cborMap hkeys, field_cborMap hkeys]
  have hseatField : field (violationEntries seat (first, second)) "seat" = .int seat := rfl
  have hreason : field (violationEntries seat (first, second)) "reason" = .text "equivocation" := rfl
  have hevidence : field (violationEntries seat (first, second)) "evidence" =
      .array [first.value, second.value] := rfl
  have htext : expectNonEmptyText (.text "equivocation") "VIOLATION.body.reason" =
      .ok "equivocation" := rfl
  have hequivocation : requireEquivocation "equivocation" = .ok () := rfl
  rw [hseatField, expectUnsignedInteger_natCast.2 ⟨rfl, hseat⟩, ok_bind, hreason, htext, ok_bind,
    hequivocation, ok_bind, hevidence, expectArray, ok_bind, decodeEvidence,
    verifyEvidence_eq_ok.2 ⟨rfl, hfirst⟩, ok_bind, verifyEvidence_eq_ok.2 ⟨rfl, hsecond⟩]
  simp only [ok_bind, except_pure_eq]
  rw [hnormal]
  rfl

/-- Which bodies are encoded. -/
theorem encodeEquivocationViolationBody_eq_ok {seat : ℕ} {left right : SignedEnvelope}
    {value : CborValue} :
    encodeEquivocationViolationBody P ed ⟨seat, "equivocation", (left, right)⟩ = .ok value ↔
      seat ≤ 7 ∧ Conflicting P ed left right ∧
        value = cborMap (violationEntries seat (orderEvidence P left right)) := by
  have hequivocation : requireEquivocation "equivocation" = .ok () := rfl
  unfold encodeEquivocationViolationBody
  constructor
  · intro h
    obtain ⟨seat', hseat, h⟩ := bind_eq_ok.1 h
    obtain ⟨rfl, hle⟩ := expectUnsignedInteger_natCast.1 hseat
    obtain ⟨-, h⟩ := check_bind_eq_ok.1 h
    obtain ⟨evidence, hevidence, h⟩ := bind_eq_ok.1 h
    obtain ⟨hconflicting, rfl, -⟩ := normalizeEvidence_eq_ok.1 hevidence
    cases h
    exact ⟨hle, hconflicting, rfl⟩
  · rintro ⟨hle, hconflicting, rfl⟩
    have hnormal : normalizeEvidence P ed (left, right) false = .ok (orderEvidence P left right) :=
      normalizeEvidence_eq_ok.2 ⟨hconflicting, rfl, by simp⟩
    rw [expectUnsignedInteger_natCast.2 ⟨rfl, hle⟩, ok_bind, hequivocation, ok_bind, hnormal]
    rfl

/-- Encoding and decoding the evidence puts it in order. -/
theorem decode_encode_eq_ok {seat : ℕ} {left right : SignedEnvelope}
    {body : EquivocationViolationBody} :
    (encodeEquivocationViolationBody P ed ⟨seat, "equivocation", (left, right)⟩ >>=
      decodeEquivocationViolationBody P ed) = .ok body ↔
      seat ≤ 7 ∧ Conflicting P ed left right ∧
        body = ⟨seat, "equivocation", orderEvidence P left right⟩ := by
  constructor
  · intro h
    obtain ⟨value, hvalue, h⟩ := bind_eq_ok.1 h
    obtain ⟨hle, hconflicting, rfl⟩ := encodeEquivocationViolationBody_eq_ok.1 hvalue
    rw [decodeEquivocationViolationBody_encode hle hconflicting] at h
    cases h
    exact ⟨hle, hconflicting, rfl⟩
  · rintro ⟨hle, hconflicting, rfl⟩
    rw [encodeEquivocationViolationBody_eq_ok.2 ⟨hle, hconflicting, rfl⟩, ok_bind,
      decodeEquivocationViolationBody_encode hle hconflicting]

/-! ## Violations of a session -/

variable (ed) in
/-- Two envelopes of a member of the roster that are evidence in the session. -/
structure Equivocation (registry : SessionChainRegistry P) (left right : SignedEnvelope) :
    Prop where
  conflicting : Conflicting P ed left right
  game : left.game = registry.gameId
  member : ∃ seat, registry.roster.seatOf left.from_ = some seat

theorem Equivocation.symm {registry : SessionChainRegistry P} {left right : SignedEnvelope}
    (h : Equivocation ed registry left right) : Equivocation ed registry right left := by
  refine ⟨h.conflicting.symm, h.conflicting.game.symm.trans h.game, ?_⟩
  rw [← h.conflicting.from_]
  exact h.member

theorem requireSeat_eq_ok {registry : SessionChainRegistry P} {sender : IdentityPublicKey} {seat : ℕ} :
    requireSeat registry sender = .ok seat ↔ registry.roster.seatOf sender = some seat := by
  unfold requireSeat
  cases registry.roster.seatOf sender <;> simp

theorem seat_le {registry : SessionChainRegistry P} {sender : IdentityPublicKey} {seat : ℕ}
    (h : registry.roster.seatOf sender = some seat) :
    seat ≤ 7 ∧ registry.roster.seats[seat]? = some sender := by
  unfold Roster.seatOf at h
  split_ifs at h with hmem
  cases h
  have hlt := List.idxOf_lt_length_iff.2 hmem
  have height := registry.roster.le_eight
  exact ⟨by omega, by rw [List.getElem?_eq_getElem hlt, List.getElem_idxOf hlt]⟩

/-- The evidence of a pair, in order, has the game and the sender of the pair. -/
theorem orderEvidence_fst {left right : SignedEnvelope} (h : Conflicting P ed left right) :
    (orderEvidence P left right).1.game = left.game ∧
      (orderEvidence P left right).1.from_ = left.from_ := by
  rcases (orderEvidence_cases h).2.2 with hpair | hpair
  · rw [hpair]
    exact ⟨rfl, rfl⟩
  · rw [hpair]
    exact ⟨h.game.symm, h.from_.symm⟩

/-- The assessment of the violation that a pair makes. -/
theorem assessEquivocationViolation_ordered {registry : SessionChainRegistry P}
    {left right : SignedEnvelope} {seat : ℕ} (h : Conflicting P ed left right)
    (hseat : registry.roster.seatOf left.from_ = some seat) :
    assessEquivocationViolation ed registry ⟨seat, "equivocation", orderEvidence P left right⟩ =
      if left.game = registry.gameId then
        .valid seat left.from_ ⟨seat, "equivocation", orderEvidence P left right⟩
      else .wrong_game := by
  obtain ⟨hle, hmember⟩ := seat_le hseat
  have hordered : Conflicting P ed (orderEvidence P left right).1 (orderEvidence P left right).2 := by
    rcases (orderEvidence_cases h).2.2 with hpair | hpair
    · rw [hpair]
      exact h
    · rw [hpair]
      exact h.symm
  have hidem : orderEvidence P (orderEvidence P left right).1 (orderEvidence P left right).2 =
      orderEvidence P left right := by
    have hless := (orderEvidence_cases h).2.1
    rw [orderEvidence, if_pos hless]
  have hagain := decode_encode_eq_ok.2 ⟨hle, hordered, rfl⟩
  rw [hidem] at hagain
  obtain ⟨hgame, hfrom⟩ := orderEvidence_fst h
  unfold assessEquivocationViolation
  rw [hagain]
  simp only
  unfold assessBody
  simp only [hgame, hfrom, hmember]
  by_cases hsame : left.game = registry.gameId
  · simp [hsame]
  · simp [hsame]

/-- Which pairs make a violation, and which one. -/
theorem createEquivocationViolation_eq_ok {registry : SessionChainRegistry P}
    {left right : SignedEnvelope} {body : EquivocationViolationBody} :
    createEquivocationViolation ed registry left right = .ok body ↔
      Equivocation ed registry left right ∧ ∃ seat, registry.roster.seatOf left.from_ = some seat ∧
        body = ⟨seat, "equivocation", orderEvidence P left right⟩ := by
  unfold createEquivocationViolation
  constructor
  · intro h
    obtain ⟨verified, hverified, h⟩ := bind_eq_ok.1 h
    obtain ⟨hsame, -⟩ := mapError_verifyArtifact_eq_ok.1 hverified
    rw [hsame] at h
    obtain ⟨seat, hseat, h⟩ := bind_eq_ok.1 h
    obtain ⟨decoded, hdecoded, h⟩ := bind_eq_ok.1 h
    obtain ⟨-, hconflicting, hbody⟩ := decode_encode_eq_ok.1 (mapError_eq_ok.1 hdecoded)
    have hseat := requireSeat_eq_ok.1 hseat
    rw [hbody, assessEquivocationViolation_ordered hconflicting hseat] at h
    by_cases hgame : left.game = registry.gameId
    · rw [if_pos hgame] at h
      cases h
      exact ⟨⟨hconflicting, hgame, seat, hseat⟩, seat, hseat, rfl⟩
    · rw [if_neg hgame] at h
      cases h
  · rintro ⟨hequivocation, seat, hseat, rfl⟩
    have hconflicting := hequivocation.conflicting
    have hdecoded := decode_encode_eq_ok.2 ⟨(seat_le hseat).1, hconflicting, rfl⟩
    rw [mapError_verifyArtifact_eq_ok.2 ⟨rfl, hconflicting.first⟩, ok_bind,
      requireSeat_eq_ok.2 hseat, ok_bind, mapError_eq_ok.2 hdecoded, ok_bind,
      assessEquivocationViolation_ordered hconflicting hseat, if_pos hequivocation.game]
    rfl

/-- A body stands in an envelope when its evidence may stand three levels down. -/
theorem fitsAt_violation {seat : ℕ} {evidence : SignedEnvelope × SignedEnvelope} (hseat : seat ≤ 7) :
    (cborMap (violationEntries seat evidence)).FitsAt 1 ↔
      evidence.1.value.FitsAt 3 ∧ evidence.2.value.FitsAt 3 := by
  have hsafe : seat ≤ MAX_SAFE_INTEGER := hseat.trans (by decide)
  rw [fitsAt_cborMap]
  simp [violationEntries, fitsAt_natCast, fitsAt_text, fitsAt_array, hsafe,
    show MAX_CBOR_NESTING_DEPTH = 32 from rfl]

/-- The decoder reads an envelope with this body when it gets through the bodies of the evidence
five levels down: the envelope, the violation, two for the list, and the envelope in it. -/
theorem readDepth_violation {seat : ℕ} {evidence : SignedEnvelope × SignedEnvelope} :
    (cborMap (violationEntries seat evidence)).readDepth + 1 ≤ MAX_CBOR_NESTING_DEPTH ↔
      evidence.1.body.readDepth + 5 ≤ MAX_CBOR_NESTING_DEPTH ∧
        evidence.2.body.readDepth + 5 ≤ MAX_CBOR_NESTING_DEPTH := by
  have hvalue : ∀ e : SignedEnvelope, e.value.readDepth + 2 ≤ 30 ↔ e.body.readDepth + 5 ≤ 32 :=
    fun e => by
      rw [show e.value.readDepth + 2 ≤ 30 ↔ e.value.readDepth ≤ 28 by omega,
        readDepth_signed (by decide)]
      omega
  rw [show MAX_CBOR_NESTING_DEPTH = 31 + 1 from rfl, Nat.add_le_add_iff_right, readDepth_cborMap]
  simp only [violationEntries, List.forall_mem_cons, CborValue.readDepth]
  rw [← hvalue, ← hvalue]
  simp [itemsReadDepth]
  omega

/-- **Equivocation is provable.**  Two validly signed envelopes of a member of the roster, in the
game of the registry, with the same sequence number and different hashes make a violation, the same
one in either order; its assessment is valid and names the seat of the member.  The violation can be
signed into a VIOLATION that is decoded exactly when the decoder gets through the bodies of the two
envelopes five levels down; the violation is what its body decodes to.  Any other pair makes
none. -/
theorem equivocation_is_provable (P : Primitives q G) (ed : Ed25519)
    (registry : SessionChainRegistry P) (left right : SignedEnvelope) :
    (Equivocation ed registry left right → ∃ seat body value,
      registry.roster.seatOf left.from_ = some seat ∧
      createEquivocationViolation ed registry left right = .ok body ∧
      createEquivocationViolation ed registry right left = .ok body ∧
      assessEquivocationViolation ed registry body = .valid seat left.from_ body ∧
      encodeEquivocationViolationBody P ed body = .ok value ∧
      ∀ (unsigned : UnsignedEnvelope) (secretKey : ed.SecretKey), unsigned.type = .VIOLATION →
        unsigned.body = value → unsigned.seq ≤ MAX_SAFE_INTEGER →
        unsigned.round ≤ MAX_SAFE_INTEGER → unsigned.phase ≠ "" →
        unsigned.from_ = ed.deriveEd25519PublicKey secretKey →
        ((∃ signed, signEnvelope ed unsigned secretKey = .ok signed ∧
            verifyArtifact ed signed = .ok signed) ↔
          left.body.readDepth + 5 ≤ MAX_CBOR_NESTING_DEPTH ∧
            right.body.readDepth + 5 ≤ MAX_CBOR_NESTING_DEPTH) ∧
        ∀ signed, signEnvelope ed unsigned secretKey = .ok signed →
          signed.type = .VIOLATION ∧
          decodeEquivocationViolationBody P ed signed.body = .ok body) ∧
    (¬ Equivocation ed registry left right →
      ∃ error, createEquivocationViolation ed registry left right = .error error) := by
  constructor
  · intro h
    have hconflicting := h.conflicting
    obtain ⟨seat, hseat⟩ := h.member
    have hle := (seat_le hseat).1
    obtain ⟨hswap, -, hpair⟩ := orderEvidence_cases hconflicting
    have hordered : Conflicting P ed (orderEvidence P left right).1 (orderEvidence P left right).2 ∧
        orderEvidence P (orderEvidence P left right).1 (orderEvidence P left right).2 =
          orderEvidence P left right := by
      rcases hpair with hpair | hpair
      · rw [hpair]
        exact ⟨hconflicting, hpair⟩
      · rw [hpair]
        exact ⟨hconflicting.symm, hswap.trans hpair⟩
    have hvalue := encodeEquivocationViolationBody_eq_ok.2 ⟨hle, hordered.1, rfl⟩
    rw [hordered.2] at hvalue
    refine ⟨seat, _, _, hseat, createEquivocationViolation_eq_ok.2 ⟨h, seat, hseat, rfl⟩,
      createEquivocationViolation_eq_ok.2 ⟨h.symm, seat, by rwa [← hconflicting.from_], by rw [hswap]⟩,
      ?_, hvalue, ?_⟩
    · rw [assessEquivocationViolation_ordered hconflicting hseat, if_pos h.game]
    · rintro unsigned secretKey htype hbody hseq hround hphase hsender
      have hread : unsigned.body.readDepth + 1 ≤ MAX_CBOR_NESTING_DEPTH ↔
          left.body.readDepth + 5 ≤ MAX_CBOR_NESTING_DEPTH ∧
            right.body.readDepth + 5 ≤ MAX_CBOR_NESTING_DEPTH := by
        rw [hbody, readDepth_violation]
        rcases hpair with hpair | hpair
        · rw [hpair]
        · rw [hpair]
          exact and_comm
      have hfits : unsigned.body.readDepth + 1 ≤ MAX_CBOR_NESTING_DEPTH → unsigned.body.FitsAt 1 :=
        fun hdepth => by
          have hshallow : ∀ e : SignedEnvelope, e.Artifact ed →
              e.body.readDepth + 5 ≤ MAX_CBOR_NESTING_DEPTH → e.value.FitsAt 3 := fun e he hle => by
            have hvalue : e.value.readDepth ≤ 29 := (readDepth_signed (by decide)).2
              (by unfold MAX_CBOR_NESTING_DEPTH at hle; omega)
            exact he.fits.of_readDepth (by unfold MAX_CBOR_NESTING_DEPTH; omega)
          obtain ⟨hleft, hright⟩ := hread.1 hdepth
          have hleft := hshallow left hconflicting.first hleft
          have hright := hshallow right hconflicting.second hright
          rw [hbody, fitsAt_violation hle]
          rcases hpair with hpair | hpair
          · rw [hpair]
            exact ⟨hleft, hright⟩
          · rw [hpair]
            exact ⟨hright, hleft⟩
      refine ⟨⟨?_, fun hdeep => ?_⟩, fun signed hsigned => ?_⟩
      · rintro ⟨signed, hsigned, hverified⟩
        have hbodies := (readDepth_signed (by decide)).1 (verifyArtifact_eq_ok.1 hverified).2.reads
        rw [(signEnvelope_eq_ok.1 hsigned).2.2.2.2.2.2] at hbodies
        exact hread.1 hbodies
      · have hdepth := hread.2 hdeep
        have hsigned := signEnvelope_eq_ok.2
          ⟨hseq, hround, hphase, hfits hdepth, (Nat.le_succ _).trans hdepth, hsender, rfl⟩
        exact ⟨_, hsigned, verifyArtifact_of_artifact (signEnvelope_artifact hsigned hdepth)⟩
      · have hsame := (signEnvelope_eq_ok.1 hsigned).2.2.2.2.2.2
        refine ⟨?_, ?_⟩
        · rw [hsame]
          exact htype
        · have hsignedBody : signed.body = unsigned.body := by rw [hsame]
          rw [hsignedBody, hbody]
          exact decodeEquivocationViolationBody_encode hle hconflicting
  · intro h
    cases hcreate : createEquivocationViolation ed registry left right with
    | error error => exact ⟨error, rfl⟩
    | ok body => exact absurd (createEquivocationViolation_eq_ok.1 hcreate).1 h

end

/-! ## Evidence that is too deep -/

namespace SmallGroup

/-- Signatures that all verify. -/
def openSignatures : Ed25519 where
  SecretKey := IdentityPublicKey
  deriveEd25519PublicKey key := key
  signEd25519 _ _ := zeroBytes 64
  verifyEd25519 _ _ _ := true
  verify_sign _ _ := rfl

/-- An envelope with a deep body, in two versions. -/
def deepEnvelope (version : ℕ) : SignedEnvelope :=
  { envelope 0 0 ZERO_HASH .JOIN (nestedMaps 29) with sig := padded 64 [UInt8.ofNat version] }

end SmallGroup

open SmallGroup in
/-- Two conflicting envelopes of a member whose violation no envelope can carry. -/
theorem deep_evidence_is_not_signable : ∃ body value,
    createEquivocationViolation openSignatures (.start game (roster fun _ => 1)) (deepEnvelope 0)
      (deepEnvelope 1) = .ok body ∧
    encodeEquivocationViolationBody (primitives fun _ => 1) openSignatures body = .ok value ∧
    ∀ (unsigned : UnsignedEnvelope) (secretKey : openSignatures.SecretKey),
      unsigned.body = value → ∃ error, signEnvelope openSignatures unsigned secretKey = .error error := by
  have hartifact : ∀ version, (deepEnvelope version).Artifact openSignatures := by
    intro version
    refine ⟨by simp [deepEnvelope, envelope], by simp [deepEnvelope, envelope, MAX_SAFE_INTEGER],
      by simp [deepEnvelope, envelope], fitsAt_signed.2 ⟨by simp [deepEnvelope, envelope],
        by simp [deepEnvelope, envelope, MAX_SAFE_INTEGER], ?_⟩,
      (readDepth_signed (by decide)).2 ?_, rfl⟩
    · exact fitsAt_nestedMaps.2 (by decide)
    · show (nestedMaps 29).readDepth + 1 ≤ MAX_CBOR_NESTING_DEPTH
      rw [readDepth_nestedMaps]
      decide
  have hconflicting : Conflicting (primitives fun _ => 1) openSignatures (deepEnvelope 0)
      (deepEnvelope 1) := ⟨hartifact 0, hartifact 1, rfl, rfl, rfl, by decide⟩
  have hseat : (roster fun _ => 1).seatOf (deepEnvelope 0).from_ = some 0 := by decide
  have hordered : Conflicting (primitives fun _ => 1) openSignatures
      (orderEvidence (primitives fun _ => 1) (deepEnvelope 0) (deepEnvelope 1)).1
      (orderEvidence (primitives fun _ => 1) (deepEnvelope 0) (deepEnvelope 1)).2 := by
    rcases (orderEvidence_cases hconflicting).2.2 with hpair | hpair
    · rw [hpair]
      exact hconflicting
    · rw [hpair]
      exact hconflicting.symm
  refine ⟨_, _, createEquivocationViolation_eq_ok.2 ⟨⟨hconflicting, rfl, 0, hseat⟩, 0, hseat, rfl⟩,
    encodeEquivocationViolationBody_eq_ok.2 ⟨by decide, hordered, rfl⟩, ?_⟩
  rintro unsigned secretKey hbody
  cases hsign : signEnvelope openSignatures unsigned secretKey with
  | error error => exact ⟨error, rfl⟩
  | ok signed =>
      have hfits := (signEnvelope_eq_ok.1 hsign).2.2.2.1
      rw [hbody, fitsAt_violation (by decide)] at hfits
      have hdeep : ∀ version, ¬ (deepEnvelope version).value.FitsAt 3 := by
        intro version hfit
        have hnested : 4 + 29 ≤ MAX_CBOR_NESTING_DEPTH :=
          fitsAt_nestedMaps.1 (fitsAt_signed.1 hfit).2.2
        exact absurd hnested (by decide)
      rcases (orderEvidence_cases hconflicting).2.2 with hpair | hpair
      · rw [hpair] at hfits
        exact absurd hfits.1 (hdeep 0)
      · rw [hpair] at hfits
        exact absurd hfits.1 (hdeep 1)

end Tablefolk
