import Tablefolk.Deck.Shuffle
import Tablefolk.Deck.Wire
import Tablefolk.Protocol.CborBytes

/-!
# Shuffle statements

The model of `deck/shuffle-statement.ts` and of the decoder of
`deck/shuffle-proof-codec.ts`, byte by byte.

A statement has a fixed grammar.  The decoder walks over the bytes with a cursor; here a part of
it takes the bytes that are left and returns what it has read with the bytes after it.

* `decodeCandidateShuffleStatement36_encode`: what was encoded is decoded.
* `encodeCandidateShuffleStatement36_inj`: two statements with the same encoding are the same.
-/

namespace Tablefolk

/-! ## The statement -/

def CANDIDATE_SHUFFLE_STATEMENT_PROFILE : String := "bg-ristretto255-36-4x9-statement-candidate-v1"

/-- `HEADER` of the statement. -/
def statementHeader : List UInt8 := 0x88 :: cborText CANDIDATE_SHUFFLE_STATEMENT_PROFILE

def MIN_CANDIDATE_SHUFFLE_STATEMENT_BYTES : ℕ :=
  statementHeader.length + 17 + 1 + 1 + 34 + 34 + 2 * 2307

def MAX_CANDIDATE_SHUFFLE_STATEMENT_BYTES : ℕ := MIN_CANDIDATE_SHUFFLE_STATEMENT_BYTES + 8

/-- `CandidateShuffleStatement36`. -/
structure CandidateShuffleStatement36 (G : Type) where
  gameId : GameId
  round : ℕ
  seat : ℕ
  rosterHash : Hash256
  aggregateKey : G
  inputDeck : List (MaskedCard G)
  outputDeck : List (MaskedCard G)
  deriving DecidableEq

/-- What the codecs of statements and proofs throw; `point` and `scalar` stand for the errors of
the decoders of group elements and scalars. -/
inductive ShuffleCodecError where
  | error (message : String)
  | range (message : String)
  | point
  | scalar
  deriving DecidableEq

section

variable {q : ℕ} {G : Type} [AddCommGroup G] [Module (ZMod q) G] (P : Primitives q G)

/-- `packDeck`. -/
def packDeck (deck : List (MaskedCard G)) : Except ShuffleCodecError (List UInt8) := do
  throwIf (deck.length ≠ 36) (.error "Expected 36 ciphertexts")
  return deck.flatMap fun card => (P.pointBytes card.A).val ++ (P.pointBytes card.B).val

/-- `encodeCandidateShuffleStatement36`. -/
def encodeCandidateShuffleStatement36 [DecidableEq G] (value : CandidateShuffleStatement36 G) :
    Except ShuffleCodecError (List UInt8) := do
  throwIf (MAX_SAFE_INTEGER < value.round ∨ 3 < value.seat) (.range "Invalid shuffle round or seat")
  throwIf (value.aggregateKey = 0) (.error "Identity shuffle key")
  let inputDeck ← packDeck P value.inputDeck
  let outputDeck ← packDeck P value.outputDeck
  return statementHeader ++ cborBytes value.gameId.val ++ cborHead 0 value.round ++
    cborHead 0 value.seat ++ cborBytes value.rosterHash.val ++
    cborBytes (P.pointBytes value.aggregateKey).val ++ cborBytes inputDeck ++ cborBytes outputDeck

/-! ## The decoder -/

/-- `exact`: the bytes after the expected ones. -/
def exactBytes (expected bytes : List UInt8) : Except ShuffleCodecError (List UInt8) := do
  throwIf (bytes.take expected.length ≠ expected) (.error "Invalid shuffle statement header")
  return bytes.drop expected.length

/-- `fixed`: a byte string of this size, and the bytes after it. -/
def fixedBytes (size : ℕ) (bytes : List UInt8) :
    Except ShuffleCodecError (FixedBytes size × List UInt8) := do
  let rest ← exactBytes (cborHead 2 size) bytes
  match parseFixedBytes size (rest.take size) with
  | some fixed => return (fixed, rest.drop size)
  | none => throw (.error "Truncated shuffle statement")

/-- The bytes of a round after a tag. -/
def roundWidth (tag : ℕ) : ℕ :=
  if tag = 24 then 1 else if tag = 25 then 2 else if tag = 26 then 4 else if tag = 27 then 8 else 0

/-- The least round with so many bytes. -/
def roundMinimum (count : ℕ) : ℕ :=
  if count = 1 then 24 else if count = 2 then 256 else if count = 4 then 65536 else 4294967296

/-- The round, and the bytes after it. -/
def readRound : List UInt8 → Except ShuffleCodecError (ℕ × List UInt8)
  | [] => throw (.error "Invalid shuffle round encoding")
  | tag :: rest =>
      if tag.toNat < 24 then return (tag.toNat, rest)
      else do
        let count := roundWidth tag.toNat
        throwIf (count = 0 ∨ rest.length < count) (.error "Invalid shuffle round encoding")
        let wide := ofBigEndian (rest.take count)
        throwIf (wide < roundMinimum count ∨ MAX_SAFE_INTEGER < wide)
          (.error "Noncanonical shuffle round")
        return (wide, rest.drop count)

/-- The seat, and the bytes after it. -/
def readSeat : List UInt8 → Except ShuffleCodecError (ℕ × List UInt8)
  | [] => throw (.error "Invalid shuffle seat")
  | seat :: rest => do
      throwIf (3 < seat.toNat) (.error "Invalid shuffle seat")
      return (seat.toNat, rest)

/-- `RistrettoPoint.fromBytes`. -/
def readPoint (bytes : List UInt8) : Except ShuffleCodecError G :=
  match (parseFixedBytes 32 bytes).bind P.pointOfBytes with
  | some point => return point
  | none => throw .point

/-- `unpackDeck`, the cards one after the other. -/
def unpackDeck : ℕ → List UInt8 → Except ShuffleCodecError (List (MaskedCard G))
  | 0, _ => return []
  | count + 1, bytes => do
      let A ← readPoint P (bytes.take 32)
      let B ← readPoint P ((bytes.drop 32).take 32)
      let rest ← unpackDeck count (bytes.drop 64)
      return ⟨A, B⟩ :: rest

/-- `decodeCandidateShuffleStatement36`. -/
def decodeCandidateShuffleStatement36 [DecidableEq G] (bytes : List UInt8) :
    Except ShuffleCodecError (CandidateShuffleStatement36 G) := do
  throwIf (bytes.length < MIN_CANDIDATE_SHUFFLE_STATEMENT_BYTES ∨
    MAX_CANDIDATE_SHUFFLE_STATEMENT_BYTES < bytes.length)
    (.error "Invalid shuffle statement byte length")
  let rest ← exactBytes statementHeader bytes
  let (gameId, rest) ← fixedBytes 16 rest
  let (round, rest) ← readRound rest
  let (seat, rest) ← readSeat rest
  let (rosterHash, rest) ← fixedBytes 32 rest
  let (key, rest) ← fixedBytes 32 rest
  let aggregateKey ← readPoint P key.val
  throwIf (aggregateKey = 0) (.error "Identity shuffle key")
  let (input, rest) ← fixedBytes 2304 rest
  let inputDeck ← unpackDeck P 36 input.val
  let (output, rest) ← fixedBytes 2304 rest
  let outputDeck ← unpackDeck P 36 output.val
  throwIf (rest ≠ []) (.error "Trailing shuffle statement bytes")
  return ⟨gameId, round, seat, rosterHash, aggregateKey, inputDeck, outputDeck⟩

/-! ## The proof codec -/

def CANDIDATE_SHUFFLE_PROOF_36_PROFILE : String := "bg-ristretto255-36-4x9-proof-candidate-v1"

/-- The kind of a proof element. -/
inductive ProofElementKind where
  | point | scalar
  deriving DecidableEq, Repr

/-- `SECTIONS`. -/
def proofSections : List (ProofElementKind × ℕ) :=
  [(.point, 4), (.point, 4), (.point, 1), (.point, 4),
    (.point, 2), (.point, 9), (.scalar, 9), (.scalar, 9), (.scalar, 3),
    (.point, 3), (.scalar, 9), (.scalar, 9), (.scalar, 2),
    (.point, 1), (.point, 8), (.point, 16), (.scalar, 4), (.scalar, 9)]

/-- `KINDS`. -/
def proofKinds : List ProofElementKind :=
  proofSections.flatMap fun kind => List.replicate kind.2 kind.1

/-- `HEADER` of the proof. -/
def proofHeader : List UInt8 := 0x82 :: cborText CANDIDATE_SHUFFLE_PROOF_36_PROFILE ++ [0x98, 106]

def CANDIDATE_SHUFFLE_PROOF_36_BYTES : ℕ := proofHeader.length + 106 * 34

/-- `validateElement`. -/
def validateElement (kind : ProofElementKind) (bytes : FixedBytes 32) :
    Except ShuffleCodecError Unit :=
  match kind with
  | .point => throwIf (P.pointOfBytes bytes).isNone .point
  | .scalar => throwIf (P.scalarOfBytes bytes).isNone .scalar

/-- The loop over the elements of a proof. -/
def readElements : List ProofElementKind → List UInt8 →
    Except ShuffleCodecError (List (FixedBytes 32))
  | [], _ => return []
  | kind :: kinds, bytes => do
      throwIf (bytes.take 2 ≠ [0x58, 32])
        (.error "Candidate shuffle proof elements must be canonical 32-byte strings")
      match parseFixedBytes 32 ((bytes.drop 2).take 32) with
      | none => throw (.error "Candidate shuffle proof has an incorrect byte length")
      | some element => do
          validateElement P kind element
          let elements ← readElements kinds (bytes.drop 34)
          return element :: elements

/-- `decodeCandidateShuffleProof36`. -/
def decodeCandidateShuffleProof36 (bytes : List UInt8) :
    Except ShuffleCodecError (List (FixedBytes 32)) := do
  throwIf (bytes.length ≠ CANDIDATE_SHUFFLE_PROOF_36_BYTES)
    (.error "Candidate shuffle proof has an incorrect byte length")
  throwIf (bytes.take proofHeader.length ≠ proofHeader)
    (.error "Incorrect candidate shuffle proof header")
  readElements P proofKinds (bytes.drop proofHeader.length)

/-! ## What was encoded is decoded -/

variable {P}

theorem exactBytes_append (expected rest : List UInt8) :
    exactBytes expected (expected ++ rest) = .ok rest := by
  unfold exactBytes
  simp [throwIf_neg]

theorem fixedBytes_append {size : ℕ} (bytes : FixedBytes size) (rest : List UInt8) :
    fixedBytes size (cborBytes bytes.val ++ rest) = .ok (bytes, rest) := by
  have htake : (bytes.val ++ rest).take size = bytes.val := by
    rw [List.take_left' bytes.property]
  have hdrop : (bytes.val ++ rest).drop size = rest := by
    rw [List.drop_left' bytes.property]
  unfold fixedBytes cborBytes
  rw [bytes.property, List.append_assoc, exactBytes_append, ok_bind, htake, parseFixedBytes_val,
    hdrop]
  rfl

/-- A number of a width of its own is read back. -/
theorem readRound_wide {value count : ℕ} {tag : UInt8} (rest : List UInt8)
    (htag : ¬ tag.toNat < 24) (hwidth : roundWidth tag.toNat = count) (hcount : count ≠ 0)
    (hlt : value < 256 ^ count) (hmin : roundMinimum count ≤ value) (hmax : value ≤ MAX_SAFE_INTEGER) :
    readRound (tag :: bigEndian count value ++ rest) = .ok (value, rest) := by
  have htake : (bigEndian count value ++ rest).take count = bigEndian count value :=
    List.take_left' (length_bigEndian _ _)
  have hdrop : (bigEndian count value ++ rest).drop count = rest :=
    List.drop_left' (length_bigEndian _ _)
  rw [List.cons_append, readRound, if_neg htag]
  simp only [hwidth]
  rw [throwIf_neg, ok_bind, htake, ofBigEndian_bigEndian hlt, throwIf_neg, ok_bind, hdrop]
  · rfl
  · simp [hmin, hmax]
  · simp [hcount]

theorem readRound_append {value : ℕ} (h : value ≤ MAX_SAFE_INTEGER) (rest : List UInt8) :
    readRound (cborHead 0 value ++ rest) = .ok (value, rest) := by
  have hmax : MAX_SAFE_INTEGER < 256 ^ 8 := by decide
  unfold cborHead
  by_cases h24 : value < 24
  · have hbyte : (UInt8.ofNat value).toNat = value := by
      rw [UInt8.toNat_ofNat']
      exact Nat.mod_eq_of_lt (by omega)
    rw [if_pos h24]
    simp [readRound, hbyte, h24]
  · rw [if_neg h24]
    by_cases h8 : value < 2 ^ 8
    · rw [if_pos h8]
      exact readRound_wide rest (by decide) rfl (by decide) (by omega)
        (by simp [roundMinimum]; omega) h
    · rw [if_neg h8]
      by_cases h16 : value < 2 ^ 16
      · rw [if_pos h16]
        exact readRound_wide rest (by decide) rfl (by decide) (by omega)
          (by simp [roundMinimum]; omega) h
      · rw [if_neg h16]
        by_cases h32 : value < 2 ^ 32
        · rw [if_pos h32]
          exact readRound_wide rest (by decide) rfl (by decide) (by omega)
            (by simp [roundMinimum]; omega) h
        · rw [if_neg h32]
          exact readRound_wide rest (by decide) rfl (by decide) (by omega)
            (by simp [roundMinimum]; omega) h

theorem readSeat_append {seat : ℕ} (h : seat ≤ 3) (rest : List UInt8) :
    readSeat (cborHead 0 seat ++ rest) = .ok (seat, rest) := by
  have hbyte : (UInt8.ofNat seat).toNat = seat := by
    rw [UInt8.toNat_ofNat']
    exact Nat.mod_eq_of_lt (by omega)
  unfold cborHead
  rw [if_pos (by omega)]
  simp [readSeat, hbyte, throwIf_neg, h.not_gt]

theorem readPoint_pointBytes (point : G) : readPoint P (P.pointBytes point).val = .ok point := by
  unfold readPoint
  rw [parseFixedBytes_val, Option.bind_some, (P.pointOfBytes_eq _ _).2 rfl]
  rfl

theorem unpackDeck_flatMap (deck : List (MaskedCard G)) :
    unpackDeck P deck.length (deck.flatMap fun card =>
      (P.pointBytes card.A).val ++ (P.pointBytes card.B).val) = .ok deck := by
  induction deck with
  | nil => rfl
  | cons card rest ih =>
      have hA := (P.pointBytes card.A).property
      have hB := (P.pointBytes card.B).property
      rw [List.length_cons, unpackDeck, List.flatMap_cons]
      rw [List.append_assoc, List.take_left' hA, readPoint_pointBytes, ok_bind,
        List.drop_left' hA, List.take_left' hB, readPoint_pointBytes, ok_bind,
        ← List.append_assoc, List.drop_left' (by rw [List.length_append, hA, hB]), ih]
      rfl

theorem length_packed (deck : List (MaskedCard G)) :
    (deck.flatMap fun card => (P.pointBytes card.A).val ++ (P.pointBytes card.B).val).length
      = 64 * deck.length := by
  induction deck with
  | nil => rfl
  | cons card rest ih =>
      rw [List.flatMap_cons, List.length_append, ih, List.length_append,
        (P.pointBytes card.A).property, (P.pointBytes card.B).property, List.length_cons]
      ring

theorem packDeck_eq_ok {deck : List (MaskedCard G)} {bytes : List UInt8} :
    packDeck P deck = .ok bytes ↔ deck.length = 36 ∧ bytes = deck.flatMap fun card =>
      (P.pointBytes card.A).val ++ (P.pointBytes card.B).val := by
  unfold packDeck
  simp only [check_bind_eq_ok, throwIf_eq_ok, not_not, except_pure_eq, Except.ok.injEq]
  exact and_congr_right fun _ => eq_comm

/-- A packed deck is read back. -/
theorem unpackDeck_packDeck {deck : List (MaskedCard G)} {bytes : List UInt8}
    (h : packDeck P deck = .ok bytes) :
    bytes.length = 2304 ∧ unpackDeck P 36 bytes = .ok deck := by
  obtain ⟨hlength, rfl⟩ := packDeck_eq_ok.1 h
  refine ⟨by rw [length_packed, hlength], ?_⟩
  rw [← hlength]
  exact unpackDeck_flatMap deck

theorem length_cborBytes {size : ℕ} (bytes : FixedBytes size) :
    (cborBytes bytes.val).length = (cborHead 2 size).length + size := by
  unfold cborBytes
  rw [List.length_append, bytes.property]

theorem length_round (value : ℕ) :
    1 ≤ (cborHead 0 value).length ∧ (cborHead 0 value).length ≤ 9 := by
  unfold cborHead
  split_ifs <;> simp

/-- What was encoded is decoded. -/
theorem decodeCandidateShuffleStatement36_encode [DecidableEq G]
    {value : CandidateShuffleStatement36 G} {bytes : List UInt8}
    (h : encodeCandidateShuffleStatement36 P value = .ok bytes) :
    decodeCandidateShuffleStatement36 P bytes = .ok value := by
  unfold encodeCandidateShuffleStatement36 at h
  obtain ⟨hrange, h⟩ := check_bind_eq_ok.1 h
  obtain ⟨hkey, h⟩ := check_bind_eq_ok.1 h
  obtain ⟨input, hinput, h⟩ := bind_eq_ok.1 h
  obtain ⟨output, houtput, h⟩ := bind_eq_ok.1 h
  rw [throwIf_eq_ok, not_or, not_lt, not_lt] at hrange
  rw [throwIf_eq_ok] at hkey
  obtain ⟨hinputLength, hinput⟩ := unpackDeck_packDeck hinput
  obtain ⟨houtputLength, houtput⟩ := unpackDeck_packDeck houtput
  obtain ⟨inputBytes, rfl⟩ : ∃ fixed : FixedBytes 2304, fixed.val = input :=
    ⟨⟨input, hinputLength⟩, rfl⟩
  obtain ⟨outputBytes, rfl⟩ : ∃ fixed : FixedBytes 2304, fixed.val = output :=
    ⟨⟨output, houtputLength⟩, rfl⟩
  have hseat : (cborHead 0 value.seat).length = 1 := by
    unfold cborHead
    rw [if_pos (by omega)]
    rfl
  have hlength : ¬ (bytes.length < MIN_CANDIDATE_SHUFFLE_STATEMENT_BYTES ∨
      MAX_CANDIDATE_SHUFFLE_STATEMENT_BYTES < bytes.length) := by
    have hround := length_round value.round
    have h16 : (cborHead 2 16).length = 1 := rfl
    have h32 : (cborHead 2 32).length = 2 := rfl
    have h2304 : (cborHead 2 2304).length = 3 := rfl
    cases h
    unfold MAX_CANDIDATE_SHUFFLE_STATEMENT_BYTES MIN_CANDIDATE_SHUFFLE_STATEMENT_BYTES
    simp only [List.length_append, length_cborBytes, h16, h32, h2304, hseat]
    omega
  have hend : cborBytes outputBytes.val = cborBytes outputBytes.val ++ [] := by
    rw [List.append_nil]
  unfold decodeCandidateShuffleStatement36
  rw [throwIf_neg hlength, ok_bind]
  cases h
  simp only [List.append_assoc]
  rw [exactBytes_append, ok_bind, fixedBytes_append, ok_bind]
  simp only
  rw [readRound_append hrange.1, ok_bind]
  simp only
  rw [readSeat_append hrange.2, ok_bind]
  simp only
  rw [fixedBytes_append, ok_bind]
  simp only
  rw [fixedBytes_append, ok_bind]
  simp only
  rw [readPoint_pointBytes, ok_bind, throwIf_neg hkey, ok_bind, fixedBytes_append, ok_bind]
  simp only
  rw [hinput, ok_bind, hend, fixedBytes_append, ok_bind]
  simp only
  rw [houtput, ok_bind]
  rfl

/-- Two statements with the same encoding are the same. -/
theorem encodeCandidateShuffleStatement36_inj [DecidableEq G]
    {value value' : CandidateShuffleStatement36 G} {bytes : List UInt8}
    (h : encodeCandidateShuffleStatement36 P value = .ok bytes)
    (h' : encodeCandidateShuffleStatement36 P value' = .ok bytes) : value = value' := by
  have hdecode := decodeCandidateShuffleStatement36_encode h
  rw [decodeCandidateShuffleStatement36_encode h'] at hdecode
  cases hdecode
  rfl

end

end Tablefolk
