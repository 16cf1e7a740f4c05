import Tablefolk.Protocol.Envelope

/-!
# Masked cards and decryption shares

The model of `crypto/ristretto.ts`, `deck/elgamal.ts`, `deck/card-points.ts` and
`deck/proofs.ts`, over an abstract group of prime order `q`.

`Primitives` is what the code takes from its cryptographic libraries: the base
point, the 32-byte encodings of points and scalars, the hash functions, and the
check on identity keys.  The laws in it are the ones the code relies on: an
encoding decodes to what it encodes, and to nothing else.

`verify_createProvenDecryptionShare` is the completeness of the proofs, and
`removeDecryptionShares_eq` what opening a card computes.
-/

namespace Tablefolk

section

variable {q : ℕ} {G : Type} [AddCommGroup G] [Module (ZMod q) G]

/-- The cryptographic libraries the code is built on. -/
structure Primitives (q : ℕ) (G : Type) [AddCommGroup G] [Module (ZMod q) G] where
  /-- `RistrettoPoint.base()` -/
  base : G
  /-- `point.toBytes()` -/
  pointBytes : G → FixedBytes 32
  /-- `RistrettoPoint.fromBytes`, `none` when it throws -/
  pointOfBytes : FixedBytes 32 → Option G
  /-- `encodeRistrettoScalar` -/
  scalarBytes : ZMod q → FixedBytes 32
  /-- `decodeRistrettoScalar`, `none` when it throws -/
  scalarOfBytes : FixedBytes 32 → Option (ZMod q)
  /-- `proofChallengeScalar`: a hash of purpose, context and statement -/
  proofChallengeScalar : ProofDomainPurpose → ProofContext → CborValue → ZMod q
  /-- `deriveCardPoint` -/
  deriveCardPoint : String → String → G
  /-- `hashEnvelope` of the canonical bytes -/
  hashEnvelope : SignedEnvelope → Hash256
  /-- `beaconCommitment` -/
  beaconCommitment : GameId → ℕ → ℕ → RandomSecret → Hash256
  /-- `sha256` of the concatenated beacon secrets -/
  sha256 : List RandomSecret → Hash256
  /-- `importEd25519PublicKey` does not throw -/
  importEd25519PublicKey : IdentityPublicKey → Bool
  /-- the group has prime order -/
  prime : q.Prime
  /-- the base point is not the identity, so it generates the group -/
  base_ne_zero : base ≠ 0
  generates : ∀ point, ∃ scalar : ZMod q, scalar • base = point
  /-- point encodings are canonical -/
  pointOfBytes_eq : ∀ bytes point, pointOfBytes bytes = some point ↔ pointBytes point = bytes
  /-- scalar encodings are canonical -/
  scalarOfBytes_eq : ∀ bytes scalar, scalarOfBytes bytes = some scalar ↔ scalarBytes scalar = bytes

/-! ## Masked cards -/

/-- `MaskedCard`: an ElGamal ciphertext. -/
structure MaskedCard (G : Type) where
  A : G
  B : G
  deriving DecidableEq

/-- What stops a proof or a decryption share from being made. -/
inductive ProofError where
  | position | zeroSecret
  deriving DecidableEq, Repr

/-- `decryptionShare`. -/
def decryptionShare (secretKey : ZMod q) (cardA : G) : Except ProofError G := do
  throwIf (secretKey = 0) .zeroSecret
  return secretKey • cardA

/-- `removeDecryptionShares`. -/
def removeDecryptionShares (card : MaskedCard G) (shares : List G) : G :=
  shares.foldl (fun message share => message - share) card.B

omit [Module (ZMod q) G] in
theorem removeDecryptionShares_eq (card : MaskedCard G) (shares : List G) :
    removeDecryptionShares card shares = card.B - shares.sum := by
  rw [removeDecryptionShares]
  generalize card.B = message
  induction shares generalizing message with
  | nil => simp
  | cons share rest ih =>
      rw [List.foldl_cons, ih, List.sum_cons]
      abel

/-! ## The card table -/

/-- `DeckSpec`. -/
structure DeckSpec where
  id : String
  cards : List String

def MIN_DECK_SIZE : ℕ := 2
def MAX_DECK_SIZE : ℕ := 128

/-- `CardPointTable`: the cards of a deck specification with their points, no card
and no point twice. -/
structure CardPointTable (G : Type) where
  cards : List (String × G)
  size_ge : MIN_DECK_SIZE ≤ cards.length
  size_le : cards.length ≤ MAX_DECK_SIZE
  ids : (cards.map Prod.fst).Nodup
  points : (cards.map Prod.snd).Nodup

/-- `table.size`. -/
def CardPointTable.size (table : CardPointTable G) : ℕ := table.cards.length

/-- `table.identify`: the card at a point. -/
def CardPointTable.identify [DecidableEq G] (table : CardPointTable G) (point : G) :
    Option String :=
  (table.cards.find? fun card => card.2 = point).map Prod.fst

/-- `DeckSpecError`. -/
inductive DeckSpecError where
  | message (text : String)
  deriving DecidableEq, Repr

/-- The loop of the `CardPointTable` constructor: the first card that is unnamed,
repeated, or at the point of an earlier card. -/
def checkCards [DecidableEq G] (seen : List (String × G)) :
    List (String × G) → Except DeckSpecError Unit
  | [] => .ok ()
  | card :: rest => do
      throwIf (card.1 = "") (.message "Every card identifier must be a non-empty string")
      throwIf (card.1 ∈ seen.map Prod.fst)
        (DeckSpecError.message ("Duplicate card identifier: " ++ card.1))
      throwIf (card.2 ∈ seen.map Prod.snd)
        (DeckSpecError.message ("Card-point collision for " ++ card.1))
      checkCards (seen ++ [card]) rest

omit [AddCommGroup G] in
theorem checkCards_ok [DecidableEq G] {cards seen : List (String × G)}
    (h : checkCards seen cards = .ok ()) (hids : (seen.map Prod.fst).Nodup)
    (hpoints : (seen.map Prod.snd).Nodup) :
    ((seen ++ cards).map Prod.fst).Nodup ∧ ((seen ++ cards).map Prod.snd).Nodup := by
  induction cards generalizing seen with
  | nil => simpa using ⟨hids, hpoints⟩
  | cons card rest ih =>
      simp only [checkCards, check_bind_eq_ok, throwIf_eq_ok] at h
      obtain ⟨-, hid, hpoint, hrest⟩ := h
      have snoc : ∀ {α : Type} {l : List α} {a : α}, l.Nodup → a ∉ l → (l ++ [a]).Nodup := by
        intro α l a hl ha
        exact List.nodup_append.2 ⟨hl, List.nodup_singleton a, fun x hx y hy => by
          rintro rfl
          exact ha (List.mem_singleton.1 hy ▸ hx)⟩
      have := ih hrest (by rw [List.map_append]; exact snoc hids hid)
        (by rw [List.map_append]; exact snoc hpoints hpoint)
      simpa [List.append_assoc] using this

/-- `new CardPointTable(spec)`. -/
def Primitives.cardPointTable [DecidableEq G] (P : Primitives q G) (spec : DeckSpec) :
    Except DeckSpecError (CardPointTable G) :=
  if spec.id = "" then .error (.message "Deck specification ID must be a non-empty string")
  else if hsize : MIN_DECK_SIZE ≤ spec.cards.length ∧ spec.cards.length ≤ MAX_DECK_SIZE then
    let cards := spec.cards.map fun id => (id, P.deriveCardPoint spec.id id)
    match hcheck : checkCards [] cards with
    | .error e => .error e
    | .ok () =>
        have hok := checkCards_ok hcheck List.nodup_nil List.nodup_nil
        .ok ⟨cards, by simpa [cards] using hsize.1, by simpa [cards] using hsize.2, hok.1, hok.2⟩
  else .error (.message ("Deck must contain 2 to 128 cards; got " ++ toString spec.cards.length))

omit [AddCommGroup G] in
/-- A point is identified as the card it belongs to. -/
theorem CardPointTable.identify_eq_some [DecidableEq G] {table : CardPointTable G} {point : G}
    {card : String} : table.identify point = some card ↔ (card, point) ∈ table.cards := by
  rw [identify, Option.map_eq_some_iff]
  constructor
  · rintro ⟨entry, hfind, rfl⟩
    have hpoint : entry.2 = point := by simpa using List.find?_some hfind
    exact hpoint ▸ List.mem_of_find?_eq_some hfind
  · intro hmem
    obtain ⟨entry, hentry⟩ := Option.isSome_iff_exists.1
      (List.find?_isSome (p := fun entry : String × G => decide (entry.2 = point)).2
        ⟨(card, point), hmem, by simp⟩)
    have hpoint : entry.2 = point := by simpa using List.find?_some hentry
    refine ⟨entry, hentry, ?_⟩
    have := List.inj_on_of_nodup_map table.points (List.mem_of_find?_eq_some hentry) hmem hpoint
    rw [this]

/-! ## Proofs -/

/-- `SchnorrProofOfPossession`. -/
structure SchnorrProofOfPossession (q : ℕ) (G : Type) where
  R : G
  z : ZMod q
  deriving DecidableEq

/-- `GameKeyShare`. -/
structure GameKeyShare (q : ℕ) (G : Type) where
  H : G
  pop : SchnorrProofOfPossession q G
  deriving DecidableEq

/-- `ChaumPedersenProof`. -/
structure ChaumPedersenProof (q : ℕ) (G : Type) where
  R1 : G
  R2 : G
  z : ZMod q
  deriving DecidableEq

/-- `ProvenDecryptionShare`. -/
structure ProvenDecryptionShare (q : ℕ) (G : Type) where
  S : G
  proof : ChaumPedersenProof q G
  deriving DecidableEq

/-- `randomNonZeroRistrettoScalar`: the first draw in range, and the draws after it.
A draw is the number its 32 masked bytes spell. -/
def randomNonZeroRistrettoScalar (q : ℕ) : List ℕ → Option (ZMod q × List ℕ)
  | [] => none
  | candidate :: rest =>
      if 0 < candidate ∧ candidate < q then some (candidate, rest)
      else randomNonZeroRistrettoScalar q rest

namespace Primitives

variable (P : Primitives q G)

/-- `keyProofChallenge`. -/
def keyProofChallenge (context : ProofContext) (publicKey commitment : G) : ZMod q :=
  P.proofChallengeScalar .proofOfPossession context
    (cborMap [("H", .bytes (P.pointBytes publicKey).val),
      ("R", .bytes (P.pointBytes commitment).val)])

/-- `decryptionProofChallenge`. -/
def decryptionProofChallenge (context : ProofContext) (position : ℕ)
    (publicKey cardA share R1 R2 : G) : ZMod q :=
  P.proofChallengeScalar .decryptionShare context
    (cborMap [("pos", .int position), ("H", .bytes (P.pointBytes publicKey).val),
      ("A", .bytes (P.pointBytes cardA).val), ("S", .bytes (P.pointBytes share).val),
      ("R1", .bytes (P.pointBytes R1).val), ("R2", .bytes (P.pointBytes R2).val)])

/-- `verifyGameKeyShare`. -/
def verifyGameKeyShare [DecidableEq G] (context : ProofContext) (share : GameKeyShare q G) : Bool :=
  let challenge := P.keyProofChallenge context share.H share.pop.R
  decide (share.H ≠ 0) && decide (share.pop.z • P.base = share.pop.R + challenge • share.H)

/-- `createProvenDecryptionShare`, with the nonce that was drawn. -/
def createProvenDecryptionShare (context : ProofContext) (position : ℕ) (secretKey : ZMod q)
    (cardA : G) (nonce : ZMod q) : Except ProofError (ProvenDecryptionShare q G) := do
  throwIf (127 < position) .position
  throwIf (secretKey = 0) .zeroSecret
  let H := secretKey • P.base
  let S ← decryptionShare secretKey cardA
  let R1 := nonce • P.base
  let R2 := nonce • cardA
  let challenge := P.decryptionProofChallenge context position H cardA S R1 R2
  return ⟨S, ⟨R1, R2, nonce + challenge * secretKey⟩⟩

/-- `verifyProvenDecryptionShare`. -/
def verifyProvenDecryptionShare [DecidableEq G] (context : ProofContext) (position : ℕ)
    (publicKey cardA : G) (share : ProvenDecryptionShare q G) : Bool :=
  let challenge := P.decryptionProofChallenge context position publicKey cardA share.S
    share.proof.R1 share.proof.R2
  decide (position ≤ 127) && decide (publicKey ≠ 0) &&
    decide (share.proof.z • P.base = share.proof.R1 + challenge • publicKey) &&
    decide (share.proof.z • cardA = share.proof.R2 + challenge • share.S)

theorem verifyProvenDecryptionShare_iff [DecidableEq G] {context : ProofContext} {position : ℕ}
    {publicKey cardA : G} {share : ProvenDecryptionShare q G} :
    P.verifyProvenDecryptionShare context position publicKey cardA share = true ↔
      position ≤ 127 ∧ publicKey ≠ 0 ∧
      share.proof.z • P.base = share.proof.R1 + P.decryptionProofChallenge context position
        publicKey cardA share.S share.proof.R1 share.proof.R2 • publicKey ∧
      share.proof.z • cardA = share.proof.R2 + P.decryptionProofChallenge context position
        publicKey cardA share.S share.proof.R1 share.proof.R2 • share.S := by
  simp [verifyProvenDecryptionShare, and_assoc]

/-- **A created proof verifies**, in the context it was created for and against the
key of the secret that made it, whatever nonce was drawn. -/
theorem verify_createProvenDecryptionShare [DecidableEq G] {context : ProofContext}
    {position : ℕ} {secretKey nonce : ZMod q} {cardA publicKey : G}
    {share : ProvenDecryptionShare q G} (hkey : secretKey • P.base = publicKey)
    (hne : publicKey ≠ 0)
    (h : P.createProvenDecryptionShare context position secretKey cardA nonce = .ok share) :
    share.S = secretKey • cardA ∧
      P.verifyProvenDecryptionShare context position publicKey cardA share = true := by
  rw [createProvenDecryptionShare, check_bind_eq_ok, check_bind_eq_ok, throwIf_eq_ok,
    throwIf_eq_ok] at h
  obtain ⟨hpos, hsecret, h⟩ := h
  rw [decryptionShare, throwIf_neg hsecret] at h
  cases h
  subst hkey
  have hpos : position ≤ 127 := not_lt.1 hpos
  refine ⟨rfl, (verifyProvenDecryptionShare_iff P).2 ⟨hpos, hne, ?_, ?_⟩⟩
  · rw [add_smul, mul_smul]
  · rw [add_smul, mul_smul]

/-- Creation fails only on a position out of range or a zero secret. -/
theorem createProvenDecryptionShare_ok {context : ProofContext} {position : ℕ}
    {secretKey : ZMod q} {cardA : G} {nonce : ZMod q} (hpos : position ≤ 127)
    (hkey : secretKey ≠ 0) : ∃ share,
      P.createProvenDecryptionShare context position secretKey cardA nonce = .ok share := by
  rw [createProvenDecryptionShare, throwIf_neg (by omega), ok_bind, throwIf_neg hkey, ok_bind]
  simp only [decryptionShare, throwIf_neg hkey, ok_bind]
  exact ⟨_, rfl⟩

end Primitives

end

end Tablefolk
