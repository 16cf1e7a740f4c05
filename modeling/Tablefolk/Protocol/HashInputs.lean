import Tablefolk.Protocol.CborBytes

/-!
# Hash inputs

The model of `protocol/hash-inputs.ts` and `protocol/domains.ts`, and of the input that
`deck/shuffle-crs.ts` derives its generators from: the byte strings that are hashed or signed.

Each is a domain separator with the fields after it.  No separator is a prefix of another, and
after it every field has a fixed size or is self-delimiting.  The inputs of shuffle proofs and of
the reference string share a separator; there the first byte after the game identifier is the
round in one and inside a text in the other.

* `domainSeparator_append_inj`: the separator and what follows it can be told apart.
* `proofChallengeInput_eq_ok`: a proof challenge determines its fields.
* `hash_inputs_separated`: so does every input, and it determines what it is for.
-/

namespace Tablefolk

/-- `asciiToBytes`, of a text that is ASCII. -/
def asciiToBytes (text : String) : List UInt8 := text.toList.map fun c => UInt8.ofNat c.toNat

/-- `DomainPurpose`. -/
inductive DomainPurpose where
  | room | channel | message | card | proofOfPossession | decryptionShare | shuffle | beacon
  deriving DecidableEq, Repr

/-- `DOMAIN_SEPARATORS`. -/
def DOMAIN_SEPARATORS : DomainPurpose → String
  | .room => "p2pcards/v1/room"
  | .channel => "p2pcards/v1/chan"
  | .message => "p2pcards/v1/msg"
  | .card => "p2pcards/v1/card"
  | .proofOfPossession => "p2pcards/v1/pop"
  | .decryptionShare => "p2pcards/v1/dleq"
  | .shuffle => "p2pcards/v1/shuffle"
  | .beacon => "p2pcards/v1/beacon"

/-- `domainSeparator`. -/
def domainSeparator (purpose : DomainPurpose) : List UInt8 :=
  asciiToBytes (DOMAIN_SEPARATORS purpose)

/-- The domain of a proof. -/
def ProofDomainPurpose.domain : ProofDomainPurpose → DomainPurpose
  | .proofOfPossession => .proofOfPossession
  | .decryptionShare => .decryptionShare
  | .shuffle => .shuffle

/-- What the functions of this file throw. -/
inductive HashInputError where
  | range (message : String)
  | type (message : String)
  | cbor (error : CanonicalCborError)
  deriving DecidableEq

/-- `encodeCanonical`, in these functions. -/
def encodeField (value : CborValue) : Except HashInputError (List UInt8) :=
  (encodeCanonicalBytes value).mapError .cbor

/-- `requireUnsignedSafeInteger`. -/
def requireUnsignedSafeInteger (value : ℕ) (label : String) : Except HashInputError Unit :=
  throwIf (MAX_SAFE_INTEGER < value) (.range (label ++ " must be an unsigned safe integer"))

/-- `requireSeat` of the hash inputs. -/
def requireHashSeat (value : ℕ) : Except HashInputError Unit :=
  throwIf (7 < value) (.range "seat must be an integer from 0 through 7")

/-- `requireNonEmptyText` of the hash inputs. -/
def requireText (value label : String) : Except HashInputError Unit :=
  throwIf (value = "") (.type (label ++ " must be a non-empty text string"))

/-! ## The inputs -/

/-- The input of `deriveSignalingRoomId`. -/
def signalingRoomInput (gameId : GameId) : Except HashInputError (List UInt8) :=
  return domainSeparator .room ++ gameId.val

/-- `channelAuthenticationInput`. -/
def channelAuthenticationInput (gameId : GameId) (localFingerprint remoteFingerprint : FixedBytes 32) :
    Except HashInputError (List UInt8) :=
  return domainSeparator .channel ++ (gameId.val ++ (localFingerprint.val ++ remoteFingerprint.val))

/-- `envelopeSignatureInput`, of a canonical envelope. -/
def envelopeSignatureInput (envelope : CborValue) : Except HashInputError (List UInt8) := do
  let canonicalEnvelopeWithoutSignature ← encodeField envelope
  return domainSeparator .message ++ canonicalEnvelopeWithoutSignature

/-- The input of `cardDerivationHash`. -/
def cardDerivationInput (deckSpecId cardId : String) : Except HashInputError (List UInt8) := do
  requireText deckSpecId "deckSpecId"
  requireText cardId "cardId"
  let deckSpec ← encodeField (.text deckSpecId)
  let card ← encodeField (.text cardId)
  return domainSeparator .card ++ (deckSpec ++ card)

/-- The input of `beaconCommitment`. -/
def beaconCommitmentInput (gameId : GameId) (round seat : ℕ) (secret : RandomSecret) :
    Except HashInputError (List UInt8) := do
  requireUnsignedSafeInteger round "round"
  requireHashSeat seat
  let round ← encodeField (.int round)
  let seat ← encodeField (.int seat)
  return domainSeparator .beacon ++ (gameId.val ++ (round ++ (seat ++ secret.val)))

/-- `proofChallengeInput`. -/
def proofChallengeInput (purpose : ProofDomainPurpose) (context : ProofContext)
    (statement : CborValue) : Except HashInputError (List UInt8) := do
  requireUnsignedSafeInteger context.round "round"
  requireText context.phase "phase"
  let round ← encodeField (.int context.round)
  let phase ← encodeField (.text context.phase)
  let statement ← encodeField statement
  return domainSeparator purpose.domain ++ (context.gameId.val ++ (round ++ (phase ++ statement)))

def SHUFFLE_CRS_36_PROFILE : String := "bg-ristretto255-36-4x9-crs-candidate-v1"

/-- The role of a generator of the reference string. -/
inductive ShuffleCrsRole where
  | proof | blinding | message
  deriving DecidableEq, Repr

def ShuffleCrsRole.text : ShuffleCrsRole → String
  | .proof => "proof"
  | .blinding => "blinding"
  | .message => "message"

/-- The value that `derive` of `deriveShuffleCrs36` encodes. -/
def shuffleCrsValue (role : ShuffleCrsRole) (index : ℕ) : CborValue :=
  .array [.text "crs", .text SHUFFLE_CRS_36_PROFILE, .int 4, .int 9, .text role.text, .int index]

/-- The input of `derive` in `deriveShuffleCrs36`. -/
def shuffleCrsInput (role : ShuffleCrsRole) (index : ℕ) : Except HashInputError (List UInt8) := do
  let value ← encodeField (shuffleCrsValue role index)
  return domainSeparator .shuffle ++ value

/-! ## Separators -/

theorem domainSeparator_prefixFree : ∀ purpose purpose' : DomainPurpose,
    domainSeparator purpose <+: domainSeparator purpose' → purpose = purpose' := by
  intro purpose purpose'
  cases purpose <;> cases purpose' <;> decide

/-- The separator and what follows it can be told apart. -/
theorem domainSeparator_append_inj {purpose purpose' : DomainPurpose} {rest rest' : List UInt8}
    (h : domainSeparator purpose ++ rest = domainSeparator purpose' ++ rest') :
    purpose = purpose' ∧ rest = rest' := by
  have hleft : domainSeparator purpose <+: domainSeparator purpose ++ rest := List.prefix_append _ _
  have hright : domainSeparator purpose' <+: domainSeparator purpose ++ rest :=
    h ▸ List.prefix_append _ _
  obtain rfl : purpose = purpose' := by
    rcases le_total (domainSeparator purpose).length (domainSeparator purpose').length with hle | hle
    · exact domainSeparator_prefixFree _ _ (List.prefix_of_prefix_length_le hleft hright hle)
    · exact (domainSeparator_prefixFree _ _ (List.prefix_of_prefix_length_le hright hleft hle)).symm
  exact ⟨rfl, List.append_cancel_left h⟩

theorem encodeField_eq_ok {value : CborValue} {bytes : List UInt8} :
    encodeField value = .ok bytes ↔ encodeCanonicalBytes value = .ok bytes := mapError_eq_ok

/-- An encoded field and what follows it can be told apart. -/
theorem encodeField_append_inj {value value' : CborValue} {bytes bytes' rest rest' : List UInt8}
    (h : encodeField value = .ok bytes) (h' : encodeField value' = .ok bytes')
    (hsame : bytes ++ rest = bytes' ++ rest') : value = value' ∧ rest = rest' :=
  encodeCanonicalBytes_append_inj (encodeField_eq_ok.1 h) (encodeField_eq_ok.1 h') hsame

theorem encodeField_inj {value value' : CborValue} {bytes : List UInt8}
    (h : encodeField value = .ok bytes) (h' : encodeField value' = .ok bytes) : value = value' :=
  (encodeField_append_inj h h' (rfl : bytes ++ [] = bytes ++ [])).1

/-- A field of a fixed size and what follows it can be told apart. -/
theorem fixedBytes_append_inj {size : ℕ} {fixed fixed' : FixedBytes size} {rest rest' : List UInt8}
    (h : fixed.val ++ rest = fixed'.val ++ rest') : fixed = fixed' ∧ rest = rest' := by
  obtain ⟨hval, hrest⟩ := List.append_inj h (fixed.property.trans fixed'.property.symm)
  exact ⟨Subtype.ext hval, hrest⟩

/-! ## What an input is for -/

/-- What is hashed or signed, with its fields. -/
inductive HashInput where
  | room (gameId : GameId)
  | channel (gameId : GameId) (localFingerprint remoteFingerprint : FixedBytes 32)
  | message (envelope : CborValue)
  | card (deckSpecId cardId : String)
  | beacon (gameId : GameId) (round seat : ℕ) (secret : RandomSecret)
  | proof (purpose : ProofDomainPurpose) (context : ProofContext) (statement : CborValue)
  | crs (role : ShuffleCrsRole) (index : ℕ)
  deriving DecidableEq

/-- The bytes. -/
def HashInput.bytes : HashInput → Except HashInputError (List UInt8)
  | .room gameId => signalingRoomInput gameId
  | .channel gameId localFingerprint remoteFingerprint =>
      channelAuthenticationInput gameId localFingerprint remoteFingerprint
  | .message envelope => envelopeSignatureInput envelope
  | .card deckSpecId cardId => cardDerivationInput deckSpecId cardId
  | .beacon gameId round seat secret => beaconCommitmentInput gameId round seat secret
  | .proof purpose context statement => proofChallengeInput purpose context statement
  | .crs role index => shuffleCrsInput role index

/-- The domain. -/
def HashInput.domain : HashInput → DomainPurpose
  | .room _ => .room
  | .channel _ _ _ => .channel
  | .message _ => .message
  | .card _ _ => .card
  | .beacon _ _ _ _ => .beacon
  | .proof purpose _ _ => purpose.domain
  | .crs _ _ => .shuffle

/-- The fields, one after the other. -/
def HashInput.Fields (body : List UInt8) : HashInput → Prop
  | .room gameId => body = gameId.val
  | .channel gameId localFingerprint remoteFingerprint =>
      body = gameId.val ++ (localFingerprint.val ++ remoteFingerprint.val)
  | .message envelope => encodeField envelope = .ok body
  | .card deckSpecId cardId => ∃ deckSpec card, encodeField (.text deckSpecId) = .ok deckSpec ∧
      encodeField (.text cardId) = .ok card ∧ body = deckSpec ++ card
  | .beacon gameId round seat secret => ∃ first second, encodeField (.int round) = .ok first ∧
      encodeField (.int seat) = .ok second ∧
        body = gameId.val ++ (first ++ (second ++ secret.val))
  | .proof _ context statement => ∃ first second third,
      encodeField (.int context.round) = .ok first ∧
      encodeField (.text context.phase) = .ok second ∧ encodeField statement = .ok third ∧
        body = context.gameId.val ++ (first ++ (second ++ third))
  | .crs role index => encodeField (shuffleCrsValue role index) = .ok body

theorem proofChallengeInput_eq_ok {purpose : ProofDomainPurpose} {context : ProofContext}
    {statement : CborValue} {bytes : List UInt8}
    (h : proofChallengeInput purpose context statement = .ok bytes) :
    ∃ first second third, encodeField (.int context.round) = .ok first ∧
      encodeField (.text context.phase) = .ok second ∧ encodeField statement = .ok third ∧
        bytes = domainSeparator purpose.domain ++
          (context.gameId.val ++ (first ++ (second ++ third))) := by
  unfold proofChallengeInput at h
  obtain ⟨-, h⟩ := check_bind_eq_ok.1 h
  obtain ⟨-, h⟩ := check_bind_eq_ok.1 h
  obtain ⟨first, hfirst, h⟩ := bind_eq_ok.1 h
  obtain ⟨second, hsecond, h⟩ := bind_eq_ok.1 h
  obtain ⟨third, hthird, h⟩ := bind_eq_ok.1 h
  cases h
  exact ⟨first, second, third, hfirst, hsecond, hthird, rfl⟩

/-- An input is its separator with its fields. -/
theorem HashInput.bytes_eq_ok {input : HashInput} {bytes : List UInt8}
    (h : input.bytes = .ok bytes) :
    ∃ body, bytes = domainSeparator input.domain ++ body ∧ input.Fields body := by
  cases input with
  | room gameId =>
      cases h
      exact ⟨_, rfl, rfl⟩
  | channel gameId localFingerprint remoteFingerprint =>
      cases h
      exact ⟨_, rfl, rfl⟩
  | message envelope =>
      obtain ⟨body, hbody, h⟩ := bind_eq_ok.1 h
      cases h
      exact ⟨body, rfl, hbody⟩
  | card deckSpecId cardId =>
      obtain ⟨-, h⟩ := check_bind_eq_ok.1 h
      obtain ⟨-, h⟩ := check_bind_eq_ok.1 h
      obtain ⟨first, hfirst, h⟩ := bind_eq_ok.1 h
      obtain ⟨second, hsecond, h⟩ := bind_eq_ok.1 h
      cases h
      exact ⟨_, rfl, first, second, hfirst, hsecond, rfl⟩
  | beacon gameId round seat secret =>
      obtain ⟨-, h⟩ := check_bind_eq_ok.1 h
      obtain ⟨-, h⟩ := check_bind_eq_ok.1 h
      obtain ⟨first, hfirst, h⟩ := bind_eq_ok.1 h
      obtain ⟨second, hsecond, h⟩ := bind_eq_ok.1 h
      cases h
      exact ⟨_, rfl, first, second, hfirst, hsecond, rfl⟩
  | proof purpose context statement =>
      obtain ⟨first, second, third, hfirst, hsecond, hthird, rfl⟩ := proofChallengeInput_eq_ok h
      exact ⟨_, rfl, first, second, third, hfirst, hsecond, hthird, rfl⟩
  | crs role index =>
      obtain ⟨body, hbody, h⟩ := bind_eq_ok.1 h
      cases h
      exact ⟨body, rfl, hbody⟩

/-! ## The separator of shuffles -/

/-- A round starts with the head of a number. -/
theorem head_encodeField_int {round : ℕ} {bytes : List UInt8}
    (h : encodeField (.int round) = .ok bytes) : ∃ byte rest, bytes = byte :: rest ∧
      byte.toNat < 32 := by
  obtain ⟨rfl, -⟩ := encodeCanonicalBytes_eq_ok (encodeField_eq_ok.1 h)
  have hencoded : (CborValue.int round).encoded = cborHead 0 round := by
    rw [CborValue.encoded, if_pos (Int.natCast_nonneg round), Int.toNat_natCast]
  rw [hencoded]
  unfold cborHead
  split_ifs with h24
  · refine ⟨_, _, rfl, ?_⟩
    rw [UInt8.toNat_ofNat']
    omega
  all_goals exact ⟨_, _, rfl, by decide⟩

/-- The first bytes of the value of a generator. -/
theorem encoded_shuffleCrsValue (role : ShuffleCrsRole) (index : ℕ) :
    ∃ rest, (shuffleCrsValue role index).encoded =
      cborHead 4 6 ++ (cborText "crs" ++ (cborText SHUFFLE_CRS_36_PROFILE ++ rest)) := by
  exact ⟨encodedItems [.int 4, .int 9, .text role.text, .int index], rfl⟩

/-- The byte after the game identifier is not that of a proof. -/
theorem getElem?_shuffleCrsValue (role : ShuffleCrsRole) (index : ℕ) :
    (shuffleCrsValue role index).encoded[16]? = some 0x74 := by
  obtain ⟨rest, hencoded⟩ := encoded_shuffleCrsValue role index
  have hstart : (cborHead 4 6 ++ (cborText "crs" ++ cborText SHUFFLE_CRS_36_PROFILE))[16]?
      = some 0x74 := by
    unfold cborText
    rw [toList_eq_data, toList_eq_data]
    decide
  have hassoc : cborHead 4 6 ++ (cborText "crs" ++ (cborText SHUFFLE_CRS_36_PROFILE ++ rest)) =
      (cborHead 4 6 ++ (cborText "crs" ++ cborText SHUFFLE_CRS_36_PROFILE)) ++ rest := by
    simp only [List.append_assoc]
  have hlength := (List.getElem?_eq_some_iff.1 hstart).1
  rw [hencoded, hassoc, List.getElem?_append_left hlength, hstart]

/-- No proof has the fields of a generator. -/
theorem proof_ne_crs {context : ProofContext} {statement : CborValue} {body : List UInt8}
    {purpose : ProofDomainPurpose} {role : ShuffleCrsRole} {index : ℕ}
    (hproof : (HashInput.proof purpose context statement).Fields body)
    (hcrs : (HashInput.crs role index).Fields body) : False := by
  obtain ⟨first, second, third, hfirst, -, -, rfl⟩ := hproof
  obtain ⟨hbody, -⟩ := encodeCanonicalBytes_eq_ok (encodeField_eq_ok.1 hcrs)
  obtain ⟨byte, rest, rfl, hbyte⟩ := head_encodeField_int hfirst
  have hget := getElem?_shuffleCrsValue role index
  have hlength : context.gameId.val.length = 16 := context.gameId.property
  rw [← hbody, List.getElem?_append_right (by omega), hlength] at hget
  simp only [Nat.sub_self, List.cons_append, List.getElem?_cons_zero, Option.some.injEq] at hget
  rw [hget] at hbyte
  exact absurd hbyte (by decide)

/-! ## Inputs are separated -/

theorem ProofDomainPurpose.domain_inj {purpose purpose' : ProofDomainPurpose}
    (h : purpose.domain = purpose'.domain) : purpose = purpose' := by
  cases purpose <;> cases purpose' <;> first | rfl | cases h

theorem natCast_int_inj {number number' : ℕ} (h : CborValue.int number = CborValue.int number') :
    number = number' := by
  rw [CborValue.int.injEq] at h
  exact Int.ofNat_inj.1 h

theorem shuffleCrsValue_inj {role role' : ShuffleCrsRole} {index index' : ℕ}
    (h : shuffleCrsValue role index = shuffleCrsValue role' index') :
    role = role' ∧ index = index' := by
  unfold shuffleCrsValue at h
  simp only [CborValue.array.injEq, List.cons.injEq, true_and, and_true, CborValue.text.injEq] at h
  refine ⟨?_, natCast_int_inj h.2⟩
  have hrole := h.1
  cases role <;> cases role' <;> first | rfl | (revert hrole; decide)

/-- Two proofs with the same fields. -/
theorem proof_fields_inj {purpose purpose' : ProofDomainPurpose} {context context' : ProofContext}
    {statement statement' : CborValue} {body : List UInt8}
    (h : (HashInput.proof purpose context statement).Fields body)
    (h' : (HashInput.proof purpose' context' statement').Fields body) :
    context = context' ∧ statement = statement' := by
  obtain ⟨first, second, third, hfirst, hsecond, hthird, rfl⟩ := h
  obtain ⟨first', second', third', hfirst', hsecond', hthird', hsame⟩ := h'
  obtain ⟨hgame, hsame⟩ := fixedBytes_append_inj hsame
  obtain ⟨hround, hsame⟩ := encodeField_append_inj hfirst hfirst' hsame
  obtain ⟨hphase, hsame⟩ := encodeField_append_inj hsecond hsecond' hsame
  obtain rfl := hsame
  refine ⟨?_, encodeField_inj hthird hthird'⟩
  obtain ⟨gameId, round, phase⟩ := context
  obtain ⟨gameId', round', phase'⟩ := context'
  obtain rfl : gameId = gameId' := hgame
  obtain rfl := natCast_int_inj hround
  obtain rfl := CborValue.text.inj hphase
  rfl

theorem beacon_fields_inj {gameId gameId' : GameId} {round round' seat seat' : ℕ}
    {secret secret' : RandomSecret} {body : List UInt8}
    (h : (HashInput.beacon gameId round seat secret).Fields body)
    (h' : (HashInput.beacon gameId' round' seat' secret').Fields body) :
    HashInput.beacon gameId round seat secret = .beacon gameId' round' seat' secret' := by
  obtain ⟨first, second, hfirst, hsecond, rfl⟩ := h
  obtain ⟨first', second', hfirst', hsecond', hsame⟩ := h'
  obtain ⟨rfl, hnumbers⟩ := fixedBytes_append_inj hsame
  obtain ⟨hround, hlast⟩ := encodeField_append_inj hfirst hfirst' hnumbers
  obtain ⟨hseat, hsecret⟩ := encodeField_append_inj hsecond hsecond' hlast
  obtain rfl := natCast_int_inj hround
  obtain rfl := natCast_int_inj hseat
  obtain rfl : secret = secret' := Subtype.ext hsecret
  rfl

theorem card_fields_inj {deckSpecId deckSpecId' cardId cardId' : String} {body : List UInt8}
    (h : (HashInput.card deckSpecId cardId).Fields body)
    (h' : (HashInput.card deckSpecId' cardId').Fields body) :
    HashInput.card deckSpecId cardId = .card deckSpecId' cardId' := by
  obtain ⟨first, second, hfirst, hsecond, rfl⟩ := h
  obtain ⟨first', second', hfirst', hsecond', hsame⟩ := h'
  obtain ⟨hdeck, hsame⟩ := encodeField_append_inj hfirst hfirst' hsame
  obtain rfl := hsame
  obtain rfl := CborValue.text.inj hdeck
  obtain rfl := CborValue.text.inj (encodeField_inj hsecond hsecond')
  rfl

theorem channel_fields_inj {gameId gameId' : GameId} {own own' other other' : FixedBytes 32}
    {body : List UInt8} (h : (HashInput.channel gameId own other).Fields body)
    (h' : (HashInput.channel gameId' own' other').Fields body) :
    HashInput.channel gameId own other = .channel gameId' own' other' := by
  obtain rfl := h
  obtain ⟨rfl, hsame⟩ := fixedBytes_append_inj h'
  obtain ⟨rfl, hother⟩ := fixedBytes_append_inj hsame
  obtain rfl : other = other' := Subtype.ext hother
  rfl

/-- Two inputs with the same bytes are for the same purpose, with the same fields. -/
theorem HashInput.eq_of_bytes {input input' : HashInput} {bytes : List UInt8}
    (h : input.bytes = .ok bytes) (h' : input'.bytes = .ok bytes) : input = input' := by
  obtain ⟨body, rfl, hfields⟩ := HashInput.bytes_eq_ok h
  obtain ⟨body', hsame, hfields'⟩ := HashInput.bytes_eq_ok h'
  obtain ⟨hdomain, rfl⟩ := domainSeparator_append_inj hsame
  cases input with
  | room gameId =>
      cases input' with
      | room gameId' =>
          obtain rfl : gameId = gameId' := Subtype.ext (hfields.symm.trans hfields')
          rfl
      | proof purpose context statement => cases purpose <;> cases hdomain
      | _ => cases hdomain
  | channel gameId own other =>
      cases input' with
      | channel gameId' own' other' => exact channel_fields_inj hfields hfields'
      | proof purpose context statement => cases purpose <;> cases hdomain
      | _ => cases hdomain
  | message envelope =>
      cases input' with
      | message envelope' =>
          obtain rfl := encodeField_inj hfields hfields'
          rfl
      | proof purpose context statement => cases purpose <;> cases hdomain
      | _ => cases hdomain
  | card deckSpecId cardId =>
      cases input' with
      | card deckSpecId' cardId' => exact card_fields_inj hfields hfields'
      | proof purpose context statement => cases purpose <;> cases hdomain
      | _ => cases hdomain
  | beacon gameId round seat secret =>
      cases input' with
      | beacon gameId' round' seat' secret' => exact beacon_fields_inj hfields hfields'
      | proof purpose context statement => cases purpose <;> cases hdomain
      | _ => cases hdomain
  | proof purpose context statement =>
      cases input' with
      | proof purpose' context' statement' =>
          obtain rfl := ProofDomainPurpose.domain_inj hdomain
          obtain ⟨rfl, rfl⟩ := proof_fields_inj hfields hfields'
          rfl
      | crs role index => exact (proof_ne_crs hfields hfields').elim
      | _ => cases purpose <;> cases hdomain
  | crs role index =>
      cases input' with
      | crs role' index' =>
          obtain ⟨rfl, rfl⟩ := shuffleCrsValue_inj (encodeField_inj hfields hfields')
          rfl
      | proof purpose context statement => exact (proof_ne_crs hfields' hfields).elim
      | _ => cases hdomain

/-- What an input is for: its domain, and whether it is a generator of the reference string, which
shares the domain of shuffle proofs. -/
def HashInput.use (input : HashInput) : DomainPurpose × Bool :=
  (input.domain, match input with
    | .crs _ _ => true
    | _ => false)

/-- **Hash inputs are injective and separated by purpose.**  The bytes of an input determine all
its fields, and inputs for two different purposes are never the same bytes. -/
theorem hash_inputs_separated :
    (∀ (input input' : HashInput) (bytes : List UInt8), input.bytes = .ok bytes →
      input'.bytes = .ok bytes → input = input') ∧
    ∀ (input input' : HashInput) (bytes bytes' : List UInt8), input.use ≠ input'.use →
      input.bytes = .ok bytes → input'.bytes = .ok bytes' → bytes ≠ bytes' := by
  refine ⟨fun input input' bytes h h' => HashInput.eq_of_bytes h h', ?_⟩
  intro input input' bytes bytes' huse h h' hsame
  obtain rfl := HashInput.eq_of_bytes h (hsame ▸ h')
  exact huse rfl

end Tablefolk
