import Tablefolk.Protocol.Cbor

/-!
# Signed envelopes

The model of `protocol/fields.ts` and `protocol/envelope.ts`.

An `EnvelopeArtifact` of the source is a byte string that decoded and verified,
with the envelope it holds and its hash; bytes and envelope determine each other,
so an artifact is modelled by its `SignedEnvelope`.  Bytes that do not decode or
whose signature does not verify never become one.
-/

namespace Tablefolk

/-- `FixedBytes<Size, Name>`. -/
abbrev FixedBytes (size : ℕ) := { bytes : List UInt8 // bytes.length = size }

abbrev GameId := FixedBytes 16
abbrev IdentityPublicKey := FixedBytes 32
abbrev Hash256 := FixedBytes 32
abbrev RandomSecret := FixedBytes 32
abbrev Ed25519Signature := FixedBytes 64

instance lawfulIdentities : LawfulBEq IdentityPublicKey := inferInstance

/-- `parseFixedBytes` on a byte string. -/
def parseFixedBytes (size : ℕ) (bytes : List UInt8) : Option (FixedBytes size) :=
  if h : bytes.length = size then some ⟨bytes, h⟩ else none

theorem parseFixedBytes_val {size : ℕ} (bytes : FixedBytes size) :
    parseFixedBytes size bytes.val = some bytes := dif_pos bytes.property

/-- `new Uint8Array(size)`. -/
def zeroBytes (size : ℕ) : FixedBytes size := ⟨List.replicate size 0, List.length_replicate⟩

/-- `ZERO_HASH`, the `prev` of a sender's first envelope. -/
def ZERO_HASH : Hash256 := zeroBytes 32

/-- `ENVELOPE_MESSAGE_TYPES`. -/
inductive EnvelopeMessageType where
  | JOIN | ROSTER | READY | KEY_SHARE | RAND_COMMIT | RAND_REVEAL | SHUFFLE | SHARES | ACTION
  | AUDIT_DISCLOSE | WITNESS | SYNC_REQ | SYNC_RESP | TIMEOUT_VOTE | VIOLATION
  deriving DecidableEq, Repr

def EnvelopeMessageType.text : EnvelopeMessageType → String
  | .JOIN => "JOIN" | .ROSTER => "ROSTER" | .READY => "READY" | .KEY_SHARE => "KEY_SHARE"
  | .RAND_COMMIT => "RAND_COMMIT" | .RAND_REVEAL => "RAND_REVEAL" | .SHUFFLE => "SHUFFLE"
  | .SHARES => "SHARES" | .ACTION => "ACTION" | .AUDIT_DISCLOSE => "AUDIT_DISCLOSE"
  | .WITNESS => "WITNESS" | .SYNC_REQ => "SYNC_REQ" | .SYNC_RESP => "SYNC_RESP"
  | .TIMEOUT_VOTE => "TIMEOUT_VOTE" | .VIOLATION => "VIOLATION"

def ENVELOPE_VERSION : ℕ := 1

/-- `UnsignedEnvelope`; `v` is always `ENVELOPE_VERSION`. -/
structure UnsignedEnvelope where
  game : GameId
  from_ : IdentityPublicKey
  seq : ℕ
  prev : Hash256
  round : ℕ
  phase : String
  type : EnvelopeMessageType
  body : CborValue
  deriving DecidableEq

/-- `SignedEnvelope`. -/
structure SignedEnvelope extends UnsignedEnvelope where
  sig : Ed25519Signature
  deriving DecidableEq

/-- The fields of `toUnsignedValue`. -/
def UnsignedEnvelope.entries (envelope : UnsignedEnvelope) : CborRecord :=
  [("v", .int ENVELOPE_VERSION), ("game", .bytes envelope.game.val),
    ("from", .bytes envelope.from_.val), ("seq", .int envelope.seq),
    ("prev", .bytes envelope.prev.val), ("round", .int envelope.round),
    ("phase", .text envelope.phase), ("type", .text envelope.type.text),
    ("body", envelope.body)]

/-- `toSignedValue`. -/
def SignedEnvelope.value (envelope : SignedEnvelope) : CborValue :=
  cborMap (envelope.entries ++ [("sig", .bytes envelope.sig.val)])

/-- `canonicalBytes.length`. -/
def SignedEnvelope.byteLength (envelope : SignedEnvelope) : ℕ := envelope.value.encodedLength

/-- An envelope adds little to its body. -/
theorem SignedEnvelope.byteLength_le {envelope : SignedEnvelope}
    (hphase : envelope.phase.utf8ByteSize ≤ 200) (hbody : envelope.body.encodedLength ≤ 60000) :
    envelope.byteLength ≤ 64 * 1024 := by
  have hkeys : textLength "v" = 2 ∧ textLength "game" = 5 ∧ textLength "from" = 5 ∧
      textLength "seq" = 4 ∧ textLength "prev" = 5 ∧ textLength "round" = 6 ∧
      textLength "phase" = 6 ∧ textLength "type" = 5 ∧ textLength "body" = 5 ∧
      textLength "sig" = 4 := by decide
  obtain ⟨h1, h2, h3, h4, h5, h6, h7, h8, h9, h10⟩ := hkeys
  have htype : textLength envelope.type.text ≤ 15 := by cases envelope.type <;> decide
  have hphase : textLength envelope.phase ≤ 209 := by
    have := headLength_le envelope.phase.utf8ByteSize
    rw [textLength]
    omega
  have hint : ∀ value : ℤ, (CborValue.int value).encodedLength ≤ 9 := fun _ => headLength_le _
  have hbytes : ∀ bytes : List UInt8, bytes.length ≤ 64 →
      (CborValue.bytes bytes).encodedLength ≤ 73 := by
    intro bytes hlen
    have := headLength_le bytes.length
    rw [CborValue.encodedLength]
    omega
  have hversion := hint ENVELOPE_VERSION
  have hseq := hint envelope.seq
  have hround := hint envelope.round
  have hgame := hbytes envelope.game.val (by rw [envelope.game.property]; omega)
  have hfrom := hbytes envelope.from_.val (by rw [envelope.from_.property]; omega)
  have hprev := hbytes envelope.prev.val (by rw [envelope.prev.property]; omega)
  have hsig := hbytes envelope.sig.val (by rw [envelope.sig.property])
  have hhead := headLength_le
    (envelope.entries ++ [("sig", CborValue.bytes envelope.sig.val)]).length
  rw [SignedEnvelope.byteLength, SignedEnvelope.value, encodedLength_cborMap]
  generalize headLength (List.length _) = head at hhead ⊢
  simp only [UnsignedEnvelope.entries, List.cons_append, List.nil_append, entriesLength, h1, h2, h3,
    h4, h5, h6, h7, h8, h9, h10]
  rw [show (CborValue.text envelope.phase).encodedLength = textLength envelope.phase from rfl,
    show (CborValue.text envelope.type.text).encodedLength = textLength envelope.type.text from rfl]
  omega

/-- `ProofContext`: what a proof is bound to. -/
structure ProofContext where
  gameId : GameId
  round : ℕ
  phase : String
  deriving DecidableEq

/-- `ProofDomainPurpose`. -/
inductive ProofDomainPurpose where
  | proofOfPossession | decryptionShare | shuffle
  deriving DecidableEq, Repr

end Tablefolk
