import Tablefolk.Protocol.Envelope

/-!
# The codec of envelopes

The model of `encoding/value.ts` and `encoding/canonical.ts`, and of `signEnvelope` and
`decodeAndVerifyEnvelope` in `protocol/envelope.ts`.

The bytes of `encodeCanonical` and the value they encode determine each other, so a
`CanonicalCbor` is a value that has passed `assertCborValue`; other byte strings are refused
before anything here sees them.  `Ed25519` is what the code uses of the signature scheme.

The encoder and the decoder do not count nesting alike.  `assertCborValue` counts one level for an
array or a map.  `decode` of `cbor2` is called with the same limit, but goes two levels down for
the items of an array and one for the entries of a map (`CborValue.readDepth`).

* `validateValue_le`: a value that may stand at some depth may stand higher up.
* `CborValue.FitsAt.of_readDepth`: what the decoder gets through, the encoder writes.
* `decodeAndVerifyEnvelope_value`: a signed envelope is decoded from its own bytes.
* `signEnvelope_eq_ok`: what signing returns; it decodes when its body can be read one level down.
-/

namespace Tablefolk

/-! ## Canonical CBOR -/

def MAX_CBOR_NESTING_DEPTH : ℕ := 32

/-- `CanonicalCborErrorCode`. -/
inductive CanonicalCborErrorCode where
  | MALFORMED | NON_CANONICAL | UNSUPPORTED_VALUE
  deriving DecidableEq, Repr

/-- `CanonicalCborError`. -/
structure CanonicalCborError where
  code : CanonicalCborErrorCode
  message : String
  deriving DecidableEq, Repr

/-- `unsupported`. -/
def unsupported (path detail : String) : CanonicalCborError :=
  ⟨.UNSUPPORTED_VALUE, path ++ " " ++ detail⟩

/-- `assertDepth`. -/
def assertDepth (depth : ℕ) (path : String) : Except CanonicalCborError Unit :=
  throwIf (MAX_CBOR_NESTING_DEPTH < depth)
    (unsupported path ("exceeds the maximum nesting depth of " ++ toString MAX_CBOR_NESTING_DEPTH))

mutual

/-- `validateValue`: texts and keys are well formed, and a value here has no cycles. -/
def validateValue (path : String) (depth : ℕ) : CborValue → Except CanonicalCborError Unit
  | .null | .bool _ | .text _ | .bytes _ => assertDepth depth path
  | .int value => do
      assertDepth depth path
      throwIf (MAX_SAFE_INTEGER < value.natAbs)
        (unsupported path "must be a safe integer other than negative zero")
  | .array items => do
      assertDepth depth path
      validateItems path 0 (depth + 1) items
  | .map entries => do
      assertDepth depth path
      validateEntries path (depth + 1) entries

/-- The items of an array, from index `index` on. -/
def validateItems (path : String) (index depth : ℕ) :
    List CborValue → Except CanonicalCborError Unit
  | [] => return ()
  | item :: rest => do
      validateValue (path ++ "[" ++ toString index ++ "]") depth item
      validateItems path (index + 1) depth rest

/-- The entries of a map. -/
def validateEntries (path : String) (depth : ℕ) :
    List (String × CborValue) → Except CanonicalCborError Unit
  | [] => return ()
  | (key, value) :: rest => do
      validateValue (path ++ "." ++ key) depth value
      validateEntries path depth rest

end

/-- `assertCborValue`. -/
def assertCborValue (value : CborValue) : Except CanonicalCborError Unit := validateValue "$" 0 value

/-- The value may stand this deep in another one. -/
def CborValue.FitsAt (value : CborValue) (depth : ℕ) : Prop :=
  ∀ path, validateValue path depth value = .ok ()

mutual

theorem validateValue_le {path path' : String} {depth depth' : ℕ} (hle : depth' ≤ depth) :
    ∀ value, validateValue path depth value = .ok () → validateValue path' depth' value = .ok ()
  | .null, h | .bool _, h | .text _, h | .bytes _, h => by
      simp only [validateValue, assertDepth, throwIf_eq_ok] at h ⊢
      omega
  | .int value, h => by
      simp only [validateValue, assertDepth, check_bind_eq_ok, throwIf_eq_ok] at h ⊢
      exact ⟨by omega, h.2⟩
  | .array items, h => by
      simp only [validateValue, assertDepth, check_bind_eq_ok, throwIf_eq_ok] at h ⊢
      exact ⟨by omega, validateItems_le (by omega) items h.2⟩
  | .map entries, h => by
      simp only [validateValue, assertDepth, check_bind_eq_ok, throwIf_eq_ok] at h ⊢
      exact ⟨by omega, validateEntries_le (by omega) entries h.2⟩

theorem validateItems_le {path path' : String} {index index' depth depth' : ℕ}
    (hle : depth' ≤ depth) : ∀ items, validateItems path index depth items = .ok () →
      validateItems path' index' depth' items = .ok ()
  | [], _ => rfl
  | item :: rest, h => by
      simp only [validateItems, check_bind_eq_ok] at h ⊢
      exact ⟨validateValue_le hle item h.1, validateItems_le hle rest h.2⟩

theorem validateEntries_le {path path' : String} {depth depth' : ℕ} (hle : depth' ≤ depth) :
    ∀ entries, validateEntries path depth entries = .ok () →
      validateEntries path' depth' entries = .ok ()
  | [], _ => rfl
  | (_, value) :: rest, h => by
      simp only [validateEntries, check_bind_eq_ok] at h ⊢
      exact ⟨validateValue_le hle value h.1, validateEntries_le hle rest h.2⟩

end

theorem fitsAt_iff {value : CborValue} {depth : ℕ} {path : String} :
    value.FitsAt depth ↔ validateValue path depth value = .ok () :=
  ⟨fun h => h path, fun h _ => validateValue_le le_rfl value h⟩

theorem fitsAt_iff_root {value : CborValue} {depth : ℕ} :
    value.FitsAt depth ↔ validateValue "$" depth value = .ok () := fitsAt_iff

/-- A value that may stand at some depth may stand higher up. -/
theorem CborValue.FitsAt.mono {value : CborValue} {depth depth' : ℕ} (h : value.FitsAt depth)
    (hle : depth' ≤ depth) : value.FitsAt depth' := by
  intro path
  exact validateValue_le hle value (h path)

theorem fitsAt_array {items : List CborValue} {depth : ℕ} : (CborValue.array items).FitsAt depth ↔
    depth ≤ MAX_CBOR_NESTING_DEPTH ∧ ∀ item ∈ items, item.FitsAt (depth + 1) := by
  have hitems : ∀ path index, validateItems path index (depth + 1) items = .ok () ↔
      ∀ item ∈ items, item.FitsAt (depth + 1) := by
    intro path
    induction items with
    | nil => simp [validateItems]
    | cons item rest ih =>
        intro index
        simp only [validateItems, check_bind_eq_ok, ih, List.forall_mem_cons, ← fitsAt_iff]
  simp only [fitsAt_iff_root, validateValue, assertDepth, check_bind_eq_ok,
    throwIf_eq_ok, not_lt]
  rw [hitems]
  simp only [fitsAt_iff_root]

theorem fitsAt_map {entries : CborRecord} {depth : ℕ} : (CborValue.map entries).FitsAt depth ↔
    depth ≤ MAX_CBOR_NESTING_DEPTH ∧ ∀ entry ∈ entries, entry.2.FitsAt (depth + 1) := by
  have hentries : ∀ path, validateEntries path (depth + 1) entries = .ok () ↔
      ∀ entry ∈ entries, entry.2.FitsAt (depth + 1) := by
    intro path
    induction entries with
    | nil => simp [validateEntries]
    | cons entry rest ih =>
        obtain ⟨key, value⟩ := entry
        simp only [validateEntries, check_bind_eq_ok, ih, List.forall_mem_cons, ← fitsAt_iff]
  simp only [fitsAt_iff_root, validateValue, assertDepth, check_bind_eq_ok,
    throwIf_eq_ok, not_lt]
  rw [hentries]
  simp only [fitsAt_iff_root]

theorem fitsAt_cborMap {entries : CborRecord} {depth : ℕ} : (cborMap entries).FitsAt depth ↔
    depth ≤ MAX_CBOR_NESTING_DEPTH ∧ ∀ entry ∈ entries, entry.2.FitsAt (depth + 1) := by
  unfold cborMap
  simp [fitsAt_map]

/-- `CanonicalCbor`: the bytes of a value that has passed the check. -/
abbrev CanonicalCbor := { value : CborValue // assertCborValue value = .ok () }

/-- `encodeCanonical`. -/
def encodeCanonical (value : CborValue) : Except CanonicalCborError CanonicalCbor :=
  match h : assertCborValue value with
  | .ok () => .ok ⟨value, h⟩
  | .error error => .error error

mutual

/-- How many levels below a value `decode` of `cbor2` counts down to its deepest item: an array
costs two, a map one. -/
def CborValue.readDepth : CborValue → ℕ
  | .null | .bool _ | .int _ | .text _ | .bytes _ => 0
  | .array items => itemsReadDepth items
  | .map entries => entriesReadDepth entries

/-- The same for the items of an array. -/
def itemsReadDepth : List CborValue → ℕ
  | [] => 0
  | item :: rest => max (item.readDepth + 2) (itemsReadDepth rest)

/-- The same for the entries of a map. -/
def entriesReadDepth : List (String × CborValue) → ℕ
  | [] => 0
  | (_, value) :: rest => max (value.readDepth + 1) (entriesReadDepth rest)

end

/-- `decodeCanonical`: `decode` throws at the first item below `maxDepth`. -/
def decodeCanonical (bytes : CanonicalCbor) : Except CanonicalCborError CborValue := do
  throwIf (MAX_CBOR_NESTING_DEPTH < bytes.val.readDepth)
    ⟨.MALFORMED, "Unable to decode canonical CBOR"⟩
  return bytes.val

theorem readDepth_array {items : List CborValue} {limit : ℕ} :
    (CborValue.array items).readDepth ≤ limit ↔ ∀ item ∈ items, item.readDepth + 2 ≤ limit := by
  rw [CborValue.readDepth]
  induction items with
  | nil => simp [itemsReadDepth]
  | cons item rest ih => rw [itemsReadDepth, max_le_iff, ih, List.forall_mem_cons]

theorem readDepth_map {entries : CborRecord} {limit : ℕ} :
    (CborValue.map entries).readDepth ≤ limit ↔
      ∀ entry ∈ entries, entry.2.readDepth + 1 ≤ limit := by
  rw [CborValue.readDepth]
  induction entries with
  | nil => simp [entriesReadDepth]
  | cons entry rest ih =>
      obtain ⟨key, value⟩ := entry
      rw [entriesReadDepth, max_le_iff, ih, List.forall_mem_cons]

theorem readDepth_cborMap {entries : CborRecord} {limit : ℕ} :
    (cborMap entries).readDepth ≤ limit ↔ ∀ entry ∈ entries, entry.2.readDepth + 1 ≤ limit := by
  unfold cborMap
  simp [readDepth_map]

mutual

theorem validateValue_of_readDepth {path : String} {depth depth' : ℕ} :
    ∀ value, validateValue path depth value = .ok () →
      depth' + value.readDepth ≤ MAX_CBOR_NESTING_DEPTH → validateValue path depth' value = .ok ()
  | .null, _, hread | .bool _, _, hread | .text _, _, hread | .bytes _, _, hread => by
      simp only [validateValue, assertDepth, throwIf_eq_ok]
      omega
  | .int value, h, hread => by
      simp only [validateValue, assertDepth, check_bind_eq_ok, throwIf_eq_ok] at h ⊢
      exact ⟨by omega, h.2⟩
  | .array items, h, hread => by
      simp only [validateValue, assertDepth, check_bind_eq_ok, throwIf_eq_ok] at h ⊢
      rw [CborValue.readDepth] at hread
      exact ⟨by omega, validateItems_of_readDepth items h.2 (by omega)⟩
  | .map entries, h, hread => by
      simp only [validateValue, assertDepth, check_bind_eq_ok, throwIf_eq_ok] at h ⊢
      rw [CborValue.readDepth] at hread
      exact ⟨by omega, validateEntries_of_readDepth entries h.2 hread⟩

theorem validateItems_of_readDepth {path : String} {index depth depth' : ℕ} :
    ∀ items, validateItems path index depth items = .ok () →
      depth' + itemsReadDepth items ≤ MAX_CBOR_NESTING_DEPTH →
      validateItems path index (depth' + 1) items = .ok ()
  | [], _, _ => rfl
  | item :: rest, h, hread => by
      simp only [validateItems, check_bind_eq_ok] at h ⊢
      rw [itemsReadDepth] at hread
      exact ⟨validateValue_of_readDepth item h.1 (by omega),
        validateItems_of_readDepth rest h.2 (by omega)⟩

theorem validateEntries_of_readDepth {path : String} {depth depth' : ℕ} :
    ∀ entries, validateEntries path depth entries = .ok () →
      depth' + entriesReadDepth entries ≤ MAX_CBOR_NESTING_DEPTH →
      validateEntries path (depth' + 1) entries = .ok ()
  | [], _, _ => rfl
  | (_, value) :: rest, h, hread => by
      simp only [validateEntries, check_bind_eq_ok] at h ⊢
      rw [entriesReadDepth] at hread
      exact ⟨validateValue_of_readDepth value h.1 (by omega),
        validateEntries_of_readDepth rest h.2 (by omega)⟩

end

/-- A value that the decoder gets through at some depth may be written there: no array or map
costs it fewer levels than it costs the encoder. -/
theorem CborValue.FitsAt.of_readDepth {value : CborValue} {depth depth' : ℕ}
    (h : value.FitsAt depth) (hread : depth' + value.readDepth ≤ MAX_CBOR_NESTING_DEPTH) :
    value.FitsAt depth' := fun path => validateValue_of_readDepth value (h path) hread

theorem decodeCanonical_eq_ok {bytes : CanonicalCbor} {value : CborValue} :
    decodeCanonical bytes = .ok value ↔
      value = bytes.val ∧ value.readDepth ≤ MAX_CBOR_NESTING_DEPTH := by
  unfold decodeCanonical
  rw [check_bind_eq_ok, throwIf_eq_ok, not_lt, except_pure_eq, Except.ok.injEq]
  constructor
  · rintro ⟨hread, rfl⟩
    exact ⟨rfl, hread⟩
  · rintro ⟨rfl, hread⟩
    exact ⟨hread, rfl⟩

theorem expectUnsignedInteger_eq_ok {value : CborValue} {path : String} {maximum number : ℕ} :
    expectUnsignedInteger value path maximum = .ok number ↔
      value = .int number ∧ number ≤ maximum := by
  unfold expectUnsignedInteger
  cases value with
  | int given =>
      simp only [CborValue.int.injEq]
      split_ifs with hbad
      · simp only [false_iff]
        omega
      · rw [not_or, not_lt, not_lt] at hbad
        simp only [Except.ok.injEq]
        omega
  | _ => simp

theorem expectByteString_eq_ok {value : CborValue} {path : String} {bytes : List UInt8} :
    expectByteString value path = .ok bytes ↔ value = .bytes bytes := by
  unfold expectByteString
  cases value <;> simp

theorem encodeCanonical_of_fits {value : CborValue} (h : value.FitsAt 0) :
    encodeCanonical value = .ok ⟨value, h "$"⟩ := by
  unfold encodeCanonical
  split
  · rfl
  · rename_i error herror
    rw [assertCborValue, h] at herror
    cases herror

theorem encodeCanonical_eq_ok {value : CborValue} {bytes : CanonicalCbor} :
    encodeCanonical value = .ok bytes ↔ bytes.val = value := by
  constructor
  · intro h
    unfold encodeCanonical at h
    split at h
    · cases h
      rfl
    · cases h
  · rintro rfl
    exact encodeCanonical_of_fits (fitsAt_iff.2 bytes.property)

/-! ## Signed envelopes -/

/-- `EnvelopeValidationErrorCode`. -/
inductive EnvelopeValidationErrorCode where
  | INVALID_SIGNATURE | MALFORMED_ENVELOPE | SENDER_KEY_MISMATCH | UNSUPPORTED_VERSION
  deriving DecidableEq, Repr

/-- What `signEnvelope` and `decodeAndVerifyEnvelope` throw: an `EnvelopeValidationError`, or
the error of a field or of the codec. -/
inductive EnvelopeError where
  | validation (code : EnvelopeValidationErrorCode) (message : String)
  | field (name message : String)
  | cbor (error : CanonicalCborError)
  deriving DecidableEq, Repr

/-- `malformed`. -/
def malformed (message : String) : EnvelopeError := .validation .MALFORMED_ENVELOPE message

def UNSIGNED_KEYS : List String :=
  ["v", "game", "from", "seq", "prev", "round", "phase", "type", "body"]

def SIGNED_KEYS : List String := UNSIGNED_KEYS ++ ["sig"]

/-- `requireExactMap`. -/
def requireExactMap (value : CborValue) (expectedKeys : List String) :
    Except EnvelopeError CborRecord :=
  match value with
  | .map entries =>
      if entries.length ≠ expectedKeys.length ∨
          ∃ key ∈ expectedKeys, key ∉ entries.map Prod.fst then
        .error (malformed ("Envelope fields must be exactly: " ++ ", ".intercalate expectedKeys))
      else .ok entries
  | _ => .error (malformed "Envelope must be a CBOR map")

/-- `requireUnsignedInteger`. -/
def requireUnsignedInteger (value : CborValue) (field : String) : Except EnvelopeError ℕ :=
  match value with
  | .int number =>
      if number < 0 ∨ (MAX_SAFE_INTEGER : ℤ) < number then
        .error (malformed (field ++ " must be an unsigned safe integer"))
      else .ok number.toNat
  | _ => .error (malformed (field ++ " must be an unsigned safe integer"))

/-- `requireNonEmptyText`. -/
def requireNonEmptyText (value : CborValue) (field : String) : Except EnvelopeError String :=
  match value with
  | .text text =>
      if text = "" then .error (malformed (field ++ " must be a non-empty text string"))
      else .ok text
  | _ => .error (malformed (field ++ " must be a non-empty text string"))

/-- `ENVELOPE_MESSAGE_TYPES`. -/
def ENVELOPE_MESSAGE_TYPES : List EnvelopeMessageType :=
  [.JOIN, .ROSTER, .READY, .KEY_SHARE, .RAND_COMMIT, .RAND_REVEAL, .SHUFFLE, .SHARES, .ACTION,
    .AUDIT_DISCLOSE, .WITNESS, .SYNC_REQ, .SYNC_RESP, .TIMEOUT_VOTE, .VIOLATION]

/-- `requireMessageType`. -/
def requireMessageType (value : CborValue) : Except EnvelopeError EnvelopeMessageType :=
  match value with
  | .text text =>
      match ENVELOPE_MESSAGE_TYPES.find? fun type => type.text = text with
      | some type => .ok type
      | none => .error (malformed "type is not a version 1 envelope message type")
  | _ => .error (malformed "type is not a version 1 envelope message type")

/-- `parseFixedBytes` on a field of an envelope. -/
def requireFixedBytes (value : CborValue) (size : ℕ) (name : String) :
    Except EnvelopeError (FixedBytes size) :=
  match value with
  | .bytes bytes =>
      match parseFixedBytes size bytes with
      | some fixed => .ok fixed
      | none => .error (.field name ("must contain exactly " ++ toString size ++ " bytes; got " ++
          toString bytes.length))
  | _ => .error (.field name "must be a Uint8Array")

/-- `snapshotCborValue`. -/
def snapshotCborValue (value : CborValue) : Except EnvelopeError CborValue :=
  (encodeCanonical value >>= decodeCanonical).mapError .cbor

/-- The fields of `parseUnsignedEnvelope`, once the keys are right. -/
def parseUnsignedFields (record : CborRecord) : Except EnvelopeError UnsignedEnvelope := do
  let version ← requireUnsignedInteger (field record "v") "v"
  throwIf (version ≠ ENVELOPE_VERSION)
    (.validation .UNSUPPORTED_VERSION ("Unsupported envelope version " ++ toString version))
  let game ← requireFixedBytes (field record "game") 16 "game_id"
  let sender ← requireFixedBytes (field record "from") 32 "identity_public_key"
  let seq ← requireUnsignedInteger (field record "seq") "seq"
  let prev ← requireFixedBytes (field record "prev") 32 "sha256_digest"
  let round ← requireUnsignedInteger (field record "round") "round"
  let phase ← requireNonEmptyText (field record "phase") "phase"
  let type ← requireMessageType (field record "type")
  let body ← snapshotCborValue (field record "body")
  return ⟨game, sender, seq, prev, round, phase, type, body⟩

/-- `parseUnsignedEnvelope`. -/
def parseUnsignedEnvelope (value : CborValue) : Except EnvelopeError UnsignedEnvelope := do
  parseUnsignedFields (← requireExactMap value UNSIGNED_KEYS)

/-- `parseSignedEnvelope`; leaving the signature out does not change the other fields. -/
def parseSignedEnvelope (value : CborValue) : Except EnvelopeError SignedEnvelope := do
  let record ← requireExactMap value SIGNED_KEYS
  let unsigned ← parseUnsignedFields record
  let sig ← requireFixedBytes (field record "sig") 64 "ed25519_signature"
  return { unsigned with sig }

/-- `toUnsignedValue`. -/
def UnsignedEnvelope.value (envelope : UnsignedEnvelope) : CborValue := cborMap envelope.entries

/-- `EnvelopeContent`: what an author is given to sign. -/
structure EnvelopeContent where
  round : ℕ
  phase : String
  type : EnvelopeMessageType
  body : CborValue
  deriving DecidableEq

/-- What the code uses of Ed25519: keys, signing and verifying the input
`envelopeSignatureInput(unsignedBytes)`, which the unsigned bytes determine. -/
structure Ed25519 where
  SecretKey : Type
  /-- `deriveEd25519PublicKey` -/
  deriveEd25519PublicKey : SecretKey → IdentityPublicKey
  /-- `signEd25519` of the signature input of these bytes -/
  signEd25519 : CborValue → SecretKey → Ed25519Signature
  /-- `verifyEd25519` -/
  verifyEd25519 : Ed25519Signature → CborValue → IdentityPublicKey → Bool
  /-- a signature verifies under the key of its signer -/
  verify_sign : ∀ bytes key,
    verifyEd25519 (signEd25519 bytes key) bytes (deriveEd25519PublicKey key) = true

/-- `encodeCanonical`, as it throws inside the functions of envelopes. -/
def encodeEnvelope (value : CborValue) : Except EnvelopeError CanonicalCbor :=
  (encodeCanonical value).mapError .cbor

/-- `decodeAndVerifyEnvelope`. -/
def decodeAndVerifyEnvelope (ed : Ed25519) (bytes : CanonicalCbor) :
    Except EnvelopeError SignedEnvelope := do
  let envelope ← ((decodeCanonical bytes).mapError EnvelopeError.cbor >>=
      parseSignedEnvelope).mapError fun
    | .validation code message => .validation code message
    | _ => malformed "Envelope decoding failed"
  let unsignedBytes ← encodeEnvelope envelope.toUnsignedEnvelope.value
  throwIf (ed.verifyEd25519 envelope.sig unsignedBytes.val envelope.from_ = false)
    (.validation .INVALID_SIGNATURE "Envelope signature is invalid")
  let _ ← encodeEnvelope envelope.value
  return envelope

/-- `signEnvelope`. -/
def signEnvelope (ed : Ed25519) (value : UnsignedEnvelope) (secretKey : ed.SecretKey) :
    Except EnvelopeError SignedEnvelope := do
  let envelope ← parseUnsignedEnvelope value.value
  throwIf (envelope.from_ ≠ ed.deriveEd25519PublicKey secretKey)
    (.validation .SENDER_KEY_MISMATCH "Envelope sender does not match the signing key")
  let unsignedBytes ← encodeEnvelope envelope.value
  let signed : SignedEnvelope :=
    { envelope with sig := ed.signEd25519 unsignedBytes.val secretKey }
  let _ ← encodeEnvelope signed.value
  return signed

/-- An artifact of the code: an envelope that is decoded from its own bytes. -/
structure SignedEnvelope.Artifact (ed : Ed25519) (envelope : SignedEnvelope) : Prop where
  seq_le : envelope.seq ≤ MAX_SAFE_INTEGER
  round_le : envelope.round ≤ MAX_SAFE_INTEGER
  phase_ne : envelope.phase ≠ ""
  fits : envelope.value.FitsAt 0
  /-- the decoder gets through it -/
  reads : envelope.value.readDepth ≤ MAX_CBOR_NESTING_DEPTH
  verified : ed.verifyEd25519 envelope.sig envelope.toUnsignedEnvelope.value envelope.from_ = true

/-! ### What the parser gets back -/

theorem mapError_eq_ok {ε δ α : Type} {x : Except ε α} {f : ε → δ} {a : α} :
    x.mapError f = .ok a ↔ x = .ok a := by
  cases x <;> simp [Except.mapError]

theorem requireExactMap_cborMap {entries : CborRecord} {keys : List String}
    (hlen : entries.length = keys.length) (hkeys : ∀ key ∈ keys, key ∈ entries.map Prod.fst) :
    requireExactMap (cborMap entries) keys = .ok (entries.insertionSort canonicalKeyLe) := by
  have hperm := cborMap_entries entries
  rw [cborMap, requireExactMap, if_neg]
  rintro (h | ⟨key, hkey, hnot⟩)
  · exact h (hperm.length_eq.trans hlen)
  · exact hnot ((hperm.map Prod.fst).mem_iff.2 (hkeys key hkey))

theorem requireUnsignedInteger_cast {number : ℕ} (h : number ≤ MAX_SAFE_INTEGER) (name : String) :
    requireUnsignedInteger (.int number) name = .ok number := by
  unfold requireUnsignedInteger
  simp only
  rw [if_neg (by omega), Int.toNat_natCast]

theorem requireUnsignedInteger_eq_ok {value : CborValue} {name : String} {number : ℕ}
    (h : requireUnsignedInteger value name = .ok number) :
    value = .int number ∧ number ≤ MAX_SAFE_INTEGER := by
  unfold requireUnsignedInteger at h
  cases value with
  | int given =>
      simp only at h
      split_ifs at h with hbad
      cases h
      rw [not_or, not_lt, not_lt] at hbad
      exact ⟨by rw [Int.toNat_of_nonneg hbad.1], by omega⟩
  | _ => cases h

theorem requireFixedBytes_val {size : ℕ} (bytes : FixedBytes size) (name : String) :
    requireFixedBytes (.bytes bytes.val) size name = .ok bytes := by
  unfold requireFixedBytes
  simp [parseFixedBytes_val]

theorem requireNonEmptyText_text {text : String} (h : text ≠ "") (name : String) :
    requireNonEmptyText (.text text) name = .ok text := by
  unfold requireNonEmptyText
  simp [h]

theorem requireNonEmptyText_eq_ok {text text' name : String}
    (h : requireNonEmptyText (.text text) name = .ok text') : text ≠ "" ∧ text' = text := by
  unfold requireNonEmptyText at h
  simp only at h
  split_ifs at h with hempty
  cases h
  exact ⟨hempty, rfl⟩

theorem requireMessageType_text (type : EnvelopeMessageType) :
    requireMessageType (.text type.text) = .ok type := by
  cases type <;> rfl

theorem snapshotCborValue_eq_ok {value body : CborValue} :
    snapshotCborValue value = .ok body ↔
      value.FitsAt 0 ∧ value.readDepth ≤ MAX_CBOR_NESTING_DEPTH ∧ body = value := by
  unfold snapshotCborValue
  rw [mapError_eq_ok]
  constructor
  · intro h
    obtain ⟨bytes, hbytes, h⟩ := bind_eq_ok.1 h
    obtain ⟨hbody, hread⟩ := decodeCanonical_eq_ok.1 h
    have hval := encodeCanonical_eq_ok.1 hbytes
    have hsame : body = value := hbody.trans hval
    exact ⟨fitsAt_iff.2 (hval ▸ bytes.property), hsame ▸ hread, hsame⟩
  · rintro ⟨h, hread, rfl⟩
    rw [encodeCanonical_of_fits h, ok_bind, decodeCanonical_eq_ok]
    exact ⟨rfl, hread⟩

/-- The record has the fields of the envelope. -/
def UnsignedEnvelope.ReadFrom (envelope : UnsignedEnvelope) (record : CborRecord) : Prop :=
  ∀ key ∈ UNSIGNED_KEYS, field record key = field envelope.entries key

/-- Parsing the fields of an envelope returns it, and succeeds exactly when its numbers are
safe, its phase is not empty and its body can be encoded and read back. -/
theorem parseUnsignedFields_eq_ok {envelope envelope' : UnsignedEnvelope} {record : CborRecord}
    (hread : envelope.ReadFrom record) : parseUnsignedFields record = .ok envelope' ↔
      envelope.seq ≤ MAX_SAFE_INTEGER ∧ envelope.round ≤ MAX_SAFE_INTEGER ∧
      envelope.phase ≠ "" ∧ envelope.body.FitsAt 0 ∧
      envelope.body.readDepth ≤ MAX_CBOR_NESTING_DEPTH ∧ envelope' = envelope := by
  have hv : field record "v" = .int (ENVELOPE_VERSION : ℕ) := hread "v" (by decide)
  have hgame : field record "game" = .bytes envelope.game.val := hread "game" (by decide)
  have hfrom : field record "from" = .bytes envelope.from_.val := hread "from" (by decide)
  have hseq : field record "seq" = .int envelope.seq := hread "seq" (by decide)
  have hprev : field record "prev" = .bytes envelope.prev.val := hread "prev" (by decide)
  have hround : field record "round" = .int envelope.round := hread "round" (by decide)
  have hphase : field record "phase" = .text envelope.phase := hread "phase" (by decide)
  have htype : field record "type" = .text envelope.type.text := hread "type" (by decide)
  have hbody : field record "body" = envelope.body := hread "body" (by decide)
  unfold parseUnsignedFields
  rw [hv, hgame, hfrom, hseq, hprev, hround, hphase, htype, hbody,
    requireUnsignedInteger_cast (by decide), ok_bind, throwIf_neg (by simp), ok_bind,
    requireFixedBytes_val, ok_bind, requireFixedBytes_val, ok_bind, requireFixedBytes_val,
    requireMessageType_text]
  simp only [ok_bind]
  constructor
  · intro h
    obtain ⟨seq, hseq, h⟩ := bind_eq_ok.1 h
    obtain ⟨round, hround, h⟩ := bind_eq_ok.1 h
    obtain ⟨phase, hphase, h⟩ := bind_eq_ok.1 h
    obtain ⟨body, hbody, h⟩ := bind_eq_ok.1 h
    obtain ⟨heq, hseq⟩ := requireUnsignedInteger_eq_ok hseq
    obtain ⟨heq', hround⟩ := requireUnsignedInteger_eq_ok hround
    obtain ⟨hne, rfl⟩ := requireNonEmptyText_eq_ok hphase
    obtain ⟨hfits, hdepth, rfl⟩ := snapshotCborValue_eq_ok.1 hbody
    obtain rfl : envelope.seq = seq := by simpa using heq
    obtain rfl : envelope.round = round := by simpa using heq'
    cases h
    exact ⟨hseq, hround, hne, hfits, hdepth, rfl⟩
  · rintro ⟨hseq, hround, hne, hfits, hdepth, rfl⟩
    rw [requireUnsignedInteger_cast hseq, ok_bind, requireUnsignedInteger_cast hround, ok_bind,
      requireNonEmptyText_text hne, ok_bind, snapshotCborValue_eq_ok.2 ⟨hfits, hdepth, rfl⟩]
    rfl

theorem keys_entries (envelope : UnsignedEnvelope) : envelope.entries.map Prod.fst = UNSIGNED_KEYS :=
  rfl

theorem parseUnsignedEnvelope_value {envelope envelope' : UnsignedEnvelope} :
    parseUnsignedEnvelope envelope.value = .ok envelope' ↔
      envelope.seq ≤ MAX_SAFE_INTEGER ∧ envelope.round ≤ MAX_SAFE_INTEGER ∧
      envelope.phase ≠ "" ∧ envelope.body.FitsAt 0 ∧
      envelope.body.readDepth ≤ MAX_CBOR_NESTING_DEPTH ∧ envelope' = envelope := by
  unfold parseUnsignedEnvelope UnsignedEnvelope.value
  rw [requireExactMap_cborMap rfl fun key hkey => by rwa [keys_entries], ok_bind]
  apply parseUnsignedFields_eq_ok
  intro key _
  exact field_cborMap (by rw [keys_entries]; decide) key

theorem parseSignedEnvelope_value {envelope envelope' : SignedEnvelope} :
    parseSignedEnvelope envelope.value = .ok envelope' ↔
      envelope.seq ≤ MAX_SAFE_INTEGER ∧ envelope.round ≤ MAX_SAFE_INTEGER ∧
      envelope.phase ≠ "" ∧ envelope.body.FitsAt 0 ∧
      envelope.body.readDepth ≤ MAX_CBOR_NESTING_DEPTH ∧ envelope' = envelope := by
  have hkeys : (envelope.entries ++ [("sig", CborValue.bytes envelope.sig.val)]).map Prod.fst
      = SIGNED_KEYS := rfl
  have hnodup : SIGNED_KEYS.Nodup := by decide
  have hread : envelope.toUnsignedEnvelope.ReadFrom
      ((envelope.entries ++ [("sig", CborValue.bytes envelope.sig.val)]).insertionSort
        canonicalKeyLe) := by
    intro key hkey
    rw [field_cborMap (by rw [hkeys]; exact hnodup)]
    fin_cases hkey <;> rfl
  have hsig : field ((envelope.entries ++ [("sig", CborValue.bytes envelope.sig.val)]).insertionSort
      canonicalKeyLe) "sig" = .bytes envelope.sig.val := by
    rw [field_cborMap (by rw [hkeys]; exact hnodup)]
    rfl
  unfold parseSignedEnvelope SignedEnvelope.value
  rw [requireExactMap_cborMap rfl fun key hkey => by rwa [hkeys], ok_bind, hsig,
    requireFixedBytes_val]
  simp only [ok_bind]
  constructor
  · intro h
    obtain ⟨unsigned, hunsigned, h⟩ := bind_eq_ok.1 h
    obtain ⟨hseq, hround, hphase, hbody, hdepth, rfl⟩ :=
      (parseUnsignedFields_eq_ok hread).1 hunsigned
    cases h
    exact ⟨hseq, hround, hphase, hbody, hdepth, rfl⟩
  · rintro ⟨hseq, hround, hphase, hbody, hdepth, rfl⟩
    rw [(parseUnsignedFields_eq_ok hread).2 ⟨hseq, hround, hphase, hbody, hdepth, rfl⟩]
    rfl

theorem CborValue.FitsAt.le {value : CborValue} {depth : ℕ} (h : value.FitsAt depth) :
    depth ≤ MAX_CBOR_NESTING_DEPTH := by
  have h := h "$"
  cases value <;> simp only [validateValue, assertDepth, check_bind_eq_ok, throwIf_eq_ok] at h <;>
    omega

theorem fitsAt_bytes {bytes : List UInt8} {depth : ℕ} :
    (CborValue.bytes bytes).FitsAt depth ↔ depth ≤ MAX_CBOR_NESTING_DEPTH := by
  simp [fitsAt_iff_root, validateValue, assertDepth]

theorem fitsAt_text {text : String} {depth : ℕ} :
    (CborValue.text text).FitsAt depth ↔ depth ≤ MAX_CBOR_NESTING_DEPTH := by
  simp [fitsAt_iff_root, validateValue, assertDepth]

theorem fitsAt_natCast {number depth : ℕ} : (CborValue.int number).FitsAt depth ↔
    depth ≤ MAX_CBOR_NESTING_DEPTH ∧ number ≤ MAX_SAFE_INTEGER := by
  simp [fitsAt_iff_root, validateValue, assertDepth]

/-- The fields of an envelope may stand at some depth when its body may. -/
theorem fitsAt_entries {envelope : UnsignedEnvelope} {depth : ℕ} :
    (∀ entry ∈ envelope.entries, entry.2.FitsAt depth) ↔ envelope.seq ≤ MAX_SAFE_INTEGER ∧
      envelope.round ≤ MAX_SAFE_INTEGER ∧ envelope.body.FitsAt depth := by
  simp only [UnsignedEnvelope.entries, List.forall_mem_cons, fitsAt_natCast, fitsAt_bytes,
    fitsAt_text]
  constructor
  · rintro ⟨-, -, -, ⟨-, hseq⟩, -, ⟨-, hround⟩, -, -, hbody, -⟩
    exact ⟨hseq, hround, hbody⟩
  · rintro ⟨hseq, hround, hbody⟩
    have hle := hbody.le
    exact ⟨⟨hle, by decide⟩, hle, hle, ⟨hle, hseq⟩, hle, ⟨hle, hround⟩, hle, hle, hbody, by simp⟩

theorem fitsAt_unsigned {envelope : UnsignedEnvelope} {depth : ℕ} :
    envelope.value.FitsAt depth ↔ envelope.seq ≤ MAX_SAFE_INTEGER ∧
      envelope.round ≤ MAX_SAFE_INTEGER ∧ envelope.body.FitsAt (depth + 1) := by
  unfold UnsignedEnvelope.value
  rw [fitsAt_cborMap, fitsAt_entries]
  constructor
  · exact fun h => h.2
  · exact fun h => ⟨by have := h.2.2.le; omega, h⟩

/-- An envelope may stand at some depth when its body may one level down. -/
theorem fitsAt_signed {envelope : SignedEnvelope} {depth : ℕ} :
    envelope.value.FitsAt depth ↔ envelope.seq ≤ MAX_SAFE_INTEGER ∧
      envelope.round ≤ MAX_SAFE_INTEGER ∧ envelope.body.FitsAt (depth + 1) := by
  unfold SignedEnvelope.value
  rw [fitsAt_cborMap, List.forall_mem_append, fitsAt_entries]
  simp only [List.forall_mem_singleton, fitsAt_bytes]
  constructor
  · exact fun h => h.2.1
  · exact fun h => ⟨by have := h.2.2.le; omega, h, h.2.2.le⟩

/-- A signed envelope costs the decoder one level more than its body. -/
theorem readDepth_signed {envelope : SignedEnvelope} {limit : ℕ} (hlimit : 1 ≤ limit) :
    envelope.value.readDepth ≤ limit ↔ envelope.body.readDepth + 1 ≤ limit := by
  unfold SignedEnvelope.value
  rw [readDepth_cborMap]
  simp only [UnsignedEnvelope.entries, List.forall_mem_append, List.forall_mem_cons,
    List.forall_mem_singleton, CborValue.readDepth]
  simp
  omega

theorem encodeEnvelope_eq_ok {value : CborValue} {bytes : CanonicalCbor} :
    encodeEnvelope value = .ok bytes ↔ bytes.val = value := by
  unfold encodeEnvelope
  rw [← encodeCanonical_eq_ok]
  cases encodeCanonical value <;> simp [Except.mapError]

theorem encodeEnvelope_of_fits {value : CborValue} (h : value.FitsAt 0) :
    encodeEnvelope value = .ok ⟨value, h "$"⟩ := encodeEnvelope_eq_ok.2 rfl

/-- A signed envelope is decoded from its own bytes. -/
theorem decodeAndVerifyEnvelope_value {ed : Ed25519} {envelope : SignedEnvelope}
    (h : envelope.Artifact ed) :
    decodeAndVerifyEnvelope ed ⟨envelope.value, h.fits "$"⟩ = .ok envelope := by
  have hbody := (fitsAt_signed.1 h.fits).2.2
  have hunsigned := fitsAt_unsigned.2 (fitsAt_signed.1 h.fits)
  have hread := (readDepth_signed (by decide)).1 h.reads
  unfold decodeAndVerifyEnvelope
  rw [decodeCanonical_eq_ok.2 ⟨rfl, h.reads⟩]
  simp only [Except.mapError, ok_bind]
  rw [parseSignedEnvelope_value.2
    ⟨h.seq_le, h.round_le, h.phase_ne, hbody.mono (Nat.zero_le _), by omega, rfl⟩]
  simp only [ok_bind]
  rw [encodeEnvelope_of_fits hunsigned, ok_bind, encodeEnvelope_of_fits h.fits]
  rw [throwIf_neg (by simp [h.verified])]
  rfl

/-- What is decoded from the bytes of an envelope is that envelope, and an artifact. -/
theorem decodeAndVerifyEnvelope_eq_ok {ed : Ed25519} {envelope envelope' : SignedEnvelope}
    {bytes : CanonicalCbor} (hbytes : bytes.val = envelope.value)
    (h : decodeAndVerifyEnvelope ed bytes = .ok envelope') :
    envelope' = envelope ∧ envelope.Artifact ed := by
  have hfits : envelope.value.FitsAt 0 := fitsAt_iff.2 (hbytes ▸ bytes.property)
  unfold decodeAndVerifyEnvelope at h
  obtain ⟨parsed, hparsed, h⟩ := bind_eq_ok.1 h
  obtain ⟨value, hvalue, hparsed⟩ := bind_eq_ok.1 (mapError_eq_ok.1 hparsed)
  obtain ⟨hsame, hread⟩ := decodeCanonical_eq_ok.1 (mapError_eq_ok.1 hvalue)
  obtain rfl : value = envelope.value := hsame.trans hbytes
  obtain ⟨hseq, hround, hphase, -, -, rfl⟩ := parseSignedEnvelope_value.1 hparsed
  obtain ⟨unsignedBytes, hunsigned, h⟩ := bind_eq_ok.1 h
  obtain ⟨hverified, h⟩ := check_bind_eq_ok.1 h
  obtain ⟨signedBytes, -, h⟩ := bind_eq_ok.1 h
  cases h
  rw [encodeEnvelope_eq_ok.1 hunsigned] at hverified
  exact ⟨rfl, hseq, hround, hphase, hfits, hread, by simpa using hverified⟩

/-- **Signing.**  An envelope is signed exactly when its numbers are safe, its phase is not
empty, the signer is its sender, and its body may stand one level down and is read back on its
own; the result has these fields. -/
theorem signEnvelope_eq_ok {ed : Ed25519} {unsigned : UnsignedEnvelope} {secretKey : ed.SecretKey}
    {signed : SignedEnvelope} : signEnvelope ed unsigned secretKey = .ok signed ↔
      unsigned.seq ≤ MAX_SAFE_INTEGER ∧ unsigned.round ≤ MAX_SAFE_INTEGER ∧
      unsigned.phase ≠ "" ∧ unsigned.body.FitsAt 1 ∧
      unsigned.body.readDepth ≤ MAX_CBOR_NESTING_DEPTH ∧
      unsigned.from_ = ed.deriveEd25519PublicKey secretKey ∧
      signed = { unsigned with sig := ed.signEd25519 unsigned.value secretKey } := by
  unfold signEnvelope
  constructor
  · intro h
    obtain ⟨envelope, henvelope, h⟩ := bind_eq_ok.1 h
    obtain ⟨hseq, hround, hphase, -, hread, hsame⟩ := parseUnsignedEnvelope_value.1 henvelope
    rw [hsame] at h
    obtain ⟨hsender, h⟩ := check_bind_eq_ok.1 h
    obtain ⟨unsignedBytes, hbytes, h⟩ := bind_eq_ok.1 h
    obtain ⟨signedBytes, -, h⟩ := bind_eq_ok.1 h
    have hval := encodeEnvelope_eq_ok.1 hbytes
    have hfits : unsigned.value.FitsAt 0 := fitsAt_iff.2 (hval ▸ unsignedBytes.property)
    cases h
    rw [hval]
    exact ⟨hseq, hround, hphase, (fitsAt_unsigned.1 hfits).2.2, hread,
      not_not.1 (throwIf_eq_ok.1 hsender), rfl⟩
  · rintro ⟨hseq, hround, hphase, hbody, hread, hsender, rfl⟩
    have hunsigned := fitsAt_unsigned.2 ⟨hseq, hround, hbody⟩
    rw [parseUnsignedEnvelope_value.2
        ⟨hseq, hround, hphase, hbody.mono (Nat.zero_le _), hread, rfl⟩, ok_bind, throwIf_neg (not_not.2 hsender), ok_bind, encodeEnvelope_of_fits hunsigned, ok_bind]
    simp only
    rw [encodeEnvelope_of_fits (fitsAt_signed.2 ⟨hseq, hround, hbody⟩)]
    rfl

/-- What is signed is an artifact when the decoder gets through its body one level down. -/
theorem signEnvelope_artifact {ed : Ed25519} {unsigned : UnsignedEnvelope}
    {secretKey : ed.SecretKey} {signed : SignedEnvelope}
    (h : signEnvelope ed unsigned secretKey = .ok signed)
    (hread : unsigned.body.readDepth + 1 ≤ MAX_CBOR_NESTING_DEPTH) : signed.Artifact ed := by
  obtain ⟨hseq, hround, hphase, hbody, -, hsender, rfl⟩ := signEnvelope_eq_ok.1 h
  refine ⟨hseq, hround, hphase, fitsAt_signed.2 ⟨hseq, hround, hbody⟩,
    (readDepth_signed (by decide)).2 hread, ?_⟩
  simp only
  rw [hsender]
  exact ed.verify_sign _ _

/-- `decodeAndVerifyEnvelope` of the bytes of an envelope. -/
def verifyArtifact (ed : Ed25519) (envelope : SignedEnvelope) :
    Except EnvelopeError SignedEnvelope := do
  decodeAndVerifyEnvelope ed (← encodeEnvelope envelope.value)

theorem verifyArtifact_of_artifact {ed : Ed25519} {envelope : SignedEnvelope}
    (h : envelope.Artifact ed) : verifyArtifact ed envelope = .ok envelope := by
  unfold verifyArtifact
  rw [encodeEnvelope_of_fits h.fits, ok_bind, decodeAndVerifyEnvelope_value h]

theorem verifyArtifact_eq_ok {ed : Ed25519} {envelope envelope' : SignedEnvelope} :
    verifyArtifact ed envelope = .ok envelope' ↔ envelope' = envelope ∧ envelope.Artifact ed := by
  constructor
  · intro h
    obtain ⟨bytes, hbytes, h⟩ := bind_eq_ok.1 h
    exact decodeAndVerifyEnvelope_eq_ok (encodeEnvelope_eq_ok.1 hbytes) h
  · rintro ⟨rfl, h⟩
    exact verifyArtifact_of_artifact h

theorem mapError_verifyArtifact_eq_ok {ε : Type} {ed : Ed25519} {f : EnvelopeError → ε}
    {e e' : SignedEnvelope} :
    (verifyArtifact ed e).mapError f = .ok e' ↔ e' = e ∧ e.Artifact ed :=
  mapError_eq_ok.trans verifyArtifact_eq_ok

end Tablefolk
