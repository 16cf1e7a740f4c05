import Tablefolk.Lib.OrderedMap
import Tablefolk.Protocol.CborBytes
import Tablefolk.Protocol.CborOrder
import Tablefolk.Session.SmallGroup

/-!
# Envelopes byte by byte

The model of `normalizeDecodedValue` in `encoding/value.ts`, of `decodeCanonical` in
`encoding/canonical.ts`, and of `signEnvelope` and `decodeAndVerifyEnvelope` in
`protocol/envelope.ts`, on byte strings.

`Cbor2` is what the code uses of the decoder it imports.  Its texts are well formed, since UTF-8
decodes to nothing else.

* `decodeCanonicalBytes_eq_ok`: a value is decoded from its own encoding only, and exactly when
  the decoder gets through it.
* `parseSignedEnvelope_value_eq`: a value that parses is the value of the envelope it holds.
* `envelope_codec_identity`: the codec of envelopes is the identity on what it accepts, and
  accepts what is signed exactly when its body can be read one level down.
-/

namespace Tablefolk

/-! ## Decoded values -/

/-- What `decode` returns: a `number` is an integer, a `map` is a `Map`, and `other` is a value of
a type that `normalizeValue` has no case for. -/
inductive DecodedValue where
  | null
  | bool (value : Bool)
  | number (value : ℤ)
  | fraction
  | text (value : String)
  | bytes (value : List UInt8)
  | array (items : List DecodedValue)
  | map (entries : List (DecodedValue × DecodedValue))
  | other (type : String)

mutual

/-- `normalizeValue`. -/
def normalizeValue (path : String) (depth : ℕ) :
    DecodedValue → Except CanonicalCborError CborValue
  | .null => do
      assertDepth depth path
      return .null
  | .bool value => do
      assertDepth depth path
      return .bool value
  | .number value => do
      assertDepth depth path
      throwIf (MAX_SAFE_INTEGER < value.natAbs)
        (unsupported path "decoded number is not a supported integer")
      return .int value
  | .fraction => do
      assertDepth depth path
      throw (unsupported path "decoded number is not a supported integer")
  | .text value => do
      assertDepth depth path
      return .text value
  | .bytes value => do
      assertDepth depth path
      return .bytes value
  | .array items => do
      assertDepth depth path
      let items ← normalizeItems path 0 (depth + 1) items
      return .array items
  | .map entries => do
      assertDepth depth path
      let normalized ← normalizeEntries path (depth + 1) .empty entries
      return cborMap normalized.entries
  | .other type => do
      assertDepth depth path
      throw (unsupported path ("decoded unsupported value type " ++ type))

/-- The items of an array, from index `index` on. -/
def normalizeItems (path : String) (index depth : ℕ) :
    List DecodedValue → Except CanonicalCborError (List CborValue)
  | [] => return []
  | item :: rest => do
      let item ← normalizeValue (path ++ "[" ++ toString index ++ "]") depth item
      let rest ← normalizeItems path (index + 1) depth rest
      return item :: rest

/-- The entries of a `Map`: one that comes again takes the place of the one before. -/
def normalizeEntries (path : String) (depth : ℕ) (normalized : OrderedMap String CborValue) :
    List (DecodedValue × DecodedValue) →
      Except CanonicalCborError (OrderedMap String CborValue)
  | [] => return normalized
  | (.text key, item) :: rest => do
      let item ← normalizeValue (path ++ "." ++ key) depth item
      normalizeEntries path depth (normalized.set key item) rest
  | _ :: _ => throw (unsupported path "decoded map key is not a text string")

end

mutual

/-- A value as `decode` returns it. -/
def CborValue.decoded : CborValue → DecodedValue
  | .null => .null
  | .bool value => .bool value
  | .int value => .number value
  | .text value => .text value
  | .bytes value => .bytes value
  | .array items => .array (decodedItems items)
  | .map entries => .map (decodedEntries entries)

def decodedItems : List CborValue → List DecodedValue
  | [] => []
  | item :: rest => item.decoded :: decodedItems rest

def decodedEntries : List (String × CborValue) → List (DecodedValue × DecodedValue)
  | [] => []
  | (key, value) :: rest => (.text key, value.decoded) :: decodedEntries rest

end

mutual

/-- What is normalized has its maps in canonical order. -/
theorem normalizeValue_ordered : ∀ (decoded : DecodedValue) (path : String) (depth : ℕ)
    (value : CborValue), normalizeValue path depth decoded = .ok value → value.Ordered
  | .null, _, _, _, h | .bool _, _, _, _, h | .text _, _, _, _, h | .bytes _, _, _, _, h => by
      simp only [normalizeValue, check_bind_eq_ok, except_pure_eq, Except.ok.injEq] at h
      rw [← h.2]
      trivial
  | .number _, _, _, _, h => by
      simp only [normalizeValue, check_bind_eq_ok, except_pure_eq, Except.ok.injEq] at h
      rw [← h.2.2]
      trivial
  | .fraction, _, _, _, h | .other _, _, _, _, h => by
      simp only [normalizeValue, check_bind_eq_ok, except_throw_eq, reduceCtorEq, and_false] at h
  | .array items, path, depth, _, h => by
      simp only [normalizeValue, check_bind_eq_ok] at h
      obtain ⟨normalized, hitems, h⟩ := bind_eq_ok.1 h.2
      cases h
      exact normalizeItems_ordered items path 0 (depth + 1) normalized hitems
  | .map entries, path, depth, _, h => by
      simp only [normalizeValue, check_bind_eq_ok] at h
      obtain ⟨normalized, hentries, h⟩ := bind_eq_ok.1 h.2
      cases h
      refine ordered_cborMap normalized.nodup ?_
      exact normalizeEntries_ordered entries path (depth + 1) .empty normalized
        (by simp [OrderedMap.empty]) hentries

theorem normalizeItems_ordered : ∀ (items : List DecodedValue) (path : String) (index depth : ℕ)
    (values : List CborValue), normalizeItems path index depth items = .ok values →
      OrderedItems values
  | [], _, _, _, _, h => by
      cases h
      trivial
  | item :: rest, path, index, depth, _, h => by
      rw [normalizeItems] at h
      obtain ⟨value, hitem, h⟩ := bind_eq_ok.1 h
      obtain ⟨values, hrest, h⟩ := bind_eq_ok.1 h
      cases h
      exact ⟨normalizeValue_ordered item _ depth value hitem,
        normalizeItems_ordered rest path (index + 1) depth values hrest⟩

theorem normalizeEntries_ordered : ∀ (entries : List (DecodedValue × DecodedValue))
    (path : String) (depth : ℕ) (before after : OrderedMap String CborValue),
    (∀ entry ∈ before.entries, entry.2.Ordered) →
      normalizeEntries path depth before entries = .ok after →
      ∀ entry ∈ after.entries, entry.2.Ordered
  | [], _, _, _, _, hbefore, h => by
      cases h
      exact hbefore
  | (.text key, item) :: rest, path, depth, before, after, hbefore, h => by
      rw [normalizeEntries] at h
      obtain ⟨value, hitem, h⟩ := bind_eq_ok.1 h
      refine normalizeEntries_ordered rest path depth (before.set key value) after ?_ h
      rintro ⟨key', value'⟩ hentry
      have hget := OrderedMap.get?_eq_some.2 hentry
      rw [OrderedMap.get?_set] at hget
      split at hget
      · cases hget
        exact normalizeValue_ordered item _ depth value hitem
      · exact hbefore _ (OrderedMap.get?_eq_some.1 hget)
  | (.null, _) :: _, _, _, _, _, _, h | (.bool _, _) :: _, _, _, _, _, _, h
  | (.number _, _) :: _, _, _, _, _, _, h | (.fraction, _) :: _, _, _, _, _, _, h
  | (.bytes _, _) :: _, _, _, _, _, _, h | (.array _, _) :: _, _, _, _, _, _, h
  | (.map _, _) :: _, _, _, _, _, _, h | (.other _, _) :: _, _, _, _, _, _, h => by
      simp [normalizeEntries] at h

end

/-- A key that is not there is added at the end. -/
theorem setEntries_of_fresh {key : String} {value : CborValue} {entries : CborRecord}
    (h : key ∉ entries.map Prod.fst) :
    OrderedMap.setEntries key value entries = entries ++ [(key, value)] := by
  induction entries with
  | nil => rfl
  | cons entry rest ih =>
      rw [List.map_cons, List.mem_cons, not_or] at h
      rw [OrderedMap.setEntries, if_neg (Ne.symm h.1), ih h.2, List.cons_append]

mutual

/-- A value that may stand at this depth comes back from what `decode` returns for it. -/
theorem normalizeValue_decoded : ∀ (value : CborValue) (path : String) (depth : ℕ), value.Ordered →
    value.FitsAt depth → normalizeValue path depth value.decoded = .ok value
  | .null, path, depth, _, h | .bool _, path, depth, _, h | .text _, path, depth, _, h
  | .bytes _, path, depth, _, h => by
      have h := h path
      simp only [validateValue] at h
      rw [CborValue.decoded, normalizeValue, h, ok_bind]
      rfl
  | .int value, path, depth, _, h => by
      have h := h path
      simp only [validateValue, check_bind_eq_ok, throwIf_eq_ok] at h
      rw [CborValue.decoded, normalizeValue, h.1, ok_bind, throwIf_neg h.2]
      rfl
  | .array items, path, depth, hordered, h => by
      obtain ⟨hdepth, hitems⟩ := fitsAt_array.1 h
      rw [CborValue.decoded, normalizeValue, assertDepth, throwIf_neg (not_lt.2 hdepth), ok_bind,
        normalizeItems_decoded items path 0 (depth + 1) hordered hitems]
      rfl
  | .map entries, path, depth, hordered, h => by
      obtain ⟨hdepth, hentries⟩ := fitsAt_map.1 h
      have hkeys : (entries.map Prod.fst).Nodup :=
        List.pairwise_map.2 (hordered.1.imp And.right)
      obtain ⟨after, hafter, hsame⟩ := normalizeEntries_decoded entries path (depth + 1) .empty
        hordered.2 hentries (by simpa [OrderedMap.empty] using hkeys)
      rw [CborValue.decoded, normalizeValue, assertDepth, throwIf_neg (not_lt.2 hdepth), ok_bind,
        hafter, ok_bind, hsame]
      rw [map_eq_cborMap hordered (List.Perm.refl entries)]
      rfl

theorem normalizeItems_decoded : ∀ (items : List CborValue) (path : String) (index depth : ℕ),
    OrderedItems items → (∀ item ∈ items, item.FitsAt depth) →
      normalizeItems path index depth (decodedItems items) = .ok items
  | [], _, _, _, _, _ => rfl
  | item :: rest, path, index, depth, hordered, h => by
      rw [decodedItems, normalizeItems, normalizeValue_decoded item _ depth hordered.1
        (h item List.mem_cons_self), ok_bind, normalizeItems_decoded rest path (index + 1) depth
          hordered.2 fun other hother => h other (List.mem_cons_of_mem _ hother)]
      rfl

theorem normalizeEntries_decoded : ∀ (entries : List (String × CborValue)) (path : String)
    (depth : ℕ) (before : OrderedMap String CborValue), OrderedEntries entries →
      (∀ entry ∈ entries, entry.2.FitsAt depth) →
      ((before.entries ++ entries).map Prod.fst).Nodup →
      ∃ after, normalizeEntries path depth before (decodedEntries entries) = .ok after ∧
        after.entries = before.entries ++ entries
  | [], _, _, before, _, _, _ => ⟨before, rfl, (List.append_nil _).symm⟩
  | (key, value) :: rest, path, depth, before, hordered, h, hkeys => by
      have hfresh : key ∉ before.entries.map Prod.fst := by
        intro hmem
        rw [List.map_append, List.nodup_append] at hkeys
        exact hkeys.2.2 _ hmem key (by simp) rfl
      have hset : (before.set key value).entries = before.entries ++ [(key, value)] :=
        setEntries_of_fresh hfresh
      obtain ⟨after, hafter, hsame⟩ := normalizeEntries_decoded rest path depth
        (before.set key value) hordered.2
        (fun other hother => h other (List.mem_cons_of_mem _ hother)) (by
          rw [hset, List.append_assoc]
          exact hkeys)
      refine ⟨after, ?_, ?_⟩
      · rw [decodedEntries, normalizeEntries, normalizeValue_decoded value _ depth hordered.1
          (h _ List.mem_cons_self), ok_bind, hafter]
      · rw [hsame, hset, List.append_assoc]
        rfl

end

/-! ## The codec of values -/

/-- `decode` of `cbor2` with the options of `decodeCanonical`; `none` when it throws. -/
structure Cbor2 where
  decode : List UInt8 → Option DecodedValue
  /-- what `encode` has written is read back, unless an item of it is below `maxDepth` -/
  decode_encoded : ∀ value bytes, value.Ordered → encodeCanonicalBytes value = .ok bytes →
    decode bytes =
      if value.readDepth ≤ MAX_CBOR_NESTING_DEPTH then some value.decoded else none

/-- There is such a decoder: one that reads nothing but what `encode` writes. -/
theorem nonempty_cbor2 : Nonempty Cbor2 := by
  classical
  let written (bytes : List UInt8) (value : CborValue) : Prop :=
    value.Ordered ∧ encodeCanonicalBytes value = .ok bytes
  refine ⟨⟨fun bytes => if h : ∃ value, written bytes value then
      if h.choose.readDepth ≤ MAX_CBOR_NESTING_DEPTH then some h.choose.decoded else none
    else none, fun value bytes hordered hbytes => ?_⟩⟩
  have hex : ∃ value, written bytes value := ⟨value, hordered, hbytes⟩
  obtain ⟨hsame, -⟩ := @encodeCanonicalBytes_append_inj _ _ _ _ [] [] hex.choose_spec.2 hbytes rfl
  rw [dif_pos hex, hsame]

/-- `decodeCanonical`. -/
def decodeCanonicalBytes (cbor : Cbor2) (bytes : List UInt8) :
    Except CanonicalCborError CborValue := do
  throwIf (bytes = []) ⟨.MALFORMED, "CBOR input is empty"⟩
  match cbor.decode bytes with
  | none => throw ⟨.MALFORMED, "Unable to decode canonical CBOR"⟩
  | some decoded => do
      let normalized ← normalizeValue "$" 0 decoded
      let reencoded ← encodeCanonicalBytes normalized
      throwIf (bytes ≠ reencoded)
        ⟨.NON_CANONICAL, "CBOR input does not have exactly one canonical encoding"⟩
      return normalized

theorem encodeCanonicalBytes_ok {value : CborValue} {bytes : List UInt8} :
    encodeCanonicalBytes value = .ok bytes ↔
      value.FitsAt 0 ∧ value.encodedLength ≤ MAX_SAFE_INTEGER ∧ bytes = value.encoded := by
  unfold encodeCanonicalBytes assertCborValue
  rw [check_bind_eq_ok, check_bind_eq_ok, throwIf_eq_ok, not_lt, ← fitsAt_iff_root, except_pure_eq,
    Except.ok.injEq, eq_comm (a := bytes)]

/-- **A value is decoded from its own encoding**, when the decoder gets through it, and from no
other bytes. -/
theorem decodeCanonicalBytes_eq_ok {cbor : Cbor2} {bytes : List UInt8} {value : CborValue} :
    decodeCanonicalBytes cbor bytes = .ok value ↔
      value.Ordered ∧ value.readDepth ≤ MAX_CBOR_NESTING_DEPTH ∧
        encodeCanonicalBytes value = .ok bytes := by
  unfold decodeCanonicalBytes
  constructor
  · intro h
    obtain ⟨-, h⟩ := check_bind_eq_ok.1 h
    cases hdecode : cbor.decode bytes with
    | none =>
        rw [hdecode] at h
        cases h
    | some decoded =>
        rw [hdecode] at h
        obtain ⟨normalized, hnormalized, h⟩ := bind_eq_ok.1 h
        obtain ⟨reencoded, hreencoded, h⟩ := bind_eq_ok.1 h
        obtain ⟨hsame, h⟩ := check_bind_eq_ok.1 h
        cases h
        have hordered := normalizeValue_ordered decoded _ _ _ hnormalized
        have hbytes : encodeCanonicalBytes value = .ok bytes := by
          rw [hreencoded, not_not.1 (throwIf_eq_ok.1 hsame)]
        have hread := cbor.decode_encoded value bytes hordered hbytes
        refine ⟨hordered, ?_, hbytes⟩
        by_contra hdeep
        rw [hdecode, if_neg hdeep] at hread
        cases hread
  · rintro ⟨hordered, hread, hbytes⟩
    obtain ⟨hfits, -, hencoded⟩ := encodeCanonicalBytes_ok.1 hbytes
    have hne : bytes ≠ [] := by
      rw [hencoded, ← List.length_pos_iff, length_encoded]
      exact encodedLength_pos value
    rw [throwIf_neg hne, ok_bind, cbor.decode_encoded value bytes hordered hbytes, if_pos hread]
    simp only
    rw [normalizeValue_decoded value "$" 0 hordered hfits, ok_bind, hbytes, ok_bind,
      throwIf_neg (not_not.2 rfl)]
    rfl

/-! ## What an envelope was parsed from -/

theorem requireExactMap_eq_ok {value : CborValue} {keys : List String} {entries : CborRecord}
    (hkeys : keys.Nodup) : requireExactMap value keys = .ok entries ↔
      value = .map entries ∧ (entries.map Prod.fst).Perm keys := by
  rw [← @expectExactMap_eq_ok value keys "$" entries hkeys]
  cases value with
  | map fields =>
      rw [requireExactMap, expectExactMap]
      split <;> simp
  | _ => simp [requireExactMap, expectExactMap]

theorem requireFixedBytes_eq_ok {value : CborValue} {size : ℕ} {name : String}
    {fixed : FixedBytes size} (h : requireFixedBytes value size name = .ok fixed) :
    value = .bytes fixed.val := by
  unfold requireFixedBytes at h
  cases value with
  | bytes given =>
      simp only at h
      unfold parseFixedBytes at h
      split at h
      · rename_i parsed hparsed
        cases h
        split at hparsed
        · cases hparsed
          rfl
        · cases hparsed
      · cases h
  | _ => cases h

theorem requireNonEmptyText_value {value : CborValue} {name text : String}
    (h : requireNonEmptyText value name = .ok text) : value = .text text := by
  cases value with
  | text given => rw [(requireNonEmptyText_eq_ok h).2]
  | _ => cases h

theorem requireMessageType_eq_ok {value : CborValue} {type : EnvelopeMessageType}
    (h : requireMessageType value = .ok type) : value = .text type.text := by
  unfold requireMessageType at h
  cases value with
  | text given =>
      simp only at h
      split at h
      · rename_i found hfound
        cases h
        obtain ⟨htext, -⟩ := List.find?_eq_some_iff_append.1 hfound
        rw [of_decide_eq_true htext]
      · cases h
  | _ => cases h

/-- The fields of a record are those of the envelope it parses to. -/
theorem parseUnsignedFields_fields {record : CborRecord} {envelope : UnsignedEnvelope}
    (h : parseUnsignedFields record = .ok envelope) :
    (UNSIGNED_KEYS.map fun key => (key, field record key)) = envelope.entries := by
  unfold parseUnsignedFields at h
  obtain ⟨version, hv, h⟩ := bind_eq_ok.1 h
  obtain ⟨hversion, h⟩ := check_bind_eq_ok.1 h
  obtain ⟨game, hgame, h⟩ := bind_eq_ok.1 h
  obtain ⟨sender, hfrom, h⟩ := bind_eq_ok.1 h
  obtain ⟨seq, hseq, h⟩ := bind_eq_ok.1 h
  obtain ⟨prev, hprev, h⟩ := bind_eq_ok.1 h
  obtain ⟨round, hround, h⟩ := bind_eq_ok.1 h
  obtain ⟨phase, hphase, h⟩ := bind_eq_ok.1 h
  obtain ⟨type, htype, h⟩ := bind_eq_ok.1 h
  obtain ⟨body, hbody, h⟩ := bind_eq_ok.1 h
  cases h
  have hsame : version = ENVELOPE_VERSION := not_not.1 (throwIf_eq_ok.1 hversion)
  have hversion := (requireUnsignedInteger_eq_ok hv).1
  rw [hsame] at hversion
  simp only [UNSIGNED_KEYS, List.map_cons, List.map_nil, UnsignedEnvelope.entries, hversion,
    requireFixedBytes_eq_ok hgame, requireFixedBytes_eq_ok hfrom,
    (requireUnsignedInteger_eq_ok hseq).1, requireFixedBytes_eq_ok hprev,
    (requireUnsignedInteger_eq_ok hround).1, requireNonEmptyText_value hphase,
    requireMessageType_eq_ok htype, (snapshotCborValue_eq_ok.1 hbody).2]

/-- **A value that parses is the value of the envelope it holds.** -/
theorem parseSignedEnvelope_value_eq {value : CborValue} {envelope : SignedEnvelope}
    (hordered : value.Ordered) (h : parseSignedEnvelope value = .ok envelope) :
    value = envelope.value ∧ envelope.body.Ordered := by
  unfold parseSignedEnvelope at h
  obtain ⟨record, hrecord, h⟩ := bind_eq_ok.1 h
  obtain ⟨unsigned, hunsigned, h⟩ := bind_eq_ok.1 h
  obtain ⟨sig, hsig, h⟩ := bind_eq_ok.1 h
  cases h
  obtain ⟨rfl, hperm⟩ := (requireExactMap_eq_ok (by decide)).1 hrecord
  have hfields := perm_fields (by decide) hperm
  rw [SIGNED_KEYS, List.map_append, parseUnsignedFields_fields hunsigned] at hfields
  simp only [List.map_cons, List.map_nil, requireFixedBytes_eq_ok hsig] at hfields
  refine ⟨map_eq_cborMap hordered hfields, ?_⟩
  exact orderedEntries_iff.1 hordered.2 ("body", unsigned.body)
    (hfields.mem_iff.2 (List.mem_append_left _ (by simp [UnsignedEnvelope.entries])))

/-- The value of an envelope is in canonical order when its body is. -/
theorem SignedEnvelope.value_ordered {envelope : SignedEnvelope} (h : envelope.body.Ordered) :
    envelope.value.Ordered := by
  have hkeys : SIGNED_KEYS.Nodup := by decide
  refine ordered_cborMap hkeys ?_
  simp only [UnsignedEnvelope.entries, List.cons_append, List.nil_append, List.forall_mem_cons]
  exact ⟨trivial, trivial, trivial, trivial, trivial, trivial, trivial, trivial, h, trivial,
    by simp⟩

/-! ## The codec of envelopes -/

/-- `EnvelopeArtifact`. -/
structure EnvelopeArtifact where
  envelope : SignedEnvelope
  canonicalBytes : List UInt8
  hash : Hash256

/-- `createArtifact`. -/
def createArtifact (hashEnvelope : List UInt8 → Hash256) (envelope : SignedEnvelope) :
    Except EnvelopeError EnvelopeArtifact := do
  let canonicalBytes ← (encodeCanonicalBytes envelope.value).mapError .cbor
  return ⟨envelope, canonicalBytes, hashEnvelope canonicalBytes⟩

/-- `signEnvelope`. -/
def signEnvelopeBytes (ed : Ed25519) (hashEnvelope : List UInt8 → Hash256)
    (value : UnsignedEnvelope) (secretKey : ed.SecretKey) :
    Except EnvelopeError EnvelopeArtifact := do
  let envelope ← parseUnsignedEnvelope value.value
  throwIf (envelope.from_ ≠ ed.deriveEd25519PublicKey secretKey)
    (.validation .SENDER_KEY_MISMATCH "Envelope sender does not match the signing key")
  let _unsignedBytes ← (encodeCanonicalBytes envelope.value).mapError .cbor
  createArtifact hashEnvelope { envelope with sig := ed.signEd25519 envelope.value secretKey }

/-- `decodeAndVerifyEnvelope`. -/
def decodeAndVerifyEnvelopeBytes (cbor : Cbor2) (ed : Ed25519)
    (hashEnvelope : List UInt8 → Hash256) (bytes : List UInt8) :
    Except EnvelopeError EnvelopeArtifact := do
  let envelope ← ((decodeCanonicalBytes cbor bytes).mapError EnvelopeError.cbor >>=
      parseSignedEnvelope).mapError fun
    | .validation code message => .validation code message
    | _ => malformed "Envelope decoding failed"
  let _unsignedBytes ←
    (encodeCanonicalBytes envelope.toUnsignedEnvelope.value).mapError EnvelopeError.cbor
  throwIf (ed.verifyEd25519 envelope.sig envelope.toUnsignedEnvelope.value envelope.from_ = false)
    (.validation .INVALID_SIGNATURE "Envelope signature is invalid")
  createArtifact hashEnvelope envelope

variable {cbor : Cbor2} {ed : Ed25519} {hashEnvelope : List UInt8 → Hash256}

theorem createArtifact_eq_ok {envelope : SignedEnvelope} {artifact : EnvelopeArtifact} :
    createArtifact hashEnvelope envelope = .ok artifact ↔ ∃ bytes,
      encodeCanonicalBytes envelope.value = .ok bytes ∧
        artifact = ⟨envelope, bytes, hashEnvelope bytes⟩ := by
  unfold createArtifact
  constructor
  · intro h
    obtain ⟨bytes, hbytes, h⟩ := bind_eq_ok.1 h
    cases h
    exact ⟨bytes, mapError_eq_ok.1 hbytes, rfl⟩
  · rintro ⟨bytes, hbytes, rfl⟩
    rw [hbytes]
    rfl

theorem entriesLength_append (entries entries' : CborRecord) :
    entriesLength (entries ++ entries') = entriesLength entries + entriesLength entries' := by
  induction entries with
  | nil => simp [entriesLength]
  | cons entry rest ih =>
      obtain ⟨key, value⟩ := entry
      rw [List.cons_append, entriesLength, entriesLength, ih]
      omega

/-- The signature leaves its envelope longer. -/
theorem encodedLength_unsigned_le (envelope : SignedEnvelope) :
    envelope.toUnsignedEnvelope.value.encodedLength ≤ envelope.value.encodedLength := by
  have hhead : headLength 9 ≤ headLength 10 := by decide
  rw [UnsignedEnvelope.value, SignedEnvelope.value, encodedLength_cborMap, encodedLength_cborMap,
    entriesLength_append]
  exact Nat.add_le_add hhead (Nat.le_add_right _ _)

/-- The fields of an envelope are in range, and its signature verifies. -/
structure SignedEnvelope.InRange (ed : Ed25519) (envelope : SignedEnvelope) : Prop where
  ordered : envelope.body.Ordered
  seq_le : envelope.seq ≤ MAX_SAFE_INTEGER
  round_le : envelope.round ≤ MAX_SAFE_INTEGER
  phase_ne : envelope.phase ≠ ""
  verified : ed.verifyEd25519 envelope.sig envelope.toUnsignedEnvelope.value envelope.from_ = true

/-- **What is accepted**: the encoding of an envelope in range that the decoder gets through, and
nothing else. -/
theorem decodeAndVerifyEnvelopeBytes_eq_ok {bytes : List UInt8} {artifact : EnvelopeArtifact} :
    decodeAndVerifyEnvelopeBytes cbor ed hashEnvelope bytes = .ok artifact ↔
      ∃ envelope : SignedEnvelope, envelope.InRange ed ∧
        envelope.body.readDepth + 1 ≤ MAX_CBOR_NESTING_DEPTH ∧
        encodeCanonicalBytes envelope.value = .ok bytes ∧
        artifact = ⟨envelope, bytes, hashEnvelope bytes⟩ := by
  unfold decodeAndVerifyEnvelopeBytes
  constructor
  · intro h
    obtain ⟨envelope, henvelope, h⟩ := bind_eq_ok.1 h
    obtain ⟨unsignedBytes, -, h⟩ := bind_eq_ok.1 h
    obtain ⟨hverified, h⟩ := check_bind_eq_ok.1 h
    obtain ⟨value, hvalue, hparsed⟩ := bind_eq_ok.1 (mapError_eq_ok.1 henvelope)
    obtain ⟨hordered, hread, hbytes⟩ := decodeCanonicalBytes_eq_ok.1 (mapError_eq_ok.1 hvalue)
    obtain ⟨rfl, hbody⟩ := parseSignedEnvelope_value_eq hordered hparsed
    obtain ⟨hseq, hround, hphase, -, -⟩ := parseSignedEnvelope_value.1 hparsed
    obtain ⟨reencoded, hreencoded, rfl⟩ := createArtifact_eq_ok.1 h
    obtain rfl : bytes = reencoded := Except.ok.inj (hbytes.symm.trans hreencoded)
    exact ⟨envelope, ⟨hbody, hseq, hround, hphase, by simpa using hverified⟩,
      (readDepth_signed (by decide)).1 hread, hbytes, rfl⟩
  · rintro ⟨envelope, hrange, hread, hbytes, rfl⟩
    obtain ⟨hfits, hlength, -⟩ := encodeCanonicalBytes_ok.1 hbytes
    have hbodyFits := (fitsAt_signed.1 hfits).2.2
    have hunsigned : encodeCanonicalBytes envelope.toUnsignedEnvelope.value =
        .ok envelope.toUnsignedEnvelope.value.encoded :=
      encodeCanonicalBytes_ok.2 ⟨fitsAt_unsigned.2 (fitsAt_signed.1 hfits),
        (encodedLength_unsigned_le envelope).trans hlength, rfl⟩
    rw [decodeCanonicalBytes_eq_ok.2 ⟨SignedEnvelope.value_ordered hrange.ordered,
      (readDepth_signed (by decide)).2 hread, hbytes⟩]
    simp only [Except.mapError, ok_bind]
    rw [parseSignedEnvelope_value.2 ⟨hrange.seq_le, hrange.round_le, hrange.phase_ne,
      hbodyFits.mono (Nat.zero_le _), (Nat.le_succ _).trans hread, rfl⟩]
    simp only [ok_bind]
    rw [hunsigned]
    simp only [ok_bind]
    rw [throwIf_neg (by simp [hrange.verified]), ok_bind]
    exact createArtifact_eq_ok.2 ⟨bytes, hbytes, rfl⟩

/-- **What signing returns**: the envelope with its signature, encoded.  The body is read back on
its own first. -/
theorem signEnvelopeBytes_eq_ok {unsigned : UnsignedEnvelope} {secretKey : ed.SecretKey}
    {artifact : EnvelopeArtifact} :
    signEnvelopeBytes ed hashEnvelope unsigned secretKey = .ok artifact ↔
      unsigned.seq ≤ MAX_SAFE_INTEGER ∧ unsigned.round ≤ MAX_SAFE_INTEGER ∧ unsigned.phase ≠ "" ∧
      unsigned.body.readDepth ≤ MAX_CBOR_NESTING_DEPTH ∧
      unsigned.from_ = ed.deriveEd25519PublicKey secretKey ∧
      artifact.envelope = { unsigned with sig := ed.signEd25519 unsigned.value secretKey } ∧
      encodeCanonicalBytes artifact.envelope.value = .ok artifact.canonicalBytes ∧
      artifact.hash = hashEnvelope artifact.canonicalBytes := by
  unfold signEnvelopeBytes
  constructor
  · intro h
    obtain ⟨envelope, henvelope, h⟩ := bind_eq_ok.1 h
    obtain ⟨hsender, h⟩ := check_bind_eq_ok.1 h
    obtain ⟨unsignedBytes, -, h⟩ := bind_eq_ok.1 h
    obtain ⟨hseq, hround, hphase, -, hread, hsame⟩ := parseUnsignedEnvelope_value.1 henvelope
    rw [hsame] at hsender h
    obtain ⟨bytes, hbytes, rfl⟩ := createArtifact_eq_ok.1 h
    exact ⟨hseq, hround, hphase, hread, not_not.1 (throwIf_eq_ok.1 hsender), rfl, hbytes, rfl⟩
  · rintro ⟨hseq, hround, hphase, hread, hsender, hsigned, hbytes, hhash⟩
    obtain ⟨hfits, hlength, -⟩ := encodeCanonicalBytes_ok.1 hbytes
    have hfields : artifact.envelope.toUnsignedEnvelope = unsigned := by rw [hsigned]
    have hsize := encodedLength_unsigned_le artifact.envelope
    rw [hfields] at hsize
    have hparts := fitsAt_signed.1 hfits
    rw [hfields] at hparts
    rw [parseUnsignedEnvelope_value.2 ⟨hseq, hround, hphase, hparts.2.2.mono (Nat.zero_le _), hread,
      rfl⟩, ok_bind, throwIf_neg (not_not.2 hsender), ok_bind,
      encodeCanonicalBytes_ok.2 ⟨fitsAt_unsigned.2 hparts, hsize.trans hlength, rfl⟩]
    simp only [Except.mapError, ok_bind]
    rw [← hsigned]
    refine createArtifact_eq_ok.2 ⟨_, hbytes, ?_⟩
    rw [← hhash]

theorem signEnvelopeBytes_inRange {unsigned : UnsignedEnvelope} {secretKey : ed.SecretKey}
    {artifact : EnvelopeArtifact} (hordered : unsigned.body.Ordered)
    (h : signEnvelopeBytes ed hashEnvelope unsigned secretKey = .ok artifact) :
    artifact.envelope.InRange ed := by
  obtain ⟨hseq, hround, hphase, -, hsender, hsigned, -, -⟩ := signEnvelopeBytes_eq_ok.1 h
  rw [hsigned]
  refine ⟨hordered, hseq, hround, hphase, ?_⟩
  simp only
  rw [hsender]
  exact ed.verify_sign _ _

/-- Envelopes with the same encoding are as deep for the decoder. -/
theorem readDepth_of_encoded {e e' : SignedEnvelope} {bytes : List UInt8}
    (h : encodeCanonicalBytes e.value = .ok bytes) (h' : encodeCanonicalBytes e'.value = .ok bytes)
    (hread : e.body.readDepth + 1 ≤ MAX_CBOR_NESTING_DEPTH) :
    e'.body.readDepth + 1 ≤ MAX_CBOR_NESTING_DEPTH := by
  have hone : 1 ≤ MAX_CBOR_NESTING_DEPTH := by decide
  obtain ⟨hvalue, -⟩ := @encodeCanonicalBytes_append_inj _ _ _ _ [] [] h h' rfl
  have hvalueRead := (readDepth_signed hone).2 hread
  rw [hvalue] at hvalueRead
  exact (readDepth_signed hone).1 hvalueRead

/-- **The codec of envelopes is the identity on what it accepts.**  What a byte string decodes to
has these bytes.  What is signed decodes to itself exactly when the decoder gets through the body
one level down.  A byte string is accepted if and only if it is the canonical encoding of an
envelope in range, unless the body of that envelope is too deep for the decoder. -/
theorem envelope_codec_identity (cbor : Cbor2) (ed : Ed25519)
    (hashEnvelope : List UInt8 → Hash256) :
    (∀ bytes artifact, decodeAndVerifyEnvelopeBytes cbor ed hashEnvelope bytes = .ok artifact →
      artifact.canonicalBytes = bytes) ∧
    (∀ (unsigned : UnsignedEnvelope) secretKey artifact, unsigned.body.Ordered →
      signEnvelopeBytes ed hashEnvelope unsigned secretKey = .ok artifact →
      artifact.envelope.toUnsignedEnvelope = unsigned ∧
      (decodeAndVerifyEnvelopeBytes cbor ed hashEnvelope artifact.canonicalBytes = .ok artifact ↔
        unsigned.body.readDepth + 1 ≤ MAX_CBOR_NESTING_DEPTH)) ∧
    ∀ bytes, ((∃ artifact, decodeAndVerifyEnvelopeBytes cbor ed hashEnvelope bytes = .ok artifact) ↔
        ∃ envelope : SignedEnvelope, envelope.InRange ed ∧
          encodeCanonicalBytes envelope.value = .ok bytes) ↔
      ∀ envelope : SignedEnvelope, envelope.InRange ed →
        encodeCanonicalBytes envelope.value = .ok bytes →
        envelope.body.readDepth + 1 ≤ MAX_CBOR_NESTING_DEPTH := by
  have hdeep : ∀ {bytes artifact} {envelope : SignedEnvelope},
      decodeAndVerifyEnvelopeBytes cbor ed hashEnvelope bytes = .ok artifact →
      encodeCanonicalBytes envelope.value = .ok bytes →
      envelope.body.readDepth + 1 ≤ MAX_CBOR_NESTING_DEPTH := by
    intro bytes artifact envelope h hbytes
    obtain ⟨other, -, hread, hother, -⟩ := decodeAndVerifyEnvelopeBytes_eq_ok.1 h
    exact readDepth_of_encoded hother hbytes hread
  refine ⟨fun bytes artifact h => ?_, fun unsigned secretKey artifact hordered h => ?_,
    fun bytes => ⟨fun h envelope hrange hbytes => ?_, fun hread => ⟨?_, ?_⟩⟩⟩
  · obtain ⟨envelope, -, -, -, rfl⟩ := decodeAndVerifyEnvelopeBytes_eq_ok.1 h
    rfl
  · obtain ⟨-, -, -, -, -, hsigned, hbytes, hhash⟩ := signEnvelopeBytes_eq_ok.1 h
    have hfields : artifact.envelope.toUnsignedEnvelope = unsigned := by rw [hsigned]
    refine ⟨hfields, fun haccepted => ?_, fun hread => ?_⟩
    · have hread := hdeep haccepted hbytes
      rwa [hfields] at hread
    · refine decodeAndVerifyEnvelopeBytes_eq_ok.2 ⟨artifact.envelope,
        signEnvelopeBytes_inRange hordered h, by rwa [hfields], hbytes, ?_⟩
      rw [← hhash]
  · obtain ⟨artifact, haccepted⟩ := h.2 ⟨envelope, hrange, hbytes⟩
    exact hdeep haccepted hbytes
  · rintro ⟨artifact, h⟩
    obtain ⟨envelope, hrange, -, hbytes, -⟩ := decodeAndVerifyEnvelopeBytes_eq_ok.1 h
    exact ⟨envelope, hrange, hbytes⟩
  · rintro ⟨envelope, hrange, hbytes⟩
    exact ⟨_, decodeAndVerifyEnvelopeBytes_eq_ok.2
      ⟨envelope, hrange, hread envelope hrange hbytes, hbytes, rfl⟩⟩

namespace SmallGroup

/-- An action with sixteen arrays in its body. -/
def deepAction : UnsignedEnvelope :=
  (envelope 0 0 ZERO_HASH .ACTION (nestedArrays 16)).toUnsignedEnvelope

end SmallGroup

open SmallGroup in
/-- An envelope that is signed but never decoded: its deepest item is two levels down for each of
sixteen arrays, and one for the envelope. -/
theorem deep_envelope_not_decoded : ∃ artifact,
    signEnvelopeBytes ed25519 (fun _ => ZERO_HASH) deepAction (padded 32 [1]) = .ok artifact ∧
    Nonempty Cbor2 ∧ ∀ cbor : Cbor2, ∃ error, decodeAndVerifyEnvelopeBytes cbor ed25519
      (fun _ => ZERO_HASH) artifact.canonicalBytes = .error error := by
  have hdepth : deepAction.body.readDepth = 32 := readDepth_nestedArrays 16
  obtain ⟨signed, hsigned⟩ : ∃ signed : SignedEnvelope, signed = { deepAction with
    sig := ed25519.signEd25519 deepAction.value (padded 32 [1]) } := ⟨_, rfl⟩
  have hbytes : encodeCanonicalBytes signed.value = .ok signed.value.encoded := by
    rw [hsigned]
    refine encodeCanonicalBytes_ok.2 ⟨fitsAt_signed.2 ⟨by decide, by decide, ?_⟩,
      by decide +kernel, rfl⟩
    exact fitsAt_nestedArrays.2 (by decide)
  refine ⟨⟨signed, signed.value.encoded, ZERO_HASH⟩, signEnvelopeBytes_eq_ok.2
    ⟨by decide, by decide, by decide, hdepth.le, rfl, hsigned, hbytes, rfl⟩, nonempty_cbor2,
    fun cbor => ?_⟩
  cases h : decodeAndVerifyEnvelopeBytes cbor ed25519 (fun _ => ZERO_HASH) signed.value.encoded with
  | error error => exact ⟨error, rfl⟩
  | ok artifact =>
      obtain ⟨other, -, hread, hother, -⟩ := decodeAndVerifyEnvelopeBytes_eq_ok.1 h
      have hbody := readDepth_of_encoded hother hbytes hread
      rw [hsigned, hdepth] at hbody
      exact absurd hbody (by decide)

end Tablefolk
