import Tablefolk.Lib.OrderedMap
import Tablefolk.Protocol.Codec

/-!
# Data frames

The model of the first part of `transport/frame.ts`: the frames a payload is cut into, and
their encoding.

* `normalizeFrame_eq_ok`: what a frame has to satisfy.
* `splitDataFrames_valid`, `splitDataFrames_flatten`: the frames of a payload are valid and
  together they are the payload.
* `decodeDataFrame_encodeDataFrame`: a frame is decoded from its own encoding, which is never
  refused for its size.
-/

namespace Tablefolk

def MAX_FRAME_PAYLOAD_BYTES : ℕ := 16 * 1024
def MAX_ENCODED_FRAME_BYTES : ℕ := MAX_FRAME_PAYLOAD_BYTES + 128
def MAX_FRAME_COUNT : ℕ := 0xffff
def MAX_FRAME_ID : ℕ := 0xffffffff
def DEFAULT_MAX_OUTBOUND_PAYLOAD_BYTES : ℕ := 8 * 1024 * 1024

/-- `DataFrame`. -/
structure DataFrame where
  id : ℕ
  index : ℕ
  count : ℕ
  bytes : List UInt8
  deriving DecidableEq, Repr

/-- A frame as it is handed over, before its fields are checked. -/
structure FrameCandidate where
  id : CborValue
  index : CborValue
  count : CborValue
  bytes : CborValue

/-- The fields of a frame. -/
def DataFrame.candidate (frame : DataFrame) : FrameCandidate :=
  ⟨.int frame.id, .int frame.index, .int frame.count, .bytes frame.bytes⟩

/-- `normalizeFrame`. -/
def normalizeFrame (frame : FrameCandidate) : Except ProtocolSchemaError DataFrame := do
  let id ← expectUnsignedInteger frame.id "Frame.id" MAX_FRAME_ID
  let index ← expectUnsignedInteger frame.index "Frame.index" MAX_FRAME_COUNT
  let count ← expectUnsignedInteger frame.count "Frame.count" MAX_FRAME_COUNT
  throwIf (count = 0) ⟨"Frame.count", "must be at least one"⟩
  throwIf (count ≤ index) ⟨"Frame.index", "must be less than count"⟩
  let bytes ← expectByteString frame.bytes "Frame.bytes"
  throwIf (MAX_FRAME_PAYLOAD_BYTES < bytes.length) ⟨"Frame.bytes",
    "must contain at most " ++ toString MAX_FRAME_PAYLOAD_BYTES ++ " bytes"⟩
  throwIf (1 < count ∧ bytes.length = 0)
    ⟨"Frame.bytes", "must not be empty in a multi-frame message"⟩
  return ⟨id, index, count, bytes⟩

/-- What a normalized frame satisfies. -/
structure DataFrame.Valid (frame : DataFrame) : Prop where
  id_le : frame.id ≤ MAX_FRAME_ID
  count_le : frame.count ≤ MAX_FRAME_COUNT
  index_lt : frame.index < frame.count
  size_le : frame.bytes.length ≤ MAX_FRAME_PAYLOAD_BYTES
  nonempty : 1 < frame.count → frame.bytes ≠ []

/-- A frame is normalized to itself, and exactly when it is valid. -/
theorem normalizeFrame_eq_ok {candidate : FrameCandidate} {frame : DataFrame} :
    normalizeFrame candidate = .ok frame ↔ candidate = frame.candidate ∧ frame.Valid := by
  obtain ⟨cid, cindex, ccount, cbytes⟩ := candidate
  unfold normalizeFrame DataFrame.candidate
  rw [FrameCandidate.mk.injEq]
  constructor
  · intro h
    obtain ⟨id, hid, h⟩ := bind_eq_ok.1 h
    obtain ⟨index, hindex, h⟩ := bind_eq_ok.1 h
    obtain ⟨count, hcount, h⟩ := bind_eq_ok.1 h
    obtain ⟨hzero, h⟩ := check_bind_eq_ok.1 h
    obtain ⟨hlt, h⟩ := check_bind_eq_ok.1 h
    obtain ⟨bytes, hbytes, h⟩ := bind_eq_ok.1 h
    obtain ⟨hsize, h⟩ := check_bind_eq_ok.1 h
    obtain ⟨hempty, h⟩ := check_bind_eq_ok.1 h
    cases h
    rw [expectUnsignedInteger_eq_ok] at hid hindex hcount
    rw [expectByteString_eq_ok] at hbytes
    rw [throwIf_eq_ok] at hlt hsize hempty
    refine ⟨⟨hid.1, hindex.1, hcount.1, hbytes⟩, hid.2, hcount.2, ?_, ?_, ?_⟩
    · exact not_le.1 hlt
    · exact not_lt.1 hsize
    · intro hmany hnil
      exact hempty ⟨hmany, List.length_eq_zero_iff.2 hnil⟩
  · rintro ⟨⟨rfl, rfl, rfl, rfl⟩, hvalid⟩
    have hpos := hvalid.index_lt
    have hcount := hvalid.count_le
    rw [expectUnsignedInteger_eq_ok.2 ⟨rfl, hvalid.id_le⟩, ok_bind,
      expectUnsignedInteger_eq_ok.2 ⟨rfl, by omega⟩, ok_bind,
      expectUnsignedInteger_eq_ok.2 ⟨rfl, hcount⟩, ok_bind, throwIf_neg (by omega), ok_bind,
      throwIf_neg (by omega), ok_bind, expectByteString_eq_ok.2 rfl, ok_bind,
      throwIf_neg (not_lt.2 hvalid.size_le), ok_bind, throwIf_neg, ok_bind]
    · rfl
    · rintro ⟨hmany, hzero⟩
      exact hvalid.nonempty hmany (List.length_eq_zero_iff.1 hzero)

/-! ## Encoding -/

/-- What the functions of this file throw. -/
inductive FrameError where
  | schema (error : ProtocolSchemaError)
  | cbor (error : CanonicalCborError)
  | range (message : String)
  deriving DecidableEq

/-- The fields of the map a frame is encoded as. -/
def DataFrame.entries (frame : DataFrame) : CborRecord :=
  [("id", .int frame.id), ("index", .int frame.index), ("count", .int frame.count),
    ("bytes", .bytes frame.bytes)]

def FRAME_KEYS : List String := ["id", "index", "count", "bytes"]

/-- The map a frame is encoded as. -/
def DataFrame.value (frame : DataFrame) : CborValue := cborMap frame.entries

/-- `encodeDataFrame`. -/
def encodeDataFrame (frame : FrameCandidate) : Except FrameError CanonicalCbor := do
  let normalized ← (normalizeFrame frame).mapError .schema
  (encodeCanonical normalized.value).mapError .cbor

/-- `requireEncodedFrame`. -/
def requireEncodedFrame (encoded : CanonicalCbor) : Except FrameError Unit :=
  throwIf (MAX_ENCODED_FRAME_BYTES < encoded.val.encodedLength) (.schema
    ⟨"Frame", "must encode to at most " ++ toString MAX_ENCODED_FRAME_BYTES ++ " bytes"⟩)

/-- `decodeDataFrame`. -/
def decodeDataFrame (encoded : CanonicalCbor) : Except FrameError DataFrame := do
  requireEncodedFrame encoded
  let value ← (decodeCanonical encoded).mapError .cbor
  let frame ← (expectExactMap value FRAME_KEYS "Frame").mapError .schema
  let id ← (expectUnsignedInteger (field frame "id") "Frame.id" MAX_FRAME_ID).mapError .schema
  let index ← (expectUnsignedInteger (field frame "index") "Frame.index" MAX_FRAME_COUNT).mapError
    .schema
  let count ← (expectUnsignedInteger (field frame "count") "Frame.count" MAX_FRAME_COUNT).mapError
    .schema
  let bytes ← (expectByteString (field frame "bytes") "Frame.bytes").mapError .schema
  (normalizeFrame (DataFrame.mk id index count bytes).candidate).mapError .schema

/-- The encoding of a valid frame is within the limit. -/
theorem DataFrame.Valid.encodedLength_le {frame : DataFrame} (h : frame.Valid) :
    frame.value.encodedLength ≤ MAX_ENCODED_FRAME_BYTES := by
  have hkeys : textLength "id" = 3 ∧ textLength "index" = 6 ∧ textLength "count" = 6 ∧
      textLength "bytes" = 6 := by decide
  obtain ⟨h1, h2, h3, h4⟩ := hkeys
  have hint : ∀ value : ℤ, (CborValue.int value).encodedLength ≤ 9 := fun _ => headLength_le _
  have hid := hint frame.id
  have hindex := hint frame.index
  have hcount := hint frame.count
  have hhead := headLength_le frame.bytes.length
  have hsize := h.size_le
  unfold DataFrame.value DataFrame.entries
  rw [encodedLength_cborMap]
  simp only [entriesLength, h1, h2, h3, h4, List.length_cons, List.length_nil,
    show headLength (0 + 1 + 1 + 1 + 1) = 1 from rfl]
  rw [show (CborValue.bytes frame.bytes).encodedLength
    = headLength frame.bytes.length + frame.bytes.length from rfl]
  unfold MAX_ENCODED_FRAME_BYTES
  omega

theorem DataFrame.Valid.fits {frame : DataFrame} (h : frame.Valid) : frame.value.FitsAt 0 := by
  have hsafe : ∀ n ≤ MAX_FRAME_ID, (CborValue.int n).FitsAt 1 := fun n hn =>
    fitsAt_natCast.2 ⟨by decide, hn.trans (by decide)⟩
  have hcount : frame.count ≤ MAX_FRAME_ID := h.count_le.trans (by decide)
  have hindex := h.index_lt
  unfold DataFrame.value DataFrame.entries
  rw [fitsAt_cborMap]
  simp only [List.forall_mem_cons]
  exact ⟨by decide, hsafe _ h.id_le, hsafe _ (by omega), hsafe _ hcount, fitsAt_bytes.2 (by decide),
    by simp⟩

/-- The fields of a frame are one level down. -/
theorem DataFrame.reads (frame : DataFrame) :
    frame.value.readDepth ≤ MAX_CBOR_NESTING_DEPTH := by
  unfold DataFrame.value DataFrame.entries
  rw [readDepth_cborMap]
  simp [CborValue.readDepth, MAX_CBOR_NESTING_DEPTH]

/-- A valid frame is encoded, and decoded from its own encoding. -/
theorem decodeDataFrame_encodeDataFrame {frame : DataFrame} (h : frame.Valid) :
    ∃ encoded, encodeDataFrame frame.candidate = .ok encoded ∧
      requireEncodedFrame encoded = .ok () ∧ decodeDataFrame encoded = .ok frame := by
  have hnormal := normalizeFrame_eq_ok.2 ⟨rfl, h⟩
  have hrequire : requireEncodedFrame ⟨frame.value, h.fits "$"⟩ = .ok () :=
    throwIf_neg (not_lt.2 h.encodedLength_le) _
  refine ⟨⟨frame.value, h.fits "$"⟩, ?_, hrequire, ?_⟩
  · unfold encodeDataFrame
    rw [mapError_eq_ok.2 hnormal, ok_bind, encodeCanonical_of_fits h.fits]
    rfl
  · have hkeys : (frame.entries.map Prod.fst).Nodup := by
      simp [DataFrame.entries]
    have hid : field (frame.entries.insertionSort canonicalKeyLe) "id" = .int frame.id :=
      field_cborMap hkeys "id"
    have hindex : field (frame.entries.insertionSort canonicalKeyLe) "index" = .int frame.index :=
      field_cborMap hkeys "index"
    have hcount : field (frame.entries.insertionSort canonicalKeyLe) "count" = .int frame.count :=
      field_cborMap hkeys "count"
    have hbytes : field (frame.entries.insertionSort canonicalKeyLe) "bytes" = .bytes frame.bytes :=
      field_cborMap hkeys "bytes"
    have hexact : expectExactMap frame.value FRAME_KEYS "Frame"
        = .ok (frame.entries.insertionSort canonicalKeyLe) :=
      expectExactMap_cborMap "Frame" rfl fun key hkey => hkey
    have hlt := h.index_lt
    have hle := h.count_le
    unfold decodeDataFrame
    rw [hrequire, ok_bind, mapError_eq_ok.2 (decodeCanonical_eq_ok.2 ⟨rfl, frame.reads⟩), ok_bind,
      mapError_eq_ok.2 hexact, ok_bind, hid, hindex, hcount, hbytes,
      mapError_eq_ok.2 (expectUnsignedInteger_eq_ok.2 ⟨rfl, h.id_le⟩), ok_bind,
      mapError_eq_ok.2 (expectUnsignedInteger_eq_ok.2 ⟨rfl, by omega⟩), ok_bind,
      mapError_eq_ok.2 (expectUnsignedInteger_eq_ok.2 ⟨rfl, hle⟩), ok_bind,
      mapError_eq_ok.2 (expectByteString_eq_ok.2 rfl), ok_bind]
    exact mapError_eq_ok.2 hnormal

/-! ## Splitting -/

/-- `Math.max(1, Math.ceil(payload.length / MAX_FRAME_PAYLOAD_BYTES))`. -/
def frameCount (size : ℕ) : ℕ :=
  max 1 ((size + MAX_FRAME_PAYLOAD_BYTES - 1) / MAX_FRAME_PAYLOAD_BYTES)

/-- The frame at an index of a payload. -/
def frameAt (payload : List UInt8) (id index : ℕ) : DataFrame where
  id := id
  index := index
  count := frameCount payload.length
  bytes := (payload.take ((index + 1) * MAX_FRAME_PAYLOAD_BYTES)).drop
    (index * MAX_FRAME_PAYLOAD_BYTES)

/-- `splitDataFrames`. -/
def splitDataFrames (payload : List UInt8) (id : CborValue) :
    Except FrameError (List DataFrame) := do
  let normalizedId ← (expectUnsignedInteger id "Frame.id" MAX_FRAME_ID).mapError .schema
  let count := frameCount payload.length
  throwIf (MAX_FRAME_COUNT < count)
    (.range ("Frame payload requires more than " ++ toString MAX_FRAME_COUNT ++ " chunks"))
  return (List.range count).map (frameAt payload normalizedId)

theorem frameCount_pos (size : ℕ) : 1 ≤ frameCount size := le_max_left _ _

theorem length_frameAt (payload : List UInt8) (id index : ℕ) : (frameAt payload id index).bytes.length
    = min ((index + 1) * MAX_FRAME_PAYLOAD_BYTES) payload.length
      - index * MAX_FRAME_PAYLOAD_BYTES := by
  unfold frameAt
  rw [List.length_drop, List.length_take]

theorem frameAt_valid {payload : List UInt8} {id index : ℕ} (hid : id ≤ MAX_FRAME_ID)
    (hcount : frameCount payload.length ≤ MAX_FRAME_COUNT)
    (hindex : index < frameCount payload.length) : (frameAt payload id index).Valid := by
  have hlen := length_frameAt payload id index
  have hmax : MAX_FRAME_PAYLOAD_BYTES = 16384 := rfl
  refine ⟨hid, hcount, hindex, ?_, ?_⟩
  · rw [hlen, hmax]
    omega
  · intro hmany hnil
    have hmany : 1 < frameCount payload.length := hmany
    have hzero : (frameAt payload id index).bytes.length = 0 := by rw [hnil]; rfl
    rw [hlen] at hzero
    unfold frameCount at hmany hindex
    rw [hmax] at hzero hmany hindex
    omega

/-- The frames up to an index are the payload up to there. -/
theorem flatMap_frameAt (payload : List UInt8) (id count : ℕ) :
    ((List.range count).map fun index => (frameAt payload id index).bytes).flatten
      = payload.take (count * MAX_FRAME_PAYLOAD_BYTES) := by
  induction count with
  | zero => simp
  | succ count ih =>
      rw [List.range_succ, List.map_append, List.flatten_append, ih, List.map_singleton,
        List.flatten_singleton]
      have hmono : count * MAX_FRAME_PAYLOAD_BYTES ≤ (count + 1) * MAX_FRAME_PAYLOAD_BYTES :=
        Nat.mul_le_mul_right _ (Nat.le_succ _)
      have htake : payload.take (count * MAX_FRAME_PAYLOAD_BYTES)
          = (payload.take ((count + 1) * MAX_FRAME_PAYLOAD_BYTES)).take
            (count * MAX_FRAME_PAYLOAD_BYTES) := by
        rw [List.take_take, min_eq_left hmono]
      rw [htake]
      exact List.take_append_drop _ _

/-- All the frames together are the payload. -/
theorem splitDataFrames_flatten (payload : List UInt8) (id : ℕ) :
    ((List.range (frameCount payload.length)).map fun index =>
      (frameAt payload id index).bytes).flatten = payload := by
  rw [flatMap_frameAt]
  apply List.take_of_length_le
  have hmax : MAX_FRAME_PAYLOAD_BYTES = 16384 := rfl
  unfold frameCount
  rw [hmax]
  omega

theorem splitDataFrames_eq_ok {payload : List UInt8} {id : ℕ} (hid : id ≤ MAX_FRAME_ID)
    (hcount : frameCount payload.length ≤ MAX_FRAME_COUNT) :
    splitDataFrames payload (.int id)
      = .ok ((List.range (frameCount payload.length)).map (frameAt payload id)) := by
  unfold splitDataFrames
  rw [mapError_eq_ok.2 (expectUnsignedInteger_eq_ok.2 ⟨rfl, hid⟩), ok_bind]
  simp only
  rw [throwIf_neg (not_lt.2 hcount)]
  rfl

/-- The frames of a payload are valid. -/
theorem splitDataFrames_valid {payload : List UInt8} {id : CborValue} {frames : List DataFrame}
    (h : splitDataFrames payload id = .ok frames) : ∀ frame ∈ frames, frame.Valid := by
  obtain ⟨normalizedId, hid, h⟩ := bind_eq_ok.1 h
  obtain ⟨hcount, h⟩ := check_bind_eq_ok.1 h
  rw [mapError_eq_ok, expectUnsignedInteger_eq_ok] at hid
  cases h
  intro frame hframe
  obtain ⟨index, hindex, rfl⟩ := List.mem_map.1 hframe
  exact frameAt_valid hid.2 (not_lt.1 (throwIf_eq_ok.1 hcount)) (List.mem_range.1 hindex)

end Tablefolk
