import Tablefolk.Deck.Proofs
import Tablefolk.Protocol.Codec

/-!
# Envelope bodies

The model of `deck/wire.ts`, `deck/action-wire.ts` and `protocol/beacon-messages.ts`:
the bodies of KEY_SHARE, RAND_COMMIT, RAND_REVEAL, SHARES, ACTION and
AUDIT_DISCLOSE envelopes, and the functions that write and read them.

The round trips are at the end: what an encoder returns, its decoder reads back
(`decodeSharesBody_encode`, `decodeActionBody_encode`, `decodeAuditDiscloseBody_encode`).
-/

namespace Tablefolk

/-- `PositionShare`: a decryption share for one deck position. -/
structure PositionShare (q : ℕ) (G : Type) where
  pos : ℕ
  share : ProvenDecryptionShare q G
  deriving DecidableEq

/-- `SharesBody`. -/
structure SharesBody (q : ℕ) (G : Type) where
  to_ : ℕ
  items : List (PositionShare q G)
  deriving DecidableEq

/-- `ActionBody`. -/
structure ActionBody (q : ℕ) (G : Type) where
  kind : String
  data : CborValue
  reveal : List ℕ
  shares : List (PositionShare q G)
  deriving DecidableEq

/-- `AuditDiscloseBody`. -/
structure AuditDiscloseBody (q : ℕ) (G : Type) where
  items : List (PositionShare q G)
  deriving DecidableEq

def KEY_SHARE_KEYS : List String := ["H_i", "pop"]
def POP_KEYS : List String := ["R", "z"]
def SHARES_KEYS : List String := ["to", "items"]
def SHARE_ITEM_KEYS : List String := ["pos", "S", "R1", "R2", "z"]
def ACTION_KEYS : List String := ["kind", "data", "reveal", "shares"]

def MAX_ACTION_KIND_BYTES : ℕ := 64
def MAX_ACTION_DATA_BYTES : ℕ := 4096
def MAX_ACTION_REVEALS : ℕ := 128

/-- A path with an index. -/
def indexed (path : String) (index : ℕ) : String := path ++ "[" ++ toString index ++ "]"

section

variable {q : ℕ} {G : Type} [AddCommGroup G] [Module (ZMod q) G] (P : Primitives q G)

/-! ## Points, scalars and fixed bytes -/

/-- `decodePoint`. -/
def decodePoint (value : CborValue) (path : String) : Except ProtocolSchemaError G := do
  let bytes ← expectByteString value path
  match (parseFixedBytes 32 bytes).bind P.pointOfBytes with
  | some point => return point
  | none => throw ⟨path, "must be a canonical Ristretto point"⟩

/-- `decodeScalar`. -/
def decodeScalar (value : CborValue) (path : String) : Except ProtocolSchemaError (ZMod q) := do
  let bytes ← expectByteString value path
  match (parseFixedBytes 32 bytes).bind P.scalarOfBytes with
  | some scalar => return scalar
  | none => throw ⟨path, "must be a canonical Ristretto scalar"⟩

/-- A point as a byte string. -/
def pointValue (point : G) : CborValue := .bytes (P.pointBytes point).val

def scalarValue (scalar : ZMod q) : CborValue := .bytes (P.scalarBytes scalar).val

/-- A 32-byte field of a beacon body. -/
def decodeBytes32 (value : CborValue) (path message : String) :
    Except ProtocolSchemaError (FixedBytes 32) := do
  let bytes ← expectByteString value path
  match parseFixedBytes 32 bytes with
  | some fixed => return fixed
  | none => throw ⟨path, message⟩

/-- `decodeRandCommitBody`. -/
def decodeRandCommitBody (value : CborValue) : Except ProtocolSchemaError Hash256 := do
  let body ← expectExactMap value ["cm"] "RAND_COMMIT.body"
  decodeBytes32 (field body "cm") "RAND_COMMIT.body.cm" "must be a 32-byte hash"

/-- `decodeRandRevealBody`. -/
def decodeRandRevealBody (value : CborValue) : Except ProtocolSchemaError RandomSecret := do
  let body ← expectExactMap value ["s"] "RAND_REVEAL.body"
  decodeBytes32 (field body "s") "RAND_REVEAL.body.s" "must be a 32-byte secret"

/-- `decodeGameKeyShareBody`. -/
def decodeGameKeyShareBody (value : CborValue) : Except ProtocolSchemaError (GameKeyShare q G) := do
  let body ← expectExactMap value KEY_SHARE_KEYS "KEY_SHARE.body"
  let pop ← expectExactMap (field body "pop") POP_KEYS "KEY_SHARE.body.pop"
  let H ← decodePoint P (field body "H_i") "KEY_SHARE.body.H_i"
  let R ← decodePoint P (field pop "R") "KEY_SHARE.body.pop.R"
  let z ← decodeScalar P (field pop "z") "KEY_SHARE.body.pop.z"
  return ⟨H, R, z⟩

/-! ## Position shares -/

/-- `requirePosition`. -/
def requirePosition (value : ℕ) (path : String) : Except ProtocolSchemaError Unit :=
  throwIf (127 < value) ⟨path, "must be an integer from 0 through 127"⟩

/-- The fields of an encoded position share. -/
def positionShareEntries (item : PositionShare q G) : CborRecord :=
  [("pos", .int item.pos), ("S", pointValue P item.share.S),
    ("R1", pointValue P item.share.proof.R1), ("R2", pointValue P item.share.proof.R2),
    ("z", scalarValue P item.share.proof.z)]

/-- `encodePositionShare`. -/
def encodePositionShare (item : PositionShare q G) : Except ProtocolSchemaError CborValue := do
  requirePosition item.pos "share.pos"
  return cborMap (positionShareEntries P item)

/-- `decodePositionShare`. -/
def decodePositionShare (value : CborValue) (path : String) :
    Except ProtocolSchemaError (PositionShare q G) := do
  let item ← expectExactMap value SHARE_ITEM_KEYS path
  let pos ← expectUnsignedInteger (field item "pos") (path ++ ".pos") 127
  let S ← decodePoint P (field item "S") (path ++ ".S")
  let R1 ← decodePoint P (field item "R1") (path ++ ".R1")
  let R2 ← decodePoint P (field item "R2") (path ++ ".R2")
  let z ← decodeScalar P (field item "z") (path ++ ".z")
  return ⟨pos, S, R1, R2, z⟩

/-- Decode the items of an array, from index `index` on. -/
def decodeItems (path : String) (index : ℕ) :
    List CborValue → Except ProtocolSchemaError (List (PositionShare q G))
  | [] => .ok []
  | value :: rest => do
      let item ← decodePositionShare P value (indexed path index)
      let items ← decodeItems path (index + 1) rest
      return item :: items

/-- The loop of `requireItems`: every position in range and none twice. -/
def requireDistinct (seen : List ℕ) : List (PositionShare q G) → Except ProtocolSchemaError Unit
  | [] => .ok ()
  | item :: rest => do
      requirePosition item.pos "SHARES.body.items[].pos"
      throwIf (item.pos ∈ seen)
        (ProtocolSchemaError.mk "SHARES.body.items" ("contains duplicate position "
          ++ toString item.pos))
      requireDistinct (seen ++ [item.pos]) rest

/-- `requireItems`. -/
def requireItems (items : List (PositionShare q G)) : Except ProtocolSchemaError Unit := do
  throwIf (items.length = 0 ∨ 128 < items.length)
    ⟨"SHARES.body.items", "must contain 1 to 128 entries"⟩
  requireDistinct [] items

/-! ## SHARES -/

/-- `encodeSharesBody`. -/
def encodeSharesBody (body : SharesBody q G) : Except ProtocolSchemaError CborValue := do
  throwIf (7 < body.to_) ⟨"SHARES.body.to", "must be an integer from 0 through 7"⟩
  requireItems body.items
  let items ← body.items.mapM (encodePositionShare P)
  return cborMap [("to", .int body.to_), ("items", .array items)]

/-- `decodeSharesBody`. -/
def decodeSharesBody (value : CborValue) : Except ProtocolSchemaError (SharesBody q G) := do
  let body ← expectExactMap value SHARES_KEYS "SHARES.body"
  let to_ ← expectUnsignedInteger (field body "to") "SHARES.body.to" 7
  let encodedItems ← expectArray (field body "items") "SHARES.body.items"
  let items ← decodeItems P "SHARES.body.items" 0 encodedItems
  requireItems items
  return ⟨to_, items⟩

/-! ## ACTION -/

/-- `/^[a-z][a-z0-9_]*$/`. -/
def isKind (kind : String) : Bool :=
  match kind.toList with
  | [] => false
  | first :: rest => ('a' ≤ first && first ≤ 'z') && rest.all fun c =>
      ('a' ≤ c && c ≤ 'z') || ('0' ≤ c && c ≤ '9') || c = '_'

/-- The loop over the reveals; `seen` is what was read so far. -/
def decodeReveal (seen : List ℕ) : List CborValue → Except ProtocolSchemaError (List ℕ)
  | [] => .ok seen
  | value :: rest => do
      let pos ← expectUnsignedInteger value (indexed "ACTION.body.reveal" seen.length) 127
      throwIf (pos ∈ seen) (ProtocolSchemaError.mk "ACTION.body.reveal"
        "positions must be unique non-negative integers, not negative zero")
      decodeReveal (seen ++ [pos]) rest

/-- The loop over the shares: each must be for the reveal at its index. -/
def decodeActionShares (index : ℕ) :
    List CborValue → List ℕ → Except ProtocolSchemaError (List (PositionShare q G))
  | [], _ => .ok []
  | value :: rest, reveal => do
      let share ← decodePositionShare P value (indexed "ACTION.body.shares" index)
      throwIf (reveal.head? ≠ some share.pos) (ProtocolSchemaError.mk "ACTION.body.shares"
        "share positions must match reveal positions in the same order")
      let shares ← decodeActionShares (index + 1) rest reveal.tail
      return share :: shares

/-- What the data is refused with when the codec refuses it. -/
def unsupportedData : ProtocolSchemaError :=
  ⟨"ACTION.body.data", "must be a supported canonical CBOR value"⟩

/-- The data of an action, as it is after it was encoded and decoded. -/
def decodeActionData (value : CborValue) : Except ProtocolSchemaError CborValue := do
  let bytes ← (encodeCanonical value).mapError fun _ => unsupportedData
  throwIf (MAX_ACTION_DATA_BYTES < bytes.val.encodedLength)
    ⟨"ACTION.body.data", "must encode within 4096 bytes"⟩
  (decodeCanonical bytes).mapError fun _ => unsupportedData

/-- `decodeActionBody`. -/
def decodeActionBody (value : CborValue) : Except ProtocolSchemaError (ActionBody q G) := do
  let body ← expectExactMap value ACTION_KEYS "ACTION.body"
  let kind ← expectNonEmptyText (field body "kind") "ACTION.body.kind"
  throwIf (MAX_ACTION_KIND_BYTES < kind.length ∨ isKind kind = false)
    ⟨"ACTION.body.kind", "must be a lowercase ASCII identifier of 1 to 64 bytes"⟩
  let positions ← expectArray (field body "reveal") "ACTION.body.reveal"
  let encodedShares ← expectArray (field body "shares") "ACTION.body.shares"
  throwIf (MAX_ACTION_REVEALS < positions.length ∨ encodedShares.length ≠ positions.length)
    ⟨"ACTION.body", "must contain 0 to 128 reveals and exactly one share per reveal"⟩
  let reveal ← decodeReveal [] positions
  let shares ← decodeActionShares P 0 encodedShares reveal
  let data ← decodeActionData (field body "data")
  return ⟨kind, data, reveal, shares⟩

/-- The items of `encodeItems`, from index `index` on. -/
def encodeItemsFrom (path : String) (index : ℕ) :
    List (PositionShare q G) → Except ProtocolSchemaError (List CborValue)
  | [] => .ok []
  | item :: rest => do
      let value ← (encodePositionShare P item).mapError fun _ =>
        ⟨indexed path index, "must be a position share"⟩
      let values ← encodeItemsFrom path (index + 1) rest
      return value :: values

/-- `encodeItems`. -/
def encodeItems (items : List (PositionShare q G)) (path : String) :
    Except ProtocolSchemaError (List CborValue) := do
  throwIf (MAX_ACTION_REVEALS < items.length) ⟨path, "must contain 0 to 128 entries"⟩
  encodeItemsFrom P path 0 items

/-- The fields of an encoded action. -/
def actionEntries (body : ActionBody q G) (shares : List CborValue) : CborRecord :=
  [("kind", .text body.kind), ("data", body.data),
    ("reveal", .array (body.reveal.map fun pos : ℕ => CborValue.int pos)), ("shares", .array shares)]

/-- `encodeActionBody`: the wire value is read back before it is returned. -/
def encodeActionBody (body : ActionBody q G) : Except ProtocolSchemaError CborValue := do
  let shares ← encodeItems P body.shares "ACTION.body.shares"
  let wire := cborMap (actionEntries body shares)
  let decoded ← decodeActionBody P wire
  return cborMap (actionEntries { body with data := decoded.data, reveal := decoded.reveal } shares)

/-! ## AUDIT_DISCLOSE -/

/-- The loop over the items of an AUDIT_DISCLOSE body. -/
def decodeAuditItems (seen : List ℕ) (index : ℕ) :
    List CborValue → Except ProtocolSchemaError (List (PositionShare q G))
  | [] => .ok []
  | value :: rest => do
      let item ← decodePositionShare P value (indexed "AUDIT_DISCLOSE.body.items" index)
      throwIf (item.pos ∈ seen) (ProtocolSchemaError.mk "AUDIT_DISCLOSE.body.items"
        "positions must be unique non-negative integers, not negative zero")
      let items ← decodeAuditItems (seen ++ [item.pos]) (index + 1) rest
      return item :: items

/-- `decodeAuditDiscloseBody`. -/
def decodeAuditDiscloseBody (value : CborValue) :
    Except ProtocolSchemaError (AuditDiscloseBody q G) := do
  let body ← expectExactMap value ["items"] "AUDIT_DISCLOSE.body"
  let encodedItems ← expectArray (field body "items") "AUDIT_DISCLOSE.body.items"
  throwIf (MAX_ACTION_REVEALS < encodedItems.length)
    ⟨"AUDIT_DISCLOSE.body.items", "must contain 0 to 128 entries"⟩
  let items ← decodeAuditItems P [] 0 encodedItems
  return ⟨items⟩

/-- `encodeAuditDiscloseBody`. -/
def encodeAuditDiscloseBody (body : AuditDiscloseBody q G) :
    Except ProtocolSchemaError CborValue := do
  let items ← encodeItems P body.items "AUDIT_DISCLOSE.body.items"
  let wire := cborMap [("items", .array items)]
  let _ ← decodeAuditDiscloseBody P wire
  return wire

/-! ## Round trips -/

@[simp] theorem decodePoint_pointValue (point : G) (path : String) :
    decodePoint P (pointValue P point) path = .ok point := by
  have h : P.pointOfBytes (P.pointBytes point) = some point := (P.pointOfBytes_eq _ _).2 rfl
  simp [decodePoint, pointValue, expectByteString, parseFixedBytes_val, h]

@[simp] theorem decodeScalar_scalarValue (scalar : ZMod q) (path : String) :
    decodeScalar P (scalarValue P scalar) path = .ok scalar := by
  have h : P.scalarOfBytes (P.scalarBytes scalar) = some scalar := (P.scalarOfBytes_eq _ _).2 rfl
  simp [decodeScalar, scalarValue, expectByteString, parseFixedBytes_val, h]

theorem expectUnsignedInteger_of_le {value maximum : ℕ} (h : value ≤ maximum) (path : String) :
    expectUnsignedInteger (.int value) path maximum = .ok value := by
  have hrange : ¬ ((value : ℤ) < 0 ∨ (maximum : ℤ) < value) := by omega
  simp only [expectUnsignedInteger, if_neg hrange, Int.toNat_natCast]

theorem decodeActionData_eq_ok {value data : CborValue} :
    decodeActionData value = .ok data ↔
      data = value ∧ value.FitsAt 0 ∧ value.readDepth ≤ MAX_CBOR_NESTING_DEPTH ∧
        value.encodedLength ≤ MAX_ACTION_DATA_BYTES := by
  unfold decodeActionData
  constructor
  · intro h
    obtain ⟨bytes, hbytes, h⟩ := bind_eq_ok.1 h
    obtain ⟨hlength, h⟩ := check_bind_eq_ok.1 h
    obtain ⟨hdata, hread⟩ := decodeCanonical_eq_ok.1 (mapError_eq_ok.1 h)
    obtain rfl := encodeCanonical_eq_ok.1 (mapError_eq_ok.1 hbytes)
    rw [throwIf_eq_ok, not_lt] at hlength
    exact ⟨hdata, fitsAt_iff.2 bytes.property, hdata ▸ hread, hlength⟩
  · rintro ⟨rfl, hfits, hread, hlength⟩
    rw [mapError_eq_ok.2 (encodeCanonical_of_fits hfits), ok_bind, throwIf_neg (not_lt.2 hlength),
      ok_bind]
    exact mapError_eq_ok.2 (decodeCanonical_eq_ok.2 ⟨rfl, hread⟩)

/-- A position share is read back as it was written. -/
theorem decodePositionShare_encode {item : PositionShare q G} {value : CborValue}
    (h : encodePositionShare P item = .ok value) (path : String) :
    decodePositionShare P value path = .ok item := by
  simp only [encodePositionShare, requirePosition, check_bind_eq_ok, throwIf_eq_ok, not_lt,
    except_pure_eq, Except.ok.injEq] at h
  obtain ⟨hpos, rfl⟩ := h
  have hkeys : ((positionShareEntries P item).map Prod.fst).Nodup := by
    simp [positionShareEntries]
  have hmap : expectExactMap (cborMap (positionShareEntries P item)) SHARE_ITEM_KEYS path
      = .ok ((positionShareEntries P item).insertionSort canonicalKeyLe) :=
    expectExactMap_cborMap path rfl (by simp [SHARE_ITEM_KEYS, positionShareEntries])
  rw [decodePositionShare, hmap]
  simp only [ok_bind, field_cborMap hkeys]
  simp [positionShareEntries, field, List.lookup, expectUnsignedInteger_of_le hpos]

theorem encodePositionShare_ok {item : PositionShare q G} (h : item.pos ≤ 127) :
    encodePositionShare P item = .ok (cborMap (positionShareEntries P item)) := by
  rw [encodePositionShare, requirePosition, throwIf_neg (by omega)]
  rfl

theorem decodeItems_encode {items : List (PositionShare q G)} {values : List CborValue}
    (h : items.mapM (encodePositionShare P) = .ok values) (path : String) (index : ℕ) :
    decodeItems P path index values = .ok items := by
  induction items generalizing values index with
  | nil =>
      cases h
      rfl
  | cons item rest ih =>
      rw [List.mapM_cons, bind_eq_ok] at h
      obtain ⟨value, hvalue, h⟩ := h
      obtain ⟨values, hvalues, h⟩ := bind_eq_ok.1 h
      cases h
      rw [decodeItems, decodePositionShare_encode P hvalue, ok_bind, ih hvalues, ok_bind]
      rfl

/-- **A SHARES body is read back as it was written.** -/
theorem decodeSharesBody_encode {body : SharesBody q G} {value : CborValue}
    (h : encodeSharesBody P body = .ok value) : decodeSharesBody P value = .ok body := by
  simp only [encodeSharesBody, check_bind_eq_ok, throwIf_eq_ok, not_lt] at h
  obtain ⟨hto, hitems, h⟩ := h
  obtain ⟨values, hvalues, h⟩ := bind_eq_ok.1 h
  cases h
  have hkeys : (([("to", .int body.to_), ("items", .array values)] : CborRecord).map
      Prod.fst).Nodup := by simp
  rw [decodeSharesBody, expectExactMap_cborMap _ rfl (by simp [SHARES_KEYS])]
  simp only [ok_bind, field_cborMap hkeys]
  simp [field, List.lookup, expectUnsignedInteger_of_le hto, expectArray,
    decodeItems_encode P hvalues, hitems]

theorem decodeReveal_eq {seen reveal result : List ℕ}
    (h : decodeReveal seen (reveal.map fun pos : ℕ => CborValue.int pos) = .ok result) :
    result = seen ++ reveal := by
  induction reveal generalizing seen with
  | nil =>
      cases h
      simp
  | cons pos rest ih =>
      rw [List.map_cons, decodeReveal, bind_eq_ok] at h
      obtain ⟨pos', hpos, h⟩ := h
      obtain ⟨-, h⟩ := check_bind_eq_ok.1 h
      have : pos' = pos := by
        simp only [expectUnsignedInteger] at hpos
        split at hpos
        · cases hpos
        · cases hpos
          simp
      subst this
      rw [ih h, List.append_assoc]
      rfl

theorem decodeActionShares_eq {path : String} {index index' : ℕ}
    {items result : List (PositionShare q G)} {values : List CborValue} {reveal : List ℕ}
    (hitems : encodeItemsFrom P path index items = .ok values)
    (h : decodeActionShares P index' values reveal = .ok result) : result = items := by
  induction items generalizing values index index' reveal result with
  | nil =>
      cases hitems
      cases h
      rfl
  | cons item rest ih =>
      rw [encodeItemsFrom, bind_eq_ok] at hitems
      obtain ⟨value, hvalue, hitems⟩ := hitems
      obtain ⟨values, hvalues, hitems⟩ := bind_eq_ok.1 hitems
      cases hitems
      have hvalue : encodePositionShare P item = .ok value := by
        cases hencode : encodePositionShare P item with
        | error e => rw [hencode] at hvalue; cases hvalue
        | ok v => rw [hencode] at hvalue; exact hvalue
      rw [decodeActionShares, decodePositionShare_encode P hvalue, ok_bind, check_bind_eq_ok] at h
      obtain ⟨-, h⟩ := h
      obtain ⟨shares, hshares, h⟩ := bind_eq_ok.1 h
      cases h
      rw [ih hvalues hshares]

/-- Whatever is read from the wire form of an action is the action. -/
theorem decodeActionBody_eq {body decoded : ActionBody q G} {shares : List CborValue}
    (hshares : encodeItems P body.shares "ACTION.body.shares" = .ok shares)
    (h : decodeActionBody P (cborMap (actionEntries body shares)) = .ok decoded) :
    decoded = body := by
  have hkeys : ((actionEntries body shares).map Prod.fst).Nodup := by simp [actionEntries]
  obtain ⟨-, hshares⟩ := check_bind_eq_ok.1 hshares
  rw [decodeActionBody, expectExactMap_cborMap _ rfl (by simp [ACTION_KEYS, actionEntries])] at h
  simp only [ok_bind, field_cborMap hkeys] at h
  obtain ⟨kind, hkind, h⟩ := bind_eq_ok.1 h
  obtain ⟨-, h⟩ := check_bind_eq_ok.1 h
  obtain ⟨positions, hpositions, h⟩ := bind_eq_ok.1 h
  obtain ⟨encoded, hencoded, h⟩ := bind_eq_ok.1 h
  obtain ⟨-, h⟩ := check_bind_eq_ok.1 h
  obtain ⟨reveal, hreveal, h⟩ := bind_eq_ok.1 h
  obtain ⟨items, hitems, h⟩ := bind_eq_ok.1 h
  obtain ⟨data, hdata, h⟩ := bind_eq_ok.1 h
  obtain ⟨rfl, -, -⟩ := decodeActionData_eq_ok.1 hdata
  cases h
  have hkind : kind = body.kind := by
    simp only [field, actionEntries, List.lookup, beq_self_eq_true, Option.getD_some,
      expectNonEmptyText] at hkind
    split at hkind
    · cases hkind
    · cases hkind
      rfl
  have hpositions : positions = body.reveal.map fun pos : ℕ => CborValue.int pos := by
    simp [field, actionEntries, List.lookup, expectArray] at hpositions
    exact hpositions.symm
  have hencoded : encoded = shares := by
    simp [field, actionEntries, List.lookup, expectArray] at hencoded
    exact hencoded.symm
  subst hkind hpositions hencoded
  have hreveal := decodeReveal_eq hreveal
  have hitems := decodeActionShares_eq P hshares hitems
  subst hitems
  rw [hreveal]
  simp [field, actionEntries, List.lookup]

/-- **An ACTION body is read back as it was written.** -/
theorem decodeActionBody_encode {body : ActionBody q G} {value : CborValue}
    (h : encodeActionBody P body = .ok value) : decodeActionBody P value = .ok body := by
  rw [encodeActionBody, bind_eq_ok] at h
  obtain ⟨shares, hshares, h⟩ := h
  obtain ⟨decoded, hdecoded, h⟩ := bind_eq_ok.1 h
  cases h
  obtain rfl := decodeActionBody_eq P hshares hdecoded
  exact hdecoded

/-! ## When encoding succeeds -/

theorem mapM_encodePositionShare {items : List (PositionShare q G)}
    (h : ∀ item ∈ items, item.pos ≤ 127) : items.mapM (encodePositionShare P)
      = .ok (items.map fun item => cborMap (positionShareEntries P item)) := by
  induction items with
  | nil => rfl
  | cons item rest ih =>
      rw [List.mapM_cons, encodePositionShare_ok P (h item List.mem_cons_self), ok_bind,
        ih fun item hitem => h item (List.mem_cons_of_mem _ hitem), ok_bind]
      rfl

omit [AddCommGroup G] [Module (ZMod q) G] in
theorem requireDistinct_ok {items : List (PositionShare q G)} {seen : List ℕ}
    (hpos : ∀ item ∈ items, item.pos ≤ 127)
    (hdistinct : (seen ++ items.map PositionShare.pos).Nodup) :
    requireDistinct seen items = .ok () := by
  induction items generalizing seen with
  | nil => rfl
  | cons item rest ih =>
      have hfresh : item.pos ∉ seen := fun hmem =>
        (List.nodup_append.1 hdistinct).2.2 _ hmem _ (by simp) rfl
      rw [requireDistinct, requirePosition,
        throwIf_neg (not_lt.2 (hpos item List.mem_cons_self)), ok_bind, throwIf_neg hfresh, ok_bind]
      refine ih (fun item hitem => hpos item (List.mem_cons_of_mem _ hitem)) ?_
      simpa [List.append_assoc] using hdistinct

/-- The items of a SHARES body that passes its checks. -/
structure ItemsOk (items : List (PositionShare q G)) : Prop where
  nonempty : items ≠ []
  length_le : items.length ≤ 128
  positions : ∀ item ∈ items, item.pos ≤ 127
  distinct : (items.map PositionShare.pos).Nodup

omit [AddCommGroup G] [Module (ZMod q) G] in
theorem requireItems_ok {items : List (PositionShare q G)} (h : ItemsOk items) :
    requireItems items = .ok () := by
  have hlen := h.length_le
  have hne : items.length ≠ 0 := by simpa using h.nonempty
  rw [requireItems, throwIf_neg (by omega), ok_bind,
    requireDistinct_ok h.positions (by simpa using h.distinct)]

theorem encodeSharesBody_ok {body : SharesBody q G} (hto : body.to_ ≤ 7) (h : ItemsOk body.items) :
    encodeSharesBody P body = .ok (cborMap [("to", .int body.to_),
      ("items", .array (body.items.map fun item => cborMap (positionShareEntries P item)))]) := by
  rw [encodeSharesBody, throwIf_neg (by omega), ok_bind, requireItems_ok h, ok_bind,
    mapM_encodePositionShare P h.positions]
  rfl

theorem encodeItemsFrom_ok {items : List (PositionShare q G)} (path : String) (index : ℕ)
    (h : ∀ item ∈ items, item.pos ≤ 127) : encodeItemsFrom P path index items
      = .ok (items.map fun item => cborMap (positionShareEntries P item)) := by
  induction items generalizing index with
  | nil => rfl
  | cons item rest ih =>
      rw [encodeItemsFrom, encodePositionShare_ok P (h item List.mem_cons_self)]
      show Except.ok _ >>= _ = _
      rw [ok_bind, ih (index + 1) fun item hitem => h item (List.mem_cons_of_mem _ hitem), ok_bind]
      rfl

theorem decodeReveal_ok {reveal seen : List ℕ} (hpos : ∀ pos ∈ reveal, pos ≤ 127)
    (hdistinct : (seen ++ reveal).Nodup) :
    decodeReveal seen (reveal.map fun pos : ℕ => CborValue.int pos) = .ok (seen ++ reveal) := by
  induction reveal generalizing seen with
  | nil => simp [decodeReveal]
  | cons pos rest ih =>
      have hfresh : pos ∉ seen := fun hmem =>
        (List.nodup_append.1 hdistinct).2.2 _ hmem _ (by simp) rfl
      rw [List.map_cons, decodeReveal, expectUnsignedInteger_of_le (hpos pos List.mem_cons_self),
        ok_bind, throwIf_neg hfresh, ok_bind,
        ih (fun p hp => hpos p (List.mem_cons_of_mem _ hp)) (by simpa using hdistinct)]
      simp

theorem decodeActionShares_ok {items : List (PositionShare q G)} (index : ℕ)
    (h : ∀ item ∈ items, item.pos ≤ 127) :
    decodeActionShares P index (items.map fun item => cborMap (positionShareEntries P item))
      (items.map PositionShare.pos) = .ok items := by
  induction items generalizing index with
  | nil => rfl
  | cons item rest ih =>
      rw [List.map_cons, decodeActionShares, decodePositionShare_encode P
        (encodePositionShare_ok P (h item List.mem_cons_self)), ok_bind, throwIf_neg (by simp),
        ok_bind, List.map_cons, List.tail_cons,
        ih (index + 1) fun item hitem => h item (List.mem_cons_of_mem _ hitem)]
      rfl

/-- The fields of an action are as they should be. -/
structure ActionFields (body : ActionBody q G) : Prop where
  kind : body.kind.length ≤ MAX_ACTION_KIND_BYTES ∧ isKind body.kind = true
  length_le : body.reveal.length ≤ MAX_ACTION_REVEALS
  positions : ∀ pos ∈ body.reveal, pos ≤ 127
  distinct : body.reveal.Nodup
  shares : body.shares.map PositionShare.pos = body.reveal
  data : body.data.encodedLength ≤ MAX_ACTION_DATA_BYTES
  fits : body.data.FitsAt 0

/-- An action that passes the checks of its own decoder, which reads its data back. -/
structure ActionOk (body : ActionBody q G) : Prop extends ActionFields body where
  reads : body.data.readDepth ≤ MAX_CBOR_NESTING_DEPTH

theorem isKind_ne_empty {kind : String} (h : isKind kind = true) : kind ≠ "" := by
  rintro rfl
  simp [isKind] at h

theorem encodeActionBody_ok {body : ActionBody q G} (h : ActionOk body) :
    encodeActionBody P body = .ok (cborMap (actionEntries body
      (body.shares.map fun item => cborMap (positionShareEntries P item)))) := by
  have hitems : ∀ item ∈ body.shares, item.pos ≤ 127 := fun item hitem =>
    h.positions _ (h.shares ▸ List.mem_map_of_mem hitem)
  have hlength : body.shares.length = body.reveal.length := by
    rw [← h.shares, List.length_map]
  have hlen := h.length_le
  have hshares : encodeItems P body.shares "ACTION.body.shares"
      = .ok (body.shares.map fun item => cborMap (positionShareEntries P item)) := by
    rw [encodeItems, throwIf_neg (by omega), ok_bind, encodeItemsFrom_ok P _ _ hitems]
  have hdecode : decodeActionBody P (cborMap (actionEntries body
      (body.shares.map fun item => cborMap (positionShareEntries P item)))) = .ok body := by
    generalize hvalues : (body.shares.map fun item => cborMap (positionShareEntries P item))
      = values
    have hkeys : ((actionEntries body values).map Prod.fst).Nodup := by simp [actionEntries]
    have hkind : field (actionEntries body values) "kind" = .text body.kind := by
      simp [field, actionEntries]
    have hreveal : field (actionEntries body values) "reveal"
        = .array (body.reveal.map fun pos : ℕ => CborValue.int pos) := by
      simp [field, actionEntries, List.lookup]
    have hvalue : field (actionEntries body values) "shares" = .array values := by
      simp [field, actionEntries, List.lookup]
    have hdata : field (actionEntries body values) "data" = body.data := by
      simp [field, actionEntries, List.lookup]
    have hreveals : decodeReveal [] (body.reveal.map fun pos : ℕ => CborValue.int pos)
        = .ok ([] ++ body.reveal) := decodeReveal_ok h.positions (by simpa using h.distinct)
    rw [List.nil_append] at hreveals
    rw [decodeActionBody, expectExactMap_cborMap _ rfl (by simp [ACTION_KEYS, actionEntries])]
    simp only [ok_bind, field_cborMap hkeys, hkind, hreveal, hvalue, hdata]
    rw [expectNonEmptyText, if_neg (isKind_ne_empty h.kind.2), ok_bind,
      throwIf_neg (by simp [h.kind.1, h.kind.2]), ok_bind, expectArray, ok_bind, expectArray,
      ok_bind, throwIf_neg (by rw [← hvalues]; simp [hlength, hlen]), ok_bind,
      hreveals, ok_bind, ← h.shares, ← hvalues, decodeActionShares_ok P 0 hitems, ok_bind,
      decodeActionData_eq_ok.2 ⟨rfl, h.fits, h.reads, h.data⟩, ok_bind, h.shares]
    rfl
  rw [encodeActionBody, hshares, ok_bind]
  simp only [hdecode, ok_bind]
  rfl

/-- The empty disclosure is written and read back. -/
theorem encodeAuditDiscloseBody_nil : encodeAuditDiscloseBody P ⟨[]⟩
      = .ok (cborMap [("items", .array [])]) ∧
    decodeAuditDiscloseBody P (cborMap [("items", .array [])]) = .ok ⟨[]⟩ := by
  have hdecode : decodeAuditDiscloseBody P (cborMap [("items", .array [])])
      = .ok (⟨[]⟩ : AuditDiscloseBody q G) := by
    rw [decodeAuditDiscloseBody, expectExactMap_cborMap _ rfl (by simp), ok_bind]
    rfl
  refine ⟨?_, hdecode⟩
  rw [encodeAuditDiscloseBody, encodeItems, throwIf_neg (by simp), ok_bind, encodeItemsFrom,
    ok_bind]
  simp only [hdecode, ok_bind]
  rfl

/-! ## What a decoder returns -/

theorem expectUnsignedInteger_le {value : CborValue} {path : String} {maximum result : ℕ}
    (h : expectUnsignedInteger value path maximum = .ok result) : result ≤ maximum := by
  cases value with
  | int number =>
      simp only [expectUnsignedInteger] at h
      split at h
      · cases h
      · cases h
        omega
  | _ => cases h

omit [AddCommGroup G] [Module (ZMod q) G] in
theorem of_requireDistinct {items : List (PositionShare q G)} {seen : List ℕ}
    (h : requireDistinct seen items = .ok ()) (hseen : seen.Nodup) :
    (∀ item ∈ items, item.pos ≤ 127) ∧ (seen ++ items.map PositionShare.pos).Nodup := by
  induction items generalizing seen with
  | nil => simpa using hseen
  | cons item rest ih =>
      simp only [requireDistinct, requirePosition, check_bind_eq_ok, throwIf_eq_ok, not_lt] at h
      obtain ⟨hpos, hfresh, hrest⟩ := h
      have hsnoc : (seen ++ [item.pos]).Nodup := List.nodup_append.2
        ⟨hseen, List.nodup_singleton _, fun x hx y hy => by
          rintro rfl
          exact hfresh (List.mem_singleton.1 hy ▸ hx)⟩
      obtain ⟨hall, hnodup⟩ := ih hrest hsnoc
      refine ⟨fun other hother => ?_, by simpa [List.append_assoc] using hnodup⟩
      rcases List.mem_cons.1 hother with rfl | hother
      · exact hpos
      · exact hall other hother

/-- A SHARES body that was read names between one and 128 positions, none twice. -/
theorem itemsOk_of_decodeSharesBody {value : CborValue} {body : SharesBody q G}
    (h : decodeSharesBody P value = .ok body) : ItemsOk body.items := by
  obtain ⟨_, -, h⟩ := bind_eq_ok.1 h
  obtain ⟨_, -, h⟩ := bind_eq_ok.1 h
  obtain ⟨_, -, h⟩ := bind_eq_ok.1 h
  obtain ⟨items, -, h⟩ := bind_eq_ok.1 h
  obtain ⟨hitems, h⟩ := check_bind_eq_ok.1 h
  cases h
  simp only [requireItems, check_bind_eq_ok, throwIf_eq_ok, not_or, not_lt] at hitems
  obtain ⟨⟨hne, hlen⟩, hdistinct⟩ := hitems
  obtain ⟨hpos, hnodup⟩ := of_requireDistinct hdistinct List.nodup_nil
  exact ⟨by simpa using hne, hlen, hpos, hnodup⟩

theorem of_decodeReveal {values : List CborValue} {seen reveal : List ℕ}
    (h : decodeReveal seen values = .ok reveal) (hseen : seen.Nodup)
    (hle : ∀ pos ∈ seen, pos ≤ 127) :
    reveal.Nodup ∧ (∀ pos ∈ reveal, pos ≤ 127) ∧ reveal.length = seen.length + values.length := by
  induction values generalizing seen with
  | nil =>
      cases h
      exact ⟨hseen, hle, rfl⟩
  | cons value rest ih =>
      rw [decodeReveal, bind_eq_ok] at h
      obtain ⟨pos, hpos, h⟩ := h
      obtain ⟨hfresh, h⟩ := check_bind_eq_ok.1 h
      rw [throwIf_eq_ok] at hfresh
      obtain ⟨hnodup, hall, hlen⟩ := ih h
        (List.nodup_append.2 ⟨hseen, List.nodup_singleton _, fun x hx y hy => by
          rintro rfl
          exact hfresh (List.mem_singleton.1 hy ▸ hx)⟩)
        (fun p hp => by
          rcases List.mem_append.1 hp with hp | hp
          · exact hle p hp
          · exact List.mem_singleton.1 hp ▸ expectUnsignedInteger_le hpos)
      exact ⟨hnodup, hall, by simp at hlen ⊢; omega⟩

theorem of_decodeActionShares {values : List CborValue} {index : ℕ} {reveal : List ℕ}
    {shares : List (PositionShare q G)} (h : decodeActionShares P index values reveal = .ok shares) :
    shares.map PositionShare.pos = reveal.take values.length := by
  induction values generalizing index reveal shares with
  | nil =>
      cases h
      simp
  | cons value rest ih =>
      rw [decodeActionShares, bind_eq_ok] at h
      obtain ⟨share, -, h⟩ := h
      obtain ⟨hhead, h⟩ := check_bind_eq_ok.1 h
      rw [throwIf_eq_ok, not_not] at hhead
      obtain ⟨shares, hshares, h⟩ := bind_eq_ok.1 h
      cases h
      cases reveal with
      | nil => simp at hhead
      | cons pos reveal =>
          obtain rfl : pos = share.pos := by simpa using hhead
          simp [ih hshares]

/-- An ACTION body that was read passes the checks of its decoder; in particular its
shares are for the positions it reveals, in their order. -/
theorem actionOk_of_decodeActionBody {value : CborValue} {body : ActionBody q G}
    (h : decodeActionBody P value = .ok body) : ActionOk body := by
  obtain ⟨_, -, h⟩ := bind_eq_ok.1 h
  obtain ⟨kind, -, h⟩ := bind_eq_ok.1 h
  obtain ⟨hkind, h⟩ := check_bind_eq_ok.1 h
  obtain ⟨positions, -, h⟩ := bind_eq_ok.1 h
  obtain ⟨encoded, -, h⟩ := bind_eq_ok.1 h
  obtain ⟨hlength, h⟩ := check_bind_eq_ok.1 h
  obtain ⟨reveal, hreveal, h⟩ := bind_eq_ok.1 h
  obtain ⟨shares, hshares, h⟩ := bind_eq_ok.1 h
  obtain ⟨data, hdata, h⟩ := bind_eq_ok.1 h
  obtain ⟨rfl, hfits, hread, hdata⟩ := decodeActionData_eq_ok.1 hdata
  cases h
  simp only [throwIf_eq_ok, not_or, not_lt, Bool.not_eq_false, not_not] at hkind hlength
  obtain ⟨hnodup, hpos, hlen⟩ := of_decodeReveal hreveal List.nodup_nil (by simp)
  have hlen : reveal.length = positions.length := by simpa using hlen
  have htake := of_decodeActionShares P hshares
  rw [hlength.2, ← hlen, List.take_length] at htake
  refine ⟨⟨hkind, ?_, hpos, hnodup, htake, hdata, hfits⟩, hread⟩
  show reveal.length ≤ MAX_ACTION_REVEALS
  omega

/-! ## Lengths -/

theorem encodedLength_int_le {value : ℤ} : (CborValue.int value).encodedLength ≤ 9 :=
  headLength_le _

theorem encodedLength_pointValue (point : G) : (pointValue P point).encodedLength = 34 := by
  rw [pointValue, CborValue.encodedLength, (P.pointBytes point).property]
  rfl

theorem encodedLength_scalarValue (scalar : ZMod q) : (scalarValue P scalar).encodedLength = 34 := by
  rw [scalarValue, CborValue.encodedLength, (P.scalarBytes scalar).property]
  rfl

theorem encodedLength_positionShare (item : PositionShare q G) :
    (cborMap (positionShareEntries P item)).encodedLength ≤ 168 := by
  have hpos : (CborValue.int (item.pos : ℤ)).encodedLength ≤ 9 := encodedLength_int_le
  have hkeys : textLength "pos" = 4 ∧ textLength "S" = 2 ∧ textLength "R1" = 3 ∧
      textLength "R2" = 3 ∧ textLength "z" = 2 := by decide
  obtain ⟨h1, h2, h3, h4, h5⟩ := hkeys
  have hentries : entriesLength (positionShareEntries P item) ≤ 159 := by
    simp only [positionShareEntries, entriesLength, encodedLength_pointValue,
      encodedLength_scalarValue, h1, h2, h3, h4, h5]
    omega
  have hhead := headLength_le (positionShareEntries P item).length
  rw [encodedLength_cborMap]
  omega

theorem itemsLength_le {values : List CborValue} {bound : ℕ}
    (h : ∀ value ∈ values, value.encodedLength ≤ bound) :
    itemsLength values ≤ bound * values.length := by
  induction values with
  | nil => simp [itemsLength]
  | cons value rest ih =>
      have hhead := h value List.mem_cons_self
      have hrest := ih fun value hvalue => h value (List.mem_cons_of_mem _ hvalue)
      simp only [itemsLength, List.length_cons, Nat.mul_add, Nat.mul_one]
      omega

theorem itemsLength_positionShares (items : List (PositionShare q G)) :
    itemsLength (items.map fun item => cborMap (positionShareEntries P item))
      ≤ 168 * items.length := by
  have hbound : ∀ value ∈ items.map fun item => cborMap (positionShareEntries P item),
      value.encodedLength ≤ 168 := by
    intro value hvalue
    obtain ⟨item, -, rfl⟩ := List.mem_map.1 hvalue
    exact encodedLength_positionShare P item
  simpa using itemsLength_le hbound

/-- A SHARES body is short. -/
theorem encodedLength_sharesBody {body : SharesBody q G} (h : ItemsOk body.items) :
    (cborMap [("to", .int body.to_),
      ("items", .array (body.items.map fun item => cborMap (positionShareEntries P item)))]
      ).encodedLength ≤ 22000 := by
  have hitems := itemsLength_positionShares P body.items
  generalize hvalues : (body.items.map fun item => cborMap (positionShareEntries P item))
    = values at hitems
  have hlength := h.length_le
  have hto : (CborValue.int (body.to_ : ℤ)).encodedLength ≤ 9 := encodedLength_int_le
  have hkeys : textLength "to" = 3 ∧ textLength "items" = 6 := by decide
  have hmap := headLength_le ([("to", CborValue.int body.to_),
    ("items", CborValue.array values)] : CborRecord).length
  have harray := headLength_le values.length
  rw [encodedLength_cborMap]
  simp only [entriesLength, CborValue.encodedLength] at hto ⊢
  omega

/-- An ACTION body is short. -/
theorem encodedLength_actionBody {body : ActionBody q G} (h : ActionOk body) :
    (cborMap (actionEntries body
      (body.shares.map fun item => cborMap (positionShareEntries P item)))).encodedLength ≤ 30000 := by
  have hitems := itemsLength_positionShares P body.shares
  generalize hvalues : (body.shares.map fun item => cborMap (positionShareEntries P item))
    = values at hitems
  have hcount : body.shares.length = body.reveal.length := by rw [← h.shares, List.length_map]
  have hreveals : itemsLength (body.reveal.map fun pos : ℕ => CborValue.int pos)
      ≤ 9 * body.reveal.length := by
    have hbound : ∀ value ∈ body.reveal.map fun pos : ℕ => CborValue.int pos,
        value.encodedLength ≤ 9 := by
      intro value hvalue
      obtain ⟨pos, -, rfl⟩ := List.mem_map.1 hvalue
      exact encodedLength_int_le
    simpa using itemsLength_le hbound
  generalize hpositions : (body.reveal.map fun pos : ℕ => CborValue.int pos) = positions
    at hreveals
  have hlength : body.reveal.length ≤ 128 := h.length_le
  have hkind : textLength body.kind ≤ 9 + 4 * 64 := by
    have hhead := headLength_le body.kind.utf8ByteSize
    have hsize := utf8ByteSize_le body.kind
    have hkind : body.kind.length ≤ 64 := h.kind.1
    rw [textLength]
    omega
  have hdata : body.data.encodedLength ≤ 4096 := h.data
  have hkeys : textLength "kind" = 5 ∧ textLength "data" = 5 ∧ textLength "reveal" = 7 ∧
      textLength "shares" = 7 := by decide
  obtain ⟨h1, h2, h3, h4⟩ := hkeys
  have hmap := headLength_le (actionEntries body values).length
  have hpositionsHead := headLength_le positions.length
  have hvaluesHead := headLength_le values.length
  rw [encodedLength_cborMap]
  simp only [actionEntries, hpositions, entriesLength, CborValue.encodedLength, h1, h2, h3, h4]
    at hmap ⊢
  omega

end

end Tablefolk
