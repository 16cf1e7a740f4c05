import Tablefolk.Lib.Checks

/-!
# CBOR values and schemas

The model of `encoding/value.ts` and `protocol/schema.ts`: the values that travel
in envelope bodies, how long their canonical encoding is, and the functions that
take a body apart.

A CBOR map is kept with its keys in canonical order, as `decodeCanonical` returns
it, so equal maps are equal values; `cborMap` puts fields in that order.
`field_cborMap` and `expectExactMap_cborMap` are what a decoder gets back from an
encoder.
-/

namespace Tablefolk

/-- `CborValue`: numbers are integers, map keys are text. -/
inductive CborValue where
  | null
  | bool (value : Bool)
  | int (value : ℤ)
  | text (value : String)
  | bytes (value : List UInt8)
  | array (items : List CborValue)
  | map (entries : List (String × CborValue))

mutual

def CborValue.decEq : (a b : CborValue) → Decidable (a = b)
  | .null, b => by cases b <;> first | exact isTrue rfl | exact isFalse (by simp)
  | .bool x, b => by
      cases b with
      | bool y => exact decidable_of_iff (x = y) (by simp)
      | _ => exact isFalse (by simp)
  | .int x, b => by
      cases b with
      | int y => exact decidable_of_iff (x = y) (by simp)
      | _ => exact isFalse (by simp)
  | .text x, b => by
      cases b with
      | text y => exact decidable_of_iff (x = y) (by simp)
      | _ => exact isFalse (by simp)
  | .bytes x, b => by
      cases b with
      | bytes y => exact decidable_of_iff (x = y) (by simp)
      | _ => exact isFalse (by simp)
  | .array x, b => match b with
      | .array y => match decEqItems x y with
        | isTrue h => isTrue (by rw [h])
        | isFalse h => isFalse (by simpa using h)
      | .null | .bool _ | .int _ | .text _ | .bytes _ | .map _ => isFalse (by simp)
  | .map x, b => match b with
      | .map y => match decEqEntries x y with
        | isTrue h => isTrue (by rw [h])
        | isFalse h => isFalse (by simpa using h)
      | .null | .bool _ | .int _ | .text _ | .bytes _ | .array _ => isFalse (by simp)

def decEqItems : (a b : List CborValue) → Decidable (a = b)
  | [], [] => isTrue rfl
  | [], _ :: _ => isFalse (by simp)
  | _ :: _, [] => isFalse (by simp)
  | x :: xs, y :: ys => match CborValue.decEq x y, decEqItems xs ys with
      | isTrue h, isTrue h' => isTrue (by rw [h, h'])
      | isFalse h, _ => isFalse (by simp [h])
      | _, isFalse h => isFalse (by simp [h])

def decEqEntries : (a b : List (String × CborValue)) → Decidable (a = b)
  | [], [] => isTrue rfl
  | [], _ :: _ => isFalse (by simp)
  | _ :: _, [] => isFalse (by simp)
  | (k, x) :: xs, (l, y) :: ys => match decEq k l, CborValue.decEq x y, decEqEntries xs ys with
      | isTrue g, isTrue h, isTrue h' => isTrue (by rw [g, h, h'])
      | isFalse h, _, _ => isFalse (by simp [h])
      | _, isFalse h, _ => isFalse (by simp [h])
      | _, _, isFalse h => isFalse (by simp [h])

end

instance : DecidableEq CborValue := CborValue.decEq

/-! ## Maps -/

/-- The canonical order of map keys: shorter encodings first, then bytewise. -/
def canonicalKeyLe (a b : String × CborValue) : Prop :=
  a.1.utf8ByteSize < b.1.utf8ByteSize ∨ a.1.utf8ByteSize = b.1.utf8ByteSize ∧ a.1 ≤ b.1

instance : DecidableRel canonicalKeyLe := fun _ _ => inferInstanceAs (Decidable (_ ∨ _ ∧ _))

/-- A map with these fields. -/
def cborMap (entries : List (String × CborValue)) : CborValue :=
  .map (entries.insertionSort canonicalKeyLe)

/-- The fields of a map whose keys have been checked. -/
abbrev CborRecord := List (String × CborValue)

/-- `record[key]`, for a key that is there. -/
def field (record : CborRecord) (key : String) : CborValue := (record.lookup key).getD .null

/-! ## The length of the canonical encoding -/

/-- The bytes of a CBOR head with this argument. -/
def headLength (argument : ℕ) : ℕ :=
  if argument < 24 then 1 else if argument < 2 ^ 8 then 2 else if argument < 2 ^ 16 then 3
  else if argument < 2 ^ 32 then 5 else 9

def textLength (value : String) : ℕ := headLength value.utf8ByteSize + value.utf8ByteSize

mutual

/-- `encodeCanonical(value).length`. -/
def CborValue.encodedLength : CborValue → ℕ
  | .null | .bool _ => 1
  | .int value => headLength (if 0 ≤ value then value.toNat else (-1 - value).toNat)
  | .text value => textLength value
  | .bytes value => headLength value.length + value.length
  | .array items => headLength items.length + itemsLength items
  | .map entries => headLength entries.length + entriesLength entries

def itemsLength : List CborValue → ℕ
  | [] => 0
  | item :: rest => item.encodedLength + itemsLength rest

def entriesLength : List (String × CborValue) → ℕ
  | [] => 0
  | (key, value) :: rest => textLength key + value.encodedLength + entriesLength rest

end

/-! ## Schemas -/

/-- `ProtocolSchemaError`. -/
structure ProtocolSchemaError where
  path : String
  message : String
  deriving DecidableEq, Repr

/-- `expectExactMap`: a map with exactly these keys. -/
def expectExactMap (value : CborValue) (expectedKeys : List String) (path : String) :
    Except ProtocolSchemaError CborRecord :=
  match value with
  | .map entries =>
      if entries.length ≠ expectedKeys.length ∨
          ∃ key ∈ expectedKeys, key ∉ entries.map Prod.fst then
        .error ⟨path, "fields must be exactly: " ++ ", ".intercalate expectedKeys⟩
      else .ok entries
  | _ => .error ⟨path, "must be a CBOR map"⟩

/-- `expectArray`. -/
def expectArray (value : CborValue) (path : String) : Except ProtocolSchemaError (List CborValue) :=
  match value with
  | .array items => .ok items
  | _ => .error ⟨path, "must be an array"⟩

/-- `expectByteString`. -/
def expectByteString (value : CborValue) (path : String) : Except ProtocolSchemaError (List UInt8) :=
  match value with
  | .bytes bytes => .ok bytes
  | _ => .error ⟨path, "must be a byte string"⟩

/-- `Number.MAX_SAFE_INTEGER`. -/
def MAX_SAFE_INTEGER : ℕ := 2 ^ 53 - 1

/-- `expectUnsignedInteger`. -/
def expectUnsignedInteger (value : CborValue) (path : String) (maximum : ℕ) :
    Except ProtocolSchemaError ℕ :=
  match value with
  | .int number =>
      if number < 0 ∨ (maximum : ℤ) < number then
        .error ⟨path, "must be an unsigned integer no greater than " ++ toString maximum⟩
      else .ok number.toNat
  | _ => .error ⟨path, "must be an unsigned integer no greater than " ++ toString maximum⟩

/-- `expectNonEmptyText`. -/
def expectNonEmptyText (value : CborValue) (path : String) : Except ProtocolSchemaError String :=
  match value with
  | .text text =>
      if text = "" then .error ⟨path, "must be a non-empty text string"⟩ else .ok text
  | _ => .error ⟨path, "must be a non-empty text string"⟩

/-! ## What a decoder gets back -/

theorem cborMap_entries (entries : List (String × CborValue)) :
    (entries.insertionSort canonicalKeyLe).Perm entries := List.perm_insertionSort _ entries

/-- Looking a key up does not depend on the order of the entries. -/
theorem lookup_perm {entries entries' : CborRecord} (h : entries.Perm entries')
    (hkeys : (entries.map Prod.fst).Nodup) (key : String) :
    entries.lookup key = entries'.lookup key := by
  induction h with
  | nil => rfl
  | cons entry _ ih =>
      obtain ⟨k, value⟩ := entry
      rw [List.map_cons, List.nodup_cons] at hkeys
      rw [List.lookup_cons, List.lookup_cons, ih hkeys.2]
  | swap a b l =>
      obtain ⟨k, value⟩ := a
      obtain ⟨k', value'⟩ := b
      have hne : k' ≠ k := by
        rw [List.map_cons, List.map_cons, List.nodup_cons] at hkeys
        exact fun h => hkeys.1 (List.mem_cons.2 (.inl h))
      simp only [List.lookup_cons]
      by_cases hk : key = k
      · subst hk
        have hbeq : (key == k') = false := by simpa using Ne.symm hne
        simp [hbeq]
      · have hbeq : (key == k) = false := by simpa using hk
        simp only [hbeq]
  | trans h₁ _ ih₁ ih₂ =>
      rw [ih₁ hkeys, ih₂ ((h₁.map Prod.fst).nodup_iff.1 hkeys)]

/-- The fields of `cborMap entries` are the entries. -/
theorem field_cborMap {entries : CborRecord} (hkeys : (entries.map Prod.fst).Nodup)
    (key : String) : field (entries.insertionSort canonicalKeyLe) key = field entries key := by
  rw [field, field, lookup_perm (cborMap_entries entries)
    (((cborMap_entries entries).map Prod.fst).nodup_iff.2 hkeys)]

/-- A map with the expected keys is accepted. -/
theorem expectExactMap_cborMap {entries : CborRecord} {keys : List String} (path : String)
    (hlen : entries.length = keys.length) (hkeys : ∀ key ∈ keys, key ∈ entries.map Prod.fst) :
    expectExactMap (cborMap entries) keys path
      = .ok (entries.insertionSort canonicalKeyLe) := by
  have hperm := cborMap_entries entries
  rw [cborMap, expectExactMap, if_neg]
  rintro (h | ⟨key, hkey, hnot⟩)
  · exact h (hperm.length_eq.trans hlen)
  · exact hnot ((hperm.map Prod.fst).mem_iff.2 (hkeys key hkey))

theorem entriesLength_perm {entries entries' : CborRecord} (h : entries.Perm entries') :
    entriesLength entries = entriesLength entries' := by
  induction h with
  | nil => rfl
  | cons entry _ ih =>
      obtain ⟨key, value⟩ := entry
      simp only [entriesLength, ih]
  | swap a b l =>
      obtain ⟨_, _⟩ := a
      obtain ⟨_, _⟩ := b
      simp only [entriesLength]
      omega
  | trans _ _ ih₁ ih₂ => exact ih₁.trans ih₂

/-- The length of a map does not depend on the order its fields were given in. -/
theorem encodedLength_cborMap (entries : CborRecord) :
    (cborMap entries).encodedLength = headLength entries.length + entriesLength entries := by
  rw [cborMap, CborValue.encodedLength, entriesLength_perm (cborMap_entries entries),
    List.length_insertionSort]

/-- A character takes at most four bytes. -/
theorem utf8ByteSize_le (text : String) : text.utf8ByteSize ≤ 4 * text.length := by
  obtain ⟨chars, rfl⟩ : ∃ chars, text = String.ofList chars := ⟨text.toList, by simp⟩
  induction chars using List.reverseRecOn with
  | nil => simp
  | append_singleton chars c ih =>
      have hc := c.utf8Size_le_four
      rw [String.ofList_append, String.utf8ByteSize_append,
        show String.ofList [c] = String.singleton c by simp, String.utf8ByteSize_singleton,
        String.length_append, String.length_singleton]
      omega

theorem headLength_le (argument : ℕ) : headLength argument ≤ 9 := by
  unfold headLength
  split_ifs <;> omega

end Tablefolk
