import Tablefolk.Protocol.Codec

/-!
# Canonical CBOR, byte by byte

The bytes that `encodeCanonical` returns: shortest heads, texts in UTF-8, maps with their keys in
canonical order.

* `readHead_cborHead`: a head is read back, whatever follows it.
* `encoded_append_inj`: values are self-delimiting.
* `length_encoded`: the length of an encoding is the one that the code compares with its limits.
-/

namespace Tablefolk

/-! ## Heads -/

/-- The last `count` bytes of a number, the highest first. -/
def bigEndian : ℕ → ℕ → List UInt8
  | 0, _ => []
  | count + 1, value => bigEndian count (value / 256) ++ [UInt8.ofNat value]

/-- The number with these bytes. -/
def ofBigEndian (bytes : List UInt8) : ℕ :=
  bytes.foldl (fun wide byte => wide * 256 + byte.toNat) 0

/-- The head of a CBOR item. -/
def cborHead (major argument : ℕ) : List UInt8 :=
  if argument < 24 then [UInt8.ofNat (major * 32 + argument)]
  else if argument < 2 ^ 8 then UInt8.ofNat (major * 32 + 24) :: bigEndian 1 argument
  else if argument < 2 ^ 16 then UInt8.ofNat (major * 32 + 25) :: bigEndian 2 argument
  else if argument < 2 ^ 32 then UInt8.ofNat (major * 32 + 26) :: bigEndian 4 argument
  else UInt8.ofNat (major * 32 + 27) :: bigEndian 8 argument

/-- A byte string. -/
def cborBytes (bytes : List UInt8) : List UInt8 := cborHead 2 bytes.length ++ bytes

/-- A text. -/
def cborText (text : String) : List UInt8 :=
  cborHead 3 text.toUTF8.size ++ text.toUTF8.toList

@[simp] theorem length_bigEndian (count value : ℕ) : (bigEndian count value).length = count := by
  induction count generalizing value with
  | zero => rfl
  | succ count ih => simp [bigEndian, ih]

theorem ofBigEndian_bigEndian {count value : ℕ} (h : value < 256 ^ count) :
    ofBigEndian (bigEndian count value) = value := by
  induction count generalizing value with
  | zero =>
      rw [pow_zero, Nat.lt_one_iff] at h
      rw [h]
      rfl
  | succ count ih =>
      have hlt : value / 256 < 256 ^ count := by
        rw [Nat.div_lt_iff_lt_mul (by decide), ← pow_succ]
        exact h
      have hbyte : (UInt8.ofNat value).toNat = value % 256 := by simp
      have hhigh := ih hlt
      unfold ofBigEndian at hhigh ⊢
      rw [bigEndian, List.foldl_append, hhigh, List.foldl_cons, List.foldl_nil, hbyte]
      exact Nat.div_add_mod' value 256

theorem ofBigEndian_append (bytes : List UInt8) (byte : UInt8) :
    ofBigEndian (bytes ++ [byte]) = ofBigEndian bytes * 256 + byte.toNat := by
  unfold ofBigEndian
  rw [List.foldl_append, List.foldl_cons, List.foldl_nil]

theorem ofBigEndian_lt (bytes : List UInt8) : ofBigEndian bytes < 256 ^ bytes.length := by
  induction bytes using List.reverseRecOn with
  | nil => exact Nat.one_pos
  | append_singleton bytes byte ih =>
      have hbyte := byte.toNat_lt
      rw [ofBigEndian_append, List.length_append, List.length_singleton, pow_succ]
      omega

theorem bigEndian_ofBigEndian (bytes : List UInt8) :
    bigEndian bytes.length (ofBigEndian bytes) = bytes := by
  induction bytes using List.reverseRecOn with
  | nil => rfl
  | append_singleton bytes byte ih =>
      have hlt := byte.toNat_lt
      have hhigh : (ofBigEndian bytes * 256 + byte.toNat) / 256 = ofBigEndian bytes := by omega
      have hlow : UInt8.ofNat (ofBigEndian bytes * 256 + byte.toNat) = byte := by
        apply UInt8.toNat_inj.1
        rw [UInt8.toNat_ofNat']
        omega
      rw [List.length_append, List.length_singleton, bigEndian, ofBigEndian_append, hhigh, hlow, ih]

/-- The head at the start of these bytes: major type, argument, and the bytes after it. -/
def readHead : List UInt8 → Option (ℕ × ℕ × List UInt8)
  | [] => none
  | byte :: rest =>
      let major := byte.toNat / 32
      let info := byte.toNat % 32
      if info < 24 then some (major, info, rest)
      else some (major, ofBigEndian (rest.take (2 ^ (info - 24))), rest.drop (2 ^ (info - 24)))

theorem readHead_wide {major argument : ℕ} (info : ℕ) (rest : List UInt8) (hmajor : major < 8)
    (hinfo : 24 ≤ info) (hinfo' : info < 28) (hlt : argument < 256 ^ 2 ^ (info - 24)) :
    readHead (UInt8.ofNat (major * 32 + info) :: bigEndian (2 ^ (info - 24)) argument ++ rest) =
      some (major, argument, rest) := by
  have hbyte : (UInt8.ofNat (major * 32 + info)).toNat = major * 32 + info := by
    rw [UInt8.toNat_ofNat']
    exact Nat.mod_eq_of_lt (by omega)
  have hdiv : (major * 32 + info) / 32 = major := by omega
  have hmod : (major * 32 + info) % 32 = info := by omega
  rw [List.cons_append, readHead]
  simp only [hbyte, hdiv, hmod]
  rw [if_neg (by omega), List.take_left' (length_bigEndian _ _),
    List.drop_left' (length_bigEndian _ _), ofBigEndian_bigEndian hlt]

/-- A head is read back, whatever follows it. -/
theorem readHead_cborHead {major argument : ℕ} (rest : List UInt8) (hmajor : major < 8)
    (hargument : argument < 2 ^ 64) :
    readHead (cborHead major argument ++ rest) = some (major, argument, rest) := by
  unfold cborHead
  split_ifs with h24 h8 h16 h32
  · have hbyte : (UInt8.ofNat (major * 32 + argument)).toNat = major * 32 + argument := by
      rw [UInt8.toNat_ofNat']
      exact Nat.mod_eq_of_lt (by omega)
    have hdiv : (major * 32 + argument) / 32 = major := by omega
    have hmod : (major * 32 + argument) % 32 = argument := by omega
    rw [List.singleton_append, readHead]
    simp only [hbyte, hdiv, hmod, if_pos h24]
  · exact readHead_wide 24 rest hmajor le_rfl (by decide) (by omega)
  · exact readHead_wide 25 rest hmajor (by decide) (by decide) (by omega)
  · exact readHead_wide 26 rest hmajor (by decide) (by decide) (by omega)
  · exact readHead_wide 27 rest hmajor (by decide) (by decide) (by omega)

/-- Two heads at the start of the same bytes are the same. -/
theorem cborHead_append_inj {major major' argument argument' : ℕ} {rest rest' : List UInt8}
    (hmajor : major < 8) (hmajor' : major' < 8) (hargument : argument < 2 ^ 64)
    (hargument' : argument' < 2 ^ 64)
    (h : cborHead major argument ++ rest = cborHead major' argument' ++ rest') :
    major = major' ∧ argument = argument' ∧ rest = rest' := by
  have hread := readHead_cborHead rest hmajor hargument
  rw [h, readHead_cborHead rest' hmajor' hargument'] at hread
  cases hread
  exact ⟨rfl, rfl, rfl⟩

theorem length_cborHead (major argument : ℕ) :
    (cborHead major argument).length = headLength argument := by
  unfold cborHead headLength
  split_ifs <;> simp

/-! ## Texts -/

theorem loop_eq_reverse_append (bytes : ByteArray) (position : ℕ) (read : List UInt8) :
    ByteArray.toList.loop bytes position read =
      read.reverse ++ bytes.data.toList.drop position := by
  induction position, read using ByteArray.toList.loop.induct bytes with
  | case1 position read hlt ih =>
      have hposition : position < bytes.data.toList.length := by simpa using hlt
      have hbyte : bytes.get! position = bytes.data.toList[position] := by
        rw [Array.getElem_toList]
        exact getElem!_pos bytes.data position (by simpa using hposition)
      rw [ByteArray.toList.loop, if_pos hlt, ih, List.reverse_cons, List.append_assoc,
        List.singleton_append, hbyte, List.getElem_cons_drop]
  | case2 position read hge =>
      have hnil : bytes.data.toList.drop position = [] :=
        List.drop_eq_nil_iff.2 (by simpa using hge)
      rw [ByteArray.toList.loop, if_neg hge, hnil, List.append_nil]

theorem toList_eq_data (bytes : ByteArray) : bytes.toList = bytes.data.toList := by
  unfold ByteArray.toList
  rw [loop_eq_reverse_append]
  rfl

theorem length_toUTF8 (text : String) : text.toUTF8.toList.length = text.utf8ByteSize := by
  rw [toList_eq_data, Array.length_toList]
  rfl

theorem toUTF8_inj {text text' : String} (h : text.toUTF8.toList = text'.toUTF8.toList) :
    text = text' := by
  rw [toList_eq_data, toList_eq_data] at h
  apply String.toByteArray_inj.1
  exact ByteArray.ext (Array.toList_inj.1 h)

/-! ## Values -/

mutual

/-- The bytes of a value. -/
def CborValue.encoded : CborValue → List UInt8
  | .null => cborHead 7 22
  | .bool value => cborHead 7 (if value then 21 else 20)
  | .int value => if 0 ≤ value then cborHead 0 value.toNat else cborHead 1 (-1 - value).toNat
  | .text value => cborText value
  | .bytes value => cborBytes value
  | .array items => cborHead 4 items.length ++ encodedItems items
  | .map entries => cborHead 5 entries.length ++ encodedEntries entries

def encodedItems : List CborValue → List UInt8
  | [] => []
  | item :: rest => item.encoded ++ encodedItems rest

def encodedEntries : List (String × CborValue) → List UInt8
  | [] => []
  | (key, value) :: rest => cborText key ++ value.encoded ++ encodedEntries rest

end

theorem length_cborText (text : String) : (cborText text).length = textLength text := by
  unfold cborText textLength
  rw [List.length_append, length_cborHead, length_toUTF8]
  rfl

theorem length_cborBytes' (bytes : List UInt8) :
    (cborBytes bytes).length = headLength bytes.length + bytes.length := by
  unfold cborBytes
  rw [List.length_append, length_cborHead]

mutual

/-- The length of an encoding is the one that the code compares with its limits. -/
theorem length_encoded : ∀ value : CborValue, value.encoded.length = value.encodedLength
  | .null => rfl
  | .bool value => by cases value <;> rfl
  | .int value => by
      rw [CborValue.encoded, CborValue.encodedLength]
      split_ifs <;> exact length_cborHead _ _
  | .text value => length_cborText value
  | .bytes value => length_cborBytes' value
  | .array items => by
      rw [CborValue.encoded, CborValue.encodedLength, List.length_append, length_cborHead,
        length_encodedItems items]
  | .map entries => by
      rw [CborValue.encoded, CborValue.encodedLength, List.length_append, length_cborHead,
        length_encodedEntries entries]

theorem length_encodedItems : ∀ items : List CborValue,
    (encodedItems items).length = itemsLength items
  | [] => rfl
  | item :: rest => by
      rw [encodedItems, itemsLength, List.length_append, length_encoded item,
        length_encodedItems rest]

theorem length_encodedEntries : ∀ entries : CborRecord,
    (encodedEntries entries).length = entriesLength entries
  | [] => rfl
  | (key, value) :: rest => by
      rw [encodedEntries, entriesLength, List.length_append, List.length_append, length_cborText,
        length_encoded value, length_encodedEntries rest]

end

/-! ## Values are self-delimiting -/

theorem cborText_append_inj {text text' : String} {rest rest' : List UInt8}
    (hsize : text.utf8ByteSize < 2 ^ 64) (hsize' : text'.utf8ByteSize < 2 ^ 64)
    (h : cborText text ++ rest = cborText text' ++ rest') : text = text' ∧ rest = rest' := by
  unfold cborText at h
  rw [List.append_assoc, List.append_assoc] at h
  obtain ⟨-, hlength, h⟩ := cborHead_append_inj (by decide) (by decide) hsize hsize' h
  obtain ⟨htext, hrest⟩ := List.append_inj h (by
    rw [length_toUTF8, length_toUTF8]
    exact hlength)
  exact ⟨toUTF8_inj htext, hrest⟩

/-- The major type of a value. -/
def CborValue.major : CborValue → ℕ
  | .null | .bool _ => 7
  | .int value => if 0 ≤ value then 0 else 1
  | .text _ => 3
  | .bytes _ => 2
  | .array _ => 4
  | .map _ => 5

/-- The argument of the head of a value. -/
def CborValue.argument : CborValue → ℕ
  | .null => 22
  | .bool value => if value then 21 else 20
  | .int value => if 0 ≤ value then value.toNat else (-1 - value).toNat
  | .text value => value.utf8ByteSize
  | .bytes value => value.length
  | .array items => items.length
  | .map entries => entries.length

/-- What follows the head of a value. -/
def CborValue.payload : CborValue → List UInt8
  | .null | .bool _ | .int _ => []
  | .text value => value.toUTF8.toList
  | .bytes value => value
  | .array items => encodedItems items
  | .map entries => encodedEntries entries

theorem encoded_eq (value : CborValue) :
    value.encoded = cborHead value.major value.argument ++ value.payload := by
  cases value with
  | null => exact (List.append_nil _).symm
  | bool value => exact (List.append_nil _).symm
  | int value =>
      rw [CborValue.encoded, CborValue.major, CborValue.argument, CborValue.payload,
        List.append_nil]
      split_ifs <;> rfl
  | text value => rfl
  | bytes value => rfl
  | array items => rfl
  | map entries => rfl

theorem major_lt (value : CborValue) : value.major < 8 := by
  cases value with
  | int value =>
      rw [CborValue.major]
      split_ifs <;> decide
  | _ => simp [CborValue.major]

mutual

/-- Every head of the value has its argument in it. -/
def CborValue.Small : CborValue → Prop
  | .null | .bool _ => True
  | .int value => (CborValue.int value).argument < 2 ^ 64
  | .text value => value.utf8ByteSize < 2 ^ 64
  | .bytes value => value.length < 2 ^ 64
  | .array items => items.length < 2 ^ 64 ∧ SmallItems items
  | .map entries => entries.length < 2 ^ 64 ∧ SmallEntries entries

def SmallItems : List CborValue → Prop
  | [] => True
  | item :: rest => item.Small ∧ SmallItems rest

def SmallEntries : List (String × CborValue) → Prop
  | [] => True
  | (key, value) :: rest => key.utf8ByteSize < 2 ^ 64 ∧ value.Small ∧ SmallEntries rest

end

theorem CborValue.Small.argument_lt {value : CborValue} (h : value.Small) :
    value.argument < 2 ^ 64 := by
  cases value with
  | null => decide
  | bool value => cases value <;> decide
  | int value => exact h
  | text value => exact h
  | bytes value => exact h
  | array items => exact h.1
  | map entries => exact h.1

/-- Two values at the start of the same bytes have the same head. -/
theorem encoded_heads_eq {value value' : CborValue} {rest rest' : List UInt8} (h : value.Small)
    (h' : value'.Small) (hsame : value.encoded ++ rest = value'.encoded ++ rest') :
    value.major = value'.major ∧ value.argument = value'.argument ∧
      value.payload ++ rest = value'.payload ++ rest' := by
  rw [encoded_eq, encoded_eq, List.append_assoc, List.append_assoc] at hsame
  exact cborHead_append_inj (major_lt _) (major_lt _) h.argument_lt h'.argument_lt hsame

theorem major_eq_simple {value : CborValue} :
    value.major = 7 ↔ value = .null ∨ ∃ bool, value = .bool bool := by
  cases value <;> simp only [CborValue.major] <;> first | (split_ifs <;> simp) | simp

theorem major_eq_int {value : CborValue} :
    value.major = 0 ∨ value.major = 1 ↔ ∃ number, value = .int number := by
  cases value <;> simp only [CborValue.major] <;> first | (split_ifs <;> simp) | simp

theorem major_eq_bytes {value : CborValue} :
    value.major = 2 ↔ ∃ bytes, value = .bytes bytes := by
  cases value <;> simp only [CborValue.major] <;> first | (split_ifs <;> simp) | simp

theorem major_eq_text {value : CborValue} : value.major = 3 ↔ ∃ text, value = .text text := by
  cases value <;> simp only [CborValue.major] <;> first | (split_ifs <;> simp) | simp

theorem major_eq_array {value : CborValue} :
    value.major = 4 ↔ ∃ items, value = .array items := by
  cases value <;> simp only [CborValue.major] <;> first | (split_ifs <;> simp) | simp

theorem major_eq_map {value : CborValue} :
    value.major = 5 ↔ ∃ entries, value = .map entries := by
  cases value <;> simp only [CborValue.major] <;> first | (split_ifs <;> simp) | simp

mutual

/-- **Values are self-delimiting**: where one ends follows from its bytes. -/
theorem encoded_append_inj : ∀ (value value' : CborValue) (rest rest' : List UInt8), value.Small →
    value'.Small → value.encoded ++ rest = value'.encoded ++ rest' → value = value' ∧ rest = rest'
  | .null, value', rest, rest', h, h', hsame => by
      obtain ⟨hmajor, hargument, hrest⟩ := encoded_heads_eq h h' hsame
      rcases major_eq_simple.1 hmajor.symm with rfl | ⟨bool, rfl⟩
      · exact ⟨rfl, hrest⟩
      · cases bool <;> simp [CborValue.argument] at hargument
  | .bool bool, value', rest, rest', h, h', hsame => by
      obtain ⟨hmajor, hargument, hrest⟩ := encoded_heads_eq h h' hsame
      rcases major_eq_simple.1 hmajor.symm with rfl | ⟨bool', rfl⟩
      · cases bool <;> simp [CborValue.argument] at hargument
      · refine ⟨?_, hrest⟩
        cases bool <;> cases bool' <;> simp [CborValue.argument] at hargument ⊢
  | .int number, value', rest, rest', h, h', hsame => by
      obtain ⟨hmajor, hargument, hrest⟩ := encoded_heads_eq h h' hsame
      obtain ⟨number', rfl⟩ := major_eq_int.1 (by
        rw [← hmajor]
        exact major_eq_int.2 ⟨number, rfl⟩)
      refine ⟨?_, hrest⟩
      simp only [CborValue.major, CborValue.argument] at hmajor hargument
      rw [CborValue.int.injEq]
      split_ifs at hmajor hargument <;> omega
  | .text text, value', rest, rest', h, h', hsame => by
      obtain ⟨hmajor, hargument, hrest⟩ := encoded_heads_eq h h' hsame
      obtain ⟨text', rfl⟩ := major_eq_text.1 hmajor.symm
      obtain ⟨rfl, rfl⟩ := cborText_append_inj h h' hsame
      exact ⟨rfl, rfl⟩
  | .bytes bytes, value', rest, rest', h, h', hsame => by
      obtain ⟨hmajor, hargument, hrest⟩ := encoded_heads_eq h h' hsame
      obtain ⟨bytes', rfl⟩ := major_eq_bytes.1 hmajor.symm
      obtain ⟨hbytes, hrest⟩ := List.append_inj hrest hargument
      exact ⟨congrArg CborValue.bytes hbytes, hrest⟩
  | .array items, value', rest, rest', h, h', hsame => by
      obtain ⟨hmajor, hargument, hrest⟩ := encoded_heads_eq h h' hsame
      obtain ⟨items', rfl⟩ := major_eq_array.1 hmajor.symm
      obtain ⟨rfl, rfl⟩ := encodedItems_append_inj items items' rest rest' hargument h.2 h'.2 hrest
      exact ⟨rfl, rfl⟩
  | .map entries, value', rest, rest', h, h', hsame => by
      obtain ⟨hmajor, hargument, hrest⟩ := encoded_heads_eq h h' hsame
      obtain ⟨entries', rfl⟩ := major_eq_map.1 hmajor.symm
      obtain ⟨rfl, rfl⟩ :=
        encodedEntries_append_inj entries entries' rest rest' hargument h.2 h'.2 hrest
      exact ⟨rfl, rfl⟩

theorem encodedItems_append_inj : ∀ (items items' : List CborValue) (rest rest' : List UInt8),
    items.length = items'.length → SmallItems items → SmallItems items' →
    encodedItems items ++ rest = encodedItems items' ++ rest' → items = items' ∧ rest = rest'
  | [], [], _, _, _, _, _, hsame => ⟨rfl, hsame⟩
  | [], _ :: _, _, _, hlength, _, _, _ => by simp at hlength
  | _ :: _, [], _, _, hlength, _, _, _ => by simp at hlength
  | item :: items, item' :: items', rest, rest', hlength, h, h', hsame => by
      simp only [encodedItems, List.append_assoc] at hsame
      obtain ⟨rfl, hitems⟩ := encoded_append_inj item item' _ _ h.1 h'.1 hsame
      obtain ⟨rfl, rfl⟩ := encodedItems_append_inj items items' rest rest' (by simpa using hlength)
        h.2 h'.2 hitems
      exact ⟨rfl, rfl⟩

theorem encodedEntries_append_inj : ∀ (entries entries' : CborRecord) (rest rest' : List UInt8),
    entries.length = entries'.length → SmallEntries entries → SmallEntries entries' →
    encodedEntries entries ++ rest = encodedEntries entries' ++ rest' →
      entries = entries' ∧ rest = rest'
  | [], [], _, _, _, _, _, hsame => ⟨rfl, hsame⟩
  | [], _ :: _, _, _, hlength, _, _, _ => by simp at hlength
  | _ :: _, [], _, _, hlength, _, _, _ => by simp at hlength
  | (key, value) :: entries, (key', value') :: entries', rest, rest', hlength, h, h', hsame => by
      simp only [encodedEntries, List.append_assoc] at hsame
      obtain ⟨rfl, hvalue⟩ := cborText_append_inj h.1 h'.1 hsame
      obtain ⟨rfl, hentries⟩ := encoded_append_inj value value' _ _ h.2.1 h'.2.1 hvalue
      obtain ⟨rfl, rfl⟩ := encodedEntries_append_inj entries entries' rest rest'
        (by simpa using hlength) h.2.2 h'.2.2 hentries
      exact ⟨rfl, rfl⟩

end

/-! ## The encoder -/

/-- `encodeCanonical`, byte by byte: no byte array is longer than `Number.MAX_SAFE_INTEGER`. -/
def encodeCanonicalBytes (value : CborValue) : Except CanonicalCborError (List UInt8) := do
  assertCborValue value
  throwIf (MAX_SAFE_INTEGER < value.encodedLength)
    ⟨.MALFORMED, "Unable to encode canonical CBOR"⟩
  return value.encoded

theorem textLength_ge (text : String) : text.utf8ByteSize ≤ textLength text :=
  Nat.le_add_left _ _

theorem encodedLength_pos (value : CborValue) : 0 < value.encodedLength := by
  have hhead : ∀ argument, 0 < headLength argument := by
    intro argument
    unfold headLength
    split_ifs <;> decide
  rw [← length_encoded, encoded_eq, List.length_append, length_cborHead]
  exact Nat.add_pos_left (hhead _) _

theorem length_le_itemsLength (items : List CborValue) : items.length ≤ itemsLength items := by
  induction items with
  | nil => exact le_rfl
  | cons item rest ih =>
      have hitem := encodedLength_pos item
      rw [List.length_cons, itemsLength]
      omega

theorem length_le_entriesLength (entries : CborRecord) :
    entries.length ≤ entriesLength entries := by
  induction entries with
  | nil => exact le_rfl
  | cons entry rest ih =>
      obtain ⟨key, value⟩ := entry
      have hvalue := encodedLength_pos value
      rw [List.length_cons, entriesLength]
      omega

mutual

theorem small_of_length : ∀ (value : CborValue) (path : String) (depth : ℕ),
    validateValue path depth value = .ok () → value.encodedLength < 2 ^ 64 → value.Small
  | .null, _, _, _, _ => trivial
  | .bool _, _, _, _, _ => trivial
  | .int value, _, _, h, _ => by
      simp only [validateValue, check_bind_eq_ok, throwIf_eq_ok, not_lt] at h
      have hmax : MAX_SAFE_INTEGER = 2 ^ 53 - 1 := rfl
      have hvalue := h.2
      simp only [CborValue.Small, CborValue.argument]
      split_ifs <;> omega
  | .text value, _, _, _, hlength => (textLength_ge value).trans_lt hlength
  | .bytes value, _, _, _, hlength => (Nat.le_add_left _ _).trans_lt hlength
  | .array items, path, depth, h, hlength => by
      simp only [validateValue, check_bind_eq_ok] at h
      rw [CborValue.encodedLength] at hlength
      have hitems := length_le_itemsLength items
      exact ⟨by omega, smallItems_of_length items path 0 (depth + 1) h.2 (by omega)⟩
  | .map entries, path, depth, h, hlength => by
      simp only [validateValue, check_bind_eq_ok] at h
      rw [CborValue.encodedLength] at hlength
      have hentries := length_le_entriesLength entries
      exact ⟨by omega, smallEntries_of_length entries path (depth + 1) h.2 (by omega)⟩

theorem smallItems_of_length : ∀ (items : List CborValue) (path : String) (index depth : ℕ),
    validateItems path index depth items = .ok () → itemsLength items < 2 ^ 64 → SmallItems items
  | [], _, _, _, _, _ => trivial
  | item :: rest, path, index, depth, h, hlength => by
      simp only [validateItems, check_bind_eq_ok] at h
      rw [itemsLength] at hlength
      exact ⟨small_of_length item _ _ h.1 (by omega),
        smallItems_of_length rest _ _ _ h.2 (by omega)⟩

theorem smallEntries_of_length : ∀ (entries : CborRecord) (path : String) (depth : ℕ),
    validateEntries path depth entries = .ok () → entriesLength entries < 2 ^ 64 →
      SmallEntries entries
  | [], _, _, _, _ => trivial
  | (key, value) :: rest, path, depth, h, hlength => by
      simp only [validateEntries, check_bind_eq_ok] at h
      rw [entriesLength] at hlength
      have hkey := textLength_ge key
      exact ⟨by omega, small_of_length value _ _ h.1 (by omega),
        smallEntries_of_length rest _ _ h.2 (by omega)⟩

end

/-- What the encoder returns is the encoding of a value with small heads. -/
theorem encodeCanonicalBytes_eq_ok {value : CborValue} {bytes : List UInt8}
    (h : encodeCanonicalBytes value = .ok bytes) : bytes = value.encoded ∧ value.Small := by
  unfold encodeCanonicalBytes at h
  obtain ⟨hvalid, h⟩ := check_bind_eq_ok.1 h
  obtain ⟨hlength, h⟩ := check_bind_eq_ok.1 h
  rw [throwIf_eq_ok, not_lt] at hlength
  have hmax : MAX_SAFE_INTEGER = 2 ^ 53 - 1 := rfl
  cases h
  exact ⟨rfl, small_of_length value _ _ hvalid (by omega)⟩

/-- Two encodings at the start of the same bytes are of the same value. -/
theorem encodeCanonicalBytes_append_inj {value value' : CborValue} {bytes bytes' : List UInt8}
    {rest rest' : List UInt8} (h : encodeCanonicalBytes value = .ok bytes)
    (h' : encodeCanonicalBytes value' = .ok bytes') (hsame : bytes ++ rest = bytes' ++ rest') :
    value = value' ∧ rest = rest' := by
  obtain ⟨rfl, hsmall⟩ := encodeCanonicalBytes_eq_ok h
  obtain ⟨rfl, hsmall'⟩ := encodeCanonicalBytes_eq_ok h'
  exact encoded_append_inj value value' rest rest' hsmall hsmall' hsame

end Tablefolk
