import Tablefolk.Protocol.Envelope

/-!
# Hexadecimal texts

The model of `bytesToHex`, which writes two lower-case digits for each byte.

* `bytesToHex_inj`: different bytes are different texts.
* `isHex64_bytesToHex`: 32 bytes are 64 digits.
-/

namespace Tablefolk

def hexDigits : List Char :=
  ['0', '1', '2', '3', '4', '5', '6', '7', '8', '9', 'a', 'b', 'c', 'd', 'e', 'f']

/-- `bytesToHex`. -/
def bytesToHex (bytes : List UInt8) : String :=
  String.ofList (bytes.flatMap fun byte =>
    [hexDigits.getD (byte.toNat / 16) '0', hexDigits.getD (byte.toNat % 16) '0'])

/-- What `/^[a-f0-9]{64}$/` accepts. -/
def isHex64 (text : String) : Bool :=
  decide (text.toList.length = 64) && text.toList.all fun c => decide (c ∈ hexDigits)

theorem utf8ByteSize_ofList (text : List Char) :
    (String.ofList text).utf8ByteSize = (text.map Char.utf8Size).sum := by
  induction text with
  | nil => rfl
  | cons c rest ih =>
      rw [String.ofList_cons, String.utf8ByteSize_append, ih, String.utf8ByteSize_singleton]
      rfl

theorem utf8ByteSize_hex {text : String} (h : isHex64 text = true) : text.utf8ByteSize = 64 := by
  have hone : ∀ c ∈ hexDigits, c.utf8Size = 1 := by simp [hexDigits, Char.utf8Size]
  simp only [isHex64, Bool.and_eq_true, decide_eq_true_eq, List.all_eq_true] at h
  obtain ⟨hlength, hall⟩ := h
  have hsizes : ∀ size ∈ text.toList.map Char.utf8Size, size = 1 := by
    intro size hsize
    obtain ⟨c, hc, rfl⟩ := List.mem_map.1 hsize
    exact hone c (hall c hc)
  calc text.utf8ByteSize = (String.ofList text.toList).utf8ByteSize := by rw [String.ofList_toList]
    _ = (text.toList.map Char.utf8Size).sum := utf8ByteSize_ofList _
    _ = (text.toList.map Char.utf8Size).length • 1 := List.sum_eq_card_nsmul _ 1 hsizes
    _ = 64 := by rw [List.length_map, hlength]; rfl

theorem utf8ByteSize_ofList_le (text : List Char) :
    (String.ofList text).utf8ByteSize ≤ 4 * text.length := by
  rw [utf8ByteSize_ofList]
  induction text with
  | nil => rfl
  | cons c rest ih =>
      have hc := c.utf8Size_le_four
      simp only [List.map_cons, List.sum_cons, List.length_cons] at ih ⊢
      omega

theorem hexDigit_mem {n : ℕ} (h : n < 16) : hexDigits.getD n '0' ∈ hexDigits := by
  rw [List.getD_eq_getElem hexDigits '0' h]
  exact List.getElem_mem h

theorem hexDigit_inj {n m : ℕ} (hn : n < 16) (hm : m < 16)
    (h : hexDigits.getD n '0' = hexDigits.getD m '0') : n = m := by
  have hnodup : hexDigits.Nodup := by decide
  rw [List.getD_eq_getElem hexDigits '0' hn, List.getD_eq_getElem hexDigits '0' hm] at h
  exact (hnodup.getElem_inj_iff).1 h

theorem bytesToHex_inj {left right : List UInt8} (h : bytesToHex left = bytesToHex right) :
    left = right := by
  have hchars := String.ofList_inj.1 h
  induction left generalizing right with
  | nil =>
      cases right with
      | nil => rfl
      | cons byte rest => cases hchars
  | cons byte rest ih =>
      cases right with
      | nil => cases hchars
      | cons other others =>
          have hbyte := byte.toNat_lt
          have hother := other.toNat_lt
          simp only [List.flatMap_cons, List.cons_append, List.nil_append, List.cons.injEq] at hchars
          obtain ⟨hhigh, hlow, hrest⟩ := hchars
          have hhigh := hexDigit_inj (by omega) (by omega) hhigh
          have hlow := hexDigit_inj (by omega) (by omega) hlow
          have hsame : byte = other := UInt8.toNat_inj.1 (by omega)
          rw [hsame, ih (String.ofList_inj.2 hrest) hrest]

theorem isHex64_bytesToHex (bytes : FixedBytes 32) : isHex64 (bytesToHex bytes.val) = true := by
  have hlength : ∀ l : List UInt8, (l.flatMap fun byte =>
      [hexDigits.getD (byte.toNat / 16) '0', hexDigits.getD (byte.toNat % 16) '0']).length
        = 2 * l.length := by
    intro l
    induction l with
    | nil => rfl
    | cons byte rest ih =>
        rw [List.flatMap_cons, List.length_append, ih]
        simp only [List.length_cons, List.length_nil]
        omega
  simp only [isHex64, bytesToHex, String.toList_ofList, Bool.and_eq_true, decide_eq_true_eq,
    List.all_eq_true]
  refine ⟨by rw [hlength, bytes.property], fun c hc => ?_⟩
  obtain ⟨byte, -, hc⟩ := List.mem_flatMap.1 hc
  have hbyte := byte.toNat_lt
  rcases List.mem_pair.1 hc with rfl | rfl
  · exact hexDigit_mem (by omega)
  · exact hexDigit_mem (by omega)

end Tablefolk
