import Tablefolk.Lib.Checks
import Mathlib.Data.List.Basic
import Mathlib.Tactic

/-!
# The text of a signal

The model of `encodeBase64Url` and `decodeBase64Url` of `transport/nostr-signaling.ts`.

A text of JavaScript is the list of its code units.  Every character that passes the regular
expression is one code unit, so the loop over the characters is one over the code units.  The
numbers of both functions stay below `2 ^ 24`, where the operators on 32-bit integers are those
on natural numbers.

* `decodeFrom_encode`: the loop of the decoder on an encoding, three bytes at a time.
* `exists_encode`: which texts are encodings.
* `base64url_bijective`: the decoder is the inverse of the encoder, and accepts nothing else.
-/

namespace Tablefolk

/-- A text, as its UTF-16 code units. -/
abbrev CodeUnits := List UInt16

/-- The characters of `alphabet`. -/
def base64UrlCharacters : List Char :=
  ['A', 'B', 'C', 'D', 'E', 'F', 'G', 'H', 'I', 'J', 'K', 'L', 'M', 'N', 'O', 'P', 'Q', 'R',
   'S', 'T', 'U', 'V', 'W', 'X', 'Y', 'Z', 'a', 'b', 'c', 'd', 'e', 'f', 'g', 'h', 'i', 'j',
   'k', 'l', 'm', 'n', 'o', 'p', 'q', 'r', 's', 't', 'u', 'v', 'w', 'x', 'y', 'z', '0', '1',
   '2', '3', '4', '5', '6', '7', '8', '9', '-', '_']

/-- `alphabet`. -/
def base64UrlAlphabet : CodeUnits := base64UrlCharacters.map fun c => UInt16.ofNat c.toNat

/-- What `[A-Za-z0-9_-]` matches. -/
def isBase64UrlUnit (unit : UInt16) : Bool :=
  let code := unit.toNat
  decide (65 ≤ code ∧ code ≤ 90 ∨ 97 ≤ code ∧ code ≤ 122 ∨ 48 ≤ code ∧ code ≤ 57 ∨ code = 95 ∨
    code = 45)

namespace Base64Url

/-! ## Encoding -/

/-- `alphabet[index]`. -/
def digit (index : ℕ) : UInt16 := base64UrlAlphabet.getD index 0

/-- The digits for three bytes. -/
def digits (first second third : UInt8) : CodeUnits :=
  let value := (first.toNat <<< 16) ||| (second.toNat <<< 8) ||| third.toNat
  [digit ((value >>> 18) &&& 0x3f), digit ((value >>> 12) &&& 0x3f),
    digit ((value >>> 6) &&& 0x3f), digit (value &&& 0x3f)]

end Base64Url

open Base64Url

/-- `encodeBase64Url`, where a byte past the end is zero and has no digit of its own. -/
def encodeBase64Url : List UInt8 → CodeUnits
  | [] => []
  | [first] => (digits first 0 0).take 2
  | [first, second] => (digits first second 0).take 3
  | first :: second :: third :: rest => digits first second third ++ encodeBase64Url rest

/-! ## Decoding -/

/-- The errors of `decodeBase64Url`. -/
inductive Base64UrlError where
  | form
  | text
  | canonical
  deriving DecidableEq, Repr

namespace Base64Url

/-- The variables of the loop; `bytes` has the length that is expected. -/
structure Decoding where
  buffer : ℕ
  bits : ℕ
  offset : ℕ
  bytes : List UInt8

/-- The loop's body; a write past the end of `bytes` does nothing. -/
def Decoding.push (s : Decoding) (index : ℕ) : Decoding :=
  let buffer := (s.buffer <<< 6) ||| index
  let bits := s.bits + 6
  if 8 ≤ bits then
    { buffer := buffer &&& ((1 <<< (bits - 8)) - 1)
      bits := bits - 8
      offset := s.offset + 1
      bytes := s.bytes.set s.offset (UInt8.ofNat ((buffer >>> (bits - 8)) &&& 0xff)) }
  else { s with buffer := buffer, bits := bits }

/-- The loop. -/
def decodeFrom (s : Decoding) : CodeUnits → Except Base64UrlError Decoding
  | [] => .ok s
  | unit :: rest =>
      match base64UrlAlphabet.idxOf? unit with
      | none => .error .text
      | some index => decodeFrom (s.push index) rest

end Base64Url

/-- `decodeBase64Url`. -/
def decodeBase64Url (value : CodeUnits) : Except Base64UrlError (List UInt8) := do
  throwIf (value.length = 0 ∨ value.length % 4 = 1 ∨ value.all isBase64UrlUnit = false) .form
  let s ← decodeFrom ⟨0, 0, 0, List.replicate (value.length * 6 / 8) 0⟩ value
  throwIf (s.buffer ≠ 0 ∨ s.offset ≠ s.bytes.length ∨ encodeBase64Url s.bytes ≠ value) .canonical
  return s.bytes

namespace Base64Url

/-! ## Digits -/

theorem idxOf?_digit : ∀ index < 64, base64UrlAlphabet.idxOf? (digit index) = some index := by
  decide +kernel

theorem isBase64UrlUnit_digit : ∀ index < 64, isBase64UrlUnit (digit index) = true := by
  decide +kernel

theorem exists_digit {unit : UInt16} (h : unit ∈ base64UrlAlphabet) :
    ∃ index < 64, digit index = unit := by
  obtain ⟨index, hindex, rfl⟩ := List.getElem_of_mem h
  exact ⟨index, hindex, List.getD_eq_getElem base64UrlAlphabet 0 hindex⟩

/-- The digits of three bytes, by division. -/
theorem digits_eq (first second third : UInt8) : digits first second third =
    [digit (first.toNat / 4), digit (first.toNat % 4 * 16 + second.toNat / 16),
      digit (second.toNat % 16 * 4 + third.toNat / 64), digit (third.toNat % 64)] := by
  have hfirst := first.toNat_lt
  have hsecond := second.toNat_lt
  have hthird := third.toNat_lt
  have hvalue : (first.toNat <<< 16) ||| (second.toNat <<< 8) ||| third.toNat =
      first.toNat * 65536 + second.toNat * 256 + third.toNat := by
    rw [Nat.or_assoc, ← Nat.shiftLeft_add_eq_or_of_lt (i := 8) (by omega),
      ← Nat.shiftLeft_add_eq_or_of_lt (i := 16) (by rw [Nat.shiftLeft_eq]; omega),
      Nat.shiftLeft_eq, Nat.shiftLeft_eq]
    omega
  have hmask : ∀ n : ℕ, n &&& 0x3f = n % 64 := fun n => Nat.and_two_pow_sub_one_eq_mod n 6
  unfold digits
  rw [hvalue]
  simp only [hmask, Nat.shiftRight_eq_div_pow]
  generalize first.toNat = a at *
  generalize second.toNat = b at *
  generalize third.toNat = c at *
  have h18 : (a * 65536 + b * 256 + c) / 2 ^ 18 % 64 = a / 4 := by omega
  have h12 : (a * 65536 + b * 256 + c) / 2 ^ 12 % 64 = a % 4 * 16 + b / 16 := by omega
  have h6 : (a * 65536 + b * 256 + c) / 2 ^ 6 % 64 = b % 16 * 4 + c / 64 := by omega
  have h0 : (a * 65536 + b * 256 + c) % 64 = c % 64 := by omega
  rw [h18, h12, h6, h0]

/-! ## The loop -/

/-- The body of the loop, by division. -/
theorem push_eq {s : Decoding} {index : ℕ} (hindex : index < 64) : s.push index =
    if 2 ≤ s.bits then
      { buffer := (s.buffer * 64 + index) % 2 ^ (s.bits - 2)
        bits := s.bits - 2
        offset := s.offset + 1
        bytes := s.bytes.set s.offset
          (UInt8.ofNat ((s.buffer * 64 + index) / 2 ^ (s.bits - 2) % 256)) }
    else { s with buffer := s.buffer * 64 + index, bits := s.bits + 6 } := by
  have hbuffer : (s.buffer <<< 6) ||| index = s.buffer * 64 + index := by
    rw [← Nat.shiftLeft_add_eq_or_of_lt (i := 6) hindex, Nat.shiftLeft_eq]
  have hbyte : ∀ n : ℕ, n &&& 0xff = n % 256 := fun n => Nat.and_two_pow_sub_one_eq_mod n 8
  have hbits : s.bits + 6 - 8 = s.bits - 2 := by omega
  unfold Decoding.push
  simp only [hbuffer, hbits, Nat.one_shiftLeft, Nat.and_two_pow_sub_one_eq_mod, hbyte,
    Nat.shiftRight_eq_div_pow]
  by_cases h : 2 ≤ s.bits
  · rw [if_pos h, if_pos (by omega)]
  · rw [if_neg h, if_neg (by omega)]

theorem decodeFrom_digit {s : Decoding} {index : ℕ} (hindex : index < 64) (rest : CodeUnits) :
    decodeFrom s (digit index :: rest) = decodeFrom (s.push index) rest := by
  rw [decodeFrom, idxOf?_digit index hindex]

/-- A byte is written after those that are there. -/
theorem set_length (done : List UInt8) (byte : UInt8) (n : ℕ) :
    (done ++ List.replicate (n + 1) 0).set done.length byte =
      (done ++ [byte]) ++ List.replicate n 0 := by
  rw [List.set_append_right _ _ le_rfl, Nat.sub_self, List.replicate_succ, List.set_cons_zero,
    List.append_assoc, List.singleton_append]

/-- The first digit of a group. -/
theorem decodeFrom_first {a : ℕ} (ha : a < 64) (offset : ℕ) (bytes : List UInt8)
    (rest : CodeUnits) : decodeFrom ⟨0, 0, offset, bytes⟩ (digit a :: rest) =
      decodeFrom ⟨a, 6, offset, bytes⟩ rest := by
  rw [decodeFrom_digit ha, push_eq ha, if_neg (show ¬ 2 ≤ 0 by omega)]
  simp only [Nat.zero_mul, Nat.zero_add]

/-- Every other digit of a group ends a byte, of which the first bits were held. -/
theorem decodeFrom_next {a buffer bits : ℕ} (ha : a < 64) (hbits : 2 ≤ bits)
    (done : List UInt8) (n : ℕ) (rest : CodeUnits) :
    decodeFrom ⟨buffer, bits, done.length, done ++ List.replicate (n + 1) 0⟩ (digit a :: rest) =
      decodeFrom ⟨(buffer * 64 + a) % 2 ^ (bits - 2), bits - 2,
        (done ++ [UInt8.ofNat ((buffer * 64 + a) / 2 ^ (bits - 2) % 256)]).length,
        (done ++ [UInt8.ofNat ((buffer * 64 + a) / 2 ^ (bits - 2) % 256)]) ++
          List.replicate n 0⟩ rest := by
  rw [decodeFrom_digit ha, push_eq ha, if_pos (show 2 ≤ bits from hbits)]
  simp only [set_length, List.length_append, List.length_singleton]

/-- The byte that ends with a digit, and what is held after it. -/
theorem decodeFrom_byte (byte : UInt8) {a buffer bits : ℕ} (ha : a < 64) (hbits : 2 ≤ bits)
    (hbyte : (buffer * 64 + a) / 2 ^ (bits - 2) = byte.toNat) (done : List UInt8) (n : ℕ)
    (rest : CodeUnits) :
    decodeFrom ⟨buffer, bits, done.length, done ++ List.replicate (n + 1) 0⟩ (digit a :: rest) =
      decodeFrom ⟨(buffer * 64 + a) % 2 ^ (bits - 2), bits - 2, (done ++ [byte]).length,
        (done ++ [byte]) ++ List.replicate n 0⟩ rest := by
  have hlt := byte.toNat_lt
  rw [decodeFrom_next ha hbits, hbyte, Nat.mod_eq_of_lt hlt, UInt8.ofNat_toNat]

/-- The first two digits of a group are its first byte. -/
theorem decodeFrom_two (first second : UInt8) (done : List UInt8) (n : ℕ) (rest : CodeUnits) :
    decodeFrom ⟨0, 0, done.length, done ++ List.replicate (n + 1) 0⟩
        (digit (first.toNat / 4) :: digit (first.toNat % 4 * 16 + second.toNat / 16) :: rest) =
      decodeFrom ⟨second.toNat / 16, 4, (done ++ [first]).length,
        (done ++ [first]) ++ List.replicate n 0⟩ rest := by
  have hfirst := first.toNat_lt
  have hsecond := second.toNat_lt
  have hheld : (first.toNat / 4 * 64 + (first.toNat % 4 * 16 + second.toNat / 16)) % 2 ^ 4 =
      second.toNat / 16 := by omega
  rw [decodeFrom_first (by omega),
    decodeFrom_byte first (by omega) (by omega) (by omega), hheld]

/-- The third digit ends the second byte. -/
theorem decodeFrom_three (second third : UInt8) (done : List UInt8) (n : ℕ) (rest : CodeUnits) :
    decodeFrom ⟨second.toNat / 16, 4, done.length, done ++ List.replicate (n + 1) 0⟩
        (digit (second.toNat % 16 * 4 + third.toNat / 64) :: rest) =
      decodeFrom ⟨third.toNat / 64, 2, (done ++ [second]).length,
        (done ++ [second]) ++ List.replicate n 0⟩ rest := by
  have hsecond := second.toNat_lt
  have hthird := third.toNat_lt
  have hheld : (second.toNat / 16 * 64 + (second.toNat % 16 * 4 + third.toNat / 64)) % 2 ^ 2 =
      third.toNat / 64 := by omega
  rw [decodeFrom_byte second (by omega) (by omega) (by omega), hheld]

/-- The fourth digit ends the third byte, and nothing is held. -/
theorem decodeFrom_four (third : UInt8) (done : List UInt8) (n : ℕ) (rest : CodeUnits) :
    decodeFrom ⟨third.toNat / 64, 2, done.length, done ++ List.replicate (n + 1) 0⟩
        (digit (third.toNat % 64) :: rest) =
      decodeFrom ⟨0, 0, (done ++ [third]).length, (done ++ [third]) ++ List.replicate n 0⟩
        rest := by
  have hthird := third.toNat_lt
  have hheld : (third.toNat / 64 * 64 + third.toNat % 64) % 2 ^ 0 = 0 := by omega
  rw [decodeFrom_byte third (by omega) (by omega) (by omega), hheld]

/-- The loop on an encoding reads the bytes. -/
theorem decodeFrom_encode (bytes done : List UInt8) :
    ∃ bits, decodeFrom ⟨0, 0, done.length, done ++ List.replicate bytes.length 0⟩
      (encodeBase64Url bytes) = .ok ⟨0, bits, (done ++ bytes).length, done ++ bytes⟩ := by
  induction bytes using encodeBase64Url.induct generalizing done with
  | case1 => exact ⟨0, by simp [encodeBase64Url, decodeFrom]⟩
  | case2 first =>
      refine ⟨4, ?_⟩
      rw [encodeBase64Url, digits_eq]
      refine (decodeFrom_two first 0 done 0 []).trans ?_
      simp [decodeFrom]
  | case3 first second =>
      refine ⟨2, ?_⟩
      rw [encodeBase64Url, digits_eq]
      refine (decodeFrom_two first second done 1 _).trans ?_
      refine (decodeFrom_three second 0 (done ++ [first]) 0 _).trans ?_
      simp [decodeFrom]
  | case4 first second third rest ih =>
      obtain ⟨bits, hrest⟩ := ih (done ++ [first] ++ [second] ++ [third])
      refine ⟨bits, ?_⟩
      rw [encodeBase64Url, digits_eq]
      refine (decodeFrom_two first second done (rest.length + 2) _).trans ?_
      refine (decodeFrom_three second third (done ++ [first]) (rest.length + 1) _).trans ?_
      refine (decodeFrom_four third (done ++ [first] ++ [second]) rest.length _).trans ?_
      refine hrest.trans ?_
      simp

/-! ## What is an encoding -/

theorem length_encode (bytes : List UInt8) : (encodeBase64Url bytes).length =
    bytes.length / 3 * 4 + if bytes.length % 3 = 0 then 0 else bytes.length % 3 + 1 := by
  induction bytes using encodeBase64Url.induct with
  | case1 => rfl
  | case2 first => simp [encodeBase64Url, digits]
  | case3 first second => simp [encodeBase64Url, digits]
  | case4 first second third rest ih =>
      rw [encodeBase64Url, List.length_append, ih]
      simp only [digits, List.length_cons, List.length_nil]
      have hdiv : (rest.length + 1 + 1 + 1) / 3 = rest.length / 3 + 1 := by omega
      have hmod : (rest.length + 1 + 1 + 1) % 3 = rest.length % 3 := by omega
      rw [hdiv, hmod]
      omega

/-- A text of digits with none that stands alone, and no bits set that are not used. -/
structure Fits (value : CodeUnits) : Prop where
  length : value.length % 4 ≠ 1
  digits : ∀ unit ∈ value, unit ∈ base64UrlAlphabet
  unused : ∀ last ∈ value.getLast?,
    (value.length % 4 = 2 → base64UrlAlphabet.idxOf last % 16 = 0) ∧
    (value.length % 4 = 3 → base64UrlAlphabet.idxOf last % 4 = 0)

theorem idxOf_digit : ∀ index < 64, base64UrlAlphabet.idxOf (digit index) = index := by
  decide +kernel

theorem digit_mem {index : ℕ} (h : index < 64) : digit index ∈ base64UrlAlphabet := by
  rw [digit, List.getD_eq_getElem base64UrlAlphabet 0 h]
  exact List.getElem_mem h

/-- An encoding has that form. -/
theorem fits_encode (bytes : List UInt8) : Fits (encodeBase64Url bytes) := by
  induction bytes using encodeBase64Url.induct with
  | case1 => exact ⟨by decide, by rintro _ ⟨⟩, by rintro _ ⟨⟩⟩
  | case2 first =>
      have hfirst := first.toNat_lt
      rw [encodeBase64Url, digits_eq]
      refine ⟨by simp, ?_, ?_⟩
      · simp only [List.take_succ_cons, List.take_zero, List.mem_cons, List.not_mem_nil, or_false]
        rintro unit (rfl | rfl)
        · exact digit_mem (by omega)
        · exact digit_mem (by simp; omega)
      · simp only [List.take_succ_cons, List.take_zero, List.getLast?_cons_cons,
          List.getLast?_singleton, Option.mem_some_iff, forall_eq']
        refine ⟨fun _ => ?_, by simp⟩
        rw [idxOf_digit _ (by simp; omega)]
        simp
  | case3 first second =>
      have hfirst := first.toNat_lt
      have hsecond := second.toNat_lt
      rw [encodeBase64Url, digits_eq]
      refine ⟨by simp, ?_, ?_⟩
      · simp only [List.take_succ_cons, List.take_zero, List.mem_cons, List.not_mem_nil, or_false]
        rintro unit (rfl | rfl | rfl)
        · exact digit_mem (by omega)
        · exact digit_mem (by omega)
        · exact digit_mem (by simp; omega)
      · simp only [List.take_succ_cons, List.take_zero, List.getLast?_cons_cons,
          List.getLast?_singleton, Option.mem_some_iff, forall_eq']
        refine ⟨by simp, fun _ => ?_⟩
        rw [idxOf_digit _ (by simp; omega)]
        simp
  | case4 first second third rest ih =>
      have hfirst := first.toNat_lt
      have hsecond := second.toNat_lt
      have hthird := third.toNat_lt
      have hmod : (digits first second third ++ encodeBase64Url rest).length % 4 =
          (encodeBase64Url rest).length % 4 := by
        simp only [digits, List.cons_append, List.nil_append, List.length_cons]
        omega
      rw [encodeBase64Url]
      refine ⟨by rw [hmod]; exact ih.length, ?_, ?_⟩
      · intro unit hunit
        rcases List.mem_append.1 hunit with hmem | hmem
        · rw [digits_eq] at hmem
          simp only [List.mem_cons, List.not_mem_nil, or_false] at hmem
          rcases hmem with rfl | rfl | rfl | rfl
          · exact digit_mem (by omega)
          · exact digit_mem (by omega)
          · exact digit_mem (by omega)
          · exact digit_mem (by omega)
        · exact ih.digits unit hmem
      · intro last hlast
        rw [hmod]
        cases hrest : encodeBase64Url rest with
        | nil => simp
        | cons unit units =>
            rw [List.getLast?_append, hrest, List.getLast?_cons] at hlast
            have hsame := ih.unused last (by rw [hrest, List.getLast?_cons]; exact hlast)
            rwa [hrest] at hsame

/-- The digits of the bytes that four digits stand for. -/
theorem digits_group {a b c d : ℕ} (ha : a < 64) (hb : b < 64) (hc : c < 64) (hd : d < 64) :
    digits (UInt8.ofNat (a * 4 + b / 16)) (UInt8.ofNat (b % 16 * 16 + c / 4))
      (UInt8.ofNat (c % 4 * 64 + d)) = [digit a, digit b, digit c, digit d] := by
  rw [digits_eq, UInt8.toNat_ofNat_of_lt' (show a * 4 + b / 16 < 256 by omega),
    UInt8.toNat_ofNat_of_lt' (show b % 16 * 16 + c / 4 < 256 by omega),
    UInt8.toNat_ofNat_of_lt' (show c % 4 * 64 + d < 256 by omega)]
  have h1 : (a * 4 + b / 16) / 4 = a := by omega
  have h2 : (a * 4 + b / 16) % 4 * 16 + (b % 16 * 16 + c / 4) / 16 = b := by omega
  have h3 : (b % 16 * 16 + c / 4) % 16 * 4 + (c % 4 * 64 + d) / 64 = c := by omega
  have h4 : (c % 4 * 64 + d) % 64 = d := by omega
  rw [h1, h2, h3, h4]

/-- A text of that form is an encoding. -/
theorem exists_encode : ∀ {value : CodeUnits}, Fits value → ∃ bytes, encodeBase64Url bytes = value
  | [], _ => ⟨[], rfl⟩
  | [_], h => absurd rfl h.length
  | [u, v], h => by
      obtain ⟨a, ha, rfl⟩ := exists_digit (h.digits u (by simp))
      obtain ⟨b, hb, rfl⟩ := exists_digit (h.digits v (by simp))
      have hzero : b % 16 = 0 := by
        have hunused := (h.unused (digit b) (by simp)).1 rfl
        rwa [idxOf_digit b hb] at hunused
      refine ⟨[UInt8.ofNat (a * 4 + b / 16)], ?_⟩
      have hgroup := digits_group ha hb (show 0 < 64 by omega) (show 0 < 64 by omega)
      rw [hzero] at hgroup
      rw [encodeBase64Url]
      exact congrArg (List.take 2) hgroup
  | [u, v, w], h => by
      obtain ⟨a, ha, rfl⟩ := exists_digit (h.digits u (by simp))
      obtain ⟨b, hb, rfl⟩ := exists_digit (h.digits v (by simp))
      obtain ⟨c, hc, rfl⟩ := exists_digit (h.digits w (by simp))
      have hzero : c % 4 = 0 := by
        have hunused := (h.unused (digit c) (by simp)).2 rfl
        rwa [idxOf_digit c hc] at hunused
      refine ⟨[UInt8.ofNat (a * 4 + b / 16), UInt8.ofNat (b % 16 * 16 + c / 4)], ?_⟩
      have hgroup := digits_group ha hb hc (show 0 < 64 by omega)
      rw [hzero] at hgroup
      rw [encodeBase64Url]
      exact congrArg (List.take 3) hgroup
  | u :: v :: w :: x :: rest, h => by
      obtain ⟨a, ha, rfl⟩ := exists_digit (h.digits u (by simp))
      obtain ⟨b, hb, rfl⟩ := exists_digit (h.digits v (by simp))
      obtain ⟨c, hc, rfl⟩ := exists_digit (h.digits w (by simp))
      obtain ⟨d, hd, rfl⟩ := exists_digit (h.digits x (by simp))
      have hmod : (digit a :: digit b :: digit c :: digit d :: rest).length % 4 =
          rest.length % 4 := by
        simp only [List.length_cons]
        omega
      have hrest : Fits rest := by
        refine ⟨hmod ▸ h.length, fun unit hunit => h.digits unit (by simp [hunit]),
          fun last hlast => ?_⟩
        rw [← hmod]
        refine h.unused last ?_
        cases rest with
        | nil => cases hlast
        | cons unit units => simpa [List.getLast?_cons_cons] using hlast
      obtain ⟨bytes, rfl⟩ := exists_encode hrest
      refine ⟨UInt8.ofNat (a * 4 + b / 16) :: UInt8.ofNat (b % 16 * 16 + c / 4) ::
        UInt8.ofNat (c % 4 * 64 + d) :: bytes, ?_⟩
      rw [encodeBase64Url, digits_group ha hb hc hd]
      rfl

/-! ## The codec -/

theorem isBase64UrlUnit_of_mem {unit : UInt16} (h : unit ∈ base64UrlAlphabet) :
    isBase64UrlUnit unit = true := by
  obtain ⟨index, hindex, rfl⟩ := exists_digit h
  exact isBase64UrlUnit_digit index hindex

theorem encode_eq_nil {bytes : List UInt8} (h : encodeBase64Url bytes = []) : bytes = [] := by
  have hlength := length_encode bytes
  rw [h, List.length_nil] at hlength
  refine List.length_eq_zero_iff.1 ?_
  split_ifs at hlength <;> omega

/-- The decoder reads back what was encoded. -/
theorem decode_encode {bytes : List UInt8} (h : bytes ≠ []) :
    decodeBase64Url (encodeBase64Url bytes) = .ok bytes := by
  have hfits := fits_encode bytes
  have hne : encodeBase64Url bytes ≠ [] := fun hnil => h (encode_eq_nil hnil)
  have hall : (encodeBase64Url bytes).all isBase64UrlUnit = true :=
    List.all_eq_true.2 fun unit hunit => isBase64UrlUnit_of_mem (hfits.digits unit hunit)
  have hlength : (encodeBase64Url bytes).length * 6 / 8 = bytes.length := by
    rw [length_encode]
    split_ifs <;> omega
  obtain ⟨bits, hloop⟩ := decodeFrom_encode bytes []
  rw [List.length_nil, List.nil_append, List.nil_append] at hloop
  unfold decodeBase64Url
  rw [throwIf_neg (by
    rintro (hzero | hone | hbad)
    · exact hne (List.length_eq_zero_iff.1 hzero)
    · exact hfits.length hone
    · rw [hall] at hbad
      cases hbad), ok_bind, hlength, hloop, ok_bind, throwIf_neg (by simp)]
  rfl

/-- What is decoded is encoded as the same text. -/
theorem encode_of_decode {value : CodeUnits} {bytes : List UInt8}
    (h : decodeBase64Url value = .ok bytes) : value ≠ [] ∧ encodeBase64Url bytes = value := by
  unfold decodeBase64Url at h
  obtain ⟨hform, h⟩ := check_bind_eq_ok.1 h
  obtain ⟨s, -, h⟩ := bind_eq_ok.1 h
  obtain ⟨hcanonical, h⟩ := check_bind_eq_ok.1 h
  cases h
  rw [throwIf_eq_ok] at hform hcanonical
  refine ⟨fun hnil => hform (.inl (by rw [hnil]; rfl)), ?_⟩
  by_contra hother
  exact hcanonical (.inr (.inr hother))

/-- **The base64url codec is a bijection onto what it accepts.** -/
theorem base64url_bijective :
    (∀ bytes, bytes ≠ [] → decodeBase64Url (encodeBase64Url bytes) = .ok bytes) ∧
    (∀ value bytes, decodeBase64Url value = .ok bytes ↔
      bytes ≠ [] ∧ encodeBase64Url bytes = value) ∧
    (∀ value, (∃ bytes, decodeBase64Url value = .ok bytes) ↔
      value ≠ [] ∧ value.length % 4 ≠ 1 ∧ (∀ unit ∈ value, unit ∈ base64UrlAlphabet) ∧
      ∀ last ∈ value.getLast?,
        (value.length % 4 = 2 → base64UrlAlphabet.idxOf last % 16 = 0) ∧
        (value.length % 4 = 3 → base64UrlAlphabet.idxOf last % 4 = 0)) := by
  have hiff : ∀ value bytes, decodeBase64Url value = .ok bytes ↔
      bytes ≠ [] ∧ encodeBase64Url bytes = value := by
    intro value bytes
    constructor
    · intro h
      obtain ⟨hne, hvalue⟩ := encode_of_decode h
      refine ⟨?_, hvalue⟩
      rintro rfl
      exact hne hvalue.symm
    · rintro ⟨hne, rfl⟩
      exact decode_encode hne
  refine ⟨fun bytes => decode_encode, hiff, fun value => ⟨?_, ?_⟩⟩
  · rintro ⟨bytes, h⟩
    obtain ⟨hne, rfl⟩ := encode_of_decode h
    have hfits := fits_encode bytes
    exact ⟨hne, hfits.length, hfits.digits, hfits.unused⟩
  · rintro ⟨hne, hlength, hdigits, hunused⟩
    obtain ⟨bytes, rfl⟩ := exists_encode ⟨hlength, hdigits, hunused⟩
    refine ⟨bytes, decode_encode ?_⟩
    rintro rfl
    exact hne rfl

end Base64Url

end Tablefolk
