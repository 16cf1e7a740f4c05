import Tablefolk.Deck.Permutation
import Tablefolk.Deck.Statement
import Tablefolk.Lib.Agree

/-!
# The shuffle backend

The model of the Rust side of the shuffle: `Statement::decode` and the admission of a private witness
in `shuffle_api.rs`, and `proof_codec.rs`.  A reader holds the bytes that are left; an offset never
leaves the input, so it does not overflow.

* `Dalek`: what the backend uses of its libraries, over the group of the deck.
* `decode_agrees`: both decoders of statements accept the same bytes and read the same from them.
* `to_ark_eq_ok`, `to_wire_eq_ok`: the proof strings of the two codecs.
* `shuffle_wire_agrees`: what follows for the two sides.
-/

namespace Tablefolk

section

variable {q : ℕ} {G : Type} [AddCommGroup G] [Module (ZMod q) G] [DecidableEq G]

omit [DecidableEq G] in
/-- The curve library of the backend.  It works in the same group and accepts the canonical encodings. -/
structure Dalek (P : Primitives q G) where
  /-- `Point::base()` -/
  base : G
  /-- `Point::from_bytes` -/
  from_bytes : FixedBytes 32 → Option G
  /-- `Point::is_zero` -/
  is_zero : G → Bool
  /-- `Scalar::from_canonical_bytes` -/
  from_canonical_bytes : FixedBytes 32 → Option (ZMod q)
  /-- `Scalar::deserialize_compressed` of the proof library -/
  deserialize_compressed : FixedBytes 32 → Option (ZMod q)
  base_eq : base = P.base
  from_bytes_eq : ∀ bytes, from_bytes bytes = P.pointOfBytes bytes
  is_zero_iff : ∀ point, is_zero point = true ↔ point = 0
  from_canonical_bytes_eq : ∀ bytes, from_canonical_bytes bytes = P.scalarOfBytes bytes
  deserialize_compressed_eq : ∀ bytes, deserialize_compressed bytes = P.scalarOfBytes bytes

/-- The library of the other side would do. -/
instance (P : Primitives q G) : Inhabited (Dalek P) where
  default :=
    { base := P.base
      from_bytes := P.pointOfBytes
      is_zero := fun point => decide (point = 0)
      from_canonical_bytes := P.scalarOfBytes
      deserialize_compressed := P.scalarOfBytes
      base_eq := rfl
      from_bytes_eq := fun _ => rfl
      is_zero_iff := fun _ => decide_eq_true_iff
      from_canonical_bytes_eq := fun _ => rfl
      deserialize_compressed_eq := fun _ => rfl }

namespace Backend

/-! ## Statements -/

def PROFILE : String := "bg-ristretto255-36-4x9-statement-candidate-v1"

def MIN_BYTES : ℕ := 3 + PROFILE.toUTF8.size + 17 + 1 + 1 + 34 + 34 + 2 * 2307

def MAX_BYTES : ℕ := MIN_BYTES + 8

variable (G) in
/-- `Statement`. -/
structure Statement where
  game : FixedBytes 16
  round : ℕ
  seat : ℕ
  roster : FixedBytes 32
  key : G
  input : List (MaskedCard G)
  output : List (MaskedCard G)

/-- The bytes that a `Reader` has not taken. -/
abbrev Reader := List UInt8

/-- `take`. -/
def Reader.take (r : Reader) (count : ℕ) : Except String (List UInt8 × Reader) := do
  throwIf (r.length < count) "Truncated statement"
  return (List.take count r, List.drop count r)

/-- `exact`. -/
def Reader.exact (r : Reader) (expected : List UInt8) : Except String Reader := do
  let (bytes, r) ← r.take expected.length
  throwIf (bytes ≠ expected) "Invalid statement header"
  return r

/-- The tag of a byte string in `fixed`. -/
def Reader.tag (r : Reader) (count : ℕ) : Except String Reader :=
  if count = 16 then r.exact [0x50]
  else if count = 32 then r.exact [0x58, 32]
  else if count = 2304 then r.exact [0x59, 9, 0]
  else .error "Unsupported fixed field"

/-- `fixed`. -/
def Reader.fixed (r : Reader) (count : ℕ) : Except String (List UInt8 × Reader) := do
  let r ← r.tag count
  r.take count

/-- `try_into` an array. -/
def toArray (size : ℕ) (bytes : List UInt8) : Except String (FixedBytes size) :=
  match parseFixedBytes size bytes with
  | some array => .ok array
  | none => .error "called `Result::unwrap()` on an `Err` value"

/-- The number of the bytes in 64 bits: `(value << 8) | byte`. -/
def shiftIn (value : ℕ) (byte : UInt8) : ℕ := (value <<< 8) % 2 ^ 64 ||| byte.toNat

/-- How many bytes a round has after a tag, and the least round with so many. -/
def roundForm (tag : ℕ) : Except String (ℕ × ℕ) :=
  if tag = 24 then .ok (1, 24)
  else if tag = 25 then .ok (2, 256)
  else if tag = 26 then .ok (4, 65536)
  else if tag = 27 then .ok (8, 4294967296)
  else .error "Invalid round encoding"

/-- `round`. -/
def Reader.round (r : Reader) : Except String (ℕ × Reader) := do
  let (bytes, r) ← r.take 1
  let tag := (bytes.headD 0).toNat
  if tag < 24 then return (tag, r)
  else do
    let (count, min) ← roundForm tag
    let (bytes, r) ← r.take count
    let value := bytes.foldl shiftIn 0
    throwIf (value < min ∨ 9007199254740991 < value) "Noncanonical or unsafe round"
    return (value, r)

variable {P : Primitives q G} (D : Dalek P)

/-- `Point::from_bytes` of a slice. -/
def from_bytes (bytes : List UInt8) : Except String G :=
  match (parseFixedBytes 32 bytes).bind D.from_bytes with
  | some point => .ok point
  | none => .error "the input buffer contained invalid data"

/-- The chunks of `deck`, a card in each. -/
def cards : ℕ → List UInt8 → Except String (List (MaskedCard G))
  | 0, _ => return []
  | count + 1, bytes => do
      let chunk := bytes.take 64
      let left ← from_bytes D (chunk.take 32)
      let right ← from_bytes D (chunk.drop 32)
      let rest ← cards count (bytes.drop 64)
      return ⟨left, right⟩ :: rest

/-- `deck`. -/
def Reader.deck (r : Reader) : Except String (List (MaskedCard G) × Reader) := do
  let (bytes, r) ← r.fixed 2304
  let deck ← cards D 36 bytes
  return (deck, r)

/-- `Statement::decode`. -/
def Statement.decode (bytes : List UInt8) : Except String (Statement G) := do
  throwIf (bytes.length < MIN_BYTES ∨ MAX_BYTES < bytes.length) "Invalid statement byte length"
  let r ← Reader.exact bytes [0x88, 0x78, UInt8.ofNat PROFILE.toUTF8.size]
  let r ← r.exact PROFILE.toUTF8.toList
  let (game, r) ← r.fixed 16
  let game ← toArray 16 game
  let (round, r) ← r.round
  let (seat, r) ← r.take 1
  let seat := (seat.headD 0).toNat
  throwIf (3 < seat) "Invalid shuffle seat"
  let (roster, r) ← r.fixed 32
  let roster ← toArray 32 roster
  let (key, r) ← r.fixed 32
  let key ← from_bytes D key
  throwIf (D.is_zero key = true) "Identity shuffle key"
  let (input, r) ← r.deck D
  let (output, r) ← r.deck D
  throwIf (r ≠ []) "Trailing statement bytes"
  return ⟨game, round, seat, roster, key, input, output⟩

/-- What the other side reads. -/
def Statement.candidate (statement : Statement G) : CandidateShuffleStatement36 G where
  gameId := statement.game
  round := statement.round
  seat := statement.seat
  rosterHash := statement.roster
  aggregateKey := statement.key
  inputDeck := statement.input
  outputDeck := statement.output

/-! ## The decoders agree -/

theorem exact_agrees (expected : List UInt8) (r : Reader) :
    Agree Eq (exactBytes expected r) (r.exact expected) := by
  unfold exactBytes Reader.exact Reader.take
  by_cases hlength : r.length < expected.length
  · rw [throwIf_pos hlength, throwIf_pos]
    · exact .throws _ _
    · intro heq
      have := congrArg List.length heq
      rw [List.length_take] at this
      omega
  · rw [throwIf_neg hlength]
    show Agree Eq _ (throwIf (List.take expected.length r ≠ expected) "Invalid statement header"
      >>= fun _ => .ok (List.drop expected.length r))
    exact .bind (.check Iff.rfl) fun _ _ _ => .pure rfl

/-- The tag of a byte string, read in two parts or in one. -/
theorem exact_append_agrees (expected expected' r : List UInt8) :
    Agree Eq (exactBytes (expected ++ expected') r)
      (Reader.exact r expected >>= fun r => r.exact expected') := by
  have hsplit : ∀ rest : List UInt8, rest.take (expected ++ expected').length = expected ++ expected' ↔
      rest.take expected.length = expected ∧ (rest.drop expected.length).take expected'.length = expected' := by
    intro rest
    rw [List.length_append, List.take_add]
    constructor
    · intro h
      have hlen : (rest.take expected.length).length = expected.length := by
        have := congrArg List.length h
        simp only [List.length_append, List.length_take, List.length_drop] at this ⊢
        omega
      exact List.append_inj h hlen
    · rintro ⟨h, h'⟩
      rw [h, h']
  have htwo : exactBytes (expected ++ expected') r =
      (exactBytes expected r >>= fun rest => exactBytes expected' rest) := by
    unfold exactBytes
    by_cases h : r.take expected.length = expected
    · rw [throwIf_neg (not_not.2 h), ok_bind]
      simp only [except_pure_eq, ok_bind, List.drop_drop]
      by_cases h' : (r.drop expected.length).take expected'.length = expected'
      · rw [throwIf_neg (not_not.2 ((hsplit r).2 ⟨h, h'⟩)), throwIf_neg (not_not.2 h'),
          List.length_append]
      · have hne : r.take (expected ++ expected').length ≠ expected ++ expected' :=
          fun hall => h' ((hsplit r).1 hall).2
        rw [throwIf_pos hne, throwIf_pos h']
        rfl
    · have hne : r.take (expected ++ expected').length ≠ expected ++ expected' :=
        fun hall => h ((hsplit r).1 hall).1
      rw [throwIf_pos hne, throwIf_pos h]
      rfl
  rw [htwo]
  refine .bind (exact_agrees expected r) ?_
  rintro rest _ rfl
  exact exact_agrees expected' rest

/-- A byte string of one of the three sizes. -/
theorem fixed_agrees {size : ℕ} (hsize : size = 16 ∨ size = 32 ∨ size = 2304) (r : Reader) :
    Agree (fun left right => left.1.val = right.1 ∧ left.2 = right.2) (fixedBytes size r) (r.fixed size) := by
  have hhead : Agree Eq (exactBytes (cborHead 2 size) r)
      (r.tag size) := by
    rcases hsize with rfl | rfl | rfl
    · exact exact_agrees _ r
    · exact exact_agrees _ r
    · exact exact_agrees _ r
  unfold fixedBytes Reader.fixed
  refine hhead.bind ?_
  rintro rest _ rfl
  unfold Reader.take
  by_cases hlength : rest.length < size
  · have hnone : parseFixedBytes size (rest.take size) = none := by
      unfold parseFixedBytes
      rw [dif_neg]
      rw [List.length_take]
      omega
    rw [throwIf_pos hlength, hnone]
    exact .throws _ _
  · have hsome : (rest.take size).length = size := by
      rw [List.length_take]
      omega
    rw [throwIf_neg hlength, ok_bind]
    unfold parseFixedBytes
    rw [dif_pos hsome]
    exact .pure ⟨rfl, rfl⟩

/-- The bits of the bytes are disjoint, so shifting them in is arithmetic. -/
theorem foldl_shiftIn {bytes : List UInt8} {value count : ℕ} (hvalue : value < 256 ^ count)
    (hcount : count + bytes.length ≤ 8) : bytes.foldl shiftIn value =
      bytes.foldl (fun wide byte => wide * 256 + byte.toNat) value := by
  induction bytes generalizing value count with
  | nil => rfl
  | cons byte rest ih =>
      have hbyte : byte.toNat < 2 ^ 8 := byte.toNat_lt
      have hpow : 256 ^ count ≤ 256 ^ 7 := Nat.pow_le_pow_right (by decide) (by simp at hcount; omega)
      have hshift : shiftIn value byte = value * 256 + byte.toNat := by
        unfold shiftIn
        rw [Nat.shiftLeft_eq, Nat.mod_eq_of_lt (by omega), ← Nat.shiftLeft_eq,
          ← Nat.shiftLeft_add_eq_or_of_lt hbyte, Nat.shiftLeft_eq]
      rw [List.foldl_cons, List.foldl_cons, hshift]
      refine ih (show value * 256 + byte.toNat < 256 ^ (count + 1) from ?_) (by simp at hcount; omega)
      rw [pow_succ]
      omega

theorem round_agrees (r : Reader) : Agree Eq (readRound r) r.round := by
  cases r with
  | nil => exact .throws _ _
  | cons tag rest =>
      unfold Reader.round Reader.take
      rw [throwIf_neg (by simp)]
      show Agree Eq (if tag.toNat < 24 then _ else _) (if tag.toNat < 24 then _ else _)
      by_cases htag : tag.toNat < 24
      · rw [if_pos htag, if_pos htag]
        exact .pure rfl
      · rw [if_neg htag, if_neg htag]
        have hform : ∀ count min, roundWidth tag.toNat = count → roundMinimum count = min →
            roundForm tag.toNat = .ok (count, min) → count ≠ 0 → count ≤ 8 →
            Agree Eq (throwIf (roundWidth tag.toNat = 0 ∨ rest.length < roundWidth tag.toNat)
                (ShuffleCodecError.error "Invalid shuffle round encoding") >>= fun _ =>
              throwIf (ofBigEndian (rest.take (roundWidth tag.toNat)) < roundMinimum (roundWidth tag.toNat) ∨
                  MAX_SAFE_INTEGER < ofBigEndian (rest.take (roundWidth tag.toNat)))
                (ShuffleCodecError.error "Noncanonical shuffle round") >>= fun _ =>
              .ok (ofBigEndian (rest.take (roundWidth tag.toNat)), rest.drop (roundWidth tag.toNat)))
              (roundForm tag.toNat >>= fun form => Reader.take rest form.1 >>= fun taken =>
                throwIf (taken.1.foldl shiftIn 0 < form.2 ∨ 9007199254740991 < taken.1.foldl shiftIn 0)
                  "Noncanonical or unsafe round" >>= fun _ => .ok (taken.1.foldl shiftIn 0, taken.2)) := by
          rintro count min hwidth hmin hform hne hle
          rw [hwidth, hmin, hform, ok_bind]
          unfold Reader.take
          by_cases hlength : rest.length < count
          · rw [throwIf_pos (.inr hlength), throwIf_pos hlength]
            exact .throws _ _
          · have hvalue : ofBigEndian (rest.take count) = (rest.take count).foldl shiftIn 0 := by
              refine (foldl_shiftIn (show 0 < 256 ^ 0 by norm_num) ?_).symm
              rw [List.length_take]
              omega
            rw [throwIf_neg (by omega), throwIf_neg hlength, hvalue, ok_bind]
            show Agree Eq _ (throwIf ((rest.take count).foldl shiftIn 0 < min ∨
              9007199254740991 < (rest.take count).foldl shiftIn 0) "Noncanonical or unsafe round"
                >>= fun _ => .ok ((rest.take count).foldl shiftIn 0, rest.drop count))
            exact .bind (.check Iff.rfl) fun _ _ _ => .pure rfl
        by_cases h24 : tag.toNat = 24
        · exact hform 1 24 (by rw [h24]; rfl) rfl (by rw [h24]; rfl) (by decide) (by decide)
        by_cases h25 : tag.toNat = 25
        · exact hform 2 256 (by rw [h25]; rfl) rfl (by rw [h25]; rfl) (by decide) (by decide)
        by_cases h26 : tag.toNat = 26
        · exact hform 4 65536 (by rw [h26]; rfl) rfl (by rw [h26]; rfl) (by decide) (by decide)
        by_cases h27 : tag.toNat = 27
        · exact hform 8 4294967296 (by rw [h27]; rfl) rfl (by rw [h27]; rfl) (by decide) (by decide)
        have hwidth : roundWidth tag.toNat = 0 := by
          unfold roundWidth
          rw [if_neg h24, if_neg h25, if_neg h26, if_neg h27]
        have hnone : roundForm tag.toNat = .error "Invalid round encoding" := by
          unfold roundForm
          rw [if_neg h24, if_neg h25, if_neg h26, if_neg h27]
        show Agree Eq (throwIf (roundWidth tag.toNat = 0 ∨ _) _ >>= _) (roundForm tag.toNat >>= _)
        rw [throwIf_pos (.inl hwidth), hnone]
        exact .throws _ _

omit [DecidableEq G] in
theorem point_agrees (bytes : List UInt8) : Agree Eq (readPoint P bytes) (from_bytes D bytes) := by
  unfold readPoint from_bytes
  have hsame : D.from_bytes = P.pointOfBytes := funext D.from_bytes_eq
  rw [hsame]
  cases (parseFixedBytes 32 bytes).bind P.pointOfBytes with
  | none => exact .throws _ _
  | some point => exact .pure rfl

omit [DecidableEq G] in
theorem cards_agrees (count : ℕ) (bytes : List UInt8) :
    Agree Eq (unpackDeck P count bytes) (cards D count bytes) := by
  induction count generalizing bytes with
  | zero => exact .pure rfl
  | succ count ih =>
      have hleft : (bytes.take 64).take 32 = bytes.take 32 := by rw [List.take_take]; rfl
      have hright : (bytes.take 64).drop 32 = (bytes.drop 32).take 32 := by rw [List.drop_take]
      unfold unpackDeck cards
      simp only [hleft, hright]
      refine .bind (point_agrees D _) ?_
      rintro left _ rfl
      refine .bind (point_agrees D _) ?_
      rintro right _ rfl
      refine .bind (ih _) ?_
      rintro rest _ rfl
      exact .pure rfl

theorem toArray_val {size : ℕ} (bytes : FixedBytes size) : toArray size bytes.val = .ok bytes := by
  unfold toArray
  rw [parseFixedBytes_val]

theorem length_profile : PROFILE.toUTF8.size = 45 := by decide

/-- The list of the bytes has the length of the array. -/
theorem length_toList_loop (bytes : ByteArray) (i : ℕ) (r : List UInt8) :
    (ByteArray.toList.loop bytes i r).length = r.length + (bytes.size - i) := by
  induction i, r using ByteArray.toList.loop.induct bytes with
  | case1 i r hlt ih =>
      rw [ByteArray.toList.loop, if_pos hlt, ih, List.length_cons]
      omega
  | case2 i r hge =>
      rw [ByteArray.toList.loop, if_neg hge, List.length_reverse]
      omega

theorem length_toList (bytes : ByteArray) : bytes.toList.length = bytes.size := by
  unfold ByteArray.toList
  rw [length_toList_loop]
  simp

theorem statementHeader_eq : statementHeader =
    [0x88, 0x78, UInt8.ofNat PROFILE.toUTF8.size] ++ PROFILE.toUTF8.toList := by
  have hsize : ¬ PROFILE.toUTF8.size < 24 ∧ PROFILE.toUTF8.size < 2 ^ 8 := by
    rw [length_profile]
    decide
  show 0x88 :: (cborHead 3 PROFILE.toUTF8.size ++ PROFILE.toUTF8.toList) = _
  unfold cborHead
  rw [if_neg hsize.1, if_pos hsize.2]
  rfl

theorem header_bind {α β : Type} {S : α → β → Prop} {f : List UInt8 → Except ShuffleCodecError α}
    {g : Reader → Except String β} (bytes : List UInt8) (hnext : ∀ rest, Agree S (f rest) (g rest)) :
    Agree S (exactBytes statementHeader bytes >>= f)
      (Reader.exact bytes [0x88, 0x78, UInt8.ofNat PROFILE.toUTF8.size] >>= fun r =>
        r.exact PROFILE.toUTF8.toList >>= g) := by
  rw [statementHeader_eq, ← bind_assoc]
  refine .bind (exact_append_agrees _ _ bytes) ?_
  rintro rest _ rfl
  exact hnext rest

/-- Both decoders accept the same bytes and read the same statement from them. -/
theorem decode_agrees (bytes : List UInt8) :
    Agree (fun left right => left = Statement.candidate right)
      (decodeCandidateShuffleStatement36 P bytes) (Statement.decode D bytes) := by
  have hmin : MIN_CANDIDATE_SHUFFLE_STATEMENT_BYTES = MIN_BYTES := by
    unfold MIN_CANDIDATE_SHUFFLE_STATEMENT_BYTES MIN_BYTES
    rw [statementHeader_eq, List.length_append, length_toList]
    rfl
  have hmax : MAX_CANDIDATE_SHUFFLE_STATEMENT_BYTES = MAX_BYTES := by
    unfold MAX_CANDIDATE_SHUFFLE_STATEMENT_BYTES MAX_BYTES
    rw [hmin]
  unfold decodeCandidateShuffleStatement36 Statement.decode
  rw [hmin, hmax]
  refine .bind (.check Iff.rfl) fun _ _ _ => header_bind bytes fun rest => ?_
  refine .bind (fixed_agrees (.inl rfl) rest) ?_
  rintro ⟨game, rest⟩ ⟨_, _⟩ ⟨rfl, rfl⟩
  simp only [toArray_val, ok_bind]
  refine .bind (round_agrees rest) ?_
  rintro ⟨round, rest⟩ _ rfl
  cases rest with
  | nil => exact .throws _ _
  | cons seat rest =>
  have hseat : Reader.take (seat :: rest) 1 = .ok ([seat], rest) := rfl
  simp only [hseat, ok_bind]
  show Agree _ ((throwIf (3 < seat.toNat) _ >>= _) >>= _) (throwIf (3 < seat.toNat) _ >>= _)
  rw [bind_assoc]
  refine .bind (.check Iff.rfl) fun _ _ _ => ?_
  show Agree _ (fixedBytes 32 rest >>= _) (Reader.fixed rest 32 >>= _)
  refine .bind (fixed_agrees (.inr (.inl rfl)) rest) ?_
  rintro ⟨roster, rest⟩ ⟨_, _⟩ ⟨rfl, rfl⟩
  simp only [toArray_val, ok_bind]
  refine .bind (fixed_agrees (.inr (.inl rfl)) rest) ?_
  rintro ⟨key, rest⟩ ⟨_, _⟩ ⟨rfl, rfl⟩
  refine .bind (point_agrees D key.val) ?_
  rintro aggregateKey _ rfl
  refine .bind (.check (D.is_zero_iff aggregateKey).symm) fun _ _ _ => ?_
  simp only [Reader.deck, bind_assoc, except_pure_eq, ok_bind]
  refine .bind (fixed_agrees (.inr (.inr rfl)) rest) ?_
  rintro ⟨input, rest⟩ ⟨_, _⟩ ⟨rfl, rfl⟩
  refine .bind (cards_agrees D 36 input.val) ?_
  rintro inputDeck _ rfl
  refine .bind (fixed_agrees (.inr (.inr rfl)) rest) ?_
  rintro ⟨output, rest⟩ ⟨_, _⟩ ⟨rfl, rfl⟩
  refine .bind (cards_agrees D 36 output.val) ?_
  rintro outputDeck _ rfl
  exact .bind (.check Iff.rfl) fun _ _ _ => .pure rfl

theorem decode_eq_ok {bytes : List UInt8} {statement : CandidateShuffleStatement36 G} :
    decodeCandidateShuffleStatement36 P bytes = .ok statement ↔
      ∃ read, Statement.decode D bytes = .ok read ∧ read.candidate = statement :=
  (decode_agrees D bytes).ok_iff statement

/-! ## Proofs -/

def PROOF_PROFILE : String := "bg-ristretto255-36-4x9-proof-candidate-v1"
def ARK_BYTES : ℕ := 3480
def ELEMENTS : ℕ := 106
def WIRE_BYTES : ℕ := 1 + 2 + PROOF_PROFILE.toUTF8.size + 2 + ELEMENTS * 34

/-- An entry of `SECTIONS`: whether it holds points, how many, and the length of its vector. -/
structure Section where
  point : Bool
  count : ℕ
  vector : Option ℕ

def SECTIONS : List Section := [
  ⟨true, 4, some 4⟩, ⟨true, 4, some 4⟩, ⟨true, 1, none⟩,
  ⟨true, 4, some 4⟩, ⟨true, 2, none⟩, ⟨true, 9, some 9⟩,
  ⟨false, 9, some 9⟩, ⟨false, 9, some 9⟩, ⟨false, 3, none⟩,
  ⟨true, 3, none⟩, ⟨false, 9, some 9⟩, ⟨false, 9, some 9⟩,
  ⟨false, 2, none⟩, ⟨true, 1, none⟩, ⟨true, 8, some 8⟩,
  ⟨true, 16, some 8⟩, ⟨false, 4, none⟩, ⟨false, 9, some 9⟩]

/-- `header`. -/
def header : List UInt8 :=
  [0x82, 0x78, UInt8.ofNat PROOF_PROFILE.toUTF8.size] ++ PROOF_PROFILE.toUTF8.toList ++
    [0x98, UInt8.ofNat ELEMENTS]

/-- `length.to_le_bytes()` in 64 bits. -/
def to_le_bytes (length : ℕ) : List UInt8 := (bigEndian 8 length).reverse

/-- The bytes before the elements of a section. -/
def Section.prelude (s : Section) : List UInt8 := (s.vector.map to_le_bytes).getD []

/-- `validate`. -/
def validate (bytes : List UInt8) (point : Bool) : Except String Unit :=
  match parseFixedBytes 32 bytes with
  | none => .error "Invalid scalar length"
  | some array =>
      if point then
        throwIf (D.from_bytes array).isNone "the input buffer contained invalid data"
      else throwIf (D.from_canonical_bytes array).isNone "Noncanonical scalar"

/-- The elements of a section in `to_wire`: the bytes written, and those left. -/
def wireElements (point : Bool) : ℕ → List UInt8 → List UInt8 → Except String (List UInt8 × List UInt8)
  | 0, wire, ark => .ok (wire, ark)
  | count + 1, wire, ark => do
      let element := ark.take 32
      validate D element point
      wireElements point count (wire ++ [0x58, 32] ++ element) (ark.drop 32)

/-- The sections in `to_wire`. -/
def wireSections : List Section → List UInt8 → List UInt8 → Except String (List UInt8)
  | [], wire, _ => .ok wire
  | s :: rest, wire, ark => do
      throwIf (s.vector.isSome ∧ ark.take 8 ≠ s.prelude) "Incorrect proof vector length"
      let (wire, ark) ← wireElements D s.point s.count wire (ark.drop s.prelude.length)
      wireSections rest wire ark

/-- `to_wire`. -/
def to_wire (ark : List UInt8) : Except String (List UInt8) := do
  throwIf (ark.length ≠ ARK_BYTES) "Incorrect proof byte length"
  wireSections D SECTIONS header ark

/-- The elements of a section in `to_ark`: the bytes written, and those left. -/
def arkElements (point : Bool) : ℕ → List UInt8 → List UInt8 → Except String (List UInt8 × List UInt8)
  | 0, ark, wire => .ok (ark, wire)
  | count + 1, ark, wire => do
      throwIf (wire.take 2 ≠ [0x58, 32]) "Noncanonical proof element"
      let element := (wire.drop 2).take 32
      validate D element point
      arkElements point count (ark ++ element) (wire.drop 34)

/-- The sections in `to_ark`. -/
def arkSections : List Section → List UInt8 → List UInt8 → Except String (List UInt8)
  | [], ark, _ => .ok ark
  | s :: rest, ark, wire => do
      let (ark, wire) ← arkElements D s.point s.count (ark ++ s.prelude) wire
      arkSections rest ark wire

/-- `to_ark`. -/
def to_ark (wire : List UInt8) : Except String (List UInt8) := do
  throwIf (wire.length ≠ WIRE_BYTES) "Incorrect candidate proof byte length"
  throwIf (¬ header <+: wire) "Incorrect candidate proof header"
  arkSections D SECTIONS [] (wire.drop header.length)

/-! ## The proof strings -/

omit [DecidableEq G] in
/-- A canonical encoding of a point or of a scalar. -/
def ValidElement (P : Primitives q G) (kind : ProofElementKind) (element : FixedBytes 32) : Prop :=
  validateElement P kind element = .ok ()

/-- The elements of a proof on the wire. -/
def wireOf (elements : List (FixedBytes 32)) : List UInt8 :=
  elements.flatMap fun element => [0x58, 32] ++ element.val

/-- The elements of a proof without their tags. -/
def plainOf (elements : List (FixedBytes 32)) : List UInt8 := elements.flatMap fun element => element.val

def Section.kind (s : Section) : ProofElementKind := if s.point then .point else .scalar

/-- The elements of the sections with the lengths of their vectors. -/
def arkOf : List Section → List (FixedBytes 32) → List UInt8
  | [], _ => []
  | s :: rest, elements =>
      s.prelude ++ plainOf (elements.take s.count) ++ arkOf rest (elements.drop s.count)

/-- The kinds of the elements of the sections. -/
def kindsOf (sections : List Section) : List ProofElementKind :=
  sections.flatMap fun s => List.replicate s.count s.kind

theorem kindsOf_SECTIONS : kindsOf SECTIONS = proofKinds := rfl

theorem length_wireOf (elements : List (FixedBytes 32)) : (wireOf elements).length = 34 * elements.length := by
  induction elements with
  | nil => rfl
  | cons element rest ih =>
      have hrest : (rest.flatMap fun element => [0x58, 32] ++ element.val).length = 34 * rest.length := ih
      unfold wireOf
      rw [List.flatMap_cons, List.length_append, hrest, List.length_append, element.property,
        List.length_cons]
      simp only [List.length_cons, List.length_nil]
      omega

theorem length_plainOf (elements : List (FixedBytes 32)) : (plainOf elements).length = 32 * elements.length := by
  induction elements with
  | nil => rfl
  | cons element rest ih =>
      have hrest : (rest.flatMap fun element => element.val).length = 32 * rest.length := ih
      unfold plainOf
      rw [List.flatMap_cons, List.length_append, hrest, element.property, List.length_cons]
      omega

omit [DecidableEq G] in
theorem validate_eq_ok {s : Section} {bytes : List UInt8} : validate D bytes s.point = .ok () ↔
    ∃ element : FixedBytes 32, element.val = bytes ∧ ValidElement P s.kind element := by
  unfold validate parseFixedBytes
  by_cases hlength : bytes.length = 32
  · rw [dif_pos hlength]
    have hvalid : (if s.point = true then
          throwIf (D.from_bytes ⟨bytes, hlength⟩).isNone "the input buffer contained invalid data"
        else throwIf (D.from_canonical_bytes ⟨bytes, hlength⟩).isNone "Noncanonical scalar") = .ok () ↔
          ValidElement P s.kind ⟨bytes, hlength⟩ := by
      unfold ValidElement Section.kind validateElement
      rw [D.from_bytes_eq, D.from_canonical_bytes_eq]
      cases s.point <;> simp
    refine hvalid.trans ⟨fun h => ⟨⟨bytes, hlength⟩, rfl, h⟩, ?_⟩
    rintro ⟨element, rfl, h⟩
    exact h
  · rw [dif_neg hlength]
    constructor
    · intro h
      cases h
    · rintro ⟨element, rfl, -⟩
      exact absurd element.property hlength

theorem take_of_wire {bytes rest : List UInt8} {element : FixedBytes 32} :
    bytes = [0x58, 32] ++ element.val ++ rest ↔
      bytes.take 2 = [0x58, 32] ∧ (bytes.drop 2).take 32 = element.val ∧ bytes.drop 34 = rest := by
  constructor
  · rintro rfl
    have hlen := element.property
    refine ⟨rfl, ?_, ?_⟩
    · show (element.val ++ rest).take 32 = _
      rw [List.take_left' hlen]
    · show (element.val ++ rest).drop 32 = _
      rw [List.drop_left' hlen]
  · rintro ⟨htag, helement, rfl⟩
    have hdrop : bytes.drop 34 = (bytes.drop 2).drop 32 := by rw [List.drop_drop]
    rw [hdrop, List.append_assoc, ← helement, List.take_append_drop, ← htag, List.take_append_drop]

omit [DecidableEq G] in
theorem arkElements_eq_ok {s : Section} {count : ℕ} {ark wire ark' wire' : List UInt8} :
    arkElements D s.point count ark wire = .ok (ark', wire') ↔ ∃ elements : List (FixedBytes 32),
      elements.length = count ∧ (∀ element ∈ elements, ValidElement P s.kind element) ∧
      wire = wireOf elements ++ wire' ∧ ark' = ark ++ plainOf elements := by
  induction count generalizing ark wire with
  | zero =>
      constructor
      · intro h
        cases h
        exact ⟨[], rfl, by simp, rfl, by simp [plainOf]⟩
      · rintro ⟨elements, hlength, -, rfl, rfl⟩
        rw [List.length_eq_zero_iff.1 hlength]
        simp [arkElements, wireOf, plainOf]
  | succ count ih =>
      unfold arkElements
      simp only [check_bind_eq_ok, throwIf_eq_ok, not_not, ih, validate_eq_ok]
      constructor
      · rintro ⟨htag, ⟨element, helement, hvalid⟩, elements, hlength, hall, hwire, rfl⟩
        refine ⟨element :: elements, by rw [List.length_cons, hlength], ?_, ?_, ?_⟩
        · intro other hother
          rcases List.mem_cons.1 hother with rfl | hother
          · exact hvalid
          · exact hall other hother
        · rw [take_of_wire.2 ⟨htag, helement.symm, hwire⟩]
          simp [wireOf]
        · rw [← helement]
          simp [plainOf]
      · rintro ⟨elements, hlength, hall, hwire, rfl⟩
        cases elements with
        | nil => cases hlength
        | cons element elements =>
            have hsplit : wire = [0x58, 32] ++ element.val ++ (wireOf elements ++ wire') := by
              rw [hwire]
              simp [wireOf]
            obtain ⟨htag, helement, hrest⟩ := take_of_wire.1 hsplit
            refine ⟨htag, ⟨element, helement.symm, hall element List.mem_cons_self⟩, elements,
              by simpa using hlength, fun other hother => hall other (List.mem_cons_of_mem _ hother),
              hrest, ?_⟩
            rw [helement]
            simp [plainOf]

omit [DecidableEq G] in
theorem wireElements_eq_ok {s : Section} {count : ℕ} {ark wire ark' wire' : List UInt8} :
    wireElements D s.point count wire ark = .ok (wire', ark') ↔ ∃ elements : List (FixedBytes 32),
      elements.length = count ∧ (∀ element ∈ elements, ValidElement P s.kind element) ∧
      ark = plainOf elements ++ ark' ∧ wire' = wire ++ wireOf elements := by
  induction count generalizing ark wire with
  | zero =>
      constructor
      · intro h
        cases h
        exact ⟨[], rfl, by simp, rfl, by simp [wireOf]⟩
      · rintro ⟨elements, hlength, -, rfl, rfl⟩
        rw [List.length_eq_zero_iff.1 hlength]
        simp [wireElements, wireOf, plainOf]
  | succ count ih =>
      unfold wireElements
      simp only [check_bind_eq_ok, ih, validate_eq_ok]
      constructor
      · rintro ⟨⟨element, helement, hvalid⟩, elements, hlength, hall, hark, rfl⟩
        refine ⟨element :: elements, by rw [List.length_cons, hlength], ?_, ?_, ?_⟩
        · intro other hother
          rcases List.mem_cons.1 hother with rfl | hother
          · exact hvalid
          · exact hall other hother
        · have hsplit := List.take_append_drop 32 ark
          rw [hark, ← helement] at hsplit
          rw [← hsplit]
          simp [plainOf]
        · rw [← helement]
          simp [wireOf]
      · rintro ⟨elements, hlength, hall, hark, rfl⟩
        cases elements with
        | nil => cases hlength
        | cons element elements =>
            have hsplit : ark = element.val ++ (plainOf elements ++ ark') := by
              rw [hark]
              simp [plainOf]
            have helement : ark.take 32 = element.val := by
              rw [hsplit, List.take_left' element.property]
            refine ⟨⟨element, helement.symm, hall element List.mem_cons_self⟩, elements,
              by simpa using hlength, fun other hother => hall other (List.mem_cons_of_mem _ hother),
              ?_, ?_⟩
            · rw [hsplit, List.drop_left' element.property]
            · rw [helement]
              simp [wireOf]

theorem forall₂_replicate {α β : Type} {R : α → β → Prop} {count : ℕ} {a : α} {elements : List β} :
    List.Forall₂ R (List.replicate count a) elements ↔
      elements.length = count ∧ ∀ element ∈ elements, R a element := by
  induction count generalizing elements with
  | zero =>
      constructor
      · rintro ⟨⟩
        simp
      · rintro ⟨hlength, -⟩
        rw [List.length_eq_zero_iff.1 hlength]
        exact .nil
  | succ count ih =>
      constructor
      · rintro (_ | ⟨hhead, hrest⟩)
        obtain ⟨hlength, hall⟩ := ih.1 hrest
        refine ⟨by rw [List.length_cons, hlength], fun other hother => ?_⟩
        rcases List.mem_cons.1 hother with rfl | hother
        · exact hhead
        · exact hall other hother
      · rintro ⟨hlength, hall⟩
        cases elements with
        | nil => cases hlength
        | cons element elements =>
            exact .cons (hall element List.mem_cons_self) (ih.2 ⟨by simpa using hlength,
              fun other hother => hall other (List.mem_cons_of_mem _ hother)⟩)

omit [DecidableEq G] in
/-- The elements of the first section, and those of the others. -/
theorem forall₂_kindsOf {s : Section} {rest : List Section} {first others : List (FixedBytes 32)}
    (hlength : first.length = s.count) :
    List.Forall₂ (ValidElement P) (kindsOf (s :: rest)) (first ++ others) ↔
      (∀ element ∈ first, ValidElement P s.kind element) ∧
        List.Forall₂ (ValidElement P) (kindsOf rest) others := by
  have hkinds : kindsOf (s :: rest) = List.replicate s.count s.kind ++ kindsOf rest := rfl
  rw [hkinds]
  constructor
  · intro h
    have htake := List.forall₂_take_append _ _ _ h
    have hdrop := List.forall₂_drop_append _ _ _ h
    rw [List.take_left' (by rw [List.length_replicate, hlength])] at htake
    rw [List.drop_left' (by rw [List.length_replicate, hlength])] at hdrop
    exact ⟨(forall₂_replicate.1 htake).2, hdrop⟩
  · rintro ⟨hfirst, hothers⟩
    exact List.rel_append (forall₂_replicate.2 ⟨hlength, hfirst⟩) hothers

omit [DecidableEq G] in
theorem arkSections_eq_ok {sections : List Section} {ark wire result : List UInt8} :
    arkSections D sections ark wire = .ok result ↔ ∃ elements rest,
      List.Forall₂ (ValidElement P) (kindsOf sections) elements ∧ wire = wireOf elements ++ rest ∧
        result = ark ++ arkOf sections elements := by
  induction sections generalizing ark wire with
  | nil =>
      constructor
      · intro h
        cases h
        exact ⟨[], wire, .nil, rfl, by simp [arkOf]⟩
      · rintro ⟨elements, rest, -, -, rfl⟩
        simp [arkSections, arkOf]
  | cons s sections ih =>
      unfold arkSections
      rw [bind_eq_ok]
      constructor
      · rintro ⟨⟨ark', wire'⟩, helements, h⟩
        obtain ⟨first, hlength, hfirst, rfl, rfl⟩ := (arkElements_eq_ok D).1 helements
        obtain ⟨others, rest, hothers, rfl, rfl⟩ := ih.1 h
        refine ⟨first ++ others, rest, (forall₂_kindsOf hlength).2 ⟨hfirst, hothers⟩, ?_, ?_⟩
        · simp [wireOf]
        · rw [arkOf, List.take_left' hlength, List.drop_left' hlength]
          simp
      · rintro ⟨elements, rest, hvalid, rfl, rfl⟩
        obtain ⟨first, others, rfl, hlength⟩ : ∃ first others, elements = first ++ others ∧
            first.length = s.count := by
          refine ⟨elements.take s.count, elements.drop s.count, (List.take_append_drop _ _).symm, ?_⟩
          have := hvalid.length_eq
          simp only [kindsOf, List.flatMap_cons, List.length_append, List.length_replicate] at this
          rw [List.length_take]
          omega
        obtain ⟨hfirst, hothers⟩ := (forall₂_kindsOf hlength).1 hvalid
        refine ⟨⟨ark ++ s.prelude ++ plainOf first, wireOf others ++ rest⟩,
          (arkElements_eq_ok D).2 ⟨first, hlength, hfirst, by simp [wireOf], rfl⟩,
          ih.2 ⟨others, rest, hothers, rfl, ?_⟩⟩
        rw [arkOf, List.take_left' hlength, List.drop_left' hlength]
        simp

theorem prelude_eq_nil {s : Section} (h : s.vector.isSome = false) : s.prelude = [] := by
  unfold Section.prelude
  rw [Option.isSome_eq_false_iff, Option.isNone_iff_eq_none] at h
  rw [h]
  rfl

theorem length_prelude {s : Section} (h : s.vector.isSome = true) : s.prelude.length = 8 := by
  obtain ⟨length, hlength⟩ := Option.isSome_iff_exists.1 h
  unfold Section.prelude
  rw [hlength]
  simp [to_le_bytes]

/-- The check of a vector length says that the bytes go on with it. -/
theorem prelude_checked {s : Section} {ark : List UInt8} :
    ¬ (s.vector.isSome = true ∧ ark.take 8 ≠ s.prelude) ↔
      ark = s.prelude ++ ark.drop s.prelude.length := by
  cases hvector : s.vector.isSome with
  | false =>
      rw [prelude_eq_nil hvector]
      simp
  | true =>
      rw [length_prelude hvector]
      constructor
      · intro h
        have htake : ark.take 8 = s.prelude := not_not.1 fun hne => h ⟨rfl, hne⟩
        rw [← htake, List.take_append_drop]
      · rintro h ⟨-, hne⟩
        refine hne ?_
        rw [h, List.take_left' (length_prelude hvector)]

omit [DecidableEq G] in
theorem wireSections_eq_ok {sections : List Section} {ark wire result : List UInt8} :
    wireSections D sections wire ark = .ok result ↔ ∃ elements rest,
      List.Forall₂ (ValidElement P) (kindsOf sections) elements ∧
        ark = arkOf sections elements ++ rest ∧ result = wire ++ wireOf elements := by
  induction sections generalizing ark wire with
  | nil =>
      constructor
      · intro h
        cases h
        exact ⟨[], ark, .nil, rfl, by simp [wireOf]⟩
      · rintro ⟨elements, rest, hvalid, -, rfl⟩
        cases hvalid
        simp [wireSections, wireOf]
  | cons s sections ih =>
      unfold wireSections
      rw [check_bind_eq_ok, throwIf_eq_ok, prelude_checked, bind_eq_ok]
      constructor
      · rintro ⟨hprelude, ⟨wire', ark'⟩, helements, h⟩
        obtain ⟨first, hlength, hfirst, hark, rfl⟩ := (wireElements_eq_ok D).1 helements
        obtain ⟨others, rest, hothers, rfl, rfl⟩ := ih.1 h
        refine ⟨first ++ others, rest, (forall₂_kindsOf hlength).2 ⟨hfirst, hothers⟩, ?_, ?_⟩
        · rw [hprelude, hark, arkOf, List.take_left' hlength, List.drop_left' hlength]
          simp
        · simp [wireOf]
      · rintro ⟨elements, rest, hvalid, rfl, rfl⟩
        obtain ⟨first, others, rfl, hlength⟩ : ∃ first others, elements = first ++ others ∧
            first.length = s.count := by
          refine ⟨elements.take s.count, elements.drop s.count, (List.take_append_drop _ _).symm, ?_⟩
          have := hvalid.length_eq
          simp only [kindsOf, List.flatMap_cons, List.length_append, List.length_replicate] at this
          rw [List.length_take]
          omega
        obtain ⟨hfirst, hothers⟩ := (forall₂_kindsOf hlength).1 hvalid
        rw [arkOf, List.take_left' hlength, List.drop_left' hlength, List.append_assoc, List.append_assoc]
        refine ⟨by rw [List.drop_left], ⟨wire ++ wireOf first, arkOf sections others ++ rest⟩, ?_,
          ih.2 ⟨others, rest, hothers, rfl, by simp [wireOf]⟩⟩
        rw [List.drop_left]
        exact (wireElements_eq_ok D).2 ⟨first, hlength, hfirst, rfl, rfl⟩

theorem length_arkOf {sections : List Section} {elements : List (FixedBytes 32)}
    (h : elements.length = (kindsOf sections).length) : (arkOf sections elements).length =
      (sections.map fun s => s.prelude.length + 32 * s.count).sum := by
  induction sections generalizing elements with
  | nil => rfl
  | cons s sections ih =>
      simp only [kindsOf, List.flatMap_cons, List.length_append, List.length_replicate] at h
      have hrest : (elements.drop s.count).length = (kindsOf sections).length := by
        rw [List.length_drop, h]
        simp [kindsOf]
      have hfirst : (elements.take s.count).length = s.count := by
        rw [List.length_take]
        omega
      rw [arkOf, List.length_append, List.length_append, length_plainOf, hfirst, ih hrest]
      simp

theorem length_proofKinds : proofKinds.length = 106 := by decide

theorem proofHeader_eq : proofHeader = header := by
  have hsize : ¬ PROOF_PROFILE.toUTF8.size < 24 ∧ PROOF_PROFILE.toUTF8.size < 2 ^ 8 := by decide
  show 0x82 :: (cborHead 3 PROOF_PROFILE.toUTF8.size ++ PROOF_PROFILE.toUTF8.toList) ++ _ = _
  unfold cborHead
  rw [if_neg hsize.1, if_pos hsize.2]
  rfl

theorem length_header : header.length = 1 + 2 + PROOF_PROFILE.toUTF8.size + 2 := by
  unfold header
  rw [List.length_append, List.length_append, length_toList]
  rfl

omit [DecidableEq G] in
/-- What the backend accepts on the wire, and what it makes of it. -/
theorem to_ark_eq_ok {wire ark : List UInt8} : to_ark D wire = .ok ark ↔ ∃ elements,
    List.Forall₂ (ValidElement P) proofKinds elements ∧ wire = header ++ wireOf elements ∧
      ark = arkOf SECTIONS elements := by
  unfold to_ark
  rw [check_bind_eq_ok, throwIf_eq_ok, not_not, check_bind_eq_ok, throwIf_eq_ok, not_not,
    arkSections_eq_ok, kindsOf_SECTIONS]
  constructor
  · rintro ⟨hlength, ⟨tail, rfl⟩, elements, rest, hvalid, htail, rfl⟩
    rw [List.drop_left] at htail
    have hcount := hvalid.length_eq
    rw [length_proofKinds] at hcount
    have hrest : rest = [] := by
      rw [List.length_append, htail, List.length_append, length_wireOf, length_header] at hlength
      unfold WIRE_BYTES ELEMENTS at hlength
      exact List.length_eq_zero_iff.1 (by omega)
    exact ⟨elements, hvalid, by rw [htail, hrest, List.append_nil], by simp⟩
  · rintro ⟨elements, hvalid, rfl, rfl⟩
    have hcount := hvalid.length_eq
    rw [length_proofKinds] at hcount
    refine ⟨?_, List.prefix_append _ _, elements, [], hvalid, by rw [List.drop_left, List.append_nil],
      by simp⟩
    rw [List.length_append, length_wireOf, length_header]
    unfold WIRE_BYTES ELEMENTS
    omega

omit [DecidableEq G] in
/-- What the backend accepts of its own proof library. -/
theorem to_wire_eq_ok {wire ark : List UInt8} : to_wire D ark = .ok wire ↔ ∃ elements,
    List.Forall₂ (ValidElement P) proofKinds elements ∧ ark = arkOf SECTIONS elements ∧
      wire = header ++ wireOf elements := by
  have hsum : (SECTIONS.map fun s => s.prelude.length + 32 * s.count).sum = ARK_BYTES := by decide
  unfold to_wire
  rw [check_bind_eq_ok, throwIf_eq_ok, not_not, wireSections_eq_ok, kindsOf_SECTIONS]
  constructor
  · rintro ⟨hlength, elements, rest, hvalid, rfl, rfl⟩
    have hrest : rest = [] := by
      have hcount : (arkOf SECTIONS elements).length = _ := length_arkOf hvalid.length_eq.symm
      rw [List.length_append, hcount, hsum] at hlength
      exact List.length_eq_zero_iff.1 (by omega)
    exact ⟨elements, hvalid, by rw [hrest, List.append_nil], rfl⟩
  · rintro ⟨elements, hvalid, rfl, rfl⟩
    refine ⟨?_, elements, [], hvalid, by simp, rfl⟩
    have hcount : (arkOf SECTIONS elements).length = _ := length_arkOf hvalid.length_eq.symm
    rw [hcount, hsum]

omit [DecidableEq G] in
theorem readElements_eq_ok {kinds : List ProofElementKind} {bytes : List UInt8}
    {elements : List (FixedBytes 32)} (h : bytes.length = 34 * kinds.length) :
    readElements P kinds bytes = .ok elements ↔
      List.Forall₂ (ValidElement P) kinds elements ∧ bytes = wireOf elements := by
  induction kinds generalizing bytes elements with
  | nil =>
      have hnil : bytes = [] := List.length_eq_zero_iff.1 h
      rw [hnil]
      constructor
      · intro h
        cases h
        exact ⟨.nil, rfl⟩
      · rintro ⟨⟨⟩, -⟩
        rfl
  | cons kind kinds ih =>
      rw [List.length_cons] at h
      have hfull : ((bytes.drop 2).take 32).length = 32 := by
        rw [List.length_take, List.length_drop]
        omega
      have hdrop : (bytes.drop 34).length = 34 * kinds.length := by
        rw [List.length_drop]
        omega
      obtain ⟨element, helement⟩ : ∃ element : FixedBytes 32, element.val = (bytes.drop 2).take 32 :=
        ⟨⟨_, hfull⟩, rfl⟩
      unfold readElements
      rw [← helement, parseFixedBytes_val, check_bind_eq_ok, throwIf_eq_ok, not_not]
      simp only
      rw [check_bind_eq_ok, bind_eq_ok]
      constructor
      · rintro ⟨htag, hvalid, others, hothers, h⟩
        cases h
        obtain ⟨hall, hrest⟩ := (ih hdrop).1 hothers
        refine ⟨.cons hvalid hall, ?_⟩
        rw [take_of_wire.2 ⟨htag, helement.symm, hrest⟩]
        simp [wireOf]
      · rintro ⟨hall, hbytes⟩
        cases hall with
        | @cons _ first _ others hvalid hall =>
            have hsplit : bytes = [0x58, 32] ++ first.val ++ wireOf others := by
              rw [hbytes]
              simp [wireOf]
            obtain ⟨htag, hfirst, hrest⟩ := take_of_wire.1 hsplit
            obtain rfl : element = first := Subtype.ext (helement.trans hfirst)
            exact ⟨htag, hvalid, others, (ih hdrop).2 ⟨hall, hrest⟩, rfl⟩

omit [DecidableEq G] in
/-- What the other side accepts on the wire. -/
theorem decodeProof_eq_ok {bytes : List UInt8} {elements : List (FixedBytes 32)} :
    decodeCandidateShuffleProof36 P bytes = .ok elements ↔
      List.Forall₂ (ValidElement P) proofKinds elements ∧ bytes = header ++ wireOf elements := by
  unfold decodeCandidateShuffleProof36 CANDIDATE_SHUFFLE_PROOF_36_BYTES
  rw [proofHeader_eq, check_bind_eq_ok, throwIf_eq_ok, not_not, check_bind_eq_ok, throwIf_eq_ok, not_not]
  constructor
  · rintro ⟨hlength, hheader, h⟩
    have htail : (bytes.drop header.length).length = 34 * proofKinds.length := by
      rw [List.length_drop, length_proofKinds]
      omega
    obtain ⟨hvalid, hrest⟩ := (readElements_eq_ok htail).1 h
    exact ⟨hvalid, by rw [← hrest, ← hheader, List.length_take, Nat.min_eq_left (by omega),
      List.take_append_drop]⟩
  · rintro ⟨hvalid, rfl⟩
    have hcount := hvalid.length_eq
    have hwire := length_wireOf elements
    rw [length_proofKinds] at hcount
    refine ⟨by rw [List.length_append]; omega, List.take_left, ?_⟩
    rw [List.drop_left]
    exact (readElements_eq_ok (by rw [hwire, length_proofKinds]; omega)).2 ⟨hvalid, rfl⟩

/-! ## The private witness -/

/-- `Enc::encrypt`. -/
def encrypt (key message : G) (r : ZMod q) : MaskedCard G := ⟨r • D.base, message + r • key⟩

/-- The loop of `prove_with_rng` over the positions and their randomizers, from row `j` on. -/
def admitRows (statement : Statement G) (j : ℕ) (seen : ℕ → Bool) :
    List UInt8 → List (List UInt8) → Except String (List (ZMod q))
  | position :: positions, bytes :: chunks => do
      throwIf (36 ≤ position.toNat ∨ seen position.toNat = true) "Invalid private permutation"
      match (parseFixedBytes 32 bytes).bind D.deserialize_compressed with
      | none => throw "Noncanonical private randomizer"
      | some mask => do
          throwIf (mask = 0) "Zero private randomizer"
          match statement.input[position.toNat]?, statement.output[j]? with
          | some input, some output => do
              let fresh := encrypt D statement.key 0 mask
              throwIf ((⟨input.A + fresh.A, input.B + fresh.B⟩ : MaskedCard G) ≠ output)
                "Private witness does not match statement"
              let masks ← admitRows statement (j + 1) (Function.update seen position.toNat true)
                positions chunks
              return mask :: masks
          | _, _ => throw "index out of bounds"
  | _, _ => return []

/-- `chunks_exact(32)`. -/
def chunks_exact : ℕ → List UInt8 → List (List UInt8)
  | 0, _ => []
  | count + 1, bytes => bytes.take 32 :: chunks_exact count (bytes.drop 32)

/-- `prove_with_rng` up to its first use of the random source: the statement and the masks of the
witness that is proved. -/
def admitInputs (encoded permutation randomizers : List UInt8) :
    Except String (Statement G × List (ZMod q)) := do
  let statement ← Statement.decode D encoded
  throwIf (permutation.length ≠ 36 ∨ randomizers.length ≠ 36 * 32) "Invalid private witness length"
  let masks ← admitRows D statement 0 (fun _ => false) permutation
    (chunks_exact (randomizers.length / 32) randomizers)
  return (statement, masks)

/-- Row `j` of the relation that is proved. -/
def RowOk (P : Primitives q G) (statement : Statement G) (j position : ℕ) (mask : ZMod q) : Prop :=
  mask ≠ 0 ∧ ∃ input output, statement.input[position]? = some input ∧
    statement.output[j]? = some output ∧
    output = ⟨input.A + mask • P.base, input.B + mask • statement.key⟩

/-- The relation that is proved, from row `j` on. -/
inductive RowsOk (P : Primitives q G) (statement : Statement G) : ℕ → List UInt8 → List (ZMod q) → Prop
  | nil {j : ℕ} : RowsOk P statement j [] []
  | cons {j : ℕ} {position : UInt8} {positions : List UInt8} {mask : ZMod q} {masks : List (ZMod q)}
      (row : RowOk P statement j position.toNat mask)
      (rest : RowsOk P statement (j + 1) positions masks) :
      RowsOk P statement j (position :: positions) (mask :: masks)

omit [DecidableEq G] in
theorem deserialize_eq_some {bytes : List UInt8} {mask : ZMod q} :
    (parseFixedBytes 32 bytes).bind D.deserialize_compressed = some mask ↔
      bytes = (P.scalarBytes mask).val := by
  rw [Option.bind_eq_some_iff]
  constructor
  · rintro ⟨array, harray, hmask⟩
    rw [D.deserialize_compressed_eq, P.scalarOfBytes_eq] at hmask
    unfold parseFixedBytes at harray
    split at harray
    · rw [hmask, ← Option.some.inj harray]
    · cases harray
  · rintro rfl
    exact ⟨_, parseFixedBytes_val _, by rw [D.deserialize_compressed_eq, P.scalarOfBytes_eq]⟩

theorem admitRows_eq_ok {statement : Statement G} {j : ℕ} {seen : ℕ → Bool} {positions : List UInt8}
    {chunks : List (List UInt8)} {masks : List (ZMod q)} (hlength : chunks.length = positions.length) :
    admitRows D statement j seen positions chunks = .ok masks ↔
      (positions.map UInt8.toNat).Nodup ∧
      (∀ position ∈ positions, position.toNat < 36 ∧ seen position.toNat = false) ∧
      chunks = masks.map (fun mask => (P.scalarBytes mask).val) ∧
      RowsOk P statement j positions masks := by
  induction positions generalizing j seen chunks masks with
  | nil =>
      rw [List.length_eq_zero_iff.1 hlength]
      constructor
      · intro h
        cases h
        exact ⟨List.nodup_nil, by simp, rfl, .nil⟩
      · rintro ⟨-, -, -, hrows⟩
        cases hrows
        rfl
  | cons position positions ih =>
      cases chunks with
      | nil => cases hlength
      | cons bytes chunks =>
      have hlength : chunks.length = positions.length := by simpa using hlength
      unfold admitRows
      rw [check_bind_eq_ok, throwIf_eq_ok, not_or, not_le, Bool.not_eq_true]
      constructor
      · rintro ⟨hhere, h⟩
        cases hmask : (parseFixedBytes 32 bytes).bind D.deserialize_compressed with
        | none =>
            rw [hmask] at h
            cases h
        | some mask =>
            rw [hmask] at h
            simp only at h
            obtain ⟨hzero, h⟩ := check_bind_eq_ok.1 h
            cases hinput : statement.input[position.toNat]? with
            | none =>
                rw [hinput] at h
                cases h
            | some input =>
                cases houtput : statement.output[j]? with
                | none =>
                    rw [hinput, houtput] at h
                    cases h
                | some output =>
                    rw [hinput, houtput] at h
                    obtain ⟨hsame, h⟩ := check_bind_eq_ok.1 h
                    obtain ⟨others, hothers, h⟩ := bind_eq_ok.1 h
                    cases h
                    obtain ⟨hnodup, hall, hchunks, hrows⟩ := (ih hlength).1 hothers
                    rw [throwIf_eq_ok, not_not] at hsame
                    have hfresh : ∀ other ∈ positions, other.toNat ≠ position.toNat := by
                      intro other hother heq
                      have := (hall other hother).2
                      rw [heq, Function.update_self] at this
                      cases this
                    refine ⟨List.nodup_cons.2 ⟨?_, hnodup⟩, ?_, ?_, .cons ⟨?_, input, output, hinput,
                      houtput, ?_⟩ hrows⟩
                    · rw [List.mem_map]
                      rintro ⟨other, hother, heq⟩
                      exact hfresh other hother heq
                    · intro other hother
                      rcases List.mem_cons.1 hother with rfl | hother
                      · exact hhere
                      · have := hall other hother
                        rwa [Function.update_of_ne (hfresh other hother)] at this
                    · rw [List.map_cons, ← hchunks, (deserialize_eq_some D).1 hmask]
                    · exact throwIf_eq_ok.1 hzero
                    · rw [← hsame]
                      simp [encrypt, D.base_eq]
      · rintro ⟨hnodup, hall, hchunks, hrows⟩
        cases hrows with
        | @cons _ _ _ mask masks row rest =>
            obtain ⟨hzero, input, output, hinput, houtput, hsame⟩ := row
            obtain ⟨hbytes, hchunks⟩ := List.cons.inj hchunks
            obtain ⟨hfirst, hnodup⟩ := List.nodup_cons.1 hnodup
            refine ⟨hall position List.mem_cons_self, ?_⟩
            rw [(deserialize_eq_some D).2 hbytes]
            simp only
            rw [throwIf_neg hzero, ok_bind, hinput, houtput]
            simp only
            rw [throwIf_neg (by rw [hsame]; simp [encrypt, D.base_eq]), ok_bind]
            have hrest : ∀ other ∈ positions, other.toNat < 36 ∧
                Function.update seen position.toNat true other.toNat = false := by
              intro other hother
              obtain ⟨hlt, hseen⟩ := hall other (List.mem_cons_of_mem _ hother)
              have hne : other.toNat ≠ position.toNat := fun heq =>
                hfirst (List.mem_map.2 ⟨other, hother, heq⟩)
              exact ⟨hlt, by rw [Function.update_of_ne hne]; exact hseen⟩
            rw [(ih hlength).2 ⟨hnodup, hrest, hchunks, rest⟩]
            rfl

theorem length_chunks_exact (count : ℕ) (bytes : List UInt8) : (chunks_exact count bytes).length = count := by
  induction count generalizing bytes with
  | zero => rfl
  | succ count ih => simp [chunks_exact, ih]

omit [DecidableEq G] in
theorem chunks_exact_flatMap (masks : List (ZMod q)) :
    chunks_exact masks.length (masks.flatMap fun mask => (P.scalarBytes mask).val)
      = masks.map fun mask => (P.scalarBytes mask).val := by
  induction masks with
  | nil => rfl
  | cons mask rest ih =>
      rw [List.length_cons, chunks_exact, List.flatMap_cons, List.take_left' (P.scalarBytes mask).property,
        List.drop_left' (P.scalarBytes mask).property, ih]
      rfl

omit [DecidableEq G] in
theorem length_chunk {mask : ZMod q} : (P.scalarBytes mask).val.length = 32 := (P.scalarBytes mask).property

omit [DecidableEq G] in
theorem length_flatMap_scalarBytes (masks : List (ZMod q)) :
    (masks.flatMap fun mask => (P.scalarBytes mask).val).length = 32 * masks.length := by
  induction masks with
  | nil => rfl
  | cons mask rest ih =>
      rw [List.flatMap_cons, List.length_append, ih, length_chunk, List.length_cons]
      ring

/-- The chunks are all of the bytes. -/
theorem flatten_chunks_exact {count : ℕ} {bytes : List UInt8} (h : bytes.length = 32 * count) :
    (chunks_exact count bytes).flatten = bytes := by
  induction count generalizing bytes with
  | zero => exact (List.length_eq_zero_iff.1 h).symm
  | succ count ih =>
      rw [chunks_exact, List.flatten_cons, ih (by rw [List.length_drop]; omega), List.take_append_drop]

omit [DecidableEq G] in
theorem RowsOk.length_eq {statement : Statement G} {j : ℕ} {positions : List UInt8}
    {masks : List (ZMod q)} (h : RowsOk P statement j positions masks) :
    masks.length = positions.length := by
  induction h with
  | nil => rfl
  | cons row rest ih => simp [ih]

omit [DecidableEq G] in
theorem RowsOk.row {statement : Statement G} {j k : ℕ} {positions : List UInt8}
    {masks : List (ZMod q)} (h : RowsOk P statement j positions masks) {position : UInt8}
    {mask : ZMod q} (hposition : positions[k]? = some position) (hmask : masks[k]? = some mask) :
    RowOk P statement (j + k) position.toNat mask := by
  induction h generalizing k with
  | nil => cases hposition
  | @cons j _ _ _ _ row rest ih =>
      cases k with
      | zero =>
          cases hposition
          cases hmask
          exact row
      | succ k =>
          rw [show j + (k + 1) = j + 1 + k by omega]
          exact ih hposition hmask

/-- What is admitted. -/
theorem admitInputs_eq_ok {encoded permutation randomizers : List UInt8} {statement : Statement G}
    {masks : List (ZMod q)} : admitInputs D encoded permutation randomizers = .ok (statement, masks) ↔
      Statement.decode D encoded = .ok statement ∧ permutation.length = 36 ∧
      (permutation.map UInt8.toNat).Nodup ∧ (∀ position ∈ permutation, position.toNat < 36) ∧
      randomizers = masks.flatMap (fun mask => (P.scalarBytes mask).val) ∧
      RowsOk P statement 0 permutation masks := by
  unfold admitInputs
  rw [bind_eq_ok]
  constructor
  · rintro ⟨decoded, hdecoded, h⟩
    obtain ⟨hlengths, h⟩ := check_bind_eq_ok.1 h
    obtain ⟨admitted, hrows, h⟩ := bind_eq_ok.1 h
    cases h
    rw [throwIf_eq_ok, not_or, not_not, not_not] at hlengths
    obtain ⟨hpermutation, hrandomizers⟩ := hlengths
    rw [hrandomizers, Nat.mul_div_cancel _ (by norm_num)] at hrows
    obtain ⟨hnodup, hall, hchunks, hrows⟩ :=
      (admitRows_eq_ok D (by rw [length_chunks_exact, hpermutation])).1 hrows
    have hflatten : (chunks_exact 36 randomizers).flatten = randomizers :=
      flatten_chunks_exact (by omega)
    refine ⟨hdecoded, hpermutation, hnodup, fun position hposition => (hall position hposition).1,
      ?_, hrows⟩
    rw [← hflatten, hchunks, List.flatMap_def]
  · rintro ⟨hdecoded, hpermutation, hnodup, hall, rfl, hrows⟩
    have hcount : masks.length = 36 := hrows.length_eq.trans hpermutation
    refine ⟨statement, hdecoded, ?_⟩
    rw [throwIf_neg (by rw [length_flatMap_scalarBytes]; omega), ok_bind, length_flatMap_scalarBytes,
      Nat.mul_div_cancel_left _ (by norm_num), chunks_exact_flatMap,
      (admitRows_eq_ok D (by rw [List.length_map, hcount, hpermutation])).2
        ⟨hnodup, fun position hposition => ⟨hall position hposition, rfl⟩, rfl, hrows⟩]
    rfl

end Backend

/-! ## The witness of the other side -/

/-- The loop of `encodeCandidateShuffleWitness36`. -/
def witnessRows (P : Primitives q G) (seen : List ℕ) : List ℕ → List (ZMod q) →
    Except ShuffleCodecError (List UInt8 × List UInt8)
  | position :: positions, randomizer :: randomizers => do
      throwIf (36 ≤ position ∨ position ∈ seen) (.error "Invalid permutation")
      throwIf (randomizer = 0) (.error "Zero shuffle randomizer")
      let (permutation, scalars) ← witnessRows P (position :: seen) positions randomizers
      return (UInt8.ofNat position :: permutation, (P.scalarBytes randomizer).val ++ scalars)
  | _, _ => return ([], [])

/-- `encodeCandidateShuffleWitness36`: the permutation and the randomizers. -/
def encodeCandidateShuffleWitness36 (P : Primitives q G) (witness : DeckShuffleWitness q) :
    Except ShuffleCodecError (List UInt8 × List UInt8) := do
  throwIf (witness.permutation.length ≠ 36 ∨ witness.randomizers.length ≠ 36)
    (.error "Invalid witness lengths")
  witnessRows P [] witness.permutation witness.randomizers

/-- The randomizers of `createUnprovenDeckShuffle`. -/
def drawRandomizers (q : ℕ) : ℕ → List ℕ → Option (List (ZMod q) × List ℕ)
  | 0, draws => some ([], draws)
  | count + 1, draws => do
      let (randomizer, draws) ← randomNonZeroRistrettoScalar q draws
      let (randomizers, draws) ← drawRandomizers q count draws
      return (randomizer :: randomizers, draws)

/-- What `createUnprovenDeckShuffle` draws for a deck of this size: the buffers of four bytes that
the source fills for the permutation, and after them those of 32 bytes for the randomizers. -/
def drawWitness (q size : ℕ) (source : List Fill) (draws : List ℕ) :
    Except RandomError (Option (DeckShuffleWitness q)) := do
  match ← randomPermutation size source with
  | none => return none
  | some (permutation, _) =>
      return (drawRandomizers q size draws).map fun drawn => ⟨permutation, drawn.1⟩

omit [DecidableEq G] in
theorem witnessRows_eq {P : Primitives q G} {positions seen : List ℕ} {randomizers : List (ZMod q)}
    (hnodup : positions.Nodup) (hall : ∀ position ∈ positions, position < 36 ∧ position ∉ seen)
    (hnonzero : ∀ randomizer ∈ randomizers, randomizer ≠ 0)
    (hlength : randomizers.length = positions.length) :
    witnessRows P seen positions randomizers = .ok (positions.map UInt8.ofNat,
      randomizers.flatMap fun randomizer => (P.scalarBytes randomizer).val) := by
  induction positions generalizing seen randomizers with
  | nil =>
      rw [List.length_eq_zero_iff.1 hlength]
      rfl
  | cons position positions ih =>
      cases randomizers with
      | nil => cases hlength
      | cons randomizer randomizers =>
          obtain ⟨hfirst, hnodup⟩ := List.nodup_cons.1 hnodup
          obtain ⟨hlt, hseen⟩ := hall position List.mem_cons_self
          have hrest : ∀ other ∈ positions, other < 36 ∧ other ∉ position :: seen := by
            intro other hother
            obtain ⟨hother36, hunseen⟩ := hall other (List.mem_cons_of_mem _ hother)
            refine ⟨hother36, fun hmem => ?_⟩
            rcases List.mem_cons.1 hmem with rfl | hmem
            · exact hfirst hother
            · exact hunseen hmem
          unfold witnessRows
          rw [throwIf_neg (not_or.2 ⟨not_le.2 hlt, hseen⟩), ok_bind,
            throwIf_neg (hnonzero randomizer List.mem_cons_self), ok_bind,
            ih hnodup hrest (fun r hr => hnonzero r (List.mem_cons_of_mem _ hr))
              (Nat.succ.inj hlength)]
          rfl

theorem randomNonZeroRistrettoScalar_ne_zero {draws rest : List ℕ} {randomizer : ZMod q}
    (h : randomNonZeroRistrettoScalar q draws = some (randomizer, rest)) : randomizer ≠ 0 := by
  induction draws with
  | nil => cases h
  | cons candidate draws ih =>
      unfold randomNonZeroRistrettoScalar at h
      split at h
      next hrange =>
        cases h
        rw [Ne, ZMod.natCast_eq_zero_iff]
        exact Nat.not_dvd_of_pos_of_lt hrange.1 hrange.2
      next => exact ih h

theorem drawRandomizers_eq_some {count : ℕ} {draws rest : List ℕ} {randomizers : List (ZMod q)}
    (h : drawRandomizers q count draws = some (randomizers, rest)) :
    randomizers.length = count ∧ ∀ randomizer ∈ randomizers, randomizer ≠ 0 := by
  induction count generalizing draws rest randomizers with
  | zero =>
      cases h
      exact ⟨rfl, by simp⟩
  | succ count ih =>
      unfold drawRandomizers at h
      obtain ⟨⟨randomizer, draws'⟩, hfirst, h⟩ := Option.bind_eq_some_iff.1 h
      obtain ⟨⟨others, draws''⟩, hothers, h⟩ := Option.bind_eq_some_iff.1 h
      cases h
      obtain ⟨hlength, hnonzero⟩ := ih hothers
      refine ⟨by rw [List.length_cons, hlength], fun other hother => ?_⟩
      rcases List.mem_cons.1 hother with rfl | hother
      · exact randomNonZeroRistrettoScalar_ne_zero hfirst
      · exact hnonzero other hother

/-- What is drawn is a permutation of the positions, and a scalar other than zero for each. -/
theorem drawWitness_drawn {size : ℕ} {source : List Fill} {draws : List ℕ}
    {witness : DeckShuffleWitness q} (h : drawWitness q size source draws = .ok (some witness)) :
    witness.Drawn size := by
  unfold drawWitness at h
  obtain ⟨drawn, hpermutation, h⟩ := bind_eq_ok.1 h
  cases drawn with
  | none => cases h
  | some drawn =>
      obtain ⟨permutation, source'⟩ := drawn
      obtain ⟨⟨randomizers, draws'⟩, hrandomizers, rfl⟩ := Option.map_eq_some_iff.1 (Except.ok.inj h)
      obtain ⟨hlength, hnonzero⟩ := drawRandomizers_eq_some hrandomizers
      unfold randomPermutation at hpermutation
      obtain ⟨-, hpermutation⟩ := check_bind_eq_ok.1 hpermutation
      obtain ⟨numbers, -, hnumbers, hresult⟩ := shuffleFrom_eq_ok hpermutation
      refine ⟨?_, hlength, hnonzero⟩
      rw [← hresult]
      exact (bijOn_permutationOf size).mapsTo (drawsBelow_iff.2 hnumbers)

/-- The rows that were masked are the rows that are proved. -/
theorem rowsOk_of_remaskPermuted {statement : Backend.Statement G} {before outputs : List (MaskedCard G)}
    {positions : List ℕ} {randomizers : List (ZMod q)}
    (hlength : randomizers.length = positions.length) (hlt : ∀ position ∈ positions, position < 36)
    (hnonzero : ∀ randomizer ∈ randomizers, randomizer ≠ 0)
    (houtput : statement.output = before ++ outputs)
    (h : remaskPermuted P statement.input statement.key positions randomizers = .ok outputs) :
    Backend.RowsOk P statement before.length (positions.map UInt8.ofNat) randomizers := by
  induction positions generalizing before outputs randomizers with
  | nil =>
      rw [List.length_eq_zero_iff.1 hlength]
      exact .nil
  | cons position positions ih =>
      cases randomizers with
      | nil => cases hlength
      | cons randomizer randomizers =>
          have hbyte : (UInt8.ofNat position).toNat = position := by
            have := hlt position List.mem_cons_self
            rw [UInt8.toNat_ofNat']
            exact Nat.mod_eq_of_lt (by omega)
          unfold remaskPermuted at h
          cases hcard : statement.input[position]? with
          | none =>
              rw [hcard] at h
              cases h
          | some card =>
              rw [hcard] at h
              obtain ⟨output, hremask, h⟩ := bind_eq_ok.1 h
              obtain ⟨others, hothers, h⟩ := bind_eq_ok.1 h
              cases h
              unfold remaskCard at hremask
              obtain ⟨-, hremask⟩ := check_bind_eq_ok.1 hremask
              cases hremask
              have hsplit : statement.output = (before ++ [⟨card.A + randomizer • P.base,
                  card.B + randomizer • statement.key⟩]) ++ others := by
                rw [houtput, List.append_assoc, List.singleton_append]
              have hrest := ih (Nat.succ.inj hlength) (fun p hp => hlt p (List.mem_cons_of_mem _ hp))
                (fun r hr => hnonzero r (List.mem_cons_of_mem _ hr)) hsplit hothers
              rw [List.length_append, List.length_singleton] at hrest
              refine .cons ⟨hnonzero randomizer List.mem_cons_self, card, _, ?_, ?_, rfl⟩ hrest
              · rw [hbyte, hcard]
              · rw [houtput, List.getElem?_append_right le_rfl, Nat.sub_self]
                rfl

theorem map_toNat_ofNat {positions : List ℕ} (h : ∀ position ∈ positions, position < 2 ^ 8) :
    (positions.map UInt8.ofNat).map UInt8.toNat = positions := by
  rw [List.map_map]
  refine (List.map_congr_left fun position hposition => ?_).trans (List.map_id _)
  rw [Function.comp_apply, UInt8.toNat_ofNat', Nat.mod_eq_of_lt (h position hposition)]
  rfl

/-- The statement that is sent for a prepared shuffle. -/
def UnprovenDeckShuffle.statement (shuffle : UnprovenDeckShuffle q G) (gameId : GameId)
    (round seat : ℕ) (rosterHash : Hash256) : CandidateShuffleStatement36 G :=
  ⟨gameId, round, seat, rosterHash, shuffle.aggregateKey, shuffle.inputDeck, shuffle.outputDeck⟩

theorem encodeCandidateShuffleStatement36_ok {P : Primitives q G} {value : CandidateShuffleStatement36 G}
    (hround : value.round ≤ MAX_SAFE_INTEGER) (hseat : value.seat ≤ 3) (hkey : value.aggregateKey ≠ 0)
    (hinput : value.inputDeck.length = 36) (houtput : value.outputDeck.length = 36) :
    ∃ bytes, encodeCandidateShuffleStatement36 P value = .ok bytes := by
  unfold encodeCandidateShuffleStatement36
  rw [throwIf_neg (by omega), ok_bind, throwIf_neg hkey, ok_bind, packDeck_eq_ok.2 ⟨hinput, rfl⟩,
    ok_bind, packDeck_eq_ok.2 ⟨houtput, rfl⟩]
  exact ⟨_, rfl⟩

/-- A shuffle that was prepared is admitted. -/
theorem admitInputs_prepared (D : Dalek P) {deck : List (MaskedCard G)} {key : G}
    {witness : DeckShuffleWitness q} (hdeck : deck.length = 36) (hkey : key ≠ 0)
    (hdrawn : witness.Drawn 36) (gameId : GameId) (rosterHash : Hash256) {round seat : ℕ}
    (hround : round ≤ MAX_SAFE_INTEGER) (hseat : seat ≤ 3) :
    ∃ shuffle statement permutation randomizers read,
      createUnprovenDeckShuffle P deck key witness = .ok shuffle ∧
      encodeCandidateShuffleStatement36 P (shuffle.statement gameId round seat rosterHash) = .ok statement ∧
      encodeCandidateShuffleWitness36 P shuffle.witness = .ok (permutation, randomizers) ∧
      Backend.admitInputs D statement permutation randomizers = .ok (read, witness.randomizers) ∧
      read.candidate = shuffle.statement gameId round seat rosterHash := by
  have hpermutation : witness.permutation.length = 36 := by
    simpa using hdrawn.permutation.length_eq
  have hlt : ∀ position ∈ witness.permutation, position < 36 := fun position hposition =>
    List.mem_range.1 (hdrawn.permutation.subset hposition)
  have hlength : witness.randomizers.length = witness.permutation.length := by
    rw [hdrawn.randomizers, hpermutation]
  obtain ⟨outputs, houtputs, hcount⟩ := remaskPermuted_ok (P := P) hkey
    (fun position hposition => hdeck ▸ hlt position hposition) hdrawn.nonzero hlength
  have hshuffle : createUnprovenDeckShuffle P deck key witness = .ok ⟨key, deck, outputs, witness⟩ := by
    unfold createUnprovenDeckShuffle
    rw [throwIf_neg (by unfold MIN_DECK_SIZE MAX_DECK_SIZE; omega), ok_bind, throwIf_neg hkey,
      ok_bind, houtputs]
    rfl
  have hencoded : ∃ statement, encodeCandidateShuffleStatement36 P
      (UnprovenDeckShuffle.statement ⟨key, deck, outputs, witness⟩ gameId round seat rosterHash)
        = .ok statement :=
    encodeCandidateShuffleStatement36_ok hround hseat hkey hdeck (hcount.trans hpermutation)
  obtain ⟨statement, hstatement⟩ := hencoded
  obtain ⟨read, hread, hcandidate⟩ := (Backend.decode_eq_ok D).1
    (decodeCandidateShuffleStatement36_encode hstatement)
  have hinput : read.input = deck := congrArg CandidateShuffleStatement36.inputDeck hcandidate
  have houtput : read.output = outputs := congrArg CandidateShuffleStatement36.outputDeck hcandidate
  have haggregate : read.key = key := congrArg CandidateShuffleStatement36.aggregateKey hcandidate
  have hnodup : witness.permutation.Nodup := hdrawn.permutation.nodup_iff.2 List.nodup_range
  refine ⟨_, statement, witness.permutation.map UInt8.ofNat,
    witness.randomizers.flatMap fun randomizer => (P.scalarBytes randomizer).val, read, hshuffle,
    hstatement, ?_, ?_, hcandidate⟩
  · unfold encodeCandidateShuffleWitness36
    rw [throwIf_neg (by rw [hpermutation, hdrawn.randomizers]; omega), ok_bind]
    exact witnessRows_eq hnodup (fun position hposition => ⟨hlt position hposition, by simp⟩)
      hdrawn.nonzero hlength
  · have hbytes : (witness.permutation.map UInt8.ofNat).map UInt8.toNat = witness.permutation :=
      map_toNat_ofNat fun position hposition => (hlt position hposition).trans (by norm_num)
    refine (Backend.admitInputs_eq_ok D).2 ⟨hread, ?_, ?_, ?_, rfl, ?_⟩
    · rw [List.length_map, hpermutation]
    · rw [hbytes]
      exact hnodup
    · intro byte hbyte
      exact hlt _ (hbytes ▸ List.mem_map_of_mem hbyte)
    · exact rowsOk_of_remaskPermuted hlength hlt hdrawn.nonzero (List.nil_append _).symm
        (by rw [hinput, haggregate, houtput]; exact houtputs)

/-- The two sides of the shuffle agree on the wire.  Their decoders of statements accept the same
bytes and read the same from them; their proof codecs accept the same strings, and the backend's two
directions are inverse.  A shuffle that is prepared from a deck of 36 cards is encoded, and admitted
by the prover with its own masks.  What is admitted is a permutation with a mask other than zero for
each card, and takes the input deck to the output deck. -/
theorem shuffle_wire_agrees (P : Primitives q G) (D : Dalek P) :
    (∀ bytes statement, decodeCandidateShuffleStatement36 P bytes = .ok statement ↔
      ∃ read, Backend.Statement.decode D bytes = .ok read ∧ read.candidate = statement) ∧
    (∀ wire, (∃ elements, decodeCandidateShuffleProof36 P wire = .ok elements) ↔
      ∃ ark, Backend.to_ark D wire = .ok ark) ∧
    (∀ wire ark, Backend.to_wire D ark = .ok wire ↔ Backend.to_ark D wire = .ok ark) ∧
    (∀ (deck : List (MaskedCard G)) key source draws witness gameId rosterHash round seat,
      deck.length = 36 → key ≠ 0 → drawWitness q deck.length source draws = .ok (some witness) →
      round ≤ MAX_SAFE_INTEGER → seat ≤ 3 →
      ∃ shuffle statement permutation randomizers read,
        createUnprovenDeckShuffle P deck key witness = .ok shuffle ∧
        encodeCandidateShuffleStatement36 P (shuffle.statement gameId round seat rosterHash)
          = .ok statement ∧
        encodeCandidateShuffleWitness36 P shuffle.witness = .ok (permutation, randomizers) ∧
        Backend.admitInputs D statement permutation randomizers = .ok (read, witness.randomizers) ∧
        read.candidate = shuffle.statement gameId round seat rosterHash) ∧
    ∀ encoded permutation randomizers statement masks,
      Backend.admitInputs D encoded permutation randomizers = .ok (statement, masks) →
        Backend.Statement.decode D encoded = .ok statement ∧
        (permutation.map UInt8.toNat).Perm (List.range 36) ∧
        randomizers = masks.flatMap (fun mask => (P.scalarBytes mask).val) ∧ masks.length = 36 ∧
        ∀ (j : ℕ) position mask, permutation[j]? = some position → masks[j]? = some mask →
          mask ≠ 0 ∧ ∃ input, statement.input[position.toNat]? = some input ∧
            statement.output[j]? =
              some ⟨input.A + mask • P.base, input.B + mask • statement.key⟩ := by
  refine ⟨fun bytes statement => Backend.decode_eq_ok D, fun wire => ?_,
    fun wire ark => ?_, ?_, ?_⟩
  · constructor
    · rintro ⟨elements, helements⟩
      obtain ⟨hvalid, hwire⟩ := Backend.decodeProof_eq_ok.1 helements
      exact ⟨_, (Backend.to_ark_eq_ok D).2 ⟨elements, hvalid, hwire, rfl⟩⟩
    · rintro ⟨ark, hark⟩
      obtain ⟨elements, hvalid, hwire, -⟩ := (Backend.to_ark_eq_ok D).1 hark
      exact ⟨elements, Backend.decodeProof_eq_ok.2 ⟨hvalid, hwire⟩⟩
  · rw [Backend.to_wire_eq_ok, Backend.to_ark_eq_ok]
    exact exists_congr fun elements => and_congr_right fun _ => and_comm
  · intro deck key source draws witness gameId rosterHash round seat hdeck hkey hdraws hround hseat
    exact admitInputs_prepared D hdeck hkey (hdeck ▸ drawWitness_drawn hdraws) gameId rosterHash hround hseat
  · intro encoded permutation randomizers statement masks h
    obtain ⟨hdecoded, hlength, hnodup, hall, hrandomizers, hrows⟩ := (Backend.admitInputs_eq_ok D).1 h
    refine ⟨hdecoded, ?_, hrandomizers, hrows.length_eq.trans hlength, ?_⟩
    · refine List.Subperm.perm_of_length_le (hnodup.subperm fun position hposition => ?_) ?_
      · obtain ⟨byte, hbyte, rfl⟩ := List.mem_map.1 hposition
        exact List.mem_range.2 (hall byte hbyte)
      · rw [List.length_map, List.length_range, hlength]
    · intro j position mask hposition hmask
      obtain ⟨hnonzero, input, output, hinput, houtput, rfl⟩ := hrows.row hposition hmask
      rw [Nat.zero_add] at houtput
      exact ⟨hnonzero, input, hinput, houtput⟩

end

end Tablefolk
