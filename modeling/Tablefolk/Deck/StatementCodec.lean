import Tablefolk.Deck.Statement

/-!
# The statement codec is exact

The decoder of `deck/shuffle-statement.ts` against its encoder, in the other direction, and once
more with the cursor that the source has.

Each part of the decoder that returns has read what the encoder would have written for the value
it returns: a number in its shortest form, a byte string with its head, a point in its only
encoding.  So the byte strings that are decoded are the ones that were encoded.

The decoder with the cursor reads `bytes[offset++]`, which past the end is not a byte.  Every
such read lies before the end, as the length was checked first.

* `exactBytes_eq_ok`, `fixedBytes_eq_ok`, `readRound_eq_ok`, `readSeat_eq_ok`, `unpackDeck_eq_ok`:
  what a part of the decoder has read.
* `decodeCandidateShuffleStatement36_eq_ok`: what was decoded is what was encoded.
* `decodeAt_eq`: the decoder with the cursor never reads past the end.
-/

namespace Tablefolk

section

variable {q : ℕ} {G : Type} [AddCommGroup G] [Module (ZMod q) G] {P : Primitives q G}

/-! ## What a part of the decoder has read -/

theorem exactBytes_eq_ok {expected bytes rest : List UInt8} :
    exactBytes expected bytes = .ok rest ↔ bytes = expected ++ rest := by
  constructor
  · intro h
    unfold exactBytes at h
    obtain ⟨htake, hdrop⟩ := check_bind_eq_ok.1 h
    rw [throwIf_eq_ok, not_not] at htake
    cases hdrop
    calc bytes = bytes.take expected.length ++ bytes.drop expected.length :=
          (List.take_append_drop _ _).symm
      _ = expected ++ bytes.drop expected.length := by rw [htake]
  · intro h
    rw [h]
    exact exactBytes_append expected rest

theorem parseFixedBytes_eq_some {size : ℕ} {bytes : List UInt8} {fixed : FixedBytes size} :
    parseFixedBytes size bytes = some fixed ↔ bytes = fixed.val := by
  constructor
  · intro h
    unfold parseFixedBytes at h
    split at h
    · cases h
      rfl
    · cases h
  · intro h
    rw [h]
    exact parseFixedBytes_val fixed

theorem fixedBytes_eq_ok {size : ℕ} {bytes rest : List UInt8} {fixed : FixedBytes size} :
    fixedBytes size bytes = .ok (fixed, rest) ↔ bytes = cborBytes fixed.val ++ rest := by
  constructor
  · intro h
    unfold fixedBytes at h
    obtain ⟨after, hafter, h⟩ := bind_eq_ok.1 h
    have hbytes := exactBytes_eq_ok.1 hafter
    cases hparse : parseFixedBytes size (after.take size) with
    | none =>
        rw [hparse] at h
        cases h
    | some read =>
        rw [hparse] at h
        cases h
        have hread := parseFixedBytes_eq_some.1 hparse
        rw [hbytes, cborBytes, fixed.property, List.append_assoc, ← hread, List.take_append_drop]
  · intro h
    rw [h]
    exact fixedBytes_append fixed rest

/-- The head of a number that takes a width of its own. -/
theorem cborHead_wide {tag : UInt8} {count value : ℕ} (hwidth : roundWidth tag.toNat = count)
    (hcount : count ≠ 0) (hlt : value < 256 ^ count) (hmin : roundMinimum count ≤ value) :
    cborHead 0 value = tag :: bigEndian count value := by
  have htag : tag = UInt8.ofNat tag.toNat := UInt8.ofNat_toNat.symm
  unfold roundWidth at hwidth
  unfold cborHead
  split_ifs at hwidth with h1 h2 h4 h8
  · subst hwidth
    have hleast : 24 ≤ value := hmin
    rw [htag, h1, if_neg (by omega), if_pos (by omega)]
  · subst hwidth
    have hleast : 256 ≤ value := hmin
    rw [htag, h2, if_neg (by omega), if_neg (by omega), if_pos (by omega)]
  · subst hwidth
    have hleast : 65536 ≤ value := hmin
    rw [htag, h4, if_neg (by omega), if_neg (by omega), if_neg (by omega), if_pos (by omega)]
  · subst hwidth
    have hleast : 4294967296 ≤ value := hmin
    rw [htag, h8, if_neg (by omega), if_neg (by omega), if_neg (by omega), if_neg (by omega)]
  · exact absurd hwidth.symm hcount

theorem readRound_eq_ok {bytes rest : List UInt8} {round : ℕ} :
    readRound bytes = .ok (round, rest) ↔
      round ≤ MAX_SAFE_INTEGER ∧ bytes = cborHead 0 round ++ rest := by
  constructor
  · intro h
    cases bytes with
    | nil => cases h
    | cons tag after =>
        rw [readRound] at h
        by_cases hshort : tag.toNat < 24
        · rw [if_pos hshort] at h
          cases h
          refine ⟨hshort.le.trans (by decide), ?_⟩
          rw [cborHead, if_pos hshort, Nat.zero_mul, Nat.zero_add, UInt8.ofNat_toNat]
          rfl
        · rw [if_neg hshort] at h
          simp only at h
          obtain ⟨hleft, h⟩ := check_bind_eq_ok.1 h
          obtain ⟨hvalue, h⟩ := check_bind_eq_ok.1 h
          rw [throwIf_eq_ok, not_or, not_lt] at hleft hvalue
          rw [not_lt] at hvalue
          cases h
          refine ⟨hvalue.2, ?_⟩
          have htake : (after.take (roundWidth tag.toNat)).length = roundWidth tag.toNat :=
            List.length_take_of_le hleft.2
          have hlt := ofBigEndian_lt (after.take (roundWidth tag.toNat))
          rw [htake] at hlt
          have hbytes := bigEndian_ofBigEndian (after.take (roundWidth tag.toNat))
          rw [htake] at hbytes
          rw [cborHead_wide rfl hleft.1 hlt hvalue.1, hbytes, List.cons_append,
            List.take_append_drop]
  · rintro ⟨hround, rfl⟩
    exact readRound_append hround rest

theorem readSeat_eq_ok {bytes rest : List UInt8} {seat : ℕ} :
    readSeat bytes = .ok (seat, rest) ↔ seat ≤ 3 ∧ bytes = cborHead 0 seat ++ rest := by
  constructor
  · intro h
    cases bytes with
    | nil => cases h
    | cons byte after =>
        rw [readSeat] at h
        obtain ⟨hseat, h⟩ := check_bind_eq_ok.1 h
        rw [throwIf_eq_ok, not_lt] at hseat
        cases h
        refine ⟨hseat, ?_⟩
        rw [cborHead, if_pos (by omega), Nat.zero_mul, Nat.zero_add, UInt8.ofNat_toNat]
        rfl
  · rintro ⟨hseat, rfl⟩
    exact readSeat_append hseat rest

theorem readPoint_eq_ok {bytes : List UInt8} {point : G} :
    readPoint P bytes = .ok point ↔ bytes = (P.pointBytes point).val := by
  constructor
  · intro h
    unfold readPoint at h
    cases hread : (parseFixedBytes 32 bytes).bind P.pointOfBytes with
    | none =>
        rw [hread] at h
        cases h
    | some read =>
        rw [hread] at h
        cases h
        obtain ⟨fixed, hfixed, hpoint⟩ := Option.bind_eq_some_iff.1 hread
        rw [(P.pointOfBytes_eq _ _).1 hpoint]
        exact parseFixedBytes_eq_some.1 hfixed
  · intro h
    rw [h]
    exact readPoint_pointBytes point

/-- The cards of a deck, one after the other. -/
theorem unpackDeck_eq_ok {count : ℕ} {bytes : List UInt8} {deck : List (MaskedCard G)}
    (h : unpackDeck P count bytes = .ok deck) (hlength : bytes.length = 64 * count) :
    deck.length = count ∧
      bytes = deck.flatMap fun card => (P.pointBytes card.A).val ++ (P.pointBytes card.B).val := by
  induction count generalizing bytes deck with
  | zero =>
      cases h
      exact ⟨rfl, List.eq_nil_of_length_eq_zero hlength⟩
  | succ count ih =>
      rw [unpackDeck] at h
      obtain ⟨A, hA, h⟩ := bind_eq_ok.1 h
      obtain ⟨B, hB, h⟩ := bind_eq_ok.1 h
      obtain ⟨cards, hcards, h⟩ := bind_eq_ok.1 h
      cases h
      obtain ⟨hcount, hbytes⟩ := ih hcards (by rw [List.length_drop]; omega)
      refine ⟨by rw [List.length_cons, hcount], ?_⟩
      have hdrop : (bytes.drop 32).drop 32 = bytes.drop 64 := by rw [List.drop_drop]
      rw [List.flatMap_cons, ← hbytes, ← readPoint_eq_ok.1 hA, ← readPoint_eq_ok.1 hB,
        List.append_assoc, ← hdrop, List.take_append_drop, List.take_append_drop]

theorem unpackDeck_fixed {fixed : FixedBytes 2304} {deck : List (MaskedCard G)}
    (h : unpackDeck P 36 fixed.val = .ok deck) : packDeck P deck = .ok fixed.val :=
  packDeck_eq_ok.2 (unpackDeck_eq_ok h fixed.property)

/-! ## What was decoded is what was encoded -/

/-- A statement that can be encoded. -/
structure CandidateShuffleStatement36.Valid (value : CandidateShuffleStatement36 G) : Prop where
  round : value.round ≤ MAX_SAFE_INTEGER
  seat : value.seat ≤ 3
  key : value.aggregateKey ≠ 0
  inputDeck : value.inputDeck.length = 36
  outputDeck : value.outputDeck.length = 36

variable [DecidableEq G]

theorem encodeCandidateShuffleStatement36_valid {value : CandidateShuffleStatement36 G} :
    (∃ bytes, encodeCandidateShuffleStatement36 P value = .ok bytes) ↔ value.Valid := by
  unfold encodeCandidateShuffleStatement36
  constructor
  · rintro ⟨bytes, h⟩
    obtain ⟨hrange, h⟩ := check_bind_eq_ok.1 h
    obtain ⟨hkey, h⟩ := check_bind_eq_ok.1 h
    obtain ⟨input, hinput, h⟩ := bind_eq_ok.1 h
    obtain ⟨output, houtput, h⟩ := bind_eq_ok.1 h
    rw [throwIf_eq_ok, not_or, not_lt, not_lt] at hrange
    rw [throwIf_eq_ok] at hkey
    exact ⟨hrange.1, hrange.2, hkey, (packDeck_eq_ok.1 hinput).1, (packDeck_eq_ok.1 houtput).1⟩
  · intro h
    have hrange : ¬ (MAX_SAFE_INTEGER < value.round ∨ 3 < value.seat) :=
      not_or.2 ⟨h.round.not_gt, h.seat.not_gt⟩
    rw [throwIf_neg hrange, ok_bind, throwIf_neg h.key, ok_bind,
      packDeck_eq_ok.2 ⟨h.inputDeck, rfl⟩, ok_bind, packDeck_eq_ok.2 ⟨h.outputDeck, rfl⟩]
    exact ⟨_, rfl⟩

/-- What was decoded is what was encoded. -/
theorem decodeCandidateShuffleStatement36_eq_ok {value : CandidateShuffleStatement36 G}
    {bytes : List UInt8} :
    decodeCandidateShuffleStatement36 P bytes = .ok value ↔
      encodeCandidateShuffleStatement36 P value = .ok bytes := by
  refine ⟨fun h => ?_, decodeCandidateShuffleStatement36_encode⟩
  unfold decodeCandidateShuffleStatement36 at h
  obtain ⟨-, h⟩ := check_bind_eq_ok.1 h
  obtain ⟨rest, hheader, h⟩ := bind_eq_ok.1 h
  obtain ⟨⟨gameId, rest⟩, hgame, h⟩ := bind_eq_ok.1 h
  obtain ⟨⟨round, rest⟩, hround, h⟩ := bind_eq_ok.1 h
  obtain ⟨⟨seat, rest⟩, hseat, h⟩ := bind_eq_ok.1 h
  obtain ⟨⟨rosterHash, rest⟩, hroster, h⟩ := bind_eq_ok.1 h
  obtain ⟨⟨key, rest⟩, hkey, h⟩ := bind_eq_ok.1 h
  obtain ⟨aggregateKey, hpoint, h⟩ := bind_eq_ok.1 h
  obtain ⟨hidentity, h⟩ := check_bind_eq_ok.1 h
  obtain ⟨⟨input, rest⟩, hinput, h⟩ := bind_eq_ok.1 h
  obtain ⟨inputDeck, hinputDeck, h⟩ := bind_eq_ok.1 h
  obtain ⟨⟨output, rest⟩, houtput, h⟩ := bind_eq_ok.1 h
  obtain ⟨outputDeck, houtputDeck, h⟩ := bind_eq_ok.1 h
  obtain ⟨hend, h⟩ := check_bind_eq_ok.1 h
  rw [throwIf_eq_ok] at hidentity
  rw [throwIf_eq_ok, not_not] at hend
  cases h
  simp only at *
  have hround' := readRound_eq_ok.1 hround
  have hseat' := readSeat_eq_ok.1 hseat
  have hrange : ¬ (MAX_SAFE_INTEGER < round ∨ 3 < seat) :=
    not_or.2 ⟨hround'.1.not_gt, hseat'.1.not_gt⟩
  unfold encodeCandidateShuffleStatement36
  rw [throwIf_neg hrange, ok_bind, throwIf_neg hidentity, ok_bind, unpackDeck_fixed hinputDeck,
    ok_bind, unpackDeck_fixed houtputDeck, ok_bind, exactBytes_eq_ok.1 hheader,
    fixedBytes_eq_ok.1 hgame, hround'.2, hseat'.2, fixedBytes_eq_ok.1 hroster,
    fixedBytes_eq_ok.1 hkey, readPoint_eq_ok.1 hpoint, fixedBytes_eq_ok.1 hinput,
    fixedBytes_eq_ok.1 houtput, hend]
  simp only [except_pure_eq, List.append_assoc, List.append_nil]

/-! ## The decoder with its cursor -/

/-- What ends a decoder with a cursor: an error of its own, or a read past the end. -/
inductive CursorError where
  | pastEnd
  | thrown (error : ShuffleCodecError)
  deriving DecidableEq

/-- A computation that moves `offset`. -/
abbrev Cursor := StateT ℕ (Except CursorError)

omit [AddCommGroup G] [Module (ZMod q) G] [DecidableEq G] in
/-- A computation without the cursor. -/
def Cursor.lift {α : Type} (x : Except ShuffleCodecError α) : Cursor α := fun offset =>
  match x with
  | .ok a => .ok (a, offset)
  | .error error => .error (.thrown error)

/-- `throw`. -/
def Cursor.fail {α : Type} (message : String) : Cursor α := fun _ => .error (.thrown (.error message))

/-- `bytes[offset++]`. -/
def byteAt (bytes : List UInt8) : Cursor UInt8 := fun offset =>
  match bytes[offset]? with
  | some byte => .ok (byte, offset + 1)
  | none => .error .pastEnd

/-- The loop of `exact`. -/
def exactAt (bytes : List UInt8) : List UInt8 → Cursor Unit
  | [] => return ()
  | expected :: rest => do
      let byte ← byteAt bytes
      if byte ≠ expected then Cursor.fail "Invalid shuffle statement header"
      else exactAt bytes rest

/-- `fixed`. -/
def fixedAt (bytes : List UInt8) (size : ℕ) : Cursor (FixedBytes size) := do
  exactAt bytes (cborHead 2 size)
  let offset ← get
  set (offset + size)
  match parseFixedBytes size ((bytes.drop offset).take size) with
  | some fixed => return fixed
  | none => Cursor.fail "Truncated shuffle statement"

/-- The loop over the bytes of a round. -/
def wideAt (bytes : List UInt8) : ℕ → ℕ → Cursor ℕ
  | 0, wide => return wide
  | count + 1, wide => do
      let byte ← byteAt bytes
      wideAt bytes count (wide * 256 + byte.toNat)

/-- The round. -/
def roundAt (bytes : List UInt8) : Cursor ℕ := do
  let tag ← byteAt bytes
  if tag.toNat < 24 then return tag.toNat
  else if roundWidth tag.toNat = 0 then Cursor.fail "Invalid shuffle round encoding"
  else do
    let wide ← wideAt bytes (roundWidth tag.toNat) 0
    if wide < roundMinimum (roundWidth tag.toNat) ∨ MAX_SAFE_INTEGER < wide then
      Cursor.fail "Noncanonical shuffle round"
    else return wide

/-- The seat. -/
def seatAt (bytes : List UInt8) : Cursor ℕ := do
  let seat ← byteAt bytes
  if 3 < seat.toNat then Cursor.fail "Invalid shuffle seat" else return seat.toNat

variable (P) in
/-- `decodeCandidateShuffleStatement36`, with its cursor. -/
def decodeAt (bytes : List UInt8) : Cursor (CandidateShuffleStatement36 G) := do
  Cursor.lift (throwIf (bytes.length < MIN_CANDIDATE_SHUFFLE_STATEMENT_BYTES ∨
    MAX_CANDIDATE_SHUFFLE_STATEMENT_BYTES < bytes.length)
    (.error "Invalid shuffle statement byte length"))
  exactAt bytes statementHeader
  let gameId ← fixedAt bytes 16
  let round ← roundAt bytes
  let seat ← seatAt bytes
  let rosterHash ← fixedAt bytes 32
  let key ← fixedAt bytes 32
  let aggregateKey ← Cursor.lift (readPoint P key.val)
  Cursor.lift (throwIf (aggregateKey = 0) (.error "Identity shuffle key"))
  let input ← fixedAt bytes 2304
  let inputDeck ← Cursor.lift (unpackDeck P 36 input.val)
  let output ← fixedAt bytes 2304
  let outputDeck ← Cursor.lift (unpackDeck P 36 output.val)
  let offset ← get
  Cursor.lift (throwIf (offset ≠ bytes.length) (.error "Trailing shuffle statement bytes"))
  return ⟨gameId, round, seat, rosterHash, aggregateKey, inputDeck, outputDeck⟩

/-! ## No read past the end -/

section

omit [AddCommGroup G] [Module (ZMod q) G] [DecidableEq G]

variable {α β γ δ : Type} {bytes : List UInt8}

/-- Both throw the same error, or both return and what they return is related.  A read past the
end is related to nothing. -/
inductive SameRead (R : α → ℕ → β → Prop) :
    Except CursorError (α × ℕ) → Except ShuffleCodecError β → Prop
  | reads {a : α} {offset : ℕ} {b : β} (h : R a offset b) : SameRead R (.ok (a, offset)) (.ok b)
  | throws (error : ShuffleCodecError) : SameRead R (.error (.thrown error)) (.error error)

theorem SameRead.bind {R : α → ℕ → β → Prop} {S : γ → ℕ → δ → Prop} {x : Cursor α}
    {y : Except ShuffleCodecError β} {f : α → Cursor γ} {g : β → Except ShuffleCodecError δ}
    {offset : ℕ} (h : SameRead R (x offset) y)
    (hnext : ∀ a offset' b, R a offset' b → SameRead S (f a offset') (g b)) :
    SameRead S ((x >>= f) offset) (y >>= g) := by
  change SameRead S (x offset >>= fun next => f next.1 next.2) (y >>= g)
  generalize x offset = read at h
  cases h with
  | reads h => exact hnext _ _ _ h
  | throws error => exact .throws error

/-- A computation without the cursor is the same in both. -/
theorem SameRead.lift {S : γ → ℕ → δ → Prop} {x : Except ShuffleCodecError α} {f : α → Cursor γ}
    {g : α → Except ShuffleCodecError δ} {offset : ℕ}
    (hnext : ∀ a, x = .ok a → SameRead S (f a offset) (g a)) :
    SameRead S ((Cursor.lift x >>= f) offset) (x >>= g) := by
  change SameRead S (Cursor.lift x offset >>= fun next => f next.1 next.2) (x >>= g)
  cases x with
  | ok a => exact hnext a rfl
  | error error => exact .throws error

/-- The cursor stands before these bytes, at most so far from the start. -/
structure StandsAt (bytes : List UInt8) (bound offset : ℕ) (rest : List UInt8) : Prop where
  drop : bytes.drop offset = rest
  bound : offset ≤ bound
  length : offset ≤ bytes.length

/-- The cursor has read a value and stands before the bytes that are left. -/
def ReadsTo (bytes : List UInt8) (bound : ℕ) (a : α) (offset : ℕ) (read : α × List UInt8) : Prop :=
  a = read.1 ∧ StandsAt bytes bound offset read.2

theorem byteAt_eq {offset : ℕ} {byte : UInt8} {rest : List UInt8}
    (h : bytes.drop offset = byte :: rest) : byteAt bytes offset = .ok (byte, offset + 1) := by
  have hbyte : bytes[offset]? = some byte := by
    rw [← List.head?_drop, h, List.head?_cons]
  simp only [byteAt, hbyte]

theorem drop_of_cons {offset : ℕ} {byte : UInt8} {rest : List UInt8}
    (h : bytes.drop offset = byte :: rest) :
    bytes.drop (offset + 1) = rest ∧ offset + 1 ≤ bytes.length := by
  have hlength := congrArg List.length h
  rw [List.length_drop, List.length_cons] at hlength
  refine ⟨?_, by omega⟩
  rw [← List.drop_drop, h, List.drop_one, List.tail_cons]

theorem exactBytes_cons (byte next : UInt8) (expected rest : List UInt8) :
    exactBytes (byte :: expected) (next :: rest) = if next ≠ byte then
      .error (.error "Invalid shuffle statement header") else exactBytes expected rest := by
  by_cases hbyte : next = byte
  · simp [exactBytes, throwIf, hbyte]
  · simp [exactBytes, throwIf, hbyte]

theorem sameRead_exactBytes {expected rest : List UInt8} {bound offset : ℕ}
    (h : StandsAt bytes bound offset rest) (hlength : expected.length ≤ rest.length) :
    SameRead (fun _ => StandsAt bytes (bound + expected.length))
      (exactAt bytes expected offset) (exactBytes expected rest) := by
  induction expected generalizing offset rest bound with
  | nil =>
      have hread : exactBytes [] rest = .ok rest := by simp [exactBytes, throwIf]
      rw [hread]
      exact .reads h
  | cons byte expected ih =>
      cases rest with
      | nil => simp at hlength
      | cons next rest =>
          obtain ⟨hdrop, hend⟩ := drop_of_cons h.drop
          have hbound := h.bound
          have hread : exactAt bytes (byte :: expected) offset = (if next ≠ byte then
              Cursor.fail "Invalid shuffle statement header" else exactAt bytes expected)
                (offset + 1) := by
            change byteAt bytes offset >>= _ = _
            rw [byteAt_eq h.drop]
            rfl
          have hnext : StandsAt bytes (bound + 1) (offset + 1) rest := ⟨hdrop, by omega, hend⟩
          rw [hread, exactBytes_cons]
          by_cases hbyte : next = byte
          · rw [if_neg (not_not.2 hbyte), if_neg (not_not.2 hbyte), List.length_cons,
              Nat.add_comm expected.length, ← Nat.add_assoc]
            exact ih hnext (by simpa using hlength)
          · rw [if_pos hbyte, if_pos hbyte]
            exact .throws _

theorem sameRead_fixedBytes {size head bound offset : ℕ} {rest : List UInt8}
    (hhead : (cborHead 2 size).length = head) (hsize : 0 < size)
    (h : StandsAt bytes bound offset rest) (hlength : head ≤ rest.length) :
    SameRead (ReadsTo bytes (bound + head + size)) (fixedAt bytes size offset)
      (fixedBytes size rest) := by
  subst hhead
  unfold fixedAt fixedBytes
  refine (sameRead_exactBytes h hlength).bind fun _ offset' rest' h' => ?_
  change SameRead _ ((match parseFixedBytes size ((bytes.drop offset').take size) with
    | some fixed => pure fixed
    | none => Cursor.fail "Truncated shuffle statement" : Cursor (FixedBytes size))
      (offset' + size)) _
  rw [h'.drop]
  cases hparse : parseFixedBytes size (rest'.take size) with
  | none => exact .throws _
  | some fixed =>
      have hbound := h'.bound
      have hfixed := congrArg List.length (parseFixedBytes_eq_some.1 hparse)
      have hrest := congrArg List.length h'.drop
      rw [fixed.property, List.length_take] at hfixed
      rw [List.length_drop] at hrest
      refine .reads ⟨rfl, ?_, by omega, by omega⟩
      rw [← List.drop_drop, h'.drop]

theorem wideAt_eq {count wide offset : ℕ} {rest : List UInt8} (h : bytes.drop offset = rest)
    (hcount : count ≤ rest.length) : wideAt bytes count wide offset =
      .ok ((rest.take count).foldl (fun wide byte => wide * 256 + byte.toNat) wide,
        offset + count) := by
  induction count generalizing wide offset rest with
  | zero => rfl
  | succ count ih =>
      cases rest with
      | nil => simp at hcount
      | cons byte rest =>
          obtain ⟨hdrop, -⟩ := drop_of_cons h
          rw [wideAt]
          change byteAt bytes offset >>= _ = _
          rw [byteAt_eq h, ok_bind, List.take_succ_cons, List.foldl_cons]
          refine (ih hdrop (by simpa using hcount)).trans ?_
          rw [Nat.add_assoc, Nat.add_comm 1]

theorem roundWidth_le (tag : ℕ) : roundWidth tag ≤ 8 := by
  unfold roundWidth
  split_ifs <;> omega

/-- The round and what follows it lie before the end. -/
theorem sameRead_readRound {bound offset : ℕ} {rest : List UInt8}
    (h : StandsAt bytes bound offset rest) (hlength : 9 ≤ rest.length) :
    SameRead (ReadsTo bytes (bound + 9)) (roundAt bytes offset) (readRound rest) := by
  cases rest with
  | nil => simp at hlength
  | cons tag rest =>
      obtain ⟨hdrop, hend⟩ := drop_of_cons h.drop
      have hbound := h.bound
      have hwidth := roundWidth_le tag.toNat
      rw [List.length_cons] at hlength
      rw [roundAt, readRound]
      change SameRead _ (byteAt bytes offset >>= _) _
      rw [byteAt_eq h.drop, ok_bind]
      by_cases hshort : tag.toNat < 24
      · simp only [if_pos hshort]
        exact .reads ⟨rfl, hdrop, by omega, hend⟩
      · simp only [if_neg hshort]
        by_cases hcount : roundWidth tag.toNat = 0
        · rw [if_pos hcount, throwIf_pos (.inl hcount)]
          exact .throws _
        · rw [if_neg hcount, throwIf_neg (not_or.2 ⟨hcount, by omega⟩), ok_bind]
          change SameRead _ (wideAt bytes _ 0 (offset + 1) >>= _) _
          rw [wideAt_eq hdrop (by omega), ok_bind]
          change SameRead _ ((if ofBigEndian (rest.take (roundWidth tag.toNat)) <
            roundMinimum (roundWidth tag.toNat) ∨
              MAX_SAFE_INTEGER < ofBigEndian (rest.take (roundWidth tag.toNat)) then _ else _ :
                Cursor ℕ) _) _
          have hdropped := congrArg List.length hdrop
          rw [List.length_drop] at hdropped
          by_cases hvalue : ofBigEndian (rest.take (roundWidth tag.toNat)) <
            roundMinimum (roundWidth tag.toNat) ∨
              MAX_SAFE_INTEGER < ofBigEndian (rest.take (roundWidth tag.toNat))
          · rw [if_pos hvalue, throwIf_pos hvalue]
            exact .throws _
          · rw [if_neg hvalue, throwIf_neg hvalue, ok_bind]
            refine .reads ⟨rfl, ?_, by omega, by omega⟩
            rw [← List.drop_drop, hdrop]

theorem sameRead_readSeat {bound offset : ℕ} {rest : List UInt8}
    (h : StandsAt bytes bound offset rest) (hlength : 1 ≤ rest.length) :
    SameRead (ReadsTo bytes (bound + 1)) (seatAt bytes offset) (readSeat rest) := by
  cases rest with
  | nil => simp at hlength
  | cons seat rest =>
      obtain ⟨hdrop, hend⟩ := drop_of_cons h.drop
      have hbound := h.bound
      rw [seatAt, readSeat]
      change SameRead _ (byteAt bytes offset >>= _) _
      rw [byteAt_eq h.drop, ok_bind]
      by_cases hseat : 3 < seat.toNat
      · simp only [if_pos hseat]
        rw [throwIf_pos hseat]
        exact .throws _
      · simp only [if_neg hseat]
        rw [throwIf_neg hseat, ok_bind]
        exact .reads ⟨rfl, hdrop, by omega, hend⟩

/-- What is left before the cursor, at least. -/
theorem StandsAt.length_rest {bound offset : ℕ} {rest : List UInt8}
    (h : StandsAt bytes bound offset rest) : bytes.length ≤ bound + rest.length := by
  have hbound := h.bound
  have hlength := congrArg List.length h.drop
  rw [List.length_drop] at hlength
  omega

end

/-- The decoder with the cursor is the decoder: none of its reads is past the end. -/
theorem decodeAt_eq (bytes : List UInt8) : (decodeAt P bytes 0).map Prod.fst
    = (decodeCandidateShuffleStatement36 P bytes).mapError CursorError.thrown := by
  have hsame : SameRead (fun a _ b => a = b) (decodeAt P bytes 0)
      (decodeCandidateShuffleStatement36 P bytes) := by
    unfold decodeAt decodeCandidateShuffleStatement36
    refine .lift fun _ hlength => ?_
    have hmin : statementHeader.length + 4701 ≤ bytes.length := by
      rw [throwIf_eq_ok, not_or, not_lt] at hlength
      unfold MIN_CANDIDATE_SHUFFLE_STATEMENT_BYTES at hlength
      omega
    clear hlength
    have hstart : StandsAt bytes 0 0 bytes := ⟨rfl, le_rfl, Nat.zero_le _⟩
    have h16 : (cborHead 2 16).length = 1 := rfl
    have h32 : (cborHead 2 32).length = 2 := rfl
    have h2304 : (cborHead 2 2304).length = 3 := rfl
    -- The bounds on the offset add up to less than the least length.
    generalize statementHeader = header at hmin ⊢
    refine (sameRead_exactBytes hstart (by omega)).bind fun _ _ _ hheader => ?_
    have hleft := hheader.length_rest
    refine (sameRead_fixedBytes h16 (by omega) hheader (by omega)).bind fun _ _ _ hgame => ?_
    obtain ⟨rfl, hgame⟩ := hgame
    have hleft := hgame.length_rest
    refine (sameRead_readRound hgame (by omega)).bind fun _ _ _ hround => ?_
    obtain ⟨rfl, hround⟩ := hround
    have hleft := hround.length_rest
    refine (sameRead_readSeat hround (by omega)).bind fun _ _ _ hseat => ?_
    obtain ⟨rfl, hseat⟩ := hseat
    have hleft := hseat.length_rest
    refine (sameRead_fixedBytes h32 (by omega) hseat (by omega)).bind fun _ _ _ hroster => ?_
    obtain ⟨rfl, hroster⟩ := hroster
    have hleft := hroster.length_rest
    refine (sameRead_fixedBytes h32 (by omega) hroster (by omega)).bind fun _ _ _ hkey => ?_
    obtain ⟨rfl, hkey⟩ := hkey
    have hleft := hkey.length_rest
    refine .lift fun aggregateKey _ => .lift fun _ _ => ?_
    refine (sameRead_fixedBytes h2304 (by omega) hkey (by omega)).bind fun _ _ _ hinput => ?_
    obtain ⟨rfl, hinput⟩ := hinput
    have hleft := hinput.length_rest
    refine .lift fun inputDeck _ => ?_
    refine (sameRead_fixedBytes h2304 (by omega) hinput (by omega)).bind
      fun _ offset ⟨_, rest⟩ houtput => ?_
    obtain ⟨rfl, houtput⟩ := houtput
    refine .lift fun outputDeck _ => ?_
    have hrest := congrArg List.length houtput.drop
    have hend := houtput.length
    simp only [List.length_drop] at hrest
    change SameRead _ ((Cursor.lift (throwIf (offset ≠ bytes.length) _) >>= fun _ => pure _) offset) _
    by_cases hoffset : offset = bytes.length
    · obtain rfl : rest = [] := List.eq_nil_of_length_eq_zero (by omega)
      rw [throwIf_neg (not_not.2 hoffset), throwIf_neg (not_not.2 rfl)]
      exact .reads rfl
    · have hne : rest ≠ [] := by
        rintro rfl
        rw [List.length_nil] at hrest
        omega
      rw [throwIf_pos hoffset, throwIf_pos hne]
      exact .throws _
  generalize decodeAt P bytes 0 = read at hsame ⊢
  generalize decodeCandidateShuffleStatement36 P bytes = decoded at hsame ⊢
  cases hsame with
  | reads h =>
      rw [h]
      rfl
  | throws error => rfl

/-- **The statement codec is exact.**  The decoder, with its cursor, returns a statement if and
only if the encoder returns these bytes for it; the encoder returns bytes for the valid statements,
with every round up to `2 ^ 53 - 1` in its shortest form; on all other bytes the decoder throws an
error of its own, and it never reads past the end. -/
theorem shuffle_statement_codec_exact :
    (∀ (bytes : List UInt8) (value : CandidateShuffleStatement36 G),
      (decodeAt P bytes 0).map Prod.fst = .ok value ↔
        encodeCandidateShuffleStatement36 P value = .ok bytes) ∧
    (∀ value : CandidateShuffleStatement36 G,
      (∃ bytes, encodeCandidateShuffleStatement36 P value = .ok bytes) ↔ value.Valid) ∧
    (∀ bytes : List UInt8,
      (¬ ∃ value : CandidateShuffleStatement36 G, value.Valid ∧
        encodeCandidateShuffleStatement36 P value = .ok bytes) →
      ∃ error, decodeAt P bytes 0 = .error (.thrown error)) ∧
    ∀ bytes : List UInt8, decodeAt P bytes 0 ≠ .error .pastEnd := by
  have hdecode : ∀ (bytes : List UInt8) (value : CandidateShuffleStatement36 G),
      (decodeAt P bytes 0).map Prod.fst = .ok value ↔
        encodeCandidateShuffleStatement36 P value = .ok bytes := by
    intro bytes value
    rw [decodeAt_eq, ← decodeCandidateShuffleStatement36_eq_ok]
    cases decodeCandidateShuffleStatement36 P bytes with
    | ok read => simp [Except.mapError]
    | error error => simp [Except.mapError]
  have hpast : ∀ bytes : List UInt8, decodeAt P bytes 0 ≠ .error .pastEnd := by
    intro bytes hread
    have hmap := decodeAt_eq (P := P) bytes
    rw [hread] at hmap
    cases hdecoded : decodeCandidateShuffleStatement36 P bytes with
    | ok read =>
        rw [hdecoded] at hmap
        cases hmap
    | error error =>
        rw [hdecoded] at hmap
        cases hmap
  refine ⟨hdecode, fun value => encodeCandidateShuffleStatement36_valid, fun bytes hnone => ?_, hpast⟩
  cases hread : decodeAt P bytes 0 with
  | ok read =>
      have hencode := (hdecode bytes read.1).1 (by rw [hread]; rfl)
      exact absurd ⟨read.1, encodeCandidateShuffleStatement36_valid.1 ⟨bytes, hencode⟩, hencode⟩ hnone
  | error error =>
      cases error with
      | pastEnd => exact absurd hread (hpast bytes)
      | thrown error => exact ⟨error, rfl⟩

end

end Tablefolk
