import Tablefolk.Engine.Setup

/-!
# Shuffles

The model of `deck/elgamal.ts` and `deck/shuffle.ts`: a deck is masked under the sum of the
seats' keys, and each shuffle permutes it and masks every card anew.

* `message`: what is under the mask once every seat's share is removed.  Masking anew
  keeps it (`message_remask`).
* `shuffleAll_message`: after any number of shuffles each position holds the message of the
  position that the composed permutation names.
-/

namespace Tablefolk

/-- What `createUnprovenDeckShuffle` throws. -/
inductive ShuffleError where
  | range (message : String)
  | type (message : String)
  deriving DecidableEq, Repr

/-- `DeckShuffleWitness`: output position `j` takes its card from `permutation[j]`. -/
structure DeckShuffleWitness (q : ℕ) where
  permutation : List ℕ
  randomizers : List (ZMod q)
  deriving DecidableEq

/-- `UnprovenDeckShuffle`. -/
structure UnprovenDeckShuffle (q : ℕ) (G : Type) where
  aggregateKey : G
  inputDeck : List (MaskedCard G)
  outputDeck : List (MaskedCard G)
  witness : DeckShuffleWitness q

section

variable {q : ℕ} {G : Type} [AddCommGroup G] [Module (ZMod q) G] [DecidableEq G]
  (P : Primitives q G)

omit [DecidableEq G] in
/-- `initialMaskedCard`. -/
def initialMaskedCard (message : G) : MaskedCard G := ⟨0, message⟩

/-- `requireMaskingInputs`. -/
def requireMaskingInputs (randomness : ZMod q) (aggregateKey : G) : Except ShuffleError Unit := do
  throwIf (randomness = 0) (ShuffleError.type "Fresh masking randomness must be non-zero")
  throwIf (aggregateKey = 0)
    (ShuffleError.type "Aggregate public key must not be the identity point")

/-- `remaskCard`. -/
def remaskCard (card : MaskedCard G) (randomness : ZMod q) (aggregateKey : G) :
    Except ShuffleError (MaskedCard G) := do
  requireMaskingInputs randomness aggregateKey
  return ⟨card.A + randomness • P.base, card.B + randomness • aggregateKey⟩

/-- The loop over the output positions. -/
def remaskPermuted (inputDeck : List (MaskedCard G)) (aggregateKey : G) :
    List ℕ → List (ZMod q) → Except ShuffleError (List (MaskedCard G))
  | inputPosition :: rest, randomizer :: randomizers =>
      match inputDeck[inputPosition]? with
      | none => throw (.type "No card at this position")
      | some card => do
          let output ← remaskCard P card randomizer aggregateKey
          let outputs ← remaskPermuted inputDeck aggregateKey rest randomizers
          return output :: outputs
  | _, _ => return []

/-- `createUnprovenDeckShuffle`; the witness is what it draws from the random source. -/
def createUnprovenDeckShuffle (deck : List (MaskedCard G)) (aggregateKey : G)
    (witness : DeckShuffleWitness q) : Except ShuffleError (UnprovenDeckShuffle q G) := do
  throwIf (deck.length < MIN_DECK_SIZE ∨ MAX_DECK_SIZE < deck.length)
    (ShuffleError.range "Shuffle input deck must contain 2 to 128 cards")
  throwIf (aggregateKey = 0)
    (ShuffleError.type "Shuffle aggregate key must not be the identity point")
  let outputDeck ← remaskPermuted P deck aggregateKey witness.permutation witness.randomizers
  return ⟨aggregateKey, deck, outputDeck, witness⟩

/-- One shuffle after another. -/
def shuffleAll (aggregateKey : G) (deck : List (MaskedCard G)) :
    List (DeckShuffleWitness q) → Except ShuffleError (List (MaskedCard G))
  | [] => return deck
  | witness :: rest => do
      let shuffle ← createUnprovenDeckShuffle P deck aggregateKey witness
      shuffleAll aggregateKey shuffle.outputDeck rest

/-- The deck before the first shuffle. -/
def CardPointTable.initialDeck (table : CardPointTable G) : List (MaskedCard G) :=
  table.cards.map fun card => initialMaskedCard card.2

/-- What the random source can give: a permutation of the positions, and a scalar other
than zero for each. -/
structure DeckShuffleWitness.Drawn (witness : DeckShuffleWitness q) (size : ℕ) : Prop where
  permutation : witness.permutation.Perm (List.range size)
  randomizers : witness.randomizers.length = size
  nonzero : ∀ randomizer ∈ witness.randomizers, randomizer ≠ 0

/-- Where the card at a position comes from, through all shuffles. -/
def composed : List (DeckShuffleWitness q) → ℕ → ℕ
  | [], position => position
  | witness :: rest, position => witness.permutation.getD (composed rest position) 0

variable {P}

/-! ## Composed permutations -/

theorem map_getD_range {l : List ℕ} {size : ℕ} (h : l.length = size) :
    (List.range size).map (fun position => l.getD position 0) = l := by
  subst h
  refine List.ext_getElem (by simp) fun position hlt hlt' => ?_
  simp [hlt']

/-- The composition is a permutation of the positions. -/
theorem composed_perm {witnesses : List (DeckShuffleWitness q)} {size : ℕ}
    (h : ∀ witness ∈ witnesses, witness.Drawn size) :
    ((List.range size).map (composed witnesses)).Perm (List.range size) := by
  induction witnesses with
  | nil => simp [composed]
  | cons witness rest ih =>
      have hperm := (h witness List.mem_cons_self).permutation
      have hrest := ih fun other hother => h other (List.mem_cons_of_mem _ hother)
      have hsplit : (List.range size).map (composed (witness :: rest)) =
          ((List.range size).map (composed rest)).map
            fun position => witness.permutation.getD position 0 := by
        rw [List.map_map]
        rfl
      rw [hsplit]
      refine (hrest.map _).trans ?_
      rw [map_getD_range (by simpa using hperm.length_eq)]
      exact hperm

theorem composed_lt {witnesses : List (DeckShuffleWitness q)} {size position : ℕ}
    (h : ∀ witness ∈ witnesses, witness.Drawn size) (hlt : position < size) :
    composed witnesses position < size :=
  List.mem_range.1 ((composed_perm h).subset (List.mem_map_of_mem (List.mem_range.2 hlt)))

/-! ## Messages -/

/-- What is under the mask: the card with the share of every seat removed. -/
def message (secrets : ℕ → ZMod q) (seats : ℕ) (card : MaskedCard G) : G :=
  card.B - ((List.range seats).map fun seat => secrets seat • card.A).sum

omit [DecidableEq G] in
theorem sum_smul (secrets : ℕ → ZMod q) (seats : List ℕ) (point : G) :
    (seats.map fun seat => secrets seat • point).sum = (seats.map secrets).sum • point := by
  induction seats with
  | nil => simp
  | cons seat rest ih => rw [List.map_cons, List.sum_cons, ih, List.map_cons, List.sum_cons, add_smul]

omit [DecidableEq G] in
theorem message_eq (secrets : ℕ → ZMod q) (seats : ℕ) (card : MaskedCard G) :
    message secrets seats card = card.B - ((List.range seats).map secrets).sum • card.A := by
  rw [message, sum_smul]

omit [DecidableEq G] in
theorem message_initial (secrets : ℕ → ZMod q) (seats : ℕ) (point : G) :
    message secrets seats (initialMaskedCard point) = point := by
  simp [message_eq, initialMaskedCard]

/-- **Masking anew keeps the message**, when the aggregate key is the sum of the seats' keys. -/
theorem message_remask {secrets : ℕ → ZMod q} {seats : ℕ} {card output : MaskedCard G}
    {randomness : ZMod q} {aggregateKey : G}
    (hkey : aggregateKey = ((List.range seats).map fun seat => secrets seat • P.base).sum)
    (h : remaskCard P card randomness aggregateKey = .ok output) :
    message secrets seats output = message secrets seats card := by
  unfold remaskCard at h
  rw [check_bind_eq_ok] at h
  obtain ⟨-, h⟩ := h
  cases h
  rw [sum_smul] at hkey
  simp only [message_eq, hkey, smul_add, smul_smul]
  rw [mul_comm randomness]
  abel

theorem remaskPermuted_eq_ok {inputDeck outputs : List (MaskedCard G)} {aggregateKey : G}
    {positions : List ℕ} {randomizers : List (ZMod q)} {secrets : ℕ → ZMod q} {seats : ℕ}
    (hkey : aggregateKey = ((List.range seats).map fun seat => secrets seat • P.base).sum)
    (hlen : randomizers.length = positions.length)
    (h : remaskPermuted P inputDeck aggregateKey positions randomizers = .ok outputs) :
    outputs.map (message secrets seats) = positions.map fun position =>
      ((inputDeck[position]?).map (message secrets seats)).getD 0 := by
  induction positions generalizing randomizers outputs with
  | nil =>
      cases randomizers with
      | nil =>
          cases h
          rfl
      | cons randomizer rest => cases hlen
  | cons position rest ih =>
      cases randomizers with
      | nil => cases hlen
      | cons randomizer randomizers =>
          unfold remaskPermuted at h
          cases hcard : inputDeck[position]? with
          | none =>
              rw [hcard] at h
              cases h
          | some card =>
              rw [hcard] at h
              obtain ⟨output, houtput, h⟩ := bind_eq_ok.1 h
              obtain ⟨others, hothers, h⟩ := bind_eq_ok.1 h
              cases h
              rw [List.map_cons, List.map_cons, ih (by simpa using hlen) hothers, hcard,
                message_remask hkey houtput]
              rfl

/-- **After any number of shuffles** each position holds the message of the position that
the composed permutation names. -/
theorem shuffleAll_message {witnesses : List (DeckShuffleWitness q)}
    {deck shuffled : List (MaskedCard G)} {aggregateKey : G} {secrets : ℕ → ZMod q} {seats : ℕ}
    (hkey : aggregateKey = ((List.range seats).map fun seat => secrets seat • P.base).sum)
    (hdrawn : ∀ witness ∈ witnesses, witness.Drawn deck.length)
    (h : shuffleAll P aggregateKey deck witnesses = .ok shuffled) :
    shuffled.length = deck.length ∧ ∀ position < deck.length,
      (shuffled[position]?).map (message secrets seats) =
        (deck[composed witnesses position]?).map (message secrets seats) := by
  induction witnesses generalizing deck with
  | nil =>
      cases h
      exact ⟨rfl, fun _ _ => rfl⟩
  | cons witness rest ih =>
      unfold shuffleAll at h
      obtain ⟨shuffle, hshuffle, h⟩ := bind_eq_ok.1 h
      unfold createUnprovenDeckShuffle at hshuffle
      rw [check_bind_eq_ok, check_bind_eq_ok] at hshuffle
      obtain ⟨-, -, hshuffle⟩ := hshuffle
      obtain ⟨output, houtput, hshuffle⟩ := bind_eq_ok.1 hshuffle
      cases hshuffle
      have hhere := hdrawn witness List.mem_cons_self
      have hpermLen : witness.permutation.length = deck.length := by
        simpa using hhere.permutation.length_eq
      have hmessages := remaskPermuted_eq_ok hkey
        (hhere.randomizers.trans hpermLen.symm) houtput
      have hlen : output.length = deck.length := by
        simpa [hpermLen] using congrArg List.length hmessages
      have hrest : ∀ other ∈ rest, other.Drawn output.length := fun other hother =>
        hlen ▸ hdrawn other (List.mem_cons_of_mem _ hother)
      obtain ⟨hshuffled, hpositions⟩ := ih hrest h
      refine ⟨hshuffled.trans hlen, fun position hlt => ?_⟩
      rw [hpositions position (hlen ▸ hlt), ← List.getElem?_map, hmessages, List.getElem?_map]
      have hfrom := composed_lt hrest (hlen ▸ hlt)
      have hfrom' : composed rest position < witness.permutation.length := by omega
      have hinput : witness.permutation[composed rest position] < deck.length :=
        List.mem_range.1 (hhere.permutation.subset (List.getElem_mem hfrom'))
      rw [List.getElem?_eq_getElem hfrom', Option.map_some, composed,
        List.getD_eq_getElem?_getD, List.getElem?_eq_getElem hfrom', Option.getD_some,
        List.getElem?_eq_getElem hinput]
      rfl

theorem remaskPermuted_ok {inputDeck : List (MaskedCard G)} {aggregateKey : G} {positions : List ℕ}
    {randomizers : List (ZMod q)} (hkey : aggregateKey ≠ 0)
    (hpositions : ∀ position ∈ positions, position < inputDeck.length)
    (hnonzero : ∀ randomizer ∈ randomizers, randomizer ≠ 0)
    (hlen : randomizers.length = positions.length) :
    ∃ outputs, remaskPermuted P inputDeck aggregateKey positions randomizers = .ok outputs ∧
      outputs.length = positions.length := by
  induction positions generalizing randomizers with
  | nil =>
      rw [List.length_eq_zero_iff.1 hlen]
      exact ⟨[], rfl, rfl⟩
  | cons position rest ih =>
      cases randomizers with
      | nil => cases hlen
      | cons randomizer others =>
          obtain ⟨outputs, houtputs, hcount⟩ := ih
            (fun p hp => hpositions p (List.mem_cons_of_mem _ hp))
            (fun r hr => hnonzero r (List.mem_cons_of_mem _ hr)) (by simpa using hlen)
          have hlt := hpositions position List.mem_cons_self
          have hcard : inputDeck[position]? = some (inputDeck.get ⟨position, hlt⟩) :=
            List.getElem?_eq_getElem hlt
          generalize inputDeck.get ⟨position, hlt⟩ = card at hcard
          refine ⟨⟨card.A + randomizer • P.base, card.B + randomizer • aggregateKey⟩ :: outputs, ?_,
            by simp [hcount]⟩
          unfold remaskPermuted remaskCard requireMaskingInputs
          rw [hcard]
          dsimp only
          rw [throwIf_neg (hnonzero randomizer List.mem_cons_self), ok_bind, throwIf_neg hkey,
            ok_bind, except_pure_eq, ok_bind, houtputs]
          rfl

end

end Tablefolk
