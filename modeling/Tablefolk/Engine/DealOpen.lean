import Tablefolk.Deck.Shuffle
import Tablefolk.Engine.TrueDeck
import Tablefolk.Session.SmallGroup

/-!
# Shuffle, deal and open

The masked deck of a round is the initial deck after any number of shuffles.  Then the
true card of a position is the card that the composed permutation names, a seat reads the
true cards of its positions, and those are the cards that are shown later.
-/

namespace Tablefolk

section

variable {q : ℕ} {G : Type} [AddCommGroup G] [Module (ZMod q) G] [DecidableEq G]
  {P : Primitives q G} {L : RoundReveal P} {secrets : ℕ → ZMod q} {s s' : LedgerState G}
  {e : SignedEnvelope}

/-- The shares an envelope carries are those of its sender's secret. -/
def TrueShares (L : RoundReveal P) (secrets : ℕ → ZMod q) (e : SignedEnvelope) : Prop :=
  ∀ seat, L.roster.seatOf e.from_ = some seat →
    (e.type = .SHARES → ∀ body, decodeSharesBody P e.body = .ok body →
      ∀ item ∈ body.items, L.Own (secrets seat) item) ∧
    (e.type = .ACTION → ∀ body, decodeActionBody P e.body = .ok body →
      ∀ item ∈ body.shares, L.Own (secrets seat) item)

theorem Truthful.step (h : Truthful L secrets s) (htrue : TrueShares L secrets e)
    (hstep : L.step s e = some s') : Truthful L secrets s' := by
  obtain ⟨transition, hstep⟩ := step_eq_some.1 hstep
  cases hstep with
  | shares accepted =>
      exact h.contribute _ ((htrue _ accepted.scope.seat).1 accepted.type _ accepted.decoded)
  | action accepted =>
      exact h.reveal accepted ((htrue _ accepted.scope.seat).2 accepted.type _ accepted.decoded)

theorem Truthful.run {l : List SignedEnvelope} (h : Truthful L secrets s)
    (htrue : ∀ e ∈ l, TrueShares L secrets e) (hrun : Replay.run L.step s l = some s') :
    Truthful L secrets s' := by
  induction l generalizing s with
  | nil =>
      cases hrun
      exact h
  | cons e rest ih =>
      obtain ⟨mid, hstep, hrest⟩ := (Replay.run_cons_eq_some L.step).1 hrun
      exact ih (h.step (htrue e List.mem_cons_self) hstep)
        (fun m hm => htrue m (List.mem_cons_of_mem _ hm)) hrest

/-- The deck of a round is the initial deck after these shuffles. -/
structure ShuffledDeck (L : RoundReveal P) (secrets : ℕ → ZMod q)
    (witnesses : List (DeckShuffleWitness q)) : Prop where
  secrets_ne_zero : ∀ seat < L.roster.size, secrets seat ≠ 0
  publicKeys : L.publicKeys = (List.range L.roster.size).map fun seat => secrets seat • P.base
  drawn : ∀ witness ∈ witnesses, witness.Drawn L.table.size
  deck : ∃ aggregateKey, aggregatePublicKeys L.publicKeys = .ok aggregateKey ∧
    shuffleAll P aggregateKey L.table.initialDeck witnesses = .ok L.deck

variable {witnesses : List (DeckShuffleWitness q)}

/-- The true card of a position is the card that the composed permutation names. -/
theorem ShuffledDeck.trueCard (h : ShuffledDeck L secrets witnesses) {position : ℕ}
    (hlt : position < L.deck.length) :
    L.trueCard secrets position = (L.table.cards[composed witnesses position]?).map Prod.fst := by
  obtain ⟨aggregateKey, hkey, hshuffle⟩ := h.deck
  have hsum : aggregateKey
      = ((List.range L.roster.size).map fun seat => secrets seat • P.base).sum := by
    unfold aggregatePublicKeys at hkey
    simp only [check_bind_eq_ok, except_pure_eq, Except.ok.injEq] at hkey
    rw [← hkey.2.2.2, h.publicKeys]
  have hinitial : L.table.initialDeck.length = L.table.size := by
    simp [CardPointTable.initialDeck, CardPointTable.size]
  obtain ⟨-, hmessages⟩ := shuffleAll_message hsum
    (fun witness hwitness => hinitial ▸ h.drawn witness hwitness) hshuffle
  have hlt' : position < L.table.size := L.deck_length ▸ hlt
  have hmessage := hmessages position (hinitial ▸ hlt')
  have hfrom : composed witnesses position < L.table.cards.length := composed_lt h.drawn hlt'
  have hcard : L.table.initialDeck[composed witnesses position]?
      = some (initialMaskedCard (L.table.cards[composed witnesses position]).2) := by
    rw [CardPointTable.initialDeck, List.getElem?_map, List.getElem?_eq_getElem hfrom]
    rfl
  rw [hcard, Option.map_some, message_initial] at hmessage
  obtain ⟨masked, hmasked, hpoint⟩ := Option.map_eq_some_iff.1 hmessage
  rw [RoundReveal.trueCard, hmasked, Option.bind_some, List.getElem?_eq_getElem hfrom,
    Option.map_some]
  refine CardPointTable.identify_eq_some.2 ?_
  rw [show masked.B - ((List.range L.roster.size).map fun seat => secrets seat • masked.A).sum
    = message secrets L.roster.size masked from rfl, hpoint]
  exact List.getElem_mem hfrom

/-- All positions together open to the deck. -/
theorem ShuffledDeck.openings_perm (h : ShuffledDeck L secrets witnesses) :
    ((List.range L.deck.length).map (L.trueCard secrets)).Perm
      (L.table.cards.map fun card => some card.1) := by
  have hopen : (List.range L.deck.length).map (L.trueCard secrets) =
      ((List.range L.table.size).map (composed witnesses)).map fun position =>
        (L.table.cards[position]?).map Prod.fst := by
    rw [List.map_map, L.deck_length]
    refine List.map_congr_left fun position hposition => ?_
    exact h.trueCard (by rw [L.deck_length]; exact List.mem_range.1 hposition)
  rw [hopen]
  refine ((composed_perm h.drawn).map _).trans (List.Perm.of_eq ?_)
  refine List.ext_getElem (by simp [CardPointTable.size]) fun position hlt hlt' => ?_
  have hcard : position < L.table.cards.length := by simpa using hlt'
  simp [hcard]

theorem ShuffledDeck.exists_trueCard (h : ShuffledDeck L secrets witnesses) {position : ℕ}
    (hlt : position < L.deck.length) : ∃ card, L.trueCard secrets position = some card := by
  have hlt' : position < L.table.size := L.deck_length ▸ hlt
  have hfrom : composed witnesses position < L.table.cards.length := composed_lt h.drawn hlt'
  rw [h.trueCard hlt, List.getElem?_eq_getElem hfrom]
  exact ⟨_, rfl⟩

/-- No card is at two positions. -/
theorem ShuffledDeck.trueCard_inj (h : ShuffledDeck L secrets witnesses) {position position' : ℕ}
    (hlt : position < L.deck.length) (hlt' : position' < L.deck.length)
    (heq : L.trueCard secrets position = L.trueCard secrets position') : position = position' := by
  have hnodup : ((List.range L.deck.length).map (L.trueCard secrets)).Nodup := by
    refine h.openings_perm.nodup_iff.2 ?_
    have hids := L.table.ids.map (Option.some_injective String)
    rwa [List.map_map] at hids
  exact List.inj_on_of_nodup_map hnodup (List.mem_range.2 hlt) (List.mem_range.2 hlt') heq

theorem ShuffledDeck.localKey (h : ShuffledDeck L secrets witnesses) {seat : ℕ}
    (hseat : seat < L.roster.size) : LocalKey L seat (secrets seat) := by
  refine ⟨hseat, ?_⟩
  rw [RoundReveal.publicKey, h.publicKeys]
  simp [List.getD_eq_getElem?_getD, hseat]

/-- Once the deal is over a seat reads its hand, and reads the true cards. -/
theorem ShuffledDeck.readPrivateHand (h : ShuffledDeck L secrets witnesses) (hinv : LedgerInv L s)
    (htrue : Truthful L secrets s) (hdealt : L.currentDeal s = none) {seat : ℕ}
    (hseat : seat < L.roster.size) :
    ∃ hand, L.readPrivateHand s seat (secrets seat) = .ok (some hand) ∧
      hand.dealt.map Prod.fst = L.ownedPositions seat ∧
      ∀ entry ∈ hand.dealt, L.trueCard secrets entry.1 = some entry.2 := by
  have hsecret := h.secrets_ne_zero seat hseat
  have hcard : ∀ position, ∃ card, position ∈ L.ownedPositions seat →
      L.trueCard secrets position = some card := by
    intro position
    by_cases howned : position ∈ L.ownedPositions seat
    · obtain ⟨card, hcard⟩ := h.exists_trueCard (lt_deck_of_owner (mem_ownedPositions.1 howned))
      exact ⟨card, fun _ => hcard⟩
    · exact ⟨"", fun hmem => absurd hmem howned⟩
  choose card hcard using hcard
  have hopens : ∀ position ∈ L.ownedPositions seat, ∃ masked : MaskedCard G,
      L.deck[position]? = some masked ∧
      L.openCard s position seat (secrets seat • masked.A) = .ok (some (card position)) := by
    intro position hposition
    have howner := mem_ownedPositions.1 hposition
    obtain ⟨masked, hmasked, -⟩ := cardAt_of_lt (lt_deck_of_owner howner)
    obtain ⟨opened, hopened⟩ := hinv.openCard_ok hdealt howner (secrets seat • masked.A)
    have hsame := openCard_eq_trueCard htrue hmasked hopened
    exact ⟨masked, hmasked, by rw [hopened, hsame, hcard position hposition]⟩
  have hshown : ∀ position ∈ L.ownedPositions seat, ∀ shown, s.revealed position = some shown →
      shown = card position := by
    intro position hposition shown hrevealed
    have := htrue.revealed position shown hrevealed
    rw [hcard position hposition] at this
    exact (Option.some.inj this).symm
  have hinj : ∀ p ∈ L.ownedPositions seat, ∀ p' ∈ L.ownedPositions seat, card p = card p' →
      p = p' := by
    intro p hp p' hp' heq
    refine h.trueCard_inj (lt_deck_of_owner (mem_ownedPositions.1 hp))
      (lt_deck_of_owner (mem_ownedPositions.1 hp')) ?_
    rw [hcard p hp, hcard p' hp', heq]
  have hknown : ∀ position ∈ L.ownedPositions seat, ∀ other,
      (L.cardPositions s).lookup (card position) = some other → other = position := by
    intro position hposition other hlookup
    obtain ⟨before, after, heq, -⟩ := List.lookup_eq_some_iff.1 hlookup
    have hmem : (card position, other) ∈ L.cardPositions s := heq ▸ by simp
    rw [RoundReveal.cardPositions, List.mem_reverse, List.mem_filterMap] at hmem
    obtain ⟨place, hplace, hentry⟩ := hmem
    obtain ⟨shown, hrevealed, hpair⟩ := Option.map_eq_some_iff.1 hentry
    cases hpair
    refine h.trueCard_inj (List.mem_range.1 hplace)
      (lt_deck_of_owner (mem_ownedPositions.1 hposition)) ?_
    rw [htrue.revealed _ _ hrevealed, hcard position hposition]
  obtain ⟨hand, hhand⟩ := openHand_ok hsecret hopens hinj hknown hshown
  have hread : L.readPrivateHand s seat (secrets seat) = .ok (some hand) := by
    unfold RoundReveal.readPrivateHand
    rw [requireLocalKey_eq_ok.2 (h.localKey hseat), ok_bind,
      if_neg (not_lt.2 (List.getElem?_eq_none_iff.1 hdealt)), hhand]
    rfl
  obtain hchecked := readPrivateHand_eq_ok hinv hread
  refine ⟨hand, hread, hchecked.positions, fun entry hentry => ?_⟩
  obtain ⟨masked, hmasked, hopened⟩ := (hchecked.reads entry hentry).opens
  exact (openCard_eq_trueCard htrue hmasked hopened).symm

/-- **Shuffle, deal and open give each card once and to the right owner.**  The card opened
at a position from all seats' shares is the card of the deck that the composed permutation
names, and all openings together are the deck.  In every run with true shares, once the deal
is over every owner reads its cards, and what any later state shows is what was read. -/
theorem deal_opens_deck (L : RoundReveal P) (secrets : ℕ → ZMod q)
    (witnesses : List (DeckShuffleWitness q)) (h : ShuffledDeck L secrets witnesses) :
    (∀ position < L.deck.length, ∃ card, L.table.cards[composed witnesses position]? = some card ∧
      L.trueCard secrets position = some card.1) ∧
    ((List.range L.deck.length).map (L.trueCard secrets)).Perm
      (L.table.cards.map fun card => some card.1) ∧
    ∀ l s, Replay.run L.step .start l = some s → (∀ e ∈ l, TrueShares L secrets e) →
      (∀ position card, s.revealed position = some card →
        L.trueCard secrets position = some card) ∧
      (L.currentDeal s = none → ∀ seat < L.roster.size, ∃ hand,
        L.readPrivateHand s seat (secrets seat) = .ok (some hand) ∧
        hand.dealt.map Prod.fst = L.ownedPositions seat ∧
        (∀ entry ∈ hand.dealt, L.trueCard secrets entry.1 = some entry.2) ∧
        ∀ l' s', Replay.run L.step s l' = some s' → (∀ e ∈ l', TrueShares L secrets e) →
          ∀ position card, L.owner position = some seat → s'.revealed position = some card →
            (position, card) ∈ hand.dealt) := by
  refine ⟨?_, h.openings_perm, ?_⟩
  · intro position hlt
    have hlt' : position < L.table.size := L.deck_length ▸ hlt
    have hfrom : composed witnesses position < L.table.cards.length := composed_lt h.drawn hlt'
    refine ⟨_, List.getElem?_eq_getElem hfrom, ?_⟩
    rw [h.trueCard hlt, List.getElem?_eq_getElem hfrom]
    rfl
  · intro l s hrun htrue
    have htruthful := Truthful.start.run htrue hrun
    refine ⟨htruthful.revealed, fun hdealt seat hseat => ?_⟩
    obtain ⟨hand, hread, hpositions, hcards⟩ :=
      h.readPrivateHand (ledgerInv_of_run hrun) htruthful hdealt hseat
    refine ⟨hand, hread, hpositions, hcards, fun l' s' hrun' htrue' position card howner hshown => ?_⟩
    have hmem : position ∈ hand.dealt.map Prod.fst := hpositions ▸ mem_ownedPositions.2 howner
    obtain ⟨entry, hentry, rfl⟩ := List.mem_map.1 hmem
    have hsame := (htruthful.run htrue' hrun').revealed entry.1 card hshown
    rw [hcards entry hentry] at hsame
    cases hsame
    exact hentry

end

/-! ## A small round -/

namespace SmallGroup

/-- Two cards at two points. -/
def table : CardPointTable (ZMod 41) where
  cards := [("a", 5), ("b", 7)]
  size_ge := by decide
  size_le := by decide
  ids := by decide
  points := by decide

/-- The cards change places. -/
def swap : DeckShuffleWitness 41 := ⟨[1, 0], [2, 3]⟩

/-- Three seats with the secrets 1, 2 and 3, and the deck after one shuffle. -/
def round : RoundReveal (primitives fun _ => 0) where
  gameId := game
  round := 1
  roster := roster _
  publicKeys := [1, 2, 3]
  table := table
  deck := [⟨2, 19⟩, ⟨3, 23⟩]
  steps := [⟨0, 1⟩, ⟨1, 1⟩]
  maxActions := 2
  batchDeal := false
  round_safe := by decide
  publicKeys_length := rfl
  deck_length := rfl
  steps_ok := ⟨by decide, by decide, by decide⟩
  batch_ok := by decide

theorem round_shuffled : ShuffledDeck round (fun seat => (seat : ZMod 41) + 1) [swap] where
  secrets_ne_zero := by
    intro seat hseat
    have hseat : seat < 3 := hseat
    interval_cases seat <;> decide
  publicKeys := by decide
  drawn := by
    intro witness hwitness
    rw [List.mem_singleton.1 hwitness]
    exact ⟨by decide, rfl, by decide⟩
  deck := ⟨6, rfl, rfl⟩

end SmallGroup

/-- In the small round the shuffled deck opens to both cards, in the other order. -/
theorem deal_opens_deck_small :
    SmallGroup.round.trueCard (fun seat => (seat : ZMod 41) + 1) 0 = some "b" ∧
      ((List.range 2).map (SmallGroup.round.trueCard fun seat => (seat : ZMod 41) + 1)).Perm
        [some "a", some "b"] := by
  obtain ⟨hopen, hperm, -⟩ := deal_opens_deck SmallGroup.round (fun seat => (seat : ZMod 41) + 1)
    [SmallGroup.swap] SmallGroup.round_shuffled
  obtain ⟨card, hcard, htrue⟩ := hopen 0 (by decide)
  cases hcard
  exact ⟨htrue, hperm⟩

end Tablefolk
