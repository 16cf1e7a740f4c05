import Tablefolk.Rules.Auction

/-!
# Card and point conservation

What a whole hand conserves, and why its last play is always accepted.

* `TableInv.full_deck`: thirty-six plays are the whole deck.
* `scoreSaskuHand_of_nine`: with nine tricks taken the totals are 120 points and
  nine tricks, and scoring returns.
* `HandInv.playable`: in play, any card not played yet makes a public step.
* `HoldsDeal.partition`: the reference controller's hands, trick and completed
  tricks are the 36 cards.
* `hand_conserves` collects this for both controllers.
-/

namespace Tablefolk

/-- `new SaskuHandController` on a deal, `new SaskuPublicHandController` without one. -/
def startHand (dealer : SaskuSeat) (deal : Option SaskuDeal) : HandState :=
  initialState dealer (deal.map SaskuDeal.hands)

/-- The cards of the completed tricks. -/
def HandState.takenCards (s : HandState) : List SaskuCardId :=
  s.completedTricks.flatMap fun t => t.plays.map SaskuPlay.card

theorem TableInv.cards {s : HandState} (h : TableInv s) :
    s.takenCards ++ s.trick.map SaskuPlay.card = s.plays.map SaskuPlay.card := by
  rw [← h.plays, List.map_append, List.map_flatMap]
  rfl

theorem length_flatMap_plays {tricks : List SaskuCompletedTrick}
    (h : ∀ t ∈ tricks, TrickTaken t) :
    (tricks.flatMap SaskuCompletedTrick.plays).length = 4 * tricks.length := by
  induction tricks with
  | nil => rfl
  | cons t rest ih =>
      rw [List.flatMap_cons, List.length_append, ih fun t ht => h t (List.mem_cons_of_mem _ ht),
        (h t List.mem_cons_self).length, List.length_cons]
      omega

theorem TableInv.length_plays {s : HandState} (h : TableInv s) :
    s.plays.length = 4 * s.completedTricks.length + s.trick.length := by
  rw [← h.plays, List.length_append, length_flatMap_plays h.tricks]

/-- Thirty-six plays are the whole deck. -/
theorem TableInv.full_deck {s : HandState} (h : TableInv s) (hlen : s.plays.length = 36) :
    (s.plays.map SaskuPlay.card).Perm SASKU_CARDS := by
  refine (List.subperm_of_subset h.distinct fun card _ => mem_SASKU_CARDS card).perm_of_length_le ?_
  rw [length_SASKU_CARDS, List.length_map, hlen]

/-! ## Scoring nine tricks -/

/-- The point values of the cards in a partnership's tricks. -/
def sidePoints (side : SaskuPartnership) (tricks : List SaskuCompletedTrick) : List ℕ :=
  (tricksOf side tricks).flatMap fun t => t.plays.map fun p => p.card.points

/-- The two partnerships' tricks are all the tricks. -/
theorem tricksOf_perm (tricks : List SaskuCompletedTrick) :
    (tricksOf 0 tricks ++ tricksOf 1 tricks).Perm tricks := by
  have hone : tricksOf 1 tricks = tricks.filter fun t => !decide (t.result.partnership = 0) := by
    refine List.filter_congr fun t _ => ?_
    have : ∀ side : SaskuPartnership, decide (side = 1) = !decide (side = 0) := by decide
    exact this _
  rw [hone]
  exact List.filter_append_perm _ tricks

theorem length_tricksOf (tricks : List SaskuCompletedTrick) :
    (tricksOf 0 tricks).length + (tricksOf 1 tricks).length = tricks.length := by
  rw [← List.length_append, (tricksOf_perm tricks).length_eq]

theorem sidePoints_perm (tricks : List SaskuCompletedTrick) :
    (sidePoints 0 tricks ++ sidePoints 1 tricks).Perm
      ((tricks.flatMap SaskuCompletedTrick.plays).map fun p => p.card.points) := by
  rw [sidePoints, sidePoints, ← List.flatMap_append, List.map_flatMap]
  exact (tricksOf_perm tricks).flatMap_right _

section Side

variable {tricks : List SaskuCompletedTrick} (h : ∀ t ∈ tricks, TrickTaken t)
  (side : SaskuPartnership)
include h

theorem taken_of_tricksOf : ∀ t ∈ tricksOf side tricks, TrickTaken t :=
  fun t ht => h t (List.mem_of_mem_filter ht)

theorem length_sidePoints : (sidePoints side tricks).length = (tricksOf side tricks).length * 4 := by
  have hmap : sidePoints side tricks = ((tricksOf side tricks).flatMap
      SaskuCompletedTrick.plays).map fun p => p.card.points := by
    rw [List.map_flatMap]
    rfl
  rw [hmap, List.length_map, length_flatMap_plays (taken_of_tricksOf h side), Nat.mul_comm]

theorem sum_sidePoints : (sidePoints side tricks).sum = pointsOf side tricks := by
  have htaken := taken_of_tricksOf h side
  rw [sidePoints, pointsOf]
  generalize tricksOf side tricks = won at htaken
  induction won with
  | nil => rfl
  | cons t rest ih =>
      rw [List.flatMap_cons, List.sum_append, ih fun t ht => htaken t (List.mem_cons_of_mem _ ht),
        List.map_cons, List.sum_cons, (htaken t List.mem_cons_self).cardPoints]

end Side

section Nine

variable {s : HandState} (h : TableInv s) (nine : s.completedTricks.length = 9)
  (bare : s.trick = [])
include h nine bare

/-- **Nine tricks always score.**  The feasibility check on points against tricks
passes, whoever won them. -/
theorem scoreSaskuHand_of_nine (contract : SaskuContract) :
    scoreSaskuHand ⟨s.cardPoints, s.tricksWon, contract⟩
      = .ok (scoreChecked ⟨s.cardPoints, s.tricksWon, contract⟩) := by
  have hplays : s.completedTricks.flatMap SaskuCompletedTrick.plays = s.plays := by
    rw [← h.plays, bare, List.append_nil]
  have hlen : s.plays.length = 36 := by
    rw [h.length_plays, nine, bare]
    rfl
  have hinventory : (sidePoints 0 s.completedTricks ++ sidePoints 1 s.completedTricks).Perm
      inventory := by
    refine (sidePoints_perm s.completedTricks).trans ?_
    rw [hplays, show s.plays.map (fun p => p.card.points)
      = (s.plays.map SaskuPlay.card).map SaskuCardId.points by rw [List.map_map]; rfl]
    exact ((h.full_deck hlen).map _).trans points_SASKU_CARDS
  refine scoreSaskuHand_ok hinventory ?_ ?_ ?_ ?_
  · rw [length_sidePoints h.tricks, ← h.tricksWon]
  · rw [length_sidePoints h.tricks, ← h.tricksWon]
  · rw [sum_sidePoints h.tricks, ← h.cardPoints]
  · rw [sum_sidePoints h.tricks, ← h.cardPoints]

/-- The totals of nine tricks. -/
theorem totals_of_nine :
    s.cardPoints 0 + s.cardPoints 1 = 120 ∧ s.tricksWon 0 + s.tricksWon 1 = 9 := by
  have hplays : s.completedTricks.flatMap SaskuCompletedTrick.plays = s.plays := by
    rw [← h.plays, bare, List.append_nil]
  have hlen : s.plays.length = 36 := by
    rw [h.length_plays, nine, bare]
    rfl
  constructor
  · have hsum := (sidePoints_perm s.completedTricks).sum_eq
    rw [List.sum_append, sum_sidePoints h.tricks, sum_sidePoints h.tricks, hplays] at hsum
    have hdeck : (s.plays.map fun p => p.card.points).sum = 120 := by
      have := ((h.full_deck hlen).map SaskuCardId.points).sum_eq
      rw [List.map_map] at this
      exact this.trans (by decide)
    rw [h.cardPoints, h.cardPoints, hsum, hdeck]
  · rw [h.tricksWon, h.tricksWon, length_tricksOf, nine]

end Nine

/-! ## A fresh card can be played -/

/-- The seat to move has not played to the trick yet, so it still holds a card. -/
theorem HandInv.holds_card {s : HandState} (h : HandInv s) (phase : s.phase = .playing)
    {seat : SaskuSeat} (turn : s.turn = some seat) : s.handSizes seat ≠ 0 := by
  obtain ⟨htricks, htrick, -, -, leader, hturn, hseats⟩ := h.phase.of_playing phase
  obtain rfl := Option.some.inj (turn.symm.trans hturn)
  have hnotin : seatAfter leader s.trick.length ∉ s.trick.map SaskuPlay.seat := by
    have hnodup := nodup_seatsFrom leader (n := s.trick.length + 1) (by omega)
    rw [seatsFrom_succ] at hnodup
    rw [hseats]
    intro hmem
    exact (List.nodup_append.1 hnodup).2.2 _ hmem _ (List.mem_singleton_self _) rfl
  have hsize := h.table.sizes (seatAfter leader s.trick.length)
  rw [List.count_eq_zero_of_not_mem hnotin] at hsize
  omega

/-- **In play, every card not played yet makes a public step**: the trick it may
complete resolves, and the hand it may complete scores. -/
theorem HandInv.playable {s : HandState} (h : HandInv s) (phase : s.phase = .playing)
    {seat : SaskuSeat} (turn : s.turn = some seat) {card : SaskuCardId}
    (fresh : card ∉ s.plays.map SaskuPlay.card) : ∃ s', HandStep s (.play seat card) s' := by
  have held := h.holds_card phase turn
  obtain ⟨htricks, htrick, -, hcontract, leader, hturn, hseats⟩ := h.phase.of_playing phase
  obtain ⟨contract, hcontract⟩ := Option.ne_none_iff_exists'.1 hcontract
  have hok : TrickOk (s.trick ++ [⟨seat, card⟩]) := trickOk_snoc h.table htrick hseats
    (Option.some.inj (turn.symm.trans hturn)) fresh
  by_cases short : s.trick.length + 1 = 4
  · have hfull : (s.trick ++ [SaskuPlay.mk seat card]).length = 4 := by simp [short]
    obtain ⟨winner, -, hresolved⟩ := resolveSaskuTrick_ok (trumpSuit contract) hok hfull
    by_cases ninth : s.completedTricks.length + 1 = 9
    · have htaken := trickTaken_of_resolved hok hfull hresolved
      have hplayed : TableInv ((s.record (.play seat card)).playCard seat card) :=
        h.table.playCard fresh held
      have htable := hplayed.takeTrick htaken
      have hscore := scoreSaskuHand_of_nine htable
        (by show (s.completedTricks ++ [SaskuCompletedTrick.mk _ _]).length = 9; simp [ninth])
        rfl contract
      exact ⟨_, .completeHand phase fresh held short hcontract hresolved ninth hscore⟩
    · exact ⟨_, .takeTrick phase fresh held short hcontract hresolved ninth⟩
  · exact ⟨_, .play phase fresh held short⟩

/-- A fresh card that keeps the private rules is accepted from the seat to move. -/
theorem accepts_play {s : HandState} (h : HandInv s) (hauction : AuctionInv s)
    (phase : s.phase = .playing) {seat : SaskuSeat} (turn : s.turn = some seat)
    {card : SaskuCardId} (fresh : card ∉ s.plays.map SaskuPlay.card)
    (hprivate : PrivateOk s (.play seat card)) :
    ∃ s', nextAction s (.play seat card) = .ok s' := by
  obtain ⟨s', hstep⟩ := h.playable phase turn fresh
  exact ⟨s', nextAction_ok_iff.2
    ⟨⟨turn, history_in_budget h.table hauction⟩, hprivate, hstep⟩⟩

/-- The fourth play of the ninth trick completes the hand. -/
theorem complete_of_last_play {s s' : HandState} (h : HandInv s) {seat : SaskuSeat}
    {card : SaskuCardId} (eight : s.completedTricks.length = 8) (three : s.trick.length = 3)
    (hok : nextAction s (.play seat card) = .ok s') : s'.phase = .complete := by
  obtain ⟨-, -, hstep⟩ := nextAction_ok_iff.1 hok
  cases hstep with
  | play phase fresh held short => omega
  | takeTrick phase fresh held full hcontract resolved more => omega
  | completeHand => rfl

/-! ## The reference controller's cards -/

/-- **The hands, the trick and the completed tricks partition the deck.** -/
theorem HoldsDeal.partition {deal : SaskuDeal} {s : HandState} (h : HoldsDeal deal s)
    (htable : TableInv s) :
    ((List.finRange 4).flatMap (deal.remaining s) ++ s.trick.map SaskuPlay.card
      ++ s.takenCards).Perm SASKU_CARDS := by
  have hplays : (s.trick.map SaskuPlay.card ++ s.takenCards).Perm
      (s.plays.map SaskuPlay.card) := htable.cards ▸ List.perm_append_comm
  rw [List.append_assoc]
  refine (List.Perm.append_left _ hplays).trans ?_
  rw [List.perm_ext_iff_of_nodup ?_ nodup_SASKU_CARDS]
  · refine fun card => ⟨fun _ => mem_SASKU_CARDS card, fun _ => ?_⟩
    -- every card is dealt to some seat: the deal has 36 different cards
    have hdealt : card ∈ (List.finRange 4).flatMap deal.hands := by
      have hsub : (List.finRange 4).flatMap deal.hands ⊆ SASKU_CARDS := fun c _ => mem_SASKU_CARDS c
      refine ((List.subperm_of_subset deal.nodup hsub).perm_of_length_le ?_).mem_iff.2
        (mem_SASKU_CARDS card)
      simp [List.length_flatMap, deal.length_hand, length_SASKU_CARDS]
    obtain ⟨seat, hseat, hcard⟩ := List.mem_flatMap.1 hdealt
    rw [List.mem_append]
    by_cases hplayed : card ∈ s.plays.map SaskuPlay.card
    · exact .inr hplayed
    · exact .inl (List.mem_flatMap.2 ⟨seat, hseat, SaskuDeal.mem_remaining.2 ⟨hcard, hplayed⟩⟩)
  · refine List.nodup_append.2 ⟨?_, htable.distinct, ?_⟩
    · have hsub : ((List.finRange 4).flatMap (deal.remaining s)).Sublist
          ((List.finRange 4).flatMap deal.hands) :=
        List.Sublist.flatMap_right _ fun seat _ => List.filter_sublist
      exact deal.nodup.sublist hsub
    · rintro c hc c' hc' rfl
      obtain ⟨seat, -, hcard⟩ := List.mem_flatMap.1 hc
      exact (SaskuDeal.mem_remaining.1 hcard).2 hc'

/-- In play `legalCardsForTurn` returns the cards of the seat to move that follow
the trick, and these are the plays that keep the private rules. -/
theorem HoldsDeal.legalCards {deal : SaskuDeal} {s : HandState} (h : HoldsDeal deal s)
    (hinv : HandInv s) (phase : s.phase = .playing) {seat : SaskuSeat}
    (turn : s.turn = some seat) :
    ∃ contract, s.contract = some contract ∧
      legalSaskuCards (deal.remaining s seat) s.trick (trumpSuit contract)
        = .ok (followingCards (deal.remaining s seat) s.trick (trumpSuit contract)) := by
  obtain ⟨-, htrick, -, hcontract, leader, hturn, hseats⟩ := hinv.phase.of_playing phase
  obtain ⟨contract, hcontract⟩ := Option.ne_none_iff_exists'.1 hcontract
  refine ⟨contract, hcontract, legalSaskuCards_ok ?_ (by omega) ?_ (deal.nodup_remaining s seat) ?_⟩
  · have hsub : (s.trick.map SaskuPlay.card).Sublist (s.plays.map SaskuPlay.card) := by
      rw [← hinv.table.cards]
      exact List.sublist_append_right _ _
    exact ⟨by omega, hseats ▸ nodup_seatsFrom leader (by omega), hinv.table.distinct.sublist hsub⟩
  · rw [← deal.length_hand seat]
    exact List.length_filter_le _ _
  · intro card hcard htrick
    refine (SaskuDeal.mem_remaining.1 hcard).2 ?_
    rw [← hinv.table.cards]
    exact List.mem_append_right _ htrick

theorem HoldsDeal.legalCardsForTurn {deal : SaskuDeal} {s : HandState} (h : HoldsDeal deal s)
    (hinv : HandInv s) (phase : s.phase = .playing) {seat : SaskuSeat}
    (turn : s.turn = some seat) :
    ∃ legal, s.legalCardsForTurn = .ok legal ∧ legal ≠ [] ∧
      (∀ card, card ∈ legal ↔ PrivateOk s (.play seat card)) ∧
      ∀ card ∈ legal, card ∉ s.plays.map SaskuPlay.card := by
  obtain ⟨contract, hcontract, hlegal⟩ := h.legalCards hinv phase turn
  have hhas : deal.remaining s seat ≠ [] := by
    intro hnil
    refine hinv.holds_card phase turn ?_
    rw [← h.sizes, hnil]
    rfl
  refine ⟨followingCards (deal.remaining s seat) s.trick (trumpSuit contract), ?_,
    followingCards_ne_nil hhas _ _, fun card => ?_, fun card hcard =>
      (SaskuDeal.mem_remaining.1 (mem_of_mem_followingCards hcard)).2⟩
  · simp only [HandState.legalCardsForTurn, phase, turn, h.hands, contractOrThrow_of_some hcontract,
      ok_bind, hlegal]
  · constructor
    · rintro hcard hands hhands
      obtain rfl := Option.some.inj (h.hands.symm.trans hhands)
      exact ⟨mem_of_mem_followingCards hcard, contract, _, hcontract, hlegal, hcard⟩
    · intro hprivate
      obtain ⟨-, contract', legal, hcontract', hlegal', hcard⟩ := hprivate _ h.hands
      obtain rfl := Option.some.inj (hcontract.symm.trans hcontract')
      exact Except.ok.inj (hlegal.symm.trans hlegal') ▸ hcard

/-! ## Both controllers -/

/-- A reachable state of the reference controller on `deal`, or of the public
controller, satisfies every invariant of this development. -/
structure Reached (deal : Option SaskuDeal) (s : HandState) : Prop where
  inv : HandInv s
  auction : AuctionInv s
  hidden : deal = none → s.hands = none
  holds : ∀ d, deal = some d → HoldsDeal d s

theorem reached_of_run {dealer : SaskuSeat} {deal : Option SaskuDeal}
    {actions : List ActionCandidate} {s : HandState}
    (h : applyAll (startHand dealer deal) actions = .ok s) : Reached deal s where
  inv := handInv_of_run h
  auction := auctionInv_of_run h
  hidden := by
    rintro rfl
    exact hands_none_of_run h
  holds := by
    rintro d rfl
    exact holdsDeal_of_run h

/-- What a hand conserves in a state, for the reference controller on `deal` and,
with no deal, for the public controller. -/
structure Conserved (deal : Option SaskuDeal) (s : HandState) : Prop where
  /-- no card is played twice -/
  distinct : (s.plays.map SaskuPlay.card).Nodup
  /-- the tricks hold exactly the plays -/
  tricks : s.completedTricks.flatMap SaskuCompletedTrick.plays ++ s.trick = s.plays
  /-- hands, trick and completed tricks partition the deck -/
  partition : deal ≠ none → ∃ hands, s.hands = some hands ∧
    (∀ seat, (hands seat).length = s.handSizes seat) ∧
    ((List.finRange 4).flatMap hands ++ s.trick.map SaskuPlay.card ++ s.takenCards).Perm SASKU_CARDS
  /-- a seat has given one card to each completed trick and one to the trick it has played to -/
  sizes : ∀ seat, s.handSizes seat + s.completedTricks.length
    + (if seat ∈ s.trick.map SaskuPlay.seat then 1 else 0) = 9
  /-- the trick was played by the seats from its leader on, and the next one is to move -/
  turn : s.phase = .playing → ∃ leader, s.trick.length ≤ 3 ∧
    s.trick.map SaskuPlay.seat = seatsFrom leader s.trick.length ∧
    s.turn = some (seatAfter leader s.trick.length)
  cardPoints : ∀ side, s.cardPoints side = pointsOf side s.completedTricks
  tricksWon : ∀ side, s.tricksWon side = (tricksOf side s.completedTricks).length

/-- The totals of a finished hand, and the score they were given. -/
structure Finished (s : HandState) : Prop where
  phase : s.phase = .complete
  points : s.cardPoints 0 + s.cardPoints 1 = 120
  tricks : s.tricksWon 0 + s.tricksWon 1 = 9
  scored : ∃ contract score, s.contract = some contract ∧
    scoreSaskuHand ⟨s.cardPoints, s.tricksWon, contract⟩ = .ok score ∧ s.score = some score

theorem Reached.conserved {deal : Option SaskuDeal} {s : HandState} (h : Reached deal s) :
    Conserved deal s where
  distinct := h.inv.table.distinct
  tricks := h.inv.table.plays
  partition := by
    intro hdeal
    obtain ⟨d, rfl⟩ := Option.ne_none_iff_exists'.1 hdeal
    have hd := h.holds d rfl
    exact ⟨d.remaining s, hd.hands, hd.sizes, hd.partition h.inv.table⟩
  sizes := by
    intro seat
    have hseats : (s.trick.map SaskuPlay.seat).Nodup := by
      have hphase := h.inv.phase
      cases phase : s.phase with
      | playing =>
          obtain ⟨-, htrick, -, -, leader, -, hseats⟩ := hphase.of_playing phase
          exact hseats ▸ nodup_seatsFrom leader (by omega)
      | bidding | choosing_trump | complete =>
          rw [PhaseInv, phase] at hphase
          rw [hphase.2.1]
          exact List.nodup_nil
    rw [← h.inv.table.sizes seat, hseats.count]
  turn := by
    intro phase
    obtain ⟨-, htrick, -, -, leader, hturn, hseats⟩ := h.inv.phase.of_playing phase
    exact ⟨leader, htrick, hseats, hturn⟩
  cardPoints := h.inv.table.cardPoints
  tricksWon := h.inv.table.tricksWon

theorem Reached.finished {deal : Option SaskuDeal} {s : HandState} (h : Reached deal s)
    (phase : s.phase = .complete) : Finished s := by
  have hphase := h.inv.phase
  rw [PhaseInv, phase] at hphase
  obtain ⟨nine, bare, -, contract, hcontract, hscore⟩ := hphase
  obtain ⟨hpoints, htricks⟩ := totals_of_nine h.inv.table nine bare
  exact ⟨phase, hpoints, htricks, contract, _, hcontract,
    scoreSaskuHand_of_nine h.inv.table nine bare contract, hscore⟩

theorem Reached.next {deal : Option SaskuDeal} {s s' : HandState} {a : SaskuHandAction}
    (h : Reached deal s) (hok : nextAction s a = .ok s') : Reached deal s' where
  inv := h.inv.nextAction hok
  auction := h.auction.nextAction hok
  hidden := fun hdeal => nextAction_hands_none (h.hidden hdeal) hok
  holds := fun d hd => (h.holds d hd).nextAction hok

/-- **Cards and points are conserved through a whole hand**, by either controller,
and the play that completes the ninth trick is always accepted: scoring it never
throws. -/
theorem hand_conserves (dealer : SaskuSeat) (deal : Option SaskuDeal)
    (actions : List ActionCandidate) (s : HandState)
    (h : applyAll (startHand dealer deal) actions = .ok s) :
    Conserved deal s ∧ (s.completedTricks.length = 9 → Finished s) ∧
    ∀ seat card, s.phase = .playing → s.completedTricks.length = 8 → s.trick.length = 3 →
      s.turn = some seat →
      (deal = none → card ∉ s.plays.map SaskuPlay.card) →
      (deal ≠ none → ∃ legal, s.legalCardsForTurn = .ok legal ∧ card ∈ legal) →
      ∃ s', nextState s (SaskuHandAction.play seat card).candidate = .ok s' ∧ Finished s' := by
  have hreached := reached_of_run h
  refine ⟨hreached.conserved, fun nine => ?_, ?_⟩
  · have hphase := hreached.inv.phase
    cases phase : s.phase with
    | complete => exact hreached.finished phase
    | bidding | choosing_trump | playing =>
        rw [PhaseInv, phase] at hphase
        have hlen := hphase.1
        simp_all
  · intro seat card phase eight three turn hpublic hreference
    obtain ⟨hprivate, fresh⟩ : PrivateOk s (.play seat card) ∧
        card ∉ s.plays.map SaskuPlay.card := by
      cases deal with
      | none =>
          refine ⟨?_, hpublic rfl⟩
          intro hands hhands
          exact absurd ((hreached.hidden rfl).symm.trans hhands) (by simp)
      | some d =>
          obtain ⟨legal, hlegal, -, hiff, hfresh⟩ :=
            (hreached.holds d rfl).legalCardsForTurn hreached.inv phase turn
          obtain ⟨legal', hlegal', hcard⟩ := hreference (by simp)
          obtain rfl := Except.ok.inj (hlegal.symm.trans hlegal')
          exact ⟨(hiff card).1 hcard, hfresh card hcard⟩
    obtain ⟨s', hs'⟩ := accepts_play hreached.inv hreached.auction phase turn fresh hprivate
    exact ⟨s', by rw [nextState_candidate, hs'], (hreached.next hs').finished
      (complete_of_last_play hreached.inv eight three hs')⟩

/-- Each seat is dealt one suit. -/
def suitsDeal : SaskuDeal where
  hands seat := SASKU_RANKS.map fun rank => ⟨rank, SASKU_SUITS.get ⟨seat.val, by decide +revert⟩⟩
  length_hand := by decide
  nodup := by decide

/-- The first seat bids nine, calls clubs, and leads its clubs from the king down; the others follow
with the same rank, and the last card is still to come. -/
def clubsActions : List SaskuHandAction :=
  [.bid 0 ⟨9, by decide, by decide⟩, .pass 1, .pass 2, .pass 3, .choose_trump 0 .clubs] ++
    ([SaskuRank.king, .queen, .jack, .ace, .ten, .nine, .eight, .seven, .six].flatMap fun rank =>
      [.play 0 ⟨rank, .clubs⟩, .play 1 ⟨rank, .spades⟩, .play 2 ⟨rank, .hearts⟩,
        .play 3 ⟨rank, .diamonds⟩]).dropLast

/-- A hand that is bid for and played to the last card, which is then accepted. -/
theorem hand_conserves_played : ∃ s s', applyAll (startHand 3 (some suitsDeal))
      (clubsActions.map SaskuHandAction.candidate) = .ok s ∧ s.completedTricks.length = 8 ∧
    Conserved (some suitsDeal) s ∧
    nextState s (SaskuHandAction.play 3 ⟨.six, .diamonds⟩).candidate = .ok s' ∧ Finished s' := by
  have hplayed : (applyAll (startHand 3 (some suitsDeal))
      (clubsActions.map SaskuHandAction.candidate)).toOption.any (fun s =>
        decide (s.phase = .playing ∧ s.completedTricks.length = 8 ∧ s.trick.length = 3 ∧
          s.turn = some 3) && s.legalCardsForTurn.toOption.any fun legal =>
            decide (⟨.six, .diamonds⟩ ∈ legal)) = true := by decide +kernel
  cases hrun : applyAll (startHand 3 (some suitsDeal))
      (clubsActions.map SaskuHandAction.candidate) with
  | error error =>
      rw [hrun] at hplayed
      cases hplayed
  | ok s =>
      rw [hrun] at hplayed
      obtain ⟨hstate, hlegal⟩ := Bool.and_eq_true_iff.1 hplayed
      obtain ⟨hphase, height, hthree, hturn⟩ := of_decide_eq_true hstate
      obtain ⟨hconserved, -, hlast⟩ := hand_conserves 3 (some suitsDeal) _ s hrun
      obtain ⟨s', haccepted, hfinished⟩ := hlast 3 ⟨.six, .diamonds⟩ hphase height hthree hturn
        (by simp) fun _ => by
          cases hcards : s.legalCardsForTurn with
          | error error =>
              rw [hcards] at hlegal
              cases hlegal
          | ok legal =>
              rw [hcards] at hlegal
              exact ⟨legal, rfl, of_decide_eq_true hlegal⟩
      exact ⟨s, s', rfl, height, hconserved, haccepted, hfinished⟩

end Tablefolk
