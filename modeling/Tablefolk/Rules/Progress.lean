import Tablefolk.Rules.Conservation

/-!
# A hand is bounded and never blocks

`hand_progresses` puts together the bound on a history (`history_length_le`) and
the two facts that keep a hand moving: outside the play phase the seat to move can
always pass or choose trump, and in play it always has a legal card.
-/

namespace Tablefolk

/-! ## Runs of normalised actions -/

/-- Apply normalised actions one after the other. -/
def runActions (s : HandState) (actions : List SaskuHandAction) : Except SaskuError HandState :=
  actions.foldlM nextAction s

@[simp] theorem runActions_nil (s : HandState) : runActions s [] = .ok s := rfl

theorem runActions_cons (s : HandState) (a : SaskuHandAction) (rest : List SaskuHandAction) :
    runActions s (a :: rest) = nextAction s a >>= fun s' => runActions s' rest := rfl

/-- An accepted run is the run of the normalised actions. -/
theorem applyAll_eq_ok {s s' : HandState} {actions : List ActionCandidate} :
    applyAll s actions = .ok s' ↔ ∃ normalized,
      List.Forall₂ (fun candidate a => normalizeAction candidate = .ok a) actions normalized ∧
      runActions s normalized = .ok s' := by
  induction actions generalizing s with
  | nil => simp [applyAll, runActions]
  | cons candidate rest ih =>
      have hcons : applyAll s (candidate :: rest)
          = nextState s candidate >>= fun mid => applyAll mid rest := rfl
      rw [hcons, bind_eq_ok]
      constructor
      · rintro ⟨mid, hmid, hrest⟩
        obtain ⟨a, ha, hnext⟩ := bind_eq_ok.1 hmid
        obtain ⟨normalized, hforall, hrun⟩ := ih.1 hrest
        exact ⟨a :: normalized, .cons ha hforall,
          by rw [runActions_cons, hnext, ok_bind, hrun]⟩
      · rintro ⟨normalized, hforall, hrun⟩
        cases hforall with
        | @cons _ a _ normalized ha hforall =>
            rw [runActions_cons] at hrun
            obtain ⟨mid, hnext, hrun⟩ := bind_eq_ok.1 hrun
            exact ⟨mid, by rw [nextState, ha, ok_bind, hnext], ih.2 ⟨normalized, hforall, hrun⟩⟩

/-- A run records its actions. -/
theorem history_of_run {s s' : HandState} {actions : List SaskuHandAction}
    (h : runActions s actions = .ok s') : s'.history = s.history ++ actions := by
  induction actions generalizing s with
  | nil =>
      cases h
      simp
  | cons a rest ih =>
      rw [runActions_cons] at h
      obtain ⟨mid, hmid, hrest⟩ := bind_eq_ok.1 h
      rw [ih hrest, (nextAction_ok_iff.1 hmid).2.2.history, List.append_assoc]
      rfl

/-- From a fresh hand the history is as long as the run. -/
theorem length_of_run {dealer : SaskuSeat} {deal : Option SaskuDeal}
    {actions : List ActionCandidate} {s : HandState}
    (h : applyAll (startHand dealer deal) actions = .ok s) :
    s.history.length = actions.length := by
  obtain ⟨normalized, hforall, hrun⟩ := applyAll_eq_ok.1 h
  rw [history_of_run hrun, hforall.length_eq]
  simp [startHand, initialState]

/-! ## Some action is always accepted -/

/-- In the bidding the seat to move can pass. -/
theorem passes {s : HandState} {seat : SaskuSeat} (phase : s.phase = .bidding) :
    ∃ s', HandStep s (.pass seat) s' := by
  by_cases hopen : s.consecutivePasses + 1 = if s.highestBid = none then 4 else 3
  · cases hbid : s.highestBid with
    | none => exact ⟨_, .passOut phase hbid (by rw [hopen, if_pos hbid])⟩
    | some highest => exact ⟨_, .passWin phase hbid (by rw [hopen, hbid, if_neg (by simp)])⟩
  · exact ⟨_, .passOn phase hopen⟩

/-- **No reachable state blocks**: until the hand is complete, the seat whose turn
it is has an accepted action. -/
theorem Reached.unblocked {deal : Option SaskuDeal} {s : HandState} (h : Reached deal s)
    (phase : s.phase ≠ .complete) :
    ∃ (a : SaskuHandAction) (s' : HandState),
      s.turn = some a.seat ∧ nextAction s a = .ok s' := by
  have hbudget := history_in_budget h.inv.table h.auction
  have hphase := h.inv.phase
  cases hp : s.phase with
  | complete => exact absurd hp phase
  | bidding =>
      rw [PhaseInv, hp] at hphase
      obtain ⟨seat, turn⟩ := Option.ne_none_iff_exists'.1 hphase.2.2.2.2
      obtain ⟨s', hstep⟩ : ∃ s', HandStep s (.pass seat) s' := passes hp
      exact ⟨.pass seat, s', turn, nextAction_ok_iff.2 ⟨⟨turn, hbudget⟩, trivial, hstep⟩⟩
  | choosing_trump =>
      rw [PhaseInv, hp] at hphase
      obtain ⟨-, -, -, highest, -, turn⟩ := hphase
      exact ⟨.choose_trump highest.seat .clubs, _, turn,
        nextAction_ok_iff.2 ⟨⟨turn, hbudget⟩, trivial, .chooseTrump hp⟩⟩
  | playing =>
      obtain ⟨htricks, htrick, -, -, leader, turn, -⟩ := hphase.of_playing hp
      obtain ⟨card, fresh, hprivate⟩ : ∃ card, card ∉ s.plays.map SaskuPlay.card ∧
          PrivateOk s (.play (seatAfter leader s.trick.length) card) := by
        cases deal with
        | none =>
            -- fewer than 36 cards are played, so some card is left
            have hplays := h.inv.table.length_plays
            by_contra! hall
            have hsub : SASKU_CARDS.Subperm (s.plays.map SaskuPlay.card) :=
              List.subperm_of_subset nodup_SASKU_CARDS fun card _ => by
                by_contra fresh
                refine hall card fresh fun hands hhands => ?_
                exact absurd ((h.hidden rfl).symm.trans hhands) (by simp)
            have hlen := hsub.length_le
            rw [length_SASKU_CARDS, List.length_map] at hlen
            omega
        | some d =>
            obtain ⟨legal, -, hne, hiff, hfresh⟩ :=
              (h.holds d rfl).legalCardsForTurn h.inv hp turn
            obtain ⟨card, hcard⟩ := List.exists_mem_of_ne_nil _ hne
            exact ⟨card, hfresh card hcard, (hiff card).1 hcard⟩
      obtain ⟨s', hs'⟩ := accepts_play h.inv h.auction hp turn fresh hprivate
      exact ⟨.play (seatAfter leader s.trick.length) card, s', turn, hs'⟩

/-- The reference controller accepts a play by the seat to move exactly when
`legalCardsForTurn` lists the card. -/
theorem Reached.play_iff_legal {deal : SaskuDeal} {s : HandState} (h : Reached (some deal) s)
    (phase : s.phase = .playing) {seat : SaskuSeat} (turn : s.turn = some seat) :
    ∃ legal, s.legalCardsForTurn = .ok legal ∧ legal ≠ [] ∧
      ∀ card, (∃ s', nextAction s (.play seat card) = .ok s') ↔ card ∈ legal := by
  obtain ⟨legal, hlegal, hne, hiff, hfresh⟩ :=
    (h.holds deal rfl).legalCardsForTurn h.inv phase turn
  refine ⟨legal, hlegal, hne, fun card => ⟨?_, fun hcard => ?_⟩⟩
  · rintro ⟨s', hs'⟩
    exact (hiff card).2 (nextAction_ok_iff.1 hs').2.1
  · exact accepts_play h.inv h.auction phase turn (hfresh card hcard) ((hiff card).1 hcard)

/-- What `hand_progresses` says of a state reached by `actions`. -/
structure Progress (deal : Option SaskuDeal) (actions : List ActionCandidate) (s : HandState) :
    Prop where
  length_le : actions.length ≤ 53
  auction_le : s.auctionLength ≤ 16
  trumpChoices_le : s.trumpChoices ≤ 1
  plays_le : s.plays.length ≤ 36
  /-- the branch that throws "Hand action limit exceeded" is not taken -/
  in_budget : s.history.length = actions.length ∧ s.history.length < MAX_SASKU_HAND_ACTIONS
  unblocked : s.phase ≠ .complete →
    ∃ (a : SaskuHandAction) (s' : HandState),
      s.turn = some a.seat ∧ nextState s a.candidate = .ok s'
  legal : deal ≠ none → s.phase = .playing → ∃ seat legal, s.turn = some seat ∧
    s.legalCardsForTurn = .ok legal ∧ legal ≠ [] ∧
    ∀ card, (∃ s', nextState s (SaskuHandAction.play seat card).candidate = .ok s') ↔ card ∈ legal

/-- **A hand is bounded and never blocks**, in every reachable state of either
controller. -/
theorem hand_progresses {dealer : SaskuSeat} {deal : Option SaskuDeal}
    {actions : List ActionCandidate} {s : HandState}
    (h : applyAll (startHand dealer deal) actions = .ok s) : Progress deal actions s where
  length_le := length_of_run h ▸ history_length_le (reached_of_run h).inv.table
    (reached_of_run h).auction
  auction_le := (reached_of_run h).auction.later.2
  trumpChoices_le := (reached_of_run h).auction.later.1
  plays_le := (reached_of_run h).inv.table.plays_le
  in_budget := ⟨length_of_run h, history_in_budget (reached_of_run h).inv.table
    (reached_of_run h).auction⟩
  unblocked := by
    intro phase
    obtain ⟨a, s', turn, hok⟩ := (reached_of_run h).unblocked phase
    exact ⟨a, s', turn, by rw [nextState_candidate, hok]⟩
  legal := by
    intro hdeal phase
    obtain ⟨d, rfl⟩ := Option.ne_none_iff_exists'.1 hdeal
    have hreached := reached_of_run h
    obtain ⟨-, -, -, -, leader, turn, -⟩ := hreached.inv.phase.of_playing phase
    obtain ⟨legal, hlegal, hne, hiff⟩ := hreached.play_iff_legal phase turn
    refine ⟨_, legal, turn, hlegal, hne, fun card => ?_⟩
    rw [nextState_candidate]
    exact hiff card

end Tablefolk
