import Tablefolk.Rules.HandStep

/-!
# The invariant of a Sasku hand

What holds in every state a hand controller can reach, for the public and the
reference controller alike: `HandInv`, with one field group for the table (cards
played, tricks taken, points counted) and one for the phase (whose turn it is,
what is decided).  `HandInv.step` is the step lemma, `handInv_of_run` the run lemma.

The hands themselves exist only in the reference controller: `HoldsDeal` says
that they are the deal less the cards played, `HoldsDeal.step` that every
accepted action keeps it so.
-/

namespace Tablefolk

/-- The cards played so far, in order. -/
def HandState.plays (s : HandState) : List SaskuPlay := s.history.filterMap SaskuHandAction.toPlay

/-- The seat `n` places after `leader`. -/
def seatAfter (leader : SaskuSeat) (n : ℕ) : SaskuSeat :=
  ⟨(leader.val + n) % 4, Nat.mod_lt _ (by decide)⟩

@[simp] theorem seatAfter_zero (leader : SaskuSeat) : seatAfter leader 0 = leader := by
  ext
  exact Nat.mod_eq_of_lt leader.isLt

theorem nextSeat_seatAfter (leader : SaskuSeat) (n : ℕ) :
    nextSeat (seatAfter leader n) = seatAfter leader (n + 1) := by
  ext
  simp only [nextSeat, seatAfter, Fin.val_add]
  omega

/-- The seats of `n` plays that `leader` leads. -/
def seatsFrom (leader : SaskuSeat) (n : ℕ) : List SaskuSeat :=
  (List.range n).map (seatAfter leader)

theorem seatsFrom_succ (leader : SaskuSeat) (n : ℕ) :
    seatsFrom leader (n + 1) = seatsFrom leader n ++ [seatAfter leader n] := by
  simp [seatsFrom, List.range_succ]

theorem nodup_seatsFrom (leader : SaskuSeat) {n : ℕ} (h : n ≤ 4) : (seatsFrom leader n).Nodup := by
  revert leader
  interval_cases n <;> decide

/-! ## The table -/

/-- What a completed trick records: four plays from four seats, the winner among
them, and the points on the table. -/
structure TrickTaken (t : SaskuCompletedTrick) : Prop where
  length : t.plays.length = 4
  seats : (t.plays.map SaskuPlay.seat).Nodup
  winner : t.result.winner ∈ t.plays
  partnership : t.result.partnership = partnershipForSeat t.result.winner.seat
  cardPoints : t.result.cardPoints = (t.plays.map fun p => p.card.points).sum

/-- The tricks a partnership has won. -/
def tricksOf (side : SaskuPartnership) (tricks : List SaskuCompletedTrick) :
    List SaskuCompletedTrick :=
  tricks.filter fun t => t.result.partnership = side

/-- The points of the tricks a partnership has won. -/
def pointsOf (side : SaskuPartnership) (tricks : List SaskuCompletedTrick) : ℕ :=
  ((tricksOf side tricks).map fun t => t.result.cardPoints).sum

/-- The part of the invariant about cards, tricks and points. -/
structure TableInv (s : HandState) : Prop where
  plays : s.completedTricks.flatMap SaskuCompletedTrick.plays ++ s.trick = s.plays
  distinct : (s.plays.map SaskuPlay.card).Nodup
  tricks : ∀ t ∈ s.completedTricks, TrickTaken t
  sizes : ∀ seat, s.handSizes seat + s.completedTricks.length
    + (s.trick.map SaskuPlay.seat).count seat = 9
  cardPoints : ∀ side, s.cardPoints side = pointsOf side s.completedTricks
  tricksWon : ∀ side, s.tricksWon side = (tricksOf side s.completedTricks).length

/-- The part about whose turn it is and what has been decided. -/
def PhaseInv (s : HandState) : Prop :=
  match s.phase with
  | .bidding => s.completedTricks = [] ∧ s.trick = [] ∧ s.score = none ∧ s.contract = none ∧
      s.turn ≠ none
  | .choosing_trump => s.completedTricks = [] ∧ s.trick = [] ∧ s.score = none ∧
      ∃ highest, s.highestBid = some highest ∧ s.turn = some highest.seat
  | .playing => s.completedTricks.length ≤ 8 ∧ s.trick.length ≤ 3 ∧ s.score = none ∧
      s.contract ≠ none ∧ ∃ leader, s.turn = some (seatAfter leader s.trick.length) ∧
        s.trick.map SaskuPlay.seat = seatsFrom leader s.trick.length
  | .complete => s.completedTricks.length = 9 ∧ s.trick = [] ∧ s.turn = none ∧
      ∃ contract, s.contract = some contract ∧
        s.score = some (scoreChecked ⟨s.cardPoints, s.tricksWon, contract⟩)

/-- The invariant of a hand. -/
structure HandInv (s : HandState) : Prop where
  table : TableInv s
  phase : PhaseInv s

theorem HandInv.init (dealer : SaskuSeat) (hands : Option (SaskuSeat → List SaskuCardId)) :
    HandInv (initialState dealer hands) where
  table :=
    { plays := rfl
      distinct := by simp [HandState.plays, initialState]
      tricks := by simp [initialState]
      sizes := fun _ => rfl
      cardPoints := fun _ => rfl
      tricksWon := fun _ => rfl }
  phase := ⟨rfl, rfl, rfl, rfl, by simp [initialState]⟩

/-! ## What a play does to the table -/

theorem plays_record_of_none {s : HandState} {a : SaskuHandAction} (h : a.toPlay = none) :
    (s.record a).plays = s.plays := by
  simp [HandState.plays, HandState.record, List.filterMap_append, h]

theorem plays_record_play (s : HandState) (seat : SaskuSeat) (card : SaskuCardId) :
    (s.record (.play seat card)).plays = s.plays ++ [⟨seat, card⟩] := by
  simp [HandState.plays, HandState.record, List.filterMap_append, SaskuHandAction.toPlay]

/-- An action that plays no card leaves the table alone. -/
theorem TableInv.of_same {s s' : HandState} (h : TableInv s) (hplays : s'.plays = s.plays)
    (htricks : s'.completedTricks = s.completedTricks) (htrick : s'.trick = s.trick)
    (hsizes : s'.handSizes = s.handSizes) (hpoints : s'.cardPoints = s.cardPoints)
    (hwon : s'.tricksWon = s.tricksWon) : TableInv s' where
  plays := by rw [htricks, htrick, hplays, h.plays]
  distinct := by rw [hplays]; exact h.distinct
  tricks := by rw [htricks]; exact h.tricks
  sizes := by rw [htricks, htrick, hsizes]; exact h.sizes
  cardPoints := by rw [hpoints, htricks]; exact h.cardPoints
  tricksWon := by rw [hwon, htricks]; exact h.tricksWon

theorem TableInv.distinct_snoc {s : HandState} (h : TableInv s) {card : SaskuCardId}
    (seat : SaskuSeat) (fresh : card ∉ s.plays.map SaskuPlay.card) :
    ((s.plays ++ [SaskuPlay.mk seat card]).map SaskuPlay.card).Nodup := by
  rw [List.map_append]
  refine List.nodup_append.2 ⟨h.distinct, List.nodup_singleton _, ?_⟩
  rintro c hc c' hc' rfl
  simp only [List.map_cons, List.map_nil, List.mem_singleton] at hc'
  exact fresh (hc' ▸ hc)

/-- A fresh card from a seat that still holds one keeps the table in order. -/
theorem TableInv.playCard {s : HandState} (h : TableInv s) {seat : SaskuSeat} {card : SaskuCardId}
    (fresh : card ∉ s.plays.map SaskuPlay.card) (held : s.handSizes seat ≠ 0) :
    TableInv ((s.record (.play seat card)).playCard seat card) where
  plays := by
    show s.completedTricks.flatMap SaskuCompletedTrick.plays ++ (s.trick ++ [SaskuPlay.mk seat card])
      = (s.record (.play seat card)).plays
    rw [plays_record_play, ← h.plays, List.append_assoc]
  distinct := by
    show ((s.record (.play seat card)).plays.map SaskuPlay.card).Nodup
    rw [plays_record_play]
    exact h.distinct_snoc seat fresh
  tricks := h.tricks
  sizes := by
    intro other
    show Function.update s.handSizes seat (s.handSizes seat - 1) other + s.completedTricks.length
      + ((s.trick ++ [SaskuPlay.mk seat card]).map SaskuPlay.seat).count other = 9
    have hsize := h.sizes other
    rw [List.map_append, List.count_append]
    by_cases hother : other = seat
    · subst hother
      rw [Function.update_self]
      simp only [List.map_cons, List.map_nil, List.count_singleton_self]
      omega
    · rw [Function.update_of_ne hother]
      simp only [List.map_cons, List.map_nil]
      rw [List.count_singleton, if_neg (by simpa using Ne.symm hother)]
      omega
  cardPoints := h.cardPoints
  tricksWon := h.tricksWon

theorem tricksOf_append (side : SaskuPartnership) (tricks : List SaskuCompletedTrick)
    (t : SaskuCompletedTrick) : tricksOf side (tricks ++ [t]) =
      tricksOf side tricks ++ if t.result.partnership = side then [t] else [] := by
  by_cases h : t.result.partnership = side <;> simp [tricksOf, List.filter_append, h]

/-- Counting a full trick keeps the table in order. -/
theorem TableInv.takeTrick {s : HandState} (h : TableInv s) {result : SaskuTrickResult}
    (htaken : TrickTaken ⟨result, s.trick⟩) : TableInv (s.takeTrick result) where
  plays := by
    show (s.completedTricks ++ [SaskuCompletedTrick.mk result s.trick]).flatMap SaskuCompletedTrick.plays ++ []
      = s.plays
    rw [← h.plays]
    simp
  distinct := h.distinct
  tricks := by
    intro t ht
    rcases List.mem_append.1 ht with ht | ht
    · exact h.tricks t ht
    · rw [List.mem_singleton.1 ht]
      exact htaken
  sizes := by
    intro seat
    -- the four seats of the trick are all the seats, so each gives up one card
    have hcount : (s.trick.map SaskuPlay.seat).count seat = 1 := by
      have hmem : seat ∈ s.trick.map SaskuPlay.seat := by
        have hlen : (s.trick.map SaskuPlay.seat).length = 4 := by simpa using htaken.length
        have huniv : (s.trick.map SaskuPlay.seat).toFinset = Finset.univ := by
          rw [← Finset.card_eq_iff_eq_univ, List.toFinset_card_of_nodup htaken.seats, hlen]
          rfl
        exact List.mem_toFinset.1 (huniv ▸ Finset.mem_univ seat)
      exact List.count_eq_one_of_mem htaken.seats hmem
    have hsize := h.sizes seat
    show s.handSizes seat + (s.completedTricks ++ [SaskuCompletedTrick.mk result s.trick]).length + 0 = 9
    rw [List.length_append, List.length_singleton]
    omega
  cardPoints := by
    intro side
    show Function.update s.cardPoints result.partnership _ side = _
    rw [show (s.takeTrick result).completedTricks = s.completedTricks ++ [SaskuCompletedTrick.mk result s.trick]
      from rfl, pointsOf, tricksOf_append]
    by_cases hside : side = result.partnership
    · subst hside
      simp [h.cardPoints, pointsOf]
    · rw [Function.update_of_ne hside, if_neg (Ne.symm hside), List.append_nil, h.cardPoints]
      rfl
  tricksWon := by
    intro side
    show Function.update s.tricksWon result.partnership _ side = _
    rw [show (s.takeTrick result).completedTricks = s.completedTricks ++ [SaskuCompletedTrick.mk result s.trick]
      from rfl, tricksOf_append]
    by_cases hside : side = result.partnership
    · subst hside
      simp [h.tricksWon]
    · rw [Function.update_of_ne hside, if_neg (Ne.symm hside), List.append_nil, h.tricksWon]

/-! ## The step lemma -/

/-- The trick that a play in turn order extends. -/
theorem trickOk_snoc {s : HandState} {leader seat : SaskuSeat} {card : SaskuCardId}
    (htable : TableInv s) (hlen : s.trick.length ≤ 3)
    (hseats : s.trick.map SaskuPlay.seat = seatsFrom leader s.trick.length)
    (hturn : seat = seatAfter leader s.trick.length)
    (fresh : card ∉ s.plays.map SaskuPlay.card) : TrickOk (s.trick ++ [⟨seat, card⟩]) where
  length_le := by
    rw [List.length_append, List.length_singleton]
    omega
  seats := by
    rw [List.map_append, hseats, hturn]
    exact seatsFrom_succ leader s.trick.length ▸ nodup_seatsFrom leader (by omega)
  cards := by
    have hsub : (s.trick ++ [SaskuPlay.mk seat card]).map SaskuPlay.card
        <:+ (s.plays ++ [SaskuPlay.mk seat card]).map SaskuPlay.card := by
      rw [← htable.plays, List.append_assoc]
      exact (List.suffix_append _ _).map _
    exact (htable.distinct_snoc seat fresh).sublist hsub.sublist

theorem trickTaken_of_resolved {trick : List SaskuPlay} {trump : SaskuSuit}
    {result : SaskuTrickResult} (hok : TrickOk trick) (hlen : trick.length = 4)
    (h : resolveSaskuTrick trick trump = .ok result) : TrickTaken ⟨result, trick⟩ := by
  obtain ⟨winner, hmem, heq⟩ := resolveSaskuTrick_ok trump hok hlen
  obtain rfl := Except.ok.inj (h.symm.trans heq)
  exact ⟨hlen, hok.seats, hmem, rfl, rfl⟩

/-- The phase of the state before a play, spelled out. -/
theorem PhaseInv.of_playing {s : HandState} (h : PhaseInv s) (phase : s.phase = .playing) :
    s.completedTricks.length ≤ 8 ∧ s.trick.length ≤ 3 ∧ s.score = none ∧ s.contract ≠ none ∧
      ∃ leader, s.turn = some (seatAfter leader s.trick.length) ∧
        s.trick.map SaskuPlay.seat = seatsFrom leader s.trick.length := by
  rw [PhaseInv, phase] at h
  exact h

/-- **Every accepted action keeps the invariant.** -/
theorem HandInv.step {s s' : HandState} {a : SaskuHandAction} (h : HandInv s)
    (hexpected : Expected s a) (hstep : HandStep s a s') : HandInv s' := by
  obtain ⟨htable, hphase⟩ := h
  cases hstep with
  | @bid seat value phase higher fresh =>
      rw [PhaseInv, phase] at hphase
      obtain ⟨htricks, htrick, hscore, hcontract, -⟩ := hphase
      refine ⟨htable.of_same (plays_record_of_none rfl) rfl rfl rfl rfl rfl, ?_⟩
      simp only [PhaseInv, HandState.record, phase]
      exact ⟨htricks, htrick, hscore, hcontract, by simp⟩
  | @diamonds seat phase =>
      rw [PhaseInv, phase] at hphase
      obtain ⟨htricks, htrick, hscore, -, -⟩ := hphase
      refine ⟨htable.of_same (plays_record_of_none rfl) rfl rfl rfl rfl rfl, ?_⟩
      simp only [PhaseInv, HandState.record, htricks, htrick]
      exact ⟨by simp, by simp, hscore, by simp, seat, by simp, rfl⟩
  | @passOn seat phase open_ =>
      rw [PhaseInv, phase] at hphase
      obtain ⟨htricks, htrick, hscore, hcontract, -⟩ := hphase
      refine ⟨htable.of_same (plays_record_of_none rfl) rfl rfl rfl rfl rfl, ?_⟩
      simp only [PhaseInv, HandState.record, phase]
      exact ⟨htricks, htrick, hscore, hcontract, by simp⟩
  | @passOut seat phase noBid fourth =>
      rw [PhaseInv, phase] at hphase
      obtain ⟨htricks, htrick, hscore, -, -⟩ := hphase
      refine ⟨htable.of_same (plays_record_of_none rfl) rfl rfl rfl rfl rfl, ?_⟩
      simp only [PhaseInv, HandState.record, htricks, htrick]
      exact ⟨by simp, by simp, hscore, by simp, nextSeat s.dealer, by simp, rfl⟩
  | @passWin seat highest phase won third =>
      rw [PhaseInv, phase] at hphase
      obtain ⟨htricks, htrick, hscore, -, -⟩ := hphase
      refine ⟨htable.of_same (plays_record_of_none rfl) rfl rfl rfl rfl rfl, ?_⟩
      exact ⟨htricks, htrick, hscore, highest, won, rfl⟩
  | @chooseTrump seat suit phase =>
      rw [PhaseInv, phase] at hphase
      obtain ⟨htricks, htrick, hscore, -⟩ := hphase
      refine ⟨htable.of_same (plays_record_of_none rfl) rfl rfl rfl rfl rfl, ?_⟩
      simp only [PhaseInv, HandState.record, htricks, htrick]
      exact ⟨by simp, by simp, hscore, by simp, seat, by simp, rfl⟩
  | @play seat card phase fresh held short =>
      obtain ⟨htricks, htrick, hscore, hcontract, leader, hturn, hseats⟩ :=
        hphase.of_playing phase
      have hseat : seat = seatAfter leader s.trick.length :=
        Option.some.inj (hexpected.turn.symm.trans hturn)
      refine ⟨(htable.playCard fresh held).of_same rfl rfl rfl rfl rfl rfl, ?_⟩
      have hlen : (s.trick ++ [SaskuPlay.mk seat card]).length = s.trick.length + 1 := by simp
      simp only [PhaseInv, HandState.record, HandState.playCard, phase, hlen]
      refine ⟨htricks, by omega, hscore, hcontract, leader, ?_, ?_⟩
      · rw [hseat, nextSeat_seatAfter]
      · rw [List.map_append, hseats, seatsFrom_succ, hseat]
        rfl
  | @takeTrick seat card contract result phase fresh held full hcontract resolved more =>
      obtain ⟨htricks, htrick, hscore, -, leader, hturn, hseats⟩ := hphase.of_playing phase
      have hok : TrickOk (s.trick ++ [⟨seat, card⟩]) := trickOk_snoc htable htrick hseats
        (Option.some.inj (hexpected.turn.symm.trans hturn)) fresh
      have htaken := trickTaken_of_resolved hok (by simp [full]) resolved
      refine ⟨((htable.playCard fresh held).takeTrick htaken).of_same rfl rfl rfl rfl rfl rfl, ?_⟩
      simp only [PhaseInv, HandState.takeTrick, HandState.record, HandState.playCard, phase,
        List.length_append, List.length_singleton]
      exact ⟨by omega, by simp, hscore, by simp [hcontract], result.winner.seat, by simp, rfl⟩
  | @completeHand seat card contract result score phase fresh held full hcontract resolved ninth
      scored =>
      obtain ⟨htricks, htrick, hscore, -, leader, hturn, hseats⟩ := hphase.of_playing phase
      have hok : TrickOk (s.trick ++ [⟨seat, card⟩]) := trickOk_snoc htable htrick hseats
        (Option.some.inj (hexpected.turn.symm.trans hturn)) fresh
      have htaken := trickTaken_of_resolved hok (by simp [full]) resolved
      refine ⟨((htable.playCard fresh held).takeTrick htaken).of_same rfl rfl rfl rfl rfl rfl, ?_⟩
      refine ⟨?_, rfl, rfl, contract, hcontract, ?_⟩
      · show (s.completedTricks ++ [SaskuCompletedTrick.mk result _]).length = 9
        rw [List.length_append, List.length_singleton, ninth]
      · rw [scoreSaskuHand_eq scored]

theorem HandInv.nextAction {s s' : HandState} {a : SaskuHandAction} (h : HandInv s)
    (hok : nextAction s a = .ok s') : HandInv s' := by
  obtain ⟨hexpected, -, hstep⟩ := nextAction_ok_iff.1 hok
  exact h.step hexpected hstep

/-- Whatever an accepted action keeps, an accepted run keeps. -/
theorem applyAll_invariant {P : HandState → Prop}
    (hstep : ∀ {s s' : HandState} {a : SaskuHandAction}, P s → nextAction s a = .ok s' → P s') :
    ∀ {actions : List ActionCandidate} {s s' : HandState}, P s →
      applyAll s actions = .ok s' → P s' := by
  intro actions
  induction actions with
  | nil => rintro s s' h hok; cases hok; exact h
  | cons action rest ih =>
      intro s s' h hok
      obtain ⟨mid, hmid, hrest⟩ := bind_eq_ok.1 hok
      obtain ⟨a, -, ha⟩ := bind_eq_ok.1 hmid
      exact ih (hstep h ha) hrest

/-- **The invariant holds in every reachable state** of either controller. -/
theorem handInv_of_run {dealer : SaskuSeat} {hands : Option (SaskuSeat → List SaskuCardId)}
    {actions : List ActionCandidate} {s : HandState}
    (h : applyAll (initialState dealer hands) actions = .ok s) : HandInv s :=
  applyAll_invariant HandInv.nextAction (HandInv.init dealer hands) h

/-! ## The hands of the reference controller -/

/-- What a seat still holds of a deal. -/
def SaskuDeal.remaining (deal : SaskuDeal) (s : HandState) (seat : SaskuSeat) : List SaskuCardId :=
  (deal.hands seat).filter fun card => card ∉ s.plays.map SaskuPlay.card

/-- The hands of the state are what is left of the deal, and every card that was
played came out of the hand it was played from. -/
structure HoldsDeal (deal : SaskuDeal) (s : HandState) : Prop where
  hands : s.hands = some (deal.remaining s)
  owned : ∀ p ∈ s.plays, p.card ∈ deal.hands p.seat
  sizes : ∀ seat, (deal.remaining s seat).length = s.handSizes seat

theorem SaskuDeal.nodup_hand (deal : SaskuDeal) (seat : SaskuSeat) : (deal.hands seat).Nodup :=
  deal.nodup.sublist (List.sublist_flatten_of_mem
    (List.mem_map.2 ⟨seat, List.mem_finRange seat, rfl⟩))

theorem SaskuDeal.nodup_remaining (deal : SaskuDeal) (s : HandState) (seat : SaskuSeat) :
    (deal.remaining s seat).Nodup := (deal.nodup_hand seat).filter _

theorem SaskuDeal.mem_remaining {deal : SaskuDeal} {s : HandState} {seat : SaskuSeat}
    {card : SaskuCardId} : card ∈ deal.remaining s seat ↔
      card ∈ deal.hands seat ∧ card ∉ s.plays.map SaskuPlay.card := by
  simp [SaskuDeal.remaining]

/-- No card is dealt to two seats. -/
theorem SaskuDeal.seat_unique (deal : SaskuDeal) {a b : SaskuSeat} {card : SaskuCardId}
    (ha : card ∈ deal.hands a) (hb : card ∈ deal.hands b) : a = b := by
  by_contra hne
  have hpair : (List.finRange 4).Pairwise fun x y => List.Disjoint (deal.hands x) (deal.hands y) :=
    (List.nodup_flatMap.1 deal.nodup).2
  have : Std.Symm fun x y : SaskuSeat => List.Disjoint (deal.hands x) (deal.hands y) :=
    ⟨fun _ _ h => h.symm⟩
  exact hpair.forall (List.mem_finRange a) (List.mem_finRange b) hne ha hb

theorem HoldsDeal.init (dealer : SaskuSeat) (deal : SaskuDeal) :
    HoldsDeal deal (referenceHand dealer deal) where
  hands := by
    show some deal.hands = some _
    congr 1
    funext seat
    exact (List.filter_eq_self.2 fun _ _ => by
      simp [HandState.plays, referenceHand, initialState]).symm
  owned := by simp [HandState.plays, referenceHand, initialState]
  sizes := by
    intro seat
    simp [SaskuDeal.remaining, HandState.plays, referenceHand, initialState, deal.length_hand]

/-- An action that plays no card leaves the hands alone. -/
theorem HoldsDeal.of_same {deal : SaskuDeal} {s s' : HandState} (h : HoldsDeal deal s)
    (hplays : s'.plays = s.plays) (hhands : s'.hands = s.hands)
    (hsizes : s'.handSizes = s.handSizes) : HoldsDeal deal s' := by
  have hremaining : deal.remaining s' = deal.remaining s := by
    funext seat
    rw [SaskuDeal.remaining, SaskuDeal.remaining, hplays]
  exact ⟨by rw [hhands, h.hands, hremaining], by rw [hplays]; exact h.owned,
    by rw [hremaining, hsizes]; exact h.sizes⟩

/-- What the seats hold after `seat` plays `card`. -/
theorem SaskuDeal.remaining_playCard (deal : SaskuDeal) (s : HandState) {seat : SaskuSeat}
    {card : SaskuCardId} (hcard : card ∈ deal.hands seat) :
    deal.remaining ((s.record (.play seat card)).playCard seat card) =
      Function.update (deal.remaining s) seat ((deal.remaining s seat).erase card) := by
  funext other
  have hplays : ((s.record (.play seat card)).playCard seat card).plays
      = s.plays ++ [SaskuPlay.mk seat card] := plays_record_play s seat card
  by_cases hother : other = seat
  · subst hother
    rw [Function.update_self, (deal.nodup_remaining s other).erase_eq_filter,
      SaskuDeal.remaining, SaskuDeal.remaining, List.filter_filter, hplays]
    refine List.filter_congr fun c _ => ?_
    by_cases hc : c = card <;> simp [hc]
  · rw [Function.update_of_ne hother, SaskuDeal.remaining, SaskuDeal.remaining, hplays]
    refine List.filter_congr fun c hc => ?_
    -- the card that was played is not this seat's
    have hne : c ≠ card := by
      rintro rfl
      exact hother (deal.seat_unique hc hcard)
    simp [hne]

/-- A play of a held card keeps the hands in step with the deal. -/
theorem HoldsDeal.playCard {deal : SaskuDeal} {s : HandState} {seat : SaskuSeat}
    {card : SaskuCardId} (h : HoldsDeal deal s) (hcard : card ∈ deal.remaining s seat) :
    HoldsDeal deal ((s.record (.play seat card)).playCard seat card) := by
  obtain ⟨hdealt, -⟩ := SaskuDeal.mem_remaining.1 hcard
  refine ⟨?_, ?_, ?_⟩
  · show s.hands.map _ = _
    rw [h.hands, deal.remaining_playCard s hdealt]
    rfl
  · show ∀ p ∈ (s.record (.play seat card)).plays, p.card ∈ deal.hands p.seat
    rw [plays_record_play]
    intro p hp
    rcases List.mem_append.1 hp with hp | hp
    · exact h.owned p hp
    · rw [List.mem_singleton.1 hp]
      exact hdealt
  · intro other
    rw [deal.remaining_playCard s hdealt]
    show _ = Function.update s.handSizes seat (s.handSizes seat - 1) other
    by_cases hother : other = seat
    · subst hother
      rw [Function.update_self, Function.update_self, List.length_erase_of_mem hcard, h.sizes]
    · rw [Function.update_of_ne hother, Function.update_of_ne hother, h.sizes]

/-- **Every accepted action keeps the hands in step with the deal.** -/
theorem HoldsDeal.step {deal : SaskuDeal} {s s' : HandState} {a : SaskuHandAction}
    (h : HoldsDeal deal s) (hprivate : PrivateOk s a) (hstep : HandStep s a s') :
    HoldsDeal deal s' := by
  cases hstep with
  | bid | diamonds | passOn | passOut | passWin | chooseTrump =>
      exact h.of_same (plays_record_of_none rfl) rfl rfl
  | play | takeTrick | completeHand =>
      exact (h.playCard (hprivate _ h.hands).1).of_same rfl rfl rfl

theorem HoldsDeal.nextAction {deal : SaskuDeal} {s s' : HandState} {a : SaskuHandAction}
    (h : HoldsDeal deal s) (hok : nextAction s a = .ok s') : HoldsDeal deal s' := by
  obtain ⟨-, hprivate, hstep⟩ := nextAction_ok_iff.1 hok
  exact h.step hprivate hstep

/-- **The hands are the deal less the cards played**, in every reachable state of
the reference controller. -/
theorem holdsDeal_of_run {dealer : SaskuSeat} {deal : SaskuDeal} {actions : List ActionCandidate}
    {s : HandState} (h : applyAll (referenceHand dealer deal) actions = .ok s) :
    HoldsDeal deal s :=
  applyAll_invariant HoldsDeal.nextAction (HoldsDeal.init dealer deal) h

/-- The public controller never learns a hand. -/
theorem nextAction_hands_none {s s' : HandState} {a : SaskuHandAction} (h : s.hands = none)
    (hok : nextAction s a = .ok s') : s'.hands = none := by
  obtain ⟨-, -, hstep⟩ := nextAction_ok_iff.1 hok
  cases hstep <;> simp [HandState.takeTrick, HandState.playCard, HandState.record, h]

theorem hands_none_of_run {dealer : SaskuSeat} {actions : List ActionCandidate} {s : HandState}
    (h : applyAll (publicHand dealer) actions = .ok s) : s.hands = none :=
  applyAll_invariant (P := fun s => s.hands = none) nextAction_hands_none rfl h

end Tablefolk
