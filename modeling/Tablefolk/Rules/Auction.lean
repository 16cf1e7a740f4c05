import Tablefolk.Rules.HandInvariant

/-!
# How long a hand can be

The history of a hand is its auction, at most one choice of trump, and the plays.
The plays are bounded by the deck.  The auction is bounded because a seat bids at
most once: three passes may come before the first bid, two between one bid and the
next, and three close it, so four bids make at most sixteen actions.

`AuctionInv` is that count as an invariant; `history_length_le` is the bound.
-/

namespace Tablefolk

/-! ## The three parts of a history -/

def SaskuHandAction.isAuction : SaskuHandAction → Bool
  | .pass _ | .diamonds _ | .bid _ _ => true
  | _ => false

def SaskuHandAction.isTrumpChoice : SaskuHandAction → Bool
  | .choose_trump _ _ => true
  | _ => false

/-- The actions of the auction. -/
def HandState.auctionLength (s : HandState) : ℕ := s.history.countP SaskuHandAction.isAuction

def HandState.trumpChoices (s : HandState) : ℕ := s.history.countP SaskuHandAction.isTrumpChoice

/-- The seats that have bid. -/
def HandState.bidders (s : HandState) : List SaskuSeat :=
  s.history.filterMap SaskuHandAction.bidder

theorem length_eq_parts (history : List SaskuHandAction) :
    history.length = history.countP SaskuHandAction.isAuction
      + history.countP SaskuHandAction.isTrumpChoice
      + (history.filterMap SaskuHandAction.toPlay).length := by
  induction history with
  | nil => rfl
  | cons a rest ih =>
      rw [List.length_cons, ih]
      cases a <;> simp [List.countP_cons, List.filterMap_cons, SaskuHandAction.isAuction,
        SaskuHandAction.isTrumpChoice, SaskuHandAction.toPlay] <;> omega

theorem HandState.length_history (s : HandState) :
    s.history.length = s.auctionLength + s.trumpChoices + s.plays.length :=
  length_eq_parts s.history

section Record

variable (s : HandState) (a : SaskuHandAction)

@[simp] theorem auctionLength_record :
    (s.record a).auctionLength = s.auctionLength + if a.isAuction then 1 else 0 := by
  simp [HandState.auctionLength, HandState.record, List.countP_append, List.countP_singleton]

@[simp] theorem trumpChoices_record :
    (s.record a).trumpChoices = s.trumpChoices + if a.isTrumpChoice then 1 else 0 := by
  simp [HandState.trumpChoices, HandState.record, List.countP_append, List.countP_singleton]

@[simp] theorem bidders_record :
    (s.record a).bidders = s.bidders ++ a.bidder.toList := by
  cases h : a.bidder <;> simp [HandState.bidders, HandState.record, List.filterMap_append, h]

end Record

/-! ## The bound on the auction -/

/-- How long the auction has been, for each phase.  Without a bid it is a run of
passes; a bid buys room for three more actions. -/
def AuctionBound (s : HandState) : Prop :=
  match s.phase, s.highestBid with
  | .bidding, none => s.trumpChoices = 0 ∧ s.bidders = [] ∧
      s.auctionLength = s.consecutivePasses ∧ s.consecutivePasses ≤ 3
  | .bidding, some _ => s.trumpChoices = 0 ∧ s.consecutivePasses ≤ 2 ∧
      s.auctionLength ≤ 3 * s.bidders.length + 1 + s.consecutivePasses
  | .choosing_trump, _ => s.trumpChoices = 0 ∧ s.auctionLength ≤ 16
  | _, _ => s.trumpChoices ≤ 1 ∧ s.auctionLength ≤ 16

/-- The auction is within its bound and no seat has bid twice. -/
structure AuctionInv (s : HandState) : Prop where
  bidders : s.bidders.Nodup
  bound : AuctionBound s

/-- Four seats make at most four bids. -/
theorem AuctionInv.bidders_le {s : HandState} (h : AuctionInv s) : s.bidders.length ≤ 4 :=
  h.bidders.length_le_card

theorem AuctionInv.init (dealer : SaskuSeat)
    (hands : Option (SaskuSeat → List SaskuCardId)) : AuctionInv (initialState dealer hands) where
  bidders := List.nodup_nil
  bound := ⟨rfl, rfl, rfl, Nat.zero_le _⟩

/-- During the bidding at most fifteen actions have been made. -/
theorem AuctionInv.bidding {s : HandState} (h : AuctionInv s) (phase : s.phase = .bidding) :
    s.trumpChoices = 0 ∧ s.auctionLength ≤ 15 := by
  have hbids := h.bidders_le
  have hbound := h.bound
  cases hbid : s.highestBid with
  | none =>
      simp only [AuctionBound, phase, hbid] at hbound
      omega
  | some highest =>
      simp only [AuctionBound, phase, hbid] at hbound
      omega

/-- A state of the later phases that recorded nothing but auction actions. -/
theorem AuctionInv.later {s : HandState} (h : AuctionInv s) :
    s.trumpChoices ≤ 1 ∧ s.auctionLength ≤ 16 := by
  have hbound := h.bound
  cases phase : s.phase with
  | bidding =>
      have := h.bidding phase
      omega
  | choosing_trump =>
      simp only [AuctionBound, phase] at hbound
      omega
  | playing | complete =>
      simp only [AuctionBound, phase] at hbound
      exact hbound

/-- What an action that is no bid does to the bidders. -/
theorem bidders_of_history {s s' : HandState} {a : SaskuHandAction} (hbid : a.bidder = none)
    (hhistory : s'.history = s.history ++ [a]) : s'.bidders = s.bidders := by
  rw [HandState.bidders, hhistory, List.filterMap_append]
  simp [HandState.bidders, hbid]

/-- A play adds nothing to the auction. -/
theorem AuctionInv.of_play {s s' : HandState} (h : AuctionInv s) {seat : SaskuSeat}
    {card : SaskuCardId} (hhistory : s'.history = s.history ++ [.play seat card])
    (hphase : s'.phase = .playing ∨ s'.phase = .complete) : AuctionInv s' := by
  have hlater := h.later
  have hauction : s'.auctionLength = s.auctionLength := by
    simp [HandState.auctionLength, hhistory, SaskuHandAction.isAuction]
  have htrump : s'.trumpChoices = s.trumpChoices := by
    simp [HandState.trumpChoices, hhistory, SaskuHandAction.isTrumpChoice]
  refine ⟨by rw [bidders_of_history rfl hhistory]; exact h.bidders, ?_⟩
  rcases hphase with hphase | hphase <;> simp only [AuctionBound, hphase] <;>
    rw [hauction, htrump] <;> exact hlater

/-- **Every accepted action keeps the auction within its bound.** -/
theorem AuctionInv.step {s s' : HandState} {a : SaskuHandAction} (h : AuctionInv s)
    (hstep : HandStep s a s') : AuctionInv s' := by
  have hbids := h.bidders_le
  have hbound := h.bound
  cases hstep with
  | @bid seat value phase higher fresh =>
      have hbidders : (s.record (.bid seat value)).bidders = s.bidders ++ [seat] :=
        bidders_record s _
      have hauction : (s.record (.bid seat value)).auctionLength = s.auctionLength + 1 :=
        auctionLength_record s _
      have htrump : (s.record (.bid seat value)).trumpChoices = s.trumpChoices :=
        trumpChoices_record s _
      refine ⟨?_, ?_⟩
      · show (s.record (.bid seat value)).bidders.Nodup
        rw [hbidders]
        exact List.nodup_append.2 ⟨h.bidders, List.nodup_singleton _, fun x hx y hy => by
          rintro rfl
          exact fresh (List.mem_singleton.1 hy ▸ hx)⟩
      · have hlen : (s.record (.bid seat value)).bidders.length = s.bidders.length + 1 := by
          rw [hbidders, List.length_append, List.length_singleton]
        simp only [AuctionBound, HandState.record, phase]
        show (s.record (.bid seat value)).trumpChoices = 0 ∧ 0 ≤ 2 ∧
          (s.record (.bid seat value)).auctionLength
            ≤ 3 * (s.record (.bid seat value)).bidders.length + 1 + 0
        rw [htrump, hauction, hlen]
        -- the bid replaces the passes since the last bid, of which there were at most two
        cases hbid : s.highestBid <;> simp only [AuctionBound, phase, hbid] at hbound <;> omega
  | @diamonds seat phase =>
      have hcount := h.bidding phase
      refine ⟨by rw [bidders_of_history rfl rfl]; exact h.bidders, ?_⟩
      show (s.record (.diamonds seat)).trumpChoices ≤ 1 ∧
        (s.record (.diamonds seat)).auctionLength ≤ 16
      simp only [trumpChoices_record, auctionLength_record, SaskuHandAction.isAuction,
        SaskuHandAction.isTrumpChoice]
      simp only [Bool.false_eq_true, if_true, if_false]
      omega
  | @passOn seat phase open_ =>
      have hauction : (s.record (.pass seat)).auctionLength = s.auctionLength + 1 :=
        auctionLength_record s _
      have htrump : (s.record (.pass seat)).trumpChoices = s.trumpChoices :=
        trumpChoices_record s _
      have hbidders : (s.record (.pass seat)).bidders = s.bidders := bidders_of_history rfl rfl
      refine ⟨by rw [bidders_of_history rfl rfl]; exact h.bidders, ?_⟩
      cases hbid : s.highestBid with
      | none =>
          simp only [AuctionBound, phase, hbid] at hbound
          rw [if_pos hbid] at open_
          simp only [AuctionBound, HandState.record, phase, hbid]
          show (s.record (.pass seat)).trumpChoices = 0 ∧ (s.record (.pass seat)).bidders = [] ∧
            (s.record (.pass seat)).auctionLength = s.consecutivePasses + 1 ∧
            s.consecutivePasses + 1 ≤ 3
          rw [htrump, hauction, hbidders]
          exact ⟨hbound.1, hbound.2.1, by omega, by omega⟩
      | some highest =>
          simp only [AuctionBound, phase, hbid] at hbound
          rw [hbid, if_neg (by simp)] at open_
          simp only [AuctionBound, HandState.record, phase, hbid]
          show (s.record (.pass seat)).trumpChoices = 0 ∧ s.consecutivePasses + 1 ≤ 2 ∧
            (s.record (.pass seat)).auctionLength
              ≤ 3 * (s.record (.pass seat)).bidders.length + 1 + (s.consecutivePasses + 1)
          rw [htrump, hauction, hbidders]
          omega
  | @passOut seat phase noBid fourth =>
      have hcount := h.bidding phase
      refine ⟨by rw [bidders_of_history rfl rfl]; exact h.bidders, ?_⟩
      show (s.record (.pass seat)).trumpChoices ≤ 1 ∧ (s.record (.pass seat)).auctionLength ≤ 16
      simp only [trumpChoices_record, auctionLength_record, SaskuHandAction.isAuction,
        SaskuHandAction.isTrumpChoice, Bool.false_eq_true, if_true, if_false]
      omega
  | @passWin seat highest phase won third =>
      have hcount := h.bidding phase
      refine ⟨by rw [bidders_of_history rfl rfl]; exact h.bidders, ?_⟩
      show (s.record (.pass seat)).trumpChoices = 0 ∧ (s.record (.pass seat)).auctionLength ≤ 16
      simp only [trumpChoices_record, auctionLength_record, SaskuHandAction.isAuction,
        SaskuHandAction.isTrumpChoice, Bool.false_eq_true, if_true, if_false]
      omega
  | @chooseTrump seat suit phase =>
      simp only [AuctionBound, phase] at hbound
      refine ⟨by rw [bidders_of_history rfl rfl]; exact h.bidders, ?_⟩
      show (s.record (.choose_trump seat suit)).trumpChoices ≤ 1 ∧
        (s.record (.choose_trump seat suit)).auctionLength ≤ 16
      simp only [trumpChoices_record, auctionLength_record, SaskuHandAction.isAuction,
        SaskuHandAction.isTrumpChoice, Bool.false_eq_true, if_true, if_false]
      omega
  | play phase => exact h.of_play rfl (.inl phase)
  | takeTrick phase => exact h.of_play rfl (.inl phase)
  | completeHand => exact h.of_play rfl (.inr rfl)

theorem AuctionInv.nextAction {s s' : HandState} {a : SaskuHandAction} (h : AuctionInv s)
    (hok : nextAction s a = .ok s') : AuctionInv s' := by
  obtain ⟨-, -, hstep⟩ := nextAction_ok_iff.1 hok
  exact h.step hstep

/-- **The auction stays within its bound** in every reachable state. -/
theorem auctionInv_of_run {dealer : SaskuSeat} {hands : Option (SaskuSeat → List SaskuCardId)}
    {actions : List ActionCandidate} {s : HandState}
    (h : applyAll (initialState dealer hands) actions = .ok s) : AuctionInv s :=
  applyAll_invariant AuctionInv.nextAction (AuctionInv.init dealer hands) h

/-! ## The bound on a history -/

/-- No more cards are played than the deck holds. -/
theorem TableInv.plays_le {s : HandState} (h : TableInv s) : s.plays.length ≤ 36 := by
  have hsub : s.plays.map SaskuPlay.card ⊆ SASKU_CARDS := fun card _ => mem_SASKU_CARDS card
  simpa [length_SASKU_CARDS] using (List.subperm_of_subset h.distinct hsub).length_le

/-- Sixteen auction actions, one trump choice, thirty-six plays. -/
theorem history_length_le {s : HandState} (htable : TableInv s) (hauction : AuctionInv s) :
    s.history.length ≤ 53 := by
  have hlater := hauction.later
  have hplays := htable.plays_le
  have hlength := s.length_history
  omega

/-- The action budget is never used up. -/
theorem history_in_budget {s : HandState} (htable : TableInv s) (hauction : AuctionInv s) :
    s.history.length < MAX_SASKU_HAND_ACTIONS :=
  lt_of_le_of_lt (history_length_le htable hauction) (by decide)

/-- An accepted action is recorded. -/
theorem HandStep.history {s s' : HandState} {a : SaskuHandAction} (h : HandStep s a s') :
    s'.history = s.history ++ [a] := by
  cases h <;> rfl

end Tablefolk
