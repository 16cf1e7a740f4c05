import Tablefolk.Rules.Hand

/-!
# What one hand action can do

`nextState` is one long function; every invariant of the hand would have to
walk through all of its branches.  This file does that walk once.

* `Expected`, `PrivateOk` and `HandStep` are the three things an accepted action
  satisfies: it is its seat's turn, the private rules hold (when the hands are
  known), and the public rules take the state to its successor.
* `nextAction_ok_iff` says that `nextState` accepts exactly those actions.
* `HandStep.erase` and `HandStep.lift` move a public step between the reference
  controller and the public one: they differ in `PrivateOk` only.
-/

namespace Tablefolk

/-- The state with the action recorded, the first thing `nextState` builds. -/
def HandState.record (s : HandState) (a : SaskuHandAction) : HandState :=
  { s with history := s.history ++ [a] }

/-- It is this seat's turn and the action budget is not used up. -/
structure Expected (s : HandState) (a : SaskuHandAction) : Prop where
  turn : s.turn = some a.seat
  budget : s.history.length < MAX_SASKU_HAND_ACTIONS

/-- The rules that need the hands: a bid is covered by the hand's strength, and
a played card is held and follows suit. -/
def PrivateOk (s : HandState) : SaskuHandAction → Prop
  | .bid seat value => ∀ hands, s.hands = some hands →
      ∃ strength, saskuBidStrength (hands seat) = .ok strength ∧ value.val ≤ strength
  | .play seat card => ∀ hands, s.hands = some hands → card ∈ hands seat ∧
      ∃ contract legal, s.contract = some contract ∧
        legalSaskuCards (hands seat) s.trick (trumpSuit contract) = .ok legal ∧ card ∈ legal
  | _ => True

/-- The public rules and the successor state. -/
inductive HandStep (s : HandState) : SaskuHandAction → HandState → Prop
  | bid {seat : SaskuSeat} {value : BidValue} (phase : s.phase = .bidding)
      (higher : ∀ highest, s.highestBid = some highest → highest.value.val < value.val)
      (fresh : seat ∉ s.history.filterMap SaskuHandAction.bidder) :
      HandStep s (.bid seat value) { s.record (.bid seat value) with
        highestBid := some ⟨seat, value⟩, consecutivePasses := 0, turn := some (nextSeat seat) }
  | diamonds {seat : SaskuSeat} (phase : s.phase = .bidding) :
      HandStep s (.diamonds seat) { s.record (.diamonds seat) with
        contract := some (.named .diamonds seat), phase := .playing, turn := some seat }
  | passOn {seat : SaskuSeat} (phase : s.phase = .bidding)
      (open_ : s.consecutivePasses + 1 ≠ if s.highestBid = none then 4 else 3) :
      HandStep s (.pass seat) { s.record (.pass seat) with
        consecutivePasses := s.consecutivePasses + 1, turn := some (nextSeat seat) }
  | passOut {seat : SaskuSeat} (phase : s.phase = .bidding) (noBid : s.highestBid = none)
      (fourth : s.consecutivePasses + 1 = 4) :
      HandStep s (.pass seat) { s.record (.pass seat) with
        consecutivePasses := s.consecutivePasses + 1, contract := some .passRound,
        phase := .playing, turn := some (nextSeat s.dealer) }
  | passWin {seat : SaskuSeat} {highest : HighestBid} (phase : s.phase = .bidding)
      (bid : s.highestBid = some highest) (third : s.consecutivePasses + 1 = 3) :
      HandStep s (.pass seat) { s.record (.pass seat) with
        consecutivePasses := s.consecutivePasses + 1, phase := .choosing_trump,
        turn := some highest.seat }
  | chooseTrump {seat : SaskuSeat} {suit : SaskuSuit} (phase : s.phase = .choosing_trump) :
      HandStep s (.choose_trump seat suit) { s.record (.choose_trump seat suit) with
        contract := some (.named suit seat), phase := .playing, turn := some seat }
  | play {seat : SaskuSeat} {card : SaskuCardId} (phase : s.phase = .playing)
      (fresh : card ∉ (s.history.filterMap SaskuHandAction.toPlay).map SaskuPlay.card)
      (held : s.handSizes seat ≠ 0) (short : s.trick.length + 1 ≠ 4) :
      HandStep s (.play seat card) { (s.record (.play seat card)).playCard seat card with
        turn := some (nextSeat seat) }
  | takeTrick {seat : SaskuSeat} {card : SaskuCardId} {contract : SaskuContract}
      {result : SaskuTrickResult} (phase : s.phase = .playing)
      (fresh : card ∉ (s.history.filterMap SaskuHandAction.toPlay).map SaskuPlay.card)
      (held : s.handSizes seat ≠ 0) (full : s.trick.length + 1 = 4)
      (hcontract : s.contract = some contract)
      (resolved : resolveSaskuTrick (s.trick ++ [⟨seat, card⟩]) (trumpSuit contract) = .ok result)
      (more : s.completedTricks.length + 1 ≠ 9) :
      HandStep s (.play seat card)
        { ((s.record (.play seat card)).playCard seat card).takeTrick result with
          turn := some result.winner.seat }
  | completeHand {seat : SaskuSeat} {card : SaskuCardId} {contract : SaskuContract}
      {result : SaskuTrickResult} {score : SaskuHandScore} (phase : s.phase = .playing)
      (fresh : card ∉ (s.history.filterMap SaskuHandAction.toPlay).map SaskuPlay.card)
      (held : s.handSizes seat ≠ 0) (full : s.trick.length + 1 = 4)
      (hcontract : s.contract = some contract)
      (resolved : resolveSaskuTrick (s.trick ++ [⟨seat, card⟩]) (trumpSuit contract) = .ok result)
      (ninth : s.completedTricks.length + 1 = 9)
      (scored : scoreSaskuHand
        ⟨(((s.record (.play seat card)).playCard seat card).takeTrick result).cardPoints,
          (((s.record (.play seat card)).playCard seat card).takeTrick result).tricksWon, contract⟩
          = .ok score) :
      HandStep s (.play seat card)
        { ((s.record (.play seat card)).playCard seat card).takeTrick result with
          score := some score, phase := .complete, turn := none }

/-! ## `nextState` accepts exactly these -/

theorem checkBidStrength_ok_iff {s : HandState} {seat : SaskuSeat} {value : BidValue} :
    checkBidStrength s seat value = .ok () ↔ PrivateOk s (.bid seat value) := by
  cases hands : s.hands with
  | none => simp [checkBidStrength, PrivateOk, hands]
  | some h => simp [checkBidStrength, PrivateOk, hands, bind_eq_ok]

theorem checkHigherBid_ok_iff {s : HandState} {value : BidValue} :
    checkHigherBid s value = .ok () ↔
      ∀ highest, s.highestBid = some highest → highest.value.val < value.val := by
  cases h : s.highestBid with
  | none => simp [checkHigherBid, h]
  | some highest => simp [checkHigherBid, h]

theorem checkHeldCard_ok_iff {s : HandState} {seat : SaskuSeat} {card : SaskuCardId} :
    checkHeldCard s seat card = .ok () ↔ PrivateOk s (.play seat card) := by
  cases hands : s.hands with
  | none => simp [checkHeldCard, PrivateOk, hands]
  | some h =>
      cases hc : s.contract with
      | none => simp [checkHeldCard, PrivateOk, hands, hc, HandState.contractOrThrow]
      | some c => simp [checkHeldCard, PrivateOk, hands, hc, HandState.contractOrThrow, bind_eq_ok]

@[simp] theorem checkBidStrength_record {s : HandState} {a : SaskuHandAction} {seat : SaskuSeat}
    {value : BidValue} : checkBidStrength (s.record a) seat value = checkBidStrength s seat value :=
  rfl

@[simp] theorem checkHigherBid_record {s : HandState} {a : SaskuHandAction} {value : BidValue} :
    checkHigherBid (s.record a) value = checkHigherBid s value := rfl

@[simp] theorem checkHeldCard_record {s : HandState} {a : SaskuHandAction} {seat : SaskuSeat}
    {card : SaskuCardId} : checkHeldCard (s.record a) seat card = checkHeldCard s seat card := rfl

theorem contractOrThrow_eq_ok {s : HandState} {contract : SaskuContract} :
    s.contractOrThrow = .ok contract ↔ s.contract = some contract := by
  cases h : s.contract <;> simp [HandState.contractOrThrow, h]

theorem contractOrThrow_of_some {s : HandState} {contract : SaskuContract}
    (h : s.contract = some contract) : s.contractOrThrow = .ok contract :=
  contractOrThrow_eq_ok.2 h

theorem nextBidding_ok_iff {s s' : HandState} {a : SaskuHandAction} (phase : s.phase = .bidding) :
    nextBidding s (s.record a) a = .ok s' ↔ PrivateOk s a ∧ HandStep s a s' := by
  cases a with
  | bid seat value =>
      simp only [nextBidding, checkBidStrength_record, checkHigherBid_record,
        check_bind_eq_ok, throwIf_eq_ok, checkBidStrength_ok_iff, checkHigherBid_ok_iff,
        except_pure_eq, Except.ok.injEq]
      constructor
      · rintro ⟨hprivate, higher, fresh, rfl⟩
        exact ⟨hprivate, .bid phase higher fresh⟩
      · rintro ⟨hprivate, hstep⟩
        cases hstep with
        | bid _ higher fresh => exact ⟨hprivate, higher, fresh, rfl⟩
  | diamonds seat =>
      constructor
      · rintro h
        cases h
        exact ⟨trivial, .diamonds phase⟩
      · rintro ⟨-, hstep⟩
        cases hstep
        rfl
  | pass seat =>
      constructor
      · intro h
        refine ⟨trivial, ?_⟩
        simp only [nextBidding] at h
        split at h
        · rename_i noBid
          have noBid : s.highestBid = none := noBid
          split at h <;> cases h
          · exact .passOut phase noBid ‹_›
          · exact .passOn phase (by rw [if_pos noBid]; assumption)
        · rename_i highest bid
          have bid : s.highestBid = some highest := bid
          split at h <;> cases h
          · exact .passWin phase bid ‹_›
          · exact .passOn phase (by rw [bid, if_neg (by simp)]; assumption)
      · rintro ⟨-, hstep⟩
        cases hstep with
        | passOn _ open_ =>
            simp only [nextBidding]
            split
            · rename_i noBid
              have noBid : s.highestBid = none := noBid
              rw [if_pos noBid] at open_
              exact if_neg open_
            · rename_i highest bid
              have bid : s.highestBid = some highest := bid
              rw [bid, if_neg (by simp)] at open_
              exact if_neg open_
        | passOut _ noBid fourth =>
            simp only [nextBidding]
            split
            · exact if_pos fourth
            · rename_i highest bid
              exact absurd (noBid.symm.trans bid) (by simp)
        | passWin _ won third =>
            simp only [nextBidding]
            split
            · rename_i noBid
              exact absurd (won.symm.trans noBid) (by simp)
            · rename_i highest bid
              obtain rfl := Option.some.inj (won.symm.trans bid)
              exact if_pos third
  | choose_trump seat suit =>
      refine ⟨fun h => by simp [nextBidding] at h, ?_⟩
      rintro ⟨-, hstep⟩
      cases hstep with
      | chooseTrump h => rw [phase] at h; cases h
  | play seat card =>
      refine ⟨fun h => by simp [nextBidding] at h, ?_⟩
      rintro ⟨-, hstep⟩
      cases hstep with
      | play h | takeTrick h | completeHand h => rw [phase] at h; cases h

theorem nextChoosingTrump_ok_iff {s s' : HandState} {a : SaskuHandAction}
    (phase : s.phase = .choosing_trump) :
    nextChoosingTrump (s.record a) a = .ok s' ↔ PrivateOk s a ∧ HandStep s a s' := by
  cases a with
  | choose_trump seat suit =>
      constructor
      · intro h
        cases h
        exact ⟨trivial, .chooseTrump phase⟩
      · rintro ⟨-, hstep⟩
        cases hstep
        rfl
  | _ =>
      refine ⟨fun h => by simp [nextChoosingTrump] at h, ?_⟩
      rintro ⟨-, hstep⟩
      cases hstep <;> simp_all

theorem nextPlaying_ok_iff {s s' : HandState} {a : SaskuHandAction} (phase : s.phase = .playing) :
    nextPlaying s (s.record a) a = .ok s' ↔ PrivateOk s a ∧ HandStep s a s' := by
  cases a with
  | play seat card =>
      have hlen : (((s.record (.play seat card)).playCard seat card).trick).length
          = s.trick.length + 1 := by simp [HandState.playCard, HandState.record]
      simp only [nextPlaying, checkHeldCard_record, check_bind_eq_ok, throwIf_eq_ok,
        checkHeldCard_ok_iff]
      constructor
      · rintro ⟨hprivate, fresh, held, h⟩
        refine ⟨hprivate, ?_⟩
        split at h
        · rename_i full
          rw [hlen] at full
          simp only [finishTrick, bind_eq_ok] at h
          obtain ⟨contract, hcontract, result, resolved, h⟩ := h
          have hc : s.contract = some contract := contractOrThrow_eq_ok.1 hcontract
          split at h
          · rename_i ninth
            obtain ⟨score, scored, h⟩ := bind_eq_ok.1 h
            cases h
            exact .completeHand phase fresh held full hc resolved (by simpa [HandState.takeTrick,
              HandState.playCard, HandState.record] using ninth) scored
          · rename_i more
            cases h
            exact .takeTrick phase fresh held full hc resolved (by simpa [HandState.takeTrick,
              HandState.playCard, HandState.record] using more)
        · rename_i short
          rw [hlen] at short
          cases h
          exact .play phase fresh held short
      · rintro ⟨hprivate, hstep⟩
        cases hstep with
        | play _ fresh held short =>
            exact ⟨hprivate, fresh, held, if_neg (by rw [hlen]; exact short)⟩
        | takeTrick _ fresh held full hcontract resolved more =>
            refine ⟨hprivate, fresh, held, ?_⟩
            rw [if_pos (by rw [hlen]; exact full)]
            simp only [finishTrick, bind_eq_ok]
            refine ⟨_, contractOrThrow_of_some hcontract, _, resolved, ?_⟩
            exact if_neg (by simpa [HandState.takeTrick, HandState.playCard, HandState.record]
              using more)
        | completeHand _ fresh held full hcontract resolved ninth scored =>
            refine ⟨hprivate, fresh, held, ?_⟩
            rw [if_pos (by rw [hlen]; exact full)]
            simp only [finishTrick, bind_eq_ok]
            refine ⟨_, contractOrThrow_of_some hcontract, _, resolved, ?_⟩
            rw [if_pos (by simpa [HandState.takeTrick, HandState.playCard, HandState.record]
              using ninth)]
            exact bind_eq_ok.2 ⟨_, scored, rfl⟩
  | _ =>
      refine ⟨fun h => by simp [nextPlaying] at h, ?_⟩
      rintro ⟨-, hstep⟩
      cases hstep <;> simp_all

/-- An action is accepted exactly when it is expected, keeps the private rules
and makes a public step. -/
theorem nextAction_ok_iff {s s' : HandState} {a : SaskuHandAction} :
    nextAction s a = .ok s' ↔ Expected s a ∧ PrivateOk s a ∧ HandStep s a s' := by
  have hguards : ∀ accepted : Prop, (¬s.phase = .complete ∧ ¬some a.seat ≠ s.turn ∧
      ¬MAX_SASKU_HAND_ACTIONS ≤ s.history.length ∧ accepted) ↔
        s.phase ≠ .complete ∧ Expected s a ∧ accepted := by
    intro accepted
    constructor
    · rintro ⟨hphase, hturn, hbudget, h⟩
      exact ⟨hphase, ⟨(not_not.1 hturn).symm, not_le.1 hbudget⟩, h⟩
    · rintro ⟨hphase, ⟨hturn, hbudget⟩, h⟩
      exact ⟨hphase, not_not.2 hturn.symm, not_le.2 hbudget, h⟩
  simp only [nextAction, check_bind_eq_ok, throwIf_eq_ok]
  rw [hguards]
  have hnext : ∀ {phase} {next : Except SaskuError HandState}, s.phase = phase →
      phase ≠ .complete → (next = .ok s' ↔ PrivateOk s a ∧ HandStep s a s') →
      (s.phase ≠ .complete ∧ Expected s a ∧ next = .ok s' ↔
        Expected s a ∧ PrivateOk s a ∧ HandStep s a s') := by
    intro phase next hphase hne hiff
    rw [hiff]
    exact ⟨fun h => h.2, fun h => ⟨hphase ▸ hne, h⟩⟩
  split
  · rename_i phase
    exact hnext phase (by decide) (nextBidding_ok_iff phase)
  · rename_i phase
    exact hnext phase (by decide) (nextChoosingTrump_ok_iff phase)
  · rename_i hbidding hchoosing
    cases phase : s.phase with
    | bidding => exact absurd phase hbidding
    | choosing_trump => exact absurd phase hchoosing
    | playing => exact phase ▸ hnext phase (by decide) (nextPlaying_ok_iff phase)
    | complete =>
        refine ⟨fun h => absurd rfl h.1, ?_⟩
        rintro ⟨-, -, hstep⟩
        cases hstep <;> simp_all

/-! ## Candidates -/

/-- Normalising a normalised action gives it back. -/
theorem normalizeAction_candidate (a : SaskuHandAction) : normalizeAction a.candidate = .ok a := by
  have hseat : ∀ seat : SaskuSeat, checkSeat (seat.val : ℤ) = .ok seat := by decide
  cases a with
  | pass seat | diamonds seat =>
      simp [normalizeAction, SaskuHandAction.candidate, hseat, ActionCandidate.keys]
  | bid seat value =>
      obtain ⟨v, three_le, le_nine⟩ := value
      simp [normalizeAction, SaskuHandAction.candidate, hseat, ActionCandidate.keys, three_le,
        le_nine]
  | choose_trump seat suit =>
      simp [normalizeAction, SaskuHandAction.candidate, hseat, ActionCandidate.keys,
        saskuSuitOf_text]
  | play seat card =>
      simp [normalizeAction, SaskuHandAction.candidate, hseat, ActionCandidate.keys,
        parseSaskuCard_text]

@[simp] theorem nextState_candidate (s : HandState) (a : SaskuHandAction) :
    nextState s a.candidate = nextAction s a := by
  rw [nextState, normalizeAction_candidate, ok_bind]

/-! ## The public part of a state -/

/-- What the public controller sees of a state. -/
def HandState.erase (s : HandState) : HandState := { s with hands := none }

@[simp] theorem privateOk_erase (s : HandState) (a : SaskuHandAction) : PrivateOk s.erase a := by
  cases a <;> simp [PrivateOk, HandState.erase]

/-- A step of the reference controller is a step of the public one. -/
theorem HandStep.erase {s s' : HandState} {a : SaskuHandAction} (h : HandStep s a s') :
    HandStep s.erase a s'.erase := by
  cases h with
  | bid phase higher fresh => exact .bid phase higher fresh
  | diamonds phase => exact .diamonds phase
  | passOn phase open_ => exact .passOn phase open_
  | passOut phase noBid fourth => exact .passOut phase noBid fourth
  | passWin phase bid third => exact .passWin phase bid third
  | chooseTrump phase => exact .chooseTrump phase
  | play phase fresh held short => exact .play (s := s.erase) phase fresh held short
  | takeTrick phase fresh held full hcontract resolved more =>
      exact .takeTrick (s := s.erase) phase fresh held full hcontract resolved more
  | completeHand phase fresh held full hcontract resolved ninth scored =>
      exact .completeHand (s := s.erase) phase fresh held full hcontract resolved ninth scored

/-- A step of the public controller is a step of the reference controller, as
far as the public rules go. -/
theorem HandStep.lift {s p : HandState} {a : SaskuHandAction} (h : HandStep s.erase a p) :
    ∃ s', HandStep s a s' ∧ s'.erase = p := by
  cases h with
  | bid phase higher fresh => exact ⟨_, .bid phase higher fresh, rfl⟩
  | diamonds phase => exact ⟨_, .diamonds phase, rfl⟩
  | passOn phase open_ => exact ⟨_, .passOn phase open_, rfl⟩
  | passOut phase noBid fourth => exact ⟨_, .passOut phase noBid fourth, rfl⟩
  | passWin phase bid third => exact ⟨_, .passWin phase bid third, rfl⟩
  | chooseTrump phase => exact ⟨_, .chooseTrump phase, rfl⟩
  | play phase fresh held short => exact ⟨_, .play (s := s) phase fresh held short, rfl⟩
  | takeTrick phase fresh held full hcontract resolved more =>
      exact ⟨_, .takeTrick (s := s) phase fresh held full hcontract resolved more, rfl⟩
  | completeHand phase fresh held full hcontract resolved ninth scored =>
      exact ⟨_, .completeHand (s := s) phase fresh held full hcontract resolved ninth scored, rfl⟩

end Tablefolk
