import Tablefolk.Rules.Progress

/-!
# The audit simulates the public controller

The two controllers run in lockstep: erasing the hands from a state of the
reference controller gives the public controller's state.  They part company only
at an action that breaks a private rule of the deal, and then the reference
controller says which one.

* `Broken` is what each audit rule says about the deal.
* `nextAction_lockstep` is one step: both controllers accept, or the reference
  controller rejects with a rule that is broken.
* `auditSaskuHand_lockstep` is the whole history.
-/

namespace Tablefolk

/-! ## The private rules -/

/-- `action`, made in the reference state `s`, breaks `rule` of the deal. -/
def Broken (deal : SaskuDeal) (s : HandState) (action : SaskuHandAction) :
    SaskuHandAuditRule → Prop
  | .bid_strength => ∃ seat value strength, action = .bid seat value ∧
      saskuBidStrength (deal.hands seat) = .ok strength ∧ strength < value.val
  | .card_ownership => ∃ seat card, action = .play seat card ∧ card ∉ deal.hands seat
  | .follow_suit => ∃ seat card contract lead rest, action = .play seat card ∧
      card ∈ deal.hands seat ∧ s.contract = some contract ∧ s.trick = lead :: rest ∧
      saskuEffectiveSuit card (trumpSuit contract)
        ≠ saskuEffectiveSuit lead.card (trumpSuit contract) ∧
      ∃ held ∈ deal.remaining s seat, saskuEffectiveSuit held (trumpSuit contract)
        = saskuEffectiveSuit lead.card (trumpSuit contract)

/-- An action breaks at most one rule. -/
theorem Broken.unique {deal : SaskuDeal} {s : HandState} {a : SaskuHandAction}
    {rule rule' : SaskuHandAuditRule} (h : Broken deal s a rule) (h' : Broken deal s a rule') :
    rule = rule' := by
  cases rule with
  | bid_strength =>
      obtain ⟨_, _, _, rfl, -⟩ := h
      cases rule' with
      | bid_strength => rfl
      | card_ownership => obtain ⟨_, _, heq, -⟩ := h'; cases heq
      | follow_suit => obtain ⟨_, _, _, _, _, heq, -⟩ := h'; cases heq
  | card_ownership =>
      obtain ⟨_, _, rfl, hnot⟩ := h
      cases rule' with
      | bid_strength => obtain ⟨_, _, _, heq, -⟩ := h'; cases heq
      | card_ownership => rfl
      | follow_suit =>
          obtain ⟨_, _, _, _, _, heq, hmem, -⟩ := h'
          cases heq
          exact absurd hmem hnot
  | follow_suit =>
      obtain ⟨_, _, _, _, _, rfl, hmem, -⟩ := h
      cases rule' with
      | bid_strength => obtain ⟨_, _, _, heq, -⟩ := h'; cases heq
      | card_ownership =>
          obtain ⟨_, _, heq, hnot⟩ := h'
          cases heq
          exact absurd hmem hnot
      | follow_suit => rfl

theorem saskuBidStrength_ok {hand : List SaskuCardId} (hlen : hand.length = 9)
    (hnodup : hand.Nodup) : ∃ strength, saskuBidStrength hand = .ok strength := by
  rw [saskuBidStrength, throwIf_neg (not_not.2 hlen), ok_bind, throwIf_neg (not_not.2 hnodup)]
  exact ⟨_, rfl⟩

/-- While nothing has been played the seats hold what they were dealt. -/
theorem SaskuDeal.remaining_of_no_plays (deal : SaskuDeal) {s : HandState} (h : s.plays = []) :
    deal.remaining s = deal.hands := by
  funext seat
  exact List.filter_eq_self.2 fun _ _ => by simp [h]

/-- A bid above the strength of the dealt hand breaks `bid_strength`, and nothing else can. -/
theorem privateOk_bid_iff {deal : SaskuDeal} {s : HandState} (h : HoldsDeal deal s)
    (hplays : s.plays = []) (seat : SaskuSeat) (value : BidValue) :
    PrivateOk s (.bid seat value) ↔ ¬ Broken deal s (.bid seat value) .bid_strength := by
  have hhands : s.hands = some deal.hands := by rw [h.hands, deal.remaining_of_no_plays hplays]
  obtain ⟨strength, hstrength⟩ := saskuBidStrength_ok (deal.length_hand seat) (deal.nodup_hand seat)
  constructor
  · rintro hprivate ⟨_, _, strength', heq, hstrength', hlt⟩
    cases heq
    obtain ⟨strength'', hstrength'', hle⟩ := hprivate _ hhands
    obtain rfl := Except.ok.inj (hstrength'.symm.trans hstrength'')
    omega
  · intro hbroken hands hhands'
    obtain rfl := Option.some.inj (hhands.symm.trans hhands')
    refine ⟨strength, hstrength, not_lt.1 fun hlt => hbroken ?_⟩
    exact ⟨seat, value, strength, rfl, hstrength, hlt⟩

/-- The check on a bid, on a hand of the deal. -/
theorem checkBidStrength_broken {deal : SaskuDeal} {s : HandState} {seat : SaskuSeat}
    {value : BidValue} (h : HoldsDeal deal s) (hplays : s.plays = [])
    (hbroken : Broken deal s (.bid seat value) .bid_strength) :
    ∃ message, checkBidStrength s seat value = .error (.hand message (some .bid_strength)) := by
  obtain ⟨_, _, strength, heq, hstrength, hlt⟩ := hbroken
  cases heq
  have hhands : s.hands = some deal.hands := by rw [h.hands, deal.remaining_of_no_plays hplays]
  simp only [checkBidStrength, hhands, hstrength, ok_bind, throwIf_pos hlt]
  exact ⟨_, rfl⟩

section Play

variable {deal : SaskuDeal} {s : HandState} (h : HoldsDeal deal s) (hinv : HandInv s)
  (phase : s.phase = .playing) {seat : SaskuSeat} (turn : s.turn = some seat)
  {card : SaskuCardId} (fresh : card ∉ s.plays.map SaskuPlay.card)
include h hinv phase turn fresh

/-- A fresh card is rejected for ownership exactly when it was dealt to another
seat, and for suit exactly when a card of the led suit is still held. -/
theorem checkHeldCard_lockstep :
    checkHeldCard s seat card = .ok () ∨
    (∃ message, checkHeldCard s seat card = .error (.hand message (some .card_ownership))) ∧
      Broken deal s (.play seat card) .card_ownership ∨
    (∃ message, checkHeldCard s seat card = .error (.hand message (some .follow_suit))) ∧
      Broken deal s (.play seat card) .follow_suit := by
  obtain ⟨contract, hcontract, hlegal⟩ := h.legalCards hinv phase turn
  by_cases howned : card ∈ deal.remaining s seat
  · by_cases hfollows : card ∈ followingCards (deal.remaining s seat) s.trick (trumpSuit contract)
    · left
      simp [checkHeldCard, h.hands, howned, contractOrThrow_of_some hcontract, hlegal, hfollows]
    · right; right
      refine ⟨?_, ?_⟩
      · simp only [checkHeldCard, h.hands, throwIf_neg (not_not.2 howned), ok_bind,
          contractOrThrow_of_some hcontract, hlegal, throwIf_pos hfollows]
        exact ⟨_, rfl⟩
      · cases htrick : s.trick with
        | nil => exact absurd howned (by rwa [htrick] at hfollows)
        | cons lead rest =>
            rw [htrick] at hfollows
            simp only [followingCards] at hfollows
            split at hfollows
            · exact absurd howned hfollows
            · rename_i hsome
              obtain ⟨held, hheld⟩ := List.exists_mem_of_ne_nil _ hsome
              obtain ⟨hheld, hsuit⟩ := List.mem_filter.1 hheld
              refine ⟨seat, card, contract, lead, rest, rfl, (SaskuDeal.mem_remaining.1 howned).1,
                hcontract, htrick, fun heq => ?_, held, hheld, of_decide_eq_true hsuit⟩
              exact hfollows (List.mem_filter.2 ⟨howned, decide_eq_true heq⟩)
  · right; left
    refine ⟨?_, seat, card, rfl, fun hdealt => ?_⟩
    · simp only [checkHeldCard, h.hands, throwIf_pos howned, error_bind]
      exact ⟨_, rfl⟩
    · exact howned (SaskuDeal.mem_remaining.2 ⟨hdealt, fresh⟩)

end Play

/-! ## One step -/

/-- The reference controller rejected `action` for breaking `rule`. -/
def RejectedFor (deal : SaskuDeal) (s : HandState) (action : SaskuHandAction)
    (rule : SaskuHandAuditRule) : Prop :=
  (∃ message, nextAction s action = .error (.hand message (some rule))) ∧
    Broken deal s action rule

/-- The guards of `nextState`, on an action that is expected. -/
theorem nextAction_of_expected {s : HandState} {a : SaskuHandAction} (h : Expected s a)
    (phase : s.phase ≠ .complete) : nextAction s a =
      match s.phase with
      | .bidding => nextBidding s (s.record a) a
      | .choosing_trump => nextChoosingTrump (s.record a) a
      | _ => nextPlaying s (s.record a) a := by
  rw [nextAction, throwIf_neg phase, ok_bind, throwIf_neg (not_not.2 h.turn.symm), ok_bind,
    throwIf_neg (not_le.2 h.budget), ok_bind]
  rfl

/-- **One step of the two controllers.**  An action the public controller accepts
is accepted by the reference controller, which then shows the same public state, or
is rejected for a private rule that it breaks. -/
theorem nextAction_lockstep {deal : SaskuDeal} {r p : HandState} {a : SaskuHandAction}
    (h : Reached (some deal) r) (hok : nextAction r.erase a = .ok p) :
    (∃ r', nextAction r a = .ok r' ∧ r'.erase = p) ∨ ∃ rule, RejectedFor deal r a rule := by
  have hholds := h.holds deal rfl
  obtain ⟨hexpected, -, hpublic⟩ := nextAction_ok_iff.1 hok
  have hexpected : Expected r a := ⟨hexpected.turn, hexpected.budget⟩
  obtain ⟨r', hstep, herase⟩ := hpublic.lift
  by_cases hprivate : PrivateOk r a
  · exact .inl ⟨r', nextAction_ok_iff.2 ⟨hexpected, hprivate, hstep⟩, herase⟩
  · right
    cases hstep with
    | @bid seat value phase higher fresh =>
        have hplays : r.plays = [] := by
          have hphase := h.inv.phase
          rw [PhaseInv, phase] at hphase
          rw [← h.inv.table.plays, hphase.1, hphase.2.1]
          rfl
        have hbroken : Broken deal r (.bid seat value) .bid_strength :=
          not_not.1 (mt (privateOk_bid_iff hholds hplays seat value).2 hprivate)
        obtain ⟨message, herror⟩ := checkBidStrength_broken hholds hplays hbroken
        refine ⟨_, ⟨message, ?_⟩, hbroken⟩
        rw [nextAction_of_expected hexpected (by simp [phase]), phase]
        simp only [nextBidding, checkBidStrength_record, herror, error_bind]
    | diamonds | passOn | passOut | passWin | chooseTrump => exact absurd trivial hprivate
    | @play seat card phase fresh | @takeTrick seat card _ _ phase fresh
    | @completeHand seat card _ _ _ phase fresh =>
        have hguard : nextAction r (.play seat card)
            = nextPlaying r (r.record (.play seat card)) (.play seat card) := by
          rw [nextAction_of_expected hexpected (by simp [phase]), phase]
        have turn : r.turn = some seat := hexpected.turn
        rcases checkHeldCard_lockstep hholds h.inv phase turn fresh with
          hok | ⟨⟨message, herror⟩, hbroken⟩ | ⟨⟨message, herror⟩, hbroken⟩
        · exact absurd (checkHeldCard_ok_iff.1 hok) hprivate
        · refine ⟨_, ⟨message, ?_⟩, hbroken⟩
          rw [hguard]
          simp only [nextPlaying, checkHeldCard_record, herror, error_bind]
        · refine ⟨_, ⟨message, ?_⟩, hbroken⟩
          rw [hguard]
          simp only [nextPlaying, checkHeldCard_record, herror, error_bind]

/-- What the reference controller accepts, the public controller accepts with the
same public state. -/
theorem nextAction_erase {r r' : HandState} {a : SaskuHandAction}
    (hok : nextAction r a = .ok r') : nextAction r.erase a = .ok r'.erase := by
  obtain ⟨hexpected, -, hstep⟩ := nextAction_ok_iff.1 hok
  exact nextAction_ok_iff.2
    ⟨⟨hexpected.turn, hexpected.budget⟩, privateOk_erase r a, hstep.erase⟩

/-- An action is rejected for a rule only if it breaks it, so never if it keeps
the private rules. -/
theorem RejectedFor.not_ok {deal : SaskuDeal} {s s' : HandState} {a : SaskuHandAction}
    {rule : SaskuHandAuditRule} (h : RejectedFor deal s a rule) : nextAction s a ≠ .ok s' := by
  obtain ⟨⟨message, herror⟩, -⟩ := h
  simp [herror]

/-! ## Whole histories -/

/-- Along a history the reference controller either accepts every action, staying
in lockstep, or rejects a first one for a private rule. -/
theorem runActions_lockstep {deal : SaskuDeal} {r p : HandState} {actions : List SaskuHandAction}
    (h : Reached (some deal) r) (hok : runActions r.erase actions = .ok p) :
    (∃ r', runActions r actions = .ok r' ∧ r'.erase = p) ∨
    ∃ before a after mid rule, actions = before ++ a :: after ∧
      runActions r before = .ok mid ∧ Reached (some deal) mid ∧ RejectedFor deal mid a rule := by
  induction actions generalizing r with
  | nil =>
      cases hok
      exact .inl ⟨r, rfl, rfl⟩
  | cons a rest ih =>
      rw [runActions_cons] at hok
      obtain ⟨p₁, hp₁, hrest⟩ := bind_eq_ok.1 hok
      rcases nextAction_lockstep h hp₁ with ⟨r₁, hr₁, rfl⟩ | ⟨rule, hrejected⟩
      · rcases ih (h.next hr₁) hrest with ⟨r', hr', herase⟩ | hfail
        · exact .inl ⟨r', by rw [runActions_cons, hr₁, ok_bind, hr'], herase⟩
        · obtain ⟨before, b, after, mid, rule, rfl, hmid, hreached, hrejected⟩ := hfail
          exact .inr ⟨a :: before, b, after, mid, rule, rfl,
            by rw [runActions_cons, hr₁, ok_bind, hmid], hreached, hrejected⟩
      · exact .inr ⟨[], a, rest, r, rule, rfl, rfl, h, hrejected⟩

theorem runActions_erase {r r' : HandState} {actions : List SaskuHandAction}
    (hok : runActions r actions = .ok r') : runActions r.erase actions = .ok r'.erase := by
  induction actions generalizing r with
  | nil =>
      cases hok
      rfl
  | cons a rest ih =>
      rw [runActions_cons] at hok ⊢
      obtain ⟨mid, hmid, hrest⟩ := bind_eq_ok.1 hok
      rw [nextAction_erase hmid, ok_bind, ih hrest]

/-- What the audit reports of a replay that accepts everything. -/
def finalResult (reference : HandState) : SaskuHandAuditResult :=
  if reference.phase = .complete then .valid reference.snapshot else .incomplete reference.snapshot

/-- The audit loop, on actions the reference controller accepts. -/
theorem auditFrom_of_run {r r' : HandState} {actions rest : List SaskuHandAction} {index : ℕ}
    (h : runActions r actions = .ok r') :
    auditFrom r index (actions ++ rest) = auditFrom r' (index + actions.length) rest := by
  induction actions generalizing r index with
  | nil =>
      cases h
      rfl
  | cons a tail ih =>
      rw [runActions_cons] at h
      obtain ⟨mid, hmid, hrest⟩ := bind_eq_ok.1 h
      rw [List.cons_append, auditFrom, nextState_candidate, hmid]
      simp only [ih hrest, List.length_cons]
      congr 1
      omega

/-- The audit loop, at the first action that is rejected for a rule. -/
theorem auditFrom_of_rejected {deal : SaskuDeal} {r : HandState} {a : SaskuHandAction}
    {rest : List SaskuHandAction} {index : ℕ} {rule : SaskuHandAuditRule}
    (h : RejectedFor deal r a rule) :
    auditFrom r index (a :: rest) = .ok (.violation a.seat index rule) := by
  obtain ⟨⟨message, herror⟩, -⟩ := h
  rw [auditFrom, nextState_candidate, herror]
  rfl

/-- The checks that come before the replay pass on a deal and a history the public
controller accepts. -/
theorem auditSaskuHand_eq {dealer : SaskuSeat} {deal : SaskuDeal} {actions : List ActionCandidate}
    {p : HandState} (h : applyAll (publicHand dealer) actions = .ok p) :
    auditSaskuHand dealer deal.hands actions
      = auditFrom (referenceHand dealer deal) 0 p.history := by
  have hprogress : Progress none actions p := hand_progresses h
  have hbudget : ¬ MAX_SASKU_HAND_ACTIONS < actions.length := by
    have := hprogress.in_budget
    omega
  have hdeal : checkDeal deal.hands = .ok deal :=
    dif_pos ⟨deal.length_hand, deal.nodup⟩
  rw [auditSaskuHand, throwIf_neg hbudget, ok_bind, hdeal, ok_bind]
  show applyAll (publicHand dealer) actions >>= _ = _
  rw [h, ok_bind]

/-- The reference controller's run on a publicly accepted history, and what the
audit makes of it. -/
def AuditOutcome (deal : SaskuDeal) (dealer : SaskuSeat) (actions : List SaskuHandAction)
    (p : HandState) (result : SaskuHandAuditResult) : Prop :=
  (∃ r, runActions (referenceHand dealer deal) actions = .ok r ∧ r.erase = p ∧
      result = finalResult r) ∨
  ∃ before a after mid rule, actions = before ++ a :: after ∧
      runActions (referenceHand dealer deal) before = .ok mid ∧
      RejectedFor deal mid a rule ∧ result = .violation a.seat before.length rule

/-- **The audit never throws** on a history the public controller accepts: it
replays the whole history in lockstep, or reports the first action that breaks a
private rule. -/
theorem auditSaskuHand_lockstep {dealer : SaskuSeat} (deal : SaskuDeal)
    {actions : List ActionCandidate} {p : HandState}
    (h : applyAll (publicHand dealer) actions = .ok p) :
    ∃ result, auditSaskuHand dealer deal.hands actions = .ok result ∧
      AuditOutcome deal dealer p.history p result := by
  obtain ⟨normalized, -, hrun⟩ := applyAll_eq_ok.1 h
  have hhistory : p.history = normalized := history_of_run hrun
  have hreached : Reached (some deal) (referenceHand dealer deal) :=
    reached_of_run (show applyAll (startHand dealer (some deal)) [] = .ok _ from rfl)
  rw [auditSaskuHand_eq h, hhistory]
  rcases runActions_lockstep (r := referenceHand dealer deal) hreached hrun with
    ⟨r, hr, herase⟩ | ⟨before, a, after, mid, rule, rfl, hmid, -, hrejected⟩
  · refine ⟨finalResult r, ?_, .inl ⟨r, hr, herase, rfl⟩⟩
    have haudit : auditFrom (referenceHand dealer deal) 0 (normalized ++ []) = auditFrom r _ [] :=
      auditFrom_of_run hr
    rw [List.append_nil] at haudit
    rw [haudit]
    rfl
  · refine ⟨.violation a.seat before.length rule, ?_,
      .inr ⟨before, a, after, mid, rule, rfl, hmid, hrejected, rfl⟩⟩
    rw [auditFrom_of_run hmid, auditFrom_of_rejected hrejected, Nat.zero_add]

/-- The two controllers run the same history from corresponding states. -/
theorem erase_of_runs {dealer : SaskuSeat} {deal : SaskuDeal} {actions : List ActionCandidate}
    {p r : HandState} (hp : applyAll (publicHand dealer) actions = .ok p)
    (hr : applyAll (referenceHand dealer deal) actions = .ok r) : r.erase = p := by
  obtain ⟨normalized, hforall, hrun⟩ := applyAll_eq_ok.1 hr
  have hpublic : applyAll (publicHand dealer) actions = .ok r.erase :=
    applyAll_eq_ok.2 ⟨normalized, hforall, runActions_erase hrun⟩
  exact Except.ok.inj (hpublic.symm.trans hp)

/-- **The audit simulates the public controller.**  On every publicly accepted
history it returns; at every step the reference controller shows the public state
and either follows or rejects for the one private rule that the action breaks; and
whatever the reference controller accepts, the public controller accepts too. -/
theorem audit_simulates_public (deal : SaskuDeal) (dealer : SaskuSeat)
    (actions : List ActionCandidate) :
    (∀ p, applyAll (publicHand dealer) actions = .ok p →
      ∃ result, auditSaskuHand dealer deal.hands actions = .ok result ∧
        AuditOutcome deal dealer p.history p result) ∧
    (∀ p r candidate p', applyAll (publicHand dealer) actions = .ok p →
      applyAll (referenceHand dealer deal) actions = .ok r → nextState p candidate = .ok p' →
      r.snapshot = p.snapshot ∧
      ((∃ r', nextState r candidate = .ok r' ∧ r'.snapshot = p'.snapshot) ∨
        ∃ a message rule, normalizeAction candidate = .ok a ∧
          nextState r candidate = .error (.hand message (some rule)) ∧
          Broken deal r a rule ∧ ∀ other, Broken deal r a other → other = rule)) ∧
    (∀ r, applyAll (referenceHand dealer deal) actions = .ok r →
      ∃ p, applyAll (publicHand dealer) actions = .ok p ∧ p.snapshot = r.snapshot) := by
  refine ⟨fun p hp => auditSaskuHand_lockstep deal hp, ?_, ?_⟩
  · intro p r candidate p' hp hr hnext
    obtain rfl := erase_of_runs hp hr
    obtain ⟨a, ha, hok⟩ := bind_eq_ok.1 hnext
    have hreference : nextState r candidate = nextAction r a := by rw [nextState, ha, ok_bind]
    refine ⟨rfl, ?_⟩
    have hreached : Reached (some deal) r := reached_of_run hr
    rcases nextAction_lockstep hreached hok with
      ⟨r', hr', rfl⟩ | ⟨rule, ⟨message, herror⟩, hbroken⟩
    · exact .inl ⟨r', hreference.trans hr', rfl⟩
    · exact .inr ⟨a, message, rule, ha, hreference.trans herror, hbroken,
        fun other hother => hother.unique hbroken⟩
  · intro r hr
    obtain ⟨normalized, hforall, hrun⟩ := applyAll_eq_ok.1 hr
    exact ⟨r.erase, applyAll_eq_ok.2 ⟨normalized, hforall, runActions_erase hrun⟩, rfl⟩

end Tablefolk
