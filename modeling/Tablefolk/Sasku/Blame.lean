import Tablefolk.Sasku.AuthoredRound

/-!
# Whom the audit blames

The audit replays the history of a complete round against the deal that was opened.

* `Breaks`: an action of a history breaks a private rule of a deal.
* `AuditVerdict.first`: the audit reports the first action that does.
* `Created.privateOk`: an action whose author has checked it on its own hand does not.
-/

namespace Tablefolk

/-! ## Private rules -/

/-- In the bidding nothing has been played. -/
theorem Reached.no_plays {deal : Option SaskuDeal} {s : HandState} (h : Reached deal s)
    (phase : s.phase = .bidding) : s.plays = [] := by
  have hphase := h.inv.phase
  rw [PhaseInv, phase] at hphase
  rw [← h.inv.table.plays, hphase.1, hphase.2.1]
  rfl

/-- An action that the reference controller accepts breaks no rule. -/
theorem not_broken_of_ok {deal : SaskuDeal} {r r' : HandState} {a : SaskuHandAction}
    {rule : SaskuHandAuditRule} (h : Reached (some deal) r) (hok : nextAction r a = .ok r') :
    ¬ Broken deal r a rule := by
  have hholds := h.holds deal rfl
  obtain ⟨hexpected, hprivate, hstep⟩ := nextAction_ok_iff.1 hok
  intro hbroken
  cases rule with
  | bid_strength =>
      obtain ⟨seat, value, strength, rfl, hstrength, hlt⟩ := hbroken
      have phase : r.phase = .bidding := by
        cases hstep
        assumption
      exact (privateOk_bid_iff hholds (h.no_plays phase) seat value).1 hprivate
        ⟨seat, value, strength, rfl, hstrength, hlt⟩
  | card_ownership =>
      obtain ⟨seat, card, rfl, hnot⟩ := hbroken
      exact hnot (SaskuDeal.mem_remaining.1 (hprivate _ hholds.hands).1).1
  | follow_suit =>
      obtain ⟨seat, card, contract, lead, rest, rfl, -, hcontract, htrick, hne, held, hheld,
        hsuit⟩ := hbroken
      have phase : r.phase = .playing := by cases hstep <;> assumption
      obtain ⟨-, contract', legal, hcontract', hlegal', hcard⟩ := hprivate _ hholds.hands
      obtain rfl := Option.some.inj (hcontract.symm.trans hcontract')
      have turn : r.turn = some seat := hexpected.turn
      obtain ⟨contract', hcontract', hlegal⟩ := hholds.legalCards h.inv phase turn
      obtain rfl := Option.some.inj (hcontract.symm.trans hcontract')
      obtain rfl := Except.ok.inj (hlegal.symm.trans hlegal')
      rw [htrick] at hcard
      simp only [followingCards] at hcard
      split at hcard
      · rename_i hnil
        have hfollows : held ∈ (deal.remaining r seat).filter fun other =>
            saskuEffectiveSuit other (trumpSuit contract)
              = saskuEffectiveSuit lead.card (trumpSuit contract) :=
          List.mem_filter.2 ⟨hheld, decide_eq_true hsuit⟩
        rw [hnil] at hfollows
        cases hfollows
      · exact hne (of_decide_eq_true (List.mem_filter.1 hcard).2)

/-- A public action that keeps the private rules is accepted by the reference controller. -/
theorem exists_ok_of_privateOk {r p : HandState} {a : SaskuHandAction}
    (hok : nextAction r.erase a = .ok p) (hprivate : PrivateOk r a) :
    ∃ r', nextAction r a = .ok r' := by
  obtain ⟨hexpected, -, hpublic⟩ := nextAction_ok_iff.1 hok
  obtain ⟨r', hstep, -⟩ := hpublic.lift
  exact ⟨r', nextAction_ok_iff.2 ⟨⟨hexpected.turn, hexpected.budget⟩, hprivate, hstep⟩⟩

/-! ## The first violation -/

/-- The action of a history at this index breaks a rule of the deal, in the state that the public
controller has then. -/
def Breaks (deal : SaskuDeal) (dealer : SaskuSeat) (history : List SaskuHandAction) (index : ℕ)
    (action : SaskuHandAction) (rule : SaskuHandAuditRule) : Prop :=
  ∃ before after s, history = before ++ action :: after ∧ before.length = index ∧
    runActions (publicHand dealer) before = .ok s ∧ Broken deal s action rule

variable {deal : SaskuDeal} {dealer : SaskuSeat} {history : List SaskuHandAction}

theorem runActions_append_cons {s t : HandState} {before after : List SaskuHandAction}
    {a : SaskuHandAction} (h : runActions s (before ++ a :: after) = .ok t) :
    ∃ mid mid', runActions s before = .ok mid ∧ nextAction mid a = .ok mid' := by
  rw [runActions, List.foldlM_append] at h
  obtain ⟨mid, hmid, hrest⟩ := bind_eq_ok.1 h
  rw [List.foldlM_cons] at hrest
  obtain ⟨mid', hmid', -⟩ := bind_eq_ok.1 hrest
  exact ⟨mid, mid', hmid, hmid'⟩

/-- The reference controller shows what the public one shows. -/
theorem erase_of_reference {before : List SaskuHandAction} {r s : HandState}
    (hr : runActions (referenceHand dealer deal) before = .ok r)
    (hs : runActions (publicHand dealer) before = .ok s) : r.erase = s :=
  Except.ok.inj ((runActions_erase hr).symm.trans hs)

theorem reached_of_reference {before : List SaskuHandAction} {r : HandState}
    (hr : runActions (referenceHand dealer deal) before = .ok r) : Reached (some deal) r :=
  reached_of_run (show applyAll (startHand dealer (some deal)) _ = .ok _ from applyAll_of_run hr)

/-- What the reference controller has accepted breaks nothing. -/
theorem not_breaks_of_run {before after : List SaskuHandAction} {r : HandState} {index : ℕ}
    {action : SaskuHandAction} {rule : SaskuHandAuditRule} (hsplit : history = before ++ after)
    (hrun : runActions (referenceHand dealer deal) before = .ok r) (hlt : index < before.length) :
    ¬ Breaks deal dealer history index action rule := by
  rintro ⟨earlier, later, s, hhistory, rfl, hs, hbroken⟩
  have hearlier : earlier ++ [action] <+: history := by
    refine ⟨later, ?_⟩
    rw [hhistory, List.append_assoc]
    rfl
  have hbefore : before <+: history := ⟨after, hsplit.symm⟩
  obtain ⟨rest, rfl⟩ := List.prefix_of_prefix_length_le hearlier hbefore (by simpa)
  rw [List.append_assoc] at hrun
  obtain ⟨mid, mid', hmid, hnext⟩ := runActions_append_cons hrun
  obtain rfl := erase_of_reference hmid hs
  exact not_broken_of_ok (reached_of_reference hmid) hnext hbroken

/-- **The audit reports the first action that breaks a rule**, and nothing when there is none. -/
theorem AuditVerdict.first {hand : HandState} {result : SaskuRoundAuditResult}
    (h : AuditVerdict deal dealer hand result) :
    (∃ score, result = .valid score ∧
      ∀ index action rule, ¬ Breaks deal dealer hand.history index action rule) ∨
    ∃ index action rule, result = .violation action.seat index rule ∧
      Breaks deal dealer hand.history index action rule ∧
      ∀ i < index, ∀ other rule', ¬ Breaks deal dealer hand.history i other rule' := by
  cases h with
  | @valid final score hrun hscored =>
      refine .inl ⟨score, rfl, fun index action rule hbreaks => ?_⟩
      have hlt : index < hand.history.length := by
        obtain ⟨before, after, -, hhistory, rfl, -⟩ := hbreaks
        simp [hhistory]
      exact not_breaks_of_run (List.append_nil _).symm hrun hlt hbreaks
  | @violation before after action mid rule hsplit hrun hrejected =>
      refine .inr ⟨before.length, action, rule, rfl, ⟨before, after, mid.erase, hsplit, rfl,
        runActions_erase hrun, hrejected.2⟩, fun i hlt other rule' => ?_⟩
      exact not_breaks_of_run hsplit hrun hlt

section

variable {q : ℕ} {G : Type} [AddCommGroup G] [Module (ZMod q) G] [DecidableEq G]
  {P : Primitives q G} {R : SaskuRound P} {c : RoundCore G} {secrets : ℕ → ZMod q}
  {card : ℕ → SaskuCardId} {seat : SaskuSeat}

/-! ## The opened deal -/

/-- The cards that a complete round has opened are the true cards. -/
theorem RoundInv.exists_trueCards (hinv : RoundInv R c)
    (hledger : Truthful R.ledger secrets c.ledger) (hcomplete : c.hand.phase = .complete) :
    ∃ card, TrueCards R secrets card ∧ ∀ p < 36, c.ledger.revealed p = some (card p).text := by
  obtain ⟨card, hrevealed, hdistinct⟩ := hinv.opened hcomplete
  exact ⟨card, ⟨fun p hp => hledger.revealed p _ (hrevealed p hp), hdistinct⟩, hrevealed⟩

/-- A play names the card that was opened at a position of its seat. -/
theorem RoundInv.play_opened (hinv : RoundInv R c)
    (hrevealed : ∀ p < 36, c.ledger.revealed p = some (card p).text) {play : SaskuPlay}
    (hplay : play ∈ c.hand.plays) :
    ∃ position, R.ledger.owner position = some play.seat.val ∧ card position = play.card := by
  obtain ⟨position, howner, hshown⟩ := hinv.played play hplay
  rw [hrevealed position (R.lt_of_owner howner)] at hshown
  exact ⟨position, howner, card_text_injective (Option.some.inj hshown)⟩

/-- So no play breaks the ownership rule. -/
theorem not_breaks_card_ownership (hinv : RoundInv R c)
    (hdistinct : ∀ p < 36, ∀ p' < 36, card p = card p' → p = p')
    (hrevealed : ∀ p < 36, c.ledger.revealed p = some (card p).text) {index : ℕ}
    {action : SaskuHandAction} :
    ¬ Breaks (R.dealOf card hdistinct) R.dealer c.hand.history index action .card_ownership := by
  rintro ⟨before, after, s, hhistory, -, -, seat, held, rfl, hnot⟩
  have hplay : (⟨seat, held⟩ : SaskuPlay) ∈ c.hand.plays := by
    rw [HandState.plays, List.mem_filterMap]
    exact ⟨.play seat held, by simp [hhistory], rfl⟩
  obtain ⟨position, howner, hcard⟩ := hinv.play_opened hrevealed hplay
  exact hnot ((R.mem_dealOf hdistinct).2 ⟨position, howner, hcard⟩)

/-! ## The author's own checks -/

/-- A private hand that was read with a true secret has the true cards. -/
theorem SeatHand.dealt_eq {hand : SaskuPrivateHand}
    (h : SeatHand R c seat (secrets seat.val) hand) (htrue : TrueCards R secrets card)
    (hledger : Truthful R.ledger secrets c.ledger) :
    hand.dealt = (R.positionsOf seat).map fun p => (p, card p) := by
  rw [← ownedPositions_eq, ← h.positions, List.map_map]
  refine (List.map_id _).symm.trans (List.map_congr_left fun entry hentry => ?_)
  have howner : R.ledger.owner entry.1 = some seat.val := by
    rw [← mem_ownedPositions, ← h.positions]
    exact List.mem_map_of_mem hentry
  obtain ⟨masked, hmasked, hopen⟩ := (h.reads entry hentry).opens
  have hopens := openCard_eq_trueCard hledger hmasked hopen
  rw [htrue.opens entry.1 (R.lt_of_owner howner)] at hopens
  exact Prod.ext rfl (card_text_injective (Option.some.inj hopens))

/-- An action that its author has checked on its own hand keeps the private rules of the deal that
is opened later. -/
theorem Created.privateOk {intent : SaskuActionIntent} {draws : List ℕ} {hand : SaskuPrivateHand}
    {action : SaskuHandAction} {reveal : List ℕ} {shares : List (PositionShare q G)}
    (h : Created R c seat (secrets seat.val) intent draws hand action reveal shares)
    (htrue : TrueCards R secrets card) (hinv : RoundInv R c)
    (hledger : Truthful R.ledger secrets c.ledger) {r : HandState}
    (hreached : Reached (some (R.dealOf card htrue.distinct)) r) (herase : r.erase = c.hand) :
    PrivateOk r action := by
  have hholds := hreached.holds _ rfl
  have hdealt := h.held.dealt_eq htrue hledger
  have hremaining := h.held.remaining
  have hleft := htrue.hidden_eq_remaining hinv hledger seat
  rw [← hdealt, ← hremaining] at hleft
  have hsame : (R.dealOf card htrue.distinct).remaining r
      = (R.dealOf card htrue.distinct).remaining c.hand := by rw [← herase]; rfl
  obtain ⟨hseat, hcases⟩ := intendedAction_cases h.intended
  have hchecked := h.checked
  cases action with
  | pass | diamonds | choose_trump => trivial
  | bid bidder value =>
      obtain rfl : bidder = seat := hseat
      obtain ⟨next, hnext⟩ := h.next
      have phase : r.phase = .bidding := by
        obtain ⟨-, -, hstep⟩ := nextAction_ok_iff.1 hnext
        rw [← herase] at hstep
        cases hstep
        assumption
      obtain ⟨strength, hstrength, hchecked⟩ := bind_eq_ok.1 hchecked
      rw [liftError_eq_ok, hdealt, List.map_map] at hstrength
      rw [throwIf_eq_ok, not_lt] at hchecked
      intro hands hhands
      obtain rfl := Option.some.inj (hholds.hands.symm.trans hhands)
      rw [SaskuDeal.remaining_of_no_plays _ (hreached.no_plays phase)]
      exact ⟨strength, hstrength, hchecked⟩
  | play player held =>
      obtain rfl : player = seat := hseat
      obtain ⟨contract, hcontract, hchecked⟩ := bind_eq_ok.1 hchecked
      obtain ⟨legal, hlegal, hchecked⟩ := bind_eq_ok.1 hchecked
      rw [liftError_eq_ok] at hcontract hlegal
      rw [throwIf_eq_ok, not_not] at hchecked
      rcases hcases with ⟨position, held', -, haction, hmem, -⟩ | ⟨hnone, -⟩
      · cases haction
        intro hands hhands
        obtain rfl := Option.some.inj (hholds.hands.symm.trans hhands)
        rw [hsame, ← hleft]
        refine ⟨List.mem_map_of_mem hmem, contract, legal, ?_, ?_, hchecked⟩
        · rw [← herase] at hcontract
          exact contractOrThrow_eq_ok.1 hcontract
        · rw [← herase] at hlegal
          exact hlegal
      · cases hnone

/-! ## Blame -/

omit [DecidableEq G] in
theorem localKey_unique {secretKey secretKey' : ZMod q} {donor : ℕ}
    (h : LocalKey R.ledger donor secretKey) (h' : LocalKey R.ledger donor secretKey') :
    secretKey = secretKey' := by
  by_contra hne
  refine smul_base_ne_zero P (sub_ne_zero.2 hne) ?_
  rw [sub_smul, h.key, h'.key, sub_self]

/-- A share that the envelope carries is the true share of its sender if its proof verifies. -/
def SoundProofs (L : RoundReveal P) (secrets : ℕ → ZMod q) (e : SignedEnvelope) : Prop :=
  ∀ seat, L.roster.seatOf e.from_ = some seat → ∀ context item,
    ((e.type = .SHARES ∧ ∃ body, decodeSharesBody P e.body = .ok body ∧ item ∈ body.items) ∨
      e.type = .ACTION ∧ ∃ body, decodeActionBody P e.body = .ok body ∧ item ∈ body.shares) →
    L.Verified context seat item → L.Own (secrets seat) item

/-- An accepted envelope carries true shares. -/
theorem RoundStep.trueShares {c' : RoundCore G} {e : SignedEnvelope} (h : RoundStep R c e c')
    (hproofs : SoundProofs R.ledger secrets e) : TrueShares R.ledger secrets e := by
  intro sender hsender
  cases h with
  | shares accepted =>
      obtain rfl := Option.some.inj (accepted.scope.seat.symm.trans hsender)
      refine ⟨fun htype body hbody item hitem => ?_, fun htype => ?_⟩
      · obtain rfl := Except.ok.inj (accepted.decoded.symm.trans hbody)
        exact hproofs _ hsender _ item (.inl ⟨htype, _, hbody, hitem⟩)
          (checkShares_eq_ok.1 accepted.proofs item hitem)
      · rw [accepted.type] at htype
        cases htype
  | action accepted =>
      obtain rfl := Option.some.inj (accepted.ledger.scope.seat.symm.trans hsender)
      refine ⟨fun htype => ?_, fun htype body hbody item hitem => ?_⟩
      · rw [accepted.ledger.type] at htype
        cases htype
      · obtain rfl := Except.ok.inj (accepted.ledger.decoded.symm.trans hbody)
        obtain ⟨new, -, hopens, -, -⟩ := openShares_eq_ok accepted.ledger.opened
        obtain ⟨entry, -, hverified, -⟩ := exists_right_of_forall₂ hopens item hitem
        exact hproofs _ hsender _ item (.inr ⟨htype, _, hbody, hitem⟩) hverified
  | audit accepted => constructor <;> intro htype <;> rw [accepted.type] at htype <;> cases htype

theorem TrueShares.soundProofs {L : RoundReveal P} {e : SignedEnvelope}
    (h : TrueShares L secrets e) : SoundProofs L secrets e := by
  intro sender hsender context item hcarried _
  rcases hcarried with ⟨htype, body, hbody, hitem⟩ | ⟨htype, body, hbody, hitem⟩
  · exact (h sender hsender).1 htype body hbody item hitem
  · exact (h sender hsender).2 htype body hbody item hitem

theorem Truthful.of_round {history : List SignedEnvelope}
    (hrun : Replay.run R.step R.init history = some c)
    (hproofs : ∀ e ∈ history, SoundProofs R.ledger secrets e) :
    RoundInv R c ∧ Truthful R.ledger secrets c.ledger := by
  induction history using List.reverseRecOn generalizing c with
  | nil =>
      cases hrun
      exact ⟨.init, .start⟩
  | append_singleton history e ih =>
      obtain ⟨mid, hmid, hlast⟩ := (Replay.run_append_eq_some R.step).1 hrun
      obtain ⟨next, hstep, hnil⟩ := (Replay.run_cons_eq_some R.step).1 hlast
      cases hnil
      obtain ⟨hinv, hledger⟩ := ih hmid fun other hother => hproofs other (by simp [hother])
      have hround := (round_step_eq_some hinv).1 hstep
      exact ⟨hinv.next hround,
        hledger.roundStep (hround.trueShares (hproofs e (by simp))) hround⟩

/-- An action that its author has checked is not rejected by the reference controller. -/
theorem Created.not_rejected {intent : SaskuActionIntent} {draws : List ℕ}
    {hand : SaskuPrivateHand} {action : SaskuHandAction} {reveal : List ℕ}
    {shares : List (PositionShare q G)}
    (h : Created R c seat (secrets seat.val) intent draws hand action reveal shares)
    (htrue : TrueCards R secrets card) (hinv : RoundInv R c)
    (hledger : Truthful R.ledger secrets c.ledger) {mid : HandState} {rule : SaskuHandAuditRule}
    (hmid : runActions (referenceHand R.dealer (R.dealOf card htrue.distinct)) c.hand.history
      = .ok mid) : ¬ RejectedFor (R.dealOf card htrue.distinct) mid action rule := by
  have herase := erase_of_reference hmid hinv.replay
  obtain ⟨next, hnext⟩ := h.next
  rw [← herase] at hnext
  obtain ⟨r', hok⟩ := exists_ok_of_privateOk hnext
    (h.privateOk htrue hinv hledger (reached_of_reference hmid) herase)
  exact fun hrejected => hrejected.not_ok hok

/-- What the audit of a complete round says of its actions: `history` is what was accepted, and
`card` what was opened. -/
structure FairAudit (R : SaskuRound P) (history : List SignedEnvelope) (c : RoundCore G)
    (card : ℕ → SaskuCardId) (deal : SaskuDeal) (result : SaskuRoundAuditResult) : Prop where
  opened : ∀ p < 36, c.ledger.revealed p = some (card p).text
  dealt : ∀ seat, deal.hands seat = (R.positionsOf seat).map card
  audited : R.buildAudit c = .ok result
  disclosed : ∀ audit, c.audit = some audit → audit.pendingSenders = [] →
    audit.result = some result
  /-- an action whose author has checked it on its own hand is not blamed -/
  honest : ∀ before e after c₀ c₁ (seat : SaskuSeat) secretKey intent draws action body,
    history = before ++ e :: after → Replay.run R.step R.init before = some c₀ →
    R.createAction c₀ seat secretKey intent draws = .ok (some (action, body)) →
    R.step c₀ e = some c₁ → c₁.hand.history = c₀.hand.history ++ [action] →
    ∀ blamed index rule, result = .violation blamed index rule → index ≠ c₀.hand.history.length
  /-- the first action that breaks a rule is reported, with its seat and rule -/
  first : (∃ score, result = .valid score ∧
      ∀ index action rule, ¬ Breaks deal R.dealer c.hand.history index action rule) ∨
    ∃ index action rule, result = .violation action.seat index rule ∧
      Breaks deal R.dealer c.hand.history index action rule ∧
      ∀ i < index, ∀ other rule', ¬ Breaks deal R.dealer c.hand.history i other rule'
  /-- a play names the card that was opened at a position of its seat -/
  named : ∀ play ∈ c.hand.plays, ∃ position, R.ledger.owner position = some play.seat.val ∧
    card position = play.card
  owned : ∀ blamed index, result ≠ .violation blamed index .card_ownership

/-- **Honest players are never blamed.**  On a receiver that has completed its hand, when a share
whose proof verifies is the true share: the audit of the opened deal does not report an action whose
author has passed the checks of `authorAction`; it reports the first action that breaks a private
rule, and never the play of a card of another seat. -/
theorem honest_never_blamed (R : SaskuRound P) (ed : Ed25519) (secrets : ℕ → ZMod q)
    (hkeys : ∀ seat : SaskuSeat, LocalKey R.ledger seat.val (secrets seat.val))
    (r : PersistentSaskuRoundReceiver P) (history : List SignedEnvelope)
    (haccepted : r.HasAccepted R ed history)
    (hproofs : ∀ e ∈ history, SoundProofs R.ledger secrets e)
    (hcomplete : r.core.hand.phase = .complete) :
    ∃ card deal result, FairAudit R history r.core card deal result := by
  have hrun := core_of_hasAccepted haccepted
  obtain ⟨hinv, hledger⟩ := Truthful.of_round hrun hproofs
  obtain ⟨card, htrue, hrevealed⟩ := hinv.exists_trueCards hledger hcomplete
  obtain ⟨result, hresult, hverdict⟩ :=
    buildAudit_eq_ok hinv.replay hcomplete hrevealed htrue.distinct
  have hfirst := hverdict.first
  refine ⟨card, R.dealOf card htrue.distinct, result, hrevealed, fun _ => rfl, hresult, ?_, ?_,
    hfirst, fun play hplay => hinv.play_opened hrevealed hplay, ?_⟩
  · intro audit haudit hnone
    obtain ⟨audit', haudit', -, -, -, hclosed⟩ := hinv.audited hcomplete
    obtain rfl := Option.some.inj (haudit.symm.trans haudit')
    obtain ⟨result', hresult', hbuilt⟩ := hclosed hnone
    rw [hresult', Except.ok.inj (hbuilt.symm.trans hresult)]
  · intro before e after c₀ c₁ seat secretKey intent draws action body hhistory hbefore hcreated
      hstep happended blamed index rule hblamed hindex
    rw [hhistory] at hrun hproofs
    obtain ⟨mid, hmid, hrest⟩ := (Replay.run_append_eq_some R.step).1 hrun
    obtain rfl := Option.some.inj (hbefore.symm.trans hmid)
    obtain ⟨next, hnext, hafter⟩ := (Replay.run_cons_eq_some R.step).1 hrest
    obtain rfl := Option.some.inj (hstep.symm.trans hnext)
    obtain ⟨hinv₀, hledger₀⟩ := Truthful.of_round hbefore fun other hother =>
      hproofs other (List.mem_append_left _ hother)
    obtain ⟨hand, reveal, shares, hcheck, -⟩ := createAction_eq_ok hinv₀ hcreated
    obtain rfl := localKey_unique hcheck.held.key (hkeys seat)
    -- what was appended is still at its index in the end
    obtain ⟨t, hgrown, hcore⟩ := roundState_of_run
      ⟨c₁, hinv₀.next ((round_step_eq_some hinv₀).1 hstep)⟩ hafter
    have hprefix := (grows_of_run hgrown).history
    rw [hcore, happended] at hprefix
    obtain ⟨later, hlater⟩ := hprefix
    cases hverdict with
    | valid hreference hscored => cases hblamed
    | violation hsplit hreference hrejected =>
        cases hblamed
        rw [hsplit, List.append_assoc] at hlater
        obtain ⟨rfl, htail⟩ := List.append_inj hlater hindex.symm
        cases htail
        exact hcheck.not_rejected htrue hinv₀ hledger₀ hreference hrejected
  · rintro blamed index rfl
    rcases hfirst with ⟨score, hvalid, -⟩ | ⟨_, action, rule, hviolation, hbreaks, -⟩
    · cases hvalid
    · cases hviolation
      exact not_breaks_card_ownership hinv htrue.distinct hrevealed hbreaks

end

/-! ## A complete round -/

theorem accepted_of_roundStep {q : ℕ} {G : Type} [AddCommGroup G] [Module (ZMod q) G]
    [DecidableEq G] {P : Primitives q G} {R : SaskuRound P} {c c' : RoundCore G}
    {e : SignedEnvelope} (h : RoundStep R c e c') {hash : Hash256} (hne : hash ≠ P.hashEnvelope e)
    (hfresh : c.ledger.accepted hash = none) : c'.ledger.accepted hash = none := by
  cases h with
  | shares accepted | action accepted => exact (Function.update_of_ne hne _ _).trans hfresh
  | audit accepted => exact hfresh

namespace SmallGroup

/-- Envelopes with these sequence numbers are new. -/
def FreshFrom (c : RoundCore (ZMod 41)) (length : ℕ) : Prop :=
  ∀ (seat : SaskuSeat) seq content, length ≤ seq → seq < 256 →
    c.ledger.accepted ((primitives fun _ => 0).hashEnvelope (envelopeOf seat seq content)) = none

theorem seq_of_hash {seat seat' : SaskuSeat} {seq seq' : ℕ} {content content' : EnvelopeContent}
    (hseq : seq < 256) (hseq' : seq' < 256)
    (h : (primitives fun _ => 0).hashEnvelope (envelopeOf seat seq content)
      = (primitives fun _ => 0).hashEnvelope (envelopeOf seat' seq' content')) : seq = seq' := by
  have hbytes := congrArg (fun hash : Hash256 => hash.val[1]?) h
  have hsame : UInt8.ofNat seq = UInt8.ofNat seq' := Option.some.inj hbytes
  have hnat := congrArg UInt8.toNat hsame
  simpa [Nat.mod_eq_of_lt hseq, Nat.mod_eq_of_lt hseq'] using hnat

/-- As long as it has something to author, the small round goes on. -/
theorem exists_next {l : List SignedEnvelope} {c : RoundCore (ZMod 41)}
    (hrun : AuthoredRun shuffledRound seatSecret l c) (hfresh : FreshFrom c l.length)
    (hbusy : ¬ NothingToAuthor shuffledRound seatSecret c) :
    ∃ e c', AuthoredRun shuffledRound seatSecret (l ++ [e]) c' ∧
      FreshFrom c' (l ++ [e]).length := by
  obtain ⟨seat, content, intended, hauthors⟩ : ∃ seat content intended,
      Authors shuffledRound c seat (seatSecret seat.val) (envelopeOf seat l.length content)
        intended := by
    by_contra! hnone
    have hsender : ∀ other : SaskuSeat, shuffledRound.ledger.roster.seatOf
        (padded 32 [UInt8.ofNat (other.val + 1)]) = some other.val := by decide
    have hcarries : ∀ (seat : SaskuSeat) (content : EnvelopeContent),
        shuffledRound.Carries (envelopeOf seat l.length content) seat content :=
      fun seat _ => ⟨rfl, hsender seat, rfl, rfl, rfl, rfl⟩
    refine hbusy ⟨fun seat draws content h => ?_, fun seat intent draws authored h => ?_,
      fun seat content h => ?_⟩
    · exact hnone seat content none (.shares h (hcarries seat content))
    · exact hnone seat authored.2 (some authored.1) (.action h (hcarries seat authored.2))
    · exact hnone seat content none (.audit h (hcarries seat content))
  have hlength : l.length < 256 := by
    have := hrun.length_le
    have hschedule : shuffledRound.ledger.schedule.length = 4 := rfl
    omega
  obtain ⟨t, c', -, -, -, -, -, hstep⟩ :=
    hauthors.admitted hrun.inv.1 (hfresh seat l.length content le_rfl hlength)
  refine ⟨_, c', .next hrun hauthors (hfresh seat l.length content le_rfl hlength) hstep, ?_⟩
  intro other seq content' hle hlt
  rw [List.length_append, List.length_singleton] at hle
  refine accepted_of_roundStep ((round_step_eq_some hrun.inv.1).1 hstep) (fun heq => ?_)
    (hfresh other seq content' (by omega) hlt)
  have hsame := seq_of_hash hlt hlength heq
  omega

theorem length_le_of_run {l : List SignedEnvelope} {c : RoundCore (ZMod 41)}
    (hrun : AuthoredRun shuffledRound seatSecret l c) : l.length ≤ 73 := by
  have hlength := hrun.length_le
  have hschedule : shuffledRound.ledger.schedule.length = 4 := rfl
  omega

theorem exists_audited_of (n : ℕ) {l : List SignedEnvelope} {c : RoundCore (ZMod 41)}
    (hrun : AuthoredRun shuffledRound seatSecret l c) (hfresh : FreshFrom c l.length)
    (hleft : 73 ≤ l.length + n) : ∃ l c, AuthoredRun shuffledRound seatSecret l c ∧ c.Audited := by
  by_cases hidle : NothingToAuthor shuffledRound seatSecret c
  · exact ⟨l, c, hrun,
      audited_of_nothingToAuthor shuffledRound_shuffled hrun.inv.1 hrun.inv.2 hidle⟩
  · obtain ⟨e, c', hnext, hfresh'⟩ := exists_next hrun hfresh hidle
    have hlength := length_le_of_run hnext
    rw [List.length_append, List.length_singleton] at hlength
    cases n with
    | zero => omega
    | succ n =>
        refine exists_audited_of n hnext hfresh' ?_
        rw [List.length_append, List.length_singleton]
        omega

/-- The small round can be played to its end. -/
theorem exists_audited : ∃ l c, AuthoredRun shuffledRound seatSecret l c ∧ c.Audited :=
  exists_audited_of 73 .start (fun _ _ _ _ _ => rfl) (by simp)

end SmallGroup

theorem AuthoredRun.trueShares {q : ℕ} {G : Type} [AddCommGroup G] [Module (ZMod q) G]
    [DecidableEq G] {P : Primitives q G} {R : SaskuRound P} {secrets : ℕ → ZMod q}
    {c : RoundCore G} {l : List SignedEnvelope} (h : AuthoredRun R secrets l c) :
    ∀ e ∈ l, TrueShares R.ledger secrets e := by
  induction h with
  | start => simp
  | next run authors fresh step ih =>
      intro e he
      rcases List.mem_append.1 he with he | he
      · exact ih e he
      · obtain rfl := List.mem_singleton.1 he
        exact authors.trueShares run.inv.1 fresh

open SmallGroup in
/-- A receiver that is recovered from a small round that was played to its end. -/
theorem honest_never_blamed_small :
    ∃ (r : PersistentSaskuRoundReceiver (primitives fun _ => 0)) (history : List SignedEnvelope),
      r.core.Audited ∧
        ∃ card deal result, FairAudit shuffledRound history r.core card deal result := by
  obtain ⟨l, c, hrun, haudited⟩ := exists_audited
  have haccepted : (PersistentSaskuRoundReceiver.start 4 100000 sessionCalls c).HasAccepted
      shuffledRound ed25519 l :=
    ⟨l, c, 4, 100000, sessionCalls, [], hrun.replay, rfl, (List.append_nil l).symm⟩
  exact ⟨_, l, haudited, honest_never_blamed shuffledRound ed25519 seatSecret
    (fun seat => shuffledRound_shuffled.localKey seat.isLt) _ l haccepted
    (fun e he => (hrun.trueShares e he).soundProofs) haudited.complete⟩

end Tablefolk
