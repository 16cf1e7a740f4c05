import Tablefolk.Sasku.OpenedDeal

/-!
# The joint invariant of a round

Three components move with every accepted envelope: the reveal ledger, the hand and the
audit.  `RoundInv` says how they agree.

* `RoundStep` is what `#commit` does with what `#classify` accepted.
* `commit_of_accepts`: a commit of what was classified never throws, in a state with
  the invariant.
* `RoundInv.step`: every accepted envelope keeps the invariant.
-/

namespace Tablefolk

section

variable {q : ℕ} {G : Type} [AddCommGroup G] [Module (ZMod q) G] [DecidableEq G]
  {P : Primitives q G} {R : SaskuRound P} {c c' : RoundCore G} {e : SignedEnvelope}

/-! ## The invariant -/

/-- The ledger, the hand and the audit agree. -/
structure RoundInv (R : SaskuRound P) (c : RoundCore G) : Prop where
  ledger : LedgerInv R.ledger c.ledger
  /-- the hand is what its own history leads to -/
  replay : runActions (publicHand R.dealer) c.hand.history = .ok c.hand
  actions : c.ledger.actionIndex = c.hand.history.length
  /-- every public position was opened by a play of its owner's -/
  shown : ∀ position text, c.ledger.revealed position = some text →
    ∃ play ∈ c.hand.plays, R.ledger.owner position = some play.seat.val ∧ text = play.card.text
  /-- every play has opened a position of its seat -/
  played : ∀ play ∈ c.hand.plays, ∃ position, R.ledger.owner position = some play.seat.val ∧
    c.ledger.revealed position = some play.card.text
  unaudited : c.hand.phase ≠ .complete → c.audit = none ∧ ∀ seat, c.auditHashes seat = none
  audited : c.hand.phase = .complete → ∃ audit, c.audit = some audit ∧
    audit.phase = auditPhase R.ledger.round ∧
    audit.pendingSenders = [0, 1, 2, 3].filter (fun seat => c.auditHashes seat = none) ∧
    (audit.pendingSenders ≠ [] → audit.result = none) ∧
    (audit.pendingSenders = [] → ∃ result, audit.result = some result ∧ R.buildAudit c = .ok result)

theorem RoundInv.init : RoundInv R R.init where
  ledger := .start
  replay := rfl
  actions := rfl
  shown := by simp [SaskuRound.init, LedgerState.start]
  played := by simp [SaskuRound.init, publicHand, initialState, HandState.plays]
  unaudited := fun _ => ⟨rfl, fun _ => rfl⟩
  audited := fun h => by cases h

theorem RoundInv.reached (h : RoundInv R c) : Reached none c.hand :=
  reached_of_run (show applyAll (startHand R.dealer none) _ = .ok _ from applyAll_of_run h.replay)

omit [DecidableEq G] in
/-- A complete hand has opened every position. -/
theorem all_revealed {ledger : LedgerState G} {hand : HandState} (hreached : Reached none hand)
    (hplayed : ∀ play ∈ hand.plays, ∃ position, R.ledger.owner position = some play.seat.val ∧
      ledger.revealed position = some play.card.text) (phase : hand.phase = .complete) :
    (∀ position < 36, (ledger.revealed position).isSome) ∧
      (R.ledger.revealedPositions ledger).length = 36 := by
  obtain ⟨hlen, -⟩ := hreached.of_complete phase
  have hnodup : (hand.plays.map fun play => play.card.text).Nodup := by
    rw [show (fun play : SaskuPlay => play.card.text) = SaskuCardId.text ∘ SaskuPlay.card from rfl,
      ← List.map_map]
    exact hreached.inv.table.distinct.map fun _ _ => card_text_injective
  have hsub : (hand.plays.map fun play => play.card.text).Subperm
      (R.ledger.revealedCards ledger) := List.subperm_of_subset hnodup fun text htext => by
    obtain ⟨play, hplay, rfl⟩ := List.mem_map.1 htext
    obtain ⟨position, howner, hrevealed⟩ := hplayed play hplay
    exact mem_revealedCards.2 ⟨position, lt_deck_of_owner howner, hrevealed⟩
  have hle := hsub.length_le
  rw [List.length_map, hlen, RoundReveal.revealedCards, List.length_filterMap_eq_countP,
    R.length_deck] at hle
  have hcount : (List.range 36).countP (fun position => (ledger.revealed position).isSome)
      = (List.range 36).length :=
    le_antisymm List.countP_le_length (by simpa using hle)
  refine ⟨fun position hposition => ?_, ?_⟩
  · simpa using List.countP_eq_length.1 hcount position (by simpa using hposition)
  · rw [RoundReveal.revealedPositions, R.length_deck, ← List.countP_eq_length_filter, hcount]
    rfl

/-! ## Committing -/

/-- The audit of a round whose hand has just been completed. -/
def SaskuRound.openedAudit (R : SaskuRound P) (hand : HandState) : Option SaskuRoundAuditSnapshot :=
  if hand.phase = .complete then some ⟨auditPhase R.ledger.round, [0, 1, 2, 3], none⟩ else none

/-- What `#commit` does with what `#classify` accepted. -/
inductive RoundStep (R : SaskuRound P) (c : RoundCore G) (e : SignedEnvelope) :
    RoundCore G → Prop
  | shares {seat : ℕ} {step : ScheduledDeal} {body : SharesBody q G}
      (accepted : SharesAccepted R.ledger c.ledger e seat step body) :
      RoundStep R c e
        { c with ledger := R.ledger.contribute c.ledger (P.hashEnvelope e) seat body.items }
  | action {seat : ℕ} {body : ActionBody q G} {revealed : List (ℕ × String)}
      {cards : List (ℕ × SaskuCardId)} {action : SaskuHandAction} {hand : HandState}
      (accepted : PlayAccepted R c e seat body revealed cards action hand) :
      RoundStep R c e
        { c with ledger := c.ledger.reveal (P.hashEnvelope e) revealed
                 hand := hand
                 audit := R.openedAudit hand }
  | audit {seat : ℕ} {audit : SaskuRoundAuditSnapshot} {pending : List ℕ}
      {result : Option SaskuRoundAuditResult} (accepted : AuditAccepted R c e seat audit)
      (hpending : pending = audit.pendingSenders.filter fun other => other ≠ seat)
      (hopen : pending ≠ [] → result = none)
      (hclosed : pending = [] → ∃ checked, R.buildAudit c = .ok checked ∧ result = some checked) :
      RoundStep R c e
        { c with auditHashes := Function.update c.auditHashes seat (some (P.hashEnvelope e))
                 audit := some ⟨audit.phase, pending, result⟩ }

theorem parseRevealed_eq_ok {revealed : List (ℕ × String)} {cards : List (ℕ × SaskuCardId)}
    (h : SaskuRound.parseRevealed revealed = .ok cards) :
    revealed = cards.map fun card => (card.1, card.2.text) := by
  induction revealed generalizing cards with
  | nil =>
      cases h
      rfl
  | cons entry rest ih =>
      obtain ⟨position, text⟩ := entry
      rw [SaskuRound.parseRevealed, bind_eq_ok] at h
      obtain ⟨card, hcard, h⟩ := h
      obtain ⟨cards, hcards, h⟩ := bind_eq_ok.1 h
      cases h
      rw [liftError_eq_ok, parseSaskuCard_eq_ok] at hcard
      rw [ih hcards, hcard]
      rfl

/-- What an accepted action has to do with its reveals. -/
theorem PlayAccepted.cases {seat : ℕ} {body : ActionBody q G} {revealed : List (ℕ × String)}
    {cards : List (ℕ × SaskuCardId)} {action : SaskuHandAction} {hand : HandState}
    (h : PlayAccepted R c e seat body revealed cards action hand) :
    action.seat.val = seat ∧
    ((∃ position card, action.toPlay = some ⟨action.seat, card⟩ ∧ action = .play action.seat card ∧
        revealed = [(position, card.text)] ∧ R.ledger.owner position = some seat ∧
        c.ledger.revealed position = none) ∨
      action.toPlay = none ∧ revealed = []) := by
  have hdecoded := decoded_of_decodeSaskuAction h.decoded
  have hrevealed := parseRevealed_eq_ok h.parsed
  refine ⟨hdecoded.seat, ?_⟩
  cases hdecoded with
  | @play seat' position card hseat hreveal hcards =>
      subst hcards
      have hentry := h.ledger.reveals.entries (position, card.text) (by simp [hrevealed])
      exact .inl ⟨position, card, rfl, rfl, by simpa using hrevealed, hentry.1, hentry.2.1⟩
  | auction hseat hplay hreveal hcards =>
      subst hcards
      exact .inr ⟨hplay, by simpa using hrevealed⟩

theorem plays_of_nextAction {s s' : HandState} {a : SaskuHandAction} (h : nextAction s a = .ok s') :
    s'.history = s.history ++ [a] ∧ s'.plays = s.plays ++ a.toPlay.toList := by
  have hhistory : s'.history = s.history ++ [a] := (nextAction_ok_iff.1 h).2.2.history
  refine ⟨hhistory, ?_⟩
  rw [HandState.plays, HandState.plays, hhistory, List.filterMap_append]
  congr 1

section Action

variable {seat : ℕ} {body : ActionBody q G} {revealed : List (ℕ × String)}
  {cards : List (ℕ × SaskuCardId)} {action : SaskuHandAction} {hand : HandState}
  (accepted : PlayAccepted R c e seat body revealed cards action hand)
include accepted

/-- The positions that are public after an action. -/
theorem PlayAccepted.revealed_iff {position : ℕ} {text : String} :
    (c.ledger.reveal (P.hashEnvelope e) revealed).revealed position = some text ↔
      (position, text) ∈ revealed ∨ c.ledger.revealed position = some text :=
  reveal_revealed accepted.ledger.reveals.distinct fun entry hentry =>
    (accepted.ledger.reveals.entries entry hentry).2.1

theorem PlayAccepted.shown (h : RoundInv R c) : ∀ position text,
    (c.ledger.reveal (P.hashEnvelope e) revealed).revealed position = some text →
    ∃ play ∈ hand.plays, R.ledger.owner position = some play.seat.val ∧ text = play.card.text := by
  intro position text htext
  rw [(plays_of_nextAction accepted.next).2]
  rcases accepted.revealed_iff.1 htext with hmem | hold
  · obtain ⟨hseat, hcases⟩ := accepted.cases
    rcases hcases with ⟨position', card, hplay, -, rfl, howner, -⟩ | ⟨-, rfl⟩
    · cases List.mem_singleton.1 hmem
      exact ⟨⟨action.seat, card⟩, by simp [hplay], hseat ▸ howner, rfl⟩
    · simp at hmem
  · obtain ⟨play, hplay, hrest⟩ := h.shown position text hold
    exact ⟨play, List.mem_append_left _ hplay, hrest⟩

theorem PlayAccepted.played (h : RoundInv R c) : ∀ play ∈ hand.plays, ∃ position,
    R.ledger.owner position = some play.seat.val ∧
    (c.ledger.reveal (P.hashEnvelope e) revealed).revealed position = some play.card.text := by
  intro play hplay
  rw [(plays_of_nextAction accepted.next).2] at hplay
  rcases List.mem_append.1 hplay with hold | hnew
  · obtain ⟨position, howner, hrevealed⟩ := h.played play hold
    exact ⟨position, howner, accepted.revealed_iff.2 (.inr hrevealed)⟩
  · obtain ⟨hseat, hcases⟩ := accepted.cases
    rcases hcases with ⟨position, card, htoPlay, -, rfl, howner, -⟩ | ⟨htoPlay, -⟩
    · rw [htoPlay] at hnew
      cases List.mem_singleton.1 hnew
      exact ⟨position, hseat ▸ howner, accepted.revealed_iff.2 (.inl (List.mem_singleton.2 rfl))⟩
    · simp [htoPlay] at hnew

/-- A hand that was to move was not complete. -/
theorem PlayAccepted.incomplete : c.hand.phase ≠ .complete := by
  obtain ⟨hexpected, -, hstep⟩ := nextAction_ok_iff.1 accepted.next
  intro hphase
  cases hstep <;> simp_all

end Action

/-- While cards are dealt the hand has not begun. -/
theorem RoundInv.of_dealing (h : RoundInv R c) {step : ScheduledDeal}
    (hdeal : R.ledger.currentDeal c.ledger = some step) :
    c.hand.history = [] ∧ c.hand.phase ≠ .complete := by
  have hhistory : c.hand.history = [] := by
    rw [← List.length_eq_zero_iff, ← h.actions]
    exact (h.ledger.of_dealing hdeal).1
  refine ⟨hhistory, fun hcomplete => ?_⟩
  have hplays := (h.reached.of_complete hcomplete).1
  rw [HandState.plays, hhistory] at hplays
  simp at hplays

/-- The cards a complete hand has opened: a different one at each position. -/
theorem RoundInv.opened (h : RoundInv R c) (hcomplete : c.hand.phase = .complete) :
    ∃ card : ℕ → SaskuCardId, (∀ p < 36, c.ledger.revealed p = some (card p).text) ∧
      ∀ p < 36, ∀ p' < 36, card p = card p' → p = p' := by
  have hall := (all_revealed h.reached h.played hcomplete).1
  have hexists : ∀ p, ∃ card : SaskuCardId, p < 36 → c.ledger.revealed p = some card.text := by
    intro p
    by_cases hp : p < 36
    · obtain ⟨text, htext⟩ := Option.isSome_iff_exists.1 (hall p hp)
      obtain ⟨play, -, -, rfl⟩ := h.shown p text htext
      exact ⟨play.card, fun _ => htext⟩
    · exact ⟨⟨.six, .clubs⟩, fun hlt => absurd hlt hp⟩
  choose card hcard using hexists
  refine ⟨card, hcard, fun p hp p' hp' heq => ?_⟩
  exact h.ledger.distinct p p' _ (hcard p hp) (heq ▸ hcard p' hp')

omit [DecidableEq G] in
/-- The audit reads the public cards and the hand only. -/
theorem buildAudit_congr (hledger : c.ledger.revealed = c'.ledger.revealed)
    (hhand : c.hand = c'.hand) : R.buildAudit c = R.buildAudit c' := by
  have hcards : ∀ positions, R.openedCards c positions = R.openedCards c' positions := by
    intro positions
    induction positions with
    | nil => rfl
    | cons position rest ih => rw [SaskuRound.openedCards, SaskuRound.openedCards, hledger, ih]
  rw [SaskuRound.buildAudit, SaskuRound.buildAudit, hcards, hhand]

/-- **A commit never throws**: what was classified as accepted is committed, and the
state is the one `RoundStep` describes. -/
theorem commit_of_accepts (h : RoundInv R c) {t : SaskuRound.RoundTransition}
    (haccepts : Accepts R c e t) : ∃ c', R.commit c t = .ok c' ∧ RoundStep R c e c' := by
  cases haccepts with
  | @shares seat step body accepted =>
      have hprocess : R.ledger.commit c.ledger e c.expectedSeat
          = .ok (⟨true, seat, .shares body⟩, _) :=
        process_of_step (.shares accepted) fun htype => by
          rw [accepted.type] at htype
          cases htype
      refine ⟨_, ?_, .shares accepted⟩
      have haudit : ∀ ledger, R.nextAudit c ledger c.hand = .ok c.audit := fun ledger =>
        if_neg fun hboth => (h.of_dealing accepted.deal).2 hboth.1
      simp only [SaskuRound.commit, SaskuRound.commitReveal, liftError_eq_ok.2 hprocess, ok_bind]
      rw [throwIf_neg (by simp [RevealBody.type]), ok_bind,
        throwIf_neg (by simp [SaskuRound.matchesPlay]), ok_bind]
      simp only [ok_bind, haudit]
      rfl
  | @action seat body revealed cards action hand accepted =>
      have hprocess : R.ledger.commit c.ledger e c.expectedSeat
          = .ok (⟨true, seat, .action body revealed⟩, _) :=
        process_of_step (.action accepted.ledger) fun _ => accepted.turn
      have hmatches : SaskuRound.matchesPlay (.action body revealed : RevealBody q G)
          (some action) := by
        obtain ⟨-, hcases⟩ := accepted.cases
        rcases hcases with ⟨position, card, -, hplay, rfl, -⟩ | ⟨hplay, rfl⟩
        · rw [hplay]
          rfl
        · cases action <;> simp_all [SaskuRound.matchesPlay, SaskuHandAction.toPlay]
      have hnext : nextState c.hand action.candidate = .ok hand := by
        rw [nextState_candidate, accepted.next]
      have hnone := (h.unaudited accepted.incomplete).1
      have haudit : R.nextAudit c (c.ledger.reveal (P.hashEnvelope e) revealed) hand
          = .ok (R.openedAudit hand) := by
        rw [SaskuRound.nextAudit, SaskuRound.openedAudit, hnone]
        by_cases hcomplete : hand.phase = .complete
        · have hall := all_revealed (h.reached.next accepted.next) (accepted.played h) hcomplete
          rw [if_pos ⟨hcomplete, rfl⟩, if_pos hcomplete, throwIf_neg (not_not.2 hall.2), ok_bind]
          rfl
        · rw [if_neg fun hboth => hcomplete hboth.1, if_neg hcomplete]
      refine ⟨_, ?_, .action accepted⟩
      simp only [SaskuRound.commit, SaskuRound.commitReveal, liftError_eq_ok.2 hprocess, ok_bind]
      rw [throwIf_neg (by simp [RevealBody.type]), ok_bind, throwIf_neg (not_not.2 hmatches),
        ok_bind, liftError_eq_ok.2 hnext, ok_bind]
      simp only [haudit]
      rfl
  | @audit seat audit accepted =>
      have hcomplete : c.hand.phase = .complete := by
        by_contra hne
        cases (h.unaudited hne).1.symm.trans accepted.opened
      obtain ⟨card, hrevealed, hcard⟩ := h.opened hcomplete
      obtain ⟨result, hresult, -⟩ := buildAudit_eq_ok h.replay hcomplete hrevealed hcard
      by_cases hpending : audit.pendingSenders.filter (fun other => other ≠ seat) = []
      · refine ⟨_, ?_, .audit accepted rfl (fun hne => absurd hpending hne)
          fun _ => ⟨result, hresult, rfl⟩⟩
        simp only [SaskuRound.commit, SaskuRound.commitAudit, accepted.opened, if_pos hpending,
          hresult]
        rfl
      · refine ⟨_, ?_, .audit accepted rfl (fun _ => rfl) fun heq => absurd heq hpending⟩
        simp only [SaskuRound.commit, SaskuRound.commitAudit, accepted.opened, if_neg hpending]
        rfl

/-! ## Steps keep the invariant -/

theorem RoundInv.shares (h : RoundInv R c) {seat : ℕ} {step : ScheduledDeal}
    {body : SharesBody q G} (accepted : SharesAccepted R.ledger c.ledger e seat step body) :
    RoundInv R
      { c with ledger := R.ledger.contribute c.ledger (P.hashEnvelope e) seat body.items } where
  ledger := h.ledger.next (.shares accepted)
  replay := h.replay
  actions := h.actions
  shown := h.shown
  played := h.played
  unaudited := h.unaudited
  audited := fun hcomplete => absurd hcomplete (h.of_dealing accepted.deal).2

theorem RoundInv.action (h : RoundInv R c) {seat : ℕ} {body : ActionBody q G}
    {revealed : List (ℕ × String)} {cards : List (ℕ × SaskuCardId)} {action : SaskuHandAction}
    {hand : HandState} (accepted : PlayAccepted R c e seat body revealed cards action hand) :
    RoundInv R { c with ledger := c.ledger.reveal (P.hashEnvelope e) revealed
                        hand := hand
                        audit := R.openedAudit hand } where
  ledger := h.ledger.next (.action accepted.ledger)
  replay := by
    show runActions _ hand.history = .ok hand
    rw [(plays_of_nextAction accepted.next).1]
    exact runActions_snoc h.replay accepted.next
  actions := by
    show c.ledger.actionIndex + 1 = hand.history.length
    rw [(plays_of_nextAction accepted.next).1, h.actions]
    simp
  shown := accepted.shown h
  played := accepted.played h
  unaudited := fun hne => ⟨if_neg hne, (h.unaudited accepted.incomplete).2⟩
  audited := by
    intro hcomplete
    refine ⟨_, if_pos hcomplete, rfl, ?_, fun _ => rfl, fun hnil => by cases hnil⟩
    simp [(h.unaudited accepted.incomplete).2]

theorem RoundInv.audit (h : RoundInv R c) {seat : ℕ} {audit : SaskuRoundAuditSnapshot}
    {pending : List ℕ} {result : Option SaskuRoundAuditResult}
    (accepted : AuditAccepted R c e seat audit)
    (hpending : pending = audit.pendingSenders.filter fun other => other ≠ seat)
    (hopen : pending ≠ [] → result = none)
    (hclosed : pending = [] → ∃ checked, R.buildAudit c = .ok checked ∧ result = some checked) :
    RoundInv R
      { c with auditHashes := Function.update c.auditHashes seat (some (P.hashEnvelope e))
               audit := some ⟨audit.phase, pending, result⟩ } where
  ledger := h.ledger
  replay := h.replay
  actions := h.actions
  shown := h.shown
  played := h.played
  unaudited := by
    intro hne
    cases (h.unaudited hne).1.symm.trans accepted.opened
  audited := by
    intro hcomplete
    obtain ⟨audit', haudit', hphase, hsenders, -, -⟩ := h.audited hcomplete
    cases accepted.opened.symm.trans haudit'
    refine ⟨_, rfl, hphase, ?_, hopen, fun hnil => ?_⟩
    · show pending = _
      rw [hpending, hsenders, List.filter_filter]
      refine List.filter_congr fun other _ => ?_
      by_cases hother : other = seat
      · simp [hother]
      · simp [hother]
    · obtain ⟨checked, hchecked, rfl⟩ := hclosed hnil
      exact ⟨checked, rfl, (buildAudit_congr rfl rfl).trans hchecked⟩

/-- **Every accepted envelope keeps the invariant.** -/
theorem RoundInv.next (h : RoundInv R c) (hstep : RoundStep R c e c') : RoundInv R c' := by
  cases hstep with
  | shares accepted => exact h.shares accepted
  | action accepted => exact h.action accepted
  | audit accepted hpending hopen hclosed => exact h.audit accepted hpending hopen hclosed

end

end Tablefolk
