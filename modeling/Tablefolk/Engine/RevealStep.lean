import Tablefolk.Engine.RevealLedger

/-!
# What an accepted reveal envelope does

`#process` is walked through once here.  `SharesAccepted` and `ActionAccepted` list
what it checks of a SHARES and of an ACTION envelope, `LedgerStep` is what a commit
then does, and `process_accepted_iff` says that these are exactly the envelopes it
accepts.  `RoundReveal.step` is the ledger as a machine that reads envelopes.
-/

namespace Tablefolk

section

variable {q : ℕ} {G : Type} [AddCommGroup G] [Module (ZMod q) G] [DecidableEq G]
  {P : Primitives q G} (L : RoundReveal P)

/-- What the ledger requires of every envelope before it looks at the body. -/
structure InScope (e : SignedEnvelope) (seat : ℕ) : Prop where
  size : e.byteLength ≤ MAX_ROUND_REVEAL_ENVELOPE_BYTES
  game : e.game = L.gameId
  seat : L.roster.seatOf e.from_ = some seat
  round : e.round = L.round

/-- The checks on a SHARES envelope. -/
structure SharesAccepted (s : LedgerState G) (e : SignedEnvelope) (seat : ℕ)
    (step : ScheduledDeal) (body : SharesBody q G) : Prop where
  scope : InScope L e seat
  type : e.type = .SHARES
  decoded : decodeSharesBody P e.body = .ok body
  fresh : s.accepted (P.hashEnvelope e) = none
  deal : L.currentDeal s = some step
  phase : e.phase = L.phase s
  donor : L.batchDeal = true ∨ seat ≠ step.to_
  pending : seat ∉ s.contributors
  recipient : body.to_ = L.recipient step
  positions : L.positionsMatch body.items (L.sharePositions step seat)
  proofs : L.checkShares ⟨L.gameId, L.round, e.phase⟩ seat body.items = .ok ()

/-- The checks on an ACTION envelope. -/
structure ActionAccepted (s : LedgerState G) (e : SignedEnvelope) (seat : ℕ)
    (body : ActionBody q G) (revealed : List (ℕ × String)) : Prop where
  scope : InScope L e seat
  type : e.type = .ACTION
  decoded : decodeActionBody P e.body = .ok body
  fresh : s.accepted (P.hashEnvelope e) = none
  dealt : L.currentDeal s = none
  budget : s.actionIndex < L.maxActions
  phase : e.phase = L.phase s
  owned : L.checkReveal s seat body.reveal = .ok ()
  opened : L.openShares s ⟨L.gameId, L.round, e.phase⟩ seat [] body.shares = .ok revealed

/-- What a commit does. -/
inductive LedgerStep (s : LedgerState G) (e : SignedEnvelope) :
    RevealTransition q G → LedgerState G → Prop
  | shares {seat : ℕ} {step : ScheduledDeal} {body : SharesBody q G}
      (accepted : SharesAccepted L s e seat step body) :
      LedgerStep s e ⟨true, seat, .shares body⟩
        (L.contribute s (P.hashEnvelope e) seat body.items)
  | action {seat : ℕ} {body : ActionBody q G} {revealed : List (ℕ × String)}
      (accepted : ActionAccepted L s e seat body revealed) :
      LedgerStep s e ⟨true, seat, .action body revealed⟩
        (s.reveal (P.hashEnvelope e) revealed)

variable {L} {s s' : LedgerState G} {e : SignedEnvelope} {seat : ℕ}
  {transition : RevealTransition q G}

omit [DecidableEq G] in
theorem phase_of_dealt (h : L.currentDeal s = none) :
    L.phase s = playPhase L.round s.actionIndex := if_pos h

omit [DecidableEq G] in
theorem phase_of_dealing {step : ScheduledDeal} (h : L.currentDeal s = some step) :
    L.phase s = dealPhase L.round s.dealIndex := if_neg (by simp [h])

theorem processShares_accepted (hscope : InScope L e seat) (htype : e.type = .SHARES)
    (h : L.processShares s e seat = .ok (transition, s')) (haccepted : transition.accepted = true) :
    LedgerStep L s e transition s' := by
  unfold RoundReveal.processShares at h
  split at h
  · cases h
  · rename_i body hbody
    split at h
    · cases h
      cases haccepted
    · rename_i hfresh
      split at h
      · cases h
      · rename_i step hdeal
        simp only [check_bind_eq_ok, throwIf_eq_ok, not_not] at h
        obtain ⟨hphase, hdonor, hpending, hto, hpositions, hproofs, h⟩ := h
        cases h
        refine .shares ⟨hscope, htype, hbody, by simpa using hfresh, hdeal, hphase, ?_, hpending,
          hto, hpositions, hproofs⟩
        by_cases hbatch : L.batchDeal = true
        · exact .inl hbatch
        · exact .inr fun hto => hdonor ⟨by simpa using hbatch, hto⟩

omit [DecidableEq G] in
/-- What `decodeActionEnvelope` accepts, when one seat is expected. -/
theorem decodeActionEnvelope_eq_ok {expectedSeat : Option ℕ} {body : ActionBody q G} {sender : ℕ}
    (h : L.decodeActionEnvelope s e expectedSeat.toList = .ok (sender, body)) :
    expectedSeat = some sender ∧ L.roster.seatOf e.from_ = some sender ∧
      e.phase = playPhase L.round s.actionIndex ∧ decodeActionBody P e.body = .ok body := by
  simp only [RoundReveal.decodeActionEnvelope, check_bind_eq_ok, throwIf_eq_ok] at h
  obtain ⟨-, -, -, -, -, h⟩ := h
  split at h
  · cases h
  · rename_i seat hseat
    simp only [check_bind_eq_ok, throwIf_eq_ok, not_not] at h
    obtain ⟨-, -, hphase, hexpected, h⟩ := h
    split at h
    · cases h
    · rename_i action hbody
      cases h
      exact ⟨by simpa using hexpected, hseat, hphase, hbody⟩

theorem processAction_accepted {expectedSeat : Option ℕ} (hscope : InScope L e seat)
    (htype : e.type = .ACTION) (h : L.processAction s e seat expectedSeat = .ok (transition, s'))
    (haccepted : transition.accepted = true) :
    LedgerStep L s e transition s' ∧ expectedSeat = some seat := by
  unfold RoundReveal.processAction at h
  split at h
  · split at h
    · cases h
    · cases h
      cases haccepted
  · rename_i hfresh
    simp only [check_bind_eq_ok, throwIf_eq_ok, not_not, not_le] at h
    obtain ⟨hdealt, hbudget, h⟩ := h
    obtain ⟨⟨sender, body⟩, hdecode, h⟩ := bind_eq_ok.1 h
    obtain ⟨howned, h⟩ := check_bind_eq_ok.1 h
    obtain ⟨revealed, hopened, h⟩ := bind_eq_ok.1 h
    cases h
    obtain ⟨hexpected, hsender, hphase, hbody⟩ := decodeActionEnvelope_eq_ok hdecode
    obtain rfl := Option.some.inj (hscope.seat.symm.trans hsender)
    exact ⟨.action ⟨hscope, htype, hbody, hfresh, hdealt, hbudget,
      hphase.trans (phase_of_dealt hdealt).symm, howned, hopened⟩, hexpected⟩

/-- What the ledger accepts, it accepts by one of the two checks; an action only from
the seat that was expected. -/
theorem process_accepted {expectedSeat : Option ℕ}
    (h : L.process s e expectedSeat = .ok (transition, s')) (haccepted : transition.accepted = true) :
    LedgerStep L s e transition s' ∧
      (e.type = .ACTION → expectedSeat = some transition.seat) := by
  simp only [RoundReveal.process, check_bind_eq_ok, throwIf_eq_ok, not_not, not_lt] at h
  obtain ⟨hsize, hgame, h⟩ := h
  split at h
  · cases h
  · rename_i seat hseat
    simp only [check_bind_eq_ok, throwIf_eq_ok, not_not] at h
    obtain ⟨hround, h⟩ := h
    have hscope : InScope L e seat := ⟨hsize, hgame, hseat, hround⟩
    split at h
    · rename_i htype
      exact ⟨processShares_accepted hscope htype h haccepted, fun h => by simp [htype] at h⟩
    · rename_i htype
      obtain ⟨hstep, hexpected⟩ := processAction_accepted hscope htype h haccepted
      refine ⟨hstep, fun _ => ?_⟩
      cases hstep with
      | shares accepted => rw [accepted.type] at htype; cases htype
      | action accepted =>
          rw [hexpected, ← hseat]
          exact accepted.scope.seat
    · cases h

/-- What passes the checks is accepted, an action if its sender was expected. -/
theorem process_of_step (h : LedgerStep L s e transition s') {expectedSeat : Option ℕ}
    (hexpected : e.type = .ACTION → expectedSeat = some transition.seat) :
    L.process s e expectedSeat = .ok (transition, s') := by
  cases h with
  | @shares seat step body accepted =>
      obtain ⟨⟨hsize, hgame, hseat, hround⟩, htype, hbody, hfresh, hdeal, hphase, hdonor, hpending,
        hto, hpositions, hproofs⟩ := accepted
      have hdonor : ¬ (L.batchDeal = false ∧ seat = step.to_) := by
        rintro ⟨hbatch, heq⟩
        rcases hdonor with h | h
        · simp [hbatch] at h
        · exact h heq
      rw [RoundReveal.process, throwIf_neg (not_lt.2 hsize), ok_bind, throwIf_neg (not_not.2 hgame),
        ok_bind, hseat]
      show throwIf _ _ >>= _ = _
      rw [throwIf_neg (not_not.2 hround), ok_bind, htype]
      simp only [RoundReveal.processShares, hbody, hfresh, hdeal, Option.isSome_none]
      rw [if_neg (by simp), throwIf_neg (not_not.2 hphase), ok_bind, throwIf_neg hdonor, ok_bind,
        throwIf_neg hpending, ok_bind, throwIf_neg (not_not.2 hto), ok_bind,
        throwIf_neg (not_not.2 hpositions), ok_bind, hproofs]
      rfl
  | @action seat body revealed accepted =>
      obtain ⟨⟨hsize, hgame, hseat, hround⟩, htype, hbody, hfresh, hdealt, hbudget, hphase, howned,
        hopened⟩ := accepted
      obtain rfl := hexpected htype
      have hseats : seat < L.roster.size := Roster.lt_size_of_seatOf hseat
      have hroster : 3 ≤ L.roster.size := L.roster.three_le
      have hdecode : L.decodeActionEnvelope s e [seat] = .ok (seat, body) := by
        rw [RoundReveal.decodeActionEnvelope,
          throwIf_neg (show ¬ MAX_ACTION_ENVELOPE_BYTES < e.byteLength from not_lt.2 hsize), ok_bind,
          throwIf_neg (by simp; omega), ok_bind, throwIf_neg (by simpa using hseats), ok_bind,
          throwIf_neg (by simp), ok_bind, throwIf_neg (not_not.2 hgame), ok_bind, hseat]
        show throwIf _ _ >>= _ = _
        rw [throwIf_neg (not_not.2 hround), ok_bind, throwIf_neg (not_not.2 htype), ok_bind,
          throwIf_neg (not_not.2 (hphase.trans (phase_of_dealt hdealt))), ok_bind,
          throwIf_neg (by simp), ok_bind, hbody]
        rfl
      rw [RoundReveal.process, throwIf_neg (not_lt.2 hsize), ok_bind, throwIf_neg (not_not.2 hgame),
        ok_bind, hseat]
      show throwIf _ _ >>= _ = _
      rw [throwIf_neg (not_not.2 hround), ok_bind, htype]
      simp only [RoundReveal.processAction, hfresh]
      rw [throwIf_neg (not_not.2 hdealt), ok_bind, throwIf_neg (not_le.2 hbudget), ok_bind]
      show L.decodeActionEnvelope s e [seat] >>= _ = _
      rw [hdecode, ok_bind]
      show L.checkReveal s seat body.reveal >>= _ = _
      rw [howned, ok_bind, hopened]
      rfl

theorem classify_eq_ok {expectedSeat : Option ℕ} : L.classify s e expectedSeat = .ok transition ↔
    ∃ s', L.process s e expectedSeat = .ok (transition, s') := by
  rw [RoundReveal.classify]
  cases L.process s e expectedSeat with
  | error e => simp [Except.map]
  | ok result => simp [Except.map, Prod.ext_iff]

/-- A duplicate or a rejection leaves the ledger as it is. -/
theorem process_not_accepted {expectedSeat : Option ℕ}
    (h : L.process s e expectedSeat = .ok (transition, s'))
    (haccepted : transition.accepted = false) :
    s' = s ∧ (s.accepted (P.hashEnvelope e)).isSome = true := by
  simp only [RoundReveal.process, check_bind_eq_ok, throwIf_eq_ok] at h
  obtain ⟨-, -, h⟩ := h
  split at h
  · cases h
  · obtain ⟨-, h⟩ := check_bind_eq_ok.1 h
    split at h
    · unfold RoundReveal.processShares at h
      split at h
      · cases h
      · split at h
        · rename_i hdup
          cases h
          exact ⟨rfl, hdup⟩
        · split at h
          · cases h
          · simp only [check_bind_eq_ok] at h
            obtain ⟨-, -, -, -, -, -, h⟩ := h
            cases h
            cases haccepted
    · unfold RoundReveal.processAction at h
      split at h
      · rename_i revealed hdup
        split at h
        · cases h
        · cases h
          exact ⟨rfl, by simp [hdup]⟩
      · simp only [check_bind_eq_ok] at h
        obtain ⟨-, -, h⟩ := h
        obtain ⟨_, -, h⟩ := bind_eq_ok.1 h
        obtain ⟨-, h⟩ := check_bind_eq_ok.1 h
        obtain ⟨_, -, h⟩ := bind_eq_ok.1 h
        cases h
        cases haccepted
    · cases h

theorem LedgerStep.seatOf (h : LedgerStep L s e transition s') :
    L.roster.seatOf e.from_ = some transition.seat := by
  cases h with
  | shares accepted => exact accepted.scope.seat
  | action accepted => exact accepted.scope.seat

/-- Both checks fix the transition and the state after. -/
theorem LedgerStep.unique {t t' : RevealTransition q G} {r r' : LedgerState G}
    (h : LedgerStep L s e t r) (h' : LedgerStep L s e t' r') : t = t' ∧ r = r' := by
  have hleft : L.process s e (some t.seat) = .ok (t, r) := process_of_step h fun _ => rfl
  have hright : L.process s e (some t.seat) = .ok (t', r') :=
    process_of_step h' fun _ => h.seatOf.symm.trans h'.seatOf
  cases hleft.symm.trans hright
  exact ⟨rfl, rfl⟩

/-! ## The ledger as a machine -/

/-- Read an envelope: the state after it, if it is accepted from its own sender. -/
def RoundReveal.step (L : RoundReveal P) (s : LedgerState G) (e : SignedEnvelope) :
    Option (LedgerState G) :=
  match L.process s e (L.roster.seatOf e.from_) with
  | .ok (transition, s') => if transition.accepted then some s' else none
  | .error _ => none

/-- The machine makes exactly the steps. -/
theorem step_eq_some : L.step s e = some s' ↔ ∃ transition, LedgerStep L s e transition s' := by
  constructor
  · intro h
    unfold RoundReveal.step at h
    split at h
    · rename_i transition s'' hprocess
      split at h
      · rename_i haccepted
        cases h
        exact ⟨transition, (process_accepted hprocess haccepted).1⟩
      · cases h
    · cases h
  · rintro ⟨transition, h⟩
    have hprocess := process_of_step h fun _ => h.seatOf
    have haccepted : transition.accepted = true := by cases h <;> rfl
    rw [RoundReveal.step, hprocess]
    simp [haccepted]

/-- Whoever was expected, an accepted commit is a step of the machine. -/
theorem step_of_commit {expectedSeat : Option ℕ}
    (h : L.commit s e expectedSeat = .ok (transition, s')) (haccepted : transition.accepted = true) :
    L.step s e = some s' :=
  step_eq_some.2 ⟨transition, (process_accepted h haccepted).1⟩

end

end Tablefolk
