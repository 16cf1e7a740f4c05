import Tablefolk.Sasku.RoundReceiver

/-!
# Replaying a round from its chains

The loop of `PersistentSaskuRoundReceiver.recover` in `game-sasku/src/persistent-round-receiver.ts`.
A recovery has the messages of a round sender by sender, and does not know how the live round has
interleaved them: it reads whatever carries the phase it waits for, seat by seat.

* `SaskuRound.replay`: the loop.
* `replay_of_run`: it gets to where any run over the same messages has got, and is never stuck.
-/

namespace Tablefolk

/-- What a recovery throws: an error of its own, or a `RangeError` or `TypeError` as it comes. -/
inductive SaskuRoundRecoveryError where
  | recovery (message : String)
  | range (message : String)
  | type (message : String)
  deriving DecidableEq, Repr

/-- What becomes of an error of a round inside a recovery. -/
def SaskuRoundRecoveryError.of : RoundError → SaskuRoundRecoveryError
  | .range message | .reveal (.range message) => .range message
  | .type message | .reveal (.type message) => .type message
  | _ => .recovery "Could not reconstruct Sasku round semantics"

section

variable {q : ℕ} {G : Type} [AddCommGroup G] [Module (ZMod q) G] [DecidableEq G]
  {P : Primitives q G}

namespace SaskuRound

variable (R : SaskuRound P)

/-- The first seat whose next message has the type and the phase that the round waits for. -/
def nextSeat (c : RoundCore G) (bySeat : ℕ → List SignedEnvelope) : Option (ℕ × SignedEnvelope) :=
  (List.range 4).findSome? fun seat =>
    match bySeat seat with
    | artifact :: _ =>
        if artifact.type = R.awaitedType c ∧ artifact.phase = R.awaitedPhase c then
          some (seat, artifact)
        else none
    | [] => none

/-- The loop of `recover`, with the messages that remain. -/
def replay (bySeat : ℕ → List SignedEnvelope) :
    ℕ → RoundCore G → Except SaskuRoundRecoveryError (RoundCore G)
  | 0, c => .ok c
  | remaining + 1, c =>
      match R.nextSeat c bySeat with
      | none => .error (.recovery "Round history has missing or out-of-order prerequisites")
      | some (seat, artifact) => do
          let transition ← (R.classify c artifact).mapError SaskuRoundRecoveryError.of
          throwIf (transition.accepted = false)
            (SaskuRoundRecoveryError.recovery "Round history repeats a semantic contribution")
          let next ← (R.commit c transition).mapError SaskuRoundRecoveryError.of
          replay (Function.update bySeat seat (bySeat seat).tail) remaining next

/-- The messages of a seat. -/
def sentFrom (seat : ℕ) (l : List SignedEnvelope) : List SignedEnvelope :=
  l.filter fun e => R.ledger.roster.seatOf e.from_ = some seat

end SaskuRound

variable {R : SaskuRound P} {c c' : RoundCore G} {e : SignedEnvelope} {l : List SignedEnvelope}

/-- What a step reads is of this round and of one of its seats. -/
theorem RoundStep.scope (h : RoundStep R c e c') : e.game = R.ledger.gameId ∧
    e.round = R.ledger.round ∧
    (e.type = .SHARES ∨ e.type = .ACTION ∨ e.type = .AUDIT_DISCLOSE) ∧
    ∃ seat < 4, R.ledger.roster.seatOf e.from_ = some seat := by
  have hsize : ∀ seat, R.ledger.roster.seatOf e.from_ = some seat → ∃ seat < 4,
      R.ledger.roster.seatOf e.from_ = some seat := by
    intro seat hseat
    refine ⟨seat, ?_, hseat⟩
    have hlt := Roster.lt_size_of_seatOf hseat
    rwa [R.four] at hlt
  cases h with
  | shares accepted =>
      exact ⟨accepted.scope.game, accepted.scope.round, .inl accepted.type,
        hsize _ accepted.scope.seat⟩
  | action accepted =>
      exact ⟨accepted.ledger.scope.game, accepted.ledger.scope.round,
        .inr (.inl accepted.ledger.type), hsize _ accepted.ledger.scope.seat⟩
  | audit accepted =>
      exact ⟨accepted.game, accepted.round, .inr (.inr accepted.type), hsize _ accepted.sender⟩

/-- A step is a classification that accepts, and its commit. -/
theorem step_eq_some_parts (h : R.step c e = some c') : ∃ t : SaskuRound.RoundTransition,
    R.classify c e = .ok t ∧ t.accepted = true ∧ R.commit c t = .ok c' := by
  unfold SaskuRound.step at h
  split at h
  · rename_i t hclassify
    split at h
    · rename_i haccepted
      split at h
      · rename_i next hcommit
        cases h
        exact ⟨t, hclassify, haccepted, hcommit⟩
      · cases h
    · cases h
  · cases h

omit [DecidableEq G] in
/-- The messages of a seat are those of its identity. -/
theorem sentFrom_eq_logOf {seat : ℕ} {identity : IdentityPublicKey}
    (hseat : R.ledger.roster.seatOf identity = some seat) (l : List SignedEnvelope) :
    R.sentFrom seat l = Replay.logOf (fun e : SignedEnvelope => e.from_) identity l := by
  refine List.filter_congr fun e _ => ?_
  rw [decide_eq_decide]
  constructor
  · exact fun h => Roster.seatOf_inj h hseat
  · rintro rfl
    exact hseat

omit [DecidableEq G] in
theorem nextSeat_eq_some {bySeat : ℕ → List SignedEnvelope} {seat : ℕ} {artifact : SignedEnvelope}
    (h : R.nextSeat c bySeat = some (seat, artifact)) : seat < 4 ∧
      (∃ rest, bySeat seat = artifact :: rest) ∧
      artifact.type = R.awaitedType c ∧ artifact.phase = R.awaitedPhase c := by
  obtain ⟨other, hother, hfound⟩ := List.exists_of_findSome?_eq_some h
  split at hfound
  · rename_i first rest hseat
    split at hfound
    · rename_i hawaits
      cases hfound
      exact ⟨List.mem_range.1 hother, ⟨rest, hseat⟩, hawaits⟩
    · cases hfound
  · cases hfound

omit [DecidableEq G] in
theorem exists_nextSeat {bySeat : ℕ → List SignedEnvelope} {seat : ℕ} {artifact : SignedEnvelope}
    {rest : List SignedEnvelope} (hseat : seat < 4) (hfirst : bySeat seat = artifact :: rest)
    (htype : artifact.type = R.awaitedType c) (hphase : artifact.phase = R.awaitedPhase c) :
    ∃ found, R.nextSeat c bySeat = some found := by
  refine Option.ne_none_iff_exists'.1 fun hnone => ?_
  have hnot := List.findSome?_eq_none_iff.1 hnone seat (List.mem_range.2 hseat)
  rw [hfirst] at hnot
  simp only [htype, hphase, and_self, if_true] at hnot
  cases hnot

/-- **The replay is never stuck**: it gets to where any run over the same messages has got, in
whatever order that has read the messages of different senders. -/
theorem replay_of_run {E : Set SignedEnvelope} (hhash : Set.InjOn P.hashEnvelope E)
    {bySeat : ℕ → List SignedEnvelope} {s t : RoundState R} (hl : ∀ e ∈ l, e ∈ E)
    (hrun : Replay.run RoundState.step s l = some t)
    (hsame : ∀ seat < 4, bySeat seat = R.sentFrom seat l) :
    R.replay bySeat l.length s.core = .ok t.core := by
  induction hlength : l.length generalizing l s bySeat with
  | zero =>
      obtain rfl := List.length_eq_zero_iff.1 hlength
      cases hrun
      rfl
  | succ remaining ih =>
      -- the message that the run reads first is one that carries the awaited phase
      obtain ⟨first, others, rfl⟩ := List.exists_cons_of_length_eq_add_one hlength
      obtain ⟨s₁, hfirst, -⟩ := (Replay.run_cons_eq_some _).1 hrun
      obtain ⟨htype, hphase⟩ := awaits_of_step hfirst
      obtain ⟨-, -, -, seat, hseat, hsender⟩ := (RoundState.step_eq_some.1 hfirst).scope
      have hhead : bySeat seat = first :: R.sentFrom seat others := by
        rw [hsame seat hseat, SaskuRound.sentFrom, List.filter_cons_of_pos (by simp [hsender])]
        rfl
      obtain ⟨⟨found, artifact⟩, hfound⟩ := exists_nextSeat hseat hhead htype hphase
      -- so that one is found, and reading it first changes nothing
      obtain ⟨hlt, ⟨rest, hrest⟩, hawaits⟩ := nextSeat_eq_some hfound
      have hmem : artifact ∈ R.sentFrom found (first :: others) := by
        rw [← hsame found hlt, hrest]
        exact List.mem_cons_self
      have hfrom : R.ledger.roster.seatOf artifact.from_ = some found := by
        simpa using (List.mem_filter.1 hmem).2
      have hlog : Replay.logOf (fun e : SignedEnvelope => e.from_) artifact.from_ (first :: others)
          = artifact :: rest := by
        rw [← sentFrom_eq_logOf hfrom, ← hsame found hlt, hrest]
      obtain ⟨s', l', hstep, hrun', hperm, hlog', hothers⟩ := Replay.run_choose
        (round_exchanges hhash) round_early hl hlog hawaits hrun
      obtain ⟨transition, hclassify, haccepted, hcommit⟩ :=
        step_eq_some_parts ((round_step_eq_some s.inv).2 (RoundState.step_eq_some.1 hstep))
      have hchosen : ∀ other < 4,
          Function.update bySeat found (bySeat found).tail other = R.sentFrom other l' := by
        intro other hother
        by_cases heq : other = found
        · subst heq
          rw [Function.update_self, hrest, List.tail_cons, sentFrom_eq_logOf hfrom, hlog']
        · rw [Function.update_of_ne heq, hsame other hother]
          obtain ⟨identity, hidentity⟩ : ∃ identity,
              R.ledger.roster.seatOf identity = some other := by
            have hsize : other < R.ledger.roster.seats.length := by
              have hfour : R.ledger.roster.seats.length = 4 := R.four
              omega
            exact ⟨_, Roster.seatOf_eq_some.2 (List.getElem?_eq_getElem hsize)⟩
          have hne : artifact.from_ ≠ identity := by
            rintro rfl
            exact heq (Option.some.inj (hidentity.symm.trans hfrom))
          rw [sentFrom_eq_logOf hidentity, sentFrom_eq_logOf hidentity, hothers _ hne]
      rw [SaskuRound.replay, hfound]
      simp only [hclassify, Except.mapError, ok_bind, haccepted, hcommit]
      rw [throwIf_neg (by decide), ok_bind]
      refine ih (fun e he => hl e (hperm.mem_iff.2 (List.mem_cons_of_mem _ he))) hrun' hchosen ?_
      have hcount := hperm.length_eq
      simp only [List.length_cons] at hlength hcount
      omega

end

end Tablefolk
