import Tablefolk.Engine.SetupInvariant
import Tablefolk.Session.SmallGroup

/-!
# Runs of the setup state machine

Any sequence of classifying and accepting calls on a `SetupCoordinator`.  A call either
leaves the coordinator as it is or records one admitted contribution (`next_cases`), so
every reachable coordinator keeps `SetupInvariant` and nothing recorded is lost.
`setup_commits_before_reveal` collects what follows.
-/

namespace Tablefolk

section

variable {q : ℕ} {G : Type} [AddCommGroup G] [Module (ZMod q) G] [DecidableEq G]
  {P : Primitives q G}

variable (q G) in
/-- A call on a coordinator. -/
inductive SetupCall where
  | classify (seat : ℕ) (c : SetupContribution q G)
  | accept (seat : ℕ) (c : SetupContribution q G)

namespace SetupCoordinator

variable {setup : SetupCoordinator q G} {seat : ℕ}

variable (P) in
/-- The coordinator after a call: classifying changes nothing, nor does a call that
throws. -/
def next (setup : SetupCoordinator q G) : SetupCall q G → SetupCoordinator q G
  | .classify _ _ => setup
  | .accept seat c =>
      match setup.accept P seat c with
      | .ok (_, next) => next
      | .error _ => setup

variable (P) in
/-- The coordinator after a sequence of calls. -/
def run (setup : SetupCoordinator q G) (calls : List (SetupCall q G)) : SetupCoordinator q G :=
  calls.foldl (next P) setup

/-- What one call does to what is recorded: it keeps everything, or it records one
admitted contribution. -/
theorem next_cases (hinv : SetupInvariant P setup) (call : SetupCall q G) :
    setup.next P call = setup ∨ ∃ seat c, seat < setup.seatCount ∧
      setup.recorded seat c = none ∧ setup.Admits P seat c ∧
      setup.next P call = setup.record P seat c := by
  cases call with
  | classify seat c => exact .inl rfl
  | accept seat c =>
      unfold next
      by_cases hseat : seat < setup.seatCount
      · rcases accept_cases hinv hseat c with
          ⟨-, -, haccept⟩ | ⟨-, -, reason, -, haccept⟩ | ⟨hnone, hadm, -, haccept⟩
        · exact .inl (by simp only [haccept])
        · exact .inl (by simp only [haccept])
        · exact .inr ⟨seat, c, hseat, hnone, hadm, by simp only [haccept]⟩
      · exact .inl (by simp only [(classify_out_of_range (not_lt.1 hseat) c).2])

theorem next_invariant (hinv : SetupInvariant P setup) (call : SetupCall q G) :
    SetupInvariant P (setup.next P call) := by
  obtain h | ⟨seat, c, hseat, -, hadm, h⟩ := next_cases hinv call
  · rw [h]
    exact hinv
  · rw [h]
    exact record_invariant hinv hseat hadm

theorem run_invariant (hinv : SetupInvariant P setup) (calls : List (SetupCall q G)) :
    SetupInvariant P (setup.run P calls) := by
  induction calls generalizing setup with
  | nil => exact hinv
  | cons call rest ih => exact ih (next_invariant hinv call)

omit [AddCommGroup G] [Module (ZMod q) G] [DecidableEq G] in
theorem rank_of_recorded {c x : SetupContribution q G} (h : setup.recorded seat c = some x) :
    x.rank = c.rank := by
  cases c <;> obtain ⟨value, -, rfl⟩ := Option.map_eq_some_iff.1 h <;> rfl

omit [AddCommGroup G] [Module (ZMod q) G] [DecidableEq G] in
theorem recorded_congr {c d : SetupContribution q G} (h : c.rank = d.rank) :
    setup.recorded seat c = setup.recorded seat d := by
  cases c <;> cases d <;> first | rfl | cases h

/-- Nothing recorded is lost. -/
theorem recorded_next (hinv : SetupInvariant P setup) (call : SetupCall q G)
    {c x : SetupContribution q G} (h : setup.recorded seat c = some x) :
    (setup.next P call).recorded seat c = some x := by
  obtain hnext | ⟨other, d, -, hnone, hadm, hnext⟩ := next_cases hinv call
  · rw [hnext]
    exact h
  · rw [hnext, recorded_record hinv hadm, if_neg]
    · exact h
    · rintro ⟨rfl, hrank⟩
      rw [← recorded_congr hrank, h] at hnone
      cases hnone

theorem recorded_run (hinv : SetupInvariant P setup) (calls : List (SetupCall q G))
    {c x : SetupContribution q G} (h : setup.recorded seat c = some x) :
    (setup.run P calls).recorded seat c = some x := by
  induction calls generalizing setup with
  | nil => exact h
  | cons call rest ih => exact ih (next_invariant hinv call) (recorded_next hinv call h)

@[simp] theorem record_seatCount (c : SetupContribution q G) :
    (setup.record P seat c).seatCount = setup.seatCount := by
  cases c <;> exact settled_seatCount ..

@[simp] theorem record_beaconRequired (c : SetupContribution q G) :
    (setup.record P seat c).beaconRequired = setup.beaconRequired := by
  cases c <;> exact settled_beaconRequired ..

theorem run_scope (hinv : SetupInvariant P setup) (calls : List (SetupCall q G)) :
    (setup.run P calls).seatCount = setup.seatCount ∧
      (setup.run P calls).beaconRequired = setup.beaconRequired := by
  induction calls generalizing setup with
  | nil => exact ⟨rfl, rfl⟩
  | cons call rest ih =>
      obtain ⟨hcount, hrequired⟩ := ih (next_invariant hinv call)
      obtain h | ⟨seat, c, -, -, -, h⟩ := next_cases hinv call
      · rw [h] at hcount hrequired
        exact ⟨by simpa [run, h] using hcount, by simpa [run, h] using hrequired⟩
      · rw [h] at hcount hrequired
        simp only [record_seatCount, record_beaconRequired] at hcount hrequired
        exact ⟨by simpa [run, h] using hcount, by simpa [run, h] using hrequired⟩

/-! ## The seed and the pending senders -/

/-- The seed is there exactly when setup has completed with a beacon. -/
theorem seed_isSome (hinv : SetupInvariant P setup) :
    setup.seed.isSome ↔ setup.state = .complete ∧ setup.beaconRequired = true := by
  unfold seed
  cases hinv.phase with
  | keys missing state aggregateKey beacon => simp [state, beacon]
  | failed filled aggregate state aggregateKey beacon => simp [state, beacon]
  | keyed filled key aggregate required state aggregateKey beacon => simp [required, beacon]
  | beacon filled key aggregate required state aggregateKey beacon =>
      rw [beacon, state]
      cases h : beaconStateOf setup.seatCount setup.commitments setup.reveals <;>
        simp [RandomnessBeacon.settled, h, required, setupStateForBeacon]

/-- The seed is the hash of all secrets in seat order. -/
theorem seed_eq (hinv : SetupInvariant P setup) {value : Hash256} (h : setup.seed = some value) :
    ∃ secrets : List RandomSecret,
      (List.range setup.seatCount).map setup.reveals = secrets.map some ∧
      value = P.sha256 secrets := by
  obtain ⟨beacon, hbeacon, hseed⟩ := Option.bind_eq_some_iff.1 h
  obtain ⟨-, -, -, hsettled⟩ := beacon_some hinv hbeacon
  rw [hsettled] at hseed
  unfold RandomnessBeacon.settled at hseed
  dsimp only at hseed
  split at hseed
  · rename_i hcomplete
    cases hseed
    refine ⟨_, Filled.map_eq ?_, rfl⟩
    unfold beaconStateOf at hcomplete
    split at hcomplete
    · split at hcomplete
      · assumption
      · cases hcomplete
    · cases hcomplete
  · cases hseed

/-- The seats whose contribution to the current phase is missing. -/
def missing (setup : SetupCoordinator q G) : List ℕ :=
  (List.range setup.seatCount).filter fun seat =>
    match setup.state with
    | .keys => (setup.keyShares seat).isNone
    | .rand_commit => (setup.commitments seat).isNone
    | .rand_reveal => (setup.reveals seat).isNone
    | .complete | .failed => false

theorem pendingSenders_eq (hinv : SetupInvariant P setup) :
    setup.pendingSenders = setup.missing := by
  unfold pendingSenders missing
  cases hinv.phase with
  | keys missing state aggregateKey beacon => simp [state]
  | failed filled aggregate state aggregateKey beacon => simp [state]
  | keyed filled key aggregate required state aggregateKey beacon => simp [state]
  | beacon filled key aggregate required state aggregateKey beacon =>
      rw [beacon, state]
      cases h : beaconStateOf setup.seatCount setup.commitments setup.reveals <;>
        simp [setupStateForBeacon, RandomnessBeacon.pendingSenders, RandomnessBeacon.settled, h]

/-- A seat of the table always gets an answer. -/
theorem exists_of_accept (hinv : SetupInvariant P setup) (hseat : seat < setup.seatCount)
    (c : SetupContribution q G) : ∃ result next, setup.accept P seat c = .ok (result, next) := by
  rcases accept_cases hinv hseat c with
    ⟨-, -, haccept⟩ | ⟨-, -, reason, -, haccept⟩ | ⟨-, -, -, haccept⟩ <;> exact ⟨_, _, haccept⟩

/-- Only seats of the table have contributed. -/
theorem seat_lt_of_recorded (hinv : SetupInvariant P setup) {c x : SetupContribution q G}
    (h : setup.recorded seat c = some x) : seat < setup.seatCount := by
  cases c with
  | keyShare share =>
      obtain ⟨value, hvalue, -⟩ := Option.map_eq_some_iff.1 h
      exact (hinv.keyShare hvalue).1
  | commitment commitment =>
      obtain ⟨value, hvalue, -⟩ := Option.map_eq_some_iff.1 h
      exact hinv.commitment hvalue
  | reveal secret =>
      obtain ⟨value, hvalue, -⟩ := Option.map_eq_some_iff.1 h
      exact hinv.commitment (hinv.reveal hvalue).2

/-- A reveal is accepted when every seat's key and commitment are in. -/
theorem filled_of_accept_reveal (hinv : SetupInvariant P setup) {secret : RandomSecret}
    {state : SetupState} {next : SetupCoordinator q G}
    (h : setup.accept P seat (.reveal secret) = .ok (.accepted state, next)) :
    Filled setup.seatCount setup.keyShares ∧ Filled setup.seatCount setup.commitments := by
  by_cases hseat : seat < setup.seatCount
  · rcases accept_cases hinv hseat (.reveal secret) with
      ⟨-, -, haccept⟩ | ⟨-, -, reason, -, haccept⟩ | ⟨-, hadm, -, -⟩
    · rw [h] at haccept
      cases haccept
    · rw [h] at haccept
      cases haccept
    · exact ⟨(collecting hinv (.inr hadm.1)).1, (state_revealing hinv hadm.1).2.1⟩
  · rw [(classify_out_of_range (not_lt.1 hseat) _).2] at h
    cases h

end SetupCoordinator

/-- The state a result reports. -/
def SetupIngestResult.state : SetupIngestResult → SetupState
  | .accepted state | .duplicate state | .rejected state _ => state
  | .failed => .failed

namespace SetupCoordinator

variable {setup : SetupCoordinator q G} {seat : ℕ}

/-- Classifying predicts accepting. -/
theorem classify_eq (hinv : SetupInvariant P setup) (c : SetupContribution q G) :
    setup.classify P seat c = (setup.accept P seat c).map Prod.fst := by
  by_cases hseat : seat < setup.seatCount
  · rcases accept_cases hinv hseat c with
      ⟨-, hclassify, haccept⟩ | ⟨-, -, reason, hclassify, haccept⟩ |
        ⟨-, -, hclassify, haccept⟩ <;> rw [hclassify, haccept] <;> rfl
  · obtain ⟨hclassify, haccept⟩ := classify_out_of_range (P := P) (not_lt.1 hseat) c
    rw [hclassify, haccept]
    rfl

/-- The state an acceptor reports is the state it leaves. -/
theorem state_of_accept (hinv : SetupInvariant P setup) {c : SetupContribution q G}
    {result : SetupIngestResult} {next : SetupCoordinator q G}
    (h : setup.accept P seat c = .ok (result, next)) : result.state = next.state := by
  by_cases hseat : seat < setup.seatCount
  · rcases accept_cases hinv hseat c with
      ⟨-, -, haccept⟩ | ⟨-, -, reason, -, haccept⟩ | ⟨-, -, -, haccept⟩
    · rw [h] at haccept
      cases haccept
      rfl
    · rw [h] at haccept
      cases haccept
      rfl
    · rw [h] at haccept
      cases haccept
      unfold reportOf
      split
      · rename_i hfailed
        exact hfailed.symm
      · rfl
  · rw [(classify_out_of_range (not_lt.1 hseat) c).2] at h
    cases h

end SetupCoordinator

/-- **Commit before reveal, and a seed that does not depend on the order.**  In whatever
state the calls lead to: a reveal is accepted only when every seat's key and commitment
are in; nothing recorded ever changes and another value for it is refused; the seed is
there exactly when setup completed with a beacon, and hashes the secrets in seat order;
the pending senders are the seats missing in the phase; classifying predicts accepting,
and only a seat outside the table throws. -/
theorem setup_commits_before_reveal {gameId : GameId} {round seatCount : ℕ}
    {beaconRequired : Bool} {started setup : SetupCoordinator q G}
    (hstart : SetupCoordinator.start gameId round seatCount beaconRequired = .ok started)
    (calls : List (SetupCall q G)) (hrun : started.run P calls = setup) :
    (∀ seat secret state next,
      setup.accept P seat (.reveal secret) = .ok (.accepted state, next) →
        ∀ other < seatCount, (setup.keyShares other).isSome ∧ (setup.commitments other).isSome) ∧
    (∀ seat c x, setup.recorded seat c = some x → ∀ more, (setup.run P more).recorded seat c = some x ∧
      (c ≠ x → ∃ reason, (setup.run P more).accept P seat c
        = .ok (.rejected (setup.run P more).state reason, setup.run P more))) ∧
    (setup.seed.isSome ↔ setup.state = .complete ∧ beaconRequired = true) ∧
    (∀ seed, setup.seed = some seed → ∃ secrets : List RandomSecret,
      (List.range seatCount).map setup.reveals = secrets.map some ∧ seed = P.sha256 secrets) ∧
    setup.pendingSenders = setup.missing ∧
    (∀ seat c, setup.classify P seat c = (setup.accept P seat c).map Prod.fst) ∧
    (∀ seat c result next, setup.accept P seat c = .ok (result, next) →
      result.state = next.state) ∧
    (∀ seat c, (∃ e, setup.accept P seat c = .error e) ↔ seatCount ≤ seat) := by
  have hstarted := SetupInvariant.start (P := P) hstart
  have hinv : SetupInvariant P setup := hrun ▸ SetupCoordinator.run_invariant hstarted calls
  obtain ⟨hcount, hrequired⟩ : setup.seatCount = seatCount ∧
      setup.beaconRequired = beaconRequired := by
    obtain ⟨hcount, hrequired⟩ := SetupCoordinator.run_scope hstarted calls
    unfold SetupCoordinator.start at hstart
    simp only [check_bind_eq_ok, except_pure_eq] at hstart
    obtain ⟨-, -, hstart⟩ := hstart
    cases hstart
    rw [← hrun]
    exact ⟨hcount, hrequired⟩
  subst hcount hrequired
  refine ⟨?_, ?_, SetupCoordinator.seed_isSome hinv, fun seed => SetupCoordinator.seed_eq hinv,
    SetupCoordinator.pendingSenders_eq hinv, fun seat => SetupCoordinator.classify_eq hinv,
    fun seat c result next => SetupCoordinator.state_of_accept hinv, ?_⟩
  · intro seat secret state next haccept other hother
    obtain ⟨hkeys, hcommitted⟩ := SetupCoordinator.filled_of_accept_reveal hinv haccept
    exact ⟨hkeys other hother, hcommitted other hother⟩
  · intro seat c x hrecorded more
    have hmore := SetupCoordinator.run_invariant hinv more
    have hlater := SetupCoordinator.recorded_run hinv more hrecorded
    refine ⟨hlater, fun hne => ?_⟩
    have hseat : seat < (setup.run P more).seatCount := SetupCoordinator.seat_lt_of_recorded hmore hlater
    obtain ⟨reason, -, haccept⟩ := (SetupCoordinator.accept_recorded hmore hseat hlater).2 hne
    exact ⟨reason, haccept⟩
  · intro seat c
    constructor
    · rintro ⟨e, herror⟩
      by_contra hseat
      obtain ⟨result, next, hok⟩ := SetupCoordinator.exists_of_accept hinv (not_le.1 hseat) c
      rw [hok] at herror
      cases herror
    · intro hseat
      exact ⟨_, (SetupCoordinator.classify_out_of_range hseat c).2⟩

end

/-! ## A small table -/

namespace SmallGroup

/-- The game key of a seat, with a proof of possession. -/
def keyShare (seat : ℕ) : GameKeyShare 41 (ZMod 41) :=
  ⟨((seat + 1 : ℕ) : ZMod 41), ⟨0, ((seat + 1 : ℕ) : ZMod 41)⟩⟩

/-- The secret of a seat. -/
def secret (seat : ℕ) : RandomSecret := padded 32 [UInt8.ofNat (10 + seat)]

/-- A coordinator of three seats with a beacon. -/
def started : SetupCoordinator 41 (ZMod 41) where
  gameId := game
  round := 1
  seatCount := 3
  beaconRequired := true
  keyShares := fun _ => none
  state := .keys
  aggregateKey := none
  beacon := none

/-- Every seat contributes its key, its commitment and its secret. -/
def setupCalls : List (SetupCall 41 (ZMod 41)) :=
  ([2, 0, 1].map fun seat => .accept seat (.keyShare (keyShare seat))) ++
  ([1, 2, 0].map fun seat => .accept seat (.commitment
    ((primitives fun _ => 0).beaconCommitment game 1 seat (secret seat)))) ++
  ([0, 2, 1].map fun seat => .accept seat (.reveal (secret seat)))

end SmallGroup

open SmallGroup in
theorem setup_commits_before_reveal_small :
    ∃ secrets : List RandomSecret,
      (List.range 3).map (started.run (primitives fun _ => 0) setupCalls).reveals
        = secrets.map some ∧
      (started.run (primitives fun _ => 0) setupCalls).seed
        = some ((primitives fun _ => 0).sha256 secrets) := by
  have hstart : SetupCoordinator.start game 1 3 true = .ok started := rfl
  obtain ⟨-, -, hseed, hvalue, -⟩ :=
    setup_commits_before_reveal (P := primitives fun _ => 0) hstart setupCalls rfl
  obtain ⟨value, hsome⟩ := Option.isSome_iff_exists.1 (hseed.2 ⟨by decide +kernel, rfl⟩)
  obtain ⟨secrets, hsecrets, rfl⟩ := hvalue value hsome
  exact ⟨secrets, hsecrets, hsome⟩

end Tablefolk
