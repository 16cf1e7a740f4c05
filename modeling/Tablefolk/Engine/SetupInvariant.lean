import Tablefolk.Engine.Setup

/-!
# The setup state machine

The state of a `SetupCoordinator` is a function of what it has recorded: who has
contributed a key, a commitment and a reveal.  `SetupCoordinator.settled` is that
function, and `SetupInvariant` says that a coordinator is settled and that nothing
was recorded out of order.

* `accept_recorded`, `accept_admitted`, `accept_refused`: what one call does, for the
  three kinds of contribution at once;
* `record_invariant`, `recorded_record`: what recording a contribution keeps and changes.
-/

namespace Tablefolk

/-! ## Seats that have contributed -/

/-- Every seat has a value. -/
def Filled {α : Type} (seatCount : ℕ) (values : ℕ → Option α) : Prop :=
  ∀ seat < seatCount, (values seat).isSome

instance {α : Type} (seatCount : ℕ) (values : ℕ → Option α) : Decidable (Filled seatCount values) :=
  inferInstanceAs (Decidable (∀ seat < seatCount, (values seat).isSome))

theorem remaining_eq_zero {α : Type} {seatCount : ℕ} {values : ℕ → Option α} :
    remaining seatCount values = 0 ↔ Filled seatCount values := by
  unfold remaining Filled
  rw [List.countP_eq_zero]
  simp [Option.isSome_iff_ne_none]

/-- A seat without a value counts once. -/
theorem remaining_eq_succ {α : Type} {seatCount seat : ℕ} {values : ℕ → Option α} (value : α)
    (hseat : seat < seatCount) (hnone : values seat = none) :
    remaining seatCount values
      = remaining seatCount (Function.update values seat (some value)) + 1 := by
  unfold remaining
  induction seatCount with
  | zero => omega
  | succ count ih =>
      simp only [List.range_succ, List.countP_append, List.countP_singleton]
      by_cases h : seat = count
      · subst h
        have hbelow : ∀ other ∈ List.range seat, (values other).isNone = true ↔
            (Function.update values seat (some value) other).isNone = true := by
          intro other hother
          rw [Function.update_of_ne (by
            have := List.mem_range.1 hother
            omega)]
        rw [List.countP_congr hbelow]
        simp [hnone]
      · have hrest := ih (by omega)
        rw [Function.update_of_ne (Ne.symm h)]
        omega

/-- The last seat to contribute finds one seat remaining: itself. -/
theorem remaining_eq_one {α : Type} {seatCount seat : ℕ} {values : ℕ → Option α} (value : α)
    (hseat : seat < seatCount) (hnone : values seat = none) :
    remaining seatCount values = 1 ↔
      Filled seatCount (Function.update values seat (some value)) := by
  rw [← remaining_eq_zero, remaining_eq_succ value hseat hnone]
  omega

theorem Filled.update {α : Type} {seatCount : ℕ} {values : ℕ → Option α}
    (h : Filled seatCount values) (seat : ℕ) (value : α) :
    Filled seatCount (Function.update values seat (some value)) := by
  intro other hother
  by_cases hne : other = seat
  · subst hne
    simp
  · rw [Function.update_of_ne hne]
    exact h other hother

theorem not_filled_none {α : Type} {seatCount : ℕ} (h : 0 < seatCount) :
    ¬ Filled seatCount (fun _ => (none : Option α)) := by
  intro hfilled
  simpa using hfilled 0 h

/-- The values in seat order, one for every seat. -/
theorem Filled.map_eq {α : Type} {seatCount : ℕ} {values : ℕ → Option α}
    (h : Filled seatCount values) :
    (List.range seatCount).map values = ((List.range seatCount).filterMap values).map some := by
  induction seatCount with
  | zero => rfl
  | succ count ih =>
      obtain ⟨value, hvalue⟩ := Option.isSome_iff_exists.1 (h count (by omega))
      have hrest := ih fun seat hseat => h seat (by omega)
      simp [List.range_succ, hrest, hvalue]

section

variable {q : ℕ} {G : Type} [AddCommGroup G] [Module (ZMod q) G] [DecidableEq G]
  (P : Primitives q G)

/-! ## The settled state -/

/-- The state of a beacon with these commitments and reveals. -/
def beaconStateOf (seatCount : ℕ) (commitments : ℕ → Option Hash256)
    (reveals : ℕ → Option RandomSecret) : BeaconState :=
  if Filled seatCount commitments then
    if Filled seatCount reveals then .complete else .revealing
  else .committing

omit [DecidableEq G] in
/-- The beacon that has recorded these commitments and reveals. -/
def RandomnessBeacon.settled (gameId : GameId) (round seatCount : ℕ)
    (commitments : ℕ → Option Hash256) (reveals : ℕ → Option RandomSecret) :
    RandomnessBeacon where
  gameId := gameId
  round := round
  seatCount := seatCount
  commitments := commitments
  reveals := reveals
  state := beaconStateOf seatCount commitments reveals
  seed := if beaconStateOf seatCount commitments reveals = .complete then
      some (P.sha256 ((List.range seatCount).filterMap reveals))
    else none

namespace SetupCoordinator

variable (setup : SetupCoordinator q G)

/-- The commitments recorded so far. -/
def commitments : ℕ → Option Hash256 := fun seat =>
  setup.beacon.bind fun beacon => beacon.commitments seat

/-- The reveals recorded so far. -/
def reveals : ℕ → Option RandomSecret := fun seat =>
  setup.beacon.bind fun beacon => beacon.reveals seat

/-- The coordinator that has recorded these keys, commitments and reveals. -/
def settled (keyShares : ℕ → Option (GameKeyShare q G)) (commitments : ℕ → Option Hash256)
    (reveals : ℕ → Option RandomSecret) : SetupCoordinator q G :=
  if Filled setup.seatCount keyShares then
    match aggregatePublicKeys (setup.keys keyShares) with
    | .error _ => { setup with
        keyShares := keyShares, state := .failed, aggregateKey := none, beacon := none }
    | .ok aggregateKey =>
        if setup.beaconRequired then { setup with
          keyShares := keyShares
          state := setupStateForBeacon (beaconStateOf setup.seatCount commitments reveals)
          aggregateKey := some aggregateKey
          beacon := some (.settled P setup.gameId setup.round setup.seatCount commitments
            reveals) }
        else { setup with
          keyShares := keyShares, state := .complete, aggregateKey := some aggregateKey,
          beacon := none }
  else { setup with
    keyShares := keyShares, state := .keys, aggregateKey := none, beacon := none }

end SetupCoordinator

/-- A coordinator is settled, every key it holds was verified, and every reveal opens a
commitment made when all seats had committed. -/
structure SetupInvariant (setup : SetupCoordinator q G) : Prop where
  three_le : 3 ≤ setup.seatCount
  le_eight : setup.seatCount ≤ 8
  settled : setup = setup.settled P setup.keyShares setup.commitments setup.reveals
  keyShare : ∀ {seat share}, setup.keyShares seat = some share →
    seat < setup.seatCount ∧ P.verifyGameKeyShare setup.proofContext share = true
  commitment : ∀ {seat commitment}, setup.commitments seat = some commitment →
    seat < setup.seatCount
  reveal : ∀ {seat secret}, setup.reveals seat = some secret →
    Filled setup.seatCount setup.commitments ∧ setup.commitments seat
      = some (P.beaconCommitment setup.gameId setup.round seat secret)

/-- The four kinds of settled coordinator. -/
inductive SetupPhase (setup : SetupCoordinator q G) : Prop
  | keys (missing : ¬ Filled setup.seatCount setup.keyShares) (state : setup.state = .keys)
      (aggregateKey : setup.aggregateKey = none) (beacon : setup.beacon = none)
  | failed (filled : Filled setup.seatCount setup.keyShares)
      (aggregate : ∃ e, aggregatePublicKeys (setup.keys setup.keyShares) = .error e)
      (state : setup.state = .failed) (aggregateKey : setup.aggregateKey = none)
      (beacon : setup.beacon = none)
  | keyed (filled : Filled setup.seatCount setup.keyShares) (key : G)
      (aggregate : aggregatePublicKeys (setup.keys setup.keyShares) = .ok key)
      (required : setup.beaconRequired = false) (state : setup.state = .complete)
      (aggregateKey : setup.aggregateKey = some key) (beacon : setup.beacon = none)
  | beacon (filled : Filled setup.seatCount setup.keyShares) (key : G)
      (aggregate : aggregatePublicKeys (setup.keys setup.keyShares) = .ok key)
      (required : setup.beaconRequired = true)
      (state : setup.state = setupStateForBeacon
        (beaconStateOf setup.seatCount setup.commitments setup.reveals))
      (aggregateKey : setup.aggregateKey = some key)
      (beacon : setup.beacon = some (.settled P setup.gameId setup.round setup.seatCount
        setup.commitments setup.reveals))

variable {P}

theorem SetupInvariant.phase {setup : SetupCoordinator q G} (h : SetupInvariant P setup) :
    SetupPhase P setup := by
  have hsettled := h.settled
  unfold SetupCoordinator.settled at hsettled
  by_cases hfilled : Filled setup.seatCount setup.keyShares
  · rw [if_pos hfilled] at hsettled
    cases hagg : aggregatePublicKeys (setup.keys setup.keyShares) with
    | error e =>
        simp only [hagg] at hsettled
        exact .failed hfilled ⟨e, hagg⟩ (congrArg SetupCoordinator.state hsettled)
          (congrArg SetupCoordinator.aggregateKey hsettled)
          (congrArg SetupCoordinator.beacon hsettled)
    | ok key =>
        simp only [hagg] at hsettled
        by_cases hrequired : setup.beaconRequired
        · rw [if_pos hrequired] at hsettled
          exact .beacon hfilled key hagg hrequired (congrArg SetupCoordinator.state hsettled)
            (congrArg SetupCoordinator.aggregateKey hsettled)
            (congrArg SetupCoordinator.beacon hsettled)
        · rw [if_neg hrequired] at hsettled
          exact .keyed hfilled key hagg (Bool.not_eq_true _ ▸ hrequired)
            (congrArg SetupCoordinator.state hsettled)
            (congrArg SetupCoordinator.aggregateKey hsettled)
            (congrArg SetupCoordinator.beacon hsettled)
  · rw [if_neg hfilled] at hsettled
    exact .keys hfilled (congrArg SetupCoordinator.state hsettled)
      (congrArg SetupCoordinator.aggregateKey hsettled)
      (congrArg SetupCoordinator.beacon hsettled)

/-! ## Contributions -/

variable (q G) in
/-- What a seat contributes. -/
inductive SetupContribution where
  | keyShare (share : GameKeyShare q G)
  | commitment (commitment : Hash256)
  | reveal (secret : RandomSecret)
  deriving DecidableEq

omit [AddCommGroup G] [Module (ZMod q) G] [DecidableEq G] in
/-- The phase a contribution belongs to. -/
def SetupContribution.rank : SetupContribution q G → ℕ
  | .keyShare _ => 0
  | .commitment _ => 1
  | .reveal _ => 2

namespace SetupCoordinator

variable (P) in
/-- The classifiers of the three kinds. -/
def classify (setup : SetupCoordinator q G) (seat : ℕ) :
    SetupContribution q G → Except SetupError SetupIngestResult
  | .keyShare share => setup.classifyKeyShare P seat share
  | .commitment commitment => setup.classifyCommitment seat commitment
  | .reveal secret => setup.classifyReveal P seat secret

variable (P) in
/-- The acceptors of the three kinds. -/
def accept (setup : SetupCoordinator q G) (seat : ℕ) : SetupContribution q G →
    Except SetupError (SetupIngestResult × SetupCoordinator q G)
  | .keyShare share => setup.acceptKeyShare P seat share
  | .commitment commitment => setup.acceptCommitment seat commitment
  | .reveal secret => setup.acceptReveal P seat secret

/-- What a seat has contributed of the kind of the given contribution. -/
def recorded (setup : SetupCoordinator q G) (seat : ℕ) :
    SetupContribution q G → Option (SetupContribution q G)
  | .keyShare _ => (setup.keyShares seat).map .keyShare
  | .commitment _ => (setup.commitments seat).map .commitment
  | .reveal _ => (setup.reveals seat).map .reveal

variable (P) in
/-- Whether a seat that has not contributed yet may contribute this now. -/
def Admits (setup : SetupCoordinator q G) (seat : ℕ) : SetupContribution q G → Prop
  | .keyShare share =>
      setup.state = .keys ∧ P.verifyGameKeyShare setup.proofContext share = true
  | .commitment _ => setup.state = .rand_commit
  | .reveal secret => setup.state = .rand_reveal ∧ setup.commitments seat
      = some (P.beaconCommitment setup.gameId setup.round seat secret)

variable (P) in
/-- The coordinator with one more contribution. -/
def record (setup : SetupCoordinator q G) (seat : ℕ) :
    SetupContribution q G → SetupCoordinator q G
  | .keyShare share => setup.settled P (Function.update setup.keyShares seat (some share))
      setup.commitments setup.reveals
  | .commitment commitment => setup.settled P setup.keyShares
      (Function.update setup.commitments seat (some commitment)) setup.reveals
  | .reveal secret => setup.settled P setup.keyShares setup.commitments
      (Function.update setup.reveals seat (some secret))

@[simp] theorem settled_gameId (setup : SetupCoordinator q G) (k c r) :
    (setup.settled P k c r).gameId = setup.gameId := by
  unfold settled
  (repeat' split) <;> rfl

@[simp] theorem settled_round (setup : SetupCoordinator q G) (k c r) :
    (setup.settled P k c r).round = setup.round := by
  unfold settled
  (repeat' split) <;> rfl

@[simp] theorem settled_seatCount (setup : SetupCoordinator q G) (k c r) :
    (setup.settled P k c r).seatCount = setup.seatCount := by
  unfold settled
  (repeat' split) <;> rfl

@[simp] theorem settled_beaconRequired (setup : SetupCoordinator q G) (k c r) :
    (setup.settled P k c r).beaconRequired = setup.beaconRequired := by
  unfold settled
  (repeat' split) <;> rfl

@[simp] theorem settled_keyShares (setup : SetupCoordinator q G) (k c r) :
    (setup.settled P k c r).keyShares = k := by
  unfold settled
  (repeat' split) <;> rfl

/-- Settling depends on what the coordinator was started with only. -/
theorem settled_congr {a b : SetupCoordinator q G} (hgame : a.gameId = b.gameId)
    (hround : a.round = b.round) (hcount : a.seatCount = b.seatCount)
    (hrequired : a.beaconRequired = b.beaconRequired) (k c r) :
    a.settled P k c r = b.settled P k c r := by
  cases a
  cases b
  cases hgame
  cases hround
  cases hcount
  cases hrequired
  unfold settled
  simp [keys]

/-- Settling again forgets what was settled before. -/
@[simp] theorem settled_settled (setup : SetupCoordinator q G) (k c r k' c' r') :
    (setup.settled P k c r).settled P k' c' r' = setup.settled P k' c' r' := by
  apply settled_congr <;> simp

/-- A settled coordinator holds the commitments and reveals it was settled with, if it
holds a beacon whenever there are any. -/
theorem settled_maps (setup : SetupCoordinator q G) (k c r)
    (h : (setup.settled P k c r).beacon = none → c = (fun _ => none) ∧ r = fun _ => none) :
    (setup.settled P k c r).commitments = c ∧ (setup.settled P k c r).reveals = r := by
  cases hbeacon : (setup.settled P k c r).beacon with
  | none =>
      obtain ⟨rfl, rfl⟩ := h hbeacon
      constructor <;> funext seat <;> simp [commitments, reveals, hbeacon]
  | some beacon =>
      have hmaps : beacon.commitments = c ∧ beacon.reveals = r := by
        unfold settled at hbeacon
        repeat' split at hbeacon
        all_goals cases hbeacon
        exact ⟨rfl, rfl⟩
      obtain ⟨rfl, rfl⟩ := hmaps
      constructor <;> funext seat <;> simp [commitments, reveals, hbeacon]

end SetupCoordinator

/-- A settled coordinator keeps the invariant when what it is settled with does. -/
theorem SetupInvariant.of_settled {setup : SetupCoordinator q G} {k c r}
    (hseats : 3 ≤ setup.seatCount ∧ setup.seatCount ≤ 8)
    (hempty : (setup.settled P k c r).beacon = none → c = (fun _ => none) ∧ r = fun _ => none)
    (hkey : ∀ {seat share}, k seat = some share →
      seat < setup.seatCount ∧ P.verifyGameKeyShare setup.proofContext share = true)
    (hcommitment : ∀ {seat commitment}, c seat = some commitment → seat < setup.seatCount)
    (hreveal : ∀ {seat secret}, r seat = some secret → Filled setup.seatCount c ∧
      c seat = some (P.beaconCommitment setup.gameId setup.round seat secret)) :
    SetupInvariant P (setup.settled P k c r) := by
  obtain ⟨hc, hr⟩ := SetupCoordinator.settled_maps setup k c r hempty
  have hcontext : (setup.settled P k c r).proofContext = setup.proofContext := by
    simp [SetupCoordinator.proofContext]
  refine ⟨by simpa using hseats.1, by simpa using hseats.2, ?_, ?_, ?_, ?_⟩
  · rw [hc, hr]
    simp
  · intro seat share h
    rw [hcontext, SetupCoordinator.settled_seatCount]
    exact hkey (by simpa using h)
  · intro seat commitment h
    rw [hc] at h
    simpa using hcommitment h
  · intro seat secret h
    rw [hr] at h
    rw [hc]
    simpa using hreveal h

/-- A new coordinator keeps the invariant. -/
theorem SetupInvariant.start {gameId : GameId} {round seatCount : ℕ} {beaconRequired : Bool}
    {setup : SetupCoordinator q G}
    (h : SetupCoordinator.start gameId round seatCount beaconRequired = .ok setup) :
    SetupInvariant P setup := by
  unfold SetupCoordinator.start at h
  simp only [check_bind_eq_ok, throwIf_eq_ok, not_or, not_lt, except_pure_eq] at h
  obtain ⟨-, ⟨hlow, hhigh⟩, h⟩ := h
  cases h
  refine ⟨hlow, hhigh, ?_, ?_, ?_, ?_⟩
  · unfold SetupCoordinator.settled
    rw [if_neg (not_filled_none (by dsimp only; omega))]
  · intro seat share hshare
    cases hshare
  · intro seat commitment hcommitment
    cases hcommitment
  · intro seat secret hsecret
    cases hsecret

/-! ## One call -/

theorem assertSeat_of_lt {seatCount seat : ℕ} (h : seat < seatCount) :
    assertSeat seatCount seat = .ok () := throwIf_neg (by omega) _

theorem assertSeat_of_le {seatCount seat : ℕ} (h : seatCount ≤ seat) :
    assertSeat seatCount seat = .error (.seat seatCount) := throwIf_pos h _

/-- How an accepted contribution is reported. -/
def reportOf (next : SetupCoordinator q G) : SetupIngestResult :=
  if next.state = .failed then .failed else .accepted next.state

namespace RandomnessBeacon

variable (P) (gameId : GameId) (round : ℕ) {seatCount seat : ℕ}
  {commitments : ℕ → Option Hash256} {reveals : ℕ → Option RandomSecret}

omit [DecidableEq G] in
/-- A first commitment is accepted and recorded; the last one ends the collecting. -/
theorem settled_acceptCommitment (hseat : seat < seatCount) (commitment : Hash256)
    (hnone : commitments seat = none) (hmissing : ¬ Filled seatCount commitments)
    (hunrevealed : ¬ Filled seatCount reveals) :
    (settled P gameId round seatCount commitments reveals).classifyCommitment seat commitment
        = .ok (.accepted (beaconStateOf seatCount
          (Function.update commitments seat (some commitment)) reveals)) ∧
      (settled P gameId round seatCount commitments reveals).acceptCommitment seat commitment
        = .ok (.accepted (beaconStateOf seatCount
            (Function.update commitments seat (some commitment)) reveals),
          settled P gameId round seatCount
            (Function.update commitments seat (some commitment)) reveals) := by
  have hlast := remaining_eq_one commitment hseat hnone
  have hstate : beaconStateOf seatCount commitments reveals = .committing := if_neg hmissing
  have hclassify : (settled P gameId round seatCount commitments reveals).classifyCommitment
      seat commitment = .ok (.accepted (beaconStateOf seatCount
        (Function.update commitments seat (some commitment)) reveals)) := by
    unfold classifyCommitment settled
    simp only [assertSeat_of_lt hseat, ok_bind, hnone, hstate, hlast]
    unfold beaconStateOf
    simp [hunrevealed]
  refine ⟨hclassify, ?_⟩
  unfold acceptCommitment
  rw [hclassify, ok_bind]
  unfold settled beaconStateOf
  simp only [hmissing, hunrevealed, if_false]
  split <;> simp

omit [DecidableEq G] in
/-- A first reveal that opens its commitment is accepted and recorded; the last one
fixes the seed. -/
theorem settled_acceptReveal (hseat : seat < seatCount) {secret : RandomSecret}
    (hnone : reveals seat = none) (hcommitted : Filled seatCount commitments)
    (hunrevealed : ¬ Filled seatCount reveals)
    (hopens : commitments seat = some (P.beaconCommitment gameId round seat secret)) :
    (settled P gameId round seatCount commitments reveals).classifyReveal P seat secret
        = .ok (.accepted (beaconStateOf seatCount commitments
          (Function.update reveals seat (some secret)))) ∧
      (settled P gameId round seatCount commitments reveals).acceptReveal P seat secret
        = .ok (.accepted (beaconStateOf seatCount commitments
            (Function.update reveals seat (some secret))),
          settled P gameId round seatCount commitments
            (Function.update reveals seat (some secret))) := by
  have hlast := remaining_eq_one secret hseat hnone
  have hstate : beaconStateOf seatCount commitments reveals = .revealing := by
    unfold beaconStateOf
    rw [if_pos hcommitted, if_neg hunrevealed]
  have hclassify : (settled P gameId round seatCount commitments reveals).classifyReveal P
      seat secret = .ok (.accepted (beaconStateOf seatCount commitments
        (Function.update reveals seat (some secret)))) := by
    unfold classifyReveal settled
    simp only [assertSeat_of_lt hseat, ok_bind, hnone, hstate, hlast, hopens]
    unfold beaconStateOf
    simp [hcommitted]
  refine ⟨hclassify, ?_⟩
  unfold acceptReveal
  rw [hclassify, ok_bind]
  unfold settled
  simp [hstate]

end RandomnessBeacon

namespace SetupCoordinator

variable {setup : SetupCoordinator q G} {seat : ℕ}

/-- A seat outside the table is an error. -/
theorem classify_out_of_range (h : setup.seatCount ≤ seat) (c : SetupContribution q G) :
    setup.classify P seat c = .error (.seat setup.seatCount) ∧
      setup.accept P seat c = .error (.seat setup.seatCount) := by
  have hassert := assertSeat_of_le h
  cases c with
  | keyShare share =>
      simp [classify, accept, classifyKeyShare, acceptKeyShare, hassert]
  | commitment commitment =>
      simp [classify, accept, classifyCommitment, acceptCommitment, hassert]
  | reveal secret =>
      simp [classify, accept, classifyReveal, acceptReveal, hassert]

omit [DecidableEq G] [AddCommGroup G] [Module (ZMod q) G] in
theorem keys_ne_nil (hpos : 0 < setup.seatCount) {k : ℕ → Option (GameKeyShare q G)}
    (h : Filled setup.seatCount k) : setup.keys k ≠ [] := by
  intro hnil
  unfold keys at hnil
  rw [List.filterMap_eq_nil_iff] at hnil
  have hnone := hnil 0 (List.mem_range.2 hpos)
  have hsome := h 0 hpos
  simp only [Option.map_eq_none_iff] at hnone
  simp [hnone] at hsome

omit [Module (ZMod q) G] in
theorem aggregate_ne_noKeys (hpos : 0 < setup.seatCount) {k : ℕ → Option (GameKeyShare q G)}
    (h : Filled setup.seatCount k) :
    aggregatePublicKeys (setup.keys k) ≠ .error .noKeys := by
  intro herror
  have hne := keys_ne_nil hpos h
  unfold aggregatePublicKeys at herror
  rw [throwIf_neg (by simpa using hne), ok_bind] at herror
  simp only [bind_eq_error, throwIf_eq_error] at herror
  simp at herror

omit [DecidableEq G] [AddCommGroup G] [Module (ZMod q) G] in
theorem exists_missing_iff {k : ℕ → Option (GameKeyShare q G)} :
    (∃ seat ∈ List.range setup.seatCount, k seat = none) ↔ ¬ Filled setup.seatCount k := by
  unfold Filled
  simp [Option.isSome_iff_ne_none]

/-- A first key with a valid proof is recorded. -/
theorem acceptKeyShare_admitted (hinv : SetupInvariant P setup) (hseat : seat < setup.seatCount)
    {share : GameKeyShare q G} (hnone : setup.keyShares seat = none)
    (hadm : setup.Admits P seat (.keyShare share)) :
    setup.classifyKeyShare P seat share = .ok (reportOf (setup.record P seat (.keyShare share))) ∧
      setup.acceptKeyShare P seat share = .ok (reportOf (setup.record P seat (.keyShare share)),
        setup.record P seat (.keyShare share)) := by
  obtain ⟨hstate, hverify⟩ := hadm
  obtain ⟨haggregate, hbeacon⟩ : setup.aggregateKey = none ∧ setup.beacon = none := by
    cases hinv.phase with
    | keys missing state aggregateKey beacon => exact ⟨aggregateKey, beacon⟩
    | failed filled aggregate state => rw [state] at hstate; cases hstate
    | keyed filled key aggregate required state => rw [state] at hstate; cases hstate
    | beacon filled key aggregate required state =>
        rw [state] at hstate
        cases h : beaconStateOf setup.seatCount setup.commitments setup.reveals <;>
          simp [h, setupStateForBeacon] at hstate
  have hpos : 0 < setup.seatCount := by
    have := hinv.three_le
    omega
  have hmissing : ¬Filled setup.seatCount (Function.update setup.keyShares seat (some share)) →
      setup.classifyKeyShare P seat share = .ok (.accepted .keys) := by
    intro hmissing
    unfold classifyKeyShare
    rw [assertSeat_of_lt hseat, ok_bind]
    simp only [hnone, hstate, hverify, exists_missing_iff, ite_not]
    rw [if_neg (by simp), if_neg (by simp), if_neg hmissing]
    rfl
  have hfails : ∀ e, Filled setup.seatCount (Function.update setup.keyShares seat (some share)) →
      aggregatePublicKeys (setup.keys (Function.update setup.keyShares seat (some share)))
        = .error e → e ≠ .noKeys → setup.classifyKeyShare P seat share = .ok .failed := by
    intro e hfilled haggr hne
    unfold classifyKeyShare
    rw [assertSeat_of_lt hseat, ok_bind]
    simp only [hnone, hstate, hverify, exists_missing_iff, ite_not]
    rw [if_neg (by simp), if_neg (by simp), if_pos hfilled, haggr]
    cases e with
    | noKeys => exact absurd rfl hne
    | identityKey | identityAggregate => rfl
  have hkeyed : ∀ key, Filled setup.seatCount (Function.update setup.keyShares seat (some share)) →
      aggregatePublicKeys (setup.keys (Function.update setup.keyShares seat (some share)))
        = .ok key → setup.classifyKeyShare P seat share
          = .ok (.accepted (if setup.beaconRequired then .rand_commit else .complete)) := by
    intro key hfilled haggr
    unfold classifyKeyShare
    rw [assertSeat_of_lt hseat, ok_bind]
    simp only [hnone, hstate, hverify, exists_missing_iff, ite_not]
    rw [if_neg (by simp), if_neg (by simp), if_pos hfilled, haggr]
    rfl
  have hsettled : setup.record P seat (.keyShare share) = setup.settled P
      (Function.update setup.keyShares seat (some share)) (fun _ => none) fun _ => none := by
    unfold record commitments reveals
    simp [hbeacon]
  unfold acceptKeyShare
  rw [hsettled]
  unfold settled
  by_cases hfilled : Filled setup.seatCount (Function.update setup.keyShares seat (some share))
  · have hnoKeys := aggregate_ne_noKeys hpos hfilled
    simp only [if_pos hfilled]
    cases haggr : aggregatePublicKeys
        (setup.keys (Function.update setup.keyShares seat (some share))) with
    | error e =>
        rw [hfails e hfilled haggr fun heq => hnoKeys (heq ▸ haggr)]
        cases e with
        | noKeys => exact absurd haggr hnoKeys
        | identityKey => simp [reportOf, haggregate, hbeacon]
        | identityAggregate => simp [reportOf, haggregate, hbeacon]
    | ok key =>
        rw [hkeyed key hfilled haggr]
        -- the beacon starts empty, which is how an empty one settles
        have hstart : beaconStateOf setup.seatCount (fun _ => none) (fun _ => none)
            = .committing := if_neg (not_filled_none hpos)
        cases hrequired : setup.beaconRequired <;>
          simp [reportOf, hbeacon, hstart, setupStateForBeacon, RandomnessBeacon.settled,
            RandomnessBeacon.start]
  · rw [hmissing hfilled]
    simp [if_neg hfilled, reportOf, haggregate, hbeacon]

/-- While commitments or reveals are collected there is a beacon, all keys are in and
they add up to the aggregate key. -/
theorem collecting (hinv : SetupInvariant P setup)
    (h : setup.state = .rand_commit ∨ setup.state = .rand_reveal) :
    Filled setup.seatCount setup.keyShares ∧
      (∃ key, aggregatePublicKeys (setup.keys setup.keyShares) = .ok key ∧
        setup.aggregateKey = some key) ∧
      setup.beaconRequired = true ∧
      setup.state = setupStateForBeacon
        (beaconStateOf setup.seatCount setup.commitments setup.reveals) ∧
      setup.beacon = some (.settled P setup.gameId setup.round setup.seatCount
        setup.commitments setup.reveals) := by
  cases hinv.phase with
  | keys missing state => simp [state] at h
  | failed filled aggregate state => simp [state] at h
  | keyed filled key aggregate required state => simp [state] at h
  | beacon filled key aggregate required state aggregateKey beacon =>
      exact ⟨filled, ⟨key, aggregate, aggregateKey⟩, required, state, beacon⟩

/-- Settling other commitments and reveals changes the beacon and the state only. -/
theorem settled_of_collecting (hinv : SetupInvariant P setup)
    (h : setup.state = .rand_commit ∨ setup.state = .rand_reveal) (c r) :
    setup.settled P setup.keyShares c r = { setup with
      state := setupStateForBeacon (beaconStateOf setup.seatCount c r)
      beacon := some (.settled P setup.gameId setup.round setup.seatCount c r) } := by
  obtain ⟨hfilled, ⟨key, haggr, hkey⟩, hrequired, -, -⟩ := collecting hinv h
  unfold settled
  rw [if_pos hfilled]
  simp only [haggr, hrequired, if_true, hkey]

theorem state_committing (hinv : SetupInvariant P setup) (h : setup.state = .rand_commit) :
    beaconStateOf setup.seatCount setup.commitments setup.reveals = .committing ∧
      ¬ Filled setup.seatCount setup.commitments ∧ setup.reveals = fun _ => none := by
  obtain ⟨-, -, -, hstate, -⟩ := collecting hinv (.inl h)
  rw [h] at hstate
  have hmissing : ¬ Filled setup.seatCount setup.commitments := by
    intro hfilled
    unfold beaconStateOf at hstate
    rw [if_pos hfilled] at hstate
    split at hstate <;> cases hstate
  refine ⟨if_neg hmissing, hmissing, funext fun seat => ?_⟩
  cases hreveal : setup.reveals seat with
  | none => rfl
  | some secret => exact absurd (hinv.reveal hreveal).1 hmissing

theorem state_revealing (hinv : SetupInvariant P setup) (h : setup.state = .rand_reveal) :
    beaconStateOf setup.seatCount setup.commitments setup.reveals = .revealing ∧
      Filled setup.seatCount setup.commitments ∧ ¬ Filled setup.seatCount setup.reveals := by
  obtain ⟨-, -, -, hstate, -⟩ := collecting hinv (.inr h)
  rw [h] at hstate
  unfold beaconStateOf at hstate ⊢
  by_cases hcommitted : Filled setup.seatCount setup.commitments
  · by_cases hrevealed : Filled setup.seatCount setup.reveals
    · rw [if_pos hcommitted, if_pos hrevealed] at hstate
      cases hstate
    · rw [if_pos hcommitted, if_neg hrevealed]
      exact ⟨rfl, hcommitted, hrevealed⟩
  · rw [if_neg hcommitted] at hstate
    cases hstate

/-- A seat's first commitment, while the beacon is collecting them, is recorded. -/
theorem acceptCommitment_admitted (hinv : SetupInvariant P setup) (hseat : seat < setup.seatCount)
    {commitment : Hash256} (hnone : setup.commitments seat = none)
    (hadm : setup.Admits P seat (.commitment commitment)) :
    setup.classifyCommitment seat commitment
        = .ok (reportOf (setup.record P seat (.commitment commitment))) ∧
      setup.acceptCommitment seat commitment
        = .ok (reportOf (setup.record P seat (.commitment commitment)),
          setup.record P seat (.commitment commitment)) := by
  have hcollecting : setup.state = .rand_commit ∨ setup.state = .rand_reveal := .inl hadm
  obtain ⟨-, -, -, -, hbeacon⟩ := collecting hinv hcollecting
  obtain ⟨-, hmissing, hreveals⟩ := state_committing hinv hadm
  have hunrevealed : ¬ Filled setup.seatCount setup.reveals := by
    rw [hreveals]
    exact not_filled_none (by omega)
  obtain ⟨hclassify, haccept⟩ := RandomnessBeacon.settled_acceptCommitment P setup.gameId
    setup.round hseat commitment hnone hmissing hunrevealed
  have hstate : setup.state = .rand_commit := hadm
  unfold record
  dsimp only
  rw [settled_of_collecting hinv hcollecting]
  have hclassified : setup.classifyCommitment seat commitment
      = .ok (.accepted (setupStateForBeacon (beaconStateOf setup.seatCount
        (Function.update setup.commitments seat (some commitment)) setup.reveals))) := by
    unfold classifyCommitment
    rw [assertSeat_of_lt hseat, ok_bind, if_neg (by simp [hstate]), hbeacon]
    simp only [hclassify, ok_bind, BeaconIngestResult.state, mapBeaconResult, except_pure_eq]
  unfold acceptCommitment reportOf
  rw [hclassified, hbeacon, ok_bind]
  simp only [haccept, ok_bind, syncBeaconState, hstate]
  cases h : beaconStateOf setup.seatCount
    (Function.update setup.commitments seat (some commitment)) setup.reveals <;>
    simp [RandomnessBeacon.settled, setupStateForBeacon, mapBeaconResult, h]

/-- A seat's reveal of its commitment, after all commitments, is recorded. -/
theorem acceptReveal_admitted (hinv : SetupInvariant P setup) (hseat : seat < setup.seatCount)
    {secret : RandomSecret} (hnone : setup.reveals seat = none)
    (hadm : setup.Admits P seat (.reveal secret)) :
    setup.classifyReveal P seat secret
        = .ok (reportOf (setup.record P seat (.reveal secret))) ∧
      setup.acceptReveal P seat secret
        = .ok (reportOf (setup.record P seat (.reveal secret)),
          setup.record P seat (.reveal secret)) := by
  obtain ⟨hstate, hopens⟩ := hadm
  have hcollecting : setup.state = .rand_commit ∨ setup.state = .rand_reveal := .inr hstate
  obtain ⟨-, -, -, -, hbeacon⟩ := collecting hinv hcollecting
  obtain ⟨-, hcommitted, hunrevealed⟩ := state_revealing hinv hstate
  obtain ⟨hclassify, haccept⟩ := RandomnessBeacon.settled_acceptReveal P setup.gameId
    setup.round hseat hnone hcommitted hunrevealed hopens
  unfold record
  dsimp only
  rw [settled_of_collecting hinv hcollecting]
  have hclassified : setup.classifyReveal P seat secret
      = .ok (.accepted (setupStateForBeacon (beaconStateOf setup.seatCount setup.commitments
        (Function.update setup.reveals seat (some secret))))) := by
    unfold classifyReveal
    rw [assertSeat_of_lt hseat, ok_bind, if_neg (by simp [hstate]), hbeacon]
    simp only [hclassify, ok_bind, BeaconIngestResult.state, mapBeaconResult, except_pure_eq]
  have hnext : beaconStateOf setup.seatCount setup.commitments
      (Function.update setup.reveals seat (some secret)) ≠ .committing := by
    unfold beaconStateOf
    rw [if_pos hcommitted]
    split <;> simp
  unfold acceptReveal reportOf
  rw [hclassified, hbeacon, ok_bind]
  simp only [haccept, ok_bind, syncBeaconState, hstate]
  cases h : beaconStateOf setup.seatCount setup.commitments
      (Function.update setup.reveals seat (some secret)) with
  | committing => exact absurd h hnext
  | revealing => simp [RandomnessBeacon.settled, setupStateForBeacon, mapBeaconResult, h]
  | complete => simp [RandomnessBeacon.settled, setupStateForBeacon, mapBeaconResult, h]

/-- A first contribution that is admitted is recorded. -/
theorem accept_admitted (hinv : SetupInvariant P setup) (hseat : seat < setup.seatCount)
    {c : SetupContribution q G} (hnone : setup.recorded seat c = none)
    (hadm : setup.Admits P seat c) :
    setup.classify P seat c = .ok (reportOf (setup.record P seat c)) ∧
      setup.accept P seat c = .ok (reportOf (setup.record P seat c), setup.record P seat c) := by
  cases c with
  | keyShare share =>
      exact acceptKeyShare_admitted hinv hseat (Option.map_eq_none_iff.1 hnone) hadm
  | commitment commitment =>
      exact acceptCommitment_admitted hinv hseat (Option.map_eq_none_iff.1 hnone) hadm
  | reveal secret =>
      exact acceptReveal_admitted hinv hseat (Option.map_eq_none_iff.1 hnone) hadm

/-- A call that leaves the coordinator as it is. -/
def Answers (P : Primitives q G) (setup : SetupCoordinator q G) (seat : ℕ)
    (c : SetupContribution q G) (result : SetupIngestResult) : Prop :=
  setup.classify P seat c = .ok result ∧ setup.accept P seat c = .ok (result, setup)

theorem answers_keyShare {share : GameKeyShare q G} {result : SetupIngestResult}
    (h : setup.classifyKeyShare P seat share = .ok result)
    (hkeep : (∃ state, result = .duplicate state) ∨ ∃ state reason, result = .rejected state reason) :
    Answers P setup seat (.keyShare share) result := by
  refine ⟨h, ?_⟩
  unfold accept acceptKeyShare
  dsimp only
  rw [h, ok_bind]
  obtain ⟨state, rfl⟩ | ⟨state, reason, rfl⟩ := hkeep <;> rfl

theorem answers_commitment {commitment : Hash256} {result : SetupIngestResult}
    (h : setup.classifyCommitment seat commitment = .ok result)
    (hkeep : (∃ state, result = .duplicate state) ∨ ∃ state reason, result = .rejected state reason) :
    Answers P setup seat (.commitment commitment) result := by
  refine ⟨h, ?_⟩
  unfold accept acceptCommitment
  dsimp only
  rw [h, ok_bind]
  obtain ⟨state, rfl⟩ | ⟨state, reason, rfl⟩ := hkeep <;> rfl

theorem answers_reveal {secret : RandomSecret} {result : SetupIngestResult}
    (h : setup.classifyReveal P seat secret = .ok result)
    (hkeep : (∃ state, result = .duplicate state) ∨ ∃ state reason, result = .rejected state reason) :
    Answers P setup seat (.reveal secret) result := by
  refine ⟨h, ?_⟩
  unfold accept acceptReveal
  dsimp only
  rw [h, ok_bind]
  obtain ⟨state, rfl⟩ | ⟨state, reason, rfl⟩ := hkeep <;> rfl

/-- A coordinator with a beacon has not failed and reports the beacon's state. -/
theorem beacon_some (hinv : SetupInvariant P setup) {beacon : RandomnessBeacon}
    (h : setup.beacon = some beacon) :
    setup.state ≠ .failed ∧ setup.state = setupStateForBeacon beacon.state ∧
      beacon.seatCount = setup.seatCount ∧
      beacon = .settled P setup.gameId setup.round setup.seatCount setup.commitments
        setup.reveals := by
  cases hinv.phase with
  | keys missing state aggregateKey beacon => simp [h] at beacon
  | failed filled aggregate state aggregateKey beacon => simp [h] at beacon
  | keyed filled key aggregate required state aggregateKey beacon => simp [h] at beacon
  | beacon filled key aggregate required state aggregateKey hbeacon =>
      rw [h] at hbeacon
      obtain rfl := Option.some.inj hbeacon
      refine ⟨?_, state, rfl, rfl⟩
      rw [state]
      cases beaconStateOf setup.seatCount setup.commitments setup.reveals <;>
        simp [setupStateForBeacon]

/-- The same contribution again is a duplicate, another one is refused. -/
theorem accept_recorded (hinv : SetupInvariant P setup) (hseat : seat < setup.seatCount)
    {c x : SetupContribution q G} (hsome : setup.recorded seat c = some x) :
    (c = x → Answers P setup seat c (.duplicate setup.state)) ∧
      (c ≠ x → ∃ reason, Answers P setup seat c (.rejected setup.state reason)) := by
  cases c with
  | keyShare share =>
      obtain ⟨existing, hexisting, rfl⟩ := Option.map_eq_some_iff.1 hsome
      have hclassify : setup.classifyKeyShare P seat share = if existing = share then
          .ok (.duplicate setup.state) else .ok (.rejected setup.state .conflicting_key_share) := by
        unfold classifyKeyShare
        rw [assertSeat_of_lt hseat, ok_bind, hexisting]
        rfl
      constructor
      · intro h
        cases h
        rw [if_pos rfl] at hclassify
        exact answers_keyShare hclassify (.inl ⟨_, rfl⟩)
      · intro h
        rw [if_neg fun heq => h (by rw [heq])] at hclassify
        exact ⟨_, answers_keyShare hclassify (.inr ⟨_, _, rfl⟩)⟩
  | commitment commitment =>
      obtain ⟨existing, hexisting, rfl⟩ := Option.map_eq_some_iff.1 hsome
      obtain ⟨beacon, hbeacon, hvalue⟩ := Option.bind_eq_some_iff.1 hexisting
      obtain ⟨hnotFailed, hstate, hcount, -⟩ := beacon_some hinv hbeacon
      have hclassify : setup.classifyCommitment seat commitment = if existing = commitment then
          .ok (.duplicate setup.state)
          else .ok (.rejected setup.state .conflicting_commitment) := by
        unfold classifyCommitment RandomnessBeacon.classifyCommitment
        rw [assertSeat_of_lt hseat, ok_bind, if_neg hnotFailed, hbeacon]
        simp only [hcount, assertSeat_of_lt hseat, ok_bind, hvalue, hstate]
        split <;> rfl
      constructor
      · intro h
        cases h
        rw [if_pos rfl] at hclassify
        exact answers_commitment hclassify (.inl ⟨_, rfl⟩)
      · intro h
        rw [if_neg fun heq => h (by rw [heq])] at hclassify
        exact ⟨_, answers_commitment hclassify (.inr ⟨_, _, rfl⟩)⟩
  | reveal secret =>
      obtain ⟨existing, hexisting, rfl⟩ := Option.map_eq_some_iff.1 hsome
      obtain ⟨beacon, hbeacon, hvalue⟩ := Option.bind_eq_some_iff.1 hexisting
      obtain ⟨hnotFailed, hstate, hcount, -⟩ := beacon_some hinv hbeacon
      have hclassify : setup.classifyReveal P seat secret = if existing = secret then
          .ok (.duplicate setup.state)
          else .ok (.rejected setup.state .conflicting_reveal) := by
        unfold classifyReveal RandomnessBeacon.classifyReveal
        rw [assertSeat_of_lt hseat, ok_bind, if_neg hnotFailed, hbeacon]
        simp only [hcount, assertSeat_of_lt hseat, ok_bind, hvalue, hstate]
        split <;> rfl
      constructor
      · intro h
        cases h
        rw [if_pos rfl] at hclassify
        exact answers_reveal hclassify (.inl ⟨_, rfl⟩)
      · intro h
        rw [if_neg fun heq => h (by rw [heq])] at hclassify
        exact ⟨_, answers_reveal hclassify (.inr ⟨_, _, rfl⟩)⟩

/-- A first contribution that is not admitted is refused. -/
theorem accept_refused (hinv : SetupInvariant P setup) (hseat : seat < setup.seatCount)
    {c : SetupContribution q G} (hnone : setup.recorded seat c = none)
    (hadm : ¬ setup.Admits P seat c) :
    ∃ reason, Answers P setup seat c (.rejected setup.state reason) := by
  cases c with
  | keyShare share =>
      have hfree := Option.map_eq_none_iff.1 hnone
      have hclassify : ∃ reason, setup.classifyKeyShare P seat share
          = .ok (.rejected setup.state reason) := by
        unfold classifyKeyShare
        rw [assertSeat_of_lt hseat, ok_bind, hfree]
        by_cases hfailed : setup.state = .failed
        · exact ⟨.setup_failed, by simp [hfailed]⟩
        · refine ⟨.invalid_key_proof, ?_⟩
          have hbad : setup.state ≠ .keys ∨
              P.verifyGameKeyShare setup.proofContext share = false := by
            by_cases hkeys : setup.state = .keys
            · right
              simpa using fun h => hadm ⟨hkeys, h⟩
            · exact .inl hkeys
          simp only [if_neg hfailed, if_pos hbad, except_pure_eq]
      obtain ⟨reason, hreason⟩ := hclassify
      exact ⟨reason, answers_keyShare hreason (.inr ⟨_, _, rfl⟩)⟩
  | commitment commitment =>
      have hclassify : ∃ reason, setup.classifyCommitment seat commitment
          = .ok (.rejected setup.state reason) := by
        unfold classifyCommitment
        rw [assertSeat_of_lt hseat, ok_bind]
        by_cases hfailed : setup.state = .failed
        · exact ⟨.setup_failed, by simp [hfailed]⟩
        · rw [if_neg hfailed]
          cases hbeacon : setup.beacon with
          | none => exact ⟨_, rfl⟩
          | some beacon =>
              obtain ⟨-, hstate, hcount, -⟩ := beacon_some hinv hbeacon
              have hfree : beacon.commitments seat = none := by
                have := Option.map_eq_none_iff.1 hnone
                simpa [commitments, hbeacon] using this
              have hlate : beacon.state ≠ .committing := by
                intro h
                exact hadm (by
                  show setup.state = .rand_commit
                  rw [hstate, h]
                  rfl)
              refine ⟨.unexpected_commit, ?_⟩
              unfold RandomnessBeacon.classifyCommitment
              simp [hcount, assertSeat_of_lt hseat, hfree, hlate, mapBeaconResult,
                BeaconIngestResult.state, hstate]
      obtain ⟨reason, hreason⟩ := hclassify
      exact ⟨reason, answers_commitment hreason (.inr ⟨_, _, rfl⟩)⟩
  | reveal secret =>
      have hclassify : ∃ reason, setup.classifyReveal P seat secret
          = .ok (.rejected setup.state reason) := by
        unfold classifyReveal
        rw [assertSeat_of_lt hseat, ok_bind]
        by_cases hfailed : setup.state = .failed
        · exact ⟨.setup_failed, by simp [hfailed]⟩
        · rw [if_neg hfailed]
          cases hbeacon : setup.beacon with
          | none => exact ⟨_, rfl⟩
          | some beacon =>
              obtain ⟨-, hstate, hcount, hsettled⟩ := beacon_some hinv hbeacon
              have hfree : beacon.reveals seat = none := by
                have := Option.map_eq_none_iff.1 hnone
                simpa [reveals, hbeacon] using this
              unfold RandomnessBeacon.classifyReveal
              by_cases hearly : beacon.state = .revealing
              · have hmismatch : beacon.commitments seat
                    ≠ some (P.beaconCommitment beacon.gameId beacon.round seat secret) := by
                  intro h
                  refine hadm ⟨by rw [hstate, hearly]; rfl, ?_⟩
                  rw [hsettled] at h
                  exact h
                refine ⟨.commitment_mismatch, ?_⟩
                simp [hcount, assertSeat_of_lt hseat, hfree, hearly, hmismatch, mapBeaconResult,
                  BeaconIngestResult.state, hstate]
              · refine ⟨.unexpected_reveal, ?_⟩
                simp [hcount, assertSeat_of_lt hseat, hfree, hearly, mapBeaconResult,
                  BeaconIngestResult.state, hstate]
      obtain ⟨reason, hreason⟩ := hclassify
      exact ⟨reason, answers_reveal hreason (.inr ⟨_, _, rfl⟩)⟩

/-! ## What is recorded -/

/-- While keys are missing nothing is committed or revealed. -/
theorem maps_of_keys (hinv : SetupInvariant P setup) (h : setup.state = .keys) :
    ¬ Filled setup.seatCount setup.keyShares ∧ setup.commitments = (fun _ => none) ∧
      setup.reveals = fun _ => none := by
  cases hinv.phase with
  | keys missing state aggregateKey beacon =>
      refine ⟨missing, ?_, ?_⟩ <;> funext seat <;> simp [commitments, reveals, beacon]
  | failed filled aggregate state => simp [state] at h
  | keyed filled key aggregate required state => simp [state] at h
  | beacon filled key aggregate required state =>
      rw [state] at h
      cases hstate : beaconStateOf setup.seatCount setup.commitments setup.reveals <;>
        simp [hstate, setupStateForBeacon] at h

/-- Recording a contribution updates the value of one seat and keeps the rest. -/
theorem record_maps (hinv : SetupInvariant P setup) {c : SetupContribution q G}
    (hadm : setup.Admits P seat c) :
    (setup.record P seat c).keyShares = (match c with
      | .keyShare share => Function.update setup.keyShares seat (some share)
      | _ => setup.keyShares) ∧
    (setup.record P seat c).commitments = (match c with
      | .commitment commitment => Function.update setup.commitments seat (some commitment)
      | _ => setup.commitments) ∧
    (setup.record P seat c).reveals = (match c with
      | .reveal secret => Function.update setup.reveals seat (some secret)
      | _ => setup.reveals) := by
  cases c with
  | keyShare share =>
      obtain ⟨-, hcommitments, hreveals⟩ := maps_of_keys hinv hadm.1
      obtain ⟨hc, hr⟩ := settled_maps (P := P) setup
        (Function.update setup.keyShares seat (some share)) setup.commitments setup.reveals
        fun _ => ⟨hcommitments, hreveals⟩
      exact ⟨settled_keyShares .., hc, hr⟩
  | commitment commitment =>
      have hcollecting := settled_of_collecting hinv (.inl hadm)
        (Function.update setup.commitments seat (some commitment)) setup.reveals
      obtain ⟨hc, hr⟩ := settled_maps (P := P) setup setup.keyShares
        (Function.update setup.commitments seat (some commitment)) setup.reveals
        fun hnone => by simp [hcollecting] at hnone
      exact ⟨settled_keyShares .., hc, hr⟩
  | reveal secret =>
      have hcollecting := settled_of_collecting hinv (.inr hadm.1) setup.commitments
        (Function.update setup.reveals seat (some secret))
      obtain ⟨hc, hr⟩ := settled_maps (P := P) setup setup.keyShares setup.commitments
        (Function.update setup.reveals seat (some secret))
        fun hnone => by simp [hcollecting] at hnone
      exact ⟨settled_keyShares .., hc, hr⟩

/-- After recording, the seat's contribution of that kind is the new one. -/
theorem recorded_record (hinv : SetupInvariant P setup) {c : SetupContribution q G}
    (hadm : setup.Admits P seat c) (other : ℕ) (d : SetupContribution q G) :
    (setup.record P seat c).recorded other d
      = if other = seat ∧ d.rank = c.rank then some c else setup.recorded other d := by
  obtain ⟨hk, hc, hr⟩ := record_maps hinv hadm
  by_cases hother : other = seat
  · subst hother
    cases c <;> cases d <;> simp_all [recorded, SetupContribution.rank]
  · cases c <;> cases d <;> simp_all [recorded, SetupContribution.rank]

/-- Recording keeps the invariant. -/
theorem record_invariant (hinv : SetupInvariant P setup) (hseat : seat < setup.seatCount)
    {c : SetupContribution q G} (hadm : setup.Admits P seat c) :
    SetupInvariant P (setup.record P seat c) := by
  have hseats : 3 ≤ setup.seatCount ∧ setup.seatCount ≤ 8 := ⟨hinv.three_le, hinv.le_eight⟩
  cases c with
  | keyShare share =>
      obtain ⟨-, hcommitments, hreveals⟩ := maps_of_keys hinv hadm.1
      refine .of_settled hseats (fun _ => ⟨hcommitments, hreveals⟩) ?_ hinv.commitment ?_
      · intro other otherShare h
        by_cases hother : other = seat
        · subst hother
          obtain rfl : share = otherShare := by simpa using h
          exact ⟨hseat, hadm.2⟩
        · rw [Function.update_of_ne hother] at h
          exact hinv.keyShare h
      · intro other secret h
        rw [hreveals] at h
        cases h
  | commitment commitment =>
      obtain ⟨-, -, hreveals⟩ := state_committing hinv hadm
      refine .of_settled hseats (fun hnone => ?_) hinv.keyShare ?_ ?_
      · rw [settled_of_collecting hinv (.inl hadm)] at hnone
        cases hnone
      · intro other value h
        by_cases hother : other = seat
        · rw [hother]
          exact hseat
        · rw [Function.update_of_ne hother] at h
          exact hinv.commitment h
      · intro other secret h
        rw [hreveals] at h
        cases h
  | reveal secret =>
      obtain ⟨-, hcommitted, -⟩ := state_revealing hinv hadm.1
      refine .of_settled hseats (fun hnone => ?_) hinv.keyShare hinv.commitment ?_
      · rw [settled_of_collecting hinv (.inr hadm.1)] at hnone
        cases hnone
      · intro other value h
        by_cases hother : other = seat
        · subst hother
          obtain rfl : secret = value := by simpa using h
          exact ⟨hcommitted, hadm.2⟩
        · rw [Function.update_of_ne hother] at h
          exact hinv.reveal h

/-- What a call does: it repeats, refuses or records. -/
theorem accept_cases (hinv : SetupInvariant P setup) (hseat : seat < setup.seatCount)
    (c : SetupContribution q G) :
    (setup.recorded seat c = some c ∧ Answers P setup seat c (.duplicate setup.state)) ∨
    (setup.recorded seat c ≠ some c ∧
      (setup.recorded seat c = none → ¬ setup.Admits P seat c) ∧
      ∃ reason, Answers P setup seat c (.rejected setup.state reason)) ∨
    (setup.recorded seat c = none ∧ setup.Admits P seat c ∧
      setup.classify P seat c = .ok (reportOf (setup.record P seat c)) ∧
      setup.accept P seat c = .ok (reportOf (setup.record P seat c), setup.record P seat c)) := by
  cases hrecorded : setup.recorded seat c with
  | none =>
      by_cases hadm : setup.Admits P seat c
      · obtain ⟨hclassify, haccept⟩ := accept_admitted hinv hseat hrecorded hadm
        exact .inr (.inr ⟨rfl, hadm, hclassify, haccept⟩)
      · exact .inr (.inl ⟨by simp, fun _ => hadm, accept_refused hinv hseat hrecorded hadm⟩)
  | some x =>
      obtain ⟨hsame, hother⟩ := accept_recorded hinv hseat hrecorded
      by_cases h : c = x
      · exact .inl ⟨by rw [h], hsame h⟩
      · exact .inr (.inl ⟨fun hx => h (Option.some.inj hx).symm, by simp, hother h⟩)

end SetupCoordinator

end

end Tablefolk
