import Tablefolk.Engine.SetupRuns

/-!
# Setup recovery

`recoverSetup` rebuilds a coordinator from a bag of envelopes: it sorts them by phase,
seat and sequence and replays them.  The live coordinator saw them in another order and
refused some.  Because a settled coordinator is determined by what it has recorded, it
is enough that the replay records the same contributions.

* `SetupEnvelopeCoordinator.process_eq`: an envelope is refused, or it is a contribution
  of a seat that the coordinator is asked to accept;
* `LiveHistory`: what the live coordinator has recorded are the contributions of the
  envelopes it kept, each phase of a sender after the one before;
* `Replaying`: what the replay has recorded so far, and what the rest will add;
* `setup_recovery_agrees`: recovery rebuilds the live coordinator.
-/

namespace Tablefolk

section

variable {q : ℕ} {G : Type} [AddCommGroup G] [Module (ZMod q) G] [DecidableEq G]
  {P : Primitives q G}

/-! ## The contribution an envelope carries -/

variable (P) in
/-- The contribution in the body of a setup envelope. -/
def setupBody (received : SignedEnvelope) : Option (SetupContribution q G) :=
  match received.type with
  | .KEY_SHARE =>
      if received.phase = "setup.keys" then
        (decodeGameKeyShareBody P received.body).toOption.map .keyShare
      else none
  | .RAND_COMMIT =>
      if received.phase = "setup.rand" then
        (decodeRandCommitBody received.body).toOption.map .commitment
      else none
  | .RAND_REVEAL =>
      if received.phase = "setup.rand" then
        (decodeRandRevealBody received.body).toOption.map .reveal
      else none
  | _ => none

/-- The seat and the contribution of an envelope of this setup. -/
def SetupEnvelopeCoordinator.contribution (coordinator : SetupEnvelopeCoordinator P)
    (received : SignedEnvelope) : Option (ℕ × SetupContribution q G) :=
  if received.game = coordinator.gameId ∧ received.round = coordinator.round then
    (coordinator.roster.seatOf received.from_).bind fun seat =>
      (setupBody P received).map fun c => (seat, c)
  else none

omit [DecidableEq G] in
theorem rank_setupBody {received : SignedEnvelope} {c : SetupContribution q G}
    (h : setupBody P received = some c) : setupTypeRank received.type = some c.rank := by
  cases htype : received.type
  all_goals simp only [setupBody, htype, reduceCtorEq] at h
  -- only the three kinds of contribution are left
  all_goals
    split at h
    · obtain ⟨value, -, rfl⟩ := Option.map_eq_some_iff.1 h
      rfl
    · cases h

/-- A result that refuses the envelope. -/
def SetupEnvelopeResult.refused : SetupEnvelopeResult → Bool
  | .rejected .. => true
  | _ => false

namespace SetupEnvelopeCoordinator

variable {coordinator : SetupEnvelopeCoordinator P}

/-- The answer to an envelope with this contribution. -/
def offer (coordinator : SetupEnvelopeCoordinator P) (seat : ℕ) (c : SetupContribution q G) :
    Except SetupError (SetupEnvelopeResult × SetupEnvelopeCoordinator P) :=
  (coordinator.setup.accept P seat c).map fun (result, setup) =>
    (mapSetupResult seat result, { coordinator with setup := setup })

theorem withBody_eq {β : Type} (seat : ℕ) (body : Except ProtocolSchemaError β)
    (make : β → SetupContribution q G) :
    coordinator.withBody seat body (fun b => coordinator.setup.accept P seat (make b))
      = match body.toOption.map make with
        | none => .ok (.rejected .malformed_body coordinator.state (some seat), coordinator)
        | some c => coordinator.offer seat c := by
  unfold withBody offer
  cases body with
  | error e => rfl
  | ok b =>
      dsimp only [Except.toOption, Option.map_some]
      cases coordinator.setup.accept P seat (make b) <;> rfl

/-- The answer to an envelope: without a contribution it is refused, with one the setup
coordinator answers. -/
def AnswersTo (coordinator : SetupEnvelopeCoordinator P)
    (contribution : Option (ℕ × SetupContribution q G))
    (answer : Except SetupError (SetupEnvelopeResult × SetupEnvelopeCoordinator P)) : Prop :=
  match contribution with
  | none => ∃ reason seat, answer = .ok (.rejected reason coordinator.state seat, coordinator)
  | some (seat, c) => answer = coordinator.offer seat c

/-- One type of envelope: the phase is checked, then the body. -/
theorem typed_eq {β : Type} (seat : ℕ) (body : Except ProtocolSchemaError β)
    (make : β → SetupContribution q G) (phase expected : String) :
    coordinator.AnswersTo
      ((if phase = expected then body.toOption.map make else none).map fun c => (seat, c))
      (if phase ≠ expected then
          .ok (.rejected .wrong_phase coordinator.state (some seat), coordinator)
        else coordinator.withBody seat body fun b => coordinator.setup.accept P seat (make b)) := by
  unfold AnswersTo
  by_cases hphase : phase = expected
  · simp only [hphase, if_true, ne_eq, not_true_eq_false, if_false, withBody_eq]
    cases body.toOption.map make with
    | none => exact ⟨_, _, rfl⟩
    | some c => rfl
  · simp [hphase]

/-- An envelope that carries no contribution is refused; another one is offered to the
setup coordinator. -/
theorem process_eq (received : SignedEnvelope) :
    coordinator.AnswersTo (coordinator.contribution received) (coordinator.process received) := by
  unfold process contribution
  by_cases hgame : received.game = coordinator.gameId
  · cases hseat : coordinator.roster.seatOf received.from_ with
    | none =>
        rw [Option.bind_none, ite_self]
        exact ⟨.unknown_sender, none, by simp [hgame]⟩
    | some seat =>
        by_cases hround : received.round = coordinator.round
        · unfold setupBody
          simp only [hgame, hround, ne_eq, not_true_eq_false, if_false, and_self, if_true,
            Option.bind_some]
          cases htype : received.type
          case KEY_SHARE =>
            exact typed_eq seat (decodeGameKeyShareBody P received.body) .keyShare
              received.phase "setup.keys"
          case RAND_COMMIT =>
            exact typed_eq seat (decodeRandCommitBody received.body) .commitment
              received.phase "setup.rand"
          case RAND_REVEAL =>
            exact typed_eq seat (decodeRandRevealBody received.body) .reveal
              received.phase "setup.rand"
          all_goals exact ⟨_, _, rfl⟩
        · rw [if_neg fun h => hround h.2]
          exact ⟨.wrong_round, some seat, by simp [hgame, hround]⟩
  · rw [if_neg fun h => hgame h.1]
    exact ⟨.wrong_game, none, by simp [hgame]⟩

/-! ## The live coordinator -/

/-- Offer envelopes one after the other: the coordinator afterwards, and the envelopes
that were not refused. -/
def ingestAll (coordinator : SetupEnvelopeCoordinator P) :
    List SignedEnvelope → Except SetupError (SetupEnvelopeCoordinator P × List SignedEnvelope)
  | [] => .ok (coordinator, [])
  | received :: rest => do
      let (result, coordinator) ← coordinator.process received
      let (last, kept) ← coordinator.ingestAll rest
      return (last, if result.refused then kept else received :: kept)

/-- A coordinator with its setup invariant: its seats are those of the roster. -/
structure Sound (coordinator : SetupEnvelopeCoordinator P) : Prop where
  setup : SetupInvariant P coordinator.setup
  seatCount : coordinator.setup.seatCount = coordinator.roster.size

/-- Two coordinators of one setup. -/
structure SameScope (a b : SetupEnvelopeCoordinator P) : Prop where
  gameId : a.gameId = b.gameId
  round : a.round = b.round
  roster : a.roster = b.roster
  beaconRequired : a.beaconRequired = b.beaconRequired
  setupGameId : a.setup.gameId = b.setup.gameId
  setupRound : a.setup.round = b.setup.round
  setupBeacon : a.setup.beaconRequired = b.setup.beaconRequired

omit [DecidableEq G] in
theorem SameScope.refl (a : SetupEnvelopeCoordinator P) : SameScope a a :=
  ⟨rfl, rfl, rfl, rfl, rfl, rfl, rfl⟩

omit [DecidableEq G] in
theorem SameScope.trans {a b c : SetupEnvelopeCoordinator P} (h : SameScope a b)
    (h' : SameScope b c) : SameScope a c :=
  ⟨h.gameId.trans h'.gameId, h.round.trans h'.round, h.roster.trans h'.roster,
    h.beaconRequired.trans h'.beaconRequired, h.setupGameId.trans h'.setupGameId,
    h.setupRound.trans h'.setupRound, h.setupBeacon.trans h'.setupBeacon⟩

omit [DecidableEq G] in
theorem SameScope.symm {a b : SetupEnvelopeCoordinator P} (h : SameScope a b) : SameScope b a :=
  ⟨h.gameId.symm, h.round.symm, h.roster.symm, h.beaconRequired.symm, h.setupGameId.symm,
    h.setupRound.symm, h.setupBeacon.symm⟩

omit [DecidableEq G] in
theorem SameScope.contribution {a b : SetupEnvelopeCoordinator P} (h : SameScope a b)
    (received : SignedEnvelope) : a.contribution received = b.contribution received := by
  unfold SetupEnvelopeCoordinator.contribution
  rw [h.gameId, h.round, h.roster]

omit [DecidableEq G] in
theorem contribution_eq_some {received : SignedEnvelope} {seat : ℕ} {c : SetupContribution q G} :
    coordinator.contribution received = some (seat, c) ↔
      (received.game = coordinator.gameId ∧ received.round = coordinator.round) ∧
        coordinator.roster.seatOf received.from_ = some seat ∧ setupBody P received = some c := by
  unfold contribution
  split
  · rename_i hplace
    simp only [hplace, and_self, true_and, Option.bind_eq_some_iff, Option.map_eq_some_iff,
      Prod.mk.injEq]
    constructor
    · rintro ⟨other, hseat, body, hbody, rfl, rfl⟩
      exact ⟨hseat, hbody⟩
    · rintro ⟨hseat, hbody⟩
      exact ⟨seat, hseat, c, hbody, rfl, rfl⟩
  · rename_i hplace
    simp [hplace]

theorem seat_lt_of_contribution (hsound : coordinator.Sound) {received : SignedEnvelope} {seat : ℕ}
    {c : SetupContribution q G} (h : coordinator.contribution received = some (seat, c)) :
    seat < coordinator.setup.seatCount := by
  rw [hsound.seatCount]
  exact Roster.lt_size_of_seatOf (contribution_eq_some.1 h).2.1

/-- What one envelope does: it is refused, it repeats what was recorded, or it is
recorded. -/
theorem process_cases (hsound : coordinator.Sound) (received : SignedEnvelope) :
    (∃ result, coordinator.process received = .ok (result, coordinator) ∧ result.refused = true ∧
      ∀ seat c, coordinator.contribution received = some (seat, c) →
        coordinator.setup.recorded seat c ≠ some c ∧
        (coordinator.setup.recorded seat c = none → ¬ coordinator.setup.Admits P seat c)) ∨
    (∃ result seat c, coordinator.process received = .ok (result, coordinator) ∧
      result.refused = false ∧ coordinator.contribution received = some (seat, c) ∧
      coordinator.setup.recorded seat c = some c) ∨
    (∃ result seat c, coordinator.process received
        = .ok (result, { coordinator with setup := coordinator.setup.record P seat c }) ∧
      result.refused = false ∧ coordinator.contribution received = some (seat, c) ∧
      coordinator.setup.recorded seat c = none ∧ coordinator.setup.Admits P seat c) := by
  have hprocess : coordinator.AnswersTo _ _ := process_eq received
  cases hcontribution : coordinator.contribution received with
  | none =>
      rw [hcontribution] at hprocess
      obtain ⟨reason, seat, hrejected⟩ := hprocess
      exact .inl ⟨_, hrejected, rfl, fun seat c h => by cases h⟩
  | some pair =>
      obtain ⟨seat, c⟩ := pair
      rw [hcontribution] at hprocess
      have hoffer : coordinator.process received = coordinator.offer seat c := hprocess
      have hseat := seat_lt_of_contribution hsound hcontribution
      unfold offer at hoffer
      rcases SetupCoordinator.accept_cases hsound.setup hseat c with
        ⟨hrecorded, -, haccept⟩ | ⟨hother, hadm, reason, -, haccept⟩ |
          ⟨hnone, hadm, -, haccept⟩
      · rw [haccept] at hoffer
        exact .inr (.inl ⟨_, seat, c, hoffer, rfl, rfl, hrecorded⟩)
      · rw [haccept] at hoffer
        refine .inl ⟨_, hoffer, rfl, fun otherSeat d h => ?_⟩
        cases h
        exact ⟨hother, hadm⟩
      · rw [haccept] at hoffer
        refine .inr (.inr ⟨_, seat, c, hoffer, ?_, rfl, hnone, hadm⟩)
        unfold reportOf
        split <;> rfl

theorem record_sound (hsound : coordinator.Sound) {seat : ℕ} {c : SetupContribution q G}
    (hseat : seat < coordinator.setup.seatCount) (hadm : coordinator.setup.Admits P seat c) :
    Sound { coordinator with setup := coordinator.setup.record P seat c } :=
  ⟨SetupCoordinator.record_invariant hsound.setup hseat hadm,
    (SetupCoordinator.record_seatCount c).trans hsound.seatCount⟩

theorem record_scope (seat : ℕ) (c : SetupContribution q G) :
    SameScope coordinator { coordinator with setup := coordinator.setup.record P seat c } := by
  refine ⟨rfl, rfl, rfl, rfl, ?_, ?_, (SetupCoordinator.record_beaconRequired c).symm⟩
  · cases c <;> exact (SetupCoordinator.settled_gameId ..).symm
  · cases c <;> exact (SetupCoordinator.settled_round ..).symm

/-- The phases before a contribution that was recorded or is admitted are complete. -/
theorem earlier_recorded (hsound : coordinator.Sound) {seat : ℕ}
    (hseat : seat < coordinator.setup.seatCount) {c : SetupContribution q G}
    (h : coordinator.setup.recorded seat c = some c ∨ coordinator.setup.Admits P seat c) :
    ∀ rank < c.rank, ∃ d : SetupContribution q G, d.rank = rank ∧
      coordinator.setup.recorded seat d = some d := by
  have hkeys (hfilled : Filled coordinator.setup.seatCount coordinator.setup.keyShares) :
      ∃ d : SetupContribution q G, d.rank = 0 ∧ coordinator.setup.recorded seat d = some d := by
    obtain ⟨share, hshare⟩ := Option.isSome_iff_exists.1 (hfilled seat hseat)
    exact ⟨.keyShare share, rfl, by simp [SetupCoordinator.recorded, hshare]⟩
  have hcommitments
      (hfilled : Filled coordinator.setup.seatCount coordinator.setup.commitments) :
      ∃ d : SetupContribution q G, d.rank = 1 ∧ coordinator.setup.recorded seat d = some d := by
    obtain ⟨commitment, hcommitment⟩ := Option.isSome_iff_exists.1 (hfilled seat hseat)
    exact ⟨.commitment commitment, rfl, by simp [SetupCoordinator.recorded, hcommitment]⟩
  have hbeacon {beacon : RandomnessBeacon} (hsome : coordinator.setup.beacon = some beacon) :
      Filled coordinator.setup.seatCount coordinator.setup.keyShares := by
    cases hsound.setup.phase with
    | keys missing state aggregateKey beacon => simp [hsome] at beacon
    | failed filled => exact filled
    | keyed filled => exact filled
    | beacon filled => exact filled
  cases c with
  | keyShare share =>
      intro rank hrank
      cases hrank
  | commitment commitment =>
      intro rank hrank
      obtain rfl : rank = 0 := by
        have : rank < 1 := hrank
        omega
      rcases h with hrecorded | hadm
      · obtain ⟨value, hvalue, -⟩ := Option.map_eq_some_iff.1 hrecorded
        obtain ⟨beacon, hsome, -⟩ := Option.bind_eq_some_iff.1 hvalue
        exact hkeys (hbeacon hsome)
      · exact hkeys (SetupCoordinator.collecting hsound.setup (.inl hadm)).1
  | reveal secret =>
      intro rank hrank
      have hfilled : Filled coordinator.setup.seatCount coordinator.setup.keyShares ∧
          Filled coordinator.setup.seatCount coordinator.setup.commitments := by
        rcases h with hrecorded | hadm
        · obtain ⟨value, hvalue, -⟩ := Option.map_eq_some_iff.1 hrecorded
          obtain ⟨beacon, hsome, -⟩ := Option.bind_eq_some_iff.1 hvalue
          exact ⟨hbeacon hsome, (hsound.setup.reveal hvalue).1⟩
        · exact ⟨(SetupCoordinator.collecting hsound.setup (.inr hadm.1)).1,
            (SetupCoordinator.state_revealing hsound.setup hadm.1).2.1⟩
      have hrank' : rank < 2 := hrank
      obtain rfl | rfl : rank = 0 ∨ rank = 1 := by omega
      · exact hkeys hfilled.1
      · exact hcommitments hfilled.2

/-- A sender's envelopes are offered in the order of their sequence numbers. -/
def Later (a b : SignedEnvelope) : Prop := a.from_ = b.from_ → a.seq < b.seq

omit [DecidableEq G] in
theorem from_eq_of_contribution {a b : SignedEnvelope} {seat : ℕ} {c d : SetupContribution q G}
    (ha : coordinator.contribution a = some (seat, c))
    (hb : coordinator.contribution b = some (seat, d)) : a.from_ = b.from_ :=
  Roster.seatOf_inj (contribution_eq_some.1 ha).2.1 (contribution_eq_some.1 hb).2.1

/-- What the live coordinator recorded are the contributions of the envelopes it kept. -/
structure LiveHistory (history : List SignedEnvelope) (coordinator : SetupEnvelopeCoordinator P) :
    Prop where
  recorded : ∀ received ∈ history, ∃ seat c,
    coordinator.contribution received = some (seat, c) ∧
      coordinator.setup.recorded seat c = some c
  kept : ∀ seat c, coordinator.setup.recorded seat c = some c →
    ∃ received ∈ history, coordinator.contribution received = some (seat, c)
  ordered : ∀ received ∈ history, ∀ seat c,
    coordinator.contribution received = some (seat, c) → ∀ rank < c.rank,
      ∃ earlier ∈ history, ∃ d : SetupContribution q G,
        coordinator.contribution earlier = some (seat, d) ∧ d.rank = rank ∧
          earlier.seq < received.seq

/-- The envelopes before a kept one, in the phases before its own. -/
theorem LiveHistory.earlier {history : List SignedEnvelope} (h : LiveHistory history coordinator)
    (hsound : coordinator.Sound) {received : SignedEnvelope} {seat : ℕ} {c : SetupContribution q G}
    (hlater : ∀ earlier ∈ history, Later earlier received)
    (hcontribution : coordinator.contribution received = some (seat, c))
    (hready : coordinator.setup.recorded seat c = some c ∨ coordinator.setup.Admits P seat c) :
    ∀ rank < c.rank, ∃ earlier ∈ history, ∃ d : SetupContribution q G,
      coordinator.contribution earlier = some (seat, d) ∧ d.rank = rank ∧
        earlier.seq < received.seq := by
  intro rank hrank
  obtain ⟨d, hd, hrecorded⟩ := earlier_recorded hsound
    (seat_lt_of_contribution hsound hcontribution) hready rank hrank
  obtain ⟨earlier, hmem, hearlier⟩ := h.kept seat d hrecorded
  exact ⟨earlier, hmem, d, hearlier, hd,
    hlater earlier hmem (from_eq_of_contribution hearlier hcontribution)⟩

/-- A repeated contribution extends the history. -/
theorem LiveHistory.repeated {history : List SignedEnvelope} (h : LiveHistory history coordinator)
    (hsound : coordinator.Sound) {received : SignedEnvelope} {seat : ℕ} {c : SetupContribution q G}
    (hlater : ∀ earlier ∈ history, Later earlier received)
    (hcontribution : coordinator.contribution received = some (seat, c))
    (hrecorded : coordinator.setup.recorded seat c = some c) :
    LiveHistory (history ++ [received]) coordinator := by
  refine ⟨fun other hother => ?_, fun other d hd => ?_, fun other hother => ?_⟩
  · rcases List.mem_append.1 hother with hother | hother
    · exact h.recorded other hother
    · rw [List.mem_singleton.1 hother]
      exact ⟨seat, c, hcontribution, hrecorded⟩
  · obtain ⟨earlier, hmem, hearlier⟩ := h.kept other d hd
    exact ⟨earlier, List.mem_append_left _ hmem, hearlier⟩
  · intro otherSeat d hd rank hrank
    rcases List.mem_append.1 hother with hother | hother
    · obtain ⟨earlier, hmem, hearlier⟩ := h.ordered other hother otherSeat d hd rank hrank
      exact ⟨earlier, List.mem_append_left _ hmem, hearlier⟩
    · rw [List.mem_singleton.1 hother] at hd ⊢
      obtain ⟨rfl, rfl⟩ := Prod.mk.inj (Option.some.inj (hcontribution.symm.trans hd))
      obtain ⟨earlier, hmem, hearlier⟩ :=
        h.earlier hsound hlater hcontribution (.inl hrecorded) rank hrank
      exact ⟨earlier, List.mem_append_left _ hmem, hearlier⟩

/-- A first contribution extends the history. -/
theorem LiveHistory.record {history : List SignedEnvelope} (h : LiveHistory history coordinator)
    (hsound : coordinator.Sound) {received : SignedEnvelope} {seat : ℕ} {c : SetupContribution q G}
    (hlater : ∀ earlier ∈ history, Later earlier received)
    (hcontribution : coordinator.contribution received = some (seat, c))
    (hnone : coordinator.setup.recorded seat c = none)
    (hadm : coordinator.setup.Admits P seat c) :
    LiveHistory (history ++ [received])
      { coordinator with setup := coordinator.setup.record P seat c } := by
  have hrecord := SetupCoordinator.recorded_record hsound.setup hadm
  refine ⟨fun other hother => ?_, fun other d hd => ?_, fun other hother => ?_⟩
  · rcases List.mem_append.1 hother with hother | hother
    · obtain ⟨otherSeat, d, hd, hrecorded⟩ := h.recorded other hother
      refine ⟨otherSeat, d, hd, ?_⟩
      rw [hrecord, if_neg]
      · exact hrecorded
      · rintro ⟨rfl, hrank⟩
        rw [SetupCoordinator.recorded_congr hrank, hnone] at hrecorded
        cases hrecorded
    · rw [List.mem_singleton.1 hother]
      exact ⟨seat, c, hcontribution, by rw [hrecord, if_pos ⟨rfl, rfl⟩]⟩
  · rw [hrecord] at hd
    split at hd
    · rename_i hsame
      obtain rfl := Option.some.inj hd
      rw [hsame.1]
      exact ⟨received, List.mem_append_right _ (List.mem_singleton_self _), hcontribution⟩
    · obtain ⟨earlier, hmem, hearlier⟩ := h.kept other d hd
      exact ⟨earlier, List.mem_append_left _ hmem, hearlier⟩
  · intro otherSeat d hd rank hrank
    rcases List.mem_append.1 hother with hother | hother
    · obtain ⟨earlier, hmem, hearlier⟩ := h.ordered other hother otherSeat d hd rank hrank
      exact ⟨earlier, List.mem_append_left _ hmem, hearlier⟩
    · rw [List.mem_singleton.1 hother] at hd ⊢
      obtain ⟨rfl, rfl⟩ := Prod.mk.inj (Option.some.inj (hcontribution.symm.trans hd))
      obtain ⟨earlier, hmem, hearlier⟩ :=
        h.earlier hsound hlater hcontribution (.inr hadm) rank hrank
      exact ⟨earlier, List.mem_append_left _ hmem, hearlier⟩

/-- Offering envelopes in the order of their sequence numbers extends the history. -/
theorem LiveHistory.ingestAll {history offered : List SignedEnvelope}
    (h : LiveHistory history coordinator) (hsound : coordinator.Sound)
    (hordered : (history ++ offered).Pairwise Later) :
    ∃ last kept, coordinator.ingestAll offered = .ok (last, kept) ∧ kept.Sublist offered ∧
      last.Sound ∧ SameScope coordinator last ∧ LiveHistory (history ++ kept) last := by
  induction offered generalizing coordinator history with
  | nil => exact ⟨coordinator, [], rfl, .refl _, hsound, .refl _, by simpa using h⟩
  | cons received rest ih =>
      have hlater : ∀ earlier ∈ history, Later earlier received := fun earlier hearlier =>
        (List.pairwise_append.1 hordered).2.2 earlier hearlier received List.mem_cons_self
      have hnext : ((history ++ [received]) ++ rest).Pairwise Later := by simpa using hordered
      rcases process_cases hsound received with
        ⟨result, hprocess, hrefused, -⟩ | ⟨result, seat, c, hprocess, hrefused, hc, hrecorded⟩ |
          ⟨result, seat, c, hprocess, hrefused, hc, hnone, hadm⟩
      · obtain ⟨last, kept, hrun, hsub, hlast⟩ := ih h hsound
          (hordered.sublist ((List.sublist_cons_self received rest).append_left history))
        refine ⟨last, kept, ?_, hsub.cons received, hlast⟩
        unfold SetupEnvelopeCoordinator.ingestAll
        simp only [hprocess, ok_bind, hrun, hrefused, if_true, except_pure_eq]
      · obtain ⟨last, kept, hrun, hsub, hlastSound, hscope, hlast⟩ :=
          ih (h.repeated hsound hlater hc hrecorded) hsound hnext
        refine ⟨last, received :: kept, ?_, hsub.cons_cons received, hlastSound, hscope, by
          simpa using hlast⟩
        unfold SetupEnvelopeCoordinator.ingestAll
        simp [hprocess, hrun, hrefused]
      · have hseat := seat_lt_of_contribution hsound hc
        obtain ⟨last, kept, hrun, hsub, hlastSound, hscope, hlast⟩ :=
          ih (h.record hsound hlater hc hnone hadm) (record_sound hsound hseat hadm) hnext
        refine ⟨last, received :: kept, ?_, hsub.cons_cons received, hlastSound,
          (record_scope seat c).trans hscope, by simpa using hlast⟩
        unfold SetupEnvelopeCoordinator.ingestAll
        simp [hprocess, hrun, hrefused]

/-! ## The replay -/

/-- Everything recorded in one coordinator is recorded in the other. -/
def Extends (a b : SetupCoordinator q G) : Prop :=
  ∀ seat (c x : SetupContribution q G), a.recorded seat c = some x → b.recorded seat c = some x

omit [AddCommGroup G] [Module (ZMod q) G] [DecidableEq G] in
theorem Extends.keyShares {a b : SetupCoordinator q G} (h : Extends a b) {seat : ℕ}
    {share : GameKeyShare q G} (hshare : a.keyShares seat = some share) :
    b.keyShares seat = some share := by
  have := h seat (.keyShare share) (.keyShare share) (by
    simp [SetupCoordinator.recorded, hshare])
  simpa [SetupCoordinator.recorded] using this

omit [AddCommGroup G] [Module (ZMod q) G] [DecidableEq G] in
theorem Extends.commitments {a b : SetupCoordinator q G} (h : Extends a b) {seat : ℕ}
    {commitment : Hash256} (hcommitment : a.commitments seat = some commitment) :
    b.commitments seat = some commitment := by
  have := h seat (.commitment commitment) (.commitment commitment) (by
    simp [SetupCoordinator.recorded, hcommitment])
  simpa [SetupCoordinator.recorded] using this

omit [AddCommGroup G] [Module (ZMod q) G] [DecidableEq G] in
theorem Extends.reveals {a b : SetupCoordinator q G} (h : Extends a b) {seat : ℕ}
    {secret : RandomSecret} (hsecret : a.reveals seat = some secret) :
    b.reveals seat = some secret := by
  have := h seat (.reveal secret) (.reveal secret) (by
    simp [SetupCoordinator.recorded, hsecret])
  simpa [SetupCoordinator.recorded] using this

/-- Two partial functions each of which extends the other are equal. -/
theorem funext_of_extends {α : Type} {f g : ℕ → Option α}
    (hfg : ∀ seat value, f seat = some value → g seat = some value)
    (hgf : ∀ seat value, g seat = some value → f seat = some value) : f = g := by
  funext seat
  cases hf : f seat with
  | some value => exact (hfg seat value hf).symm
  | none =>
      cases hg : g seat with
      | none => rfl
      | some value => rw [hgf seat value hg] at hf; cases hf

/-- A settled coordinator is determined by what it has recorded. -/
theorem eq_of_extends {a b : SetupEnvelopeCoordinator P} (ha : a.Sound) (hb : b.Sound)
    (hscope : SameScope a b) (hab : Extends a.setup b.setup) (hba : Extends b.setup a.setup) :
    a = b := by
  have hkeyShares : a.setup.keyShares = b.setup.keyShares :=
    funext_of_extends (fun _ _ => hab.keyShares) fun _ _ => hba.keyShares
  have hcommitments : a.setup.commitments = b.setup.commitments :=
    funext_of_extends (fun _ _ => hab.commitments) fun _ _ => hba.commitments
  have hreveals : a.setup.reveals = b.setup.reveals :=
    funext_of_extends (fun _ _ => hab.reveals) fun _ _ => hba.reveals
  have hcount : a.setup.seatCount = b.setup.seatCount := by
    rw [ha.seatCount, hb.seatCount, hscope.roster]
  have hsetup : a.setup = b.setup := by
    rw [ha.setup.settled, hb.setup.settled, hkeyShares, hcommitments, hreveals]
    exact SetupCoordinator.settled_congr hscope.setupGameId hscope.setupRound hcount
      hscope.setupBeacon _ _ _
  cases a
  cases b
  cases hscope.gameId
  cases hscope.round
  cases hscope.roster
  cases hscope.beaconRequired
  cases hsetup
  rfl

/-- The replay has recorded a part of what the live coordinator has, and the envelopes
that are left carry the rest, the earlier phases first. -/
structure Replaying (rest : List SetupArtifact) (replay live : SetupEnvelopeCoordinator P) :
    Prop where
  extends_ : Extends replay.setup live.setup
  carried : ∀ a ∈ rest, ∃ c : SetupContribution q G,
    live.contribution a.artifact = some (a.seat, c) ∧ c.rank = a.rank ∧
      live.setup.recorded a.seat c = some c
  left : ∀ seat c, live.setup.recorded seat c = some c →
    replay.setup.recorded seat c = some c ∨
      ∃ a ∈ rest, live.contribution a.artifact = some (seat, c)
  sorted : rest.Pairwise fun a b => a.rank ≤ b.rank

/-- The phases before the next envelope are complete. -/
theorem Replaying.done {a : SetupArtifact} {rest : List SetupArtifact}
    {replay live : SetupEnvelopeCoordinator P} (h : Replaying (a :: rest) replay live) {seat : ℕ}
    {c : SetupContribution q G} (hrank : c.rank < a.rank)
    (hrecorded : live.setup.recorded seat c = some c) :
    replay.setup.recorded seat c = some c := by
  rcases h.left seat c hrecorded with hdone | ⟨b, hb, hcontribution⟩
  · exact hdone
  · obtain ⟨d, hd, hdrank, -⟩ := h.carried b hb
    rw [hcontribution] at hd
    cases hd
    have hle : a.rank ≤ b.rank := by
      rcases List.mem_cons.1 hb with rfl | hb
      · exact le_rfl
      · exact (List.pairwise_cons.1 h.sorted).1 b hb
    omega

theorem Replaying.keyShares {a : SetupArtifact} {rest : List SetupArtifact}
    {replay live : SetupEnvelopeCoordinator P} (h : Replaying (a :: rest) replay live)
    (hrank : 0 < a.rank) : replay.setup.keyShares = live.setup.keyShares := by
  refine funext_of_extends (fun _ _ => h.extends_.keyShares) fun seat share hshare => ?_
  have hdone : replay.setup.recorded seat (.keyShare share) = some (.keyShare share) :=
    h.done hrank (by simp [SetupCoordinator.recorded, hshare])
  simpa [SetupCoordinator.recorded] using hdone

theorem Replaying.commitments {a : SetupArtifact} {rest : List SetupArtifact}
    {replay live : SetupEnvelopeCoordinator P} (h : Replaying (a :: rest) replay live)
    (hrank : 1 < a.rank) : replay.setup.commitments = live.setup.commitments := by
  refine funext_of_extends (fun _ _ => h.extends_.commitments) fun seat commitment hcommitment => ?_
  have hdone : replay.setup.recorded seat (.commitment commitment) = some (.commitment commitment) :=
    h.done hrank (by simp [SetupCoordinator.recorded, hcommitment])
  simpa [SetupCoordinator.recorded] using hdone

/-- When the live coordinator has a beacon and all its keys were replayed, the replay has
a beacon as well. -/
theorem state_of_beacon {replay live : SetupEnvelopeCoordinator P} (hreplay : replay.Sound)
    (hlive : live.Sound) (hscope : SameScope replay live)
    (hkeys : replay.setup.keyShares = live.setup.keyShares) {beacon : RandomnessBeacon}
    (hbeacon : live.setup.beacon = some beacon) :
    replay.setup.state = setupStateForBeacon (beaconStateOf replay.setup.seatCount
      replay.setup.commitments replay.setup.reveals) := by
  have hcount : replay.setup.seatCount = live.setup.seatCount := by
    rw [hreplay.seatCount, hlive.seatCount, hscope.roster]
  have haggregates : replay.setup.keys replay.setup.keyShares
      = live.setup.keys live.setup.keyShares := by
    unfold SetupCoordinator.keys
    rw [hcount, hkeys]
  cases hlive.setup.phase with
  | keys missing state aggregateKey none => simp [hbeacon] at none
  | failed filled aggregate state aggregateKey none => simp [hbeacon] at none
  | keyed filled key aggregate required state aggregateKey none => simp [hbeacon] at none
  | beacon filled key aggregate required state aggregateKey some =>
      cases hreplay.setup.phase with
      | keys missing =>
          rw [hcount, hkeys] at missing
          exact absurd filled missing
      | failed filled' aggregate' =>
          obtain ⟨e, he⟩ := aggregate'
          rw [haggregates, aggregate] at he
          cases he
      | keyed filled' key' aggregate' required' =>
          rw [hscope.setupBeacon, required] at required'
          cases required'
      | beacon filled' key' aggregate' required' state' => exact state'

/-- The next envelope of the replay is admitted, unless it repeats a contribution. -/
theorem Replaying.admits {a : SetupArtifact} {rest : List SetupArtifact}
    {replay live : SetupEnvelopeCoordinator P} (h : Replaying (a :: rest) replay live)
    (hreplay : replay.Sound) (hlive : live.Sound) (hscope : SameScope replay live)
    {c : SetupContribution q G} (hc : c.rank = a.rank)
    (hrecorded : live.setup.recorded a.seat c = some c) (hseat : a.seat < replay.setup.seatCount)
    (hnone : replay.setup.recorded a.seat c = none) : replay.setup.Admits P a.seat c := by
  cases c with
  | keyShare share =>
      have hfree := Option.map_eq_none_iff.1 hnone
      obtain ⟨value, hvalue, heq⟩ := Option.map_eq_some_iff.1 hrecorded
      cases heq
      have hcontext : replay.setup.proofContext = live.setup.proofContext := by
        unfold SetupCoordinator.proofContext
        rw [hscope.setupGameId, hscope.setupRound]
      have hmissing : ¬ Filled replay.setup.seatCount replay.setup.keyShares := by
        intro hfilled
        have := hfilled a.seat hseat
        simp [hfree] at this
      refine ⟨?_, by rw [hcontext]; exact (hlive.setup.keyShare hvalue).2⟩
      cases hreplay.setup.phase with
      | keys missing state => exact state
      | failed filled => exact absurd filled hmissing
      | keyed filled => exact absurd filled hmissing
      | beacon filled => exact absurd filled hmissing
  | commitment commitment =>
      have hrank : 0 < a.rank := by
        rw [← hc]
        exact Nat.one_pos
      have hfree := Option.map_eq_none_iff.1 hnone
      obtain ⟨value, hvalue, -⟩ := Option.map_eq_some_iff.1 hrecorded
      obtain ⟨beacon, hbeacon, -⟩ := Option.bind_eq_some_iff.1 hvalue
      have hmissing : ¬ Filled replay.setup.seatCount replay.setup.commitments := by
        intro hfilled
        have := hfilled a.seat hseat
        simp [hfree] at this
      show replay.setup.state = .rand_commit
      rw [state_of_beacon hreplay hlive hscope (h.keyShares hrank) hbeacon]
      unfold beaconStateOf
      rw [if_neg hmissing]
      rfl
  | reveal secret =>
      have hrank : 1 < a.rank := by
        rw [← hc]
        exact Nat.one_lt_two
      have hfree := Option.map_eq_none_iff.1 hnone
      obtain ⟨value, hvalue, heq⟩ := Option.map_eq_some_iff.1 hrecorded
      cases heq
      obtain ⟨beacon, hbeacon, -⟩ := Option.bind_eq_some_iff.1 hvalue
      obtain ⟨hcommitted, hopens⟩ := hlive.setup.reveal hvalue
      have hcount : replay.setup.seatCount = live.setup.seatCount := by
        rw [hreplay.seatCount, hlive.seatCount, hscope.roster]
      have hmissing : ¬ Filled replay.setup.seatCount replay.setup.reveals := by
        intro hfilled
        have := hfilled a.seat hseat
        simp [hfree] at this
      refine ⟨?_, ?_⟩
      · rw [state_of_beacon hreplay hlive hscope (h.keyShares (by omega)) hbeacon]
        unfold beaconStateOf
        rw [if_pos (by rw [hcount, h.commitments hrank]; exact hcommitted), if_neg hmissing]
        rfl
      · rw [h.commitments hrank, hopens, hscope.setupGameId, hscope.setupRound]

/-- **The replay ends where the live coordinator is.** -/
theorem Replaying.replaySetup {rest : List SetupArtifact}
    {replay live : SetupEnvelopeCoordinator P} (h : Replaying rest replay live)
    (hreplay : replay.Sound) (hlive : live.Sound) (hscope : SameScope replay live) :
    Tablefolk.replaySetup replay rest = .ok live := by
  induction rest generalizing replay with
  | nil =>
      have hlast : Extends live.setup replay.setup := by
        intro seat c x hx
        have hself : live.setup.recorded seat x = some x := by
          rw [SetupCoordinator.recorded_congr (SetupCoordinator.rank_of_recorded hx), hx]
        rcases h.left seat x hself with hdone | ⟨a, ha, -⟩
        · rw [SetupCoordinator.recorded_congr (SetupCoordinator.rank_of_recorded hx).symm, hdone]
        · cases ha
      rw [eq_of_extends hreplay hlive hscope h.extends_ hlast]
      rfl
  | cons a rest ih =>
      obtain ⟨c, hcontribution, hrank, hrecorded⟩ := h.carried a List.mem_cons_self
      have hsame := hcontribution
      rw [← hscope.contribution] at hsame
      have hseat := seat_lt_of_contribution hreplay hsame
      -- whatever of `a` the live coordinator has recorded, its contribution is `c`
      have honly {seat : ℕ} {d : SetupContribution q G}
          (hd : live.contribution a.artifact = some (seat, d)) : seat = a.seat ∧ d = c := by
        rw [hcontribution] at hd
        cases hd
        exact ⟨rfl, rfl⟩
      have hcarried := fun b hb => h.carried b (List.mem_cons_of_mem a hb)
      have hsorted := (List.pairwise_cons.1 h.sorted).2
      unfold Tablefolk.replaySetup
      rcases process_cases hreplay a.artifact with
        ⟨result, hprocess, hrefused, hwhy⟩ | ⟨result, seat, d, hprocess, hrefused, hd, hagain⟩ |
          ⟨result, seat, d, hprocess, hrefused, hd, hnone, hadm⟩
      · -- the replay does not refuse what the live coordinator has recorded
        obtain ⟨hother, hnot⟩ := hwhy a.seat c hsame
        exfalso
        cases hreplayed : replay.setup.recorded a.seat c with
        | none =>
            exact hnot hreplayed (h.admits hreplay hlive hscope hrank hrecorded hseat hreplayed)
        | some x =>
            have hx := h.extends_ a.seat c x hreplayed
            rw [hrecorded] at hx
            exact hother (by rw [hreplayed, Option.some.inj hx])
      · rw [hsame] at hd
        cases hd
        have hrest : Replaying rest replay live := by
          refine ⟨h.extends_, hcarried, fun seat d hd => ?_, hsorted⟩
          rcases h.left seat d hd with hdone | ⟨b, hb, hcontr⟩
          · exact .inl hdone
          · rcases List.mem_cons.1 hb with rfl | hb
            · obtain ⟨rfl, rfl⟩ := honly hcontr
              exact .inl hagain
            · exact .inr ⟨b, hb, hcontr⟩
        simp only [hprocess, Except.mapError, ok_bind]
        cases result with
        | rejected reason state who => cases hrefused
        | accepted seat state => exact ih hrest hreplay hscope
        | duplicate seat state => exact ih hrest hreplay hscope
        | failed seat => exact ih hrest hreplay hscope
      · rw [hsame] at hd
        cases hd
        have hrecord := SetupCoordinator.recorded_record hreplay.setup hadm
        have hrest : Replaying rest
            { replay with setup := replay.setup.record P a.seat c } live := by
          refine ⟨fun seat d x hx => ?_, hcarried, fun seat d hd => ?_, hsorted⟩
          · rw [hrecord] at hx
            split at hx
            · rename_i hthis
              obtain rfl := Option.some.inj hx
              rw [hthis.1, SetupCoordinator.recorded_congr hthis.2]
              exact hrecorded
            · exact h.extends_ seat d x hx
          · rcases h.left seat d hd with hdone | ⟨b, hb, hcontr⟩
            · refine .inl ?_
              rw [hrecord, if_neg]
              · exact hdone
              · rintro ⟨rfl, hranks⟩
                rw [SetupCoordinator.recorded_congr hranks, hnone] at hdone
                cases hdone
            · rcases List.mem_cons.1 hb with rfl | hb
              · obtain ⟨rfl, rfl⟩ := honly hcontr
                exact .inl (by rw [hrecord, if_pos ⟨rfl, rfl⟩])
              · exact .inr ⟨b, hb, hcontr⟩
        have hnext := ih hrest (record_sound hreplay hseat hadm)
          ((record_scope a.seat c).symm.trans hscope)
        simp only [hprocess, Except.mapError, ok_bind]
        cases result with
        | rejected reason state who => cases hrefused
        | accepted seat state => exact hnext
        | duplicate seat state => exact hnext
        | failed seat => exact hnext

end SetupEnvelopeCoordinator

/-! ## The transcript -/

omit [DecidableEq G] in
/-- Picking out the setup envelopes of a transcript of setup envelopes keeps them all. -/
theorem setupArtifactsFrom_ok {game : GameId} {roster : Roster P} (index : ℕ)
    {tuples : List (IdentityPublicKey × ℕ)} {transcript : List SignedEnvelope}
    (hgame : ∀ e ∈ transcript, e.game = game)
    (hfresh : ∀ e ∈ transcript, (e.from_, e.seq) ∉ tuples)
    (hnodup : (transcript.map fun e => (e.from_, e.seq)).Nodup)
    (hseat : ∀ e ∈ transcript, ∃ rank seat, setupTypeRank e.type = some rank ∧
      roster.seatOf e.from_ = some seat) :
    ∃ artifacts, setupArtifactsFrom game roster index tuples transcript = .ok artifacts ∧
      artifacts.map SetupArtifact.artifact = transcript ∧
      ∀ a ∈ artifacts, setupTypeRank a.artifact.type = some a.rank ∧
        roster.seatOf a.artifact.from_ = some a.seat := by
  induction transcript generalizing index tuples with
  | nil => exact ⟨[], rfl, rfl, fun a ha => by cases ha⟩
  | cons e rest ih =>
      obtain ⟨rank, seat, hrank, hseated⟩ := hseat e List.mem_cons_self
      rw [List.map_cons, List.nodup_cons] at hnodup
      have hnew : ∀ x ∈ rest, (x.from_, x.seq) ∉ tuples ++ [(e.from_, e.seq)] := by
        intro x hx hmem
        rcases List.mem_append.1 hmem with hmem | hmem
        · exact hfresh x (List.mem_cons_of_mem e hx) hmem
        · exact hnodup.1 (List.mem_map.2 ⟨x, hx, List.mem_singleton.1 hmem⟩)
      obtain ⟨artifacts, hrun, hmap, hall⟩ := ih (index + 1)
        (fun x hx => hgame x (List.mem_cons_of_mem e hx)) hnew hnodup.2
        (fun x hx => hseat x (List.mem_cons_of_mem e hx))
      refine ⟨⟨e, rank, seat⟩ :: artifacts, ?_, by simp [hmap], fun a ha => ?_⟩
      · unfold setupArtifactsFrom
        rw [throwIf_neg (not_not_intro (hgame e List.mem_cons_self)), ok_bind,
          throwIf_neg (hfresh e List.mem_cons_self), ok_bind]
        simp only [hrank, hseated, hrun, ok_bind, except_pure_eq]
      · rcases List.mem_cons.1 ha with rfl | ha
        · exact ⟨hrank, hseated⟩
        · exact hall a ha

theorem mem_of_firstSequence {artifacts : List SetupArtifact} {sender : IdentityPublicKey}
    {rank seq : ℕ} (h : firstSequence artifacts sender rank = some seq) :
    ∃ a ∈ artifacts, a.artifact.from_ = sender ∧ a.rank = rank ∧ a.artifact.seq = seq := by
  unfold firstSequence at h
  obtain ⟨a, ha, hseq⟩ := List.mem_map.1 (List.min?_mem h)
  obtain ⟨hmem, hplace⟩ := List.mem_filter.1 ha
  obtain ⟨hsender, hrank⟩ := of_decide_eq_true hplace
  exact ⟨a, hmem, hsender, hrank, hseq⟩

theorem firstSequence_le {artifacts : List SetupArtifact} {a : SetupArtifact}
    (ha : a ∈ artifacts) : ∃ seq, firstSequence artifacts a.artifact.from_ a.rank = some seq ∧
      seq ≤ a.artifact.seq := by
  have hmem : a.artifact.seq ∈ (artifacts.filter fun b =>
      b.artifact.from_ = a.artifact.from_ ∧ b.rank = a.rank).map fun b => b.artifact.seq :=
    List.mem_map.2 ⟨a, List.mem_filter.2 ⟨ha, by simp⟩, rfl⟩
  unfold firstSequence
  cases hmin : ((artifacts.filter fun b =>
      b.artifact.from_ = a.artifact.from_ ∧ b.rank = a.rank).map fun b => b.artifact.seq).min? with
  | none =>
      rw [List.min?_eq_none_iff] at hmin
      rw [hmin] at hmem
      cases hmem
  | some seq => exact ⟨seq, rfl, (List.min?_eq_some_iff.1 hmin).2 _ hmem⟩

/-- If every envelope has one of the phase before and of a smaller sequence, the sender's
phases are in order. -/
theorem requireSenderPhaseOrder_ok {artifacts : List SetupArtifact}
    (h : ∀ a ∈ artifacts, ∀ rank < a.rank, ∃ b ∈ artifacts,
      b.artifact.from_ = a.artifact.from_ ∧ b.rank = rank ∧ b.artifact.seq < a.artifact.seq) :
    requireSenderPhaseOrder artifacts = .ok () := by
  have hpair (sender : IdentityPublicKey) (rank : ℕ) :
      outOfOrder (firstSequence artifacts sender (rank + 1)) (firstSequence artifacts sender rank)
        = false := by
    cases hlate : firstSequence artifacts sender (rank + 1) with
    | none => rfl
    | some late =>
        obtain ⟨a, ha, rfl, hrank, rfl⟩ := mem_of_firstSequence hlate
        obtain ⟨b, hb, hsender, hbrank, hlt⟩ := h a ha rank (by omega)
        obtain ⟨early, hearly, hle⟩ := firstSequence_le hb
        rw [hsender, hbrank] at hearly
        rw [hearly]
        simpa [outOfOrder] using by omega
  have hcheck (sender : IdentityPublicKey) : checkPhaseOrder artifacts sender = .ok () := by
    unfold checkPhaseOrder
    simp only [hpair sender 0, hpair sender 1, check_bind_eq_ok, throwIf_eq_ok]
    simp
  unfold requireSenderPhaseOrder
  induction (artifacts.map fun a => a.artifact.from_).eraseDups with
  | nil => rfl
  | cons sender rest ih =>
      change (checkPhaseOrder artifacts sender >>= fun _ =>
        rest.forM (checkPhaseOrder artifacts)) = .ok ()
      rw [hcheck sender, ok_bind]
      exact ih

theorem setupArtifactLe_total (a b : SetupArtifact) :
    setupArtifactLe a b ∨ setupArtifactLe b a := by
  unfold setupArtifactLe
  omega

theorem setupArtifactLe_trans {a b c : SetupArtifact} (hab : setupArtifactLe a b)
    (hbc : setupArtifactLe b c) : setupArtifactLe a c := by
  unfold setupArtifactLe at hab hbc ⊢
  omega

instance : Std.Total setupArtifactLe := ⟨setupArtifactLe_total⟩

instance : IsTrans SetupArtifact setupArtifactLe := ⟨fun _ _ _ => setupArtifactLe_trans⟩

theorem SetupEnvelopeCoordinator.start_sound {gameId : GameId} {round : ℕ}
    {seats : List IdentityPublicKey} {beaconRequired : Bool} {started : SetupEnvelopeCoordinator P}
    (h : SetupEnvelopeCoordinator.start P gameId round seats beaconRequired = .ok started) :
    started.Sound ∧ started.gameId = gameId ∧ LiveHistory [] started := by
  unfold SetupEnvelopeCoordinator.start at h
  simp only [bind_eq_ok, except_pure_eq] at h
  obtain ⟨_, -, roster, -, setup, hsetup, hstarted⟩ := h
  cases hstarted
  have hinv := SetupInvariant.start (P := P) hsetup
  unfold SetupCoordinator.start at hsetup
  simp only [check_bind_eq_ok, except_pure_eq] at hsetup
  obtain ⟨-, -, hsetup⟩ := hsetup
  cases hsetup
  refine ⟨⟨hinv, rfl⟩, rfl, fun _ h => absurd h List.not_mem_nil, fun seat c h => ?_,
    fun _ h => absurd h List.not_mem_nil⟩
  cases c <;> cases h

open SetupEnvelopeCoordinator in
/-- **Setup recovery agrees with live setup.**  Offer any envelopes, each sender's in the
order of their sequence numbers, and replay any permutation of those that were not
refused: recovery succeeds and rebuilds the live coordinator. -/
theorem setup_recovery_agrees {gameId : GameId} {round : ℕ} {seats : List IdentityPublicKey}
    {beaconRequired : Bool} {started : SetupEnvelopeCoordinator P}
    (hstart : SetupEnvelopeCoordinator.start P gameId round seats beaconRequired = .ok started)
    (offered : List SignedEnvelope)
    (hordered : offered.Pairwise fun a b => a.from_ = b.from_ → a.seq < b.seq) :
    ∃ live kept, started.ingestAll offered = .ok (live, kept) ∧ kept.Sublist offered ∧
      ∀ transcript : List SignedEnvelope, transcript.Perm kept →
        recoverSetup P gameId round seats transcript beaconRequired = .ok live := by
  obtain ⟨hsound, hgame, hempty⟩ := SetupEnvelopeCoordinator.start_sound hstart
  obtain ⟨live, kept, hrun, hsub, hlive, hscope, hhistory⟩ :=
    hempty.ingestAll hsound hordered
  rw [List.nil_append] at hhistory
  refine ⟨live, kept, hrun, hsub, fun transcript hperm => ?_⟩
  have hcarried : ∀ e ∈ transcript, ∃ seat c, live.contribution e = some (seat, c) ∧
      live.setup.recorded seat c = some c :=
    fun e he => hhistory.recorded e (hperm.mem_iff.1 he)
  have hplace : ∀ e ∈ transcript, ∃ rank seat, setupTypeRank e.type = some rank ∧
      started.roster.seatOf e.from_ = some seat := by
    intro e he
    obtain ⟨seat, c, hc, -⟩ := hcarried e he
    obtain ⟨-, hseat, hbody⟩ := contribution_eq_some.1 hc
    rw [← hscope.roster] at hseat
    exact ⟨c.rank, seat, rank_setupBody hbody, hseat⟩
  have hsame : ∀ e ∈ transcript, e.game = gameId := by
    intro e he
    obtain ⟨seat, c, hc, -⟩ := hcarried e he
    rw [(contribution_eq_some.1 hc).1.1, ← hscope.gameId, hgame]
  have hnodup : (transcript.map fun e => (e.from_, e.seq)).Nodup := by
    rw [(hperm.map _).nodup_iff]
    refine List.pairwise_map.2 ((hordered.sublist hsub).imp fun {a b} hlater heq => ?_)
    obtain ⟨hfrom, hseq⟩ := Prod.mk.inj heq
    exact absurd hseq (hlater hfrom).ne
  obtain ⟨artifacts, hartifacts, hmap, hplaces⟩ :=
    setupArtifactsFrom_ok 0 hsame (fun e _ => List.not_mem_nil) hnodup hplace
  -- an artifact's seat and rank are those of its contribution
  have hread : ∀ a ∈ artifacts, ∃ c : SetupContribution q G,
      live.contribution a.artifact = some (a.seat, c) ∧ c.rank = a.rank ∧
        live.setup.recorded a.seat c = some c := by
    intro a ha
    obtain ⟨hrank, hseat⟩ := hplaces a ha
    obtain ⟨seat, c, hc, hrecorded⟩ := hcarried a.artifact (hmap ▸ List.mem_map_of_mem ha)
    obtain ⟨-, hseated, hbody⟩ := contribution_eq_some.1 hc
    rw [← hscope.roster, hseat] at hseated
    obtain rfl := Option.some.inj hseated
    exact ⟨c, hc, Option.some.inj ((rank_setupBody hbody).symm.trans hrank), hrecorded⟩
  have hfind : ∀ e ∈ kept, ∃ a ∈ artifacts, a.artifact = e := by
    intro e he
    rw [← hperm.mem_iff, ← hmap] at he
    exact List.mem_map.1 he
  have hphases : requireSenderPhaseOrder artifacts = .ok () := by
    refine requireSenderPhaseOrder_ok fun a ha rank hlt => ?_
    obtain ⟨c, hc, hrank, -⟩ := hread a ha
    have hkept : a.artifact ∈ kept := hperm.mem_iff.1 (hmap ▸ List.mem_map_of_mem ha)
    obtain ⟨earlier, hearlier, d, hd, hdrank, hseq⟩ :=
      hhistory.ordered a.artifact hkept a.seat c hc rank (by omega)
    obtain ⟨b, hb, rfl⟩ := hfind earlier hearlier
    obtain ⟨d', hd', hbrank, -⟩ := hread b hb
    have hsames := from_eq_of_contribution hd hc
    obtain ⟨-, rfl⟩ := Prod.mk.inj (Option.some.inj (hd.symm.trans hd'))
    exact ⟨b, hb, hsames, by omega, hseq⟩
  have hsorted := List.perm_insertionSort setupArtifactLe artifacts
  have hreplaying : Replaying (artifacts.insertionSort setupArtifactLe) started live := by
    refine ⟨fun seat c x hx => ?_, fun a ha => hread a (hsorted.mem_iff.1 ha),
      fun seat c hc => ?_, ?_⟩
    · obtain ⟨e, he, -⟩ := hempty.kept seat x (by
        rw [SetupCoordinator.recorded_congr (SetupCoordinator.rank_of_recorded hx), hx])
      cases he
    · obtain ⟨e, he, hcontribution⟩ := hhistory.kept seat c hc
      obtain ⟨a, ha, rfl⟩ := hfind e he
      exact .inr ⟨a, hsorted.mem_iff.2 ha, hcontribution⟩
    · refine (List.pairwise_insertionSort setupArtifactLe artifacts).imp fun {a b} hle => ?_
      unfold setupArtifactLe at hle
      omega
  unfold recoverSetup
  rw [hstart]
  simp only [Except.mapError, ok_bind, hartifacts, hphases]
  exact hreplaying.replaySetup hsound hlive hscope

end

/-! ## A small table -/

namespace SmallGroup

/-- The key share of a seat as an envelope, sent with a sequence number. -/
def keyEnvelope (seat seq : ℕ) : SignedEnvelope :=
  { envelope seat seq ZERO_HASH .KEY_SHARE (.map [
      ("H_i", .bytes (residueBytes (keyShare seat).H).val),
      ("pop", .map [
        ("R", .bytes (residueBytes (keyShare seat).pop.R).val),
        ("z", .bytes (residueBytes (keyShare seat).pop.z).val)])]) with
    phase := "setup.keys" }

/-- Three keys, one of them sent twice, and an envelope of another phase. -/
def keyEnvelopes : List SignedEnvelope :=
  [keyEnvelope 1 0, firstEnvelope, keyEnvelope 1 1, keyEnvelope 0 1, keyEnvelope 2 0]

/-- The coordinator before setup. -/
def setupStarted : SetupEnvelopeCoordinator (primitives fun _ => 0) where
  gameId := game
  round := 1
  roster := roster fun _ => 0
  beaconRequired := true
  setup := started

end SmallGroup

open SmallGroup in
theorem setup_recovery_agrees_small :
    ∃ live kept, setupStarted.ingestAll keyEnvelopes = .ok (live, kept) ∧
      recoverSetup (primitives fun _ => 0) game 1 (roster fun _ => 0).seats kept.reverse true
        = .ok live := by
  have hstart : SetupEnvelopeCoordinator.start (primitives fun _ => 0) game 1
      (roster fun _ => 0).seats true = .ok setupStarted := by rfl
  obtain ⟨live, kept, hrun, -, hrecover⟩ := setup_recovery_agrees hstart keyEnvelopes
    (by decide +kernel)
  exact ⟨live, kept, hrun, hrecover kept.reverse kept.reverse_perm⟩

end Tablefolk
