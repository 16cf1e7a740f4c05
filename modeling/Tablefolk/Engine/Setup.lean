import Tablefolk.Deck.Wire
import Tablefolk.Session.Roster

/-!
# Key setup

The model of `engine/randomness-beacon.ts`, `engine/setup-coordinator.ts`,
`engine/setup-envelope-coordinator.ts` and `engine/setup-recovery.ts`: every seat
contributes a game key with a proof of possession and then, when a beacon is
required, commits to a secret and reveals it.

`SetupEnvelopeCoordinator.process` is the live path, one envelope at a time;
`recoverSetup` rebuilds a coordinator from a bag of envelopes.
-/

namespace Tablefolk

/-! ## The randomness beacon -/

inductive BeaconState where
  | committing | revealing | complete
  deriving DecidableEq, Repr

/-- `RandomnessBeacon`. -/
structure RandomnessBeacon where
  gameId : GameId
  round : ℕ
  seatCount : ℕ
  commitments : ℕ → Option Hash256
  reveals : ℕ → Option RandomSecret
  state : BeaconState
  seed : Option Hash256

inductive SetupState where
  | keys | rand_commit | rand_reveal | complete | failed
  deriving DecidableEq, Repr

inductive SetupRejectionReason where
  | commitment_mismatch | conflicting_commitment | conflicting_key_share | conflicting_reveal
  | invalid_key_proof | setup_failed | unexpected_commit | unexpected_reveal
  deriving DecidableEq, Repr

/-- `BeaconIngestResult`. -/
inductive BeaconIngestResult where
  | accepted (state : BeaconState)
  | duplicate (state : BeaconState)
  | rejected (state : BeaconState) (reason : SetupRejectionReason)
  deriving DecidableEq, Repr

/-- The errors setup throws: a seat outside the table, arguments out of range, and a
roster that fails its checks. -/
inductive SetupError where
  | seat (count : ℕ)
  | roundRange
  | seatCount
  | keys
  | roster (error : RosterError)
  deriving DecidableEq, Repr

/-- `#assertSeat`. -/
def assertSeat (seatCount seat : ℕ) : Except SetupError Unit :=
  throwIf (seatCount ≤ seat) (.seat seatCount)

/-- How many seats have not contributed yet. -/
def remaining {α : Type} (seatCount : ℕ) (values : ℕ → Option α) : ℕ :=
  (List.range seatCount).countP fun seat => (values seat).isNone

namespace RandomnessBeacon

/-- `new RandomnessBeacon`. -/
def start (gameId : GameId) (round seatCount : ℕ) : RandomnessBeacon where
  gameId := gameId
  round := round
  seatCount := seatCount
  commitments := fun _ => none
  reveals := fun _ => none
  state := .committing
  seed := none

/-- `pendingSenders`. -/
def pendingSenders (beacon : RandomnessBeacon) : List ℕ :=
  (List.range beacon.seatCount).filter fun seat =>
    if beacon.state = .committing then (beacon.commitments seat).isNone
    else (beacon.reveals seat).isNone

/-- `classifyCommitment`. -/
def classifyCommitment (beacon : RandomnessBeacon) (seat : ℕ) (commitment : Hash256) :
    Except SetupError BeaconIngestResult := do
  assertSeat beacon.seatCount seat
  match beacon.commitments seat with
  | some existing =>
      if existing = commitment then return .duplicate beacon.state
      else return .rejected beacon.state .conflicting_commitment
  | none =>
      if beacon.state ≠ .committing then return .rejected beacon.state .unexpected_commit
      else
        let last := remaining beacon.seatCount beacon.commitments = 1
        return .accepted (if last then .revealing else beacon.state)

/-- `acceptCommitment`. -/
def acceptCommitment (beacon : RandomnessBeacon) (seat : ℕ) (commitment : Hash256) :
    Except SetupError (BeaconIngestResult × RandomnessBeacon) := do
  match ← beacon.classifyCommitment seat commitment with
  | .accepted state =>
      return (.accepted state, { beacon with
        commitments := Function.update beacon.commitments seat (some commitment), state := state })
  | result => return (result, beacon)

end RandomnessBeacon

section

variable {q : ℕ} {G : Type} [AddCommGroup G] [Module (ZMod q) G] [DecidableEq G]
  (P : Primitives q G)

/-- `classifyReveal`. -/
def RandomnessBeacon.classifyReveal (beacon : RandomnessBeacon) (seat : ℕ)
    (secret : RandomSecret) : Except SetupError BeaconIngestResult := do
  assertSeat beacon.seatCount seat
  match beacon.reveals seat with
  | some existing =>
      if existing = secret then return .duplicate beacon.state
      else return .rejected beacon.state .conflicting_reveal
  | none =>
      if beacon.state ≠ .revealing then return .rejected beacon.state .unexpected_reveal
      else if beacon.commitments seat
          ≠ some (P.beaconCommitment beacon.gameId beacon.round seat secret) then
        return .rejected beacon.state .commitment_mismatch
      else
        let last := remaining beacon.seatCount beacon.reveals = 1
        return .accepted (if last then .complete else beacon.state)

/-- `acceptReveal`: the last reveal fixes the seed. -/
def RandomnessBeacon.acceptReveal (beacon : RandomnessBeacon) (seat : ℕ)
    (secret : RandomSecret) : Except SetupError (BeaconIngestResult × RandomnessBeacon) := do
  match ← beacon.classifyReveal P seat secret with
  | .accepted state =>
      let reveals := Function.update beacon.reveals seat (some secret)
      return (.accepted state, { beacon with
        reveals := reveals, state := state,
        seed := if state = .complete then
            some (P.sha256 ((List.range beacon.seatCount).filterMap reveals))
          else beacon.seed })
  | result => return (result, beacon)

/-! ## The coordinator -/

/-- The ways `aggregatePublicKeys` throws. -/
inductive AggregateError where
  | noKeys | identityKey | identityAggregate
  deriving DecidableEq, Repr

/-- `aggregatePublicKeys`. -/
def aggregatePublicKeys (keys : List G) : Except AggregateError G := do
  throwIf (keys.length = 0) .noKeys
  throwIf (0 ∈ keys) .identityKey
  throwIf (keys.sum = 0) .identityAggregate
  return keys.sum

variable (q G) in
/-- `SetupCoordinator`. -/
structure SetupCoordinator where
  gameId : GameId
  round : ℕ
  seatCount : ℕ
  beaconRequired : Bool
  keyShares : ℕ → Option (GameKeyShare q G)
  state : SetupState
  aggregateKey : Option G
  beacon : Option RandomnessBeacon

/-- `SetupIngestResult`. -/
inductive SetupIngestResult where
  | accepted (state : SetupState)
  | duplicate (state : SetupState)
  | rejected (state : SetupState) (reason : SetupRejectionReason)
  | failed
  deriving DecidableEq, Repr

/-- `setupStateForBeacon`. -/
def setupStateForBeacon : BeaconState → SetupState
  | .committing => .rand_commit
  | .revealing => .rand_reveal
  | .complete => .complete

/-- `mapBeaconResult`. -/
def mapBeaconResult (result : BeaconIngestResult) (state : SetupState) : SetupIngestResult :=
  match result with
  | .accepted _ => .accepted state
  | .duplicate _ => .duplicate state
  | .rejected _ reason => .rejected state reason

/-- The state of the beacon a result reports. -/
def BeaconIngestResult.state : BeaconIngestResult → BeaconState
  | .accepted state | .duplicate state | .rejected state _ => state

namespace SetupCoordinator

/-- `new SetupCoordinator`. -/
def start (gameId : GameId) (round seatCount : ℕ) (beaconRequired : Bool) :
    Except SetupError (SetupCoordinator q G) := do
  throwIf (MAX_SAFE_INTEGER < round) .roundRange
  throwIf (seatCount < 3 ∨ 8 < seatCount) .seatCount
  return ⟨gameId, round, seatCount, beaconRequired, fun _ => none, .keys, none, none⟩

/-- `#proofContext`. -/
def proofContext (setup : SetupCoordinator q G) : ProofContext :=
  ⟨setup.gameId, setup.round, "setup.keys"⟩

/-- `pendingSenders`. -/
def pendingSenders (setup : SetupCoordinator q G) : List ℕ :=
  match setup.state, setup.beacon with
  | .keys, _ => (List.range setup.seatCount).filter fun seat => (setup.keyShares seat).isNone
  | .rand_commit, some beacon | .rand_reveal, some beacon => beacon.pendingSenders
  | _, _ => []

/-- `seed`. -/
def seed (setup : SetupCoordinator q G) : Option Hash256 :=
  setup.beacon.bind RandomnessBeacon.seed

/-- `publicKeyAt`. -/
def publicKeyAt (setup : SetupCoordinator q G) (seat : ℕ) : Except SetupError (Option G) := do
  assertSeat setup.seatCount seat
  return (setup.keyShares seat).map GameKeyShare.H

/-- The keys in seat order. -/
def keys (setup : SetupCoordinator q G) (keyShares : ℕ → Option (GameKeyShare q G)) : List G :=
  (List.range setup.seatCount).filterMap fun seat => (keyShares seat).map GameKeyShare.H

/-- `classifyKeyShare`. -/
def classifyKeyShare (setup : SetupCoordinator q G) (seat : ℕ) (share : GameKeyShare q G) :
    Except SetupError SetupIngestResult := do
  assertSeat setup.seatCount seat
  match setup.keyShares seat with
  | some existing =>
      if existing = share then return .duplicate setup.state
      else return .rejected setup.state .conflicting_key_share
  | none =>
      if setup.state = .failed then return .rejected setup.state .setup_failed
      else if setup.state ≠ .keys ∨ P.verifyGameKeyShare setup.proofContext share = false then
        return .rejected setup.state .invalid_key_proof
      else
        let prospective := Function.update setup.keyShares seat (some share)
        if ∃ seat ∈ List.range setup.seatCount, prospective seat = none then
          return .accepted setup.state
        else
          match aggregatePublicKeys (setup.keys prospective) with
          | .error .noKeys => throw .keys
          | .error _ => return .failed
          | .ok _ => return .accepted (if setup.beaconRequired then .rand_commit else .complete)

/-- `acceptKeyShare`: the last key fixes the aggregate key. -/
def acceptKeyShare (setup : SetupCoordinator q G) (seat : ℕ) (share : GameKeyShare q G) :
    Except SetupError (SetupIngestResult × SetupCoordinator q G) := do
  let keyShares := Function.update setup.keyShares seat (some share)
  match ← setup.classifyKeyShare P seat share with
  | .failed => return (.failed, { setup with keyShares := keyShares, state := .failed })
  | .accepted state =>
      if state = .rand_commit ∨ state = .complete then
        match aggregatePublicKeys (setup.keys keyShares) with
        | .error _ => throw .keys
        | .ok aggregateKey => return (.accepted state, { setup with
            keyShares := keyShares, state := state, aggregateKey := some aggregateKey,
            beacon := if setup.beaconRequired then
                some (.start setup.gameId setup.round setup.seatCount)
              else setup.beacon })
      else return (.accepted state, { setup with keyShares := keyShares, state := state })
  | result => return (result, setup)

/-- `classifyCommitment`. -/
def classifyCommitment (setup : SetupCoordinator q G) (seat : ℕ) (commitment : Hash256) :
    Except SetupError SetupIngestResult := do
  assertSeat setup.seatCount seat
  if setup.state = .failed then return .rejected setup.state .setup_failed
  else match setup.beacon with
  | none => return .rejected setup.state .unexpected_commit
  | some beacon =>
      let result ← beacon.classifyCommitment seat commitment
      return mapBeaconResult result (setupStateForBeacon result.state)

/-- `#syncBeaconState`. -/
def syncBeaconState (setup : SetupCoordinator q G) (beacon : RandomnessBeacon) :
    SetupCoordinator q G :=
  { setup with
    beacon := some beacon
    state := match beacon.state with
      | .committing => setup.state
      | .revealing => .rand_reveal
      | .complete => .complete }

/-- `acceptCommitment`. -/
def acceptCommitment (setup : SetupCoordinator q G) (seat : ℕ) (commitment : Hash256) :
    Except SetupError (SetupIngestResult × SetupCoordinator q G) := do
  match ← setup.classifyCommitment seat commitment, setup.beacon with
  | .accepted _, some beacon =>
      let (result, beacon) ← beacon.acceptCommitment seat commitment
      let setup := setup.syncBeaconState beacon
      return (mapBeaconResult result setup.state, setup)
  | result, _ => return (result, setup)

/-- `classifyReveal`. -/
def classifyReveal (setup : SetupCoordinator q G) (seat : ℕ) (secret : RandomSecret) :
    Except SetupError SetupIngestResult := do
  assertSeat setup.seatCount seat
  if setup.state = .failed then return .rejected setup.state .setup_failed
  else match setup.beacon with
  | none => return .rejected setup.state .unexpected_reveal
  | some beacon =>
      let result ← beacon.classifyReveal P seat secret
      return mapBeaconResult result (setupStateForBeacon result.state)

/-- `acceptReveal`. -/
def acceptReveal (setup : SetupCoordinator q G) (seat : ℕ) (secret : RandomSecret) :
    Except SetupError (SetupIngestResult × SetupCoordinator q G) := do
  match ← setup.classifyReveal P seat secret, setup.beacon with
  | .accepted _, some beacon =>
      let (result, beacon) ← beacon.acceptReveal P seat secret
      let setup := setup.syncBeaconState beacon
      return (mapBeaconResult result setup.state, setup)
  | result, _ => return (result, setup)

end SetupCoordinator

/-! ## Envelopes -/

/-- `SetupEnvelopeRejectionReason`. -/
inductive SetupEnvelopeRejectionReason where
  | setup (reason : SetupRejectionReason)
  | malformed_body | unknown_sender | wrong_game | wrong_phase | wrong_round | wrong_type
  deriving DecidableEq, Repr

/-- `SetupEnvelopeResult`. -/
inductive SetupEnvelopeResult where
  | accepted (seat : ℕ) (state : SetupState)
  | duplicate (seat : ℕ) (state : SetupState)
  | rejected (reason : SetupEnvelopeRejectionReason) (state : SetupState) (seat : Option ℕ)
  | failed (seat : ℕ)
  deriving DecidableEq, Repr

/-- `SetupEnvelopeCoordinator`. -/
structure SetupEnvelopeCoordinator where
  gameId : GameId
  round : ℕ
  roster : Roster P
  beaconRequired : Bool
  setup : SetupCoordinator q G

variable {P}

namespace SetupEnvelopeCoordinator

variable (P) in
/-- `new SetupEnvelopeCoordinator`. -/
def start (gameId : GameId) (round : ℕ) (roster : List IdentityPublicKey) (beaconRequired : Bool) :
    Except SetupError (SetupEnvelopeCoordinator P) := do
  throwIf (MAX_SAFE_INTEGER < round) .roundRange
  let roster ← (Roster.parse P roster).mapError SetupError.roster
  let setup ← SetupCoordinator.start gameId round roster.size beaconRequired
  return ⟨gameId, round, roster, beaconRequired, setup⟩

/-- `state`. -/
def state (coordinator : SetupEnvelopeCoordinator P) : SetupState := coordinator.setup.state

/-- `publicKeyAt`. -/
def publicKeyAt (coordinator : SetupEnvelopeCoordinator P) (seat : ℕ) :
    Except SetupError (Option G) := coordinator.setup.publicKeyAt seat

/-- `mapSetupResult`. -/
def mapSetupResult (seat : ℕ) : SetupIngestResult → SetupEnvelopeResult
  | .accepted state => .accepted seat state
  | .duplicate state => .duplicate seat state
  | .rejected state reason => .rejected (.setup reason) state (some seat)
  | .failed => .failed seat

/-- Apply a decoded body, or report it malformed. -/
def withBody {β : Type} (coordinator : SetupEnvelopeCoordinator P) (seat : ℕ)
    (body : Except ProtocolSchemaError β)
    (accept : β → Except SetupError (SetupIngestResult × SetupCoordinator q G)) :
    Except SetupError (SetupEnvelopeResult × SetupEnvelopeCoordinator P) := do
  match body with
  | .error _ => return (.rejected .malformed_body coordinator.state (some seat), coordinator)
  | .ok body =>
      let (result, setup) ← accept body
      return (mapSetupResult seat result, { coordinator with setup := setup })

/-- `#process`, committing: the result and the coordinator afterwards.  Without the
commit the result is the same and the coordinator stays as it is. -/
def process (coordinator : SetupEnvelopeCoordinator P) (received : SignedEnvelope) :
    Except SetupError (SetupEnvelopeResult × SetupEnvelopeCoordinator P) :=
  let reject (reason : SetupEnvelopeRejectionReason) (seat : Option ℕ) :=
    Except.ok (.rejected reason coordinator.state seat, coordinator)
  if received.game ≠ coordinator.gameId then reject .wrong_game none
  else match coordinator.roster.seatOf received.from_ with
  | none => reject .unknown_sender none
  | some seat =>
      if received.round ≠ coordinator.round then reject .wrong_round (some seat)
      else match received.type with
      | .KEY_SHARE =>
          if received.phase ≠ "setup.keys" then reject .wrong_phase (some seat)
          else coordinator.withBody seat (decodeGameKeyShareBody P received.body)
            (coordinator.setup.acceptKeyShare P seat)
      | .RAND_COMMIT =>
          if received.phase ≠ "setup.rand" then reject .wrong_phase (some seat)
          else coordinator.withBody seat (decodeRandCommitBody received.body)
            (coordinator.setup.acceptCommitment seat)
      | .RAND_REVEAL =>
          if received.phase ≠ "setup.rand" then reject .wrong_phase (some seat)
          else coordinator.withBody seat (decodeRandRevealBody received.body)
            (coordinator.setup.acceptReveal P seat)
      | _ => reject .wrong_type (some seat)

end SetupEnvelopeCoordinator

/-! ## Recovery -/

/-- `SetupRecoveryError`. -/
inductive SetupRecoveryError where
  | game (index : ℕ)
  | repeated (sender : IdentityPublicKey) (seq : ℕ)
  | nonRoster (sender : IdentityPublicKey) (seq : ℕ)
  | committedBeforeKey (sender : IdentityPublicKey)
  | revealedBeforeCommit (sender : IdentityPublicKey)
  | transition (type : EnvelopeMessageType) (seat : Option ℕ) (seq : ℕ)
      (reason : SetupEnvelopeRejectionReason)
  | coordinator (error : SetupError)
  deriving DecidableEq, Repr

/-- `SETUP_TYPE_RANK`. -/
def setupTypeRank : EnvelopeMessageType → Option ℕ
  | .KEY_SHARE => some 0
  | .RAND_COMMIT => some 1
  | .RAND_REVEAL => some 2
  | _ => none

/-- `SetupArtifact`. -/
structure SetupArtifact where
  artifact : SignedEnvelope
  rank : ℕ
  seat : ℕ
  deriving DecidableEq

/-- The first loop of `recoverSetup`: pick out the setup envelopes. -/
def setupArtifactsFrom (game : GameId) (roster : Roster P) (index : ℕ)
    (tuples : List (IdentityPublicKey × ℕ)) :
    List SignedEnvelope → Except SetupRecoveryError (List SetupArtifact)
  | [] => .ok []
  | artifact :: rest => do
      throwIf (artifact.game ≠ game) (SetupRecoveryError.game index)
      throwIf ((artifact.from_, artifact.seq) ∈ tuples)
        (SetupRecoveryError.repeated artifact.from_ artifact.seq)
      let tuples := tuples ++ [(artifact.from_, artifact.seq)]
      match setupTypeRank artifact.type with
      | none => setupArtifactsFrom game roster (index + 1) tuples rest
      | some rank =>
          match roster.seatOf artifact.from_ with
          | none => throw (SetupRecoveryError.nonRoster artifact.from_ artifact.seq)
          | some seat =>
              let artifacts ← setupArtifactsFrom game roster (index + 1) tuples rest
              return ⟨artifact, rank, seat⟩ :: artifacts

/-- `firstSequenceBySenderAndRank`. -/
def firstSequence (artifacts : List SetupArtifact) (sender : IdentityPublicKey) (rank : ℕ) :
    Option ℕ :=
  ((artifacts.filter fun a => a.artifact.from_ = sender ∧ a.rank = rank).map
    fun a => a.artifact.seq).min?

/-- There is a `late` sequence and no smaller `early` one. -/
def outOfOrder (late early : Option ℕ) : Bool :=
  match late, early with
  | some late, some early => decide (late ≤ early)
  | some _, none => true
  | none, _ => false

/-- One sender's check in `requireSenderPhaseOrder`. -/
def checkPhaseOrder (artifacts : List SetupArtifact) (sender : IdentityPublicKey) :
    Except SetupRecoveryError Unit := do
  let key := firstSequence artifacts sender 0
  let commit := firstSequence artifacts sender 1
  let reveal := firstSequence artifacts sender 2
  throwIf (outOfOrder commit key = true) (SetupRecoveryError.committedBeforeKey sender)
  throwIf (outOfOrder reveal commit = true) (SetupRecoveryError.revealedBeforeCommit sender)

/-- `requireSenderPhaseOrder`. -/
def requireSenderPhaseOrder (artifacts : List SetupArtifact) : Except SetupRecoveryError Unit :=
  ((artifacts.map fun a => a.artifact.from_).eraseDups).forM (checkPhaseOrder artifacts)

/-- `compareSetupArtifacts`: by rank, then seat, then sequence. -/
def setupArtifactLe (a b : SetupArtifact) : Prop :=
  a.rank < b.rank ∨ a.rank = b.rank ∧
    (a.seat < b.seat ∨ a.seat = b.seat ∧ a.artifact.seq ≤ b.artifact.seq)

instance : DecidableRel setupArtifactLe := fun _ _ =>
  inferInstanceAs (Decidable (_ ∨ _ ∧ (_ ∨ _ ∧ _)))

/-- The replay loop: every setup envelope must be acceptable. -/
def replaySetup (coordinator : SetupEnvelopeCoordinator P) :
    List SetupArtifact → Except SetupRecoveryError (SetupEnvelopeCoordinator P)
  | [] => .ok coordinator
  | a :: rest => do
      let (result, coordinator) ← (coordinator.process a.artifact).mapError
        SetupRecoveryError.coordinator
      match result with
      | .rejected reason _ seat =>
          throw (SetupRecoveryError.transition a.artifact.type seat a.artifact.seq reason)
      | _ => replaySetup coordinator rest

variable (P) in
/-- `recoverSetup`. -/
def recoverSetup (gameId : GameId) (round : ℕ) (roster : List IdentityPublicKey)
    (transcript : List SignedEnvelope) (beaconRequired : Bool) :
    Except SetupRecoveryError (SetupEnvelopeCoordinator P) := do
  let coordinator ← (SetupEnvelopeCoordinator.start P gameId round roster beaconRequired).mapError
    SetupRecoveryError.coordinator
  let artifacts ← setupArtifactsFrom gameId coordinator.roster 0 [] transcript
  requireSenderPhaseOrder artifacts
  replaySetup coordinator (artifacts.insertionSort setupArtifactLe)

end

end Tablefolk
