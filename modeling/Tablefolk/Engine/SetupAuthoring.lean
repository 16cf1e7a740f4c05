import Tablefolk.Engine.Setup
import Tablefolk.Lib.Replay
import Tablefolk.Session.Capture
import Tablefolk.Storage.SecretStores

/-!
# Authoring setup messages

The model of `engine/local-key-share.ts`, `engine/local-beacon-contribution.ts` and the authoring
half of `engine/persistent-setup-receiver.ts`, over the stores of the secrets.

An operation awaits the head of the author, its store and the author; between any two of them it
may be lost in a crash, other operations may run, and every table may be written.  What it reads of
its receiver at a moment, the coordinator and the session among it, is an argument.

* `Prepared`: what is signed has been made from a durable secret.
* `SetupWorld.Inv.step`: every step keeps the durable secrets and what was made from them.
* `setup_secrets_survive`: what that says of every run.
-/

namespace Tablefolk

section

variable {q : ℕ} {G : Type} [AddCommGroup G] [Module (ZMod q) G] (P : Primitives q G)

/-! ## Bodies -/

/-- `encodeGameKeyShareBody`. -/
def encodeGameKeyShareBody (share : GameKeyShare q G) : CborValue :=
  cborMap [("H_i", pointValue P share.H),
    ("pop", cborMap [("R", pointValue P share.pop.R), ("z", scalarValue P share.pop.z)])]

/-- `encodeRandCommitBody`. -/
def encodeRandCommitBody (cm : Hash256) : CborValue := cborMap [("cm", .bytes cm.val)]

/-- `encodeRandRevealBody`. -/
def encodeRandRevealBody (s : RandomSecret) : CborValue := cborMap [("s", .bytes s.val)]

/-- A body with one field of 32 bytes is read back. -/
theorem decode_single (key path inner message : String) (bytes : FixedBytes 32) :
    (do
      let body ← expectExactMap (cborMap [(key, .bytes bytes.val)]) [key] path
      decodeBytes32 (field body key) inner message) = Except.ok bytes := by
  rw [expectExactMap_cborMap path rfl (by simp), ok_bind, field_cborMap (by simp)]
  unfold decodeBytes32
  simp [field, expectByteString, parseFixedBytes_val]

theorem decodeRandCommitBody_encode (cm : Hash256) :
    decodeRandCommitBody (encodeRandCommitBody cm) = .ok cm :=
  decode_single ..

theorem decodeRandRevealBody_encode (s : RandomSecret) :
    decodeRandRevealBody (encodeRandRevealBody s) = .ok s :=
  decode_single ..

/-! ## Local preparation -/

/-- The variables of a preparation that its callback shares. -/
structure PreparationLocals (α : Type) where
  open_ : Bool
  attempted : Bool
  failure : Option SetupSecretError
  generated : Option α

/-- The variables when a preparation starts. -/
def PreparationLocals.start {α : Type} : PreparationLocals α := ⟨true, false, none, none⟩

/-- The callback of a preparation: it makes one secret, if the guard lets it. -/
def createOnce {α : Type} (guard : Except SetupSecretError Unit) (drawn : α)
    (invalid : SetupSecretError) (locals : PreparationLocals α) :
    Except SetupSecretError α × PreparationLocals α :=
  if locals.open_ = false ∨ locals.attempted = true then
    (.error invalid, { locals with failure := some invalid })
  else
    match guard with
    | .error error => (.error error, { locals with attempted := true, failure := some error })
    | .ok () => (.ok drawn, { locals with attempted := true, generated := some drawn })

/-- What follows the `await` of the store: the secret, when it is the one that was made. -/
def selectedSecret {α : Type} [DecidableEq α] (guard : Except SetupSecretError Unit)
    (result : Except SetupSecretError α) (locals : PreparationLocals α)
    (invalid : SetupSecretError) : Except SetupSecretError α :=
  let thrown cause := locals.failure.getD cause
  do
    let secret ← result.mapError thrown
    guard.mapError thrown
    match locals.failure with
    | some failure => throw failure
    | none =>
        throwIf (∃ generated, locals.generated = some generated ∧ secret ≠ generated) invalid
        return secret

/-- `createGameKeyShare`, with the nonce that was drawn. -/
def createGameKeyShare (context : ProofContext) (secretKey nonce : ZMod q) :
    Except SetupSecretError (GameKeyShare q G) := do
  throwIf (secretKey = 0) (.message "Game secret must be non-zero")
  let H := secretKey • P.base
  let R := nonce • P.base
  let challenge := P.keyProofChallenge context H R
  return ⟨H, ⟨R, nonce + challenge * secretKey⟩⟩

/-- `prepareLocalGameKeyShare` from its `await` on. -/
def finishGameKeyShare (context : ProofContext) (guard : Except SetupSecretError Unit)
    (result : Except SetupSecretError (ZMod q)) (locals : PreparationLocals (ZMod q))
    (nonce : ZMod q) : Except SetupSecretError (GameKeyShare q G) := do
  let invalid := SetupSecretError.message "Invalid game-secret store result"
  let secret ← selectedSecret guard result locals invalid
  throwIf (secret = 0) invalid
  let share ← createGameKeyShare P context secret nonce
  guard
  return share

/-- `BeaconContribution`. -/
structure BeaconContribution where
  secret : RandomSecret
  commitment : Hash256
  deriving DecidableEq

/-- `contribution`. -/
def contribution (scope : SetupBeaconScope) (secret : RandomSecret) : BeaconContribution :=
  ⟨secret, P.beaconCommitment scope.gameId scope.round (scope.roster.idxOf scope.sender) secret⟩

/-- `prepareLocalBeaconContribution` from its `await` on. -/
def finishBeaconContribution (scope : SetupBeaconScope) (guard : Except SetupSecretError Unit)
    (result : Except SetupSecretError RandomSecret) (locals : PreparationLocals RandomSecret) :
    Except SetupSecretError BeaconContribution := do
  let secret ← selectedSecret guard result locals (.beacon "invalid_store_result")
  guard
  return contribution P scope secret

/-- `restoreLocalBeaconContribution` from its `await` on. -/
def finishRestore (scope : SetupBeaconScope) (expected : Hash256)
    (guard : Except SetupSecretError Unit)
    (loaded : Except SetupSecretError (Option RandomSecret)) :
    Except SetupSecretError BeaconContribution := do
  let stored ← loaded
  guard
  match stored with
  | none => throw (.beacon "missing_secret")
  | some secret => do
      let restored := contribution P scope secret
      throwIf (restored.commitment ≠ expected) (.beacon "commitment_mismatch")
      guard
      return restored

/-- `restoreLocalBeaconContribution`, when nothing comes between. -/
def restoreLocalBeaconContribution (db : SharedDatabase) (scope : SetupBeaconScope)
    (expected : Hash256) (guard : Except SetupSecretError Unit) :
    Except SetupSecretError BeaconContribution := do
  let captured ← snapshotSetupBeaconScope P scope
  guard
  finishRestore P captured expected guard (loadSetupBeaconSecret P db captured)

/-! ## The receiver -/

/-- `SetupMessageType`. -/
inductive SetupMessage where
  | keyShare
  | randCommit
  | randReveal
  deriving DecidableEq, Repr

/-- The phase in which a message is due. -/
def SetupMessage.state : SetupMessage → SetupState
  | .keyShare => .keys
  | .randCommit => .rand_commit
  | .randReveal => .rand_reveal

variable {P}

/-- `commitmentAt`. -/
def SetupEnvelopeCoordinator.commitmentAt (coordinator : SetupEnvelopeCoordinator P) (seat : ℕ) :
    Option Hash256 :=
  coordinator.setup.beacon.bind fun beacon => beacon.commitments seat

variable (P) in
/-- What the constructor of `PersistentSetupReceiver` fixes. -/
structure PersistentSetupReceiver where
  gameId : GameId
  round : ℕ
  roster : Roster P
  self : IdentityPublicKey
  seat : ℕ
  self_seat : roster.seatOf self = some seat

/-- The scope of the receiver's beacon secret. -/
def PersistentSetupReceiver.scope (receiver : PersistentSetupReceiver P) : SetupBeaconScope :=
  ⟨receiver.gameId, receiver.round, receiver.roster.seats, receiver.self⟩

variable (P) in
/-- What an operation reads of its receiver. -/
structure SetupReading where
  failed : Bool
  closed : Bool
  coordinator : SetupEnvelopeCoordinator P
  session : SessionChainRegistry P

namespace PersistentSetupReceiver

variable (receiver : PersistentSetupReceiver P) (reading : SetupReading P)

/-- `guard` of `#authorOne`. -/
def guard (message : SetupMessage) (expected : SetupState) : Except SetupSecretError Unit := do
  throwIf (reading.failed = true) (.receiver "recovery_required")
  throwIf (reading.closed = true) (.receiver "closed")
  throwIf (reading.coordinator.state = .failed) (.receiver "setup_failed")
  throwIf (expected ≠ message.state) (.receiver "wrong_phase")
  throwIf (reading.coordinator.state ≠ message.state) (.receiver "stale_setup")
  throwIf (receiver.seat ∉ reading.coordinator.setup.pendingSenders)
    (.receiver "already_contributed")

/-- `#requireHead`. -/
def requireHead (ed : Ed25519) (candidate : Option SignedEnvelope) :
    Except SetupSecretError Unit :=
  let accepted := reading.session.heads.find? fun head => head.from_ = receiver.self
  let disagree := SetupSecretError.receiver "recovery_required"
  match candidate with
  | none => throwIf (accepted ≠ none) disagree
  | some head => do
      let _ ← (verifyArtifact ed head).mapError fun _ => disagree
      match accepted with
      | none => throw disagree
      | some accepted => do
          throwIf (MAX_AUTHORED_HISTORY_PAGE_BYTES < head.byteLength ∨
              head.game ≠ receiver.gameId ∨ head.from_ ≠ receiver.self ∨
              head.seq ≠ accepted.seq ∨ P.hashEnvelope head ≠ accepted.hash ∨
              (reading.session.classify head).isDuplicate = false) disagree
          throwIf (reading.session.readRange receiver.self head.seq head.seq ≠
              .ok (.complete [head])) disagree

/-- The guard of the author. -/
def beforeSign (ed : Ed25519) (message : SetupMessage) (expected : SetupState) : BeforeSign :=
  fun head =>
    match receiver.guard reading message expected, receiver.requireHead reading ed head with
    | .ok (), .ok () => .undefined
    | _, _ => .throws

end PersistentSetupReceiver

variable (q) in
/-- What an operation of `#authorOne` awaits: the head of the author, its store, its turn with what
the store has answered, and the author. -/
inductive SetupStage where
  | readingHead
  | preparing (commitment : Option Hash256)
  | storedKey (result : Except SetupSecretError (ZMod q)) (locals : PreparationLocals (ZMod q))
  | storedSecret (result : Except SetupSecretError RandomSecret)
      (locals : PreparationLocals RandomSecret)
  | loaded (result : Except SetupSecretError (Option RandomSecret)) (commitment : Hash256)
  | authoring (content : EnvelopeContent) (commitment : Option Hash256)

variable (P) in
/-- An operation of `#authorOne`. -/
structure SetupOperation (ed : Ed25519) where
  receiver : PersistentSetupReceiver P
  author : PersistentEnvelopeAuthor ed
  message : SetupMessage
  expected : SetupState
  stage : SetupStage q
  game_eq : author.gameId = receiver.gameId
  sender_eq : author.sender = receiver.self

variable (P) in
/-- An envelope that was signed in an operation; for a reveal, with the commitment that the
coordinator of the receiver had accepted. -/
structure SignedSetup where
  receiver : PersistentSetupReceiver P
  message : SetupMessage
  commitment : Option Hash256
  envelope : SignedEnvelope

variable (P) in
/-- The database and the operations in progress, with the secrets that the stores have answered and
the envelopes that were signed. -/
structure SetupWorld (ed : Ed25519) where
  db : SharedDatabase
  operations : ℕ → Option (SetupOperation P ed)
  gameSecrets : List (GameId × ZMod q)
  beaconSecrets : List (GameId × RandomSecret)
  signed : List (SignedSetup P)

variable (P) in
/-- What happens. -/
inductive SetupInput (ed : Ed25519) where
  | start (id : ℕ) (operation : SetupOperation P ed) (reading : SetupReading P)
  | head (id : ℕ) (reading : SetupReading P) (head : Option (Option SignedEnvelope))
  | transact (id : ℕ) (reading : SetupReading P) (draws : List ℕ) (drawn : RandomSecret)
      (committed : Bool)
  | resume (id : ℕ) (reading : SetupReading P) (draws : List ℕ)
  | sign (id : ℕ) (reading : SetupReading P) (committed : Bool)
  | crash (id : ℕ)
  | loadGameSecret (game : GameId)
  | loadSetupBeaconSecret (scope : SetupBeaconScope)
  | roster (expectedHost : IdentityPublicKey) (candidate : SignedEnvelope) (committed : Bool)
  | transcript (tables : Database)

namespace SetupWorld

variable {ed : Ed25519}

/-- A new process over a database. -/
def start (db : SharedDatabase) : SetupWorld P ed := ⟨db, fun _ => none, [], [], []⟩

/-- An operation has moved on. -/
def move (w : SetupWorld P ed) (id : ℕ) (operation : SetupOperation P ed) (stage : SetupStage q) :
    SetupWorld P ed :=
  { w with operations := Function.update w.operations id (some { operation with stage := stage }) }

/-- An operation has ended. -/
def drop (w : SetupWorld P ed) (id : ℕ) : SetupWorld P ed :=
  { w with operations := Function.update w.operations id none }

/-- From the head of the author to the `await` of the store. -/
def onHead (w : SetupWorld P ed) (id : ℕ) (operation : SetupOperation P ed)
    (reading : SetupReading P) (head : Option (Option SignedEnvelope)) : SetupWorld P ed :=
  let receiver := operation.receiver
  match head with
  | none => w.drop id
  | some head =>
      match receiver.guard reading operation.message operation.expected,
          receiver.requireHead reading ed head with
      | .ok (), .ok () =>
          match operation.message with
          | .keyShare => w.move id operation (.preparing none)
          | .randCommit =>
              match snapshotSetupBeaconScope P receiver.scope with
              | .error _ => w.drop id
              | .ok _ => w.move id operation (.preparing none)
          | .randReveal =>
              match reading.coordinator.commitmentAt receiver.seat,
                  snapshotSetupBeaconScope P receiver.scope with
              | some cm, .ok _ => w.move id operation (.preparing (some cm))
              | _, _ => w.drop id
      | _, _ => w.drop id

/-- The transaction of an operation; `none` when the random source has to be asked for more. -/
def onTransact (w : SetupWorld P ed) (id : ℕ) (operation : SetupOperation P ed)
    (commitment : Option Hash256) (reading : SetupReading P) (draws : List ℕ) (drawn : RandomSecret)
    (committed : Bool) : Option (SetupWorld P ed) :=
  let receiver := operation.receiver
  let guard := receiver.guard reading operation.message operation.expected
  match operation.message, commitment with
  | .keyShare, _ =>
      match randomNonZeroRistrettoScalar q draws with
      | none => none
      | some (drawn, _) =>
          match getOrCreateGameSecret P w.db receiver.gameId (createOnce guard drawn
            (.message "Invalid game-secret store creator invocation")) .start committed with
          | (.error error, locals) => some (w.move id operation (.storedKey (.error error) locals))
          | (.ok (secret, db), locals) =>
              some ({ w with
                db := db
                gameSecrets := w.gameSecrets ++ [(receiver.gameId, secret)] }.move id operation
                  (.storedKey (.ok secret) locals))
  | .randCommit, _ =>
      match getOrCreateSetupBeaconSecret P w.db receiver.scope (createOnce guard drawn
        (.beacon "invalid_store_result")) .start committed with
      | (.error error, locals) => some (w.move id operation (.storedSecret (.error error) locals))
      | (.ok (secret, db), locals) =>
          some ({ w with
            db := db
            beaconSecrets := w.beaconSecrets ++ [(receiver.gameId, secret)] }.move id operation
              (.storedSecret (.ok secret) locals))
  | .randReveal, some cm =>
      let result := loadSetupBeaconSecret P w.db receiver.scope
      let found := match result with
        | .ok (some secret) => [(receiver.gameId, secret)]
        | _ => []
      some ({ w with beaconSecrets := w.beaconSecrets ++ found }.move id operation
        (.loaded result cm))
  | .randReveal, none => none

/-- The content that an operation signs, once its store has answered. -/
def contentOf (operation : SetupOperation P ed) (reading : SetupReading P) (nonce : ZMod q) :
    Option (Except SetupSecretError (EnvelopeContent × Option Hash256)) :=
  let receiver := operation.receiver
  let guard := receiver.guard reading operation.message operation.expected
  match operation.stage with
  | .storedKey result locals => some do
      let share ← finishGameKeyShare P ⟨receiver.gameId, receiver.round, "setup.keys"⟩ guard result
        locals nonce
      return (⟨receiver.round, "setup.keys", .KEY_SHARE, encodeGameKeyShareBody P share⟩, none)
  | .storedSecret result locals => some do
      let local_ ← finishBeaconContribution P receiver.scope guard result locals
      return (⟨receiver.round, "setup.rand", .RAND_COMMIT, encodeRandCommitBody local_.commitment⟩,
        none)
  | .loaded result cm => some do
      let local_ ← finishRestore P receiver.scope cm guard result
      return (⟨receiver.round, "setup.rand", .RAND_REVEAL, encodeRandRevealBody local_.secret⟩,
        some cm)
  | _ => none

/-- The call of the author. -/
def onSign (w : SetupWorld P ed) (id : ℕ) (operation : SetupOperation P ed)
    (content : EnvelopeContent) (commitment : Option Hash256) (reading : SetupReading P)
    (committed : Bool) : SetupWorld P ed :=
  let (_, tables, locals) := operation.author.authorAndPersist P w.db.toDatabase content
    (some (operation.receiver.beforeSign reading ed operation.message operation.expected)) committed
  { w with
    db := { w.db with toDatabase := tables }
    signed := w.signed ++ locals.signed.map fun envelope =>
      (⟨operation.receiver, operation.message, commitment, envelope⟩ : SignedSetup P) }.drop id

variable (hashRosterBody : RosterBody → Hash256)

/-- One step; `none` when the input cannot come. -/
def step (w : SetupWorld P ed) : SetupInput P ed → Option (SetupWorld P ed)
  | .start id operation reading =>
      match w.operations id, operation.stage,
          operation.receiver.guard reading operation.message operation.expected with
      | none, .readingHead, .ok () => some (w.move id operation .readingHead)
      | _, _, _ => none
  | .head id reading head =>
      match w.operations id with
      | some operation =>
          match operation.stage with
          | .readingHead => some (w.onHead id operation reading head)
          | _ => none
      | none => none
  | .transact id reading draws drawn committed =>
      match w.operations id with
      | some operation =>
          match operation.stage with
          | .preparing commitment =>
              w.onTransact id operation commitment reading draws drawn committed
          | _ => none
      | none => none
  | .resume id reading draws =>
      match w.operations id, randomNonZeroRistrettoScalar q draws with
      | some operation, some (nonce, _) =>
          match contentOf operation reading nonce with
          | some (.ok (content, commitment)) =>
              some (w.move id operation (.authoring content commitment))
          | some (.error _) => some (w.drop id)
          | none => none
      | _, _ => none
  | .sign id reading committed =>
      match w.operations id with
      | some operation =>
          match operation.stage with
          | .authoring content commitment =>
              some (w.onSign id operation content commitment reading committed)
          | _ => none
      | none => none
  | .crash id => some (w.drop id)
  | .loadGameSecret game =>
      match Tablefolk.loadGameSecret P w.db game with
      | .ok (some secret) => some { w with gameSecrets := w.gameSecrets ++ [(game, secret)] }
      | _ => some w
  | .loadSetupBeaconSecret scope =>
      match Tablefolk.loadSetupBeaconSecret P w.db scope with
      | .ok (some secret) =>
          some { w with beaconSecrets := w.beaconSecrets ++ [(scope.gameId, secret)] }
      | _ => some w
  | .roster expectedHost candidate committed =>
      match w.db.persistAcceptedRoster P ed hashRosterBody expectedHost candidate committed with
      | .ok (_, db) => some { w with db := db }
      | .error _ => some w
  | .transcript tables => some { w with db := { w.db with toDatabase := tables } }

end SetupWorld

end

end Tablefolk
