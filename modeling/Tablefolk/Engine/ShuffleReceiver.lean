import Tablefolk.Engine.SetupRecovery
import Tablefolk.Engine.ShuffleLedger
import Tablefolk.Session.Capture

/-!
# The durable shuffle receiver

The model of `engine/persistent-candidate-shuffle.ts`.

The receiver joins a shuffle ledger to the session: a shuffle is verified, then kept by the durable
session receiver, and only then does the ledger take it.  An operation awaits the head of the
author, the verifier, the signature, the store and the receipt; at each of them other calls may
come, and `close`.  The verifier is a function of the statement and the proof.

* `openReceiver`: the replay of what the session holds.
* `PersistentCandidateShuffleReceiver.step`: the live receiver.
-/

namespace Tablefolk

/-- What `open` throws. -/
inductive ShuffleReceiverError where
  | message (text : String)
  | setup (error : SetupRecoveryError)
  | ledger (error : ShuffleLedgerError)

/-- `PersistentCandidateShuffleOptions`, apart from the session and the verifier. -/
structure ShuffleReceiverOptions where
  roster : RosterBody
  self : IdentityPublicKey
  setupRound : ℕ
  round : ℕ
  deckSpec : DeckSpec
  historyLimits : SessionHistoryCaptureLimits
  beaconRequired : Bool

/-- `CandidateShuffleSnapshot`.  The receiver never has two with the same fields, so that one is
another object exactly when its fields differ. -/
structure CandidateShuffleSnapshot where
  nextSeat : Option ℕ
  complete : Bool
  deriving DecidableEq

/-- `CandidateShuffleVerifier.verify`; `none` when it throws. -/
abbrev ShuffleVerifier := List UInt8 → List UInt8 → Option Bool

/-- The type of a setup envelope. -/
def SignedEnvelope.isSetup (e : SignedEnvelope) : Bool := (setupTypeRank e.type).isSome

/-- A shuffle of this round. -/
def SignedEnvelope.isContribution (round : ℕ) (e : SignedEnvelope) : Bool :=
  e.type = .SHUFFLE && e.round = round

/-- An envelope of the play of this round. -/
def SignedEnvelope.isLater (round : ℕ) (e : SignedEnvelope) : Bool :=
  e.round = round && (e.type = .SHARES || e.type = .ACTION || e.type = .AUDIT_DISCLOSE)

section

variable {q : ℕ} {G : Type} [AddCommGroup G] [Module (ZMod q) G] [DecidableEq G]
variable (P : Primitives q G) (ed : Ed25519) (hashRosterBody : RosterBody → Hash256)
  (verify : ShuffleVerifier)

/-- The verifier's answer to a shuffle. -/
def verifierAnswer (captured : SignedEnvelope) : Option Bool :=
  match shuffleBody captured.body with
  | .ok (statement, proof) => verify statement proof
  | .error _ => none

/-! ## Replay -/

/-- `accept` without an owner, when nothing comes between. -/
def CandidateShuffleLedger.acceptAlone (ledger : CandidateShuffleLedger G)
    (bytes : SignedEnvelope) : Except ShuffleLedgerError (CandidateShuffleLedger G) := do
  let (pending, ledger) ← ledger.beginAccept P ed hashRosterBody bytes
  match pending.stage with
  | .receiving statement => do
      let (_, ledger) ← ledger.received pending.captured statement true
      return ledger.release
  | .verifying statement => do
      ledger.verified (verifierAnswer verify pending.captured)
      let (_, ledger) ← ledger.received pending.captured (some statement) true
      return ledger.release

/-- The place of a sender in the roster. -/
def RosterBody.seatIndex (roster : RosterBody) (e : SignedEnvelope) : ℕ :=
  roster.seats.idxOf e.from_

variable {P}

/-- The loop over the stored shuffles. -/
def replayContributions (history : CapturedSessionHistory P) (session : SessionChainRegistry P)
    (ledger : CandidateShuffleLedger G) :
    List SignedEnvelope → Except ShuffleReceiverError (CandidateShuffleLedger G)
  | [] => return ledger
  | artifact :: rest => do
      throwIf (∃ a ∈ history.envelopes, a.from_ = artifact.from_ ∧ a.isSetup = true ∧
        artifact.seq ≤ a.seq) (.message "Stored shuffle precedes sender setup")
      let ledger ← (ledger.acceptAlone P ed hashRosterBody verify artifact).mapError .ledger
      throwIf (¬ history.Unchanged session) (.message "Session history heads changed")
      replayContributions history session ledger rest

/-- The loop over the play of the round: it comes after the shuffle of its sender. -/
def checkLater (contributions : List SignedEnvelope) :
    List SignedEnvelope → Except ShuffleReceiverError Unit
  | [] => return ()
  | artifact :: rest =>
      match contributions.find? fun a => a.from_ = artifact.from_ with
      | none => throw (.message "Stored round activity precedes sender shuffle")
      | some own => do
          throwIf (artifact.seq ≤ own.seq)
            (.message "Stored round activity precedes sender shuffle")
          checkLater contributions rest

/-! ## The receiver -/

/-- A shuffle that was prepared for a seat, with the snapshot it was prepared for. -/
structure PreparedShuffle where
  sender : IdentityPublicKey
  seat : ℕ
  statement : List UInt8
  proof : List UInt8
  expected : CandidateShuffleSnapshot

/-- What an operation awaits: the head of the author, the verifier of a prepared proof, the author,
the verifier of the ledger, the store, or nothing more than its turn, with the receipt at hand. -/
inductive ShuffleStage (G : Type) where
  | readingHead
  | proving
  | signing (guarded : Bool)
  | accepting (pending : PendingAccept G) (duplicate : Bool)
  | storing (pending : PendingAccept G) (duplicate : Bool) (before : List ChainHead)
  | stored (pending : PendingAccept G) (duplicate : Bool) (before : List ChainHead)
      (receipt : Except PersistentSessionReceiverError PersistentSessionReceiveResult)

/-- The operation in progress; `prepared` for a call of `author`, `signing` once it has begun to
sign. -/
structure ShuffleOperation (G : Type) where
  prepared : Option PreparedShuffle
  signing : Bool
  stage : ShuffleStage G

variable (P) in
/-- `PersistentCandidateShuffleReceiver`, with its session. -/
structure PersistentCandidateShuffleReceiver where
  options : ShuffleReceiverOptions
  session : SessionChainRegistry P
  ledger : CandidateShuffleLedger G
  checkpoint : CapturedSessionHistory P
  snapshot : CandidateShuffleSnapshot
  operation : Option (ShuffleOperation G)
  closed : Bool
  failed : Bool

/-- How a call ends. -/
inductive ShuffleCallOutcome where
  | accepted | duplicate | rejected | threw
  deriving DecidableEq, Repr

/-- What happens to a receiver. -/
inductive ShuffleReceiverEvent where
  | receive (candidate : SignedEnvelope)
  | author (game : GameId) (sender : IdentityPublicKey) (statement proof : List UInt8)
      (expected : Option CandidateShuffleSnapshot)
  | head (head : Option (Option SignedEnvelope))
  | guarded (head : Option SignedEnvelope)
  | authored (artifact : Option SignedEnvelope)
  | verified
  | stored (outcome : AcceptedEnvelopePersistenceOutcome)
  | resume
  | query
  | close

/-- The snapshot of a ledger. -/
def CandidateShuffleLedger.snapshot (ledger : CandidateShuffleLedger G) :
    CandidateShuffleSnapshot :=
  ⟨ledger.nextSeat, ledger.complete⟩

/-- `PersistentCandidateShuffleReceiver.open`. -/
def openReceiver (options : ShuffleReceiverOptions) (session : SessionChainRegistry P) :
    Except ShuffleReceiverError (PersistentCandidateShuffleReceiver P) := do
  throwIf (MAX_SAFE_INTEGER < options.setupRound) (.message "Invalid setup round")
  throwIf (options.roster.gameId ≠ session.gameId ∨ options.roster.seats.length ≠ 4 ∨
      session.roster.seats.length ≠ 4 ∨ options.roster.seats ≠ session.roster.seats ∨
      options.self ∉ options.roster.seats) (.message "Shuffle session scope mismatch")
  let history ← (captureSessionHistory ed session options.historyLimits).mapError .message
  let setup ← (recoverSetup P options.roster.gameId options.setupRound options.roster.seats
    history.envelopes options.beaconRequired).mapError .setup
  let ledger ← (CandidateShuffleLedger.create
    ⟨setup, options.roster, options.round, options.deckSpec⟩).mapError .ledger
  let contributions := history.envelopes.filter (·.isContribution options.round)
  throwIf (4 < contributions.length) (.message "Too many stored shuffle contributions")
  let contributions := contributions.insertionSort
    fun a b => options.roster.seatIndex a ≤ options.roster.seatIndex b
  let ledger ← replayContributions ed hashRosterBody verify history session ledger contributions
  let later := history.envelopes.filter (·.isLater options.round)
  throwIf (later ≠ [] ∧ ledger.complete = false)
    (.message "Stored round activity lacks a complete shuffle chain")
  checkLater contributions later
  throwIf (¬ history.Unchanged session) (.message "Session history heads changed")
  return ⟨options, session, ledger, history, ledger.snapshot, none, false, false⟩

namespace PersistentCandidateShuffleReceiver

/-- What a step returns: how a call has ended, if one has, and the receiver. -/
abbrev Result (P : Primitives q G) :=
  Option ShuffleCallOutcome × PersistentCandidateShuffleReceiver P

variable (r : PersistentCandidateShuffleReceiver P)

/-- `#fail`. -/
def fail : PersistentCandidateShuffleReceiver P :=
  { r with failed := true, ledger := r.ledger.close }

/-- `close`. -/
def close : PersistentCandidateShuffleReceiver P :=
  { r with closed := true, ledger := r.ledger.close }

/-- `#guard`: whether it does not throw, and the receiver. -/
def guard : Bool × PersistentCandidateShuffleReceiver P :=
  if r.failed = true ∨ r.closed = true then (false, r)
  else if r.checkpoint.Unchanged r.session then (true, r)
  else (false, r.fail)

/-- `#requireHead` does not throw. -/
def headMatches (sender : IdentityPublicKey) (head : Option SignedEnvelope) : Bool :=
  match r.session.heads.find? fun h => h.from_ = sender, head with
  | some expected, some e =>
      decide ((e.seq = expected.seq ∧ P.hashEnvelope e = expected.hash) ∧
        r.session.readRange sender expected.seq expected.seq = .ok (.complete [e]))
  | _, _ => false

/-- The guard of a call of `author`, with the head if one is given. -/
def authorGuard (prepared : PreparedShuffle) (head : Option (Option SignedEnvelope)) :
    Bool × PersistentCandidateShuffleReceiver P :=
  match r.guard with
  | (false, r) => (false, r)
  | (true, r) =>
      if prepared.expected ≠ r.snapshot then (false, r)
      else
        match head with
        | none => (true, r)
        | some head => if r.headMatches prepared.sender head then (true, r) else (false, r.fail)

/-- `finally`: the operation is over. -/
def finish (outcome : ShuffleCallOutcome) : Result P :=
  (some outcome, { r with operation := none })

/-- A call throws; after it has begun to sign the receiver fails. -/
def throws (operation : ShuffleOperation G) : Result P :=
  if operation.signing then r.fail.finish .threw else r.finish .threw

/-- A call ends in a rejection, which is a failure after it has begun to sign. -/
def rejects (operation : ShuffleOperation G) : Result P :=
  if operation.signing then r.fail.finish .threw else r.finish .rejected

/-- `finally` of the ledger. -/
def releaseLedger : PersistentCandidateShuffleReceiver P :=
  { r with ledger := r.ledger.release }

/-- The barrier of the ledger up to the durable receiver. -/
def startReceipt (operation : ShuffleOperation G) (pending : PendingAccept G) (duplicate : Bool) :
    Result P :=
  match r.guard with
  | (false, r) => r.releaseLedger.throws operation
  | (true, r) => (none, { r with
      operation := some { operation with stage := .storing pending duplicate r.session.heads } })

/-- `#receiveOne` up to its first `await`. -/
def receiveOne (operation : ShuffleOperation G) (bytes : SignedEnvelope) : Result P :=
  match r.guard with
  | (false, r) => r.throws operation
  | (true, r) =>
      match r.session.classify bytes with
      | .chain (.accepted _) => enter r false
      | .chain (.duplicate _) => enter r true
      | _ => r.rejects operation
where
  enter (r : PersistentCandidateShuffleReceiver P) (duplicate : Bool) : Result P :=
    match r.ledger.beginAccept P ed hashRosterBody bytes with
    | .error _ => r.throws operation
    | .ok (pending, ledger) =>
        match pending.stage with
        | .verifying _ => (none, { r with
            ledger := ledger
            operation := some { operation with stage := .accepting pending duplicate } })
        | .receiving _ => { r with ledger := ledger }.startReceipt operation pending duplicate

/-- `capture`. -/
def captureEnvelope (candidate : SignedEnvelope) : Except ShuffleLedgerError SignedEnvelope := do
  throwIf (MAX_SHUFFLE_ENVELOPE_BYTES < candidate.byteLength)
    (.message "Invalid shuffle envelope size")
  (verifyArtifact ed candidate).mapError .envelope

/-- `receive`. -/
def receive (candidate : SignedEnvelope) : Result P :=
  match r.guard with
  | (false, r) => (some .threw, r)
  | (true, r) =>
      if r.operation.isSome then (some .threw, r)
      else
        match captureEnvelope ed candidate with
        | .error _ => (some .threw, r)
        | .ok bytes => r.receiveOne ed hashRosterBody ⟨none, false, .readingHead⟩ bytes

/-- The checks of `author` before its first `await`. -/
def prepare (game : GameId) (sender : IdentityPublicKey) (statement proof : List UInt8)
    (expected : Option CandidateShuffleSnapshot) :
    Except ShuffleLedgerError PreparedShuffle :=
  match expected, r.ledger.nextSeat with
  | some expected, some seat => do
      throwIf (expected ≠ r.snapshot) (.message "Stale shuffle preparation")
      throwIf (game ≠ r.options.roster.gameId ∨ sender ≠ r.options.self ∨
        r.options.roster.seats[seat]? ≠ some sender) (.message "Unexpected shuffle author")
      let statement ← (decodeCandidateShuffleStatement36 P statement).mapError .codec
      let _ ← (decodeCandidateShuffleProof36 P proof).mapError .codec
      let statementBytes ← (encodeCandidateShuffleStatement36 P statement).mapError .codec
      r.ledger.requireExtends P hashRosterBody statement
        "Prepared shuffle differs from admitted state"
      return ⟨sender, seat, statementBytes, proof, expected⟩
  | _, _ => throw (.message "Stale shuffle preparation")

/-- `author` up to its first `await`. -/
def author (game : GameId) (sender : IdentityPublicKey) (statement proof : List UInt8)
    (expected : Option CandidateShuffleSnapshot) : Result P :=
  match r.guard with
  | (false, r) => (some .threw, r)
  | (true, r) =>
      if r.operation.isSome then (some .threw, r)
      else
        match r.prepare hashRosterBody game sender statement proof expected with
        | .error _ => (some .threw, r)
        | .ok prepared => (none, { r with operation := some ⟨some prepared, false, .readingHead⟩ })

/-- The head of the author is there, or it could not be read. -/
def onHead (operation : ShuffleOperation G) (prepared : PreparedShuffle)
    (head : Option (Option SignedEnvelope)) : Result P :=
  match head with
  | none => r.throws operation
  | some head =>
      match r.authorGuard prepared (some head) with
      | (false, r) => r.throws operation
      | (true, r) => (none, { r with operation := some { operation with stage := .proving } })

/-- The verifier has answered on a prepared proof. -/
def onProved (operation : ShuffleOperation G) (prepared : PreparedShuffle) : Result P :=
  if verify prepared.statement prepared.proof ≠ some true then r.throws operation
  else
    match r.authorGuard prepared none with
    | (false, r) => r.throws operation
    | (true, r) => (none, { r with
        operation := some ⟨operation.prepared, true, .signing false⟩ })

/-- The author calls the guard with its head. -/
def onGuarded (operation : ShuffleOperation G) (prepared : PreparedShuffle)
    (head : Option SignedEnvelope) : Result P :=
  match r.authorGuard prepared (some head) with
  | (passed, r) => (none, { r with
      operation := some { operation with stage := .signing passed } })

/-- The author has settled; it signs only when its guard has let it. -/
def onAuthored (operation : ShuffleOperation G) (guarded : Bool)
    (artifact : Option SignedEnvelope) : Result P :=
  match guarded, artifact with
  | true, some artifact =>
      match r.guard with
      | (false, r) => r.throws operation
      | (true, r) =>
          match captureEnvelope ed artifact with
          | .error _ => r.throws operation
          | .ok bytes => r.receiveOne ed hashRosterBody operation bytes
  | _, _ => r.throws operation

/-- The verifier of the ledger has answered. -/
def onVerified (operation : ShuffleOperation G) (pending : PendingAccept G) (duplicate : Bool) :
    Result P :=
  match pending.stage, r.ledger.verified (verifierAnswer verify pending.captured) with
  | .verifying statement, .ok () =>
      r.startReceipt operation ⟨pending.captured, .receiving (some statement)⟩ duplicate
  | _, _ => r.releaseLedger.throws operation

/-- The durable receiver does its work. -/
def onStored (operation : ShuffleOperation G) (pending : PendingAccept G) (duplicate : Bool)
    (before : List ChainHead) (outcome : AcceptedEnvelopePersistenceOutcome) : Result P :=
  let (receipt, session) := persistThenIngest ed r.session r.session pending.captured outcome
  (none, { r with
    session := session
    operation := some { operation with stage := .stored pending duplicate before receipt } })

/-- What the session must look like after a receipt. -/
def ReceiptMatches (captured : SignedEnvelope) (duplicate : Bool) (before : List ChainHead) :
    Prop :=
  r.session.heads = (before.map fun h =>
    if duplicate = false ∧ h.from_ = captured.from_ then
      ⟨h.from_, captured.seq, P.hashEnvelope captured⟩
    else h) ∧
  (r.session.classify captured).isDuplicate = true ∧
  r.session.readRange captured.from_ captured.seq captured.seq = .ok (.complete [captured])

instance (captured : SignedEnvelope) (duplicate : Bool) (before : List ChainHead) :
    Decidable (r.ReceiptMatches captured duplicate before) :=
  inferInstanceAs (Decidable (_ ∧ _))

/-- An exception after the durable receiver was called. -/
def receiptFailed (operation : ShuffleOperation G) : Result P :=
  match r.releaseLedger.guard with
  | (false, r) => r.fail.throws operation
  | (true, r) => r.throws operation

/-- The ledger takes the shuffle whose receipt is good. -/
def acceptReceipt (operation : ShuffleOperation G) (pending : PendingAccept G) : Result P :=
  match pending.stage with
  | .verifying _ => r.receiptFailed operation
  | .receiving statement =>
      match r.ledger.received pending.captured statement true with
      | .error _ => r.receiptFailed operation
      | .ok (acceptance, ledger) =>
          match { r with ledger := ledger.release }.guard with
          | (false, r) => r.receiptFailed operation
          | (true, r) =>
              match acceptance with
              | .accepted => { r with snapshot := r.ledger.snapshot }.finish .accepted
              | .duplicate => r.finish .duplicate

/-- The checks on a good receipt. -/
def checkReceipt (operation : ShuffleOperation G) (pending : PendingAccept G) (duplicate : Bool)
    (before : List ChainHead) : Result P :=
  if ¬ r.ReceiptMatches pending.captured duplicate before then r.fail.receiptFailed operation
  else
    match captureSessionHistory ed r.session r.options.historyLimits with
    | .error _ => r.receiptFailed operation
    | .ok checkpoint =>
        match { r with checkpoint := checkpoint }.guard with
        | (false, r) => r.receiptFailed operation
        | (true, r) => r.acceptReceipt operation pending

/-- The rest of the barrier, and of `#receiveOne`. -/
def onResume (operation : ShuffleOperation G) (pending : PendingAccept G) (duplicate : Bool)
    (before : List ChainHead)
    (receipt : Except PersistentSessionReceiverError PersistentSessionReceiveResult) : Result P :=
  match receipt with
  | .error _ => r.receiptFailed operation
  | .ok (.rejected _) | .ok (.durableConflict _) =>
      match r.guard with
      | (false, r) => r.receiptFailed operation
      | (true, r) => r.releaseLedger.rejects operation
  | .ok (.accepted _) | .ok (.duplicate _) =>
      r.checkReceipt ed operation pending duplicate before

/-- One event. -/
def step (event : ShuffleReceiverEvent) : Result P :=
  match event, r.operation with
  | .receive candidate, _ => r.receive ed hashRosterBody candidate
  | .author game sender statement proof expected, _ =>
      r.author hashRosterBody game sender statement proof expected
  | .head head, some ⟨some prepared, signing, .readingHead⟩ =>
      r.onHead ⟨some prepared, signing, .readingHead⟩ prepared head
  | .verified, some ⟨some prepared, signing, .proving⟩ =>
      r.onProved verify ⟨some prepared, signing, .proving⟩ prepared
  | .guarded head, some ⟨some prepared, signing, .signing guarded⟩ =>
      r.onGuarded ⟨some prepared, signing, .signing guarded⟩ prepared head
  | .authored artifact, some ⟨prepared, signing, .signing guarded⟩ =>
      r.onAuthored ed hashRosterBody ⟨prepared, signing, .signing guarded⟩ guarded artifact
  | .verified, some ⟨prepared, signing, .accepting pending duplicate⟩ =>
      r.onVerified verify ⟨prepared, signing, .accepting pending duplicate⟩ pending duplicate
  | .stored outcome, some ⟨prepared, signing, .storing pending duplicate before⟩ =>
      r.onStored ed ⟨prepared, signing, .storing pending duplicate before⟩ pending duplicate before
        outcome
  | .resume, some ⟨prepared, signing, .stored pending duplicate before receipt⟩ =>
      r.onResume ed ⟨prepared, signing, .stored pending duplicate before receipt⟩ pending duplicate
        before receipt
  | .query, _ => (none, r.guard.2)
  | .close, _ => (none, r.close)
  | _, _ => (none, r)

end PersistentCandidateShuffleReceiver

end

end Tablefolk
