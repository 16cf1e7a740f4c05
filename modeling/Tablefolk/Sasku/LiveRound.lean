import Tablefolk.Sasku.Authoring
import Tablefolk.Sasku.Match
import Tablefolk.Sasku.RoundInbox
import Tablefolk.Session.CaptureLimits
import Tablefolk.Lib.OrderedMap
import Tablefolk.Engine.Setup

/-!
# The driver of a match

The model of `apps/web/src/live-round.ts`.  The driver holds received envelopes until they can be
read, opens one round after the other, and makes the contributions of its own seat.  What runs
without an `await` is one step; the session, the setup and the owner of the round are what the
driver reads of them, and may change between any two steps.  The text of an error is not empty, and
the callbacks `changed` and `published` do not throw.

* `choose`: what one turn of the loop does.
* `step`: what happens to the driver.
-/

namespace Tablefolk

/-- `MATCH_HISTORY_LIMITS`. -/
def MATCH_HISTORY_LIMITS : SessionHistoryCaptureLimits := ⟨4096, 64 * 1024 * 1024⟩

/-- The types of the setup. -/
def EnvelopeMessageType.isSetup (type : EnvelopeMessageType) : Bool :=
  type = .KEY_SHARE ∨ type = .RAND_COMMIT ∨ type = .RAND_REVEAL

/-- The types of a round. -/
def EnvelopeMessageType.isRound (type : EnvelopeMessageType) : Bool :=
  type = .SHUFFLE ∨ type = .SHARES ∨ type = .ACTION ∨ type = .AUDIT_DISCLOSE

/-- The result of an audit; a valid one carries the score of a hand. -/
inductive AuditReading where
  | valid (score : SaskuHandScore) (produced : score.Produced)
  | violation (rule : String)

/-- What the driver reads of an audit. -/
structure AuditView where
  pendingSenders : List ℕ
  result : Option AuditReading

/-- What the driver reads of the state of a round; `deal` holds the senders that a deal waits
for. -/
structure RoundStateView where
  deal : Option (List ℕ)
  dealIndex : ℕ
  actionIndex : ℕ
  complete : Bool
  turn : Option ℕ
  audit : Option AuditView

/-- The snapshot of the owner of a round. -/
inductive LiveOwnerSnapshot where
  | shuffle (nextSeat : Option ℕ)
  | round (state : RoundStateView)

/-- What the driver reads of the owner of a round. -/
structure LiveOwnerView where
  snapshot : LiveOwnerSnapshot
  failure : Bool
  pendingEnvelopes : ℕ

/-- What the driver reads of the setup receiver. -/
structure LiveSetupView where
  state : SetupState
  pendingSenders : List ℕ

/-- The status of a receipt. -/
inductive LiveReceipt where
  | accepted | duplicate | gap | rejected
  deriving DecidableEq, Repr

def LiveReceipt.text : LiveReceipt → String
  | .accepted => "accepted" | .duplicate => "duplicate" | .gap => "gap" | .rejected => "rejected"

/-- How an envelope has left the buffer. -/
inductive LiveHanding where
  | classified
  | receipt (status : LiveReceipt)
  deriving DecidableEq, Repr

section

variable {q : ℕ} {G : Type} [AddCommGroup G] [Module (ZMod q) G]

/-- What the driver reads in one turn of its loop; `hand` says whether the owner has the private
hand. -/
structure LiveReads (P : Primitives q G) where
  session : SessionChainRegistry P
  setup : LiveSetupView
  owner : LiveOwnerView
  hand : Bool

/-- What the constructor fixes. -/
structure LiveOptions (P : Primitives q G) where
  game : GameId
  roster : Roster P
  seat : ℕ

/-- An action that was handed in, with the state it was chosen in; `id` is its promise. -/
structure PendingAct where
  id : ℕ
  intent : SaskuActionIntent
  expected : RoundStateView

abbrev LiveKey := IdentityPublicKey × ℕ

/-- Where `#drain` is. -/
inductive LiveTask where
  | idle
  | looping
  | finishing
  | failing (message : String)
  | receiving (key : LiveKey) (received : SignedEnvelope)
  | waiting
  | loading
  | openingFirst
  | openingNext
  | keyShare
  | proving
  | shuffling
  | dealing
  | acting (act : PendingAct)
  | auditing

namespace LiveTask

def isIdle : LiveTask → Bool
  | .idle => true
  | _ => false

/-- The loop has ended. -/
def halted : LiveTask → Bool
  | .idle | .finishing => true
  | _ => false

/-- The round before the present one may still have the owner. -/
def between : LiveTask → Bool
  | .openingNext | .failing _ => true
  | _ => false

/-- An own contribution is being made. -/
def contributing : LiveTask → Bool
  | .keyShare | .shuffling | .dealing | .acting _ | .auditing => true
  | _ => false

/-- The action that is being made. -/
def act : LiveTask → List PendingAct
  | .acting act => [act]
  | _ => []

end LiveTask

/-- `LiveRound`.  `owner` is the round that the owner was opened for, and `view` the state of
`#view`.  What follows `error` is what has happened so far: the envelopes that were admitted and
those that left the buffer, the promises of actions that were handed out and those that were
settled, the rounds that everyone was ready to leave, the valid audits with the round of their
owner, what the last turn of the loop has read, and whether an update has thrown outside the
loop. -/
structure LiveRound (P : Primitives q G) where
  pending : OrderedMap LiveKey SignedEnvelope
  bytes : ℕ
  owner : Option ℕ
  matchState : SaskuMatchState
  roundReady : ℕ
  secret : Bool
  connected : Bool
  task : LiveTask
  again : Bool
  closed : Bool
  action : Option PendingAct
  view : Option RoundStateView
  error : Option String
  admitted : List SignedEnvelope
  handed : List (SignedEnvelope × LiveHanding)
  acts : ℕ
  settled : List (ℕ × Bool)
  readyRounds : List ℕ
  audits : List (ℕ × SaskuHandScore)
  last : Option (LiveReads P)
  threw : Bool

variable {P : Primitives q G}

namespace LiveRound

/-- `new LiveRound(options)`. -/
def create : LiveRound P where
  pending := .empty
  bytes := 0
  owner := none
  matchState := INITIAL_SASKU_MATCH
  roundReady := 0
  secret := false
  connected := false
  task := .looping
  again := false
  closed := false
  action := none
  view := none
  error := none
  admitted := []
  handed := []
  acts := 0
  settled := []
  readyRounds := []
  audits := []
  last := none
  threw := false

/-- Neither closed nor failed. -/
def live (s : LiveRound P) : Bool := !s.closed && s.error.isNone

/-- `#kick`. -/
def kick (s : LiveRound P) : LiveRound P :=
  { s with
    task := if s.live && s.task.isIdle then .looping else s.task
    again := if s.live && !s.task.isIdle then true else s.again }

/-- The state of the round, as `#update` reads it. -/
def stateOf (s : LiveRound P) (reads : LiveReads P) : Option RoundStateView :=
  match s.owner, reads.owner.snapshot with
  | some _, .round state => some state
  | _, _ => none

/-- `#update` asks for the private hand, and the owner does not have it. -/
def updateThrows (s : LiveRound P) (reads : LiveReads P) : Bool :=
  !s.closed && s.error.isNone && !reads.owner.failure && s.secret && !reads.hand &&
    reads.owner.pendingEnvelopes == 0 &&
    match s.stateOf reads with
    | some state => state.deal.isNone
    | none => false

/-- `#update`, when it does not throw. -/
def update (s : LiveRound P) (reads : LiveReads P) : LiveRound P :=
  { s with view := if s.closed then s.view else s.stateOf reads }

/-- `connected`. -/
def setConnected (s : LiveRound P) (value : Bool) (reads : LiveReads P) : LiveRound P :=
  if s.connected = value then s
  else
    let s := { s with connected := value }
    if s.updateThrows reads then { s with threw := true } else (s.update reads).kick

/-- The round that is ready, when it is the present one. -/
def readyValue (s : LiveRound P) (round : ℕ) : ℕ := if round = s.matchState.round then round else 0

/-- `roundReady`. -/
def setRoundReady (s : LiveRound P) (round : ℕ) : LiveRound P :=
  if s.closed then s
  else if s.roundReady = s.readyValue round then s
  else
    { s with
      roundReady := s.readyValue round
      readyRounds := s.readyRounds ++ [s.readyValue round] }.kick

/-- The driver with one more envelope. -/
def withEnvelope (s : LiveRound P) (remote : IdentityPublicKey) (e : SignedEnvelope) :
    LiveRound P :=
  { s with
    pending := s.pending.set (remote, e.seq) e
    bytes := s.bytes + e.byteLength
    admitted := s.admitted ++ [e] }

/-- `receive`, once the chain of the sender may take the envelope. -/
def enqueue (s : LiveRound P) (remote : IdentityPublicKey) (size : ℕ) (e : SignedEnvelope) :
    Except String (LiveRound P) := do
  throwIf ((if e.type.isSetup then e.round ≠ 0
      else e.round < 1 ∨ MAX_SASKU_MATCH_ROUNDS < e.round) ∨
      (e.type.isSetup || e.type.isRound) = false)
    "Unsupported match traffic"
  throwIf (e.type.isSetup = false ∧
      (s.matchState.winner ≠ none ∨ e.round < s.matchState.round))
    "Match traffic arrived after its round ended"
  match s.pending.get? (remote, e.seq) with
  | some prior =>
      throwIf (prior ≠ e) "Conflicting pending envelope"
      return s
  | none =>
      throwIf (256 ≤ s.pending.size ∨ 4 * 1024 * 1024 < s.bytes + size)
        "Round receive budget exceeded"
      return (s.withEnvelope remote e).kick

/-- `receive`. -/
def receive (o : LiveOptions P) (s : LiveRound P) (remote : IdentityPublicKey)
    (payload : InboxPayload) (session : SessionChainRegistry P) :
    Except String (LiveRound P) := do
  throwIf (s.live = false) (s.error.getD "Round is closed")
  throwIf (64 * 1024 < payload.size) "Round envelope exceeds limit"
  match payload.envelope with
  | none => throw "Invalid envelope"
  | some e =>
      throwIf (e.from_ ≠ remote ∨ e.game ≠ o.game ∨ session.roster.seatOf remote = none)
        "Wrong round sender"
      match session.classify e with
      | .chain (.duplicate _) => return s
      | .chain (.broken_prev _ _) => throw "Round chain rejected: broken_prev"
      | .chain (.equivocation _) => throw "Round chain rejected: equivocation"
      | .chain (.wrong_sender _ _) => throw "Round chain rejected: wrong_sender"
      | .wrong_game _ _ => throw "Round chain rejected: wrong_game"
      | .unknown_sender _ => throw "Round chain rejected: unknown_sender"
      | .chain (.accepted _) | .chain (.gap _ _) => s.enqueue remote payload.size e

/-- `act`: the promise is refused at once, or is handed out. -/
def act (o : LiveOptions P) (s : LiveRound P) (intent : SaskuActionIntent) :
    Except String (LiveRound P) :=
  match s.view with
  | none => .error "Wait for your turn and all four connections"
  | some state =>
      if s.matchState.winner ≠ none ∨ s.connected = false ∨ s.action.isSome ∨ s.live = false ∨
          state.turn ≠ some o.seat then
        .error "Wait for your turn and all four connections"
      else
        .ok { s with
          action := some ⟨s.acts, intent, state⟩
          acts := s.acts + 1 }.kick

/-- The type that the setup waits for. -/
def setupType : SetupState → Option EnvelopeMessageType
  | .keys => some .KEY_SHARE
  | .rand_commit => some .RAND_COMMIT
  | .rand_reveal => some .RAND_REVEAL
  | .complete | .failed => none

/-- The phase `round.⟨round⟩.⟨part⟩.⟨index⟩`. -/
def phaseOf (round : ℕ) (part : String) (index : ℕ) : String :=
  "round." ++ toString round ++ "." ++ part ++ "." ++ toString index

/-- `#eligible`, after the classification. -/
def expects (s : LiveRound P) (reads : LiveReads P) (e : SignedEnvelope) : Bool :=
  if e.round ≠ (if e.type.isSetup then 0 else s.matchState.round) then false
  else
    match s.owner with
    | none => setupType reads.setup.state = some e.type
    | some _ =>
        match reads.owner.snapshot with
        | .shuffle nextSeat =>
            e.type == .SHUFFLE && match nextSeat with
              | some seat => e.phase == phaseOf s.matchState.round "shuffle" seat
              | none => e.phase == "round." ++ toString s.matchState.round ++ ".shuffle.null"
        | .round state =>
            match e.type with
            | .SHARES => e.phase == phaseOf s.matchState.round "deal" state.dealIndex
            | .ACTION =>
                state.deal.isNone && e.phase == phaseOf s.matchState.round "play" state.actionIndex
            | .AUDIT_DISCLOSE => state.complete
            | _ => false

/-- `#eligible`. -/
def eligible (s : LiveRound P) (reads : LiveReads P) (e : SignedEnvelope) : Bool :=
  match reads.session.classify e with
  | .chain (.gap _ _) => false
  | .chain (.accepted _) => s.expects reads e
  | _ => true

/-- What a turn of the loop does. -/
inductive LiveChoice where
  | drop (key : LiveKey) (e : SignedEnvelope)
  | receive (key : LiveKey) (e : SignedEnvelope)
  | openFirst
  | record (score : SaskuHandScore) (next : SaskuMatchState)
  | author (task : LiveTask)
  | fail (message : String)
  | stop

/-- What is left to do when nothing was received: nothing after a win or without connections. -/
def attend (s : LiveRound P) (choice : LiveChoice) : LiveChoice :=
  if s.matchState.winner ≠ none ∨ s.connected = false then .stop else choice

/-- The contributions of the own seat to a round. -/
def contribute (o : LiveOptions P) (s : LiveRound P) (state : RoundStateView) : LiveChoice :=
  if o.seat ∈ state.deal.getD [] then .author .dealing
  else
    match s.action with
    | some action => .author (.acting action)
    | none =>
        match state.audit with
        | some audit =>
            if state.complete ∧ o.seat ∈ audit.pendingSenders then .author .auditing else .stop
        | none => .stop

/-- What a turn of the loop does once nothing is eligible. -/
def proceed (o : LiveOptions P) (s : LiveRound P) (reads : LiveReads P) : LiveChoice :=
  match s.owner with
  | none =>
      if reads.setup.state = .complete then .openFirst
      else s.attend <|
        if o.seat ∉ reads.setup.pendingSenders then .stop
        else if reads.setup.state = .keys then .author .keyShare
        else .fail "Local setup contribution failed"
  | some _ =>
      match reads.owner.snapshot with
      | .shuffle nextSeat =>
          s.attend (if nextSeat = some o.seat then .author .proving else .stop)
      | .round state =>
          match state.audit.bind AuditView.result with
          | some (.violation rule) =>
              .fail ("Round " ++ toString s.matchState.round ++ " audit found a " ++ rule ++
                " violation")
          | some (.valid score _) =>
              if s.matchState.completed.length < s.matchState.round then
                if s.roundReady ≠ s.matchState.round then .stop
                else
                  match (do
                    let dealer ← dealerForSaskuRound s.matchState.round
                    recordSaskuRound s.matchState dealer score) with
                  | .ok next => .record score next
                  | .error message => .fail message
              else s.attend (s.contribute o state)
          | none => s.attend (s.contribute o state)

/-- What a turn of the loop does. -/
def choose (o : LiveOptions P) (s : LiveRound P) (reads : LiveReads P) : LiveChoice :=
  match s.pending.entries.find? fun entry => s.eligible reads entry.2 with
  | some (key, e) =>
      if (reads.session.classify e).isDuplicate then .drop key e else .receive key e
  | none => s.proceed o reads

/-- The rounds of one chain in `#validateMatchHistory`, with the highest round so far. -/
def checkRounds (prior highest : ℕ) : List SignedEnvelope → Except String ℕ
  | [] => .ok highest
  | e :: rest =>
      if e.type.isRound = false then checkRounds prior highest rest
      else if e.round < 1 ∨ MAX_SASKU_MATCH_ROUNDS < e.round ∨ e.round < prior then
        .error "Saved match contains out-of-order or unsupported rounds"
      else checkRounds e.round (max highest e.round) rest

/-- The owner has read a valid audit. -/
def auditComplete (s : LiveRound P) (reads : LiveReads P) : Bool :=
  match (s.stateOf reads).bind RoundStateView.audit with
  | some ⟨_, some (.valid _ _)⟩ => true
  | _ => false

/-- `#validateMatchHistory`. -/
def validateMatchHistory (ed : Ed25519) (s : LiveRound P) (reads : LiveReads P) :
    Except String Unit := do
  let history ← captureSessionHistory ed reads.session MATCH_HISTORY_LIMITS
  let highest ← (List.range history.roster.size).foldlM
    (fun highest seat => checkRounds 0 highest (history.bySeat seat)) 0
  throwIf (s.matchState.round < highest ∧
      (s.matchState.winner ≠ none ∨ s.auditComplete reads = false))
    "Saved match advances before the current round is verified"

/-- An exception inside `#drain`. -/
def throws (s : LiveRound P) (message : String) : LiveRound P :=
  { s with task := .failing message }

/-- Take an envelope out of the buffer. -/
def remove (s : LiveRound P) (key : LiveKey) (e : SignedEnvelope) (handing : LiveHanding) :
    LiveRound P :=
  { s with
    pending := s.pending.delete key
    bytes := s.bytes - e.byteLength
    handed := s.handed ++ [(e, handing)]
    task := .looping }

/-- The owner of a round is there. -/
def opened (ed : Ed25519) (s : LiveRound P) (reads : LiveReads P) : LiveRound P :=
  let s := { s with owner := some s.matchState.round }
  match s.validateMatchHistory ed reads with
  | .ok _ => { s with task := .looping }
  | .error message => s.throws message

/-- A round is recorded. -/
def record (ed : Ed25519) (s : LiveRound P) (reads : LiveReads P) (score : SaskuHandScore)
    (next : SaskuMatchState) : LiveRound P :=
  let s := { s with
    matchState := next
    roundReady := 0
    audits := s.audits ++ [(s.owner.getD 0, score)] }
  if next.winner = none then { s with task := .openingNext }
  else
    match s.validateMatchHistory ed reads with
    | .ok _ => { s with task := .finishing, last := some reads }
    | .error message => s.throws message

/-- One turn of the loop of `#drain`, up to its `await`. -/
def turn (o : LiveOptions P) (ed : Ed25519) (s : LiveRound P) (reads : LiveReads P) :
    LiveRound P :=
  if s.live = false then { s with task := .finishing }
  else if s.updateThrows reads then s.throws "Private hand is unavailable"
  else
    let s := s.update reads
    match s.choose o reads with
    | .drop key e => s.remove key e .classified
    | .receive key e => { s with task := .receiving key e }
    | .openFirst => { s with task := .waiting }
    | .record score next => s.record ed reads score next
    | .author (.acting action) => { s with task := .acting action, action := none }
    | .author task => { s with task := task }
    | .fail message => s.throws message
    | .stop => { s with task := .finishing, last := some reads }

/-- How an `await` ends. -/
inductive LiveReply (P : Primitives q G) where
  | threw (message : String)
  | receipt (status : LiveReceipt)
  | idle
  | secret (matchesSetup : Option Bool)
  | opened (reads : LiveReads P)
  | proved

/-- After an `await` of an own contribution: it was accepted, or the drain throws. -/
def contributed (s : LiveRound P) (reply : LiveReply P) (message : LiveReceipt → String) :
    LiveRound P :=
  match reply with
  | .threw message => s.throws message
  | .receipt .accepted => { s with task := .looping }
  | .receipt status => s.throws (message status)
  | _ => s

/-- `accepted`. -/
def contributionFailed (status : LiveReceipt) : String :=
  "Local round contribution failed: " ++ status.text

/-- After the `await` of an action: its promise is settled, and the drain throws when the owner has
failed. -/
def acted (s : LiveRound P) (action : PendingAct) (reply : LiveReply P) (failure : Bool) :
    LiveRound P :=
  match reply with
  | .threw message =>
      { s with
        settled := s.settled ++ [(action.id, false)]
        task := if failure then .failing message else .looping }
  | .receipt .accepted => { s with settled := s.settled ++ [(action.id, true)], task := .looping }
  | .receipt status =>
      { s with
        settled := s.settled ++ [(action.id, false)]
        task := if failure then .failing (contributionFailed status) else .looping }
  | _ => s

/-- After an `await` of the loop; `failure` says that the owner has failed. -/
def answer (ed : Ed25519) (s : LiveRound P) (reply : LiveReply P) (failure : Bool) :
    LiveRound P :=
  match s.task with
  | .idle | .looping | .finishing | .failing _ => s
  | .receiving key e =>
      match reply with
      | .threw message => s.throws message
      | .receipt .accepted => s.remove key e (.receipt .accepted)
      | .receipt .duplicate => s.remove key e (.receipt .duplicate)
      | .receipt status => s.throws ("Round receipt failed: " ++ status.text)
      | _ => s
  | .waiting =>
      match reply with
      | .threw message => s.throws message
      | .idle => { s with task := .loading }
      | _ => s
  | .loading =>
      match reply with
      | .threw message => s.throws message
      | .secret none =>
          s.throws "The saved private game key is missing; it will not be regenerated"
      | .secret (some false) =>
          { s with secret := true }.throws
            "The saved private game key does not match the signed setup"
      | .secret (some true) => { s with secret := true, task := .openingFirst }
      | _ => s
  | .openingFirst | .openingNext =>
      match reply with
      | .threw message => s.throws message
      | .opened reads => s.opened ed reads
      | _ => s
  | .keyShare => s.contributed reply fun _ => "Local setup contribution failed"
  | .proving =>
      match reply with
      | .threw message => s.throws message
      | .proved => { s with task := if s.closed then .finishing else .shuffling }
      | _ => s
  | .shuffling => s.contributed reply fun _ => "Local shuffle failed"
  | .dealing | .auditing => s.contributed reply contributionFailed
  | .acting action => s.acted action reply failure

/-- The promise of the pending action is rejected. -/
def rejectAction (s : LiveRound P) : LiveRound P :=
  { s with
    action := none
    settled := s.settled ++ s.action.toList.map fun action => (action.id, false) }

/-- The `catch` after `#drain`. -/
def caught (s : LiveRound P) : LiveRound P :=
  match s.task with
  | .failing message =>
      { s.rejectAction with
        error := if s.closed then s.error else some message
        task := .finishing }
  | _ => s

/-- The `finally` after `#drain`. -/
def ended (s : LiveRound P) (reads : LiveReads P) : LiveRound P :=
  match s.task with
  | .finishing =>
      let s := { s with task := .idle }
      if s.updateThrows reads then { s with threw := true }
      else if s.again then { s.update reads with again := false }.kick else s.update reads
  | _ => s

/-- `close`, up to its `await`. -/
def close (s : LiveRound P) : LiveRound P := { s with closed := true }

/-- `close`, once nothing is running any more. -/
def closing (s : LiveRound P) : LiveRound P :=
  if s.closed && s.task.isIdle then s.rejectAction else s

end LiveRound

/-- What happens to the driver. -/
inductive LiveEvent (P : Primitives q G) where
  | connected (value : Bool) (reads : LiveReads P)
  | roundReady (round : ℕ)
  | receive (remote : IdentityPublicKey) (payload : InboxPayload)
      (session : SessionChainRegistry P)
  | act (intent : SaskuActionIntent)
  | turn (reads : LiveReads P)
  | answer (reply : LiveRound.LiveReply P) (failure : Bool)
  | caught
  | ended (reads : LiveReads P)
  | close
  | closing

namespace LiveRound

/-- One step; what throws, and what cannot happen, changes nothing. -/
def step (o : LiveOptions P) (ed : Ed25519) (s : LiveRound P) : LiveEvent P → LiveRound P
  | .connected value reads => s.setConnected value reads
  | .roundReady round => s.setRoundReady round
  | .receive remote payload session =>
      match s.receive o remote payload session with
      | .ok next => next
      | .error _ => s
  | .act intent =>
      match s.act o intent with
      | .ok next => next
      | .error _ => s
  | .turn reads =>
      match s.task with
      | .looping => s.turn o ed reads
      | _ => s
  | .answer reply failure => s.answer ed reply failure
  | .caught => s.caught
  | .ended reads => s.ended reads
  | .close => s.close
  | .closing => s.closing

/-- The steps one after the other. -/
def run (o : LiveOptions P) (ed : Ed25519) (s : LiveRound P) (events : List (LiveEvent P)) :
    LiveRound P :=
  events.foldl (step o ed) s

end LiveRound

end

end Tablefolk
