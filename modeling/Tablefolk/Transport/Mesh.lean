import Tablefolk.Lib.Trace
import Tablefolk.Protocol.Envelope

/-!
# The authenticated mesh

The model of the peer sessions of `transport/authenticated-mesh.ts`.

A session is bound to one data channel of one peer.  Its channel, the synchronizer of the
application, its timer and its receive queue call it back in any order, also after it has ended;
`registered` says whether the mesh still has it under its peer.  A handler of the application that
runs inside a callback may call the mesh again: what it does there are later events, and whether it
throws is an argument.

* `PeerSession.Permitted`: what must and must not have happened to a session before an effect.
* `PeerSession.Gated`: the log of a session is lawful, and its state says what is in it.
-/

namespace Tablefolk

/-! ## Sessions -/

/-- `PeerSession.phase`. -/
inductive SessionPhase where
  | connecting | authenticating | synchronizing | ready | closed
  deriving DecidableEq, Repr

/-- The promise `ready`. -/
inductive ReadyPromise where
  | pending | resolved | rejected
  deriving DecidableEq, Repr

/-- Where the head of the receive queue is: its callback has not run, its handler runs, or only
its `finally` is left. -/
inductive QueueStage where
  | waiting | handling | settled
  deriving DecidableEq, Repr

/-- Where the synchronizer is: it has not been called or has not resolved,
`#finishSynchronization` awaits a receive queue or is in its call of `onPeerReady`, or all of it is
over. -/
inductive SynchronizerStage where
  | idle
  | running
  | racing (queue : ℕ)
  | announcing
  | settled
  deriving DecidableEq, Repr

/-- What a session does to others, or they to it. -/
inductive MeshEffect where
  | authenticated
  | synchronized
  | ready
  | received (payload : List UInt8)
  | handled (payload : List UInt8)
  | delivered (payload : List UInt8)
  | sent (payload : List UInt8)
  | contextSent (payload : List UInt8)
  | handlerInstalled (handler : ℕ)
  | resolved
  | rejected
  | ended
  deriving DecidableEq

/-- A payload in the receive queue, with the handler that was installed when it came. -/
structure QueuedPayload where
  payload : List UInt8
  handler : ℕ

/-- The limits of the receive queue. -/
structure MeshOptions where
  maxQueuedSynchronizationMessages : ℕ
  maxQueuedSynchronizationBytes : ℕ

/-- `PeerSession`.  `receiveQueue` are the links of the promise that have not settled and `enqueued`
says which promise it is; handlers are numbered; `log` is what has happened. -/
structure PeerSession where
  remote : IdentityPublicKey
  generation : ℕ
  phase : SessionPhase
  authenticatedChannel : Bool
  synchronizationHandler : Option ℕ
  receiveQueue : List QueuedPayload
  head : QueueStage
  enqueued : ℕ
  queuedMessages : ℕ
  queuedBytes : ℕ
  timer : Bool
  ready : ReadyPromise
  synchronizer : SynchronizerStage
  log : List MeshEffect

/-- What happens to a session. -/
inductive SessionEvent where
  /-- The channel opens; the argument says whether its authentication could be set up. -/
  | opened (created : Bool)
  | channelClosed
  | channelFailed
  | authenticated
  | contextSend (payload : List UInt8)
  | contextOnMessage (handler : ℕ)
  | synchronizerResolved
  | synchronizerRejected
  | raceSettled
  | announced (threw : Bool)
  | timedOut
  | payload (payload : List UInt8) (threw : Bool)
  | queueTurn
  | handlerSettled (fulfilled : Bool)
  | handlerReleased
  | queueFinally

namespace PeerSession

/-- The bytes of the queued payloads. -/
def bytesOf (queue : List QueuedPayload) : ℕ := (queue.map fun queued => queued.payload.length).sum

/-- A new session. -/
def start (remote : IdentityPublicKey) (generation : ℕ) : PeerSession :=
  ⟨remote, generation, .connecting, false, none, [], .waiting, 0, 0, 0, false, .pending, .idle, []⟩

def emit (s : PeerSession) (effect : MeshEffect) : PeerSession :=
  { s with log := s.log ++ [effect] }

/-- `resolveReady`. -/
def resolveReady (s : PeerSession) : PeerSession :=
  match s.ready with
  | .pending => { s.emit .resolved with ready := .resolved }
  | _ => s

/-- `rejectReady`. -/
def rejectReady (s : PeerSession) : PeerSession :=
  match s.ready with
  | .pending => { s.emit .rejected with ready := .rejected }
  | _ => s

/-- `#discardSession`. -/
def discard (s : PeerSession) : PeerSession :=
  if s.phase = .closed then s
  else
    { s.emit .ended with
      phase := .closed
      timer := false
      synchronizationHandler := none }.rejectReady

/-- `#isCurrent`. -/
def isCurrent (registered : Bool) (s : PeerSession) : Prop :=
  registered = true ∧ s.phase ≠ .closed

/-- `#requireSynchronizing` does not throw. -/
def isSynchronizing (registered : Bool) (s : PeerSession) : Prop :=
  s.isCurrent registered ∧ s.phase = .synchronizing

instance (registered : Bool) (s : PeerSession) : Decidable (s.isCurrent registered) :=
  inferInstanceAs (Decidable (_ ∧ _))

instance (registered : Bool) (s : PeerSession) : Decidable (s.isSynchronizing registered) :=
  inferInstanceAs (Decidable (_ ∧ _))

/-- `#failSession`. -/
def failSession (registered : Bool) (s : PeerSession) : PeerSession :=
  if s.isCurrent registered then s.discard else s

/-- `#beginAuthentication`. -/
def beginAuthentication (registered created : Bool) (s : PeerSession) : PeerSession :=
  if ¬ s.isCurrent registered ∨ s.phase ≠ .connecting then s
  else if created then { s with phase := .authenticating, authenticatedChannel := true }
  else { s with phase := .authenticating }.failSession registered

/-- `#beginSynchronization`, up to its call of the synchronizer. -/
def beginSynchronization (registered : Bool) (s : PeerSession) : PeerSession :=
  if ¬ s.isCurrent registered ∨ s.phase ≠ .authenticating then s
  else { s with phase := .synchronizing, timer := true, synchronizer := .running }

/-- The head of the loop of `#finishSynchronization`. -/
def finishTurn (registered : Bool) (s : PeerSession) : PeerSession :=
  if s.isSynchronizing registered then { s with synchronizer := .racing s.enqueued }
  else { s with synchronizer := .settled }.failSession registered

/-- `#finishSynchronization` after the queue it waited for, or the promise `ready`, has settled. -/
def finishSynchronization (registered : Bool) (queue : ℕ) (s : PeerSession) : PeerSession :=
  if ¬ s.isSynchronizing registered then
    { s with synchronizer := .settled }.failSession registered
  else if queue ≠ s.enqueued then s.finishTurn registered
  else { s.emit .ready with
    timer := false
    synchronizationHandler := none
    phase := .ready
    synchronizer := .announcing }

/-- `#receive`, where an exception fails the channel. -/
def receive (options : MeshOptions) (registered : Bool) (payload : List UInt8) (threw : Bool)
    (s : PeerSession) : PeerSession :=
  if ¬ s.isCurrent registered then s
  else if s.phase = .ready then
    if threw then (s.emit (.delivered payload)).failSession registered
    else s.emit (.delivered payload)
  else if ¬ s.isSynchronizing registered then s.failSession registered
  else
    match s.synchronizationHandler with
    | none => s.failSession registered
    | some handler =>
        if options.maxQueuedSynchronizationMessages ≤ s.queuedMessages ∨
            options.maxQueuedSynchronizationBytes < s.queuedBytes + payload.length then
          s.failSession registered
        else
          { s with
            queuedMessages := s.queuedMessages + 1
            queuedBytes := s.queuedBytes + payload.length
            receiveQueue := s.receiveQueue ++ [⟨payload, handler⟩]
            enqueued := s.enqueued + 1 }

/-- The callback of the head of the receive queue. -/
def queueTurn (registered : Bool) (s : PeerSession) : PeerSession :=
  match s.receiveQueue, s.head with
  | queued :: _, .waiting =>
      if s.isSynchronizing registered then
        { s.emit (.handled queued.payload) with head := .handling }
      else { s with head := .settled }.failSession registered
  | _, _ => s

/-- `finally` of the head of the receive queue. -/
def queueFinally (s : PeerSession) : PeerSession :=
  match s.receiveQueue, s.head with
  | queued :: rest, .settled =>
      { s with
        receiveQueue := rest
        head := .waiting
        queuedMessages := s.queuedMessages - 1
        queuedBytes := s.queuedBytes - queued.payload.length }
  | _, _ => s

/-- The first payloads of the receive queue have settled, so many as there were when
`#finishSynchronization` looked. -/
def queueSettled (s : PeerSession) (queue : ℕ) : Prop := queue + s.receiveQueue.length ≤ s.enqueued

instance (s : PeerSession) (queue : ℕ) : Decidable (s.queueSettled queue) :=
  inferInstanceAs (Decidable (_ ≤ _))

/-- `send` through this session. -/
def send (payload : List UInt8) (s : PeerSession) : PeerSession :=
  if s.phase = .ready ∧ s.authenticatedChannel = true then s.emit (.sent payload) else s

/-- One event. -/
def step (options : MeshOptions) (registered : Bool) (s : PeerSession) :
    SessionEvent → PeerSession
  | .opened created => s.beginAuthentication registered created
  | .channelClosed => if s.phase = .connecting then s.failSession registered else s
  | .channelFailed => s.failSession registered
  | .authenticated =>
      if s.authenticatedChannel = true then
        (s.emit .authenticated).beginSynchronization registered
      else s
  | .contextSend payload =>
      if s.isSynchronizing registered then s.emit (.contextSent payload) else s
  | .contextOnMessage handler =>
      if s.isSynchronizing registered then
        { s.emit (.handlerInstalled handler) with synchronizationHandler := some handler }
      else s
  | .synchronizerResolved =>
      if s.synchronizer = .running then
        (s.emit .synchronized).finishTurn registered
      else s
  | .synchronizerRejected =>
      if s.synchronizer = .running then
        { s with synchronizer := .settled }.failSession registered
      else s
  | .raceSettled =>
      match s.synchronizer with
      | .racing queue =>
          if s.queueSettled queue ∨ s.ready ≠ .pending then
            s.finishSynchronization registered queue
          else s
      | _ => s
  | .announced threw =>
      if s.synchronizer = .announcing then
        if threw then { s with synchronizer := .settled }.failSession registered
        else if s.isCurrent registered then { s with synchronizer := .settled }.resolveReady
        else { s with synchronizer := .settled }
      else s
  | .timedOut => if s.timer = true then s.failSession registered else s
  | .payload payload threw =>
      (s.emit (.received payload)).receive options registered payload threw
  | .queueTurn => s.queueTurn registered
  | .handlerSettled fulfilled =>
      if s.head = .handling then
        if fulfilled then { s with head := .settled }
        else { s with head := .settled }.failSession registered
      else s
  | .handlerReleased =>
      if s.head = .handling ∧ s.ready ≠ .pending then
        { s with head := .settled }.failSession registered
      else s
  | .queueFinally => s.queueFinally

end PeerSession

/-! ## The mesh -/

/-- `AuthenticatedMeshTransport`: every session it has bound, and the number of the one that is in
its map for a peer. -/
structure AuthenticatedMesh where
  closed : Bool
  sessions : List PeerSession
  current : IdentityPublicKey → Option ℕ

/-- `RTCDataChannel.readyState`. -/
inductive ChannelReadyState where
  | connecting | open_ | other
  deriving DecidableEq, Repr

/-- What happens to a mesh. -/
inductive MeshEvent where
  | bind (remote : IdentityPublicKey) (generation : ℕ) (channel : ChannelReadyState)
      (created : Bool)
  | session (id : ℕ) (event : SessionEvent)
  | send (remote : IdentityPublicKey) (payload : List UInt8)
  | disconnected (remote : IdentityPublicKey) (generation : ℕ)
  | close

namespace AuthenticatedMesh

/-- A new mesh. -/
def start : AuthenticatedMesh := ⟨false, [], fun _ => none⟩

/-- The mesh is open and has this session in its map. -/
def registered (m : AuthenticatedMesh) (id : ℕ) (s : PeerSession) : Bool :=
  !m.closed && decide (m.current s.remote = some id)

/-- A transition of one session; `#discardSession` takes a session that ends out of the map. -/
def apply (m : AuthenticatedMesh) (id : ℕ) (f : Bool → PeerSession → PeerSession) :
    AuthenticatedMesh :=
  match m.sessions[id]? with
  | none => m
  | some s =>
      let next := f (m.registered id s) s
      { m with
        sessions := m.sessions.set id next
        current :=
          if s.phase ≠ .closed ∧ next.phase = .closed ∧ m.current s.remote = some id then
            Function.update m.current s.remote none
          else m.current }

/-- `#bindChannel`. -/
def bindChannel (m : AuthenticatedMesh) (remote : IdentityPublicKey) (generation : ℕ)
    (channel : ChannelReadyState) (created : Bool) : AuthenticatedMesh :=
  if m.closed = true ∨ m.current remote ≠ none then m
  else
    let id := m.sessions.length
    let m := { m with
      sessions := m.sessions ++ [PeerSession.start remote generation]
      current := Function.update m.current remote (some id) }
    match channel with
    | .open_ => m.apply id fun registered s => s.beginAuthentication registered created
    | .connecting => m
    | .other => m.apply id fun registered s => s.failSession registered

/-- One event. -/
def step (options : MeshOptions) (m : AuthenticatedMesh) : MeshEvent → AuthenticatedMesh
  | .bind remote generation channel created => m.bindChannel remote generation channel created
  | .session id event => m.apply id fun registered s => s.step options registered event
  | .send remote payload =>
      match m.current remote with
      | none => m
      | some id => m.apply id fun _ s => s.send payload
  | .disconnected remote generation =>
      match m.current remote with
      | none => m
      | some id => m.apply id fun _ s => if s.generation = generation then s.discard else s
  | .close =>
      { closed := true
        sessions := m.sessions.mapIdx fun id s =>
          if m.current s.remote = some id then s.discard else s
        current := fun _ => none }

/-- The promise that `readyFor` returns. -/
def readyFor (m : AuthenticatedMesh) (remote : IdentityPublicKey) : Option ReadyPromise := do
  let id ← m.current remote
  let s ← m.sessions[id]?
  return s.ready

/-- The mesh after some events. -/
def run (options : MeshOptions) (m : AuthenticatedMesh) (events : List MeshEvent) :
    AuthenticatedMesh :=
  events.foldl (fun m event => m.step options event) m

end AuthenticatedMesh

/-! ## The log of a session -/

namespace PeerSession

/-- The payloads that came. -/
def received (log : List MeshEffect) : List (List UInt8) :=
  log.filterMap fun
    | .received payload => some payload
    | _ => none

/-- The payloads given to the handler of the synchronizer. -/
def handled (log : List MeshEffect) : List (List UInt8) :=
  log.filterMap fun
    | .handled payload => some payload
    | _ => none

/-- The payloads given to `onMessage`. -/
def delivered (log : List MeshEffect) : List (List UInt8) :=
  log.filterMap fun
    | .delivered payload => some payload
    | _ => none

/-- What must have happened before an effect, and what must not. -/
def Permitted (before : List MeshEffect) : MeshEffect → Prop
  | .authenticated => True
  | .synchronized => .authenticated ∈ before
  | .ready => (.authenticated ∈ before ∧ .synchronized ∈ before) ∧
      (.ready ∉ before ∧ .ended ∉ before) ∧ handled before = received before ∧
      delivered before = []
  | .received _ => True
  | .handled payload => (.authenticated ∈ before ∧ .ready ∉ before ∧ .ended ∉ before) ∧
      handled before ++ [payload] <+: received before
  | .delivered payload => (.ready ∈ before ∧ .ended ∉ before) ∧
      received before = handled before ++ delivered before ++ [payload]
  | .sent _ => .ready ∈ before ∧ .ended ∉ before
  | .contextSent _ => .authenticated ∈ before ∧ .ready ∉ before ∧ .ended ∉ before
  | .handlerInstalled _ => .authenticated ∈ before ∧ .ready ∉ before ∧ .ended ∉ before
  | .resolved => (.ready ∈ before ∧ .ended ∉ before) ∧ .resolved ∉ before ∧ .rejected ∉ before
  | .rejected => .resolved ∉ before ∧ .rejected ∉ before
  | .ended => .ended ∉ before

/-- The queued payloads that no handler has got. -/
def unhandled (s : PeerSession) : List QueuedPayload :=
  match s.head with
  | .waiting => s.receiveQueue
  | _ => s.receiveQueue.tail

/-- The log is lawful, and the state says what is in it. -/
structure Logged (options : MeshOptions) (s : PeerSession) : Prop where
  lawful : Lawful Permitted s.log
  counts : s.queuedMessages = s.receiveQueue.length ∧ s.queuedBytes = bytesOf s.receiveQueue
  limits : s.receiveQueue.length ≤ options.maxQueuedSynchronizationMessages ∧
    bytesOf s.receiveQueue ≤ options.maxQueuedSynchronizationBytes
  enqueued : s.receiveQueue.length ≤ s.enqueued
  idle : s.receiveQueue = [] → s.head = .waiting
  given : handled s.log ++ delivered s.log <+: received s.log
  called : s.phase = .synchronizing ∨ s.phase = .ready → s.synchronizer ≠ .idle
  authenticated : s.synchronizer ≠ .idle → .authenticated ∈ s.log
  synchronized : (∃ queue, s.synchronizer = .racing queue) → .synchronized ∈ s.log
  ready_of_mem : .ready ∈ s.log → s.phase = .ready ∨ s.phase = .closed
  mem_of_ready : s.phase = .ready → .ready ∈ s.log
  ended : .ended ∈ s.log ↔ s.phase = .closed
  resolved : .resolved ∈ s.log ↔ s.ready = .resolved
  rejected : .rejected ∈ s.log ↔ s.ready = .rejected
  ready_of_resolved : s.ready = .resolved → s.phase = .ready ∨ s.phase = .closed
  closed_iff : s.phase = .closed → s.ready ≠ .pending
  closed_of_rejected : s.ready = .rejected → s.phase = .closed
  announcing : s.synchronizer = .announcing → s.phase = .ready ∨ s.phase = .closed
  drained : s.phase = .ready → s.receiveQueue = []
  silent : s.phase ≠ .ready → s.phase ≠ .closed → delivered s.log = []

/-- Of a session that has not ended, what came has been given on or is in the queue. -/
structure Gated (options : MeshOptions) (s : PeerSession) : Prop extends Logged options s where
  exact : s.phase ≠ .closed →
    received s.log = handled s.log ++ delivered s.log ++ s.unhandled.map (·.payload)

end PeerSession

end Tablefolk
