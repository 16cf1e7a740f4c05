import Tablefolk.Lib.Trace
import Tablefolk.Transport.Reassembler

/-!
# Authenticated channels

The model of `transport/authenticated-channel.ts` and of `decodeAndVerifyHello` of
`protocol/hello.ts`.

What a channel does to others is kept in its trace: the HELLO it sends and the one it has verified,
the payloads it sends and delivers, its calls of `onAuthenticated`, and how its promise settles.
A handler of the application that runs inside a transition may call the channel again; what it
does is an argument.

* `Permitted`: what must and must not have happened before an effect.
* `AuthenticatedPeerChannel.Gated`: the trace is lawful, and the state says what is in it.
* `channel_gates_payloads`: what that says of every run.
-/

namespace Tablefolk

abbrev DtlsFingerprint := FixedBytes 32

def HELLO_FRAME_ID : ℕ := 0
def FIRST_APPLICATION_FRAME_ID : ℕ := 1
def MAX_HELLO_BYTES : ℕ := 256

/-! ## HELLO -/

/-- `SignedHello`. -/
structure SignedHello where
  pkId : IdentityPublicKey
  localFingerprint : DtlsFingerprint
  remoteFingerprint : DtlsFingerprint
  signature : Ed25519Signature
  deriving DecidableEq

/-- `HelloValidationError`. -/
inductive HelloValidationError where
  | malformed (message : String)
  | invalidSignature (message : String)
  deriving DecidableEq, Repr

def HELLO_KEYS : List String := ["pk_id", "local_fp", "remote_fp", "sig"]

/-- `parseHelloField`. -/
def parseHelloField (size : ℕ) (hello : CborRecord) (key message : String) :
    Except HelloValidationError (FixedBytes size) :=
  match expectByteString (field hello key) ("HELLO." ++ key) with
  | .error _ => .error (.malformed ("HELLO." ++ key ++ " " ++ message))
  | .ok bytes =>
      match parseFixedBytes size bytes with
      | none => .error (.malformed ("HELLO." ++ key ++ " " ++ message))
      | some fixed => .ok fixed

/-- `parseHello`. -/
def parseHello (value : CborValue) : Except HelloValidationError SignedHello := do
  let hello ← (expectExactMap value HELLO_KEYS "HELLO").mapError fun _ =>
    .malformed "HELLO decoding failed"
  let pkId ← parseHelloField 32 hello "pk_id" "must be a 32-byte identity public key"
  let localFingerprint ← parseHelloField 32 hello "local_fp"
    "must be a 32-byte SHA-256 fingerprint"
  let remoteFingerprint ← parseHelloField 32 hello "remote_fp"
    "must be a 32-byte SHA-256 fingerprint"
  let signature ← parseHelloField 64 hello "sig" "must be a 64-byte Ed25519 signature"
  return ⟨pkId, localFingerprint, remoteFingerprint, signature⟩

/-- What the channel relies on: the decoder of canonical CBOR, and the verification of the
signature of a HELLO over its game and fingerprints. -/
structure HelloPrimitives where
  decodeCanonical : List UInt8 → Option CborValue
  verifyHello : Ed25519Signature → GameId → DtlsFingerprint → DtlsFingerprint →
    IdentityPublicKey → Bool

/-- `decodeAndVerifyHello`. -/
def decodeAndVerifyHello (H : HelloPrimitives) (encoded : List UInt8) (gameId : GameId) :
    Except HelloValidationError SignedHello := do
  throwIf (MAX_HELLO_BYTES < encoded.length) (.malformed "HELLO decoding failed")
  match H.decodeCanonical encoded with
  | none => throw (.malformed "HELLO decoding failed")
  | some value => do
      let hello ← parseHello value
      throwIf (H.verifyHello hello.signature gameId hello.localFingerprint hello.remoteFingerprint
        hello.pkId = false) (.invalidSignature "HELLO signature is invalid")
      return hello

/-! ## The channel -/

/-- The errors of a channel: a code with a message, or the error of a part of it. -/
inductive ChannelError where
  | AUTHENTICATION_TIMEOUT (message : String)
  | CHANNEL_CLOSED (message : String)
  | CHANNEL_FAILED (message : String)
  | EXPECTED_HELLO (message : String)
  | FINGERPRINT_MISMATCH (message : String)
  | IDENTITY_MISMATCH (message : String)
  | INVALID_FRAME (message : String)
  | INVALID_HELLO (message : String)
  | MESSAGE_HANDLER_FAILED (message : String)
  | QUEUE_LIMIT (message : String)
  | SEND_FAILED (message : String)
  | reassembly (error : ReassemblyError)
  | observer
  deriving DecidableEq

/-- `ChannelLifecycle`. -/
inductive ChannelLifecycle where
  | new | authenticating | authenticated | closed
  deriving DecidableEq, Repr

/-- What a channel does to others. -/
inductive ChannelEffect where
  | helloStarted
  | helloSent
  | helloVerified (hello : SignedHello)
  | authenticated
  | resolved
  | rejected
  | sending (id : ℕ) (payload : List UInt8)
  | delivered (id : ℕ) (payload : List UInt8)
  | closed
  deriving DecidableEq

/-- The options of a channel. -/
structure ChannelOptions where
  gameId : GameId
  remoteIdentity : IdentityPublicKey
  localFingerprint : DtlsFingerprint
  remoteFingerprint : DtlsFingerprint
  maxQueuedMessages : ℕ

/-- The text of a reason. -/
def FrameRejection.text : FrameRejection → String
  | .capacity_exceeded => "capacity_exceeded"
  | .chunk_conflict => "chunk_conflict"
  | .count_mismatch => "count_mismatch"
  | .frame_count_exceeded => "frame_count_exceeded"
  | .message_too_large => "message_too_large"

/-- A message of the data channel: `none` when its bytes are no canonical CBOR. -/
abbrev IncomingBytes := Option CanonicalCbor

/-- `AuthenticatedPeerChannel`.  `settling` is what the message that was processed last has
thrown, until the channel reacts to it; `promise` is whether the functions of the authentication
promise are kept. -/
structure AuthenticatedPeerChannel where
  lifecycle : ChannelLifecycle
  helloSendStarted : Bool
  helloPending : Bool
  helloSent : Bool
  remoteHelloVerified : Bool
  nextFrameId : ℕ
  pendingSends : ℕ
  queuedMessages : ℕ
  receiveQueue : List IncomingBytes
  settling : Option (Option ChannelError)
  started : Bool
  promise : Bool
  failure : Option ChannelError
  timer : Bool
  listening : Bool
  reassembler : FrameReassembler
  trace : List ChannelEffect

/-- What a handler of the application does with the channel when it is called. -/
inductive HandlerAct where
  | close
  | send (payload : List UInt8)

/-- A call of a handler: what it does, and whether it throws after it. -/
structure Handler where
  acts : List HandlerAct
  throws : Bool

/-- What happens to a channel. -/
inductive ChannelEvent where
  | start (readyState : String)
  | send (payload : List UInt8)
  | sendDone (ok : Bool)
  | close
  | opened
  | message (data : Option IncomingBytes)
  | process (now later : Option ℚ) (handler : Handler)
  | settle
  | helloDone (ok : Bool) (handler : Handler)
  | timeout
  | closed
  | error
  | expiry (now later : Option ℚ)

namespace AuthenticatedPeerChannel

/-- A new channel. -/
def create (reassembler : FrameReassembler) : AuthenticatedPeerChannel :=
  ⟨.new, false, false, false, false, FIRST_APPLICATION_FRAME_ID, 0, 0, [], none, false, false, none,
    false, false, reassembler, []⟩

/-- Record an effect. -/
def emit (c : AuthenticatedPeerChannel) (effect : ChannelEffect) : AuthenticatedPeerChannel :=
  { c with trace := c.trace ++ [effect] }

/-- The part of `#fail` and `close` that ends the channel. -/
def shut (c : AuthenticatedPeerChannel) (error : ChannelError) : AuthenticatedPeerChannel :=
  let ended := ({ c with lifecycle := .closed, failure := some error }).emit .closed
  let settled := if c.promise = true then { ended.emit .rejected with promise := false } else ended
  { settled with timer := false, listening := false, reassembler := settled.reassembler.clear }

/-- `#fail`, and `close`, which differ in what they do to the data channel and its observer. -/
def fail (c : AuthenticatedPeerChannel) (error : ChannelError) : AuthenticatedPeerChannel :=
  if c.lifecycle = .closed then c else c.shut error

/-- `close`. -/
def close (c : AuthenticatedPeerChannel) : AuthenticatedPeerChannel :=
  c.fail (.CHANNEL_CLOSED "Authenticated data channel was closed locally")

/-- `send` up to its `await`. -/
def send (c : AuthenticatedPeerChannel) (payload : List UInt8) :
    Except ChannelError Unit × AuthenticatedPeerChannel :=
  if c.lifecycle ≠ .authenticated then
    (.error (.EXPECTED_HELLO
      "Application payload cannot be sent before reciprocal HELLO authentication"), c)
  else if MAX_FRAME_ID < c.nextFrameId then
    (.error (.SEND_FAILED "Data-channel frame IDs are exhausted"), c)
  else
    (.ok (), { c.emit (.sending c.nextFrameId payload) with
      nextFrameId := c.nextFrameId + 1
      pendingSends := c.pendingSends + 1 })

/-- What a handler does. -/
def act (c : AuthenticatedPeerChannel) : HandlerAct → AuthenticatedPeerChannel
  | .close => c.close
  | .send payload => (c.send payload).2

/-- The calls of a handler, one after the other. -/
def acts (c : AuthenticatedPeerChannel) (handler : Handler) : AuthenticatedPeerChannel :=
  handler.acts.foldl act c

/-- The end of `#completeAuthentication`. -/
def resolve (c : AuthenticatedPeerChannel) : AuthenticatedPeerChannel :=
  if c.promise = true then { c.emit .resolved with promise := false } else c

/-- `#completeAuthentication`. -/
def completeAuthentication (c : AuthenticatedPeerChannel) (handler : Handler) :
    AuthenticatedPeerChannel :=
  if c.lifecycle ≠ .authenticating ∨ c.helloSent = false ∨ c.remoteHelloVerified = false then c
  else
    let observed := ({ c with lifecycle := .authenticated, timer := false }).emit .authenticated
    let after := observed.acts handler
    if handler.throws = true then after.fail .observer else after.resolve

/-- `#sendHello` up to its `await`. -/
def sendHello (c : AuthenticatedPeerChannel) : AuthenticatedPeerChannel :=
  if c.helloSendStarted = true ∨ c.lifecycle ≠ .authenticating then c
  else { c.emit .helloStarted with helloSendStarted := true, helloPending := true }

/-- `#sendHello` after its `await`. -/
def helloSettled (c : AuthenticatedPeerChannel) (ok : Bool) (handler : Handler) :
    AuthenticatedPeerChannel :=
  if ok = false then c.fail (.SEND_FAILED "Failed to send local HELLO")
  else if c.lifecycle = .closed then c
  else ({ c.emit .helloSent with helloSent := true }).completeAuthentication handler

/-- The HELLO that is being sent is sent, or is not. -/
def helloDone (c : AuthenticatedPeerChannel) (ok : Bool) (handler : Handler) :
    AuthenticatedPeerChannel :=
  if c.helloPending = false then c
  else ({ c with helloPending := false }).helloSettled ok handler

/-- `start`. -/
def start (c : AuthenticatedPeerChannel) (readyState : String) : AuthenticatedPeerChannel :=
  if c.lifecycle = .closed ∨ c.started = true then c
  else
    let c := { c with
      lifecycle := .authenticating
      started := true
      promise := true
      timer := true
      listening := true }
    if readyState = "open" then c.sendHello
    else if readyState ≠ "connecting" then
      c.fail (.CHANNEL_CLOSED "Data channel is not open or connecting")
    else c

/-- `#handleMessage`. -/
def handleMessage (options : ChannelOptions) (c : AuthenticatedPeerChannel)
    (data : Option IncomingBytes) : AuthenticatedPeerChannel :=
  if c.lifecycle = .closed then c
  else if options.maxQueuedMessages ≤ c.queuedMessages then
    c.fail (.QUEUE_LIMIT "Queued data-channel message limit exceeded")
  else
    match data with
    | none => c.fail (.INVALID_FRAME "Data-channel frame is not binary")
    | some bytes => { c with
        queuedMessages := c.queuedMessages + 1
        receiveQueue := c.receiveQueue ++ [bytes] }

/-- `decodeDataFrame` of the bytes of a message. -/
def decodeIncoming (encoded : IncomingBytes) : Except ChannelError DataFrame :=
  match encoded with
  | none => .error (.INVALID_FRAME "Data-channel frame is invalid")
  | some encoded => (decodeDataFrame encoded).mapError fun _ =>
      .INVALID_FRAME "Data-channel frame is invalid"

/-- `#verifyRemoteHello`. -/
def verifyRemoteHello (H : HelloPrimitives) (options : ChannelOptions) (encoded : List UInt8) :
    Except ChannelError SignedHello := do
  let remote ← (decodeAndVerifyHello H encoded options.gameId).mapError fun _ =>
    .INVALID_HELLO "Remote HELLO is invalid"
  throwIf (remote.pkId ≠ options.remoteIdentity) (.IDENTITY_MISMATCH
    "Remote HELLO identity does not match the expected roster peer")
  throwIf (remote.localFingerprint ≠ options.remoteFingerprint ∨
    remote.remoteFingerprint ≠ options.localFingerprint) (.FINGERPRINT_MISMATCH
    "Remote HELLO does not match the observed reciprocal DTLS fingerprints")
  return remote

/-- The part of `#processIncoming` for the first remote frame. -/
def processHello (H : HelloPrimitives) (options : ChannelOptions) (c : AuthenticatedPeerChannel)
    (frame : DataFrame) (handler : Handler) : Option ChannelError × AuthenticatedPeerChannel :=
  if frame.id ≠ HELLO_FRAME_ID ∨ frame.index ≠ 0 ∨ frame.count ≠ 1 then
    (some (.EXPECTED_HELLO "The first remote frame must be the complete HELLO payload"), c)
  else
    match verifyRemoteHello H options frame.bytes with
    | .error error => (some error, c)
    | .ok hello => (none, ({ c.emit (.helloVerified hello) with
        remoteHelloVerified := true }).completeAuthentication handler)

/-- The call of `onMessage`. -/
def deliver (c : AuthenticatedPeerChannel) (id : ℕ) (payload : List UInt8) (handler : Handler) :
    Option ChannelError × AuthenticatedPeerChannel :=
  (if handler.throws = true then
      some (.MESSAGE_HANDLER_FAILED "Authenticated channel message handler failed")
    else none, (c.emit (.delivered id payload)).acts handler)

/-- The part of `#processIncoming` for the frames of payloads. -/
def processPayload (c : AuthenticatedPeerChannel) (frame : DataFrame) (now later : Option ℚ)
    (handler : Handler) : Option ChannelError × AuthenticatedPeerChannel :=
  if c.lifecycle ≠ .authenticated then
    (some (.EXPECTED_HELLO "Application payload arrived before reciprocal HELLO authentication"), c)
  else if frame.id = HELLO_FRAME_ID then
    (some (.EXPECTED_HELLO "HELLO frame ID cannot be reused for an application payload"), c)
  else
    match c.reassembler.accept frame.candidate now later with
    | (.error error, reassembler) => (some (.reassembly error), { c with reassembler := reassembler })
    | (.ok (.rejected _ reason), reassembler) =>
        (some (.INVALID_FRAME ("Data-channel frame group was rejected: " ++ reason.text)),
          { c with reassembler := reassembler })
    | (.ok (.complete _ payload), reassembler) =>
        ({ c with reassembler := reassembler }).deliver frame.id payload handler
    | (.ok _, reassembler) => (none, { c with reassembler := reassembler })

/-- `#processIncoming`. -/
def processIncoming (H : HelloPrimitives) (options : ChannelOptions) (c : AuthenticatedPeerChannel)
    (encoded : IncomingBytes) (now later : Option ℚ) (handler : Handler) :
    Option ChannelError × AuthenticatedPeerChannel :=
  if c.lifecycle = .closed then (none, c)
  else
    match decodeIncoming encoded with
    | .error error => (some error, c)
    | .ok frame =>
        if c.remoteHelloVerified = false then c.processHello H options frame handler
        else c.processPayload frame now later handler

/-- The next message of the queue is processed, when the one before it is settled. -/
def process (H : HelloPrimitives) (options : ChannelOptions) (c : AuthenticatedPeerChannel)
    (now later : Option ℚ) (handler : Handler) : AuthenticatedPeerChannel :=
  match c.settling, c.receiveQueue with
  | none, encoded :: rest =>
      let processed := ({ c with receiveQueue := rest }).processIncoming H options encoded now later
        handler
      { processed.2 with settling := some processed.1 }
  | _, _ => c

/-- The reaction to a message that was processed. -/
def settle (c : AuthenticatedPeerChannel) : AuthenticatedPeerChannel :=
  match c.settling with
  | none => c
  | some thrown =>
      let c := { c with settling := none, queuedMessages := c.queuedMessages - 1 }
      match thrown with
      | none => c
      | some error => c.fail error

/-- One event. -/
def step (H : HelloPrimitives) (options : ChannelOptions) (c : AuthenticatedPeerChannel) :
    ChannelEvent → AuthenticatedPeerChannel
  | .start readyState => c.start readyState
  | .send payload => (c.send payload).2
  | .sendDone ok =>
      if c.pendingSends = 0 then c
      else
        let c := { c with pendingSends := c.pendingSends - 1 }
        if ok = true then c else c.fail (.SEND_FAILED "Authenticated data-channel send failed")
  | .close => c.close
  | .opened => if c.listening = true then c.sendHello else c
  | .message data => if c.listening = true then c.handleMessage options data else c
  | .process now later handler => c.process H options now later handler
  | .settle => c.settle
  | .helloDone ok handler => c.helloDone ok handler
  | .timeout =>
      if c.timer = true then
        ({ c with timer := false }).fail (.AUTHENTICATION_TIMEOUT
          "Reciprocal HELLO authentication timed out")
      else c
  | .closed =>
      if c.listening = true then
        c.fail (.CHANNEL_CLOSED "Data channel closed before transport shutdown")
      else c
  | .error => if c.listening = true then c.fail (.CHANNEL_FAILED "Data channel failed") else c
  | .expiry now later => { c with reassembler := c.reassembler.fireTimer now later }

/-- The channel after some events. -/
def run (H : HelloPrimitives) (options : ChannelOptions) (c : AuthenticatedPeerChannel)
    (events : List ChannelEvent) : AuthenticatedPeerChannel :=
  events.foldl (step H options) c

end AuthenticatedPeerChannel

/-! ## What must have happened before -/

section

variable (H : HelloPrimitives) (options : ChannelOptions)

/-- The HELLO of the expected identity, for the reciprocal fingerprints. -/
structure SignedHello.Expected (hello : SignedHello) : Prop where
  pkId : hello.pkId = options.remoteIdentity
  localFingerprint : hello.localFingerprint = options.remoteFingerprint
  remoteFingerprint : hello.remoteFingerprint = options.localFingerprint
  verified : H.verifyHello hello.signature options.gameId hello.localFingerprint
    hello.remoteFingerprint hello.pkId = true

/-- What must and must not have happened before an effect. -/
def Permitted (before : List ChannelEffect) : ChannelEffect → Prop
  | .helloStarted => .helloStarted ∉ before ∧ .closed ∉ before
  | .helloSent => .helloStarted ∈ before ∧ .closed ∉ before
  | .helloVerified hello => hello.Expected H options ∧ .closed ∉ before
  | .authenticated => .authenticated ∉ before ∧ .closed ∉ before ∧ .helloSent ∈ before ∧
      ∃ hello, .helloVerified hello ∈ before
  | .resolved => .authenticated ∈ before ∧ .closed ∉ before ∧ .resolved ∉ before ∧
      .rejected ∉ before
  | .rejected => .closed ∈ before ∧ .resolved ∉ before ∧ .rejected ∉ before
  | .sending id _ => .authenticated ∈ before ∧ .closed ∉ before ∧
      FIRST_APPLICATION_FRAME_ID ≤ id ∧ id ≤ MAX_FRAME_ID ∧
      ∀ payload, .sending id payload ∉ before
  | .delivered id _ => .authenticated ∈ before ∧ .closed ∉ before ∧ id ≠ HELLO_FRAME_ID
  | .closed => .closed ∉ before

/-- The part of a channel that its gate consists of. -/
structure ChannelGate where
  lifecycle : ChannelLifecycle
  helloSendStarted : Bool
  helloPending : Bool
  helloSent : Bool
  remoteHelloVerified : Bool
  nextFrameId : ℕ
  started : Bool
  promise : Bool
  trace : List ChannelEffect

/-- The gate of a channel. -/
def AuthenticatedPeerChannel.gate (c : AuthenticatedPeerChannel) : ChannelGate :=
  ⟨c.lifecycle, c.helloSendStarted, c.helloPending, c.helloSent, c.remoteHelloVerified,
    c.nextFrameId, c.started, c.promise, c.trace⟩

/-- How often the authentication promise has settled. -/
def settlements (trace : List ChannelEffect) : ℕ := trace.count .resolved + trace.count .rejected

/-- The trace is lawful, and the state says what is in it. -/
structure ChannelGate.Gated (g : ChannelGate) : Prop where
  lawful : Lawful (Permitted H options) g.trace
  helloStarted : .helloStarted ∈ g.trace → g.helloSendStarted = true
  helloPending : g.helloPending = true → .helloStarted ∈ g.trace
  helloSent : g.helloSent = true → .helloSent ∈ g.trace
  verified : g.remoteHelloVerified = true → ∃ hello, .helloVerified hello ∈ g.trace
  before : g.lifecycle = .new ∨ g.lifecycle = .authenticating → .authenticated ∉ g.trace
  authenticated : g.lifecycle = .authenticated → .authenticated ∈ g.trace
  closed : g.lifecycle = .closed ↔ .closed ∈ g.trace
  first_le : FIRST_APPLICATION_FRAME_ID ≤ g.nextFrameId
  fresh : ∀ id payload, .sending id payload ∈ g.trace → id < g.nextFrameId
  settled : settlements g.trace + (if g.promise then 1 else 0) = if g.started then 1 else 0
  waiting : g.lifecycle = .authenticating → g.promise = true
  ended : g.lifecycle = .closed → g.promise = false
  unstarted : (g.started = false → g.lifecycle = .new ∨ g.lifecycle = .closed) ∧
    (g.lifecycle = .new → g.started = false)

end

namespace AuthenticatedPeerChannel

variable {H : HelloPrimitives} {options : ChannelOptions} {c : AuthenticatedPeerChannel}

/-- A channel that is closed has no promise left, nor has one that is authenticated. -/
def Settled (c : AuthenticatedPeerChannel) : Prop := c.lifecycle = .authenticated → c.promise = false

theorem not_settled_before (h : c.gate.Gated H options) (hpromise : c.promise = true) :
    .resolved ∉ c.trace ∧ .rejected ∉ c.trace := by
  have hsettled := h.settled
  have hzero : settlements c.trace = 0 := by
    simp only [gate, hpromise, if_true] at hsettled
    split_ifs at hsettled <;> omega
  unfold settlements at hzero
  constructor
  · exact List.count_eq_zero.1 (by omega)
  · exact List.count_eq_zero.1 (by omega)

theorem settlements_append {trace : List ChannelEffect} {effect : ChannelEffect}
    (hresolved : effect ≠ .resolved) (hrejected : effect ≠ .rejected) :
    settlements (trace ++ [effect]) = settlements trace := by
  unfold settlements
  rw [List.count_append, List.count_append, List.count_singleton, List.count_singleton]
  simp [hresolved, hrejected]

/-- An effect whose place in the trace says nothing of the state keeps the gate. -/
theorem Gated.quiet (h : c.gate.Gated H options) {effect : ChannelEffect}
    (hpermitted : Permitted H options c.trace effect)
    (hquiet : effect = .helloSent ∨ (∃ hello, effect = .helloVerified hello) ∨
      ∃ id payload, effect = .delivered id payload) :
    (c.emit effect).gate.Gated H options := by
  have hcount := h.settled
  have hother : ∀ other, other ≠ effect → (other ∈ c.trace ++ [effect] ↔ other ∈ c.trace) := by
    intro other hne
    simp [hne]
  have hneither : effect ≠ .resolved ∧ effect ≠ .rejected ∧ effect ≠ .authenticated ∧
      effect ≠ .closed ∧ effect ≠ .helloStarted ∧ ∀ id payload, effect ≠ .sending id payload := by
    rcases hquiet with rfl | ⟨hello, rfl⟩ | ⟨id, payload, rfl⟩ <;> simp
  obtain ⟨hresolved, hrejected, hauthenticated, hclosed, hstarted, hsending⟩ := hneither
  refine ⟨h.lawful.snoc hpermitted, fun hmem => h.helloStarted ((hother _ hstarted.symm).1 hmem),
    fun hpending => (hother _ hstarted.symm).2 (h.helloPending hpending),
    fun hsent => List.mem_append_left _ (h.helloSent hsent), fun hverified => ?_,
    fun hbefore hmem => h.before hbefore ((hother _ hauthenticated.symm).1 hmem),
    fun hlife => (hother _ hauthenticated.symm).2 (h.authenticated hlife),
    h.closed.trans (hother _ hclosed.symm).symm, h.first_le,
    fun id payload hmem => h.fresh id payload ((hother _ (hsending id payload).symm).1 hmem),
    (congrArg (· + _) (settlements_append hresolved hrejected)).trans hcount, h.waiting, h.ended,
    h.unstarted⟩
  obtain ⟨hello, hhello⟩ := h.verified hverified
  exact ⟨hello, List.mem_append_left _ hhello⟩

/-- Ending a channel that is not closed. -/
theorem Gated.shut (h : c.gate.Gated H options) (hopen : c.lifecycle ≠ .closed)
    (error : ChannelError) : (c.shut error).gate.Gated H options := by
  have hout : .closed ∉ c.trace := fun hmem => hopen (h.closed.2 hmem)
  have hclosed : Lawful (Permitted H options) (c.trace ++ [.closed]) := h.lawful.snoc hout
  have hsettled := h.settled
  unfold AuthenticatedPeerChannel.shut
  by_cases hpromise : c.promise = true
  · obtain ⟨hresolved, hrejected⟩ := not_settled_before h hpromise
    simp only [hpromise, if_true, gate, emit] at hsettled ⊢
    refine ⟨hclosed.snoc ⟨by simp, by simp [hresolved], by simp [hrejected]⟩, ?_, ?_, ?_, ?_, by simp,
      by simp, by simp, h.first_le, ?_, ?_, by simp, fun _ => rfl, ⟨fun _ => .inr rfl, by simp⟩⟩
    · simpa [gate] using h.helloStarted
    · simpa [gate] using h.helloPending
    · simpa [gate] using h.helloSent
    · simpa [gate] using h.verified
    · simpa [gate] using h.fresh
    · unfold settlements at hsettled ⊢
      simp only [List.count_append, List.append_assoc]
      simp at hsettled ⊢
      omega
  · simp only [hpromise, gate, emit] at hsettled ⊢
    refine ⟨hclosed, ?_, ?_, ?_, ?_, by simp, by simp, by simp, h.first_le, ?_, ?_, by simp,
      fun _ => by simpa using hpromise, ⟨fun _ => .inr rfl, by simp⟩⟩
    · simpa [gate] using h.helloStarted
    · simpa [gate] using h.helloPending
    · simpa [gate] using h.helloSent
    · simpa [gate] using h.verified
    · simpa [gate] using h.fresh
    · unfold settlements at hsettled ⊢
      simp at hpromise hsettled ⊢
      omega

theorem shut_lifecycle (error : ChannelError) : (c.shut error).lifecycle = .closed := by
  unfold shut
  by_cases hpromise : c.promise = true
  · simp [hpromise, emit]
  · simp [hpromise, emit]

theorem Gated.fail (h : c.gate.Gated H options) (error : ChannelError) :
    (c.fail error).gate.Gated H options ∧ (c.fail error).lifecycle = .closed := by
  unfold AuthenticatedPeerChannel.fail
  by_cases hclosed : c.lifecycle = .closed
  · rw [if_pos hclosed]
    exact ⟨h, hclosed⟩
  · rw [if_neg hclosed]
    exact ⟨Gated.shut h hclosed error, shut_lifecycle error⟩

/-- A payload is sent only through an authenticated channel, with an id of its own. -/
theorem Gated.send (h : c.gate.Gated H options) (payload : List UInt8) :
    (c.send payload).2.gate.Gated H options ∧ (c.send payload).2.lifecycle = c.lifecycle ∧
      (c.send payload).2.promise = c.promise := by
  unfold AuthenticatedPeerChannel.send
  by_cases hlifecycle : c.lifecycle ≠ .authenticated
  · rw [if_pos hlifecycle]
    exact ⟨h, rfl, rfl⟩
  · rw [if_neg hlifecycle]
    by_cases hid : MAX_FRAME_ID < c.nextFrameId
    · rw [if_pos hid]
      exact ⟨h, rfl, rfl⟩
    · rw [if_neg hid]
      have hauthenticated := not_not.1 hlifecycle
      have hmem : .authenticated ∈ c.trace := h.authenticated hauthenticated
      have hout : .closed ∉ c.trace := fun hclosed => by
        have hlife : c.lifecycle = .closed := h.closed.2 hclosed
        rw [hauthenticated] at hlife
        cases hlife
      have hfresh : ∀ payload, .sending c.nextFrameId payload ∉ c.trace := fun payload hold =>
        lt_irrefl _ (h.fresh _ _ hold)
      have hfirst := h.first_le
      have hsettled := h.settled
      refine ⟨⟨h.lawful.snoc ⟨hmem, hout, hfirst, not_lt.1 hid, hfresh⟩, ?_, ?_, ?_, ?_, ?_, ?_, ?_, ?_,
        ?_, ?_, h.waiting, h.ended, h.unstarted⟩, rfl, rfl⟩
      · simpa [gate, emit] using h.helloStarted
      · simpa [gate, emit] using h.helloPending
      · simpa [gate, emit] using h.helloSent
      · simpa [gate, emit] using h.verified
      · simpa [gate, emit] using h.before
      · simpa [gate, emit] using h.authenticated
      · simpa [gate, emit] using h.closed
      · exact Nat.le_succ_of_le hfirst
      · intro id payload' hsending
        rcases List.mem_append.1 hsending with hold | hnew
        · exact Nat.lt_succ_of_lt (h.fresh id payload' hold)
        · cases List.mem_singleton.1 hnew
          exact Nat.lt_succ_self _
      · exact (congrArg (· + _) (settlements_append (by simp) (by simp))).trans hsettled

/-- What a handler does keeps the gate; the channel stays as it is, or is closed. -/
theorem Gated.acts (h : c.gate.Gated H options) (handler : Handler) :
    (c.acts handler).gate.Gated H options ∧ ((c.acts handler).lifecycle = .closed ∨
      (c.acts handler).lifecycle = c.lifecycle ∧ (c.acts handler).promise = c.promise) := by
  unfold AuthenticatedPeerChannel.acts
  generalize handler.acts = calls
  induction calls generalizing c with
  | nil => exact ⟨h, .inr ⟨rfl, rfl⟩⟩
  | cons call rest ih =>
      rw [List.foldl_cons]
      cases call with
      | close =>
          obtain ⟨hgated, hclosed⟩ := Gated.fail h (.CHANNEL_CLOSED
            "Authenticated data channel was closed locally")
          obtain ⟨hrest, hlifecycle⟩ := ih (c := c.close) hgated
          refine ⟨hrest, .inl ?_⟩
          rcases hlifecycle with hlifecycle | ⟨hlifecycle, -⟩
          · exact hlifecycle
          · exact hlifecycle.trans hclosed
      | send payload =>
          obtain ⟨hgated, hlife, hpromise⟩ := Gated.send h payload
          obtain ⟨hrest, hlifecycle⟩ := ih (c := (c.send payload).2) hgated
          refine ⟨hrest, ?_⟩
          rcases hlifecycle with hlifecycle | ⟨hlifecycle, hsame⟩
          · exact .inl hlifecycle
          · exact .inr ⟨hlifecycle.trans hlife, hsame.trans hpromise⟩

theorem settled_of_closed (h : c.lifecycle = .closed) : c.Settled := by
  intro hauthenticated
  rw [h] at hauthenticated
  cases hauthenticated

/-- The promise of an authenticated channel is resolved. -/
theorem Gated.resolve (h : c.gate.Gated H options)
    (hlifecycle : c.lifecycle = .authenticated ∨ c.lifecycle = .closed) :
    c.resolve.gate.Gated H options ∧ c.resolve.Settled := by
  unfold AuthenticatedPeerChannel.resolve
  by_cases hpromise : c.promise = true
  · rw [if_pos hpromise]
    have hlife : c.lifecycle = .authenticated := by
      rcases hlifecycle with hlife | hlife
      · exact hlife
      · have hended : c.promise = false := h.ended hlife
        rw [hended] at hpromise
        cases hpromise
    have hmem : .authenticated ∈ c.trace := h.authenticated hlife
    have hout : .closed ∉ c.trace := fun hclosed => by
      have hclosed : c.lifecycle = .closed := h.closed.2 hclosed
      rw [hlife] at hclosed
      cases hclosed
    obtain ⟨hresolved, hrejected⟩ := not_settled_before h hpromise
    have hsettled := h.settled
    refine ⟨⟨h.lawful.snoc ⟨hmem, hout, hresolved, hrejected⟩, ?_, ?_, ?_, ?_, ?_, ?_, ?_, h.first_le,
      ?_, ?_, ?_, fun _ => rfl, h.unstarted⟩, fun _ => rfl⟩
    · simpa [gate, emit] using h.helloStarted
    · simpa [gate, emit] using h.helloPending
    · simpa [gate, emit] using h.helloSent
    · simpa [gate, emit] using h.verified
    · simpa [gate, emit] using h.before
    · simpa [gate, emit] using h.authenticated
    · simpa [gate, emit] using h.closed
    · simpa [gate, emit] using h.fresh
    · simp only [gate, hpromise, if_true, emit] at hsettled ⊢
      unfold settlements at hsettled ⊢
      simp at hsettled ⊢
      omega
    · intro hwaiting
      have hwaiting : c.lifecycle = .authenticating := hwaiting
      rw [hlife] at hwaiting
      cases hwaiting
  · rw [if_neg hpromise]
    exact ⟨h, fun _ => by simpa using hpromise⟩

/-- Authentication is complete when both HELLOs are, and only once. -/
theorem Gated.completeAuthentication (h : c.gate.Gated H options) (hsettled : c.Settled)
    (handler : Handler) : (c.completeAuthentication handler).gate.Gated H options ∧
      (c.completeAuthentication handler).Settled := by
  unfold AuthenticatedPeerChannel.completeAuthentication
  by_cases hwait : c.lifecycle ≠ .authenticating ∨ c.helloSent = false ∨
      c.remoteHelloVerified = false
  · rw [if_pos hwait]
    exact ⟨h, hsettled⟩
  · rw [if_neg hwait]
    simp only [not_or, not_not, Bool.not_eq_false] at hwait
    obtain ⟨hlife, hsent, hverified⟩ := hwait
    have hnew : .authenticated ∉ c.trace := h.before (.inr hlife)
    have hout : .closed ∉ c.trace := fun hclosed => by
      have hclosed : c.lifecycle = .closed := h.closed.2 hclosed
      rw [hlife] at hclosed
      cases hclosed
    have hcount := h.settled
    obtain ⟨observed, hobserved⟩ : ∃ observed, observed = ({ c with
        lifecycle := .authenticated
        timer := false } : AuthenticatedPeerChannel).emit .authenticated := ⟨_, rfl⟩
    have hgated : observed.gate.Gated H options := by
      rw [hobserved]
      refine ⟨h.lawful.snoc ⟨hnew, hout, h.helloSent hsent, h.verified hverified⟩, ?_, ?_, ?_, ?_,
        by simp [gate, emit], by simp [gate, emit], ?_, h.first_le, ?_, ?_, by simp [gate, emit],
        by simp [gate, emit], ⟨fun hstarted => ?_, by simp [gate, emit]⟩⟩
      · simpa [gate, emit] using h.helloStarted
      · simpa [gate, emit] using h.helloPending
      · simpa [gate, emit] using h.helloSent
      · simpa [gate, emit] using h.verified
      · simpa [gate, emit] using hout
      · simpa [gate, emit] using h.fresh
      · exact (congrArg (· + _) (settlements_append (by simp) (by simp))).trans hcount
      · rcases h.unstarted.1 hstarted with hunstarted | hunstarted
        · exact absurd (hlife.symm.trans hunstarted) (by simp)
        · exact absurd (hlife.symm.trans hunstarted) (by simp)
    obtain ⟨hacts, hlifecycle⟩ := Gated.acts hgated handler
    simp only
    rw [← hobserved]
    by_cases hthrows : handler.throws = true
    · rw [if_pos hthrows]
      obtain ⟨hfailed, hclosed⟩ := Gated.fail hacts .observer
      exact ⟨hfailed, settled_of_closed hclosed⟩
    · rw [if_neg hthrows]
      refine Gated.resolve hacts ?_
      rcases hlifecycle with hclosed | ⟨hsame, -⟩
      · exact .inr hclosed
      · refine .inl (hsame.trans ?_)
        rw [hobserved]
        rfl

/-! ## Every event keeps the gate -/

/-- What holds between the events. -/
def Sound (H : HelloPrimitives) (options : ChannelOptions) (c : AuthenticatedPeerChannel) : Prop :=
  c.gate.Gated H options ∧ c.Settled

theorem Sound.fail (h : c.Sound H options) (error : ChannelError) : (c.fail error).Sound H options := by
  obtain ⟨hgated, hclosed⟩ := Gated.fail h.1 error
  exact ⟨hgated, settled_of_closed hclosed⟩

theorem Sound.send (h : c.Sound H options) (payload : List UInt8) :
    (c.send payload).2.Sound H options := by
  obtain ⟨hgated, hlife, hpromise⟩ := Gated.send h.1 payload
  refine ⟨hgated, fun hauthenticated => ?_⟩
  rw [hpromise]
  exact h.2 (hlife ▸ hauthenticated)

theorem Sound.sendHello (h : c.Sound H options) : c.sendHello.Sound H options := by
  unfold AuthenticatedPeerChannel.sendHello
  by_cases hstarted : c.helloSendStarted = true ∨ c.lifecycle ≠ .authenticating
  · rw [if_pos hstarted]
    exact h
  · rw [if_neg hstarted]
    rw [not_or, not_not] at hstarted
    obtain ⟨hgated, hsettled⟩ := h
    have hnew : .helloStarted ∉ c.trace := fun hold => hstarted.1 (hgated.helloStarted hold)
    have hout : .closed ∉ c.trace := fun hclosed => by
      have hclosed : c.lifecycle = .closed := hgated.closed.2 hclosed
      rw [hstarted.2] at hclosed
      cases hclosed
    have hcount := hgated.settled
    refine ⟨⟨hgated.lawful.snoc ⟨hnew, hout⟩, fun _ => rfl, by simp [gate, emit], ?_, ?_, ?_, ?_, ?_,
      hgated.first_le, ?_, ?_, hgated.waiting, hgated.ended, hgated.unstarted⟩, hsettled⟩
    · simpa [gate, emit] using hgated.helloSent
    · simpa [gate, emit] using hgated.verified
    · simpa [gate, emit] using hgated.before
    · simpa [gate, emit] using hgated.authenticated
    · simpa [gate, emit] using hgated.closed
    · simpa [gate, emit] using hgated.fresh
    · exact (congrArg (· + _) (settlements_append (by simp) (by simp))).trans hcount

theorem Sound.start (h : c.Sound H options) (readyState : String) :
    (c.start readyState).Sound H options := by
  unfold AuthenticatedPeerChannel.start
  by_cases hidle : c.lifecycle = .closed ∨ c.started = true
  · rw [if_pos hidle]
    exact h
  · rw [if_neg hidle]
    rw [not_or, Bool.not_eq_true] at hidle
    obtain ⟨hgated, -⟩ := h
    have hcount := hgated.settled
    have hnew : c.lifecycle = .new := by
      rcases hgated.unstarted.1 hidle.2 with hnew | hclosed
      · exact hnew
      · exact absurd hclosed hidle.1
    have hout : .closed ∉ c.trace := fun hclosed => hidle.1 (hgated.closed.2 hclosed)
    have hzero : settlements c.trace = 0 := by
      simp only [gate, hidle.2, Bool.false_eq_true, if_false] at hcount
      omega
    obtain ⟨started, hstarted⟩ : ∃ started, started = ({ c with
        lifecycle := .authenticating
        started := true
        promise := true
        timer := true
        listening := true } : AuthenticatedPeerChannel) := ⟨_, rfl⟩
    have hsound : started.Sound H options := by
      rw [hstarted]
      refine ⟨⟨hgated.lawful, hgated.helloStarted, hgated.helloPending, hgated.helloSent,
        hgated.verified, fun _ => hgated.before (.inl hnew), by simp [gate], ?_, hgated.first_le,
        hgated.fresh, ?_, fun _ => rfl, by simp [gate], by simp [gate]⟩, ?_⟩
      · simpa [gate] using hout
      · simp [gate, hzero]
      · intro hauthenticated
        cases hauthenticated
    simp only
    rw [← hstarted]
    by_cases hready : readyState = "open"
    · rw [if_pos hready]
      exact hsound.sendHello
    · rw [if_neg hready]
      by_cases hconnecting : readyState ≠ "connecting"
      · rw [if_pos hconnecting]
        exact hsound.fail _
      · rw [if_neg hconnecting]
        exact hsound

theorem Sound.helloSettled (h : c.Sound H options) (hstarted : .helloStarted ∈ c.trace) (ok : Bool)
    (handler : Handler) : (c.helloSettled ok handler).Sound H options := by
  unfold AuthenticatedPeerChannel.helloSettled
  cases ok with
  | false => exact h.fail _
  | true =>
      rw [if_neg (by simp)]
      by_cases hclosed : c.lifecycle = .closed
      · rw [if_pos hclosed]
        exact h
      · rw [if_neg hclosed]
        obtain ⟨hgated, hsettled⟩ := h
        have hout : .closed ∉ c.trace := fun hold => hclosed (hgated.closed.2 hold)
        have hsent : (c.emit .helloSent).gate.Gated H options :=
          Gated.quiet hgated ⟨hstarted, hout⟩ (.inl rfl)
        refine Gated.completeAuthentication (c := { c.emit .helloSent with helloSent := true })
          ⟨hsent.lawful, hsent.helloStarted, hsent.helloPending,
          fun _ => ?_, hsent.verified, hsent.before, hsent.authenticated, hsent.closed, hsent.first_le,
          hsent.fresh, hsent.settled, hsent.waiting, hsent.ended, hsent.unstarted⟩ hsettled handler
        exact List.mem_append_right _ (List.mem_singleton.2 rfl)

theorem Sound.helloDone (h : c.Sound H options) (ok : Bool) (handler : Handler) :
    (c.helloDone ok handler).Sound H options := by
  unfold AuthenticatedPeerChannel.helloDone
  by_cases hpending : c.helloPending = false
  · rw [if_pos hpending]
    exact h
  · rw [if_neg hpending]
    obtain ⟨hgated, hsettled⟩ := h
    have hwaiting : c.helloPending = true := by simpa using hpending
    refine Sound.helloSettled (c := { c with helloPending := false }) ⟨⟨hgated.lawful,
      hgated.helloStarted, by simp [gate], hgated.helloSent, hgated.verified, hgated.before,
      hgated.authenticated, hgated.closed, hgated.first_le, hgated.fresh, hgated.settled,
      hgated.waiting, hgated.ended, hgated.unstarted⟩, hsettled⟩ ?_ ok handler
    exact hgated.helloPending hwaiting

theorem verifyRemoteHello_eq_ok {encoded : List UInt8} {hello : SignedHello}
    (h : verifyRemoteHello H options encoded = .ok hello) : hello.Expected H options := by
  unfold verifyRemoteHello at h
  obtain ⟨remote, hremote, hchecks⟩ := bind_eq_ok.1 h
  obtain ⟨hidentity, hchecks⟩ := check_bind_eq_ok.1 hchecks
  obtain ⟨hfingerprints, hsame⟩ := check_bind_eq_ok.1 hchecks
  have hdecode := mapError_eq_ok.1 hremote
  unfold decodeAndVerifyHello at hdecode
  obtain ⟨-, hdecode⟩ := check_bind_eq_ok.1 hdecode
  have hverified : H.verifyHello remote.signature options.gameId remote.localFingerprint
      remote.remoteFingerprint remote.pkId = true := by
    cases hvalue : H.decodeCanonical encoded with
    | none =>
        rw [hvalue] at hdecode
        cases hdecode
    | some value =>
        rw [hvalue] at hdecode
        obtain ⟨parsed, -, hparsed⟩ := bind_eq_ok.1 hdecode
        obtain ⟨hsignature, hparsed⟩ := check_bind_eq_ok.1 hparsed
        cases hparsed
        simpa using throwIf_eq_ok.1 hsignature
  cases hsame
  have hfingerprints := throwIf_eq_ok.1 hfingerprints
  rw [not_or, not_not, not_not] at hfingerprints
  exact ⟨not_not.1 (throwIf_eq_ok.1 hidentity), hfingerprints.1, hfingerprints.2, hverified⟩

theorem Sound.processHello (h : c.Sound H options) (hopen : c.lifecycle ≠ .closed)
    (frame : DataFrame) (handler : Handler) :
    (c.processHello H options frame handler).2.Sound H options := by
  unfold AuthenticatedPeerChannel.processHello
  by_cases hframe : frame.id ≠ HELLO_FRAME_ID ∨ frame.index ≠ 0 ∨ frame.count ≠ 1
  · rw [if_pos hframe]
    exact h
  · rw [if_neg hframe]
    cases hverify : verifyRemoteHello H options frame.bytes with
    | error error => exact h
    | ok hello =>
        obtain ⟨hgated, hsettled⟩ := h
        have hout : .closed ∉ c.trace := fun hold => hopen (hgated.closed.2 hold)
        have hseen : (c.emit (.helloVerified hello)).gate.Gated H options :=
          Gated.quiet hgated ⟨verifyRemoteHello_eq_ok hverify, hout⟩ (.inr (.inl ⟨hello, rfl⟩))
        refine Gated.completeAuthentication
          (c := { c.emit (.helloVerified hello) with remoteHelloVerified := true }) ⟨hseen.lawful, hseen.helloStarted, hseen.helloPending,
          hseen.helloSent, fun _ => ⟨hello, ?_⟩, hseen.before, hseen.authenticated, hseen.closed,
          hseen.first_le, hseen.fresh, hseen.settled, hseen.waiting, hseen.ended, hseen.unstarted⟩
          hsettled handler
        exact List.mem_append_right _ (List.mem_singleton.2 rfl)

/-- A payload is delivered only through an authenticated channel. -/
theorem Sound.deliver (h : c.Sound H options) (hlife : c.lifecycle = .authenticated) {id : ℕ}
    (hid : id ≠ HELLO_FRAME_ID) (payload : List UInt8) (handler : Handler) :
    (c.deliver id payload handler).2.Sound H options := by
  obtain ⟨hgated, hsettled⟩ := h
  have hmem : .authenticated ∈ c.trace := hgated.authenticated hlife
  have hout : .closed ∉ c.trace := fun hclosed => by
    have hclosed : c.lifecycle = .closed := hgated.closed.2 hclosed
    rw [hlife] at hclosed
    cases hclosed
  have hemitted : (c.emit (.delivered id payload)).gate.Gated H options :=
    Gated.quiet hgated ⟨hmem, hout, hid⟩ (.inr (.inr ⟨id, payload, rfl⟩))
  obtain ⟨hacts, hlifecycle⟩ := Gated.acts hemitted handler
  refine ⟨hacts, fun hauthenticated => ?_⟩
  rcases hlifecycle with hclosed | ⟨-, hpromise⟩
  · exact settled_of_closed hclosed hauthenticated
  · exact hpromise.trans (hsettled hlife)

theorem Sound.processPayload (h : c.Sound H options) (frame : DataFrame) (now later : Option ℚ)
    (handler : Handler) : (c.processPayload frame now later handler).2.Sound H options := by
  unfold AuthenticatedPeerChannel.processPayload
  by_cases hlife : c.lifecycle ≠ .authenticated
  · rw [if_pos hlife]
    exact h
  · rw [if_neg hlife]
    by_cases hid : frame.id = HELLO_FRAME_ID
    · rw [if_pos hid]
      exact h
    · rw [if_neg hid]
      obtain ⟨answer, reassembler⟩ := c.reassembler.accept frame.candidate now later
      cases answer with
      | error error => exact h
      | ok result =>
          cases result with
          | complete group payload =>
              exact Sound.deliver (c := { c with reassembler := reassembler }) h (not_not.1 hlife) hid
                payload handler
          | rejected group reason => exact h
          | incomplete group received count => exact h
          | duplicate group received count => exact h

theorem Sound.processIncoming (h : c.Sound H options) (encoded : IncomingBytes)
    (now later : Option ℚ) (handler : Handler) :
    (c.processIncoming H options encoded now later handler).2.Sound H options := by
  unfold AuthenticatedPeerChannel.processIncoming
  by_cases hclosed : c.lifecycle = .closed
  · rw [if_pos hclosed]
    exact h
  · rw [if_neg hclosed]
    cases decodeIncoming encoded with
    | error error => exact h
    | ok frame =>
        simp only
        by_cases hverified : c.remoteHelloVerified = false
        · rw [if_pos hverified]
          exact h.processHello hclosed frame handler
        · rw [if_neg hverified]
          exact h.processPayload frame now later handler

theorem Sound.handleMessage (h : c.Sound H options) (data : Option IncomingBytes) :
    (c.handleMessage options data).Sound H options := by
  unfold AuthenticatedPeerChannel.handleMessage
  by_cases hclosed : c.lifecycle = .closed
  · rw [if_pos hclosed]
    exact h
  · rw [if_neg hclosed]
    by_cases hfull : options.maxQueuedMessages ≤ c.queuedMessages
    · rw [if_pos hfull]
      exact h.fail _
    · rw [if_neg hfull]
      cases data with
      | none => exact h.fail _
      | some bytes => exact h

theorem Sound.process (h : c.Sound H options) (now later : Option ℚ) (handler : Handler) :
    (c.process H options now later handler).Sound H options := by
  unfold AuthenticatedPeerChannel.process
  split
  · rename_i encoded rest _ _
    exact Sound.processIncoming (c := { c with receiveQueue := rest }) h encoded now later handler
  · exact h

theorem Sound.settle (h : c.Sound H options) : c.settle.Sound H options := by
  unfold AuthenticatedPeerChannel.settle
  cases c.settling with
  | none => exact h
  | some thrown =>
      cases thrown with
      | none => exact h
      | some error =>
          exact Sound.fail (c := { c with settling := none, queuedMessages := c.queuedMessages - 1 })
            h error

/-- Every event keeps the gate. -/
theorem Sound.step (h : c.Sound H options) (event : ChannelEvent) :
    (c.step H options event).Sound H options := by
  unfold AuthenticatedPeerChannel.step
  cases event with
  | start readyState => exact h.start readyState
  | send payload => exact h.send payload
  | sendDone ok =>
      simp only
      by_cases hnone : c.pendingSends = 0
      · rw [if_pos hnone]
        exact h
      · rw [if_neg hnone]
        cases ok with
        | true => exact h
        | false => exact Sound.fail (c := { c with pendingSends := c.pendingSends - 1 }) h _
  | close => exact h.fail _
  | opened =>
      simp only
      by_cases hlistening : c.listening = true
      · rw [if_pos hlistening]
        exact h.sendHello
      · rw [if_neg hlistening]
        exact h
  | message data =>
      simp only
      by_cases hlistening : c.listening = true
      · rw [if_pos hlistening]
        exact h.handleMessage data
      · rw [if_neg hlistening]
        exact h
  | process now later handler => exact h.process now later handler
  | settle => exact h.settle
  | helloDone ok handler => exact h.helloDone ok handler
  | timeout =>
      simp only
      by_cases htimer : c.timer = true
      · rw [if_pos htimer]
        exact Sound.fail (c := { c with timer := false }) h _
      · rw [if_neg htimer]
        exact h
  | closed =>
      simp only
      by_cases hlistening : c.listening = true
      · rw [if_pos hlistening]
        exact h.fail _
      · rw [if_neg hlistening]
        exact h
  | error =>
      simp only
      by_cases hlistening : c.listening = true
      · rw [if_pos hlistening]
        exact h.fail _
      · rw [if_neg hlistening]
        exact h
  | expiry now later => exact h

theorem Sound.run (h : c.Sound H options) (events : List ChannelEvent) :
    (c.run H options events).Sound H options := by
  unfold AuthenticatedPeerChannel.run
  induction events generalizing c with
  | nil => exact h
  | cons event rest ih => exact ih (h.step event)

/-- A new channel has done nothing yet. -/
theorem create_sound (reassembler : FrameReassembler) :
    (create reassembler).Sound H options := by
  refine ⟨⟨.nil, by simp [gate, create], by simp [gate, create], by simp [gate, create],
    by simp [gate, create], by simp [gate, create], by simp [gate, create], by simp [gate, create],
    le_refl _, by simp [gate, create], by simp [gate, create, settlements], by simp [gate, create],
    by simp [gate, create], by simp [gate, create]⟩, ?_⟩
  intro hauthenticated
  cases hauthenticated

end AuthenticatedPeerChannel

open AuthenticatedPeerChannel

/-- **Nothing passes an unauthenticated channel.**  However the events of a channel are mixed,
every effect in its trace was permitted by those before it: a payload is delivered or sent only
after `onAuthenticated`, which comes once, after the local HELLO was sent and the remote one was
verified, and nothing happens after the channel has closed but that its promise is rejected.  A
send in another state is refused and changes nothing; and the promise of a channel that was started
has settled exactly once when the channel is authenticated or closed, and not before. -/
theorem channel_gates_payloads (H : HelloPrimitives) (options : ChannelOptions)
    (reassembler : FrameReassembler) (events : List ChannelEvent) (c : AuthenticatedPeerChannel)
    (hrun : (create reassembler).run H options events = c) :
    (∀ before effect after, c.trace = before ++ effect :: after →
      Permitted H options before effect) ∧
    (∀ payload, c.lifecycle ≠ .authenticated → c.send payload = (.error (.EXPECTED_HELLO
      "Application payload cannot be sent before reciprocal HELLO authentication"), c)) ∧
    (c.lifecycle = .closed ↔ .closed ∈ c.trace) ∧
    (c.lifecycle = .authenticated → .authenticated ∈ c.trace) ∧
    (c.started = true → settlements c.trace =
      if c.lifecycle = .authenticated ∨ c.lifecycle = .closed then 1 else 0) := by
  have hsound : c.Sound H options := hrun ▸ (create_sound reassembler).run events
  obtain ⟨hgated, hsettled⟩ := hsound
  refine ⟨fun before effect after htrace => hgated.lawful.may_of_eq htrace, fun payload hlife => ?_,
    hgated.closed, hgated.authenticated, fun hstarted => ?_⟩
  · unfold AuthenticatedPeerChannel.send
    rw [if_pos hlife]
  · have hcount := hgated.settled
    simp only [gate, hstarted, if_true] at hcount
    by_cases hover : c.lifecycle = .authenticated ∨ c.lifecycle = .closed
    · have hpromise : c.promise = false := by
        rcases hover with hauthenticated | hclosed
        · exact hsettled hauthenticated
        · exact hgated.ended hclosed
      rw [if_pos hover]
      simpa [hpromise] using hcount
    · have hpromise : c.promise = true := by
        cases hlife : c.lifecycle with
        | authenticating => exact hgated.waiting hlife
        | authenticated => exact absurd (.inl hlife) hover
        | closed => exact absurd (.inr hlife) hover
        | new =>
            have hidle : c.started = false := hgated.unstarted.2 hlife
            rw [hstarted] at hidle
            cases hidle
      rw [if_neg hover]
      simpa [hpromise] using hcount

/-! ## A conversation -/

/-- The HELLO of the peer. -/
def peerHello : SignedHello := ⟨zeroBytes 32, zeroBytes 32, zeroBytes 32, zeroBytes 64⟩

/-- Every HELLO is decoded to that of the peer, and its signature verified. -/
def peerPrimitives : HelloPrimitives where
  decodeCanonical _ := some (.map [("pk_id", .bytes peerHello.pkId.val),
    ("local_fp", .bytes peerHello.localFingerprint.val),
    ("remote_fp", .bytes peerHello.remoteFingerprint.val), ("sig", .bytes peerHello.signature.val)])
  verifyHello _ _ _ _ _ := true

def peerOptions : ChannelOptions :=
  ⟨zeroBytes 16, zeroBytes 32, zeroBytes 32, zeroBytes 32, 256⟩

/-- A handler that does nothing. -/
def quiet : Handler := ⟨[], false⟩

/-- A frame comes, and is processed at once. -/
def comes (frame : DataFrame) : List ChannelEvent :=
  [.message (some (encodeDataFrame frame.candidate).toOption), .process (some 0) (some 0) quiet,
    .settle]

/-- The HELLOs are exchanged; then a payload is sent, and one comes in two frames. -/
def conversation : List ChannelEvent :=
  [.start "open", .helloDone true quiet] ++ comes ⟨HELLO_FRAME_ID, 0, 1, [1]⟩ ++
    [.send [7], .sendDone true] ++ comes ⟨1, 1, 2, [6]⟩ ++ comes ⟨1, 0, 2, [5]⟩

theorem channel_gates_payloads_small :
    let c := (create defaultReassembler).run peerPrimitives peerOptions conversation
    c.trace = [.helloStarted, .helloSent, .helloVerified peerHello, .authenticated, .resolved,
      .sending 1 [7], .delivered 1 [5, 6]] ∧
    (∀ before effect after, c.trace = before ++ effect :: after →
      Permitted peerPrimitives peerOptions before effect) ∧ settlements c.trace = 1 := by
  intro c
  have hlive : c.lifecycle = .authenticated ∧ c.started = true := by decide +kernel
  obtain ⟨hpermitted, -, -, -, hsettled⟩ :=
    channel_gates_payloads peerPrimitives peerOptions defaultReassembler conversation c rfl
  refine ⟨by decide +kernel, hpermitted, ?_⟩
  rw [hsettled hlive.2, if_pos (.inl hlive.1)]

end Tablefolk
