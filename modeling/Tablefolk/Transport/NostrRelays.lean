import Tablefolk.Lib.OrderedMap
import Tablefolk.Lib.Replay

/-!
# The relays of a room

The model of the connections of `transport/nostr-signaling.ts`, from the sockets `join` creates to
`leave`: the relay entries, the timers of the reconnects, and the attempts they start.  A socket is
its number; it opens at most once, and after it has reported its close nothing comes from it.

* `Covered`: a relay is connected or connecting, is about to report its close, or will be tried
  again.
* `Inv`: what every step keeps.
* `relays_kept`: after `join`, the relays that are covered are those whose first socket could be
  created, no relay has two entries, and a covered one can always be reconnected.
-/

namespace Tablefolk

/-- `NostrRelayConnectionState`. -/
inductive RelayConnection where
  | connecting | subscribing | connected | failed | disconnected
  deriving DecidableEq, Repr

/-- `RelayState`; `lastError` says that there is one. -/
structure RelayState (α : Type) where
  url : α
  socket : ℕ
  state : RelayConnection
  lastError : Bool
  ready : Bool
  deriving DecidableEq, Repr

/-- What the callback of a reconnect timer leaves: the promise of `#connectRelay`, `none` while it
is pending, and the relay it is for. -/
structure ReconnectAttempt (α : Type) where
  timer : ℕ
  url : α
  relay : Option ℕ
  outcome : Option Bool
  deriving DecidableEq, Repr

/-- The connections of an adapter that is joining, or has joined. -/
structure NostrRelays (α : Type) where
  joined : Bool
  relays : List (RelayState α)
  /-- The entries that were spliced out. -/
  removed : List (RelayState α)
  /-- The sockets whose promise `join` still waits for. -/
  joining : List ℕ
  reconnectTimers : OrderedMap α ℕ
  /-- The timers that have not fired. -/
  timers : List (ℕ × α)
  attempts : List (ReconnectAttempt α)
  nextSocket : ℕ
  nextTimer : ℕ
  opened : List ℕ
  /-- The sockets that were told to close. -/
  closing : List ℕ
  /-- The sockets that have reported their close. -/
  closed : List ℕ

namespace NostrRelays

variable {α : Type} [DecidableEq α]

/-- `#relays.find`, by the socket of an entry. -/
def relay? (s : NostrRelays α) (socket : ℕ) : Option (RelayState α) :=
  s.relays.find? fun relay => relay.socket = socket

/-- Whether a relay is ready, also when its entry was spliced out. -/
def isReady (s : NostrRelays α) (socket : ℕ) : Bool :=
  ((s.relays ++ s.removed).find? fun relay => relay.socket = socket).any RelayState.ready

/-- Change the entry of a socket. -/
def setRelay (s : NostrRelays α) (socket : ℕ) (f : RelayState α → RelayState α) : NostrRelays α :=
  { s with relays := s.relays.map fun relay => if relay.socket = socket then f relay else relay }

/-- Resolve or reject the promise of a socket; a promise is settled once. -/
def settle (s : NostrRelays α) (socket : ℕ) (outcome : Bool) : NostrRelays α :=
  { s with
    joining := s.joining.filter (· ≠ socket)
    attempts := s.attempts.map fun attempt =>
      if attempt.relay = some socket ∧ attempt.outcome = none then
        { attempt with outcome := some outcome }
      else attempt }

/-- `socket.close()`. -/
def closeSocket (s : NostrRelays α) (socket : ℕ) : NostrRelays α :=
  { s with closing := socket :: s.closing }

/-- `#scheduleRelayReconnect`. -/
def scheduleRelayReconnect (s : NostrRelays α) (url : α) : NostrRelays α :=
  if s.joined = false ∨ (s.reconnectTimers.get? url).isSome then s
  else
    { s with
      reconnectTimers := s.reconnectTimers.set url s.nextTimer
      timers := (s.nextTimer, url) :: s.timers
      nextTimer := s.nextTimer + 1 }

/-- A relay whose socket is open. -/
def RelayState.subscribe (relay : RelayState α) : RelayState α :=
  { relay with state := .subscribing, lastError := false }

/-- A relay whose subscription is ready. -/
def RelayState.connect (relay : RelayState α) : RelayState α :=
  { relay with ready := true, state := .connected, lastError := false }

/-- A relay that failed. -/
def RelayState.fail (relay : RelayState α) : RelayState α :=
  { relay with state := .failed, lastError := true }

/-- A relay to which nothing can be sent. -/
def RelayState.lose (relay : RelayState α) : RelayState α :=
  { relay with ready := false, state := .failed, lastError := true }

/-- A relay whose socket is closed. -/
def RelayState.disconnect (relay : RelayState α) : RelayState α :=
  { relay with ready := false, state := if relay.lastError then .failed else .disconnected }

/-- The listener of `open`; `sent` says whether the subscription could be sent. -/
def onOpen (s : NostrRelays α) (socket : ℕ) (sent : Bool) : NostrRelays α :=
  let s := { s with opened := socket :: s.opened }
  match s.relay? socket with
  | none => (s.closeSocket socket).settle socket false
  | some _ =>
      let s := s.setRelay socket RelayState.subscribe
      if sent then s
      else ((s.setRelay socket RelayState.fail).settle socket false).closeSocket socket

/-- The `EOSE` part of `#acceptRelayMessage`; `replayed` says whether the retained publications
could be sent again. -/
def onEose (s : NostrRelays α) (socket : ℕ) (replayed : Bool) : NostrRelays α :=
  match s.relay? socket with
  | none => s
  | some relay =>
      if relay.ready then s
      else
        let s := (s.setRelay socket RelayState.connect).settle socket true
        if replayed then s
        else ((s.setRelay socket RelayState.lose).closeSocket socket).scheduleRelayReconnect relay.url

/-- The `CLOSED` part of `#acceptRelayMessage`. -/
def onClosedMessage (s : NostrRelays α) (socket : ℕ) : NostrRelays α :=
  match s.relay? socket with
  | none => s
  | some _ => ((s.setRelay socket RelayState.fail).settle socket false).closeSocket socket

/-- The listener of `error`. -/
def onError (s : NostrRelays α) (socket : ℕ) : NostrRelays α :=
  match s.relay? socket with
  | none => s
  | some relay =>
      let s := s.setRelay socket RelayState.fail
      (if relay.ready then s else s.settle socket false).closeSocket socket

/-- The listener of `close`. -/
def onClose (s : NostrRelays α) (socket : ℕ) : NostrRelays α :=
  let s := { s with closed := socket :: s.closed }
  match s.relay? socket with
  | none => if s.isReady socket then s else s.settle socket false
  | some relay =>
      ((s.setRelay socket RelayState.disconnect).settle socket false).scheduleRelayReconnect relay.url

/-- The failure of a `send` in `#broadcast`, which goes to the relays that are connected. -/
def onSendFailure (s : NostrRelays α) (socket : ℕ) : NostrRelays α :=
  match s.relay? socket with
  | none => s
  | some relay =>
      if relay.ready ∧ relay.state = .connected then
        ((s.setRelay socket RelayState.lose).closeSocket socket).scheduleRelayReconnect relay.url
      else s

/-- What `join` does to a relay that is not ready in time. -/
def timeOut (s : NostrRelays α) (socket : ℕ) : NostrRelays α :=
  match s.relay? socket with
  | none => s
  | some relay =>
      if relay.ready then s
      else ((s.setRelay socket RelayState.fail).settle socket false).closeSocket socket

/-- The end of `join`. -/
def finishJoin (s : NostrRelays α) : NostrRelays α :=
  ((s.relays.filter fun relay => !relay.ready).map RelayState.url).foldl scheduleRelayReconnect
    { s with joined := true }

/-- The callback of a reconnect timer; `created` says whether the socket can be created. -/
def reconnect (s : NostrRelays α) (timer : ℕ) (url : α) (created : Bool) : NostrRelays α :=
  let previous := s.relays.filter fun relay => relay.url = url
  let s := { s with
    timers := s.timers.erase (timer, url)
    relays := s.relays.filter fun relay => relay.url ≠ url
    removed := s.removed ++ previous
    closing := previous.map RelayState.socket ++ s.closing }
  if created then
    { s with
      relays := s.relays ++ [⟨url, s.nextSocket, .connecting, false, false⟩]
      attempts := ⟨timer, url, some s.nextSocket, none⟩ :: s.attempts
      nextSocket := s.nextSocket + 1 }
  else { s with attempts := ⟨timer, url, none, some false⟩ :: s.attempts }

/-- The timeout of an attempt. -/
def attemptTimeout (s : NostrRelays α) (attempt : ReconnectAttempt α) : NostrRelays α :=
  match attempt.relay with
  | none => s
  | some socket =>
      match s.relay? socket with
      | none => s
      | some relay => if relay.ready then s else (s.settle socket false).closeSocket socket

/-- What follows a settled attempt. -/
def afterAttempt (s : NostrRelays α) (attempt : ReconnectAttempt α) (resolved : Bool) :
    NostrRelays α :=
  let s := { s with attempts := s.attempts.erase attempt }
  if s.reconnectTimers.get? attempt.url ≠ some attempt.timer then s
  else
    let s := { s with reconnectTimers := s.reconnectTimers.delete attempt.url }
    if resolved then
      match attempt.relay with
      | none => s
      | some socket => if s.isReady socket then s else s.scheduleRelayReconnect attempt.url
    else s.scheduleRelayReconnect attempt.url

/-- What a socket reports, or what is done with it. -/
inductive SocketEvent where
  | opened (sent : Bool)
  | eose (replayed : Bool)
  | closedMessage
  | error
  | close
  | sendFailure
  deriving DecidableEq, Repr

/-- What happens to the relays. -/
inductive RelayInput (α : Type) where
  | socket (socket : ℕ) (event : SocketEvent)
  | joinTimeout
  | finishJoin
  | timer (timer : ℕ) (url : α) (created : Bool)
  | attemptTimeout (attempt : ReconnectAttempt α)
  | settled (attempt : ReconnectAttempt α)
  deriving DecidableEq, Repr

/-- The event of a socket. -/
def onSocket (s : NostrRelays α) (socket : ℕ) : SocketEvent → NostrRelays α
  | .opened sent => s.onOpen socket sent
  | .eose replayed => s.onEose socket replayed
  | .closedMessage => s.onClosedMessage socket
  | .error => s.onError socket
  | .close => s.onClose socket
  | .sendFailure => s.onSendFailure socket

/-- A socket can report an event: it opens once, messages come after that, and nothing comes after
its close. -/
def CanReport (s : NostrRelays α) (socket : ℕ) (event : SocketEvent) : Prop :=
  socket < s.nextSocket ∧ socket ∉ s.closed ∧
    match event with
    | .opened _ => socket ∉ s.opened
    | .eose _ | .closedMessage => socket ∈ s.opened
    | _ => True

instance (s : NostrRelays α) (socket : ℕ) (event : SocketEvent) :
    Decidable (s.CanReport socket event) := by
  unfold CanReport
  cases event <;> exact inferInstance

/-- One step; `none` when the input cannot come. -/
def step (s : NostrRelays α) : RelayInput α → Option (NostrRelays α)
  | .socket socket event =>
      if s.CanReport socket event then some (s.onSocket socket event) else none
  | .joinTimeout =>
      if s.joined then none else some ((s.relays.map RelayState.socket).foldl timeOut s)
  | .finishJoin =>
      if s.joined = false ∧ s.joining = [] ∧ s.relays.any RelayState.ready then some s.finishJoin
      else none
  | .timer timer url created =>
      if s.joined ∧ (timer, url) ∈ s.timers then some (s.reconnect timer url created) else none
  | .attemptTimeout attempt =>
      if attempt ∈ s.attempts then some (s.attemptTimeout attempt) else none
  | .settled attempt =>
      match attempt.outcome with
      | none => none
      | some resolved =>
          if attempt ∈ s.attempts then some (s.afterAttempt attempt resolved) else none

/-- The calls of `#connectRelay` in `join`, for the relays whose socket can be created. -/
def connectAll (urls : List α) : NostrRelays α where
  joined := false
  relays := urls.zipIdx.map fun entry => ⟨entry.1, entry.2, .connecting, false, false⟩
  removed := []
  joining := List.range urls.length
  reconnectTimers := .empty
  timers := []
  attempts := []
  nextSocket := urls.length
  nextTimer := 0
  opened := []
  closing := []
  closed := []

/-- `join`; `created` says for which of the selected relays the socket can be created. -/
def join (selectedRelays : List α) (created : α → Bool) : NostrRelays α :=
  connectAll (selectedRelays.filter created)

/-- A relay is not forgotten: it has an entry that is connected or connecting, or whose close is
still to come, or there is a timer or an attempt for it. -/
def Covered (s : NostrRelays α) (url : α) : Prop :=
  (∃ relay ∈ s.relays, relay.url = url ∧ relay.socket ∉ s.closed ∧
    (relay.state = .connecting ∨ relay.state = .subscribing ∨ relay.state = .connected ∨
      relay.socket ∈ s.closing)) ∨
  ∃ timer, s.reconnectTimers.get? url = some timer ∧
    ((timer, url) ∈ s.timers ∨ ∃ attempt ∈ s.attempts, attempt.timer = timer ∧ attempt.url = url)

/-- What comes from a relay that can be reached: closes that were asked for are reported, sockets
can be created, they open and their subscription succeeds. -/
def Reachable : RelayInput α → Prop
  | .socket _ (.opened sent) => sent = true
  | .socket _ (.eose replayed) => replayed = true
  | .socket _ .close => True
  | .timer _ _ created => created = true
  | .settled _ => True
  | _ => False

/-- A relay has an entry that is subscribed. -/
def Connected (s : NostrRelays α) (url : α) : Prop :=
  ∃ relay ∈ s.relays, relay.url = url ∧ relay.ready = true ∧ relay.state = .connected ∧
    relay.socket ∉ s.closed

/-- What can come from a relay that is reachable connects it. -/
def Reconnects (s : NostrRelays α) (url : α) : Prop :=
  ∃ inputs s', (∀ input ∈ inputs, Reachable input) ∧ Replay.run step s inputs = some s' ∧
    s'.Connected url

/-! ## The invariant -/

/-- What every step keeps.  `target` are the relays that must not be forgotten, and `x` those for
which a reconnect has yet to be scheduled within the step. -/
structure Inv (target x : α → Prop) (s : NostrRelays α) : Prop where
  urls : (s.relays.map RelayState.url).Nodup
  sockets : (s.relays.map RelayState.socket).Nodup
  fresh : ∀ relay ∈ s.relays, relay.socket < s.nextSocket
  openedFresh : ∀ socket ∈ s.opened, socket < s.nextSocket
  closedFresh : ∀ socket ∈ s.closed, socket < s.nextSocket
  ready : ∀ relay ∈ s.relays, relay.ready = true → relay.socket ∈ s.opened ∧
    relay.socket ∉ s.closed ∧ (relay.state = .connected ∨ relay.socket ∈ s.closing)
  unready : s.joined = true → ∀ relay ∈ s.relays, relay.ready = false → ¬ x relay.url →
    (s.reconnectTimers.get? relay.url).isSome
  early : s.joined = false → s.reconnectTimers = .empty
  reaches : ∀ url, target url → ¬ x url →
    (∃ relay ∈ s.relays, relay.url = url) ∨ (s.reconnectTimers.get? url).isSome
  targets : ∀ url, (∃ relay ∈ s.relays, relay.url = url) ∨ (s.reconnectTimers.get? url).isSome →
    target url
  pending : ∀ url timer, s.reconnectTimers.get? url = some timer ↔ (timer, url) ∈ s.timers ∨
    ∃ attempt ∈ s.attempts, attempt.timer = timer ∧ attempt.url = url
  timersFresh : ∀ entry ∈ s.timers, entry.1 < s.nextTimer
  attemptsFresh : ∀ attempt ∈ s.attempts, attempt.timer < s.nextTimer
  timersNodup : s.timers.Nodup
  attemptsNodup : (s.attempts.map fun attempt => (attempt.timer, attempt.url)).Nodup
  disjoint : ∀ attempt ∈ s.attempts, (attempt.timer, attempt.url) ∉ s.timers
  unstarted : ∀ attempt ∈ s.attempts, attempt.relay = none → attempt.outcome = some false
  started : ∀ attempt ∈ s.attempts, ∀ socket, attempt.relay = some socket →
    ∃ relay ∈ s.relays, relay.socket = socket ∧ relay.url = attempt.url ∧
      (attempt.outcome = none → socket ∉ s.closed ∧ relay.ready = false)

variable {target x y : α → Prop} {s : NostrRelays α} {socket : ℕ} {url : α}

theorem Inv.mono (h : Inv target x s) (hxy : ∀ url, x url → y url) : Inv target y s :=
  { h with
    unready := fun hjoined relay hrelay hready hy =>
      h.unready hjoined relay hrelay hready fun hx => hy (hxy _ hx)
    reaches := fun url htarget hy => h.reaches url htarget fun hx => hy (hxy _ hx) }

/-- A socket has one entry. -/
theorem Inv.socket_inj (h : Inv target x s) {relay other : RelayState α} (hrelay : relay ∈ s.relays)
    (hother : other ∈ s.relays) (heq : relay.socket = other.socket) : relay = other :=
  List.inj_on_of_nodup_map h.sockets hrelay hother heq

/-- A relay has one entry. -/
theorem Inv.url_inj (h : Inv target x s) {relay other : RelayState α} (hrelay : relay ∈ s.relays)
    (hother : other ∈ s.relays) (heq : relay.url = other.url) : relay = other :=
  List.inj_on_of_nodup_map h.urls hrelay hother heq

theorem relay?_eq_some {relay : RelayState α} (h : s.relay? socket = some relay) :
    relay ∈ s.relays ∧ relay.socket = socket := by
  unfold relay? at h
  exact ⟨List.mem_of_find?_eq_some h, by simpa using List.find?_some h⟩

theorem relay?_eq_none (h : s.relay? socket = none) {relay : RelayState α}
    (hrelay : relay ∈ s.relays) : relay.socket ≠ socket := by
  simpa using List.find?_eq_none.1 h relay hrelay

theorem Inv.relay? (h : Inv target x s) {relay : RelayState α} (hrelay : relay ∈ s.relays) :
    s.relay? relay.socket = some relay := by
  cases hfind : s.relay? relay.socket with
  | none => exact absurd rfl (relay?_eq_none hfind hrelay)
  | some other =>
      obtain ⟨hother, heq⟩ := relay?_eq_some hfind
      rw [h.socket_inj hother hrelay heq]

/-- Whether an entry is ready is read from the entry. -/
theorem Inv.isReady (h : Inv target x s) {relay : RelayState α} (hrelay : relay ∈ s.relays) :
    s.isReady relay.socket = relay.ready := by
  have hfind := h.relay? hrelay
  unfold NostrRelays.relay? at hfind
  unfold NostrRelays.isReady
  rw [List.find?_append, hfind]
  rfl

theorem mem_setRelay {f : RelayState α → RelayState α} {relay : RelayState α} :
    relay ∈ (s.setRelay socket f).relays ↔
      ∃ before ∈ s.relays, (if before.socket = socket then f before else before) = relay :=
  List.mem_map

theorem mem_setRelay_self (f : RelayState α → RelayState α) {relay : RelayState α}
    (h : relay ∈ s.relays) : f relay ∈ (s.setRelay relay.socket f).relays :=
  mem_setRelay.2 ⟨relay, h, if_pos rfl⟩

/-- An entry changes, but for its relay and socket. -/
theorem Inv.setRelay (h : Inv target x s) (socket : ℕ) (f : RelayState α → RelayState α)
    (hurl : ∀ relay, (f relay).url = relay.url) (hsocket : ∀ relay, (f relay).socket = relay.socket)
    (hready : ∀ relay ∈ s.relays, relay.socket = socket → (f relay).ready = true →
      socket ∈ s.opened ∧ socket ∉ s.closed ∧ ((f relay).state = .connected ∨ socket ∈ s.closing))
    (hunready : ∀ relay ∈ s.relays, relay.socket = socket → (f relay).ready = false →
      relay.ready = false ∨ x relay.url)
    (hpending : ∀ attempt ∈ s.attempts, attempt.relay = some socket → attempt.outcome = none →
      ∀ relay ∈ s.relays, relay.socket = socket → (f relay).ready = false) :
    Inv target x (s.setRelay socket f) := by
  have hurls : ∀ relay, (if relay.socket = socket then f relay else relay).url = relay.url := by
    intro relay
    split_ifs
    · exact hurl relay
    · rfl
  have hsockets : ∀ relay, (if relay.socket = socket then f relay else relay).socket
      = relay.socket := by
    intro relay
    split_ifs
    · exact hsocket relay
    · rfl
  have hexists : ∀ url, (∃ relay ∈ (s.setRelay socket f).relays, relay.url = url) ↔
      ∃ relay ∈ s.relays, relay.url = url := by
    intro url
    constructor
    · rintro ⟨relay, hmem, rfl⟩
      obtain ⟨before, hbefore, rfl⟩ := mem_setRelay.1 hmem
      exact ⟨before, hbefore, (hurls before).symm⟩
    · rintro ⟨relay, hmem, rfl⟩
      exact ⟨_, mem_setRelay.2 ⟨relay, hmem, rfl⟩, hurls relay⟩
  refine { h with
    urls := ?_
    sockets := ?_
    fresh := ?_
    ready := ?_
    unready := ?_
    reaches := fun url htarget hx => ?_
    targets := fun url hcovered => ?_
    started := ?_ }
  · change ((s.relays.map _).map RelayState.url).Nodup
    rw [List.map_map, show RelayState.url ∘ (fun relay => if relay.socket = socket then f relay
      else relay) = RelayState.url from funext hurls]
    exact h.urls
  · change ((s.relays.map _).map RelayState.socket).Nodup
    rw [List.map_map, show RelayState.socket ∘ (fun relay => if relay.socket = socket then f relay
      else relay) = RelayState.socket from funext hsockets]
    exact h.sockets
  · intro relay hmem
    obtain ⟨before, hbefore, rfl⟩ := mem_setRelay.1 hmem
    rw [hsockets]
    exact h.fresh before hbefore
  · intro relay hmem
    obtain ⟨before, hbefore, rfl⟩ := mem_setRelay.1 hmem
    rw [hsockets]
    split_ifs with hsame
    · intro htrue
      rw [hsame]
      exact hready before hbefore hsame htrue
    · exact h.ready before hbefore
  · intro hjoined relay hmem
    obtain ⟨before, hbefore, rfl⟩ := mem_setRelay.1 hmem
    rw [hurls]
    split_ifs with hsame
    · intro hfalse hx
      rcases hunready before hbefore hsame hfalse with hbefore' | hexcept
      · exact h.unready hjoined before hbefore hbefore' hx
      · exact absurd hexcept hx
    · exact h.unready hjoined before hbefore
  · rw [hexists]
    exact h.reaches url htarget hx
  · rw [hexists] at hcovered
    exact h.targets url hcovered
  · intro attempt hattempt socket' hrelay
    obtain ⟨relay, hmem, hsame, hsameUrl, hnone⟩ := h.started attempt hattempt socket' hrelay
    refine ⟨_, mem_setRelay.2 ⟨relay, hmem, rfl⟩, (hsockets relay).trans hsame,
      (hurls relay).trans hsameUrl, fun hout => ⟨(hnone hout).1, ?_⟩⟩
    split_ifs with heq
    · exact hpending attempt hattempt (by rw [hrelay, ← hsame, heq]) hout relay hmem heq
    · exact (hnone hout).2

theorem mem_settle {outcome : Bool} {attempt : ReconnectAttempt α}
    (h : attempt ∈ (s.settle socket outcome).attempts) :
    ∃ before ∈ s.attempts, attempt.timer = before.timer ∧ attempt.url = before.url ∧
      attempt.relay = before.relay ∧ (attempt.outcome = none → before.outcome = none) ∧
      (before.relay ≠ some socket → attempt = before) ∧
      (before.relay = some socket → attempt.outcome ≠ none) := by
  obtain ⟨before, hbefore, rfl⟩ := List.mem_map.1 h
  refine ⟨before, hbefore, ?_⟩
  split_ifs with hsettles
  · exact ⟨rfl, rfl, rfl, fun h => absurd h (by simp), fun hne => absurd hsettles.1 hne, by simp⟩
  · exact ⟨rfl, rfl, rfl, fun h => h, fun _ => rfl, fun hrelay hnone => hsettles ⟨hrelay, hnone⟩⟩

theorem settle_timers (s : NostrRelays α) (socket : ℕ) (outcome : Bool) :
    (s.settle socket outcome).attempts.map (fun attempt => (attempt.timer, attempt.url))
      = s.attempts.map fun attempt => (attempt.timer, attempt.url) := by
  unfold settle
  simp only [List.map_map]
  refine List.map_congr_left fun attempt _ => ?_
  simp only [Function.comp_apply]
  split_ifs <;> rfl

theorem exists_settle {outcome : Bool} {timer : ℕ} {url : α} :
    (∃ attempt ∈ (s.settle socket outcome).attempts, attempt.timer = timer ∧ attempt.url = url) ↔
      ∃ attempt ∈ s.attempts, attempt.timer = timer ∧ attempt.url = url := by
  constructor
  · rintro ⟨attempt, hmem, rfl, rfl⟩
    obtain ⟨before, hbefore, htimer, hurl, -⟩ := mem_settle hmem
    exact ⟨before, hbefore, htimer.symm, hurl.symm⟩
  · rintro ⟨attempt, hmem, rfl, rfl⟩
    refine ⟨_, List.mem_map_of_mem hmem, ?_⟩
    split_ifs <;> exact ⟨rfl, rfl⟩

/-- A promise is settled. -/
theorem Inv.settle (h : Inv target x s) (socket : ℕ) (outcome : Bool) :
    Inv target x (s.settle socket outcome) := by
  refine { h with
    pending := fun url timer => ?_
    attemptsFresh := ?_
    attemptsNodup := ?_
    disjoint := ?_
    unstarted := ?_
    started := ?_ }
  · rw [exists_settle]
    exact h.pending url timer
  · intro attempt hmem
    obtain ⟨before, hbefore, htimer, -⟩ := mem_settle hmem
    exact htimer ▸ h.attemptsFresh before hbefore
  · rw [settle_timers]
    exact h.attemptsNodup
  · intro attempt hmem
    obtain ⟨before, hbefore, htimer, hurl, -⟩ := mem_settle hmem
    rw [htimer, hurl]
    exact h.disjoint before hbefore
  · intro attempt hmem hnone
    obtain ⟨before, hbefore, -, -, hrelay, -, hsame, -⟩ := mem_settle hmem
    rw [hrelay] at hnone
    rw [hsame (by simp [hnone])]
    exact h.unstarted before hbefore hnone
  · intro attempt hmem socket' hsocket
    obtain ⟨before, hbefore, -, hurl, hrelay, hnone, -⟩ := mem_settle hmem
    rw [hurl]
    obtain ⟨relay, hrelay', hsame, hsameUrl, hpending⟩ :=
      h.started before hbefore socket' (hrelay ▸ hsocket)
    exact ⟨relay, hrelay', hsame, hsameUrl, fun hout => hpending (hnone hout)⟩

/-- After its promise is settled, no attempt waits for a socket. -/
theorem settled_settle {outcome : Bool} {attempt : ReconnectAttempt α}
    (h : attempt ∈ (s.settle socket outcome).attempts) (hrelay : attempt.relay = some socket) :
    attempt.outcome ≠ none := by
  obtain ⟨before, -, -, -, hsame, -, -, hsettled⟩ := mem_settle h
  exact hsettled (hsame ▸ hrelay)

theorem Inv.closeSocket (h : Inv target x s) (socket : ℕ) : Inv target x (s.closeSocket socket) :=
  { h with
    ready := fun relay hrelay hready => by
      obtain ⟨hopened, hclosed, hstate⟩ := h.ready relay hrelay hready
      exact ⟨hopened, hclosed, hstate.imp_right (List.mem_cons_of_mem _)⟩ }

theorem Inv.opened (h : Inv target x s) (hfresh : socket < s.nextSocket) :
    Inv target x { s with opened := socket :: s.opened } :=
  { h with
    openedFresh := List.forall_mem_cons.2 ⟨hfresh, h.openedFresh⟩
    ready := fun relay hrelay hready => by
      obtain ⟨hopened, hclosed, hstate⟩ := h.ready relay hrelay hready
      exact ⟨List.mem_cons_of_mem _ hopened, hclosed, hstate⟩ }

/-- A socket reports its close; nothing waits for it any more. -/
theorem Inv.closed (h : Inv target x s) (hfresh : socket < s.nextSocket)
    (hready : ∀ relay ∈ s.relays, relay.socket = socket → relay.ready = false)
    (hsettled : ∀ attempt ∈ s.attempts, attempt.relay = some socket → attempt.outcome ≠ none) :
    Inv target x { s with closed := socket :: s.closed } := by
  refine { h with
    closedFresh := List.forall_mem_cons.2 ⟨hfresh, h.closedFresh⟩
    ready := ?_
    started := ?_ }
  · intro relay hrelay htrue
    obtain ⟨hopened, hclosed, hstate⟩ := h.ready relay hrelay htrue
    refine ⟨hopened, ?_, hstate⟩
    rw [List.mem_cons, not_or]
    refine ⟨fun heq => ?_, hclosed⟩
    rw [hready relay hrelay heq] at htrue
    cases htrue
  · intro attempt hattempt socket' hrelay
    obtain ⟨relay, hmem, hsame, hsameUrl, hnone⟩ := h.started attempt hattempt socket' hrelay
    refine ⟨relay, hmem, hsame, hsameUrl, fun hout => ⟨?_, (hnone hout).2⟩⟩
    rw [List.mem_cons, not_or]
    exact ⟨fun heq => hsettled attempt hattempt (heq ▸ hrelay) hout, (hnone hout).1⟩

/-- A relay that is scheduled is no exception any more. -/
theorem Inv.schedule (h : Inv target x s) (htarget : target url)
    (hjoin : s.joined = false → ∃ relay ∈ s.relays, relay.url = url) :
    Inv target (fun other => x other ∧ other ≠ url) (s.scheduleRelayReconnect url) := by
  unfold scheduleRelayReconnect
  split_ifs with hguard
  · refine { h with
      unready := fun hjoined relay hrelay hready hx => ?_
      reaches := fun other hother hx => ?_ }
    · by_cases hurl : relay.url = url
      · rcases hguard with hjoining | hscheduled
        · rw [hjoining] at hjoined
          cases hjoined
        · rw [hurl]
          exact hscheduled
      · exact h.unready hjoined relay hrelay hready fun hexcept => hx ⟨hexcept, hurl⟩
    · by_cases hurl : other = url
      · subst hurl
        rcases hguard with hjoining | hscheduled
        · exact .inl (hjoin hjoining)
        · exact .inr hscheduled
      · exact h.reaches other hother fun hexcept => hx ⟨hexcept, hurl⟩
  · rw [not_or] at hguard
    obtain ⟨hjoined, hnone⟩ := hguard
    have hget : s.reconnectTimers.get? url = none := by simpa using hnone
    have hset : ∀ other, ((s.reconnectTimers.set url s.nextTimer).get? other).isSome
        ↔ other = url ∨ (s.reconnectTimers.get? other).isSome := by
      intro other
      rw [OrderedMap.get?_set]
      split_ifs with hurl <;> simp [hurl]
    refine { h with
      unready := fun hjoined relay hrelay hready hx => (hset _).2 ?_
      early := fun hjoining => absurd hjoining hjoined
      reaches := fun other hother hx => ?_
      targets := fun other hcovered => ?_
      pending := fun other timer => ?_
      timersFresh := List.forall_mem_cons.2 ⟨Nat.lt_succ_self _,
        fun entry hentry => Nat.lt_succ_of_lt (h.timersFresh entry hentry)⟩
      attemptsFresh := fun attempt hattempt => Nat.lt_succ_of_lt (h.attemptsFresh attempt hattempt)
      timersNodup := List.nodup_cons.2 ⟨fun hmem => absurd (h.timersFresh _ hmem) (lt_irrefl _),
        h.timersNodup⟩
      disjoint := fun attempt hattempt hmem => ?_ }
    · by_cases hurl : relay.url = url
      · exact .inl hurl
      · exact .inr (h.unready hjoined relay hrelay hready fun hexcept => hx ⟨hexcept, hurl⟩)
    · rw [hset]
      by_cases hurl : other = url
      · exact .inr (.inl hurl)
      · exact (h.reaches other hother fun hexcept => hx ⟨hexcept, hurl⟩).imp_right .inr
    · rw [hset] at hcovered
      rcases hcovered with hrelay | rfl | hscheduled
      · exact h.targets other (.inl hrelay)
      · exact htarget
      · exact h.targets other (.inr hscheduled)
    · simp only [OrderedMap.get?_set, List.mem_cons, Prod.mk.injEq]
      split_ifs with hurl
      · subst hurl
        have hfree := h.pending other timer
        rw [hget] at hfree
        constructor
        · rintro ⟨⟩
          exact .inl (.inl ⟨rfl, rfl⟩)
        · rintro ((⟨rfl, -⟩ | hmem) | hattempt)
          · rfl
          · exact absurd (hfree.2 (.inl hmem)) (by simp)
          · exact absurd (hfree.2 (.inr hattempt)) (by simp)
      · rw [h.pending other timer]
        simp [hurl]
    · rcases List.mem_cons.1 hmem with heq | hmem
      · have hlt := h.attemptsFresh attempt hattempt
        rw [(Prod.mk.inj heq).1] at hlt
        exact lt_irrefl _ hlt
      · exact h.disjoint attempt hattempt hmem

/-! ## The steps -/

/-- A relay fails, and its socket is told to close. -/
theorem Inv.fail (h : Inv target x s) (socket : ℕ) :
    Inv target x ((s.setRelay socket RelayState.fail).closeSocket socket) := by
  change Inv target x ((s.closeSocket socket).setRelay socket RelayState.fail)
  refine (h.closeSocket socket).setRelay _ _ (fun _ => rfl) (fun _ => rfl) ?_ ?_ ?_
  · rintro relay hrelay rfl hready
    obtain ⟨hopened, hclosed, -⟩ := h.ready relay hrelay hready
    exact ⟨hopened, hclosed, .inr List.mem_cons_self⟩
  · exact fun relay _ _ hready => .inl hready
  · rintro attempt hattempt hrelay hnone relay hmem rfl
    obtain ⟨other, hother, hsame, -, hpending⟩ := h.started attempt hattempt _ hrelay
    rw [← h.socket_inj hother hmem hsame]
    exact (hpending hnone).2

/-- Nothing can be sent to a relay, and its reconnect is scheduled. -/
theorem Inv.lose (h : Inv target x s) {relay : RelayState α} (hrelay : relay ∈ s.relays)
    (hsettled : ∀ attempt ∈ s.attempts, attempt.relay = some relay.socket →
      attempt.outcome ≠ none) :
    Inv target x (((s.setRelay relay.socket RelayState.lose).closeSocket
      relay.socket).scheduleRelayReconnect relay.url) := by
  have hexcept : Inv target (fun url => x url ∨ url = relay.url) s := h.mono fun _ => .inl
  have hset := hexcept.setRelay relay.socket RelayState.lose (fun _ => rfl) (fun _ => rfl)
    (fun _ _ _ htrue => by cases htrue)
    (fun other hother hsame _ => .inr (.inr (by rw [h.socket_inj hother hrelay hsame])))
    (fun _ _ _ _ _ _ _ => rfl)
  refine ((hset.closeSocket relay.socket).schedule (h.targets _ (.inl ⟨relay, hrelay, rfl⟩))
    fun _ => ⟨_, mem_setRelay_self RelayState.lose hrelay, rfl⟩).mono ?_
  rintro url ⟨hx | heq, hne⟩
  · exact hx
  · exact absurd heq hne

theorem Inv.onOpen (h : Inv target x s) (hfresh : socket < s.nextSocket)
    (hunopened : socket ∉ s.opened) (sent : Bool) : Inv target x (s.onOpen socket sent) := by
  have hopened := h.opened hfresh
  unfold NostrRelays.onOpen
  simp only
  split
  · exact (hopened.closeSocket socket).settle socket false
  · have hset : Inv target x (NostrRelays.setRelay { s with opened := socket :: s.opened } socket
        RelayState.subscribe) := by
      refine hopened.setRelay _ _ (fun _ => rfl) (fun _ => rfl) ?_
        (fun _ _ _ hready => .inl hready) ?_
      · rintro relay hrelay rfl hready
        exact absurd (h.ready relay hrelay hready).1 hunopened
      · rintro attempt hattempt hattemptRelay hnone relay hmem rfl
        obtain ⟨other, hother, hsame, -, hpending⟩ := h.started attempt hattempt _ hattemptRelay
        rw [← h.socket_inj hother hmem hsame]
        exact (hpending hnone).2
    split_ifs
    · exact hset
    · exact (hset.fail socket).settle socket false

theorem Inv.onEose (h : Inv target x s) (hopened : socket ∈ s.opened) (hclosed : socket ∉ s.closed)
    (replayed : Bool) : Inv target x (s.onEose socket replayed) := by
  unfold NostrRelays.onEose
  cases hrelay : s.relay? socket with
  | none => exact h
  | some relay =>
      obtain ⟨hmem, rfl⟩ := relay?_eq_some hrelay
      simp only
      have hset := (h.settle relay.socket true).setRelay relay.socket RelayState.connect
        (fun _ => rfl) (fun _ => rfl) (fun _ _ _ _ => ⟨hopened, hclosed, .inl rfl⟩)
        (fun _ _ _ hfalse => by cases hfalse)
        (fun attempt hattempt hsame hnone => absurd hnone (settled_settle hattempt hsame))
      split_ifs with hready hreplayed
      · exact h
      · exact hset
      · have hconnected : RelayState.connect relay ∈ ((s.settle relay.socket true).setRelay relay.socket
            RelayState.connect).relays := mem_setRelay_self RelayState.connect hmem
        have hlost := hset.lose hconnected
          fun attempt hattempt hsame => settled_settle hattempt hsame
        exact hlost

theorem Inv.onClosedMessage (h : Inv target x s) (socket : ℕ) :
    Inv target x (s.onClosedMessage socket) := by
  unfold NostrRelays.onClosedMessage
  split
  · exact h
  · exact (h.fail socket).settle socket false

theorem Inv.onError (h : Inv target x s) (socket : ℕ) : Inv target x (s.onError socket) := by
  unfold NostrRelays.onError
  split
  · exact h
  · simp only
    split_ifs
    · exact h.fail socket
    · exact (h.fail socket).settle socket false

theorem Inv.onClose (h : Inv target x s) (hfresh : socket < s.nextSocket) :
    Inv target x (s.onClose socket) := by
  unfold NostrRelays.onClose
  simp only
  cases hrelay : NostrRelays.relay? { s with closed := socket :: s.closed } socket with
  | none =>
      have hnone : ∀ relay ∈ s.relays, relay.socket ≠ socket := fun _ => relay?_eq_none hrelay
      have hclosed : Inv target x { s with closed := socket :: s.closed } := by
        refine h.closed hfresh (fun relay hmem heq => absurd heq (hnone relay hmem)) ?_
        intro attempt hattempt hsame
        obtain ⟨other, hother, heq, -⟩ := h.started attempt hattempt socket hsame
        exact absurd heq (hnone other hother)
      simp only
      split_ifs
      · exact hclosed
      · exact hclosed.settle socket false
  | some relay =>
      obtain ⟨hmem, rfl⟩ := relay?_eq_some hrelay
      simp only
      have hexcept : Inv target (fun url => x url ∨ url = relay.url) (s.settle relay.socket false) :=
        (h.mono fun _ => .inl).settle relay.socket false
      have hset := hexcept.setRelay relay.socket RelayState.disconnect
        (fun _ => rfl) (fun _ => rfl) (fun _ _ _ htrue => by cases htrue)
        (fun other hother hsame _ => .inr (.inr (by rw [h.socket_inj hother hmem hsame])))
        (fun _ _ _ _ _ _ _ => rfl)
      have hunready : ∀ other ∈ ((s.settle relay.socket false).setRelay relay.socket
          RelayState.disconnect).relays, other.socket = relay.socket → other.ready = false := by
        intro other hother hsame
        obtain ⟨before, hbefore, rfl⟩ := mem_setRelay.1 hother
        split_ifs at hsame ⊢ with heq
        · rfl
        · exact absurd hsame heq
      have hclosed := hset.closed hfresh hunready
        fun attempt hattempt hsame => settled_settle hattempt hsame
      refine (hclosed.schedule (h.targets _ (.inl ⟨relay, hmem, rfl⟩))
        fun _ => ⟨_, mem_setRelay_self RelayState.disconnect hmem, rfl⟩).mono ?_
      rintro url ⟨hx | heq, hne⟩
      · exact hx
      · exact absurd heq hne

theorem Inv.onSendFailure (h : Inv target x s) (socket : ℕ) :
    Inv target x (s.onSendFailure socket) := by
  unfold NostrRelays.onSendFailure
  cases hrelay : s.relay? socket with
  | none => exact h
  | some relay =>
      obtain ⟨hmem, rfl⟩ := relay?_eq_some hrelay
      simp only
      split_ifs with hconnected
      · refine h.lose hmem fun attempt hattempt hsame hnone => ?_
        obtain ⟨other, hother, heq, -, hpending⟩ := h.started attempt hattempt _ hsame
        have hready := (hpending hnone).2
        rw [h.socket_inj hother hmem heq, hconnected.1] at hready
        cases hready
      · exact h

theorem Inv.timeOut (h : Inv target x s) (socket : ℕ) : Inv target x (s.timeOut socket) := by
  unfold NostrRelays.timeOut
  split
  · exact h
  · split_ifs
    · exact h
    · exact (h.fail socket).settle socket false

theorem Inv.timeOuts (h : Inv target x s) (sockets : List ℕ) :
    Inv target x (sockets.foldl NostrRelays.timeOut s) := by
  induction sockets generalizing s with
  | nil => exact h
  | cons socket rest ih => exact ih (h.timeOut socket)

theorem Inv.schedules (urls : List α) (h : Inv target x s) (hjoined : s.joined = true)
    (htarget : ∀ url ∈ urls, target url) :
    Inv target (fun url => x url ∧ url ∉ urls) (urls.foldl scheduleRelayReconnect s) := by
  induction urls generalizing s x with
  | nil => exact h.mono fun url hx => ⟨hx, List.not_mem_nil⟩
  | cons url rest ih =>
      have hnext := h.schedule (htarget url List.mem_cons_self)
        (fun hjoining => by rw [hjoined] at hjoining; cases hjoining)
      have hstill : (s.scheduleRelayReconnect url).joined = true := by
        unfold scheduleRelayReconnect
        split_ifs <;> exact hjoined
      refine (ih hnext hstill fun other hmem => htarget other (List.mem_cons_of_mem _ hmem)).mono ?_
      rintro other ⟨⟨hx, hne⟩, hrest⟩
      exact ⟨hx, fun hmem => (List.mem_cons.1 hmem).elim hne hrest⟩

theorem Inv.finishJoin (h : Inv target (fun _ => False) s) :
    Inv target (fun _ => False) s.finishJoin := by
  have hjoined : Inv target (fun url => ∃ relay ∈ s.relays, relay.url = url ∧ relay.ready = false)
      { s with joined := true } :=
    { h with
      unready := fun _ relay hrelay hready hx => absurd ⟨relay, hrelay, rfl, hready⟩ hx
      early := fun hjoining => by cases hjoining
      reaches := fun url htarget _ => h.reaches url htarget fun hfalse => hfalse }
  refine (hjoined.schedules _ rfl ?_).mono ?_
  · intro url hurl
    obtain ⟨relay, hrelay, rfl⟩ := List.mem_map.1 hurl
    exact h.targets _ (.inl ⟨relay, (List.mem_filter.1 hrelay).1, rfl⟩)
  · rintro url ⟨⟨relay, hrelay, rfl, hready⟩, hout⟩
    exact hout (List.mem_map_of_mem (List.mem_filter.2 ⟨hrelay, by simp [hready]⟩))

theorem Inv.attemptTimeout (h : Inv target x s) (attempt : ReconnectAttempt α) :
    Inv target x (s.attemptTimeout attempt) := by
  unfold NostrRelays.attemptTimeout
  split
  · exact h
  · split
    · exact h
    · split_ifs
      · exact h
      · exact (h.settle _ false).closeSocket _

/-- A timer fires: the entries of its relay make room for the next one. -/
theorem Inv.reconnect (h : Inv target (fun _ => False) s) (hjoined : s.joined = true) {timer : ℕ}
    (htimer : (timer, url) ∈ s.timers) (created : Bool) :
    Inv target (fun _ => False) (s.reconnect timer url created) := by
  have hget : s.reconnectTimers.get? url = some timer := (h.pending url timer).2 (.inl htimer)
  have htarget : target url := h.targets url (.inr (by rw [hget]; rfl))
  have hsub : (s.relays.filter fun relay => relay.url ≠ url).Sublist s.relays :=
    List.filter_sublist
  -- the other attempts keep their entries
  have hothers : ∀ attempt ∈ s.attempts, attempt.url ≠ url := by
    rintro attempt hattempt rfl
    have hsame := (h.pending attempt.url attempt.timer).2 (.inr ⟨attempt, hattempt, rfl, rfl⟩)
    rw [hget] at hsame
    cases hsame
    exact h.disjoint attempt hattempt htimer
  have hstarted : ∀ attempt ∈ s.attempts, ∀ socket, attempt.relay = some socket →
      ∃ relay ∈ s.relays.filter fun relay => relay.url ≠ url, relay.socket = socket ∧
        relay.url = attempt.url ∧ (attempt.outcome = none → socket ∉ s.closed ∧
          relay.ready = false) := by
    intro attempt hattempt socket hrelay
    obtain ⟨relay, hmem, hsame, hurl, hnone⟩ := h.started attempt hattempt socket hrelay
    refine ⟨relay, List.mem_filter.2 ⟨hmem, ?_⟩, hsame, hurl, hnone⟩
    simpa [hurl] using hothers attempt hattempt
  have hpending : ∀ (attempt : ReconnectAttempt α), attempt.timer = timer → attempt.url = url →
      ∀ other t, s.reconnectTimers.get? other = some t ↔ (t, other) ∈ s.timers.erase (timer, url) ∨
        ∃ attempt' ∈ attempt :: s.attempts, attempt'.timer = t ∧ attempt'.url = other := by
    intro attempt hsame hsameUrl other t
    rw [h.pending other t, h.timersNodup.mem_erase_iff]
    simp only [List.mem_cons, exists_eq_or_imp, hsame, hsameUrl, ne_eq, Prod.mk.injEq]
    constructor
    · rintro (hmem | hattempt)
      · by_cases heq : t = timer ∧ other = url
        · exact .inr (.inl ⟨heq.1.symm, heq.2.symm⟩)
        · exact .inl ⟨heq, hmem⟩
      · exact .inr (.inr hattempt)
    · rintro (⟨-, hmem⟩ | ⟨rfl, rfl⟩ | hattempt)
      · exact .inl hmem
      · exact .inl htimer
      · exact .inr hattempt
  have hfresh : (timer, url) ∉ s.attempts.map fun attempt => (attempt.timer, attempt.url) := by
    intro hmem
    obtain ⟨attempt, hattempt, heq⟩ := List.mem_map.1 hmem
    exact hothers attempt hattempt (Prod.mk.inj heq).2
  have hreaches : ∀ other, target other → (∃ relay ∈ s.relays.filter fun relay => relay.url ≠ url,
      relay.url = other) ∨ (s.reconnectTimers.get? other).isSome := by
    intro other hother
    by_cases hurl : other = url
    · rw [hurl, hget]
      exact .inr rfl
    · refine (h.reaches other hother fun hfalse => hfalse).imp_left ?_
      rintro ⟨relay, hmem, rfl⟩
      exact ⟨relay, List.mem_filter.2 ⟨hmem, by simpa using hurl⟩, rfl⟩
  have hready : ∀ relay ∈ s.relays.filter fun relay => relay.url ≠ url, relay.ready = true →
      relay.socket ∈ s.opened ∧ relay.socket ∉ s.closed ∧ (relay.state = .connected ∨
        relay.socket ∈ (s.relays.filter fun relay => relay.url = url).map RelayState.socket
          ++ s.closing) := by
    intro relay hmem htrue
    obtain ⟨hopened, hclosed, hstate⟩ := h.ready relay (hsub.subset hmem) htrue
    exact ⟨hopened, hclosed, hstate.imp_right (List.mem_append_right _)⟩
  unfold NostrRelays.reconnect
  simp only
  split_ifs
  · -- a socket is created
    have hnew : s.nextSocket ∉ (s.relays.filter fun relay => relay.url ≠ url).map
        RelayState.socket := by
      intro hmem
      obtain ⟨relay, hrelay, heq⟩ := List.mem_map.1 hmem
      exact absurd (h.fresh relay (hsub.subset hrelay)) (by omega)
    have hnewUrl : url ∉ (s.relays.filter fun relay => relay.url ≠ url).map RelayState.url := by
      intro hmem
      obtain ⟨relay, hrelay, heq⟩ := List.mem_map.1 hmem
      simpa [heq] using (List.mem_filter.1 hrelay).2
    refine
      { urls := ?_, sockets := ?_, fresh := ?_
        openedFresh := fun socket hmem => Nat.lt_succ_of_lt (h.openedFresh socket hmem)
        closedFresh := fun socket hmem => Nat.lt_succ_of_lt (h.closedFresh socket hmem)
        ready := ?_, unready := ?_, early := fun hjoining => by rw [hjoined] at hjoining; cases hjoining
        reaches := fun other hother _ => ?_, targets := fun other hcovered => ?_
        pending := hpending _ rfl rfl
        timersFresh := fun entry hmem => h.timersFresh entry (List.mem_of_mem_erase hmem)
        attemptsFresh := List.forall_mem_cons.2 ⟨h.timersFresh _ htimer, h.attemptsFresh⟩
        timersNodup := h.timersNodup.erase _
        attemptsNodup := List.nodup_cons.2 ⟨hfresh, h.attemptsNodup⟩
        disjoint := List.forall_mem_cons.2 ⟨h.timersNodup.not_mem_erase, fun attempt hattempt hmem =>
          h.disjoint attempt hattempt (List.mem_of_mem_erase hmem)⟩
        unstarted := List.forall_mem_cons.2 ⟨(fun hnone => by cases hnone), h.unstarted⟩
        started := ?_ }
    · rw [List.map_append]
      exact List.Nodup.append ((hsub.map _).nodup h.urls) (List.nodup_singleton _)
        (List.disjoint_singleton.2 hnewUrl)
    · rw [List.map_append]
      exact List.Nodup.append ((hsub.map _).nodup h.sockets) (List.nodup_singleton _)
        (List.disjoint_singleton.2 hnew)
    · intro relay hmem
      rcases List.mem_append.1 hmem with hold | hadded
      · exact Nat.lt_succ_of_lt (h.fresh relay (hsub.subset hold))
      · rw [List.mem_singleton.1 hadded]
        exact Nat.lt_succ_self _
    · intro relay hmem htrue
      rcases List.mem_append.1 hmem with hold | hadded
      · exact hready relay hold htrue
      · rw [List.mem_singleton.1 hadded] at htrue
        cases htrue
    · intro _ relay hmem hfalse _
      rcases List.mem_append.1 hmem with hold | hadded
      · exact h.unready hjoined relay (hsub.subset hold) hfalse fun hf => hf
      · rw [List.mem_singleton.1 hadded]
        simp only
        rw [hget]
        rfl
    · refine (hreaches other hother).imp_left ?_
      rintro ⟨relay, hmem, rfl⟩
      exact ⟨relay, List.mem_append_left _ hmem, rfl⟩
    · rcases hcovered with ⟨relay, hmem, rfl⟩ | hscheduled
      · rcases List.mem_append.1 hmem with hold | hadded
        · exact h.targets _ (.inl ⟨relay, hsub.subset hold, rfl⟩)
        · rw [List.mem_singleton.1 hadded]
          exact htarget
      · exact h.targets other (.inr hscheduled)
    · intro attempt hattempt socket hrelay
      rcases List.mem_cons.1 hattempt with rfl | hold
      · cases hrelay
        exact ⟨_, List.mem_append_right _ (List.mem_singleton.2 rfl), rfl, rfl,
          fun _ => ⟨fun hclosed => absurd (h.closedFresh _ hclosed) (lt_irrefl _), rfl⟩⟩
      · obtain ⟨relay, hmem, hrest⟩ := hstarted attempt hold socket hrelay
        exact ⟨relay, List.mem_append_left _ hmem, hrest⟩
  · refine
      { urls := (hsub.map _).nodup h.urls
        sockets := (hsub.map _).nodup h.sockets
        fresh := fun relay hmem => h.fresh relay (hsub.subset hmem)
        openedFresh := h.openedFresh, closedFresh := h.closedFresh, ready := hready
        unready := fun _ relay hmem hfalse _ => h.unready hjoined relay (hsub.subset hmem) hfalse
          fun hf => hf
        early := fun hjoining => by rw [hjoined] at hjoining; cases hjoining
        reaches := fun other hother _ => hreaches other hother
        targets := fun other hcovered => h.targets other (hcovered.imp_left ?_)
        pending := hpending _ rfl rfl
        timersFresh := fun entry hmem => h.timersFresh entry (List.mem_of_mem_erase hmem)
        attemptsFresh := List.forall_mem_cons.2 ⟨h.timersFresh _ htimer, h.attemptsFresh⟩
        timersNodup := h.timersNodup.erase _
        attemptsNodup := List.nodup_cons.2 ⟨hfresh, h.attemptsNodup⟩
        disjoint := List.forall_mem_cons.2 ⟨h.timersNodup.not_mem_erase, fun attempt hattempt hmem =>
          h.disjoint attempt hattempt (List.mem_of_mem_erase hmem)⟩
        unstarted := List.forall_mem_cons.2 ⟨fun _ => rfl, h.unstarted⟩
        started := ?_ }
    · rintro ⟨relay, hmem, rfl⟩
      exact ⟨relay, hsub.subset hmem, rfl⟩
    · intro attempt hattempt socket hrelay
      rcases List.mem_cons.1 hattempt with rfl | hold
      · cases hrelay
      · exact hstarted attempt hold socket hrelay

/-- A settled attempt is over. -/
theorem Inv.finish (h : Inv target (fun _ => False) s) {attempt : ReconnectAttempt α}
    (hattempt : attempt ∈ s.attempts) :
    Inv target (fun url => url = attempt.url) { s with
      attempts := s.attempts.erase attempt
      reconnectTimers := s.reconnectTimers.delete attempt.url } := by
  have hget : s.reconnectTimers.get? attempt.url = some attempt.timer :=
    (h.pending _ _).2 (.inr ⟨attempt, hattempt, rfl, rfl⟩)
  have hnodup : s.attempts.Nodup := List.Nodup.of_map _ h.attemptsNodup
  have hdelete : ∀ other, other ≠ attempt.url →
      (s.reconnectTimers.delete attempt.url).get? other = s.reconnectTimers.get? other := by
    intro other hne
    rw [OrderedMap.get?_delete, if_neg hne]
  refine { h with
    unready := fun hjoined relay hrelay hready hx => ?_
    early := fun hjoining => ?_
    reaches := fun other hother hx => ?_
    targets := fun other hcovered => ?_
    pending := fun other timer => ?_
    attemptsFresh := fun other hother => h.attemptsFresh other (List.mem_of_mem_erase hother)
    attemptsNodup := h.attemptsNodup.sublist (List.erase_sublist.map _)
    disjoint := fun other hother => h.disjoint other (List.mem_of_mem_erase hother)
    unstarted := fun other hother => h.unstarted other (List.mem_of_mem_erase hother)
    started := fun other hother => h.started other (List.mem_of_mem_erase hother) }
  · simp only
    rw [hdelete _ hx]
    exact h.unready hjoined relay hrelay hready fun hf => hf
  · have hempty := h.early hjoining
    rw [hempty] at hget
    cases hget
  · simp only
    rw [hdelete _ hx]
    exact h.reaches other hother fun hf => hf
  · refine h.targets other (hcovered.imp_right fun hscheduled => ?_)
    simp only at hscheduled
    rw [OrderedMap.get?_delete] at hscheduled
    split_ifs at hscheduled
    · cases hscheduled
    · exact hscheduled
  · simp only
    rw [OrderedMap.get?_delete]
    split_ifs with hurl
    · subst hurl
      refine ⟨(fun hnone => by cases hnone), ?_⟩
      rintro (hmem | ⟨other, hother, rfl, hsame⟩)
      · have hsame := (h.pending _ _).2 (.inl hmem)
        rw [hget] at hsame
        cases hsame
        exact absurd hmem (h.disjoint attempt hattempt)
      · have hsameTimer := (h.pending _ _).2 (.inr ⟨other, List.mem_of_mem_erase hother, rfl, hsame⟩)
        rw [hget] at hsameTimer
        have heq : other = attempt := List.inj_on_of_nodup_map h.attemptsNodup
          (List.mem_of_mem_erase hother) hattempt (Prod.ext (Option.some.inj hsameTimer).symm hsame)
        rw [heq] at hother
        exact absurd hother hnodup.not_mem_erase
    · rw [h.pending other timer]
      refine or_congr_right ⟨?_, ?_⟩
      · rintro ⟨other', hother', rfl, rfl⟩
        exact ⟨other', (hnodup.mem_erase_iff).2 ⟨fun heq => hurl (heq ▸ rfl), hother'⟩, rfl, rfl⟩
      · rintro ⟨other', hother', rfl, rfl⟩
        exact ⟨other', List.mem_of_mem_erase hother', rfl, rfl⟩

/-- An exception with an entry that is ready is none. -/
theorem Inv.of_ready (h : Inv target (fun other => other = url) s) {relay : RelayState α}
    (hrelay : relay ∈ s.relays) (hurl : relay.url = url) (hready : relay.ready = true) :
    Inv target (fun _ => False) s :=
  { h with
    unready := fun hjoined other hother hfalse _ => by
      by_cases heq : other.url = url
      · rw [h.url_inj hother hrelay (heq.trans hurl.symm), hready] at hfalse
        cases hfalse
      · exact h.unready hjoined other hother hfalse heq
    reaches := fun other htarget _ => by
      by_cases heq : other = url
      · exact .inl ⟨relay, hrelay, hurl.trans heq.symm⟩
      · exact h.reaches other htarget heq }

theorem Inv.afterAttempt (h : Inv target (fun _ => False) s) (hjoined : s.joined = true)
    {attempt : ReconnectAttempt α} (hattempt : attempt ∈ s.attempts) {resolved : Bool}
    (houtcome : attempt.outcome = some resolved) :
    Inv target (fun _ => False) (s.afterAttempt attempt resolved) := by
  have hfinish := h.finish hattempt
  have hget : s.reconnectTimers.get? attempt.url = some attempt.timer :=
    (h.pending _ _).2 (.inr ⟨attempt, hattempt, rfl, rfl⟩)
  have htarget : target attempt.url := h.targets _ (.inr (by rw [hget]; rfl))
  have hscheduled := (hfinish.schedule htarget
    (fun hjoining => by rw [hjoined] at hjoining; cases hjoining)).mono
    (y := fun _ => False) fun other hother => absurd hother.1 hother.2
  unfold NostrRelays.afterAttempt
  simp only
  rw [if_neg (not_not.2 hget)]
  cases resolved with
  | false => exact hscheduled
  | true =>
      simp only [if_true]
      cases hrelay : attempt.relay with
      | none =>
          rw [h.unstarted attempt hattempt hrelay] at houtcome
          cases houtcome
      | some socket =>
          obtain ⟨relay, hmem, rfl, hurl, -⟩ := h.started attempt hattempt socket hrelay
          have hready := hfinish.isReady hmem
          simp only
          split_ifs with htrue
          · exact hfinish.of_ready hmem hurl (hready.symm.trans htrue)
          · exact hscheduled

theorem joined_of_attempt (h : Inv target x s) {attempt : ReconnectAttempt α}
    (hattempt : attempt ∈ s.attempts) : s.joined = true := by
  cases hjoined : s.joined with
  | true => rfl
  | false =>
      have hget := (h.pending _ _).2 (.inr ⟨attempt, hattempt, rfl, rfl⟩)
      rw [h.early hjoined] at hget
      cases hget

/-- **Every step keeps the invariant.** -/
theorem Inv.step (h : Inv target (fun _ => False) s) {input : RelayInput α} {s' : NostrRelays α}
    (hstep : s.step input = some s') : Inv target (fun _ => False) s' := by
  unfold NostrRelays.step at hstep
  cases input with
  | socket socket event =>
      simp only [Option.ite_none_right_eq_some, Option.some.injEq] at hstep
      obtain ⟨⟨hfresh, hclosed, hevent⟩, rfl⟩ := hstep
      cases event with
      | opened sent => exact h.onOpen hfresh hevent sent
      | eose replayed => exact h.onEose hevent hclosed replayed
      | closedMessage => exact h.onClosedMessage socket
      | error => exact h.onError socket
      | close => exact h.onClose hfresh
      | sendFailure => exact h.onSendFailure socket
  | joinTimeout =>
      simp only [Option.ite_none_left_eq_some, Option.some.injEq] at hstep
      obtain ⟨-, rfl⟩ := hstep
      exact h.timeOuts _
  | finishJoin =>
      simp only [Option.ite_none_right_eq_some, Option.some.injEq] at hstep
      obtain ⟨-, rfl⟩ := hstep
      exact h.finishJoin
  | timer timer url created =>
      simp only [Option.ite_none_right_eq_some, Option.some.injEq] at hstep
      obtain ⟨⟨hjoined, htimer⟩, rfl⟩ := hstep
      exact h.reconnect hjoined htimer created
  | attemptTimeout attempt =>
      simp only [Option.ite_none_right_eq_some, Option.some.injEq] at hstep
      obtain ⟨-, rfl⟩ := hstep
      exact h.attemptTimeout attempt
  | settled attempt =>
      cases houtcome : attempt.outcome with
      | none =>
          simp only [houtcome] at hstep
          cases hstep
      | some resolved =>
          simp only [houtcome] at hstep
          simp only [Option.ite_none_right_eq_some, Option.some.injEq] at hstep
          obtain ⟨hattempt, rfl⟩ := hstep
          exact h.afterAttempt (joined_of_attempt h hattempt) hattempt houtcome

theorem Inv.run (h : Inv target (fun _ => False) s) {inputs : List (RelayInput α)}
    {s' : NostrRelays α} (hrun : Replay.run NostrRelays.step s inputs = some s') :
    Inv target (fun _ => False) s' :=
  Replay.run_invariant _ (fun h hstep => h.step hstep) h hrun

/-- After `join` has created its sockets. -/
theorem connectAll_inv {urls : List α} (hnodup : urls.Nodup) :
    Inv (· ∈ urls) (fun _ => False) (connectAll urls) := by
  have hurls : (connectAll urls).relays.map RelayState.url = urls := by
    unfold connectAll
    rw [List.map_map]
    exact List.zipIdx_map_fst 0 urls
  have hsockets : (connectAll urls).relays.map RelayState.socket = List.range urls.length := by
    unfold connectAll
    rw [List.map_map]
    refine (List.zipIdx_map_snd 0 urls).trans ?_
    rw [List.range_eq_range']
  have hentry : ∀ url, url ∈ urls ↔ ∃ relay ∈ (connectAll urls).relays, relay.url = url := by
    intro url
    conv_lhs => rw [← hurls]
    exact List.mem_map
  have hunready : ∀ relay ∈ (connectAll urls).relays, relay.ready = false := by
    intro relay hmem
    obtain ⟨entry, -, rfl⟩ := List.mem_map.1 hmem
    rfl
  refine
    { urls := hurls.symm ▸ hnodup
      sockets := hsockets.symm ▸ List.nodup_range
      fresh := fun relay hmem => ?_
      openedFresh := by rintro _ ⟨⟩
      closedFresh := by rintro _ ⟨⟩
      ready := fun relay hmem htrue => by rw [hunready relay hmem] at htrue; cases htrue
      unready := fun hjoined => by cases hjoined
      early := fun _ => rfl
      reaches := fun url hurl _ => .inl ((hentry url).1 hurl)
      targets := ?_
      pending := fun url timer => ?_
      timersFresh := by rintro _ ⟨⟩
      attemptsFresh := by rintro _ ⟨⟩
      timersNodup := List.nodup_nil
      attemptsNodup := List.nodup_nil
      disjoint := by rintro _ ⟨⟩
      unstarted := by rintro _ ⟨⟩
      started := by rintro _ ⟨⟩ }
  · have hlt : relay.socket ∈ List.range urls.length := hsockets ▸ List.mem_map_of_mem hmem
    exact List.mem_range.1 hlt
  · rintro url (hmem | hscheduled)
    · exact (hentry url).2 hmem
    · cases hscheduled
  · constructor
    · rintro ⟨⟩
    · rintro (hmem | ⟨attempt, hmem, -⟩)
      · cases hmem
      · cases hmem

/-! ## Reconnecting -/

theorem Reconnects.of_step {input : RelayInput α} {s' : NostrRelays α}
    (hstep : s.step input = some s') (hreachable : Reachable input) (h : s'.Reconnects url) :
    s.Reconnects url := by
  obtain ⟨inputs, last, hall, hrun, hconnected⟩ := h
  refine ⟨input :: inputs, last, List.forall_mem_cons.2 ⟨hreachable, hall⟩, ?_, hconnected⟩
  exact (Replay.run_cons_eq_some _).2 ⟨s', hstep, hrun⟩

/-- A subscription of a socket that is open succeeds. -/
theorem reconnects_eose (h : Inv target x s) {relay : RelayState α} (hrelay : relay ∈ s.relays)
    (hopened : relay.socket ∈ s.opened) (hclosed : relay.socket ∉ s.closed)
    (hready : relay.ready = false) : s.Reconnects relay.url := by
  have hstep : s.step (.socket relay.socket (.eose true))
      = some ((s.setRelay relay.socket RelayState.connect).settle relay.socket true) := by
    unfold step
    simp only
    rw [if_pos ⟨h.fresh relay hrelay, hclosed, hopened⟩, onSocket, onEose, h.relay? hrelay]
    simp only
    rw [if_neg (by simp [hready]), if_pos trivial]
  refine Reconnects.of_step hstep rfl ⟨[], _, by simp, rfl, ?_⟩
  exact ⟨_, mem_setRelay_self RelayState.connect hrelay, rfl, rfl, rfl, hclosed⟩

/-- A socket that is not closed opens, and its subscription succeeds. -/
theorem reconnects_socket (h : Inv target x s) {relay : RelayState α} (hrelay : relay ∈ s.relays)
    (hclosed : relay.socket ∉ s.closed) (hready : relay.ready = false) :
    s.Reconnects relay.url := by
  by_cases hopened : relay.socket ∈ s.opened
  · exact reconnects_eose h hrelay hopened hclosed hready
  · have hopen := h.onOpen (h.fresh relay hrelay) hopened true
    have hfind : NostrRelays.relay? { s with opened := relay.socket :: s.opened } relay.socket
      = some relay := h.relay? hrelay
    have hresult : s.onOpen relay.socket true = NostrRelays.setRelay
        { s with opened := relay.socket :: s.opened } relay.socket RelayState.subscribe := by
      unfold onOpen
      simp only
      rw [hfind]
      simp only
      rw [if_pos trivial]
    have hstep : s.step (.socket relay.socket (.opened true)) = some (s.onOpen relay.socket true) := by
      unfold step
      simp only
      rw [if_pos ⟨h.fresh relay hrelay, hclosed, hopened⟩, onSocket]
    refine Reconnects.of_step hstep rfl ?_
    rw [hresult] at hopen ⊢
    have hmem : RelayState.subscribe relay ∈ (NostrRelays.setRelay
        { s with opened := relay.socket :: s.opened } relay.socket RelayState.subscribe).relays :=
      mem_setRelay_self RelayState.subscribe hrelay
    have hreconnects := reconnects_eose hopen hmem List.mem_cons_self hclosed hready
    exact hreconnects

/-- An attempt that is pending succeeds. -/
theorem reconnects_pending (h : Inv target x s) {attempt : ReconnectAttempt α}
    (hattempt : attempt ∈ s.attempts) (hpending : attempt.outcome = none) :
    s.Reconnects attempt.url := by
  cases hrelay : attempt.relay with
  | none =>
      rw [h.unstarted attempt hattempt hrelay] at hpending
      cases hpending
  | some socket =>
      obtain ⟨relay, hmem, rfl, hurl, hnone⟩ := h.started attempt hattempt socket hrelay
      obtain ⟨hclosed, hready⟩ := hnone hpending
      exact hurl ▸ reconnects_socket h hmem hclosed hready

/-- A timer that has not fired starts an attempt. -/
theorem reconnects_timer (h : Inv target (fun _ => False) s) (hjoined : s.joined = true) {timer : ℕ}
    (htimer : (timer, url) ∈ s.timers) : s.Reconnects url := by
  have hstep : s.step (.timer timer url true) = some (s.reconnect timer url true) :=
    if_pos ⟨hjoined, htimer⟩
  refine Reconnects.of_step hstep rfl ?_
  have hattempt : ⟨timer, url, some s.nextSocket, none⟩ ∈ (s.reconnect timer url true).attempts :=
    List.mem_cons_self
  exact reconnects_pending (h.reconnect hjoined htimer true) hattempt rfl

theorem mem_timers_schedule (hjoined : s.joined = true) (hnone : s.reconnectTimers.get? url = none) :
    (s.nextTimer, url) ∈ (s.scheduleRelayReconnect url).timers := by
  unfold scheduleRelayReconnect
  rw [if_neg (by simp [hjoined, hnone])]
  exact List.mem_cons_self

/-- A relay without a timer or an attempt is connected, or its close is still to come. -/
theorem reconnects_entry (h : Inv target (fun _ => False) s) (hjoined : s.joined = true)
    (htarget : target url) (hnone : s.reconnectTimers.get? url = none) : s.Reconnects url := by
  rcases h.reaches url htarget fun hf => hf with ⟨relay, hmem, rfl⟩ | hscheduled
  · have hready : relay.ready = true := by
      cases hready : relay.ready with
      | true => rfl
      | false =>
          have hscheduled := h.unready hjoined relay hmem hready fun hf => hf
          rw [hnone] at hscheduled
          cases hscheduled
    obtain ⟨-, hclosed, hconnected | hclosing⟩ := h.ready relay hmem hready
    · exact ⟨[], s, by simp, rfl, relay, hmem, rfl, hready, hconnected, hclosed⟩
    · -- the close is reported, and a reconnect is scheduled
      have hstep : s.step (.socket relay.socket .close) = some (s.onClose relay.socket) := by
        unfold step
        simp only
        rw [if_pos ⟨h.fresh relay hmem, hclosed, trivial⟩, onSocket]
      refine Reconnects.of_step hstep trivial ?_
      have hclose := h.onClose (h.fresh relay hmem)
      have hfind : NostrRelays.relay? { s with closed := relay.socket :: s.closed } relay.socket
        = some relay := h.relay? hmem
      have hresult : s.onClose relay.socket = ((NostrRelays.setRelay
          { s with closed := relay.socket :: s.closed } relay.socket RelayState.disconnect).settle
            relay.socket false).scheduleRelayReconnect relay.url := by
        unfold onClose
        simp only
        rw [hfind]
      have hstill : (s.onClose relay.socket).joined = true := by
        rw [hresult]
        unfold scheduleRelayReconnect
        split_ifs <;> exact hjoined
      have htimer : (s.nextTimer, relay.url) ∈ (s.onClose relay.socket).timers := by
        rw [hresult]
        exact mem_timers_schedule hjoined hnone
      exact reconnects_timer hclose hstill htimer
  · rw [hnone] at hscheduled
    cases hscheduled

/-- A settled attempt leads to another one, or has connected the relay. -/
theorem reconnects_settled (h : Inv target (fun _ => False) s) (hjoined : s.joined = true)
    {attempt : ReconnectAttempt α} (hattempt : attempt ∈ s.attempts) {resolved : Bool}
    (houtcome : attempt.outcome = some resolved) : s.Reconnects attempt.url := by
  have hget := (h.pending _ _).2 (.inr ⟨attempt, hattempt, rfl, rfl⟩)
  have hstep : s.step (.settled attempt) = some (s.afterAttempt attempt resolved) := by
    unfold step
    simp only [houtcome]
    rw [if_pos hattempt]
  refine Reconnects.of_step hstep trivial ?_
  have hafter := h.afterAttempt hjoined hattempt houtcome
  have htarget : target attempt.url := h.targets _ (.inr (by rw [hget]; rfl))
  obtain ⟨base, hbase⟩ : ∃ base : NostrRelays α, base = { s with
    attempts := s.attempts.erase attempt
    reconnectTimers := s.reconnectTimers.delete attempt.url } := ⟨_, rfl⟩
  have hfree : base.reconnectTimers.get? attempt.url = none := by
    rw [hbase]
    simp only
    rw [OrderedMap.get?_delete, if_pos rfl]
  have hstill : base.joined = true := by rw [hbase]; exact hjoined
  -- the two outcomes
  have hcases : s.afterAttempt attempt resolved = base ∨
      s.afterAttempt attempt resolved = base.scheduleRelayReconnect attempt.url := by
    unfold NostrRelays.afterAttempt
    simp only
    rw [if_neg (not_not.2 hget), ← hbase]
    cases resolved with
    | false => exact .inr rfl
    | true =>
        simp only [if_true]
        split
        · exact .inl rfl
        · split_ifs
          · exact .inl rfl
          · exact .inr rfl
  rcases hcases with hsame | hscheduled
  · rw [hsame] at hafter ⊢
    exact reconnects_entry hafter hstill htarget hfree
  · rw [hscheduled] at hafter ⊢
    refine reconnects_timer hafter ?_ (mem_timers_schedule hstill hfree)
    unfold scheduleRelayReconnect
    split_ifs <;> exact hstill

/-- **A relay that can be reached again is reconnected.** -/
theorem Inv.reconnects (h : Inv target (fun _ => False) s) (hjoined : s.joined = true)
    (htarget : target url) : s.Reconnects url := by
  cases hget : s.reconnectTimers.get? url with
  | none => exact reconnects_entry h hjoined htarget hget
  | some timer =>
      rcases (h.pending url timer).1 hget with htimer | ⟨attempt, hattempt, -, rfl⟩
      · exact reconnects_timer h hjoined htimer
      · cases houtcome : attempt.outcome with
        | none => exact reconnects_pending h hattempt houtcome
        | some resolved => exact reconnects_settled h hjoined hattempt houtcome

theorem Inv.covered_iff (h : Inv target (fun _ => False) s) (hjoined : s.joined = true) :
    s.Covered url ↔ target url := by
  constructor
  · rintro (⟨relay, hmem, hurl, -⟩ | ⟨timer, hget, -⟩)
    · exact h.targets url (.inl ⟨relay, hmem, hurl⟩)
    · exact h.targets url (.inr (by rw [hget]; rfl))
  · intro htarget
    have hscheduled : (s.reconnectTimers.get? url).isSome → s.Covered url := by
      intro hsome
      obtain ⟨timer, hget⟩ := Option.isSome_iff_exists.1 hsome
      exact .inr ⟨timer, hget, (h.pending url timer).1 hget⟩
    rcases h.reaches url htarget fun hf => hf with ⟨relay, hmem, rfl⟩ | hsome
    · cases hready : relay.ready with
      | false => exact hscheduled (h.unready hjoined relay hmem hready fun hf => hf)
      | true =>
          obtain ⟨-, hclosed, hstate⟩ := h.ready relay hmem hready
          exact .inl ⟨relay, hmem, rfl, hclosed, .inr (.inr hstate)⟩
    · exact hscheduled hsome

/-- What is asked of a state after `join`, for the relays that `join` selected: they are covered,
none has two entries, and they are reconnected once they can be reached. -/
def Kept (selectedRelays : List α) (kept : α → Prop) (s : NostrRelays α) : Prop :=
  (s.relays.map RelayState.url).Nodup ∧
  ∀ url ∈ selectedRelays, (s.Covered url ↔ kept url) ∧ (kept url → s.Reconnects url)

/-- In every state after `join`, the relays that are kept are those for which `kept` holds. -/
def RelaysKept (created kept : α → Bool) : Prop :=
  ∀ (selectedRelays : List α) (inputs : List (RelayInput α)) (s : NostrRelays α),
    selectedRelays.Nodup → Replay.run step (join selectedRelays created) inputs = some s →
    s.joined = true → Kept selectedRelays (fun url => kept url = true) s

/-- **The relays that are not forgotten are those whose socket could be created during `join`.** -/
theorem relays_kept (created : α → Bool) : RelaysKept created created := by
  intro selectedRelays inputs s hnodup hrun hjoined
  have h : Inv (· ∈ selectedRelays.filter created) (fun _ => False) s :=
    (connectAll_inv (hnodup.filter _)).run hrun
  refine ⟨h.urls, fun url hurl => ⟨?_, fun hcreated => ?_⟩⟩
  · rw [h.covered_iff hjoined, List.mem_filter]
    exact and_iff_right hurl
  · exact h.reconnects hjoined (List.mem_filter.2 ⟨hurl, hcreated⟩)

/-- **A relay whose socket cannot be created during `join` is forgotten**, though another one
connects. -/
theorem uncreated_relay_forgotten :
    ∃ created : ℕ → Bool, ¬ RelaysKept created fun _ => true := by
  refine ⟨fun url => url = 0, fun hclaim => ?_⟩
  have hrun : ∃ s, Replay.run step (join [0, 1] fun url => url = 0)
      [.socket 0 (.opened true), .socket 0 (.eose true), .finishJoin] = some s ∧ s.joined = true ∧
        s.relays.map RelayState.url = [0] ∧ s.reconnectTimers.get? 1 = none := ⟨_, rfl, rfl, rfl, rfl⟩
  obtain ⟨s, hrun, hjoined, hurls, hnone⟩ := hrun
  obtain ⟨-, hkept⟩ := hclaim [0, 1] _ s (by decide) hrun hjoined
  rcases (hkept 1 (by decide)).1.2 rfl with ⟨relay, hmem, hurl, -⟩ | ⟨timer, hget, -⟩
  · have hin : (1 : ℕ) ∈ s.relays.map RelayState.url := hurl ▸ List.mem_map_of_mem hmem
    rw [hurls] at hin
    exact absurd hin (by decide)
  · rw [hnone] at hget
    cases hget

end NostrRelays

end Tablefolk
