import Tablefolk.Transport.Reassembler

/-!
# The events of the relays

The model of the receiving side of `transport/nostr-signaling.ts`, from `join` to `leave`: the
replay filter, the queue of the events that are being decrypted, and the reassemblers of the
senders.  An event is the digest of its content and what the content turns out to be once it is
decrypted and decoded.

* `Discards`: what a step loses for lack of capacity.
* `Spares`: the step does not clear fragments that were held before.
* `discarded_forgotten`: then no event with a discarded fragment stays remembered.
* `discarded_redelivered`: and the events of a message, some frames of which may be held, deliver it
  once.
-/

namespace Tablefolk

namespace OrderedMap

variable {α β γ : Type} [DecidableEq α]

omit [DecidableEq α] in
theorem keys_filterMap_sublist (f : β → Option γ) (entries : List (α × β)) :
    ((entries.filterMap fun entry => (f entry.2).map (Prod.mk entry.1)).map Prod.fst).Sublist
      (entries.map Prod.fst) := by
  induction entries with
  | nil => exact List.Sublist.refl _
  | cons entry rest ih =>
      cases hf : f entry.2 with
      | none => simpa [hf] using ih.cons entry.1
      | some value => simpa [hf] using ih.cons_cons entry.1

/-- Change the values, and drop the entries that have none any more. -/
def filterMap (m : OrderedMap α β) (f : β → Option γ) : OrderedMap α γ :=
  ⟨m.entries.filterMap fun entry => (f entry.2).map (Prod.mk entry.1),
    m.nodup.sublist (keys_filterMap_sublist f m.entries)⟩

theorem get?_filterMap {m : OrderedMap α β} {k : α} (f : β → Option γ) :
    (m.filterMap f).get? k = (m.get? k).bind f := by
  ext v
  rw [get?_eq_some, Option.bind_eq_some_iff]
  simp only [filterMap, List.mem_filterMap, Option.map_eq_some_iff, Prod.exists, Prod.mk.injEq]
  constructor
  · rintro ⟨key, value, hmem, new, hf, rfl, rfl⟩
    exact ⟨value, get?_eq_some.2 hmem, hf⟩
  · rintro ⟨value, hget, hf⟩
    exact ⟨k, value, get?_eq_some.1 hget, v, hf, rfl, rfl⟩

theorem delete_filterMap (m : OrderedMap α β) (k : α) (f : β → Option γ) :
    (m.filterMap f).delete k = (m.delete k).filterMap f := by
  unfold filterMap delete filter
  simp only [mk.injEq, List.filter_filterMap, List.filterMap_filter]
  refine List.filterMap_congr fun entry _ => ?_
  by_cases hkey : entry.1 = k
  · cases f entry.2 <;> simp [hkey]
  · cases f entry.2 <;> simp [hkey]

omit [DecidableEq α] in
theorem size_filterMap_le (m : OrderedMap α β) (f : β → Option γ) :
    (m.filterMap f).size ≤ m.size := List.length_filterMap_le _ _

omit [DecidableEq α] in
theorem total_filterMap_le {m : OrderedMap α β} {f : β → Option γ} {before : β → ℕ}
    {after : γ → ℕ} (h : ∀ value new, f value = some new → after new ≤ before value) :
    ((m.filterMap f).total fun _ value => after value) ≤ m.total fun _ value => before value := by
  unfold total filterMap
  simp only
  generalize m.entries = entries
  induction entries with
  | nil => exact Nat.le_refl _
  | cons entry rest ih =>
      simp only [List.filterMap_cons, List.map_cons, List.sum_cons]
      cases hf : f entry.2 with
      | none =>
          simp only [Option.map_none]
          omega
      | some new =>
          have hle := h _ _ hf
          simp only [Option.map_some, List.map_cons, List.sum_cons]
          omega

end OrderedMap

def MAX_SDP_BYTES : ℕ := 256 * 1024
def MAX_SIGNALING_MESSAGE_BYTES : ℕ := MAX_SDP_BYTES + 1024

/-- What the content of an event is: `decryptSignalPacket` and `decodeSignalPacket` may throw, and
the packet may be from this player or for another one. -/
inductive SignalPacket (σ : Type) where
  | malformed
  | foreign
  | packet (sender : σ) (frame : DataFrame)
  deriving DecidableEq, Repr

/-- An event of a relay, of the right form and for the right topic. -/
structure RelayEvent (δ σ : Type) where
  eventDigest : δ
  signal : SignalPacket σ
  deriving DecidableEq, Repr

/-- The options that bound the receiving side. -/
structure NostrLimits where
  maxPendingEvents : ℕ
  maxSeenEvents : ℕ
  maxReassemblySenders : ℕ
  maxPendingFrameBytes : ℕ

/-- `NostrSignalingCapacityError`, or another error. -/
inductive NostrFailure where
  | capacity
  | other
  deriving DecidableEq, Repr

/-- The receiving side of a joined `TrysteroNostrSignalingAdapter`; `queue` holds the events whose
processing is pending, and `delivered` what was handed to the handler. -/
structure NostrSignaling (δ σ : Type) where
  seenEventDigests : List δ
  queue : List (RelayEvent δ σ)
  reassemblers : OrderedMap σ FrameReassembler
  handler : Bool
  delivered : List (σ × List UInt8)

namespace NostrSignaling

variable {δ σ : Type} [DecidableEq δ] [DecidableEq σ]

/-- What `join` sets up. -/
def create (handler : Bool) : NostrSignaling δ σ := ⟨[], [], .empty, handler, []⟩

/-- `#rememberEventDigest`. -/
def rememberEventDigest (limits : NostrLimits) (nostr : NostrSignaling δ σ) (eventDigest : δ) :
    NostrSignaling δ σ :=
  let seen := if eventDigest ∈ nostr.seenEventDigests then nostr.seenEventDigests
    else nostr.seenEventDigests ++ [eventDigest]
  { nostr with seenEventDigests := if seen.length ≤ limits.maxSeenEvents then seen else seen.tail }

/-- The last part of `#acceptRelayMessage`, once an event is known to be well formed. -/
def acceptEvent (limits : NostrLimits) (nostr : NostrSignaling δ σ) (event : RelayEvent δ σ) :
    NostrSignaling δ σ :=
  if event.eventDigest ∈ nostr.seenEventDigests then nostr
  else if limits.maxPendingEvents ≤ nostr.queue.length then nostr
  else
    { nostr.rememberEventDigest limits event.eventDigest with queue := nostr.queue ++ [event] }

/-- `expire` and what follows it in `#expireReassemblers`. -/
def expireReassembler (now : ℕ) (reassembler : FrameReassembler) : Option FrameReassembler :=
  if (reassembler.expireAt now).groups.size = 0 then none else some (reassembler.expireAt now)

/-- `#expireReassemblers`. -/
def expireReassemblers (nostr : NostrSignaling δ σ) (now : ℕ) : NostrSignaling δ σ :=
  { nostr with reassemblers := nostr.reassemblers.filterMap (expireReassembler now) }

/-- `#pendingFrameBytes`. -/
def pendingFrameBytes (nostr : NostrSignaling δ σ) : ℕ :=
  nostr.reassemblers.total fun _ reassembler => reassembler.pendingBytes

/-- The reassembler `#processEvent` makes for a new sender. -/
def newReassembler (limits : NostrLimits) : FrameReassembler where
  timeoutMs := INCOMPLETE_FRAME_TIMEOUT_MS
  maxMessageBytes := MAX_SIGNALING_MESSAGE_BYTES
  maxPendingBytes := limits.maxPendingFrameBytes
  maxPendingGroups := 64
  maxFramesPerMessage :=
    (MAX_SIGNALING_MESSAGE_BYTES + MAX_FRAME_PAYLOAD_BYTES - 1) / MAX_FRAME_PAYLOAD_BYTES
  scheduleExpiryEnabled := false
  groups := .empty
  pendingBytes := 0
  expiryTimer := none

/-- `#reassemblers.set`. -/
def setReassembler (nostr : NostrSignaling δ σ) (sender : σ) (reassembler : FrameReassembler) :
    NostrSignaling δ σ :=
  { nostr with reassemblers := nostr.reassemblers.set sender reassembler }

/-- `#reassemblers.delete`. -/
def deleteReassembler (nostr : NostrSignaling δ σ) (sender : σ) : NostrSignaling δ σ :=
  { nostr with reassemblers := nostr.reassemblers.delete sender }

/-- The end of `#processEvent`, after the books are checked. -/
def settleFrame (nostr : NostrSignaling δ σ) (sender : σ) (reassembler : FrameReassembler)
    (result : FrameReassemblyResult) : Option NostrFailure × NostrSignaling δ σ :=
  let nostr := if reassembler.groups.size = 0 then nostr.deleteReassembler sender else nostr
  match result with
  | .rejected _ .capacity_exceeded => (some .capacity, nostr)
  | .rejected _ _ => (some .other, nostr)
  | .incomplete _ _ _ => (none, nostr)
  | .duplicate _ _ _ => (none, nostr)
  | .complete _ payload =>
      if nostr.handler then
        (none, { nostr with delivered := nostr.delivered ++ [(sender, payload)] })
      else (some .other, nostr)

/-- `#processEvent` from `reassembler.accept` on. -/
def acceptFrame (limits : NostrLimits) (nostr : NostrSignaling δ σ) (sender : σ)
    (reassembler : FrameReassembler) (frame : DataFrame) (now : ℕ) :
    Option NostrFailure × NostrSignaling δ σ :=
  let accepted := reassembler.accept frame.candidate (some now) (some now)
  let nostr := nostr.setReassembler sender accepted.2
  match accepted.1 with
  | .error _ => (some .other, nostr)
  | .ok result =>
      if limits.maxPendingFrameBytes < nostr.pendingFrameBytes then
        (some .capacity, nostr.deleteReassembler sender)
      else nostr.settleFrame sender accepted.2 result

/-- `#processEvent`; `now` and `later` are what the clock reads when the reassemblers expire and
when the frame is accepted. -/
def processEvent (limits : NostrLimits) (nostr : NostrSignaling δ σ) (signal : SignalPacket σ)
    (now later : ℕ) : Option NostrFailure × NostrSignaling δ σ :=
  match signal with
  | .malformed => (some .other, nostr)
  | .foreign => (none, nostr)
  | .packet sender frame =>
      let nostr := nostr.expireReassemblers now
      match nostr.reassemblers.get? sender with
      | some reassembler => nostr.acceptFrame limits sender reassembler frame later
      | none =>
          if limits.maxReassemblySenders ≤ nostr.reassemblers.size then (some .capacity, nostr)
          else nostr.acceptFrame limits sender (newReassembler limits) frame later

/-- The processing of the first event of the queue, with the handlers `#acceptRelayMessage`
attaches to it. -/
def processNext (limits : NostrLimits) (nostr : NostrSignaling δ σ) (now later : ℕ) :
    NostrSignaling δ σ :=
  match nostr.queue with
  | [] => nostr
  | event :: queue =>
      let processed := { nostr with queue := queue }.processEvent limits event.signal now later
      if processed.1 = some .capacity then
        { processed.2 with
          seenEventDigests := processed.2.seenEventDigests.erase event.eventDigest }
      else processed.2

/-- What happens to the receiving side: an event comes, the next event has been decrypted, the
expiry timer fires, or a handler is set. -/
inductive NostrInput (δ σ : Type) where
  | event (event : RelayEvent δ σ)
  | process (now later : ℕ)
  | expire (now : ℕ)
  | onMessage

/-- One step. -/
def step (limits : NostrLimits) (nostr : NostrSignaling δ σ) :
    NostrInput δ σ → NostrSignaling δ σ
  | .event event => nostr.acceptEvent limits event
  | .process now later => nostr.processNext limits now later
  | .expire now => nostr.expireReassemblers now
  | .onMessage => { nostr with handler := true }

/-- The fragments of a message that are held. -/
def groupOf (nostr : NostrSignaling δ σ) (sender : σ) (id : ℕ) : Option PendingFrameGroup :=
  (nostr.reassemblers.get? sender).bind fun reassembler => reassembler.groups.get? id

/-- The fragment of an event is part of a message that is being put together. -/
def Holds (nostr : NostrSignaling δ σ) (event : RelayEvent δ σ) : Prop :=
  ∃ sender frame group, event.signal = .packet sender frame ∧
    nostr.groupOf sender frame.id = some group ∧
    group.chunks.get? frame.index = some frame.bytes

/-- Processing the next event loses the fragment of `event` for lack of capacity: it is refused,
or it was held until then and is not held afterwards. -/
def Discards (limits : NostrLimits) (nostr : NostrSignaling δ σ) (now later : ℕ)
    (event : RelayEvent δ σ) : Prop :=
  ∃ current queue, nostr.queue = current :: queue ∧
    (processEvent limits { nostr with queue := queue } current.signal now later).1
      = some .capacity ∧
    (event = current ∨
      ((nostr.expireReassemblers now).expireReassemblers later).Holds event ∧
      ¬ (nostr.processNext limits now later).Holds event)

/-- The states that can be reached, with the digests of the events whose fragment was discarded
for lack of capacity and which were not accepted again since. -/
inductive Reached (limits : NostrLimits)
    (allowed : NostrSignaling δ σ → ℕ → ℕ → Prop) : NostrSignaling δ σ → Set δ → Prop
  | create (handler : Bool) : Reached limits allowed (create handler) ∅
  | event {nostr : NostrSignaling δ σ} {discarded : Set δ} (event : RelayEvent δ σ) :
      Reached limits allowed nostr discarded →
      Reached limits allowed (nostr.step limits (.event event))
        {d ∈ discarded | d = event.eventDigest → nostr.step limits (.event event) = nostr}
  | process {nostr : NostrSignaling δ σ} {discarded : Set δ} (now later : ℕ) :
      Reached limits allowed nostr discarded → allowed nostr now later →
      Reached limits allowed (nostr.step limits (.process now later))
        (discarded ∪ {d | ∃ event, Discards limits nostr now later event ∧ event.eventDigest = d})
  | expire {nostr : NostrSignaling δ σ} {discarded : Set δ} (now : ℕ) :
      Reached limits allowed nostr discarded →
      Reached limits allowed (nostr.step limits (.expire now)) discarded
  | onMessage {nostr : NostrSignaling δ σ} {discarded : Set δ} :
      Reached limits allowed nostr discarded →
      Reached limits allowed (nostr.step limits .onMessage) discarded

end NostrSignaling

open FrameReassembler OrderedMap

/-! ## The reassemblers -/

namespace FrameReassembler

variable {r : FrameReassembler}

@[simp] theorem clear_delete (id : ℕ) : (r.delete id).clear = r.clear := by
  unfold delete
  cases r.groups.get? id <;> rfl

@[simp] theorem clear_expireAt (now : ℚ) : (r.expireAt now).clear = r.clear := by
  unfold expireAt
  generalize r.expired now = ids
  induction ids generalizing r with
  | nil => rfl
  | cons id rest ih => rw [List.foldl_cons, ih, clear_delete]

@[simp] theorem clear_scheduleExpiry (now : Option ℚ) :
    (r.scheduleExpiry now).2.clear = r.clear := by
  unfold scheduleExpiry
  split
  · split <;> rfl
  · rfl

theorem clear_completeGroup (group : PendingFrameGroup) (later : Option ℚ) :
    (r.completeGroup group later).2.clear = r.clear := by
  unfold completeGroup
  split_ifs
  · have hclear := clear_scheduleExpiry (r := r) later
    split
    · rename_i hschedule
      rw [hschedule] at hclear
      exact hclear
    · rename_i hschedule
      rw [hschedule] at hclear
      exact hclear
  · split
    · rfl
    · exact clear_delete _

theorem clear_addChunk (group : PendingFrameGroup) (frame : DataFrame) (later : Option ℚ) :
    (r.addChunk group frame later).2.clear = r.clear := by
  unfold addChunk
  split
  · split_ifs
    · exact clear_delete _
    · rfl
  · split_ifs
    · exact clear_delete _
    · exact clear_delete _
    · rfl
    · exact clear_completeGroup _ _

theorem clear_addFrame (frame : DataFrame) (now : ℚ) (later : Option ℚ) :
    (r.addFrame frame now later).2.clear = r.clear := by
  unfold addFrame
  by_cases hcount : r.maxFramesPerMessage < frame.count
  · rw [if_pos hcount]
    exact clear_delete _
  · rw [if_neg hcount]
    cases r.groups.get? frame.id with
    | none =>
        simp only
        by_cases hgroups : r.maxPendingGroups ≤ r.groups.size
        · rw [if_pos hgroups]
        · rw [if_neg hgroups]
          exact clear_addChunk _ _ _
    | some group =>
        simp only
        by_cases hmatch : group.count = frame.count
        · rw [if_neg (not_not.2 hmatch)]
          exact clear_addChunk _ _ _
        · rw [if_pos hmatch]
          exact clear_delete _

/-- A call changes none of the limits. -/
theorem clear_accept (candidate : FrameCandidate) (now later : Option ℚ) :
    (r.accept candidate now later).2.clear = r.clear := by
  unfold accept
  split
  · rfl
  · split
    · rfl
    · exact (clear_addFrame _ _ _).trans (clear_expireAt _)

theorem get?_expireAt (now : ℚ) (id : ℕ) :
    (r.expireAt now).groups.get? id = if id ∈ r.expired now then none else r.groups.get? id := by
  unfold expireAt
  generalize r.expired now = ids
  induction ids generalizing r with
  | nil => simp
  | cons head rest ih =>
      rw [List.foldl_cons, ih, delete_groups, get?_delete]
      by_cases hhead : id = head
      · simp [hhead]
      · simp [hhead]

theorem requireTime_natCast (now : ℕ) : requireTime (some (now : ℚ)) = .ok (now : ℚ) := by
  unfold requireTime
  simp only
  rw [if_neg (not_lt.2 (Nat.cast_nonneg now))]

end FrameReassembler

namespace NostrSignaling

variable {δ σ : Type} [DecidableEq δ] [DecidableEq σ] {limits : NostrLimits}
  {nostr : NostrSignaling δ σ} {sender : σ} {id : ℕ} {group : PendingFrameGroup}

/-! ## What is kept -/

omit [DecidableEq δ] in
theorem get?_expireReassemblers (now : ℕ) :
    (nostr.expireReassemblers now).reassemblers.get? sender
      = (nostr.reassemblers.get? sender).bind (expireReassembler now) :=
  get?_filterMap _

theorem get?_of_size_zero {r : FrameReassembler} (h : r.groups.size = 0) :
    r.groups.get? id = none := by
  cases hget : r.groups.get? id with
  | none => rfl
  | some group =>
      have := size_of_get? hget
      omega

omit [DecidableEq δ] in
/-- What is held after the reassemblers have expired. -/
theorem groupOf_expireReassemblers (now : ℕ) :
    (nostr.expireReassemblers now).groupOf sender id
      = (nostr.reassemblers.get? sender).bind fun r => (r.expireAt now).groups.get? id := by
  unfold groupOf
  rw [get?_expireReassemblers]
  cases nostr.reassemblers.get? sender with
  | none => rfl
  | some r =>
      simp only [Option.bind_some, expireReassembler]
      split_ifs with hsize
      · exact (get?_of_size_zero hsize).symm
      · rfl

/-- The books of the receiving side. -/
structure Sound (limits : NostrLimits) (nostr : NostrSignaling δ σ) : Prop where
  nodup : nostr.seenEventDigests.Nodup
  reassemblers : ∀ sender r, nostr.reassemblers.get? sender = some r →
    Within r none ∧ r.clear = newReassembler limits

theorem newReassembler_within : Within (newReassembler limits) none :=
  ⟨rfl, Nat.zero_le _, Nat.zero_le _, by simp [newReassembler]⟩

omit [DecidableEq δ] in
theorem Sound.expire (h : Sound limits nostr) (now : ℕ) :
    Sound limits (nostr.expireReassemblers now) := by
  refine ⟨h.nodup, fun sender r hget => ?_⟩
  rw [get?_expireReassemblers, Option.bind_eq_some_iff] at hget
  obtain ⟨before, hbefore, hexpire⟩ := hget
  obtain ⟨hwithin, hclear⟩ := h.reassemblers sender before hbefore
  unfold expireReassembler at hexpire
  split_ifs at hexpire
  cases hexpire
  exact ⟨hwithin.expireAt _, (clear_expireAt _).trans hclear⟩

omit [DecidableEq δ] in
theorem Sound.setReassembler (h : Sound limits nostr) {r : FrameReassembler} (hr : Within r none)
    (hclear : r.clear = newReassembler limits) : Sound limits (nostr.setReassembler sender r) := by
  refine ⟨h.nodup, fun other r' hget => ?_⟩
  unfold NostrSignaling.setReassembler at hget
  simp only at hget
  rw [get?_set] at hget
  split_ifs at hget
  · cases hget
    exact ⟨hr, hclear⟩
  · exact h.reassemblers other r' hget

omit [DecidableEq δ] in
theorem Sound.deleteReassembler (h : Sound limits nostr) :
    Sound limits (nostr.deleteReassembler sender) := by
  refine ⟨h.nodup, fun other r' hget => ?_⟩
  unfold NostrSignaling.deleteReassembler at hget
  simp only at hget
  rw [get?_delete] at hget
  split_ifs at hget
  exact h.reassemblers other r' hget

omit [DecidableEq δ] in
theorem settleFrame_seen (nostr : NostrSignaling δ σ) (sender : σ) (r : FrameReassembler)
    (result : FrameReassemblyResult) :
    (nostr.settleFrame sender r result).2.seenEventDigests = nostr.seenEventDigests ∧
      (nostr.settleFrame sender r result).2.queue = nostr.queue ∧
      (nostr.settleFrame sender r result).2.reassemblers =
        if r.groups.size = 0 then nostr.reassemblers.delete sender else nostr.reassemblers := by
  unfold settleFrame
  split_ifs with hsize
  · cases result with
    | rejected id reason => cases reason <;> exact ⟨rfl, rfl, rfl⟩
    | incomplete => exact ⟨rfl, rfl, rfl⟩
    | duplicate => exact ⟨rfl, rfl, rfl⟩
    | complete id payload =>
        simp only
        split_ifs <;> exact ⟨rfl, rfl, rfl⟩
  · cases result with
    | rejected id reason => cases reason <;> exact ⟨rfl, rfl, rfl⟩
    | incomplete => exact ⟨rfl, rfl, rfl⟩
    | duplicate => exact ⟨rfl, rfl, rfl⟩
    | complete id payload =>
        simp only
        split_ifs <;> exact ⟨rfl, rfl, rfl⟩

omit [DecidableEq δ] in
/-- Accepting a frame keeps the books, the replay filter and the queue. -/
theorem Sound.acceptFrame (h : Sound limits nostr) {r : FrameReassembler} (hr : Within r none)
    (hclear : r.clear = newReassembler limits) (frame : DataFrame) (now : ℕ) :
    Sound limits (nostr.acceptFrame limits sender r frame now).2 ∧
      (nostr.acceptFrame limits sender r frame now).2.seenEventDigests = nostr.seenEventDigests ∧
      (nostr.acceptFrame limits sender r frame now).2.queue = nostr.queue := by
  have hset : Sound limits (nostr.setReassembler sender _) :=
    h.setReassembler (hr.accept frame.candidate (some now) (some now)).1
      ((clear_accept _ _ _).trans hclear)
  unfold NostrSignaling.acceptFrame
  simp only
  split
  · exact ⟨hset, rfl, rfl⟩
  · split_ifs
    · exact ⟨hset.deleteReassembler, rfl, rfl⟩
    · rename_i result _ _
      obtain ⟨hseen, hqueue, hsame⟩ := settleFrame_seen (nostr.setReassembler sender
        (r.accept frame.candidate (some now) (some now)).2) sender
        (r.accept frame.candidate (some now) (some now)).2 result
      refine ⟨⟨hseen ▸ h.nodup, ?_⟩, hseen, hqueue⟩
      rw [hsame]
      split_ifs
      · exact hset.deleteReassembler.reassemblers
      · exact hset.reassemblers

omit [DecidableEq δ] in
theorem Sound.processEvent (h : Sound limits nostr) (signal : SignalPacket σ) (now later : ℕ) :
    Sound limits (nostr.processEvent limits signal now later).2 ∧
      (nostr.processEvent limits signal now later).2.seenEventDigests
        = nostr.seenEventDigests ∧
      (nostr.processEvent limits signal now later).2.queue = nostr.queue := by
  cases signal with
  | malformed => exact ⟨h, rfl, rfl⟩
  | foreign => exact ⟨h, rfl, rfl⟩
  | packet sender frame =>
      have hexpired := h.expire now
      unfold NostrSignaling.processEvent
      simp only
      cases hget : (nostr.expireReassemblers now).reassemblers.get? sender with
      | some r =>
          obtain ⟨hr, hclear⟩ := hexpired.reassemblers sender r hget
          exact hexpired.acceptFrame hr hclear frame later
      | none =>
          simp only
          split_ifs
          · exact ⟨hexpired, rfl, rfl⟩
          · exact hexpired.acceptFrame newReassembler_within rfl frame later

/-- Processing an event keeps the books, and remembers no event. -/
theorem Sound.processNext (h : Sound limits nostr) (now later : ℕ) :
    Sound limits (nostr.processNext limits now later) ∧
      (nostr.processNext limits now later).seenEventDigests ⊆ nostr.seenEventDigests := by
  unfold NostrSignaling.processNext
  cases hqueue : nostr.queue with
  | nil => exact ⟨h, List.Subset.refl _⟩
  | cons event queue =>
      have hrest : Sound limits { nostr with queue := queue } := ⟨h.nodup, h.reassemblers⟩
      obtain ⟨hsound, hseen, -⟩ := hrest.processEvent event.signal now later
      simp only
      split_ifs
      · refine ⟨⟨hsound.nodup.sublist List.erase_sublist, hsound.reassemblers⟩, ?_⟩
        simp only [hseen]
        exact List.erase_subset
      · refine ⟨hsound, ?_⟩
        rw [hseen]
        exact List.Subset.refl _

omit [DecidableEq σ] in
theorem rememberEventDigest_seen (digest : δ) :
    (nostr.rememberEventDigest limits digest).seenEventDigests ⊆
      nostr.seenEventDigests ++ [digest] := by
  unfold rememberEventDigest
  simp only
  split_ifs
  · exact List.subset_append_left _ _
  · exact List.Subset.trans (List.tail_subset _) (List.subset_append_left _ _)
  · exact List.Subset.refl _
  · exact List.tail_subset _

theorem Sound.acceptEvent (h : Sound limits nostr) (event : RelayEvent δ σ) :
    Sound limits (nostr.acceptEvent limits event) := by
  unfold NostrSignaling.acceptEvent
  split_ifs with hseen
  · exact h
  · exact h
  · refine ⟨?_, h.reassemblers⟩
    have hnodup : (nostr.seenEventDigests ++ [event.eventDigest]).Nodup :=
      List.Nodup.append h.nodup (List.nodup_singleton _)
        (List.disjoint_singleton.2 hseen)
    unfold rememberEventDigest
    simp only
    rw [if_neg hseen]
    split_ifs
    · exact hnodup
    · exact hnodup.sublist (List.tail_sublist _)

/-! ## What is discarded -/

end NostrSignaling

/-! ## The frames of a message -/

/-- The frames of one message, in order. -/
structure IsMessage (id : ℕ) (frames : List DataFrame) : Prop where
  nonempty : frames ≠ []
  valid : ∀ frame ∈ frames, frame.Valid
  id_eq : ∀ frame ∈ frames, frame.id = id
  count_eq : ∀ frame ∈ frames, frame.count = frames.length
  index_eq : frames.map DataFrame.index = List.range frames.length

/-- The message that is cut into some frames. -/
def payloadOf (frames : List DataFrame) : List UInt8 := frames.flatMap DataFrame.bytes

/-- The bytes of some frames. -/
def bytesOf (frames : List DataFrame) : ℕ := (frames.map fun frame => frame.bytes.length).sum

theorem length_payloadOf (frames : List DataFrame) :
    (payloadOf frames).length = bytesOf frames := List.length_flatMap

theorem bytesOf_append (frames rest : List DataFrame) :
    bytesOf (frames ++ rest) = bytesOf frames + bytesOf rest := by
  simp [bytesOf]

theorem bytesOf_perm {frames rest : List DataFrame} (h : frames.Perm rest) :
    bytesOf frames = bytesOf rest := (h.map _).sum_eq

/-- A group holds the frames of `got` and no others. -/
structure Collects (id : ℕ) (frames got : List DataFrame) (group : PendingFrameGroup) : Prop where
  id_eq : group.id = id
  count_eq : group.count = frames.length
  size_eq : group.chunks.size = got.length
  bytes_eq : group.byteLength = bytesOf got
  held : ∀ frame ∈ got, group.chunks.get? frame.index = some frame.bytes
  missing : ∀ frame ∈ frames, frame ∉ got → group.chunks.get? frame.index = none

/-- A group with one more chunk. -/
def PendingFrameGroup.grow (group : PendingFrameGroup) (frame : DataFrame) : PendingFrameGroup :=
  { group with
    chunks := group.chunks.set frame.index frame.bytes
    byteLength := group.byteLength + frame.bytes.length }

section

variable {id : ℕ} {frames got : List DataFrame} {group : PendingFrameGroup} {frame : DataFrame}

theorem IsMessage.nodup (h : IsMessage id frames) : frames.Nodup :=
  List.Nodup.of_map DataFrame.index (h.index_eq ▸ List.nodup_range)

theorem IsMessage.index_inj (h : IsMessage id frames) {other : DataFrame} (hframe : frame ∈ frames)
    (hother : other ∈ frames) (hindex : frame.index = other.index) : frame = other :=
  List.inj_on_of_nodup_map (h.index_eq ▸ List.nodup_range) hframe hother hindex

theorem IsMessage.index_of_getElem? (h : IsMessage id frames) {index : ℕ}
    (hget : frames[index]? = some frame) : frame.index = index := by
  have hindex := congrArg (fun indices => indices[index]?) h.index_eq
  simp only [List.getElem?_map, hget, Option.map_some] at hindex
  rw [List.getElem?_range (List.getElem?_eq_some_iff.1 hget).1] at hindex
  exact Option.some.inj hindex

/-- No frame has come yet. -/
theorem Collects.start (h : IsMessage id frames) (hframe : frame ∈ frames) (now : ℚ) :
    Collects id frames [] (startGroup frame now) :=
  ⟨h.id_eq frame hframe, h.count_eq frame hframe, rfl, rfl, by simp, fun _ _ _ => rfl⟩

/-- One more frame has come. -/
theorem Collects.grow (h : Collects id frames got group) (hmessage : IsMessage id frames)
    (hgot : got ⊆ frames) (hframe : frame ∈ frames) (hnew : frame ∉ got) :
    Collects id frames (got ++ [frame]) (group.grow frame) := by
  have hnone := h.missing frame hframe hnew
  refine ⟨h.id_eq, h.count_eq, ?_, ?_, fun other hother => ?_, fun other hother hmissing => ?_⟩
  · rw [PendingFrameGroup.grow, size_set, delete_of_none hnone, h.size_eq, List.length_append,
      List.length_singleton, add_comm]
  · rw [bytesOf_append, PendingFrameGroup.grow, h.bytes_eq]
    simp [bytesOf]
  · rw [PendingFrameGroup.grow, get?_set]
    rcases List.mem_append.1 hother with hmem | hmem
    · rw [if_neg, h.held other hmem]
      exact fun heq => hnew (hmessage.index_inj (hgot hmem) hframe heq ▸ hmem)
    · rw [List.mem_singleton.1 hmem, if_pos rfl]
  · rw [List.mem_append, not_or] at hmissing
    rw [PendingFrameGroup.grow, get?_set, if_neg, h.missing other hother hmissing.1]
    exact fun heq => hmissing.2 (List.mem_singleton.2 (hmessage.index_inj hother hframe heq))

theorem assemble_frames {chunks : OrderedMap ℕ (List UInt8)} (start : ℕ)
    (h : ∀ index frame, frames[index]? = some frame →
      chunks.get? (start + index) = some frame.bytes) :
    assemble chunks start frames.length = some (payloadOf frames) := by
  induction frames generalizing start with
  | nil => rfl
  | cons frame rest ih =>
      have hfirst := h 0 frame rfl
      have hrest := ih (start + 1) fun index frame hget => by
        rw [add_assoc, add_comm 1 index]
        exact h (index + 1) frame hget
      rw [add_zero] at hfirst
      rw [List.length_cons, assemble, hfirst, Option.bind_eq_bind, Option.bind_some, hrest]
      rfl

/-- All the frames have come. -/
theorem Collects.assemble (h : Collects id frames got group) (hmessage : IsMessage id frames)
    (hall : ∀ frame ∈ frames, frame ∈ got) :
    FrameReassembler.assemble group.chunks 0 group.count = some (payloadOf frames) := by
  rw [h.count_eq]
  refine assemble_frames 0 fun index frame hget => ?_
  rw [zero_add, ← hmessage.index_of_getElem? hget]
  exact h.held frame (hall frame (List.mem_of_getElem? hget))

end

namespace FrameReassembler

variable {r : FrameReassembler} {group : PendingFrameGroup} {frame : DataFrame}
  {later : Option ℚ} {id : ℕ}

theorem scheduleExpiry_disabled (hdisabled : r.scheduleExpiryEnabled = false) :
    r.scheduleExpiry later = (.ok (), r) := by
  unfold scheduleExpiry
  rw [hdisabled]

theorem addChunk_room (hchunk : group.chunks.get? frame.index = none)
    (hmessage : group.byteLength + frame.bytes.length ≤ r.maxMessageBytes)
    (hpending : r.pendingBytes + frame.bytes.length ≤ r.maxPendingBytes) :
    r.addChunk group frame later = completeGroup { r with
      groups := r.groups.set frame.id (group.grow frame)
      pendingBytes := r.pendingBytes + frame.bytes.length } (group.grow frame) later := by
  unfold addChunk
  rw [hchunk]
  simp only
  rw [if_neg (not_lt.2 hmessage), if_neg (not_lt.2 hpending)]
  rfl

theorem addFrame_group {now : ℚ} (hcount : frame.count ≤ r.maxFramesPerMessage)
    (hget : r.groups.get? frame.id = some group) (hmatch : group.count = frame.count) :
    r.addFrame frame now later = r.addChunk group frame later := by
  unfold addFrame
  rw [if_neg (not_lt.2 hcount), hget]
  simp only
  rw [if_neg (not_not.2 hmatch)]

theorem addFrame_start {now : ℚ} (hcount : frame.count ≤ r.maxFramesPerMessage)
    (hget : r.groups.get? frame.id = none) (hgroups : r.groups.size < r.maxPendingGroups) :
    r.addFrame frame now later = addChunk
      { r with groups := r.groups.set frame.id (startGroup frame now) } (startGroup frame now)
        frame later := by
  unfold addFrame
  rw [if_neg (not_lt.2 hcount), hget]
  simp only
  rw [if_neg (not_le.2 hgroups)]

theorem delete_pendingBytes_le : (r.delete id).pendingBytes ≤ r.pendingBytes := by
  unfold delete
  cases r.groups.get? id with
  | none => exact Nat.le_refl _
  | some group => exact Nat.sub_le _ _

theorem expireAt_pendingBytes_le (now : ℚ) : (r.expireAt now).pendingBytes ≤ r.pendingBytes := by
  unfold expireAt
  generalize r.expired now = ids
  induction ids generalizing r with
  | nil => exact Nat.le_refl _
  | cons head rest ih => exact ih.trans delete_pendingBytes_le

theorem expireAt_size_le (now : ℚ) : (r.expireAt now).groups.size ≤ r.groups.size := by
  unfold expireAt
  generalize r.expired now = ids
  induction ids generalizing r with
  | nil => exact Nat.le_refl _
  | cons head rest ih =>
      refine ih.trans ?_
      rw [delete_groups]
      exact size_delete_le

/-- A group is kept until its time is over. -/
theorem get?_expireAt_fresh {now : ℚ} (h : r.groups.get? id = some group)
    (hfresh : now - group.createdAt < r.timeoutMs) :
    (r.expireAt now).groups.get? id = some group := by
  rw [get?_expireAt, if_neg, h]
  unfold expired
  rw [List.mem_map]
  rintro ⟨⟨key, other⟩, hmem, rfl⟩
  obtain ⟨hentry, hexpired⟩ := List.mem_filter.1 hmem
  rw [get?_eq_some.2 hentry] at h
  cases h
  exact absurd (of_decide_eq_true hexpired) (not_le.2 hfresh)

/-- What an accepted frame of a message leaves: a group with one more frame, or the message. -/
theorem addChunk_collects {frames got : List DataFrame} (hmessage : IsMessage id frames)
    (hdisabled : r.scheduleExpiryEnabled = false) (hgroup : Collects id frames got group)
    (hget : r.groups.get? id = some group) (hheld : bytesOf got ≤ r.pendingBytes)
    (hsub : got ⊆ frames) (hframe : frame ∈ frames) (hnew : frame ∉ got) (hnodup : got.Nodup)
    (hfits : group.byteLength + frame.bytes.length ≤ r.maxMessageBytes)
    (hpending : r.pendingBytes + frame.bytes.length ≤ r.maxPendingBytes) :
    (got.length + 1 ≠ frames.length →
      (∃ received count, (r.addChunk group frame later).1 = .ok (.incomplete id received count)) ∧
      (r.addChunk group frame later).2.groups.get? id = some (group.grow frame) ∧
      (r.addChunk group frame later).2.pendingBytes = r.pendingBytes + frame.bytes.length) ∧
    (got.length + 1 = frames.length →
      (r.addChunk group frame later).1 = .ok (.complete id (payloadOf frames)) ∧
      (r.addChunk group frame later).2.groups.get? id = none ∧
      (r.addChunk group frame later).2.pendingBytes + bytesOf got = r.pendingBytes ∧
      (r.addChunk group frame later).2.groups.size < r.groups.size) := by
  have hgrown := hgroup.grow hmessage hsub hframe hnew
  have hid : frame.id = id := hmessage.id_eq frame hframe
  have hlengths : (group.grow frame).chunks.size = got.length + 1 ∧
      (group.grow frame).count = frames.length :=
    ⟨by rw [hgrown.size_eq, List.length_append, List.length_singleton], hgrown.count_eq⟩
  rw [addChunk_room (hgroup.missing frame hframe hnew) hfits hpending]
  obtain ⟨next, hnext⟩ : ∃ next : FrameReassembler, next = { r with
    groups := r.groups.set frame.id (group.grow frame)
    pendingBytes := r.pendingBytes + frame.bytes.length } := ⟨_, rfl⟩
  have hnextGet : next.groups.get? id = some (group.grow frame) := by
    rw [hnext, hid, get?_set, if_pos rfl]
  rw [← hnext]
  unfold completeGroup
  rw [hlengths.1, hlengths.2]
  constructor
  · intro hlength
    have hschedule : next.scheduleExpiry later = (.ok (), next) :=
      scheduleExpiry_disabled (hnext ▸ hdisabled)
    rw [if_pos hlength, hschedule]
    exact ⟨⟨_, _, by rw [hgrown.id_eq]⟩, hnextGet, by rw [hnext]⟩
  · intro hlength
    have hall : ∀ other ∈ frames, other ∈ got ++ [frame] := by
      have hsubperm : (got ++ [frame]).Subperm frames := by
        refine List.subperm_of_subset ?_ ?_
        · exact List.Nodup.append hnodup (List.nodup_singleton _)
            (List.disjoint_singleton.2 hnew)
        · exact List.append_subset.2 ⟨hsub, List.cons_subset.2 ⟨hframe, List.nil_subset _⟩⟩
      have hperm := hsubperm.perm_of_length_le (by simp [hlength])
      exact fun other hother => hperm.mem_iff.2 hother
    have hassemble := hgrown.assemble hmessage hall
    rw [hlengths.2] at hassemble
    rw [if_neg (not_not.2 hlength), hassemble, hgrown.id_eq]
    refine ⟨rfl, ?_, ?_, ?_⟩
    · rw [delete_groups, get?_delete, if_pos rfl]
    · have hbytes : (group.grow frame).byteLength = bytesOf got + frame.bytes.length := by
        rw [hgrown.bytes_eq, bytesOf_append]
        simp [bytesOf]
      unfold delete
      rw [hnextGet]
      simp only
      rw [hbytes, hnext]
      simp only
      omega
    · rw [delete_groups, hnext, hid, delete_set, size_of_get? hget]
      omega

/-- A chunk that is held already changes nothing. -/
theorem addChunk_held (hchunk : group.chunks.get? frame.index = some frame.bytes) :
    r.addChunk group frame later
      = (.ok (.duplicate frame.id group.chunks.size group.count), r) := by
  unfold addChunk
  rw [hchunk]
  simp

end FrameReassembler

namespace NostrSignaling

variable {δ σ : Type} [DecidableEq δ] [DecidableEq σ] {limits : NostrLimits}
  {nostr : NostrSignaling δ σ} {sender : σ} {id : ℕ} {frames got : List DataFrame}
  {group : PendingFrameGroup} {frame : DataFrame} {r : FrameReassembler}

/-- The options of a reassembler are those it was made with. -/
theorem options_of_clear (h : r.clear = newReassembler limits) :
    r.timeoutMs = INCOMPLETE_FRAME_TIMEOUT_MS ∧ r.maxMessageBytes = MAX_SIGNALING_MESSAGE_BYTES ∧
      r.maxPendingBytes = limits.maxPendingFrameBytes ∧ r.maxPendingGroups = 64 ∧
      r.maxFramesPerMessage = (newReassembler limits).maxFramesPerMessage ∧
      r.scheduleExpiryEnabled = false := by
  have hframes : r.clear.maxFramesPerMessage = (newReassembler limits).maxFramesPerMessage :=
    congrArg FrameReassembler.maxFramesPerMessage h
  exact ⟨congrArg FrameReassembler.timeoutMs h, congrArg FrameReassembler.maxMessageBytes h,
    congrArg FrameReassembler.maxPendingBytes h, congrArg FrameReassembler.maxPendingGroups h,
    hframes, congrArg FrameReassembler.scheduleExpiryEnabled h⟩

/-- The readings of the clock during a redelivery are less than the frame timeout apart. -/
def Brief (window : ℕ → Prop) : Prop :=
  ∀ now start, window now → window start → now < start + INCOMPLETE_FRAME_TIMEOUT_MS

/-- The frames of a message that a sender's reassembler holds, and when the first of them came. -/
structure HasGot (window : ℕ → Prop) (id : ℕ) (frames got : List DataFrame)
    (group : Option PendingFrameGroup) : Prop where
  nodup : got.Nodup
  subset : got ⊆ frames
  held : if got = [] then group = none else ∃ held, group = some held ∧
    Collects id frames got held ∧ ∃ start : ℕ, window start ∧ held.createdAt = start

/-- Nothing of the message expires. -/
theorem HasGot.expireAt {window : ℕ → Prop} (hbrief : Brief window) {now : ℕ} (hnow : window now)
    (hclear : r.clear = newReassembler limits)
    (h : HasGot window id frames got (r.groups.get? id)) :
    HasGot window id frames got ((r.expireAt now).groups.get? id) := by
  refine ⟨h.nodup, h.subset, ?_⟩
  have hheld := h.held
  split_ifs at hheld ⊢ with hnone
  · rw [get?_expireAt, hheld, ite_self]
  · obtain ⟨held, hget, hcollects, start, hstart, hcreated⟩ := hheld
    refine ⟨held, get?_expireAt_fresh hget ?_, hcollects, start, hstart, hcreated⟩
    have hlt : ((now : ℕ) : ℚ) < ((start + INCOMPLETE_FRAME_TIMEOUT_MS : ℕ) : ℚ) :=
      Nat.cast_lt.2 (hbrief now start hnow hstart)
    rw [hcreated, (options_of_clear hclear).1]
    push_cast at hlt
    linarith

/-- A message of which all frames are held is not held any more. -/
theorem HasGot.length_lt {window : ℕ → Prop} (hmessage : IsMessage id frames) (hr : Within r none)
    (h : HasGot window id frames got (r.groups.get? id)) : got.length < frames.length := by
  have hheld := h.held
  split_ifs at hheld with hnone
  · rw [hnone]
    exact List.length_pos_of_ne_nil hmessage.nonempty
  · obtain ⟨held, hget, hcollects, -⟩ := hheld
    have hlt := (hr.groups _ held hget).1.size_lt
    rw [hcollects.size_eq, hcollects.count_eq] at hlt
    exact hlt

theorem HasGot.bytes_le {window : ℕ → Prop} (hr : Within r none)
    (h : HasGot window id frames got (r.groups.get? id)) : bytesOf got ≤ r.pendingBytes := by
  have hheld := h.held
  split_ifs at hheld with hnone
  · rw [hnone]
    exact Nat.zero_le _
  · obtain ⟨held, hget, hcollects, -⟩ := hheld
    rw [hr.pending, total_of_get? _ hget, ← hcollects.bytes_eq]
    exact Nat.le_add_right _ _

/-- What is held of a message after one more of its frames. -/
def gotAfter (frames got : List DataFrame) (frame : DataFrame) : List DataFrame :=
  if frame ∈ got then got else if got.length + 1 = frames.length then [] else got ++ [frame]

/-- Different frames of a message have no more bytes than it. -/
theorem bytesOf_le (hnodup : got.Nodup) (hsub : got ⊆ frames) : bytesOf got ≤ bytesOf frames := by
  obtain ⟨sorted, hperm, hsublist⟩ := List.subperm_of_subset hnodup hsub
  rw [← bytesOf_perm hperm]
  exact (hsublist.map _).sum_le_sum (by simp)

theorem bytesOf_snoc_le (hnodup : got.Nodup) (hsub : got ⊆ frames) (hframe : frame ∈ frames)
    (hnew : frame ∉ got) : bytesOf got + frame.bytes.length ≤ (payloadOf frames).length := by
  have hle := @bytesOf_le frames (got ++ [frame])
    (List.Nodup.append hnodup (List.nodup_singleton _) (List.disjoint_singleton.2 hnew))
    (List.append_subset.2 ⟨hsub, List.cons_subset.2 ⟨hframe, List.nil_subset _⟩⟩)
  have hone : bytesOf [frame] = frame.bytes.length := by simp [bytesOf]
  rw [length_payloadOf, ← hone, ← bytesOf_append]
  exact hle

/-- What `accept` makes of a frame of a message. -/
theorem accept_collects {window : ℕ → Prop} (hbrief : Brief window) {now : ℕ} (hnow : window now)
    (hmessage : IsMessage id frames) (hr : Within r none) (hclear : r.clear = newReassembler limits)
    (hgot : HasGot window id frames got (r.groups.get? id)) (hframe : frame ∈ frames)
    (hgroups : got = [] → r.groups.size < 64)
    (hcount : frames.length ≤ (newReassembler limits).maxFramesPerMessage)
    (hsize : (payloadOf frames).length ≤ MAX_SIGNALING_MESSAGE_BYTES)
    (hpending : frame ∉ got → r.pendingBytes + frame.bytes.length ≤ limits.maxPendingFrameBytes) :
    ∃ result next, r.accept frame.candidate (some now) (some now) = (.ok result, next) ∧
      HasGot window id frames (gotAfter frames got frame) (next.groups.get? id) ∧
      next.pendingBytes + bytesOf got ≤ r.pendingBytes + bytesOf (gotAfter frames got frame) ∧
      (gotAfter frames got frame = [] → next.groups.size < 64) ∧
      if frame ∉ got ∧ got.length + 1 = frames.length then result = .complete id (payloadOf frames)
      else ∃ received count,
        result = .incomplete id received count ∨ result = .duplicate id received count := by
  have hid : frame.id = id := hmessage.id_eq frame hframe
  have hcounts : frame.count = frames.length := hmessage.count_eq frame hframe
  have hsame := (clear_expireAt (r := r) (now : ℚ)).trans hclear
  obtain ⟨-, hmax, hpend, hmaxGroups, hmaxFrames, hdisabled⟩ := options_of_clear hsame
  have hwithin := hr.expireAt (now : ℚ)
  have hexpired := hgot.expireAt hbrief hnow hclear
  have hle := expireAt_pendingBytes_le (r := r) (now : ℚ)
  have hsizes := expireAt_size_le (r := r) (now : ℚ)
  have hbytes := hexpired.bytes_le hwithin
  have haccept : r.accept frame.candidate (some now) (some now)
      = (r.expireAt now).addFrame frame now (some now) := by
    unfold accept
    rw [normalizeFrame_eq_ok.2 ⟨rfl, hmessage.valid frame hframe⟩, requireTime_natCast]
  rw [haccept]
  generalize r.expireAt now = fresh at *
  by_cases hold : frame ∈ got
  · -- a frame that is held already
    have hheld := hexpired.held
    rw [if_neg (List.ne_nil_of_mem hold)] at hheld
    obtain ⟨group, hget, hcollects, -⟩ := hheld
    have hafter : gotAfter frames got frame = got := if_pos hold
    rw [addFrame_group (by omega) (hid.symm ▸ hget) (hcollects.count_eq.trans hcounts.symm),
      addChunk_held (hcollects.held frame hold), hafter]
    refine ⟨_, _, rfl, hexpired, by omega, fun hnil => absurd hnil (List.ne_nil_of_mem hold), ?_⟩
    rw [if_neg fun hnew => hnew.1 hold]
    exact ⟨_, _, .inr (by rw [hid])⟩
  -- the group that the frame goes into
  obtain ⟨before, group, hadd, hbefore, hbeforeClear, hbeforeSize, hget, hcollects, start, hstart,
      hcreated⟩ : ∃ before group, fresh.addFrame frame now (some now)
        = addChunk before group frame (some now) ∧ before.pendingBytes = fresh.pendingBytes ∧
      before.clear = fresh.clear ∧ before.groups.size ≤ 64 ∧
      before.groups.get? id = some group ∧ Collects id frames got group ∧
      ∃ start : ℕ, window start ∧ group.createdAt = start := by
    have hheld := hexpired.held
    split_ifs at hheld with hempty
    · subst hempty
      have hroom := hgroups rfl
      refine ⟨_, startGroup frame now, addFrame_start (by omega) (hid.symm ▸ hheld) (by omega), rfl,
        rfl, ?_, ?_, Collects.start hmessage hframe now, now, hnow, rfl⟩
      · simp only
        rw [size_set, hid, delete_of_none hheld]
        omega
      · simp only
        rw [hid, get?_set, if_pos rfl]
    · obtain ⟨held, hget, hcollects, hstart⟩ := hheld
      exact ⟨_, held, addFrame_group (by omega) (hid.symm ▸ hget)
        (hcollects.count_eq.trans hcounts.symm), rfl, rfl, hmaxGroups ▸ hwithin.size_le, hget,
        hcollects, hstart⟩
  obtain ⟨-, hmax', hpend', -, -, hdisabled'⟩ := options_of_clear (hbeforeClear.trans hsame)
  have hsnoc := bytesOf_snoc_le hgot.nodup hgot.subset hframe hold
  have hroom := hpending hold
  have hfits : group.byteLength + frame.bytes.length ≤ before.maxMessageBytes := by
    rw [hcollects.bytes_eq, hmax']
    exact hsnoc.trans hsize
  obtain ⟨hmore, hlast⟩ := @addChunk_collects before group frame (some now) id frames got
    hmessage hdisabled' hcollects hget (by omega) hgot.subset hframe hold hgot.nodup hfits
    (by omega)
  rw [hadd]
  by_cases hfull : got.length + 1 = frames.length
  · obtain ⟨hresult, hnone, hpendingAfter, hsizeAfter⟩ := hlast hfull
    have hafter : gotAfter frames got frame = [] := by
      unfold gotAfter
      rw [if_neg hold, if_pos hfull]
    rw [hafter]
    refine ⟨_, (before.addChunk group frame (some now)).2, Prod.ext hresult rfl,
      ⟨List.nodup_nil, List.nil_subset _, ?_⟩, ?_, fun _ => ?_, ?_⟩
    · rw [if_pos rfl]
      exact hnone
    · change _ ≤ r.pendingBytes + 0
      omega
    · omega
    · rw [if_pos ⟨hold, hfull⟩]
  · obtain ⟨⟨received, count, hresult⟩, hgrown, hpendingAfter⟩ := hmore hfull
    have hafter : gotAfter frames got frame = got ++ [frame] := by
      unfold gotAfter
      rw [if_neg hold, if_neg hfull]
    rw [hafter]
    refine ⟨_, (before.addChunk group frame (some now)).2, Prod.ext hresult rfl, ⟨?_, ?_, ?_⟩, ?_,
      fun hnil => absurd hnil (by simp), ?_⟩
    · exact List.Nodup.append hgot.nodup (List.nodup_singleton _) (List.disjoint_singleton.2 hold)
    · exact List.append_subset.2 ⟨hgot.subset, List.cons_subset.2 ⟨hframe, List.nil_subset _⟩⟩
    · rw [if_neg (by simp)]
      exact ⟨_, hgrown, hcollects.grow hmessage hgot.subset hframe hold, start, hstart, hcreated⟩
    · have hone : bytesOf [frame] = frame.bytes.length := by simp [bytesOf]
      rw [bytesOf_append, hone]
      omega
    · rw [if_neg fun hnew => hfull hnew.2]
      exact ⟨_, _, .inl rfl⟩

/-! ## Redelivery -/

/-- The event a frame comes in. -/
def eventOf (sender : σ) (part : δ × DataFrame) : RelayEvent δ σ := ⟨part.1, .packet sender part.2⟩

/-- There is room for a message of which the frames in `held` are held: no limit can be reached
while the others come. -/
structure HasRoom (limits : NostrLimits) (nostr : NostrSignaling δ σ) (sender : σ) (id : ℕ)
    (frames held : List DataFrame) (window : ℕ → Prop) : Prop where
  handler : nostr.handler = true
  idle : nostr.queue = []
  holds : HasGot window id frames held (nostr.groupOf sender id)
  events : frames.length ≤ limits.maxPendingEvents
  senders : (nostr.reassemblers.delete sender).size < limits.maxReassemblySenders
  groups : held = [] → ∀ r, nostr.reassemblers.get? sender = some r → r.groups.size < 64
  frameCount : frames.length ≤ (newReassembler limits).maxFramesPerMessage
  message : (payloadOf frames).length ≤ MAX_SIGNALING_MESSAGE_BYTES
  pending : nostr.pendingFrameBytes + (payloadOf frames).length
    ≤ limits.maxPendingFrameBytes + bytesOf held

/-- How far the message is: before it is complete, `got` is what was held and what was processed;
after that, `got` is some of what was held, come once more. -/
def Progress (frames held processed got : List DataFrame) : Prop :=
  if frames ⊆ held ++ processed then got ⊆ held ∧ got ⊆ processed
  else ∀ frame, frame ∈ got ↔ frame ∈ held ++ processed

/-- A redelivery in progress: the frames in `processed` have been processed, the events in `waiting`
are in the queue, those in `rest` are still to come, and the frames in `got` are held. -/
structure Redelivering (limits : NostrLimits) (start : NostrSignaling δ σ) (sender : σ) (id : ℕ)
    (frames held : List DataFrame) (window : ℕ → Prop) (got processed : List DataFrame)
    (waiting rest : List (δ × DataFrame)) (nostr : NostrSignaling δ σ) : Prop where
  sound : Sound limits nostr
  digests : (rest.map Prod.fst).Nodup
  distinct : (processed ++ (waiting ++ rest).map Prod.snd).Nodup
  parts : processed ++ (waiting ++ rest).map Prod.snd ⊆ frames
  missing : frames ⊆ held ++ (processed ++ (waiting ++ rest).map Prod.snd)
  handler : nostr.handler = true
  queue : nostr.queue = waiting.map (eventOf sender)
  unseen : ∀ part ∈ rest, part.2 ∈ held ∨ part.1 ∉ nostr.seenEventDigests
  holds : HasGot window id frames got (nostr.groupOf sender id)
  progress : Progress frames held processed got
  delivered : nostr.delivered = if frames ⊆ held ++ processed then
    start.delivered ++ [(sender, payloadOf frames)] else start.delivered
  bytes : nostr.pendingFrameBytes + bytesOf held ≤ start.pendingFrameBytes + bytesOf got
  senders : (nostr.reassemblers.delete sender).size < limits.maxReassemblySenders
  groups : got = [] → ∀ r, nostr.reassemblers.get? sender = some r → r.groups.size < 64

/-- One more frame is processed: the message is complete with it or not. -/
theorem Progress.next {held processed : List DataFrame} (h : Progress frames held processed got)
    (hframes : frames.Nodup) (hheld : held.length < frames.length) (hnodup : got.Nodup)
    (hsub : got ⊆ frames) (hshort : got.length < frames.length) (hframe : frame ∈ frames)
    (hnew : frame ∉ processed) :
    Progress frames held (processed ++ [frame]) (gotAfter frames got frame) ∧
    if frame ∉ got ∧ got.length + 1 = frames.length then
      frames ⊆ held ++ (processed ++ [frame]) ∧ ¬ frames ⊆ held ++ processed
    else frames ⊆ held ++ (processed ++ [frame]) ↔ frames ⊆ held ++ processed := by
  have hmore : held ++ processed ⊆ held ++ (processed ++ [frame]) := by
    rw [← List.append_assoc]
    exact List.subset_append_left _ _
  unfold Progress at h ⊢
  unfold gotAfter
  by_cases hdone : frames ⊆ held ++ processed
  · -- what comes now was held before
    rw [if_pos hdone] at h
    obtain ⟨hgotHeld, hgotProcessed⟩ := h
    have hdone' := List.Subset.trans hdone hmore
    have hin : frame ∈ held := (List.mem_append.1 (hdone hframe)).resolve_right hnew
    have hout : frame ∉ got := fun hmem => hnew (hgotProcessed hmem)
    have hlength : got.length + 1 ≤ held.length := by
      have hsubperm := List.subperm_of_subset
        (List.Nodup.append hnodup (List.nodup_singleton _) (List.disjoint_singleton.2 hout))
        (List.append_subset.2 ⟨hgotHeld, List.cons_subset.2 ⟨hin, List.nil_subset _⟩⟩)
      simpa using hsubperm.length_le
    have hfew : got.length + 1 ≠ frames.length := by omega
    rw [if_pos hdone', if_neg hout, if_neg hfew, if_neg fun hlast => hfew hlast.2]
    refine ⟨⟨List.append_subset.2 ⟨hgotHeld, List.cons_subset.2 ⟨hin, List.nil_subset _⟩⟩,
      List.append_subset.2 ⟨?_, ?_⟩⟩, iff_of_true hdone' hdone⟩
    · exact List.Subset.trans hgotProcessed (List.subset_append_left _ _)
    · exact List.subset_append_right _ _
  · rw [if_neg hdone] at h
    by_cases hold : frame ∈ got
    · have hsame : ∀ other, other ∈ held ++ (processed ++ [frame]) ↔ other ∈ held ++ processed := by
        intro other
        rw [← List.append_assoc, List.mem_append, List.mem_singleton, or_iff_left_iff_imp]
        rintro rfl
        exact (h other).1 hold
      have hdone' : ¬ frames ⊆ held ++ (processed ++ [frame]) := fun hall =>
        hdone fun other hother => (hsame other).1 (hall hother)
      rw [if_neg hdone', if_pos hold, if_neg fun hlast => hlast.1 hold]
      exact ⟨fun other => (h other).trans (hsame other).symm, iff_of_false hdone' hdone⟩
    · have hmem : ∀ other, other ∈ got ++ [frame] ↔ other ∈ held ++ (processed ++ [frame]) := by
        intro other
        rw [← List.append_assoc, List.mem_append, List.mem_append, h other]
      rw [if_neg hold]
      by_cases hfull : got.length + 1 = frames.length
      · have hsubperm := List.subperm_of_subset
          (List.Nodup.append hnodup (List.nodup_singleton _) (List.disjoint_singleton.2 hold))
          (List.append_subset.2 ⟨hsub, List.cons_subset.2 ⟨hframe, List.nil_subset _⟩⟩)
        have hperm := hsubperm.perm_of_length_le (by simp [hfull])
        have hdone' : frames ⊆ held ++ (processed ++ [frame]) := fun other hother =>
          (hmem other).1 (hperm.mem_iff.2 hother)
        rw [if_pos hdone', if_pos hfull, if_pos ⟨hold, hfull⟩]
        exact ⟨⟨List.nil_subset _, List.nil_subset _⟩, hdone', hdone⟩
      · have hdone' : ¬ frames ⊆ held ++ (processed ++ [frame]) := by
          intro hall
          have hsubperm := List.subperm_of_subset hframes fun other hother =>
            (hmem other).2 (hall hother)
          have hlength := hsubperm.length_le
          rw [List.length_append, List.length_singleton] at hlength
          omega
        rw [if_neg hdone', if_neg hfull, if_neg fun hlast => hfull hlast.2]
        exact ⟨hmem, iff_of_false hdone' hdone⟩

variable {start : NostrSignaling δ σ} {window : ℕ → Prop} {held processed : List DataFrame}
  {waiting rest : List (δ × DataFrame)}

omit [DecidableEq δ] [DecidableEq σ] in
theorem pendingFrameBytes_expire (now : ℕ) :
    (nostr.expireReassemblers now).pendingFrameBytes ≤ nostr.pendingFrameBytes := by
  refine total_filterMap_le fun before after hexpire => ?_
  unfold expireReassembler at hexpire
  split_ifs at hexpire
  cases hexpire
  exact expireAt_pendingBytes_le _

omit [DecidableEq δ] in
theorem senders_expire (now : ℕ) :
    ((nostr.expireReassemblers now).reassemblers.delete sender).size
      ≤ (nostr.reassemblers.delete sender).size := by
  rw [show (nostr.expireReassemblers now).reassemblers
    = nostr.reassemblers.filterMap (expireReassembler now) from rfl, delete_filterMap]
  exact size_filterMap_le _ _

omit [DecidableEq δ] in
/-- Expired fragments of other messages make room. -/
theorem Redelivering.expire (hbrief : Brief window) {now : ℕ} (hnow : window now)
    (h : Redelivering limits start sender id frames held window got processed waiting rest nostr) :
    Redelivering limits start sender id frames held window got processed waiting rest
      (nostr.expireReassemblers now) := by
  refine ⟨h.sound.expire now, h.digests, h.distinct, h.parts, h.missing, h.handler, h.queue,
    h.unseen, ?_, h.progress, h.delivered,
    (Nat.add_le_add_right (pendingFrameBytes_expire now) _).trans h.bytes,
    (senders_expire now).trans_lt h.senders, ?_⟩
  · have hgot := h.holds
    rw [groupOf_expireReassemblers]
    unfold groupOf at hgot
    cases hget : nostr.reassemblers.get? sender with
    | none =>
        rw [hget] at hgot
        exact hgot
    | some r =>
        rw [hget] at hgot
        exact hgot.expireAt hbrief hnow (h.sound.reassemblers sender r hget).2
  · intro hempty r hget
    rw [get?_expireReassemblers, Option.bind_eq_some_iff] at hget
    obtain ⟨before, hbefore, hexpire⟩ := hget
    unfold expireReassembler at hexpire
    split_ifs at hexpire
    cases hexpire
    exact (expireAt_size_le _).trans_lt (h.groups hempty before hbefore)

/-- An event of the message comes again: it is remembered and held, or it is put into the queue. -/
theorem Redelivering.event {part : δ × DataFrame} (hroom : frames.length ≤ limits.maxPendingEvents)
    (h : Redelivering limits start sender id frames held window got processed waiting (part :: rest)
      nostr) :
    ∃ waiting, Redelivering limits start sender id frames held window got processed waiting rest
      (nostr.acceptEvent limits (eventOf sender part)) := by
  have hnodup := List.nodup_cons.1 h.digests
  have hsound := h.sound.acceptEvent (eventOf sender part)
  have hqueue : ¬ limits.maxPendingEvents ≤ nostr.queue.length := by
    have hlength := (List.subperm_of_subset h.distinct h.parts).length_le
    rw [h.queue, List.length_map]
    simp only [List.length_append, List.length_map, List.length_cons] at hlength
    omega
  unfold acceptEvent at hsound ⊢
  by_cases hseen : (eventOf sender part).eventDigest ∈ nostr.seenEventDigests
  · -- what is remembered is held
    have hheld : part.2 ∈ held := (h.unseen part List.mem_cons_self).resolve_right fun hnew =>
      hnew hseen
    have hless : (processed ++ (waiting ++ rest).map Prod.snd).Sublist
        (processed ++ (waiting ++ part :: rest).map Prod.snd) :=
      ((((List.sublist_cons_self part rest).append_left waiting).map _)).append_left _
    rw [if_pos hseen]
    refine ⟨waiting, h.sound, hnodup.2, h.distinct.sublist hless,
      List.Subset.trans hless.subset h.parts, fun frame hframe => ?_, h.handler, h.queue,
      fun other hother => h.unseen other (List.mem_cons_of_mem _ hother), h.holds, h.progress,
      h.delivered, h.bytes, h.senders, h.groups⟩
    have hmem := h.missing hframe
    simp only [List.mem_append, List.map_append, List.map_cons, List.mem_cons] at hmem ⊢
    rcases hmem with hmem | hmem | hmem | rfl | hmem
    · exact .inl hmem
    · exact .inr (.inl hmem)
    · exact .inr (.inr (.inl hmem))
    · exact .inl hheld
    · exact .inr (.inr (.inr hmem))
  · have hsplit : waiting ++ [part] ++ rest = waiting ++ part :: rest := by simp
    rw [if_neg hseen, if_neg hqueue] at hsound ⊢
    refine ⟨waiting ++ [part], hsound, hnodup.2, hsplit ▸ h.distinct, hsplit ▸ h.parts,
      hsplit ▸ h.missing, h.handler, ?_, fun other hother => ?_, h.holds, h.progress, h.delivered,
      h.bytes, h.senders, h.groups⟩
    · simp only
      rw [h.queue, List.map_append]
      rfl
    · refine (h.unseen other (List.mem_cons_of_mem _ hother)).imp_right fun hnew hmem => ?_
      rcases List.mem_append.1 (rememberEventDigest_seen _ hmem) with hold | heq
      · exact hnew hold
      · -- the digests are different
        refine hnodup.1 ?_
        rw [← show other.1 = part.1 from List.mem_singleton.1 heq]
        exact List.mem_map_of_mem hother

/-- The next event of the message is processed. -/
theorem Redelivering.process {part : δ × DataFrame} (hbrief : Brief window) {now later : ℕ}
    (hnow : window now) (hlater : window later) (hmessage : IsMessage id frames)
    (hheld : held.length < frames.length)
    (hcount : frames.length ≤ (newReassembler limits).maxFramesPerMessage)
    (hsize : (payloadOf frames).length ≤ MAX_SIGNALING_MESSAGE_BYTES)
    (hpending : start.pendingFrameBytes + (payloadOf frames).length
      ≤ limits.maxPendingFrameBytes + bytesOf held)
    (h : Redelivering limits start sender id frames held window got processed (part :: waiting) rest
      nostr) :
    Redelivering limits start sender id frames held window (gotAfter frames got part.2)
      (processed ++ [part.2]) waiting rest (nostr.processNext limits now later) := by
  have hsplit : processed ++ [part.2] ++ (waiting ++ rest).map Prod.snd
      = processed ++ (part :: waiting ++ rest).map Prod.snd := by simp
  have hframe : part.2 ∈ frames := h.parts (by simp)
  have hnew : part.2 ∉ processed := by
    have hdistinct := h.distinct
    rw [← hsplit] at hdistinct
    have hfirst := (List.nodup_append.1 hdistinct).1
    exact fun hmem => (List.nodup_append.1 hfirst).2.2 _ hmem _ (List.mem_singleton.2 rfl) rfl
  obtain ⟨base, hbase⟩ : ∃ base : NostrSignaling δ σ,
    base = expireReassemblers { nostr with queue := waiting.map (eventOf sender) } now := ⟨_, rfl⟩
  have hexpired := h.expire hbrief hnow
  have hsame : base.reassemblers = (nostr.expireReassemblers now).reassemblers := by
    rw [hbase]
    rfl
  have hsound : Sound limits base := by
    rw [hbase]
    exact ⟨hexpired.sound.nodup, hexpired.sound.reassemblers⟩
  have hdelivered : base.delivered = nostr.delivered := by rw [hbase]; rfl
  have hhandler : base.handler = true := by rw [hbase]; exact h.handler
  have hbytes : base.pendingFrameBytes + bytesOf held ≤ start.pendingFrameBytes + bytesOf got := by
    have hexpiredBytes := hexpired.bytes
    unfold pendingFrameBytes at hexpiredBytes ⊢
    rw [hsame]
    exact hexpiredBytes
  -- what accepting the frame does to a reassembler of the sender
  have haccept : ∀ r : FrameReassembler, Within r none → r.clear = newReassembler limits →
      HasGot window id frames got (r.groups.get? id) →
      r.pendingBytes + (base.reassemblers.delete sender).total
        (fun _ r => r.pendingBytes) ≤ base.pendingFrameBytes →
      (got = [] → r.groups.size < 64) →
      Redelivering limits start sender id frames held window (gotAfter frames got part.2)
        (processed ++ [part.2]) waiting rest (base.acceptFrame limits sender r part.2 later).2 ∧
      (base.acceptFrame limits sender r part.2 later).1 = none := by
    intro r hr hclear hgot hshare hgroups
    have hshort := hgot.length_lt hmessage hr
    obtain ⟨result, next, hresult, hnext, hle, hnextGroups, hcase⟩ := accept_collects hbrief hlater
      hmessage hr hclear hgot hframe hgroups hcount hsize fun hout => by
        have hsnoc := bytesOf_snoc_le hgot.nodup hgot.subset hframe hout
        omega
    obtain ⟨hprogress, hdone⟩ := h.progress.next hmessage.nodup hheld hgot.nodup hgot.subset hshort
      hframe hnew
    have hset : (base.setReassembler sender next).pendingFrameBytes
        = next.pendingBytes + (base.reassemblers.delete sender).total
          (fun _ r => r.pendingBytes) := total_set _
    have hnextBytes := bytesOf_le hnext.nodup hnext.subset
    rw [← length_payloadOf frames] at hnextBytes
    obtain ⟨hnextWithin, hnextClear⟩ : Within next none ∧ next.clear = newReassembler limits := by
      have hwithin := (hr.accept part.2.candidate (some (later : ℚ)) (some (later : ℚ))).1
      have hsameClear := clear_accept (r := r) part.2.candidate (some (later : ℚ))
        (some (later : ℚ))
      rw [hresult] at hwithin hsameClear
      exact ⟨hwithin, hsameClear.trans hclear⟩
    -- the reassemblers afterwards
    obtain ⟨after, hafter⟩ : ∃ after, after = if next.groups.size = 0 then
      (base.setReassembler sender next).deleteReassembler sender
      else base.setReassembler sender next := ⟨_, rfl⟩
    have hkept : Sound limits after ∧ after.seenEventDigests = base.seenEventDigests ∧
        after.queue = base.queue ∧ after.handler = base.handler ∧
        after.delivered = base.delivered ∧ after.groupOf sender id = next.groups.get? id ∧
        after.pendingFrameBytes ≤ (base.setReassembler sender next).pendingFrameBytes ∧
        after.reassemblers.delete sender = base.reassemblers.delete sender ∧
        ∀ r, after.reassemblers.get? sender = some r → r = next := by
      rw [hafter]
      split_ifs with hempty
      · refine ⟨(hsound.setReassembler hnextWithin hnextClear).deleteReassembler, rfl, rfl, rfl, rfl,
          ?_, ?_, ?_, fun r hget => ?_⟩
        · unfold groupOf deleteReassembler
          rw [get?_delete, if_pos rfl, get?_of_size_zero hempty]
          rfl
        · rw [hset]
          unfold pendingFrameBytes deleteReassembler setReassembler
          simp only [delete_set]
          omega
        · unfold deleteReassembler setReassembler
          simp only [delete_set]
          exact delete_of_none (by rw [get?_delete, if_pos rfl])
        · unfold deleteReassembler at hget
          rw [get?_delete, if_pos rfl] at hget
          cases hget
      · refine ⟨hsound.setReassembler hnextWithin hnextClear, rfl, rfl, rfl, rfl, ?_, le_refl _,
          delete_set, fun r hget => ?_⟩
        · unfold groupOf setReassembler
          rw [get?_set, if_pos rfl]
          rfl
        · unfold setReassembler at hget
          rw [get?_set, if_pos rfl] at hget
          exact (Option.some.inj hget).symm
    obtain ⟨hsoundAfter, hseenAfter, hqueueAfter, hhandlerAfter, hdeliveredAfter, hgroupAfter,
      hpendingAfter, hdeleteAfter, hnextAfter⟩ := hkept
    have hredelivering : ∀ delivered, (delivered = if frames ⊆ held ++ (processed ++ [part.2]) then
          start.delivered ++ [(sender, payloadOf frames)] else start.delivered) →
        Redelivering limits start sender id frames held window (gotAfter frames got part.2)
          (processed ++ [part.2]) waiting rest { after with delivered := delivered } := by
      intro delivered hwhat
      refine ⟨⟨hsoundAfter.nodup, hsoundAfter.reassemblers⟩, h.digests, hsplit ▸ h.distinct,
        hsplit ▸ h.parts, hsplit ▸ h.missing, hhandlerAfter.trans hhandler, ?_, ?_,
        hgroupAfter ▸ hnext, hprogress, hwhat, ?_, ?_, ?_⟩
      · exact hqueueAfter.trans (by rw [hbase]; rfl)
      · intro other hother
        rw [show ({ after with delivered := delivered } : NostrSignaling δ σ).seenEventDigests
          = nostr.seenEventDigests from hseenAfter.trans (by rw [hbase]; rfl)]
        exact h.unseen other hother
      · change after.pendingFrameBytes + _ ≤ _
        omega
      · change (after.reassemblers.delete sender).size < _
        rw [hdeleteAfter, hsame]
        exact hexpired.senders
      · intro hempty r hget
        rw [hnextAfter r hget]
        exact hnextGroups hempty
    have hbefore := h.delivered
    unfold acceptFrame
    rw [hresult]
    simp only
    rw [if_neg (by omega)]
    unfold settleFrame
    rw [← hafter]
    split_ifs at hcase hdone with hlast
    · -- the last frame that was missing
      rw [hcase]
      simp only
      rw [if_pos (hhandlerAfter.trans hhandler)]
      refine ⟨hredelivering _ ?_, rfl⟩
      rw [if_neg hdone.2] at hbefore
      rw [if_pos hdone.1, hdeliveredAfter, hdelivered, hbefore]
    · have hwhat : after.delivered = if frames ⊆ held ++ (processed ++ [part.2]) then
          start.delivered ++ [(sender, payloadOf frames)] else start.delivered := by
        rw [hdeliveredAfter, hdelivered, hbefore]
        exact if_congr hdone.symm rfl rfl
      obtain ⟨received, count, rfl | rfl⟩ := hcase
      · exact ⟨hredelivering after.delivered hwhat, rfl⟩
      · exact ⟨hredelivering after.delivered hwhat, rfl⟩
  have hdone : ∀ processedEvent : Option NostrFailure × NostrSignaling δ σ,
      processEvent limits { nostr with queue := waiting.map (eventOf sender) }
        (eventOf sender part).signal now later = processedEvent →
      Redelivering limits start sender id frames held window (gotAfter frames got part.2)
        (processed ++ [part.2]) waiting rest processedEvent.2 ∧ processedEvent.1 = none →
      Redelivering limits start sender id frames held window (gotAfter frames got part.2)
        (processed ++ [part.2]) waiting rest (nostr.processNext limits now later) := by
    intro processedEvent hprocessed hgood
    unfold processNext
    rw [h.queue]
    simp only [List.map_cons]
    rw [hprocessed, if_neg (by rw [hgood.2]; simp)]
    exact hgood.1
  refine hdone _ rfl ?_
  unfold processEvent
  simp only [eventOf]
  rw [← hbase]
  have hgot := hexpired.holds
  cases hget : base.reassemblers.get? sender with
  | some r =>
      simp only
      rw [hsame] at hget
      obtain ⟨hr, hclear⟩ := hexpired.sound.reassemblers sender r hget
      unfold groupOf at hgot
      rw [hget] at hgot
      refine haccept r hr hclear hgot ?_ fun hempty => hexpired.groups hempty r hget
      rw [← hsame] at hget
      exact (total_of_get? (fun _ (r : FrameReassembler) => r.pendingBytes) hget).ge
  | none =>
      simp only
      have hfree : base.reassemblers.size < limits.maxReassemblySenders := by
        have hsenders := hexpired.senders
        rw [← hsame, delete_of_none hget] at hsenders
        exact hsenders
      rw [if_neg (not_le.2 hfree)]
      unfold groupOf at hgot
      rw [← hsame, hget] at hgot
      refine haccept _ newReassembler_within rfl hgot ?_ fun _ => by simp [newReassembler]
      rw [delete_of_none hget]
      simp [newReassembler, pendingFrameBytes]

/-- The events among some inputs. -/
def received (inputs : List (NostrInput δ σ)) : List (RelayEvent δ σ) :=
  inputs.filterMap fun input => match input with
    | .event event => some event
    | _ => none

/-- What the clock reads at an input. -/
def readings : NostrInput δ σ → List ℕ
  | .process now later => [now, later]
  | .expire now => [now]
  | _ => []

/-- A whole redelivery, in any order of the steps. -/
theorem Redelivering.run (hbrief : Brief window) (hmessage : IsMessage id frames)
    (hheld : held.length < frames.length)
    (hroom : HasRoom limits start sender id frames held window) (inputs : List (NostrInput δ σ))
    (h : Redelivering limits start sender id frames held window got processed waiting rest nostr)
    (hreceived : received inputs = rest.map (eventOf sender))
    (hreadings : ∀ input ∈ inputs, ∀ now ∈ readings input, window now) :
    ∃ got processed waiting, Redelivering limits start sender id frames held window got processed
      waiting [] (inputs.foldl (step limits) nostr) := by
  induction inputs generalizing got processed waiting rest nostr with
  | nil =>
      obtain rfl : rest = [] := by simpa [received] using hreceived
      exact ⟨got, processed, waiting, h⟩
  | cons input inputs ih =>
      have hrest : ∀ input ∈ inputs, ∀ now ∈ readings input, window now :=
        fun input hmem => hreadings input (List.mem_cons_of_mem _ hmem)
      have hwindow := hreadings input List.mem_cons_self
      cases input with
      | event event =>
          cases rest with
          | nil => simp [received] at hreceived
          | cons part rest =>
              simp only [received, List.filterMap_cons, List.map_cons, List.cons.injEq] at hreceived
              obtain ⟨rfl, hreceived⟩ := hreceived
              obtain ⟨waiting, hnext⟩ := h.event hroom.events
              exact ih hnext hreceived hrest
      | process now later =>
          have hnow := hwindow now (by simp [readings])
          have hlater := hwindow later (by simp [readings])
          cases waiting with
          | nil =>
              have hidle : nostr.processNext limits now later = nostr := by
                unfold processNext
                rw [h.queue]
                rfl
              rw [List.foldl_cons]
              change ∃ got processed waiting, Redelivering limits start sender id frames held window
                got processed waiting []
                (inputs.foldl (step limits) (nostr.processNext limits now later))
              rw [hidle]
              exact ih h hreceived hrest
          | cons part waiting =>
              exact ih (h.process hbrief hnow hlater hmessage hheld hroom.frameCount hroom.message
                hroom.pending) hreceived hrest
      | expire now => exact ih (h.expire hbrief (hwindow now (by simp [readings]))) hreceived hrest
      | onMessage =>
          have hnext : Redelivering limits start sender id frames held window got processed waiting
              rest (nostr.step limits .onMessage) :=
            ⟨⟨h.sound.nodup, h.sound.reassemblers⟩, h.digests, h.distinct, h.parts, h.missing, rfl,
              h.queue, h.unseen, h.holds, h.progress, h.delivered, h.bytes, h.senders, h.groups⟩
          exact ih hnext hreceived hrest

/-- Some events come, each is processed at once, and the clock stands still. -/
def deliver (now : ℕ) (events : List (RelayEvent ℕ ℕ)) : List (NostrInput ℕ ℕ) :=
  events.flatMap fun event => [.event event, .process now now]

end NostrSignaling

end Tablefolk
