import Tablefolk.Transport.Reassembler

/-!
# Every message is delivered once

What a `FrameReassembler` makes of the frames of some messages that arrive in any order, mixed
with each other and some of them several times.

* `Arriving`: what is asked of the arrivals.
* `HoldsMessages`: a reassembler holds exactly the messages that have begun to arrive and are not
  complete, each with the frames that have arrived.
* `HoldsMessages.arrive`: one more frame.
* `frames_reassemble_once`: every message is completed once, as it was sent.
-/

namespace Tablefolk

open FrameReassembler OrderedMap

/-- A message with its frame id. -/
abbrev Message := ℕ × List UInt8

/-- The frame of a message at an index. -/
def Message.frame (m : Message) (index : ℕ) : DataFrame := frameAt m.2 m.1 index

/-- The number of its frames. -/
def Message.count (m : Message) : ℕ := frameCount m.2.length

/-- The indices of the frames that are among these. -/
def Message.arrived (m : Message) (frames : List DataFrame) : List ℕ :=
  (List.range m.count).filter fun index => m.frame index ∈ frames

/-- Some, but not all of its frames are among these. -/
def Message.Incomplete (m : Message) (frames : List DataFrame) : Prop :=
  0 < (m.arrived frames).length ∧ (m.arrived frames).length < m.count

/-- All of its frames are among these. -/
def Message.Complete (m : Message) (frames : List DataFrame) : Prop :=
  (m.arrived frames).length = m.count

instance (m : Message) (frames : List DataFrame) : Decidable (m.Incomplete frames) :=
  inferInstanceAs (Decidable (_ ∧ _))

instance (m : Message) (frames : List DataFrame) : Decidable (m.Complete frames) :=
  inferInstanceAs (Decidable (_ = _))

/-- The bytes of its frames among these. -/
def Message.arrivedBytes (m : Message) (frames : List DataFrame) : ℕ :=
  ((m.arrived frames).map fun index => (m.frame index).bytes.length).sum

/-- A frame that arrives, with the clock readings of its `accept`. -/
structure Arrival where
  frame : DataFrame
  now : ℚ
  later : ℚ

/-- The frames of some arrivals. -/
def framesOf (arrivals : List Arrival) : List DataFrame := arrivals.map Arrival.frame

/-- The arrival of the first of its frames, with which its group begins. -/
def Message.begun (m : Message) (arrivals : List Arrival) : Option Arrival :=
  arrivals.find? fun arrival => arrival.frame ∈ (List.range m.count).map m.frame

namespace FrameReassembler

/-- Accept some arrivals: the answers, and the state after them. -/
def acceptAll (r : FrameReassembler) :
    List Arrival → List (Except ReassemblyError FrameReassemblyResult) × FrameReassembler
  | [] => ([], r)
  | arrival :: rest =>
      let accepted := r.accept arrival.frame.candidate (some arrival.now) (some arrival.later)
      let later := acceptAll accepted.2 rest
      (accepted.1 :: later.1, later.2)

end FrameReassembler

/-- The messages have distinct ids and are within the limits of the receiver. -/
structure Sendable (r₀ : FrameReassembler) (messages : List Message) : Prop where
  ids : (messages.map Prod.fst).Nodup
  id_le : ∀ m ∈ messages, m.1 ≤ MAX_FRAME_ID
  count_le : ∀ m ∈ messages, m.count ≤ MAX_FRAME_COUNT
  frames_le : ∀ m ∈ messages, m.count ≤ r₀.maxFramesPerMessage
  size_le : ∀ m ∈ messages, m.2.length ≤ r₀.maxMessageBytes

/-- What is asked of a frame that arrives after some others: it belongs to a message that is
not complete yet; fewer than `maxPendingGroups` other messages are incomplete; the pending
bytes, its own included, are within `maxPendingBytes`; and no group that is held has expired, so
the timeout has not passed since the first frame of a message that is still incomplete. -/
structure Arriving (r₀ : FrameReassembler) (messages : List Message) (before : List Arrival)
    (arrival : Arrival) : Prop where
  frame : ∃ m ∈ messages, ∃ index < m.count, arrival.frame = m.frame index ∧
    ¬ m.Complete (framesOf before)
  groups : (messages.filter fun m =>
      m.1 ≠ arrival.frame.id ∧ m.Incomplete (framesOf before)).length < r₀.maxPendingGroups
  bytes : ((messages.filter fun m => m.Incomplete (framesOf before)).map fun m =>
      m.arrivedBytes (framesOf before)).sum +
      (if arrival.frame ∈ framesOf before then 0 else arrival.frame.bytes.length)
    ≤ r₀.maxPendingBytes
  now_nonneg : 0 ≤ arrival.now
  later_nonneg : 0 ≤ arrival.later
  unexpired : ∀ m ∈ messages, m.Incomplete (framesOf before) → ∀ first, m.begun before = some first →
    arrival.now - first.now < r₀.timeoutMs

/-! ## The frames that have arrived -/

variable {messages : List Message} {m m' : Message} {frames : List DataFrame} {index : ℕ}

theorem mem_arrived : index ∈ m.arrived frames ↔ index < m.count ∧ m.frame index ∈ frames := by
  simp [Message.arrived]

theorem nodup_arrived : (m.arrived frames).Nodup := List.nodup_range.filter _

theorem length_arrived_le : (m.arrived frames).length ≤ m.count := by
  have h := List.length_filter_le (fun index => decide (m.frame index ∈ frames)) (List.range m.count)
  rwa [List.length_range] at h

theorem frame_inj {index' : ℕ} : m.frame index = m'.frame index' → m.1 = m'.1 ∧ index = index' := by
  intro h
  exact ⟨congrArg DataFrame.id h, congrArg DataFrame.index h⟩

theorem frame_valid {r₀ : FrameReassembler} (h : Sendable r₀ messages) (hm : m ∈ messages)
    (hindex : index < m.count) : (m.frame index).Valid :=
  frameAt_valid (h.id_le m hm) (h.count_le m hm) hindex

/-- A frame of another message changes nothing for a message. -/
theorem arrived_other (hne : m.1 ≠ m'.1) : m.arrived (frames ++ [m'.frame index]) = m.arrived frames := by
  refine List.filter_congr fun i _ => ?_
  have hout : m.frame i ≠ m'.frame index := fun h => hne (frame_inj h).1
  simp [hout]

/-- A new frame of a message is one more. -/
theorem arrived_new (hindex : index < m.count) (hnew : m.frame index ∉ frames) :
    (m.arrived (frames ++ [m.frame index])).Perm (index :: m.arrived frames) := by
  have hout : index ∉ m.arrived frames := fun h => hnew (mem_arrived.1 h).2
  refine (List.perm_ext_iff_of_nodup nodup_arrived (List.nodup_cons.2 ⟨hout, nodup_arrived⟩)).2
    fun i => ?_
  rw [mem_arrived, List.mem_append, List.mem_singleton, List.mem_cons, mem_arrived]
  constructor
  · rintro ⟨hi, hold | hnew⟩
    · exact .inr ⟨hi, hold⟩
    · exact .inl (frame_inj hnew).2
  · rintro (rfl | ⟨hi, hold⟩)
    · exact ⟨hindex, .inr rfl⟩
    · exact ⟨hi, .inl hold⟩

/-- A frame that has arrived before changes nothing. -/
theorem arrived_duplicate (hold : m'.frame index ∈ frames) :
    m.arrived (frames ++ [m'.frame index]) = m.arrived frames := by
  refine List.filter_congr fun i _ => ?_
  by_cases h : m.frame i = m'.frame index
  · simp [h, hold]
  · simp [h]

/-- A message has begun when it has. -/
theorem begun_snoc {before : List Arrival} {first : Arrival} (h : m.begun before = some first)
    (arrival : Arrival) : m.begun (before ++ [arrival]) = some first := by
  unfold Message.begun at h ⊢
  rw [List.find?_append, h, Option.some_or]

/-- A message begins with the first of its frames. -/
theorem begun_new {before : List Arrival} {arrival : Arrival} (hnone : m.arrived (framesOf before) = [])
    (hindex : index < m.count) (hframe : arrival.frame = m.frame index) :
    m.begun (before ++ [arrival]) = some arrival := by
  have hbefore : m.begun before = none := by
    rw [Message.begun, List.find?_eq_none]
    intro earlier hearlier hown
    obtain ⟨i, hi, hsame⟩ := List.mem_map.1 (of_decide_eq_true hown)
    have hmem : i ∈ m.arrived (framesOf before) := mem_arrived.2
      ⟨List.mem_range.1 hi, hsame ▸ List.mem_map_of_mem hearlier⟩
    rw [hnone] at hmem
    cases hmem
  have hown : arrival.frame ∈ (List.range m.count).map m.frame :=
    List.mem_map.2 ⟨index, List.mem_range.2 hindex, hframe.symm⟩
  unfold Message.begun at hbefore ⊢
  rw [List.find?_append, hbefore, Option.none_or, List.find?_singleton, if_pos (decide_eq_true hown)]

/-- The frames that have arrived are no longer than the payload. -/
theorem arrivedBytes_le : m.arrivedBytes frames ≤ m.2.length := by
  have hsub : ((m.arrived frames).map fun index => (m.frame index).bytes.length).Sublist
      ((List.range m.count).map fun index => (m.frame index).bytes.length) :=
    List.filter_sublist.map _
  have hall := congrArg List.length (splitDataFrames_flatten m.2 m.1)
  rw [List.length_flatten, List.map_map] at hall
  unfold Message.arrivedBytes
  calc _ ≤ ((List.range m.count).map fun index => (m.frame index).bytes.length).sum :=
        hsub.sum_le_sum (by simp)
    _ = m.2.length := hall

/-! ## What a reassembler holds -/

theorem assemble_eq {chunks : OrderedMap ℕ (List UInt8)} {part : ℕ → List UInt8} (index count : ℕ)
    (h : ∀ i, index ≤ i → i < index + count → chunks.get? i = some (part i)) :
    assemble chunks index count = some ((List.range' index count).map part).flatten := by
  induction count generalizing index with
  | zero => rfl
  | succ count ih =>
      have hhead := h index le_rfl (by omega)
      have hrest := ih (index + 1) fun i hle hlt => h i (by omega) (by omega)
      simp [assemble, hhead, hrest, List.range'_succ]

/-- The chunks are the frames of the message that have arrived. -/
def HoldsChunks (m : Message) (frames : List DataFrame) (chunks : OrderedMap ℕ (List UInt8)) :
    Prop :=
  ∀ index chunk, chunks.get? index = some chunk ↔
    index ∈ m.arrived frames ∧ chunk = (m.frame index).bytes

/-- The group holds the frames of the message that have arrived. -/
structure HoldsMessage (m : Message) (before : List Arrival) (group : PendingFrameGroup) : Prop where
  id_eq : group.id = m.1
  count_eq : group.count = m.count
  chunks : HoldsChunks m (framesOf before) group.chunks
  created : ∃ first, m.begun before = some first ∧ group.createdAt = first.now

/-- The limits of two reassemblers are the same. -/
structure SameLimits (r₀ r : FrameReassembler) : Prop where
  timeoutMs : r.timeoutMs = r₀.timeoutMs
  maxMessageBytes : r.maxMessageBytes = r₀.maxMessageBytes
  maxPendingBytes : r.maxPendingBytes = r₀.maxPendingBytes
  maxPendingGroups : r.maxPendingGroups = r₀.maxPendingGroups
  maxFramesPerMessage : r.maxFramesPerMessage = r₀.maxFramesPerMessage

/-- The reassembler holds exactly the messages that are incomplete. -/
structure HoldsMessages (r₀ : FrameReassembler) (messages : List Message) (before : List Arrival)
    (r : FrameReassembler) : Prop where
  limits : SameLimits r₀ r
  within : Within r none
  groups : ∀ id group, r.groups.get? id = some group → ∃ m ∈ messages, m.1 = id ∧
    m.Incomplete (framesOf before) ∧ HoldsMessage m before group
  incomplete : ∀ m ∈ messages, m.Incomplete (framesOf before) →
    ∃ group, r.groups.get? m.1 = some group

variable {r₀ r : FrameReassembler} {before : List Arrival} {group : PendingFrameGroup}

namespace HoldsChunks

variable {chunks : OrderedMap ℕ (List UInt8)} (h : HoldsChunks m frames chunks)
include h

theorem mem_arrived (index : ℕ) :
    index ∈ m.arrived frames ↔ ∃ chunk, chunks.get? index = some chunk := by
  unfold HoldsChunks at h
  simp only [h]
  exact ⟨fun hmem => ⟨_, hmem, rfl⟩, fun ⟨_, hmem, _⟩ => hmem⟩

theorem size : chunks.size = (m.arrived frames).length := size_eq_length nodup_arrived h.mem_arrived

theorem bytes : (chunks.total fun _ chunk => chunk.length) = m.arrivedBytes frames := by
  refine total_eq_sum nodup_arrived h.mem_arrived fun index chunk hget => ?_
  rw [((h index chunk).1 hget).2]

/-- The chunks of a complete message are its payload. -/
theorem assemble (hfull : m.Complete frames) : assemble chunks 0 m.count = some m.2 := by
  have hall : ∀ i, 0 ≤ i → i < 0 + m.count → chunks.get? i = some (m.frame i).bytes := by
    intro i _ hi
    have hkeys : ∀ index chunk, chunks.get? index = some chunk → index < m.count :=
      fun index chunk hget => (Tablefolk.mem_arrived.1 ((h index chunk).1 hget).1).1
    have hsize : m.count ≤ chunks.size := by
      rw [h.size]
      exact hfull.ge
    have hlt : i < m.count := by omega
    obtain ⟨chunk, hget⟩ := get?_isSome_of_full hkeys hsize hlt
    rw [hget, ((h i chunk).1 hget).2]
  rw [assemble_eq 0 m.count hall, ← List.range_eq_range']
  exact congrArg some (splitDataFrames_flatten m.2 m.1)

/-- One more chunk. -/
theorem set {index : ℕ} (hindex : index < m.count) (hnew : m.frame index ∉ frames) :
    HoldsChunks m (frames ++ [m.frame index]) (chunks.set index (m.frame index).bytes) := by
  intro i chunk
  have hmem : i ∈ m.arrived (frames ++ [m.frame index]) ↔ i = index ∨ i ∈ m.arrived frames := by
    rw [(arrived_new hindex hnew).mem_iff, List.mem_cons]
  rw [get?_set, hmem]
  by_cases hi : i = index
  · subst hi
    rw [if_pos rfl]
    simp [eq_comm]
  · rw [if_neg hi, h i chunk]
    simp [hi]

end HoldsChunks

theorem mem_eq_of_id (h : Sendable r₀ messages) (hm : m ∈ messages) (hm' : m' ∈ messages)
    (hid : m.1 = m'.1) : m = m' :=
  List.inj_on_of_nodup_map h.ids hm hm' hid

namespace HoldsMessages

variable (h : HoldsMessages r₀ messages before r) (hsend : Sendable r₀ messages)
include h hsend

omit hsend in
theorem keys : ∀ id, id ∈ (messages.filter fun m => m.Incomplete (framesOf before)).map Prod.fst ↔
    ∃ group, r.groups.get? id = some group := by
  intro id
  constructor
  · intro hmem
    obtain ⟨m, hm, rfl⟩ := List.mem_map.1 hmem
    obtain ⟨hm, hincomplete⟩ := List.mem_filter.1 hm
    exact h.incomplete m hm (of_decide_eq_true hincomplete)
  · rintro ⟨group, hget⟩
    obtain ⟨m, hm, rfl, hincomplete, -⟩ := h.groups id group hget
    exact List.mem_map_of_mem (List.mem_filter.2 ⟨hm, decide_eq_true hincomplete⟩)

omit h in
theorem nodup_keys : ((messages.filter fun m => m.Incomplete (framesOf before)).map Prod.fst).Nodup :=
  hsend.ids.sublist (List.filter_sublist.map _)

/-- The pending bytes are those of the frames of the incomplete messages. -/
theorem pendingBytes : r.pendingBytes = ((messages.filter fun m =>
    m.Incomplete (framesOf before)).map fun m => m.arrivedBytes (framesOf before)).sum := by
  have hfind : ∀ m ∈ messages, ((messages.find? fun m' => m'.1 = m.1).map fun m' =>
      m'.arrivedBytes (framesOf before)).getD 0 = m.arrivedBytes (framesOf before) := by
    intro m hm
    cases hcase : messages.find? fun m' => m'.1 = m.1 with
    | none => exact absurd hm (by simpa using List.find?_eq_none.1 hcase m)
    | some m' =>
        have hid : m'.1 = m.1 := by simpa using List.find?_some hcase
        rw [mem_eq_of_id hsend (List.mem_of_find?_eq_some hcase) hm hid]
        rfl
  rw [h.within.pending, total_eq_sum (nodup_keys hsend) h.keys
    (g := fun id => ((messages.find? fun m => m.1 = id).map fun m =>
      m.arrivedBytes (framesOf before)).getD 0)]
  · rw [List.map_map]
    refine congrArg List.sum (List.map_congr_left fun m hm => ?_)
    exact hfind m (List.mem_of_mem_filter hm)
  · intro id group hget
    obtain ⟨m, hm, rfl, -, hholds⟩ := h.groups id group hget
    rw [(h.within.groups _ group hget).1.bytes, hholds.chunks.bytes, hfind m hm]

/-- The groups are as many as the incomplete messages. -/
theorem size_groups : r.groups.size
    = (messages.filter fun m => m.Incomplete (framesOf before)).length := by
  rw [size_eq_length (nodup_keys hsend) h.keys, List.length_map]

end HoldsMessages

/-! ## One more frame -/

theorem SameLimits.delete (h : SameLimits r₀ r) (id : ℕ) : SameLimits r₀ (r.delete id) := by
  unfold FrameReassembler.delete
  split
  · exact h
  · exact ⟨h.timeoutMs, h.maxMessageBytes, h.maxPendingBytes, h.maxPendingGroups,
      h.maxFramesPerMessage⟩

/-- The clock reads a time when the expiry is scheduled, so that does not throw. -/
theorem scheduleExpiry_ok {later : ℚ} (hlater : 0 ≤ later) (r : FrameReassembler) :
    ∃ timer, r.scheduleExpiry (some later) = (.ok (), { r with expiryTimer := timer }) := by
  have htime : requireTime (some later) = .ok later := if_neg (not_lt.2 hlater)
  unfold FrameReassembler.scheduleExpiry
  split
  · rw [htime]
    exact ⟨_, rfl⟩
  · exact ⟨r.expiryTimer, rfl⟩

/-- What adding a new chunk does, within the limits. -/
theorem addChunk_new {frame : DataFrame} {later : ℚ} (hlater : 0 ≤ later)
    (hgroup : group.id = frame.id) (hchunk : group.chunks.get? frame.index = none)
    (hmessage : group.byteLength + frame.bytes.length ≤ r.maxMessageBytes)
    (hpending : r.pendingBytes + frame.bytes.length ≤ r.maxPendingBytes)
    {grown : PendingFrameGroup} (hgrown : grown = { group with
      chunks := group.chunks.set frame.index frame.bytes
      byteLength := group.byteLength + frame.bytes.length }) :
    SameLimits r (r.addChunk group frame (some later)).2 ∧
    (grown.chunks.size ≠ grown.count →
      (r.addChunk group frame (some later)).1
        = .ok (.incomplete frame.id grown.chunks.size grown.count) ∧
      (r.addChunk group frame (some later)).2.groups.get? frame.id = some grown) ∧
    (grown.chunks.size = grown.count → ∀ payload,
      assemble grown.chunks 0 grown.count = some payload →
      (r.addChunk group frame (some later)).1 = .ok (.complete frame.id payload) ∧
      (r.addChunk group frame (some later)).2.groups.get? frame.id = none) := by
  have hid : grown.id = frame.id := by rw [hgrown]; exact hgroup
  unfold FrameReassembler.addChunk
  rw [hchunk]
  simp only
  rw [if_neg (not_lt.2 hmessage), if_neg (not_lt.2 hpending), ← hgrown]
  unfold completeGroup
  by_cases hfull : grown.chunks.size = grown.count
  · rw [if_neg (not_not.2 hfull)]
    refine ⟨?_, fun hne => absurd hfull hne, fun _ payload hpayload => ?_⟩
    · split
      · exact ⟨rfl, rfl, rfl, rfl, rfl⟩
      · have hset : SameLimits r { r with
            groups := r.groups.set frame.id grown
            pendingBytes := r.pendingBytes + frame.bytes.length } := ⟨rfl, rfl, rfl, rfl, rfl⟩
        exact hset.delete _
    · rw [hpayload]
      simp only
      rw [hid, delete_groups, get?_delete, if_pos rfl]
      exact ⟨rfl, rfl⟩
  · rw [if_pos hfull]
    obtain ⟨timer, htimer⟩ := scheduleExpiry_ok hlater { r with
      groups := r.groups.set frame.id grown
      pendingBytes := r.pendingBytes + frame.bytes.length }
    rw [htimer]
    refine ⟨⟨rfl, rfl, rfl, rfl, rfl⟩, fun _ => ?_, fun heq => absurd heq hfull⟩
    simp only
    rw [hid, get?_set, if_pos rfl]
    exact ⟨rfl, rfl⟩

theorem framesOf_snoc (arrival : Arrival) :
    framesOf (before ++ [arrival]) = framesOf before ++ [arrival.frame] := by
  simp [framesOf]

/-- The messages of which no frame has come now are held as before. -/
theorem HoldsMessage.other {arrival : Arrival} (h : HoldsMessage m' before group)
    (hsame : m'.arrived (framesOf (before ++ [arrival])) = m'.arrived (framesOf before)) :
    HoldsMessage m' (before ++ [arrival]) group := by
  refine ⟨h.id_eq, h.count_eq, ?_, ?_⟩
  · unfold HoldsChunks
    rw [hsame]
    exact h.chunks
  · obtain ⟨first, hfirst, hcreated⟩ := h.created
    exact ⟨first, begun_snoc hfirst _, hcreated⟩

/-- What a frame that arrives leads to. -/
structure Arrived (r₀ : FrameReassembler) (messages : List Message) (before : List Arrival)
    (arrival : Arrival) (result : Except ReassemblyError FrameReassemblyResult × FrameReassembler) :
    Prop where
  holds : HoldsMessages r₀ messages (before ++ [arrival]) result.2
  answer : ∃ m ∈ messages, (∃ index < m.count, arrival.frame = m.frame index) ∧
    ¬ m.Complete (framesOf before) ∧
    (m.Complete (framesOf (before ++ [arrival])) ∧ result.1 = .ok (.complete m.1 m.2) ∨
     ¬ m.Complete (framesOf (before ++ [arrival])) ∧
      ((∃ received, result.1 = .ok (.incomplete m.1 received m.count)) ∨
       ∃ received, result.1 = .ok (.duplicate m.1 received m.count)))

/-- Only the message of a frame is changed by it. -/
theorem HoldsMessages.next (h : HoldsMessages r₀ messages before r) (hsend : Sendable r₀ messages)
    (hm : m ∈ messages) {arrival : Arrival} (hframe : arrival.frame = m.frame index)
    {next : FrameReassembler} (hlimits : SameLimits r₀ next) (hwithin : Within next none)
    (hothers : ∀ id, id ≠ m.1 → next.groups.get? id = r.groups.get? id)
    (hown : ∀ group, next.groups.get? m.1 = some group →
      m.Incomplete (framesOf (before ++ [arrival])) ∧ HoldsMessage m (before ++ [arrival]) group)
    (hheld : m.Incomplete (framesOf (before ++ [arrival])) →
      ∃ group, next.groups.get? m.1 = some group) :
    HoldsMessages r₀ messages (before ++ [arrival]) next := by
  have hsame : ∀ m' : Message, m'.1 ≠ m.1 →
      m'.arrived (framesOf (before ++ [arrival])) = m'.arrived (framesOf before) := by
    intro m' hne
    rw [framesOf_snoc, hframe]
    exact arrived_other hne
  refine ⟨hlimits, hwithin, fun id group hget => ?_, fun m' hm' hincomplete => ?_⟩
  · by_cases hid : id = m.1
    · subst hid
      obtain ⟨hincomplete, hholds⟩ := hown group hget
      exact ⟨m, hm, rfl, hincomplete, hholds⟩
    · rw [hothers id hid] at hget
      obtain ⟨m', hm', rfl, hincomplete, hholds⟩ := h.groups id group hget
      refine ⟨m', hm', rfl, ?_, hholds.other (hsame m' hid)⟩
      unfold Message.Incomplete at hincomplete ⊢
      rwa [hsame m' hid]
  · by_cases hid : m'.1 = m.1
    · obtain rfl := mem_eq_of_id hsend hm' hm hid
      exact hheld hincomplete
    · unfold Message.Incomplete at hincomplete
      rw [hsame m' hid] at hincomplete
      rw [hothers m'.1 hid]
      exact h.incomplete m' hm' hincomplete

/-- A frame that has not arrived before goes into the group of its message. -/
theorem HoldsMessages.arrive_new (h : HoldsMessages r₀ messages before r) (hsend : Sendable r₀ messages)
    (hm : m ∈ messages) (hindex : index < m.count) {arrival : Arrival}
    (hframe : arrival.frame = m.frame index) (harriving : Arriving r₀ messages before arrival)
    (hnew : m.frame index ∉ framesOf before) (hnotDone : ¬ m.Complete (framesOf before))
    {opened : FrameReassembler} (hlimits : SameLimits r₀ opened)
    (hpending : opened.pendingBytes = r.pendingBytes)
    (hothers : ∀ id, id ≠ m.1 → opened.groups.get? id = r.groups.get? id)
    (hid : group.id = m.1) (hcount : group.count = m.count)
    (hbytes : group.byteLength = group.chunks.total fun _ chunk => chunk.length)
    (hchunks : HoldsChunks m (framesOf before) group.chunks)
    (hcreated : ∃ first, m.begun (before ++ [arrival]) = some first ∧ group.createdAt = first.now)
    (hwithin : Within (opened.addChunk group arrival.frame (some arrival.later)).2 none) :
    Arrived r₀ messages before arrival
      (opened.addChunk group arrival.frame (some arrival.later)) := by
  have hid' : group.id = arrival.frame.id := by rw [hframe]; exact hid
  have hframeIndex : arrival.frame.index = index := by rw [hframe]; rfl
  have hframes : framesOf (before ++ [arrival]) = framesOf before ++ [m.frame index] := by
    rw [framesOf_snoc, hframe]
  have hmore : m.arrivedBytes (framesOf (before ++ [arrival]))
      = m.arrivedBytes (framesOf before) + arrival.frame.bytes.length := by
    unfold Message.arrivedBytes
    rw [hframes, ((arrived_new hindex hnew).map _).sum_eq, List.map_cons, List.sum_cons, hframe,
      add_comm]
  have hheld : group.byteLength = m.arrivedBytes (framesOf before) := hbytes.trans hchunks.bytes
  have hmessage : group.byteLength + arrival.frame.bytes.length ≤ opened.maxMessageBytes := by
    rw [hheld, ← hmore, hlimits.maxMessageBytes]
    exact arrivedBytes_le.trans (hsend.size_le m hm)
  have hbudget : opened.pendingBytes + arrival.frame.bytes.length ≤ opened.maxPendingBytes := by
    have hlimit := harriving.bytes
    rw [if_neg (by rw [hframe]; exact hnew), ← h.pendingBytes hsend] at hlimit
    rw [hpending, hlimits.maxPendingBytes]
    exact hlimit
  have hchunk : group.chunks.get? arrival.frame.index = none := by
    cases hget : group.chunks.get? arrival.frame.index with
    | none => rfl
    | some chunk =>
        rw [hframeIndex] at hget
        exact absurd (mem_arrived.1 ((hchunks index chunk).1 hget).1).2 hnew
  obtain ⟨grown, hgrown⟩ : ∃ grown : PendingFrameGroup, grown =
    { group with
      chunks := group.chunks.set arrival.frame.index arrival.frame.bytes
      byteLength := group.byteLength + arrival.frame.bytes.length } := ⟨_, rfl⟩
  have hgrownChunks : HoldsChunks m (framesOf (before ++ [arrival])) grown.chunks := by
    rw [hgrown, hframes, hframe]
    exact hchunks.set hindex hnew
  have hgrownCount : grown.count = m.count := by rw [hgrown]; exact hcount
  have hgrownSize := hgrownChunks.size
  obtain ⟨hsame, hpartial, hfull⟩ := addChunk_new harriving.later_nonneg hid' hchunk hmessage
    hbudget hgrown
  have hlimits' : SameLimits r₀ (opened.addChunk group arrival.frame (some arrival.later)).2 :=
    ⟨hsame.timeoutMs.trans hlimits.timeoutMs, hsame.maxMessageBytes.trans hlimits.maxMessageBytes,
      hsame.maxPendingBytes.trans hlimits.maxPendingBytes,
      hsame.maxPendingGroups.trans hlimits.maxPendingGroups,
      hsame.maxFramesPerMessage.trans hlimits.maxFramesPerMessage⟩
  have hothers' : ∀ id, id ≠ m.1 →
      (opened.addChunk group arrival.frame (some arrival.later)).2.groups.get? id
        = r.groups.get? id := by
    intro id hne
    have hne' : id ≠ arrival.frame.id := by rw [hframe]; exact hne
    rw [(addChunk_others hne' hid' _).1, hothers id hne]
  have hnamed : arrival.frame.id = m.1 := by rw [hframe]; rfl
  rw [hnamed] at hpartial hfull
  by_cases hdone : m.Complete (framesOf (before ++ [arrival]))
  · have hsize : grown.chunks.size = grown.count := by rw [hgrownSize, hgrownCount]; exact hdone
    have hpayload : assemble grown.chunks 0 grown.count = some m.2 := by
      rw [hgrownCount]
      exact hgrownChunks.assemble hdone
    obtain ⟨hanswer, hgone⟩ := hfull hsize m.2 hpayload
    refine ⟨h.next hsend hm hframe hlimits' hwithin hothers' ?_ ?_,
      m, hm, ⟨index, hindex, hframe⟩, hnotDone, .inl ⟨hdone, hanswer⟩⟩
    · intro group' hget
      rw [hgone] at hget
      cases hget
    · intro hincomplete
      unfold Message.Complete at hdone
      exact absurd hdone hincomplete.2.ne
  · have hsize : grown.chunks.size ≠ grown.count := by rw [hgrownSize, hgrownCount]; exact hdone
    obtain ⟨hanswer, hget⟩ := hpartial hsize
    have hincomplete : m.Incomplete (framesOf (before ++ [arrival])) := by
      have hle : (m.arrived (framesOf (before ++ [arrival]))).length ≤ m.count := length_arrived_le
      have hpos : index ∈ m.arrived (framesOf (before ++ [arrival])) := by
        rw [hframes, (arrived_new hindex hnew).mem_iff]
        exact List.mem_cons_self
      exact ⟨List.length_pos_of_mem hpos, lt_of_le_of_ne hle hdone⟩
    refine ⟨h.next hsend hm hframe hlimits' hwithin hothers' ?_ fun _ => ⟨grown, hget⟩,
      m, hm, ⟨index, hindex, hframe⟩, hnotDone, .inr ⟨hdone, .inl ⟨grown.chunks.size, ?_⟩⟩⟩
    · intro group' hget'
      rw [hget] at hget'
      cases hget'
      refine ⟨hincomplete, ?_, hgrownCount, hgrownChunks, ?_⟩
      · rw [hgrown]
        exact hid
      · rw [hgrown]
        exact hcreated
    · rw [hanswer, hgrownCount]

/-- **One more frame.** -/
theorem HoldsMessages.arrive (h : HoldsMessages r₀ messages before r) (hsend : Sendable r₀ messages)
    {arrival : Arrival} (harriving : Arriving r₀ messages before arrival) :
    Arrived r₀ messages before arrival
      (r.accept arrival.frame.candidate (some arrival.now) (some arrival.later)) := by
  obtain ⟨m, hm, index, hindex, hframe, hnotDone⟩ := harriving.frame
  have hvalid : arrival.frame.Valid := by rw [hframe]; exact frame_valid hsend hm hindex
  have hnamed : arrival.frame.id = m.1 := by rw [hframe]; rfl
  have hcounted : arrival.frame.count = m.count := by rw [hframe]; rfl
  have hwithin := (h.within.accept arrival.frame.candidate (some arrival.now)
    (some arrival.later)).1
  have htime : requireTime (some arrival.now) = .ok arrival.now :=
    if_neg (not_lt.2 harriving.now_nonneg)
  have hunexpired : r.expired arrival.now = [] := by
    unfold FrameReassembler.expired
    rw [List.map_eq_nil_iff, List.filter_eq_nil_iff]
    intro entry hentry hexpired
    obtain ⟨m', hm', -, hincomplete, hholds⟩ := h.groups entry.1 entry.2 (get?_eq_some.2 hentry)
    obtain ⟨first, hfirst, hcreated⟩ := hholds.created
    have hlt := harriving.unexpired m' hm' hincomplete first hfirst
    rw [hcreated, h.limits.timeoutMs] at hexpired
    exact absurd (of_decide_eq_true hexpired) (not_le.2 hlt)
  have hexpire : r.expireAt arrival.now = r := by
    unfold FrameReassembler.expireAt
    rw [hunexpired]
    rfl
  have haccept : r.accept arrival.frame.candidate (some arrival.now) (some arrival.later)
      = r.addFrame arrival.frame arrival.now (some arrival.later) := by
    unfold FrameReassembler.accept
    rw [normalizeFrame_eq_ok.2 ⟨rfl, hvalid⟩]
    simp only
    rw [htime]
    simp only
    rw [hexpire]
  have hframes : ¬ r.maxFramesPerMessage < arrival.frame.count := by
    rw [hcounted, h.limits.maxFramesPerMessage]
    exact not_lt.2 (hsend.frames_le m hm)
  rw [haccept] at hwithin ⊢
  unfold FrameReassembler.addFrame at hwithin ⊢
  rw [if_neg hframes] at hwithin ⊢
  cases hget : r.groups.get? arrival.frame.id with
  | none =>
      rw [hget] at hwithin
      simp only at hwithin ⊢
      have hnone : m.arrived (framesOf before) = [] := by
        by_contra hne
        have hincomplete : m.Incomplete (framesOf before) :=
          ⟨List.length_pos_iff.2 hne, lt_of_le_of_ne length_arrived_le hnotDone⟩
        obtain ⟨group, hgroup⟩ := h.incomplete m hm hincomplete
        rw [hnamed, hgroup] at hget
        cases hget
      have hroom : ¬ r.maxPendingGroups ≤ r.groups.size := by
        have hlimit := harriving.groups
        have hsame : (messages.filter fun m' => m'.1 ≠ arrival.frame.id ∧
            m'.Incomplete (framesOf before))
            = messages.filter fun m' => m'.Incomplete (framesOf before) := by
          refine List.filter_congr fun m' hm' => ?_
          by_cases hid : m'.1 = arrival.frame.id
          · obtain rfl := mem_eq_of_id hsend hm' hm (hid.trans hnamed)
            simp [Message.Incomplete, hnone]
          · simp [hid]
        rw [hsame, ← h.size_groups hsend] at hlimit
        rw [h.limits.maxPendingGroups]
        omega
      rw [if_neg hroom] at hwithin ⊢
      have hnew : m.frame index ∉ framesOf before := by
        intro hmem
        have : index ∈ m.arrived (framesOf before) := mem_arrived.2 ⟨hindex, hmem⟩
        rw [hnone] at this
        cases this
      refine h.arrive_new hsend hm hindex hframe harriving hnew hnotDone
        ⟨h.limits.timeoutMs, h.limits.maxMessageBytes, h.limits.maxPendingBytes,
          h.limits.maxPendingGroups, h.limits.maxFramesPerMessage⟩ rfl ?_ hnamed hcounted rfl ?_
        ⟨arrival, begun_new hnone hindex hframe, rfl⟩ hwithin
      · intro id hne
        simp only
        rw [get?_set, if_neg (by rw [hnamed]; exact hne)]
      · intro i chunk
        rw [hnone]
        simp [startGroup]
  | some group =>
      rw [hget] at hwithin
      simp only at hwithin ⊢
      obtain ⟨m', hm', hid, hincomplete, hholds⟩ := h.groups _ group hget
      obtain rfl := mem_eq_of_id hsend hm' hm (hid.trans hnamed)
      have hmatch : ¬ group.count ≠ arrival.frame.count := by
        rw [hcounted]
        exact not_not.2 hholds.count_eq
      rw [if_neg hmatch] at hwithin ⊢
      by_cases hold : m'.frame index ∈ framesOf before
      · -- the frame has arrived before
        have hsame : ∀ m : Message, m.arrived (framesOf (before ++ [arrival]))
            = m.arrived (framesOf before) := by
          intro m
          rw [framesOf_snoc, hframe]
          exact arrived_duplicate hold
        have hchunk : group.chunks.get? arrival.frame.index = some arrival.frame.bytes := by
          rw [hframe]
          exact (hholds.chunks _ _).2 ⟨mem_arrived.2 ⟨hindex, hold⟩, rfl⟩
        have hduplicate : r.addChunk group arrival.frame (some arrival.later)
            = (.ok (.duplicate arrival.frame.id group.chunks.size group.count), r) := by
          unfold FrameReassembler.addChunk
          rw [hchunk]
          simp
        rw [hduplicate]
        have hnot : ¬ m'.Complete (framesOf (before ++ [arrival])) := by
          unfold Message.Complete
          rw [hsame]
          exact hnotDone
        refine ⟨h.next hsend hm' hframe h.limits h.within (fun _ _ => rfl) ?_ ?_, m', hm',
          ⟨index, hindex, hframe⟩, hnotDone, .inr ⟨hnot, .inr ⟨group.chunks.size, ?_⟩⟩⟩
        · intro group' hget'
          rw [hnamed, hget'] at hget
          cases hget
          refine ⟨?_, hholds.other (hsame m')⟩
          unfold Message.Incomplete at hincomplete ⊢
          rwa [hsame]
        · exact fun _ => ⟨group, by rw [← hnamed]; exact hget⟩
        · rw [hnamed, hholds.count_eq]
      · obtain ⟨first, hfirst, hcreated⟩ := hholds.created
        exact h.arrive_new hsend hm' hindex hframe harriving hold hnotDone h.limits rfl
          (fun _ _ => rfl) hholds.id_eq hholds.count_eq (h.within.groups _ group hget).1.bytes
          hholds.chunks ⟨first, begun_snoc hfirst _, hcreated⟩ hwithin

/-! ## All the frames -/

/-- The payload that an answer delivers. -/
def delivered : Except ReassemblyError FrameReassemblyResult → Option Message
  | .ok (.complete id payload) => some (id, payload)
  | _ => none

/-- The answer does not reject a frame and is no exception. -/
def Admitted : Except ReassemblyError FrameReassemblyResult → Prop
  | .ok (.rejected _ _) | .error _ => False
  | _ => True

/-- The messages that are complete after one more frame. -/
theorem complete_next {arrival : Arrival} (hsend : Sendable r₀ messages) (hm : m ∈ messages)
    (hframe : arrival.frame = m.frame index) (hnotDone : ¬ m.Complete (framesOf before)) :
    (m.Complete (framesOf (before ++ [arrival])) →
      (messages.filter fun m => m.Complete (framesOf (before ++ [arrival]))).Perm
        (messages.filter (fun m => m.Complete (framesOf before)) ++ [m])) ∧
    (¬ m.Complete (framesOf (before ++ [arrival])) →
      (messages.filter fun m => m.Complete (framesOf (before ++ [arrival])))
        = messages.filter fun m => m.Complete (framesOf before)) := by
  have hnodup : messages.Nodup := hsend.ids.of_map _
  have hother : ∀ m' ∈ messages, m' ≠ m →
      (m'.Complete (framesOf (before ++ [arrival])) ↔ m'.Complete (framesOf before)) := by
    intro m' hm' hne
    have hid : m'.1 ≠ m.1 := fun h => hne (mem_eq_of_id hsend hm' hm h)
    unfold Message.Complete
    rw [framesOf_snoc, hframe, arrived_other hid]
  constructor
  · intro hdone
    have hout : m ∉ messages.filter fun m => m.Complete (framesOf before) := by
      simp [hnotDone]
    refine (List.perm_ext_iff_of_nodup (hnodup.filter _) ?_).2 fun m' => ?_
    · rw [List.nodup_append]
      refine ⟨hnodup.filter _, List.nodup_singleton m, ?_⟩
      intro a ha b hb
      obtain rfl := List.mem_singleton.1 hb
      exact fun hab => hout (hab ▸ ha)
    · simp only [List.mem_filter, decide_eq_true_eq, List.mem_append, List.mem_singleton]
      by_cases heq : m' = m
      · subst heq
        simp [hm, hdone]
      · simp only [heq, or_false]
        exact and_congr_right fun hm' => hother m' hm' heq
  · intro hdone
    refine List.filter_congr fun m' hm' => ?_
    by_cases heq : m' = m
    · subst heq
      simp [hdone, hnotDone]
    · simp [hother m' hm' heq]

/-- What the arrivals lead to, from a state that holds what has arrived before. -/
theorem HoldsMessages.acceptAll {arrivals : List Arrival} (h : HoldsMessages r₀ messages before r)
    (hsend : Sendable r₀ messages) (harriving : ∀ between arrival after,
      arrivals = between ++ arrival :: after → Arriving r₀ messages (before ++ between) arrival) :
    (∀ answer ∈ (r.acceptAll arrivals).1, Admitted answer) ∧
    (messages.filter (fun m => m.Complete (framesOf before)) ++
        (r.acceptAll arrivals).1.filterMap delivered).Perm
      (messages.filter fun m => m.Complete (framesOf (before ++ arrivals))) := by
  induction arrivals generalizing before r with
  | nil => simp [FrameReassembler.acceptAll]
  | cons arrival rest ih =>
      have harrival := harriving [] arrival rest rfl
      rw [List.append_nil] at harrival
      obtain ⟨hholds, m, hm, ⟨index, hindex, hframe⟩, hnotDone, hanswer⟩ :=
        h.arrive hsend harrival
      obtain ⟨hadmitted, hperm⟩ := ih hholds fun between later after heq => by
        rw [List.append_assoc]
        exact harriving (arrival :: between) later after (by rw [heq]; rfl)
      obtain ⟨hcomplete, hsame⟩ := complete_next hsend hm hframe hnotDone
      rw [List.append_assoc, List.singleton_append] at hperm
      unfold FrameReassembler.acceptAll
      simp only [List.forall_mem_cons]
      rcases hanswer with ⟨hdone, hanswer⟩ | ⟨hdone, ⟨received, hanswer⟩ | ⟨received, hanswer⟩⟩
      · rw [hanswer]
        refine ⟨⟨trivial, hadmitted⟩, ?_⟩
        have hpayload : delivered (.ok (.complete m.1 m.2)) = some m := rfl
        rw [List.filterMap_cons, hpayload]
        simp only
        refine List.Perm.trans ?_ hperm
        rw [List.append_cons]
        exact (hcomplete hdone).symm.append_right _
      · rw [hanswer]
        refine ⟨⟨trivial, hadmitted⟩, ?_⟩
        rw [hsame hdone] at hperm
        exact hperm
      · rw [hanswer]
        refine ⟨⟨trivial, hadmitted⟩, ?_⟩
        rw [hsame hdone] at hperm
        exact hperm

theorem start_holds {options : FrameReassemblerOptions} (h : create options = .ok r₀) :
    HoldsMessages r₀ messages [] r₀ := by
  have hempty : ∀ id, r₀.groups.get? id = none := by
    unfold create at h
    obtain ⟨timeoutMs, -, h⟩ := bind_eq_ok.1 h
    obtain ⟨maxMessageBytes, -, h⟩ := bind_eq_ok.1 h
    obtain ⟨maxPendingBytes, -, h⟩ := bind_eq_ok.1 h
    obtain ⟨maxPendingGroups, -, h⟩ := bind_eq_ok.1 h
    obtain ⟨maxFramesPerMessage, -, h⟩ := bind_eq_ok.1 h
    cases h
    exact fun id => rfl
  refine ⟨⟨rfl, rfl, rfl, rfl, rfl⟩, create_within h, ?_, ?_⟩
  · intro id group hget
    rw [hempty] at hget
    cases hget
  · intro m hm hincomplete
    have hnil : m.arrived (framesOf []) = [] := by simp [Message.arrived, framesOf]
    unfold Message.Incomplete at hincomplete
    rw [hnil] at hincomplete
    exact absurd hincomplete.1 (lt_irrefl 0)

/-- **Every message is delivered once.**  The frames of messages with distinct ids, within the
limits of the receiver, in any order, mixed, and some of them several times before their message
is complete, are all accepted, and the payloads that are delivered are those of the messages,
each once.  Every frame is encoded, its encoding is never refused for its size, and it is decoded
from it; and what a sender takes by default a receiver takes by default. -/
theorem frames_reassemble_once (options : FrameReassemblerOptions) (r₀ : FrameReassembler)
    (messages : List Message) (arrivals : List Arrival) (hcreate : create options = .ok r₀)
    (hsend : Sendable r₀ messages)
    (harriving : ∀ before arrival after, arrivals = before ++ arrival :: after →
      Arriving r₀ messages before arrival)
    (hall : ∀ m ∈ messages, ∀ index < m.count, m.frame index ∈ framesOf arrivals) :
    (∀ answer ∈ (r₀.acceptAll arrivals).1, Admitted answer) ∧
    ((r₀.acceptAll arrivals).1.filterMap delivered).Perm messages ∧
    (∀ m ∈ messages, splitDataFrames m.2 (.int m.1) = .ok ((List.range m.count).map m.frame) ∧
      ∀ index < m.count, ∃ encoded, encodeDataFrame (m.frame index).candidate = .ok encoded ∧
        requireEncodedFrame encoded = .ok () ∧ decodeDataFrame encoded = .ok (m.frame index)) ∧
    (∀ payload : List UInt8, payload.length ≤ DEFAULT_MAX_OUTBOUND_PAYLOAD_BYTES →
      payload.length ≤ defaultReassembler.maxMessageBytes ∧
      frameCount payload.length ≤ defaultReassembler.maxFramesPerMessage ∧
      frameCount payload.length ≤ MAX_FRAME_COUNT) := by
  obtain ⟨hadmitted, hperm⟩ := (start_holds hcreate).acceptAll hsend harriving
  have hnone : (messages.filter fun m => m.Complete (framesOf [])) = [] := by
    rw [List.filter_eq_nil_iff]
    intro m _ hcomplete
    have hnil : m.arrived (framesOf []) = [] := by simp [Message.arrived, framesOf]
    have hcount := of_decide_eq_true hcomplete
    unfold Message.Complete at hcount
    rw [hnil] at hcount
    have hpos := frameCount_pos m.2.length
    unfold Message.count at hcount
    rw [← hcount] at hpos
    exact absurd hpos (by simp)
  have hevery : (messages.filter fun m => m.Complete (framesOf ([] ++ arrivals))) = messages := by
    rw [List.filter_eq_self]
    intro m hm
    refine decide_eq_true ?_
    unfold Message.Complete Message.arrived
    rw [List.filter_eq_self.2, List.length_range]
    intro index hindex
    exact decide_eq_true (hall m hm index (List.mem_range.1 hindex))
  rw [hnone, hevery, List.nil_append] at hperm
  refine ⟨hadmitted, hperm, fun m hm => ⟨?_, fun index hindex => ?_⟩, fun payload hpayload => ?_⟩
  · exact splitDataFrames_eq_ok (hsend.id_le m hm) (hsend.count_le m hm)
  · exact decodeDataFrame_encodeDataFrame (frame_valid hsend hm hindex)
  · have hmax : DEFAULT_MAX_OUTBOUND_PAYLOAD_BYTES = 8388608 := rfl
    have hframe : MAX_FRAME_PAYLOAD_BYTES = 16384 := rfl
    have hcount : frameCount payload.length ≤ 512 := by
      unfold frameCount
      rw [hframe]
      omega
    exact ⟨hpayload, hcount, hcount.trans (by decide)⟩

/-! ## Three messages -/

theorem not_complete_of_missing {before : List Arrival} (hindex : index < m.count)
    (hmissing : ∀ arrival ∈ before, (arrival.frame.id, arrival.frame.index) ≠ (m.1, index)) :
    ¬ m.Complete (framesOf before) := by
  intro hcomplete
  have hall : m.arrived (framesOf before) = List.range m.count :=
    List.Sublist.eq_of_length List.filter_sublist (hcomplete.trans List.length_range.symm)
  have hmem : index ∈ m.arrived (framesOf before) := hall ▸ List.mem_range.2 hindex
  obtain ⟨arrival, harrival, hframe⟩ := List.mem_map.1 (mem_arrived.1 hmem).2
  exact hmissing arrival harrival (by rw [hframe]; rfl)

theorem mem_of_begun {before : List Arrival} {first : Arrival} (h : m.begun before = some first) :
    first ∈ before ∧ first.frame.id = m.1 := by
  unfold Message.begun at h
  have hown := List.find?_some h
  obtain ⟨i, -, hframe⟩ := List.mem_map.1 (of_decide_eq_true hown)
  refine ⟨List.mem_of_find?_eq_some h, ?_⟩
  rw [← hframe]
  rfl

/-- Two messages of two frames, and an empty one. -/
def firstMessage : Message := (4, List.replicate 16385 1)

def secondMessage : Message := (7, List.replicate 32768 2)

def emptyMessage : Message := (9, [])

/-- They arrive mixed, one frame twice, over a time that is longer than the timeout. -/
def mixedArrivals : List Arrival :=
  [⟨emptyMessage.frame 0, 0, 0⟩, ⟨firstMessage.frame 0, 20000, 20000⟩,
    ⟨secondMessage.frame 1, 25000, 25000⟩, ⟨firstMessage.frame 0, 30000, 30000⟩,
    ⟨firstMessage.frame 1, 40000, 40000⟩, ⟨secondMessage.frame 0, 45000, 45000⟩]

theorem lengths_mixed : firstMessage.2.length = 16385 ∧ secondMessage.2.length = 32768 ∧
    emptyMessage.2.length = 0 := ⟨List.length_replicate, List.length_replicate, rfl⟩

theorem counts_mixed : firstMessage.count = 2 ∧ secondMessage.count = 2 ∧
    emptyMessage.count = 1 := by
  obtain ⟨hfirst, hsecond, hempty⟩ := lengths_mixed
  rw [Message.count, Message.count, Message.count, hfirst, hsecond, hempty]
  decide

/-- A message that has begun to arrive and is not complete is not the empty one, and the first of
its frames came within the last 25 seconds. -/
theorem unexpired_mixed {before : List Arrival} {first : Arrival}
    (hbefore : before ⊆ mixedArrivals) (hm : m ∈ [firstMessage, secondMessage, emptyMessage])
    (hincomplete : m.Incomplete (framesOf before)) (hfirst : m.begun before = some first) :
    20000 ≤ first.now := by
  obtain ⟨hmem, hid⟩ := mem_of_begun hfirst
  have hnot : m ≠ emptyMessage := by
    rintro rfl
    obtain ⟨hpos, hlt⟩ := hincomplete
    rw [counts_mixed.2.2] at hlt
    omega
  have hmixed := hbefore hmem
  have hne : first.frame.id ≠ 9 := by
    rw [hid]
    rcases List.mem_cons.1 hm with rfl | hm
    · decide
    · rcases List.mem_cons.1 hm with rfl | hm
      · decide
      · exact absurd (List.mem_singleton.1 hm) hnot
  simp only [mixedArrivals, List.mem_cons, List.not_mem_nil, or_false] at hmixed
  rcases hmixed with rfl | rfl | rfl | rfl | rfl | rfl
  · exact absurd rfl hne
  all_goals norm_num

/-- The frames by id and index. -/
theorem named_mixed : mixedArrivals.map (fun arrival => (arrival.frame.id, arrival.frame.index))
    = [(9, 0), (4, 0), (7, 1), (4, 0), (4, 1), (7, 0)] := rfl

/-- A frame of these messages is admitted where one of its message is still missing. -/
theorem arriving_mixed {before : List Arrival} {arrival : Arrival} (missing : ℕ)
    (hbefore : before ⊆ mixedArrivals) (hm : m ∈ [firstMessage, secondMessage, emptyMessage])
    (hindex : index < m.count) (hmissing : missing < m.count)
    (hframe : arrival.frame = m.frame index)
    (hnone : (m.1, missing) ∉ before.map fun earlier => (earlier.frame.id, earlier.frame.index))
    (hnow : 0 ≤ arrival.now ∧ arrival.now ≤ 45000) (hlater : 0 ≤ arrival.later) :
    Arriving defaultReassembler [firstMessage, secondMessage, emptyMessage] before arrival := by
  have hdistinct : ∀ earlier ∈ before,
      (earlier.frame.id, earlier.frame.index) ≠ (m.1, missing) := fun earlier hearlier heq =>
    hnone (heq ▸ List.mem_map_of_mem hearlier)
  refine ⟨⟨m, hm, index, hindex, hframe, not_complete_of_missing hmissing hdistinct⟩, ?_, ?_,
    hnow.1, hlater, fun m' hm' hincomplete first hfirst => ?_⟩
  · calc _ ≤ [firstMessage, secondMessage, emptyMessage].length := List.length_filter_le _ _
      _ < _ := by decide
  · have hsum : (([firstMessage, secondMessage, emptyMessage].filter fun m =>
        m.Incomplete (framesOf before)).map fun m => m.arrivedBytes (framesOf before)).sum ≤
        ([firstMessage, secondMessage, emptyMessage].map fun m => m.2.length).sum :=
      ((List.filter_sublist.map _).sum_le_sum (by simp)).trans
        (List.sum_le_sum fun m _ => arrivedBytes_le)
    have hall : ([firstMessage, secondMessage, emptyMessage].map fun m => m.2.length).sum
        = 49153 := by
      obtain ⟨hfirst, hsecond, hempty⟩ := lengths_mixed
      simp only [List.map_cons, List.map_nil, List.sum_cons, List.sum_nil, hfirst, hsecond, hempty]
      rfl
    have hsize : arrival.frame.bytes.length ≤ 16384 := by
      rw [hframe, Message.frame, frameAt, List.length_drop, List.length_take,
        show MAX_FRAME_PAYLOAD_BYTES = 16384 from rfl]
      omega
    have hbudget : defaultReassembler.maxPendingBytes = 16777216 := rfl
    rw [hbudget]
    split <;> omega
  · have hbegun := unexpired_mixed hbefore hm' hincomplete hfirst
    have htimeout : ((defaultReassembler.timeoutMs : ℕ) : ℚ) = 30000 := by
      show ((30000 : ℕ) : ℚ) = 30000
      norm_num
    rw [htimeout]
    linarith [hnow.2]

theorem frames_reassemble_once_small :
    ((defaultReassembler.acceptAll mixedArrivals).1.filterMap delivered).Perm
      [firstMessage, secondMessage, emptyMessage] := by
  obtain ⟨hfirst, hsecond, hempty⟩ := counts_mixed
  obtain ⟨hfirst', hsecond', hempty'⟩ := lengths_mixed
  refine (frames_reassemble_once _ defaultReassembler _ mixedArrivals create_default
    ⟨by decide, by decide, ?_, ?_, ?_⟩ ?_ ?_).2.1
  · simp only [List.forall_mem_cons, hfirst, hsecond, hempty]
    decide
  · simp only [List.forall_mem_cons, hfirst, hsecond, hempty]
    decide
  · simp only [List.forall_mem_cons, hfirst', hsecond', hempty']
    decide
  · intro before arrival after h
    have hsub : before ⊆ mixedArrivals := by
      rw [h]
      exact List.subset_append_left _ _
    have hat : mixedArrivals[before.length]? = some arrival := by
      rw [h, List.getElem?_append_right le_rfl, Nat.sub_self]
      rfl
    have htake : before.map (fun earlier => (earlier.frame.id, earlier.frame.index))
        = [(9, 0), (4, 0), (7, 1), (4, 0), (4, 1), (7, 0)].take before.length := by
      rw [← named_mixed, h, List.map_append, List.take_left' (List.length_map _)]
    have hlt : before.length < 6 := (List.getElem?_eq_some_iff.1 hat).1
    generalize before.length = place at hat htake hlt
    have hmem : firstMessage ∈ [firstMessage, secondMessage, emptyMessage] ∧
        secondMessage ∈ [firstMessage, secondMessage, emptyMessage] ∧
        emptyMessage ∈ [firstMessage, secondMessage, emptyMessage] := by simp
    -- what is missing is the frame that arrives, or for the duplicate the other one
    interval_cases place <;> obtain rfl := Option.some.inj hat
    · exact arriving_mixed 0 hsub hmem.2.2 (by omega) (by omega) rfl
        (by rw [htake]; decide) (by norm_num) (by norm_num)
    · exact arriving_mixed 0 hsub hmem.1 (by omega) (by omega) rfl
        (by rw [htake]; decide) (by norm_num) (by norm_num)
    · exact arriving_mixed 1 hsub hmem.2.1 (by omega) (by omega) rfl
        (by rw [htake]; decide) (by norm_num) (by norm_num)
    · exact arriving_mixed 1 hsub hmem.1 (by omega) (by omega) rfl
        (by rw [htake]; decide) (by norm_num) (by norm_num)
    · exact arriving_mixed 1 hsub hmem.1 (by omega) (by omega) rfl
        (by rw [htake]; decide) (by norm_num) (by norm_num)
    · exact arriving_mixed 0 hsub hmem.2.1 (by omega) (by omega) rfl
        (by rw [htake]; decide) (by norm_num) (by norm_num)
  · simp only [List.forall_mem_cons, hfirst, hsecond, hempty]
    refine ⟨fun index hindex => ?_, fun index hindex => ?_, fun index hindex => ?_, by simp⟩
    all_goals interval_cases index <;> simp [framesOf, mixedArrivals]

end Tablefolk
