import Tablefolk.Transport.Frame

/-!
# Reassembling frames

The model of `FrameReassembler` in `transport/frame.ts`.  A clock reading is a number, or
`none` when it is not finite.

* `Within`: the books of a reassembler balance, and every pending group is within the limits.
* `Within.addFrame`, `Within.expire`: what the parts of `accept` keep.
* `reassembler_stays_within_budget`: what that says of every sequence of calls.
-/

namespace Tablefolk

def INCOMPLETE_FRAME_TIMEOUT_MS : ℕ := 30000
def DEFAULT_MAX_REASSEMBLED_BYTES : ℕ := 8 * 1024 * 1024
def DEFAULT_MAX_PENDING_BYTES : ℕ := 16 * 1024 * 1024
def DEFAULT_MAX_PENDING_GROUPS : ℕ := 64

/-- `FrameReassemblerOptions`, apart from the clock. -/
structure FrameReassemblerOptions where
  timeoutMs : Option ℤ
  maxMessageBytes : Option ℤ
  maxPendingBytes : Option ℤ
  maxPendingGroups : Option ℤ
  maxFramesPerMessage : Option ℤ
  scheduleExpiry : Option Bool

/-- The reasons of a rejection. -/
inductive FrameRejection where
  | capacity_exceeded | chunk_conflict | count_mismatch | frame_count_exceeded | message_too_large
  deriving DecidableEq, Repr

/-- `FrameReassemblyResult`. -/
inductive FrameReassemblyResult where
  | incomplete (id received count : ℕ)
  | duplicate (id received count : ℕ)
  | complete (id : ℕ) (payload : List UInt8)
  | rejected (id : ℕ) (reason : FrameRejection)
  deriving DecidableEq, Repr

/-- What `accept` throws. -/
inductive ReassemblyError where
  | schema (error : ProtocolSchemaError)
  | clock
  | missingChunk
  deriving DecidableEq, Repr

/-- `PendingFrameGroup`. -/
structure PendingFrameGroup where
  id : ℕ
  count : ℕ
  createdAt : ℚ
  chunks : OrderedMap ℕ (List UInt8)
  byteLength : ℕ

/-- `FrameReassembler`; `expiryTimer` is the delay the timer was set with. -/
structure FrameReassembler where
  timeoutMs : ℕ
  maxMessageBytes : ℕ
  maxPendingBytes : ℕ
  maxPendingGroups : ℕ
  maxFramesPerMessage : ℕ
  scheduleExpiryEnabled : Bool
  groups : OrderedMap ℕ PendingFrameGroup
  pendingBytes : ℕ
  expiryTimer : Option ℚ

/-- `positiveInteger`. -/
def positiveInteger (value : ℤ) (label : String) : Except String ℕ := do
  throwIf (value < 1 ∨ (MAX_SAFE_INTEGER : ℤ) < value) (label ++ " must be a positive safe integer")
  return value.toNat

/-- `requireTime`. -/
def requireTime (value : Option ℚ) : Except ReassemblyError ℚ :=
  match value with
  | none => .error .clock
  | some time => if time < 0 then .error .clock else .ok time

namespace FrameReassembler

/-- `new FrameReassembler(options)`. -/
def create (options : FrameReassemblerOptions) : Except String FrameReassembler := do
  let timeoutMs ← positiveInteger (options.timeoutMs.getD INCOMPLETE_FRAME_TIMEOUT_MS)
    "Frame timeout"
  let maxMessageBytes ← positiveInteger
    (options.maxMessageBytes.getD DEFAULT_MAX_REASSEMBLED_BYTES)
    "Maximum reassembled message bytes"
  let maxPendingBytes ← positiveInteger (options.maxPendingBytes.getD DEFAULT_MAX_PENDING_BYTES)
    "Maximum pending frame bytes"
  let maxPendingGroups ← positiveInteger (options.maxPendingGroups.getD DEFAULT_MAX_PENDING_GROUPS)
    "Maximum pending frame groups"
  let maxFramesPerMessage ← positiveInteger (options.maxFramesPerMessage.getD
      ((maxMessageBytes + MAX_FRAME_PAYLOAD_BYTES - 1) / MAX_FRAME_PAYLOAD_BYTES : ℕ))
    "Maximum frames per message"
  return ⟨timeoutMs, maxMessageBytes, maxPendingBytes, maxPendingGroups, maxFramesPerMessage,
    options.scheduleExpiry.getD false, .empty, 0, none⟩

/-- `nextExpiryAt`. -/
def nextExpiryAt (r : FrameReassembler) : Option ℚ :=
  (r.groups.entries.map fun entry => entry.2.createdAt + (r.timeoutMs : ℚ)).min?

/-- `#delete`. -/
def delete (r : FrameReassembler) (id : ℕ) : FrameReassembler :=
  match r.groups.get? id with
  | none => r
  | some group =>
      { r with
        pendingBytes := r.pendingBytes - group.byteLength
        groups := r.groups.delete id
        expiryTimer := if (r.groups.delete id).size = 0 then none else r.expiryTimer }

/-- The groups that a call of `expire` deletes. -/
def expired (r : FrameReassembler) (now : ℚ) : List ℕ :=
  (r.groups.entries.filter fun entry => (r.timeoutMs : ℚ) ≤ now - entry.2.createdAt).map Prod.fst

/-- `expire`, at a time that has been read. -/
def expireAt (r : FrameReassembler) (now : ℚ) : FrameReassembler := (r.expired now).foldl delete r

/-- `expire`. -/
def expire (r : FrameReassembler) (now : Option ℚ) :
    Except ReassemblyError (List ℕ) × FrameReassembler :=
  match requireTime now with
  | .error error => (.error error, r)
  | .ok now => (.ok ((r.expired now).insertionSort (· ≤ ·)), r.expireAt now)

/-- `clear`. -/
def clear (r : FrameReassembler) : FrameReassembler :=
  { r with groups := .empty, pendingBytes := 0, expiryTimer := none }

/-- `#scheduleExpiry`. -/
def scheduleExpiry (r : FrameReassembler) (now : Option ℚ) :
    Except ReassemblyError Unit × FrameReassembler :=
  match r.scheduleExpiryEnabled, r.expiryTimer, r.nextExpiryAt with
  | true, none, some expiryAt =>
      match requireTime now with
      | .error error => (.error error, r)
      | .ok now => (.ok (), { r with expiryTimer := some (max 0 (expiryAt - now)) })
  | _, _, _ => (.ok (), r)

/-- The callback of the expiry timer. -/
def fireTimer (r : FrameReassembler) (now later : Option ℚ) : FrameReassembler :=
  match ({ r with expiryTimer := none } : FrameReassembler).expire now with
  | (.error _, r) => r
  | (.ok _, r) => (r.scheduleExpiry later).2

/-- The loop that puts the chunks together. -/
def assemble (chunks : OrderedMap ℕ (List UInt8)) (index : ℕ) : ℕ → Option (List UInt8)
  | 0 => some []
  | count + 1 => do
      let part ← chunks.get? index
      let rest ← assemble chunks (index + 1) count
      return part ++ rest

/-- The rest of `accept`, once the chunk of a frame is in its group. -/
def completeGroup (r : FrameReassembler) (group : PendingFrameGroup) (later : Option ℚ) :
    Except ReassemblyError FrameReassemblyResult × FrameReassembler :=
  if group.chunks.size ≠ group.count then
    match r.scheduleExpiry later with
    | (.error error, r) => (.error error, r)
    | (.ok (), r) => (.ok (.incomplete group.id group.chunks.size group.count), r)
  else
    match assemble group.chunks 0 group.count with
    | none => (.error .missingChunk, r)
    | some payload => (.ok (.complete group.id payload), r.delete group.id)

/-- The part of `accept` that adds a frame to its group. -/
def addChunk (r : FrameReassembler) (group : PendingFrameGroup) (frame : DataFrame)
    (later : Option ℚ) : Except ReassemblyError FrameReassemblyResult × FrameReassembler :=
  match group.chunks.get? frame.index with
  | some existing =>
      if existing ≠ frame.bytes then
        (.ok (.rejected frame.id .chunk_conflict), r.delete frame.id)
      else (.ok (.duplicate frame.id group.chunks.size group.count), r)
  | none =>
      if r.maxMessageBytes < group.byteLength + frame.bytes.length then
        (.ok (.rejected frame.id .message_too_large), r.delete frame.id)
      else if r.maxPendingBytes < r.pendingBytes + frame.bytes.length then
        (.ok (.rejected frame.id .capacity_exceeded),
          if group.chunks.size = 0 then r.delete frame.id else r)
      else
        let group := { group with
          chunks := group.chunks.set frame.index frame.bytes
          byteLength := group.byteLength + frame.bytes.length }
        completeGroup { r with
          groups := r.groups.set frame.id group
          pendingBytes := r.pendingBytes + frame.bytes.length } group later

/-- The group a frame starts. -/
def startGroup (frame : DataFrame) (now : ℚ) : PendingFrameGroup :=
  ⟨frame.id, frame.count, now, .empty, 0⟩

/-- `accept` of a normalized frame, after the expired groups are gone. -/
def addFrame (r : FrameReassembler) (frame : DataFrame) (now : ℚ) (later : Option ℚ) :
    Except ReassemblyError FrameReassemblyResult × FrameReassembler :=
  if r.maxFramesPerMessage < frame.count then
    (.ok (.rejected frame.id .frame_count_exceeded), r.delete frame.id)
  else
    match r.groups.get? frame.id with
    | none =>
        if r.maxPendingGroups ≤ r.groups.size then
          (.ok (.rejected frame.id .capacity_exceeded), r)
        else
          addChunk { r with groups := r.groups.set frame.id (startGroup frame now) }
            (startGroup frame now) frame later
    | some group =>
        if group.count ≠ frame.count then
          (.ok (.rejected frame.id .count_mismatch), r.delete frame.id)
        else addChunk r group frame later

/-- `accept`; `later` is what the clock reads when the expiry is scheduled. -/
def accept (r : FrameReassembler) (candidate : FrameCandidate) (now later : Option ℚ) :
    Except ReassemblyError FrameReassemblyResult × FrameReassembler :=
  match normalizeFrame candidate with
  | .error error => (.error (.schema error), r)
  | .ok frame =>
      match requireTime now with
      | .error error => (.error error, r)
      | .ok now => (r.expireAt now).addFrame frame now later

/-- A call on a reassembler, or its timer. -/
inductive Call where
  | accept (candidate : FrameCandidate) (now later : Option ℚ)
  | expire (now : Option ℚ)
  | clear
  | timer (now later : Option ℚ)

/-- The state after a call. -/
def next (r : FrameReassembler) : Call → FrameReassembler
  | .accept candidate now later => (r.accept candidate now later).2
  | .expire now => (r.expire now).2
  | .clear => r.clear
  | .timer now later => r.fireTimer now later

/-- The state after some calls. -/
def run (r : FrameReassembler) (calls : List Call) : FrameReassembler := calls.foldl next r

/-- The bytes of the chunks that are held. -/
def heldBytes (r : FrameReassembler) : ℕ :=
  r.groups.total fun _ group => group.chunks.total fun _ chunk => chunk.length

end FrameReassembler

open FrameReassembler OrderedMap

/-! ## The books -/

/-- A group that is being filled. -/
structure GroupWithin (maxMessageBytes id : ℕ) (group : PendingFrameGroup) : Prop where
  id_eq : group.id = id
  size_lt : group.chunks.size < group.count
  bytes : group.byteLength = group.chunks.total fun _ chunk => chunk.length
  bytes_le : group.byteLength ≤ maxMessageBytes
  index_lt : ∀ index chunk, group.chunks.get? index = some chunk → index < group.count

/-- The books of a reassembler balance; only the group `fresh` may still be empty. -/
structure Within (r : FrameReassembler) (fresh : Option ℕ) : Prop where
  pending : r.pendingBytes = r.groups.total fun _ group => group.byteLength
  pending_le : r.pendingBytes ≤ r.maxPendingBytes
  size_le : r.groups.size ≤ r.maxPendingGroups
  groups : ∀ id group, r.groups.get? id = some group →
    GroupWithin r.maxMessageBytes id group ∧ (fresh ≠ some id → 1 ≤ group.chunks.size)

variable {r : FrameReassembler} {fresh : Option ℕ} {id : ℕ} {frame : DataFrame}
  {group : PendingFrameGroup}

theorem create_within {options : FrameReassemblerOptions} (h : create options = .ok r) :
    Within r none := by
  unfold create at h
  obtain ⟨timeoutMs, -, h⟩ := bind_eq_ok.1 h
  obtain ⟨maxMessageBytes, -, h⟩ := bind_eq_ok.1 h
  obtain ⟨maxPendingBytes, -, h⟩ := bind_eq_ok.1 h
  obtain ⟨maxPendingGroups, -, h⟩ := bind_eq_ok.1 h
  obtain ⟨maxFramesPerMessage, -, h⟩ := bind_eq_ok.1 h
  cases h
  exact ⟨rfl, Nat.zero_le _, Nat.zero_le _, by simp⟩

/-- The timer is not part of the books. -/
theorem Within.timer (h : Within r fresh) (timer : Option ℚ) :
    Within { r with expiryTimer := timer } fresh := ⟨h.pending, h.pending_le, h.size_le, h.groups⟩

theorem delete_groups : (r.delete id).groups = r.groups.delete id := by
  unfold FrameReassembler.delete
  cases hget : r.groups.get? id with
  | none => rw [delete_of_none hget]
  | some group => rfl

/-- Deleting a group takes its bytes off the books. -/
theorem Within.delete (h : Within r fresh) (hfresh : fresh = none ∨ fresh = some id) :
    Within (r.delete id) none := by
  have hothers : ∀ id' group, (r.groups.delete id).get? id' = some group →
      GroupWithin r.maxMessageBytes id' group ∧ (none ≠ some id' → 1 ≤ group.chunks.size) := by
    intro id' group hget
    rw [get?_delete] at hget
    split_ifs at hget with hid
    obtain ⟨hwithin, hsize⟩ := h.groups id' group hget
    refine ⟨hwithin, fun _ => hsize ?_⟩
    rcases hfresh with rfl | rfl
    · simp
    · simpa using Ne.symm hid
  unfold FrameReassembler.delete
  cases hget : r.groups.get? id with
  | none =>
      rw [delete_of_none hget] at hothers
      exact ⟨h.pending, h.pending_le, h.size_le, hothers⟩
  | some group =>
      have hsum := total_of_get? (fun _ (group : PendingFrameGroup) => group.byteLength) hget
      have hpending := h.pending
      have hle := h.pending_le
      have hsize := h.size_le
      have hsmaller := size_delete_le (m := r.groups) (k := id)
      exact ⟨by simp only; omega, by simp only; omega, hsmaller.trans hsize, hothers⟩

theorem Within.expireAt (h : Within r none) (now : ℚ) : Within (r.expireAt now) none := by
  unfold FrameReassembler.expireAt
  generalize r.expired now = ids
  induction ids generalizing r with
  | nil => exact h
  | cons id rest ih => exact ih (h.delete (.inl rfl))

theorem Within.expire (h : Within r none) (now : Option ℚ) : Within (r.expire now).2 none := by
  unfold FrameReassembler.expire
  split
  · exact h
  · exact h.expireAt _

theorem Within.scheduleExpiry (h : Within r none) (now : Option ℚ) :
    Within (r.scheduleExpiry now).2 none := by
  unfold FrameReassembler.scheduleExpiry
  split
  · split
    · exact h
    · exact h.timer _
  · exact h

theorem requireTime_error {now : Option ℚ} {error : ReassemblyError}
    (h : requireTime now = .error error) : error = .clock := by
  unfold requireTime at h
  split at h
  · cases h
    rfl
  · split_ifs at h
    cases h
    rfl

theorem scheduleExpiry_error {now : Option ℚ} {error : ReassemblyError}
    (h : (r.scheduleExpiry now).1 = .error error) : error = .clock := by
  unfold FrameReassembler.scheduleExpiry at h
  split at h
  · split at h
    · rename_i hnow
      cases h
      exact requireTime_error hnow
    · cases h
  · cases h

theorem scheduleExpiry_groups (now : Option ℚ) : (r.scheduleExpiry now).2.groups = r.groups := by
  unfold FrameReassembler.scheduleExpiry
  split
  · split <;> rfl
  · rfl

/-- Once its first chunk is there, a group is no longer fresh. -/
theorem Within.settle (h : Within r fresh) (hfresh : fresh = none ∨ fresh = some id)
    (hget : r.groups.get? id = some group) (hsize : 1 ≤ group.chunks.size) : Within r none := by
  refine ⟨h.pending, h.pending_le, h.size_le, fun id' group' hget' => ?_⟩
  obtain ⟨hwithin, hsize'⟩ := h.groups id' group' hget'
  refine ⟨hwithin, fun _ => ?_⟩
  by_cases hid : id' = id
  · subst hid
    rw [hget] at hget'
    cases hget'
    exact hsize
  · refine hsize' ?_
    rcases hfresh with rfl | rfl
    · simp
    · simpa using Ne.symm hid

/-- A full group has all its chunks. -/
theorem assemble_isSome (chunks : OrderedMap ℕ (List UInt8)) (index count : ℕ)
    (h : ∀ i, index ≤ i → i < index + count → ∃ chunk, chunks.get? i = some chunk) :
    ∃ payload, assemble chunks index count = some payload := by
  induction count generalizing index with
  | zero => exact ⟨[], rfl⟩
  | succ count ih =>
      obtain ⟨part, hpart⟩ := h index le_rfl (by omega)
      obtain ⟨rest, hrest⟩ := ih (index + 1) fun i hle hlt => h i (by omega) (by omega)
      exact ⟨part ++ rest, by simp [assemble, hpart, hrest]⟩

/-- A group with one more chunk is deleted like the group without it. -/
theorem delete_grown (hget : r.groups.get? id = some group) {grown : PendingFrameGroup} {size : ℕ}
    (hgrown : grown.byteLength = group.byteLength + size) :
    FrameReassembler.delete { r with
      groups := r.groups.set id grown
      pendingBytes := r.pendingBytes + size } id = r.delete id := by
  have hset : (r.groups.set id grown).get? id = some grown := by rw [get?_set, if_pos rfl]
  unfold FrameReassembler.delete
  simp only
  rw [hset, hget]
  simp only [delete_set, hgrown, Nat.add_sub_add_right]

/-- The books once a group has one more chunk. -/
theorem Within.grow (h : Within r fresh) (hfresh : fresh = none ∨ fresh = some id)
    (hget : r.groups.get? id = some group) {grown : PendingFrameGroup} {size : ℕ}
    (hgrown : GroupWithin r.maxMessageBytes id grown) (hbytes : grown.byteLength = group.byteLength + size)
    (hsize : 1 ≤ grown.chunks.size) (hpending : r.pendingBytes + size ≤ r.maxPendingBytes) :
    Within { r with
      groups := r.groups.set id grown
      pendingBytes := r.pendingBytes + size } none := by
  have hsum := total_of_get? (fun _ (group : PendingFrameGroup) => group.byteLength) hget
  have hcount := size_of_get? hget
  refine ⟨?_, hpending, ?_, fun id' group' hget' => ?_⟩
  · simp only
    rw [total_set, h.pending, hsum, hbytes]
    omega
  · simp only
    rw [size_set, ← hcount]
    exact h.size_le
  · simp only at hget' ⊢
    rw [get?_set] at hget'
    split_ifs at hget' with hid
    · cases hget'
      subst hid
      exact ⟨hgrown, fun _ => hsize⟩
    · obtain ⟨hwithin, hsize'⟩ := h.groups id' group' hget'
      refine ⟨hwithin, fun _ => hsize' ?_⟩
      rcases hfresh with rfl | rfl
      · simp
      · simpa using Ne.symm hid

/-- Adding a frame to a group keeps the books, and a group that is full has all its chunks. -/
theorem Within.addChunk (h : Within r fresh) (hfresh : fresh = none ∨ fresh = some frame.id)
    (hget : r.groups.get? frame.id = some group) (hcount : group.count = frame.count)
    (hvalid : frame.Valid) (later : Option ℚ) :
    Within (r.addChunk group frame later).2 none ∧
      (r.addChunk group frame later).1 ≠ .error .missingChunk := by
  obtain ⟨hwithin, -⟩ := h.groups frame.id group hget
  unfold FrameReassembler.addChunk
  cases hchunk : group.chunks.get? frame.index with
  | some existing =>
      have hsize : 1 ≤ group.chunks.size := by
        rw [size_of_get? hchunk]
        omega
      simp only
      split_ifs with hconflict
      · exact ⟨h.delete hfresh, by simp⟩
      · exact ⟨h.settle hfresh hget hsize, by simp⟩
  | none =>
      simp only
      split_ifs with hmessage hpending hempty
      · exact ⟨h.delete hfresh, by simp⟩
      · exact ⟨h.delete hfresh, by simp⟩
      · exact ⟨h.settle hfresh hget (by omega), by simp⟩
      · -- the chunk goes into the group
        obtain ⟨grown, hgrown⟩ : ∃ grown : PendingFrameGroup, grown =
          { group with
            chunks := group.chunks.set frame.index frame.bytes
            byteLength := group.byteLength + frame.bytes.length } := ⟨_, rfl⟩
        have hid : grown.id = frame.id := by rw [hgrown]; exact hwithin.id_eq
        have hsize : grown.chunks.size = group.chunks.size + 1 := by
          rw [hgrown, size_set, delete_of_none hchunk, add_comm]
        have hbytes : grown.byteLength = group.byteLength + frame.bytes.length := by rw [hgrown]
        have htotal : grown.byteLength = grown.chunks.total fun _ chunk => chunk.length := by
          rw [hbytes, hgrown, total_set, delete_of_none hchunk, hwithin.bytes, add_comm]
        have hindex : ∀ index chunk, grown.chunks.get? index = some chunk → index < grown.count := by
          intro index chunk hheld
          rw [hgrown, get?_set] at hheld
          rw [hgrown]
          split_ifs at hheld with heq
          · rw [heq]
            exact hcount ▸ hvalid.index_lt
          · exact hwithin.index_lt index chunk hheld
        have hcounts : grown.count = group.count := by rw [hgrown]
        have hlt := hwithin.size_lt
        rw [← hgrown]
        unfold completeGroup
        split_ifs with hfull
        · have hgroup : GroupWithin r.maxMessageBytes frame.id grown :=
            ⟨hid, by omega, htotal, by omega, hindex⟩
          have hnext := (h.grow hfresh hget hgroup hbytes (by omega) (by omega)).scheduleExpiry later
          split
          · rename_i error next hschedule
            rw [hschedule] at hnext
            have hclock := scheduleExpiry_error (congrArg Prod.fst hschedule)
            exact ⟨hnext, by simp [hclock]⟩
          · rename_i next hschedule
            rw [hschedule] at hnext
            exact ⟨hnext, by simp⟩
        · obtain ⟨payload, hpayload⟩ := assemble_isSome grown.chunks 0 grown.count fun i _ hi =>
            get?_isSome_of_full hindex (by omega) (by omega)
          rw [hpayload]
          simp only
          rw [hid, delete_grown hget hbytes]
          exact ⟨h.delete hfresh, by simp⟩

/-- Accepting a frame keeps the books, and a group that is full has all its chunks. -/
theorem Within.addFrame (h : Within r none) (hvalid : frame.Valid) (now : ℚ) (later : Option ℚ) :
    Within (r.addFrame frame now later).2 none ∧
      (r.addFrame frame now later).1 ≠ .error .missingChunk := by
  unfold FrameReassembler.addFrame
  by_cases hcount : r.maxFramesPerMessage < frame.count
  · rw [if_pos hcount]
    exact ⟨h.delete (.inl rfl), by simp⟩
  · rw [if_neg hcount]
    cases hget : r.groups.get? frame.id with
    | none =>
        simp only
        by_cases hgroups : r.maxPendingGroups ≤ r.groups.size
        · rw [if_pos hgroups]
          exact ⟨h, by simp⟩
        · rw [if_neg hgroups]
          have hgroup : GroupWithin r.maxMessageBytes frame.id (startGroup frame now) :=
            ⟨rfl, Nat.zero_lt_of_lt hvalid.index_lt, rfl, Nat.zero_le _, by simp [startGroup]⟩
          have hfresh : Within { r with groups := r.groups.set frame.id (startGroup frame now) }
              (some frame.id) := by
            refine ⟨?_, h.pending_le, ?_, fun id' group' hget' => ?_⟩
            · simp only
              rw [total_set, delete_of_none hget, h.pending, startGroup, zero_add]
            · simp only
              rw [size_set, delete_of_none hget]
              omega
            · simp only at hget' ⊢
              rw [get?_set] at hget'
              split_ifs at hget' with hid
              · cases hget'
                subst hid
                exact ⟨hgroup, fun hne => absurd rfl hne⟩
              · obtain ⟨hwithin, hsize⟩ := h.groups id' group' hget'
                exact ⟨hwithin, fun _ => hsize (by simp)⟩
          exact hfresh.addChunk (.inr rfl) (by simp only; rw [get?_set, if_pos rfl]) rfl hvalid later
    | some group =>
        simp only
        by_cases hmatch : group.count = frame.count
        · rw [if_neg (not_not.2 hmatch)]
          exact h.addChunk (.inl rfl) hget hmatch hvalid later
        · rw [if_pos hmatch]
          exact ⟨h.delete (.inl rfl), by simp⟩

theorem Within.accept (h : Within r none) (candidate : FrameCandidate) (now later : Option ℚ) :
    Within (r.accept candidate now later).2 none ∧
      (r.accept candidate now later).1 ≠ .error .missingChunk := by
  unfold FrameReassembler.accept
  cases hframe : normalizeFrame candidate with
  | error error => exact ⟨h, by simp⟩
  | ok frame =>
      simp only
      cases hnow : requireTime now with
      | error error => exact ⟨h, by simp [requireTime_error hnow]⟩
      | ok now => exact (h.expireAt now).addFrame (normalizeFrame_eq_ok.1 hframe).2 now later

/-- **Every call keeps the books.** -/
theorem Within.next (h : Within r none) (call : Call) : Within (r.next call) none := by
  cases call with
  | accept candidate now later => exact (h.accept candidate now later).1
  | expire now => exact h.expire now
  | clear => exact ⟨rfl, Nat.zero_le _, Nat.zero_le _, by simp [FrameReassembler.next, clear]⟩
  | timer now later =>
      have hexpired := (h.timer none).expire now
      unfold FrameReassembler.next fireTimer
      simp only
      split
      · rename_i hexpire
        rw [hexpire] at hexpired
        exact hexpired
      · rename_i hexpire
        rw [hexpire] at hexpired
        exact hexpired.scheduleExpiry later

theorem Within.run (h : Within r none) (calls : List Call) : Within (r.run calls) none := by
  induction calls generalizing r with
  | nil => exact h
  | cons call rest ih => exact ih (h.next call)

/-! ## The other groups -/

theorem delete_others {id' : ℕ} (hid : id' ≠ id) :
    (r.delete id).groups.get? id' = r.groups.get? id' := by
  rw [delete_groups, get?_delete, if_neg hid]

/-- A frame that goes into a group leaves the others as they are, and the answer names its
group. -/
theorem addChunk_others {id' : ℕ} (hid : id' ≠ frame.id) (hgroup : group.id = frame.id)
    (later : Option ℚ) :
    (r.addChunk group frame later).2.groups.get? id' = r.groups.get? id' ∧
      ∀ rejectedId reason, (r.addChunk group frame later).1 = .ok (.rejected rejectedId reason) →
        rejectedId = frame.id := by
  unfold FrameReassembler.addChunk
  split
  · split_ifs
    · exact ⟨delete_others hid, by rintro _ _ ⟨⟩; rfl⟩
    · exact ⟨rfl, by rintro _ _ ⟨⟩⟩
  · split_ifs
    · exact ⟨delete_others hid, by rintro _ _ ⟨⟩; rfl⟩
    · exact ⟨delete_others hid, by rintro _ _ ⟨⟩; rfl⟩
    · exact ⟨rfl, by rintro _ _ ⟨⟩; rfl⟩
    · have hset : ∀ grown, (r.groups.set frame.id grown).get? id' = r.groups.get? id' := by
        intro grown
        rw [get?_set, if_neg hid]
      unfold completeGroup
      simp only
      split_ifs
      · split
        · rename_i hschedule
          refine ⟨?_, by rintro _ _ ⟨⟩⟩
          have hgroups := congrArg (fun result => result.2.groups) hschedule
          simp only [scheduleExpiry_groups] at hgroups
          simp only
          rw [← hgroups]
          exact hset _
        · rename_i hschedule
          refine ⟨?_, by rintro _ _ ⟨⟩⟩
          have hgroups := congrArg (fun result => result.2.groups) hschedule
          simp only [scheduleExpiry_groups] at hgroups
          simp only
          rw [← hgroups]
          exact hset _
      · split
        · exact ⟨hset _, by rintro _ _ ⟨⟩⟩
        · refine ⟨?_, by rintro _ _ ⟨⟩⟩
          rw [hgroup]
          exact (delete_others hid).trans (hset _)

theorem addFrame_others (h : Within r none) {id' : ℕ} (hid : id' ≠ frame.id) (now : ℚ)
    (later : Option ℚ) :
    (r.addFrame frame now later).2.groups.get? id' = r.groups.get? id' ∧
      ∀ rejectedId reason, (r.addFrame frame now later).1 = .ok (.rejected rejectedId reason) →
        rejectedId = frame.id := by
  unfold FrameReassembler.addFrame
  by_cases hcount : r.maxFramesPerMessage < frame.count
  · rw [if_pos hcount]
    exact ⟨delete_others hid, by rintro _ _ ⟨⟩; rfl⟩
  · rw [if_neg hcount]
    cases hget : r.groups.get? frame.id with
    | none =>
        simp only
        by_cases hgroups : r.maxPendingGroups ≤ r.groups.size
        · rw [if_pos hgroups]
          exact ⟨rfl, by rintro _ _ ⟨⟩; rfl⟩
        · rw [if_neg hgroups]
          have hset : (r.groups.set frame.id (startGroup frame now)).get? id' = r.groups.get? id' := by
            rw [get?_set, if_neg hid]
          obtain ⟨hsame, hanswer⟩ := addChunk_others
            (r := { r with groups := r.groups.set frame.id (startGroup frame now) })
            hid (show (startGroup frame now).id = frame.id from rfl) later
          exact ⟨hsame.trans hset, hanswer⟩
    | some group =>
        simp only
        by_cases hmatch : group.count = frame.count
        · rw [if_neg (not_not.2 hmatch)]
          exact addChunk_others hid (h.groups frame.id group hget).1.id_eq later
        · rw [if_pos hmatch]
          exact ⟨delete_others hid, by rintro _ _ ⟨⟩; rfl⟩

/-- **A reassembler stays within its budget.**  After every sequence of calls, with any
frames, ids, counts and clock readings: the pending bytes are the bytes of the chunks that are
held and within their limit, and so is the number of groups; a pending group has at least one
and fewer than its number of chunks, each below its count, and at most the bytes of a message;
no call finds a chunk missing; and a rejected frame removes at most the group of its own id,
apart from the groups that have expired. -/
theorem reassembler_stays_within_budget (options : FrameReassemblerOptions) (calls : List Call)
    (r₀ r : FrameReassembler) (hcreate : create options = .ok r₀) (hrun : r = r₀.run calls) :
    r.pendingBytes = r.heldBytes ∧ r.pendingBytes ≤ r.maxPendingBytes ∧
    r.groups.size ≤ r.maxPendingGroups ∧
    (∀ id group, r.groups.get? id = some group → group.id = id ∧ 1 ≤ group.chunks.size ∧
      group.chunks.size < group.count ∧
      (∀ index chunk, group.chunks.get? index = some chunk → index < group.count) ∧
      (group.chunks.total fun _ chunk => chunk.length) ≤ r.maxMessageBytes) ∧
    ∀ candidate now later,
      (r.accept candidate now later).1 ≠ .error .missingChunk ∧
      ∀ rejectedId reason, (r.accept candidate now later).1 = .ok (.rejected rejectedId reason) →
        (∃ frame, normalizeFrame candidate = .ok frame ∧ frame.id = rejectedId) ∧
        ∀ id, id ≠ rejectedId → (r.accept candidate now later).2.groups.get? id
          = (r.expire now).2.groups.get? id := by
  have h : Within r none := hrun ▸ (create_within hcreate).run calls
  have hheld : r.heldBytes = r.groups.total fun _ group => group.byteLength := by
    unfold heldBytes total
    refine congrArg List.sum (List.map_congr_left fun entry hentry => ?_)
    exact (h.groups entry.1 entry.2 (get?_eq_some.2 hentry)).1.bytes.symm
  refine ⟨h.pending.trans hheld.symm, h.pending_le, h.size_le, ?_, ?_⟩
  · intro id group hget
    obtain ⟨hwithin, hsize⟩ := h.groups id group hget
    exact ⟨hwithin.id_eq, hsize (by simp), hwithin.size_lt, hwithin.index_lt,
      hwithin.bytes ▸ hwithin.bytes_le⟩
  · intro candidate now later
    refine ⟨(h.accept candidate now later).2, fun rejectedId reason hrejected => ?_⟩
    unfold FrameReassembler.accept FrameReassembler.expire at *
    cases hframe : normalizeFrame candidate with
    | error error =>
        rw [hframe] at hrejected
        cases hrejected
    | ok frame =>
        rw [hframe] at hrejected
        simp only at hrejected ⊢
        cases hnow : requireTime now with
        | error error =>
            rw [hnow] at hrejected
            cases hrejected
        | ok time =>
            rw [hnow] at hrejected
            simp only at hrejected ⊢
            have hexpired := h.expireAt time
            have hnamed : rejectedId = frame.id :=
              (addFrame_others hexpired (Nat.succ_ne_self frame.id) time later).2 _ _ hrejected
            refine ⟨⟨frame, rfl, hnamed.symm⟩, fun id hid => ?_⟩
            exact (addFrame_others hexpired (hnamed ▸ hid) time later).1

/-- The reassembler with the limits that are there by default. -/
def defaultReassembler : FrameReassembler :=
  ⟨INCOMPLETE_FRAME_TIMEOUT_MS, DEFAULT_MAX_REASSEMBLED_BYTES, DEFAULT_MAX_PENDING_BYTES,
    DEFAULT_MAX_PENDING_GROUPS, 512, false, .empty, 0, none⟩

theorem create_default :
    create ⟨none, none, none, none, none, none⟩ = .ok defaultReassembler := by rfl

theorem reassembler_stays_within_budget_small :
    (defaultReassembler.run [.accept (DataFrame.mk 3 0 2 [1]).candidate (some 0) none,
      .accept (DataFrame.mk 3 0 2 [2]).candidate (some 1) none]).pendingBytes
      = (defaultReassembler.run [.accept (DataFrame.mk 3 0 2 [1]).candidate (some 0) none,
        .accept (DataFrame.mk 3 0 2 [2]).candidate (some 1) none]).heldBytes :=
  (reassembler_stays_within_budget _ _ _ _ create_default rfl).1

end Tablefolk
