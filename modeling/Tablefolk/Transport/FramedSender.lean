import Tablefolk.Transport.Frame

/-!
# The framed sender

The model of `transport/framed-sender.ts`: the payloads that are sent on one data channel, each cut
into frames, one payload after the other, and no frame while too many bytes are buffered.  The
channel is what the sender reads of it, and may change between any two steps.

* `prepare`: what a call checks before its first frame.
* `framed_sender_exact`: what has been sent after any steps.
-/

namespace Tablefolk

def DEFAULT_BUFFERED_AMOUNT_HIGH_WATER_BYTES : ℕ := 4 * 1024 * 1024
def DEFAULT_BUFFERED_AMOUNT_LOW_WATER_BYTES : ℕ := 2 * 1024 * 1024

/-- `FramedSendOptions`: finite numbers, of which some may not be given. -/
structure FramedSendOptions where
  highWaterBytes : Option ℚ
  lowWaterBytes : Option ℚ
  maxPayloadBytes : Option ℚ

namespace FramedSendOptions

variable (options : FramedSendOptions)

/-- The high-water mark, or its default. -/
def high : ℚ := options.highWaterBytes.getD DEFAULT_BUFFERED_AMOUNT_HIGH_WATER_BYTES

/-- The low-water mark, or its default. -/
def low : ℚ := options.lowWaterBytes.getD DEFAULT_BUFFERED_AMOUNT_LOW_WATER_BYTES

/-- The longest payload, or its default. -/
def maxPayload : ℚ := options.maxPayloadBytes.getD DEFAULT_MAX_OUTBOUND_PAYLOAD_BYTES

end FramedSendOptions

/-- What a call is rejected with: an error of the sender, of `splitDataFrames`, or what the channel
throws when it sends. -/
inductive SenderError where
  | range (message : String)
  | message (text : String)
  | frame (error : FrameError)
  | send
  deriving DecidableEq

/-- A call of `sendFramedPayload`; `id` is its promise. -/
structure SendCall where
  id : ℕ
  payload : List UInt8
  frameId : CborValue
  options : FramedSendOptions

/-- What is read of the channel. -/
structure ChannelReading where
  isOpen : Bool
  bufferedAmount : ℕ

/-- The call that has its turn: the frames that were sent and those that are left.  `waiting` says
that it listens for a low buffer; else the next frame is about to be sent. -/
structure SenderRun where
  call : SendCall
  sent : List DataFrame
  rest : List DataFrame
  waiting : Bool

/-- A call that has settled, with the frames it has sent; `none` when it has resolved. -/
structure SettledSend where
  call : SendCall
  sent : List DataFrame
  error : Option SenderError

/-- The sender of one channel: the calls that wait for their turn, the one that has it and those
that are settled.  `log` is what was handed to the channel, in order. -/
structure FramedSender where
  queue : List SendCall
  active : Option SenderRun
  settled : List SettledSend
  calls : ℕ
  log : List DataFrame

namespace FramedSender

/-- A channel on which nothing has been sent. -/
def create : FramedSender := ⟨[], none, [], 0, []⟩

def notOpen : SenderError := .message "Data channel must be open before sending"

/-- A non-negative safe integer. -/
def IsCount (value : ℚ) : Prop := value.den = 1 ∧ 0 ≤ value ∧ value ≤ MAX_SAFE_INTEGER

instance (value : ℚ) : Decidable (IsCount value) := inferInstanceAs (Decidable (_ ∧ _))

/-- `nonNegativeInteger`. -/
def nonNegativeInteger (value : ℚ) (label : String) : Except SenderError Unit :=
  throwIf (¬ IsCount value) (.range (label ++ " must be a non-negative safe integer"))

/-- `sendFramedPayloadNow` up to its loop: the frames. -/
def prepare (call : SendCall) (reading : ChannelReading) : Except SenderError (List DataFrame) := do
  nonNegativeInteger call.options.high "Data-channel high-water mark"
  nonNegativeInteger call.options.low "Data-channel low-water mark"
  nonNegativeInteger call.options.maxPayload "Maximum outbound payload bytes"
  throwIf (call.options.high < call.options.low)
    (.range "Data-channel low-water mark must not exceed its high-water mark")
  throwIf (call.options.maxPayload < call.payload.length)
    (.range ("Outbound payload exceeds the " ++ toString call.options.maxPayload.num ++
      "-byte local limit"))
  throwIf (reading.isOpen = false) notOpen
  (splitDataFrames call.payload call.frameId).mapError .frame

/-- The call that has its turn settles. -/
def settle (s : FramedSender) (call : SendCall) (sent : List DataFrame)
    (error : Option SenderError) : FramedSender :=
  { s with active := none, settled := s.settled ++ [⟨call, sent, error⟩] }

/-- The loop from one frame on: `waitForCapacity`, or the end. -/
def advance (s : FramedSender) (call : SendCall) (sent rest : List DataFrame)
    (reading : ChannelReading) : FramedSender :=
  if rest = [] then s.settle call sent none
  else if reading.isOpen = false then s.settle call sent (some notOpen)
  else
    { s with
      active := some ⟨call, sent, rest, call.options.high < reading.bufferedAmount⟩ }

/-- `sendFramedPayloadNow`, up to its first `await`. -/
def begin (s : FramedSender) (call : SendCall) (reading : ChannelReading) : FramedSender :=
  match prepare call reading with
  | .error error => s.settle call [] (some error)
  | .ok frames => s.advance call [] frames reading

/-- `sendFramedPayload`; `chained` says that the promise of the call before is still in the map of
queues. -/
def send (s : FramedSender) (payload : List UInt8) (frameId : CborValue)
    (options : FramedSendOptions) (chained : Bool) (reading : ChannelReading) : FramedSender :=
  let call : SendCall := ⟨s.calls, payload, frameId, options⟩
  let s := { s with calls := s.calls + 1 }
  if s.queue = [] ∧ s.active.isNone ∧ chained = false then s.begin call reading
  else { s with queue := s.queue ++ [call] }

/-- The call before has settled, and the next one begins. -/
def next (s : FramedSender) (reading : ChannelReading) : FramedSender :=
  match s.active, s.queue with
  | none, call :: queue => { s with queue := queue }.begin call reading
  | _, _ => s

/-- There is room: the frame is sent, unless the channel throws, and the loop goes on. -/
def granted (s : FramedSender) (sends : Bool) (reading : ChannelReading) : FramedSender :=
  match s.active with
  | some ⟨call, sent, frame :: rest, false⟩ =>
      if sends then { s with log := s.log ++ [frame] }.advance call (sent ++ [frame]) rest reading
      else s.settle call sent (some .send)
  | _ => s

/-- `bufferedamountlow`. -/
def low (s : FramedSender) : FramedSender :=
  { s with active := s.active.map fun run => { run with waiting := false } }

/-- `close` or `error` while the call that has its turn listens. -/
def fail (s : FramedSender) (text : String) : FramedSender :=
  match s.active with
  | some ⟨call, sent, _, true⟩ => s.settle call sent (some (.message text))
  | _ => s

/-- What happens on the channel. -/
inductive SenderEvent where
  | send (payload : List UInt8) (frameId : CborValue) (options : FramedSendOptions)
      (chained : Bool) (reading : ChannelReading)
  | next (reading : ChannelReading)
  | granted (sends : Bool) (reading : ChannelReading)
  | low
  | closed
  | errored

/-- One step. -/
def step (s : FramedSender) : SenderEvent → FramedSender
  | .send payload frameId options chained reading => s.send payload frameId options chained reading
  | .next reading => s.next reading
  | .granted sends reading => s.granted sends reading
  | .low => s.low
  | .closed => s.fail "Data channel closed during backpressure"
  | .errored => s.fail "Data channel failed during backpressure"

/-- The steps one after the other. -/
def run (s : FramedSender) (events : List SenderEvent) : FramedSender := events.foldl step s

/-! ## What is sent -/

/-- A call whose marks and limit are non-negative safe integers, the low mark not over the high one
and the payload within the limit. -/
structure Fits (call : SendCall) : Prop where
  high : IsCount call.options.high
  low : IsCount call.options.low
  maxPayload : IsCount call.options.maxPayload
  marks : call.options.low ≤ call.options.high
  length_le : call.payload.length ≤ call.options.maxPayload

theorem prepare_eq_ok {call : SendCall} {reading : ChannelReading} {frames : List DataFrame}
    (h : prepare call reading = .ok frames) :
    Fits call ∧ splitDataFrames call.payload call.frameId = .ok frames := by
  unfold prepare at h
  simp only [nonNegativeInteger, check_bind_eq_ok, throwIf_eq_ok, mapError_eq_ok, not_not,
    not_lt] at h
  obtain ⟨hhigh, hlow, hmax, hmarks, hlength, -, hsplit⟩ := h
  exact ⟨⟨hhigh, hlow, hmax, hmarks, hlength⟩, hsplit⟩

/-- A call that has resolved has sent all of its frames, which are its payload; one that was
rejected has sent some of the first ones, and one that does not fit is rejected and has sent
none. -/
structure SettledSend.Exact (done : SettledSend) : Prop where
  resolved : done.error = none →
    splitDataFrames done.call.payload done.call.frameId = .ok done.sent ∧
      (done.sent.map DataFrame.bytes).flatten = done.call.payload
  rejected : done.error ≠ none → done.sent = [] ∨ ∃ rest, rest ≠ [] ∧
    splitDataFrames done.call.payload done.call.frameId = .ok (done.sent ++ rest)
  unfit : ¬ Fits done.call → done.error ≠ none ∧ done.sent = []

/-- What holds of a sender at any time. -/
structure Inv (s : FramedSender) : Prop where
  /-- the calls have their turns in the order in which they were made -/
  order : s.settled.map (fun done => done.call.id) ++
    (s.active.toList.map (fun run => run.call.id) ++ s.queue.map SendCall.id) = List.range s.calls
  /-- the frames of different calls are not mixed -/
  log : s.log = s.settled.flatMap SettledSend.sent ++ s.active.toList.flatMap SenderRun.sent
  settled : ∀ done ∈ s.settled, SettledSend.Exact done
  active : ∀ run, s.active = some run → Fits run.call ∧ run.rest ≠ [] ∧
    splitDataFrames run.call.payload run.call.frameId = .ok (run.sent ++ run.rest)

theorem create_inv : create.Inv where
  order := rfl
  log := rfl
  settled := by simp [create]
  active := by simp [create]

theorem flatten_of_split {payload : List UInt8} {frameId : CborValue} {frames : List DataFrame}
    (h : splitDataFrames payload frameId = .ok frames) :
    (frames.map DataFrame.bytes).flatten = payload := by
  unfold splitDataFrames at h
  obtain ⟨id, -, h⟩ := bind_eq_ok.1 h
  simp only at h
  rw [check_bind_eq_ok] at h
  obtain ⟨-, h⟩ := h
  cases h
  rw [List.map_map]
  exact splitDataFrames_flatten payload id

/-- A sender whose call that has its turn was taken out. -/
structure Between (s : FramedSender) (call : SendCall) (sent : List DataFrame) : Prop where
  order : s.settled.map (fun done => done.call.id) ++ (call.id :: s.queue.map SendCall.id) =
    List.range s.calls
  log : s.log = s.settled.flatMap SettledSend.sent ++ sent
  settled : ∀ done ∈ s.settled, SettledSend.Exact done

variable {s : FramedSender} {call : SendCall} {sent rest : List DataFrame}

theorem Between.settle (h : s.Between call sent) {error : Option SenderError}
    (hexact : SettledSend.Exact ⟨call, sent, error⟩) : (s.settle call sent error).Inv where
  order := by
    simp only [FramedSender.settle, List.map_append, List.map_cons, List.map_nil,
      Option.toList_none, List.nil_append, List.append_assoc, List.singleton_append]
    exact h.order
  log := by
    simp only [FramedSender.settle, List.flatMap_append, List.flatMap_cons, List.flatMap_nil,
      Option.toList_none, List.append_nil]
    exact h.log
  settled := by
    intro done hdone
    rcases List.mem_append.1 hdone with hdone | hdone
    · exact h.settled done hdone
    · rw [List.mem_singleton.1 hdone]
      exact hexact
  active := by simp [FramedSender.settle]

theorem Between.advance (h : s.Between call sent) (hfits : Fits call)
    (hsplit : splitDataFrames call.payload call.frameId = .ok (sent ++ rest))
    (reading : ChannelReading) : (s.advance call sent rest reading).Inv := by
  unfold FramedSender.advance
  split_ifs with hrest hopen
  · subst hrest
    rw [List.append_nil] at hsplit
    exact h.settle ⟨fun _ => ⟨hsplit, flatten_of_split hsplit⟩, fun hne => absurd rfl hne,
      fun hunfit => absurd hfits hunfit⟩
  · exact h.settle ⟨(fun hnone => by cases hnone), fun _ => .inr ⟨rest, hrest, hsplit⟩,
      fun hunfit => absurd hfits hunfit⟩
  · exact
      { order := h.order
        log := by simpa using h.log
        settled := h.settled
        active := by
          intro run hrun
          cases hrun
          exact ⟨hfits, hrest, hsplit⟩ }

theorem Between.begin (h : s.Between call []) (reading : ChannelReading) :
    (s.begin call reading).Inv := by
  unfold FramedSender.begin
  cases hprepare : prepare call reading with
  | error error =>
      exact h.settle ⟨(fun hnone => by cases hnone), fun _ => .inl rfl, fun _ => ⟨by simp, rfl⟩⟩
  | ok frames =>
      obtain ⟨hfits, hsplit⟩ := prepare_eq_ok hprepare
      exact h.advance hfits hsplit reading

theorem send_inv (h : s.Inv) (payload : List UInt8) (frameId : CborValue)
    (options : FramedSendOptions) (chained : Bool) (reading : ChannelReading) :
    (s.send payload frameId options chained reading).Inv := by
  have horder := h.order
  unfold send
  simp only
  split_ifs with hidle
  · obtain ⟨hqueue, hactive, -⟩ := hidle
    rw [Option.isNone_iff_eq_none] at hactive
    have hlog := h.log
    rw [hactive] at hlog
    rw [hqueue, hactive] at horder
    have hbetween : Between { s with calls := s.calls + 1 }
        ⟨s.calls, payload, frameId, options⟩ [] := by
      refine ⟨?_, hlog, h.settled⟩
      show _ ++ (s.calls :: List.map SendCall.id s.queue) = List.range (s.calls + 1)
      rw [hqueue, List.range_succ, ← horder]
      simp
    exact hbetween.begin reading
  · exact
      { h with
        order := by
          rw [List.range_succ, ← horder]
          simp }

theorem next_inv (h : s.Inv) (reading : ChannelReading) : (s.next reading).Inv := by
  unfold next
  split
  · rename_i call queue hactive hqueue
    have horder := h.order
    have hlog := h.log
    rw [hactive] at hlog horder
    rw [hqueue] at horder
    have hbetween : Between { s with queue := queue } call [] := ⟨horder, hlog, h.settled⟩
    exact hbetween.begin reading
  · exact h

theorem Inv.between (h : s.Inv) {run : SenderRun} (hactive : s.active = some run) :
    s.Between run.call run.sent := by
  have horder := h.order
  have hlog := h.log
  rw [hactive] at horder hlog
  exact ⟨horder, by simpa using hlog, h.settled⟩

theorem granted_inv (h : s.Inv) (sends : Bool) (reading : ChannelReading) :
    (s.granted sends reading).Inv := by
  unfold granted
  split
  · rename_i call sent frame rest hactive
    obtain ⟨hfits, -, hsplit⟩ := h.active _ hactive
    have hbetween := h.between hactive
    split_ifs
    · have hsent : Between { s with log := s.log ++ [frame] } call (sent ++ [frame]) := by
        refine ⟨hbetween.order, ?_, hbetween.settled⟩
        show s.log ++ [frame] = _
        rw [hbetween.log, List.append_assoc]
      refine hsent.advance hfits ?_ reading
      rw [List.append_assoc]
      exact hsplit
    · exact hbetween.settle ⟨(fun hnone => by cases hnone),
        fun _ => .inr ⟨frame :: rest, by simp, hsplit⟩, fun hunfit => absurd hfits hunfit⟩
  · exact h

theorem low_inv (h : s.Inv) : s.low.Inv := by
  have horder := h.order
  have hlog := h.log
  unfold low
  cases hactive : s.active with
  | none =>
      rw [hactive] at horder hlog
      exact ⟨horder, hlog, h.settled, by simp⟩
  | some run =>
      rw [hactive] at horder hlog
      refine ⟨horder, hlog, h.settled, ?_⟩
      rintro _ ⟨⟩
      exact h.active run hactive

theorem fail_inv (h : s.Inv) (text : String) : (s.fail text).Inv := by
  unfold fail
  split
  · rename_i call sent rest hactive
    obtain ⟨hfits, hrest, hsplit⟩ := h.active _ hactive
    exact (h.between hactive).settle ⟨(fun hnone => by cases hnone),
      fun _ => .inr ⟨rest, hrest, hsplit⟩, fun hunfit => absurd hfits hunfit⟩
  · exact h

theorem step_inv (h : s.Inv) (event : SenderEvent) : (s.step event).Inv := by
  cases event with
  | send payload frameId options chained reading =>
      exact send_inv h payload frameId options chained reading
  | next reading => exact next_inv h reading
  | granted sends reading => exact granted_inv h sends reading
  | low => exact low_inv h
  | closed => exact fail_inv h _
  | errored => exact fail_inv h _

theorem run_inv (events : List SenderEvent) : (create.run events).Inv := by
  induction events using List.reverseRecOn with
  | nil => exact create_inv
  | append_singleton events event ih =>
      unfold run
      rw [List.foldl_append, List.foldl_cons, List.foldl_nil]
      exact step_inv ih event

/-- Nothing that was sent or settled changes any more. -/
structure Grows (s t : FramedSender) : Prop where
  log : s.log <+: t.log
  settled : s.settled <+: t.settled

theorem Grows.refl (s : FramedSender) : s.Grows s := ⟨List.prefix_rfl, List.prefix_rfl⟩

theorem Grows.trans {s t u : FramedSender} (h : s.Grows t) (h' : t.Grows u) : s.Grows u :=
  ⟨h.log.trans h'.log, h.settled.trans h'.settled⟩

theorem settle_grows (s : FramedSender) (call : SendCall) (sent : List DataFrame)
    (error : Option SenderError) : s.Grows (s.settle call sent error) :=
  ⟨List.prefix_rfl, List.prefix_append _ _⟩

theorem advance_grows (s : FramedSender) (call : SendCall) (sent rest : List DataFrame)
    (reading : ChannelReading) : s.Grows (s.advance call sent rest reading) := by
  unfold advance
  split_ifs
  · exact settle_grows s call sent none
  · exact settle_grows s call sent _
  · exact ⟨List.prefix_rfl, List.prefix_rfl⟩

theorem begin_grows (s : FramedSender) (call : SendCall) (reading : ChannelReading) :
    s.Grows (s.begin call reading) := by
  unfold FramedSender.begin
  split
  · exact settle_grows s call [] _
  · exact advance_grows s call [] _ reading

theorem step_grows (s : FramedSender) (event : SenderEvent) : s.Grows (s.step event) := by
  cases event with
  | send payload frameId options chained reading =>
      simp only [step, send]
      split_ifs
      · have hbegin := begin_grows { s with calls := s.calls + 1 }
          ⟨s.calls, payload, frameId, options⟩ reading
        exact ⟨hbegin.log, hbegin.settled⟩
      · exact ⟨List.prefix_rfl, List.prefix_rfl⟩
  | next reading =>
      simp only [step, next]
      split
      · rename_i call queue hactive hqueue
        have hbegin := begin_grows { s with queue := queue } call reading
        exact ⟨hbegin.log, hbegin.settled⟩
      · exact .refl s
  | granted sends reading =>
      simp only [step, granted]
      split
      · rename_i call sent frame rest hactive
        split_ifs
        · have hadvance := advance_grows { s with log := s.log ++ [frame] } call (sent ++ [frame])
            rest reading
          exact ⟨(List.prefix_append _ _).trans hadvance.log, hadvance.settled⟩
        · exact settle_grows s call sent _
      · exact .refl s
  | low => exact ⟨List.prefix_rfl, List.prefix_rfl⟩
  | closed | errored =>
      simp only [step, fail]
      split
      · exact settle_grows s _ _ _
      · exact .refl s

theorem run_grows (s : FramedSender) (later : List SenderEvent) : s.Grows (s.run later) := by
  induction later generalizing s with
  | nil => exact .refl s
  | cons event later ih => exact (step_grows s event).trans (ih _)

end FramedSender

open FramedSender

/-- **The framed sender.**  After any steps, of any channel: the calls have their turns in the order
in which they were made, and no promise settles twice; what was handed to the channel is the frames
of the calls one after the other, never mixed; a call that has resolved has sent all frames of its
payload, and one that was rejected some of the first ones, but never all, and none when its marks,
its limit or its payload do not fit.  What was sent or settled stays so. -/
theorem framed_sender_exact (events : List SenderEvent) :
    (create.run events).Inv ∧
      ∀ later, (create.run events).Grows ((create.run events).run later) :=
  ⟨run_inv events, fun later => run_grows _ later⟩

end Tablefolk
