import Tablefolk.Protocol.HashInputs

/-!
# Shuffle transcripts

The model of `deck/shuffle-transcript.ts`: the public messages of a shuffle proof, one after the
other, and the challenges that are read from them.

A challenge is a hash of everything that came before it.  Each event is an array of its own inside
an array of events, so two histories with the same bytes are the same, event by event.  A reader
remembers how many events there were, and is stale as soon as there are more than its own.

* `TranscriptEvent.value_inj`: an event is determined by its value.
* `TranscriptState.step_inv`, `run_inv`: the events are those of the calls that returned.
* `TranscriptState.Stale.step`: a stale reader stays stale.
-/

namespace Tablefolk

def CANDIDATE_SHUFFLE_TRANSCRIPT_PROFILE : String := "bg-ristretto255-36-4x9-fs-candidate-v1"

/-- What the functions of this file throw. -/
inductive ShuffleTranscriptError where
  | range (message : String)
  | error (message : String)
  | input (error : HashInputError)
  deriving DecidableEq

/-- `CandidateShuffleTranscript`. -/
structure CandidateShuffleTranscript where
  root : List UInt8
  context : ProofContext
  events : List CborValue
  eventBytes : ℕ
  deriving DecidableEq

/-- What `challenge` returns: a reader of its own. -/
structure ChallengeReader where
  capturedLabel : List UInt8
  index : ℕ
  expectedLength : ℕ
  deriving DecidableEq

/-- `CandidateShuffleChallenge`. -/
structure CandidateShuffleChallenge where
  input : List UInt8
  scalar : FixedBytes 32
  deriving DecidableEq

/-- `capture`. -/
def capture (bytes : List UInt8) (min max : ℕ) : Except ShuffleTranscriptError (List UInt8) := do
  throwIf (bytes.length < min ∨ max < bytes.length) (.range "Candidate transcript field bound")
  return bytes

/-- `/^[\x00-\x7f]{1,64}$/`. -/
def isTranscriptPhase (phase : String) : Bool :=
  1 ≤ phase.length && phase.length ≤ 64 && phase.toList.all fun c => c.toNat ≤ 0x7f

namespace CandidateShuffleTranscript

/-- The constructor. -/
def create (root : List UInt8) (context : ProofContext) :
    Except ShuffleTranscriptError CandidateShuffleTranscript := do
  let root ← capture root 1 1024
  throwIf (MAX_SAFE_INTEGER < context.round ∨ isTranscriptPhase context.phase = false)
    (.range "Candidate transcript context bound")
  return ⟨root, context, [], 0⟩

/-- `#push`. -/
def push (t : CandidateShuffleTranscript) (event : CborValue) :
    Except ShuffleTranscriptError CandidateShuffleTranscript := do
  let encoded ← (encodeField event).mapError .input
  throwIf (128 ≤ t.events.length ∨ 32768 < t.eventBytes + encoded.length)
    (.error "Candidate transcript event bound")
  return { t with events := t.events ++ [event], eventBytes := t.eventBytes + encoded.length }

/-- `label`. -/
def label (t : CandidateShuffleTranscript) (label : List UInt8) :
    Except ShuffleTranscriptError CandidateShuffleTranscript := do
  let captured ← capture label 1 64
  t.push (.array [.int 0, .bytes captured])

/-- `appendPublicBytes`. -/
def appendPublicBytes (t : CandidateShuffleTranscript) (bytes : List UInt8) :
    Except ShuffleTranscriptError CandidateShuffleTranscript := do
  let captured ← capture bytes 0 8192
  t.push (.array [.int 1, .bytes captured])

/-- `challenge`. -/
def challenge (t : CandidateShuffleTranscript) (label : List UInt8) :
    Except ShuffleTranscriptError ChallengeReader := do
  let capturedLabel ← capture label 1 64
  return ⟨capturedLabel, 0, t.events.length⟩

/-- The statement of a challenge. -/
def statement (t : CandidateShuffleTranscript) (reader : ChallengeReader) : CborValue :=
  .array [.bytes (asciiToBytes CANDIDATE_SHUFFLE_TRANSCRIPT_PROFILE), .bytes t.root,
    .array t.events, .array [.int 2, .bytes reader.capturedLabel, .int reader.index]]

/-- `read`; `scalarOf` is the scalar, encoded, that the hash of an input is reduced to. -/
def read (scalarOf : List UInt8 → FixedBytes 32) (t : CandidateShuffleTranscript)
    (reader : ChallengeReader) : Except ShuffleTranscriptError
      (CandidateShuffleTranscript × ChallengeReader × CandidateShuffleChallenge) := do
  throwIf (reader.expectedLength ≠ t.events.length) (.error "Stale challenge reader")
  throwIf (16 ≤ reader.index) (.error "Candidate challenge count bound")
  let input ← (proofChallengeInput .shuffle t.context (t.statement reader)).mapError .input
  let scalar := scalarOf input
  let next ← t.push
    (.array [.int 2, .bytes reader.capturedLabel, .int reader.index, .bytes scalar.val])
  return (next, { reader with index := reader.index + 1, expectedLength := reader.expectedLength + 1 },
    ⟨input, scalar⟩)

end CandidateShuffleTranscript

/-! ## Runs -/

/-- What was pushed. -/
inductive TranscriptEvent where
  | label (label : List UInt8)
  | bytes (bytes : List UInt8)
  | challenge (label : List UInt8) (index : ℕ) (scalar : FixedBytes 32)
  deriving DecidableEq

/-- The value of an event. -/
def TranscriptEvent.value : TranscriptEvent → CborValue
  | .label captured => .array [.int 0, .bytes captured]
  | .bytes captured => .array [.int 1, .bytes captured]
  | .challenge capturedLabel index scalar =>
      .array [.int 2, .bytes capturedLabel, .int index, .bytes scalar.val]

/-- A call on a transcript; a reader is named by when it was opened. -/
inductive TranscriptCall where
  | label (label : List UInt8)
  | appendPublicBytes (bytes : List UInt8)
  | challenge (label : List UInt8)
  | read (reader : ℕ)
  deriving DecidableEq

/-- What a call returned. -/
inductive TranscriptOutcome where
  | pushed (event : TranscriptEvent)
  | opened
  | challenged (challenge : CandidateShuffleChallenge) (event : TranscriptEvent)
  | thrown (error : ShuffleTranscriptError)
  /-- there is no such reader -/
  | absent
  deriving DecidableEq

/-- A transcript with the readers that were opened on it. -/
structure TranscriptState where
  transcript : CandidateShuffleTranscript
  readers : List ChallengeReader
  deriving DecidableEq

/-- The event that a call pushed. -/
def TranscriptOutcome.event : TranscriptOutcome → Option TranscriptEvent
  | .pushed event => some event
  | .challenged _ event => some event
  | .opened | .thrown _ | .absent => none

section

variable (scalarOf : List UInt8 → FixedBytes 32)

/-- One call. -/
def TranscriptState.step (s : TranscriptState) :
    TranscriptCall → TranscriptState × TranscriptOutcome
  | .label label =>
      match s.transcript.label label with
      | .ok next => ({ s with transcript := next }, .pushed (.label label))
      | .error error => (s, .thrown error)
  | .appendPublicBytes bytes =>
      match s.transcript.appendPublicBytes bytes with
      | .ok next => ({ s with transcript := next }, .pushed (.bytes bytes))
      | .error error => (s, .thrown error)
  | .challenge label =>
      match s.transcript.challenge label with
      | .ok reader => ({ s with readers := s.readers ++ [reader] }, .opened)
      | .error error => (s, .thrown error)
  | .read position =>
      match s.readers[position]? with
      | none => (s, .absent)
      | some reader =>
          match s.transcript.read scalarOf reader with
          | .ok (next, reader', challenge) => (⟨next, s.readers.set position reader'⟩,
              .challenged challenge
                (.challenge reader.capturedLabel reader.index challenge.scalar))
          | .error error => (s, .thrown error)

/-- The state after some calls. -/
def TranscriptState.run (s : TranscriptState) (calls : List TranscriptCall) : TranscriptState :=
  calls.foldl (fun s call => (s.step scalarOf call).1) s

/-- The events that these calls pushed, in order. -/
def TranscriptState.history (s : TranscriptState) : List TranscriptCall → List TranscriptEvent
  | [] => []
  | call :: calls =>
      (s.step scalarOf call).2.event.toList ++ (s.step scalarOf call).1.history calls

end

/-! ## What a call does -/

theorem TranscriptEvent.value_inj {event event' : TranscriptEvent} (h : event.value = event'.value) :
    event = event' := by
  cases event with
  | label captured =>
      cases event' with
      | label captured' => simpa [TranscriptEvent.value] using h
      | bytes captured' => simp [TranscriptEvent.value] at h
      | challenge label index scalar => simp [TranscriptEvent.value] at h
  | bytes captured =>
      cases event' with
      | label captured' => simp [TranscriptEvent.value] at h
      | bytes captured' => simpa [TranscriptEvent.value] using h
      | challenge label index scalar => simp [TranscriptEvent.value] at h
  | challenge label index scalar =>
      cases event' with
      | label captured' => simp [TranscriptEvent.value] at h
      | bytes captured' => simp [TranscriptEvent.value] at h
      | challenge label' index' scalar' =>
          simp only [TranscriptEvent.value, CborValue.array.injEq, List.cons.injEq, true_and,
            and_true, CborValue.bytes.injEq] at h
          obtain ⟨rfl, hindex, hscalar⟩ := h
          obtain rfl := natCast_int_inj hindex
          obtain rfl : scalar = scalar' := Subtype.ext hscalar
          rfl

/-- An event was pushed, within the bounds. -/
structure Pushed (t next : CandidateShuffleTranscript) (event : TranscriptEvent) : Prop where
  root : next.root = t.root
  context : next.context = t.context
  events : next.events = t.events ++ [event.value]
  eventBytes : next.eventBytes = t.eventBytes + event.value.encodedLength
  length_lt : t.events.length < 128
  bytes_le : next.eventBytes ≤ 32768

theorem push_eq_ok {t next : CandidateShuffleTranscript} {event : TranscriptEvent}
    (h : t.push event.value = .ok next) : Pushed t next event := by
  obtain ⟨encoded, hencoded, h⟩ := bind_eq_ok.1 h
  obtain ⟨hbound, h⟩ := check_bind_eq_ok.1 h
  rw [throwIf_eq_ok, not_or, not_le, not_lt] at hbound
  cases h
  have hlength : encoded.length = event.value.encodedLength := by
    obtain ⟨rfl, -⟩ := encodeCanonicalBytes_eq_ok (encodeField_eq_ok.1 (mapError_eq_ok.1 hencoded))
    exact length_encoded _
  exact ⟨rfl, rfl, rfl, congrArg (t.eventBytes + ·) hlength, hbound.1, hbound.2⟩

theorem capture_eq_ok {bytes captured : List UInt8} {min max : ℕ}
    (h : capture bytes min max = .ok captured) : captured = bytes := by
  obtain ⟨-, h⟩ := check_bind_eq_ok.1 h
  cases h
  rfl

theorem label_eq_ok {t next : CandidateShuffleTranscript} {label : List UInt8}
    (h : t.label label = .ok next) : Pushed t next (.label label) := by
  obtain ⟨captured, hcaptured, hpush⟩ := bind_eq_ok.1 h
  obtain rfl := capture_eq_ok hcaptured
  exact push_eq_ok hpush

theorem appendPublicBytes_eq_ok {t next : CandidateShuffleTranscript} {bytes : List UInt8}
    (h : t.appendPublicBytes bytes = .ok next) : Pushed t next (.bytes bytes) := by
  obtain ⟨captured, hcaptured, hpush⟩ := bind_eq_ok.1 h
  obtain rfl := capture_eq_ok hcaptured
  exact push_eq_ok hpush

variable {scalarOf : List UInt8 → FixedBytes 32}

/-- What a reader that is not stale returns. -/
theorem read_eq_ok {t next : CandidateShuffleTranscript} {reader reader' : ChallengeReader}
    {challenge : CandidateShuffleChallenge}
    (h : t.read scalarOf reader = .ok (next, reader', challenge)) :
    reader.expectedLength = t.events.length ∧
      proofChallengeInput .shuffle t.context (t.statement reader) = .ok challenge.input ∧
      Pushed t next (.challenge reader.capturedLabel reader.index challenge.scalar) ∧
      reader' = ⟨reader.capturedLabel, reader.index + 1, reader.expectedLength + 1⟩ := by
  obtain ⟨hstale, h⟩ := check_bind_eq_ok.1 h
  obtain ⟨-, h⟩ := check_bind_eq_ok.1 h
  obtain ⟨input, hinput, h⟩ := bind_eq_ok.1 h
  obtain ⟨pushed, hpushed, h⟩ := bind_eq_ok.1 h
  cases h
  rw [throwIf_eq_ok, not_not] at hstale
  exact ⟨hstale, mapError_eq_ok.1 hinput, push_eq_ok hpushed, rfl⟩

namespace TranscriptState

variable (scalarOf) in
/-- A call pushes an event, or leaves the events as they are. -/
theorem step_cases (s : TranscriptState) (call : TranscriptCall) :
    (∃ event, (s.step scalarOf call).2.event = some event ∧
      Pushed s.transcript (s.step scalarOf call).1.transcript event) ∨
    (s.step scalarOf call).2.event = none ∧
      (s.step scalarOf call).1.transcript = s.transcript := by
  cases call with
  | label label =>
      simp only [step]
      cases hnext : s.transcript.label label with
      | ok next => exact .inl ⟨_, rfl, label_eq_ok hnext⟩
      | error error => exact .inr ⟨rfl, rfl⟩
  | appendPublicBytes bytes =>
      simp only [step]
      cases hnext : s.transcript.appendPublicBytes bytes with
      | ok next => exact .inl ⟨_, rfl, appendPublicBytes_eq_ok hnext⟩
      | error error => exact .inr ⟨rfl, rfl⟩
  | challenge label =>
      simp only [step]
      cases hnext : s.transcript.challenge label with
      | ok reader => exact .inr ⟨rfl, rfl⟩
      | error error => exact .inr ⟨rfl, rfl⟩
  | read position =>
      simp only [step]
      cases hreader : s.readers[position]? with
      | none => exact .inr ⟨rfl, rfl⟩
      | some reader =>
          cases hnext : s.transcript.read scalarOf reader with
          | ok next =>
              obtain ⟨next, reader', challenge⟩ := next
              simp only [hnext]
              exact .inl ⟨_, rfl, (read_eq_ok hnext).2.2.1⟩
          | error error =>
              simp only [hnext]
              exact .inr ⟨rfl, trivial⟩

/-- A call that throws leaves everything as it is. -/
theorem step_thrown {s : TranscriptState} {call : TranscriptCall} {error : ShuffleTranscriptError}
    (h : (s.step scalarOf call).2 = .thrown error) : (s.step scalarOf call).1 = s := by
  cases call with
  | label label =>
      simp only [step] at h ⊢
      cases hnext : s.transcript.label label with
      | ok next => simp [hnext] at h
      | error error => rfl
  | appendPublicBytes bytes =>
      simp only [step] at h ⊢
      cases hnext : s.transcript.appendPublicBytes bytes with
      | ok next => simp [hnext] at h
      | error error => rfl
  | challenge label =>
      simp only [step] at h ⊢
      cases hnext : s.transcript.challenge label with
      | ok reader => simp [hnext] at h
      | error error => rfl
  | read position =>
      simp only [step] at h ⊢
      cases hreader : s.readers[position]? with
      | none => simp [hreader] at h
      | some reader =>
          cases hnext : s.transcript.read scalarOf reader with
          | ok next => simp [hreader, hnext] at h
          | error error => simp only [hnext]

/-- What a challenge was read from. -/
theorem step_challenged {s : TranscriptState} {position : ℕ}
    {challenge : CandidateShuffleChallenge} {event : TranscriptEvent}
    (h : (s.step scalarOf (.read position)).2 = .challenged challenge event) :
    ∃ reader, s.readers[position]? = some reader ∧
      proofChallengeInput .shuffle s.transcript.context (s.transcript.statement reader)
        = .ok challenge.input ∧
      event = .challenge reader.capturedLabel reader.index challenge.scalar := by
  simp only [step] at h
  cases hreader : s.readers[position]? with
  | none => simp [hreader] at h
  | some reader =>
      cases hnext : s.transcript.read scalarOf reader with
      | ok next =>
          obtain ⟨next, reader', challenge'⟩ := next
          simp only [hreader, hnext, TranscriptOutcome.challenged.injEq] at h
          obtain ⟨rfl, rfl⟩ := h
          exact ⟨reader, rfl, (read_eq_ok hnext).2.1, rfl⟩
      | error error => simp [hreader, hnext] at h

/-! ## The history of a run -/

variable (scalarOf) in
/-- The events of a run are those of the calls that returned. -/
theorem run_events (s : TranscriptState) (calls : List TranscriptCall) :
    (s.run scalarOf calls).transcript.events =
        s.transcript.events ++ (s.history scalarOf calls).map TranscriptEvent.value ∧
      (s.run scalarOf calls).transcript.root = s.transcript.root ∧
      (s.run scalarOf calls).transcript.context = s.transcript.context := by
  induction calls generalizing s with
  | nil => exact ⟨(List.append_nil _).symm, rfl, rfl⟩
  | cons call calls ih =>
      obtain ⟨hevents, hroot, hcontext⟩ := ih (s.step scalarOf call).1
      have hrun : s.run scalarOf (call :: calls) = (s.step scalarOf call).1.run scalarOf calls := rfl
      rw [hrun, hevents, hroot, hcontext, history]
      rcases s.step_cases scalarOf call with ⟨event, hevent, hpushed⟩ | ⟨hevent, hsame⟩
      · rw [hpushed.events, hpushed.root, hpushed.context, hevent]
        simp
      · rw [hsame, hevent]
        simp

/-- The bounds on the events, and their bytes. -/
structure Bounded (t : CandidateShuffleTranscript) : Prop where
  length_le : t.events.length ≤ 128
  bytes_le : t.eventBytes ≤ 32768
  eventBytes : t.eventBytes = itemsLength t.events

theorem itemsLength_snoc (items : List CborValue) (item : CborValue) :
    itemsLength (items ++ [item]) = itemsLength items + item.encodedLength := by
  induction items with
  | nil => simp [itemsLength]
  | cons first rest ih =>
      rw [List.cons_append, itemsLength, itemsLength, ih]
      omega

variable (scalarOf) in
theorem Bounded.step {s : TranscriptState} (h : Bounded s.transcript) (call : TranscriptCall) :
    Bounded (s.step scalarOf call).1.transcript := by
  rcases s.step_cases scalarOf call with ⟨event, -, hpushed⟩ | ⟨-, hsame⟩
  · refine ⟨?_, hpushed.bytes_le, ?_⟩
    · rw [hpushed.events, List.length_append, List.length_singleton]
      exact hpushed.length_lt
    · rw [hpushed.eventBytes, hpushed.events, itemsLength_snoc, h.eventBytes]
  · rw [hsame]
    exact h

variable (scalarOf) in
theorem Bounded.run {s : TranscriptState} (h : Bounded s.transcript) (calls : List TranscriptCall) :
    Bounded (s.run scalarOf calls).transcript := by
  induction calls generalizing s with
  | nil => exact h
  | cons call calls ih => exact ih (h.step scalarOf call)

/-! ## Stale readers -/

/-- Since the reader was opened or last read, another event was pushed. -/
def Stale (s : TranscriptState) (position : ℕ) : Prop :=
  ∃ reader, s.readers[position]? = some reader ∧
    reader.expectedLength < s.transcript.events.length

/-- No reader expects more events than there are. -/
def Timely (s : TranscriptState) : Prop :=
  ∀ (position : ℕ) (reader : ChallengeReader), s.readers[position]? = some reader →
    reader.expectedLength ≤ s.transcript.events.length

theorem Stale.read {s : TranscriptState} {position : ℕ} (h : s.Stale position) :
    s.step scalarOf (.read position) = (s, .thrown (.error "Stale challenge reader")) := by
  obtain ⟨reader, hreader, hlt⟩ := h
  have hread : s.transcript.read scalarOf reader = .error (.error "Stale challenge reader") := by
    unfold CandidateShuffleTranscript.read
    rw [throwIf_pos (Nat.ne_of_lt hlt)]
    rfl
  simp only [step, hreader, hread]

/-- The other readers stay where they are. -/
theorem step_readers {s : TranscriptState} {call : TranscriptCall} {position : ℕ}
    {reader : ChallengeReader} (hcall : call ≠ .read position)
    (h : s.readers[position]? = some reader) :
    (s.step scalarOf call).1.readers[position]? = some reader := by
  cases call with
  | label label =>
      simp only [step]
      cases s.transcript.label label with
      | ok next => exact h
      | error error => exact h
  | appendPublicBytes bytes =>
      simp only [step]
      cases s.transcript.appendPublicBytes bytes with
      | ok next => exact h
      | error error => exact h
  | challenge label =>
      simp only [step]
      cases s.transcript.challenge label with
      | ok opened =>
          exact (List.getElem?_append_left (List.getElem?_eq_some_iff.1 h).1).trans h
      | error error => exact h
  | read other =>
      have hne : other ≠ position := fun heq => hcall (heq ▸ rfl)
      simp only [step]
      cases s.readers[other]? with
      | none => exact h
      | some reader' =>
          simp only
          cases s.transcript.read scalarOf reader' with
          | ok next => exact (List.getElem?_set_ne hne).trans h
          | error error => exact h

variable (scalarOf) in
theorem step_length (s : TranscriptState) (call : TranscriptCall) :
    s.transcript.events.length ≤ (s.step scalarOf call).1.transcript.events.length := by
  rcases s.step_cases scalarOf call with ⟨event, -, hpushed⟩ | ⟨-, hsame⟩
  · rw [hpushed.events, List.length_append]
    exact Nat.le_add_right _ _
  · rw [hsame]

variable (scalarOf) in
/-- A stale reader stays stale. -/
theorem Stale.step {s : TranscriptState} {position : ℕ} (h : s.Stale position)
    (call : TranscriptCall) : (s.step scalarOf call).1.Stale position := by
  by_cases hcall : call = .read position
  · rw [hcall, h.read]
    exact h
  · obtain ⟨reader, hreader, hlt⟩ := h
    exact ⟨reader, step_readers hcall hreader, hlt.trans_le (step_length scalarOf s call)⟩

variable (scalarOf) in
theorem Stale.run {s : TranscriptState} {position : ℕ} (h : s.Stale position)
    (calls : List TranscriptCall) : (s.run scalarOf calls).Stale position := by
  induction calls generalizing s with
  | nil => exact h
  | cons call calls ih => exact ih (h.step scalarOf call)

variable (scalarOf) in
theorem Timely.step {s : TranscriptState} (h : s.Timely) (call : TranscriptCall) :
    (s.step scalarOf call).1.Timely := by
  intro position reader hreader
  cases call with
  | label label =>
      have hlength := step_length scalarOf s (.label label)
      simp only [TranscriptState.step] at hreader hlength ⊢
      cases hnext : s.transcript.label label with
      | ok next =>
          rw [hnext] at hreader hlength
          exact (h position reader hreader).trans hlength
      | error error =>
          rw [hnext] at hreader
          exact h position reader hreader
  | appendPublicBytes bytes =>
      have hlength := step_length scalarOf s (.appendPublicBytes bytes)
      simp only [TranscriptState.step] at hreader hlength ⊢
      cases hnext : s.transcript.appendPublicBytes bytes with
      | ok next =>
          rw [hnext] at hreader hlength
          exact (h position reader hreader).trans hlength
      | error error =>
          rw [hnext] at hreader
          exact h position reader hreader
  | challenge label =>
      simp only [TranscriptState.step] at hreader ⊢
      cases hnext : s.transcript.challenge label with
      | ok opened =>
          rw [hnext] at hreader
          simp only [List.getElem?_append] at hreader ⊢
          split at hreader
          · exact h position reader hreader
          · obtain ⟨captured, -, hopened⟩ := bind_eq_ok.1 hnext
            cases hopened
            obtain ⟨_, hlast⟩ := List.getElem?_eq_some_iff.1 hreader
            rw [List.getElem_singleton] at hlast
            rw [← hlast]
      | error error =>
          rw [hnext] at hreader
          exact h position reader hreader
  | read other =>
      simp only [TranscriptState.step] at hreader ⊢
      cases hopen : s.readers[other]? with
      | none =>
          rw [hopen] at hreader
          exact h position reader hreader
      | some given =>
          simp only [hopen] at hreader ⊢
          cases hnext : s.transcript.read scalarOf given with
          | ok next =>
              obtain ⟨next, reader', challenge⟩ := next
              obtain ⟨hexpected, -, hpushed, rfl⟩ := read_eq_ok hnext
              simp only [hnext, List.getElem?_set] at hreader ⊢
              rw [hpushed.events, List.length_append, List.length_singleton]
              split at hreader
              · split at hreader
                · cases hreader
                  exact Nat.succ_le_succ hexpected.le
                · cases hreader
              · exact (h position reader hreader).trans (Nat.le_succ _)
          | error error =>
              simp only [hnext] at hreader ⊢
              exact h position reader hreader

variable (scalarOf) in
theorem Timely.run {s : TranscriptState} (h : s.Timely) (calls : List TranscriptCall) :
    (s.run scalarOf calls).Timely := by
  induction calls generalizing s with
  | nil => exact h
  | cons call calls ih => exact ih (h.step scalarOf call)

/-- A reader is stale once another call has pushed an event. -/
theorem Timely.stale {s : TranscriptState} (h : s.Timely) {call : TranscriptCall} {position : ℕ}
    {event : TranscriptEvent} (hopen : position < s.readers.length)
    (hcall : call ≠ .read position) (hevent : (s.step scalarOf call).2.event = some event) :
    (s.step scalarOf call).1.Stale position := by
  have hreader : s.readers[position]? = some s.readers[position] := List.getElem?_eq_getElem hopen
  refine ⟨_, step_readers hcall hreader, ?_⟩
  have hle := h position _ hreader
  rcases s.step_cases scalarOf call with ⟨_, -, hpushed⟩ | ⟨hnone, -⟩
  · rw [hpushed.events, List.length_append, List.length_singleton]
    omega
  · rw [hevent] at hnone
    cases hnone

end TranscriptState

/-! ## Challenges bind the history -/

/-- A new transcript, without readers. -/
def TranscriptState.start (root : List UInt8) (context : ProofContext) :
    Except ShuffleTranscriptError TranscriptState := do
  let transcript ← CandidateShuffleTranscript.create root context
  return ⟨transcript, []⟩

theorem start_eq_ok {root : List UInt8} {context : ProofContext} {s : TranscriptState}
    (h : TranscriptState.start root context = .ok s) : s = ⟨⟨root, context, [], 0⟩, []⟩ := by
  obtain ⟨transcript, hcreate, h⟩ := bind_eq_ok.1 h
  cases h
  obtain ⟨captured, hcaptured, hcreate⟩ := bind_eq_ok.1 hcreate
  obtain ⟨-, hcreate⟩ := check_bind_eq_ok.1 hcreate
  cases hcreate
  rw [capture_eq_ok hcaptured]

/-- Two challenges with the same statement. -/
theorem statement_inj {t t' : CandidateShuffleTranscript} {reader reader' : ChallengeReader}
    (h : t.statement reader = t'.statement reader') :
    t.root = t'.root ∧ t.events = t'.events ∧ reader.capturedLabel = reader'.capturedLabel ∧
      reader.index = reader'.index := by
  simp only [CandidateShuffleTranscript.statement, CborValue.array.injEq, List.cons.injEq, true_and,
    and_true, CborValue.bytes.injEq] at h
  obtain ⟨hroot, hevents, hlabel, hindex⟩ := h
  exact ⟨hroot, hevents, hlabel, natCast_int_inj hindex⟩

theorem map_value_inj {history history' : List TranscriptEvent}
    (h : history.map TranscriptEvent.value = history'.map TranscriptEvent.value) :
    history = history' :=
  List.map_injective_iff.2 (fun _ _ => TranscriptEvent.value_inj) h

/-- What a challenge was read from is determined by its input. -/
theorem challenge_binds {root root' : List UInt8} {context context' : ProofContext}
    {s s' : TranscriptState} {calls calls' : List TranscriptCall} {position position' : ℕ}
    {challenge challenge' : CandidateShuffleChallenge} {event event' : TranscriptEvent}
    (hstart : TranscriptState.start root context = .ok s)
    (hstart' : TranscriptState.start root' context' = .ok s')
    (h : ((s.run scalarOf calls).step scalarOf (.read position)).2 = .challenged challenge event)
    (h' : ((s'.run scalarOf calls').step scalarOf (.read position')).2
      = .challenged challenge' event')
    (hinput : challenge.input = challenge'.input) :
    root = root' ∧ context = context' ∧
      s.history scalarOf calls = s'.history scalarOf calls' ∧
      ∃ label index, event = .challenge label index challenge.scalar ∧
        event' = .challenge label index challenge'.scalar := by
  obtain rfl := start_eq_ok hstart
  obtain rfl := start_eq_ok hstart'
  obtain ⟨reader, -, hproof, rfl⟩ := TranscriptState.step_challenged h
  obtain ⟨reader', -, hproof', rfl⟩ := TranscriptState.step_challenged h'
  obtain ⟨hevents, hroot, hcontext⟩ :=
    TranscriptState.run_events scalarOf ⟨⟨root, context, [], 0⟩, []⟩ calls
  obtain ⟨hevents', hroot', hcontext'⟩ :=
    TranscriptState.run_events scalarOf ⟨⟨root', context', [], 0⟩, []⟩ calls'
  rw [hinput] at hproof
  have hsame : HashInput.proof .shuffle _ _ = .proof .shuffle _ _ :=
    HashInput.eq_of_bytes hproof hproof'
  rw [HashInput.proof.injEq] at hsame
  obtain ⟨-, hsameContext, hstatement⟩ := hsame
  obtain ⟨hsameRoot, hsameEvents, hlabel, hindex⟩ := statement_inj hstatement
  rw [hevents, hevents'] at hsameEvents
  rw [hroot, hroot'] at hsameRoot
  rw [hcontext, hcontext'] at hsameContext
  refine ⟨hsameRoot, hsameContext, map_value_inj hsameEvents, _, _, rfl, ?_⟩
  rw [hlabel, hindex]

/-- **The transcript binds its whole history.**  Two challenges with the same input, in any two
runs, have the same root, context and earlier events, and the same label and index.  A reader that
another event has made stale never produces a challenge again.  A call that throws leaves
everything as it is, and there are never more than 128 events or 32768 bytes of them. -/
theorem transcript_binds_history (scalarOf : List UInt8 → FixedBytes 32) :
    (∀ {root root' context context' s s' calls calls' position position' challenge challenge'
        event event'},
      TranscriptState.start root context = .ok s → TranscriptState.start root' context' = .ok s' →
      ((s.run scalarOf calls).step scalarOf (.read position)).2 = .challenged challenge event →
      ((s'.run scalarOf calls').step scalarOf (.read position')).2 = .challenged challenge' event' →
      challenge.input = challenge'.input →
      root = root' ∧ context = context' ∧
        s.history scalarOf calls = s'.history scalarOf calls' ∧
        ∃ label index, event = .challenge label index challenge.scalar ∧
          event' = .challenge label index challenge'.scalar) ∧
    (∀ {root context s calls call position event later challenge event'},
      TranscriptState.start root context = .ok s →
      position < (s.run scalarOf calls).readers.length → call ≠ .read position →
      ((s.run scalarOf calls).step scalarOf call).2.event = some event →
      ((((s.run scalarOf calls).step scalarOf call).1.run scalarOf later).step scalarOf
        (.read position)).2 ≠ .challenged challenge event') ∧
    ∀ {root context s calls}, TranscriptState.start root context = .ok s →
      (∀ {call error}, ((s.run scalarOf calls).step scalarOf call).2 = .thrown error →
        ((s.run scalarOf calls).step scalarOf call).1 = s.run scalarOf calls) ∧
      (s.run scalarOf calls).transcript.events = (s.history scalarOf calls).map TranscriptEvent.value ∧
      (s.run scalarOf calls).transcript.events.length ≤ 128 ∧
      itemsLength (s.run scalarOf calls).transcript.events ≤ 32768 := by
  refine ⟨fun hstart hstart' h h' hinput => challenge_binds hstart hstart' h h' hinput,
    fun {root context s calls call position _ later _ _} hstart hopen hcall hevent => ?_,
    fun {root context s calls} hstart => ?_⟩
  · obtain rfl := start_eq_ok hstart
    have hnew : TranscriptState.Timely ⟨⟨root, context, [], 0⟩, []⟩ := by
      intro position reader hreader
      cases hreader
    have htimely := hnew.run scalarOf calls
    have hstale := (htimely.stale hopen hcall hevent).run scalarOf later
    rw [hstale.read]
    exact fun hread => by cases hread
  · obtain rfl := start_eq_ok hstart
    have hnew : TranscriptState.Bounded ⟨root, context, [], 0⟩ :=
      ⟨Nat.zero_le _, Nat.zero_le _, rfl⟩
    have hbounded := TranscriptState.Bounded.run scalarOf (s := ⟨_, []⟩) hnew calls
    exact ⟨TranscriptState.step_thrown, (TranscriptState.run_events scalarOf _ calls).1, hbounded.length_le,
      hbounded.eventBytes ▸ hbounded.bytes_le⟩

end Tablefolk
