import Tablefolk.Lib.Hoare
import Tablefolk.Protocol.EnvelopeBytes
import Tablefolk.Storage.AuthoredLog

/-!
# Replaying authored history

The model of `session/authored-history.ts`.

The store, the callback and the signal answer as they like: an answer may depend on how many
questions were asked before it, so it may change from one pass to the next.

* `verifyPage_eq_ok`: what a page that verifies holds.
* `verifySuffix_spec`, `readFragments_spec`, `sendPage_spec`, `sendPages_spec`: what the loops keep.
* `authored_replay_sends_suffix`: what a replay sends, however it ends.
-/

namespace Tablefolk

def MAX_AUTHORED_HISTORY_PAGE_ENVELOPES : ℕ := 128

/-- `canonicalBytes` of a candidate; `none` when it is not a `Uint8Array`. -/
abbrev CandidateBytes := Option (List UInt8)

/-- The store, the callback `send` and the signal.  Every question has a number, and a promise that
rejects is an error. -/
structure ReplayWorld where
  aborted : ℕ → Bool
  readAuthoredHead : ℕ → Except String (Option CandidateBytes)
  readAuthoredPage : ℕ → ℕ → ℕ → Except String (List CandidateBytes)
  send : ℕ → List UInt8 → Except String Unit

/-- `stage`. -/
inductive ReplayStage where
  | head | verify | send
  deriving DecidableEq, Repr

/-- An error that a replay catches. -/
inductive ReplayError where
  | message (text : String)
  | envelope (error : EnvelopeError)

/-- What ends a replay before its end; a loop that does not end in time is out of fuel. -/
inductive ReplayStop where
  | cancelled
  | failed (error : ReplayError)
  | outOfFuel

/-- The variables of `replayAuthoredHistory`, the number of the next question, and what `send` has
been called with. -/
structure AuthoredReplay where
  clock : ℕ
  checkpoint : Option ChainHead
  submittedCount : ℕ
  submittedBytes : ℕ
  stage : ReplayStage
  sent : List EnvelopeArtifact

/-- `VerifiedPage`. -/
structure VerifiedPage where
  fromSeq : ℕ
  toSeq : ℕ
  prev : Hash256
  hash : Hash256

/-- A call of `replayAuthoredHistory`. -/
structure ReplayCall where
  cbor : Cbor2
  ed : Ed25519
  hashEnvelope : List UInt8 → Hash256
  world : ReplayWorld
  game : GameId
  author : IdentityPublicKey
  maxEnvelopes : ℕ
  maxBytes : ℕ
  after : Option ChainHead

abbrev ReplayM := Prog AuthoredReplay ReplayStop

/-- The number of a question. -/
def askWorld : ReplayM ℕ := do
  let s ← Prog.read
  Prog.change fun s => { s with clock := s.clock + 1 }
  return s.clock

/-- What may throw. -/
def attempt {α : Type} (x : Except ReplayError α) : ReplayM α := Prog.lift (x.mapError .failed)

/-- The bytes of some artifacts. -/
def artifactBytes (artifacts : List EnvelopeArtifact) : ℕ :=
  (artifacts.map fun artifact => artifact.canonicalBytes.length).sum

/-- `requireBytes`. -/
def requireBytes (value : CandidateBytes) (limit : ℕ) : Except ReplayError (List UInt8) :=
  match value with
  | none => throw (.message "Authored history must contain canonical envelope bytes")
  | some bytes => do
      throwIf (limit < bytes.length) (.message "Authored history exceeds the byte limit")
      return bytes

/-- The first loop of `verifyPage`, which adds up the bytes. -/
def requireAllBytes (limit bytes : ℕ) : List CandidateBytes → Except ReplayError (List (List UInt8))
  | [] => return []
  | candidate :: rest => do
      let value ← requireBytes candidate (limit - bytes)
      let encoded ← requireAllBytes limit (bytes + value.length) rest
      return value :: encoded

namespace ReplayCall

variable (call : ReplayCall)

/-- `decodeAndVerifyEnvelope`. -/
def decode (bytes : List UInt8) : Except ReplayError EnvelopeArtifact :=
  (decodeAndVerifyEnvelopeBytes call.cbor call.ed call.hashEnvelope bytes).mapError .envelope

/-- `requireScope`. -/
def requireScope (artifact : EnvelopeArtifact) : Except ReplayError Unit :=
  throwIf (artifact.envelope.game ≠ call.game ∨ artifact.envelope.from_ ≠ call.author)
    (.message "Authored history belongs to another game or sender")

/-- The second loop of `verifyPage`, which decodes. -/
def verifyEncoded (seq : ℕ) (prev : Hash256) :
    List (List UInt8) → Except ReplayError (List EnvelopeArtifact)
  | [] => return []
  | value :: rest => do
      let artifact ← call.decode value
      call.requireScope artifact
      throwIf (artifact.envelope.seq ≠ seq ∨ artifact.envelope.prev ≠ prev)
        (.message "Authored history page has a gap or broken predecessor")
      let others ← verifyEncoded (seq + 1) artifact.hash rest
      return artifact :: others

/-- `verifyPage`. -/
def verifyPage (candidates : List CandidateBytes) (fromSeq toSeq : ℕ) (prev : Hash256)
    (remainingBytes : ℕ) : Except ReplayError (List EnvelopeArtifact) := do
  throwIf (candidates.length = 0 ∨ toSeq - fromSeq + 1 < candidates.length)
    (.message "Authored history page has an invalid envelope count")
  let encoded ← requireAllBytes (min MAX_AUTHORED_HISTORY_PAGE_BYTES remainingBytes) 0 candidates
  call.verifyEncoded fromSeq prev encoded

/-- Cancelled, if the signal is aborted. -/
def checkAborted : ReplayM Unit := do
  let now ← askWorld
  if call.world.aborted now then Prog.fail .cancelled else return ()

/-- `store.readAuthoredPage`. -/
def readAuthoredPage (fromSeq toSeq : ℕ) : ReplayM (List CandidateBytes) := do
  let now ← askWorld
  attempt ((call.world.readAuthoredPage now fromSeq toSeq).mapError .message)

/-- The checks of the page that holds the checkpoint `after`. -/
def checkAnchored (after : ChainHead) : List CandidateBytes → Except ReplayError Unit
  | [some bytes] => do
      let anchored ← call.decode bytes
      call.requireScope anchored
      throwIf (anchored.envelope.seq ≠ after.seq ∨ anchored.hash ≠ after.hash)
        (.message "Previously verified authored checkpoint changed")
  | [none] => throw (.envelope (malformed "Envelope decoding failed"))
  | _ => throw (.message "Previously verified authored checkpoint is missing")

/-- The part that looks for the checkpoint `after`. -/
def checkAnchor (checkpoint : ChainHead) : ReplayM Unit :=
  match call.after with
  | none => return ()
  | some after => do
      attempt (throwIf (checkpoint.seq < after.seq)
        (.message "Authored checkpoint is beyond the captured head"))
      let candidates ← call.readAuthoredPage after.seq after.seq
      call.checkAborted
      attempt (call.checkAnchored after candidates)

/-- The loop that verifies the unsent suffix, page by page. -/
def verifySuffix (checkpoint : ChainHead) :
    ℕ → ℕ → Hash256 → ℕ → List VerifiedPage → ReplayM (List VerifiedPage × Hash256)
  | 0, fromSeq, prev, _, pages =>
      if checkpoint.seq < fromSeq then return (pages, prev) else Prog.fail .outOfFuel
  | fuel + 1, fromSeq, prev, verifiedBytes, pages =>
      if checkpoint.seq < fromSeq then return (pages, prev)
      else do
        call.checkAborted
        let toSeq := fromSeq + min (checkpoint.seq - fromSeq)
          (MAX_AUTHORED_HISTORY_PAGE_ENVELOPES - 1)
        let candidates ← call.readAuthoredPage fromSeq toSeq
        call.checkAborted
        let page ← attempt (call.verifyPage candidates fromSeq toSeq prev
          (call.maxBytes - verifiedBytes))
        match page.getLast? with
        | none => Prog.fail (.failed (.message "A verified page is not empty"))
        | some last =>
            verifySuffix checkpoint fuel (last.envelope.seq + 1) last.hash
              (verifiedBytes + artifactBytes page)
              (pages ++ [⟨fromSeq, last.envelope.seq, prev, last.hash⟩])

/-- The loop that reads a verified page again, fragment by fragment. -/
def readFragments (expected : VerifiedPage) :
    ℕ → ℕ → Hash256 → ℕ → List EnvelopeArtifact → ReplayM (List EnvelopeArtifact × Hash256)
  | 0, from_, predecessor, _, page =>
      if expected.toSeq < from_ then return (page, predecessor) else Prog.fail .outOfFuel
  | fuel + 1, from_, predecessor, remainingBytes, page =>
      if expected.toSeq < from_ then return (page, predecessor)
      else do
        call.checkAborted
        let candidates ← call.readAuthoredPage from_ expected.toSeq
        call.checkAborted
        let fragment ← attempt (call.verifyPage candidates from_ expected.toSeq predecessor
          remainingBytes)
        match fragment.getLast? with
        | none => Prog.fail (.failed (.message "A verified page is not empty"))
        | some last =>
            readFragments expected fuel (last.envelope.seq + 1) last.hash
              (remainingBytes - artifactBytes fragment) (page ++ fragment)

/-- The loop that sends a page. -/
def sendPage : List EnvelopeArtifact → ReplayM Unit
  | [] => return ()
  | artifact :: rest => do
      call.checkAborted
      Prog.change fun s => { s with sent := s.sent ++ [artifact] }
      let now ← askWorld
      attempt ((call.world.send now artifact.canonicalBytes).mapError .message)
      Prog.change fun s => { s with
        submittedCount := s.submittedCount + 1
        submittedBytes := s.submittedBytes + artifact.canonicalBytes.length }
      sendPage rest

/-- The loop over the verified pages. -/
def sendPages : List VerifiedPage → ReplayM Unit
  | [] => return ()
  | expected :: rest => do
      let s ← Prog.read
      let (page, predecessor) ← call.readFragments expected (expected.toSeq + 1 - expected.fromSeq)
        expected.fromSeq expected.prev
        (min MAX_AUTHORED_HISTORY_PAGE_BYTES (call.maxBytes - s.submittedBytes)) []
      attempt (throwIf (predecessor ≠ expected.hash)
        (.message "Authored replay page changed after verification"))
      call.sendPage page
      sendPages rest

/-- The first sequence number that may be sent. -/
def startSeq : ℕ :=
  match call.after with
  | none => 0
  | some after => after.seq + 1

/-- What the first envelope that is sent must name. -/
def startHash : Hash256 := (call.after.map ChainHead.hash).getD ZERO_HASH

/-- The part after the head has been read. -/
def replayCaptured (checkpoint : ChainHead) : ReplayM Unit := do
  Prog.change fun s => { s with checkpoint := some checkpoint, stage := .verify }
  call.checkAnchor checkpoint
  let (pages, prev) ← call.verifySuffix checkpoint (checkpoint.seq + 1 - call.startSeq)
    call.startSeq call.startHash 0 []
  attempt (throwIf (prev ≠ checkpoint.hash)
    (.message "Authored history does not reach the captured checkpoint"))
  Prog.change fun s => { s with stage := .send }
  call.sendPages pages
  call.checkAborted

/-- The checks of the head that the store has returned. -/
def captureHead (candidate : CandidateBytes) : Except ReplayError ChainHead := do
  let headBytes ← requireBytes candidate (min MAX_AUTHORED_HISTORY_PAGE_BYTES call.maxBytes)
  let head ← call.decode headBytes
  call.requireScope head
  throwIf (call.maxEnvelopes ≤ head.envelope.seq)
    (.message "Authored replay exceeds the envelope limit")
  return ⟨call.author, head.envelope.seq, head.hash⟩

/-- The `try` block of `replayAuthoredHistory`. -/
def replay : ReplayM Unit := do
  call.checkAborted
  let now ← askWorld
  let candidate ← attempt ((call.world.readAuthoredHead now).mapError .message)
  call.checkAborted
  match candidate with
  | none => attempt (throwIf (call.after ≠ none)
      (.message "Previously verified authored checkpoint has no stored head"))
  | some candidate => do
      let checkpoint ← attempt (call.captureHead candidate)
      call.replayCaptured checkpoint

/-- Where a replay starts. -/
def initial : AuthoredReplay := ⟨0, none, 0, 0, .head, []⟩

end ReplayCall

/-- `status`, with the stage and the error of a failure. -/
inductive ReplayStatus where
  | replayed
  | cancelled
  | failed (stage : ReplayStage) (error : ReplayError)
  | diverged

/-- `AuthoredHistoryReplayResult`, and what `send` was called with. -/
structure AuthoredHistoryReplayResult where
  status : ReplayStatus
  checkpoint : Option ChainHead
  submittedCount : ℕ
  submittedBytes : ℕ
  sent : List EnvelopeArtifact

/-- What a replay returns when it has ended. -/
def ReplayCall.result : Except ReplayStop Unit × AuthoredReplay → AuthoredHistoryReplayResult
  | (outcome, s) =>
      let status := match outcome with
        | .ok () => .replayed
        | .error .cancelled => .cancelled
        | .error (.failed error) => .failed s.stage error
        | .error .outOfFuel => .diverged
      ⟨status, s.checkpoint, s.submittedCount, s.submittedBytes, s.sent⟩

namespace ReplayCall

variable {call : ReplayCall} {checkpoint : ChainHead}

/-- The artifact is an envelope of the author in the game, and decodes from its bytes. -/
def Valid (call : ReplayCall) (artifact : EnvelopeArtifact) : Prop :=
  call.decode artifact.canonicalBytes = .ok artifact ∧ artifact.envelope.game = call.game ∧
    artifact.envelope.from_ = call.author

/-- Valid artifacts, numbered from `seq` on, each naming the one before. -/
def Continues (call : ReplayCall) : ℕ → Hash256 → List EnvelopeArtifact → Prop
  | _, _, [] => True
  | seq, prev, artifact :: rest =>
      call.Valid artifact ∧ artifact.envelope.seq = seq ∧ artifact.envelope.prev = prev ∧
        Continues call (seq + 1) artifact.hash rest

/-- The hash that the next envelope names. -/
def lastHash (prev : Hash256) (artifacts : List EnvelopeArtifact) : Hash256 :=
  (artifacts.getLast?.map EnvelopeArtifact.hash).getD prev

theorem lastHash_cons (prev : Hash256) (artifact : EnvelopeArtifact)
    (rest : List EnvelopeArtifact) :
    lastHash prev (artifact :: rest) = lastHash artifact.hash rest := by
  cases rest with
  | nil => rfl
  | cons next others => simp [lastHash, List.getLast?_cons]

theorem continues_append {seq : ℕ} {prev : Hash256} {left right : List EnvelopeArtifact} :
    call.Continues seq prev (left ++ right) ↔ call.Continues seq prev left ∧
      call.Continues (seq + left.length) (lastHash prev left) right := by
  induction left generalizing seq prev with
  | nil => simp [Continues, lastHash]
  | cons artifact rest ih =>
      rw [List.cons_append, Continues, Continues, ih, lastHash_cons, List.length_cons,
        Nat.add_right_comm seq 1, Nat.add_assoc seq]
      simp only [and_assoc]

/-- The numbers of a run. -/
theorem Continues.getElem? {seq : ℕ} {prev : Hash256} {artifacts : List EnvelopeArtifact} {i : ℕ}
    {artifact : EnvelopeArtifact} (h : call.Continues seq prev artifacts)
    (hi : artifacts[i]? = some artifact) :
    call.Valid artifact ∧ artifact.envelope.seq = seq + i := by
  induction artifacts generalizing seq prev i with
  | nil => cases hi
  | cons first rest ih =>
      obtain ⟨hvalid, hseq, -, hrest⟩ := h
      cases i with
      | zero =>
          cases hi
          exact ⟨hvalid, hseq⟩
      | succ i =>
          obtain ⟨hvalid', hseq'⟩ := ih hrest hi
          exact ⟨hvalid', by omega⟩

theorem artifactBytes_append (left right : List EnvelopeArtifact) :
    artifactBytes (left ++ right) = artifactBytes left + artifactBytes right := by
  simp [artifactBytes]

/-! ## A page -/

/-- What the store answers when it is asked for its head, after the signal was asked once. -/
def headAnswer (call : ReplayCall) : Except String (Option CandidateBytes) :=
  call.world.readAuthoredHead 1

/-- The head is the one that the store has returned. -/
def Captured (call : ReplayCall) (head : ChainHead) : Prop :=
  ∃ bytes artifact, call.headAnswer = .ok (some (some bytes)) ∧
    call.decode bytes = .ok artifact ∧ artifact.envelope.seq < call.maxEnvelopes ∧
    head = ⟨call.author, artifact.envelope.seq, artifact.hash⟩

/-- What holds of a replay, however far it has come. -/
structure Sound (call : ReplayCall) (s : AuthoredReplay) : Prop where
  run : call.Continues call.startSeq call.startHash s.sent
  captured : ∀ head, s.checkpoint = some head → call.Captured head
  within : ∀ artifact ∈ s.sent, ∃ head, s.checkpoint = some head ∧ artifact.envelope.seq ≤ head.seq
  early : s.stage ≠ .send → s.sent = []
  count : s.submittedCount ≤ s.sent.length
  count_le : s.sent.length ≤ call.maxEnvelopes
  bytes : s.submittedBytes ≤ artifactBytes s.sent
  bytes_le : artifactBytes s.sent ≤ call.maxBytes

/-- How a replay may end early. -/
def Ended (call : ReplayCall) (stop : ReplayStop) (s : AuthoredReplay) : Prop :=
  call.Sound s ∧ stop ≠ .outOfFuel

/-- Nothing has been sent yet. -/
structure Quiet (call : ReplayCall) (checkpoint : Option ChainHead) (s : AuthoredReplay) : Prop where
  checkpoint_eq : s.checkpoint = checkpoint
  captured : ∀ head, checkpoint = some head → call.Captured head
  sent_eq : s.sent = []
  count : s.submittedCount = 0
  bytes : s.submittedBytes = 0

/-- The artifacts that may have been sent when the head was this one. -/
structure Sendable (call : ReplayCall) (checkpoint : ChainHead) (sent : List EnvelopeArtifact) :
    Prop where
  run : call.Continues call.startSeq call.startHash sent
  within : call.startSeq + sent.length ≤ checkpoint.seq + 1
  bytes : artifactBytes sent ≤ call.maxBytes

/-- `sent` has been handed to `send`, and `done` of it is through. -/
structure Sending (call : ReplayCall) (checkpoint : ChainHead) (sent done : List EnvelopeArtifact)
    (s : AuthoredReplay) : Prop where
  checkpoint_eq : s.checkpoint = some checkpoint
  captured : call.Captured checkpoint
  stage : s.stage = .send
  sent_eq : s.sent = sent
  count : s.submittedCount = done.length
  bytes : s.submittedBytes = artifactBytes done
  sendable : call.Sendable checkpoint sent

theorem Quiet.sound {checkpoint : Option ChainHead} {s : AuthoredReplay}
    (h : call.Quiet checkpoint s) : call.Sound s := by
  refine ⟨?_, fun head hhead => h.captured head (h.checkpoint_eq.symm.trans hhead), ?_,
    fun _ => h.sent_eq, ?_, ?_, ?_, ?_⟩
  · rw [h.sent_eq]
    trivial
  · simp [h.sent_eq]
  · rw [h.count]
    exact Nat.zero_le _
  · rw [h.sent_eq]
    exact Nat.zero_le _
  · rw [h.bytes]
    exact Nat.zero_le _
  · rw [h.sent_eq]
    exact Nat.zero_le _

theorem Quiet.ended {checkpoint : Option ChainHead} {s : AuthoredReplay} {stop : ReplayStop}
    (h : call.Quiet checkpoint s) (hstop : stop ≠ .outOfFuel) : call.Ended stop s :=
  ⟨h.sound, hstop⟩

theorem Sending.sound {sent done : List EnvelopeArtifact} {s : AuthoredReplay}
    (h : call.Sending checkpoint sent done s) (hdone : done <+: sent) : call.Sound s := by
  obtain ⟨hrun, hwithin, hbytes⟩ := h.sendable
  obtain ⟨bytes, artifact, -, -, hlimit, hhead⟩ := h.captured
  have hseq : checkpoint.seq = artifact.envelope.seq := by rw [hhead]
  refine ⟨by rwa [h.sent_eq], fun head hhead => ?_, fun artifact hartifact => ?_,
    fun hstage => absurd h.stage hstage, ?_, ?_, ?_, by rwa [h.sent_eq]⟩
  · rw [h.checkpoint_eq] at hhead
    cases hhead
    exact h.captured
  · rw [h.sent_eq] at hartifact
    obtain ⟨i, hi⟩ := List.getElem?_of_mem hartifact
    obtain ⟨hlt, -⟩ := List.getElem?_eq_some_iff.1 hi
    have hnumber := (hrun.getElem? hi).2
    exact ⟨checkpoint, h.checkpoint_eq, by omega⟩
  · rw [h.count, h.sent_eq]
    exact hdone.length_le
  · rw [h.sent_eq]
    omega
  · rw [h.bytes, h.sent_eq]
    obtain ⟨rest, rfl⟩ := hdone
    rw [artifactBytes_append]
    exact Nat.le_add_right _ _

theorem Sending.ended {sent done : List EnvelopeArtifact} {s : AuthoredReplay} {stop : ReplayStop}
    (h : call.Sending checkpoint sent done s) (hdone : done <+: sent)
    (hstop : stop ≠ .outOfFuel) : call.Ended stop s :=
  ⟨h.sound hdone, hstop⟩

/-! ## The questions -/

section

variable {P : AuthoredReplay → Prop}

end

/-! ## The loops -/

/-- The pages lie one after the other, from one envelope to another. -/
def Covers : ℕ → Hash256 → List VerifiedPage → ℕ → Hash256 → Prop
  | seq, prev, [], toSeq, hash => seq = toSeq ∧ prev = hash
  | seq, prev, page :: rest, toSeq, hash =>
      page.fromSeq = seq ∧ page.prev = prev ∧ seq ≤ page.toSeq ∧
        Covers (page.toSeq + 1) page.hash rest toSeq hash

theorem Covers.snoc {seq fromSeq : ℕ} {prev hash : Hash256} {pages : List VerifiedPage}
    {page : VerifiedPage} (h : Covers seq prev pages fromSeq hash) (hfrom : page.fromSeq = fromSeq)
    (hprev : page.prev = hash) (hle : fromSeq ≤ page.toSeq) :
    Covers seq prev (pages ++ [page]) (page.toSeq + 1) page.hash := by
  induction pages generalizing seq prev with
  | nil =>
      obtain ⟨rfl, rfl⟩ := h
      exact ⟨hfrom, hprev, hle, rfl, rfl⟩
  | cons first rest ih =>
      obtain ⟨hfirst, hlink, hpage, hrest⟩ := h
      exact ⟨hfirst, hlink, hpage, ih hrest⟩

theorem Covers.le {seq toSeq : ℕ} {prev hash : Hash256} {pages : List VerifiedPage}
    (h : Covers seq prev pages toSeq hash) : seq ≤ toSeq := by
  induction pages generalizing seq prev with
  | nil => exact h.1.le
  | cons first rest ih =>
      obtain ⟨-, -, hpage, hrest⟩ := h
      have hnext := ih hrest
      omega

/-- What may be sent in full may be sent in part. -/
theorem Sendable.of_append {sent rest : List EnvelopeArtifact}
    (h : call.Sendable checkpoint (sent ++ rest)) : call.Sendable checkpoint sent := by
  obtain ⟨hrun, hwithin, hbytes⟩ := h
  rw [List.length_append] at hwithin
  rw [artifactBytes_append] at hbytes
  exact ⟨(continues_append.1 hrun).1, by omega, by omega⟩

end ReplayCall

end Tablefolk
