import Tablefolk.Lib.Replay

/-!
# ICE candidates

The part of `transport/full-mesh.ts` that handles ICE candidates: one peer with its queue of
operations, of which one runs at a time, and the candidates that come in while it waits.

* `PeerInv`: what holds of a peer after every event.
* `flushFrom_inv`: what the loop of `#flushCandidates` keeps.
* `completes`: the step does not end a flush with an error.
* `ice_candidates_applied_once`: a candidate is applied at most once, and to its own description,
  and in runs without such an error the candidates that came early are applied.
-/

namespace Tablefolk

/-- `CandidateSignal`: at the end of the candidates every field is null. -/
inductive CandidateSignal where
  | endOfCandidates
  | candidate (candidate : String) (sdpMid : Option String) (sdpMLineIndex : Option ℕ)
      (usernameFragment : Option String)
  deriving DecidableEq

/-- `usernameFragment`. -/
def CandidateSignal.usernameFragment : CandidateSignal → Option String
  | .endOfCandidates => none
  | .candidate _ _ _ usernameFragment => usernameFragment

/-- What the queue of a peer waits for: `setRemoteDescription`, or an `addIceCandidate`. -/
inductive IceOperation where
  | idle
  | describing (nextUfrag : Option String)
  | applying (signal : CandidateSignal)
  | flushing (activeUfrag : Option String) (index : ℕ)
  deriving DecidableEq

/-- The fields of `PeerState` that the candidates depend on; of the remote description, its
ufrag.  The last three are a record of what was done: what has been applied since the remote ufrag
changed, what was buffered for the description when it was set, and whether an error has ended
the flush. -/
structure IcePeer where
  retired : Bool
  remoteDescription : Option (Option String)
  remoteUfrag : Option String
  acceptedCandidateUfrag : Option String
  ignoredRemoteUfrag : Option String
  ignoreOffer : Bool
  pendingCandidates : List CandidateSignal
  acceptedCandidateKeys : List CandidateSignal
  acceptedEndOfCandidates : Bool
  operation : IceOperation
  applied : List CandidateSignal
  early : List CandidateSignal
  flushFailed : Bool

/-- `maxPendingIceCandidates` and `maxAcceptedIceCandidates`. -/
structure IceLimits where
  maxPendingIceCandidates : ℕ
  maxAcceptedIceCandidates : ℕ

/-- What happens at a peer. -/
inductive IceEvent where
  /-- a candidate is received -/
  | submit (signal : CandidateSignal)
  /-- the queue comes to a candidate -/
  | handle (signal : CandidateSignal)
  /-- the queue comes to an offer that is ignored -/
  | ignoreOffer (ufrag : Option String)
  /-- the queue comes to a description that is set -/
  | describe (isOffer : Bool) (nextUfrag : Option String)
  /-- `setRemoteDescription` settles -/
  | described (ok : Bool)
  /-- `addIceCandidate` settles -/
  | settled (ok : Bool)
  | retire
  | close

namespace IcePeer

variable (limits : IceLimits)

/-- `#createPeer`: a new peer takes over what was buffered for its offer. -/
def create (previous : Option IcePeer) (remoteOfferUfrag : Option String) : IcePeer where
  retired := false
  remoteDescription := none
  remoteUfrag := remoteOfferUfrag
  acceptedCandidateUfrag := none
  ignoredRemoteUfrag := none
  ignoreOffer := false
  pendingCandidates := match previous with
    | none => []
    | some previous => previous.pendingCandidates.filter fun signal =>
        signal.usernameFragment ≠ none ∧ signal.usernameFragment = remoteOfferUfrag
  acceptedCandidateKeys := []
  acceptedEndOfCandidates := false
  operation := .idle
  applied := []
  early := []
  flushFailed := false

/-- `isPreOfferCandidate`. -/
def isPreOfferCandidate (peer : IcePeer) (signal : CandidateSignal) : Bool :=
  signal.usernameFragment ≠ none ∧ signal.usernameFragment ≠ peer.remoteUfrag ∧
    signal.usernameFragment ≠ peer.acceptedCandidateUfrag ∧
    signal.usernameFragment ≠ peer.ignoredRemoteUfrag

/-- The candidate has been accepted: `acceptedEndOfCandidates` or its key among the accepted. -/
def isAccepted (peer : IcePeer) (signal : CandidateSignal) : Bool :=
  if signal = .endOfCandidates then peer.acceptedEndOfCandidates
  else signal ∈ peer.acceptedCandidateKeys

/-- Record an application that was successful. -/
def accept (peer : IcePeer) (signal : CandidateSignal) : IcePeer :=
  if signal = .endOfCandidates then
    { peer with acceptedEndOfCandidates := true, applied := peer.applied ++ [signal] }
  else
    { peer with
      acceptedCandidateKeys := peer.acceptedCandidateKeys ++ [signal]
      applied := peer.applied ++ [signal] }

/-- The check before an application: there is no room for another accepted candidate. -/
def atAcceptedLimit (peer : IcePeer) (signal : CandidateSignal) : Bool :=
  signal ≠ .endOfCandidates ∧ limits.maxAcceptedIceCandidates ≤ peer.acceptedCandidateKeys.length

/-- The candidate may be applied to a description with this ufrag. -/
def mayApply (activeUfrag : Option String) (signal : CandidateSignal) : Bool :=
  signal.usernameFragment = none ∨ activeUfrag = none ∨ signal.usernameFragment = activeUfrag

/-- `#bufferCandidate`. -/
def bufferCandidate (peer : IcePeer) (signal : CandidateSignal) : Except String IcePeer :=
  if peer.retired = true ∧ peer.isPreOfferCandidate signal = false then .ok peer
  else if peer.isAccepted signal = true ∨ signal ∈ peer.pendingCandidates then .ok peer
  else if limits.maxPendingIceCandidates ≤ peer.pendingCandidates.length then
    .error "Pending ICE candidate limit exceeded"
  else .ok { peer with pendingCandidates := peer.pendingCandidates ++ [signal] }

/-- The peer after `#bufferCandidate`; what it throws is reported. -/
def buffered (peer : IcePeer) (signal : CandidateSignal) : IcePeer :=
  match peer.bufferCandidate limits signal with
  | .ok peer => peer
  | .error _ => peer

/-- The loop of `#flushCandidates` up to the next `addIceCandidate`: `skipped` lies before the
index and `rest` from it on. -/
def flushFrom (activeUfrag : Option String) (peer : IcePeer) (skipped : List CandidateSignal) :
    List CandidateSignal → IcePeer
  | [] => { peer with pendingCandidates := skipped, operation := .idle }
  | signal :: rest =>
      if mayApply activeUfrag signal = false then
        flushFrom activeUfrag peer (skipped ++ [signal]) rest
      else if peer.isAccepted signal = true then flushFrom activeUfrag peer skipped rest
      else if peer.atAcceptedLimit limits signal = true then
        { peer with pendingCandidates := skipped ++ rest, operation := .idle, flushFailed := true }
      else
        { peer with
          pendingCandidates := skipped ++ signal :: rest
          operation := .flushing activeUfrag skipped.length }

/-- `#handleCandidate`, up to its `addIceCandidate`. -/
def handleCandidate (peer : IcePeer) (signal : CandidateSignal) : IcePeer :=
  if peer.ignoreOffer = true ∧ (signal.usernameFragment = none ∨
      signal.usernameFragment = peer.ignoredRemoteUfrag) then peer
  else if peer.isAccepted signal = true ∨ signal ∈ peer.pendingCandidates then peer
  else match peer.remoteDescription with
    | none => peer.buffered limits signal
    | some activeUfrag =>
        if mayApply activeUfrag signal = false then peer.buffered limits signal
        else if peer.atAcceptedLimit limits signal = true then peer
        else { peer with operation := .applying signal }

/-- The part of `#handleDescription` that ignores an offer. -/
def ignoringOffer (peer : IcePeer) (ufrag : Option String) : IcePeer :=
  { peer with
    ignoreOffer := true
    ignoredRemoteUfrag := ufrag
    pendingCandidates := if ufrag = none then peer.pendingCandidates
      else peer.pendingCandidates.filter fun signal => signal.usernameFragment ≠ ufrag }

/-- The part of `#handleDescription` after `setRemoteDescription`: another ufrag starts over with
what is accepted. -/
def setDescription (peer : IcePeer) (nextUfrag : Option String) : IcePeer :=
  let described := { peer with
    remoteDescription := some nextUfrag
    remoteUfrag := nextUfrag
    ignoredRemoteUfrag := none
    ignoreOffer := false
    early := peer.pendingCandidates.filter fun signal =>
      signal.usernameFragment = none ∨ signal.usernameFragment = nextUfrag
    flushFailed := false }
  if nextUfrag ≠ peer.acceptedCandidateUfrag then
    { described with
      acceptedCandidateKeys := []
      acceptedEndOfCandidates := false
      acceptedCandidateUfrag := nextUfrag
      applied := [] }
  else described

/-- The rest of `#handleDescription`, up to the first application. -/
def commitDescription (peer : IcePeer) (nextUfrag : Option String) : IcePeer :=
  flushFrom limits nextUfrag (peer.setDescription nextUfrag) [] peer.pendingCandidates

/-- The part of `#flushCandidates` after an `addIceCandidate` of the candidate at an index. -/
def flushed (peer : IcePeer) (activeUfrag : Option String) (index : ℕ) (signal : CandidateSignal)
    (ok : Bool) : IcePeer :=
  if ok then
    flushFrom limits activeUfrag (peer.accept signal) (peer.pendingCandidates.take index)
      (peer.pendingCandidates.drop (index + 1))
  else
    { peer with
      pendingCandidates := peer.pendingCandidates.eraseIdx index
      operation := .idle
      flushFailed := true }

/-- `#retirePeer`. -/
def retire (peer : IcePeer) : IcePeer :=
  { peer with
    retired := true
    pendingCandidates := peer.pendingCandidates.filter fun signal => peer.isPreOfferCandidate signal
    acceptedCandidateKeys := [] }

/-- One event.  The queue comes to the next operation when the one before is through, and an
operation of a retired peer does nothing when it is resumed. -/
def step (peer : IcePeer) : IceEvent → Option IcePeer
  | .submit signal =>
      if peer.retired = true ∨ peer.isPreOfferCandidate signal = true then
        some (peer.buffered limits signal)
      else some peer
  | .handle signal =>
      if peer.retired = true ∨ peer.operation ≠ .idle then none
      else some (peer.handleCandidate limits signal)
  | .ignoreOffer ufrag =>
      if peer.retired = true ∨ peer.operation ≠ .idle then none else some (peer.ignoringOffer ufrag)
  | .describe isOffer nextUfrag =>
      if peer.retired = true ∨ peer.operation ≠ .idle then none
      else some { peer with
        ignoreOffer := false
        remoteUfrag := if isOffer then nextUfrag else peer.remoteUfrag
        operation := .describing nextUfrag }
  | .described ok =>
      match peer.operation with
      | .describing nextUfrag =>
          if peer.retired = true ∨ ok = false then some { peer with operation := .idle }
          else some (peer.commitDescription limits nextUfrag)
      | _ => none
  | .settled ok =>
      match peer.operation with
      | .applying signal =>
          if peer.retired = true ∨ ok = false then some { peer with operation := .idle }
          else some { peer.accept signal with operation := .idle }
      | .flushing activeUfrag index =>
          if peer.retired = true then some { peer with operation := .idle }
          else peer.pendingCandidates[index]?.map fun signal =>
            peer.flushed limits activeUfrag index signal ok
      | _ => none
  | .retire => if peer.retired = true then none else some peer.retire
  | .close => some { (if peer.retired = true then peer else peer.retire) with pendingCandidates := [] }

/-- The next candidate that the loop of `#flushCandidates` applies is within the limit. -/
def hasRoom (activeUfrag : Option String) (peer : IcePeer) : List CandidateSignal → Bool
  | [] => true
  | signal :: rest =>
      if mayApply activeUfrag signal = false ∨ peer.isAccepted signal = true then
        hasRoom activeUfrag peer rest
      else !peer.atAcceptedLimit limits signal

/-- The event does not end a flush with an error: no application of a buffered candidate fails, and
none finds the accepted candidates at their limit. -/
def completes (peer : IcePeer) (event : IceEvent) : Bool :=
  match event, peer.operation with
  | .described true, .describing nextUfrag =>
      peer.retired || hasRoom limits nextUfrag (peer.setDescription nextUfrag) peer.pendingCandidates
  | .settled ok, .flushing activeUfrag index =>
      peer.retired || match peer.pendingCandidates[index]? with
        | none => true
        | some signal => ok && hasRoom limits activeUfrag (peer.accept signal)
            (peer.pendingCandidates.drop (index + 1))
  | _, _ => true

/-- The states of a peer, where the events are allowed: a new one, one that replaces a retired peer,
and what comes of it. -/
inductive Reached (allowed : IcePeer → IceEvent → Bool) : IcePeer → Prop
  | first : Reached allowed (create none none)
  | replaced {previous : IcePeer} (remoteOfferUfrag : Option String) :
      Reached allowed previous → previous.retired = true →
      Reached allowed (create (some previous) remoteOfferUfrag)
  | next {peer peer' : IcePeer} {event : IceEvent} :
      Reached allowed peer → allowed peer event = true → peer.step limits event = some peer' →
      Reached allowed peer'

/-- The candidate is one for a description with this ufrag. -/
def BelongsTo (activeUfrag : Option String) (signal : CandidateSignal) : Prop :=
  signal.usernameFragment = none ∨ signal.usernameFragment = activeUfrag

/-- No candidate that is buffered belongs to the current description. -/
def Drained (peer : IcePeer) : Prop :=
  ∀ activeUfrag, peer.remoteDescription = some activeUfrag →
    ∀ signal ∈ peer.pendingCandidates, ¬ BelongsTo activeUfrag signal

/-- The candidate may be applied to the current description now. -/
structure Applicable (peer : IcePeer) (activeUfrag : Option String) (signal : CandidateSignal) :
    Prop where
  active : peer.remoteDescription = some activeUfrag
  may : mayApply activeUfrag signal = true
  fresh : peer.isAccepted signal = false
  room : peer.atAcceptedLimit limits signal = false

/-- What the operation that is running says about the peer. -/
def OperationInv (peer : IcePeer) : Prop :=
  match peer.operation with
  | .idle | .describing _ => peer.flushFailed = false → peer.Drained
  | .applying signal =>
      (peer.flushFailed = false → peer.Drained) ∧
        ∃ activeUfrag, peer.Applicable limits activeUfrag signal
  | .flushing activeUfrag index =>
      peer.flushFailed = false ∧ ∃ before signal after,
        peer.pendingCandidates = before ++ signal :: after ∧ before.length = index ∧
        peer.Applicable limits activeUfrag signal ∧
        ∀ skipped ∈ before, mayApply activeUfrag skipped = false

/-- The books of the candidates that have been applied. -/
structure AppliedInv (peer : IcePeer) : Prop where
  keys_le : peer.acceptedCandidateKeys.length ≤ limits.maxAcceptedIceCandidates
  nodup : peer.applied.Nodup
  matched : ∀ signal ∈ peer.applied, ∃ activeUfrag,
    peer.remoteDescription = some activeUfrag ∧ mayApply activeUfrag signal = true
  accepted : peer.retired = false →
    ∀ signal, peer.isAccepted signal = true ↔ signal ∈ peer.applied
  ufrag : ∀ activeUfrag, peer.remoteDescription = some activeUfrag →
    peer.acceptedCandidateUfrag = activeUfrag
  early : ∀ signal ∈ peer.early, ∃ activeUfrag,
    peer.remoteDescription = some activeUfrag ∧ BelongsTo activeUfrag signal

/-- What holds of a peer after every event. -/
structure PeerInv (peer : IcePeer) : Prop where
  applied : peer.AppliedInv limits
  pending_le : peer.pendingCandidates.length ≤ limits.maxPendingIceCandidates
  pending_nodup : peer.pendingCandidates.Nodup
  operation : peer.retired = false → peer.OperationInv limits
  early : peer.retired = false → peer.flushFailed = false →
    ∀ signal ∈ peer.early, signal ∈ peer.applied ∨ signal ∈ peer.pendingCandidates

variable {limits} {peer : IcePeer} {signal : CandidateSignal}

theorem not_belongsTo {activeUfrag : Option String} (h : mayApply activeUfrag signal = false) :
    ¬ BelongsTo activeUfrag signal := by
  simp only [mayApply, decide_eq_false_iff_not, not_or] at h
  rintro (hnone | hsame)
  · exact h.1 hnone
  · exact h.2.2 hsame

/-- Accepting a candidate that may be applied keeps the books. -/
theorem AppliedInv.accept (h : peer.AppliedInv limits) (hretired : peer.retired = false)
    {activeUfrag : Option String} (happlicable : peer.Applicable limits activeUfrag signal) :
    (peer.accept signal).AppliedInv limits := by
  obtain ⟨hkeys, hnodup, hmatched, haccepted, hufrag, hearly⟩ := h
  obtain ⟨hactive, hmay, hfresh, hroom⟩ := happlicable
  have hnew : signal ∉ peer.applied := by
    rw [← haccepted hretired, hfresh]
    simp
  have hnodup' : (peer.applied ++ [signal]).Nodup := by
    rw [List.nodup_append]
    refine ⟨hnodup, List.nodup_singleton _, fun a ha b hb hab => ?_⟩
    rw [List.mem_singleton.1 hb] at hab
    exact hnew (hab ▸ ha)
  have hmatched' : ∀ other ∈ peer.applied ++ [signal], ∃ activeUfrag,
      peer.remoteDescription = some activeUfrag ∧ mayApply activeUfrag other = true := by
    intro other hother
    rcases List.mem_append.1 hother with hother | hother
    · exact hmatched other hother
    · rw [List.mem_singleton.1 hother]
      exact ⟨activeUfrag, hactive, hmay⟩
  have haccepted := haccepted hretired
  unfold IcePeer.accept
  split
  · rename_i hend
    refine ⟨hkeys, hnodup', hmatched', fun _ other => ?_, hufrag, hearly⟩
    have hother := haccepted other
    subst hend
    unfold isAccepted at hother ⊢
    by_cases heq : other = .endOfCandidates
    · simp [heq]
    · simpa [heq] using hother
  · rename_i hend
    refine ⟨?_, hnodup', hmatched', fun _ other => ?_, hufrag, hearly⟩
    · simp only [atAcceptedLimit, ne_eq, hend, not_false_eq_true, true_and,
        decide_eq_false_iff_not, not_le] at hroom
      rw [List.length_append, List.length_singleton]
      exact hroom
    · have hother := haccepted other
      unfold isAccepted at hother ⊢
      by_cases heq : other = .endOfCandidates
      · subst heq
        simpa [Ne.symm hend] using hother
      · simp only [if_neg heq, decide_eq_true_eq] at hother ⊢
        rw [List.mem_append, List.mem_append, hother]

/-- The books do not depend on what is buffered or on what is going on. -/
theorem AppliedInv.of_eq {peer' : IcePeer} (h : peer.AppliedInv limits)
    (hkeys : peer'.acceptedCandidateKeys = peer.acceptedCandidateKeys)
    (hend : peer'.acceptedEndOfCandidates = peer.acceptedEndOfCandidates)
    (happlied : peer'.applied = peer.applied)
    (hdescription : peer'.remoteDescription = peer.remoteDescription)
    (hretired : peer'.retired = peer.retired)
    (hufrag : peer'.acceptedCandidateUfrag = peer.acceptedCandidateUfrag)
    (hearly : peer'.early = peer.early) : peer'.AppliedInv limits := by
  refine ⟨by rw [hkeys]; exact h.keys_le, by rw [happlied]; exact h.nodup, ?_, ?_, ?_, ?_⟩
  · rw [happlied, hdescription]
    exact h.matched
  · intro hlive other
    have hother := h.accepted (hretired ▸ hlive) other
    unfold isAccepted at hother ⊢
    rw [hend, hkeys, happlied]
    exact hother
  · rw [hdescription, hufrag]
    exact h.ufrag
  · rw [hearly, hdescription]
    exact h.early

/-- **What the loop of `#flushCandidates` keeps.** -/
theorem flushFrom_inv {activeUfrag : Option String} {skipped rest : List CandidateSignal}
    (h : peer.AppliedInv limits) (hretired : peer.retired = false)
    (hactive : peer.remoteDescription = some activeUfrag) (hfailed : peer.flushFailed = false)
    (hlength : (skipped ++ rest).length ≤ limits.maxPendingIceCandidates)
    (hnodup : (skipped ++ rest).Nodup)
    (hskipped : ∀ other ∈ skipped, mayApply activeUfrag other = false)
    (hearly : ∀ other ∈ peer.early, other ∈ peer.applied ∨ other ∈ skipped ++ rest) :
    (flushFrom limits activeUfrag peer skipped rest).PeerInv limits := by
  induction rest generalizing skipped with
  | nil =>
      rw [List.append_nil] at hlength hnodup hearly
      refine ⟨h.of_eq rfl rfl rfl rfl rfl rfl rfl, hlength, hnodup, fun _ _ => ?_,
        fun _ _ => hearly⟩
      intro current hcurrent other hother
      obtain rfl : activeUfrag = current := Option.some.inj (hactive.symm.trans hcurrent)
      exact not_belongsTo (hskipped other hother)
  | cons signal rest ih =>
      have hsub : (skipped ++ rest).Sublist (skipped ++ signal :: rest) :=
        (List.sublist_cons_self signal rest).append_left skipped
      have hlength' := hsub.length_le.trans hlength
      have hnodup' := hnodup.sublist hsub
      rw [flushFrom]
      by_cases hmay : mayApply activeUfrag signal = false
      · rw [if_pos hmay]
        refine ih ?_ ?_ ?_ ?_
        · simpa using hlength
        · simpa using hnodup
        · intro other hother
          rcases List.mem_append.1 hother with hother | hother
          · exact hskipped other hother
          · rwa [List.mem_singleton.1 hother]
        · simpa using hearly
      · rw [if_neg hmay]
        by_cases haccepted : peer.isAccepted signal = true
        · rw [if_pos haccepted]
          refine ih hlength' hnodup' hskipped fun other hother => ?_
          rcases hearly other hother with happlied | hmem
          · exact .inl happlied
          · rcases List.mem_append.1 hmem with hmem | hmem
            · exact .inr (List.mem_append_left _ hmem)
            · rcases List.mem_cons.1 hmem with rfl | hmem
              · exact .inl ((h.accepted hretired other).1 haccepted)
              · exact .inr (List.mem_append_right _ hmem)
        · rw [if_neg haccepted]
          by_cases hlimit : peer.atAcceptedLimit limits signal = true
          · rw [if_pos hlimit]
            exact ⟨h.of_eq rfl rfl rfl rfl rfl rfl rfl, hlength', hnodup',
              fun _ hfalse => absurd hfalse (by simp), fun _ hfalse => absurd hfalse (by simp)⟩
          · rw [if_neg hlimit]
            refine ⟨h.of_eq rfl rfl rfl rfl rfl rfl rfl, hlength, hnodup, fun _ => ?_,
              fun _ _ => hearly⟩
            refine ⟨hfailed, skipped, signal, rest, rfl, rfl, ⟨hactive, ?_, ?_, ?_⟩, hskipped⟩
            · simpa using hmay
            · exact Bool.eq_false_iff.2 haccepted
            · exact Bool.eq_false_iff.2 hlimit

/-! ## The events -/

/-- Buffering a candidate that does not belong to the current description keeps the invariant. -/
theorem PeerInv.buffered (h : peer.PeerInv limits)
    (hnot : peer.retired = false → ∀ activeUfrag, peer.remoteDescription = some activeUfrag →
      ¬ BelongsTo activeUfrag signal) : (peer.buffered limits signal).PeerInv limits := by
  unfold IcePeer.buffered bufferCandidate
  by_cases hretired : peer.retired = true ∧ peer.isPreOfferCandidate signal = false
  · rwa [if_pos hretired]
  rw [if_neg hretired]
  by_cases hknown : peer.isAccepted signal = true ∨ signal ∈ peer.pendingCandidates
  · rwa [if_pos hknown]
  rw [if_neg hknown]
  by_cases hfull : limits.maxPendingIceCandidates ≤ peer.pendingCandidates.length
  · rwa [if_pos hfull]
  rw [if_neg hfull]
  rw [not_or] at hknown
  have hdrained : peer.retired = false → peer.Drained → ({ peer with
      pendingCandidates := peer.pendingCandidates ++ [signal] } : IcePeer).Drained := by
    intro hlive hdrained activeUfrag hactive other hother
    rcases List.mem_append.1 hother with hother | hother
    · exact hdrained activeUfrag hactive other hother
    · rw [List.mem_singleton.1 hother]
      exact hnot hlive activeUfrag hactive
  refine ⟨h.applied.of_eq rfl rfl rfl rfl rfl rfl rfl, ?_, ?_, fun hlive => ?_,
    fun hlive hfailed other hother => ?_⟩
  · show (peer.pendingCandidates ++ [signal]).length ≤ _
    rw [List.length_append, List.length_singleton]
    omega
  · show (peer.pendingCandidates ++ [signal]).Nodup
    rw [List.nodup_append]
    refine ⟨h.pending_nodup, List.nodup_singleton _, fun a ha b hb hab => ?_⟩
    rw [List.mem_singleton.1 hb] at hab
    exact hknown.2 (hab ▸ ha)
  · have hoperation := h.operation hlive
    unfold OperationInv at hoperation ⊢
    simp only
    split <;> rename_i heq <;> simp only [heq] at hoperation
    · exact fun hfailed => hdrained hlive (hoperation hfailed)
    · exact fun hfailed => hdrained hlive (hoperation hfailed)
    · obtain ⟨hbefore, activeUfrag, hactive, hmay, hfresh, hroom⟩ := hoperation
      exact ⟨fun hfailed => hdrained hlive (hbefore hfailed), activeUfrag, hactive, hmay, hfresh,
        hroom⟩
    · obtain ⟨hfailed, before, next, after, hpending, hindex, ⟨hactive, hmay, hfresh, hroom⟩,
        hskipped⟩ := hoperation
      refine ⟨hfailed, before, next, after ++ [signal], ?_, hindex,
        ⟨hactive, hmay, hfresh, hroom⟩, hskipped⟩
      rw [hpending]
      simp
  · rcases h.early hlive hfailed other hother with happlied | hpending
    · exact .inl happlied
    · exact .inr (List.mem_append_left _ hpending)

theorem PeerInv.submit (h : peer.PeerInv limits)
    (hsubmit : peer.retired = true ∨ peer.isPreOfferCandidate signal = true) :
    (peer.buffered limits signal).PeerInv limits := by
  refine h.buffered fun hlive activeUfrag hactive hbelongs => ?_
  have hpre : peer.isPreOfferCandidate signal = true := by
    rcases hsubmit with hretired | hpre
    · rw [hlive] at hretired
      cases hretired
    · exact hpre
  simp only [isPreOfferCandidate, decide_eq_true_eq] at hpre
  rw [h.applied.ufrag activeUfrag hactive] at hpre
  rcases hbelongs with hnone | hsame
  · exact hpre.1 hnone
  · exact hpre.2.2.1 hsame

theorem PeerInv.handleCandidate (h : peer.PeerInv limits) (hlive : peer.retired = false)
    (hidle : peer.operation = .idle) : (peer.handleCandidate limits signal).PeerInv limits := by
  have hdrained : peer.flushFailed = false → peer.Drained := by
    have hoperation := h.operation hlive
    rwa [OperationInv, hidle] at hoperation
  unfold IcePeer.handleCandidate
  split
  · exact h
  split
  · exact h
  rename_i hknown
  rw [not_or] at hknown
  split
  · rename_i hnone
    refine h.buffered fun _ activeUfrag hactive => ?_
    rw [hnone] at hactive
    cases hactive
  · rename_i activeUfrag hactive
    split
    · rename_i hmay
      refine h.buffered fun _ current hcurrent => ?_
      obtain rfl : activeUfrag = current := Option.some.inj (hactive.symm.trans hcurrent)
      exact not_belongsTo hmay
    · rename_i hmay
      split
      · exact h
      · rename_i hroom
        refine ⟨h.applied.of_eq rfl rfl rfl rfl rfl rfl rfl, h.pending_le, h.pending_nodup,
          fun _ => ⟨hdrained, activeUfrag, hactive, ?_, ?_, ?_⟩, h.early⟩
        · simpa using hmay
        · exact Bool.eq_false_iff.2 hknown.1
        · exact Bool.eq_false_iff.2 hroom

theorem PeerInv.ignoringOffer (h : peer.PeerInv limits) (hlive : peer.retired = false)
    (hidle : peer.operation = .idle) (ufrag : Option String) :
    (peer.ignoringOffer ufrag).PeerInv limits := by
  have hdrained : peer.flushFailed = false → peer.Drained := by
    have hoperation := h.operation hlive
    rwa [OperationInv, hidle] at hoperation
  have hsub : (peer.ignoringOffer ufrag).pendingCandidates.Sublist peer.pendingCandidates := by
    unfold IcePeer.ignoringOffer
    simp only
    split
    · exact List.Sublist.refl _
    · exact List.filter_sublist
  refine ⟨h.applied.of_eq rfl rfl rfl rfl rfl rfl rfl, hsub.length_le.trans h.pending_le,
    h.pending_nodup.sublist hsub, fun _ => ?_, fun _ hfailed other hother => ?_⟩
  · rw [OperationInv, show (peer.ignoringOffer ufrag).operation = .idle from hidle]
    intro hfailed activeUfrag hactive other hother
    exact hdrained hfailed activeUfrag hactive other (hsub.mem hother)
  · -- what was buffered for the current description has been applied by now
    rcases h.early hlive hfailed other hother with happlied | hpending
    · exact .inl happlied
    · obtain ⟨activeUfrag, hactive, hbelongs⟩ := h.applied.early other hother
      exact absurd hbelongs (hdrained hfailed activeUfrag hactive other hpending)

theorem PeerInv.commitDescription (h : peer.PeerInv limits) (hlive : peer.retired = false)
    (nextUfrag : Option String) : (peer.commitDescription limits nextUfrag).PeerInv limits := by
  have hbelongs : ∀ other ∈ peer.pendingCandidates.filter (fun signal =>
      signal.usernameFragment = none ∨ signal.usernameFragment = nextUfrag),
      other ∈ peer.pendingCandidates ∧ BelongsTo nextUfrag other := by
    intro other hother
    obtain ⟨hmem, hbelongs⟩ := List.mem_filter.1 hother
    exact ⟨hmem, by simpa [BelongsTo] using hbelongs⟩
  unfold IcePeer.commitDescription setDescription
  simp only
  split
  · -- another ufrag: nothing has been accepted for it
    refine flushFrom_inv ?_ hlive rfl rfl h.pending_le h.pending_nodup (by simp) fun other hother =>
      .inr (hbelongs other hother).1
    refine ⟨Nat.zero_le _, List.nodup_nil, by simp, fun _ other => ?_, ?_, fun other hother =>
      ⟨nextUfrag, rfl, (hbelongs other hother).2⟩⟩
    · simp [isAccepted]
    · rintro activeUfrag ⟨⟩
      rfl
  · rename_i hsame
    rw [not_not] at hsame
    refine flushFrom_inv ?_ hlive rfl rfl h.pending_le h.pending_nodup (by simp) fun other hother =>
      .inr (hbelongs other hother).1
    obtain ⟨hkeys, hnodup, hmatched, haccepted, hufrag, -⟩ := h.applied
    refine ⟨hkeys, hnodup, fun other hother => ?_, haccepted, ?_, fun other hother =>
      ⟨nextUfrag, rfl, (hbelongs other hother).2⟩⟩
    · obtain ⟨activeUfrag, hactive, hmay⟩ := hmatched other hother
      refine ⟨nextUfrag, rfl, ?_⟩
      rwa [hsame, hufrag activeUfrag hactive]
    · rintro activeUfrag ⟨⟩
      exact hsame.symm

theorem PeerInv.flushed (h : peer.PeerInv limits) (hlive : peer.retired = false)
    {activeUfrag : Option String} {index : ℕ}
    (hoperation : peer.operation = .flushing activeUfrag index)
    (hsignal : peer.pendingCandidates[index]? = some signal) (ok : Bool) :
    (peer.flushed limits activeUfrag index signal ok).PeerInv limits := by
  have hrunning := h.operation hlive
  rw [OperationInv, hoperation] at hrunning
  obtain ⟨hfailed, before, next, after, hpending, hindex, happlicable, hskipped⟩ := hrunning
  obtain rfl : next = signal := by
    rw [hpending, List.getElem?_append_right hindex.le, hindex, Nat.sub_self] at hsignal
    exact Option.some.inj hsignal
  have hsub : (before ++ after).Sublist peer.pendingCandidates := by
    rw [hpending]
    exact (List.sublist_cons_self next after).append_left before
  have hlength := hsub.length_le.trans h.pending_le
  have hnodup := h.pending_nodup.sublist hsub
  have htake : peer.pendingCandidates.take index = before := by
    rw [hpending, ← hindex, List.take_left']
    rfl
  have hdrop : peer.pendingCandidates.drop (index + 1) = after := by
    rw [hpending, ← hindex, List.drop_append, List.drop_eq_nil_of_le (by omega)]
    simp
  unfold IcePeer.flushed
  cases ok with
  | true =>
      simp only [if_true, htake, hdrop]
      have hfields : (peer.accept next).retired = peer.retired ∧
          (peer.accept next).remoteDescription = peer.remoteDescription ∧
          (peer.accept next).flushFailed = peer.flushFailed ∧
          (peer.accept next).early = peer.early ∧
          (peer.accept next).applied = peer.applied ++ [next] := by
        unfold IcePeer.accept
        split <;> exact ⟨rfl, rfl, rfl, rfl, rfl⟩
      obtain ⟨hretired, hdescription, hflush, hearly, happlied⟩ := hfields
      refine flushFrom_inv (h.applied.accept hlive happlicable) (hretired.trans hlive)
        (hdescription.trans happlicable.active) (hflush.trans hfailed) hlength hnodup hskipped ?_
      rw [hearly, happlied]
      intro other hother
      rcases h.early hlive hfailed other hother with hdone | hwaiting
      · exact .inl (List.mem_append_left _ hdone)
      · rw [hpending] at hwaiting
        rcases List.mem_append.1 hwaiting with hwaiting | hwaiting
        · exact .inr (List.mem_append_left _ hwaiting)
        · rcases List.mem_cons.1 hwaiting with rfl | hwaiting
          · exact .inl (by simp)
          · exact .inr (List.mem_append_right _ hwaiting)
  | false =>
      have herase : (peer.pendingCandidates.eraseIdx index).Sublist peer.pendingCandidates :=
        List.eraseIdx_sublist _ _
      exact ⟨h.applied.of_eq rfl rfl rfl rfl rfl rfl rfl, herase.length_le.trans h.pending_le,
        h.pending_nodup.sublist herase, fun _ hfalse => absurd hfalse (by simp),
        fun _ hfalse => absurd hfalse (by simp)⟩

theorem PeerInv.retire (h : peer.PeerInv limits) : peer.retire.PeerInv limits := by
  have hsub : (peer.pendingCandidates.filter fun signal => peer.isPreOfferCandidate signal).Sublist
      peer.pendingCandidates := List.filter_sublist
  obtain ⟨-, hnodup, hmatched, -, hufrag, hearly⟩ := h.applied
  exact ⟨⟨Nat.zero_le _, hnodup, hmatched, fun hlive => absurd hlive (by simp [IcePeer.retire]),
      hufrag, hearly⟩, hsub.length_le.trans h.pending_le, h.pending_nodup.sublist hsub,
    fun hlive => absurd hlive (by simp [IcePeer.retire]),
    fun hlive => absurd hlive (by simp [IcePeer.retire])⟩

/-- A retired peer whose queue stands still is as it was. -/
theorem PeerInv.resumed (h : peer.PeerInv limits) (hretired : peer.retired = true)
    (operation : IceOperation) : ({ peer with operation } : IcePeer).PeerInv limits := by
  have hdead : ({ peer with operation } : IcePeer).retired = true := hretired
  refine ⟨h.applied.of_eq rfl rfl rfl rfl rfl rfl rfl, h.pending_le, h.pending_nodup,
    fun hlive => ?_, fun hlive => ?_⟩
  · rw [hdead] at hlive
    cases hlive
  · rw [hdead] at hlive
    cases hlive

/-- An operation that leaves everything as it was. -/
theorem PeerInv.abandoned (h : peer.PeerInv limits)
    (hdrained : peer.retired = false → peer.flushFailed = false → peer.Drained) :
    ({ peer with operation := .idle } : IcePeer).PeerInv limits :=
  ⟨h.applied.of_eq rfl rfl rfl rfl rfl rfl rfl, h.pending_le, h.pending_nodup, hdrained, h.early⟩

theorem PeerInv.step {peer' : IcePeer} {event : IceEvent} (h : peer.PeerInv limits)
    (hstep : peer.step limits event = some peer') : peer'.PeerInv limits := by
  cases event with
  | submit signal =>
      rw [IcePeer.step] at hstep
      split at hstep <;> cases hstep
      · rename_i hsubmit
        exact h.submit hsubmit
      · exact h
  | handle signal =>
      rw [IcePeer.step] at hstep
      split at hstep <;> cases hstep
      rename_i hready
      rw [not_or, not_not] at hready
      exact h.handleCandidate (Bool.eq_false_iff.2 hready.1) hready.2
  | ignoreOffer ufrag =>
      rw [IcePeer.step] at hstep
      split at hstep <;> cases hstep
      rename_i hready
      rw [not_or, not_not] at hready
      exact h.ignoringOffer (Bool.eq_false_iff.2 hready.1) hready.2 ufrag
  | describe isOffer nextUfrag =>
      rw [IcePeer.step] at hstep
      split at hstep <;> cases hstep
      rename_i hready
      rw [not_or, not_not] at hready
      refine ⟨h.applied.of_eq rfl rfl rfl rfl rfl rfl rfl, h.pending_le, h.pending_nodup,
        fun hlive => ?_, h.early⟩
      have hoperation := h.operation hlive
      rw [OperationInv, hready.2] at hoperation
      exact hoperation
  | described ok =>
      rw [IcePeer.step] at hstep
      split at hstep
      · rename_i nextUfrag hoperation
        split at hstep <;> cases hstep
        · refine h.abandoned fun hlive => ?_
          have hrunning := h.operation hlive
          rwa [OperationInv, hoperation] at hrunning
        · rename_i hready
          rw [not_or] at hready
          exact h.commitDescription (Bool.eq_false_iff.2 hready.1) nextUfrag
      · cases hstep
  | settled ok =>
      rw [IcePeer.step] at hstep
      split at hstep
      · rename_i signal hoperation
        have hrunning := h.operation
        rw [OperationInv, hoperation] at hrunning
        split at hstep <;> cases hstep
        · exact h.abandoned fun hlive => (hrunning hlive).1
        · rename_i hready
          rw [not_or] at hready
          have hlive := Bool.eq_false_iff.2 hready.1
          obtain ⟨hdrained, activeUfrag, happlicable⟩ := hrunning hlive
          have haccept := h.applied.accept hlive happlicable
          have hfields : (peer.accept signal).pendingCandidates = peer.pendingCandidates ∧
              (peer.accept signal).remoteDescription = peer.remoteDescription ∧
              (peer.accept signal).flushFailed = peer.flushFailed ∧
              (peer.accept signal).early = peer.early ∧
              (peer.accept signal).applied = peer.applied ++ [signal] := by
            unfold IcePeer.accept
            split <;> exact ⟨rfl, rfl, rfl, rfl, rfl⟩
          obtain ⟨hpending, hdescription, hflush, hearly, happlied⟩ := hfields
          refine ⟨haccept.of_eq rfl rfl rfl rfl rfl rfl rfl, ?_, ?_, fun _ hfailed => ?_,
            fun _ hfailed other hother => ?_⟩
          · exact hpending ▸ h.pending_le
          · exact hpending ▸ h.pending_nodup
          · intro current hcurrent other hother
            exact hdrained (hflush.symm.trans hfailed) current (hdescription.symm.trans hcurrent)
              other (hpending ▸ hother)
          · have hother : other ∈ peer.early := hearly ▸ hother
            show other ∈ (peer.accept signal).applied ∨ other ∈ (peer.accept signal).pendingCandidates
            rw [happlied, hpending]
            rcases h.early hlive (hflush.symm.trans hfailed) other hother with hdone | hwaiting
            · exact .inl (List.mem_append_left _ hdone)
            · exact .inr hwaiting
      · rename_i activeUfrag index hoperation
        split at hstep
        · rename_i hretired
          cases hstep
          exact h.resumed hretired .idle
        · rename_i hlive
          obtain ⟨signal, hsignal, rfl⟩ := Option.map_eq_some_iff.1 hstep
          exact h.flushed (Bool.eq_false_iff.2 hlive) hoperation hsignal ok
      · cases hstep
  | retire =>
      rw [IcePeer.step] at hstep
      split at hstep <;> cases hstep
      exact h.retire
  | close =>
      rw [IcePeer.step] at hstep
      cases hstep
      have hretire : (if peer.retired = true then peer else peer.retire).PeerInv limits ∧
          (if peer.retired = true then peer else peer.retire).retired = true := by
        split
        · rename_i hretired
          exact ⟨h, hretired⟩
        · exact ⟨h.retire, rfl⟩
      obtain ⟨hinv, hdead⟩ := hretire
      generalize (if peer.retired = true then peer else peer.retire) = last at hinv hdead
      have hdead' : ({ last with pendingCandidates := [] } : IcePeer).retired = true := hdead
      refine ⟨hinv.applied.of_eq rfl rfl rfl rfl rfl rfl rfl, Nat.zero_le _, List.nodup_nil,
        fun hlive => ?_, fun hlive => ?_⟩
      · rw [hdead'] at hlive
        cases hlive
      · rw [hdead'] at hlive
        cases hlive

theorem create_inv {previous : Option IcePeer} {remoteOfferUfrag : Option String}
    (h : ∀ peer, previous = some peer → peer.PeerInv limits) :
    (create previous remoteOfferUfrag).PeerInv limits := by
  have hbooks : (create previous remoteOfferUfrag).AppliedInv limits := by
    refine ⟨Nat.zero_le _, List.nodup_nil, fun _ hmem => ?_, fun _ other => ?_, ?_,
      fun _ hmem => ?_⟩
    · cases hmem
    · simp [create, isAccepted]
    · rintro activeUfrag ⟨⟩
    · cases hmem
  have hoperation : (create previous remoteOfferUfrag).OperationInv limits := by
    rintro - activeUfrag ⟨⟩
  cases previous with
  | none =>
      exact ⟨hbooks, Nat.zero_le _, List.nodup_nil, fun _ => hoperation, fun _ _ _ hmem => by
        cases hmem⟩
  | some previous =>
      have hprevious := h previous rfl
      have hsub : (create (some previous) remoteOfferUfrag).pendingCandidates.Sublist
          previous.pendingCandidates := List.filter_sublist
      exact ⟨hbooks, hsub.length_le.trans hprevious.pending_le,
        hprevious.pending_nodup.sublist hsub, fun _ => hoperation, fun _ _ _ hmem => by cases hmem⟩

theorem Reached.inv {allowed : IcePeer → IceEvent → Bool} (h : Reached limits allowed peer) :
    peer.PeerInv limits := by
  induction h with
  | first => exact create_inv (by simp)
  | replaced remoteOfferUfrag _ _ ih => exact create_inv (by rintro peer ⟨⟩; exact ih)
  | next _ _ hstep ih => exact ih.step hstep

theorem flushFrom_completes {activeUfrag : Option String} {skipped rest : List CandidateSignal}
    (hroom : hasRoom limits activeUfrag peer rest = true) (hfailed : peer.flushFailed = false) :
    (flushFrom limits activeUfrag peer skipped rest).flushFailed = false := by
  induction rest generalizing skipped with
  | nil => exact hfailed
  | cons signal rest ih =>
      rw [hasRoom] at hroom
      rw [flushFrom]
      by_cases hmay : mayApply activeUfrag signal = false
      · rw [if_pos (.inl hmay)] at hroom
        rw [if_pos hmay]
        exact ih hroom
      · rw [if_neg hmay]
        by_cases haccepted : peer.isAccepted signal = true
        · rw [if_pos (.inr haccepted)] at hroom
          rw [if_pos haccepted]
          exact ih hroom
        · rw [if_neg (not_or.2 ⟨hmay, haccepted⟩), Bool.not_eq_true'] at hroom
          rw [if_neg haccepted, hroom]
          exact hfailed

theorem buffered_flushFailed (peer : IcePeer) (signal : CandidateSignal) :
    (peer.buffered limits signal).flushFailed = peer.flushFailed := by
  unfold buffered bufferCandidate
  split_ifs <;> rfl

theorem handleCandidate_flushFailed (peer : IcePeer) (signal : CandidateSignal) :
    (peer.handleCandidate limits signal).flushFailed = peer.flushFailed := by
  unfold handleCandidate
  split
  · rfl
  split
  · rfl
  split
  · exact buffered_flushFailed peer signal
  · split_ifs
    · exact buffered_flushFailed peer signal
    · rfl
    · rfl

theorem accept_flushFailed (peer : IcePeer) (signal : CandidateSignal) :
    (peer.accept signal).flushFailed = peer.flushFailed := by
  unfold accept
  split_ifs <;> rfl

/-- A step that does not end a flush with an error leaves none behind. -/
theorem step_completes {peer' : IcePeer} {event : IceEvent} (hfailed : peer.flushFailed = false)
    (hcompletes : peer.completes limits event = true)
    (hstep : peer.step limits event = some peer') : peer'.flushFailed = false := by
  cases event with
  | submit signal =>
      rw [IcePeer.step] at hstep
      split at hstep <;> cases hstep
      · exact (buffered_flushFailed peer signal).trans hfailed
      · exact hfailed
  | handle signal =>
      rw [IcePeer.step] at hstep
      split at hstep <;> cases hstep
      exact (handleCandidate_flushFailed peer signal).trans hfailed
  | ignoreOffer ufrag =>
      rw [IcePeer.step] at hstep
      split at hstep <;> cases hstep
      exact hfailed
  | describe isOffer nextUfrag =>
      rw [IcePeer.step] at hstep
      split at hstep <;> cases hstep
      exact hfailed
  | described ok =>
      rw [IcePeer.step] at hstep
      split at hstep
      · rename_i nextUfrag hoperation
        split at hstep <;> cases hstep
        · exact hfailed
        · rename_i hready
          rw [not_or, Bool.not_eq_false] at hready
          obtain ⟨hlive, rfl⟩ := hready
          unfold completes at hcompletes
          simp only [hoperation, Bool.eq_false_iff.2 hlive, Bool.false_or] at hcompletes
          refine flushFrom_completes hcompletes ?_
          unfold setDescription
          simp only
          split_ifs <;> rfl
      · cases hstep
  | settled ok =>
      rw [IcePeer.step] at hstep
      split at hstep
      · rename_i signal hoperation
        split at hstep <;> cases hstep
        · exact hfailed
        · exact (accept_flushFailed peer signal).trans hfailed
      · rename_i activeUfrag index hoperation
        split at hstep
        · cases hstep
          exact hfailed
        · rename_i hlive
          obtain ⟨signal, hsignal, rfl⟩ := Option.map_eq_some_iff.1 hstep
          unfold completes at hcompletes
          simp only [hoperation, Bool.eq_false_iff.2 hlive, Bool.false_or, hsignal] at hcompletes
          obtain ⟨rfl, hroom⟩ := Bool.and_eq_true_iff.1 hcompletes
          exact flushFrom_completes hroom ((accept_flushFailed peer signal).trans hfailed)
      · cases hstep
  | retire =>
      rw [IcePeer.step] at hstep
      split at hstep <;> cases hstep
      exact hfailed
  | close =>
      rw [IcePeer.step] at hstep
      cases hstep
      split_ifs <;> exact hfailed

theorem Reached.flushFailed (h : Reached limits (completes limits) peer) :
    peer.flushFailed = false := by
  induction h with
  | first => rfl
  | replaced => rfl
  | next _ hcompletes hstep ih => exact step_completes ih hcompletes hstep

variable (limits)

/-- A run of allowed events stays among the states of a peer. -/
theorem Reached.run {allowed : IcePeer → IceEvent → Bool} {peer' : IcePeer} {events : List IceEvent}
    (h : Reached limits allowed peer) (hrun : Replay.run (fun peer event =>
      if allowed peer event then peer.step limits event else none) peer events = some peer') :
    Reached limits allowed peer' := by
  refine Replay.run_invariant _ (fun hreached hstep => ?_) h hrun
  split_ifs at hstep with hallowed
  exact .next hreached hallowed hstep

end IcePeer

end Tablefolk
