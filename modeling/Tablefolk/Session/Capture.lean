import Tablefolk.Session.Sync
import Tablefolk.Session.SmallGroup

/-!
# Captured session histories

The model of `session/capture-session-history.ts` and of `session/persistent-receiver.ts`.

A capture reads all that a registry holds, in seat order, and can tell later whether the registry
still holds just that.  A durable receiver asks its store before it changes the registry.

* `captureSessionHistory_eq_ok`: a capture holds the logs of the registry.
* `heads_ne_of_accepted`: an accepted envelope moves a head, so a capture notices it.
* `persistThenIngest_eq_ok`: what a receipt says about the registry.
-/

namespace Tablefolk

def DEFAULT_MAX_SESSION_HISTORY_ENVELOPES : ℕ := 1024
def DEFAULT_MAX_SESSION_HISTORY_BYTES : ℕ := 16 * 1024 * 1024

/-- `SessionHistoryCaptureLimits`. -/
structure SessionHistoryCaptureLimits where
  maxEnvelopes : ℕ
  maxBytes : ℕ

/-- The limits of a caller who gives none. -/
def SessionHistoryCaptureLimits.default : SessionHistoryCaptureLimits :=
  ⟨DEFAULT_MAX_SESSION_HISTORY_ENVELOPES, DEFAULT_MAX_SESSION_HISTORY_BYTES⟩

section

variable {q : ℕ} {G : Type} [AddCommGroup G] [Module (ZMod q) G]

/-- `CapturedSessionHistory`, with what its `assertUnchanged` compares. -/
structure CapturedSessionHistory (P : Primitives q G) where
  game : GameId
  roster : Roster P
  heads : List ChainHead
  envelopes : List SignedEnvelope

variable {P : Primitives q G}

/-- The registry has an envelope with this hash in its place. -/
def SessionIngestResult.isDuplicate : SessionIngestResult → Bool
  | .chain (.duplicate _) => true
  | _ => false

/-- `assertUnchanged` does not throw. -/
def CapturedSessionHistory.Unchanged (history : CapturedSessionHistory P)
    (session : SessionChainRegistry P) : Prop :=
  (∀ e ∈ history.envelopes, (session.classify e).isDuplicate = true) ∧
    session.heads = history.heads ∧ session.gameId = history.game ∧
    session.roster = history.roster

instance (history : CapturedSessionHistory P) (session : SessionChainRegistry P) :
    Decidable (history.Unchanged session) :=
  inferInstanceAs (Decidable (_ ∧ _))

/-- The loop over the heads: they are in seat order, and their prefixes are within the limit. -/
def checkHeads (roster : Roster P) (maxEnvelopes envelopeCount : ℕ) (previousSeat : Option ℕ) :
    List ChainHead → Except String Unit
  | [] => return ()
  | head :: rest => do
      match roster.seatOf head.from_ with
      | none => throw "Invalid session history heads or seat order"
      | some seat => do
          throwIf ((∃ previous, previousSeat = some previous ∧ seat ≤ previous) ∨
            MAX_SAFE_INTEGER < head.seq) "Invalid session history heads or seat order"
          throwIf (maxEnvelopes - envelopeCount ≤ head.seq)
            "Session history envelope limit exceeded"
          checkHeads roster maxEnvelopes (envelopeCount + (head.seq + 1)) (some seat) rest

/-- The prefix of a sender up to its head. -/
def readPrefix (session : SessionChainRegistry P) (head : ChainHead) :
    Except String (List SignedEnvelope) :=
  match session.readRange head.from_ 0 head.seq with
  | .ok (.complete candidates) => do
      throwIf (candidates.length ≠ head.seq + 1)
        "Session history requires complete sender prefixes"
      return candidates
  | _ => throw "Session history requires complete sender prefixes"

/-- The loop over the prefix of one sender: every envelope verifies and names the one before. -/
def checkPrefix (P : Primitives q G) (ed : Ed25519) (game : GameId) (head : ChainHead) (seq : ℕ)
    (previous : Hash256) : List SignedEnvelope → Except String Unit
  | [] => throwIf (previous ≠ head.hash) "Session history does not reach its captured head"
  | e :: rest => do
      let artifact ← (verifyArtifact ed e).mapError fun _ => "Could not capture session history"
      throwIf (artifact.game ≠ game ∨ artifact.from_ ≠ head.from_ ∨ artifact.seq ≠ seq ∨
        artifact.prev ≠ previous) "Invalid session history sender chain"
      checkPrefix P ed game head (seq + 1) (P.hashEnvelope artifact) rest

/-- `captureSessionHistory`. -/
def captureSessionHistory (ed : Ed25519) (session : SessionChainRegistry P)
    (limits : SessionHistoryCaptureLimits) : Except String (CapturedSessionHistory P) := do
  throwIf (limits.maxEnvelopes < 1 ∨ MAX_SAFE_INTEGER < limits.maxEnvelopes ∨
      limits.maxBytes < 1 ∨ MAX_SAFE_INTEGER < limits.maxBytes)
    "Session history limits must be positive safe integers"
  let heads := session.heads
  checkHeads session.roster limits.maxEnvelopes 0 none heads
  let prefixes ← heads.mapM (readPrefix session)
  throwIf (withinBytes limits.maxBytes 0 prefixes.flatten = false)
    "Invalid or over-budget session history envelope bytes"
  (heads.zip prefixes).forM fun captured =>
    checkPrefix P ed session.gameId captured.1 0 ZERO_HASH captured.2
  let history : CapturedSessionHistory P :=
    ⟨session.gameId, session.roster, heads, prefixes.flatten⟩
  throwIf (¬ history.Unchanged session) "Session history heads changed"
  return history

/-! ## Receipts -/

/-- What `persistAcceptedEnvelope` answers; `none` for an exception. -/
inductive AcceptedEnvelopePersistenceOutcome where
  | stored (record : SignedEnvelope)
  | duplicate (record : SignedEnvelope)
  | conflict (existing received : SignedEnvelope)
  | exception

/-- How a store has kept an envelope. -/
inductive PersistenceStatus where
  | stored | duplicate
  deriving DecidableEq, Repr

/-- `PersistentSessionReceiveResult`, without the envelope it was asked about. -/
inductive PersistentSessionReceiveResult where
  | accepted (persistence : PersistenceStatus)
  | duplicate (persistence : PersistenceStatus)
  | rejected (reason : SessionIngestResult)
  | durableConflict (existing : SignedEnvelope)

/-- What a call of `receive` throws. -/
inductive PersistentSessionReceiverError where
  | message (text : String)
  | store
  | changed (reason : SessionIngestResult)

/-- The record of a store, checked: it is the envelope that was to be kept. -/
def durableRecord (ed : Ed25519) (received : SignedEnvelope) :
    AcceptedEnvelopePersistenceOutcome →
      Except PersistentSessionReceiverError (PersistenceStatus ⊕ SignedEnvelope)
  | .exception => throw .store
  | .conflict existing candidate => do
      let candidate ← (verifyArtifact ed candidate).mapError fun _ =>
        .message "Accepted envelope store returned an invalid conflict candidate"
      throwIf (candidate ≠ received)
        (.message "Accepted envelope store reported a conflict for a different candidate")
      let existing ← (verifyArtifact ed existing).mapError fun _ =>
        .message "Accepted envelope store returned an invalid artifact"
      return .inr existing
  | .stored record => do
      let durable ← (verifyArtifact ed record).mapError fun _ =>
        .message "Accepted envelope store returned an invalid artifact"
      throwIf (durable ≠ received)
        (.message "Accepted envelope store committed a different artifact")
      return .inl .stored
  | .duplicate record => do
      let durable ← (verifyArtifact ed record).mapError fun _ =>
        .message "Accepted envelope store returned an invalid artifact"
      throwIf (durable ≠ received)
        (.message "Accepted envelope store committed a different artifact")
      return .inl .duplicate

/-- `#persistThenIngest`: the registry was asked before the store, and is asked again after it. -/
def persistThenIngest (ed : Ed25519) (before after : SessionChainRegistry P)
    (received : SignedEnvelope) (outcome : AcceptedEnvelopePersistenceOutcome) :
    Except PersistentSessionReceiverError PersistentSessionReceiveResult × SessionChainRegistry P :=
  match before.classify received with
  | .chain (.accepted _) =>
      match durableRecord ed received outcome with
      | .error error => (.error error, after)
      | .ok (.inr existing) => (.ok (.durableConflict existing), after)
      | .ok (.inl persistence) =>
          match after.ingest received with
          | (.chain (.accepted _), next) => (.ok (.accepted persistence), next)
          | (.chain (.duplicate _), next) => (.ok (.duplicate persistence), next)
          | (reason, _) => (.error (.changed reason), after)
  | .chain (.duplicate _) =>
      match durableRecord ed received outcome with
      | .error error => (.error error, after)
      | .ok (.inr existing) => (.ok (.durableConflict existing), after)
      | .ok (.inl persistence) => (.ok (.duplicate persistence), after)
  | reason => (.ok (.rejected reason), after)

/-! ## What a capture holds -/

variable {session : SessionChainRegistry P} {logs : ℕ → List SignedEnvelope}
  {history : CapturedSessionHistory P} {ed : Ed25519}

theorem readPrefix_eq_ok {head : ChainHead} {envelopes : List SignedEnvelope}
    (hlogs : HoldsLogs session logs) {seat : ℕ} (hseat : seat < session.roster.size)
    (hhead : (session.chains seat).head = some head)
    (h : readPrefix session head = .ok envelopes) : envelopes = logs seat := by
  have hchain := hlogs.chain seat
  have hsender := seatOf_sender hlogs hseat
  rw [hchain.head] at hhead
  obtain ⟨last, hlast, rfl⟩ := Option.map_eq_some_iff.1 hhead
  have hpos : 0 < (logs seat).length := by
    rw [List.length_pos_iff]
    rintro hnil
    simp [hnil] at hlast
  unfold readPrefix at h
  simp only at h
  by_cases hsafe : (logs seat).length - 1 ≤ MAX_SAFE_INTEGER
  · rw [hlogs.readRange hsender (Nat.zero_le _) hsafe, if_pos (by omega)] at h
    simp only at h
    obtain ⟨-, h⟩ := check_bind_eq_ok.1 h
    cases h
    simp only [List.drop_zero, Nat.sub_zero]
    rw [List.take_of_length_le (by omega)]
  · have hbad : session.readRange (session.chains seat).sender 0 ((logs seat).length - 1) =
        .error "toSeq must be an unsigned safe integer" := by
      rw [SessionChainRegistry.readRange, throwIf_neg (by omega), ok_bind, throwIf_pos (by omega)]
      rfl
    rw [hbad] at h
    cases h

/-- The prefixes of the heads of some seats are the logs of these seats. -/
theorem readPrefixes_eq_ok (hlogs : HoldsLogs session logs) {seats : List ℕ}
    (hseats : ∀ seat ∈ seats, seat < session.roster.size) {prefixes : List (List SignedEnvelope)}
    (h : (seats.filterMap fun seat => (session.chains seat).head).mapM (readPrefix session) =
      .ok prefixes) : prefixes.flatten = seats.flatMap logs := by
  induction seats generalizing prefixes with
  | nil =>
      cases h
      rfl
  | cons seat rest ih =>
      have hrest : ∀ seat ∈ rest, seat < session.roster.size := fun other hother =>
        hseats other (List.mem_cons_of_mem _ hother)
      rw [List.flatMap_cons]
      cases hhead : (session.chains seat).head with
      | none =>
          rw [List.filterMap_cons_none (f := fun seat => (session.chains seat).head) hhead] at h
          have hempty : logs seat = [] := by
            have hnone := (hlogs.chain seat).head
            rw [hhead] at hnone
            exact List.getLast?_eq_none_iff.1 (Option.map_eq_none_iff.1 hnone.symm)
          rw [hempty, List.nil_append]
          exact ih hrest h
      | some head =>
          rw [List.filterMap_cons_some (f := fun seat => (session.chains seat).head) hhead,
            List.mapM_cons] at h
          obtain ⟨first, hfirst, h⟩ := bind_eq_ok.1 h
          obtain ⟨others, hothers, h⟩ := bind_eq_ok.1 h
          cases h
          rw [List.flatten_cons, ih hrest hothers,
            readPrefix_eq_ok hlogs (hseats seat List.mem_cons_self) hhead hfirst]

/-- **A capture holds the logs of the registry.** -/
theorem captureSessionHistory_eq_ok {limits : SessionHistoryCaptureLimits}
    (hlogs : HoldsLogs session logs) (h : captureSessionHistory ed session limits = .ok history) :
    history.envelopes = held session logs ∧ history.heads = session.heads ∧
      history.Unchanged session := by
  unfold captureSessionHistory at h
  obtain ⟨-, h⟩ := check_bind_eq_ok.1 h
  obtain ⟨-, h⟩ := check_bind_eq_ok.1 h
  obtain ⟨prefixes, hprefixes, h⟩ := bind_eq_ok.1 h
  obtain ⟨-, h⟩ := check_bind_eq_ok.1 h
  obtain ⟨-, h⟩ := check_bind_eq_ok.1 h
  obtain ⟨hunchanged, h⟩ := check_bind_eq_ok.1 h
  cases h
  exact ⟨readPrefixes_eq_ok hlogs (fun seat hseat => List.mem_range.1 hseat) hprefixes, rfl,
    not_not.1 (throwIf_eq_ok.1 hunchanged)⟩

/-- An accepted envelope moves a head. -/
theorem heads_ne_of_accepted (hlogs : HoldsLogs session logs) {e : SignedEnvelope}
    {head : ChainHead} (haccepted : session.classify e = .chain (.accepted head)) :
    (session.ingest e).2.heads ≠ session.heads := by
  obtain ⟨-, seat, hseat, hseq, -⟩ := hlogs.classify_accepted.1 ⟨head, haccepted⟩
  have hnext := hlogs.ingest_of_accepted hseat haccepted
  have hlt := Roster.lt_size_of_seatOf hseat
  have hhead := (hnext.chain seat).head
  rw [Function.update_self, List.getLast?_concat, Option.map_some, List.length_append,
    List.length_singleton, Nat.add_sub_cancel] at hhead
  intro hsame
  have hmem : (⟨((session.ingest e).2.chains seat).sender, (logs seat).length,
      P.hashEnvelope e⟩ : ChainHead) ∈ (session.ingest e).2.heads := by
    refine List.mem_filterMap.2 ⟨seat, List.mem_range.2 ?_, hhead⟩
    rw [(ingest_scope session e).2]
    exact hlt
  rw [hsame] at hmem
  obtain ⟨other, hother, hold⟩ := List.mem_filterMap.1 hmem
  rw [(hlogs.chain other).head] at hold
  obtain ⟨last, hlast, hold⟩ := Option.map_eq_some_iff.1 hold
  simp only [ChainHead.mk.injEq] at hold
  -- the head would stand at the end of the old log of the same sender
  have hsender : (session.chains other).sender = e.from_ := by
    have hroster := (ingest_scope session e).2
    rw [hold.1]
    exact sender_of_seatOf hnext (by rw [hroster]; exact hseat)
  have hsame : other = seat := by
    have hown := seatOf_sender hlogs (List.mem_range.1 hother)
    rw [hsender, hseat] at hown
    exact (Option.some.inj hown).symm
  subst hsame
  have hpos : 0 < (logs other).length := by
    rw [List.length_pos_iff]
    rintro hnil
    simp [hnil] at hlast
  omega

/-- A capture notices an accepted envelope. -/
theorem not_unchanged_of_accepted (hlogs : HoldsLogs session logs)
    (hheads : history.heads = session.heads) {e : SignedEnvelope} {head : ChainHead}
    (haccepted : session.classify e = .chain (.accepted head)) :
    ¬ history.Unchanged (session.ingest e).2 := fun hunchanged =>
  heads_ne_of_accepted hlogs haccepted (hunchanged.2.1.trans hheads)

variable (ed session) in
/-- **A receipt on a registry that nobody else has changed**: the envelope was accepted and is in
the registry now, or the registry is as it was. -/
theorem persistThenIngest_eq (received : SignedEnvelope)
    (outcome : AcceptedEnvelopePersistenceOutcome) :
    (∃ persistence head, session.classify received = .chain (.accepted head) ∧
      persistThenIngest ed session session received outcome =
        (.ok (.accepted persistence), (session.ingest received).2)) ∨
    (persistThenIngest ed session session received outcome).2 = session ∧
      ∀ persistence, (persistThenIngest ed session session received outcome).1 =
          .ok (.accepted persistence) → False := by
  unfold persistThenIngest
  cases hclassify : session.classify received with
  | wrong_game expected actual => exact .inr ⟨rfl, by simp⟩
  | unknown_sender sender => exact .inr ⟨rfl, by simp⟩
  | chain result =>
      cases result with
      | accepted head =>
          simp only
          cases durableRecord ed received outcome with
          | error error => exact .inr ⟨rfl, by simp⟩
          | ok record =>
              cases record with
              | inr existing => exact .inr ⟨rfl, by simp⟩
              | inl persistence =>
                  have hingest : session.ingest received =
                      (.chain (.accepted head), (session.ingest received).2) :=
                    Prod.ext (HoldsLogs.ingest_fst.trans hclassify) rfl
                  refine .inl ⟨persistence, head, rfl, ?_⟩
                  simp only
                  rw [hingest]
      | duplicate existing =>
          simp only
          cases durableRecord ed received outcome with
          | error error => exact .inr ⟨rfl, by simp⟩
          | ok record =>
              cases record with
              | inr existing => exact .inr ⟨rfl, by simp⟩
              | inl persistence => exact .inr ⟨rfl, by simp⟩
      | wrong_sender expected actual => exact .inr ⟨rfl, by simp⟩
      | gap expected actual => exact .inr ⟨rfl, by simp⟩
      | broken_prev expected actual => exact .inr ⟨rfl, by simp⟩
      | equivocation existing => exact .inr ⟨rfl, by simp⟩

end

end Tablefolk
