import Tablefolk.Lib.SerialCalls
import Tablefolk.Session.Capture
import Tablefolk.Session.LobbyRuns

/-!
# Durable receivers

The model of `session/persistent-receiver.ts` and of `session/persistent-lobby-receiver.ts`: the
calls of a receiver wait for one another, and each of them asks the store before it changes the
registry.  What the store answers is arbitrary, and so is what others do to the registry meanwhile.

* `PersistentSessionReceiver`, `PersistentLobbyReceiver`: the receivers as calls that take turns.
* `durable_before_visible`: what is in a registry was first acknowledged by the store.
-/

namespace Tablefolk

section

variable {q : ℕ} {G : Type} [AddCommGroup G] [Module (ZMod q) G] {P : Primitives q G}
variable (ed : Ed25519)

/-! ## The session receiver -/

/-- `PersistentSessionReceiver`; others may ingest envelopes. -/
def PersistentSessionReceiver : Serial.Protocol (SessionChainRegistry P) SignedEnvelope
    (SessionChainRegistry P) AcceptedEnvelopePersistenceOutcome
    (Except PersistentSessionReceiverError PersistentSessionReceiveResult) SignedEnvelope where
  check candidate :=
    match verifyArtifact ed candidate with
    | .error _ => some (.error (.message "Received envelope artifact is invalid"))
    | .ok _ => none
  classify registry received :=
    match registry.classify received with
    | .chain (.accepted _) | .chain (.duplicate _) => .ok registry
    | reason => .error (.ok (.rejected reason))
  settle registry received before outcome := persistThenIngest ed before registry received outcome
  write registry received := (registry.ingest received).2

/-! ## The lobby receiver -/

/-- The status of a roster snapshot. -/
inductive RosterSnapshotStatus where
  | stored | duplicate | stale
  deriving DecidableEq, Repr

/-- What `persistAcceptedRoster` answers. -/
inductive AcceptedLobbyRosterPersistenceOutcome where
  | snapshot (status : RosterSnapshotStatus) (transcriptStatus : PersistenceStatus)
      (snapshot : SignedEnvelope)
  | conflict (existing received : SignedEnvelope)
  | exception

/-- `AcceptedLobbyEnvelopeStore`: what each of its methods answers when it is called. -/
structure LobbyStoreAnswer where
  envelope : AcceptedEnvelopePersistenceOutcome
  roster : AcceptedLobbyRosterPersistenceOutcome

/-- `PersistentLobbyReceiveResult`, without the value of the transition. -/
inductive PersistentLobbyReceiveResult where
  | received (status : LobbyStatus) (persistence : PersistenceStatus)
      (rosterSnapshot : Option RosterSnapshotStatus)
  | rejected (reason : LobbyRejection)
  | durableConflict (existing : SignedEnvelope)

/-- What a call of the lobby receiver throws. -/
inductive PersistentLobbyReceiverError where
  | message (text : String)
  | store
  | lobby (error : LobbyError)
  | changed (outcome : LobbyStatus)

/-- The methods of `PersistentLobbyReceiver`. -/
inductive LobbyReceive where
  | receiveKnown (received : SignedEnvelope)
  | receiveAdmittedJoin (received : SignedEnvelope)
  | receiveRosterMemberJoin (received : SignedEnvelope)
  | receiveRoster (received : SignedEnvelope)
  | receiveReady (received : SignedEnvelope)

/-- What a method commits. -/
def LobbyReceive.commit : LobbyReceive → LobbyCall
  | .receiveKnown received => .ingest received
  | .receiveAdmittedJoin received => .bootstrapJoin received
  | .receiveRosterMemberJoin received => .bootstrapRosterMemberJoin received
  | .receiveRoster received => .ingestRoster received
  | .receiveReady received => .ingestReady received

/-- The envelope of a call. -/
def LobbyReceive.received (call : LobbyReceive) : SignedEnvelope := call.commit.received

/-- `isLobbyControlType`. -/
def isLobbyControlType (type : EnvelopeMessageType) : Bool :=
  type = .JOIN ∨ type = .ROSTER ∨ type = .READY

/-- What a call returns or throws. -/
abbrev LobbyReceipt := Except PersistentLobbyReceiverError PersistentLobbyReceiveResult

/-- A classification: the status that the store is asked with, or what the call ends with. -/
def classified {α : Type} : Except LobbyError (LobbyResult α) → Except LobbyReceipt LobbyStatus
  | .error error => .error (.error (.lobby error))
  | .ok (.rejected reason) => .error (.ok (.rejected reason))
  | .ok (.accepted _) => .ok .accepted
  | .ok (.duplicate _) => .ok .duplicate

/-- `snapshotArtifact`. -/
def snapshotLobbyArtifact (candidate : SignedEnvelope) (message : String) :
    Except PersistentLobbyReceiverError SignedEnvelope :=
  (verifyArtifact ed candidate).mapError fun _ => .message message

/-- `durableConflict`. -/
def durableConflict (existing candidate received : SignedEnvelope) : LobbyReceipt := do
  let persistedReceived ← snapshotLobbyArtifact ed candidate
    "Accepted lobby store returned an invalid conflict candidate"
  throwIf (persistedReceived ≠ received)
    (.message "Accepted lobby store reported a conflict for a different candidate")
  let existing ← snapshotLobbyArtifact ed existing
    "Accepted lobby store returned invalid conflict evidence"
  return .durableConflict existing

/-- `requireExactDurableArtifact`. -/
def requireExactDurableArtifact (record received : SignedEnvelope) :
    Except PersistentLobbyReceiverError Unit := do
  let durable ← snapshotLobbyArtifact ed record
    "Accepted lobby store returned an invalid envelope artifact"
  throwIf (durable ≠ received)
    (.message "Accepted lobby store committed a different envelope artifact")

/-- The checks of `#persistRosterTransition` on the snapshot of the store. -/
def checkRosterSnapshot (host : IdentityPublicKey) (received : SignedEnvelope)
    (classification : LobbyStatus) (status : RosterSnapshotStatus) (snapshot : SignedEnvelope) :
    Except PersistentLobbyReceiverError Unit := do
  let snapshot ← snapshotLobbyArtifact ed snapshot
    "Accepted lobby store returned an invalid roster snapshot"
  if status = .stale then
    throwIf (snapshot.game ≠ received.game ∨ snapshot.from_ ≠ host ∨ snapshot.type ≠ .ROSTER ∨
        snapshot.seq ≤ received.seq)
      (.message "Accepted lobby store returned an invalid newer roster snapshot")
    throwIf (classification = .accepted)
      (.message "Durable roster is ahead of the live lobby; recovery is required")
  else
    throwIf (snapshot ≠ received)
      (.message "Accepted lobby store committed a different roster artifact")

variable (hashRosterBody : RosterBody → Hash256)

/-- `commitTransition`. -/
def commitTransition (lobby : LobbyChainRegistry P) (call : LobbyCall)
    (classification : LobbyStatus) (persistence : PersistenceStatus)
    (rosterSnapshot : Option RosterSnapshotStatus) : LobbyReceipt × LobbyChainRegistry P :=
  match lobby.apply hashRosterBody call with
  | (.error error, next) => (.error (.lobby error), next)
  | (.ok status, next) =>
      if status = .rejected ∨ status ≠ classification then (.error (.changed status), next)
      else (.ok (.received status persistence rosterSnapshot), next)

/-- `#persistEnvelopeTransition`, from the answer of the store on. -/
def persistEnvelopeTransition (lobby : LobbyChainRegistry P) (call : LobbyCall)
    (classification : LobbyStatus) (outcome : AcceptedEnvelopePersistenceOutcome) :
    LobbyReceipt × LobbyChainRegistry P :=
  let commitRecord (record : SignedEnvelope) (status : PersistenceStatus) :=
    match requireExactDurableArtifact ed record call.received with
    | .error error => (.error error, lobby)
    | .ok () => commitTransition hashRosterBody lobby call classification status none
  match outcome with
  | .exception => (.error .store, lobby)
  | .conflict existing candidate => (durableConflict ed existing candidate call.received, lobby)
  | .stored record => commitRecord record .stored
  | .duplicate record => commitRecord record .duplicate

/-- `#persistRosterTransition`, from the answer of the store on. -/
def persistRosterTransition (lobby : LobbyChainRegistry P) (received : SignedEnvelope)
    (classification : LobbyStatus) (outcome : AcceptedLobbyRosterPersistenceOutcome) :
    LobbyReceipt × LobbyChainRegistry P :=
  match outcome with
  | .exception => (.error .store, lobby)
  | .conflict existing candidate => (durableConflict ed existing candidate received, lobby)
  | .snapshot status transcriptStatus snapshot =>
      match checkRosterSnapshot ed lobby.context.host received classification status snapshot with
      | .error error => (.error error, lobby)
      | .ok () => commitTransition hashRosterBody lobby (.ingestRoster received) classification
          transcriptStatus (some status)

/-- `PersistentLobbyReceiver`; others may make calls on the lobby. -/
def PersistentLobbyReceiver : Serial.Protocol (LobbyChainRegistry P) LobbyReceive LobbyStatus
    LobbyStoreAnswer LobbyReceipt LobbyCall where
  check call :=
    match snapshotLobbyArtifact ed call.received "Received lobby envelope artifact is invalid" with
    | .error error => some (.error error)
    | .ok _ => none
  classify lobby call :=
    match call with
    | .receiveKnown received =>
        if isLobbyControlType received.type = true then
          .error (.error (.message
            (received.type.text ++ " must use its dedicated lobby receive method")))
        else classified (.ok (lobby.classify received))
    | .receiveAdmittedJoin received => classified (.ok (lobby.classifyBootstrapJoin received))
    | .receiveRosterMemberJoin received =>
        classified (.ok (lobby.classifyRosterMemberJoin received))
    | .receiveRoster received => classified (lobby.classifyRoster hashRosterBody received)
    | .receiveReady received => classified (.ok (lobby.classifyReady received))
  settle lobby call classification answer :=
    match call with
    | .receiveRoster received =>
        persistRosterTransition ed hashRosterBody lobby received classification answer.roster
    | call =>
        persistEnvelopeTransition ed hashRosterBody lobby call.commit classification answer.envelope
  write lobby call := (lobby.apply hashRosterBody call).2

/-! ## What a registry holds -/

/-- The registry has the envelope. -/
def SessionChainRegistry.Holds (registry : SessionChainRegistry P) (e : SignedEnvelope) : Prop :=
  ∃ seat seq, (registry.chains seat).accepted seq = some e

/-- A sender chain of the lobby has the envelope. -/
def LobbyChainRegistry.InChains (lobby : LobbyChainRegistry P) (e : SignedEnvelope) : Prop :=
  ∃ identity chain seq, lobby.chains identity = some chain ∧ chain.accepted seq = some e

/-- The lobby has the envelope somewhere. -/
def LobbyChainRegistry.Holds (lobby : LobbyChainRegistry P) (e : SignedEnvelope) : Prop :=
  lobby.InChains e ∨ lobby.rosterArtifact = some e ∨
  (∃ hash identity, (identity, e) ∈ lobby.readyByRoster hash) ∨
  ∃ registry, lobby.finalizedRegistry = some registry ∧ registry.Holds e

variable {ed hashRosterBody} {registry : SessionChainRegistry P} {logs : ℕ → List SignedEnvelope}

theorem holds_iff (h : HoldsLogs registry logs) {e : SignedEnvelope} :
    registry.Holds e ↔ ∃ seat, e ∈ logs seat := by
  unfold SessionChainRegistry.Holds
  constructor
  · rintro ⟨seat, seq, he⟩
    rw [(h.chain seat).accepted] at he
    exact ⟨seat, List.mem_of_getElem? he⟩
  · rintro ⟨seat, he⟩
    obtain ⟨seq, hseq⟩ := List.mem_iff_getElem?.1 he
    exact ⟨seat, seq, by rw [(h.chain seat).accepted, hseq]⟩

/-- Ingesting an envelope brings in no other. -/
theorem holds_ingest (h : HoldsLogs registry logs) (received : SignedEnvelope) :
    (∃ logs', HoldsLogs (registry.ingest received).2 logs') ∧
      ∀ e, (registry.ingest received).2.Holds e → registry.Holds e ∨ e = received := by
  rcases h.ingest (e := received) with hsame | ⟨seat, head, -, -, hgrown⟩
  · rw [hsame]
    exact ⟨⟨logs, h⟩, fun e he => .inl he⟩
  · refine ⟨⟨_, hgrown⟩, fun e he => ?_⟩
    obtain ⟨other, hother⟩ := (holds_iff hgrown).1 he
    by_cases hseat : other = seat
    · subst hseat
      rw [Function.update_self, List.mem_append, List.mem_singleton] at hother
      exact hother.imp_left fun hmem => (holds_iff h).2 ⟨other, hmem⟩
    · rw [Function.update_of_ne hseat] at hother
      exact .inl ((holds_iff h).2 ⟨other, hother⟩)

/-! ## Receipts of the session receiver -/

/-- The store has kept just this envelope. -/
def AcceptedEnvelopePersistenceOutcome.Acknowledges (outcome : AcceptedEnvelopePersistenceOutcome)
    (e : SignedEnvelope) : Prop :=
  outcome = .stored e ∨ outcome = .duplicate e

theorem durableRecord_eq_ok {received : SignedEnvelope}
    {outcome : AcceptedEnvelopePersistenceOutcome} {persistence : PersistenceStatus}
    (h : durableRecord ed received outcome = .ok (.inl persistence)) :
    outcome.Acknowledges received := by
  unfold durableRecord at h
  cases outcome with
  | exception => cases h
  | conflict existing candidate =>
      obtain ⟨persisted, hpersisted, hrest⟩ := bind_eq_ok.1 h
      obtain ⟨-, hlast⟩ := check_bind_eq_ok.1 hrest
      obtain ⟨evidence, hevidence, hreturn⟩ := bind_eq_ok.1 hlast
      cases hreturn
  | stored record =>
      obtain ⟨durable, hdurable, hrest⟩ := bind_eq_ok.1 h
      obtain ⟨hsame, -⟩ := check_bind_eq_ok.1 hrest
      obtain ⟨rfl, -⟩ := mapError_verifyArtifact_eq_ok.1 hdurable
      rw [not_not.1 (throwIf_eq_ok.1 hsame)]
      exact .inl rfl
  | duplicate record =>
      obtain ⟨durable, hdurable, hrest⟩ := bind_eq_ok.1 h
      obtain ⟨hsame, -⟩ := check_bind_eq_ok.1 hrest
      obtain ⟨rfl, -⟩ := mapError_verifyArtifact_eq_ok.1 hdurable
      rw [not_not.1 (throwIf_eq_ok.1 hsame)]
      exact .inr rfl

/-- Ingesting what the registry does not accept leaves it alone. -/
theorem ingest_duplicate {registry next : SessionChainRegistry P} {received : SignedEnvelope}
    {result : SessionIngestResult} (h : registry.ingest received = (result, next))
    (hresult : ∀ head, result ≠ .chain (.accepted head)) : next = registry := by
  have hfirst : registry.classify received = result := by rw [← HoldsLogs.ingest_fst, h]
  have hsame : (registry.ingest received).2 = registry :=
    HoldsLogs.ingest_of_not_accepted fun head => by
      rw [hfirst]
      exact hresult head
  rwa [h] at hsame

/-- What follows a classification that was not a rejection. -/
theorem ingest_cases {registry next : SessionChainRegistry P} {received : SignedEnvelope}
    {persistence : PersistenceStatus}
    {receipt : Except PersistentSessionReceiverError PersistentSessionReceiveResult}
    (h : (match registry.ingest received with
      | (.chain (.accepted _), next) => (.ok (.accepted persistence), next)
      | (.chain (.duplicate _), next) => (.ok (.duplicate persistence), next)
      | (reason, _) => (.error (.changed reason), registry)) = (receipt, next)) :
    receipt = .ok (.accepted persistence) ∧ next = (registry.ingest received).2 ∨
      next = registry := by
  cases hingest : registry.ingest received with
  | mk result ingested =>
      rw [hingest] at h
      cases result with
      | wrong_game expected actual => exact .inr (Prod.ext_iff.1 h).2.symm
      | unknown_sender sender => exact .inr (Prod.ext_iff.1 h).2.symm
      | chain result =>
          cases result with
          | accepted head => exact .inl ⟨(Prod.ext_iff.1 h).1.symm, (Prod.ext_iff.1 h).2.symm⟩
          | duplicate existing =>
              have hnext : ingested = next := (Prod.ext_iff.1 h).2
              rw [← hnext]
              exact .inr (ingest_duplicate hingest fun head => by rintro ⟨⟩)
          | wrong_sender expected actual => exact .inr (Prod.ext_iff.1 h).2.symm
          | gap expected actual => exact .inr (Prod.ext_iff.1 h).2.symm
          | broken_prev expected actual => exact .inr (Prod.ext_iff.1 h).2.symm
          | equivocation existing => exact .inr (Prod.ext_iff.1 h).2.symm

/-- **A receipt**, whatever others have done to the registry meanwhile: the envelope was
acknowledged and accepted, or the registry is as it was. -/
theorem persistThenIngest_cases {before after next : SessionChainRegistry P}
    {received : SignedEnvelope} {outcome : AcceptedEnvelopePersistenceOutcome}
    {receipt : Except PersistentSessionReceiverError PersistentSessionReceiveResult}
    (h : persistThenIngest ed before after received outcome = (receipt, next)) :
    (∃ persistence, receipt = .ok (.accepted persistence) ∧ next = (after.ingest received).2 ∧
      outcome.Acknowledges received) ∨ next = after := by
  unfold persistThenIngest at h
  cases hrecord : durableRecord ed received outcome with
  | error error =>
      simp only [hrecord] at h
      split at h <;> exact .inr (Prod.ext_iff.1 h).2.symm
  | ok record =>
      cases record with
      | inr existing =>
          simp only [hrecord] at h
          split at h <;> exact .inr (Prod.ext_iff.1 h).2.symm
      | inl persistence =>
          simp only [hrecord] at h
          split at h
          · refine (ingest_cases h).imp_left ?_
            rintro ⟨hreceipt, hnext⟩
            exact ⟨persistence, hreceipt, hnext, durableRecord_eq_ok hrecord⟩
          · exact .inr (Prod.ext_iff.1 h).2.symm
          · exact .inr (Prod.ext_iff.1 h).2.symm

/-- What a computation throws has a property. -/
def Raises {ε α : Type} (x : Except ε α) (p : ε → Prop) : Prop :=
  ∀ error, x = .error error → p error

theorem Raises.bind {ε α β : Type} {x : Except ε α} {f : α → Except ε β} {p : ε → Prop}
    (hx : Raises x p) (hf : ∀ a, Raises (f a) p) : Raises (x >>= f) p := by
  intro error h
  rcases bind_eq_error.1 h with h | ⟨a, -, h⟩
  · exact hx error h
  · exact hf a error h

theorem raises_throwIf {ε : Type} {bad : Prop} [Decidable bad] {error : ε} {p : ε → Prop}
    (h : p error) : Raises (throwIf bad error) p := by
  intro thrown hthrown
  rwa [← (throwIf_eq_error.1 hthrown).2]

theorem raises_pure {ε α : Type} {a : α} {p : ε → Prop} : Raises (pure a : Except ε α) p := by
  rintro error ⟨⟩

theorem raises_mapError {ε δ α : Type} {x : Except ε α} {error : δ} {p : δ → Prop} (h : p error) :
    Raises (x.mapError fun _ => error) p := by
  rintro thrown hthrown
  cases x with
  | error cause =>
      cases hthrown
      exact h
  | ok a => cases hthrown

/-- The registry has changed during the durable commit. -/
def PersistentSessionReceiverError.isChanged : PersistentSessionReceiverError → Prop
  | .changed _ => True
  | _ => False

theorem durableRecord_raises (ed : Ed25519) (received : SignedEnvelope)
    (outcome : AcceptedEnvelopePersistenceOutcome) :
    Raises (durableRecord ed received outcome) fun error => ¬ error.isChanged := by
  cases outcome with
  | exception =>
      rintro error ⟨⟩
      exact id
  | conflict existing candidate =>
      exact (raises_mapError id).bind fun _ => (raises_throwIf id).bind fun _ =>
        (raises_mapError id).bind fun _ => raises_pure
  | stored record =>
      exact (raises_mapError id).bind fun _ => (raises_throwIf id).bind fun _ => raises_pure
  | duplicate record =>
      exact (raises_mapError id).bind fun _ => (raises_throwIf id).bind fun _ => raises_pure

/-- The result of a receipt is that the envelope is in the registry. -/
def visibleReceipt :
    Except PersistentSessionReceiverError PersistentSessionReceiveResult → Prop
  | .ok (.accepted _) | .ok (.duplicate _) => True
  | _ => False

/-- The failure of a receipt is that the registry has changed. -/
def changedReceipt :
    Except PersistentSessionReceiverError PersistentSessionReceiveResult → Prop
  | .error error => error.isChanged
  | .ok _ => False

/-- A receipt that nobody disturbs does not find a changed registry. -/
theorem persistThenIngest_undisturbed (registry : SessionChainRegistry P)
    (received : SignedEnvelope) (outcome : AcceptedEnvelopePersistenceOutcome) :
    ¬ changedReceipt (persistThenIngest ed registry registry received outcome).1 := by
  unfold persistThenIngest
  cases hrecord : durableRecord ed received outcome with
  | error error =>
      have herror := durableRecord_raises ed received outcome error hrecord
      split
      · exact herror
      · exact herror
      · exact id
  | ok record =>
      cases record with
      | inr existing => split <;> exact id
      | inl persistence =>
          split
          · rename_i head haccepted
            cases hingest : registry.ingest received with
            | mk answer ingested =>
                have hsame : answer = .chain (.accepted head) := by
                  rw [← haccepted, ← HoldsLogs.ingest_fst, hingest]
                subst hsame
                exact id
          · exact id
          · exact id

/-! ## Runs -/

section Runs

open Serial

variable {S C K A R W : Type}

/-- How a receiver is looked at. -/
structure Contents (S C A R W : Type) where
  /-- the registry has the envelope -/
  holds : S → SignedEnvelope → Prop
  /-- the envelope that somebody else brings in -/
  written : W → SignedEnvelope
  /-- the call has brought in the envelope, which the store has acknowledged -/
  acknowledged : Settled C A R → SignedEnvelope → Prop
  /-- the receipts of calls that may have changed the registry -/
  mutates : R → Prop
  /-- the registry has changed during the durable commit -/
  changed : R → Prop

/-- The envelope was there at first, somebody else has brought it in, or the store has
acknowledged it. -/
def Contents.Accounted (contents : Contents S C A R W) (first : S) (inputs : List (Input C A W))
    (done : List (Settled C A R)) (e : SignedEnvelope) : Prop :=
  contents.holds first e ∨ (∃ w, .write w ∈ inputs ∧ contents.written w = e) ∨
    ∃ settled ∈ done, contents.acknowledged settled e

/-- What a receiver promises about a state of a run. -/
structure DurableBeforeVisible (receiver : Protocol S C K A R W) (contents : Contents S C A R W)
    (first : S) (inputs : List (Input C A W)) (s : State S C K A R) : Prop where
  /-- Calls settle in the order in which they were made. -/
  ordered : s.ids = List.range s.next
  /-- When no call is waiting for the store, the next one has its turn. -/
  turn : s.active = none → s.queue ≠ [] →
    ∃ s', step receiver s .turn = some s' ∧ s'.queue = s.queue.tail
  /-- Whatever the store answers, the call that waits for it settles. -/
  answer : s.active ≠ none → ∀ a, ∃ s', step receiver s (.answer a) = some s' ∧ s'.active = none
  /-- With no other writers, the registry is what the calls leave when each of them runs alone, in
  this order. -/
  alone : (∀ w, .write w ∉ inputs) → Sequential receiver first s.done s.resource
  /-- The store comes first. -/
  durable : ∀ e, contents.holds s.resource e → contents.Accounted first inputs s.done e
  /-- A call that ends in a rejection, a conflict or an exception leaves the registry alone. -/
  unchanged : ∀ input s', (∀ w, input ≠ .write w) → step receiver s input = some s' →
    s'.resource ≠ s.resource →
      ∃ settled, s'.done = s.done ++ [settled] ∧ contents.mutates settled.result
  /-- With no other writers, no call finds that the registry has changed during its durable
  commit. -/
  notChanged : (∀ w, .write w ∉ inputs) → ∀ settled ∈ s.done, ¬ contents.changed settled.result

/-- What the steps of a receiver keep: `Q` is about the registry, and `Pending` about the call that
waits for the store. -/
structure Durably (receiver : Protocol S C K A R W) (contents : Contents S C A R W) (Q : S → Prop)
    (Pending : S → C → K → Prop) (calls : Set C) (writes : Set W) : Prop where
  begins : ∀ {s c k}, Q s → c ∈ calls → receiver.classify s c = .ok k → Pending s c k
  refuses : ∀ {s c r}, Q s → c ∈ calls → receiver.classify s c = .error r → ¬ contents.changed r
  keeps : ∀ {s c k a r s'}, Q s → c ∈ calls → Pending s c k →
    receiver.settle s c k a = (r, s') → Q s'
  acknowledges : ∀ {s c k a r s'} (id : ℕ), Q s → c ∈ calls → Pending s c k →
    receiver.settle s c k a = (r, s') → ∀ e, contents.holds s' e →
      contents.holds s e ∨ contents.acknowledged ⟨id, c, some a, r⟩ e
  mutates : ∀ {s c k a r s'}, Q s → c ∈ calls → Pending s c k →
    receiver.settle s c k a = (r, s') → s' ≠ s → contents.mutates r
  undisturbed : ∀ {s c k a r s'}, Q s → c ∈ calls → receiver.classify s c = .ok k →
    receiver.settle s c k a = (r, s') → ¬ contents.changed r
  written : ∀ {s w}, Q s → w ∈ writes → Q (receiver.write s w) ∧
    (∀ c k, Pending s c k → Pending (receiver.write s w) c k) ∧
    ∀ e, contents.holds (receiver.write s w) e → contents.holds s e ∨ contents.written w = e

/-- The invariant of a run. -/
structure DurableInv (contents : Contents S C A R W) (Q : S → Prop) (Pending : S → C → K → Prop)
    (first : S) (inputs : List (Input C A W)) (s : State S C K A R) : Prop where
  sound : Q s.resource
  pending : ∀ id c k, s.active = some (id, c, k) → Pending s.resource c k
  durable : ∀ e, contents.holds s.resource e → contents.Accounted first inputs s.done e
  notChanged : (∀ w, .write w ∉ inputs) → ∀ settled ∈ s.done, ¬ contents.changed settled.result

variable {receiver : Protocol S C K A R W} {contents : Contents S C A R W} {Q : S → Prop}
  {Pending : S → C → K → Prop} {calls : Set C} {writes : Set W} {first : S}
  {inputs : List (Input C A W)} {s s' : State S C K A R} {input : Input C A W}

theorem Contents.Accounted.later {done more : List (Settled C A R)} {e : SignedEnvelope}
    (h : contents.Accounted first inputs done e) :
    contents.Accounted first (inputs ++ [input]) (done ++ more) e := by
  rcases h with hfirst | ⟨w, hw, rfl⟩ | ⟨settled, hsettled, hacknowledged⟩
  · exact .inl hfirst
  · exact .inr (.inl ⟨w, List.mem_append_left _ hw, rfl⟩)
  · exact .inr (.inr ⟨settled, List.mem_append_left _ hsettled, hacknowledged⟩)

theorem DurableInv.step (h : Durably receiver contents Q Pending calls writes)
    (hrun : Run receiver first inputs s) (hcalls : ∀ c ∈ s.calls, c ∈ calls)
    (hwrites : ∀ w, input = .write w → w ∈ writes)
    (hs : DurableInv contents Q Pending first inputs s) (hmoves : Moves receiver s input s') :
    DurableInv contents Q Pending first (inputs ++ [input]) s' := by
  have hsole (hnone : ∀ w, .write w ∉ inputs ++ [input]) : ∀ w, .write w ∉ inputs :=
    fun w hw => hnone w (List.mem_append_left _ hw)
  have hlater (e : SignedEnvelope) (he : contents.holds s.resource e) :
      contents.Accounted first (inputs ++ [input]) s.done e := by
    have haccounted : contents.Accounted first (inputs ++ [input]) (s.done ++ []) e :=
      (hs.durable e he).later
    rwa [List.append_nil] at haccounted
  cases hmoves with
  | refused hcheck => exact ⟨hs.sound, hs.pending, hlater, fun hnone => hs.notChanged (hsole hnone)⟩
  | queued hcheck => exact ⟨hs.sound, hs.pending, hlater, fun hnone => hs.notChanged (hsole hnone)⟩
  | @rejected id c rest r hidle hqueue hclassify =>
      refine ⟨hs.sound, hs.pending, fun e he => (hs.durable e he).later, ?_⟩
      intro hnone settled hsettled
      rcases List.mem_append.1 hsettled with hsettled | hsettled
      · exact hs.notChanged (hsole hnone) settled hsettled
      · rw [List.mem_singleton.1 hsettled]
        exact h.refuses hs.sound (hcalls c (by simp [State.calls, hqueue])) hclassify
  | @began id c rest k hidle hqueue hclassify =>
      refine ⟨hs.sound, ?_, hlater, fun hnone => hs.notChanged (hsole hnone)⟩
      rintro _ _ _ ⟨⟩
      exact h.begins hs.sound (hcalls c (by simp [State.calls, hqueue])) hclassify
  | @answered id c k a r next hactive hsettle =>
      have hcall : c ∈ calls := hcalls c (by simp [State.calls, hactive])
      have hpending := hs.pending id c k hactive
      constructor
      case sound => exact h.keeps hs.sound hcall hpending hsettle
      case pending => rintro _ _ _ ⟨⟩
      case durable =>
        intro e he
        rcases h.acknowledges id hs.sound hcall hpending hsettle e he with he | he
        · exact (hs.durable e he).later
        · exact .inr (.inr ⟨_, List.mem_append_right _ (List.mem_singleton_self _), he⟩)
      case notChanged =>
        intro hnone settled hsettled
        rcases List.mem_append.1 hsettled with hsettled | hsettled
        · exact hs.notChanged (hsole hnone) settled hsettled
        · rw [List.mem_singleton.1 hsettled]
          obtain ⟨hundisturbed, -⟩ := hrun.sequential (hsole hnone)
          exact h.undisturbed hs.sound hcall (hundisturbed id c k hactive) hsettle
  | @written w =>
      obtain ⟨hsound, hpending, hholds⟩ := h.written hs.sound (hwrites w rfl)
      refine ⟨hsound, fun id c k hactive => hpending c k (hs.pending id c k hactive), ?_,
        fun hnone => absurd (List.mem_append_right _ (List.mem_singleton_self _)) (hnone w)⟩
      intro e he
      rcases hholds e he with he | rfl
      · exact hlater e he
      · exact .inr (.inl ⟨w, List.mem_append_right _ (List.mem_singleton_self _), rfl⟩)

/-- **Runs.** -/
theorem Durably.run (h : Durably receiver contents Q Pending calls writes) (hfirst : Q first)
    (hcalls : ∀ c, .call c ∈ inputs → c ∈ calls) (hwrites : ∀ w, .write w ∈ inputs → w ∈ writes)
    (hrun : Run receiver first inputs s) :
    DurableBeforeVisible receiver contents first inputs s := by
  have hkept : Run receiver first inputs s ∧ ((∀ c, .call c ∈ inputs → c ∈ calls) →
      (∀ w, .write w ∈ inputs → w ∈ writes) → DurableInv contents Q Pending first inputs s) := by
    refine Replay.run_history (step receiver) (P := fun inputs s => Run receiver first inputs s ∧
      ((∀ c, .call c ∈ inputs → c ∈ calls) → (∀ w, .write w ∈ inputs → w ∈ writes) →
        DurableInv contents Q Pending first inputs s)) ⟨rfl, fun _ _ => ?_⟩ ?_ hrun
    · exact ⟨hfirst, by rintro id c k ⟨⟩, fun e he => .inl he, by simp [start]⟩
    · rintro l t t' input ⟨hbefore, ih⟩ hstep
      refine ⟨(Replay.run_append_eq_some (step receiver)).2
        ⟨t, hbefore, (Replay.run_singleton (step receiver) t input).trans hstep⟩, ?_⟩
      intro hcalls hwrites
      have hcalls' : ∀ c, .call c ∈ l → c ∈ calls :=
        fun c hc => hcalls c (List.mem_append_left _ hc)
      have hkept := ih hcalls' fun w hw => hwrites w (List.mem_append_left _ hw)
      refine hkept.step h hbefore (fun c hc => hcalls' c (hbefore.called c hc)) ?_
        (moves_of_step hstep)
      rintro w rfl
      exact hwrites w (List.mem_append_right _ (List.mem_singleton_self _))
  obtain ⟨hsound, hpending, hdurable, hnotChanged⟩ := hkept.2 hcalls hwrites
  refine ⟨hrun.ordered, exists_turn, exists_answer, fun hnone => (hrun.sequential hnone).2,
    hdurable, ?_, hnotChanged⟩
  intro input s' hinput hstep hne
  have hmoves := moves_of_step hstep
  cases hmoves with
  | @answered id c k a r next hactive hsettle =>
      have hcall : c ∈ calls := hcalls c (hrun.called c (by simp [State.calls, hactive]))
      exact ⟨_, rfl, h.mutates hsound hcall (hpending id c k hactive) hsettle hne⟩
  | @written w => exact absurd rfl (hinput w)
  | _ => exact absurd rfl hne

end Runs

/-! ## The session receiver -/

/-- What a session receiver has in its registry. -/
def sessionContents : Contents (SessionChainRegistry P) SignedEnvelope
    AcceptedEnvelopePersistenceOutcome
    (Except PersistentSessionReceiverError PersistentSessionReceiveResult) SignedEnvelope where
  holds := SessionChainRegistry.Holds
  written := id
  acknowledged settled e := settled.call = e ∧
    ∃ outcome, settled.answer = some outcome ∧ outcome.Acknowledges e
  mutates := visibleReceipt
  changed := changedReceipt

/-- The registry holds the logs of its seats. -/
def SessionChainRegistry.Sound (registry : SessionChainRegistry P) : Prop :=
  ∃ logs, HoldsLogs registry logs

theorem session_classify_eq_error {receipt : Except PersistentSessionReceiverError
      PersistentSessionReceiveResult} {received : SignedEnvelope}
    (h : (PersistentSessionReceiver ed).classify registry received = .error receipt) :
    ∃ reason, receipt = .ok (.rejected reason) := by
  simp only [PersistentSessionReceiver] at h
  split at h
  · cases h
  · cases h
  · cases h
    exact ⟨_, rfl⟩

theorem session_classify_eq_ok {before : SessionChainRegistry P} {received : SignedEnvelope}
    (h : (PersistentSessionReceiver ed).classify registry received = .ok before) :
    before = registry := by
  simp only [PersistentSessionReceiver] at h
  split at h
  · exact (Except.ok.inj h).symm
  · exact (Except.ok.inj h).symm
  · cases h

theorem session_durably (ed : Ed25519) : Durably (PersistentSessionReceiver ed)
    (sessionContents (P := P)) SessionChainRegistry.Sound (fun _ _ _ => True) Set.univ
    Set.univ := by
  constructor
  case begins => exact fun _ _ _ => trivial
  case refuses =>
    intro registry received receipt _ _ h
    obtain ⟨reason, rfl⟩ := session_classify_eq_error h
    exact id
  case keeps =>
    rintro registry received before outcome receipt next ⟨logs, hlogs⟩ - - h
    rcases persistThenIngest_cases h with ⟨persistence, -, rfl, -⟩ | rfl
    · exact (holds_ingest hlogs received).1
    · exact ⟨logs, hlogs⟩
  case acknowledges =>
    rintro registry received before outcome receipt next id ⟨logs, hlogs⟩ - - h e he
    rcases persistThenIngest_cases h with ⟨persistence, -, rfl, hacknowledges⟩ | rfl
    · refine ((holds_ingest hlogs received).2 e he).imp_right ?_
      rintro rfl
      exact ⟨rfl, outcome, rfl, hacknowledges⟩
    · exact .inl he
  case mutates =>
    intro registry received before outcome receipt next _ _ _ h hne
    rcases persistThenIngest_cases h with ⟨persistence, rfl, -, -⟩ | rfl
    · trivial
    · exact absurd rfl hne
  case undisturbed =>
    intro registry received before outcome receipt next _ _ hclassify h
    have hchanged : ¬ changedReceipt (persistThenIngest ed registry registry received outcome).1 :=
      persistThenIngest_undisturbed registry received outcome
    obtain rfl := session_classify_eq_ok hclassify
    have hreceipt : (persistThenIngest ed before before received outcome).1 = receipt :=
      (Prod.ext_iff.1 h).1
    rwa [hreceipt] at hchanged
  case written =>
    rintro registry received ⟨logs, hlogs⟩ -
    obtain ⟨hsound, hholds⟩ := holds_ingest hlogs received
    exact ⟨hsound, fun _ _ _ => trivial, fun e he => (hholds e he).imp_right Eq.symm⟩

/-! ## What a call does to the lobby -/

namespace LobbyChainRegistry

variable {lobby next : LobbyChainRegistry P} {held : IdentityPublicKey → List SignedEnvelope}
  {rosters : Set RosterBody}

/-- The sender of the envelope has already taken its place. -/
def Reached (lobby : LobbyChainRegistry P) (e : SignedEnvelope) : Prop :=
  ∃ chain existing, lobby.chains e.from_ = some chain ∧ chain.accepted e.seq = some existing

theorem inChains_iff (h : LobbyLogs lobby held) {e : SignedEnvelope} :
    lobby.InChains e ↔ ∃ identity, e ∈ held identity := by
  constructor
  · rintro ⟨identity, chain, seq, hchain, he⟩
    rw [(h.chain hchain).2.accepted] at he
    exact ⟨identity, List.mem_of_getElem? he⟩
  · rintro ⟨identity, he⟩
    cases hchain : lobby.chains identity with
    | none =>
        rw [h.absent hchain] at he
        cases he
    | some chain =>
        obtain ⟨seq, hseq⟩ := List.mem_iff_getElem?.1 he
        exact ⟨identity, chain, seq, hchain, by rw [(h.chain hchain).2.accepted, hseq]⟩

theorem reached_iff (h : LobbyLogs lobby held) {e : SignedEnvelope} :
    lobby.Reached e ↔ e.seq < (held e.from_).length := by
  constructor
  · rintro ⟨chain, existing, hchain, he⟩
    rw [(h.chain hchain).2.accepted] at he
    exact (List.getElem?_eq_some_iff.1 he).1
  · intro hlt
    cases hchain : lobby.chains e.from_ with
    | none =>
        rw [h.absent hchain] at hlt
        exact absurd hlt (Nat.not_lt_zero _)
    | some chain =>
        refine ⟨chain, (held e.from_)[e.seq], hchain, ?_⟩
        rw [(h.chain hchain).2.accepted, List.getElem?_eq_getElem hlt]

theorem finalizeIfReady_keeps {result : Except LobbyError Unit}
    (h : lobby.finalizeIfReady = (result, next)) :
    next.chains = lobby.chains ∧ next.rosterArtifact = lobby.rosterArtifact := by
  unfold finalizeIfReady at h
  split at h
  · split at h
    · cases h
      exact ⟨rfl, rfl⟩
    · split at h
      · split at h
        · cases h
          exact ⟨rfl, rfl⟩
        · cases h
          exact ⟨rfl, rfl⟩
      · cases h
        exact ⟨rfl, rfl⟩
  · cases h
    exact ⟨rfl, rfl⟩

/-- A call changes the chains by its own envelope only, and so it does with the roster. -/
theorem LobbyEffect.brings {call : LobbyCall} {status : LobbyStatus}
    (h : LobbyEffect hashRosterBody lobby held call status next) :
    (next.chains = lobby.chains ∨ Continues lobby held call.received ∧
      next.chains = (lobby.extend call.received).chains) ∧
    (next.rosterArtifact = lobby.rosterArtifact ∨ next.rosterArtifact = some call.received) := by
  cases h with
  | idle hstatus => exact ⟨.inl rfl, .inl rfl⟩
  | ingested hcontinues hknown => exact ⟨.inr ⟨hcontinues, rfl⟩, .inl rfl⟩
  | joined hcall hcontinues hbody => exact ⟨.inr ⟨hcontinues, rfl⟩, .inl rfl⟩
  | published hcontinues hbody hnext =>
      obtain ⟨hchains, hartifact⟩ := finalizeIfReady_keeps hnext
      exact ⟨.inr ⟨hcontinues, hchains⟩, .inr hartifact⟩
  | repeated hcontinues hbody hnames hmember hmin hready =>
      exact ⟨.inr ⟨hcontinues, rfl⟩, .inl rfl⟩
  | readied hcontinues hbody hnames hmember hmin hready hnext =>
      obtain ⟨hchains, hartifact⟩ := finalizeIfReady_keeps hnext
      exact ⟨.inr ⟨hcontinues, hchains⟩, .inl hartifact⟩
  | restored hheld hknown hnames hmember hmin hready hnext =>
      rcases hnext with ⟨-, rfl⟩ | ⟨-, hnext⟩
      · exact ⟨.inl rfl, .inl rfl⟩
      · obtain ⟨hchains, hartifact⟩ := finalizeIfReady_keeps hnext
        exact ⟨.inl hchains, .inl hartifact⟩

theorem LobbyEffect.inChains {call : LobbyCall} {status : LobbyStatus}
    (h : LobbyEffect hashRosterBody lobby held call status next) (hlogs : LobbyLogs lobby held)
    {e : SignedEnvelope} (he : next.InChains e) : lobby.InChains e ∨ call.received = e := by
  rcases h.brings.1 with hchains | ⟨hcontinues, hchains⟩
  · unfold InChains at he
    rw [hchains] at he
    exact .inl he
  · have hextended : (lobby.extend call.received).InChains e := by
      unfold InChains at he
      rwa [hchains] at he
    obtain ⟨identity, hmem⟩ := (inChains_iff (extend_logs hlogs hcontinues)).1 hextended
    rcases mem_grow.1 hmem with hmem | ⟨-, rfl⟩
    · exact .inl ((inChains_iff hlogs).2 ⟨identity, hmem⟩)
    · exact .inr rfl

theorem LobbyEffect.reached {call : LobbyCall} {status : LobbyStatus}
    (h : LobbyEffect hashRosterBody lobby held call status next) (hlogs : LobbyLogs lobby held)
    {e : SignedEnvelope} (he : lobby.Reached e) : next.Reached e := by
  rcases h.brings.1 with hchains | ⟨hcontinues, hchains⟩
  · unfold Reached
    rw [hchains]
    exact he
  · have hextended : (lobby.extend call.received).Reached e := by
      rw [reached_iff (extend_logs hlogs hcontinues)]
      refine lt_of_lt_of_le ((reached_iff hlogs).1 he) ?_
      unfold grow
      by_cases hfrom : e.from_ = call.received.from_
      · rw [hfrom, Function.update_self, List.length_append]
        exact Nat.le_add_right _ _
      · rw [Function.update_of_ne hfrom]
    unfold Reached
    rw [hchains]
    exact hextended

/-- What was counted or transferred is in the chains as well. -/
theorem holds_iff_inChains {readies : List SignedEnvelope}
    (h : LobbyInvariant hashRosterBody rosters readies lobby held) {e : SignedEnvelope} :
    lobby.Holds e ↔ lobby.InChains e ∨ lobby.rosterArtifact = some e := by
  constructor
  · rintro (he | he | ⟨hash, identity, he⟩ | ⟨registry, hregistry, he⟩)
    · exact .inl he
    · exact .inr he
    · obtain ⟨-, -, -, -, -, hmem, -⟩ := h.counts.ready he
      exact .inl ((inChains_iff h.held).2 ⟨identity, hmem⟩)
    · obtain ⟨-, -, -, hlogs⟩ := h.finalized hregistry
      obtain ⟨seat, hmem⟩ := (holds_iff hlogs).1 he
      unfold seatLogs at hmem
      split at hmem
      · cases hidentity : registry.roster.seats[seat]? with
        | none =>
            rw [hidentity] at hmem
            cases hmem
        | some identity =>
            rw [hidentity] at hmem
            exact .inl ((inChains_iff h.held).2 ⟨identity, hmem⟩)
      · cases hmem
  · rintro (he | he)
    · exact .inl he
    · exact .inr (.inl he)

/-- The lobby keeps its invariant. -/
def Sound (hashRosterBody : RosterBody → Hash256) (rosters : Set RosterBody)
    (lobby : LobbyChainRegistry P) : Prop :=
  ∃ readies logs, LobbyInvariant hashRosterBody rosters readies lobby logs

/-- What a call does, and what it reports. -/
structure Applies (hashRosterBody : RosterBody → Hash256) (rosters : Set RosterBody)
    (lobby : LobbyChainRegistry P) (call : LobbyCall) (status : LobbyStatus)
    (next : LobbyChainRegistry P) : Prop where
  runs : lobby.apply hashRosterBody call = (.ok status, next)
  sound : next.Sound hashRosterBody rosters
  reached : ∀ e, lobby.Reached e → next.Reached e
  holds : ∀ e, next.Holds e → lobby.Holds e ∨ call.received = e
  predicted : ∀ predicted, lobby.predict hashRosterBody call = some predicted →
    predicted = .ok status
  /-- a roster at a place that is taken is not published -/
  stale : ∀ received, call = .ingestRoster received → lobby.Reached received → next = lobby

theorem exists_applies (hinj : Set.InjOn hashRosterBody rosters)
    (h : lobby.Sound hashRosterBody rosters) {call : LobbyCall} (hwithin : call.Within rosters) :
    ∃ status next, Applies hashRosterBody rosters lobby call status next := by
  obtain ⟨readies, held, hinv⟩ := h
  cases hfinal : lobby.finalizedRegistry with
  | some registry =>
      have hsome : lobby.finalizedRegistry.isSome = true := by rw [hfinal]; rfl
      refine ⟨.rejected, lobby, apply_of_finalized hsome call, ⟨readies, held, hinv⟩,
        fun e he => he, fun e he => .inl he, fun predicted hpredicted => ?_, fun _ _ _ => rfl⟩
      exact predict_of_finalized hsome hpredicted
  | none =>
      obtain ⟨status, hstatus, hpredicted, heffect⟩ := apply_effect hinj hinv hfinal call hwithin
      obtain ⟨-, held', hinv'⟩ := heffect.invariant hinj hinv hfinal hwithin
      refine ⟨status, (lobby.apply hashRosterBody call).2, Prod.ext hstatus rfl, ⟨_, held', hinv'⟩,
        fun e he => heffect.reached hinv.held he, fun e he => ?_, hpredicted, ?_⟩
      · rcases (holds_iff_inChains hinv').1 he with he | he
        · exact (heffect.inChains hinv.held he).imp_left .inl
        · rcases heffect.brings.2 with hartifact | hartifact
          · exact .inl (.inr (.inl (hartifact.symm.trans he)))
          · exact .inr (Option.some.inj (hartifact.symm.trans he))
      · rintro received rfl hreached
        generalize (lobby.apply hashRosterBody (.ingestRoster received)).2 = after at heffect ⊢
        cases heffect with
        | idle hne => rfl
        | joined hcall hcontinues hbody => rcases hcall with hcall | hcall <;> cases hcall
        | published hcontinues hbody hnext =>
            have hlt := (reached_iff hinv.held).1 hreached
            exact absurd hcontinues.2.1 hlt.ne

end LobbyChainRegistry

/-! ## The lobby receiver -/

/-- The result of a receipt is that the envelope is in the lobby. -/
def visibleLobbyReceipt : LobbyReceipt → Prop
  | .ok (.received _ _ _) => True
  | _ => False

/-- The lobby has changed during the durable commit. -/
def PersistentLobbyReceiverError.isChanged : PersistentLobbyReceiverError → Prop
  | .changed _ => True
  | _ => False

/-- The failure of a receipt is that the lobby has changed. -/
def changedLobbyReceipt : LobbyReceipt → Prop
  | .error error => error.isChanged
  | .ok _ => False

/-- The store has acknowledged the envelope of a call: its record, and for a roster the snapshot,
is just this envelope. -/
def LobbyReceive.Acknowledged (call : LobbyReceive) (answer : LobbyStoreAnswer) : Prop :=
  match call with
  | .receiveRoster received => ∃ status transcriptStatus, status ≠ .stale ∧
      answer.roster = .snapshot status transcriptStatus received
  | call => answer.envelope.Acknowledges call.received

/-- What a lobby receiver has in its lobby. -/
def lobbyContents : Contents (LobbyChainRegistry P) LobbyReceive LobbyStoreAnswer LobbyReceipt
    LobbyCall where
  holds := LobbyChainRegistry.Holds
  written := LobbyCall.received
  acknowledged settled e := settled.call.received = e ∧
    ∃ answer, settled.answer = some answer ∧ settled.call.Acknowledged answer
  mutates receipt := visibleLobbyReceipt receipt ∨ changedLobbyReceipt receipt
  changed := changedLobbyReceipt

theorem Raises.not_changed {receipt : LobbyReceipt}
    (h : Raises receipt fun error => ¬ error.isChanged) : ¬ changedLobbyReceipt receipt := by
  cases receipt with
  | error error => exact h error rfl
  | ok result => exact id

theorem durableConflict_raises (ed : Ed25519) (existing candidate received : SignedEnvelope) :
    Raises (durableConflict ed existing candidate received) fun error => ¬ error.isChanged :=
  (raises_mapError id).bind fun _ => (raises_throwIf id).bind fun _ =>
    (raises_mapError id).bind fun _ => raises_pure

theorem requireExactDurableArtifact_raises (ed : Ed25519) (record received : SignedEnvelope) :
    Raises (requireExactDurableArtifact ed record received) fun error => ¬ error.isChanged :=
  (raises_mapError id).bind fun _ => raises_throwIf id

theorem checkRosterSnapshot_raises (ed : Ed25519) (host : IdentityPublicKey)
    (received : SignedEnvelope) (classification : LobbyStatus) (status : RosterSnapshotStatus)
    (snapshot : SignedEnvelope) :
    Raises (checkRosterSnapshot ed host received classification status snapshot)
      fun error => ¬ error.isChanged := by
  refine (raises_mapError id).bind fun _ => ?_
  split
  · exact (raises_throwIf id).bind fun _ => raises_throwIf id
  · exact raises_throwIf id

theorem requireExactDurableArtifact_eq_ok {record received : SignedEnvelope}
    (h : requireExactDurableArtifact ed record received = .ok ()) : record = received := by
  obtain ⟨durable, hdurable, hsame⟩ := bind_eq_ok.1 h
  obtain ⟨rfl, -⟩ := mapError_verifyArtifact_eq_ok.1 hdurable
  exact not_not.1 (throwIf_eq_ok.1 hsame)

theorem checkRosterSnapshot_eq_ok {host : IdentityPublicKey} {received snapshot : SignedEnvelope}
    {classification : LobbyStatus} {status : RosterSnapshotStatus}
    (h : checkRosterSnapshot ed host received classification status snapshot = .ok ()) :
    status = .stale ∧ classification ≠ .accepted ∨ status ≠ .stale ∧ snapshot = received := by
  obtain ⟨durable, hdurable, hchecks⟩ := bind_eq_ok.1 h
  obtain ⟨rfl, -⟩ := mapError_verifyArtifact_eq_ok.1 hdurable
  split at hchecks
  · rename_i hstale
    obtain ⟨-, hclassification⟩ := check_bind_eq_ok.1 hchecks
    exact .inl ⟨hstale, throwIf_eq_ok.1 hclassification⟩
  · rename_i hstale
    exact .inr ⟨hstale, not_not.1 (throwIf_eq_ok.1 hchecks)⟩

/-- What a receipt is that commits. -/
theorem commitTransition_eq {lobby next : LobbyChainRegistry P} {call : LobbyCall}
    {classification status : LobbyStatus} {persistence : PersistenceStatus}
    {snapshot : Option RosterSnapshotStatus} {receipt : LobbyReceipt} {after : LobbyChainRegistry P}
    (hruns : lobby.apply hashRosterBody call = (.ok status, next))
    (h : commitTransition hashRosterBody lobby call classification persistence snapshot
      = (receipt, after)) :
    after = next ∧ (visibleLobbyReceipt receipt ∨ changedLobbyReceipt receipt) ∧
      (status = classification → classification ≠ .rejected → ¬ changedLobbyReceipt receipt) := by
  unfold commitTransition at h
  rw [hruns] at h
  simp only at h
  split at h
  · rename_i hchanged
    cases h
    refine ⟨rfl, .inr trivial, ?_⟩
    rintro rfl hne
    exact absurd hchanged (not_or.2 ⟨hne, not_not_intro rfl⟩)
  · cases h
    exact ⟨rfl, .inl trivial, fun _ _ => id⟩

theorem commitRecord_cases {lobby next : LobbyChainRegistry P} {call : LobbyCall}
    {classification : LobbyStatus} {persistence : PersistenceStatus} {record : SignedEnvelope}
    {receipt : LobbyReceipt}
    (h : (match requireExactDurableArtifact ed record call.received with
      | .error error => (.error error, lobby)
      | .ok () => commitTransition hashRosterBody lobby call classification persistence none)
        = (receipt, next)) :
    next = lobby ∧ ¬ changedLobbyReceipt receipt ∨ record = call.received ∧
      commitTransition hashRosterBody lobby call classification persistence none
        = (receipt, next) := by
  cases hexact : requireExactDurableArtifact ed record call.received with
  | error error =>
      rw [hexact] at h
      cases h
      exact .inl ⟨rfl, requireExactDurableArtifact_raises ed _ _ error hexact⟩
  | ok unit =>
      rw [hexact] at h
      exact .inr ⟨requireExactDurableArtifact_eq_ok hexact, h⟩

theorem persistEnvelopeTransition_cases {lobby next : LobbyChainRegistry P} {call : LobbyCall}
    {classification : LobbyStatus} {outcome : AcceptedEnvelopePersistenceOutcome}
    {receipt : LobbyReceipt}
    (h : persistEnvelopeTransition ed hashRosterBody lobby call classification outcome
      = (receipt, next)) :
    next = lobby ∧ ¬ changedLobbyReceipt receipt ∨ outcome.Acknowledges call.received ∧
      ∃ persistence snapshot, commitTransition hashRosterBody lobby call classification persistence
        snapshot = (receipt, next) := by
  unfold persistEnvelopeTransition at h
  cases outcome with
  | exception =>
      cases h
      exact .inl ⟨rfl, id⟩
  | conflict existing candidate =>
      cases h
      exact .inl ⟨rfl, (durableConflict_raises ed existing candidate _).not_changed⟩
  | stored record =>
      refine (commitRecord_cases h).imp_right ?_
      rintro ⟨rfl, hcommits⟩
      exact ⟨.inl rfl, _, _, hcommits⟩
  | duplicate record =>
      refine (commitRecord_cases h).imp_right ?_
      rintro ⟨rfl, hcommits⟩
      exact ⟨.inr rfl, _, _, hcommits⟩

theorem persistRosterTransition_cases {lobby next : LobbyChainRegistry P}
    {received : SignedEnvelope} {classification : LobbyStatus}
    {outcome : AcceptedLobbyRosterPersistenceOutcome} {receipt : LobbyReceipt}
    (h : persistRosterTransition ed hashRosterBody lobby received classification outcome
      = (receipt, next)) :
    next = lobby ∧ ¬ changedLobbyReceipt receipt ∨
    ((∃ status transcriptStatus, status ≠ .stale ∧
        outcome = .snapshot status transcriptStatus received) ∨ classification ≠ .accepted) ∧
      ∃ persistence snapshot, commitTransition hashRosterBody lobby (.ingestRoster received)
        classification persistence snapshot = (receipt, next) := by
  unfold persistRosterTransition at h
  cases outcome with
  | exception =>
      cases h
      exact .inl ⟨rfl, id⟩
  | conflict existing candidate =>
      cases h
      exact .inl ⟨rfl, (durableConflict_raises ed existing candidate _).not_changed⟩
  | snapshot status transcriptStatus snapshot =>
      simp only at h
      cases hcheck : checkRosterSnapshot ed lobby.context.host received classification status
          snapshot with
      | error error =>
          rw [hcheck] at h
          cases h
          exact .inl ⟨rfl, checkRosterSnapshot_raises ed _ _ _ _ _ error hcheck⟩
      | ok unit =>
          rw [hcheck] at h
          refine .inr ⟨?_, _, _, h⟩
          rcases checkRosterSnapshot_eq_ok hcheck with ⟨-, hne⟩ | ⟨hne, rfl⟩
          · exact .inr hne
          · exact .inl ⟨status, transcriptStatus, hne, rfl⟩

/-- **A receipt of the lobby**: nothing happens, or the call is committed, whose envelope the store
has acknowledged unless it is a roster that is there already. -/
theorem lobby_settle_cases {lobby next : LobbyChainRegistry P} {call : LobbyReceive}
    {classification : LobbyStatus} {answer : LobbyStoreAnswer} {receipt : LobbyReceipt}
    (h : (PersistentLobbyReceiver ed hashRosterBody).settle lobby call classification answer
      = (receipt, next)) :
    next = lobby ∧ ¬ changedLobbyReceipt receipt ∨
    (call.Acknowledged answer ∨
      (∃ received, call = .receiveRoster received) ∧ classification ≠ .accepted) ∧
      ∃ persistence snapshot, commitTransition hashRosterBody lobby call.commit classification
        persistence snapshot = (receipt, next) := by
  have henvelope (call : LobbyReceive) (h : persistEnvelopeTransition ed hashRosterBody lobby
      call.commit classification answer.envelope = (receipt, next)) :=
    persistEnvelopeTransition_cases h
  cases call with
  | receiveKnown received =>
      rcases henvelope (.receiveKnown received) h with hsame | ⟨hacknowledges, hcommits⟩
      · exact .inl hsame
      · exact .inr ⟨.inl hacknowledges, hcommits⟩
  | receiveAdmittedJoin received =>
      rcases henvelope (.receiveAdmittedJoin received) h with hsame | ⟨hacknowledges, hcommits⟩
      · exact .inl hsame
      · exact .inr ⟨.inl hacknowledges, hcommits⟩
  | receiveRosterMemberJoin received =>
      rcases henvelope (.receiveRosterMemberJoin received) h with hsame | ⟨hacknowledges, hcommits⟩
      · exact .inl hsame
      · exact .inr ⟨.inl hacknowledges, hcommits⟩
  | receiveReady received =>
      rcases henvelope (.receiveReady received) h with hsame | ⟨hacknowledges, hcommits⟩
      · exact .inl hsame
      · exact .inr ⟨.inl hacknowledges, hcommits⟩
  | receiveRoster received =>
      rcases persistRosterTransition_cases h with hsame | ⟨hacknowledged, hcommits⟩
      · exact .inl hsame
      · exact .inr ⟨hacknowledged.imp_right fun hne => ⟨⟨received, rfl⟩, hne⟩, hcommits⟩

theorem classified_eq_ok {α : Type} {result : Except LobbyError (LobbyResult α)}
    {classification : LobbyStatus} (h : classified result = .ok classification) :
    result.map LobbyResult.status = .ok classification ∧ classification ≠ .rejected := by
  cases result with
  | error error => cases h
  | ok result =>
      cases result with
      | accepted value =>
          cases h
          exact ⟨rfl, by rintro ⟨⟩⟩
      | duplicate value =>
          cases h
          exact ⟨rfl, by rintro ⟨⟩⟩
      | rejected reason => cases h

/-- A call that is not refused has the status that its classifier predicts. -/
theorem lobby_classify_eq_ok {lobby : LobbyChainRegistry P} {call : LobbyReceive}
    {classification : LobbyStatus}
    (h : (PersistentLobbyReceiver ed hashRosterBody).classify lobby call = .ok classification) :
    lobby.predict hashRosterBody call.commit = some (.ok classification) ∧
      classification ≠ .rejected := by
  cases call with
  | receiveKnown received =>
      simp only [PersistentLobbyReceiver] at h
      split at h
      · cases h
      · obtain ⟨hstatus, hne⟩ := classified_eq_ok h
        exact ⟨congrArg some hstatus, hne⟩
  | receiveAdmittedJoin received =>
      obtain ⟨hstatus, hne⟩ := classified_eq_ok h
      exact ⟨congrArg some hstatus, hne⟩
  | receiveRosterMemberJoin received =>
      obtain ⟨hstatus, hne⟩ := classified_eq_ok h
      exact ⟨congrArg some hstatus, hne⟩
  | receiveRoster received =>
      obtain ⟨hstatus, hne⟩ := classified_eq_ok h
      exact ⟨congrArg some hstatus, hne⟩
  | receiveReady received =>
      obtain ⟨hstatus, hne⟩ := classified_eq_ok h
      exact ⟨congrArg some hstatus, hne⟩

/-- What the lobby knows of a call that waits for the store. -/
def LobbyReceive.Pending (lobby : LobbyChainRegistry P) (call : LobbyReceive)
    (classification : LobbyStatus) : Prop :=
  classification ≠ .rejected ∧ ∀ received, call = .receiveRoster received →
    classification = .duplicate → lobby.Reached received

theorem reached_of_classifyRoster {lobby : LobbyChainRegistry P} {rosters : Set RosterBody}
    (hsound : lobby.Sound hashRosterBody rosters) {received : SignedEnvelope}
    (h : classified (lobby.classifyRoster hashRosterBody received) = .ok .duplicate) :
    lobby.Reached received := by
  obtain ⟨readies, held, hinv⟩ := hsound
  obtain ⟨hstatus, -⟩ := classified_eq_ok h
  unfold LobbyChainRegistry.classifyRoster at hstatus
  split at hstatus
  · cases hstatus
  · split at hstatus
    · cases hstatus
    · split at hstatus
      · cases hstatus
      · rename_i chain hchain
        obtain ⟨hsender, hlog⟩ := hinv.held.chain hchain
        cases hresult : chain.classify P received with
        | duplicate existing =>
            obtain ⟨hfrom, hheld, -⟩ := hlog.classify_duplicate.1 hresult
            refine ⟨chain, existing, ?_, by rw [hlog.accepted, hheld]⟩
            rw [hfrom, hsender, hchain]
        | _ =>
            rw [hresult] at hstatus
            cases hstatus

theorem lobby_pending {lobby : LobbyChainRegistry P} {rosters : Set RosterBody}
    (hsound : lobby.Sound hashRosterBody rosters) {call : LobbyReceive}
    {classification : LobbyStatus}
    (h : (PersistentLobbyReceiver ed hashRosterBody).classify lobby call = .ok classification) :
    call.Pending lobby classification := by
  refine ⟨(lobby_classify_eq_ok h).2, ?_⟩
  rintro received rfl rfl
  exact reached_of_classifyRoster hsound h

theorem lobby_refuses {lobby : LobbyChainRegistry P} {call : LobbyReceive} {receipt : LobbyReceipt}
    (h : (PersistentLobbyReceiver ed hashRosterBody).classify lobby call = .error receipt) :
    ¬ changedLobbyReceipt receipt := by
  have hclassified {α : Type} {result : Except LobbyError (LobbyResult α)}
      (h : classified result = .error receipt) : ¬ changedLobbyReceipt receipt := by
    cases result with
    | error error =>
        cases h
        exact id
    | ok result =>
        cases result with
        | accepted value => cases h
        | duplicate value => cases h
        | rejected reason =>
            cases h
            exact id
  cases call with
  | receiveKnown received =>
      simp only [PersistentLobbyReceiver] at h
      split at h
      · cases h
        exact id
      · exact hclassified h
  | receiveAdmittedJoin received => exact hclassified h
  | receiveRosterMemberJoin received => exact hclassified h
  | receiveRoster received => exact hclassified h
  | receiveReady received => exact hclassified h

theorem lobby_durably (ed : Ed25519) {rosters : Set RosterBody}
    (hinj : Set.InjOn hashRosterBody rosters) :
    Durably (PersistentLobbyReceiver ed hashRosterBody) (lobbyContents (P := P))
      (LobbyChainRegistry.Sound hashRosterBody rosters)
      (fun lobby call classification => call.Pending lobby classification)
      {call | call.commit.Within rosters} {call | call.Within rosters} := by
  constructor
  case begins => exact fun hsound _ h => lobby_pending hsound h
  case refuses => exact fun _ _ h => lobby_refuses h
  case keeps =>
    intro lobby call classification answer receipt next hsound hwithin _ h
    rcases lobby_settle_cases h with ⟨rfl, -⟩ | ⟨-, persistence, snapshot, hcommit⟩
    · exact hsound
    · obtain ⟨status, after, happlies⟩ := LobbyChainRegistry.exists_applies hinj hsound hwithin
      obtain ⟨rfl, -⟩ := commitTransition_eq happlies.runs hcommit
      exact happlies.sound
  case acknowledges =>
    intro lobby call classification answer receipt next id hsound hwithin hpending h e he
    rcases lobby_settle_cases h with ⟨rfl, -⟩ | ⟨hacknowledged, persistence, snapshot, hcommit⟩
    · exact .inl he
    · obtain ⟨status, after, happlies⟩ := LobbyChainRegistry.exists_applies hinj hsound hwithin
      obtain ⟨rfl, -⟩ := commitTransition_eq happlies.runs hcommit
      rcases hacknowledged with hacknowledged | ⟨⟨received, rfl⟩, hne⟩
      · exact (happlies.holds e he).imp_right fun hsame =>
          ⟨hsame, answer, rfl, hacknowledged⟩
      · -- a duplicate, whose place is taken
        have hduplicate : classification = .duplicate := by
          cases classification with
          | accepted => exact absurd rfl hne
          | duplicate => rfl
          | rejected => exact absurd rfl hpending.1
        rw [happlies.stale received rfl (hpending.2 received rfl hduplicate)] at he
        exact .inl he
  case mutates =>
    intro lobby call classification answer receipt next hsound hwithin _ h hne
    rcases lobby_settle_cases h with ⟨rfl, -⟩ | ⟨-, persistence, snapshot, hcommit⟩
    · exact absurd rfl hne
    · obtain ⟨status, after, happlies⟩ := LobbyChainRegistry.exists_applies hinj hsound hwithin
      exact (commitTransition_eq happlies.runs hcommit).2.1
  case undisturbed =>
    intro lobby call classification answer receipt next hsound hwithin hclassify h
    rcases lobby_settle_cases h with ⟨-, hchanged⟩ | ⟨-, persistence, snapshot, hcommit⟩
    · exact hchanged
    · obtain ⟨status, after, happlies⟩ := LobbyChainRegistry.exists_applies hinj hsound hwithin
      obtain ⟨hpredicted, hne⟩ := lobby_classify_eq_ok hclassify
      have hsame := Except.ok.inj (happlies.predicted _ hpredicted)
      exact (commitTransition_eq happlies.runs hcommit).2.2 hsame.symm hne
  case written =>
    intro lobby call hsound hwithin
    obtain ⟨status, after, happlies⟩ := LobbyChainRegistry.exists_applies hinj hsound hwithin
    have hwrite : (PersistentLobbyReceiver ed hashRosterBody).write lobby call = after :=
      (Prod.ext_iff.1 happlies.runs).2
    rw [hwrite]
    refine ⟨happlies.sound, fun receive classification hpending => ⟨hpending.1, ?_⟩,
      happlies.holds⟩
    exact fun received hcall hduplicate =>
      happlies.reached received (hpending.2 received hcall hduplicate)

/-! ## New registries -/

theorem session_start_holds (game : GameId) (roster : Roster P) (e : SignedEnvelope) :
    ¬ (SessionChainRegistry.start game roster).Holds e := by
  rw [holds_iff (HoldsLogs.start game roster)]
  rintro ⟨seat, he⟩
  cases he

theorem lobby_start_holds (context : LobbyBootstrapContext) (e : SignedEnvelope) :
    ¬ (LobbyChainRegistry.start P context).Holds e := by
  have hinv : LobbyInvariant (P := P) (fun _ => ZERO_HASH) ∅ [] (.start P context) fun _ => [] :=
    LobbyChainRegistry.start_invariant context
  rw [LobbyChainRegistry.holds_iff_inChains hinv, LobbyChainRegistry.inChains_iff hinv.held]
  rintro (⟨identity, he⟩ | he)
  · cases he
  · cases he

/-- **Durable before visible.**  Whatever calls are made on a receiver, in whatever order they wait
for one another, whatever the store answers each of them and whatever others do to the registry
meanwhile.  A new registry has nothing in it; what a registry has later was there when the receiver
got it, was brought in by others or has been acknowledged by the store, the very envelope.  The
rosters offered have different hashes. -/
theorem durable_before_visible (ed : Ed25519) (hashRosterBody : RosterBody → Hash256)
    (rosters : Set RosterBody) (hinj : Set.InjOn hashRosterBody rosters) :
    (∀ (game : GameId) (roster : Roster P) (log : List SignedEnvelope),
      (∀ e, ¬ (SessionChainRegistry.start game roster).Holds e) ∧
      ∀ inputs s, Serial.Run (PersistentSessionReceiver ed)
          ((SessionChainRegistry.start game roster).ingestAll log) inputs s →
        DurableBeforeVisible (PersistentSessionReceiver ed) sessionContents
          ((SessionChainRegistry.start game roster).ingestAll log) inputs s) ∧
    (∀ (context : LobbyBootstrapContext) (calls : List LobbyCall),
      (∀ call ∈ calls, call.Within rosters) →
      (∀ e, ¬ (LobbyChainRegistry.start P context).Holds e) ∧
      ∀ inputs s, (∀ call, .call call ∈ inputs → call.commit.Within rosters) →
        (∀ call, .write call ∈ inputs → call.Within rosters) →
        Serial.Run (PersistentLobbyReceiver ed hashRosterBody)
          (LobbyChainRegistry.run hashRosterBody calls (.start P context, [])).1 inputs s →
        DurableBeforeVisible (PersistentLobbyReceiver ed hashRosterBody) lobbyContents
          (LobbyChainRegistry.run hashRosterBody calls (.start P context, [])).1 inputs s) := by
  constructor
  · intro game roster log
    refine ⟨session_start_holds game roster, fun inputs s hrun => ?_⟩
    obtain ⟨-, -, logs, hlogs, -⟩ := (HoldsLogs.start game roster).ingestAll log
    exact (session_durably ed).run ⟨logs, hlogs⟩ (fun _ _ => trivial) (fun _ _ => trivial) hrun
  · intro context calls hcalls
    refine ⟨lobby_start_holds context, fun inputs s hcalled hwritten hrun => ?_⟩
    obtain ⟨-, logs, hinv⟩ := LobbyChainRegistry.run_invariant hinj calls hcalls
      (LobbyChainRegistry.start_invariant (P := P) context)
    exact (lobby_durably ed hinj).run ⟨_, logs, hinv⟩ hcalled hwritten hrun

end

open SmallGroup in
theorem durable_before_visible_small : ∃ s, Serial.Run (PersistentLobbyReceiver ed25519 rosterHash)
      (LobbyChainRegistry.start (primitives fun _ => 0) lobbyContext)
      [.call (.receiveAdmittedJoin (joinEnvelope 1)), .turn,
        .answer ⟨.stored (joinEnvelope 1), .exception⟩] s ∧
    DurableBeforeVisible (PersistentLobbyReceiver ed25519 rosterHash) lobbyContents
      (LobbyChainRegistry.start (primitives fun _ => 0) lobbyContext)
      [.call (.receiveAdmittedJoin (joinEnvelope 1)), .turn,
        .answer ⟨.stored (joinEnvelope 1), .exception⟩] s := by
  have hsome : (Replay.run (Serial.step (PersistentLobbyReceiver ed25519 rosterHash))
      (Serial.start LobbyReceive LobbyStatus LobbyStoreAnswer LobbyReceipt
        (LobbyChainRegistry.start (primitives fun _ => 0) lobbyContext))
      [.call (.receiveAdmittedJoin (joinEnvelope 1)), .turn,
        .answer ⟨.stored (joinEnvelope 1), .exception⟩]).isSome = true := by
    decide +kernel
  obtain ⟨s, hrun⟩ := Option.isSome_iff_exists.1 hsome
  obtain ⟨-, hlobby⟩ := durable_before_visible (P := primitives fun _ => 0) ed25519 rosterHash
    lobbyRosters (lobbyRosters_subsingleton.injOn rosterHash)
  refine ⟨s, hrun, (hlobby lobbyContext [] (by simp)).2 _ s ?_ (by simp) hrun⟩
  intro call hcall body hbody
  simp only [List.mem_cons, Serial.Input.call.injEq, List.not_mem_nil, reduceCtorEq,
    or_false] at hcall
  subst hcall
  exact ⟨.bootstrapJoin (joinEnvelope 1), by simp [lobbyCalls], hbody⟩

end Tablefolk
