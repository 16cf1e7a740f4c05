import Tablefolk.Engine.ShuffleReplay
import Tablefolk.Session.CaptureLimits

/-!
# Runs of the durable shuffle receiver

While the receiver lives there are a session and a ledger that agree: those of its last idle
state.  An operation in progress is ahead of them by one envelope at most, and only the session.

* `PersistentCandidateShuffleReceiver.Live`: the invariant.
* `Live.step`: an event keeps it, accepts one shuffle, or ends the life of the receiver.
* `Takes.run_receipt`: a shuffle that begins on the ledger is taken in.
* `shuffle_recovery_agrees`: what that says of every run.
-/

namespace Tablefolk

namespace PersistentCandidateShuffleReceiver

section

variable {q : ℕ} {G : Type} [AddCommGroup G] [Module (ZMod q) G] [DecidableEq G]
  {P : Primitives q G} {ed : Ed25519} {hashRosterBody : RosterBody → Hash256}
  {verify : ShuffleVerifier} {options : ShuffleReceiverOptions}
  {r : PersistentCandidateShuffleReceiver P} {base : SessionChainRegistry P}
  {L : CandidateShuffleLedger G} {operation : ShuffleOperation G}

/-! ## The invariant -/

/-- What holds of a living receiver, whatever is in progress: the session and the ledger of its
last idle state agree, and it has captured this session. -/
structure Core (ed : Ed25519) (hashRosterBody : RosterBody → Hash256) (verify : ShuffleVerifier)
    (options : ShuffleReceiverOptions) (r : PersistentCandidateShuffleReceiver P)
    (base : SessionChainRegistry P) (L : CandidateShuffleLedger G) : Prop where
  open_ : r.failed = false ∧ r.closed = false
  options_eq : r.options = options
  agrees : ∃ logs, Agrees ed hashRosterBody verify options base logs L
  checkpoint : captureSessionHistory ed base options.historyLimits = .ok r.checkpoint
  snapshot : r.snapshot = L.snapshot

/-- A ledger while a call is in it. -/
def inCall (L : CandidateShuffleLedger G) : CandidateShuffleLedger G := { L with busy := true }

/-- A preparation that fits a ledger: its statement extends the deck. -/
def Fits (P : Primitives q G) (hashRosterBody : RosterBody → Hash256)
    (L : CandidateShuffleLedger G) (prepared : PreparedShuffle) : Prop :=
  prepared.expected = L.snapshot ∧ ∃ statement : CandidateShuffleStatement36 G,
    encodeCandidateShuffleStatement36 P statement = .ok prepared.statement ∧
    { statement with outputDeck := L.deck } = L.template hashRosterBody

/-- A call of the ledger that its verifier has let pass. -/
def Cleared (P : Primitives q G) (ed : Ed25519) (hashRosterBody : RosterBody → Hash256)
    (verify : ShuffleVerifier) (L : CandidateShuffleLedger G) (pending : PendingAccept G) : Prop :=
  pending.stage = .receiving none ∧ pending.captured ∈ L.accepted ∨
    ∃ statement, pending.stage = .receiving (some statement) ∧
      L.Begins P ed hashRosterBody pending.captured statement ∧
      verifierAnswer verify pending.captured = some true

/-- Where an operation is. -/
def InProgress (ed : Ed25519) (hashRosterBody : RosterBody → Hash256) (verify : ShuffleVerifier)
    (r : PersistentCandidateShuffleReceiver P) (base : SessionChainRegistry P)
    (L : CandidateShuffleLedger G) (operation : ShuffleOperation G) : Prop :=
  match operation.stage with
  | .readingHead | .proving => (r.session = base ∧ r.ledger = L) ∧
      ∀ prepared ∈ operation.prepared, Fits P hashRosterBody L prepared
  | .signing _ => (r.session = base ∧ r.ledger = L) ∧
      ∀ prepared ∈ operation.prepared, Fits P hashRosterBody L prepared ∧
        verify prepared.statement prepared.proof = some true
  | .accepting pending _ => (r.session = base ∧ r.ledger = inCall L) ∧
      ∃ e statement, pending = ⟨e, .verifying statement⟩ ∧
        L.Begins P ed hashRosterBody e statement
  | .storing pending _ _ => (r.session = base ∧ r.ledger = inCall L) ∧
      Cleared P ed hashRosterBody verify L pending
  | .stored pending _ _ _ => r.ledger = inCall L ∧
      Cleared P ed hashRosterBody verify L pending ∧
      (r.session = base ∨ ∃ head, base.classify pending.captured = .chain (.accepted head) ∧
        r.session = (base.ingest pending.captured).2)

/-- A living receiver. -/
structure Live (ed : Ed25519) (hashRosterBody : RosterBody → Hash256) (verify : ShuffleVerifier)
    (options : ShuffleReceiverOptions) (r : PersistentCandidateShuffleReceiver P)
    (base : SessionChainRegistry P) (L : CandidateShuffleLedger G) : Prop
    extends Core ed hashRosterBody verify options r base L where
  operation : match r.operation with
    | none => r.session = base ∧ r.ledger = L
    | some operation => InProgress ed hashRosterBody verify r base L operation

/-- A receiver that has failed or is closed, with the chain of this ledger. -/
structure Stale (L : CandidateShuffleLedger G) (r : PersistentCandidateShuffleReceiver P) :
    Prop where
  ended : r.failed = true ∨ r.closed = true
  closed : r.ledger.closed = true
  chain : r.ledger.deck = L.deck ∧ r.ledger.seat = L.seat ∧ r.ledger.accepted = L.accepted
  snapshot : r.snapshot = L.snapshot

/-- What a step leads to. -/
def Leads (ed : Ed25519) (hashRosterBody : RosterBody → Hash256) (verify : ShuffleVerifier)
    (options : ShuffleReceiverOptions) (base : SessionChainRegistry P)
    (L : CandidateShuffleLedger G) (result : Result P) : Prop :=
  (result.1 ≠ some .accepted ∧
    (Stale L result.2 ∨ Live ed hashRosterBody verify options result.2 base L)) ∨
  result.1 = some .accepted ∧ ∃ base' L', L'.seat = L.seat + 1 ∧
    Live ed hashRosterBody verify options result.2 base' L'

/-! ## A receiver that has ended -/

omit [DecidableEq G] in
theorem Stale.guard (h : Stale L r) : r.guard = (false, r) := by
  unfold PersistentCandidateShuffleReceiver.guard
  rw [if_pos h.ended]

omit [DecidableEq G] in
theorem Stale.fail (h : Stale L r) : Stale L r.fail :=
  ⟨.inl rfl, rfl, h.chain, h.snapshot⟩

omit [DecidableEq G] in
theorem Stale.releaseLedger (h : Stale L r) : Stale L r.releaseLedger :=
  ⟨h.ended, h.closed, h.chain, h.snapshot⟩

omit [DecidableEq G] in
theorem Stale.throws (h : Stale L r) :
    (r.throws operation).1 ≠ some .accepted ∧ Stale L (r.throws operation).2 := by
  unfold PersistentCandidateShuffleReceiver.throws finish
  split
  · exact ⟨by simp, .inl rfl, rfl, h.chain, h.snapshot⟩
  · exact ⟨by simp, h.ended, h.closed, h.chain, h.snapshot⟩

omit [DecidableEq G] in
theorem Stale.receiptFailed (h : Stale L r) :
    (r.receiptFailed operation).1 ≠ some .accepted ∧ Stale L (r.receiptFailed operation).2 := by
  unfold PersistentCandidateShuffleReceiver.receiptFailed
  rw [h.releaseLedger.guard]
  exact h.releaseLedger.fail.throws

omit [DecidableEq G] in
theorem Stale.authorGuard (h : Stale L r) (prepared : PreparedShuffle)
    (head : Option (Option SignedEnvelope)) : r.authorGuard prepared head = (false, r) := by
  unfold PersistentCandidateShuffleReceiver.authorGuard
  rw [h.guard]

omit [DecidableEq G] in
theorem Stale.onResume (h : Stale L r) (pending : PendingAccept G) (duplicate : Bool)
    (before : List ChainHead)
    (receipt : Except PersistentSessionReceiverError PersistentSessionReceiveResult) :
    (r.onResume ed operation pending duplicate before receipt).1 ≠ some .accepted ∧
      Stale L (r.onResume ed operation pending duplicate before receipt).2 := by
  have hreceipt : (r.checkReceipt ed operation pending duplicate before).1 ≠ some .accepted ∧
      Stale L (r.checkReceipt ed operation pending duplicate before).2 := by
    unfold checkReceipt
    split
    · exact h.fail.receiptFailed
    · cases captureSessionHistory ed r.session r.options.historyLimits with
      | error error => exact h.receiptFailed
      | ok checkpoint =>
          have hnext : Stale L { r with checkpoint := checkpoint } :=
            ⟨h.ended, h.closed, h.chain, h.snapshot⟩
          simp only
          rw [hnext.guard]
          exact hnext.receiptFailed
  unfold PersistentCandidateShuffleReceiver.onResume
  cases receipt with
  | error error => exact h.receiptFailed
  | ok result =>
      cases result with
      | rejected reason =>
          simp only
          rw [h.guard]
          exact h.receiptFailed
      | durableConflict existing =>
          simp only
          rw [h.guard]
          exact h.receiptFailed
      | accepted persistence => exact hreceipt
      | duplicate persistence => exact hreceipt

omit [DecidableEq G] in
theorem Stale.onVerified (h : Stale L r) (pending : PendingAccept G) (duplicate : Bool) :
    (r.onVerified verify operation pending duplicate).1 ≠ some .accepted ∧
      Stale L (r.onVerified verify operation pending duplicate).2 := by
  unfold PersistentCandidateShuffleReceiver.onVerified
  split
  · rename_i hverified
    have hopen := (CandidateShuffleLedger.verified_eq_ok.1 hverified).2
    rw [h.closed] at hopen
    cases hopen
  · exact h.releaseLedger.throws

omit [DecidableEq G] in
theorem Stale.onProved (h : Stale L r) (prepared : PreparedShuffle) :
    (r.onProved verify operation prepared).1 ≠ some .accepted ∧
      Stale L (r.onProved verify operation prepared).2 := by
  unfold PersistentCandidateShuffleReceiver.onProved
  split
  · exact h.throws
  · rw [h.authorGuard]
    exact h.throws

omit [DecidableEq G] in
theorem Stale.onHead (h : Stale L r) (prepared : PreparedShuffle)
    (head : Option (Option SignedEnvelope)) :
    (r.onHead operation prepared head).1 ≠ some .accepted ∧
      Stale L (r.onHead operation prepared head).2 := by
  unfold PersistentCandidateShuffleReceiver.onHead
  cases head with
  | none => exact h.throws
  | some head =>
      simp only
      rw [h.authorGuard]
      exact h.throws

theorem Stale.onAuthored (h : Stale L r) (guarded : Bool) (artifact : Option SignedEnvelope) :
    (r.onAuthored ed hashRosterBody operation guarded artifact).1 ≠ some .accepted ∧
      Stale L (r.onAuthored ed hashRosterBody operation guarded artifact).2 := by
  unfold PersistentCandidateShuffleReceiver.onAuthored
  split
  · rw [h.guard]
    exact h.throws
  · exact h.throws

/-- **What has ended stays so, and accepts nothing.** -/
theorem Stale.step (h : Stale L r) (event : ShuffleReceiverEvent) :
    (r.step ed hashRosterBody verify event).1 ≠ some .accepted ∧
      Stale L (r.step ed hashRosterBody verify event).2 := by
  unfold PersistentCandidateShuffleReceiver.step
  split
  · unfold receive
    rw [h.guard]
    exact ⟨by simp, h⟩
  · unfold author
    rw [h.guard]
    exact ⟨by simp, h⟩
  · exact h.onHead _ _
  · exact h.onProved _
  · unfold onGuarded
    rw [h.authorGuard]
    exact ⟨by simp, h.ended, h.closed, h.chain, h.snapshot⟩
  · exact h.onAuthored _ _
  · exact h.onVerified _ _
  · exact ⟨by simp [onStored], h.ended, h.closed, h.chain, h.snapshot⟩
  · exact h.onResume _ _ _ _
  · rw [h.guard]
    exact ⟨by simp, h⟩
  · exact ⟨by simp, .inr rfl, rfl, h.chain, h.snapshot⟩
  · exact ⟨by simp, h⟩

/-! ## A living receiver -/

/-- A living receiver in which nothing is in progress, or nothing has been changed yet. -/
structure Rests (ed : Ed25519) (hashRosterBody : RosterBody → Hash256) (verify : ShuffleVerifier)
    (options : ShuffleReceiverOptions) (r : PersistentCandidateShuffleReceiver P)
    (base : SessionChainRegistry P) (L : CandidateShuffleLedger G) : Prop
    extends Core ed hashRosterBody verify options r base L where
  rest : r.session = base ∧ r.ledger = L

/-- A living receiver whose ledger awaits something. -/
structure Waits (ed : Ed25519) (hashRosterBody : RosterBody → Hash256) (verify : ShuffleVerifier)
    (options : ShuffleReceiverOptions) (r : PersistentCandidateShuffleReceiver P)
    (base : SessionChainRegistry P) (L : CandidateShuffleLedger G) : Prop
    extends Core ed hashRosterBody verify options r base L where
  waits : r.ledger = inCall L

theorem Core.idle (h : Core ed hashRosterBody verify options r base L) : L.Idle := by
  obtain ⟨logs, hagrees⟩ := h.agrees
  exact hagrees.idle

/-- The guard of a living receiver passes on the session it has captured, or it fails. -/
theorem Core.guard (h : Core ed hashRosterBody verify options r base L) :
    r.guard = (true, r) ∧ r.checkpoint.Unchanged r.session ∨ r.guard = (false, r.fail) := by
  unfold PersistentCandidateShuffleReceiver.guard
  rw [if_neg (by simp [h.open_])]
  by_cases hunchanged : r.checkpoint.Unchanged r.session
  · rw [if_pos hunchanged]
    exact .inl ⟨rfl, hunchanged⟩
  · rw [if_neg hunchanged]
    exact .inr rfl

theorem Core.stale_fail (h : Core ed hashRosterBody verify options r base L)
    (hledger : r.ledger = L ∨ r.ledger = inCall L) : Stale L r.fail := by
  refine ⟨.inl rfl, rfl, ?_, h.snapshot⟩
  rcases hledger with hledger | hledger
  · exact ⟨by rw [fail, hledger]; rfl, by rw [fail, hledger]; rfl, by rw [fail, hledger]; rfl⟩
  · exact ⟨by rw [fail, hledger]; rfl, by rw [fail, hledger]; rfl, by rw [fail, hledger]; rfl⟩

theorem Waits.releaseLedger (h : Waits ed hashRosterBody verify options r base L)
    (hsession : r.session = base) :
    Rests ed hashRosterBody verify options r.releaseLedger base L := by
  refine { h with rest := ⟨hsession, ?_⟩ }
  have hbusy := h.toCore.idle.1
  show r.ledger.release = L
  rw [h.waits]
  unfold inCall CandidateShuffleLedger.release
  simp only
  rw [← hbusy]

theorem Rests.throws (h : Rests ed hashRosterBody verify options r base L) :
    Leads ed hashRosterBody verify options base L (r.throws operation) := by
  unfold PersistentCandidateShuffleReceiver.throws finish
  split
  · have hstale := h.toCore.stale_fail (.inl h.rest.2)
    exact .inl ⟨by simp, .inl ⟨hstale.ended, hstale.closed, hstale.chain, hstale.snapshot⟩⟩
  · exact .inl ⟨by simp, .inr { h with operation := h.rest }⟩

theorem Rests.rejects (h : Rests ed hashRosterBody verify options r base L) :
    Leads ed hashRosterBody verify options base L (r.rejects operation) := by
  unfold PersistentCandidateShuffleReceiver.rejects finish
  split
  · have hstale := h.toCore.stale_fail (.inl h.rest.2)
    exact .inl ⟨by simp, .inl ⟨hstale.ended, hstale.closed, hstale.chain, hstale.snapshot⟩⟩
  · exact .inl ⟨by simp, .inr { h with operation := h.rest }⟩

/-- An operation that is still in progress. -/
theorem Core.leads_progress (h : Core ed hashRosterBody verify options r base L)
    (hprogress : InProgress ed hashRosterBody verify r base L operation) :
    Leads ed hashRosterBody verify options base L
      (none, { r with operation := some operation }) := by
  refine .inl ⟨by simp, .inr { h with operation := ?_ }⟩
  exact hprogress

theorem leads_of_stale {result : Result P} (h : result.1 ≠ some .accepted ∧ Stale L result.2) :
    Leads ed hashRosterBody verify options base L result := .inl ⟨h.1, .inl h.2⟩

theorem Waits.startReceipt (h : Waits ed hashRosterBody verify options r base L)
    (hsession : r.session = base) {pending : PendingAccept G}
    (hcleared : Cleared P ed hashRosterBody verify L pending) (duplicate : Bool) :
    Leads ed hashRosterBody verify options base L
      (r.startReceipt operation pending duplicate) := by
  unfold PersistentCandidateShuffleReceiver.startReceipt
  rcases h.toCore.guard with ⟨hguard, -⟩ | hguard
  · rw [hguard]
    exact h.toCore.leads_progress ⟨⟨hsession, h.waits⟩, hcleared⟩
  · rw [hguard]
    exact leads_of_stale (h.toCore.stale_fail (.inr h.waits)).releaseLedger.throws

theorem Rests.receiveOne (h : Rests ed hashRosterBody verify options r base L)
    (bytes : SignedEnvelope) :
    Leads ed hashRosterBody verify options base L
      (r.receiveOne ed hashRosterBody operation bytes) := by
  have henter (duplicate : Bool) : Leads ed hashRosterBody verify options base L
      (PersistentCandidateShuffleReceiver.receiveOne.enter ed hashRosterBody operation bytes r
        duplicate) := by
    unfold PersistentCandidateShuffleReceiver.receiveOne.enter
    cases hbegin : r.ledger.beginAccept P ed hashRosterBody bytes with
    | error error => exact h.throws
    | ok result =>
        obtain ⟨pending, ledger⟩ := result
        rw [h.rest.2] at hbegin
        obtain ⟨rfl, hcases⟩ := CandidateShuffleLedger.beginAccept_cases hbegin
        rcases hcases with ⟨rfl, hknown⟩ | ⟨statement, rfl, hbegins⟩
        · have hwaits : Waits ed hashRosterBody verify options
              { r with ledger := inCall L } base L := { h with waits := rfl }
          exact hwaits.startReceipt h.rest.1 (.inl ⟨rfl, hknown⟩) duplicate
        · have hcore : Core ed hashRosterBody verify options
              { r with ledger := inCall L } base L := { h with }
          exact hcore.leads_progress ⟨⟨h.rest.1, rfl⟩, bytes, statement, rfl, hbegins⟩
  unfold PersistentCandidateShuffleReceiver.receiveOne
  rcases h.toCore.guard with ⟨hguard, -⟩ | hguard
  · rw [hguard]
    simp only
    split
    · exact henter false
    · exact henter true
    · exact h.rejects
  · rw [hguard]
    exact leads_of_stale (h.toCore.stale_fail (.inl h.rest.2)).throws

theorem Rests.receive (h : Rests ed hashRosterBody verify options r base L)
    (hnone : r.operation = none) (candidate : SignedEnvelope) :
    Leads ed hashRosterBody verify options base L (r.receive ed hashRosterBody candidate) := by
  have hlive : Live ed hashRosterBody verify options r base L :=
    { h with operation := by rw [hnone]; exact h.rest }
  unfold PersistentCandidateShuffleReceiver.receive
  rcases h.toCore.guard with ⟨hguard, -⟩ | hguard
  · rw [hguard]
    simp only
    rw [hnone]
    simp only [Option.isSome_none, Bool.false_eq_true, if_false]
    cases captureEnvelope ed candidate with
    | error error => exact .inl ⟨by simp, .inr hlive⟩
    | ok bytes => exact h.receiveOne bytes
  · rw [hguard]
    exact .inl ⟨by simp, .inl (h.toCore.stale_fail (.inl h.rest.2))⟩

/-- A preparation that passes the checks of `author` fits the ledger. -/
theorem Rests.prepare (h : Rests ed hashRosterBody verify options r base L) {game : GameId}
    {sender : IdentityPublicKey} {statement proof : List UInt8}
    {expected : Option CandidateShuffleSnapshot} {prepared : PreparedShuffle}
    (hprepare : r.prepare hashRosterBody game sender statement proof expected = .ok prepared) :
    Fits P hashRosterBody L prepared := by
  unfold PersistentCandidateShuffleReceiver.prepare at hprepare
  split at hprepare
  · rename_i expected seat _
    obtain ⟨hexpected, hprepare⟩ := check_bind_eq_ok.1 hprepare
    obtain ⟨-, hprepare⟩ := check_bind_eq_ok.1 hprepare
    obtain ⟨decoded, -, hprepare⟩ := bind_eq_ok.1 hprepare
    obtain ⟨-, -, hprepare⟩ := bind_eq_ok.1 hprepare
    obtain ⟨bytes, hbytes, hprepare⟩ := bind_eq_ok.1 hprepare
    obtain ⟨hextends, hprepare⟩ := check_bind_eq_ok.1 hprepare
    cases hprepare
    have hsnapshot := not_not.1 (throwIf_eq_ok.1 hexpected)
    have hfields := CandidateShuffleLedger.requireExtends_eq_ok hextends
    rw [h.rest.2] at hfields
    exact ⟨hsnapshot.trans h.snapshot, decoded, mapError_eq_ok.1 hbytes, hfields⟩
  · cases hprepare

theorem Rests.author (h : Rests ed hashRosterBody verify options r base L)
    (hnone : r.operation = none) (game : GameId) (sender : IdentityPublicKey)
    (statement proof : List UInt8) (expected : Option CandidateShuffleSnapshot) :
    Leads ed hashRosterBody verify options base L
      (r.author hashRosterBody game sender statement proof expected) := by
  have hlive : Live ed hashRosterBody verify options r base L :=
    { h with operation := by rw [hnone]; exact h.rest }
  unfold PersistentCandidateShuffleReceiver.author
  rcases h.toCore.guard with ⟨hguard, -⟩ | hguard
  · rw [hguard]
    simp only
    rw [hnone]
    simp only [Option.isSome_none, Bool.false_eq_true, if_false]
    cases hprepare : r.prepare hashRosterBody game sender statement proof expected with
    | error error => exact .inl ⟨by simp, .inr hlive⟩
    | ok prepared =>
        have hfits := h.prepare hprepare
        refine h.toCore.leads_progress ⟨h.rest, fun other hother => ?_⟩
        cases hother
        exact hfits
  · rw [hguard]
    exact .inl ⟨by simp, .inl (h.toCore.stale_fail (.inl h.rest.2))⟩

/-- The guard of `author` passes without a change, refuses without a change, or fails. -/
theorem Core.authorGuard (h : Core ed hashRosterBody verify options r base L)
    (prepared : PreparedShuffle) (head : Option (Option SignedEnvelope)) :
    (∃ passed, r.authorGuard prepared head = (passed, r)) ∨
      r.authorGuard prepared head = (false, r.fail) := by
  unfold PersistentCandidateShuffleReceiver.authorGuard
  rcases h.guard with ⟨hguard, -⟩ | hguard
  · rw [hguard]
    simp only
    split
    · exact .inl ⟨false, rfl⟩
    · cases head with
      | none => exact .inl ⟨true, rfl⟩
      | some head =>
          simp only
          split
          · exact .inl ⟨true, rfl⟩
          · exact .inr rfl
  · rw [hguard]
    exact .inr rfl

/-- An exception after the durable receiver was called: the session is as it was, or the receiver
has failed. -/
theorem Waits.receiptFailed (h : Waits ed hashRosterBody verify options r base L)
    {e : SignedEnvelope} (hsession : r.session = base ∨
      ∃ head, base.classify e = .chain (.accepted head) ∧ r.session = (base.ingest e).2) :
    Leads ed hashRosterBody verify options base L (r.receiptFailed operation) := by
  unfold PersistentCandidateShuffleReceiver.receiptFailed
  have hcore : Core ed hashRosterBody verify options r.releaseLedger base L := { h with }
  have hledger : r.releaseLedger.ledger = L := by
    have hbusy := h.toCore.idle.1
    show r.ledger.release = L
    rw [h.waits]
    unfold inCall CandidateShuffleLedger.release
    simp only
    rw [← hbusy]
  rcases hcore.guard with ⟨hguard, hunchanged⟩ | hguard
  · rw [hguard]
    rcases hsession with hsession | ⟨head, haccepted, hsession⟩
    · have hrests : Rests ed hashRosterBody verify options r.releaseLedger base L :=
        { hcore with rest := ⟨hsession, hledger⟩ }
      exact hrests.throws
    · obtain ⟨logs, hagrees⟩ := h.agrees
      obtain ⟨-, hheads, -⟩ := captureSessionHistory_eq_ok hagrees.holds h.checkpoint
      have hchanged := not_unchanged_of_accepted hagrees.holds hheads haccepted
      have hsame : r.checkpoint.Unchanged r.session := hunchanged
      rw [hsession] at hsame
      exact absurd hsame hchanged
  · rw [hguard]
    exact leads_of_stale (hcore.stale_fail (.inl hledger)).fail.throws

/-! ## A receipt -/

omit [DecidableEq G] in
theorem mem_of_readRange {logs : ℕ → List SignedEnvelope} (hlogs : HoldsLogs base logs)
    {e : SignedEnvelope} {seq : ℕ}
    (h : base.readRange e.from_ seq seq = .ok (.complete [e])) : ∃ seat, e ∈ logs seat := by
  by_cases hsafe : seq ≤ MAX_SAFE_INTEGER
  · cases hseat : base.roster.seatOf e.from_ with
    | none =>
        unfold SessionChainRegistry.readRange at h
        rw [throwIf_neg (by omega), ok_bind, throwIf_neg (by omega), ok_bind,
          throwIf_neg (by omega), ok_bind, hseat] at h
        cases h
    | some seat =>
        rw [hlogs.readRange hseat le_rfl hsafe] at h
        split at h
        · have hlist := SyncRangeResult.complete.inj (Except.ok.inj h)
          have hmem : e ∈ ((logs seat).drop seq).take (seq - seq + 1) := by
            rw [hlist]
            exact List.mem_singleton_self e
          exact ⟨seat, List.mem_of_mem_drop (List.mem_of_mem_take hmem)⟩
        · cases h
  · unfold SessionChainRegistry.readRange at h
    rw [throwIf_pos (by omega)] at h
    cases h

/-- A fresh shuffle is not in the session. -/
theorem not_mem_of_begins {logs : ℕ → List SignedEnvelope}
    (hagrees : Agrees ed hashRosterBody verify options base logs L) {e : SignedEnvelope}
    {statement : CandidateShuffleStatement36 G}
    (hbegins : L.Begins P ed hashRosterBody e statement) (seat : ℕ) : e ∉ logs seat := by
  intro he
  have hlink := hbegins.extends_.1
  have hcontribution : e.isContribution options.round = true := by
    simp [SignedEnvelope.isContribution, hlink.type, hlink.round_eq, hagrees.scope.2]
  apply hbegins.fresh
  rw [← hagrees.contributions]
  exact List.mem_filter.2 ⟨hagrees.holds.mem_held.2 ⟨seat, he⟩, hcontribution⟩

/-- An accepted shuffle is in the session, which does not accept it again. -/
theorem not_accepted_of_known {logs : ℕ → List SignedEnvelope}
    (hagrees : Agrees ed hashRosterBody verify options base logs L) {e : SignedEnvelope}
    (hknown : e ∈ L.accepted) (head : ChainHead) :
    base.classify e ≠ .chain (.accepted head) := by
  intro haccepted
  rw [← hagrees.contributions] at hknown
  obtain ⟨other, he⟩ := hagrees.holds.mem_held.1 (List.mem_filter.1 hknown).1
  obtain ⟨hother, hplace⟩ := hagrees.holds.place he
  obtain ⟨-, seat, hseat, hseq, -⟩ := hagrees.holds.classify_accepted.1 ⟨head, haccepted⟩
  rw [hother] at hseat
  obtain rfl := Option.some.inj hseat
  have hlt := (List.getElem?_eq_some_iff.1 hplace).1
  omega

omit [DecidableEq G] in
theorem guard_of_unchanged (hopen : r.failed = false ∧ r.closed = false)
    (hunchanged : r.checkpoint.Unchanged r.session) : r.guard = (true, r) := by
  unfold PersistentCandidateShuffleReceiver.guard
  rw [if_neg (by simp [hopen]), if_pos hunchanged]

/-- The session is as it was: only a shuffle that the ledger has can come out of this. -/
theorem Waits.acceptReceipt_known (h : Waits ed hashRosterBody verify options r base L)
    (hsession : r.session = base) {pending : PendingAccept G}
    (hstage : pending.stage = .receiving none) :
    Leads ed hashRosterBody verify options base L (r.acceptReceipt operation pending) := by
  have hidle := h.toCore.idle
  have hreceived : r.ledger.received pending.captured none true =
      .ok (.duplicate, inCall L) := by
    rw [h.waits]
    unfold CandidateShuffleLedger.received
    rw [throwIf_neg (by simp), ok_bind, throwIf_neg (by simp [inCall, hidle.2]), ok_bind]
    rfl
  have hrelease : (inCall L).release = L := by
    unfold inCall CandidateShuffleLedger.release
    simp only
    rw [← hidle.1]
  have hrests : Rests ed hashRosterBody verify options { r with ledger := L } base L :=
    { h with rest := ⟨hsession, rfl⟩ }
  unfold PersistentCandidateShuffleReceiver.acceptReceipt
  rw [hstage]
  simp only [hreceived, hrelease]
  rcases hrests.toCore.guard with ⟨hguard, -⟩ | hguard
  · rw [hguard]
    exact .inl ⟨by simp [finish], .inr { hrests with operation := hrests.rest }⟩
  · rw [hguard]
    exact leads_of_stale (hrests.toCore.stale_fail (.inl rfl)).receiptFailed

/-- **One more shuffle** in the session and in the ledger. -/
theorem Waits.acceptReceipt_fresh (h : Waits ed hashRosterBody verify options r base L)
    {pending : PendingAccept G} {statement : CandidateShuffleStatement36 G} {head : ChainHead}
    {history : CapturedSessionHistory P} (hstage : pending.stage = .receiving (some statement))
    (hbegins : L.Begins P ed hashRosterBody pending.captured statement)
    (hverify : verifierAnswer verify pending.captured = some true)
    (haccepted : base.classify pending.captured = .chain (.accepted head))
    (hsession : r.session = (base.ingest pending.captured).2)
    (hcapture : captureSessionHistory ed r.session options.historyLimits = .ok history)
    (hunchanged : history.Unchanged r.session) :
    Leads ed hashRosterBody verify options base L
      ({ r with checkpoint := history }.acceptReceipt operation pending) := by
  have hidle := h.toCore.idle
  obtain ⟨logs, hagrees⟩ := h.agrees
  obtain ⟨next, hnext⟩ := hagrees.snoc hbegins hverify haccepted
  have hreceived : r.ledger.received pending.captured (some statement) true =
      .ok (.accepted, (inCall L).extend pending.captured statement) := by
    have hopen : (inCall L).closed = false := hidle.2
    rw [h.waits]
    exact CandidateShuffleLedger.received_some hopen _ _
  have hrelease : ((inCall L).extend pending.captured statement).release =
      L.extend pending.captured statement := by
    unfold inCall CandidateShuffleLedger.release CandidateShuffleLedger.extend
    simp only
    rw [← hidle.1]
  have hguard := guard_of_unchanged
    (r := { r with
      checkpoint := history
      ledger := L.extend pending.captured statement }) h.open_ hunchanged
  unfold PersistentCandidateShuffleReceiver.acceptReceipt
  rw [hstage]
  simp only [hreceived, hrelease, hguard]
  refine .inr ⟨rfl, r.session, L.extend pending.captured statement, rfl, ?_⟩
  exact {
    open_ := h.open_
    options_eq := h.options_eq
    agrees := ⟨next, by rw [hsession]; exact hnext⟩
    checkpoint := hcapture
    snapshot := rfl
    operation := ⟨rfl, rfl⟩ }

theorem Waits.checkReceipt (h : Waits ed hashRosterBody verify options r base L)
    {pending : PendingAccept G} (hcleared : Cleared P ed hashRosterBody verify L pending)
    (hsession : r.session = base ∨ ∃ head, base.classify pending.captured =
      .chain (.accepted head) ∧ r.session = (base.ingest pending.captured).2)
    (duplicate : Bool) (before : List ChainHead) :
    Leads ed hashRosterBody verify options base L
      (r.checkReceipt ed operation pending duplicate before) := by
  obtain ⟨logs, hagrees⟩ := h.agrees
  unfold PersistentCandidateShuffleReceiver.checkReceipt
  by_cases hmatches : r.ReceiptMatches pending.captured duplicate before
  · rw [if_neg (not_not.2 hmatches)]
    cases hcapture : captureSessionHistory ed r.session r.options.historyLimits with
    | error error => exact h.receiptFailed hsession
    | ok history =>
        rw [h.options_eq] at hcapture
        simp only
        rcases hsession with hsession | ⟨head, haccepted, hsession⟩
        · have hcore : Waits ed hashRosterBody verify options
              { r with checkpoint := history } base L := { h with
            checkpoint := by rw [← hsession]; exact hcapture }
          rcases hcore.toCore.guard with ⟨hguard, -⟩ | hguard
          · rw [hguard]
            rcases hcleared with ⟨hstage, -⟩ | ⟨statement, -, hbegins, -⟩
            · exact hcore.acceptReceipt_known hsession hstage
            · have hrange := hmatches.2.2
              rw [hsession] at hrange
              obtain ⟨seat, hmem⟩ := mem_of_readRange hagrees.holds hrange
              exact absurd hmem (not_mem_of_begins hagrees hbegins seat)
          · rw [hguard]
            exact leads_of_stale (hcore.toCore.stale_fail (.inr h.waits)).receiptFailed
        · rcases hcleared with ⟨-, hknown⟩ | ⟨statement, hstage, hbegins, hverify⟩
          · exact absurd haccepted (not_accepted_of_known hagrees hknown head)
          · by_cases hunchanged : history.Unchanged r.session
            · have hguard := guard_of_unchanged (r := { r with checkpoint := history })
                h.open_ hunchanged
              rw [hguard]
              exact h.acceptReceipt_fresh hstage hbegins hverify haccepted hsession hcapture
                hunchanged
            · have hguard : { r with checkpoint := history }.guard =
                  (false, { r with checkpoint := history }.fail) := by
                unfold PersistentCandidateShuffleReceiver.guard
                rw [if_neg (by simp [h.open_]), if_neg hunchanged]
              have hstale := h.toCore.stale_fail (.inr h.waits)
              have hfailed : Stale L { r with checkpoint := history }.fail :=
                ⟨hstale.ended, hstale.closed, hstale.chain, hstale.snapshot⟩
              rw [hguard]
              exact leads_of_stale hfailed.receiptFailed
  · rw [if_pos hmatches]
    exact leads_of_stale (h.toCore.stale_fail (.inr h.waits)).receiptFailed

theorem Waits.onResume (h : Waits ed hashRosterBody verify options r base L)
    {pending : PendingAccept G} (hcleared : Cleared P ed hashRosterBody verify L pending)
    (hsession : r.session = base ∨ ∃ head, base.classify pending.captured =
      .chain (.accepted head) ∧ r.session = (base.ingest pending.captured).2)
    (duplicate : Bool) (before : List ChainHead)
    (receipt : Except PersistentSessionReceiverError PersistentSessionReceiveResult) :
    Leads ed hashRosterBody verify options base L
      (r.onResume ed operation pending duplicate before receipt) := by
  unfold PersistentCandidateShuffleReceiver.onResume
  cases receipt with
  | error error => exact h.receiptFailed hsession
  | ok result =>
      cases result with
      | accepted persistence | duplicate persistence =>
          exact h.checkReceipt hcleared hsession duplicate before
      | rejected reason | durableConflict existing =>
          dsimp only
          rcases h.toCore.guard with ⟨hguard, hunchanged⟩ | hguard
          · rw [hguard]
            rcases hsession with hsession | ⟨head, haccepted, hsession⟩
            · exact (h.releaseLedger hsession).rejects
            · -- an accepted envelope has moved a head, which the guard would have seen
              obtain ⟨logs, hagrees⟩ := h.agrees
              obtain ⟨-, hheads, -⟩ := captureSessionHistory_eq_ok hagrees.holds h.checkpoint
              rw [hsession] at hunchanged
              exact absurd hunchanged (not_unchanged_of_accepted hagrees.holds hheads haccepted)
          · rw [hguard]
            exact leads_of_stale (h.toCore.stale_fail (.inr h.waits)).receiptFailed

/-! ## Steps and runs -/

theorem Live.ledger (h : Live ed hashRosterBody verify options r base L) :
    r.ledger = L ∨ r.ledger = inCall L := by
  have hoperation := h.operation
  cases hop : r.operation with
  | none =>
      rw [hop] at hoperation
      exact .inl hoperation.2
  | some operation =>
      rw [hop] at hoperation
      simp only [InProgress] at hoperation
      split at hoperation
      · exact .inl hoperation.1.2
      · exact .inl hoperation.1.2
      · exact .inl hoperation.1.2
      · exact .inr hoperation.1.2
      · exact .inr hoperation.1.2
      · exact .inr hoperation.1

/-- A call that comes while an operation is in progress is refused. -/
theorem Live.refuses (h : Live ed hashRosterBody verify options r base L)
    {next : PersistentCandidateShuffleReceiver P → Result P}
    (hsome : r.operation.isSome = true) :
    Leads ed hashRosterBody verify options base L
      (match r.guard with
        | (false, r) => (some .threw, r)
        | (true, r) => if r.operation.isSome then (some .threw, r) else next r) := by
  rcases h.toCore.guard with ⟨hguard, -⟩ | hguard
  · rw [hguard]
    simp only [hsome, if_true]
    exact .inl ⟨by simp, .inr h⟩
  · rw [hguard]
    exact .inl ⟨by simp, .inl (h.toCore.stale_fail h.ledger)⟩

theorem Rests.onHead (h : Rests ed hashRosterBody verify options r base L)
    {prepared : PreparedShuffle} (hfits : Fits P hashRosterBody L prepared)
    (hprepared : operation.prepared = some prepared)
    (head : Option (Option SignedEnvelope)) :
    Leads ed hashRosterBody verify options base L (r.onHead operation prepared head) := by
  unfold PersistentCandidateShuffleReceiver.onHead
  cases head with
  | none => exact h.throws
  | some head =>
      simp only
      rcases h.toCore.authorGuard prepared (some head) with ⟨passed, hguard⟩ | hguard
      · rw [hguard]
        cases passed with
        | false => exact h.throws
        | true =>
            refine h.toCore.leads_progress ⟨h.rest, fun other hother => ?_⟩
            rw [hprepared] at hother
            cases hother
            exact hfits
      · rw [hguard]
        exact leads_of_stale (h.toCore.stale_fail (.inl h.rest.2)).throws

theorem Rests.onProved (h : Rests ed hashRosterBody verify options r base L)
    {prepared : PreparedShuffle} (hfits : Fits P hashRosterBody L prepared)
    (hprepared : operation.prepared = some prepared) :
    Leads ed hashRosterBody verify options base L (r.onProved verify operation prepared) := by
  unfold PersistentCandidateShuffleReceiver.onProved
  by_cases hverify : verify prepared.statement prepared.proof = some true
  · rw [if_neg (not_not.2 hverify)]
    rcases h.toCore.authorGuard prepared none with ⟨passed, hguard⟩ | hguard
    · rw [hguard]
      cases passed with
      | false => exact h.throws
      | true =>
          refine h.toCore.leads_progress ⟨h.rest, fun other hother => ?_⟩
          have hsame : some prepared = some other := hprepared.symm.trans hother
          cases hsame
          exact ⟨hfits, hverify⟩
    · rw [hguard]
      exact leads_of_stale (h.toCore.stale_fail (.inl h.rest.2)).throws
  · rw [if_pos hverify]
    exact h.throws

theorem Rests.onAuthored (h : Rests ed hashRosterBody verify options r base L) (guarded : Bool)
    (artifact : Option SignedEnvelope) :
    Leads ed hashRosterBody verify options base L
      (r.onAuthored ed hashRosterBody operation guarded artifact) := by
  unfold PersistentCandidateShuffleReceiver.onAuthored
  split
  · rename_i artifact
    rcases h.toCore.guard with ⟨hguard, -⟩ | hguard
    · rw [hguard]
      simp only
      cases captureEnvelope ed artifact with
      | error error => exact h.throws
      | ok bytes => exact h.receiveOne bytes
    · rw [hguard]
      exact leads_of_stale (h.toCore.stale_fail (.inl h.rest.2)).throws
  · exact h.throws

theorem Waits.onVerified (h : Waits ed hashRosterBody verify options r base L)
    (hsession : r.session = base) {e : SignedEnvelope}
    {statement : CandidateShuffleStatement36 G}
    (hbegins : L.Begins P ed hashRosterBody e statement) (duplicate : Bool) :
    Leads ed hashRosterBody verify options base L
      (r.onVerified verify operation ⟨e, .verifying statement⟩ duplicate) := by
  unfold PersistentCandidateShuffleReceiver.onVerified
  cases hverified : r.ledger.verified (verifierAnswer verify e) with
  | error error => exact (h.releaseLedger hsession).throws
  | ok _ =>
      have hanswer := (CandidateShuffleLedger.verified_eq_ok.1 hverified).1
      exact h.startReceipt hsession (.inr ⟨statement, rfl, hbegins, hanswer⟩) duplicate

/-- **Every event of a living receiver**: it leaves session and ledger as they agree, ends the life
of the receiver, or adds one shuffle to both. -/
theorem Live.step (h : Live ed hashRosterBody verify options r base L)
    (event : ShuffleReceiverEvent) :
    Leads ed hashRosterBody verify options base L
      (r.step ed hashRosterBody verify event) := by
  have hoperation := h.operation
  unfold PersistentCandidateShuffleReceiver.step
  split
  · rename_i candidate
    cases hop : r.operation with
    | none =>
        rw [hop] at hoperation
        have hrests : Rests ed hashRosterBody verify options r base L := { h with rest := hoperation }
        exact hrests.receive hop candidate
    | some operation => exact h.refuses (by rw [hop]; rfl)
  · rename_i game sender statement proof expected
    cases hop : r.operation with
    | none =>
        rw [hop] at hoperation
        have hrests : Rests ed hashRosterBody verify options r base L := { h with rest := hoperation }
        exact hrests.author hop game sender statement proof expected
    | some operation => exact h.refuses (by rw [hop]; rfl)
  · rename_i hop
    rw [hop] at hoperation
    have hrests : Rests ed hashRosterBody verify options r base L :=
      { h with rest := hoperation.1 }
    exact hrests.onHead (hoperation.2 _ rfl) rfl _
  · rename_i hop
    rw [hop] at hoperation
    have hrests : Rests ed hashRosterBody verify options r base L :=
      { h with rest := hoperation.1 }
    exact hrests.onProved (hoperation.2 _ rfl) rfl
  · rename_i head prepared signing guarded hop
    rw [hop] at hoperation
    unfold onGuarded
    rcases h.toCore.authorGuard prepared (some head) with ⟨passed, hguard⟩ | hguard
    · rw [hguard]
      exact h.toCore.leads_progress hoperation
    · have hstale := h.toCore.stale_fail h.ledger
      rw [hguard]
      exact .inl ⟨by simp, .inl ⟨hstale.ended, hstale.closed, hstale.chain, hstale.snapshot⟩⟩
  · rename_i hop
    rw [hop] at hoperation
    have hrests : Rests ed hashRosterBody verify options r base L :=
      { h with rest := hoperation.1 }
    exact hrests.onAuthored _ _
  · rename_i hop
    rw [hop] at hoperation
    obtain ⟨⟨hsession, hledger⟩, e, statement, rfl, hbegins⟩ := hoperation
    have hwaits : Waits ed hashRosterBody verify options r base L := { h with waits := hledger }
    exact hwaits.onVerified hsession hbegins _
  · rename_i outcome prepared signing pending duplicate before hop
    rw [hop] at hoperation
    obtain ⟨⟨hsession, hledger⟩, hcleared⟩ := hoperation
    unfold onStored
    have hcases : (persistThenIngest ed r.session r.session pending.captured outcome).2 = base ∨
        ∃ head, base.classify pending.captured = .chain (.accepted head) ∧
          (persistThenIngest ed r.session r.session pending.captured outcome).2 =
            (base.ingest pending.captured).2 := by
      rw [hsession]
      rcases persistThenIngest_eq base ed pending.captured outcome with
        ⟨persistence, head, haccepted, hpersist⟩ | ⟨hsame, -⟩
      · exact .inr ⟨head, haccepted, by rw [hpersist]⟩
      · exact .inl hsame
    have hcore : Core ed hashRosterBody verify options { r with
        session := (persistThenIngest ed r.session r.session pending.captured outcome).2 } base L :=
      { h with }
    exact hcore.leads_progress ⟨hledger, hcleared, hcases⟩
  · rename_i hop
    rw [hop] at hoperation
    obtain ⟨hledger, hcleared, hsession⟩ := hoperation
    have hwaits : Waits ed hashRosterBody verify options r base L := { h with waits := hledger }
    exact hwaits.onResume hcleared hsession _ _ _
  · rcases h.toCore.guard with ⟨hguard, -⟩ | hguard
    · rw [hguard]
      exact .inl ⟨by simp, .inr h⟩
    · rw [hguard]
      exact .inl ⟨by simp, .inl (h.toCore.stale_fail h.ledger)⟩
  · have hstale := h.toCore.stale_fail h.ledger
    exact .inl ⟨by simp, .inl ⟨.inr rfl, rfl, hstale.chain, hstale.snapshot⟩⟩
  · exact .inl ⟨by simp, .inr h⟩

/-- The receiver after some events. -/
def run (ed : Ed25519) (hashRosterBody : RosterBody → Hash256) (verify : ShuffleVerifier)
    (r : PersistentCandidateShuffleReceiver P) (events : List ShuffleReceiverEvent) :
    PersistentCandidateShuffleReceiver P :=
  events.foldl (fun r event => (r.step ed hashRosterBody verify event).2) r

theorem Stale.run (h : Stale L r) (events : List ShuffleReceiverEvent) :
    Stale L (r.run ed hashRosterBody verify events) := by
  induction events generalizing r with
  | nil => exact h
  | cons event rest ih => exact ih (h.step event).2

/-- After any events a living receiver lives or has ended, and its ledger has grown, or it is about
the same session and ledger. -/
theorem Live.run (h : Live ed hashRosterBody verify options r base L)
    (events : List ShuffleReceiverEvent) :
    ∃ base' L', (Stale L' (r.run ed hashRosterBody verify events) ∨
        Live ed hashRosterBody verify options (r.run ed hashRosterBody verify events) base' L') ∧
      (L.seat < L'.seat ∨ base' = base ∧ L' = L) := by
  induction events generalizing r base L with
  | nil => exact ⟨base, L, .inr h, .inr ⟨rfl, rfl⟩⟩
  | cons event rest ih =>
      rcases h.step event with ⟨-, hstale | hlive⟩ | ⟨-, base', L', hseat, hlive⟩
      · exact ⟨base, L, .inl (hstale.run rest), .inr ⟨rfl, rfl⟩⟩
      · exact ih hlive
      · obtain ⟨last, M, hlast, hgrown⟩ := ih hlive
        refine ⟨last, M, hlast, .inl ?_⟩
        rcases hgrown with hlt | ⟨-, rfl⟩ <;> omega

theorem run_append (before after : List ShuffleReceiverEvent) :
    r.run ed hashRosterBody verify (before ++ after) =
      (r.run ed hashRosterBody verify before).run ed hashRosterBody verify after :=
  List.foldl_append

/-- A receiver that was opened lives. -/
theorem live_of_open {logs : ℕ → List SignedEnvelope} (hlogs : HoldsLogs base logs)
    (hopen : openReceiver ed hashRosterBody verify options base = .ok r) :
    Live ed hashRosterBody verify options r r.session r.ledger := by
  obtain ⟨hagrees, hcapture, hopened⟩ := openReceiver_agrees hlogs hopen
  have hsession : r.session = base := by rw [hopened]
  rw [hsession, hopened]
  exact ⟨⟨⟨rfl, rfl⟩, rfl, ⟨logs, hagrees⟩, hcapture, rfl⟩, ⟨rfl, rfl⟩⟩

/-! ## A shuffle that is taken in -/

/-- A shuffle that the receiver takes in: it begins on the ledger, the verifier confirms it, and the
session accepts it from a sender with a head and is within the limits afterwards. -/
structure Takes (ed : Ed25519) (hashRosterBody : RosterBody → Hash256) (verify : ShuffleVerifier)
    (r : PersistentCandidateShuffleReceiver P) (e : SignedEnvelope)
    (statement : CandidateShuffleStatement36 G) (history : CapturedSessionHistory P) : Prop where
  captured : captureEnvelope ed e = .ok e
  begins : r.ledger.beginAccept P ed hashRosterBody e
    = .ok (⟨e, .verifying statement⟩, inCall r.ledger)
  confirmed : verifierAnswer verify e = some true
  accepted : ∃ head, r.session.classify e = .chain (.accepted head)
  heads : (r.session.ingest e).2.heads = r.session.heads.map fun h =>
    if h.from_ = e.from_ then ⟨h.from_, e.seq, P.hashEnvelope e⟩ else h
  history : captureSessionHistory ed (r.session.ingest e).2 r.options.historyLimits = .ok history

/-- The verifier of the ledger is at work. -/
def accepting (r : PersistentCandidateShuffleReceiver P) (e : SignedEnvelope)
    (statement : CandidateShuffleStatement36 G) : PersistentCandidateShuffleReceiver P :=
  { r with
    ledger := inCall r.ledger
    operation := some ⟨none, false, .accepting ⟨e, .verifying statement⟩ false⟩ }

/-- The durable receiver is at work. -/
def storing (r : PersistentCandidateShuffleReceiver P) (e : SignedEnvelope)
    (statement : CandidateShuffleStatement36 G) : PersistentCandidateShuffleReceiver P :=
  { r with
    ledger := inCall r.ledger
    operation := some ⟨none, false, .storing ⟨e, .receiving (some statement)⟩ false r.session.heads⟩ }

/-- The durable receiver has stored the shuffle. -/
def holding (r : PersistentCandidateShuffleReceiver P) (e : SignedEnvelope)
    (statement : CandidateShuffleStatement36 G) : PersistentCandidateShuffleReceiver P :=
  { r with
    session := (r.session.ingest e).2
    ledger := inCall r.ledger
    operation := some ⟨none, false, .stored ⟨e, .receiving (some statement)⟩ false r.session.heads
      (.ok (.accepted .stored))⟩ }

/-- The receiver has one more shuffle, in its session and in its ledger. -/
def extended (r : PersistentCandidateShuffleReceiver P) (e : SignedEnvelope)
    (statement : CandidateShuffleStatement36 G) (history : CapturedSessionHistory P) :
    PersistentCandidateShuffleReceiver P :=
  { r with
    session := (r.session.ingest e).2
    ledger := r.ledger.extend e statement
    checkpoint := history
    snapshot := (r.ledger.extend e statement).snapshot }

section

variable {e : SignedEnvelope} {statement : CandidateShuffleStatement36 G}
  {history : CapturedSessionHistory P}

theorem Takes.verifyArtifact_eq (htakes : Takes ed hashRosterBody verify r e statement history) :
    verifyArtifact ed e = .ok e := by
  have hcaptured := htakes.captured
  unfold captureEnvelope at hcaptured
  obtain ⟨-, hverified⟩ := check_bind_eq_ok.1 hcaptured
  exact mapError_eq_ok.1 hverified

omit [DecidableEq G] in
theorem extended_accepted :
    (r.extended e statement history).ledger.accepted = r.ledger.accepted ++ [e] := rfl

omit [DecidableEq G] in
/-- A receipt leaves an idle receiver idle. -/
theorem extended_operation : (r.extended e statement history).operation = r.operation := rfl

omit [DecidableEq G] in
theorem extended_open (h : r.failed = false ∧ r.closed = false) :
    (r.extended e statement history).failed = false ∧
      (r.extended e statement history).closed = false := h

omit [DecidableEq G] in
/-- The answer of a session that accepts an envelope which is stored. -/
theorem persistThenIngest_stored {head : ChainHead} (hartifact : verifyArtifact ed e = .ok e)
    (haccepted : base.classify e = .chain (.accepted head)) :
    persistThenIngest ed base base e (.stored e) = (.ok (.accepted .stored), (base.ingest e).2) := by
  have hrecord : durableRecord ed e (.stored e) = .ok (.inl .stored) := by
    simp only [durableRecord]
    rw [hartifact]
    simp only [Except.mapError, ok_bind]
    rw [throwIf_neg (not_not.2 rfl), ok_bind]
    rfl
  have hingest : base.ingest e = (.chain (.accepted head), (base.ingest e).2) :=
    Prod.ext (HoldsLogs.ingest_fst.trans haccepted) rfl
  unfold persistThenIngest
  rw [haccepted]
  simp only [hrecord]
  rw [hingest]

variable (h : Live ed hashRosterBody verify options r r.session r.ledger)
  (htakes : Takes ed hashRosterBody verify r e statement history)

include h htakes

/-- The session of a receipt looks as it must. -/
theorem Takes.receiptMatches : (r.holding e statement).ReceiptMatches e false r.session.heads := by
  obtain ⟨logs, hagrees⟩ := h.agrees
  obtain ⟨head, haccepted⟩ := htakes.accepted
  obtain ⟨-, seat, hseat, hseq, -⟩ := hagrees.holds.classify_accepted.1 ⟨head, haccepted⟩
  have hnext := hagrees.holds.ingest_of_accepted hseat haccepted
  have hroster := (ingest_scope r.session e).2
  have hsafe := (verifyArtifact_eq_ok.1 htakes.verifyArtifact_eq).2.seq_le
  have hmem : e ∈ Function.update logs seat (logs seat ++ [e]) seat := by
    rw [Function.update_self]
    exact List.mem_append_right _ (List.mem_singleton_self e)
  refine ⟨?_, hnext.isDuplicate hmem, ?_⟩
  · show (r.session.ingest e).2.heads = _
    rw [htakes.heads]
    simp
  · show (r.session.ingest e).2.readRange e.from_ e.seq e.seq = _
    rw [hnext.readRange (by rw [hroster]; exact hseat) le_rfl hsafe, Function.update_self, hseq,
      if_pos (by simp)]
    simp

theorem Takes.step_receive (hnone : r.operation = none) :
    (r.step ed hashRosterBody verify (.receive e)).2 = r.accepting e statement := by
  obtain ⟨logs, hagrees⟩ := h.agrees
  obtain ⟨head, haccepted⟩ := htakes.accepted
  have hguard := guard_of_unchanged h.open_
    (captureSessionHistory_eq_ok hagrees.holds h.checkpoint).2.2
  unfold PersistentCandidateShuffleReceiver.step
  simp only
  unfold PersistentCandidateShuffleReceiver.receive
  rw [hguard]
  simp only [hnone, Option.isSome_none, Bool.false_eq_true, if_false, htakes.captured]
  unfold PersistentCandidateShuffleReceiver.receiveOne
  rw [hguard]
  simp only [haccepted]
  unfold PersistentCandidateShuffleReceiver.receiveOne.enter
  rw [htakes.begins]
  rfl

theorem Takes.step_verified :
    ((r.accepting e statement).step ed hashRosterBody verify .verified).2
      = r.storing e statement := by
  obtain ⟨logs, hagrees⟩ := h.agrees
  have hpassed : (r.accepting e statement).ledger.verified (verifierAnswer verify e) = .ok () :=
    CandidateShuffleLedger.verified_eq_ok.2 ⟨htakes.confirmed, h.toCore.idle.2⟩
  have hguard : (r.accepting e statement).guard = (true, r.accepting e statement) :=
    guard_of_unchanged h.open_ (captureSessionHistory_eq_ok hagrees.holds h.checkpoint).2.2
  show ((r.accepting e statement).onVerified verify _ ⟨e, .verifying statement⟩ false).2 = _
  unfold PersistentCandidateShuffleReceiver.onVerified
  simp only [hpassed]
  unfold PersistentCandidateShuffleReceiver.startReceipt
  rw [hguard]
  rfl

omit h in
theorem Takes.step_stored :
    ((r.storing e statement).step ed hashRosterBody verify (.stored (.stored e))).2
      = r.holding e statement := by
  obtain ⟨head, haccepted⟩ := htakes.accepted
  unfold PersistentCandidateShuffleReceiver.step storing
  simp only
  unfold PersistentCandidateShuffleReceiver.onStored
  simp only [persistThenIngest_stored htakes.verifyArtifact_eq haccepted]
  rfl

theorem Takes.step_resume (hnone : r.operation = none) :
    ((r.holding e statement).step ed hashRosterBody verify .resume).2
      = r.extended e statement history := by
  obtain ⟨logs, hagrees⟩ := h.agrees
  obtain ⟨head, haccepted⟩ := htakes.accepted
  obtain ⟨-, seat, hseat, -⟩ := hagrees.holds.classify_accepted.1 ⟨head, haccepted⟩
  have hunchanged := (captureSessionHistory_eq_ok
    (hagrees.holds.ingest_of_accepted hseat haccepted) htakes.history).2.2
  obtain ⟨hidle, hopen⟩ := h.toCore.idle
  have hguard (ledger : CandidateShuffleLedger G) :
      ({ r.holding e statement with checkpoint := history, ledger := ledger } :
        PersistentCandidateShuffleReceiver P).guard
        = (true, { r.holding e statement with checkpoint := history, ledger := ledger }) :=
    guard_of_unchanged h.open_ hunchanged
  have hreceived : (inCall r.ledger).received e (some statement) true =
      .ok (.accepted, (inCall r.ledger).extend e statement) :=
    CandidateShuffleLedger.received_some (show (inCall r.ledger).closed = false from hopen) _ _
  have hrelease : ((inCall r.ledger).extend e statement).release = r.ledger.extend e statement := by
    unfold inCall CandidateShuffleLedger.release CandidateShuffleLedger.extend
    simp only
    rw [← hidle]
  have hcapture : captureSessionHistory ed (r.holding e statement).session
      (r.holding e statement).options.historyLimits = .ok history := htakes.history
  show ((r.holding e statement).checkReceipt ed _ ⟨e, .receiving (some statement)⟩ false _).2 = _
  unfold PersistentCandidateShuffleReceiver.checkReceipt
  rw [if_neg (not_not.2 (htakes.receiptMatches h)), hcapture]
  simp only
  rw [hguard]
  simp only
  unfold PersistentCandidateShuffleReceiver.acceptReceipt
  simp only
  rw [show (r.holding e statement).ledger = inCall r.ledger from rfl, hreceived]
  simp only [hrelease]
  rw [hguard]
  simp only [finish]
  unfold holding extended
  rw [hnone]

/-- **A living receiver takes in a shuffle** that begins on its ledger: it has the shuffle in its
session and in its ledger after the receipt. -/
theorem Takes.run_receipt (hnone : r.operation = none) :
    r.run ed hashRosterBody verify [.receive e, .verified, .stored (.stored e), .resume]
      = r.extended e statement history := by
  unfold PersistentCandidateShuffleReceiver.run
  simp only [List.foldl_cons, List.foldl_nil]
  rw [htakes.step_receive h hnone, htakes.step_verified h, htakes.step_stored,
    htakes.step_resume h hnone]

end

end

end PersistentCandidateShuffleReceiver

section

variable {q : ℕ} {G : Type} [AddCommGroup G] [Module (ZMod q) G] [DecidableEq G]
  {P : Primitives q G}

open PersistentCandidateShuffleReceiver

/-- The receiver has neither failed nor been closed. -/
def PersistentCandidateShuffleReceiver.Alive (r : PersistentCandidateShuffleReceiver P) : Prop :=
  r.failed = false ∧ r.closed = false

omit [DecidableEq G] in
theorem PersistentCandidateShuffleReceiver.Stale.not_alive {L : CandidateShuffleLedger G}
    {r : PersistentCandidateShuffleReceiver P} (h : Stale L r) : ¬ r.Alive := by
  rintro ⟨hfailed, hclosed⟩
  rcases h.ended with hended | hended
  · rw [hfailed] at hended
    cases hended
  · rw [hclosed] at hended
    cases hended

/-- **The recovery of a shuffle agrees with the live shuffle.**  In every run from an opened
session: while the receiver lives and is idle, the session's shuffles of the round are those of the
ledger, one for each seat in turn, and the session opens again to this ledger.  What does not
advance the ledger of a living receiver leaves the session as it was; a receiver that has ended
never accepts again; and the author is only let go on with a statement that extends the deck and
that the verifier has confirmed. -/
theorem shuffle_recovery_agrees (ed : Ed25519) (hashRosterBody : RosterBody → Hash256)
    (verify : ShuffleVerifier) (options : ShuffleReceiverOptions) (gameId : GameId)
    (roster : Roster P) (offered : List SignedEnvelope)
    (opened : PersistentCandidateShuffleReceiver P)
    (hopen : openReceiver ed hashRosterBody verify options
      ((SessionChainRegistry.start gameId roster).ingestAll offered) = .ok opened)
    (events : List ShuffleReceiverEvent) (r : PersistentCandidateShuffleReceiver P)
    (hrun : opened.run ed hashRosterBody verify events = r) :
    (r.operation = none → r.Alive →
      (∃ logs, HoldsLogs r.session logs ∧
        (held r.session logs).filter (·.isContribution options.round) = r.ledger.accepted) ∧
      r.ledger.accepted.length = r.ledger.seat ∧
      (∀ (seat : ℕ) (e : SignedEnvelope), r.ledger.accepted[seat]? = some e →
        options.roster.seats[seat]? = some e.from_) ∧
      ∃ reopened, openReceiver ed hashRosterBody verify options r.session = .ok reopened ∧
        reopened.ledger = r.ledger ∧ reopened.snapshot = r.snapshot) ∧
    (∀ before after, events = before ++ after →
      let earlier := opened.run ed hashRosterBody verify before
      earlier.operation = none → earlier.Alive → r.operation = none → r.Alive →
      r.ledger.seat = earlier.ledger.seat →
      r.session = earlier.session ∧ r.ledger = earlier.ledger ∧ r.snapshot = earlier.snapshot) ∧
    (∀ before event after, events = before ++ event :: after →
      let earlier := opened.run ed hashRosterBody verify before
      let result := earlier.step ed hashRosterBody verify event
      result.1 ≠ some .accepted →
      (result.2.ledger.deck = earlier.ledger.deck ∧ result.2.ledger.seat = earlier.ledger.seat ∧
        result.2.ledger.accepted = earlier.ledger.accepted) ∧
      result.2.snapshot = earlier.snapshot) ∧
    (∀ before after, events = before ++ after →
      let earlier := opened.run ed hashRosterBody verify before
      ¬ earlier.Alive → ¬ r.Alive ∧
      (r.ledger.deck = earlier.ledger.deck ∧ r.ledger.seat = earlier.ledger.seat ∧
        r.ledger.accepted = earlier.ledger.accepted) ∧ r.snapshot = earlier.snapshot) ∧
    ∀ before head after, events = before ++ .guarded head :: after →
      let earlier := opened.run ed hashRosterBody verify before
      ∀ prepared signing guarded,
        earlier.operation = some ⟨some prepared, signing, .signing guarded⟩ →
        (earlier.authorGuard prepared (some head)).1 = true →
        earlier.Alive ∧ Fits P hashRosterBody earlier.ledger prepared ∧
          verify prepared.statement prepared.proof = some true := by
  obtain ⟨-, -, logs, hlogs, -, -⟩ := (HoldsLogs.start gameId roster).ingestAll offered
  have hstart := live_of_open hlogs hopen
  -- in every run the receiver lives, or its ledger is the last one
  have hreach (before : List ShuffleReceiverEvent) : ∃ base L,
      Stale L (opened.run ed hashRosterBody verify before) ∨
        Live ed hashRosterBody verify options (opened.run ed hashRosterBody verify before) base
          L := by
    obtain ⟨base, L, hreached, -⟩ := hstart.run before
    exact ⟨base, L, hreached⟩
  have hlive (before : List ShuffleReceiverEvent)
      (halive : (opened.run ed hashRosterBody verify before).Alive) : ∃ base L,
      Live ed hashRosterBody verify options (opened.run ed hashRosterBody verify before) base
        L := by
    obtain ⟨base, L, hstale | hreached⟩ := hreach before
    · exact absurd halive hstale.not_alive
    · exact ⟨base, L, hreached⟩
  have hrest {s : PersistentCandidateShuffleReceiver P} {base : SessionChainRegistry P}
      {L : CandidateShuffleLedger G} (h : Live ed hashRosterBody verify options s base L)
      (hnone : s.operation = none) : s.session = base ∧ s.ledger = L := by
    have hoperation := h.operation
    rw [hnone] at hoperation
    exact hoperation
  subst hrun
  refine ⟨fun hnone halive => ?_, ?_, ?_, ?_, ?_⟩
  · obtain ⟨base, L, h⟩ := hlive events halive
    obtain ⟨hsession, hledger⟩ := hrest h hnone
    obtain ⟨logs, hagrees⟩ := h.agrees
    obtain ⟨deck, hchained⟩ := hagrees.chained
    rw [hsession, hledger]
    refine ⟨⟨logs, hagrees.holds, hagrees.contributions⟩, hchained.seat_eq.symm,
      fun seat e he => ?_, _, hagrees.reopen h.checkpoint, rfl, h.snapshot.symm⟩
    rw [← hagrees.scope.1]
    exact (hchained.chain.getElem? he).1
  · rintro before after rfl earlier hnone halive hnone' halive' hseat
    obtain ⟨base, L, h⟩ := hlive before halive
    obtain ⟨hsession, hledger⟩ := hrest h hnone
    have hsplit : opened.run ed hashRosterBody verify (before ++ after) =
        earlier.run ed hashRosterBody verify after := run_append before after
    rw [hsplit] at hnone' halive' hseat ⊢
    obtain ⟨base', L', hstale | hlater, hgrown⟩ := h.run after
    · exact absurd halive' hstale.not_alive
    · obtain ⟨hsession', hledger'⟩ := hrest hlater hnone'
      rcases hgrown with hlt | ⟨rfl, rfl⟩
      · have hL : earlier.ledger.seat = L.seat := congrArg _ hledger
        have hL' : (earlier.run ed hashRosterBody verify after).ledger.seat = L'.seat :=
          congrArg _ hledger'
        omega
      · exact ⟨hsession'.trans hsession.symm, hledger'.trans hledger.symm,
          hlater.snapshot.trans h.snapshot.symm⟩
  · rintro before event after rfl earlier result haccepted
    have hchain {s : PersistentCandidateShuffleReceiver P} {base : SessionChainRegistry P}
        {L : CandidateShuffleLedger G} (h : Live ed hashRosterBody verify options s base L) :
        (s.ledger.deck = L.deck ∧ s.ledger.seat = L.seat ∧ s.ledger.accepted = L.accepted) ∧
          s.snapshot = L.snapshot := by
      refine ⟨?_, h.snapshot⟩
      rcases h.ledger with hledger | hledger <;> simp [hledger, inCall]
    obtain ⟨base, L, hstale | h⟩ := hreach before
    · have hnext : Stale L result.2 := (hstale.step event).2
      have hold := hstale.chain
      have hnew := hnext.chain
      exact ⟨⟨hnew.1.trans hold.1.symm, hnew.2.1.trans hold.2.1.symm,
        hnew.2.2.trans hold.2.2.symm⟩, hnext.snapshot.trans hstale.snapshot.symm⟩
    · obtain ⟨hold, hsnapshot⟩ := hchain h
      rcases h.step event with ⟨-, hstale | hnext⟩ | ⟨hwas, -⟩
      · have hnew := hstale.chain
        exact ⟨⟨hnew.1.trans hold.1.symm, hnew.2.1.trans hold.2.1.symm,
          hnew.2.2.trans hold.2.2.symm⟩, hstale.snapshot.trans hsnapshot.symm⟩
      · obtain ⟨hnew, hsnapshot'⟩ := hchain hnext
        exact ⟨⟨hnew.1.trans hold.1.symm, hnew.2.1.trans hold.2.1.symm,
          hnew.2.2.trans hold.2.2.symm⟩, hsnapshot'.trans hsnapshot.symm⟩
      · exact absurd hwas haccepted
  · rintro before after rfl earlier hended
    obtain ⟨base, L, hstale | h⟩ := hreach before
    · have hlater : Stale L (earlier.run ed hashRosterBody verify after) := hstale.run after
      have hsplit : opened.run ed hashRosterBody verify (before ++ after) =
          earlier.run ed hashRosterBody verify after := run_append before after
      rw [hsplit]
      have hold := hstale.chain
      have hnew := hlater.chain
      exact ⟨hlater.not_alive, ⟨hnew.1.trans hold.1.symm, hnew.2.1.trans hold.2.1.symm,
        hnew.2.2.trans hold.2.2.symm⟩, hlater.snapshot.trans hstale.snapshot.symm⟩
    · exact absurd h.open_ hended
  · rintro before head after rfl earlier prepared signing guarded hoperation hpassed
    obtain ⟨base, L, hstale | h⟩ := hreach before
    · rw [hstale.authorGuard] at hpassed
      cases hpassed
    · have hprogress := h.operation
      rw [hoperation] at hprogress
      obtain ⟨⟨-, hledger⟩, hprepared⟩ := hprogress
      obtain ⟨hfits, hverified⟩ := hprepared prepared rfl
      exact ⟨h.open_, by rw [hledger]; exact hfits, hverified⟩

end

/-! ## A small session -/

namespace SmallGroup

/-- A receiver of the first seat, whose setup needs no beacon. -/
def shuffleReceiverOptions : ShuffleReceiverOptions :=
  ⟨shuffleOptions.roster, padded 32 [1], 1, 1, shuffleOptions.deckSpec, .default, false⟩

/-- The session of the four seats, with their keys. -/
def keySession : SessionChainRegistry (primitives firstCharacter) :=
  (SessionChainRegistry.start game shuffleRoster).ingestAll shuffleKeys

/-- The receiver of this session, whose verifier confirms every proof. -/
def shuffleReceiver : PersistentCandidateShuffleReceiver (primitives firstCharacter) :=
  match openReceiver ed25519 (fun body => body.rulesHash) (fun _ _ => some true)
    shuffleReceiverOptions keySession with
  | .ok opened => opened
  | .error _ => ⟨shuffleReceiverOptions, keySession, shuffleLedger,
      ⟨keySession.gameId, keySession.roster, [], []⟩, shuffleLedger.snapshot, none, false, true⟩

theorem open_shuffleReceiver : openReceiver ed25519 (fun body => body.rulesHash)
    (fun _ _ => some true) shuffleReceiverOptions keySession = .ok shuffleReceiver := by
  have hok : (openReceiver ed25519 (fun body => body.rulesHash) (fun _ _ => some true)
      shuffleReceiverOptions keySession).isOk = true := by decide +kernel
  obtain ⟨opened, hopen⟩ := exists_of_isOk hok
  unfold shuffleReceiver
  rw [hopen]

/-- Nothing has happened to it. -/
theorem shuffleReceiver_fresh : (shuffleReceiver.operation = none ∧ shuffleReceiver.Alive) ∧
    shuffleReceiver.ledger.Idle ∧ shuffleReceiver.ledger.accepted = [] ∧
    shuffleReceiver.ledger.seat = 0 := by
  have hfresh : (shuffleReceiver.operation.isNone = true ∧
      shuffleReceiver.failed = false ∧ shuffleReceiver.closed = false) ∧
      (shuffleReceiver.ledger.busy = false ∧ shuffleReceiver.ledger.closed = false) ∧
      shuffleReceiver.ledger.accepted.length = 0 ∧ shuffleReceiver.ledger.seat = 0 := by
    decide +kernel
  obtain ⟨⟨hoperation, halive⟩, hidle, hempty, hseat⟩ := hfresh
  exact ⟨⟨Option.isNone_iff_eq_none.1 hoperation, halive⟩, hidle, List.length_eq_zero_iff.1 hempty,
    hseat⟩

/-- The shuffle of the first seat. -/
def firstShuffle : SignedEnvelope := nextShuffle shuffleReceiver.ledger

/-- What can be computed of the receipt: the shuffle is well formed, it moves the head of its sender,
and the session is within the limits afterwards. -/
theorem firstShuffle_computed : shuffleFits shuffleReceiver.ledger = true ∧
    (keySession.ingest firstShuffle).2.heads ≠ keySession.heads ∧
    ((keySession.ingest firstShuffle).2.heads = keySession.heads.map fun h =>
      if h.from_ = firstShuffle.from_ then
        ⟨h.from_, firstShuffle.seq, (primitives firstCharacter).hashEnvelope firstShuffle⟩
      else h) ∧
    (captureSessionHistory ed25519 (keySession.ingest firstShuffle).2
      shuffleReceiverOptions.historyLimits).isOk = true := by decide +kernel

theorem firstShuffle_accepted :
    ∃ head, keySession.classify firstShuffle = .chain (.accepted head) := by
  obtain ⟨-, hmoved, -⟩ := firstShuffle_computed
  by_contra hnot
  exact hmoved (by
    rw [HoldsLogs.ingest_of_not_accepted fun head haccepted => hnot ⟨head, haccepted⟩])

open PersistentCandidateShuffleReceiver in
/-- The receiver takes it in. -/
theorem takes_firstShuffle : ∃ history, Takes ed25519 (fun body => body.rulesHash)
    (fun _ _ => some true) shuffleReceiver firstShuffle (nextStatementOf shuffleReceiver.ledger)
    history := by
  obtain ⟨hfits, -, hheads, hhistory⟩ := firstShuffle_computed
  obtain ⟨-, ⟨hbusy, hopen⟩, hnone, hseat⟩ := shuffleReceiver_fresh
  have hbegins := beginAccept_nextShuffle hopen hbusy (by omega) (by simp [hnone]) hfits
  obtain ⟨-, -, logs, hlogs, -, -⟩ := (HoldsLogs.start game shuffleRoster).ingestAll shuffleKeys
  obtain ⟨-, -, hopened⟩ := openReceiver_agrees hlogs open_shuffleReceiver
  have hsession : shuffleReceiver.session = keySession := congrArg (fun r => r.session) hopened
  have hoptions : shuffleReceiver.options = shuffleReceiverOptions :=
    congrArg (fun r => r.options) hopened
  obtain ⟨history, hhistory⟩ := exists_of_isOk hhistory
  have hcaptured : captureEnvelope ed25519 firstShuffle = .ok firstShuffle := by
    unfold shuffleFits at hfits
    simp only [Bool.and_eq_true, decide_eq_true_eq] at hfits
    obtain ⟨⟨⟨⟨hverify, -⟩, hsize⟩, -⟩, -⟩ := hfits
    obtain ⟨artifact, hverify⟩ := exists_of_isOk hverify
    unfold captureEnvelope firstShuffle
    rw [throwIf_neg (not_lt.2 hsize), ok_bind]
    exact mapError_verifyArtifact_eq_ok.2 ⟨rfl, (verifyArtifact_eq_ok.1 hverify).2⟩
  have hconfirmed : verifierAnswer (fun _ _ => some true) firstShuffle = some true := by
    unfold verifierAnswer firstShuffle nextShuffle
    simp only
    rw [shuffleBody_pair]
  exact ⟨history, hcaptured, hbegins, hconfirmed, by rw [hsession]; exact firstShuffle_accepted,
    by rw [hsession]; exact hheads, by rw [hsession, hoptions]; exact hhistory⟩

end SmallGroup

open SmallGroup PersistentCandidateShuffleReceiver in
/-- A shuffle is received, and the session opens again to the ledger that has it. -/
theorem shuffle_recovery_agrees_small : ∃ r reopened,
    openReceiver ed25519 (fun body => body.rulesHash) (fun _ _ => some true) shuffleReceiverOptions
      keySession = .ok shuffleReceiver ∧
    shuffleReceiver.run ed25519 (fun body => body.rulesHash) (fun _ _ => some true)
      [.receive firstShuffle, .verified, .stored (.stored firstShuffle), .resume] = r ∧
    r.ledger.accepted = [firstShuffle] ∧
    openReceiver ed25519 (fun body => body.rulesHash) (fun _ _ => some true) shuffleReceiverOptions
      r.session = .ok reopened ∧
    reopened.ledger = r.ledger := by
  obtain ⟨-, -, logs, hlogs, -, -⟩ := (HoldsLogs.start game shuffleRoster).ingestAll shuffleKeys
  obtain ⟨history, htakes⟩ := takes_firstShuffle
  obtain ⟨⟨hnone, halive⟩, -, hempty, -⟩ := shuffleReceiver_fresh
  have hrun := htakes.run_receipt (live_of_open hlogs open_shuffleReceiver) hnone
  obtain ⟨hidle, -⟩ := shuffle_recovery_agrees ed25519 (fun body => body.rulesHash)
    (fun _ _ => some true) shuffleReceiverOptions game shuffleRoster shuffleKeys shuffleReceiver
    open_shuffleReceiver _ _ hrun
  obtain ⟨-, -, -, reopened, hreopened, hledger, -⟩ := hidle (extended_operation.trans hnone)
    (extended_open halive)
  refine ⟨_, reopened, open_shuffleReceiver, hrun, ?_, hreopened, hledger⟩
  rw [extended_accepted, hempty, List.nil_append]

end Tablefolk
