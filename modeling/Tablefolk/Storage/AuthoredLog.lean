import Tablefolk.Protocol.Codec
import Tablefolk.Session.Chain

/-!
# The authored log

The model of `session/envelope-author.ts`, and of the transcript and head tables of
`storage/indexeddb-envelope-store.ts` and `storage/indexeddb-session-store.ts`.

A transaction is a function on the database: it returns the next database, or throws, and
then it is aborted and the database stays as it was.  What the browser decides, whether a
transaction that asked for nothing wrong commits after all, is an argument.

* `validateNextArtifact_eq_ok`: an append takes exactly what continues the log.
* `PersistentEnvelopeAuthor.authorAndPersist_cases`: a call of `author` either
  throws and leaves the database alone, or appends the envelope it returns.
* `PersistentEnvelopeAuthor.signed_length_le`: however often the store invokes
  it, the callback of a call signs once.
-/

namespace Tablefolk

/-! ## The tables -/

/-- `StoredTranscriptEnvelope`. -/
structure StoredTranscriptEnvelope where
  arrival : ℕ
  game : GameId
  sender : IdentityPublicKey
  seq : ℕ
  bytes : SignedEnvelope
  authored : Bool
  deriving DecidableEq

/-- `StoredAuthoredHead`. -/
structure StoredAuthoredHead where
  game : GameId
  sender : IdentityPublicKey
  bytes : SignedEnvelope
  deriving DecidableEq

/-- The tables `transcripts`, with its key generator, and `authored_heads`. -/
structure Database where
  transcripts : List StoredTranscriptEnvelope
  nextArrival : ℕ
  authoredHeads : GameId × IdentityPublicKey → Option StoredAuthoredHead

/-- What a call of the author or of a store throws. -/
inductive AuthorError where
  | store (message : String)
  | type (message : String)
  | envelope (error : EnvelopeError)
  | guard
  | transaction
  deriving DecidableEq

namespace Database

/-- A new database. -/
def start : Database := ⟨[], 1, fun _ => none⟩

/-- `transcripts.add`, with the unique index by game, sender and sequence number and the key
generator, whose numbers end at 2^53. -/
def add (db : Database) (game : GameId) (sender : IdentityPublicKey) (seq : ℕ)
    (bytes : SignedEnvelope) (authored : Bool) : Except AuthorError Database := do
  throwIf (∃ row ∈ db.transcripts, row.game = game ∧ row.sender = sender ∧ row.seq = seq)
    .transaction
  throwIf (2 ^ 53 < db.nextArrival) .transaction
  return { db with
    transcripts := db.transcripts ++ [⟨db.nextArrival, game, sender, seq, bytes, authored⟩]
    nextArrival := db.nextArrival + 1 }

/-- `authored_heads.put`. -/
def putHead (db : Database) (head : StoredAuthoredHead) : Database :=
  { db with authoredHeads := Function.update db.authoredHeads (head.game, head.sender) (some head) }

/-- The rows with this prefix of the index. -/
def rowsOf (db : Database) (game : GameId) (sender : IdentityPublicKey) :
    List StoredTranscriptEnvelope :=
  db.transcripts.filter fun row => row.game = game ∧ row.sender = sender

end Database

def MAX_AUTHORED_HISTORY_PAGE_BYTES : ℕ := 8 * 1024 * 1024

section

variable {q : ℕ} {G : Type} [AddCommGroup G] [Module (ZMod q) G] (P : Primitives q G)
  (ed : Ed25519)

/-! ## The store of authored envelopes -/

/-- `decodeStoredHead`. -/
def decodeStoredHead (value : Option StoredAuthoredHead) (gameId : GameId)
    (sender : IdentityPublicKey) : Except AuthorError (Option SignedEnvelope) :=
  match value with
  | none => return none
  | some stored => do
      throwIf (MAX_AUTHORED_HISTORY_PAGE_BYTES < stored.bytes.byteLength)
        (.store "IndexedDB authored head exceeds the byte limit")
      let artifact ← (verifyArtifact ed stored.bytes).mapError fun _ =>
        .store "IndexedDB contains an invalid authored head"
      throwIf (artifact.game ≠ gameId) (.store "IndexedDB authored head belongs to another game")
      throwIf (artifact.from_ ≠ sender)
        (.store "IndexedDB authored head belongs to another sender")
      return some artifact

/-- `decodeRecordMetadata`. -/
def decodeRecordMetadata (value : Option StoredTranscriptEnvelope) (game : GameId)
    (sender : IdentityPublicKey) : Except AuthorError StoredTranscriptEnvelope :=
  match value with
  | none => throw (.store "IndexedDB is missing an authored transcript record")
  | some record => do
      throwIf (record.game ≠ game ∨ record.sender ≠ sender ∨ MAX_SAFE_INTEGER < record.seq ∨
          record.authored = false)
        (.store "IndexedDB authored transcript metadata is invalid; recovery is required")
      return record

/-- `validateCheckpoint`. -/
def validateCheckpoint (head : Option SignedEnvelope) (last : Option StoredTranscriptEnvelope)
    (count : ℕ) (game : GameId) (sender : IdentityPublicKey) : Except AuthorError Unit :=
  match head with
  | none =>
      throwIf (last ≠ none ∨ count ≠ 0)
        (.store "Authored checkpoint is missing but history exists; recovery is required")
  | some head => do
      let record ← decodeRecordMetadata last game sender
      throwIf (MAX_SAFE_INTEGER < count ∨ MAX_SAFE_INTEGER ≤ head.seq ∨ count ≠ head.seq + 1 ∨
          record.seq ≠ head.seq ∨ record.bytes ≠ head ∨ (head.seq = 0 ∧ head.prev ≠ ZERO_HASH))
        (.store "Authored checkpoint and transcript disagree; recovery is required")

/-- The reads and the check of `#withCheckpoint`, which is also `readAuthoredHead`. -/
def withCheckpoint (db : Database) (game : GameId) (sender : IdentityPublicKey) :
    Except AuthorError (Option SignedEnvelope) := do
  let rows := db.rowsOf game sender
  let head ← decodeStoredHead ed (db.authoredHeads (game, sender)) game sender
  validateCheckpoint head (rows.argmax StoredTranscriptEnvelope.seq) rows.length game sender
  return head

/-- `validateNextArtifact`. -/
def validateNextArtifact (candidate : SignedEnvelope) (gameId : GameId)
    (sender : IdentityPublicKey) (head : Option SignedEnvelope) :
    Except AuthorError SignedEnvelope := do
  throwIf (MAX_AUTHORED_HISTORY_PAGE_BYTES < candidate.byteLength)
    (.store "Author callback returned an invalid envelope")
  let artifact ← (verifyArtifact ed candidate).mapError fun _ =>
    .store "Author callback returned an invalid envelope"
  throwIf (∃ before, head = some before ∧ MAX_SAFE_INTEGER ≤ before.seq)
    (.store "Authored sequence cannot be advanced safely")
  let expectedSeq := match head with
    | none => 0
    | some before => before.seq + 1
  throwIf (artifact.game ≠ gameId) (.store "Authored envelope has the wrong game")
  throwIf (artifact.from_ ≠ sender) (.store "Authored envelope has the wrong sender")
  throwIf (artifact.seq ≠ expectedSeq) (.store ("Authored envelope sequence must be " ++
    toString expectedSeq ++ "; got " ++ toString artifact.seq))
  throwIf (artifact.prev ≠ (head.map P.hashEnvelope).getD ZERO_HASH)
    (.store "Authored envelope has the wrong predecessor hash")
  return artifact

/-- `appendNext`: the callback, with what it keeps between invocations, is invoked inside the
transaction; `committed` is whether the browser then commits it. -/
def appendNext {σ : Type} (db : Database) (game : GameId) (sender : IdentityPublicKey)
    (create : σ → Option SignedEnvelope → Except AuthorError SignedEnvelope × σ) (locals : σ)
    (committed : Bool) : Except AuthorError Database × σ :=
  match withCheckpoint ed db game sender with
  | .error error => (.error error, locals)
  | .ok head =>
      let (candidate, locals) := create locals head
      let result := do
        let artifact ← validateNextArtifact P ed (← candidate) game sender head
        let db ← db.add game sender artifact.seq artifact true
        throwIf (committed = false) .transaction
        return db.putHead ⟨game, sender, artifact⟩
      (result, locals)

/-! ## The author -/

/-- What a `beforeSign` guard does. -/
inductive GuardOutcome where
  | undefined | value | throws
  deriving DecidableEq, Repr

/-- A `beforeSign` guard. -/
abbrev BeforeSign := Option SignedEnvelope → GuardOutcome

/-- `PersistentEnvelopeAuthor`, apart from its queue. -/
structure PersistentEnvelopeAuthor where
  gameId : GameId
  secretKey : ed.SecretKey

/-- The variables of a call that its callback shares, and the envelopes it has signed. -/
structure AuthorLocals where
  created : Option SignedEnvelope
  creationAttempted : Bool
  creationOpen : Bool
  callbackError : Option AuthorError
  signed : List SignedEnvelope

/-- The variables when a call starts. -/
def AuthorLocals.start : AuthorLocals := ⟨none, false, true, none, []⟩

/-- `nextSequence`. -/
def nextSequence (current : ℕ) : Except AuthorError ℕ := do
  throwIf (MAX_SAFE_INTEGER ≤ current)
    (.store "Stored envelope sequence cannot be advanced safely")
  return current + 1

/-- The sequence number after a head. -/
def sequenceAfter (head : Option SignedEnvelope) : Except AuthorError ℕ :=
  match head with
  | none => .ok 0
  | some before => nextSequence before.seq

/-- The call of the guard, if there is one. -/
def callGuard (beforeSign : Option BeforeSign) (head : Option SignedEnvelope) :
    Except AuthorError Unit :=
  match beforeSign with
  | none => .ok ()
  | some guard =>
      match guard head with
      | .undefined => .ok ()
      | .value =>
          .error (.type "Envelope beforeSign guard must return undefined synchronously")
      | .throws => .error .guard

/-- `snapshotContent`. -/
def snapshotContent (content : EnvelopeContent) : Except AuthorError EnvelopeContent := do
  let bytes ← (encodeEnvelope content.body).mapError .envelope
  let body ← (decodeCanonical bytes).mapError fun error => .envelope (.cbor error)
  return { content with body }

namespace PersistentEnvelopeAuthor

variable {ed} (author : PersistentEnvelopeAuthor ed)

/-- `sender`. -/
def sender : IdentityPublicKey := ed.deriveEd25519PublicKey author.secretKey

/-- `#validateStoredHead`. -/
def validateStoredHead (candidate : Option SignedEnvelope) :
    Except AuthorError (Option SignedEnvelope) :=
  match candidate with
  | none => return none
  | some head => do
      throwIf (head.byteLength < 1 ∨ MAX_AUTHORED_HISTORY_PAGE_BYTES < head.byteLength)
        (.store "Envelope store returned an invalid chain head")
      let verified ← (verifyArtifact ed head).mapError fun _ =>
        .store "Envelope store returned an invalid chain head"
      throwIf (verified.game ≠ author.gameId)
        (.store "Envelope store returned a head for another game")
      throwIf (verified.from_ ≠ author.sender)
        (.store "Envelope store returned a head for another sender")
      return some verified

/-- The callback of `#authorAndPersist` up to the signature: the unsigned envelope. -/
def prepare (content : EnvelopeContent) (beforeSign : Option BeforeSign)
    (storedHead : Option SignedEnvelope) : Except AuthorError UnsignedEnvelope := do
  let head ← author.validateStoredHead storedHead
  let seq ← sequenceAfter head
  callGuard beforeSign head
  return ⟨author.gameId, author.sender, seq, (head.map P.hashEnvelope).getD ZERO_HASH,
    content.round, content.phase, content.type, content.body⟩

/-- The callback of `#authorAndPersist`. -/
def create (content : EnvelopeContent) (beforeSign : Option BeforeSign) (locals : AuthorLocals)
    (storedHead : Option SignedEnvelope) : Except AuthorError SignedEnvelope × AuthorLocals :=
  if locals.creationOpen = false ∨ locals.creationAttempted = true then
    let error := AuthorError.store
      "Envelope author callback is closed or was invoked more than once"
    (.error error, { locals with callbackError := some error })
  else
    match author.prepare P content beforeSign storedHead with
    | .error error => (.error error,
        { locals with creationAttempted := true, callbackError := some error })
    | .ok unsigned =>
        match signEnvelope ed unsigned author.secretKey with
        | .error error => (.error (.envelope error),
            { locals with creationAttempted := true, callbackError := some (.envelope error) })
        | .ok artifact =>
            match verifyArtifact ed artifact with
            | .error error => (.error (.envelope error),
                { locals with
                  creationAttempted := true
                  callbackError := some (.envelope error)
                  signed := locals.signed ++ [artifact] })
            | .ok created => (.ok artifact,
                { locals with
                  creationAttempted := true
                  created := some created
                  signed := locals.signed ++ [artifact] })

/-- `#authorAndPersist` on the store above: what the call returns, the database after it, and
its variables. -/
def authorAndPersist (db : Database) (content : EnvelopeContent) (beforeSign : Option BeforeSign)
    (committed : Bool) : Except AuthorError SignedEnvelope × Database × AuthorLocals :=
  let (outcome, locals) := appendNext P ed db author.gameId author.sender
    (author.create P content beforeSign) .start committed
  let closed := { locals with creationOpen := false }
  match outcome with
  | .error cause => (.error (locals.callbackError.getD cause), db, closed)
  | .ok next =>
      match locals.callbackError, locals.created with
      | some error, _ => (.error error, next, closed)
      | none, none => (.error (.store "Envelope store committed without creating an artifact"),
          next, closed)
      | none, some created => (.ok created, next, closed)

end PersistentEnvelopeAuthor

/-! ## The store of accepted envelopes -/

/-- `AcceptedEnvelopePersistenceResult`. -/
inductive AcceptedPersistence where
  | stored (record : StoredTranscriptEnvelope)
  | duplicate (record : StoredTranscriptEnvelope)
  | conflict (existing : StoredTranscriptEnvelope) (received : SignedEnvelope)
  deriving DecidableEq

/-- `decodeStoredTranscript`. -/
def decodeStoredTranscript (record : StoredTranscriptEnvelope) :
    Except AuthorError StoredTranscriptEnvelope := do
  let artifact ← (verifyArtifact ed record.bytes).mapError fun _ =>
    .store "IndexedDB transcript contains an invalid envelope"
  throwIf (artifact.game ≠ record.game ∨ artifact.from_ ≠ record.sender ∨
      artifact.seq ≠ record.seq)
    (.store "IndexedDB transcript metadata does not match its envelope")
  throwIf (MAX_SAFE_INTEGER < record.arrival ∨ record.arrival < 1)
    (.store "IndexedDB transcript arrival key is malformed")
  return record

/-- `persistAcceptedEnvelope`. -/
def persistAcceptedEnvelope (db : Database) (candidate : SignedEnvelope) (committed : Bool) :
    Except AuthorError (AcceptedPersistence × Database) := do
  let received ← (verifyArtifact ed candidate).mapError fun _ =>
    .store "Accepted envelope is invalid"
  match db.transcripts.find? fun row =>
      row.game = received.game ∧ row.sender = received.from_ ∧ row.seq = received.seq with
  | some row => do
      let existing ← decodeStoredTranscript ed row
      throwIf (committed = false) .transaction
      return (if existing.bytes = received then .duplicate existing
        else .conflict existing received, db)
  | none => do
      let next ← db.add received.game received.from_ received.seq received false
      throwIf (MAX_SAFE_INTEGER < db.nextArrival ∨ db.nextArrival < 1)
        (.store "IndexedDB transcript arrival key is malformed")
      throwIf (committed = false) .transaction
      return (.stored ⟨db.nextArrival, received.game, received.from_, received.seq, received, false⟩,
        next)

/-! ## What a transaction does -/

/-- The envelope continues a log that ends in this head. -/
structure Follows (game : GameId) (sender : IdentityPublicKey) (head : Option SignedEnvelope)
    (e : SignedEnvelope) : Prop where
  artifact : e.Artifact ed
  game : e.game = game
  from_ : e.from_ = sender
  seq : e.seq = match head with
    | none => 0
    | some before => before.seq + 1
  prev : e.prev = (head.map P.hashEnvelope).getD ZERO_HASH
  size : e.byteLength ≤ MAX_AUTHORED_HISTORY_PAGE_BYTES

variable {P ed}

/-- An artifact passes the check of an append exactly when it continues the log. -/
theorem validateNextArtifact_eq_ok {candidate artifact : SignedEnvelope} {game : GameId}
    {sender : IdentityPublicKey} {head : Option SignedEnvelope} (hcandidate : candidate.Artifact ed) :
    validateNextArtifact P ed candidate game sender head = .ok artifact ↔
      artifact = candidate ∧ Follows P ed game sender head candidate ∧
      ∀ before, head = some before → before.seq < MAX_SAFE_INTEGER := by
  unfold validateNextArtifact
  rw [verifyArtifact_of_artifact hcandidate]
  simp only [Except.mapError, ok_bind, check_bind_eq_ok, throwIf_eq_ok, except_pure_eq,
    Except.ok.injEq, not_lt, not_exists, not_and, not_le, not_not]
  constructor
  · rintro ⟨hsize, hsafe, hgame, hfrom, hseq, hprev, rfl⟩
    exact ⟨rfl, ⟨hcandidate, hgame, hfrom, hseq, hprev, hsize⟩, hsafe⟩
  · rintro ⟨rfl, hfollows, hsafe⟩
    exact ⟨hfollows.size, hsafe, hfollows.game, hfollows.from_, hfollows.seq, hfollows.prev, rfl⟩

namespace Database

variable {db next : Database} {game : GameId} {sender : IdentityPublicKey} {seq : ℕ}
  {bytes : SignedEnvelope} {authored : Bool}

theorem add_eq_ok : db.add game sender seq bytes authored = .ok next ↔
    (∀ row ∈ db.transcripts, ¬ (row.game = game ∧ row.sender = sender ∧ row.seq = seq)) ∧
      db.nextArrival ≤ 2 ^ 53 ∧ next = { db with
        transcripts := db.transcripts ++ [⟨db.nextArrival, game, sender, seq, bytes, authored⟩]
        nextArrival := db.nextArrival + 1 } := by
  unfold add
  simp only [check_bind_eq_ok, throwIf_eq_ok, except_pure_eq, Except.ok.injEq, not_lt, not_exists,
    not_and]
  exact and_congr_right fun _ => and_congr_right fun _ => eq_comm

/-- An added row is the last one of its own scope, and the other scopes do not see it. -/
theorem rowsOf_add (h : db.add game sender seq bytes authored = .ok next) (game' : GameId)
    (sender' : IdentityPublicKey) : next.rowsOf game' sender' =
      if game = game' ∧ sender = sender' then
        db.rowsOf game' sender' ++ [⟨db.nextArrival, game, sender, seq, bytes, authored⟩]
      else db.rowsOf game' sender' := by
  obtain ⟨-, -, rfl⟩ := add_eq_ok.1 h
  unfold rowsOf
  by_cases hscope : game = game' ∧ sender = sender'
  · rw [if_pos hscope]
    simp [hscope]
  · rw [if_neg hscope]
    simp [hscope]

theorem authoredHeads_add (h : db.add game sender seq bytes authored = .ok next) :
    next.authoredHeads = db.authoredHeads := by
  obtain ⟨-, -, rfl⟩ := add_eq_ok.1 h
  rfl

@[simp] theorem rowsOf_putHead (head : StoredAuthoredHead) :
    (db.putHead head).rowsOf game sender = db.rowsOf game sender := rfl

end Database

namespace PersistentEnvelopeAuthor

variable {author : PersistentEnvelopeAuthor ed} {content : EnvelopeContent}
  {beforeSign : Option BeforeSign}

/-- The callback has prepared and signed this envelope. -/
def Signs (P : Primitives q G) (author : PersistentEnvelopeAuthor ed) (content : EnvelopeContent)
    (beforeSign : Option BeforeSign) (head : Option SignedEnvelope) (e : SignedEnvelope) : Prop :=
  ∃ unsigned, author.prepare P content beforeSign head = .ok unsigned ∧
    signEnvelope ed unsigned author.secretKey = .ok e

/-- An invocation that is not refused throws, having signed once at most, or returns the envelope
it has signed, read back and kept. -/
theorem create_cases (P : Primitives q G) (author : PersistentEnvelopeAuthor ed)
    (content : EnvelopeContent) (beforeSign : Option BeforeSign) {locals : AuthorLocals}
    (head : Option SignedEnvelope)
    (hopen : ¬ (locals.creationOpen = false ∨ locals.creationAttempted = true)) :
    (∃ error signed, signed.length ≤ 1 ∧ (∀ e ∈ signed, Signs P author content beforeSign head e) ∧
      author.create P content beforeSign locals head = (.error error,
        { locals with
          creationAttempted := true
          callbackError := some error
          signed := locals.signed ++ signed })) ∨
    ∃ artifact, Signs P author content beforeSign head artifact ∧ artifact.Artifact ed ∧
      author.create P content beforeSign locals head = (.ok artifact,
        { locals with
          creationAttempted := true
          created := some artifact
          signed := locals.signed ++ [artifact] }) := by
  unfold create
  rw [if_neg hopen]
  cases hprepare : author.prepare P content beforeSign head with
  | error error => exact .inl ⟨error, [], by simp, by simp, by simp⟩
  | ok unsigned =>
      simp only
      cases hsign : signEnvelope ed unsigned author.secretKey with
      | error error => exact .inl ⟨.envelope error, [], by simp, by simp, by simp⟩
      | ok artifact =>
          simp only
          -- signed, but too deep for the decoder: the callback throws
          cases hverify : verifyArtifact ed artifact with
          | error error =>
              exact .inl ⟨.envelope error, [artifact], by simp,
                List.forall_mem_singleton.2 ⟨unsigned, hprepare, hsign⟩, rfl⟩
          | ok created =>
              obtain ⟨rfl, hartifact⟩ := verifyArtifact_eq_ok.1 hverify
              exact .inr ⟨created, ⟨unsigned, hprepare, hsign⟩, hartifact, rfl⟩

/-- Nothing is signed before the first attempt, and one envelope at most after it. -/
def SignsOnce (locals : AuthorLocals) : Prop :=
  locals.signed.length ≤ if locals.creationAttempted then 1 else 0

theorem create_signsOnce {locals : AuthorLocals} (h : SignsOnce locals)
    (head : Option SignedEnvelope) :
    SignsOnce (author.create P content beforeSign locals head).2 := by
  by_cases hclosed : locals.creationOpen = false ∨ locals.creationAttempted = true
  · unfold create
    rw [if_pos hclosed]
    exact h
  · have hnone : locals.signed.length = 0 := by
      unfold SignsOnce at h
      rw [if_neg fun hattempted => hclosed (.inr hattempted)] at h
      omega
    obtain ⟨error, signed, hsigned, -, heq⟩ | ⟨artifact, -, -, heq⟩ :=
      create_cases P author content beforeSign head hclosed
    · rw [heq]
      simpa [SignsOnce, hnone] using hsigned
    · rw [heq]
      simp [SignsOnce, hnone]

/-- However often a store invokes the callback of a call, it signs one envelope at most. -/
theorem signed_length_le (heads : List (Option SignedEnvelope)) :
    (heads.foldl (fun locals head => (author.create P content beforeSign locals head).2)
      .start).signed.length ≤ 1 := by
  have hall : ∀ locals, SignsOnce locals → SignsOnce (heads.foldl
      (fun locals head => (author.create P content beforeSign locals head).2) locals) := by
    induction heads with
    | nil => exact fun _ h => h
    | cons head rest ih => exact fun locals h => ih _ (create_signsOnce h head)
  have h := hall .start (by simp [SignsOnce, AuthorLocals.start])
  unfold SignsOnce at h
  split_ifs at h <;> omega

/-- What a call that returns has found, and what it has left behind. -/
structure Appends (author : PersistentEnvelopeAuthor ed) (db next : Database)
    (e : SignedEnvelope) (P : Primitives q G) : Prop where
  checked : ∃ head, withCheckpoint ed db author.gameId author.sender = .ok head ∧
    Follows P ed author.gameId author.sender head e
  added : ∃ between, db.add author.gameId author.sender e.seq e true = .ok between ∧
    next = between.putHead ⟨author.gameId, author.sender, e⟩

/-- **A call of `author`** either throws and leaves the database alone, or appends the
envelope it returns; it signs one envelope at most. -/
theorem authorAndPersist_cases (P : Primitives q G) (author : PersistentEnvelopeAuthor ed)
    (db : Database) (content : EnvelopeContent) (beforeSign : Option BeforeSign) (committed : Bool) :
    (∃ error, (author.authorAndPersist P db content beforeSign committed).1 = .error error ∧
      (author.authorAndPersist P db content beforeSign committed).2.1 = db) ∨
    ∃ e, (author.authorAndPersist P db content beforeSign committed).1 = .ok e ∧
      Appends author db (author.authorAndPersist P db content beforeSign committed).2.1 e P := by
  have hopen : ¬ (AuthorLocals.start.creationOpen = false ∨
      AuthorLocals.start.creationAttempted = true) := by simp [AuthorLocals.start]
  unfold authorAndPersist appendNext
  cases hcheck : withCheckpoint ed db author.gameId author.sender with
  | error error => exact .inl ⟨_, rfl, rfl⟩
  | ok head =>
      simp only
      obtain ⟨error, signed, -, -, heq⟩ | ⟨artifact, -, hartifact, heq⟩ :=
        create_cases P author content beforeSign head hopen
      · rw [heq]
        exact .inl ⟨_, rfl, rfl⟩
      · rw [heq]
        simp only [ok_bind]
        cases hnext : (do
          let artifact ← validateNextArtifact P ed artifact author.gameId author.sender head
          let db ← db.add author.gameId author.sender artifact.seq artifact true
          throwIf (committed = false) AuthorError.transaction
          return db.putHead ⟨author.gameId, author.sender, artifact⟩) with
        | error error => exact .inl ⟨_, rfl, rfl⟩
        | ok next =>
            obtain ⟨checked, hchecked, hrest⟩ := bind_eq_ok.1 hnext
            obtain ⟨between, hadd, hrest⟩ := bind_eq_ok.1 hrest
            obtain ⟨-, hput⟩ := check_bind_eq_ok.1 hrest
            obtain ⟨rfl, hfollows, -⟩ :=
              (validateNextArtifact_eq_ok hartifact).1 hchecked
            cases hput
            exact .inr ⟨_, rfl, ⟨head, hcheck, hfollows⟩, between, hadd, rfl⟩

theorem authorAndPersist_signed (P : Primitives q G) (author : PersistentEnvelopeAuthor ed)
    (db : Database) (content : EnvelopeContent) (beforeSign : Option BeforeSign) (committed : Bool) :
    (author.authorAndPersist P db content beforeSign committed).2.2.signed.length ≤ 1 := by
  have hstart : SignsOnce .start := by simp [SignsOnce, AuthorLocals.start]
  have hle : ∀ locals, SignsOnce locals → locals.signed.length ≤ 1 := by
    intro locals h
    unfold SignsOnce at h
    split_ifs at h <;> omega
  unfold authorAndPersist appendNext
  cases withCheckpoint ed db author.gameId author.sender with
  | error error => exact hle _ hstart
  | ok head =>
      have hsigned : SignsOnce (author.create P content beforeSign .start head).2 :=
        create_signsOnce hstart head
      simp only
      split
      · exact hle _ hsigned
      · split <;> exact hle _ hsigned

end PersistentEnvelopeAuthor

/-- Persisting an accepted envelope leaves the database as it was when there is a row in its
place, and adds a row for it otherwise. -/
theorem persistAcceptedEnvelope_cases {db next : Database} {received : SignedEnvelope}
    {committed : Bool} {result : AcceptedPersistence}
    (h : persistAcceptedEnvelope ed db received committed = .ok (result, next)) :
    next = db ∨ (∀ row ∈ db.transcripts, ¬ (row.game = received.game ∧
        row.sender = received.from_ ∧ row.seq = received.seq)) ∧
      db.add received.game received.from_ received.seq received false = .ok next := by
  unfold persistAcceptedEnvelope at h
  obtain ⟨same, hsame, h⟩ := bind_eq_ok.1 h
  have hverified : same = received := by
    cases hverify : verifyArtifact ed received with
    | error error =>
        rw [hverify] at hsame
        cases hsame
    | ok verified =>
        rw [hverify] at hsame
        cases hsame
        exact (verifyArtifact_eq_ok.1 hverify).1
  rw [hverified] at h
  cases hfind : db.transcripts.find? fun row =>
      row.game = received.game ∧ row.sender = received.from_ ∧ row.seq = received.seq with
  | some row =>
      rw [hfind] at h
      obtain ⟨existing, -, h⟩ := bind_eq_ok.1 h
      obtain ⟨-, h⟩ := check_bind_eq_ok.1 h
      cases h
      exact .inl rfl
  | none =>
      rw [hfind] at h
      obtain ⟨added, hadd, h⟩ := bind_eq_ok.1 h
      obtain ⟨-, h⟩ := check_bind_eq_ok.1 h
      obtain ⟨-, h⟩ := check_bind_eq_ok.1 h
      cases h
      exact .inr ⟨fun row hrow => by simpa using List.find?_eq_none.1 hfind row hrow, hadd⟩

end

end Tablefolk
