import Tablefolk.Session.Lobby
import Tablefolk.Storage.AuthorRuns

/-!
# The session store

The model of `persistAcceptedEnvelope` and `persistAcceptedRoster` of
`storage/indexeddb-session-store.ts`: the transcript of the accepted envelopes, and for every
game a snapshot of the roster of its lobby.

* `RosterSnapshot`: what the snapshot of a game is, in terms of the calls that have returned.
* `SessionDatabase.Describes`: what an answer says of the database before and after the call.
* `session_store_append_only`: over any calls, rows are only added, answers describe what was
  written, and the snapshot is the roster with the highest sequence number reported.
-/

namespace Tablefolk

/-! ## The tables -/

/-- `StoredLobbyRoster`. -/
structure StoredLobbyRoster where
  host : IdentityPublicKey
  seq : ℕ
  bytes : SignedEnvelope
  deriving DecidableEq

/-- A record of the table `games`, as far as this store reads it. -/
structure GameRecord where
  game : GameId
  lobbyRoster : Option StoredLobbyRoster
  deriving DecidableEq

/-- The tables of the database, with `games`. -/
structure SessionDatabase extends Database where
  games : GameId → Option GameRecord

/-- `PersistedLobbyRoster`. -/
structure PersistedLobbyRoster where
  artifact : SignedEnvelope
  body : RosterBody
  rosterHash : Hash256
  deriving DecidableEq

/-- The status of a roster snapshot. -/
inductive SnapshotStatus where
  | stored | duplicate | stale
  deriving DecidableEq, Repr

/-- The status of a transcript row. -/
inductive TranscriptStatus where
  | stored | duplicate
  deriving DecidableEq, Repr

/-- `LobbyRosterPersistenceResult`. -/
inductive RosterPersistence where
  | snapshot (status : SnapshotStatus) (transcriptStatus : TranscriptStatus)
      (snapshot : PersistedLobbyRoster)
  | conflict (existing : StoredTranscriptEnvelope) (received : SignedEnvelope)
  deriving DecidableEq

namespace SessionDatabase

/-- `games.put` of a record with its roster replaced. -/
def putRoster (db : SessionDatabase) (record : GameRecord) (game : GameId)
    (roster : StoredLobbyRoster) : SessionDatabase :=
  let next := { record with game := game, lobbyRoster := some roster }
  { db with games := Function.update db.games game (some next) }

/-- The roster that is stored for a game. -/
def rosterOf (db : SessionDatabase) (game : GameId) : Option StoredLobbyRoster :=
  (db.games game).bind GameRecord.lobbyRoster

/-- The row of the index by game, sender and sequence number. -/
def transcriptOf (db : SessionDatabase) (received : SignedEnvelope) :
    Option StoredTranscriptEnvelope :=
  db.transcripts.find? fun row =>
    row.game = received.game ∧ row.sender = received.from_ ∧ row.seq = received.seq

end SessionDatabase

/-- `readGameRecord`. -/
def readGameRecord (value : Option GameRecord) (expectedGame : GameId) :
    Except AuthorError GameRecord :=
  match value with
  | none => return ⟨expectedGame, none⟩
  | some record => do
      throwIf (record.game ≠ expectedGame) (.store "IndexedDB game record has the wrong key")
      return record

section

variable {q : ℕ} {G : Type} [AddCommGroup G] [Module (ZMod q) G] (P : Primitives q G)
  (ed : Ed25519) (hashRosterBody : RosterBody → Hash256)

/-- `importEd25519PublicKey` of the expected host. -/
def requireHost (host : IdentityPublicKey) : Except AuthorError Unit :=
  throwIf (P.importEd25519PublicKey host = false)
    (.type "Ed25519 public key is not a strict, prime-subgroup RFC 8032 point encoding")

/-- `decodeRosterArtifact`. -/
def decodeRosterArtifact (artifact : SignedEnvelope) (expectedHost : IdentityPublicKey) :
    Except AuthorError PersistedLobbyRoster := do
  throwIf (artifact.from_ ≠ expectedHost)
    (.store "Roster envelope was not signed by the expected host")
  throwIf (artifact.type ≠ .ROSTER ∨ artifact.phase ≠ "lobby" ∨ artifact.round ≠ 0)
    (.store "Roster envelope has invalid lobby metadata")
  let body ← (decodeRosterBody artifact.body).mapError fun _ =>
    .store "Roster envelope body is malformed"
  throwIf (body.gameId ≠ artifact.game) (.store "Roster body has the wrong game identifier")
  throwIf (∃ identity ∈ body.seats, P.importEd25519PublicKey identity = false)
    (.store "Roster contains an invalid identity public key")
  throwIf (expectedHost ∉ body.seats) (.store "Roster does not contain the expected host")
  return ⟨artifact, body, hashRosterBody body⟩

/-- `decodeStoredRoster`. -/
def decodeStoredRoster (record : StoredLobbyRoster) (expectedGame : GameId)
    (expectedHost : IdentityPublicKey) : Except AuthorError PersistedLobbyRoster := do
  throwIf (record.host ≠ expectedHost ∨ MAX_SAFE_INTEGER < record.seq)
    (.store "IndexedDB lobby roster snapshot fields are malformed")
  let artifact ← (verifyArtifact ed record.bytes).mapError fun _ =>
    .store "IndexedDB lobby roster snapshot contains an invalid envelope"
  throwIf (artifact.game ≠ expectedGame ∨ artifact.seq ≠ record.seq)
    (.store "IndexedDB lobby roster metadata does not match its envelope")
  decodeRosterArtifact P hashRosterBody artifact expectedHost

/-- The roster of a game record. -/
def existingSnapshot (record : GameRecord) (game : GameId) (host : IdentityPublicKey) :
    Except AuthorError (Option PersistedLobbyRoster) :=
  match record.lobbyRoster with
  | none => return none
  | some roster => do
      return some (← decodeStoredRoster P ed hashRosterBody roster game host)

/-- `loadLobbyRoster`. -/
def loadLobbyRoster (db : SessionDatabase) (game : GameId) (expectedHost : IdentityPublicKey) :
    Except AuthorError (Option PersistedLobbyRoster) := do
  requireHost P expectedHost
  match db.games game with
  | none => return none
  | some value => do
      let record ← readGameRecord (some value) game
      existingSnapshot P ed hashRosterBody record game expectedHost

/-! ## The transactions -/

/-- `persistAcceptedEnvelope`, which does not open the table `games`. -/
def SessionDatabase.persistAcceptedEnvelope (db : SessionDatabase) (candidate : SignedEnvelope)
    (committed : Bool) : Except AuthorError (AcceptedPersistence × SessionDatabase) := do
  let (result, next) ← Tablefolk.persistAcceptedEnvelope ed db.toDatabase candidate committed
  return (result, { db with toDatabase := next })

/-- What the transaction of a roster does with its snapshot. -/
def updateSnapshot (db : SessionDatabase) (received : SignedEnvelope)
    (incoming : PersistedLobbyRoster) (transcriptStatus : TranscriptStatus) :
    Except AuthorError (RosterPersistence × SessionDatabase) := do
  let record ← readGameRecord (db.games received.game) received.game
  let existing ← existingSnapshot P ed hashRosterBody record received.game received.from_
  let stored := (.snapshot .stored transcriptStatus incoming,
    db.putRoster record received.game ⟨received.from_, received.seq, received⟩)
  match existing with
  | none => return stored
  | some existing =>
      if existing.artifact.seq < received.seq then
        return stored
      else if received.seq < existing.artifact.seq then
        return (.snapshot .stale transcriptStatus existing, db)
      else if existing.artifact = received then
        return (.snapshot .duplicate transcriptStatus existing, db)
      else
        throw (.store "Roster snapshot conflicts with its transcript row")

/-- The transaction of `persistAcceptedRoster`. -/
def processRoster (db : SessionDatabase) (received : SignedEnvelope)
    (incoming : PersistedLobbyRoster) :
    Except AuthorError (RosterPersistence × SessionDatabase) :=
  match db.transcriptOf received with
  | none => do
      let next ← db.add received.game received.from_ received.seq received false
      updateSnapshot P ed hashRosterBody { db with toDatabase := next } received incoming .stored
  | some row => do
      let stored ← decodeStoredTranscript ed row
      if stored.bytes = received then
        updateSnapshot P ed hashRosterBody db received incoming .duplicate
      else
        return (.conflict stored received, db)

/-- `persistAcceptedRoster`. -/
def SessionDatabase.persistAcceptedRoster (db : SessionDatabase)
    (expectedHost : IdentityPublicKey) (candidate : SignedEnvelope) (committed : Bool) :
    Except AuthorError (RosterPersistence × SessionDatabase) := do
  requireHost P expectedHost
  let received ← (verifyArtifact ed candidate).mapError fun _ =>
    .store "Accepted roster envelope is invalid"
  let incoming ← decodeRosterArtifact P hashRosterBody received expectedHost
  let result ← processRoster P ed hashRosterBody db received incoming
  throwIf (committed = false) .transaction
  return result

/-! ## What an answer says -/

/-- The row is the one of this envelope in the index by game, sender and sequence number. -/
def StoredTranscriptEnvelope.IsRowOf (row : StoredTranscriptEnvelope) (e : SignedEnvelope) : Prop :=
  row.game = e.game ∧ row.sender = e.from_ ∧ row.seq = e.seq

/-- What a status says of the transcript before and after a call. -/
def SessionDatabase.Wrote (db next : SessionDatabase) (e : SignedEnvelope) :
    TranscriptStatus → Prop
  | .stored => (∀ row ∈ db.transcripts, ¬ row.IsRowOf e) ∧ next.transcripts =
      db.transcripts ++ [⟨db.nextArrival, e.game, e.from_, e.seq, e, false⟩]
  | .duplicate => (∃ row ∈ db.transcripts, row.IsRowOf e ∧ row.bytes = e) ∧
      next.transcripts = db.transcripts

/-- What a conflict says. -/
structure SessionDatabase.Conflicts (db next : SessionDatabase) (e received : SignedEnvelope)
    (existing : StoredTranscriptEnvelope) : Prop where
  received : received = e
  row : existing ∈ db.transcripts ∧ existing.IsRowOf e
  differs : existing.bytes ≠ e
  unchanged : next = db

/-- What a status says of the snapshot before and after a call. -/
def SessionDatabase.WroteSnapshot (db next : SessionDatabase) (e : SignedEnvelope)
    (snapshot : PersistedLobbyRoster) : SnapshotStatus → Prop
  | .stored => decodeRosterArtifact P hashRosterBody e e.from_ = .ok snapshot ∧
      (∀ roster, db.rosterOf e.game = some roster → roster.host = e.from_ ∧ roster.seq < e.seq) ∧
      next.games = Function.update db.games e.game (some ⟨e.game, some ⟨e.from_, e.seq, e⟩⟩)
  | .duplicate => next.games = db.games ∧ snapshot.artifact = e ∧
      ∃ roster, db.rosterOf e.game = some roster ∧ roster.host = e.from_ ∧ roster.seq = e.seq ∧
        roster.bytes = e
  | .stale => next.games = db.games ∧
      ∃ roster, db.rosterOf e.game = some roster ∧ roster.host = e.from_ ∧ e.seq < roster.seq ∧
        roster.bytes = snapshot.artifact

/-! ## Calls and runs -/

/-- A call of the store; `committed` is whether the browser commits its transaction. -/
inductive StoreCall where
  | envelope (candidate : SignedEnvelope) (committed : Bool)
  | roster (expectedHost : IdentityPublicKey) (candidate : SignedEnvelope) (committed : Bool)

/-- What a call answers. -/
inductive StoreAnswer where
  | envelope (result : AcceptedPersistence)
  | roster (result : RosterPersistence)
  | failed (error : AuthorError)
  deriving DecidableEq

namespace SessionDatabase

/-- One call: its answer, and the database after it. -/
def call (db : SessionDatabase) : StoreCall → StoreAnswer × SessionDatabase
  | .envelope candidate committed =>
      match db.persistAcceptedEnvelope ed candidate committed with
      | .ok (result, next) => (.envelope result, next)
      | .error error => (.failed error, db)
  | .roster expectedHost candidate committed =>
      match db.persistAcceptedRoster P ed hashRosterBody expectedHost candidate committed with
      | .ok (result, next) => (.roster result, next)
      | .error error => (.failed error, db)

/-- The database after some calls. -/
def run (db : SessionDatabase) (calls : List StoreCall) : SessionDatabase :=
  calls.foldl (fun db c => (db.call P ed hashRosterBody c).2) db

/-- What an answer says of the database before and after its call. -/
def Describes (db next : SessionDatabase) : StoreCall → StoreAnswer → Prop
  | .envelope e _, .envelope (.stored record) =>
      record = ⟨db.nextArrival, e.game, e.from_, e.seq, e, false⟩ ∧ db.Wrote next e .stored ∧
        next.games = db.games
  | .envelope e _, .envelope (.duplicate record) =>
      (record ∈ db.transcripts ∧ record.IsRowOf e ∧ record.bytes = e) ∧ next = db
  | .envelope e _, .envelope (.conflict existing received) => db.Conflicts next e received existing
  | .roster _ e _, .roster (.conflict existing received) => db.Conflicts next e received existing
  | .roster host e _, .roster (.snapshot status transcriptStatus snapshot) =>
      e.from_ = host ∧ requireHost P host = .ok () ∧ e.Artifact ed ∧
        db.Wrote next e transcriptStatus ∧
        db.WroteSnapshot P hashRosterBody next e snapshot status
  | _, .failed _ => next = db
  | _, _ => False

/-- The rosters of a game that a call has reported as persisted. -/
def reportedBy (db : SessionDatabase) (game : GameId) (c : StoreCall) : List SignedEnvelope :=
  match c, (db.call P ed hashRosterBody c).1 with
  | .roster _ candidate _, .roster (.snapshot _ _ _) =>
      if candidate.game = game then [candidate] else []
  | _, _ => []

/-- The rosters of a game that some calls have reported as persisted. -/
def reported (db : SessionDatabase) (game : GameId) : List StoreCall → List SignedEnvelope
  | [] => []
  | c :: rest => db.reportedBy P ed hashRosterBody game c ++
      (db.call P ed hashRosterBody c).2.reported game rest

end SessionDatabase

/-! ## What a transaction does -/

variable {P ed hashRosterBody}

theorem decodeStoredTranscript_eq_ok {row row' : StoredTranscriptEnvelope} :
    decodeStoredTranscript ed row = .ok row' → row' = row := by
  intro h
  unfold decodeStoredTranscript at h
  obtain ⟨artifact, -, h⟩ := bind_eq_ok.1 h
  obtain ⟨-, h⟩ := check_bind_eq_ok.1 h
  obtain ⟨-, h⟩ := check_bind_eq_ok.1 h
  cases h
  rfl

theorem decodeRosterArtifact_eq_ok {e : SignedEnvelope} {host : IdentityPublicKey}
    {snapshot : PersistedLobbyRoster} :
    decodeRosterArtifact P hashRosterBody e host = .ok snapshot →
      snapshot.artifact = e ∧ e.from_ = host := by
  intro h
  unfold decodeRosterArtifact at h
  obtain ⟨hfrom, h⟩ := check_bind_eq_ok.1 h
  obtain ⟨-, h⟩ := check_bind_eq_ok.1 h
  obtain ⟨body, -, h⟩ := bind_eq_ok.1 h
  obtain ⟨-, h⟩ := check_bind_eq_ok.1 h
  obtain ⟨-, h⟩ := check_bind_eq_ok.1 h
  obtain ⟨-, h⟩ := check_bind_eq_ok.1 h
  cases h
  exact ⟨rfl, not_not.1 (throwIf_eq_ok.1 hfrom)⟩

/-- A stored roster decodes to itself. -/
theorem decodeStoredRoster_eq_ok {roster : StoredLobbyRoster} {game : GameId}
    {host : IdentityPublicKey} {snapshot : PersistedLobbyRoster} :
    decodeStoredRoster P ed hashRosterBody roster game host = .ok snapshot →
      snapshot.artifact = roster.bytes ∧ roster.host = host ∧ roster.seq = roster.bytes.seq := by
  intro h
  unfold decodeStoredRoster at h
  obtain ⟨hfields, h⟩ := check_bind_eq_ok.1 h
  obtain ⟨artifact, hartifact, h⟩ := bind_eq_ok.1 h
  obtain ⟨hsame, -⟩ := mapError_verifyArtifact_eq_ok.1 hartifact
  rw [hsame] at h
  obtain ⟨hplace, h⟩ := check_bind_eq_ok.1 h
  have hseq := throwIf_eq_ok.1 hplace
  have hhost := throwIf_eq_ok.1 hfields
  exact ⟨(decodeRosterArtifact_eq_ok h).1, not_not.1 fun hne => hhost (.inl hne),
    (not_not.1 fun hne => hseq (.inr hne)).symm⟩

/-- The existing snapshot is that of the roster in the record. -/
theorem existingSnapshot_eq_ok {db : SessionDatabase} {record : GameRecord} {game : GameId}
    {host : IdentityPublicKey} {existing : Option PersistedLobbyRoster}
    (hrecord : readGameRecord (db.games game) game = .ok record)
    (h : existingSnapshot P ed hashRosterBody record game host = .ok existing) :
    record.game = game ∧
    match existing with
    | none => db.rosterOf game = none
    | some snapshot => ∃ roster, db.rosterOf game = some roster ∧ roster.host = host ∧
        roster.seq = snapshot.artifact.seq ∧ roster.bytes = snapshot.artifact := by
  have hroster : record.game = game ∧ db.rosterOf game = record.lobbyRoster := by
    unfold SessionDatabase.rosterOf
    cases hgame : db.games game with
    | none =>
        rw [hgame] at hrecord
        cases hrecord
        exact ⟨rfl, rfl⟩
    | some value =>
        rw [hgame] at hrecord
        obtain ⟨hkey, hrecord⟩ := check_bind_eq_ok.1 hrecord
        cases hrecord
        exact ⟨not_not.1 (throwIf_eq_ok.1 hkey), rfl⟩
  refine ⟨hroster.1, ?_⟩
  rw [hroster.2]
  unfold existingSnapshot at h
  cases hstored : record.lobbyRoster with
  | none =>
      rw [hstored] at h
      cases h
      rfl
  | some roster =>
      rw [hstored] at h
      obtain ⟨snapshot, hsnapshot, h⟩ := bind_eq_ok.1 h
      cases h
      obtain ⟨hartifact, hhost, hseq⟩ := decodeStoredRoster_eq_ok hsnapshot
      exact ⟨roster, rfl, hhost, by rw [hseq, hartifact], hartifact.symm⟩

theorem transcriptOf_eq_none {db : SessionDatabase} {e : SignedEnvelope} :
    db.transcriptOf e = none → ∀ row ∈ db.transcripts, ¬ row.IsRowOf e := by
  intro h row hrow hkey
  have hout := List.find?_eq_none.1 h row hrow
  exact hout (decide_eq_true hkey)

theorem transcriptOf_eq_some {db : SessionDatabase} {e : SignedEnvelope}
    {row : StoredTranscriptEnvelope} :
    db.transcriptOf e = some row → row ∈ db.transcripts ∧ row.IsRowOf e := by
  intro h
  have hkey := List.find?_some h
  simp only [decide_eq_true_eq] at hkey
  exact ⟨List.mem_of_find?_eq_some h, hkey⟩

/-- What the update of a snapshot answers describes what it has written. -/
theorem updateSnapshot_eq_ok {db next : SessionDatabase} {e : SignedEnvelope}
    {incoming : PersistedLobbyRoster} {transcriptStatus : TranscriptStatus}
    {result : RosterPersistence}
    (hincoming : decodeRosterArtifact P hashRosterBody e e.from_ = .ok incoming)
    (h : updateSnapshot P ed hashRosterBody db e incoming transcriptStatus = .ok (result, next)) :
    ∃ status snapshot, result = .snapshot status transcriptStatus snapshot ∧
      next.transcripts = db.transcripts ∧
      db.WroteSnapshot P hashRosterBody next e snapshot status := by
  unfold updateSnapshot at h
  obtain ⟨record, hrecord, h⟩ := bind_eq_ok.1 h
  obtain ⟨existing, hexisting, h⟩ := bind_eq_ok.1 h
  obtain ⟨hgame, hroster⟩ := existingSnapshot_eq_ok hrecord hexisting
  cases existing with
  | none =>
      cases h
      refine ⟨.stored, incoming, rfl, rfl, hincoming, fun roster hsome => ?_, rfl⟩
      rw [hroster] at hsome
      cases hsome
  | some snapshot =>
      obtain ⟨roster, hsome, hhost, hseq, hbytes⟩ := hroster
      simp only at h
      by_cases hnewer : snapshot.artifact.seq < e.seq
      · rw [if_pos hnewer] at h
        cases h
        refine ⟨.stored, incoming, rfl, rfl, hincoming, fun roster' hsome' => ?_, rfl⟩
        rw [hsome] at hsome'
        cases hsome'
        exact ⟨hhost, hseq ▸ hnewer⟩
      · rw [if_neg hnewer] at h
        by_cases holder : e.seq < snapshot.artifact.seq
        · rw [if_pos holder] at h
          cases h
          exact ⟨.stale, snapshot, rfl, rfl, rfl, roster, hsome, hhost, hseq ▸ holder, hbytes⟩
        · rw [if_neg holder] at h
          by_cases hsame : snapshot.artifact = e
          · rw [if_pos hsame] at h
            cases h
            exact ⟨.duplicate, snapshot, rfl, rfl, rfl, hsame, roster, hsome, hhost,
              by rw [hseq, hsame], hbytes.trans hsame⟩
          · rw [if_neg hsame] at h
            cases h

theorem add_writes {db : SessionDatabase} {next : Database} {e : SignedEnvelope}
    (hnone : ∀ row ∈ db.transcripts, ¬ row.IsRowOf e)
    (h : db.add e.game e.from_ e.seq e false = .ok next) :
    db.Wrote { db with toDatabase := next } e .stored := by
  obtain ⟨-, -, rfl⟩ := Database.add_eq_ok.1 h
  exact ⟨hnone, rfl⟩

/-- What the transaction of a roster answers describes what it has written. -/
theorem processRoster_eq_ok {db next : SessionDatabase} {e : SignedEnvelope}
    {incoming : PersistedLobbyRoster} {result : RosterPersistence}
    (hincoming : decodeRosterArtifact P hashRosterBody e e.from_ = .ok incoming)
    (h : processRoster P ed hashRosterBody db e incoming = .ok (result, next)) :
    (∃ existing received, result = .conflict existing received ∧
      db.Conflicts next e received existing) ∨
    ∃ status transcriptStatus snapshot, result = .snapshot status transcriptStatus snapshot ∧
      db.Wrote next e transcriptStatus ∧
      db.WroteSnapshot P hashRosterBody next e snapshot status := by
  unfold processRoster at h
  cases hrow : db.transcriptOf e with
  | none =>
      rw [hrow] at h
      obtain ⟨added, hadd, h⟩ := bind_eq_ok.1 h
      obtain ⟨status, snapshot, hresult, htranscripts, hsnapshot⟩ :=
        updateSnapshot_eq_ok hincoming h
      obtain ⟨hnone, hadded⟩ := add_writes (transcriptOf_eq_none hrow) hadd
      exact .inr ⟨status, .stored, snapshot, hresult, ⟨hnone, htranscripts.trans hadded⟩, hsnapshot⟩
  | some row =>
      rw [hrow] at h
      obtain ⟨stored, hstored, htail⟩ := bind_eq_ok.1 h
      rw [decodeStoredTranscript_eq_ok hstored] at htail
      have hfound := transcriptOf_eq_some hrow
      by_cases hsame : row.bytes = e
      · rw [if_pos hsame] at htail
        obtain ⟨status, snapshot, hresult, htranscripts, hsnapshot⟩ :=
          updateSnapshot_eq_ok hincoming htail
        exact .inr ⟨status, .duplicate, snapshot, hresult,
          ⟨⟨row, hfound.1, hfound.2, hsame⟩, htranscripts⟩, hsnapshot⟩
      · rw [if_neg hsame] at htail
        cases htail
        exact .inl ⟨row, e, rfl, rfl, hfound, hsame, rfl⟩

theorem persistAcceptedRoster_describes {db next : SessionDatabase} {host : IdentityPublicKey}
    {e : SignedEnvelope} {committed : Bool} {result : RosterPersistence}
    (h : db.persistAcceptedRoster P ed hashRosterBody host e committed = .ok (result, next)) :
    SessionDatabase.Describes P ed hashRosterBody db next (.roster host e committed) (.roster result) := by
  unfold SessionDatabase.persistAcceptedRoster at h
  obtain ⟨hhost, h⟩ := check_bind_eq_ok.1 h
  obtain ⟨received, hreceived, h⟩ := bind_eq_ok.1 h
  obtain ⟨hsame, hartifact⟩ := mapError_verifyArtifact_eq_ok.1 hreceived
  rw [hsame] at h
  obtain ⟨incoming, hincoming, h⟩ := bind_eq_ok.1 h
  obtain ⟨processed, hprocessed, h⟩ := bind_eq_ok.1 h
  obtain ⟨-, h⟩ := check_bind_eq_ok.1 h
  cases h
  have hfrom := (decodeRosterArtifact_eq_ok hincoming).2
  rw [← hfrom] at hincoming
  obtain ⟨existing, received, rfl, hconflict⟩ | ⟨status, transcriptStatus, snapshot, rfl, hwrote⟩ :=
    processRoster_eq_ok hincoming hprocessed
  · exact hconflict
  · exact ⟨hfrom, hhost, hartifact, hwrote⟩

theorem persistAcceptedEnvelope_describes (P : Primitives q G)
    (hashRosterBody : RosterBody → Hash256) {db next : SessionDatabase} {e : SignedEnvelope}
    {committed : Bool} {result : AcceptedPersistence}
    (h : db.persistAcceptedEnvelope ed e committed = .ok (result, next)) :
    SessionDatabase.Describes P ed hashRosterBody db next (.envelope e committed) (.envelope result) := by
  unfold SessionDatabase.persistAcceptedEnvelope at h
  obtain ⟨⟨result', next'⟩, hpersist, h⟩ := bind_eq_ok.1 h
  cases h
  unfold persistAcceptedEnvelope at hpersist
  obtain ⟨received, hreceived, hpersist⟩ := bind_eq_ok.1 hpersist
  obtain ⟨hsame, -⟩ := mapError_verifyArtifact_eq_ok.1 hreceived
  rw [hsame] at hpersist
  cases hfind : db.transcriptOf e with
  | some row =>
      unfold SessionDatabase.transcriptOf at hfind
      rw [hfind] at hpersist
      obtain ⟨existing, hexisting, hpersist⟩ := bind_eq_ok.1 hpersist
      rw [decodeStoredTranscript_eq_ok hexisting] at hpersist
      obtain ⟨-, hpersist⟩ := check_bind_eq_ok.1 hpersist
      have hfound := transcriptOf_eq_some hfind
      by_cases hbytes : row.bytes = e
      · rw [if_pos hbytes] at hpersist
        cases hpersist
        exact ⟨⟨hfound.1, hfound.2, hbytes⟩, rfl⟩
      · rw [if_neg hbytes] at hpersist
        cases hpersist
        exact ⟨rfl, hfound, hbytes, rfl⟩
  | none =>
      have hnone := transcriptOf_eq_none hfind
      unfold SessionDatabase.transcriptOf at hfind
      rw [hfind] at hpersist
      obtain ⟨added, hadd, hpersist⟩ := bind_eq_ok.1 hpersist
      obtain ⟨-, hpersist⟩ := check_bind_eq_ok.1 hpersist
      obtain ⟨-, hpersist⟩ := check_bind_eq_ok.1 hpersist
      cases hpersist
      exact ⟨rfl, add_writes hnone hadd, rfl⟩

namespace SessionDatabase

/-- The answer of a call describes what the call has done. -/
theorem call_describes (P : Primitives q G) (ed : Ed25519) (hashRosterBody : RosterBody → Hash256)
    (db : SessionDatabase) (c : StoreCall) :
    Describes P ed hashRosterBody db (db.call P ed hashRosterBody c).2 c
      (db.call P ed hashRosterBody c).1 := by
  cases c with
  | envelope e committed =>
      unfold call
      simp only
      cases h : db.persistAcceptedEnvelope ed e committed with
      | error error => rfl
      | ok result => exact persistAcceptedEnvelope_describes P hashRosterBody h
  | roster host e committed =>
      unfold call
      simp only
      cases h : db.persistAcceptedRoster P ed hashRosterBody host e committed with
      | error error => rfl
      | ok result => exact persistAcceptedRoster_describes h

/-! ## Runs -/

/-- The key of a row in the index by game, sender and sequence number. -/
def rowKey (row : StoredTranscriptEnvelope) : GameId × IdentityPublicKey × ℕ :=
  (row.game, row.sender, row.seq)

theorem isRowOf_iff {row : StoredTranscriptEnvelope} {e : SignedEnvelope} :
    row.IsRowOf e ↔ rowKey row = (e.game, e.from_, e.seq) := by
  simp [StoredTranscriptEnvelope.IsRowOf, rowKey]

/-- A call adds one row at most, in a place of its own. -/
theorem call_transcripts (P : Primitives q G) (ed : Ed25519)
    (hashRosterBody : RosterBody → Hash256) (db : SessionDatabase) (c : StoreCall) :
    (db.call P ed hashRosterBody c).2.transcripts = db.transcripts ∨
    ∃ row, (db.call P ed hashRosterBody c).2.transcripts = db.transcripts ++ [row] ∧
      ∀ old ∈ db.transcripts, rowKey old ≠ rowKey row := by
  have hwrote : ∀ next e status, db.Wrote next e status →
      next.transcripts = db.transcripts ∨ ∃ row, next.transcripts = db.transcripts ++ [row] ∧
        ∀ old ∈ db.transcripts, rowKey old ≠ rowKey row := by
    intro next e status h
    cases status with
    | duplicate => exact .inl h.2
    | stored =>
        refine .inr ⟨_, h.2, fun old hold hkey => h.1 old hold ?_⟩
        rw [isRowOf_iff, hkey]
        rfl
  have h := call_describes P ed hashRosterBody db c
  generalize db.call P ed hashRosterBody c = answered at h ⊢
  obtain ⟨answer, next⟩ := answered
  cases c <;> cases answer <;> try exact h.elim
  case envelope.failed => exact .inl (congrArg (fun db => db.transcripts) h)
  case roster.failed => exact .inl (congrArg (fun db => db.transcripts) h)
  case envelope.envelope e committed result =>
    cases result with
    | stored record => exact hwrote _ _ _ h.2.1
    | duplicate record => exact .inl (congrArg (fun db => db.transcripts) h.2)
    | conflict existing received => exact .inl (congrArg (fun db => db.transcripts) h.unchanged)
  case roster.roster host e committed result =>
    cases result with
    | conflict existing received => exact .inl (congrArg (fun db => db.transcripts) h.unchanged)
    | snapshot status transcriptStatus snapshot => exact hwrote _ _ _ h.2.2.2.1

variable (P ed hashRosterBody)

/-- The snapshot of a game, when these rosters have been reported as persisted: it is one of
them, none of them has a higher sequence number, and it is what a reload gives the host. -/
structure Latest (db : SessionDatabase) (game : GameId) (reported : List SignedEnvelope)
    (roster : StoredLobbyRoster) : Prop where
  mem : roster.bytes ∈ reported
  host : roster.host = roster.bytes.from_
  seq : roster.seq = roster.bytes.seq
  highest : ∀ e ∈ reported, e.from_ = roster.host ∧ e.seq ≤ roster.seq
  loaded : ∃ snapshot, decodeRosterArtifact P hashRosterBody roster.bytes roster.host = .ok snapshot ∧
    loadLobbyRoster P ed hashRosterBody db game roster.host = .ok (some snapshot)

/-- There is a snapshot of a game as soon as a roster has been reported as persisted, and then
it is the latest one. -/
def RosterSnapshot (db : SessionDatabase) (game : GameId) (reported : List SignedEnvelope) :
    Prop :=
  match db.rosterOf game with
  | none => reported = []
  | some roster => db.Latest P ed hashRosterBody game reported roster

variable {P ed hashRosterBody}

theorem loadLobbyRoster_put {db : SessionDatabase} {e : SignedEnvelope}
    {snapshot : PersistedLobbyRoster} (hgames : db.games e.game =
      some ⟨e.game, some ⟨e.from_, e.seq, e⟩⟩) (hhost : requireHost P e.from_ = .ok ())
    (hartifact : e.Artifact ed)
    (hdecode : decodeRosterArtifact P hashRosterBody e e.from_ = .ok snapshot) :
    loadLobbyRoster P ed hashRosterBody db e.game e.from_ = .ok (some snapshot) := by
  unfold loadLobbyRoster
  rw [hhost, ok_bind, hgames]
  unfold readGameRecord existingSnapshot decodeStoredRoster
  simp [throwIf_neg, hartifact.seq_le.not_gt, mapError_verifyArtifact_eq_ok.2 ⟨rfl, hartifact⟩,
    hdecode]

theorem RosterSnapshot.of_games {db next : SessionDatabase} {game : GameId}
    {reported : List SignedEnvelope} (h : db.RosterSnapshot P ed hashRosterBody game reported)
    (hgames : next.games game = db.games game) :
    next.RosterSnapshot P ed hashRosterBody game reported := by
  have hroster : next.rosterOf game = db.rosterOf game := by
    unfold rosterOf
    rw [hgames]
  have hload : ∀ host, loadLobbyRoster P ed hashRosterBody next game host =
      loadLobbyRoster P ed hashRosterBody db game host := by
    intro host
    unfold loadLobbyRoster
    rw [hgames]
  unfold RosterSnapshot at h ⊢
  rw [hroster]
  cases hold : db.rosterOf game with
  | none =>
      rw [hold] at h
      exact h
  | some roster =>
      rw [hold] at h
      obtain ⟨snapshot, hdecode, hloaded⟩ := h.loaded
      exact ⟨h.mem, h.host, h.seq, h.highest, snapshot, hdecode, by rw [hload, hloaded]⟩

/-- A roster of the same host that is not newer than the snapshot changes nothing. -/
theorem RosterSnapshot.append {db : SessionDatabase} {e : SignedEnvelope}
    {reported : List SignedEnvelope} {roster : StoredLobbyRoster}
    (h : db.RosterSnapshot P ed hashRosterBody e.game reported)
    (hroster : db.rosterOf e.game = some roster) (hhost : roster.host = e.from_)
    (hseq : e.seq ≤ roster.seq) :
    db.RosterSnapshot P ed hashRosterBody e.game (reported ++ [e]) := by
  unfold RosterSnapshot at h ⊢
  rw [hroster] at h ⊢
  refine ⟨List.mem_append_left _ h.mem, h.host, h.seq, fun e' he' => ?_, h.loaded⟩
  rcases List.mem_append.1 he' with hold | hnew
  · exact h.highest e' hold
  · obtain rfl := List.mem_singleton.1 hnew
    exact ⟨hhost.symm, hseq⟩

/-- A roster that is newer than all that were reported becomes the snapshot. -/
theorem RosterSnapshot.put {db next : SessionDatabase} {e : SignedEnvelope}
    {reported : List SignedEnvelope} {snapshot : PersistedLobbyRoster}
    (h : db.RosterSnapshot P ed hashRosterBody e.game reported)
    (hhost : requireHost P e.from_ = .ok ()) (hartifact : e.Artifact ed)
    (hwrote : db.WroteSnapshot P hashRosterBody next e snapshot .stored) :
    next.RosterSnapshot P ed hashRosterBody e.game (reported ++ [e]) := by
  obtain ⟨hdecode, hnewer, hgames⟩ := hwrote
  have hput : next.games e.game = some ⟨e.game, some ⟨e.from_, e.seq, e⟩⟩ := by
    rw [hgames, Function.update_self]
  have hroster : next.rosterOf e.game = some ⟨e.from_, e.seq, e⟩ := by
    unfold rosterOf
    rw [hput]
    rfl
  have hbelow : ∀ old ∈ reported, old.from_ = e.from_ ∧ old.seq ≤ e.seq := by
    intro old hold
    unfold RosterSnapshot at h
    cases hbefore : db.rosterOf e.game with
    | none =>
        rw [hbefore] at h
        rw [h] at hold
        cases hold
    | some roster =>
        rw [hbefore] at h
        obtain ⟨hsame, hlt⟩ := hnewer roster hbefore
        obtain ⟨hfrom, hle⟩ := h.highest old hold
        exact ⟨hfrom.trans hsame, hle.trans hlt.le⟩
  unfold RosterSnapshot
  rw [hroster]
  refine ⟨by simp, rfl, rfl, fun e' he' => ?_, snapshot, hdecode,
    loadLobbyRoster_put hput hhost hartifact hdecode⟩
  rcases List.mem_append.1 he' with hold | hnew
  · exact hbelow e' hold
  · obtain rfl := List.mem_singleton.1 hnew
    exact ⟨rfl, le_rfl⟩

/-- A call keeps the snapshot the latest of the reported rosters. -/
theorem call_snapshot {db : SessionDatabase} {game : GameId} {reported : List SignedEnvelope}
    (c : StoreCall) (h : db.RosterSnapshot P ed hashRosterBody game reported) :
    (db.call P ed hashRosterBody c).2.RosterSnapshot P ed hashRosterBody game
      (reported ++ db.reportedBy P ed hashRosterBody game c) := by
  have hdescribes := call_describes P ed hashRosterBody db c
  unfold reportedBy
  generalize db.call P ed hashRosterBody c = answered at hdescribes ⊢
  obtain ⟨answer, next⟩ := answered
  have hkeep : next.games = db.games →
      next.RosterSnapshot P ed hashRosterBody game (reported ++ []) := by
    intro hgames
    rw [List.append_nil]
    exact h.of_games (by rw [hgames])
  cases c <;> cases answer <;> try exact hdescribes.elim
  case envelope.failed => exact hkeep (congrArg SessionDatabase.games hdescribes)
  case roster.failed => exact hkeep (congrArg SessionDatabase.games hdescribes)
  case envelope.envelope e committed result =>
    cases result with
    | stored record => exact hkeep hdescribes.2.2
    | duplicate record => exact hkeep (congrArg SessionDatabase.games hdescribes.2)
    | conflict existing received =>
        exact hkeep (congrArg SessionDatabase.games hdescribes.unchanged)
  case roster.roster host e committed result =>
    cases result with
    | conflict existing received =>
        exact hkeep (congrArg SessionDatabase.games hdescribes.unchanged)
    | snapshot status transcriptStatus snapshot =>
        obtain ⟨hfrom, hhost, hartifact, -, hwrote⟩ := hdescribes
        simp only
        by_cases hgame : e.game = game
        · rw [if_pos hgame]
          subst hgame
          cases status with
          | stored => exact h.put (hfrom ▸ hhost) hartifact hwrote
          | duplicate =>
              obtain ⟨hgames, -, roster, hroster, hsame, hseq, -⟩ := hwrote
              exact (h.append hroster hsame hseq.ge).of_games (by rw [hgames])
          | stale =>
              obtain ⟨hgames, roster, hroster, hsame, hseq, -⟩ := hwrote
              exact (h.append hroster hsame hseq.le).of_games (by rw [hgames])
        · rw [if_neg hgame, List.append_nil]
          refine h.of_games ?_
          cases status with
          | stored => rw [hwrote.2.2, Function.update_of_ne (Ne.symm hgame)]
          | duplicate => rw [hwrote.1]
          | stale => rw [hwrote.1]

@[simp] theorem run_append (db : SessionDatabase) (before after : List StoreCall) :
    db.run P ed hashRosterBody (before ++ after) =
      (db.run P ed hashRosterBody before).run P ed hashRosterBody after :=
  List.foldl_append

theorem transcripts_prefix (db : SessionDatabase) (calls : List StoreCall) :
    db.transcripts <+: (db.run P ed hashRosterBody calls).transcripts := by
  induction calls generalizing db with
  | nil => exact List.prefix_refl _
  | cons c rest ih =>
      refine List.IsPrefix.trans ?_ (ih (db.call P ed hashRosterBody c).2)
      obtain hsame | ⟨row, hadded, -⟩ :=
        call_transcripts P ed hashRosterBody db c
      · rw [hsame]
      · rw [hadded]
        exact List.prefix_append _ _

theorem nodup_rowKey {db : SessionDatabase} (h : (db.transcripts.map rowKey).Nodup)
    (calls : List StoreCall) :
    ((db.run P ed hashRosterBody calls).transcripts.map rowKey).Nodup := by
  induction calls generalizing db with
  | nil => exact h
  | cons c rest ih =>
      apply ih
      obtain hsame | ⟨row, hadded, hnew⟩ :=
        call_transcripts P ed hashRosterBody db c
      · rw [hsame]
        exact h
      · rw [hadded, List.map_append, List.map_singleton]
        refine List.nodup_append.2 ⟨h, List.nodup_singleton _, fun key hkey key' hkey' => ?_⟩
        obtain ⟨old, hold, rfl⟩ := List.mem_map.1 hkey
        rw [List.mem_singleton.1 hkey']
        exact hnew old hold

theorem run_snapshot {db : SessionDatabase} {game : GameId} {reported : List SignedEnvelope}
    (h : db.RosterSnapshot P ed hashRosterBody game reported) (calls : List StoreCall) :
    (db.run P ed hashRosterBody calls).RosterSnapshot P ed hashRosterBody game
      (reported ++ db.reported P ed hashRosterBody game calls) := by
  induction calls generalizing db reported with
  | nil =>
      rw [SessionDatabase.reported, List.append_nil]
      exact h
  | cons c rest ih =>
      rw [SessionDatabase.reported, ← List.append_assoc]
      exact ih (call_snapshot c h)

theorem reported_append (db : SessionDatabase) (game : GameId) (before after : List StoreCall) :
    db.reported P ed hashRosterBody game (before ++ after) =
      db.reported P ed hashRosterBody game before ++
        (db.run P ed hashRosterBody before).reported P ed hashRosterBody game after := by
  induction before generalizing db with
  | nil => rfl
  | cons c rest ih =>
      rw [List.cons_append, SessionDatabase.reported, ih, SessionDatabase.reported,
        List.append_assoc]
      rfl

/-- A snapshot never goes back to a lower sequence number, nor to another host. -/
theorem snapshot_monotone {db : SessionDatabase} {game : GameId} {before : List StoreCall}
    (h : db.RosterSnapshot P ed hashRosterBody game []) (after : List StoreCall)
    {roster : StoredLobbyRoster}
    (hroster : (db.run P ed hashRosterBody before).rosterOf game = some roster) :
    ∃ later, (db.run P ed hashRosterBody (before ++ after)).rosterOf game = some later ∧
      later.host = roster.host ∧ roster.seq ≤ later.seq := by
  have hbefore := run_snapshot h before
  have hafter := run_snapshot h (before ++ after)
  unfold RosterSnapshot at hbefore hafter
  rw [hroster] at hbefore
  rw [List.nil_append] at hbefore hafter
  have hmem : roster.bytes ∈ db.reported P ed hashRosterBody game (before ++ after) := by
    rw [reported_append]
    exact List.mem_append_left _ hbefore.mem
  cases hlater : (db.run P ed hashRosterBody (before ++ after)).rosterOf game with
  | none =>
      rw [hlater] at hafter
      rw [hafter] at hmem
      cases hmem
  | some later =>
      rw [hlater] at hafter
      obtain ⟨hfrom, hle⟩ := hafter.highest roster.bytes hmem
      exact ⟨later, rfl, by rw [hbefore.host, hfrom], by rw [hbefore.seq]; exact hle⟩

end SessionDatabase

variable (P ed hashRosterBody)

/-- **The session store is append-only, with a monotone roster snapshot.**  Over any calls on a
database without rosters, whose rows have distinct keys: the transcript before is a prefix of
the transcript after, its rows have distinct keys, and every answer describes what its call has
written.  The snapshot of a game never goes back, and is the roster with the highest sequence
number among those that have been reported as persisted. -/
theorem session_store_append_only (db : SessionDatabase)
    (hkeys : (db.transcripts.map SessionDatabase.rowKey).Nodup)
    (hrosters : ∀ game, db.rosterOf game = none) (calls : List StoreCall) :
    (∀ before after, calls = before ++ after →
      (db.run P ed hashRosterBody before).transcripts <+:
        (db.run P ed hashRosterBody calls).transcripts) ∧
    ((db.run P ed hashRosterBody calls).transcripts.map SessionDatabase.rowKey).Nodup ∧
    (∀ before c after, calls = before ++ c :: after →
      SessionDatabase.Describes P ed hashRosterBody (db.run P ed hashRosterBody before)
        (db.run P ed hashRosterBody (before ++ [c])) c
        ((db.run P ed hashRosterBody before).call P ed hashRosterBody c).1) ∧
    (∀ game before after roster, calls = before ++ after →
      (db.run P ed hashRosterBody before).rosterOf game = some roster →
      ∃ later, (db.run P ed hashRosterBody calls).rosterOf game = some later ∧
        later.host = roster.host ∧ roster.seq ≤ later.seq) ∧
    ∀ game, (db.run P ed hashRosterBody calls).RosterSnapshot P ed hashRosterBody game
      (db.reported P ed hashRosterBody game calls) := by
  have hstart : ∀ game, db.RosterSnapshot P ed hashRosterBody game [] := by
    intro game
    unfold SessionDatabase.RosterSnapshot
    rw [hrosters]
  refine ⟨?_, SessionDatabase.nodup_rowKey hkeys calls, ?_, ?_, fun game => ?_⟩
  · rintro before after rfl
    rw [SessionDatabase.run_append]
    exact SessionDatabase.transcripts_prefix _ after
  · rintro before c after -
    rw [SessionDatabase.run_append]
    exact SessionDatabase.call_describes P ed hashRosterBody _ c
  · rintro game before after roster rfl hroster
    exact SessionDatabase.snapshot_monotone (hstart game) after hroster
  · have hlatest := SessionDatabase.run_snapshot (hstart game) calls
    rwa [List.nil_append] at hlatest

end

/-! ## Two rosters -/

namespace SmallGroup

/-- A roster of the host with this sequence number. -/
def storedRoster (seq : ℕ) : SignedEnvelope where
  game := game
  from_ := padded 32 [1]
  seq := seq
  prev := if seq = 0 then ZERO_HASH else padded 32 [UInt8.ofNat seq]
  round := 0
  phase := "lobby"
  type := .ROSTER
  body := cborMap [("game_id", .bytes game.val), ("rules_hash", .bytes ZERO_HASH.val),
    ("ice_config_hash", .bytes ZERO_HASH.val),
    ("seats", .array ((List.range (seq + 2)).map fun seat =>
      .bytes (padded 32 [UInt8.ofNat (seat + 1)]).val))]
  sig := zeroBytes 64

/-- A roster is stored, and another one after it; then the first comes again, and the second as an
envelope. -/
def rosterCalls : List StoreCall :=
  [.roster (padded 32 [1]) (storedRoster 0) true, .roster (padded 32 [1]) (storedRoster 1) true,
    .roster (padded 32 [1]) (storedRoster 0) true, .envelope (storedRoster 1) true]

end SmallGroup

open SmallGroup in
theorem session_store_append_only_small :
    let db := (⟨.start, fun _ => none⟩ : SessionDatabase).run (primitives fun _ => 1) ed25519
      (fun body => body.rulesHash) rosterCalls
    db.transcripts.map StoredTranscriptEnvelope.bytes = [storedRoster 0, storedRoster 1] ∧
    db.rosterOf game = some ⟨padded 32 [1], 1, storedRoster 1⟩ ∧
    (db.transcripts.map SessionDatabase.rowKey).Nodup ∧
    db.RosterSnapshot (primitives fun _ => 1) ed25519 (fun body => body.rulesHash) game
      [storedRoster 0, storedRoster 1, storedRoster 0] := by
  obtain ⟨-, hkeys, -, -, hsnapshot⟩ := session_store_append_only (primitives fun _ => 1) ed25519
    (fun body => body.rulesHash) ⟨.start, fun _ => none⟩ List.nodup_nil (fun _ => rfl) rosterCalls
  have hreported : (⟨.start, fun _ => none⟩ : SessionDatabase).reported (primitives fun _ => 1)
      ed25519 (fun body => body.rulesHash) game rosterCalls
      = [storedRoster 0, storedRoster 1, storedRoster 0] := by decide +kernel
  exact ⟨by decide +kernel, by decide +kernel, hkeys, hreported ▸ hsnapshot game⟩

end Tablefolk
