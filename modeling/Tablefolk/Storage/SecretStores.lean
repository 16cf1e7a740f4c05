import Tablefolk.Storage.SessionStore

/-!
# The stores of the setup secrets

The model of `storage/indexeddb-game-secret-store.ts` and
`storage/indexeddb-setup-beacon-secret-store.ts`, which share the records of the table `games` with
`persistAcceptedRoster`.  Nothing is deleted.

A secret is durable when the store loads it.

* `SharedDatabase.Kept`: the secrets that are there stay.
* `getOrCreateGameSecret_spec`, `getOrCreateSetupBeaconSecret_spec`: the secret that is selected is
  durable once the transaction has committed.
* `persistAcceptedRoster_kept`: the store of the rosters leaves the secrets alone.
-/

namespace Tablefolk

/-! ## The records -/

/-- The field `setupBeaconSecret`. -/
structure StoredSetupBeaconSecret where
  version : ℕ
  round : ℕ
  sender : List UInt8
  roster : List (List UInt8)
  secret : List UInt8
  deriving DecidableEq

/-- A record of the table `games`, with the fields of all stores. -/
structure SharedGameRecord extends GameRecord where
  gameSecret : Option (List UInt8)
  setupBeaconSecret : Option StoredSetupBeaconSecret

/-- The tables of the database, with the whole records of `games`. -/
structure SharedDatabase extends Database where
  games : GameId → Option SharedGameRecord

/-- `SetupBeaconScope`. -/
structure SetupBeaconScope where
  gameId : GameId
  round : ℕ
  roster : List IdentityPublicKey
  sender : IdentityPublicKey
  deriving DecidableEq

/-- What the stores and the preparation of a setup message throw. -/
inductive SetupSecretError where
  | message (text : String)
  | receiver (code : String)
  | beacon (code : String)
  | transaction
  deriving DecidableEq, Repr

/-- `readGameRecord` of both stores. -/
def readSharedRecord (value : Option SharedGameRecord) (expectedGame : GameId) :
    Except SetupSecretError SharedGameRecord :=
  match value with
  | none => return ⟨⟨expectedGame, none⟩, none, none⟩
  | some record => do
      throwIf (record.game ≠ expectedGame) (.message "IndexedDB game record has the wrong key")
      return record

/-- `games.put` of a record with this key. -/
def SharedDatabase.put (db : SharedDatabase) (record : SharedGameRecord) : SharedDatabase :=
  { db with games := Function.update db.games record.game (some record) }

section

variable {q : ℕ} {G : Type} [AddCommGroup G] [Module (ZMod q) G] (P : Primitives q G)

/-! ## The game secret -/

/-- `decodeStoredSecret` of the game secret. -/
def decodeStoredGameSecret (value : List UInt8) : Except SetupSecretError (ZMod q) :=
  match (parseFixedBytes 32 value).bind P.scalarOfBytes with
  | none => throw (.message "IndexedDB game secret is not canonical")
  | some secret => do
      throwIf (secret = 0) (.message "IndexedDB game secret must be non-zero")
      return secret

/-- `getOrCreateGameSecret`: the callback, with what it keeps, is invoked inside the transaction;
`committed` is whether the browser then commits it. -/
def getOrCreateGameSecret {σ : Type} (db : SharedDatabase) (game : GameId)
    (create : σ → Except SetupSecretError (ZMod q) × σ) (locals : σ) (committed : Bool) :
    Except SetupSecretError (ZMod q × SharedDatabase) × σ :=
  match readSharedRecord (db.games game) game with
  | .error error => (.error error, locals)
  | .ok record =>
      match record.gameSecret with
      | some stored =>
          (do
            let secret ← decodeStoredGameSecret P stored
            throwIf (committed = false) .transaction
            return (secret, db), locals)
      | none =>
          let (candidate, locals) := create locals
          (do
            let secret ← candidate
            throwIf (secret = 0) (.message "Game secret must be non-zero")
            throwIf (committed = false) .transaction
            let stored := (P.scalarBytes secret).val
            return (secret, db.put { record with game := game, gameSecret := some stored }), locals)

/-- `loadGameSecret`. -/
def loadGameSecret (db : SharedDatabase) (game : GameId) :
    Except SetupSecretError (Option (ZMod q)) :=
  match db.games game with
  | none => return none
  | some value => do
      let record ← readSharedRecord (some value) game
      match record.gameSecret with
      | none => return none
      | some stored => do
          return some (← decodeStoredGameSecret P stored)

/-! ## The beacon secret -/

/-- `snapshotSetupBeaconScope`. -/
def snapshotSetupBeaconScope (scope : SetupBeaconScope) :
    Except SetupSecretError SetupBeaconScope := do
  throwIf (MAX_SAFE_INTEGER < scope.round)
    (.message "Setup beacon round must be a non-negative safe integer")
  let _ ← (Roster.parse P scope.roster).mapError fun _ =>
    SetupSecretError.message "Setup beacon roster is invalid"
  throwIf (scope.sender ∉ scope.roster)
    (.message "Setup beacon sender must belong to the roster")
  return scope

/-- The fields of a stored beacon secret, of whatever scope. -/
def decodeStoredScope (value : StoredSetupBeaconSecret) (requested : SetupBeaconScope) :
    Option (SetupBeaconScope × RandomSecret) := do
  guard (value.version = 1)
  let sender ← parseFixedBytes 32 value.sender
  let roster ← value.roster.mapM (parseFixedBytes 32)
  let scope ← (snapshotSetupBeaconScope P ⟨requested.gameId, value.round, roster, sender⟩).toOption
  let secret ← parseFixedBytes 32 value.secret
  return (scope, secret)

/-- `decodeStoredSecret` of the beacon secret. -/
def decodeStoredBeaconSecret (value : StoredSetupBeaconSecret) (requested : SetupBeaconScope) :
    Except SetupSecretError RandomSecret :=
  match decodeStoredScope P value requested with
  | none => throw (.message "IndexedDB contains a malformed setup beacon secret")
  | some (stored, secret) => do
      throwIf (stored.round ≠ requested.round ∨ stored.sender ≠ requested.sender ∨
          stored.roster ≠ requested.roster)
        (.message "Stored setup beacon secret has a different scope")
      return secret

/-- The field that is written for a secret. -/
def storedBeaconSecret (scope : SetupBeaconScope) (secret : RandomSecret) :
    StoredSetupBeaconSecret where
  version := 1
  round := scope.round
  sender := scope.sender.val
  roster := scope.roster.map Subtype.val
  secret := secret.val

/-- `getOrCreateSetupBeaconSecret`. -/
def getOrCreateSetupBeaconSecret {σ : Type} (db : SharedDatabase) (scope : SetupBeaconScope)
    (create : σ → Except SetupSecretError RandomSecret × σ) (locals : σ) (committed : Bool) :
    Except SetupSecretError (RandomSecret × SharedDatabase) × σ :=
  match snapshotSetupBeaconScope P scope with
  | .error error => (.error error, locals)
  | .ok requested =>
      match readSharedRecord (db.games requested.gameId) requested.gameId with
      | .error error => (.error error, locals)
      | .ok record =>
          match record.setupBeaconSecret with
          | some stored =>
              (do
                let secret ← decodeStoredBeaconSecret P stored requested
                throwIf (committed = false) .transaction
                return (secret, db), locals)
          | none =>
              let (candidate, locals) := create locals
              (do
                let secret ← candidate
                throwIf (committed = false) .transaction
                let stored := storedBeaconSecret requested secret
                return (secret, db.put { record with setupBeaconSecret := some stored }), locals)

/-- `loadSetupBeaconSecret`. -/
def loadSetupBeaconSecret (db : SharedDatabase) (scope : SetupBeaconScope) :
    Except SetupSecretError (Option RandomSecret) := do
  let requested ← snapshotSetupBeaconScope P scope
  let record ← readSharedRecord (db.games requested.gameId) requested.gameId
  match record.setupBeaconSecret with
  | none => return none
  | some stored => do
      return some (← decodeStoredBeaconSecret P stored requested)

/-! ## The rosters -/

/-- What the store of the rosters reads of the records. -/
def SharedDatabase.session (db : SharedDatabase) : SessionDatabase :=
  { db with games := fun game => (db.games game).map SharedGameRecord.toGameRecord }

/-- What it leaves: a record it puts is a copy of the one it has read, with the fields it does not
know. -/
def SharedDatabase.withSession (db : SharedDatabase) (next : SessionDatabase) : SharedDatabase where
  toDatabase := next.toDatabase
  games := fun game =>
    match next.games game, db.games game with
    | none, _ => none
    | some record, none => some ⟨record, none, none⟩
    | some record, some shared => some { shared with toGameRecord := record }

variable (ed : Ed25519) (hashRosterBody : RosterBody → Hash256)

/-- `persistAcceptedRoster` on whole records. -/
def SharedDatabase.persistAcceptedRoster (db : SharedDatabase) (expectedHost : IdentityPublicKey)
    (candidate : SignedEnvelope) (committed : Bool) :
    Except AuthorError (RosterPersistence × SharedDatabase) := do
  let (result, next) ← db.session.persistAcceptedRoster P ed hashRosterBody expectedHost candidate
    committed
  return (result, db.withSession next)

/-! ## What is kept -/

namespace SharedDatabase

variable {db db' next : SharedDatabase}

def rosterField (db : SharedDatabase) (game : GameId) : Option StoredLobbyRoster :=
  (db.games game).bind fun record => record.lobbyRoster

def gameSecretField (db : SharedDatabase) (game : GameId) : Option (List UInt8) :=
  (db.games game).bind fun record => record.gameSecret

def beaconSecretField (db : SharedDatabase) (game : GameId) : Option StoredSetupBeaconSecret :=
  (db.games game).bind fun record => record.setupBeaconSecret

/-- Records stay under their key, and the secrets that are there stay as they are. -/
structure Kept (db db' : SharedDatabase) : Prop where
  key : ∀ game record, db.games game = some record → record.game = game →
    ∃ record', db'.games game = some record' ∧ record'.game = game
  gameSecret : ∀ game stored, db.gameSecretField game = some stored →
    db'.gameSecretField game = some stored
  beaconSecret : ∀ game stored, db.beaconSecretField game = some stored →
    db'.beaconSecretField game = some stored

/-- A write changes one field at most. -/
def OneField (db db' : SharedDatabase) : Prop :=
  (db'.gameSecretField = db.gameSecretField ∧ db'.beaconSecretField = db.beaconSecretField) ∨
  (db'.rosterField = db.rosterField ∧ db'.beaconSecretField = db.beaconSecretField) ∨
  (db'.rosterField = db.rosterField ∧ db'.gameSecretField = db.gameSecretField)

theorem Kept.of_games (h : db'.games = db.games) : Kept db db' where
  key game record hrecord hkey := ⟨record, by rw [h, hrecord], hkey⟩
  gameSecret game stored hstored := by rwa [gameSecretField, h]
  beaconSecret game stored hstored := by rwa [beaconSecretField, h]

theorem OneField.of_games (h : db'.games = db.games) : OneField db db' := by
  refine .inl ⟨?_, ?_⟩
  · funext game
    rw [gameSecretField, gameSecretField, h]
  · funext game
    rw [beaconSecretField, beaconSecretField, h]

theorem Kept.trans (h : Kept db next) (h' : Kept next db') : Kept db db' where
  key game record hrecord hkey := by
    obtain ⟨between, hbetween, hkey⟩ := h.key game record hrecord hkey
    exact h'.key game between hbetween hkey
  gameSecret game stored hstored := h'.gameSecret game stored (h.gameSecret game stored hstored)
  beaconSecret game stored hstored :=
    h'.beaconSecret game stored (h.beaconSecret game stored hstored)

end SharedDatabase

open SharedDatabase

variable {db db' next : SharedDatabase} {game : GameId} {record : SharedGameRecord}

theorem readSharedRecord_eq_ok {value : Option SharedGameRecord}
    (h : readSharedRecord value game = .ok record) : record.game = game ∧
      (value = some record ∨ value = none ∧ record = ⟨⟨game, none⟩, none, none⟩) := by
  unfold readSharedRecord at h
  cases value with
  | none =>
      cases h
      exact ⟨rfl, .inr ⟨rfl, rfl⟩⟩
  | some stored =>
      obtain ⟨hkey, h⟩ := check_bind_eq_ok.1 h
      cases h
      exact ⟨not_not.1 (throwIf_eq_ok.1 hkey), .inl rfl⟩

/-- The fields of the record that is read. -/
theorem readSharedRecord_fields (h : readSharedRecord (db.games game) game = .ok record) :
    db.rosterField game = record.lobbyRoster ∧ db.gameSecretField game = record.gameSecret ∧
      db.beaconSecretField game = record.setupBeaconSecret := by
  unfold rosterField gameSecretField beaconSecretField
  obtain ⟨-, hsome | ⟨hnone, rfl⟩⟩ := readSharedRecord_eq_ok h
  · rw [hsome]
    exact ⟨rfl, rfl, rfl⟩
  · rw [hnone]
    exact ⟨rfl, rfl, rfl⟩

theorem readSharedRecord_self (hsome : db.games game = some record) (hkey : record.game = game) :
    readSharedRecord (db.games game) game = .ok record := by
  rw [hsome, readSharedRecord, throwIf_neg (not_not.2 hkey)]
  rfl

/-- A record that was read is put back with other fields. -/
theorem put_fields (db : SharedDatabase) {written : SharedGameRecord} (hkey : written.game = game) (other : GameId) :
    (db.put written).rosterField other =
        (if other = game then written.lobbyRoster else db.rosterField other) ∧
      (db.put written).gameSecretField other =
        (if other = game then written.gameSecret else db.gameSecretField other) ∧
      (db.put written).beaconSecretField other =
        if other = game then written.setupBeaconSecret else db.beaconSecretField other := by
  unfold rosterField gameSecretField beaconSecretField put
  rw [hkey]
  by_cases hother : other = game
  · subst hother
    simp
  · simp [Function.update_of_ne hother, hother]

theorem put_key {written : SharedGameRecord} (hkey : written.game = game) (other : GameId)
    (before : SharedGameRecord) (hbefore : db.games other = some before)
    (hother : before.game = other) :
    ∃ after, (db.put written).games other = some after ∧ after.game = other := by
  unfold put
  rw [hkey]
  by_cases hsame : other = game
  · subst hsame
    exact ⟨written, Function.update_self .., hkey⟩
  · exact ⟨before, (Function.update_of_ne hsame _ _).trans hbefore, hother⟩

/-! ## The game secret -/

theorem decodeStoredGameSecret_scalarBytes {secret : ZMod q} (h : secret ≠ 0) :
    decodeStoredGameSecret P (P.scalarBytes secret).val = .ok secret := by
  unfold decodeStoredGameSecret
  rw [parseFixedBytes_val, Option.bind_some, (P.scalarOfBytes_eq _ _).2 rfl]
  simp only
  rw [throwIf_neg h]
  rfl

theorem loadGameSecret_eq {secret : ZMod q} : loadGameSecret P db game = .ok (some secret) ↔
    ∃ record stored, readSharedRecord (db.games game) game = .ok record ∧
      record.gameSecret = some stored ∧ db.games game = some record ∧
      decodeStoredGameSecret P stored = .ok secret := by
  unfold loadGameSecret
  constructor
  · intro h
    cases hgame : db.games game with
    | none =>
        rw [hgame] at h
        cases h
    | some value =>
        rw [hgame] at h
        obtain ⟨record, hrecord, h⟩ := bind_eq_ok.1 h
        have hsome : some value = some record := by
          obtain ⟨-, hsome | ⟨hnone, -⟩⟩ := readSharedRecord_eq_ok hrecord
          · exact hsome
          · cases hnone
        cases hstored : record.gameSecret with
        | none =>
            rw [hstored] at h
            cases h
        | some stored =>
            rw [hstored] at h
            obtain ⟨decoded, hdecoded, h⟩ := bind_eq_ok.1 h
            cases h
            exact ⟨record, stored, hrecord, hstored, hsome, hdecoded⟩
  · rintro ⟨record, stored, hrecord, hstored, hsome, hdecoded⟩
    rw [hsome] at hrecord ⊢
    simp only [hrecord, ok_bind, hstored, hdecoded]
    rfl

/-- A durable secret stays durable. -/
theorem SharedDatabase.Kept.loadGameSecret (h : Kept db db') {secret : ZMod q}
    (hload : loadGameSecret P db game = .ok (some secret)) :
    loadGameSecret P db' game = .ok (some secret) := by
  obtain ⟨record, stored, hread, hstored, hsome, hdecoded⟩ := (loadGameSecret_eq P).1 hload
  have hfield : db.gameSecretField game = some stored := by
    rw [gameSecretField, hsome, Option.bind_some, hstored]
  obtain ⟨record', hsome', hkey⟩ := h.key game record hsome (readSharedRecord_eq_ok hread).1
  have hfield' := h.gameSecret game stored hfield
  rw [gameSecretField, hsome', Option.bind_some] at hfield'
  have hread' := readSharedRecord_self hsome' hkey
  exact (loadGameSecret_eq P).2 ⟨record', stored, hread', hfield', hsome', hdecoded⟩

/-- Putting a game secret where there is none. -/
theorem kept_put_gameSecret (hread : readSharedRecord (db.games game) game = .ok record)
    (hnone : record.gameSecret = none) (stored : List UInt8) :
    Kept db (db.put { record with game := game, gameSecret := some stored }) ∧
      OneField db (db.put { record with game := game, gameSecret := some stored }) := by
  obtain ⟨hroster, hsecret, hbeacon⟩ := readSharedRecord_fields hread
  have hwritten : ({ record with game := game, gameSecret := some stored } :
      SharedGameRecord).game = game := rfl
  have hfields := put_fields db hwritten
  refine ⟨⟨put_key rfl, ?_, ?_⟩, .inr (.inl ⟨?_, ?_⟩)⟩
  · intro other value hvalue
    rw [(hfields other).2.1]
    split_ifs with hother
    · rw [hother, hsecret, hnone] at hvalue
      cases hvalue
    · exact hvalue
  · intro other value hvalue
    rw [(hfields other).2.2]
    split_ifs with hother
    · rw [← hbeacon, ← hother, hvalue]
    · exact hvalue
  · funext other
    rw [(hfields other).1]
    split_ifs with hother
    · rw [hother, hroster]
    · rfl
  · funext other
    rw [(hfields other).2.2]
    split_ifs with hother
    · rw [hother, hbeacon]
    · rfl

/-- **The game secret that is selected is durable**: it was stored, or it is the one the callback
has made. -/
theorem getOrCreateGameSecret_spec {σ : Type}
    {create : σ → Except SetupSecretError (ZMod q) × σ} {locals after : σ} {committed : Bool}
    {secret : ZMod q}
    (h : getOrCreateGameSecret P db game create locals committed = (.ok (secret, next), after)) :
    loadGameSecret P next game = .ok (some secret) ∧ Kept db next ∧ OneField db next ∧
      next.toDatabase = db.toDatabase ∧ secret ≠ 0 ∧
      (loadGameSecret P db game = .ok (some secret) ∧ after = locals ∨
        create locals = (.ok secret, after)) := by
  unfold getOrCreateGameSecret at h
  cases hread : readSharedRecord (db.games game) game with
  | error error =>
      rw [hread] at h
      cases h
  | ok record =>
      rw [hread] at h
      cases hstored : record.gameSecret with
      | some stored =>
          simp only [hstored, Prod.mk.injEq] at h
          obtain ⟨h, rfl⟩ := h
          obtain ⟨decoded, hdecoded, h⟩ := bind_eq_ok.1 h
          obtain ⟨-, h⟩ := check_bind_eq_ok.1 h
          cases h
          have hsome : db.games game = some record := by
            obtain ⟨-, hsome | ⟨-, rfl⟩⟩ := readSharedRecord_eq_ok hread
            · exact hsome
            · cases hstored
          have hload : loadGameSecret P db game = .ok (some secret) :=
            (loadGameSecret_eq P).2 ⟨record, stored, hread, hstored, hsome, hdecoded⟩
          have hne : secret ≠ 0 := by
            unfold decodeStoredGameSecret at hdecoded
            split at hdecoded
            · cases hdecoded
            · obtain ⟨hzero, hdecoded⟩ := check_bind_eq_ok.1 hdecoded
              cases hdecoded
              exact throwIf_eq_ok.1 hzero
          exact ⟨hload, Kept.of_games rfl, OneField.of_games rfl, rfl, hne, .inl ⟨hload, rfl⟩⟩
      | none =>
          simp only [hstored, Prod.mk.injEq] at h
          obtain ⟨h, hafter⟩ := h
          obtain ⟨created, hcreated, h⟩ := bind_eq_ok.1 h
          obtain ⟨hzero, h⟩ := check_bind_eq_ok.1 h
          obtain ⟨-, h⟩ := check_bind_eq_ok.1 h
          cases h
          have hne : secret ≠ 0 := throwIf_eq_ok.1 hzero
          obtain ⟨hkept, hone⟩ := kept_put_gameSecret hread hstored (P.scalarBytes secret).val
          refine ⟨?_, hkept, hone, rfl, hne, .inr (Prod.ext hcreated hafter)⟩
          have hself : (db.put { record with
              game := game, gameSecret := some (P.scalarBytes secret).val }).games game =
                some { record with
                  game := game, gameSecret := some (P.scalarBytes secret).val } :=
            Function.update_self ..
          exact (loadGameSecret_eq P).2 ⟨_, _, readSharedRecord_self hself rfl, rfl, hself,
            decodeStoredGameSecret_scalarBytes P hne⟩

/-! ## The beacon secret -/

theorem snapshotSetupBeaconScope_eq_ok {scope requested : SetupBeaconScope}
    (h : snapshotSetupBeaconScope P scope = .ok requested) : requested = scope := by
  unfold snapshotSetupBeaconScope at h
  obtain ⟨-, h⟩ := check_bind_eq_ok.1 h
  obtain ⟨roster, -, h⟩ := bind_eq_ok.1 h
  obtain ⟨-, h⟩ := check_bind_eq_ok.1 h
  cases h
  rfl

theorem mapM_parseFixedBytes (roster : List IdentityPublicKey) :
    (roster.map Subtype.val).mapM (parseFixedBytes 32) = some roster := by
  induction roster with
  | nil => rfl
  | cons identity rest ih =>
      rw [List.map_cons, List.mapM_cons, parseFixedBytes_val, ih]
      rfl

/-- A stored secret is read back for its own scope. -/
theorem decodeStoredBeaconSecret_stored {scope : SetupBeaconScope} {secret : RandomSecret}
    (h : snapshotSetupBeaconScope P scope = .ok scope) :
    decodeStoredBeaconSecret P (storedBeaconSecret scope secret) scope = .ok secret := by
  have hdecoded : decodeStoredScope P (storedBeaconSecret scope secret) scope =
      some (scope, secret) := by
    unfold decodeStoredScope storedBeaconSecret
    simp only [parseFixedBytes_val, mapM_parseFixedBytes, guard_true, h, Except.toOption,
      Option.bind_eq_bind, Option.bind_some, Option.pure_def]
  unfold decodeStoredBeaconSecret
  rw [hdecoded]
  simp only
  rw [throwIf_neg (by simp)]
  rfl

/-- A stored secret is read for one scope only. -/
theorem decodeStoredBeaconSecret_inj {value : StoredSetupBeaconSecret}
    {scope scope' : SetupBeaconScope} {secret secret' : RandomSecret}
    (hgame : scope.gameId = scope'.gameId)
    (h : decodeStoredBeaconSecret P value scope = .ok secret)
    (h' : decodeStoredBeaconSecret P value scope' = .ok secret') :
    scope = scope' ∧ secret = secret' := by
  have hsame : decodeStoredScope P value scope = decodeStoredScope P value scope' := by
    unfold decodeStoredScope
    rw [hgame]
  unfold decodeStoredBeaconSecret at h h'
  rw [← hsame] at h'
  cases hstored : decodeStoredScope P value scope with
  | none =>
      rw [hstored] at h
      cases h
  | some stored =>
      rw [hstored] at h h'
      obtain ⟨hscope, h⟩ := check_bind_eq_ok.1 h
      obtain ⟨hscope', h'⟩ := check_bind_eq_ok.1 h'
      cases h
      cases h'
      refine ⟨?_, rfl⟩
      have hmatch := throwIf_eq_ok.1 hscope
      have hmatch' := throwIf_eq_ok.1 hscope'
      simp only [not_or, not_not] at hmatch hmatch'
      cases scope
      cases scope'
      simp_all

theorem loadSetupBeaconSecret_eq {scope : SetupBeaconScope} {secret : RandomSecret} :
    loadSetupBeaconSecret P db scope = .ok (some secret) ↔
    snapshotSetupBeaconScope P scope = .ok scope ∧ ∃ record stored,
      readSharedRecord (db.games scope.gameId) scope.gameId = .ok record ∧
      record.setupBeaconSecret = some stored ∧ db.games scope.gameId = some record ∧
      decodeStoredBeaconSecret P stored scope = .ok secret := by
  unfold loadSetupBeaconSecret
  constructor
  · intro h
    obtain ⟨requested, hrequested, hrest⟩ := bind_eq_ok.1 h
    obtain rfl := snapshotSetupBeaconScope_eq_ok P hrequested
    obtain ⟨record, hread, hmatch⟩ := bind_eq_ok.1 hrest
    cases hstored : record.setupBeaconSecret with
    | none =>
        rw [hstored] at hmatch
        cases hmatch
    | some stored =>
        rw [hstored] at hmatch
        obtain ⟨decoded, hdecoded, hreturn⟩ := bind_eq_ok.1 hmatch
        cases hreturn
        refine ⟨hrequested, record, stored, hread, hstored, ?_, hdecoded⟩
        obtain ⟨-, hsome | ⟨-, rfl⟩⟩ := readSharedRecord_eq_ok hread
        · exact hsome
        · cases hstored
  · rintro ⟨hscope, record, stored, hread, hstored, -, hdecoded⟩
    rw [hscope, ok_bind, hread, ok_bind]
    simp only [hstored, hdecoded]
    rfl

/-- A game has one durable beacon secret, of one scope. -/
theorem loadSetupBeaconSecret_inj {scope scope' : SetupBeaconScope} {secret secret' : RandomSecret}
    (hgame : scope.gameId = scope'.gameId)
    (h : loadSetupBeaconSecret P db scope = .ok (some secret))
    (h' : loadSetupBeaconSecret P db scope' = .ok (some secret')) :
    scope = scope' ∧ secret = secret' := by
  obtain ⟨-, record, stored, hread, hstored, -, hdecoded⟩ := (loadSetupBeaconSecret_eq P).1 h
  obtain ⟨-, record', stored', hread', hstored', -, hdecoded'⟩ :=
    (loadSetupBeaconSecret_eq P).1 h'
  rw [← hgame, hread] at hread'
  cases hread'
  rw [hstored] at hstored'
  cases hstored'
  exact decodeStoredBeaconSecret_inj P hgame hdecoded hdecoded'

theorem SharedDatabase.Kept.loadSetupBeaconSecret (h : Kept db db') {scope : SetupBeaconScope}
    {secret : RandomSecret} (hload : loadSetupBeaconSecret P db scope = .ok (some secret)) :
    loadSetupBeaconSecret P db' scope = .ok (some secret) := by
  obtain ⟨hscope, record, stored, hread, hstored, hsome, hdecoded⟩ :=
    (loadSetupBeaconSecret_eq P).1 hload
  have hfield : db.beaconSecretField scope.gameId = some stored := by
    rw [beaconSecretField, hsome, Option.bind_some, hstored]
  obtain ⟨record', hsome', hkey⟩ :=
    h.key scope.gameId record hsome (readSharedRecord_eq_ok hread).1
  have hfield' := h.beaconSecret scope.gameId stored hfield
  rw [beaconSecretField, hsome', Option.bind_some] at hfield'
  have hread' := readSharedRecord_self hsome' hkey
  exact (loadSetupBeaconSecret_eq P).2
    ⟨hscope, record', stored, hread', hfield', hsome', hdecoded⟩

/-- Putting a beacon secret where there is none. -/
theorem kept_put_beaconSecret (hread : readSharedRecord (db.games game) game = .ok record)
    (hnone : record.setupBeaconSecret = none) (stored : StoredSetupBeaconSecret) :
    Kept db (db.put { record with setupBeaconSecret := some stored }) ∧
      OneField db (db.put { record with setupBeaconSecret := some stored }) := by
  obtain ⟨hroster, hsecret, hbeacon⟩ := readSharedRecord_fields hread
  have hwritten : ({ record with setupBeaconSecret := some stored } : SharedGameRecord).game =
      game := (readSharedRecord_eq_ok hread).1
  have hfields := put_fields db hwritten
  refine ⟨⟨put_key hwritten, ?_, ?_⟩, .inr (.inr ⟨?_, ?_⟩)⟩
  · intro other value hvalue
    rw [(hfields other).2.1]
    split_ifs with hother
    · rw [← hsecret, ← hother, hvalue]
    · exact hvalue
  · intro other value hvalue
    rw [(hfields other).2.2]
    split_ifs with hother
    · rw [hother, hbeacon, hnone] at hvalue
      cases hvalue
    · exact hvalue
  · funext other
    rw [(hfields other).1]
    split_ifs with hother
    · rw [hother, hroster]
    · rfl
  · funext other
    rw [(hfields other).2.1]
    split_ifs with hother
    · rw [hother, hsecret]
    · rfl

/-- **The beacon secret that is selected is durable.** -/
theorem getOrCreateSetupBeaconSecret_spec {σ : Type}
    {create : σ → Except SetupSecretError RandomSecret × σ} {locals after : σ} {committed : Bool}
    {scope : SetupBeaconScope} {secret : RandomSecret}
    (h : getOrCreateSetupBeaconSecret P db scope create locals committed =
      (.ok (secret, next), after)) :
    loadSetupBeaconSecret P next scope = .ok (some secret) ∧ Kept db next ∧ OneField db next ∧
      next.toDatabase = db.toDatabase ∧
      (loadSetupBeaconSecret P db scope = .ok (some secret) ∧ after = locals ∨
        create locals = (.ok secret, after)) := by
  unfold getOrCreateSetupBeaconSecret at h
  cases hscope : snapshotSetupBeaconScope P scope with
  | error error =>
      rw [hscope] at h
      cases h
  | ok requested =>
      obtain rfl := snapshotSetupBeaconScope_eq_ok P hscope
      rw [hscope] at h
      cases hread : readSharedRecord (db.games requested.gameId) requested.gameId with
      | error error =>
          simp only [hread] at h
          cases h
      | ok record =>
          simp only [hread] at h
          cases hstored : record.setupBeaconSecret with
          | some stored =>
              simp only [hstored, Prod.mk.injEq] at h
              obtain ⟨h, rfl⟩ := h
              obtain ⟨decoded, hdecoded, h⟩ := bind_eq_ok.1 h
              obtain ⟨-, h⟩ := check_bind_eq_ok.1 h
              cases h
              have hsome : db.games requested.gameId = some record := by
                obtain ⟨-, hsome | ⟨-, rfl⟩⟩ := readSharedRecord_eq_ok hread
                · exact hsome
                · cases hstored
              have hload : loadSetupBeaconSecret P db requested = .ok (some secret) :=
                (loadSetupBeaconSecret_eq P).2
                  ⟨hscope, record, stored, hread, hstored, hsome, hdecoded⟩
              exact ⟨hload, Kept.of_games rfl, OneField.of_games rfl, rfl, .inl ⟨hload, rfl⟩⟩
          | none =>
              simp only [hstored, Prod.mk.injEq] at h
              obtain ⟨h, hafter⟩ := h
              obtain ⟨created, hcreated, h⟩ := bind_eq_ok.1 h
              obtain ⟨-, h⟩ := check_bind_eq_ok.1 h
              cases h
              have hkey := (readSharedRecord_eq_ok hread).1
              obtain ⟨hkept, hone⟩ :=
                kept_put_beaconSecret hread hstored (storedBeaconSecret requested secret)
              refine ⟨?_, hkept, hone, rfl, .inr (Prod.ext hcreated hafter)⟩
              have hself : (db.put { record with
                  setupBeaconSecret := some (storedBeaconSecret requested secret) }).games
                    requested.gameId = some { record with
                      setupBeaconSecret := some (storedBeaconSecret requested secret) } := by
                unfold put
                rw [← hkey]
                exact Function.update_self ..
              exact (loadSetupBeaconSecret_eq P).2 ⟨hscope, _, _, readSharedRecord_self hself hkey,
                rfl, hself, decodeStoredBeaconSecret_stored P hscope⟩

/-! ## The rosters -/

variable {ed hashRosterBody}

/-- Only the record of the envelope's game is put, and under its key. -/
theorem persistAcceptedRoster_games {db next : SessionDatabase} {host : IdentityPublicKey}
    {e : SignedEnvelope} {committed : Bool} {result : RosterPersistence}
    (h : db.persistAcceptedRoster P ed hashRosterBody host e committed = .ok (result, next)) :
    next.games = db.games ∨ ∃ roster,
      next.games = Function.update db.games e.game (some ⟨e.game, some roster⟩) := by
  have hdescribes := persistAcceptedRoster_describes h
  cases result with
  | conflict existing received =>
      rw [hdescribes.unchanged]
      exact .inl rfl
  | snapshot status transcriptStatus snapshot =>
      obtain ⟨-, -, -, -, hwrote⟩ := hdescribes
      cases status with
      | stored => exact .inr ⟨_, hwrote.2.2⟩
      | duplicate => exact .inl hwrote.1
      | stale => exact .inl hwrote.1

/-- A record that is put has the fields of the one that was there. -/
theorem withSession_record {session : SessionDatabase} {game : GameId}
    (h : db.games game ≠ none → session.games game ≠ none) :
    (db.withSession session).gameSecretField game = db.gameSecretField game ∧
      (db.withSession session).beaconSecretField game = db.beaconSecretField game := by
  unfold gameSecretField beaconSecretField withSession
  simp only
  cases hshared : db.games game with
  | none =>
      cases session.games game with
      | none => exact ⟨rfl, rfl⟩
      | some record => exact ⟨rfl, rfl⟩
  | some shared =>
      cases hsession : session.games game with
      | none => exact absurd hsession (h (by rw [hshared]; rintro ⟨⟩))
      | some record => exact ⟨rfl, rfl⟩

/-- **The store of the rosters leaves the secrets alone.** -/
theorem persistAcceptedRoster_kept {host : IdentityPublicKey} {e : SignedEnvelope}
    {committed : Bool} {result : RosterPersistence}
    (h : db.persistAcceptedRoster P ed hashRosterBody host e committed = .ok (result, next)) :
    Kept db next ∧ OneField db next := by
  unfold SharedDatabase.persistAcceptedRoster at h
  obtain ⟨⟨result', session⟩, hsession, h⟩ := bind_eq_ok.1 h
  cases h
  have hkeys : ∀ game record, db.games game = some record → record.game = game →
      ∃ record', session.games game = some record' ∧ record'.game = game := by
    intro game record hrecord hkey
    have hsame : db.session.games game = some record.toGameRecord := by
      unfold SharedDatabase.session
      simp only
      rw [hrecord]
      rfl
    rcases persistAcceptedRoster_games P hsession with hgames | ⟨roster, hgames⟩
    · exact ⟨_, by rw [hgames, hsame], hkey⟩
    · by_cases hgame : game = e.game
      · subst hgame
        exact ⟨_, by rw [hgames, Function.update_self], rfl⟩
      · exact ⟨_, by rw [hgames, Function.update_of_ne hgame, hsame], hkey⟩
  have hsome : ∀ game, db.games game ≠ none → session.games game ≠ none := by
    intro game hgame
    rcases persistAcceptedRoster_games P hsession with hgames | ⟨roster, hgames⟩
    · rw [hgames]
      unfold SharedDatabase.session
      simpa using hgame
    · by_cases hsame : game = e.game
      · subst hsame
        rw [hgames, Function.update_self]
        simp
      · rw [hgames, Function.update_of_ne hsame]
        unfold SharedDatabase.session
        simpa using hgame
  have hsecret : (db.withSession session).gameSecretField = db.gameSecretField :=
    funext fun game => (withSession_record (hsome game)).1
  have hbeacon : (db.withSession session).beaconSecretField = db.beaconSecretField :=
    funext fun game => (withSession_record (hsome game)).2
  refine ⟨⟨fun game record hrecord hkey => ?_, fun game stored hstored => by rwa [hsecret],
    fun game stored hstored => by rwa [hbeacon]⟩, .inl ⟨hsecret, hbeacon⟩⟩
  obtain ⟨record', hrecord', hkey'⟩ := hkeys game record hrecord hkey
  refine ⟨{ record with toGameRecord := record' }, ?_, hkey'⟩
  unfold withSession
  simp only
  rw [hrecord', hrecord]

end

end Tablefolk
