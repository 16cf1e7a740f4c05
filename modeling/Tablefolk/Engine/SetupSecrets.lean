import Tablefolk.Engine.SetupAuthoring
import Tablefolk.Engine.SetupRuns

/-!
# Setup secrets over restarts

What is signed in a run of `SetupWorld`: every envelope has been made from a secret that was durable
before, and a durable secret stays what it is.

* `SetupWorld.Inv.step`: one step, whatever it is.
* `setup_secrets_survive`: every run, with any crashes, and the beacons that read what it signs.
-/

namespace Tablefolk

open SharedDatabase

section

variable {q : ℕ} {G : Type} [AddCommGroup G] [Module (ZMod q) G] {P : Primitives q G}

/-! ## Local preparation -/

theorem selectedSecret_eq_ok {α : Type} [DecidableEq α] {guard : Except SetupSecretError Unit}
    {result : Except SetupSecretError α} {locals : PreparationLocals α} {invalid : SetupSecretError}
    {secret : α} (h : selectedSecret guard result locals invalid = .ok secret) :
    result = .ok secret := by
  unfold selectedSecret at h
  obtain ⟨stored, hstored, h⟩ := bind_eq_ok.1 h
  obtain ⟨-, -, h⟩ := bind_eq_ok.1 h
  have hresult : result = .ok stored := by
    cases result with
    | error cause => cases hstored
    | ok value =>
        cases hstored
        rfl
  cases hfailure : locals.failure with
  | some failure =>
      rw [hfailure] at h
      cases h
  | none =>
      rw [hfailure] at h
      obtain ⟨-, h⟩ := check_bind_eq_ok.1 h
      cases h
      exact hresult

/-- A key share is made from the secret of the store. -/
theorem finishGameKeyShare_eq_ok {context : ProofContext} {guard : Except SetupSecretError Unit}
    {result : Except SetupSecretError (ZMod q)} {locals : PreparationLocals (ZMod q)}
    {nonce : ZMod q} {share : GameKeyShare q G}
    (h : finishGameKeyShare P context guard result locals nonce = .ok share) :
    ∃ secret, result = .ok secret ∧ share.H = secret • P.base := by
  unfold finishGameKeyShare at h
  obtain ⟨secret, hsecret, h⟩ := bind_eq_ok.1 h
  obtain ⟨-, h⟩ := check_bind_eq_ok.1 h
  obtain ⟨created, hcreated, h⟩ := bind_eq_ok.1 h
  obtain ⟨-, -, h⟩ := bind_eq_ok.1 h
  cases h
  obtain ⟨-, hcreated⟩ := check_bind_eq_ok.1 hcreated
  cases hcreated
  exact ⟨secret, selectedSecret_eq_ok hsecret, rfl⟩

/-- A commitment is made from the secret of the store. -/
theorem finishBeaconContribution_eq_ok {scope : SetupBeaconScope}
    {guard : Except SetupSecretError Unit} {result : Except SetupSecretError RandomSecret}
    {locals : PreparationLocals RandomSecret} {made : BeaconContribution}
    (h : finishBeaconContribution P scope guard result locals = .ok made) :
    ∃ secret, result = .ok secret ∧ made = contribution P scope secret := by
  unfold finishBeaconContribution at h
  obtain ⟨secret, hsecret, h⟩ := bind_eq_ok.1 h
  obtain ⟨-, -, h⟩ := bind_eq_ok.1 h
  cases h
  exact ⟨secret, selectedSecret_eq_ok hsecret, rfl⟩

/-- What is restored has the commitment that was accepted. -/
theorem finishRestore_eq_ok {scope : SetupBeaconScope} {expected : Hash256}
    {guard : Except SetupSecretError Unit}
    {loaded : Except SetupSecretError (Option RandomSecret)} {made : BeaconContribution}
    (h : finishRestore P scope expected guard loaded = .ok made) :
    ∃ secret, loaded = .ok (some secret) ∧ made = contribution P scope secret ∧
      made.commitment = expected := by
  unfold finishRestore at h
  obtain ⟨stored, hstored, h⟩ := bind_eq_ok.1 h
  obtain ⟨-, -, h⟩ := bind_eq_ok.1 h
  cases stored with
  | none => cases h
  | some secret =>
      obtain ⟨hmatch, h⟩ := check_bind_eq_ok.1 h
      obtain ⟨-, -, h⟩ := bind_eq_ok.1 h
      cases h
      exact ⟨secret, hstored, rfl, not_not.1 (throwIf_eq_ok.1 hmatch)⟩

/-! ## What is signed -/

/-- The content of an envelope. -/
def SignedEnvelope.content (e : SignedEnvelope) : EnvelopeContent :=
  ⟨e.round, e.phase, e.type, e.body⟩

variable (P) in
/-- The content has been made from the durable secret, and a reveal answers the commitment. -/
def Prepared (db : SharedDatabase) (receiver : PersistentSetupReceiver P) :
    SetupMessage → Option Hash256 → EnvelopeContent → Prop
  | .keyShare, _, content => ∃ secret proof,
      loadGameSecret P db receiver.gameId = .ok (some secret) ∧ content =
        ⟨receiver.round, "setup.keys", .KEY_SHARE,
          encodeGameKeyShareBody P ⟨secret • P.base, proof⟩⟩
  | .randCommit, _, content => ∃ secret,
      loadSetupBeaconSecret P db receiver.scope = .ok (some secret) ∧ content =
        ⟨receiver.round, "setup.rand", .RAND_COMMIT,
          encodeRandCommitBody (contribution P receiver.scope secret).commitment⟩
  | .randReveal, commitment, content => ∃ secret,
      loadSetupBeaconSecret P db receiver.scope = .ok (some secret) ∧
      commitment = some (contribution P receiver.scope secret).commitment ∧ content =
        ⟨receiver.round, "setup.rand", .RAND_REVEAL, encodeRandRevealBody secret⟩

theorem Prepared.kept {db db' : SharedDatabase} (h : Kept db db')
    {receiver : PersistentSetupReceiver P} {message : SetupMessage} {commitment : Option Hash256}
    {content : EnvelopeContent} (hprepared : Prepared P db receiver message commitment content) :
    Prepared P db' receiver message commitment content := by
  cases message with
  | keyShare =>
      obtain ⟨secret, proof, hload, hcontent⟩ := hprepared
      exact ⟨secret, proof, h.loadGameSecret P hload, hcontent⟩
  | randCommit =>
      obtain ⟨secret, hload, hcontent⟩ := hprepared
      exact ⟨secret, h.loadSetupBeaconSecret P hload, hcontent⟩
  | randReveal =>
      obtain ⟨secret, hload, hcommitment, hcontent⟩ := hprepared
      exact ⟨secret, h.loadSetupBeaconSecret P hload, hcommitment, hcontent⟩

/-- An envelope that was signed for a secret that is durable. -/
structure SignedSetup.Durable (db : SharedDatabase) (entry : SignedSetup P) : Prop where
  game : entry.envelope.game = entry.receiver.gameId
  from_ : entry.envelope.from_ = entry.receiver.self
  prepared : Prepared P db entry.receiver entry.message entry.commitment entry.envelope.content

theorem SignedSetup.Durable.kept {db db' : SharedDatabase} (h : Kept db db')
    {entry : SignedSetup P} (hentry : entry.Durable db) : entry.Durable db' :=
  ⟨hentry.game, hentry.from_, hentry.prepared.kept h⟩

/-- What the author signs has the content it was given. -/
theorem signed_authorAndPersist {ed : Ed25519} (author : PersistentEnvelopeAuthor ed)
    (db : Database) (content : EnvelopeContent) (beforeSign : Option BeforeSign)
    (committed : Bool) : ∀ e ∈ (author.authorAndPersist P db content beforeSign committed).2.2.signed,
      e.game = author.gameId ∧ e.from_ = author.sender ∧ e.content = content := by
  have hlocals : (author.authorAndPersist P db content beforeSign committed).2.2.signed =
      (appendNext P ed db author.gameId author.sender (author.create P content beforeSign) .start
        committed).2.signed := by
    unfold PersistentEnvelopeAuthor.authorAndPersist
    simp only
    split
    · rfl
    · split <;> rfl
  rw [hlocals]
  unfold appendNext
  cases withCheckpoint ed db author.gameId author.sender with
  | error error => simp [AuthorLocals.start]
  | ok head =>
      have hopen : ¬ (AuthorLocals.start.creationOpen = false ∨
          AuthorLocals.start.creationAttempted = true) := by simp [AuthorLocals.start]
      have hsigns : ∀ e, PersistentEnvelopeAuthor.Signs P author content beforeSign head e →
          e.game = author.gameId ∧ e.from_ = author.sender ∧ e.content = content := by
        rintro e ⟨unsigned, hprepare, hsign⟩
        obtain ⟨-, -, -, -, -, -, hartifact⟩ := signEnvelope_eq_ok.1 hsign
        unfold PersistentEnvelopeAuthor.prepare at hprepare
        obtain ⟨stored, -, hprepare⟩ := bind_eq_ok.1 hprepare
        obtain ⟨seq, -, hprepare⟩ := bind_eq_ok.1 hprepare
        obtain ⟨-, -, hprepare⟩ := bind_eq_ok.1 hprepare
        cases hprepare
        rw [hartifact]
        exact ⟨rfl, rfl, rfl⟩
      obtain ⟨error, signed, -, hsigned, heq⟩ | ⟨artifact, hartifact, -, heq⟩ :=
        PersistentEnvelopeAuthor.create_cases P author content beforeSign head hopen
      · simp only
        rw [heq]
        intro e he
        exact hsigns e (hsigned e (by simpa [AuthorLocals.start] using he))
      · simp only
        rw [heq]
        intro e he
        obtain rfl : e = artifact := by simpa [AuthorLocals.start] using he
        exact hsigns e hartifact

/-! ## One step -/

/-- What an operation holds has been made from a durable secret. -/
def SetupOperation.Ready {ed : Ed25519} (db : SharedDatabase) (operation : SetupOperation P ed) :
    Prop :=
  match operation.stage with
  | .storedKey (.ok secret) _ => operation.message = .keyShare ∧
      loadGameSecret P db operation.receiver.gameId = .ok (some secret)
  | .storedSecret (.ok secret) _ => operation.message = .randCommit ∧
      loadSetupBeaconSecret P db operation.receiver.scope = .ok (some secret)
  | .loaded (.ok (some secret)) _ => operation.message = .randReveal ∧
      loadSetupBeaconSecret P db operation.receiver.scope = .ok (some secret)
  | .authoring content commitment =>
      Prepared P db operation.receiver operation.message commitment content
  | _ => True

theorem SetupOperation.Ready.kept {ed : Ed25519} {db db' : SharedDatabase} (h : Kept db db')
    {operation : SetupOperation P ed} (hready : operation.Ready db) : operation.Ready db' := by
  unfold SetupOperation.Ready at hready ⊢
  split at hready
  · exact ⟨hready.1, h.loadGameSecret P hready.2⟩
  · exact ⟨hready.1, h.loadSetupBeaconSecret P hready.2⟩
  · exact ⟨hready.1, h.loadSetupBeaconSecret P hready.2⟩
  · exact hready.kept h
  · trivial

namespace SetupWorld

variable {ed : Ed25519} {w w' : SetupWorld P ed}

/-- Every secret that was answered is durable, and everything has been made from such secrets. -/
structure Inv (w : SetupWorld P ed) : Prop where
  operations : ∀ id operation, w.operations id = some operation → operation.Ready w.db
  gameSecrets : ∀ entry ∈ w.gameSecrets, loadGameSecret P w.db entry.1 = .ok (some entry.2)
  beaconSecrets : ∀ entry ∈ w.beaconSecrets, ∃ scope : SetupBeaconScope, scope.gameId = entry.1 ∧
    loadSetupBeaconSecret P w.db scope = .ok (some entry.2)
  signed : ∀ entry ∈ w.signed, entry.Durable w.db

/-- What a step does to the tables, and what it may sign. -/
structure Advance (w w' : SetupWorld P ed) : Prop where
  kept : Kept w.db w'.db
  oneField : OneField w.db w'.db
  signed : ∃ new, w'.signed = w.signed ++ new ∧ ∀ entry ∈ new, entry.Durable w.db

theorem Inv.start (db : SharedDatabase) : Inv (start db : SetupWorld P ed) where
  operations _ _ h := by cases h
  gameSecrets _ h := by cases h
  beaconSecrets _ h := by cases h
  signed _ h := by cases h

/-- A step that leaves the records alone and signs nothing. -/
theorem Advance.of_games (hgames : w'.db.games = w.db.games) (hsigned : w'.signed = w.signed) :
    Advance w w' :=
  ⟨Kept.of_games hgames, OneField.of_games hgames, [], by simp [hsigned], by simp⟩

theorem Advance.of_write (hkept : Kept w.db w'.db) (hone : OneField w.db w'.db)
    (hsigned : w'.signed = w.signed) : Advance w w' :=
  ⟨hkept, hone, [], by simp [hsigned], by simp⟩

/-- The tables are written. -/
theorem Inv.write (h : Inv w) {db : SharedDatabase} (hkept : Kept w.db db) :
    Inv { w with db := db } where
  operations id operation hoperation := (h.operations id operation hoperation).kept hkept
  gameSecrets entry hentry := hkept.loadGameSecret P (h.gameSecrets entry hentry)
  beaconSecrets entry hentry := by
    obtain ⟨scope, hgame, hload⟩ := h.beaconSecrets entry hentry
    exact ⟨scope, hgame, hkept.loadSetupBeaconSecret P hload⟩
  signed entry hentry := (h.signed entry hentry).kept hkept

/-- The store has answered a game secret. -/
theorem Inv.useGameSecret (h : Inv w) {game : GameId} {secret : ZMod q}
    (hload : loadGameSecret P w.db game = .ok (some secret)) :
    Inv { w with gameSecrets := w.gameSecrets ++ [(game, secret)] } where
  operations := h.operations
  gameSecrets entry hentry := by
    rcases List.mem_append.1 hentry with hentry | hentry
    · exact h.gameSecrets entry hentry
    · rw [List.mem_singleton.1 hentry]
      exact hload
  beaconSecrets := h.beaconSecrets
  signed := h.signed

/-- The store has answered a beacon secret. -/
theorem Inv.useBeaconSecret (h : Inv w) {scope : SetupBeaconScope} {secret : RandomSecret}
    (hload : loadSetupBeaconSecret P w.db scope = .ok (some secret)) :
    Inv { w with beaconSecrets := w.beaconSecrets ++ [(scope.gameId, secret)] } where
  operations := h.operations
  gameSecrets := h.gameSecrets
  beaconSecrets entry hentry := by
    rcases List.mem_append.1 hentry with hentry | hentry
    · exact h.beaconSecrets entry hentry
    · rw [List.mem_singleton.1 hentry]
      exact ⟨scope, rfl, hload⟩
  signed := h.signed

theorem Inv.move (h : Inv w) (id : ℕ) {operation : SetupOperation P ed} {stage : SetupStage q}
    (hready : ({ operation with stage := stage } : SetupOperation P ed).Ready w.db) :
    Inv (w.move id operation stage) where
  operations other held hheld := by
    simp only [SetupWorld.move] at hheld
    by_cases hid : other = id
    · subst hid
      rw [Function.update_self] at hheld
      cases hheld
      exact hready
    · rw [Function.update_of_ne hid] at hheld
      exact h.operations other held hheld
  gameSecrets := h.gameSecrets
  beaconSecrets := h.beaconSecrets
  signed := h.signed

theorem Inv.drop (h : Inv w) (id : ℕ) : Inv (w.drop id) where
  operations other held hheld := by
    simp only [SetupWorld.drop] at hheld
    by_cases hid : other = id
    · subst hid
      rw [Function.update_self] at hheld
      cases hheld
    · rw [Function.update_of_ne hid] at hheld
      exact h.operations other held hheld
  gameSecrets := h.gameSecrets
  beaconSecrets := h.beaconSecrets
  signed := h.signed

/-- Reading the head moves the operation on, or ends it. -/
theorem onHead_cases (w : SetupWorld P ed) (id : ℕ) (operation : SetupOperation P ed)
    (reading : SetupReading P) (head : Option (Option SignedEnvelope)) :
    w.onHead id operation reading head = w.drop id ∨
      ∃ commitment, w.onHead id operation reading head =
        w.move id operation (.preparing commitment) := by
  unfold onHead
  cases head with
  | none => exact .inl rfl
  | some head =>
      simp only
      split
      · split
        · exact .inr ⟨none, rfl⟩
        · split
          · exact .inl rfl
          · exact .inr ⟨none, rfl⟩
        · split
          · exact .inr ⟨_, rfl⟩
          · exact .inl rfl
      · exact .inl rfl

theorem Inv.onHead (h : Inv w) (id : ℕ) (operation : SetupOperation P ed)
    (reading : SetupReading P) (head : Option (Option SignedEnvelope)) :
    Inv (w.onHead id operation reading head) ∧ Advance w (w.onHead id operation reading head) := by
  rcases onHead_cases w id operation reading head with heq | ⟨commitment, heq⟩
  · rw [heq]
    exact ⟨h.drop id, Advance.of_games rfl rfl⟩
  · rw [heq]
    exact ⟨h.move id trivial, Advance.of_games rfl rfl⟩

/-- The transaction of an operation. -/
theorem Inv.onTransact (h : Inv w) {id : ℕ} {operation : SetupOperation P ed}
    {commitment : Option Hash256} {reading : SetupReading P} {draws : List ℕ} {drawn : RandomSecret}
    {committed : Bool}
    (hw : w.onTransact id operation commitment reading draws drawn committed = some w') :
    Inv w' ∧ Advance w w' := by
  unfold SetupWorld.onTransact at hw
  cases hmessage : operation.message with
  | keyShare =>
      simp only [hmessage] at hw
      split at hw
      · cases hw
      · split at hw
        · cases hw
          exact ⟨h.move id trivial, Advance.of_games rfl rfl⟩
        · rename_i secret db locals hstore
          cases hw
          obtain ⟨hload, hkept, hone, -⟩ := getOrCreateGameSecret_spec P hstore
          exact ⟨((h.write hkept).useGameSecret hload).move id ⟨hmessage, hload⟩,
            Advance.of_write hkept hone rfl⟩
  | randCommit =>
      simp only [hmessage] at hw
      split at hw
      · cases hw
        exact ⟨h.move id trivial, Advance.of_games rfl rfl⟩
      · rename_i secret db locals hstore
        cases hw
        obtain ⟨hload, hkept, hone, -⟩ := getOrCreateSetupBeaconSecret_spec P hstore
        exact ⟨((h.write hkept).useBeaconSecret hload).move id ⟨hmessage, hload⟩,
          Advance.of_write hkept hone rfl⟩
  | randReveal =>
      cases commitment with
      | none =>
          simp only [hmessage] at hw
          cases hw
      | some cm =>
          simp only [hmessage] at hw
          cases hload : loadSetupBeaconSecret P w.db operation.receiver.scope with
          | error error =>
              rw [hload] at hw
              simp only [List.append_nil] at hw
              cases hw
              exact ⟨h.move id trivial, Advance.of_games rfl rfl⟩
          | ok found =>
              cases found with
              | none =>
                  rw [hload] at hw
                  simp only [List.append_nil] at hw
                  cases hw
                  exact ⟨h.move id trivial, Advance.of_games rfl rfl⟩
              | some secret =>
                  rw [hload] at hw
                  cases hw
                  exact ⟨(h.useBeaconSecret hload).move id ⟨hmessage, hload⟩,
                    Advance.of_games rfl rfl⟩

/-- What an operation is about to sign has been made from a durable secret. -/
theorem contentOf_prepared {db : SharedDatabase} {operation : SetupOperation P ed}
    {reading : SetupReading P} {nonce : ZMod q} {content : EnvelopeContent}
    {commitment : Option Hash256} (hready : operation.Ready db)
    (h : contentOf operation reading nonce = some (.ok (content, commitment))) :
    Prepared P db operation.receiver operation.message commitment content := by
  unfold contentOf at h
  unfold SetupOperation.Ready at hready
  cases hstage : operation.stage with
  | readingHead => simp [hstage] at h
  | preparing commitment => simp [hstage] at h
  | storedKey result locals =>
      simp only [hstage, Option.some.injEq] at h
      obtain ⟨share, hshare, h⟩ := bind_eq_ok.1 h
      cases h
      obtain ⟨secret, rfl, hH⟩ := finishGameKeyShare_eq_ok hshare
      simp only [hstage] at hready
      rw [hready.1]
      exact ⟨secret, share.pop, hready.2, by rw [← hH]⟩
  | storedSecret result locals =>
      simp only [hstage, Option.some.injEq] at h
      obtain ⟨made, hmade, h⟩ := bind_eq_ok.1 h
      cases h
      obtain ⟨secret, rfl, rfl⟩ := finishBeaconContribution_eq_ok hmade
      simp only [hstage] at hready
      rw [hready.1]
      exact ⟨secret, hready.2, rfl⟩
  | loaded result cm =>
      simp only [hstage, Option.some.injEq] at h
      obtain ⟨made, hmade, h⟩ := bind_eq_ok.1 h
      cases h
      obtain ⟨secret, rfl, rfl, rfl⟩ := finishRestore_eq_ok hmade
      simp only [hstage] at hready
      rw [hready.1]
      exact ⟨secret, hready.2, rfl, rfl⟩
  | authoring content commitment => simp [hstage] at h

/-- Envelopes are signed. -/
theorem Inv.sign (h : Inv w) {new : List (SignedSetup P)}
    (hnew : ∀ entry ∈ new, entry.Durable w.db) : Inv { w with signed := w.signed ++ new } where
  operations := h.operations
  gameSecrets := h.gameSecrets
  beaconSecrets := h.beaconSecrets
  signed entry hentry := (List.mem_append.1 hentry).elim (h.signed entry) (hnew entry)

/-- The call of the author. -/
theorem Inv.onSign (h : Inv w) (id : ℕ) {operation : SetupOperation P ed}
    {content : EnvelopeContent} {commitment : Option Hash256}
    (hprepared : Prepared P w.db operation.receiver operation.message commitment content)
    (reading : SetupReading P) (committed : Bool) :
    Inv (w.onSign id operation content commitment reading committed) ∧
      Advance w (w.onSign id operation content commitment reading committed) := by
  have hsigned := signed_authorAndPersist (P := P) operation.author w.db.toDatabase content
    (some (operation.receiver.beforeSign reading ed operation.message operation.expected)) committed
  unfold SetupWorld.onSign
  generalize operation.author.authorAndPersist P w.db.toDatabase content
    (some (operation.receiver.beforeSign reading ed operation.message operation.expected)) committed
      = call at hsigned ⊢
  obtain ⟨outcome, tables, locals⟩ := call
  have hnew : ∀ entry ∈ locals.signed.map fun envelope =>
      (⟨operation.receiver, operation.message, commitment, envelope⟩ : SignedSetup P),
      entry.Durable w.db := by
    intro entry hentry
    obtain ⟨e, he, rfl⟩ := List.mem_map.1 hentry
    obtain ⟨hgame, hfrom, hcontent⟩ := hsigned e he
    refine ⟨hgame.trans operation.game_eq, hfrom.trans operation.sender_eq, ?_⟩
    simp only
    rw [hcontent]
    exact hprepared
  have hkept : Kept w.db { w.db with toDatabase := tables } := Kept.of_games rfl
  exact ⟨((h.write hkept).sign fun entry hentry => (hnew entry hentry).kept hkept).drop id,
    hkept, OneField.of_games rfl, _, rfl, hnew⟩

variable {hashRosterBody : RosterBody → Hash256} {input : SetupInput P ed}

/-- **One step**, whatever it is, keeps the durable secrets and what was made from them. -/
theorem Inv.step (h : Inv w) (hstep : SetupWorld.step hashRosterBody w input = some w') :
    Inv w' ∧ Advance w w' := by
  cases input with
  | start id operation reading =>
      simp only [SetupWorld.step] at hstep
      split at hstep
      · cases hstep
        exact ⟨h.move id trivial, Advance.of_games rfl rfl⟩
      · cases hstep
  | head id reading head =>
      simp only [SetupWorld.step] at hstep
      split at hstep
      · split at hstep
        · cases hstep
          exact h.onHead ..
        · cases hstep
      · cases hstep
  | transact id reading draws drawn committed =>
      simp only [SetupWorld.step] at hstep
      split at hstep
      · split at hstep
        · exact h.onTransact hstep
        · cases hstep
      · cases hstep
  | resume id reading draws =>
      simp only [SetupWorld.step] at hstep
      split at hstep
      · rename_i operation nonce rest hoperation hdraws
        split at hstep
        · rename_i content commitment hcontent
          cases hstep
          have hprepared := contentOf_prepared (h.operations id operation hoperation) hcontent
          exact ⟨h.move id hprepared, Advance.of_games rfl rfl⟩
        · cases hstep
          exact ⟨h.drop id, Advance.of_games rfl rfl⟩
        · cases hstep
      · cases hstep
  | sign id reading committed =>
      simp only [SetupWorld.step] at hstep
      split at hstep
      · rename_i operation hoperation
        split at hstep
        · rename_i content commitment hstage
          cases hstep
          have hready := h.operations id operation hoperation
          unfold SetupOperation.Ready at hready
          simp only [hstage] at hready
          exact h.onSign id hready reading committed
        · cases hstep
      · cases hstep
  | crash id =>
      cases hstep
      exact ⟨h.drop id, Advance.of_games rfl rfl⟩
  | loadGameSecret game =>
      simp only [SetupWorld.step] at hstep
      split at hstep
      · rename_i secret hload
        cases hstep
        exact ⟨h.useGameSecret hload, Advance.of_games rfl rfl⟩
      · cases hstep
        exact ⟨h, Advance.of_games rfl rfl⟩
  | loadSetupBeaconSecret scope =>
      simp only [SetupWorld.step] at hstep
      split at hstep
      · rename_i secret hload
        cases hstep
        exact ⟨h.useBeaconSecret hload, Advance.of_games rfl rfl⟩
      · cases hstep
        exact ⟨h, Advance.of_games rfl rfl⟩
  | roster expectedHost candidate committed =>
      simp only [SetupWorld.step] at hstep
      split at hstep
      · rename_i result db hpersist
        cases hstep
        obtain ⟨hkept, hone⟩ := persistAcceptedRoster_kept P hpersist
        exact ⟨h.write hkept, Advance.of_write hkept hone rfl⟩
      · cases hstep
        exact ⟨h, Advance.of_games rfl rfl⟩
  | transcript tables =>
      cases hstep
      exact ⟨h.write (Kept.of_games rfl), Advance.of_games rfl rfl⟩

/-! ## Runs -/

/-- A state that a new process over these tables gets to. -/
def Reachable (hashRosterBody : RosterBody → Hash256) (db : SharedDatabase)
    (w : SetupWorld P ed) : Prop :=
  ∃ inputs, Replay.run (SetupWorld.step hashRosterBody) (start db) inputs = some w

theorem Reachable.inv {db : SharedDatabase} (h : Reachable hashRosterBody db w) : Inv w := by
  obtain ⟨inputs, hrun⟩ := h
  exact Replay.run_invariant (SetupWorld.step hashRosterBody) (P := Inv)
    (fun hinv hstep => (hinv.step hstep).1) (Inv.start db) hrun

/-- A reveal that was signed answers the commitment of its scope. -/
theorem Inv.signed_reveal (h : Inv w) {entry : SignedSetup P} (hentry : entry ∈ w.signed)
    (hmessage : entry.message = .randReveal) : ∃ secret,
      loadSetupBeaconSecret P w.db entry.receiver.scope = .ok (some secret) ∧
      decodeRandRevealBody entry.envelope.body = .ok secret ∧
      entry.commitment = some (contribution P entry.receiver.scope secret).commitment := by
  have hprepared := (h.signed entry hentry).prepared
  rw [hmessage] at hprepared
  obtain ⟨secret, hload, hcommitment, hcontent⟩ := hprepared
  have hbody : entry.envelope.body = encodeRandRevealBody secret :=
    congrArg EnvelopeContent.body hcontent
  exact ⟨secret, hload, by rw [hbody, decodeRandRevealBody_encode], hcommitment⟩

theorem Inv.signed_commitment (h : Inv w) {entry : SignedSetup P} (hentry : entry ∈ w.signed)
    (hmessage : entry.message = .randCommit) : ∃ secret,
      loadSetupBeaconSecret P w.db entry.receiver.scope = .ok (some secret) ∧
      decodeRandCommitBody entry.envelope.body =
        .ok (contribution P entry.receiver.scope secret).commitment := by
  have hprepared := (h.signed entry hentry).prepared
  rw [hmessage] at hprepared
  obtain ⟨secret, hload, hcontent⟩ := hprepared
  have hbody : entry.envelope.body =
      encodeRandCommitBody (contribution P entry.receiver.scope secret).commitment :=
    congrArg EnvelopeContent.body hcontent
  exact ⟨secret, hload, by rw [hbody, decodeRandCommitBody_encode]⟩

theorem Inv.signed_keyShare (h : Inv w) {entry : SignedSetup P} (hentry : entry ∈ w.signed)
    (hmessage : entry.message = .keyShare) : ∃ secret proof,
      loadGameSecret P w.db entry.receiver.gameId = .ok (some secret) ∧
      entry.envelope.body = encodeGameKeyShareBody P ⟨secret • P.base, proof⟩ := by
  have hprepared := (h.signed entry hentry).prepared
  rw [hmessage] at hprepared
  obtain ⟨secret, proof, hload, hcontent⟩ := hprepared
  exact ⟨secret, proof, hload, congrArg EnvelopeContent.body hcontent⟩

/-- A signed commitment and a signed reveal of one game are made from one secret. -/
theorem Inv.signed_agree (h : Inv w) {commit reveal : SignedSetup P} (hcommit : commit ∈ w.signed)
    (hreveal : reveal ∈ w.signed) (hcommits : commit.message = .randCommit)
    (hreveals : reveal.message = .randReveal)
    (hgame : commit.receiver.gameId = reveal.receiver.gameId) :
    (decodeRandCommitBody commit.envelope.body).toOption = reveal.commitment := by
  obtain ⟨secret, hload, hbody⟩ := h.signed_commitment hcommit hcommits
  obtain ⟨secret', hload', -, hcommitment⟩ := h.signed_reveal hreveal hreveals
  obtain ⟨hscope, rfl⟩ := loadSetupBeaconSecret_inj P hgame hload hload'
  rw [hbody, hcommitment, hscope]
  rfl

end SetupWorld

/-- What is loaded can be restored, for its own commitment only. -/
theorem restoreLocalBeaconContribution_eq_ok {db : SharedDatabase} {scope : SetupBeaconScope}
    {expected : Hash256} {guard : Except SetupSecretError Unit} {made : BeaconContribution} :
    restoreLocalBeaconContribution P db scope expected guard = .ok made ↔ guard = .ok () ∧
      ∃ secret, loadSetupBeaconSecret P db scope = .ok (some secret) ∧
        made = contribution P scope secret ∧ made.commitment = expected := by
  unfold restoreLocalBeaconContribution
  constructor
  · intro h
    obtain ⟨captured, hcaptured, hrest⟩ := bind_eq_ok.1 h
    obtain rfl := snapshotSetupBeaconScope_eq_ok P hcaptured
    obtain ⟨⟨⟩, hguard, hfinish⟩ := bind_eq_ok.1 hrest
    exact ⟨hguard, finishRestore_eq_ok hfinish⟩
  · rintro ⟨rfl, secret, hload, rfl, hmatch⟩
    rw [((loadSetupBeaconSecret_eq P).1 hload).1, ok_bind, ok_bind, hload]
    unfold finishRestore
    rw [ok_bind, ok_bind]
    simp only
    rw [throwIf_neg (not_not.2 hmatch), ok_bind, ok_bind]
    rfl

/-! ## The beacons -/

section Beacons

variable [DecidableEq G]

omit [DecidableEq G] in
/-- The seat of a receiver is the place that its commitments are made for. -/
theorem PersistentSetupReceiver.idxOf_self (receiver : PersistentSetupReceiver P) :
    receiver.scope.roster.idxOf receiver.scope.sender = receiver.seat := by
  have hseat := receiver.self_seat
  unfold Roster.seatOf at hseat
  split at hseat
  · exact Option.some.inj hseat
  · cases hseat

omit [DecidableEq G] in
/-- A beacon in which the seat has a commitment accepts its secret, once it is due. -/
theorem acceptReveal_of_commitment {beacon : RandomnessBeacon} {seat : ℕ} {secret : RandomSecret}
    (hseat : seat < beacon.seatCount)
    (hcommitment : beacon.commitments seat =
      some (P.beaconCommitment beacon.gameId beacon.round seat secret))
    (hstate : beacon.state = .revealing) (hnone : beacon.reveals seat = none) :
    ∃ state next, beacon.acceptReveal P seat secret = .ok (.accepted state, next) ∧
      next.reveals seat = some secret := by
  unfold RandomnessBeacon.acceptReveal RandomnessBeacon.classifyReveal
  rw [assertSeat_of_lt hseat, ok_bind, hnone]
  simp only
  rw [if_neg (not_not.2 hstate), if_neg (not_not.2 hcommitment)]
  exact ⟨_, _, rfl, Function.update_self ..⟩

omit [DecidableEq G] in
/-- A beacon in which the seat has a commitment never says that its secret does not match. -/
theorem classifyReveal_ne_mismatch {beacon : RandomnessBeacon} {seat : ℕ} {secret : RandomSecret}
    (hseat : seat < beacon.seatCount)
    (hcommitment : beacon.commitments seat =
      some (P.beaconCommitment beacon.gameId beacon.round seat secret)) (state : BeaconState) :
    beacon.classifyReveal P seat secret ≠ .ok (.rejected state .commitment_mismatch) := by
  unfold RandomnessBeacon.classifyReveal
  rw [assertSeat_of_lt hseat, ok_bind]
  intro h
  cases hreveals : beacon.reveals seat with
  | some existing =>
      simp only [hreveals] at h
      split at h <;> cases h
  | none =>
      simp only [hreveals] at h
      split at h
      · cases h
      · rw [if_neg (not_not.2 hcommitment)] at h
        cases h

namespace SetupWorld

variable {ed : Ed25519} {w : SetupWorld P ed} {hashRosterBody : RosterBody → Hash256}

/-- The beacon has accepted the commitment of the signer: the one his coordinator has accepted, or
one that was signed for the game. -/
def Committed (w : SetupWorld P ed) (reveal : SignedSetup P) (beacon : RandomnessBeacon) : Prop :=
  beacon.gameId = reveal.receiver.gameId ∧ beacon.round = reveal.receiver.round ∧
  reveal.receiver.seat < beacon.seatCount ∧
  ∃ cm, beacon.commitments reveal.receiver.seat = some cm ∧
    (reveal.commitment = some cm ∨ ∃ commit ∈ w.signed, commit.message = .randCommit ∧
      commit.receiver.gameId = reveal.receiver.gameId ∧
      decodeRandCommitBody commit.envelope.body = .ok cm)

/-- The secret of a signed reveal is the one that the beacon has a commitment for. -/
theorem Inv.committed (h : Inv w) {reveal : SignedSetup P} (hreveal : reveal ∈ w.signed)
    (hmessage : reveal.message = .randReveal) : ∃ secret,
      decodeRandRevealBody reveal.envelope.body = .ok secret ∧
      ∀ beacon, w.Committed reveal beacon → beacon.commitments reveal.receiver.seat = some
        (P.beaconCommitment beacon.gameId beacon.round reveal.receiver.seat secret) := by
  obtain ⟨secret, -, hbody, hcommitment⟩ := h.signed_reveal hreveal hmessage
  refine ⟨secret, hbody, ?_⟩
  rintro beacon ⟨hgame, hround, -, cm, hcm, hsource⟩
  have hsame : reveal.commitment = some cm := by
    rcases hsource with hsame | ⟨commit, hcommit, hcommits, hgames, hdecoded⟩
    · exact hsame
    · rw [← h.signed_agree hcommit hreveal hcommits hmessage hgames, hdecoded]
      rfl
  rw [hcm, ← hsame, hcommitment, hgame, hround]
  unfold contribution
  rw [reveal.receiver.idxOf_self]
  rfl

/-- What holds of the secrets in every state of a run. -/
structure SecretsSurvive (hashRosterBody : RosterBody → Hash256) (w : SetupWorld P ed) : Prop where
  /-- A game has one key secret. -/
  oneGameSecret : ∀ a ∈ w.gameSecrets, ∀ b ∈ w.gameSecrets, a.1 = b.1 → a.2 = b.2
  /-- A game has one beacon secret. -/
  oneBeaconSecret : ∀ a ∈ w.beaconSecrets, ∀ b ∈ w.beaconSecrets, a.1 = b.1 → a.2 = b.2
  /-- The next step changes one field at most and drops none, and it signs for durable secrets. -/
  advance : ∀ input w', SetupWorld.step hashRosterBody w input = some w' → Advance w w'
  /-- A signed key share is the key of the durable secret. -/
  keyShare : ∀ entry ∈ w.signed, entry.message = .keyShare → ∃ secret proof,
    loadGameSecret P w.db entry.envelope.game = .ok (some secret) ∧
    entry.envelope.body = encodeGameKeyShareBody P ⟨secret • P.base, proof⟩
  /-- A signed commitment can be restored. -/
  commitment : ∀ entry ∈ w.signed, entry.message = .randCommit → ∃ cm made,
    decodeRandCommitBody entry.envelope.body = .ok cm ∧
    restoreLocalBeaconContribution P w.db entry.receiver.scope cm (.ok ()) = .ok made
  /-- What is restored is the durable secret, and it matches. -/
  restored : ∀ scope cm guard made,
    restoreLocalBeaconContribution P w.db scope cm guard = .ok made →
      loadSetupBeaconSecret P w.db scope = .ok (some made.secret) ∧ cm =
        P.beaconCommitment scope.gameId scope.round (scope.roster.idxOf scope.sender) made.secret
  /-- A signed reveal never mismatches, and is accepted where it is due. -/
  reveal : ∀ entry ∈ w.signed, entry.message = .randReveal → ∃ secret,
    decodeRandRevealBody entry.envelope.body = .ok secret ∧
    ∀ beacon, w.Committed entry beacon →
      (∀ state, beacon.classifyReveal P entry.receiver.seat secret ≠
        .ok (.rejected state .commitment_mismatch)) ∧
      (beacon.state = .revealing → beacon.reveals entry.receiver.seat = none →
        ∃ state next, beacon.acceptReveal P entry.receiver.seat secret =
          .ok (.accepted state, next) ∧ next.reveals entry.receiver.seat = some secret)

/-- **Setup secrets survive restarts**: over any database and in any run, with operations that are
lost anywhere, rosters and secrets that are written in any order, and tables that change between. -/
theorem setup_secrets_survive (hashRosterBody : RosterBody → Hash256) (db : SharedDatabase)
    (w : SetupWorld P ed) (h : Reachable hashRosterBody db w) :
    SecretsSurvive hashRosterBody w := by
  have hinv := h.inv
  constructor
  case oneGameSecret =>
    intro a ha b hb hgame
    have hload := hinv.gameSecrets a ha
    rw [hgame, hinv.gameSecrets b hb] at hload
    exact (Option.some.inj (Except.ok.inj hload)).symm
  case oneBeaconSecret =>
    intro a ha b hb hgame
    obtain ⟨scope, hscope, hload⟩ := hinv.beaconSecrets a ha
    obtain ⟨scope', hscope', hload'⟩ := hinv.beaconSecrets b hb
    have hgames : scope.gameId = scope'.gameId := by rw [hscope, hscope', hgame]
    exact (loadSetupBeaconSecret_inj P hgames hload hload').2
  case advance =>
    intro input w' hstep
    exact (hinv.step hstep).2
  case keyShare =>
    intro entry hentry hmessage
    obtain ⟨secret, proof, hload, hbody⟩ := hinv.signed_keyShare hentry hmessage
    rw [(hinv.signed entry hentry).game]
    exact ⟨secret, proof, hload, hbody⟩
  case commitment =>
    intro entry hentry hmessage
    obtain ⟨secret, hload, hbody⟩ := hinv.signed_commitment hentry hmessage
    exact ⟨_, _, hbody, restoreLocalBeaconContribution_eq_ok.2 ⟨rfl, secret, hload, rfl, rfl⟩⟩
  case restored =>
    intro scope cm guard made hmade
    obtain ⟨-, secret, hload, rfl, hmatch⟩ := restoreLocalBeaconContribution_eq_ok.1 hmade
    exact ⟨hload, hmatch.symm⟩
  case reveal =>
    intro entry hentry hmessage
    obtain ⟨secret, hbody, hcommitted⟩ := hinv.committed hentry hmessage
    refine ⟨secret, hbody, fun beacon hbeacon => ⟨?_, ?_⟩⟩
    · intro state
      exact classifyReveal_ne_mismatch hbeacon.2.2.1 (hcommitted beacon hbeacon) state
    · intro hstate hnone
      exact acceptReveal_of_commitment hbeacon.2.2.1 (hcommitted beacon hbeacon) hstate hnone

end SetupWorld

end Beacons

end

/-! ## A small table -/

namespace SmallGroup

/-- The first seat of the table. -/
def setupReceiver : PersistentSetupReceiver (primitives fun _ => 0) where
  gameId := game
  round := 1
  roster := roster fun _ => 0
  self := padded 32 [1]
  seat := 0
  self_seat := by decide

/-- An operation of the first seat. -/
def setupOperation (message : SetupMessage) :
    SetupOperation (primitives fun _ => 0) ed25519 where
  receiver := setupReceiver
  author := ⟨game, padded 32 [1]⟩
  message := message
  expected := message.state
  stage := .readingHead
  game_eq := rfl
  sender_eq := rfl

/-- A database without records. -/
def emptyTables : SharedDatabase where
  transcripts := []
  nextArrival := 1
  authoredHeads := fun _ => none
  games := fun _ => none

/-- An envelope of the first seat. -/
def signedBySeat (seq : ℕ) (prev : Hash256) (phase : String) (type : EnvelopeMessageType)
    (body : CborValue) : SignedEnvelope where
  game := game
  from_ := padded 32 [1]
  seq := seq
  prev := prev
  round := 1
  phase := phase
  type := type
  body := body
  sig := zeroBytes 64

/-- The key share that it signs, with the secret 1 and the nonce 1. -/
def signedKey : SignedEnvelope := signedBySeat 0 ZERO_HASH "setup.keys" .KEY_SHARE
  (encodeGameKeyShareBody (primitives fun _ => 0) ⟨1, ⟨1, 1 + 1⟩⟩)

/-- The commitment of the first seat. -/
def ownCommitment : Hash256 := (primitives fun _ => 0).beaconCommitment game 1 0 (secret 0)

def signedCommitment : SignedEnvelope :=
  signedBySeat 1 ((primitives fun _ => 0).hashEnvelope signedKey) "setup.rand" .RAND_COMMIT
    (encodeRandCommitBody ownCommitment)

/-- What all seats contribute: their keys and then their commitments. -/
def contributed : List (SetupCall 41 (ZMod 41)) :=
  .accept 0 (.keyShare ⟨1, ⟨1, 1 + 1⟩⟩) ::
  ([1, 2].map fun seat => .accept seat (.keyShare (keyShare seat))) ++
  ([0, 1, 2].map fun seat => .accept seat (.commitment
    ((primitives fun _ => 0).beaconCommitment game 1 seat (secret seat))))

/-- What the receiver has accepted, and the log of its own seat. -/
def setupReading (accepted : ℕ) (log : List SignedEnvelope) :
    SetupReading (primitives fun _ => 0) where
  failed := false
  closed := false
  coordinator := ⟨game, 1, roster fun _ => 0, true,
    started.run (primitives fun _ => 0) (contributed.take accepted)⟩
  session := (SessionChainRegistry.start game (roster fun _ => 0)).ingestAll log

/-- An operation up to its store. -/
def preparing (id : ℕ) (message : SetupMessage) (reading : SetupReading (primitives fun _ => 0))
    (head : Option SignedEnvelope) (drawn : RandomSecret) :
    List (SetupInput (primitives fun _ => 0) ed25519) :=
  [.start id (setupOperation message) reading, .head id reading (some head),
    .transact id reading [1] drawn true]

/-- The rest of it. -/
def signing (id : ℕ) (reading : SetupReading (primitives fun _ => 0)) :
    List (SetupInput (primitives fun _ => 0) ed25519) :=
  [.resume id reading [1], .sign id reading true]

/-- The first seat shares its key, is lost once its secret has been stored, and then commits to that
secret and reveals it. -/
def restarted : List (SetupInput (primitives fun _ => 0) ed25519) :=
  let ready := setupReading 0 []
  let shared := setupReading 3 [signedKey]
  let committed := setupReading 6 [signedKey, signedCommitment]
  preparing 0 .keyShare ready none (secret 0) ++ signing 0 ready ++
  preparing 1 .randCommit shared (some signedKey) (secret 0) ++ [.crash 1] ++
  preparing 2 .randCommit shared (some signedKey) (secret 1) ++ signing 2 shared ++
  preparing 3 .randReveal committed (some signedCommitment) (secret 1) ++ signing 3 committed

theorem restarted_signs :
    ((Replay.run (SetupWorld.step fun _ => ZERO_HASH) (SetupWorld.start emptyTables) restarted).map
      fun w => w.signed.map fun entry => (entry.message, entry.envelope.body)) = some [
        (.keyShare, signedKey.body), (.randCommit, encodeRandCommitBody ownCommitment),
        (.randReveal, encodeRandRevealBody (secret 0))] := by
  decide +kernel

theorem restarted_reaches : ∃ w : SetupWorld (primitives fun _ => 0) ed25519,
    SetupWorld.Reachable (fun _ => ZERO_HASH) emptyTables w ∧
    (∃ commit ∈ w.signed, commit.message = .randCommit ∧
      commit.envelope.body = encodeRandCommitBody ownCommitment) ∧
    ∃ reveal ∈ w.signed, reveal.message = .randReveal ∧
      reveal.envelope.body = encodeRandRevealBody (secret 0) := by
  obtain ⟨w, hrun, hsigned⟩ := Option.map_eq_some_iff.1 restarted_signs
  have hmem {message : SetupMessage} {body : CborValue} (h : (message, body) ∈ w.signed.map
      fun entry => (entry.message, entry.envelope.body)) :
      ∃ entry ∈ w.signed, entry.message = message ∧ entry.envelope.body = body := by
    obtain ⟨entry, hentry, heq⟩ := List.mem_map.1 h
    exact ⟨entry, hentry, congrArg Prod.fst heq, congrArg Prod.snd heq⟩
  rw [hsigned] at hmem
  exact ⟨w, ⟨restarted, hrun⟩, hmem (by simp), hmem (by simp)⟩

end SmallGroup

open SmallGroup in
theorem setup_secrets_survive_small : ∃ w : SetupWorld (primitives fun _ => 0) ed25519,
    w.signed ≠ [] ∧ SetupWorld.SecretsSurvive (fun _ => ZERO_HASH) w := by
  obtain ⟨w, hreachable, -, reveal, hreveal, -⟩ := restarted_reaches
  exact ⟨w, List.ne_nil_of_mem hreveal,
    SetupWorld.setup_secrets_survive (fun _ => ZERO_HASH) emptyTables w hreachable⟩

open SmallGroup in
/-- A beacon that has accepted the commitment, and still waits for others, rejects the reveal that
was authored after a restart. -/
theorem early_reveal_rejected : ∃ w : SetupWorld (primitives fun _ => 0) ed25519,
    SetupWorld.Reachable (fun _ => ZERO_HASH) emptyTables w ∧
    ∃ commit ∈ w.signed, ∃ reveal ∈ w.signed,
      commit.message = .randCommit ∧ reveal.message = .randReveal ∧ ∃ cm revealed beacon,
      decodeRandCommitBody commit.envelope.body = .ok cm ∧
      decodeRandRevealBody reveal.envelope.body = .ok revealed ∧
      (RandomnessBeacon.start game 1 3).acceptCommitment 0 cm =
        .ok (.accepted .committing, beacon) ∧
      beacon.acceptReveal (primitives fun _ => 0) 0 revealed =
        .ok (.rejected .committing .unexpected_reveal, beacon) := by
  obtain ⟨w, hreachable, ⟨commit, hcommit, hcommits, hcm⟩, reveal, hreveal, hreveals, hrevealed⟩ :=
    restarted_reaches
  refine ⟨w, hreachable, commit, hcommit, reveal, hreveal, hcommits, hreveals, ownCommitment,
    secret 0, _, ?_, ?_, rfl, rfl⟩
  · rw [hcm, decodeRandCommitBody_encode]
  · rw [hrevealed, decodeRandRevealBody_encode]

end Tablefolk
