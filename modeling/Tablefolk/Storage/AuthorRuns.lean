import Tablefolk.Session.SmallGroup
import Tablefolk.Storage.AuthoredLog

/-!
# Authors that share a database

Instances of `PersistentEnvelopeAuthor` in several tabs, each with its queue of calls, over
one database, mixed with accepted envelopes of other senders and with crashes.  Transactions
are atomic and run one after the other.

* `AuthorInvariant`: the durable envelopes of a game and sender are a linked log, the durable
  head is its last envelope, and what calls return is in it.
* `AuthorInvariant.step`: every event keeps it.
* `author_never_equivocates`: what that says of every run.
-/

namespace Tablefolk

/-- A call of `author`: the content it has copied, its guard, and what it will return once its
transaction is over. -/
structure AuthorCall where
  content : EnvelopeContent
  beforeSign : Option BeforeSign
  result : Option (Except AuthorError SignedEnvelope)

/-- An instance of `PersistentEnvelopeAuthor` in a tab, with the calls on its promise chain. -/
structure AuthorInstance (ed : Ed25519) where
  tab : ℕ
  author : PersistentEnvelopeAuthor ed
  calls : List AuthorCall

/-- What became of the transaction of a call. -/
structure AuthorReport where
  result : Except AuthorError SignedEnvelope
  before : Database
  after : Database
  signed : List SignedEnvelope

/-- The database, the instances that run, the envelopes that calls have returned, and a report
of every transaction of a call. -/
structure AuthorWorld (ed : Ed25519) where
  db : Database
  instances : ℕ → Option (AuthorInstance ed)
  returned : List SignedEnvelope
  reports : List AuthorReport

/-- An event: an instance is made; `author` is called; the transaction of the first call of an
instance runs; that call returns; an accepted envelope is persisted; a tab crashes. -/
inductive AuthorEvent (ed : Ed25519) where
  | create (id tab : ℕ) (author : PersistentEnvelopeAuthor ed)
  | author (id : ℕ) (content : EnvelopeContent) (beforeSign : Option BeforeSign)
  | transaction (id : ℕ) (committed : Bool)
  | settle (id : ℕ)
  | persistAccepted (received : SignedEnvelope) (committed : Bool)
  | crash (tab : ℕ)

section

variable {q : ℕ} {G : Type} [AddCommGroup G] [Module (ZMod q) G] (P : Primitives q G)
  {ed : Ed25519}

namespace AuthorWorld

/-- A new database and no instance. -/
def start : AuthorWorld ed := ⟨.start, fun _ => none, [], []⟩

/-- One event; one that cannot happen now changes nothing. -/
def step (w : AuthorWorld ed) : AuthorEvent ed → AuthorWorld ed
  | .create id tab author =>
      match w.instances id with
      | some _ => w
      | none => { w with instances := Function.update w.instances id (some ⟨tab, author, []⟩) }
  | .author id content beforeSign =>
      match w.instances id, snapshotContent content with
      | some inst, .ok snapshot =>
          let calls := inst.calls ++ [⟨snapshot, beforeSign, none⟩]
          { w with instances := Function.update w.instances id (some { inst with calls }) }
      | _, _ => w
  | .transaction id committed =>
      match w.instances id with
      | some ⟨tab, author, ⟨content, beforeSign, none⟩ :: rest⟩ =>
          let outcome := author.authorAndPersist P w.db content beforeSign committed
          { w with
            db := outcome.2.1
            instances := Function.update w.instances id
              (some ⟨tab, author, ⟨content, beforeSign, some outcome.1⟩ :: rest⟩)
            reports := w.reports ++ [⟨outcome.1, w.db, outcome.2.1, outcome.2.2.signed⟩] }
      | _ => w
  | .settle id =>
      match w.instances id with
      | some ⟨tab, author, ⟨_, _, some result⟩ :: rest⟩ =>
          { w with
            instances := Function.update w.instances id (some ⟨tab, author, rest⟩)
            returned := w.returned ++ result.toOption.toList }
      | _ => w
  | .persistAccepted received committed =>
      match persistAcceptedEnvelope ed w.db received committed with
      | .ok (_, db) => { w with db }
      | .error _ => w
  | .crash tab => { w with instances := fun id => (w.instances id).filter fun inst => inst.tab ≠ tab }

/-- One event after another. -/
def run (w : AuthorWorld ed) (events : List (AuthorEvent ed)) : AuthorWorld ed :=
  events.foldl (step P) w

/-- The envelopes of a game and sender that are durable, as they were stored. -/
def log (w : AuthorWorld ed) (game : GameId) (sender : IdentityPublicKey) : List SignedEnvelope :=
  (w.db.rowsOf game sender).map StoredTranscriptEnvelope.bytes

end AuthorWorld

open AuthorWorld

/-- The accepted envelopes that are persisted on the way are of another game or sender, or
they are durable already. -/
def Mixed (game : GameId) (sender : IdentityPublicKey) (w : AuthorWorld ed) :
    List (AuthorEvent ed) → Prop
  | [] => True
  | event :: rest =>
      (∀ received committed, event = .persistAccepted received committed →
        ¬ (received.game = game ∧ received.from_ = sender) ∨ received ∈ w.log game sender) ∧
      Mixed game sender (w.step P event) rest

/-! ## The invariant -/

/-- The rows of a game and sender are those of `log`, which is linked and ends in the head. -/
structure AuthoredLog (game : GameId) (sender : IdentityPublicKey) (ed : Ed25519) (db : Database)
    (log : List SignedEnvelope) : Prop where
  rows : (db.rowsOf game sender).map StoredTranscriptEnvelope.bytes = log
  metadata : ∀ row ∈ db.rowsOf game sender, row.seq = row.bytes.seq ∧ row.authored = true
  head : db.authoredHeads (game, sender) = log.getLast?.map fun e => ⟨game, sender, e⟩
  linked : Linked P sender log
  scope : ∀ e ∈ log, e.game = game
  artifact : ∀ e ∈ log, e.Artifact ed ∧ e.byteLength ≤ MAX_AUTHORED_HISTORY_PAGE_BYTES

/-- The database holds a log of the game and sender, and what calls have returned or will
return is in it. -/
structure AuthorInvariant (game : GameId) (sender : IdentityPublicKey) (w : AuthorWorld ed)
    (log : List SignedEnvelope) : Prop where
  durable : AuthoredLog P game sender ed w.db log
  pending : ∀ id inst call e, w.instances id = some inst → call ∈ inst.calls →
    call.result = some (.ok e) → e.game = game → e.from_ = sender → e ∈ log
  returned : ∀ e ∈ w.returned, e.game = game → e.from_ = sender → e ∈ log
  reports : ∀ report ∈ w.reports, report.signed.length ≤ 1 ∧
    ((∃ error, report.result = .error error) → report.after = report.before)

variable {P} {game : GameId} {sender : IdentityPublicKey} {w : AuthorWorld ed}
  {db next : Database} {log : List SignedEnvelope} {e : SignedEnvelope}

theorem start_invariant (P : Primitives q G) (game : GameId) (sender : IdentityPublicKey) :
    AuthorInvariant P game sender (.start : AuthorWorld ed) [] where
  durable := ⟨rfl, by simp [AuthorWorld.start, Database.start, Database.rowsOf], rfl, linked_nil,
    by simp, by simp⟩
  pending := by simp [AuthorWorld.start]
  returned := by simp [AuthorWorld.start]
  reports := by simp [AuthorWorld.start]

/-- The row with the greatest sequence number is the last one of a linked log. -/
theorem argmax_rows {rows : List StoredTranscriptEnvelope}
    (hseq : ∀ row ∈ rows, row.seq = row.bytes.seq)
    (hlinked : Linked P sender (rows.map StoredTranscriptEnvelope.bytes)) :
    rows.argmax StoredTranscriptEnvelope.seq = rows.getLast? := by
  induction rows using List.reverseRecOn with
  | nil => rfl
  | append_singleton rows last ih =>
      rw [List.map_append, List.map_singleton, linked_snoc] at hlinked
      obtain ⟨hbefore, -, hlast, -⟩ := hlinked
      rw [List.argmax_concat, ih (fun row hrow => hseq row (by simp [hrow])) hbefore,
        List.getLast?_append_of_ne_nil _ (by simp), List.getLast?_singleton]
      rcases List.eq_nil_or_concat rows with rfl | ⟨init, before, rfl⟩
      · rfl
      · have hlt : before.seq < last.seq := by
          rw [hseq last (by simp), hlast, hseq before (by simp)]
          have hplace : before.bytes.seq = (init.map StoredTranscriptEnvelope.bytes).length := by
            simp only [List.concat_eq_append, List.map_append, List.map_singleton] at hbefore
            exact (linked_snoc.1 hbefore).2.2.1
          rw [hplace]
          simp
        rw [List.concat_eq_append, List.getLast?_append_of_ne_nil _ (by simp),
          List.getLast?_singleton]
        simp only
        rw [if_pos hlt]

namespace AuthoredLog

variable (h : AuthoredLog P game sender ed db log)
include h

theorem length_rows : (db.rowsOf game sender).length = log.length := by
  rw [← h.rows, List.length_map]

theorem decodeHead : decodeStoredHead ed (db.authoredHeads (game, sender)) game sender
    = .ok log.getLast? := by
  rw [h.head]
  cases hlast : log.getLast? with
  | none => rfl
  | some e =>
      have hmem := List.mem_of_getLast? hlast
      obtain ⟨hartifact, hsize⟩ := h.artifact e hmem
      have hgame := h.scope e hmem
      obtain ⟨seq, hseq⟩ := List.mem_iff_getElem?.1 hmem
      have hfrom := (h.linked.getElem? hseq).1
      simp only [Option.map_some, decodeStoredHead]
      rw [throwIf_neg (by omega), ok_bind, verifyArtifact_of_artifact hartifact]
      simp [Except.mapError, hgame, hfrom, throwIf_neg]

/-- The check of the checkpoint passes as long as the log has at most `MAX_SAFE_INTEGER`
envelopes, and never after. -/
theorem withCheckpoint : withCheckpoint ed db game sender =
    if log.length ≤ MAX_SAFE_INTEGER then .ok log.getLast?
    else .error (.store "Authored checkpoint and transcript disagree; recovery is required") := by
  have hrows : ∀ row ∈ db.rowsOf game sender, row.seq = row.bytes.seq :=
    fun row hrow => (h.metadata row hrow).1
  have hlinked := h.linked
  rw [← h.rows] at hlinked
  unfold Tablefolk.withCheckpoint
  simp only
  rw [h.decodeHead, ok_bind, argmax_rows hrows hlinked, h.length_rows]
  rcases List.eq_nil_or_concat (db.rowsOf game sender) with hnil | ⟨init, row, hsnoc⟩
  · have hlog : log = [] := by rw [← h.rows, hnil]; rfl
    rw [hnil, hlog]
    rfl
  · rw [List.concat_eq_append] at hsnoc
    have hrow : row ∈ db.rowsOf game sender := by simp [hsnoc]
    have hscope : row.game = game ∧ row.sender = sender := by
      have := (List.mem_filter.1 hrow).2
      simpa using this
    obtain ⟨hseq, hauthored⟩ := h.metadata row hrow
    have hlog : log = init.map StoredTranscriptEnvelope.bytes ++ [row.bytes] := by
      rw [← h.rows, hsnoc, List.map_append, List.map_singleton]
    have hlast : log.getLast? = some row.bytes := by rw [hlog]; simp
    have hlen : row.bytes.seq + 1 = log.length := by
      have hl := h.linked
      rw [hlog, linked_snoc] at hl
      rw [hlog, hl.2.2.1]
      simp
    have hprev : row.bytes.seq = 0 → row.bytes.prev = ZERO_HASH := by
      intro hzero
      have hl := h.linked
      rw [hlog, linked_snoc] at hl
      obtain ⟨-, -, hplace, hprev⟩ := hl
      rw [hzero] at hplace
      rw [hprev, List.length_eq_zero_iff.1 hplace.symm]
      rfl
    rw [hlast, hsnoc, List.getLast?_append_of_ne_nil _ (by simp), List.getLast?_singleton]
    have hsafe := ((h.artifact row.bytes (by rw [hlog]; simp)).1).seq_le
    unfold validateCheckpoint decodeRecordMetadata
    simp only
    rw [throwIf_neg (by rw [hseq, hauthored]; simp [hscope]; omega)]
    by_cases hle : log.length ≤ MAX_SAFE_INTEGER
    · rw [if_pos hle]
      simp only [ok_bind, except_pure_eq]
      rw [throwIf_neg]
      · rfl
      · rintro (hbad | hbad | hbad | hbad | hbad | ⟨hzero, hbad⟩)
        · omega
        · omega
        · omega
        · exact hbad hseq
        · exact hbad rfl
        · exact hbad (hprev hzero)
    · rw [if_neg hle]
      simp only [ok_bind, except_pure_eq]
      rw [throwIf_pos (.inl (by omega))]
      rfl

/-- A database with the same rows and head of the scope holds the same log. -/
theorem congr_db (hrows : next.rowsOf game sender = db.rowsOf game sender)
    (hhead : next.authoredHeads (game, sender) = db.authoredHeads (game, sender)) :
    AuthoredLog P game sender ed next log :=
  ⟨by rw [hrows]; exact h.rows, by rw [hrows]; exact h.metadata, by rw [hhead]; exact h.head,
    h.linked, h.scope, h.artifact⟩

/-- What a call appends continues the log of its own scope. -/
theorem append {author : PersistentEnvelopeAuthor ed} (hscope : author.gameId = game ∧
    author.sender = sender) (happends : author.Appends db next e P) :
    AuthoredLog P game sender ed next (log ++ [e]) := by
  obtain ⟨rfl, rfl⟩ := hscope
  obtain ⟨⟨head, hcheck, hfollows⟩, between, hadd, rfl⟩ := happends
  rw [h.withCheckpoint] at hcheck
  split_ifs at hcheck with hle
  cases hcheck
  have hrows : between.rowsOf author.gameId author.sender =
      db.rowsOf author.gameId author.sender ++
        [⟨db.nextArrival, author.gameId, author.sender, e.seq, e, true⟩] := by
    rw [Database.rowsOf_add hadd, if_pos ⟨rfl, rfl⟩]
  have hseq : e.seq = log.length := by
    rw [hfollows.seq]
    rcases List.eq_nil_or_concat log with rfl | ⟨init, last, rfl⟩
    · rfl
    · rw [List.concat_eq_append, List.getLast?_append_of_ne_nil _ (by simp),
        List.getLast?_singleton]
      have hl := h.linked
      rw [List.concat_eq_append, linked_snoc] at hl
      simp only [hl.2.2.1, List.length_append, List.length_singleton]
  constructor
  · rw [Database.rowsOf_putHead, hrows, List.map_append, h.rows]
    rfl
  · rw [Database.rowsOf_putHead, hrows]
    intro row hrow
    rcases List.mem_append.1 hrow with hrow | hrow
    · exact h.metadata row hrow
    · obtain rfl := List.mem_singleton.1 hrow
      exact ⟨rfl, rfl⟩
  · simp [Database.putHead]
  · exact linked_snoc.2 ⟨h.linked, hfollows.from_, hseq, hfollows.prev⟩
  · intro e' he'
    rcases List.mem_append.1 he' with he' | he'
    · exact h.scope e' he'
    · obtain rfl := List.mem_singleton.1 he'
      exact hfollows.game
  · intro e' he'
    rcases List.mem_append.1 he' with he' | he'
    · exact h.artifact e' he'
    · obtain rfl := List.mem_singleton.1 he'
      exact ⟨hfollows.artifact, hfollows.size⟩

/-- What a call of another scope appends is not seen. -/
theorem append_other {author : PersistentEnvelopeAuthor ed} (hscope : ¬ (author.gameId = game ∧
    author.sender = sender)) (happends : author.Appends db next e P) :
    AuthoredLog P game sender ed next log := by
  obtain ⟨-, between, hadd, rfl⟩ := happends
  apply h.congr_db
  · rw [Database.rowsOf_putHead, Database.rowsOf_add hadd, if_neg hscope]
  · have hne : (game, sender) ≠ (author.gameId, author.sender) := by
      intro heq
      rw [Prod.mk.injEq] at heq
      exact hscope ⟨heq.1.symm, heq.2.symm⟩
    simp only [Database.putHead]
    rw [Function.update_of_ne hne, Database.authoredHeads_add hadd]

/-- Persisting an accepted envelope of another scope, or one that is durable already, leaves
the log as it is. -/
theorem persist {received : SignedEnvelope} {committed : Bool} {result : AcceptedPersistence}
    (hreceived : ¬ (received.game = game ∧ received.from_ = sender) ∨ received ∈ log)
    (hpersist : persistAcceptedEnvelope ed db received committed = .ok (result, next)) :
    AuthoredLog P game sender ed next log := by
  obtain rfl | ⟨hnone, hadd⟩ := persistAcceptedEnvelope_cases hpersist
  · exact h
  · rcases hreceived with hother | hmem
    · apply h.congr_db
      · rw [Database.rowsOf_add hadd, if_neg hother]
      · rw [Database.authoredHeads_add hadd]
    · rw [← h.rows] at hmem
      obtain ⟨row, hrow, rfl⟩ := List.mem_map.1 hmem
      have hmeta := (List.mem_filter.1 hrow).2
      have hseq := (h.metadata row hrow).1
      have hin : row.bytes ∈ log := h.rows ▸ hmem
      obtain ⟨place, hplace⟩ := List.mem_iff_getElem?.1 hin
      refine absurd ?_ (hnone row (List.mem_filter.1 hrow).1)
      simp only [Bool.decide_and, Bool.and_eq_true, decide_eq_true_eq] at hmeta
      exact ⟨hmeta.1.trans (h.scope _ hin).symm, hmeta.2.trans (h.linked.getElem? hplace).1.symm,
        hseq⟩

end AuthoredLog

/-- The transaction of a call: the log grows by the envelope that the call will return, if it
is of this scope, and a call that throws changes nothing. -/
theorem AuthoredLog.transaction (h : AuthoredLog P game sender ed db log)
    (author : PersistentEnvelopeAuthor ed) (content : EnvelopeContent)
    (beforeSign : Option BeforeSign) (committed : Bool)
    {outcome : Except AuthorError SignedEnvelope × Database × AuthorLocals}
    (houtcome : author.authorAndPersist P db content beforeSign committed = outcome) :
    ∃ log', log <+: log' ∧ AuthoredLog P game sender ed outcome.2.1 log' ∧
      (∀ e, outcome.1 = .ok e → e.game = game → e.from_ = sender → e ∈ log') ∧
      ((∃ error, outcome.1 = .error error) → outcome.2.1 = db) := by
  have hcases := author.authorAndPersist_cases P db content beforeSign committed
  rw [houtcome] at hcases
  obtain ⟨error, herror, hdb⟩ | ⟨e, hok, happends⟩ := hcases
  · refine ⟨log, List.prefix_rfl, by rw [hdb]; exact h, ?_, fun _ => hdb⟩
    intro e he
    rw [herror] at he
    cases he
  · by_cases hscope : author.gameId = game ∧ author.sender = sender
    · refine ⟨log ++ [e], List.prefix_append _ _, h.append hscope happends, ?_, ?_⟩
      · intro e' he' _ _
        rw [hok] at he'
        cases he'
        simp
      · rintro ⟨error, herror⟩
        rw [hok] at herror
        cases herror
    · refine ⟨log, List.prefix_rfl, h.append_other hscope happends, ?_, ?_⟩
      · intro e' he' hgame hfrom
        rw [hok] at he'
        cases he'
        obtain ⟨⟨head, -, hfollows⟩, -⟩ := happends
        exact absurd ⟨hfollows.game.symm.trans hgame, hfollows.from_.symm.trans hfrom⟩ hscope
      · rintro ⟨error, herror⟩
        rw [hok] at herror
        cases herror

/-! ## Runs -/

namespace AuthorInvariant

variable (h : AuthorInvariant P game sender w log)
include h

/-- The calls of an instance that has changed are in the log as well. -/
theorem pending_update {log' : List SignedEnvelope} (hpre : log <+: log') (id : ℕ)
    {inst : AuthorInstance ed} (hcalls : ∀ call ∈ inst.calls, ∀ e, call.result = some (.ok e) →
      e.game = game → e.from_ = sender → e ∈ log') :
    ∀ id' inst' call e, Function.update w.instances id (some inst) id' = some inst' →
      call ∈ inst'.calls → call.result = some (.ok e) → e.game = game → e.from_ = sender →
      e ∈ log' := by
  intro id' inst' call e hinst hcall hresult hgame hfrom
  by_cases hid : id' = id
  · subst hid
    rw [Function.update_self] at hinst
    cases hinst
    exact hcalls call hcall e hresult hgame hfrom
  · rw [Function.update_of_ne hid] at hinst
    exact hpre.subset (h.pending id' inst' call e hinst hcall hresult hgame hfrom)

/-- **Every event keeps the invariant**, and the log only grows. -/
theorem step {event : AuthorEvent ed} (hmixed : ∀ received committed,
    event = .persistAccepted received committed →
      ¬ (received.game = game ∧ received.from_ = sender) ∨ received ∈ w.log game sender) :
    ∃ log', log <+: log' ∧ AuthorInvariant P game sender (w.step P event) log' := by
  have hsame : ∃ log', log <+: log' ∧ AuthorInvariant P game sender w log' :=
    ⟨log, List.prefix_rfl, h⟩
  unfold AuthorWorld.step
  cases event with
  | create id tab author =>
      simp only
      split
      · exact hsame
      · exact ⟨log, List.prefix_rfl, h.durable,
          h.pending_update List.prefix_rfl id (by simp), h.returned, h.reports⟩
  | author id content beforeSign =>
      simp only
      split
      · rename_i inst snapshot hinst _
        refine ⟨log, List.prefix_rfl, h.durable,
          h.pending_update List.prefix_rfl id ?_, h.returned, h.reports⟩
        intro call hcall e hresult hgame hfrom
        rcases List.mem_append.1 hcall with hcall | hcall
        · exact h.pending id inst call e hinst hcall hresult hgame hfrom
        · obtain rfl := List.mem_singleton.1 hcall
          cases hresult
      · exact hsame
  | transaction id committed =>
      simp only
      split
      · rename_i tab author content beforeSign rest hinst
        obtain ⟨log', hpre, hdurable, hok, herror⟩ :=
          h.durable.transaction author content beforeSign committed rfl
        refine ⟨log', hpre, hdurable, h.pending_update hpre id ?_, ?_, ?_⟩
        · intro call hcall e hresult hgame hfrom
          rcases List.mem_cons.1 hcall with rfl | hcall
          · exact hok e (Option.some.inj hresult) hgame hfrom
          · exact hpre.subset (h.pending id _ call e hinst (List.mem_cons_of_mem _ hcall)
              hresult hgame hfrom)
        · intro e he hgame hfrom
          exact hpre.subset (h.returned e he hgame hfrom)
        · intro report hreport
          rcases List.mem_append.1 hreport with hreport | hreport
          · exact h.reports report hreport
          · obtain rfl := List.mem_singleton.1 hreport
            exact ⟨author.authorAndPersist_signed P w.db content beforeSign committed, herror⟩
      · exact hsame
  | settle id =>
      simp only
      split
      · rename_i tab author content beforeSign result rest hinst
        refine ⟨log, List.prefix_rfl, h.durable, h.pending_update List.prefix_rfl id ?_, ?_,
          h.reports⟩
        · intro call hcall e hresult hgame hfrom
          exact h.pending id _ call e hinst (List.mem_cons_of_mem _ hcall) hresult hgame hfrom
        · intro e he hgame hfrom
          rcases List.mem_append.1 he with he | he
          · exact h.returned e he hgame hfrom
          · have hresult : result = .ok e := by
              cases result with
              | error error => simp [Except.toOption] at he
              | ok returned =>
                  simp only [Except.toOption, Option.toList_some, List.mem_singleton] at he
                  rw [he]
            exact h.pending id _ ⟨content, beforeSign, some result⟩ e hinst (by simp)
              (by rw [hresult]) hgame hfrom
      · exact hsame
  | persistAccepted received committed =>
      simp only
      have hreceived := hmixed received committed rfl
      rw [AuthorWorld.log, h.durable.rows] at hreceived
      split
      · rename_i result db hpersist
        exact ⟨log, List.prefix_rfl, h.durable.persist hreceived hpersist, h.pending, h.returned,
          h.reports⟩
      · exact hsame
  | crash tab =>
      refine ⟨log, List.prefix_rfl, h.durable, ?_, h.returned, h.reports⟩
      intro id inst call e hinst
      exact h.pending id inst call e (Option.filter_eq_some_iff.1 hinst).1

end AuthorInvariant

theorem run_invariant_author {w : AuthorWorld ed} {events : List (AuthorEvent ed)}
    (h : AuthorInvariant P game sender w log) (hmixed : Mixed P game sender w events) :
    ∃ log', log <+: log' ∧ AuthorInvariant P game sender (w.run P events) log' := by
  induction events generalizing w log with
  | nil => exact ⟨log, List.prefix_rfl, h⟩
  | cons event rest ih =>
      obtain ⟨hevent, hrest⟩ := hmixed
      obtain ⟨log', hpre, hstep⟩ := h.step hevent
      obtain ⟨log'', hpre', hrun⟩ := ih hstep hrest
      exact ⟨log'', hpre.trans hpre', hrun⟩

/-- **An author never equivocates.**  Over every run of instances in any tabs, with accepted
envelopes of others, aborted transactions, guards and callbacks that fail, and crashes: the
durable envelopes of a game and sender are linked from sequence number 0 on and end in the
durable head; every envelope that a call returned is one of them, so no two of one place
differ; a call that throws has left the database as it was; a call signs one envelope at most,
however often the store invokes its callback; and the check of the checkpoint passes as long
as the log has at most `MAX_SAFE_INTEGER` envelopes. -/
theorem author_never_equivocates (P : Primitives q G) (ed : Ed25519) (game : GameId)
    (sender : IdentityPublicKey) (events : List (AuthorEvent ed))
    (hmixed : Mixed P game sender .start events) (w : AuthorWorld ed)
    (hrun : w = AuthorWorld.start.run P events) :
    Linked P sender (w.log game sender) ∧
    w.db.authoredHeads (game, sender) =
      (w.log game sender).getLast?.map (fun e => ⟨game, sender, e⟩) ∧
    (∀ e ∈ w.returned, e.game = game → e.from_ = sender → e ∈ w.log game sender) ∧
    (∀ e ∈ w.returned, ∀ e' ∈ w.returned, e.game = game → e.from_ = sender → e'.game = game →
      e'.from_ = sender → e.seq = e'.seq → e = e') ∧
    (∀ report ∈ w.reports, report.signed.length ≤ 1 ∧
      ((∃ error, report.result = .error error) → report.after = report.before)) ∧
    (∀ (author : PersistentEnvelopeAuthor ed) content beforeSign
        (heads : List (Option SignedEnvelope)),
      (heads.foldl (fun locals head => (author.create P content beforeSign locals head).2)
        AuthorLocals.start).signed.length ≤ 1) ∧
    ((w.log game sender).length ≤ MAX_SAFE_INTEGER →
      withCheckpoint ed w.db game sender = .ok (w.log game sender).getLast?) := by
  obtain ⟨log, -, h⟩ := run_invariant_author (start_invariant P game sender) hmixed
  rw [← hrun] at h
  have hlog : w.log game sender = log := h.durable.rows
  rw [hlog]
  refine ⟨h.durable.linked, h.durable.head, h.returned, ?_, h.reports, ?_, ?_⟩
  · intro e he e' he' hgame hfrom hgame' hfrom' hseq
    obtain ⟨place, hplace⟩ := List.mem_iff_getElem?.1 (h.returned e he hgame hfrom)
    obtain ⟨place', hplace'⟩ := List.mem_iff_getElem?.1 (h.returned e' he' hgame' hfrom')
    have hat := (h.durable.linked.getElem? hplace).2.1
    have hat' := (h.durable.linked.getElem? hplace').2.1
    rw [← hat, hseq, hat', hplace'] at hplace
    exact (Option.some.inj hplace).symm
  · intro author content beforeSign heads
    exact author.signed_length_le heads
  · intro hle
    rw [h.durable.withCheckpoint, if_pos hle]

/-! ## How far a log can grow -/

theorem byteLength_pos (e : SignedEnvelope) : 1 ≤ e.byteLength := by
  unfold SignedEnvelope.byteLength SignedEnvelope.value
  rw [encodedLength_cborMap]
  unfold headLength
  split_ifs <;> omega

/-- A call whose content can be signed appends to a log that has room. -/
theorem AuthoredLog.author_succeeds (h : AuthoredLog P game sender ed db log)
    {author : PersistentEnvelopeAuthor ed} (hscope : author.gameId = game ∧ author.sender = sender)
    {content : EnvelopeContent} (hphase : content.phase ≠ "" ∧ content.phase.utf8ByteSize ≤ 200)
    (hround : content.round ≤ MAX_SAFE_INTEGER)
    (hbody : content.body.FitsAt 1 ∧ content.body.encodedLength ≤ 60000)
    (hread : content.body.readDepth + 1 ≤ MAX_CBOR_NESTING_DEPTH)
    (hroom : log.length ≤ MAX_SAFE_INTEGER) (harrival : db.nextArrival ≤ 2 ^ 53) :
    ∃ e, (author.authorAndPersist P db content none true).1 = .ok e ∧
      (author.authorAndPersist P db content none true).2.1.nextArrival = db.nextArrival + 1 ∧
      AuthoredLog P game sender ed (author.authorAndPersist P db content none true).2.1
        (log ++ [e]) := by
  obtain ⟨rfl, rfl⟩ := hscope
  have hcheck := h.withCheckpoint
  rw [if_pos hroom] at hcheck
  have hlast : ∀ before, log.getLast? = some before → before.seq + 1 = log.length := by
    intro before hbefore
    rcases List.eq_nil_or_concat log with rfl | ⟨init, last, rfl⟩
    · cases hbefore
    · have hl := h.linked
      rw [List.concat_eq_append, linked_snoc] at hl
      rw [List.concat_eq_append, List.getLast?_append_of_ne_nil _ (by simp),
        List.getLast?_singleton] at hbefore
      cases hbefore
      simp [hl.2.2.1]
  have hstored : author.validateStoredHead log.getLast? = .ok log.getLast? := by
    unfold PersistentEnvelopeAuthor.validateStoredHead
    cases hhead : log.getLast? with
    | none => rfl
    | some before =>
        have hmem := List.mem_of_getLast? hhead
        obtain ⟨hartifact, hsize⟩ := h.artifact before hmem
        obtain ⟨place, hplace⟩ := List.mem_iff_getElem?.1 hmem
        have hfrom := (h.linked.getElem? hplace).1
        have hpos := byteLength_pos before
        simp only
        rw [throwIf_neg (by omega), ok_bind, verifyArtifact_of_artifact hartifact]
        simp [Except.mapError, h.scope before hmem, hfrom, throwIf_neg]
  have hsequence : sequenceAfter log.getLast? = .ok log.length := by
    unfold sequenceAfter nextSequence
    cases hhead : log.getLast? with
    | none => rw [List.getLast?_eq_none_iff.1 hhead]; rfl
    | some before =>
        have hplace := hlast before hhead
        simp only
        rw [throwIf_neg (by omega), ok_bind, except_pure_eq, hplace]
  obtain ⟨unsigned, hunsigned⟩ : ∃ unsigned : UnsignedEnvelope, unsigned = ⟨author.gameId,
    author.sender, log.length, (log.getLast?.map P.hashEnvelope).getD ZERO_HASH, content.round,
    content.phase, content.type, content.body⟩ := ⟨_, rfl⟩
  have hprepare : author.prepare P content none log.getLast? = .ok unsigned := by
    unfold PersistentEnvelopeAuthor.prepare
    rw [hstored, ok_bind, hsequence, hunsigned]
    rfl
  obtain ⟨e, he⟩ : ∃ e : SignedEnvelope, e =
      { unsigned with sig := ed.signEd25519 unsigned.value author.secretKey } := ⟨_, rfl⟩
  have hfields : e.toUnsignedEnvelope = unsigned := by rw [he]
  have hsign : signEnvelope ed unsigned author.secretKey = .ok e := by
    apply signEnvelope_eq_ok.2
    refine ⟨?_, ?_, ?_, ?_, ?_, ?_, he⟩
    · rw [hunsigned]
      exact hroom
    · rw [hunsigned]
      exact hround
    · rw [hunsigned]
      exact hphase.1
    · rw [hunsigned]
      exact hbody.1
    · rw [hunsigned]
      exact (Nat.le_succ _).trans hread
    · rw [hunsigned]
      rfl
  have hartifact := signEnvelope_artifact hsign (by rw [hunsigned]; exact hread)
  have hfollows : Follows P ed author.gameId author.sender log.getLast? e := by
    refine ⟨hartifact, ?_, ?_, ?_, ?_, ?_⟩
    · rw [hfields, hunsigned]
    · rw [hfields, hunsigned]
    · rw [hfields, hunsigned]
      cases hhead : log.getLast? with
      | none => simp [List.getLast?_eq_none_iff.1 hhead]
      | some before => exact (hlast before hhead).symm
    · rw [hfields, hunsigned]
    · have hsize : e.byteLength ≤ 64 * 1024 := by
        apply SignedEnvelope.byteLength_le
        · rw [hfields, hunsigned]
          exact hphase.2
        · rw [hfields, hunsigned]
          exact hbody.2
      exact hsize.trans (by decide)
  have hnext : validateNextArtifact P ed e author.gameId author.sender log.getLast? = .ok e := by
    refine (validateNextArtifact_eq_ok hartifact).2 ⟨rfl, hfollows, ?_⟩
    intro before hbefore
    have := hlast before hbefore
    omega
  have hseq : e.seq = log.length := by rw [hfields, hunsigned]
  obtain ⟨between, hadd⟩ : ∃ between,
      db.add author.gameId author.sender e.seq e true = .ok between := by
    refine ⟨_, Database.add_eq_ok.2 ⟨?_, harrival, rfl⟩⟩
    rintro row hrow ⟨hgame, hsender, hplace⟩
    have hmem : row ∈ db.rowsOf author.gameId author.sender :=
      List.mem_filter.2 ⟨hrow, by simp [hgame, hsender]⟩
    have hin : row.bytes ∈ log := by
      rw [← h.rows]
      exact List.mem_map_of_mem hmem
    obtain ⟨place, hheld⟩ := List.mem_iff_getElem?.1 hin
    have hlt := (List.getElem?_eq_some_iff.1 hheld).1
    have hat := (h.linked.getElem? hheld).2.1
    have hmeta := (h.metadata row hmem).1
    omega
  have hcreate : author.create P content none .start log.getLast? = (.ok e,
      ⟨some e, true, true, none, [e]⟩) := by
    unfold PersistentEnvelopeAuthor.create
    rw [if_neg (by simp [AuthorLocals.start]), hprepare]
    simp only
    rw [hsign]
    simp only
    rw [verifyArtifact_of_artifact hartifact]
    rfl
  have houtcome : author.authorAndPersist P db content none true =
      (.ok e, between.putHead ⟨author.gameId, author.sender, e⟩, ⟨some e, true, false, none, [e]⟩) := by
    unfold PersistentEnvelopeAuthor.authorAndPersist appendNext
    rw [hcheck]
    simp only
    rw [hcreate]
    simp only [ok_bind]
    rw [hnext]
    simp only [ok_bind]
    rw [hadd]
    rfl
  rw [houtcome]
  refine ⟨e, rfl, ?_, h.append ⟨rfl, rfl⟩ ⟨⟨_, hcheck, hfollows⟩, between, hadd, rfl⟩⟩
  obtain ⟨-, -, rfl⟩ := Database.add_eq_ok.1 hadd
  rfl

/-- One instance, asked for a number of envelopes one after the other. -/
def authorRounds (author : PersistentEnvelopeAuthor ed) (content : EnvelopeContent) :
    ℕ → List (AuthorEvent ed)
  | 0 => [.create 0 0 author]
  | count + 1 => authorRounds author content count ++
      [.author 0 content none, .transaction 0 true, .settle 0]

theorem mixed_append {w : AuthorWorld ed} {events events' : List (AuthorEvent ed)} :
    Mixed P game sender w (events ++ events') ↔
      Mixed P game sender w events ∧ Mixed P game sender (w.run P events) events' := by
  induction events generalizing w with
  | nil => simp [Mixed, AuthorWorld.run]
  | cons event rest ih =>
      simp only [List.cons_append, Mixed, ih, AuthorWorld.run, List.foldl_cons, and_assoc]

theorem mixed_authorRounds (author : PersistentEnvelopeAuthor ed) (content : EnvelopeContent)
    (count : ℕ) : Mixed P game sender .start (authorRounds author content count) := by
  induction count with
  | zero => simp [authorRounds, Mixed]
  | succ count ih => exact mixed_append.2 ⟨ih, by simp [Mixed]⟩

/-- One round of an idle instance: its transaction, and its queue is empty again. -/
theorem run_round (P : Primitives q G) {author : PersistentEnvelopeAuthor ed} {content : EnvelopeContent}
    (hinst : w.instances 0 = some ⟨0, author, []⟩)
    (hsnapshot : snapshotContent content = .ok content) :
    (w.run P [.author 0 content none, .transaction 0 true, .settle 0]).instances 0
      = some ⟨0, author, []⟩ ∧
    (w.run P [.author 0 content none, .transaction 0 true, .settle 0]).db
      = (author.authorAndPersist P w.db content none true).2.1 := by
  have hcalled : (w.step P (.author 0 content none)).instances 0 =
      some ⟨0, author, [⟨content, none, none⟩]⟩ ∧ (w.step P (.author 0 content none)).db = w.db := by
    unfold AuthorWorld.step
    simp only
    rw [hinst, hsnapshot]
    simp
  have hran : ∀ w₁ : AuthorWorld ed, w₁.db = w.db →
      w₁.instances 0 = some ⟨0, author, [⟨content, none, none⟩]⟩ →
      (w₁.step P (.transaction 0 true)).instances 0 = some ⟨0, author,
        [⟨content, none, some (author.authorAndPersist P w.db content none true).1⟩]⟩ ∧
      (w₁.step P (.transaction 0 true)).db
        = (author.authorAndPersist P w.db content none true).2.1 := by
    intro w₁ hdb₁ hinst₁
    unfold AuthorWorld.step
    simp only
    rw [hinst₁]
    simp only
    rw [hdb₁]
    simp
  have hsettled : ∀ (w₂ : AuthorWorld ed) result,
      w₂.instances 0 = some ⟨0, author, [⟨content, none, some result⟩]⟩ →
      (w₂.step P (.settle 0)).instances 0 = some ⟨0, author, []⟩ ∧
      (w₂.step P (.settle 0)).db = w₂.db := by
    intro w₂ result hinst₂
    unfold AuthorWorld.step
    simp only
    rw [hinst₂]
    simp
  obtain ⟨hinst₂, hdb₂⟩ := hran _ hcalled.2 hcalled.1
  obtain ⟨hinst₃, hdb₃⟩ := hsettled _ _ hinst₂
  exact ⟨hinst₃, hdb₃.trans hdb₂⟩

/-- As many envelopes are appended as the key generator has numbers. -/
theorem run_authorRounds (P : Primitives q G) (author : PersistentEnvelopeAuthor ed)
    (content : EnvelopeContent) (hphase : content.phase ≠ "" ∧ content.phase.utf8ByteSize ≤ 200)
    (hround : content.round ≤ MAX_SAFE_INTEGER)
    (hbody : content.body.FitsAt 1 ∧ content.body.encodedLength ≤ 60000)
    (hread : content.body.readDepth + 1 ≤ MAX_CBOR_NESTING_DEPTH)
    (count : ℕ) (hcount : count ≤ 2 ^ 53) :
    ∃ w : AuthorWorld ed, ∃ log, w = AuthorWorld.start.run P (authorRounds author content count) ∧
      w.instances 0 = some ⟨0, author, []⟩ ∧ w.db.nextArrival = count + 1 ∧
      AuthoredLog P author.gameId author.sender ed w.db log ∧ log.length = count := by
  induction count with
  | zero =>
      have hcreated : ((AuthorWorld.start : AuthorWorld ed).step P (.create 0 0 author)).instances 0
          = some ⟨0, author, []⟩ := by
        unfold AuthorWorld.step
        simp only [AuthorWorld.start]
        rw [Function.update_self]
      exact ⟨AuthorWorld.start.step P (.create 0 0 author), [], rfl, hcreated, rfl,
        (start_invariant P author.gameId author.sender).durable, rfl⟩
  | succ count ih =>
      obtain ⟨w, log, hw, hinst, harrival, hlog, hlen⟩ := ih (by omega)
      have hsnapshot : snapshotContent content = .ok content := by
        unfold snapshotContent
        rw [encodeEnvelope_of_fits (hbody.1.mono (Nat.zero_le _))]
        simp only [Except.mapError, ok_bind]
        rw [decodeCanonical_eq_ok.2 ⟨rfl, (Nat.le_succ _).trans hread⟩]
        rfl
      have hsafe : MAX_SAFE_INTEGER = 2 ^ 53 - 1 := rfl
      obtain ⟨e, hok, hnext, hgrown⟩ := hlog.author_succeeds ⟨rfl, rfl⟩ hphase hround hbody hread
        (by omega) (by omega)
      have hsplit : AuthorWorld.start.run P (authorRounds author content (count + 1))
          = w.run P [.author 0 content none, .transaction 0 true, .settle 0] := by
        rw [hw, authorRounds, AuthorWorld.run, AuthorWorld.run, List.foldl_append]
        rfl
      obtain ⟨hidle, hdb⟩ := run_round P hinst hsnapshot
      refine ⟨_, log ++ [e], hsplit.symm, hidle, ?_, ?_, by simp [hlen]⟩
      · rw [hdb, hnext, harrival]
      · rw [hdb]
        exact hgrown

end

namespace SmallGroup

/-- An author of the first seat, and what it is given to sign. -/
def localAuthor : PersistentEnvelopeAuthor ed25519 := ⟨game, padded 32 [1]⟩

def localContent : EnvelopeContent := ⟨0, "lobby", .JOIN, .null⟩

end SmallGroup

open SmallGroup in
theorem author_never_equivocates_small : Linked (primitives fun _ => 1) localAuthor.sender
    ((AuthorWorld.start.run (primitives fun _ => 1) (authorRounds localAuthor localContent 2)).log
      game localAuthor.sender) :=
  (author_never_equivocates (primitives fun _ => 1) ed25519 game localAuthor.sender
    (authorRounds localAuthor localContent 2) (mixed_authorRounds _ _ _) _ rfl).1

open SmallGroup in
/-- A log that has used up the sequence numbers no longer passes the check. -/
theorem checkpoint_refuses_full_log : ∃ events : List (AuthorEvent ed25519),
    Mixed (primitives fun _ => 1) game localAuthor.sender .start events ∧
    withCheckpoint ed25519 (AuthorWorld.start.run (primitives fun _ => 1) events).db game
      localAuthor.sender
      = .error (.store "Authored checkpoint and transcript disagree; recovery is required") := by
  have hbody : localContent.body.FitsAt 1 := fitsAt_iff.2 (show validateValue "" 1 .null = .ok () by
    decide)
  obtain ⟨w, log, hw, -, -, hlog, hlen⟩ := run_authorRounds
    (primitives fun _ => 1) localAuthor localContent (by decide) (by decide) ⟨hbody, by decide⟩
    (by decide) (2 ^ 53) le_rfl
  have hsafe : MAX_SAFE_INTEGER = 2 ^ 53 - 1 := rfl
  refine ⟨authorRounds localAuthor localContent (2 ^ 53), mixed_authorRounds _ _ _, ?_⟩
  rw [← hw]
  exact hlog.withCheckpoint.trans (if_neg (by omega))

end Tablefolk
