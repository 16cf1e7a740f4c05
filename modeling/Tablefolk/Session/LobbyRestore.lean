import Tablefolk.Session.Equivocation
import Tablefolk.Session.LobbyRecovery

/-!
# The recovered lobby

The second half of the recovery: the READYs that are found in a transcript, the ones that are kept,
and the lobby that they are restored on.

* `TranscriptOf.candidates`, `selected_spec`: the READYs, one for every roster and sender.
* `restoreCandidates_eq_ok`: all of them are restored; the lobby stays open until the last one.
* `lobby_recovery_agrees`: the lobby that a receiver got to is recovered from its envelopes in any
  order.
-/

namespace Tablefolk

section

variable {q : ℕ} {G : Type} [AddCommGroup G] [Module (ZMod q) G] {P : Primitives q G}
  {ed : Ed25519} {hashRosterBody : RosterBody → Hash256} {rosters : Set RosterBody}
  {readies : List SignedEnvelope} {logs : IdentityPublicKey → List SignedEnvelope}
  {lobby : LobbyChainRegistry P} {e : SignedEnvelope}

open LobbyChainRegistry

/-! ## The candidates -/

/-- The READY and the roster hash that a candidate stands for. -/
structure CandidateOf (candidate : ReadyCandidate) (e : SignedEnvelope) (hash : Hash256) :
    Prop where
  artifact : candidate.artifact = e
  rosterKey : candidate.rosterKey = bytesToHex hash.val
  names : NamesRoster e hash

/-- A READY that the recovery can read. -/
def ReadableReady (e : SignedEnvelope) : Prop :=
  e.type = .READY → e.phase = "lobby" ∧ e.round = 0 ∧ ∃ hash, decodeReadyBody e.body = .ok ⟨hash⟩

theorem collectReadys_eq_ok (key : String) {artifacts : List SignedEnvelope}
    (hreadable : ∀ e ∈ artifacts, ReadableReady e) :
    ∃ candidates, collectReadys key artifacts = .ok candidates ∧ ∀ candidate,
      candidate ∈ candidates ↔ candidate.senderKey = key ∧
        ∃ e ∈ artifacts, ∃ hash, CandidateOf candidate e hash := by
  induction artifacts with
  | nil => exact ⟨[], rfl, by simp⟩
  | cons e rest ih =>
      obtain ⟨candidates, hrest, hmem⟩ := ih fun m hm => hreadable m (List.mem_cons_of_mem e hm)
      unfold collectReadys
      by_cases htype : e.type = .READY
      · obtain ⟨hphase, hround, hash, hbody⟩ := hreadable e List.mem_cons_self htype
        refine ⟨⟨e, bytesToHex hash.val, key⟩ :: candidates, ?_, fun candidate => ?_⟩
        · rw [if_neg (not_not_intro htype), throwIf_neg (by simp [hphase, hround]), ok_bind, hbody]
          simp only [Except.mapError, ok_bind, hrest]
          rfl
        · rw [List.mem_cons, hmem]
          constructor
          · rintro (rfl | ⟨hkey, m, hm, other, hother⟩)
            · exact ⟨rfl, e, List.mem_cons_self, hash, rfl, rfl, htype, hbody⟩
            · exact ⟨hkey, m, List.mem_cons_of_mem e hm, other, hother⟩
          · rintro ⟨hkey, m, hm, other, hother⟩
            rcases List.mem_cons.1 hm with rfl | hm
            · left
              have hsame := hother.names.2.symm.trans hbody
              cases hsame
              cases candidate
              obtain ⟨rfl, rfl, -⟩ := hother
              obtain rfl := hkey
              rfl
            · exact .inr ⟨hkey, m, hm, other, hother⟩
      · refine ⟨candidates, by rw [if_pos htype, hrest], fun candidate => ?_⟩
        rw [hmem]
        refine and_congr_right fun _ => ⟨?_, ?_⟩
        · rintro ⟨m, hm, hother⟩
          exact ⟨m, List.mem_cons_of_mem e hm, hother⟩
        · rintro ⟨m, hm, other, hother⟩
          rcases List.mem_cons.1 hm with rfl | hm
          · exact absurd hother.names.1 htype
          · exact ⟨m, hm, other, hother⟩

theorem collectReadyCandidates_eq_ok {entries : List (String × List SignedEnvelope)}
    (hreadable : ∀ entry ∈ entries, ∀ e ∈ entry.2, ReadableReady e) :
    ∃ candidates, collectReadyCandidates entries = .ok candidates ∧ ∀ candidate,
      candidate ∈ candidates ↔ ∃ entry ∈ entries, candidate.senderKey = entry.1 ∧
        ∃ e ∈ entry.2, ∃ hash, CandidateOf candidate e hash := by
  induction entries with
  | nil => exact ⟨[], rfl, by simp⟩
  | cons entry rest ih =>
      obtain ⟨others, hrest, hothers⟩ :=
        ih fun other hother => hreadable other (List.mem_cons_of_mem entry hother)
      obtain ⟨key, artifacts⟩ := entry
      have hsorted : ∀ e, e ∈ sortBySequence artifacts ↔ e ∈ artifacts :=
        fun e => (sortBySequence_perm artifacts).mem_iff
      obtain ⟨candidates, hfirst, hcandidates⟩ := collectReadys_eq_ok key
        fun e he => hreadable _ List.mem_cons_self e ((hsorted e).1 he)
      refine ⟨candidates ++ others, ?_, fun candidate => ?_⟩
      · unfold collectReadyCandidates
        rw [hfirst, ok_bind, hrest]
        rfl
      · rw [List.mem_append, hcandidates, hothers]
        simp only [hsorted, List.mem_cons, exists_eq_or_imp]

/-- The candidates of a transcript are the READYs of the logs. -/
theorem TranscriptOf.candidates {transcript : List SignedEnvelope} (h : TranscriptOf logs transcript)
    (hlinked : ∀ identity, Linked P identity (logs identity))
    (hreadable : ∀ identity, ∀ e ∈ logs identity, ReadableReady e) :
    ∃ candidates, collectReadyCandidates (transcript.foldl pushArtifact .empty).entries
        = .ok candidates ∧ ∀ candidate, candidate ∈ candidates ↔
      ∃ e hash, candidate.senderKey = senderKey e ∧ e ∈ logs e.from_ ∧
        CandidateOf candidate e hash := by
  have hentry : ∀ entry ∈ (transcript.foldl pushArtifact .empty).entries,
      entry.2 = transcript.filter fun e => senderKey e = entry.1 := by
    intro entry hmem
    have hget := get?_foldl_push .empty transcript entry.1
    rw [OrderedMap.get?_eq_some.2 hmem] at hget
    simpa using hget
  have hentries : ∀ entry ∈ (transcript.foldl pushArtifact .empty).entries, ∀ e ∈ entry.2,
      ReadableReady e := by
    intro entry hin e he
    rw [hentry entry hin, List.mem_filter] at he
    exact hreadable _ e ((h.mem_logs hlinked).1 he.1)
  obtain ⟨candidates, hrun, hmem⟩ := collectReadyCandidates_eq_ok hentries
  refine ⟨candidates, hrun, fun candidate => ?_⟩
  rw [hmem]
  constructor
  · rintro ⟨entry, hin, hkey, e, he, hash, hof⟩
    rw [hentry entry hin, List.mem_filter, decide_eq_true_eq] at he
    exact ⟨e, hash, by rw [hkey, he.2], (h.mem_logs hlinked).1 he.1, hof⟩
  · rintro ⟨e, hash, hkey, he, hof⟩
    have htranscript := (h.mem_logs hlinked).2 he
    have hkeys : senderKey e ∈ (transcript.foldl pushArtifact .empty).entries.map Prod.fst :=
      mem_keys_foldl_push.2 (.inr ⟨e, htranscript, rfl⟩)
    obtain ⟨entry, hin, hentryKey⟩ := List.mem_map.1 hkeys
    refine ⟨entry, hin, by rw [hkey, hentryKey], e, ?_, hash, hof⟩
    rw [hentry entry hin, List.mem_filter, decide_eq_true_eq]
    exact ⟨htranscript, hentryKey.symm⟩

/-! ## The first READYs -/

/-- What a candidate is kept under. -/
def ReadyCandidate.key (candidate : ReadyCandidate) : String × String :=
  (candidate.rosterKey, candidate.senderKey)

variable {first : OrderedMap (String × String) ReadyCandidate} {candidates : List ReadyCandidate}

theorem get?_keepFirst {candidate other : ReadyCandidate} {key : String × String}
    (h : (keepFirst first candidate).get? key = some other) :
    first.get? key = some other ∨ other = candidate ∧ key = candidate.key := by
  have hset (h : (first.set candidate.key candidate).get? key = some other) :
      first.get? key = some other ∨ other = candidate ∧ key = candidate.key := by
    rw [OrderedMap.get?_set] at h
    split at h
    · rename_i hkey
      exact .inr ⟨(Option.some.inj h).symm, hkey⟩
    · exact .inl h
  unfold keepFirst at h
  simp only at h
  split at h
  · exact hset h
  · split at h
    · exact hset h
    · exact .inl h

theorem isSome_keepFirst {candidate : ReadyCandidate} {key : String × String}
    (h : (first.get? key).isSome = true ∨ key = candidate.key) :
    ((keepFirst first candidate).get? key).isSome = true := by
  have hset : ((first.set candidate.key candidate).get? key).isSome = true := by
    rw [OrderedMap.get?_set]
    split
    · rfl
    · rename_i hne
      exact h.resolve_right hne
  unfold keepFirst
  simp only
  split
  · exact hset
  · rename_i existing hexisting
    split
    · exact hset
    · rcases h with h | rfl
      · exact h
      · have hsome : first.get? candidate.key = some existing := hexisting
        rw [hsome]
        rfl

theorem get?_foldl_keepFirst {key : String × String} {other : ReadyCandidate}
    (h : (candidates.foldl keepFirst first).get? key = some other) :
    first.get? key = some other ∨ other ∈ candidates ∧ key = other.key := by
  induction candidates generalizing first with
  | nil => exact .inl h
  | cons candidate rest ih =>
      rcases ih h with hfirst | ⟨hmem, hkey⟩
      · rcases get?_keepFirst hfirst with hfirst | ⟨rfl, hkey⟩
        · exact .inl hfirst
        · exact .inr ⟨List.mem_cons_self, hkey⟩
      · exact .inr ⟨List.mem_cons_of_mem candidate hmem, hkey⟩

theorem isSome_foldl_keepFirst {key : String × String}
    (h : (first.get? key).isSome = true ∨ ∃ candidate ∈ candidates, key = candidate.key) :
    ((candidates.foldl keepFirst first).get? key).isSome = true := by
  induction candidates generalizing first with
  | nil =>
      rcases h with h | ⟨candidate, hmem, -⟩
      · exact h
      · cases hmem
  | cons candidate rest ih =>
      refine ih ?_
      rcases h with h | ⟨other, hmem, hkey⟩
      · exact .inl (isSome_keepFirst (.inl h))
      · rcases List.mem_cons.1 hmem with rfl | hmem
        · exact .inl (isSome_keepFirst (.inr hkey))
        · exact .inr ⟨other, hmem, hkey⟩

/-- **One candidate is kept for every roster and sender.** -/
theorem selected_spec (candidates : List ReadyCandidate) :
    (((firstByRosterAndSender candidates).entries.map Prod.snd).map ReadyCandidate.key).Nodup ∧
    (∀ candidate ∈ (firstByRosterAndSender candidates).entries.map Prod.snd,
      candidate ∈ candidates) ∧
    ∀ candidate ∈ candidates, ∃ kept ∈ (firstByRosterAndSender candidates).entries.map Prod.snd,
      kept.key = candidate.key := by
  have hentry : ∀ entry ∈ (firstByRosterAndSender candidates).entries,
      entry.2 ∈ candidates ∧ entry.1 = entry.2.key := by
    intro entry hmem
    rcases get?_foldl_keepFirst (OrderedMap.get?_eq_some.2 hmem) with h | h
    · rw [OrderedMap.get?_empty] at h
      cases h
    · exact h
  refine ⟨?_, fun candidate hcandidate => ?_, fun candidate hcandidate => ?_⟩
  · have hkeys : ((firstByRosterAndSender candidates).entries.map Prod.snd).map ReadyCandidate.key
        = (firstByRosterAndSender candidates).entries.map Prod.fst := by
      rw [List.map_map]
      exact List.map_congr_left fun entry hmem => (hentry entry hmem).2.symm
    rw [hkeys]
    exact (firstByRosterAndSender candidates).nodup
  · obtain ⟨entry, hmem, rfl⟩ := List.mem_map.1 hcandidate
    exact (hentry entry hmem).1
  · have hsome : ((firstByRosterAndSender candidates).get? candidate.key).isSome = true :=
      isSome_foldl_keepFirst (.inr ⟨candidate, hcandidate, rfl⟩)
    obtain ⟨kept, hkept⟩ := Option.isSome_iff_exists.1 hsome
    have hmem := OrderedMap.get?_eq_some.1 hkept
    exact ⟨kept, List.mem_map.2 ⟨_, hmem, rfl⟩, (hentry _ hmem).2.symm⟩

/-! ## Restoring -/

/-- The candidate is a READY of a log, for a roster that its sender is a member of, and its sender
is not counted for this roster yet. -/
structure Restorable (lobby : LobbyChainRegistry P)
    (logs : IdentityPublicKey → List SignedEnvelope) (candidate : ReadyCandidate) (e : SignedEnvelope)
    (hash : Hash256) (body : RosterBody) : Prop where
  isOf : CandidateOf candidate e hash
  senderKey : candidate.senderKey = bytesToHex e.from_.val
  place : validateReadyEnvelope e lobby.context = .ok ()
  known : lobby.knownRosters hash = some body
  min : MIN_SESSION_SEATS ≤ body.seats.length
  member : e.from_ ∈ body.seats
  held : e ∈ logs e.from_
  fresh : e.from_ ∉ (lobby.readyByRoster hash).map Prod.fst

/-- The candidate is for the current roster. -/
def Current (lobby : LobbyChainRegistry P) (candidate : ReadyCandidate) : Prop :=
  some candidate.rosterKey = lobby.rosterHash.map fun hash => bytesToHex hash.val

instance (candidate : ReadyCandidate) : Decidable (Current lobby candidate) :=
  inferInstanceAs (Decidable (_ = _))

theorem hex_inj {a b : Hash256} (h : bytesToHex a.val = bytesToHex b.val) : a = b :=
  Subtype.ext (bytesToHex_inj h)

theorem CandidateOf.current_iff {candidate : ReadyCandidate} {hash : Hash256}
    (h : CandidateOf candidate e hash) : Current lobby candidate ↔ lobby.rosterHash = some hash := by
  unfold Current
  rw [h.rosterKey]
  cases lobby.rosterHash with
  | none => simp
  | some current =>
      simp only [Option.map_some, Option.some.injEq]
      exact ⟨fun heq => (hex_inj heq).symm, fun heq => by rw [heq]⟩

theorem exists_seatOf {body : RosterBody} {identity : IdentityPublicKey}
    (h : identity ∈ body.seats) : ∃ seat, body.seatOf identity = some seat := by
  unfold RosterBody.seatOf
  cases hseat : body.seats.findIdx? fun seat => decide (seat = identity) with
  | some seat => exact ⟨seat, rfl⟩
  | none =>
      rw [List.findIdx?_eq_none_iff] at hseat
      have hnot := hseat identity h
      simp at hnot

theorem history_of_mem (hlogs : LobbyLogs lobby logs) (he : e ∈ logs e.from_) :
    ((lobby.chains e.from_).bind fun chain => chain.accepted e.seq) = some e := by
  cases hchain : lobby.chains e.from_ with
  | none =>
      rw [hlogs.absent hchain] at he
      cases he
  | some chain =>
      obtain ⟨index, hindex⟩ := List.mem_iff_getElem?.1 he
      have hseq := ((hlogs.linked e.from_).getElem? hindex).2.1
      show chain.accepted e.seq = some e
      rw [(hlogs.chain hchain).2.accepted, hseq, hindex]

/-- A candidate is restored on an open lobby. -/
theorem restore_of_restorable (hinj : Set.InjOn hashRosterBody rosters)
    (hinv : LobbyInvariant hashRosterBody rosters readies lobby logs)
    (hopen : lobby.finalizedRegistry = none)
    (hoffered : LobbyCall.Within rosters (.restoreReadyFromHistory e))
    {candidate : ReadyCandidate} {hash : Hash256} {body : RosterBody}
    (h : Restorable lobby logs candidate e hash body) :
    ∃ value next, lobby.restoreReadyFromHistory candidate.artifact
        = (.ok (.accepted value), next) ∧
      LobbyInvariant hashRosterBody rosters (readies ++ [e]) next logs ∧ SameRosters next lobby ∧
      next.chains = lobby.chains ∧ next.readyByRoster = Function.update lobby.readyByRoster hash
        (lobby.readyByRoster hash ++ [(e.from_, e)]) := by
  obtain ⟨seat, hseat⟩ := exists_seatOf h.member
  have hnot : isReady (lobby.readyByRoster hash) e.from_ = false := decide_eq_false h.fresh
  have hcounted : LobbyLogs (lobby.withReady hash e.from_ e) logs :=
    ⟨hinv.held.chain, hinv.held.absent, hinv.held.game, hinv.held.host⟩
  have hreadies := withReady_readies hinv.counts h.known h.min h.member h.held h.isOf.names hnot
  obtain ⟨after, hafter, -, -⟩ := finalizeIfReady_spec hcounted hreadies hopen
  have hrun : ∃ value next, lobby.restoreReadyFromHistory e = (.ok (.accepted value), next) ∧
      ((lobby.rosterHash ≠ some hash ∧ next = lobby.withReady hash e.from_ e) ∨
        (lobby.rosterHash = some hash ∧
          (lobby.withReady hash e.from_ e).finalizeIfReady = (.ok (), next))) := by
    have hstart : lobby.restoreReadyFromHistory e = lobby.restoreReadyFromHistory e := rfl
    conv_rhs at hstart => unfold restoreReadyFromHistory
    rw [if_neg (isSome_eq_false_of_open hopen), h.place, h.isOf.names.2] at hstart
    simp only [h.known, if_neg (not_lt.2 h.min), hseat, history_of_mem hinv.held h.held, hnot] at hstart
    by_cases hcurrent : lobby.rosterHash = some hash
    · have hif : (lobby.withReady hash e.from_ e).rosterHash = some hash := hcurrent
      simp only [ne_eq, not_true_eq_false, if_false, Bool.false_eq_true, hif, if_true, hafter]
        at hstart
      exact ⟨_, after, hstart, .inr ⟨hcurrent, hafter⟩⟩
    · have hif : ¬ (lobby.withReady hash e.from_ e).rosterHash = some hash := hcurrent
      simp only [ne_eq, not_true_eq_false, if_false, Bool.false_eq_true, hif] at hstart
      exact ⟨_, _, hstart, .inl ⟨hcurrent, rfl⟩⟩
  obtain ⟨value, next, hrestore, hnext⟩ := hrun
  have heffect : LobbyEffect hashRosterBody lobby logs (.restoreReadyFromHistory e) .accepted next :=
    .restored h.held h.known h.isOf.names h.member h.min hnot hnext
  have hsame : SameRosters next lobby ∧ next.chains = lobby.chains ∧ next.readyByRoster
      = Function.update lobby.readyByRoster hash (lobby.readyByRoster hash ++ [(e.from_, e)]) := by
    rcases hnext with ⟨-, rfl⟩ | ⟨-, hfinal⟩
    · exact ⟨⟨rfl, rfl, rfl, rfl, rfl⟩, rfl, rfl⟩
    · obtain ⟨hrosters, hcounts⟩ := finalizeIfReady_same hfinal
      exact ⟨hrosters.trans ⟨rfl, rfl, rfl, rfl, rfl⟩, (finalizeIfReady_keeps hfinal).1, hcounts⟩
  obtain ⟨-, held', hinv'⟩ := heffect.invariant hinj hinv hopen hoffered
  have hlogs : LobbyLogs next logs := hinv.held.of_chains hsame.2.1 hsame.1.context
  obtain rfl := hinv'.held.unique hlogs
  rw [h.isOf.artifact]
  exact ⟨value, next, hrestore, hinv', hsame⟩

/-- As long as a candidate is left the lobby is open: a candidate for the current roster is not
counted yet, and one for another roster comes before all of those. -/
theorem open_of_restorable (hinv : LobbyInvariant hashRosterBody rosters readies lobby logs)
    {candidate : ReadyCandidate} {hash : Hash256} {body : RosterBody}
    (h : Restorable lobby logs candidate e hash body)
    (hfirst : ¬ Current lobby candidate → lobby.currentReady = []) :
    lobby.finalizedRegistry = none := by
  cases hfinal : lobby.finalizedRegistry with
  | none => rfl
  | some registry =>
      exfalso
      obtain ⟨⟨current, hroster, hmin, hlen⟩, -⟩ := hinv.finalized hfinal
      by_cases hcurrent : Current lobby candidate
      · have hhash := h.isOf.current_iff.1 hcurrent
        rw [hinv.counts.rosterHash, hroster] at hhash
        obtain rfl : hashRosterBody current = hash := Option.some.inj hhash
        have hknown := h.known
        rw [hinv.counts.current hroster] at hknown
        cases hknown
        exact h.fresh ((perm_of_finalizable hinv.counts hroster hlen).mem_iff.2 h.member)
      · have hnone := hfirst hcurrent
        rw [currentReady_eq hinv.counts hroster] at hnone
        have hzero : current.seats.length = 0 := by rw [← hlen, hnone, List.length_nil]
        rw [hzero] at hmin
        exact absurd hmin (by decide)

theorem current_congr {next : LobbyChainRegistry P} (h : next.rosterHash = lobby.rosterHash)
    (candidate : ReadyCandidate) : Current next candidate ↔ Current lobby candidate := by
  unfold Current
  rw [h]

/-- The other candidates can still be restored after one of them. -/
theorem Restorable.later {next : LobbyChainRegistry P} {candidate other : ReadyCandidate}
    {m : SignedEnvelope} {hash hash' : Hash256} {body body' : RosterBody}
    (h : Restorable lobby logs candidate e hash body)
    (h' : Restorable lobby logs other m hash' body') (hne : other.key ≠ candidate.key)
    (hsame : SameRosters next lobby) (hcounts : next.readyByRoster
      = Function.update lobby.readyByRoster hash (lobby.readyByRoster hash ++ [(e.from_, e)])) :
    Restorable next logs other m hash' body' := by
  refine ⟨h'.isOf, h'.senderKey, ?_, ?_, h'.min, h'.member, h'.held, ?_⟩
  · rw [hsame.context]
    exact h'.place
  · rw [hsame.knownRosters]
    exact h'.known
  · rw [hcounts]
    by_cases heq : hash' = hash
    · subst heq
      rw [Function.update_self, List.map_append, List.mem_append]
      rintro (hmem | hmem)
      · exact h'.fresh hmem
      · have hfrom : m.from_ = e.from_ := by simpa using hmem
        refine hne ?_
        unfold ReadyCandidate.key
        rw [h.isOf.rosterKey, h'.isOf.rosterKey, h.senderKey, h'.senderKey, hfrom]
    · rw [Function.update_of_ne heq]
      exact h'.fresh

/-- **The READYs are restored**, all of them. -/
theorem restoreCandidates_eq_ok (hinj : Set.InjOn hashRosterBody rosters)
    (hoffered : ∀ identity, ∀ e ∈ logs identity, ∀ body, decodeRosterBody e.body = .ok body →
      body ∈ rosters) {order : List ReadyCandidate}
    (hinv : LobbyInvariant hashRosterBody rosters readies lobby logs)
    (hrestorable : ∀ candidate ∈ order, ∃ e hash body, Restorable lobby logs candidate e hash body)
    (hnodup : (order.map ReadyCandidate.key).Nodup)
    (hsorted : order.Pairwise fun left right => Current lobby left → Current lobby right)
    (hfirst : ∀ candidate ∈ order, ¬ Current lobby candidate → lobby.currentReady = []) :
    ∃ next, restoreCandidates lobby order = .ok next ∧
      (∃ readies', LobbyInvariant hashRosterBody rosters readies' next logs) ∧
      SameRosters next lobby ∧ next.chains = lobby.chains ∧
      ∀ (hash : Hash256) (identity : IdentityPublicKey),
        identity ∈ (next.readyByRoster hash).map Prod.fst ↔
          identity ∈ (lobby.readyByRoster hash).map Prod.fst ∨
          ∃ candidate ∈ order, candidate.key = (bytesToHex hash.val, bytesToHex identity.val) := by
  induction order generalizing lobby readies with
  | nil => exact ⟨lobby, rfl, ⟨readies, hinv⟩, .refl _, rfl, by simp⟩
  | cons candidate rest ih =>
      obtain ⟨e, hash, body, h⟩ := hrestorable candidate List.mem_cons_self
      obtain ⟨hnew, hrest⟩ := List.nodup_cons.1 hnodup
      obtain ⟨hbefore, hlater⟩ := List.pairwise_cons.1 hsorted
      have hopen := open_of_restorable hinv h (hfirst candidate List.mem_cons_self)
      obtain ⟨value, next, hrun, hnext, hsame, hchains, hcounts⟩ :=
        restore_of_restorable hinj hinv hopen (hoffered e.from_ e h.held) h
      have hcurrent (other : ReadyCandidate) : Current next other ↔ Current lobby other :=
        current_congr hsame.rosterHash other
      obtain ⟨last, hlast, hkept, hsame', hchains', hready⟩ := ih hnext
        (fun other hother => by
          obtain ⟨m, hash', body', h'⟩ := hrestorable other (List.mem_cons_of_mem candidate hother)
          refine ⟨m, hash', body', h.later h' (fun heq => hnew ?_) hsame hcounts⟩
          exact List.mem_map.2 ⟨other, hother, heq⟩)
        hrest (hlater.imp fun himp hleft => (hcurrent _).2 (himp ((hcurrent _).1 hleft)))
        (fun other hother hnot => by
          have hnot' : ¬ Current lobby other := fun hthis => hnot ((hcurrent other).2 hthis)
          have hpast : ¬ Current lobby candidate := fun hthis => hnot' (hbefore other hother hthis)
          have hnone := hfirst candidate List.mem_cons_self hpast
          unfold currentReady at hnone ⊢
          rw [hsame.rosterHash, hcounts]
          cases hhash : lobby.rosterHash with
          | none => rfl
          | some current =>
              rw [hhash] at hnone
              have hne : current ≠ hash := by
                rintro rfl
                exact hpast (h.isOf.current_iff.2 hhash)
              simpa [Function.update_of_ne hne] using hnone)
      refine ⟨last, ?_, hkept, hsame'.trans hsame, hchains'.trans hchains, fun other identity => ?_⟩
      · unfold restoreCandidates
        rw [hrun]
        exact hlast
      · have hkey : candidate.key = (bytesToHex hash.val, bytesToHex e.from_.val) := by
          unfold ReadyCandidate.key
          rw [h.isOf.rosterKey, h.senderKey]
        have hstep : identity ∈ (next.readyByRoster other).map Prod.fst ↔
            identity ∈ (lobby.readyByRoster other).map Prod.fst ∨
              candidate.key = (bytesToHex other.val, bytesToHex identity.val) := by
          rw [hkey, hcounts, Prod.mk.injEq]
          by_cases heq : other = hash
          · subst heq
            rw [Function.update_self, List.map_append, List.mem_append]
            refine or_congr_right ?_
            simp only [List.map_cons, List.map_nil, List.mem_singleton, true_and]
            exact ⟨fun heq => by rw [heq], fun heq => (Subtype.ext (bytesToHex_inj heq)).symm⟩
          · rw [Function.update_of_ne heq]
            refine (or_iff_left fun hboth => heq ?_).symm
            exact (hex_inj hboth.1).symm
        rw [hready, hstep, or_assoc]
        simp only [List.mem_cons, exists_eq_or_imp]

theorem restoreOrder_perm (lobby : LobbyChainRegistry P) (selected : List ReadyCandidate) :
    (restoreOrder lobby selected).Perm selected := by
  unfold restoreOrder
  refine ((List.perm_insertionSort _ _).append (List.perm_insertionSort _ _)).trans ?_
  have hsplit := List.filter_append_perm (fun candidate : ReadyCandidate => decide
    (some candidate.rosterKey ≠ lobby.rosterHash.map fun hash => bytesToHex hash.val)) selected
  refine List.Perm.trans (List.Perm.append_left _ (List.Perm.of_eq ?_)) hsplit
  refine List.filter_congr fun candidate _ => ?_
  simp only [ne_eq, decide_not, Bool.not_not]

/-- The candidates for rosters of the past come first. -/
theorem restoreOrder_pairwise (lobby : LobbyChainRegistry P) (selected : List ReadyCandidate) :
    (restoreOrder lobby selected).Pairwise
      fun left right => Current lobby left → Current lobby right := by
  unfold restoreOrder
  refine List.pairwise_append.2 ⟨?_, ?_, ?_⟩
  · refine List.pairwise_iff_forall_sublist.2 fun {left right} hsub hleft => ?_
    have hmem : left ∈ [left, right] := List.mem_cons_self
    have hpast := List.mem_insertionSort _ |>.1 (hsub.subset hmem)
    rw [List.mem_filter, decide_eq_true_eq] at hpast
    exact absurd hleft hpast.2
  · refine List.pairwise_iff_forall_sublist.2 fun {left right} hsub _ => ?_
    have hmem : right ∈ [left, right] := by simp
    have hcurrent := List.mem_insertionSort _ |>.1 (hsub.subset hmem)
    rw [List.mem_filter, decide_eq_true_eq] at hcurrent
    exact hcurrent.2
  · intro left _ right hright _
    have hcurrent := List.mem_insertionSort _ |>.1 hright
    rw [List.mem_filter, decide_eq_true_eq] at hcurrent
    exact hcurrent.2

/-! ## Agreement -/

/-- Two lobbies with the same logs and rosters that count the same members agree. -/
theorem LobbyInvariant.agrees {other : LobbyChainRegistry P} {readies' : List SignedEnvelope}
    (h : LobbyInvariant hashRosterBody rosters readies lobby logs)
    (h' : LobbyInvariant hashRosterBody rosters readies' other logs) (hsame : SameRosters other lobby)
    (hcounts : ∀ hash identity, identity ∈ (other.readyByRoster hash).map Prod.fst ↔
      identity ∈ (lobby.readyByRoster hash).map Prod.fst) :
    other.readySeats = lobby.readySeats ∧ other.state = lobby.state ∧
      other.finalizedRegistry = lobby.finalizedRegistry := by
  have hlength (hash : Hash256) :
      (other.readyByRoster hash).length = (lobby.readyByRoster hash).length := by
    have hperm := (List.perm_ext_iff_of_nodup (h'.counts.nodup hash) (h.counts.nodup hash)).2
      (hcounts hash)
    simpa using hperm.length_eq
  have hready : Finalizable hashRosterBody other ↔ Finalizable hashRosterBody lobby := by
    unfold Finalizable
    rw [hsame.roster]
    simp only [hlength]
  have hregistry : other.finalizedRegistry = lobby.finalizedRegistry := by
    cases hother : other.finalizedRegistry with
    | none =>
        cases hlobby : lobby.finalizedRegistry with
        | none => rfl
        | some registry => exact absurd (hready.2 (h.finalized hlobby).1) (h'.open_ hother)
    | some registry' =>
        cases hlobby : lobby.finalizedRegistry with
        | none => exact absurd (hready.1 (h'.finalized hother).1) (h.open_ hlobby)
        | some registry =>
            obtain ⟨hgame', hseats', hlogs'⟩ := (h'.finalized hother).2
            obtain ⟨hgame, hseats, hlogs⟩ := (h.finalized hlobby).2
            rw [hsame.roster, hseats, Option.some.injEq] at hseats'
            have hroster : registry'.roster = registry.roster := by
              obtain ⟨_, ⟨seats', _, _, _, _⟩, _⟩ := registry'
              obtain ⟨_, ⟨seats, _, _, _, _⟩, _⟩ := registry
              obtain rfl : seats = seats' := hseats'
              rfl
            rw [hroster] at hlogs'
            rw [hlogs'.unique hlogs (hgame'.trans (by rw [hsame.context, hgame])) hroster]
  refine ⟨?_, ?_, hregistry⟩
  · have hisReady (sender : IdentityPublicKey) :
        isReady other.currentReady sender = isReady lobby.currentReady sender := by
      unfold isReady currentReady
      rw [hsame.rosterHash]
      cases lobby.rosterHash with
      | none => rfl
      | some hash => exact decide_eq_decide.2 (hcounts hash sender)
    unfold readySeats
    rw [hsame.roster]
    simp only [hisReady]
  · unfold state
    rw [hregistry, hsame.roster]

/-- Two lobbies that hold the same logs have the same chains, if they know only who has a log. -/
theorem LobbyLogs.chains_eq {other : LobbyChainRegistry P} (h : LobbyLogs lobby logs)
    (h' : LobbyLogs other logs) (hcontext : other.context = lobby.context)
    (hknown : ∀ identity, identity ≠ lobby.context.host → (lobby.chains identity).isSome = true →
      logs identity ≠ [])
    (hknown' : ∀ identity, identity ≠ other.context.host → (other.chains identity).isSome = true →
      logs identity ≠ []) : other.chains = lobby.chains := by
  funext identity
  cases hother : other.chains identity with
  | none =>
      cases hchain : lobby.chains identity with
      | none => rfl
      | some chain =>
          have hhost : identity ≠ lobby.context.host := by
            rintro rfl
            have hsome := h'.host
            rw [hcontext, hother] at hsome
            cases hsome
          exact absurd (h'.absent hother) (hknown identity hhost (by rw [hchain]; rfl))
  | some chain' =>
      cases hchain : lobby.chains identity with
      | none =>
          have hhost : identity ≠ other.context.host := by
            rintro rfl
            have hsome := h.host
            rw [← hcontext, hchain] at hsome
            cases hsome
          exact absurd (h.absent hchain) (hknown' identity hhost (by rw [hother]; rfl))
      | some chain =>
          obtain ⟨hsender, hlog⟩ := h.chain hchain
          obtain ⟨hsender', hlog'⟩ := h'.chain hother
          rw [hlog'.unique hlog (hsender'.trans hsender.symm)]

/-- **The chains and the rosters of a live lobby are rebuilt.** -/
theorem LobbyChainRegistry.LiveLobby.rebuilt (hinj : Set.InjOn hashRosterBody rosters)
    (hlogs : LobbyLogs lobby logs) (hlive : LiveLobby ed hashRosterBody rosters lobby logs)
    {transcript : List SignedEnvelope} (htranscript : TranscriptOf logs transcript) :
    ∃ host next, recoverHost hashRosterBody (start P lobby.context)
        (artifactsOf (transcript.foldl pushArtifact .empty)
          (bytesToHex lobby.context.host.val)) = .ok host ∧
      recoverSenders (transcript.foldl pushArtifact .empty) host
        ((((transcript.foldl pushArtifact .empty).entries.map Prod.fst).filter
          (· ≠ bytesToHex lobby.context.host.val)).insertionSort (· ≤ ·)) = .ok next ∧
      SameRosters next lobby ∧ Rebuilding hashRosterBody rosters next logs := by
  have hlinked := hlogs.linked
  have hstart : Rebuilding hashRosterBody rosters (start P lobby.context) fun _ => [] :=
    start_rebuilding lobby.context
  have hhostLinked : Linked P (start P lobby.context).context.host
      ([] ++ logs lobby.context.host) := hlinked lobby.context.host
  obtain ⟨hhost, hrebuilt⟩ := recoverHost_eq_ok hinj hstart hhostLinked
    (fun e he => hlogs.game he) (fun e he => by
      obtain ⟨hjoin, hroster⟩ := hlive.hostLog e he
      refine ⟨hjoin, fun htype => ?_⟩
      obtain ⟨body, hbody⟩ := hroster htype
      exact ⟨body, hbody, hlive.offered _ e he body (validateRoster_eq_ok hbody).2.2.2.1⟩)
  obtain ⟨senders, hnodup, hkeys, hmem⟩ := htranscript.exists_others hlinked lobby.context.host
  have hpublished := hlive.published
  have hgroups : ∀ sender ∈ senders, artifactsOf (transcript.foldl pushArtifact .empty)
      (bytesToHex sender.val) = logs sender := by
    intro sender _
    rw [artifactsOf_push, htranscript.chainOf_eq hlinked]
  have hjoins : ∀ sender ∈ senders, Joins
      (hostHistory (P := P) hashRosterBody lobby.context (logs lobby.context.host)) sender
      (logs sender) := by
    intro sender hsender
    obtain ⟨hne, hnonempty⟩ := (hmem sender).1 hsender
    refine ⟨hnonempty, hlinked sender, fun e he => ?_, fun first rest hsplit => ?_⟩
    · rw [← hpublished.context]
      exact hlogs.game he
    · rw [← hpublished.context]
      exact hlive.genesis sender first rest hne hsplit
  obtain ⟨next, hnext, hsame, hfinal⟩ := recoverSenders_eq_ok hnodup hrebuilt hgroups
    (fun sender hsender => Function.update_of_ne ((hmem sender).1 hsender).1 _ _) hjoins
  refine ⟨hostHistory hashRosterBody lobby.context (logs lobby.context.host), next, ?_, ?_,
    hsame.trans hpublished.symm, ?_⟩
  · rw [artifactsOf_push, htranscript.chainOf_eq hlinked]
    exact hhost
  · rw [← hkeys]
    exact hnext
  · have hheld : (fun identity => if identity ∈ senders then logs identity else
        Function.update (fun _ => []) lobby.context.host (logs lobby.context.host) identity)
        = logs := by
      funext identity
      split
      · rfl
      · rename_i hnot
        by_cases heq : identity = lobby.context.host
        · rw [heq, Function.update_self]
        · rw [Function.update_of_ne heq]
          by_contra hne
          exact hnot ((hmem identity).2 ⟨heq, Ne.symm hne⟩)
    rw [← hheld]
    exact hfinal

/-- The latest roster of the host is in its log. -/
theorem mem_of_rosterArtifact {context : LobbyBootstrapContext} {log : List SignedEnvelope}
    (h : (hostHistory (P := P) hashRosterBody context log).rosterArtifact = some e) : e ∈ log := by
  induction log using List.reverseRecOn with
  | nil => cases h
  | append_singleton log last ih =>
      rw [hostHistory_snoc] at h
      unfold hostStep at h
      rw [List.mem_append]
      split at h
      · have hlast : last = e := Option.some.inj h
        exact .inr (by rw [hlast]; exact List.mem_singleton_self e)
      · exact .inl (ih h)

/-- The snapshot of the latest roster is the one that is expected. -/
theorem verifyRosterSnapshot_eq_ok {next : LobbyChainRegistry P} (h : SameRosters next lobby)
    (hartifact : ∀ e, lobby.rosterArtifact = some e → e.Artifact ed)
    {snapshot : Option (Option SignedEnvelope)}
    (hsnapshot : ∀ expected, snapshot = some expected → expected = lobby.rosterArtifact) :
    verifyRosterSnapshot ed next snapshot = .ok () := by
  unfold verifyRosterSnapshot
  cases snapshot with
  | none => rfl
  | some expected =>
      have hexpected := hsnapshot expected rfl
      cases expected with
      | none =>
          simp only
          rw [throwIf_neg (by rw [h.rosterArtifact, ← hexpected]; exact not_not_intro rfl)]
      | some e =>
          simp only
          rw [verifyArtifact_of_artifact (hartifact e hexpected.symm)]
          simp only [Except.mapError, ok_bind]
          rw [throwIf_neg (by rw [h.rosterArtifact, ← hexpected]; exact not_not_intro rfl)]

/-- What a lobby and the one that is recovered from its envelopes have in common. -/
structure SameLobby (lobby recovered : LobbyChainRegistry P) : Prop where
  rosters : SameRosters recovered lobby
  chains : recovered.chains = lobby.chains
  readySeats : recovered.readySeats = lobby.readySeats
  state : recovered.state = lobby.state
  finalizedRegistry : recovered.finalizedRegistry = lobby.finalizedRegistry

/-- **A live lobby is recovered** from its envelopes. -/
theorem LobbyChainRegistry.LiveLobby.recovered (hinj : Set.InjOn hashRosterBody rosters)
    (hinv : LobbyInvariant hashRosterBody rosters readies lobby logs)
    (hlive : LiveLobby ed hashRosterBody rosters lobby logs) {transcript : List SignedEnvelope}
    (htranscript : TranscriptOf logs transcript) :
    ∃ result : LobbyRecoveryResult P,
      (∀ snapshot, (∀ expected, snapshot = some expected → expected = lobby.rosterArtifact) →
        recoverLobby ed hashRosterBody lobby.context transcript snapshot = .ok result) ∧
      result.envelopeCount = transcript.length ∧ SameLobby lobby result.lobby := by
  have hlinked := hinv.held.linked
  have hgroups := htranscript.groupBySender_eq hlinked fun identity e he =>
    ⟨hlive.artifact identity e he, hinv.held.game he⟩
  obtain ⟨host, rebuilt, hhost, hrebuilt, hsame, hfresh⟩ :=
    hlive.rebuilt hinj hinv.held htranscript
  obtain ⟨candidates, hcollect, hcandidates⟩ := htranscript.candidates hlinked
    fun identity e he htype => by
      obtain ⟨hplace, hash, -, hnames, -⟩ := hlive.ready identity e he htype
      obtain ⟨-, -, hphase, hround⟩ := validateReady_eq_ok hplace
      exact ⟨hphase, hround, hash, hnames.2⟩
  obtain ⟨hkeys, hsub, hcover⟩ := selected_spec candidates
  have horder := restoreOrder_perm rebuilt
    ((firstByRosterAndSender candidates).entries.map Prod.snd)
  -- every candidate that is kept can be restored on the lobby without READYs
  have hrestorable : ∀ candidate ∈ restoreOrder rebuilt
      ((firstByRosterAndSender candidates).entries.map Prod.snd),
      ∃ e hash body, Restorable rebuilt logs candidate e hash body := by
    intro candidate hcandidate
    obtain ⟨e, hash, hkey, he, hof⟩ :=
      (hcandidates candidate).1 (hsub candidate (horder.mem_iff.1 hcandidate))
    obtain ⟨hplace, hash', body, hnames, hknown, hmin, hmember, -⟩ :=
      hlive.ready e.from_ e he hof.names.1
    have hhash : hash' = hash := by
      have hbody := hnames.2.symm.trans hof.names.2
      cases hbody
      rfl
    subst hhash
    refine ⟨e, hash', body, hof, hkey, ?_, ?_, hmin, hmember, he, ?_⟩
    · rw [hsame.context]
      exact hplace
    · rw [hsame.knownRosters]
      exact hknown
    · rw [hfresh.empty]
      exact List.not_mem_nil
  obtain ⟨last, hlast, ⟨readies', hinv'⟩, hsame', hchains, hready⟩ := restoreCandidates_eq_ok hinj
    hlive.offered hfresh.invariant hrestorable ((horder.map ReadyCandidate.key).nodup_iff.2 hkeys)
    (restoreOrder_pairwise rebuilt _) fun _ _ _ => by
      unfold currentReady
      rw [hfresh.empty]
      cases rebuilt.rosterHash <;> rfl
  have hrosters := hsame'.trans hsame
  -- who is counted is who has a READY in its log
  have hcounts : ∀ (hash : Hash256) (identity : IdentityPublicKey),
      identity ∈ (last.readyByRoster hash).map Prod.fst ↔
        identity ∈ (lobby.readyByRoster hash).map Prod.fst := by
    intro hash identity
    rw [hready, hfresh.empty]
    constructor
    · rintro (hnone | ⟨candidate, hcandidate, hkey⟩)
      · exact absurd hnone List.not_mem_nil
      · obtain ⟨e, hash', hsender, he, hof⟩ :=
          (hcandidates candidate).1 (hsub candidate (horder.mem_iff.1 hcandidate))
        obtain ⟨hroster, hfrom⟩ := Prod.mk.inj hkey
        obtain rfl := hex_inj (hof.rosterKey.symm.trans hroster)
        obtain rfl : e.from_ = identity :=
          Subtype.ext (bytesToHex_inj (hsender.symm.trans hfrom))
        obtain ⟨-, other, -, hnames, -, -, -, hcounted⟩ := hlive.ready e.from_ e he hof.names.1
        have hbody := hnames.2.symm.trans hof.names.2
        cases hbody
        exact hcounted
    · intro hmem
      obtain ⟨⟨other, e⟩, hentry, hother⟩ := List.mem_map.1 hmem
      obtain rfl : other = identity := hother
      obtain ⟨-, -, -, -, hfrom, hheld, hnames, -⟩ := hinv.counts.ready hentry
      subst hfrom
      obtain ⟨kept, hkept, hkey⟩ := hcover ⟨e, bytesToHex hash.val, senderKey e⟩
        ((hcandidates _).2 ⟨e, hash, rfl, hheld, rfl, rfl, hnames⟩)
      exact .inr ⟨kept, horder.mem_iff.2 hkept, hkey⟩
  obtain ⟨hseats, hstate, hregistry⟩ := hinv.agrees hinv' hrosters hcounts
  have hrebuiltChains := hinv.held.chains_eq hfresh.logs hsame.context hlive.known hfresh.known
  refine ⟨⟨last, transcript.length, (restoreOrder rebuilt
    ((firstByRosterAndSender candidates).entries.map Prod.snd)).length⟩,
    fun snapshot hsnapshot => ?_, rfl, hrosters, hchains.trans hrebuiltChains, hseats, hstate,
    hregistry⟩
  have hverified := verifyRosterSnapshot_eq_ok hsame (fun e he =>
    hlive.artifact _ e (mem_of_rosterArtifact (hlive.published.rosterArtifact.symm.trans he)))
    hsnapshot
  unfold recoverLobby
  simp only [hgroups, Except.mapError, ok_bind, hhost, hrebuilt, hverified, hcollect, hlast]
  rfl

/-- **A lobby is recovered from its envelopes in any order.**  Whatever calls are made on the
receiver of a new lobby, in whatever order they wait for one another and whatever the store answers
each of them, if nobody bootstraps the host or changes the lobby in another way and the rosters
offered have different hashes: the recovery accepts the envelopes in the chains, each of them once
and in any order, without a roster snapshot or with that of the latest roster, and the lobby that
it returns has the same chains, rosters, ready seats and state, and the same finalized registry. -/
theorem lobby_recovery_agrees (ed : Ed25519) (hashRosterBody : RosterBody → Hash256)
    (context : LobbyBootstrapContext) (rosters : Set RosterBody)
    (hinj : Set.InjOn hashRosterBody rosters)
    {inputs : List (Serial.Input LobbyReceive LobbyStoreAnswer LobbyCall)}
    {s : Serial.State (LobbyChainRegistry P) LobbyReceive LobbyStatus LobbyStoreAnswer LobbyReceipt}
    (hcalls : ∀ call, .call call ∈ inputs → call.commit.Within rosters)
    (hhost : ∀ received, .call (.receiveAdmittedJoin received) ∈ inputs →
      received.from_ ≠ context.host)
    (hsole : ∀ call, .write call ∉ inputs)
    (hrun : Serial.Run (PersistentLobbyReceiver ed hashRosterBody) (start P context) inputs s)
    {transcript : List SignedEnvelope} (hnodup : transcript.Nodup)
    (hmem : ∀ e, e ∈ transcript ↔ s.resource.InChains e) :
    ∃ result : LobbyRecoveryResult P,
      (∀ snapshot, (∀ expected, snapshot = some expected →
          expected = s.resource.rosterArtifact) →
        recoverLobby ed hashRosterBody context transcript snapshot = .ok result) ∧
      result.envelopeCount = transcript.length ∧ SameLobby s.resource result.lobby := by
  obtain ⟨hcontext, readies, logs, hinv, hlive⟩ := lives_of_run hinj hcalls hhost hsole hrun
  have htranscript : TranscriptOf logs transcript :=
    ⟨hnodup, fun e => (hmem e).trans (inChains_iff hinv.held)⟩
  obtain ⟨result, hrecovers, hcount, hagrees⟩ := hlive.recovered hinj hinv htranscript
  rw [hcontext] at hrecovers
  exact ⟨result, hrecovers, hcount, hagrees⟩

end

namespace SmallGroup

/-- What the host of the small lobby receives. -/
def lobbyReceives : List LobbyReceive :=
  [.receiveAdmittedJoin (joinEnvelope 1), .receiveRoster rosterEnvelope,
    .receiveRosterMemberJoin (joinEnvelope 2), .receiveReady (readyEnvelope 2),
    .receiveReady (readyEnvelope 0), .receiveReady (readyEnvelope 1)]

/-- The calls have their turn one after the other, and the store acknowledges each of them. -/
def lobbyInputs : List (Serial.Input LobbyReceive LobbyStoreAnswer LobbyCall) :=
  lobbyReceives.flatMap fun call => [.call call, .turn,
    .answer ⟨.stored call.received, .snapshot .stored .stored call.received⟩]

/-- What the host has received, the last one first. -/
def lobbyTranscript : List SignedEnvelope := (lobbyReceives.map LobbyReceive.received).reverse

/-- The lobby of the host. -/
def receiveLobby : Option (Serial.State (LobbyChainRegistry (primitives fun _ => 0)) LobbyReceive
    LobbyStatus LobbyStoreAnswer LobbyReceipt) :=
  Replay.run (Serial.step (PersistentLobbyReceiver openSignatures rosterHash))
    (Serial.start LobbyReceive LobbyStatus LobbyStoreAnswer LobbyReceipt (.start _ lobbyContext))
    lobbyInputs

theorem mem_lobbyReceives {call : LobbyReceive} (h : .call call ∈ lobbyInputs) :
    call ∈ lobbyReceives := by
  obtain ⟨made, hmade, hcall⟩ := List.mem_flatMap.1 h
  simp only [List.mem_cons, Serial.Input.call.injEq, reduceCtorEq, List.not_mem_nil, or_false] at hcall
  exact hcall ▸ hmade

end SmallGroup

open SmallGroup LobbyChainRegistry in
theorem lobby_recovery_agrees_small : ∃ s result, receiveLobby = some s ∧
    s.resource.state = .finalized ∧
    recoverLobby openSignatures rosterHash lobbyContext lobbyTranscript (some (some rosterEnvelope))
      = .ok result ∧ SameLobby s.resource result.lobby := by
  have hfinal : receiveLobby.map (fun s => s.resource.state) = some .finalized := by decide +kernel
  have hartifact : receiveLobby.map (fun s => s.resource.rosterArtifact)
      = some (some rosterEnvelope) := by decide +kernel
  have hheld : ∀ e ∈ lobbyTranscript, receiveLobby.map (fun s =>
      (s.resource.chains e.from_).bind fun chain => chain.accepted e.seq) = some (some e) := by
    decide +kernel
  obtain ⟨s, hrun, hstate⟩ := Option.map_eq_some_iff.1 hfinal
  rw [hrun] at hartifact hheld
  have hcalls : ∀ call, .call call ∈ lobbyInputs → call.commit.Within lobbyRosters := by
    intro call hcall body hbody
    have hmem := List.mem_map_of_mem (f := LobbyReceive.commit) (mem_lobbyReceives hcall)
    exact ⟨call.commit, hmem, hbody⟩
  have hsole : ∀ call, .write call ∉ lobbyInputs := by
    intro call hwrite
    obtain ⟨made, -, hcall⟩ := List.mem_flatMap.1 hwrite
    simp at hcall
  have hinj := lobbyRosters_subsingleton.injOn rosterHash
  have hmem : ∀ e, e ∈ lobbyTranscript ↔ s.resource.InChains e := by
    intro e
    constructor
    · intro he
      obtain ⟨chain, hchain, haccepted⟩ :=
        Option.bind_eq_some_iff.1 (Option.some.inj (hheld e he))
      exact ⟨e.from_, chain, e.seq, hchain, haccepted⟩
    · intro he
      have hsound : Sound rosterHash lobbyRosters (start (primitives fun _ => 0) lobbyContext) :=
        ⟨[], _, start_invariant lobbyContext⟩
      -- what is in the lobby has been acknowledged by the store
      have hdurable := ((lobby_durably openSignatures hinj).run hsound hcalls
        (fun call hwrite => absurd hwrite (hsole call)) hrun).durable e (.inl he)
      rcases hdurable with hfirst | ⟨call, hwrite, -⟩ | ⟨settled, hsettled, hreceived, -⟩
      · exact absurd hfirst (lobby_start_holds lobbyContext e)
      · exact absurd hwrite (hsole call)
      · have hcalled := Serial.Run.called hrun settled.call
          (List.mem_append_left _ (List.mem_map_of_mem hsettled))
        refine List.mem_reverse.2 (List.mem_map.2 ⟨settled.call, mem_lobbyReceives hcalled, hreceived⟩)
  obtain ⟨result, hrecovers, -, hagrees⟩ := lobby_recovery_agrees (P := primitives fun _ => 0)
    openSignatures rosterHash lobbyContext lobbyRosters hinj hcalls (fun received hcall => by
      have hreceived := mem_lobbyReceives hcall
      simp only [lobbyReceives, List.mem_cons, LobbyReceive.receiveAdmittedJoin.injEq, reduceCtorEq,
        List.not_mem_nil, or_false] at hreceived
      rw [hreceived]
      decide +kernel) hsole hrun (by decide +kernel) hmem
  refine ⟨s, result, hrun, hstate, hrecovers _ ?_, hagrees⟩
  rintro expected ⟨⟩
  exact (Option.some.inj hartifact).symm

end Tablefolk
