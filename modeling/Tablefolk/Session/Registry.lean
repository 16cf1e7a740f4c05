import Tablefolk.Session.Chain

/-!
# The session registry

The model of `session/chain-registry.ts`: one sender chain for every seat.

* `HoldsLogs` says that the registry is a log for every seat, and `HoldsLogs.ingest` that
  an ingest extends one log by one envelope or changes nothing.
* `registry_converges`: chains are gap-free, nothing is replaced, and all orders of offering
  a set of envelopes without forks end in the same registry.
-/

namespace Tablefolk

section

variable {q : ℕ} {G : Type} [AddCommGroup G] [Module (ZMod q) G]

/-- `SessionChainRegistry`; the chain of a seat that is not there is never used. -/
structure SessionChainRegistry (P : Primitives q G) where
  gameId : GameId
  roster : Roster P
  chains : ℕ → SenderChain

variable {P : Primitives q G}

namespace SessionChainRegistry

/-- `new SessionChainRegistry(gameId, roster)`, on a roster that has passed its checks. -/
def start (gameId : GameId) (roster : Roster P) : SessionChainRegistry P :=
  ⟨gameId, roster, fun seat => .start (roster.seats.getD seat (zeroBytes 32))⟩

/-- `classify`. -/
def classify (registry : SessionChainRegistry P) (received : SignedEnvelope) :
    SessionIngestResult :=
  if received.game ≠ registry.gameId then .wrong_game registry.gameId received.game
  else match registry.roster.seatOf received.from_ with
  | none => .unknown_sender received.from_
  | some seat => .chain ((registry.chains seat).classify P received)

/-- `ingest`. -/
def ingest (registry : SessionChainRegistry P) (received : SignedEnvelope) :
    SessionIngestResult × SessionChainRegistry P :=
  match registry.classify received, registry.roster.seatOf received.from_ with
  | .chain (.accepted _), some seat =>
      let (result, chain) := (registry.chains seat).ingest P received
      (.chain result, { registry with chains := Function.update registry.chains seat chain })
  | result, _ => (result, registry)

/-- Ingest one envelope after another. -/
def ingestAll (registry : SessionChainRegistry P) (l : List SignedEnvelope) :
    SessionChainRegistry P :=
  l.foldl (fun registry e => (registry.ingest e).2) registry

/-- `heads`. -/
def heads (registry : SessionChainRegistry P) : List ChainHead :=
  (List.range registry.roster.size).filterMap fun seat => (registry.chains seat).head

/-- The envelopes of a chain from a sequence number on. -/
def readFrom (chain : SenderChain) (seq : ℕ) : ℕ → SyncRangeResult
  | 0 => .complete []
  | count + 1 =>
      match chain.accepted seq with
      | none => .missing seq
      | some artifact =>
          match readFrom chain (seq + 1) count with
          | .complete rest => .complete (artifact :: rest)
          | result => result

/-- `readRange`, once `fromSeq` and `toSeq` are safe integers. -/
def readRange (registry : SessionChainRegistry P) (sender : IdentityPublicKey)
    (fromSeq toSeq : ℕ) : Except String SyncRangeResult := do
  throwIf (MAX_SAFE_INTEGER < fromSeq) "fromSeq must be an unsigned safe integer"
  throwIf (MAX_SAFE_INTEGER < toSeq) "toSeq must be an unsigned safe integer"
  throwIf (toSeq < fromSeq) "fromSeq must not exceed toSeq"
  match registry.roster.seatOf sender with
  | none => return .unknown_sender
  | some seat =>
      match (registry.chains seat).head with
      | none => return .missing fromSeq
      | some head =>
          if head.seq < fromSeq then return .missing fromSeq
          else if head.seq < toSeq then return .missing (head.seq + 1)
          else return readFrom (registry.chains seat) fromSeq (toSeq - fromSeq + 1)

end SessionChainRegistry

open SessionChainRegistry

/-! ## The logs of a registry -/

/-- The registry holds these logs, seat by seat. -/
structure HoldsLogs (registry : SessionChainRegistry P) (logs : ℕ → List SignedEnvelope) :
    Prop where
  chain : ∀ seat, HoldsLog P (registry.chains seat) (logs seat)
  sender : ∀ seat, (registry.chains seat).sender = registry.roster.seats.getD seat (zeroBytes 32)
  game : ∀ seat, ∀ e ∈ logs seat, e.game = registry.gameId
  absent : ∀ seat, registry.roster.size ≤ seat → logs seat = []

theorem HoldsLogs.start (gameId : GameId) (roster : Roster P) :
    HoldsLogs (.start gameId roster) fun _ => [] :=
  ⟨fun _ => .start _, fun _ => rfl, by simp, fun _ _ => rfl⟩

/-- A chain is determined by its sender and its log. -/
theorem HoldsLog.unique {chain chain' : SenderChain} {log : List SignedEnvelope}
    (h : HoldsLog P chain log) (h' : HoldsLog P chain' log) (hsender : chain.sender = chain'.sender) :
    chain = chain' := by
  obtain ⟨sender, accepted, head⟩ := chain
  obtain ⟨sender', accepted', head'⟩ := chain'
  cases hsender
  obtain rfl : accepted = accepted' :=
    funext fun seq => (h.accepted seq).trans (h'.accepted seq).symm
  obtain rfl : head = head' := h.head.trans h'.head.symm
  rfl

/-- A chain holds one log only. -/
theorem HoldsLog.log_unique {chain : SenderChain} {log log' : List SignedEnvelope}
    (h : HoldsLog P chain log) (h' : HoldsLog P chain log') : log = log' :=
  List.ext_getElem? fun seq => (h.accepted seq).symm.trans (h'.accepted seq)

variable {registry registry' : SessionChainRegistry P} {logs logs' : ℕ → List SignedEnvelope}
  {e : SignedEnvelope} {seat : ℕ}

theorem HoldsLogs.logs_unique (h : HoldsLogs registry logs) (h' : HoldsLogs registry logs') :
    logs = logs' :=
  funext fun seat => (h.chain seat).log_unique (h'.chain seat)

theorem seatOf_sender (h : HoldsLogs registry logs) (hseat : seat < registry.roster.size) :
    registry.roster.seatOf (registry.chains seat).sender = some seat := by
  rw [h.sender, Roster.seatOf_eq_some]
  have hlt : seat < registry.roster.seats.length := hseat
  simp [List.getD_eq_getElem?_getD, List.getElem?_eq_getElem hlt]

theorem sender_of_seatOf (h : HoldsLogs registry logs) {identity : IdentityPublicKey}
    (hseat : registry.roster.seatOf identity = some seat) :
    (registry.chains seat).sender = identity := by
  rw [h.sender, List.getD_eq_getElem?_getD, Roster.seatOf_eq_some.1 hseat]
  rfl

namespace HoldsLogs

variable (h : HoldsLogs registry logs)
include h

/-- The registry accepts exactly an envelope that continues a log. -/
theorem classify_accepted : (∃ head, registry.classify e = .chain (.accepted head)) ↔
    e.game = registry.gameId ∧ ∃ seat, registry.roster.seatOf e.from_ = some seat ∧
      e.seq = (logs seat).length ∧ e.prev = prevAfter P (logs seat) := by
  rw [SessionChainRegistry.classify]
  by_cases hgame : e.game = registry.gameId
  · rw [if_neg (not_not.2 hgame)]
    cases hseat : registry.roster.seatOf e.from_ with
    | none => simp
    | some seat =>
        simp only [SessionIngestResult.chain.injEq, (h.chain seat).classify_accepted,
          sender_of_seatOf h hseat, hgame, true_and, Option.some.injEq, exists_eq_left']
        exact ⟨fun ⟨_, hseq, hprev, _⟩ => ⟨hseq, hprev⟩, fun ⟨hseq, hprev⟩ => ⟨_, hseq, hprev, rfl⟩⟩
  · rw [if_pos hgame]
    simp [hgame]

/-- The registry reports equivocation exactly on another envelope at a place it holds. -/
theorem classify_equivocation {existing : SignedEnvelope} :
    registry.classify e = .chain (.equivocation existing) ↔ e.game = registry.gameId ∧
      ∃ seat, registry.roster.seatOf e.from_ = some seat ∧ (logs seat)[e.seq]? = some existing ∧
        P.hashEnvelope existing ≠ P.hashEnvelope e := by
  rw [SessionChainRegistry.classify]
  by_cases hgame : e.game = registry.gameId
  · rw [if_neg (not_not.2 hgame)]
    cases hseat : registry.roster.seatOf e.from_ with
    | none => simp
    | some seat =>
        simp [(h.chain seat).classify_equivocation, sender_of_seatOf h hseat, hgame]
  · rw [if_pos hgame]
    simp [hgame]

/-- The registry reports a duplicate exactly on an envelope with the hash of the one it holds. -/
theorem classify_duplicate {existing : SignedEnvelope} :
    registry.classify e = .chain (.duplicate existing) ↔ e.game = registry.gameId ∧
      ∃ seat, registry.roster.seatOf e.from_ = some seat ∧ (logs seat)[e.seq]? = some existing ∧
        P.hashEnvelope existing = P.hashEnvelope e := by
  rw [SessionChainRegistry.classify]
  by_cases hgame : e.game = registry.gameId
  · rw [if_neg (not_not.2 hgame)]
    cases hseat : registry.roster.seatOf e.from_ with
    | none => simp
    | some seat =>
        simp [(h.chain seat).classify_duplicate, sender_of_seatOf h hseat, hgame]
  · rw [if_pos hgame]
    simp [hgame]

omit h in
/-- What `ingest` reports is what `classify` reports. -/
theorem ingest_fst : (registry.ingest e).1 = registry.classify e := by
  rw [SessionChainRegistry.ingest]
  split
  · rename_i head seat hclassify hseat
    rw [hclassify]
    rw [SessionChainRegistry.classify, hseat] at hclassify
    split at hclassify
    · cases hclassify
    · rename_i hgame
      have hchain := SessionIngestResult.chain.inj hclassify
      simp [SenderChain.ingest, hchain]
  · rfl

omit h in
/-- What is not accepted changes nothing. -/
theorem ingest_of_not_accepted (hnot : ∀ head, registry.classify e ≠ .chain (.accepted head)) :
    (registry.ingest e).2 = registry := by
  rw [SessionChainRegistry.ingest]
  split
  · rename_i hclassify _
    exact absurd hclassify (hnot _)
  · rfl

/-- What is accepted is added to its sender's log. -/
theorem ingest_of_accepted (hseat : registry.roster.seatOf e.from_ = some seat)
    {head : ChainHead} (haccepted : registry.classify e = .chain (.accepted head)) :
    HoldsLogs (registry.ingest e).2 (Function.update logs seat (logs seat ++ [e])) := by
  have hchain : (registry.chains seat).classify P e = .accepted head := by
    rw [SessionChainRegistry.classify, hseat] at haccepted
    split at haccepted
    · cases haccepted
    · exact SessionIngestResult.chain.inj haccepted
  obtain ⟨hgame, -⟩ := h.classify_accepted.1 ⟨head, haccepted⟩
  have hlog : HoldsLog P ((registry.chains seat).ingest P e).2 (logs seat ++ [e]) := by
    rcases (h.chain seat).ingest (e := e) with ⟨_, -, hlog⟩ | ⟨hnot, -⟩
    · exact hlog
    · exact absurd (by simp [SenderChain.ingest, hchain]) (hnot head)
  have hsender : ((registry.chains seat).ingest P e).2.sender = (registry.chains seat).sender := by
    simp [SenderChain.ingest, hchain]
  have hstep : (registry.ingest e).2 = { registry with
      chains := Function.update registry.chains seat ((registry.chains seat).ingest P e).2 } := by
    simp [SessionChainRegistry.ingest, haccepted, hseat]
  rw [hstep]
  constructor
  · intro other
    by_cases heq : other = seat
    · subst heq
      simpa using hlog
    · simpa [Function.update_of_ne heq] using h.chain other
  · intro other
    by_cases heq : other = seat
    · subst heq
      simpa [hsender] using h.sender other
    · simpa [Function.update_of_ne heq] using h.sender other
  · intro other m hm
    by_cases heq : other = seat
    · subst heq
      rw [Function.update_self, List.mem_append, List.mem_singleton] at hm
      rcases hm with hm | rfl
      · exact h.game other m hm
      · exact hgame
    · rw [Function.update_of_ne heq] at hm
      exact h.game other m hm
  · intro other hle
    have hne : other ≠ seat := by
      rintro rfl
      exact absurd (Roster.lt_size_of_seatOf hseat) (not_lt.2 hle)
    rw [Function.update_of_ne hne]
    exact h.absent other hle

/-- **An ingest extends one log by the envelope, or changes nothing.** -/
theorem ingest : (registry.ingest e).2 = registry ∨ ∃ seat head,
    registry.roster.seatOf e.from_ = some seat ∧
    registry.classify e = .chain (.accepted head) ∧
    HoldsLogs (registry.ingest e).2 (Function.update logs seat (logs seat ++ [e])) := by
  by_cases haccepted : ∃ head, registry.classify e = .chain (.accepted head)
  · obtain ⟨-, seat, hseat, -⟩ := h.classify_accepted.1 haccepted
    obtain ⟨head, hhead⟩ := haccepted
    exact .inr ⟨seat, head, hseat, hhead, h.ingest_of_accepted hseat hhead⟩
  · exact .inl (ingest_of_not_accepted fun head hhead => haccepted ⟨head, hhead⟩)

end HoldsLogs

theorem ingest_scope (registry : SessionChainRegistry P) (e : SignedEnvelope) :
    (registry.ingest e).2.gameId = registry.gameId ∧
      (registry.ingest e).2.roster = registry.roster := by
  rw [SessionChainRegistry.ingest]
  split <;> exact ⟨rfl, rfl⟩

/-- Every run of ingests keeps logs, and only ever extends them. -/
theorem HoldsLogs.ingestAll (h : HoldsLogs registry logs) (l : List SignedEnvelope) :
    (registry.ingestAll l).gameId = registry.gameId ∧
    (registry.ingestAll l).roster = registry.roster ∧
    ∃ logs', HoldsLogs (registry.ingestAll l) logs' ∧ (∀ seat, logs seat <+: logs' seat) ∧
      ∀ seat, ∀ e ∈ logs' seat, e ∈ logs seat ∨ e ∈ l := by
  induction l generalizing registry logs with
  | nil => exact ⟨rfl, rfl, logs, h, fun _ => List.prefix_rfl, fun _ _ => .inl⟩
  | cons e rest ih =>
      obtain ⟨hgame, hroster⟩ := ingest_scope registry e
      have hnext : ∃ mid, HoldsLogs (registry.ingest e).2 mid ∧ (∀ seat, logs seat <+: mid seat) ∧
          ∀ seat, ∀ m ∈ mid seat, m ∈ logs seat ∨ m = e := by
        rcases h.ingest (e := e) with hsame | ⟨seat, head, -, -, hmid⟩
        · exact ⟨logs, by rwa [hsame], fun _ => List.prefix_rfl, fun _ _ => .inl⟩
        · refine ⟨_, hmid, fun other => ?_, fun other m hm => ?_⟩
          · by_cases heq : other = seat
            · subst heq
              simp
            · rw [Function.update_of_ne heq]
          · by_cases heq : other = seat
            · subst heq
              simpa using hm
            · rw [Function.update_of_ne heq] at hm
              exact .inl hm
      obtain ⟨mid, hmid, hpre, hmem⟩ := hnext
      obtain ⟨hgame', hroster', logs', hlogs', hpre', hmem'⟩ := ih hmid
      refine ⟨hgame'.trans hgame, hroster'.trans hroster, logs', hlogs',
        fun seat => (hpre seat).trans (hpre' seat), fun seat m hm => ?_⟩
      rcases hmem' seat m hm with hm | hm
      · rcases hmem seat m hm with hm | rfl
        · exact .inl hm
        · exact .inr List.mem_cons_self
      · exact .inr (List.mem_cons_of_mem _ hm)

/-! ## Reading a range -/

theorem HoldsLog.readFrom {chain : SenderChain} {log : List SignedEnvelope}
    (h : HoldsLog P chain log) (seq count : ℕ) (hle : seq + count ≤ log.length) :
    SessionChainRegistry.readFrom chain seq count = .complete ((log.drop seq).take count) := by
  induction count generalizing seq with
  | zero => simp [SessionChainRegistry.readFrom]
  | succ count ih =>
      have hlt : seq < log.length := by omega
      rw [SessionChainRegistry.readFrom, h.accepted, List.getElem?_eq_getElem hlt]
      simp only [ih (seq + 1) (by omega)]
      rw [List.drop_eq_getElem_cons hlt, List.take_succ_cons]

/-- A range is complete exactly when the log is long enough; else its first missing place
is reported. -/
theorem HoldsLogs.readRange (h : HoldsLogs registry logs) {sender : IdentityPublicKey}
    (hseat : registry.roster.seatOf sender = some seat) {fromSeq toSeq : ℕ} (hle : fromSeq ≤ toSeq)
    (hsafe : toSeq ≤ MAX_SAFE_INTEGER) :
    registry.readRange sender fromSeq toSeq = .ok (if toSeq < (logs seat).length
      then .complete (((logs seat).drop fromSeq).take (toSeq - fromSeq + 1))
      else .missing (max fromSeq (logs seat).length)) := by
  rw [SessionChainRegistry.readRange, throwIf_neg (by omega), ok_bind, throwIf_neg (by omega),
    ok_bind, throwIf_neg (by omega), ok_bind, hseat]
  simp only [(h.chain seat).head]
  rcases List.eq_nil_or_concat (logs seat) with hlog | ⟨before, last, hlog⟩
  · simp [hlog]
  · have hlen : (logs seat).length = before.length + 1 := by simp [hlog]
    have hlast : (logs seat).getLast? = some last := by simp [hlog]
    simp only [hlast, Option.map_some, hlen, Nat.add_sub_cancel]
    by_cases hfrom : before.length < fromSeq
    · rw [if_pos hfrom, if_neg (by omega), max_eq_left (by omega)]
      rfl
    · rw [if_neg hfrom]
      by_cases hto : before.length < toSeq
      · rw [if_pos hto, if_neg (by omega), max_eq_right (by omega)]
        rfl
      · rw [if_neg hto, if_pos (by omega), (h.chain seat).readFrom _ _ (by omega)]
        rfl

/-! ## Gap-free chains -/

/-- The chain holds exactly the sequence numbers up to its head, each envelope is its
sender's and names the hash of the one before it, and the head names the last. -/
structure SenderChain.GapFree (P : Primitives q G) (chain : SenderChain) : Prop where
  held : ∀ seq, (chain.accepted seq).isSome ↔ ∃ head, chain.head = some head ∧ seq ≤ head.seq
  own : ∀ seq e, chain.accepted seq = some e → e.from_ = chain.sender ∧ e.seq = seq
  first : ∀ e, chain.accepted 0 = some e → e.prev = ZERO_HASH
  next : ∀ seq e e', chain.accepted seq = some e → chain.accepted (seq + 1) = some e' →
    e'.prev = P.hashEnvelope e
  head : ∀ head, chain.head = some head → head.from_ = chain.sender ∧
    ∃ e, chain.accepted head.seq = some e ∧ head.hash = P.hashEnvelope e

theorem HoldsLog.gapFree {chain : SenderChain} {log : List SignedEnvelope}
    (h : HoldsLog P chain log) : chain.GapFree P := by
  constructor
  · intro seq
    rw [h.accepted, h.head]
    rcases List.eq_nil_or_concat log with rfl | ⟨before, last, rfl⟩
    · simp
    · simp [Order.lt_add_one_iff]
  · intro seq e he
    rw [h.accepted] at he
    obtain ⟨hfrom, hseq, -⟩ := h.linked.getElem? he
    exact ⟨hfrom, hseq⟩
  · intro e he
    rw [h.accepted] at he
    obtain ⟨-, -, hprev⟩ := h.linked.getElem? he
    rw [hprev, List.take_zero]
    rfl
  · intro seq e e' he he'
    rw [h.accepted] at he he'
    obtain ⟨-, -, hprev⟩ := h.linked.getElem? he'
    rw [hprev, prevAfter_take_succ he]
  · intro head hhead
    rw [h.head] at hhead
    rcases List.eq_nil_or_concat log with rfl | ⟨before, last, rfl⟩
    · simp at hhead
    · simp only [List.concat_eq_append, List.getLast?_append_cons, List.getLast?_singleton,
        Option.map_some, Option.some.injEq] at hhead
      subst hhead
      exact ⟨rfl, last, by simp [h.accepted], rfl⟩

/-! ## Convergence -/

/-- No two different envelopes of the set claim the same place. -/
def ForkFree (E : Set SignedEnvelope) : Prop :=
  ∀ e ∈ E, ∀ e' ∈ E, e.game = e'.game → e.from_ = e'.from_ → e.seq = e'.seq → e = e'

/-- The registry accepts no envelope of the set. -/
def Exhausted (registry : SessionChainRegistry P) (E : Set SignedEnvelope) : Prop :=
  ∀ e ∈ E, ∀ head, (registry.ingest e).1 ≠ .chain (.accepted head)

theorem Exhausted.ingestAll {E : Set SignedEnvelope} (h : Exhausted registry E)
    {l : List SignedEnvelope} (hl : ∀ e ∈ l, e ∈ E) : registry.ingestAll l = registry := by
  induction l with
  | nil => rfl
  | cons e rest ih =>
      have hnot : ∀ head, registry.classify e ≠ .chain (.accepted head) := by
        intro head hhead
        exact h e (hl e List.mem_cons_self) head (HoldsLogs.ingest_fst.trans hhead)
      show (registry.ingest e).2.ingestAll rest = registry
      rw [HoldsLogs.ingest_of_not_accepted hnot]
      exact ih fun m hm => hl m (List.mem_cons_of_mem _ hm)

/-- A log within a set without forks is a prefix of every log that the set cannot extend. -/
theorem HoldsLogs.prefix_of_exhausted {E : Set SignedEnvelope} (h : HoldsLogs registry logs)
    (h' : HoldsLogs registry' logs') (hgame : registry.gameId = registry'.gameId)
    (hroster : registry.roster = registry'.roster) (hE : ForkFree E)
    (hmem : ∀ seat, ∀ e ∈ logs seat, e ∈ E) (hmem' : ∀ seat, ∀ e ∈ logs' seat, e ∈ E)
    (hdone : Exhausted registry' E) (hseat : seat < registry.roster.size) :
    logs seat <+: logs' seat := by
  have hsender : (registry.chains seat).sender = (registry'.chains seat).sender := by
    rw [h.sender, h'.sender, hroster]
  have hstep : ∀ n ≤ (logs seat).length, (logs seat).take n <+: logs' seat := by
    intro n
    induction n with
    | zero => simp
    | succ n ih =>
        intro hn
        obtain ⟨rest, hrest⟩ := ih (by omega)
        have he : (logs seat)[n]? = some (logs seat)[n] := List.getElem?_eq_getElem (by omega)
        have hE_e := hmem seat _ (List.getElem_mem (by omega : n < (logs seat).length))
        generalize (logs seat)[n] = e at he hE_e
        obtain ⟨hfrom, hseq, hprev⟩ := (h.chain seat).linked.getElem? he
        have htake : (logs seat).take (n + 1) = (logs seat).take n ++ [e] := by
          rw [List.take_add_one, he]
          rfl
        have hlen : ((logs seat).take n).length = n := by simp; omega
        cases rest with
        | nil =>
            -- the other log ends here, so the other registry would accept `e`
            rw [List.append_nil] at hrest
            have haccepted := h'.classify_accepted (e := e) |>.2
              ⟨(h.game seat e (List.mem_of_getElem? he)).trans hgame, seat, by
                rw [hfrom, ← hroster]
                exact seatOf_sender h hseat, by rw [hseq, ← hrest, hlen], by rw [hprev, hrest]⟩
            obtain ⟨head, hhead⟩ := haccepted
            exact absurd (ingest_fst.trans hhead) (hdone e hE_e head)
        | cons e' rest =>
            have he' : (logs' seat)[n]? = some e' := by
              rw [← hrest, List.getElem?_append_right hlen.le, hlen, Nat.sub_self]
              rfl
            obtain ⟨hfrom', hseq', -⟩ := (h'.chain seat).linked.getElem? he'
            have hmem_e := List.mem_of_getElem? he
            have hmem_e' := List.mem_of_getElem? he'
            obtain rfl : e = e' := hE e hE_e e' (hmem' seat e' hmem_e')
              (((h.game seat e hmem_e).trans hgame).trans (h'.game seat e' hmem_e').symm)
              ((hfrom.trans hsender).trans hfrom'.symm) (hseq.trans hseq'.symm)
            exact ⟨rest, by rw [htake, ← hrest]; simp⟩
  simpa using hstep _ le_rfl

/-- How many envelopes the logs of a registry hold. -/
def held (registry : SessionChainRegistry P) (logs : ℕ → List SignedEnvelope) :
    List SignedEnvelope :=
  (List.range registry.roster.size).flatMap logs

theorem HoldsLogs.nodup_held (h : HoldsLogs registry logs) : (held registry logs).Nodup := by
  rw [held, List.nodup_flatMap]
  constructor
  · intro seat _
    rw [List.nodup_iff_injective_get]
    intro i j hij
    have hi := (h.chain seat).linked.getElem? (List.getElem?_eq_getElem i.isLt)
    have hj := (h.chain seat).linked.getElem? (List.getElem?_eq_getElem j.isLt)
    have heq : (logs seat)[i.val] = (logs seat)[j.val] := hij
    exact Fin.ext (by rw [← hi.2.1, ← hj.2.1, heq])
  · refine List.nodup_range.imp_of_mem ?_
    intro seat other hseat hother hne e he he'
    obtain ⟨i, hi⟩ := List.getElem?_of_mem he
    obtain ⟨j, hj⟩ := List.getElem?_of_mem he'
    have hfrom := ((h.chain seat).linked.getElem? hi).1
    have hfrom' := ((h.chain other).linked.getElem? hj).1
    have hown := seatOf_sender h (List.mem_range.1 hseat)
    rw [← hfrom, hfrom', seatOf_sender h (List.mem_range.1 hother)] at hown
    exact hne (Option.some.inj hown).symm

theorem length_held_update (logs : ℕ → List SignedEnvelope) (e : SignedEnvelope)
    (hseat : seat < registry.roster.size) :
    (held registry (Function.update logs seat (logs seat ++ [e]))).length =
      (held registry logs).length + 1 := by
  have hsum : ∀ size, seat < size →
      ((List.range size).flatMap (Function.update logs seat (logs seat ++ [e]))).length =
        ((List.range size).flatMap logs).length + 1 := by
    intro size
    induction size with
    | zero => intro h; omega
    | succ size ih =>
        intro h
        rw [List.range_succ, List.flatMap_append, List.flatMap_append, List.length_append,
          List.length_append]
        by_cases heq : seat = size
        · subst heq
          have hsame : (List.range seat).flatMap (Function.update logs seat (logs seat ++ [e])) =
              (List.range seat).flatMap logs := by
            refine List.flatMap_congr fun other hother => ?_
            rw [Function.update_of_ne (List.mem_range.1 hother).ne]
          rw [hsame]
          simp [add_assoc]
        · rw [ih (by omega)]
          simp [Function.update_of_ne (Ne.symm heq)]
          omega
  exact hsum _ hseat

/-- Offering a list makes the logs longer, or shows that nothing in it is accepted. -/
theorem HoldsLogs.grows (h : HoldsLogs registry logs) (l : List SignedEnvelope) :
    ∃ logs', HoldsLogs (registry.ingestAll l) logs' ∧
      ((held registry logs).length < (held registry logs').length ∨
        registry.ingestAll l = registry ∧ logs' = logs ∧ Exhausted registry {e | e ∈ l}) := by
  induction l generalizing registry logs with
  | nil => exact ⟨logs, h, .inr ⟨rfl, rfl, by simp [Exhausted]⟩⟩
  | cons e rest ih =>
      have hcons : registry.ingestAll (e :: rest) = (registry.ingest e).2.ingestAll rest := rfl
      by_cases haccepted : ∃ head, registry.classify e = .chain (.accepted head)
      · obtain ⟨head, haccepted⟩ := haccepted
        obtain ⟨-, seat, hseat, -⟩ := h.classify_accepted.1 ⟨head, haccepted⟩
        obtain ⟨logs', hlogs', hgrow⟩ := ih (h.ingest_of_accepted hseat haccepted)
        have hlen := length_held_update logs e (Roster.lt_size_of_seatOf hseat)
        simp only [held, (ingest_scope registry e).2] at hgrow hlen ⊢
        refine ⟨logs', hlogs', .inl ?_⟩
        rcases hgrow with hgrow | ⟨-, rfl, -⟩ <;> omega
      · have hnot : ∀ head, registry.classify e ≠ .chain (.accepted head) :=
          fun head hhead => haccepted ⟨head, hhead⟩
        rw [hcons, ingest_of_not_accepted hnot]
        obtain ⟨logs', hlogs', hgrow⟩ := ih h
        refine ⟨logs', hlogs', hgrow.imp id fun ⟨hsame, hlogs, hdone⟩ => ⟨hsame, hlogs, ?_⟩⟩
        intro m hm head
        rcases List.mem_cons.1 hm with rfl | hm
        · rw [ingest_fst]
          exact hnot head
        · exact hdone m hm head

/-- As many rounds as there are envelopes are enough to accept all that can be. -/
theorem HoldsLogs.exhausted_of_rounds {E : Finset SignedEnvelope} {rounds : List (List SignedEnvelope)}
    (h : HoldsLogs registry logs) (hmem : ∀ seat, ∀ e ∈ logs seat, e ∈ E)
    (hrounds : ∀ round ∈ rounds, ∀ e, e ∈ round ↔ e ∈ E)
    (hcount : E.card ≤ (held registry logs).length + rounds.length) :
    Exhausted (registry.ingestAll rounds.flatten) E := by
  induction rounds generalizing registry logs with
  | nil =>
      intro e he head haccepted
      change (registry.ingest e).1 = _ at haccepted
      rw [ingest_fst] at haccepted
      obtain ⟨-, seat, hseat, -⟩ := h.classify_accepted.1 ⟨head, haccepted⟩
      have hnext := h.ingest_of_accepted hseat haccepted
      have hlen := length_held_update logs e (Roster.lt_size_of_seatOf hseat)
      have hnodup := hnext.nodup_held
      simp only [held, (ingest_scope registry e).2] at hnodup hlen hcount
      have hsub : ∀ m ∈ (List.range registry.roster.size).flatMap
          (Function.update logs seat (logs seat ++ [e])), m ∈ E := by
        intro m hm
        obtain ⟨other, -, hm⟩ := List.mem_flatMap.1 hm
        by_cases heq : other = seat
        · subst heq
          rw [Function.update_self, List.mem_append, List.mem_singleton] at hm
          rcases hm with hm | rfl
          · exact hmem other m hm
          · exact he
        · rw [Function.update_of_ne heq] at hm
          exact hmem other m hm
      have hcard := Finset.card_le_card fun m hm => hsub m (List.mem_toFinset.1 hm)
      rw [List.toFinset_card_of_nodup hnodup] at hcard
      rw [List.length_nil] at hcount
      omega
  | cons round rest ih =>
      have hround := hrounds round List.mem_cons_self
      have hrest : ∀ r ∈ rest, ∀ e, e ∈ r ↔ e ∈ E := fun r hr => hrounds r (List.mem_cons_of_mem _ hr)
      have hsplit : registry.ingestAll (round :: rest).flatten =
          (registry.ingestAll round).ingestAll rest.flatten := by
        simp [SessionChainRegistry.ingestAll, List.foldl_append]
      obtain ⟨-, hroster, logs', hlogs', -, hmem'⟩ := h.ingestAll round
      obtain ⟨grown, hgrown, hgrow⟩ := h.grows round
      obtain rfl : grown = logs' := hgrown.logs_unique hlogs'
      rw [hsplit]
      rcases hgrow with hgrow | ⟨hsame, rfl, hdone⟩
      · refine ih hlogs' (fun seat e he => ?_) hrest ?_
        · rcases hmem' seat e he with he | he
          · exact hmem seat e he
          · exact (hround e).1 he
        · rw [List.length_cons] at hcount
          simp only [held, hroster] at hcount hgrow ⊢
          omega
      · have hexhausted : Exhausted registry E := fun e he => hdone e ((hround e).2 he)
        rw [hsame, hexhausted.ingestAll fun e he => ?_]
        · exact hexhausted
        · obtain ⟨r, hr, he⟩ := List.mem_flatten.1 he
          exact (hrest r hr e).1 he

/-- Two registries that hold the same logs of one roster are the same. -/
theorem HoldsLogs.unique (h : HoldsLogs registry logs) (h' : HoldsLogs registry' logs)
    (hgame : registry.gameId = registry'.gameId) (hroster : registry.roster = registry'.roster) :
    registry = registry' := by
  obtain ⟨gameId, roster, chains⟩ := registry
  obtain ⟨gameId', roster', chains'⟩ := registry'
  cases hgame
  cases hroster
  obtain rfl : chains = chains' := funext fun seat =>
    (h.chain seat).unique (h'.chain seat) ((h.sender seat).trans (h'.sender seat).symm)
  rfl

/-- **Sender chains are gap-free prefixes, and converge under any order of delivery.**
Whatever is offered to a registry, every chain is gap-free, what is held stays held, what
is not accepted changes nothing, and equivocation is another hash at a place already held.
Two registries offered envelopes of a set without forks until none is accepted are equal,
and finitely many rounds always get there. -/
theorem registry_converges (gameId : GameId) (roster : Roster P) :
    (∀ l, ∀ registry, registry = (SessionChainRegistry.start gameId roster).ingestAll l →
      (∀ seat, (registry.chains seat).GapFree P) ∧
      (∀ seat seq e more, (registry.chains seat).accepted seq = some e →
        ((registry.ingestAll more).chains seat).accepted seq = some e) ∧
      (∀ e, (∀ head, (registry.ingest e).1 ≠ .chain (.accepted head)) →
        (registry.ingest e).2 = registry) ∧
      ∀ e existing, (registry.ingest e).1 = .chain (.equivocation existing) ↔
        e.game = gameId ∧ ∃ seat, roster.seatOf e.from_ = some seat ∧
          (registry.chains seat).accepted e.seq = some existing ∧
          P.hashEnvelope existing ≠ P.hashEnvelope e) ∧
    (∀ E, ForkFree E → ∀ l l', (∀ e ∈ l, e ∈ E) → (∀ e ∈ l', e ∈ E) →
      Exhausted ((SessionChainRegistry.start gameId roster).ingestAll l) E →
      Exhausted ((SessionChainRegistry.start gameId roster).ingestAll l') E →
      (SessionChainRegistry.start gameId roster).ingestAll l =
        (SessionChainRegistry.start gameId roster).ingestAll l') ∧
    ∀ E : Finset SignedEnvelope, ∀ rounds : List (List SignedEnvelope),
      (∀ round ∈ rounds, ∀ e, e ∈ round ↔ e ∈ E) → E.card ≤ rounds.length →
      Exhausted ((SessionChainRegistry.start gameId roster).ingestAll rounds.flatten) E := by
  have hstart := HoldsLogs.start gameId roster
  refine ⟨?_, ?_, ?_⟩
  · rintro l registry rfl
    obtain ⟨hgame, hroster, logs, hlogs, -, -⟩ := hstart.ingestAll l
    refine ⟨fun seat => (hlogs.chain seat).gapFree, ?_, ?_, ?_⟩
    · intro seat seq e more he
      obtain ⟨-, -, logs', hlogs', hpre, -⟩ := hlogs.ingestAll more
      rw [(hlogs.chain seat).accepted] at he
      rw [(hlogs'.chain seat).accepted]
      obtain ⟨hlt, rfl⟩ := List.getElem?_eq_some_iff.1 he
      exact List.prefix_iff_getElem?.1 (hpre seat) seq hlt
    · intro e hnot
      exact HoldsLogs.ingest_of_not_accepted fun head hhead =>
        hnot head (HoldsLogs.ingest_fst.trans hhead)
    · intro e existing
      rw [HoldsLogs.ingest_fst, hlogs.classify_equivocation, hgame, hroster]
      simp only [(hlogs.chain _).accepted]
      rfl
  · intro E hE l l' hl hl' hdone hdone'
    obtain ⟨hgame, hroster, logs, hlogs, -, hmem⟩ := hstart.ingestAll l
    obtain ⟨hgame', hroster', logs', hlogs', -, hmem'⟩ := hstart.ingestAll l'
    have hsub : ∀ seat, ∀ e ∈ logs seat, e ∈ E := fun seat e he =>
      hl e ((hmem seat e he).resolve_left List.not_mem_nil)
    have hsub' : ∀ seat, ∀ e ∈ logs' seat, e ∈ E := fun seat e he =>
      hl' e ((hmem' seat e he).resolve_left List.not_mem_nil)
    have hgames := hgame.trans hgame'.symm
    have hrosters := hroster.trans hroster'.symm
    obtain rfl : logs = logs' := by
      funext seat
      by_cases hseat : seat < roster.size
      · have hle := hlogs.prefix_of_exhausted hlogs' hgames hrosters hE hsub hsub' hdone'
          (by rwa [hroster])
        have hge := hlogs'.prefix_of_exhausted hlogs hgames.symm hrosters.symm hE hsub' hsub hdone
          (by rwa [hroster'])
        exact hle.eq_of_length (le_antisymm hle.length_le hge.length_le)
      · rw [hlogs.absent seat (by rw [hroster]; exact not_lt.1 hseat),
          hlogs'.absent seat (by rw [hroster']; exact not_lt.1 hseat)]
    exact hlogs.unique hlogs' hgames hrosters
  · intro E rounds hrounds hcount
    exact hstart.exhausted_of_rounds (by simp) hrounds (by omega)

end

end Tablefolk
