import Tablefolk.Session.Roster

/-!
# Sender chains and the session registry

The model of `session/sender-chain.ts` and `session/chain-registry.ts`.

A `SenderChain` holds the envelopes of one sender by sequence number, and a head.  Each
envelope names the hash of the one before it.  A `SessionChainRegistry` is one chain for
every seat of a roster.
-/

namespace Tablefolk

/-- `ChainHead`. -/
structure ChainHead where
  from_ : IdentityPublicKey
  seq : ℕ
  hash : Hash256
  deriving DecidableEq

/-- `ChainIngestResult`, without the envelope it was asked about. -/
inductive ChainIngestResult where
  | accepted (head : ChainHead)
  | duplicate (existing : SignedEnvelope)
  | wrong_sender (expected actual : IdentityPublicKey)
  | gap (expectedSeq actualSeq : ℕ)
  | broken_prev (expectedPrev actualPrev : Hash256)
  | equivocation (existing : SignedEnvelope)
  deriving DecidableEq

/-- `SenderChain`. -/
structure SenderChain where
  sender : IdentityPublicKey
  accepted : ℕ → Option SignedEnvelope
  head : Option ChainHead

/-- `SessionIngestResult`. -/
inductive SessionIngestResult where
  | chain (result : ChainIngestResult)
  | wrong_game (expected actual : GameId)
  | unknown_sender (sender : IdentityPublicKey)
  deriving DecidableEq

/-- `SyncRangeResult`. -/
inductive SyncRangeResult where
  | complete (envelopes : List SignedEnvelope)
  | missing (firstMissingSeq : ℕ)
  | unknown_sender
  deriving DecidableEq

section

variable {q : ℕ} {G : Type} [AddCommGroup G] [Module (ZMod q) G] (P : Primitives q G)

namespace SenderChain

/-- `new SenderChain(sender)`. -/
def start (sender : IdentityPublicKey) : SenderChain := ⟨sender, fun _ => none, none⟩

/-- `expectedSeq`: where the next envelope goes. -/
def expectedSeq (chain : SenderChain) : ℕ :=
  match chain.head with
  | none => 0
  | some head => head.seq + 1

/-- `expectedPrev`: what the next envelope must name. -/
def expectedPrev (chain : SenderChain) : Hash256 := (chain.head.map ChainHead.hash).getD ZERO_HASH

/-- `classify`. -/
def classify (chain : SenderChain) (received : SignedEnvelope) : ChainIngestResult :=
  if received.from_ ≠ chain.sender then .wrong_sender chain.sender received.from_
  else match chain.accepted received.seq with
  | some existing =>
      if P.hashEnvelope existing = P.hashEnvelope received then .duplicate existing
      else .equivocation existing
  | none =>
      if received.seq ≠ chain.expectedSeq then .gap chain.expectedSeq received.seq
      else if received.prev ≠ chain.expectedPrev then .broken_prev chain.expectedPrev received.prev
      else .accepted ⟨chain.sender, received.seq, P.hashEnvelope received⟩

/-- `ingest`. -/
def ingest (chain : SenderChain) (received : SignedEnvelope) : ChainIngestResult × SenderChain :=
  match chain.classify P received with
  | .accepted head => (.accepted head, { chain with
      accepted := Function.update chain.accepted received.seq (some received)
      head := some head })
  | result => (result, chain)

end SenderChain

/-! ## The log of a chain -/

/-- The hash the next envelope after a log must name. -/
def prevAfter (log : List SignedEnvelope) : Hash256 :=
  (log.getLast?.map P.hashEnvelope).getD ZERO_HASH

/-- Every envelope of the log is its sender's, has its place as sequence number and names
the hash of the one before it. -/
def Linked (sender : IdentityPublicKey) (log : List SignedEnvelope) : Prop :=
  ∀ before e after, log = before ++ e :: after →
    e.from_ = sender ∧ e.seq = before.length ∧ e.prev = prevAfter P before

/-- The chain holds exactly the log. -/
structure HoldsLog (chain : SenderChain) (log : List SignedEnvelope) : Prop where
  accepted : ∀ seq, chain.accepted seq = log[seq]?
  head : chain.head = log.getLast?.map fun last =>
    ⟨chain.sender, log.length - 1, P.hashEnvelope last⟩
  linked : Linked P chain.sender log

variable {P} {sender : IdentityPublicKey} {chain : SenderChain} {log : List SignedEnvelope}
  {e : SignedEnvelope}

theorem linked_nil : Linked P sender [] := by
  intro before e after h
  simp at h

theorem linked_snoc : Linked P sender (log ++ [e]) ↔
    Linked P sender log ∧ e.from_ = sender ∧ e.seq = log.length ∧ e.prev = prevAfter P log := by
  constructor
  · intro h
    refine ⟨fun before m after hlog => h before m (after ++ [e]) (by simp [hlog]), h log e [] rfl⟩
  · rintro ⟨h, hlast⟩ before m after hlog
    rcases List.eq_nil_or_concat after with rfl | ⟨after, last, rfl⟩
    · obtain ⟨rfl, hm⟩ := List.append_inj' hlog rfl
      cases hm
      exact hlast
    · rw [show before ++ m :: after.concat last = (before ++ m :: after) ++ [last] by simp] at hlog
      obtain ⟨hlog, -⟩ := List.append_inj' hlog rfl
      exact h before m after hlog

/-- A prefix of a linked log is linked. -/
theorem Linked.of_prefix {l : List SignedEnvelope} (h : Linked P sender log) (hl : l <+: log) :
    Linked P sender l := by
  obtain ⟨rest, rfl⟩ := hl
  exact fun before m after heq => h before m (after ++ rest) (by simp [heq])

theorem Linked.getElem? {seq : ℕ} (h : Linked P sender log) (he : log[seq]? = some e) :
    e.from_ = sender ∧ e.seq = seq ∧ e.prev = prevAfter P (log.take seq) := by
  obtain ⟨hlt, rfl⟩ := List.getElem?_eq_some_iff.1 he
  have hsplit : log = log.take seq ++ log[seq] :: log.drop (seq + 1) := by simp
  obtain ⟨hfrom, hseq, hprev⟩ := h _ _ _ hsplit
  exact ⟨hfrom, by rw [hseq, List.length_take, min_eq_left hlt.le], hprev⟩

theorem prevAfter_take_succ {seq : ℕ} (he : log[seq]? = some e) :
    prevAfter P (log.take (seq + 1)) = P.hashEnvelope e := by
  obtain ⟨hlt, rfl⟩ := List.getElem?_eq_some_iff.1 he
  rw [prevAfter, List.take_succ_eq_append_getElem hlt, List.getLast?_concat]
  rfl

theorem HoldsLog.start (sender : IdentityPublicKey) : HoldsLog P (SenderChain.start sender) [] :=
  ⟨fun _ => rfl, rfl, linked_nil⟩

namespace HoldsLog

variable (h : HoldsLog P chain log)
include h

theorem expectedSeq : chain.expectedSeq = log.length := by
  rw [SenderChain.expectedSeq, h.head]
  rcases List.eq_nil_or_concat log with rfl | ⟨before, last, rfl⟩
  · rfl
  · simp

theorem expectedPrev : chain.expectedPrev = prevAfter P log := by
  rw [SenderChain.expectedPrev, h.head, prevAfter, Option.map_map]
  rfl

/-- A chain accepts exactly the envelope that continues its log. -/
theorem classify_accepted {head : ChainHead} : chain.classify P e = .accepted head ↔
    e.from_ = chain.sender ∧ e.seq = log.length ∧ e.prev = prevAfter P log ∧
      head = ⟨chain.sender, e.seq, P.hashEnvelope e⟩ := by
  rw [SenderChain.classify]
  by_cases hfrom : e.from_ = chain.sender
  · rw [if_neg (not_not.2 hfrom), h.accepted]
    cases hheld : log[e.seq]? with
    | some existing =>
        have hlt := (List.getElem?_eq_some_iff.1 hheld).1
        refine iff_of_false ?_ fun hall => by omega
        dsimp only
        split <;> simp
    | none =>
        simp only [h.expectedSeq, h.expectedPrev]
        by_cases hseq : e.seq = log.length
        · by_cases hprev : e.prev = prevAfter P log
          · simp [hfrom, hseq, hprev, eq_comm]
          · simp [hseq, hprev]
        · simp [hseq]
  · simp [hfrom]

/-- A chain reports equivocation exactly on another envelope at a place it holds. -/
theorem classify_equivocation {existing : SignedEnvelope} :
    chain.classify P e = .equivocation existing ↔ e.from_ = chain.sender ∧
      log[e.seq]? = some existing ∧ P.hashEnvelope existing ≠ P.hashEnvelope e := by
  rw [SenderChain.classify]
  by_cases hfrom : e.from_ = chain.sender
  · rw [if_neg (not_not.2 hfrom), h.accepted]
    cases hheld : log[e.seq]? with
    | some held =>
        by_cases hhash : P.hashEnvelope held = P.hashEnvelope e
        · simp only [hhash, if_true]
          refine iff_of_false (by simp) ?_
          rintro ⟨-, ⟨⟩, hne⟩
          exact hne hhash
        · simp only [hhash, if_false, ChainIngestResult.equivocation.injEq, Option.some.injEq]
          exact ⟨by rintro rfl; exact ⟨hfrom, rfl, hhash⟩, fun hall => hall.2.1⟩
    | none =>
        refine iff_of_false ?_ (by simp)
        dsimp only
        split_ifs <;> simp
  · simp [hfrom]

/-- A chain reports a duplicate exactly on an envelope with the hash of the one it holds. -/
theorem classify_duplicate {existing : SignedEnvelope} :
    chain.classify P e = .duplicate existing ↔ e.from_ = chain.sender ∧
      log[e.seq]? = some existing ∧ P.hashEnvelope existing = P.hashEnvelope e := by
  rw [SenderChain.classify]
  by_cases hfrom : e.from_ = chain.sender
  · rw [if_neg (not_not.2 hfrom), h.accepted]
    cases hheld : log[e.seq]? with
    | some held =>
        by_cases hhash : P.hashEnvelope held = P.hashEnvelope e
        · simp only [hhash, if_true, ChainIngestResult.duplicate.injEq, Option.some.injEq]
          exact ⟨by rintro rfl; exact ⟨hfrom, rfl, hhash⟩, fun hall => hall.2.1⟩
        · simp only [hhash, if_false]
          refine iff_of_false (by simp) ?_
          rintro ⟨-, ⟨⟩, heq⟩
          exact hhash heq
    | none =>
        refine iff_of_false ?_ (by simp)
        dsimp only
        split_ifs <;> simp
  · simp [hfrom]

/-- Whatever is ingested, the chain holds a log: the old one, or one more envelope. -/
theorem ingest : (∃ head, (chain.ingest P e).1 = .accepted head ∧
      HoldsLog P (chain.ingest P e).2 (log ++ [e])) ∨
    (∀ head, (chain.ingest P e).1 ≠ .accepted head) ∧ (chain.ingest P e).2 = chain := by
  cases hresult : chain.classify P e with
  | accepted head =>
      left
      obtain ⟨hfrom, hseq, hprev, rfl⟩ := h.classify_accepted.1 hresult
      simp only [SenderChain.ingest, hresult]
      refine ⟨_, rfl, fun seq => ?_, by simp [hseq], linked_snoc.2 ⟨h.linked, hfrom, hseq, hprev⟩⟩
      show Function.update chain.accepted e.seq (some e) seq = _
      by_cases heq : seq = e.seq
      · subst heq
        rw [Function.update_self, hseq]
        simp
      · rw [Function.update_of_ne heq, h.accepted]
        by_cases hlt : seq < log.length
        · rw [List.getElem?_append_left hlt]
        · rw [List.getElem?_eq_none (by omega), List.getElem?_eq_none (by simp; omega)]
  | duplicate | wrong_sender | gap | broken_prev | equivocation =>
      right
      simp [SenderChain.ingest, hresult]

end HoldsLog

end

end Tablefolk
