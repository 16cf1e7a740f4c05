import Tablefolk.Lib.OrderedMap
import Tablefolk.Protocol.Codec
import Tablefolk.Protocol.Hex
import Tablefolk.Session.Registry

/-!
# The order of a transcript

The model of `session/transcript-order.ts` and `session/session-recovery.ts`.  Both put the
envelopes of each sender in the order of their sequence numbers and offer them to a chain; one goes
through the senders as texts in lexicographic order, the other seat by seat.

* `groupBySender_eq_ok`: what the first loop makes of a transcript.
* `orderEnvelopeTranscript_eq_ok`: which transcripts have an order, and which order it is.
* `transcript_order_canonical`: what follows for permutations, for an ordered transcript and for the
  recovery of a session.
-/

namespace Tablefolk

/-- What is wrong with a transcript. -/
inductive TranscriptError where
  /-- `Transcript envelope ${index} is invalid` -/
  | invalid (index : ℕ) (cause : EnvelopeError)
  /-- `Transcript envelope ${index} belongs to another game` -/
  | another_game (index : ℕ)
  /-- `Transcript envelope ${index} has a non-roster sender` -/
  | non_roster (index : ℕ)
  /-- `Transcript repeats sender ${sender} sequence ${seq}` -/
  | repeats (sender : String) (seq : ℕ)
  /-- `Invalid chain for sender ${sender} at sequence ${seq}: ${reason}` -/
  | invalid_chain (sender : String) (seq : ℕ) (reason : ChainIngestResult)
  /-- `Could not recover sender ${sender} sequence ${seq}: ${reason}` -/
  | not_recovered (sender : String) (seq : ℕ) (reason : SessionIngestResult)

section

variable {q : ℕ} {G : Type} [AddCommGroup G] [Module (ZMod q) G] (P : Primitives q G) (ed : Ed25519)

/-- The key of a sender in the maps. -/
def senderKey (artifact : SignedEnvelope) : String := bytesToHex artifact.from_.val

/-- The text of sender and sequence number, as the pair of them. -/
def tuple (artifact : SignedEnvelope) : String × ℕ := (senderKey artifact, artifact.seq)

/-- `bySender.set(sender, [...artifacts, artifact])`. -/
def pushArtifact (bySender : OrderedMap String (List SignedEnvelope)) (artifact : SignedEnvelope) :
    OrderedMap String (List SignedEnvelope) :=
  bySender.set (senderKey artifact) ((bySender.get? (senderKey artifact)).getD [] ++ [artifact])

/-- The loop over a transcript.  Only the recovery asks for members. -/
def groupBySender (gameId : GameId) (member : IdentityPublicKey → Bool) : ℕ → List (String × ℕ) →
    OrderedMap String (List SignedEnvelope) → List SignedEnvelope →
      Except TranscriptError (OrderedMap String (List SignedEnvelope))
  | _, _, bySender, [] => return bySender
  | index, tuples, bySender, candidate :: rest => do
      let artifact ← (verifyArtifact ed candidate).mapError (TranscriptError.invalid index)
      throwIf (artifact.game ≠ gameId) (TranscriptError.another_game index)
      throwIf (member artifact.from_ = false) (TranscriptError.non_roster index)
      throwIf (tuple artifact ∈ tuples) (.repeats (senderKey artifact) artifact.seq)
      groupBySender gameId member (index + 1) (tuple artifact :: tuples)
        (pushArtifact bySender artifact) rest

/-- `artifacts.sort(compareSequence)`. -/
def sortBySequence (artifacts : List SignedEnvelope) : List SignedEnvelope :=
  artifacts.insertionSort fun left right => left.seq ≤ right.seq

/-- The artifacts of a sender. -/
def artifactsOf (bySender : OrderedMap String (List SignedEnvelope)) (sender : String) :
    List SignedEnvelope :=
  sortBySequence ((bySender.get? sender).getD [])

/-! ## The order -/

/-- The loop over the artifacts of a sender. -/
def ingestArtifacts (sender : String) : SenderChain → List SignedEnvelope → Except TranscriptError Unit
  | _, [] => return ()
  | chain, artifact :: rest =>
      match chain.ingest P artifact with
      | (.accepted _, chain) => ingestArtifacts sender chain rest
      | (result, _) => throw (.invalid_chain sender artifact.seq result)

/-- The loop over the senders. -/
def orderSenders (bySender : OrderedMap String (List SignedEnvelope)) :
    List String → Except TranscriptError (List SignedEnvelope)
  | [] => return []
  | sender :: rest => do
      let artifacts := artifactsOf bySender sender
      match artifacts with
      | [] => orderSenders bySender rest
      | first :: _ => do
          ingestArtifacts P sender (.start first.from_) artifacts
          let ordered ← orderSenders bySender rest
          return artifacts ++ ordered

/-- `orderEnvelopeTranscript`. -/
def orderEnvelopeTranscript (gameId : GameId) (transcript : List SignedEnvelope) :
    Except TranscriptError (List SignedEnvelope) := do
  let bySender ← groupBySender ed gameId (fun _ => true) 0 [] .empty transcript
  orderSenders P bySender ((bySender.entries.map Prod.fst).insertionSort (· ≤ ·))

/-! ## The recovery -/

variable {P}

/-- The loop over the artifacts of a seat. -/
def recoverArtifacts (sender : String) : SessionChainRegistry P → List SignedEnvelope →
    Except TranscriptError (SessionChainRegistry P)
  | registry, [] => return registry
  | registry, artifact :: rest =>
      match registry.ingest artifact with
      | (.chain (.accepted _), registry) => recoverArtifacts sender registry rest
      | (result, _) => throw (.not_recovered sender artifact.seq result)

/-- The loop over the roster. -/
def recoverSeats (bySender : OrderedMap String (List SignedEnvelope)) : SessionChainRegistry P →
    List IdentityPublicKey → Except TranscriptError (SessionChainRegistry P)
  | registry, [] => return registry
  | registry, sender :: rest => do
      let registry ← recoverArtifacts (bytesToHex sender.val) registry
        (artifactsOf bySender (bytesToHex sender.val))
      recoverSeats bySender registry rest

/-- `recoverSessionChains`. -/
def recoverSessionChains (gameId : GameId) (roster : Roster P) (transcript : List SignedEnvelope) :
    Except TranscriptError (SessionChainRegistry P) := do
  let registry := SessionChainRegistry.start gameId roster
  let bySender ← groupBySender ed gameId (fun sender => (roster.seatOf sender).isSome) 0 [] .empty
    transcript
  recoverSeats bySender registry roster.seats

variable {ed}

/-! ## Groups -/

theorem senderKey_inj {e e' : SignedEnvelope} (h : senderKey e = senderKey e') : e.from_ = e'.from_ :=
  Subtype.ext (bytesToHex_inj h)

/-- **What the first loop makes of a transcript.** -/
theorem groupBySender_eq_ok {gameId : GameId} {member : IdentityPublicKey → Bool} {index : ℕ}
    {tuples : List (String × ℕ)} {bySender bySender' : OrderedMap String (List SignedEnvelope)}
    {transcript : List SignedEnvelope} :
    groupBySender ed gameId member index tuples bySender transcript = .ok bySender' ↔
      (∀ e ∈ transcript, e.Artifact ed ∧ e.game = gameId ∧ member e.from_ = true) ∧
      (transcript.map tuple).Nodup ∧ (∀ e ∈ transcript, tuple e ∉ tuples) ∧
      bySender' = transcript.foldl pushArtifact bySender := by
  induction transcript generalizing index tuples bySender with
  | nil =>
      constructor
      · intro h
        cases h
        exact ⟨by simp, List.nodup_nil, by simp, rfl⟩
      · rintro ⟨-, -, -, rfl⟩
        rfl
  | cons e rest ih =>
      unfold groupBySender
      rw [bind_eq_ok]
      constructor
      · rintro ⟨artifact, hartifact, h⟩
        obtain ⟨rfl, hartifact⟩ := mapError_verifyArtifact_eq_ok.1 hartifact
        obtain ⟨hgame, h⟩ := check_bind_eq_ok.1 h
        obtain ⟨hmember, h⟩ := check_bind_eq_ok.1 h
        obtain ⟨hfresh, h⟩ := check_bind_eq_ok.1 h
        obtain ⟨hall, hnodup, hother, hresult⟩ := ih.1 h
        rw [throwIf_eq_ok] at hgame hmember hfresh
        have hfirst : tuple artifact ∉ rest.map tuple := by
          intro hmem
          obtain ⟨e', he', heq⟩ := List.mem_map.1 hmem
          exact hother e' he' (heq ▸ List.mem_cons_self)
        refine ⟨fun e he => ?_, List.nodup_cons.2 ⟨hfirst, hnodup⟩, fun e he => ?_, hresult⟩
        · rcases List.mem_cons.1 he with rfl | he
          · exact ⟨hartifact, not_not.1 hgame, Bool.not_eq_false _ ▸ hmember⟩
          · exact hall e he
        · rcases List.mem_cons.1 he with rfl | he
          · exact hfresh
          · exact fun hmem => hother e he (List.mem_cons_of_mem _ hmem)
      · rintro ⟨hall, hnodup, hother, hresult⟩
        obtain ⟨hartifact, hgame, hmember⟩ := hall e List.mem_cons_self
        obtain ⟨hfirst, hnodup⟩ := List.nodup_cons.1 hnodup
        refine ⟨e, mapError_verifyArtifact_eq_ok.2 ⟨rfl, hartifact⟩, ?_⟩
        rw [throwIf_neg (not_not.2 hgame), ok_bind, throwIf_neg (by rw [hmember]; decide), ok_bind,
          throwIf_neg (hother e List.mem_cons_self), ok_bind]
        refine ih.2 ⟨fun e' he' => hall e' (List.mem_cons_of_mem _ he'), hnodup, fun e' he' hmem => ?_,
          hresult⟩
        rcases List.mem_cons.1 hmem with heq | hmem
        · exact hfirst (List.mem_map.2 ⟨e', he', heq⟩)
        · exact hother e' (List.mem_cons_of_mem _ he') hmem

theorem get?_foldl_push (bySender : OrderedMap String (List SignedEnvelope))
    (transcript : List SignedEnvelope) (sender : String) :
    ((transcript.foldl pushArtifact bySender).get? sender).getD [] =
      (bySender.get? sender).getD [] ++ transcript.filter fun e => senderKey e = sender := by
  induction transcript generalizing bySender with
  | nil => simp
  | cons e rest ih =>
      rw [List.foldl_cons, ih, pushArtifact, OrderedMap.get?_set]
      by_cases hsame : sender = senderKey e
      · subst hsame
        simp
      · rw [if_neg hsame, List.filter_cons_of_neg (by simpa using Ne.symm hsame)]

theorem mem_keys_foldl_push {bySender : OrderedMap String (List SignedEnvelope)}
    {transcript : List SignedEnvelope} {sender : String} :
    sender ∈ (transcript.foldl pushArtifact bySender).entries.map Prod.fst ↔
      sender ∈ bySender.entries.map Prod.fst ∨ ∃ e ∈ transcript, senderKey e = sender := by
  induction transcript generalizing bySender with
  | nil => simp
  | cons e rest ih =>
      rw [List.foldl_cons, ih, pushArtifact, OrderedMap.set, OrderedMap.keys_setEntries]
      simp only [List.mem_cons, exists_eq_or_imp]
      rw [eq_comm (a := sender), or_assoc, or_left_comm]

/-! ## Chains -/

section

variable {sender : IdentityPublicKey} {log artifacts : List SignedEnvelope}

theorem sortBySequence_perm (artifacts : List SignedEnvelope) :
    (sortBySequence artifacts).Perm artifacts := List.perm_insertionSort _ artifacts

/-- The artifacts of a chain in any order are sorted to the chain. -/
theorem sortBySequence_of_perm (hlinked : Linked P sender log) (hperm : artifacts.Perm log) :
    sortBySequence artifacts = log := by
  have hsorted : log.Pairwise fun left right => left.seq ≤ right.seq := by
    rw [List.pairwise_iff_getElem]
    intro i j hi hj hlt
    rw [(hlinked.getElem? (List.getElem?_eq_getElem hi)).2.1,
      (hlinked.getElem? (List.getElem?_eq_getElem hj)).2.1]
    exact hlt.le
  have htotal : (sortBySequence artifacts).Pairwise fun left right => left.seq ≤ right.seq := by
    unfold sortBySequence
    exact List.pairwise_insertionSort _ artifacts
  have hsame := (sortBySequence_perm artifacts).trans hperm
  refine hsame.eq_of_pairwise (fun left right hleft hright hle hle' => ?_) htotal hsorted
  -- one place, one envelope
  obtain ⟨i, hi⟩ := List.mem_iff_getElem?.1 (hsame.subset hleft)
  obtain ⟨j, hj⟩ := List.mem_iff_getElem?.1 hright
  have hseq : i = j := by
    rw [← (hlinked.getElem? hi).2.1, ← (hlinked.getElem? hj).2.1]
    exact le_antisymm hle hle'
  rw [hseq, hj] at hi
  exact (Option.some.inj hi).symm

/-- A chain accepts artifacts one after the other exactly when they continue its log. -/
theorem ingestArtifacts_eq_ok {key : String} {chain : SenderChain} (h : HoldsLog P chain log) :
    ingestArtifacts P key chain artifacts = .ok () ↔ Linked P chain.sender (log ++ artifacts) := by
  induction artifacts generalizing chain log with
  | nil => simpa [ingestArtifacts] using h.linked
  | cons artifact rest ih =>
      have hsplit : log ++ artifact :: rest = (log ++ [artifact]) ++ rest := by simp
      unfold ingestArtifacts
      cases hclassify : chain.classify P artifact with
      | accepted head =>
          have hsender : (chain.ingest P artifact).2.sender = chain.sender := by
            simp [SenderChain.ingest, hclassify]
          have hfst : (chain.ingest P artifact).1 = .accepted head := by
            simp [SenderChain.ingest, hclassify]
          rcases h.ingest (e := artifact) with ⟨-, -, hlog⟩ | ⟨hnot, -⟩
          · rw [hsplit, ← hsender, ← ih hlog, show chain.ingest P artifact =
              ((chain.ingest P artifact).1, (chain.ingest P artifact).2) from rfl, hfst]
          · exact absurd hfst (hnot head)
      | duplicate | wrong_sender | gap | broken_prev | equivocation =>
          refine iff_of_false (by simp [SenderChain.ingest, hclassify]) fun hlinked => ?_
          rw [hsplit] at hlinked
          obtain ⟨-, hfrom, hseq, hprev⟩ :=
            linked_snoc.1 (hlinked.of_prefix (List.prefix_append _ _))
          have haccepted := h.classify_accepted.2 ⟨hfrom, hseq, hprev, rfl⟩
          rw [hclassify] at haccepted
          cases haccepted

end

/-! ## Which transcripts have an order -/

section

variable {gameId : GameId} {transcript ordered : List SignedEnvelope} {sender : IdentityPublicKey}

variable (transcript) in
/-- The artifacts of a sender in a transcript, in the order of their sequence numbers. -/
def chainOf (sender : IdentityPublicKey) : List SignedEnvelope :=
  sortBySequence (transcript.filter fun e => senderKey e = bytesToHex sender.val)

theorem artifactsOf_push (transcript : List SignedEnvelope) (sender : IdentityPublicKey) :
    artifactsOf (transcript.foldl pushArtifact .empty) (bytesToHex sender.val) =
      chainOf transcript sender := by
  rw [artifactsOf, get?_foldl_push]
  rfl

theorem mem_chainOf {e : SignedEnvelope} :
    e ∈ chainOf transcript sender ↔ e ∈ transcript ∧ e.from_ = sender := by
  rw [chainOf, (sortBySequence_perm _).mem_iff, List.mem_filter, decide_eq_true_eq]
  constructor
  · rintro ⟨he, hkey⟩
    exact ⟨he, Subtype.ext (bytesToHex_inj hkey)⟩
  · rintro ⟨he, rfl⟩
    exact ⟨he, rfl⟩

theorem orderSenders_eq_ok {bySender : OrderedMap String (List SignedEnvelope)} {keys : List String} :
    orderSenders P bySender keys = .ok ordered ↔
      (∀ key ∈ keys, ∀ first ∈ (artifactsOf bySender key).head?,
        Linked P first.from_ (artifactsOf bySender key)) ∧
      ordered = keys.flatMap (artifactsOf bySender) := by
  induction keys generalizing ordered with
  | nil =>
      constructor
      · intro h
        cases h
        exact ⟨by simp, rfl⟩
      · rintro ⟨-, rfl⟩
        rfl
  | cons key rest ih =>
      unfold orderSenders
      rw [List.forall_mem_cons, List.flatMap_cons]
      cases hartifacts : artifactsOf bySender key with
      | nil =>
          simp only [List.head?_nil, List.nil_append]
          rw [ih]
          simp
      | cons first others =>
          have hlog : ingestArtifacts P key (.start first.from_) (first :: others) = .ok () ↔
              Linked P first.from_ ([] ++ first :: others) :=
            ingestArtifacts_eq_ok (HoldsLog.start first.from_)
          simp only [List.head?_cons, Option.mem_some_iff, forall_eq']
          rw [check_bind_eq_ok, hlog, List.nil_append]
          constructor
          · rintro ⟨hlinked, h⟩
            obtain ⟨others', hothers, h⟩ := bind_eq_ok.1 h
            cases h
            obtain ⟨hrest, rfl⟩ := ih.1 hothers
            exact ⟨⟨hlinked, hrest⟩, rfl⟩
          · rintro ⟨⟨hlinked, hrest⟩, rfl⟩
            refine ⟨hlinked, ?_⟩
            rw [ih.2 ⟨hrest, rfl⟩]
            rfl

/-- The groups of a list, one key after the other, are the list. -/
theorem flatMap_filter_perm {keys : List String} (hnodup : keys.Nodup) (l : List SignedEnvelope) :
    (keys.flatMap fun key => l.filter fun e => senderKey e = key).Perm
      (l.filter fun e => senderKey e ∈ keys) := by
  induction keys with
  | nil => simp
  | cons key rest ih =>
      obtain ⟨hfirst, hrest⟩ := List.nodup_cons.1 hnodup
      have hhere : (l.filter fun e => senderKey e ∈ key :: rest).filter (fun e => senderKey e = key)
          = l.filter fun e => senderKey e = key := by
        rw [List.filter_filter]
        refine List.filter_congr fun e _ => ?_
        by_cases hkey : senderKey e = key <;> simp [hkey]
      have hothers : (l.filter fun e => senderKey e ∈ key :: rest).filter
          (fun e => !decide (senderKey e = key)) = l.filter fun e => senderKey e ∈ rest := by
        rw [List.filter_filter]
        refine List.filter_congr fun e _ => ?_
        by_cases hkey : senderKey e = key
        · simp [hkey, hfirst]
        · simp [hkey]
      have hsplit := List.filter_append_perm (fun e => decide (senderKey e = key))
        (l.filter fun e => senderKey e ∈ key :: rest)
      rw [hhere, hothers] at hsplit
      rw [List.flatMap_cons]
      exact ((ih hrest).append_left _).trans hsplit

theorem Linked.map_tuple {log : List SignedEnvelope} (h : Linked P sender log) :
    log.map tuple = (List.range log.length).map fun seq => (bytesToHex sender.val, seq) := by
  refine List.ext_getElem (by simp) fun seq hlt hlt' => ?_
  have he := h.getElem? (List.getElem?_eq_getElem (by simpa using hlt))
  simp [tuple, senderKey, he.1, he.2.1]

/-- Some senders in lexicographic order, each with a chain from its first envelope on. -/
structure Chains (P : Primitives q G) (senders : List IdentityPublicKey)
    (logs : IdentityPublicKey → List SignedEnvelope) : Prop where
  sorted : senders.Pairwise fun left right => bytesToHex left.val < bytesToHex right.val
  linked : ∀ sender ∈ senders, logs sender ≠ [] ∧ Linked P sender (logs sender)

namespace Chains

variable {senders : List IdentityPublicKey} {logs : IdentityPublicKey → List SignedEnvelope}
  (h : Chains P senders logs)
include h

theorem nodup : senders.Nodup := h.sorted.imp fun hlt heq => by
  rw [heq] at hlt
  exact lt_irrefl _ hlt

theorem from_eq (hsender : sender ∈ senders) {e : SignedEnvelope} (he : e ∈ logs sender) :
    e.from_ = sender := by
  obtain ⟨index, hindex⟩ := List.mem_iff_getElem?.1 he
  exact ((h.linked sender hsender).2.getElem? hindex).1

/-- No sender has two envelopes with one sequence number. -/
theorem nodup_tuples : ((senders.flatMap logs).map tuple).Nodup := by
  rw [List.map_flatMap, List.nodup_flatMap]
  constructor
  · intro sender hsender
    rw [(h.linked sender hsender).2.map_tuple]
    exact List.nodup_range.map fun a b heq => (Prod.mk.inj heq).2
  · refine h.nodup.imp_of_mem fun hleft hright hne => ?_
    intro entry hentry hentry'
    obtain ⟨e, he, rfl⟩ := List.mem_map.1 hentry
    obtain ⟨e', he', heq⟩ := List.mem_map.1 hentry'
    have hsame := senderKey_inj (Prod.mk.inj heq).1
    rw [h.from_eq hright he', h.from_eq hleft he] at hsame
    exact hne hsame.symm

/-- The envelopes of a sender among all are its chain. -/
theorem filter_eq (hsender : sender ∈ senders) :
    ((senders.flatMap logs).filter fun e => senderKey e = bytesToHex sender.val) = logs sender := by
  have hnodup := h.nodup
  have hfrom : ∀ sender ∈ senders, ∀ e ∈ logs sender, e.from_ = sender :=
    fun _ hsender _ he => h.from_eq hsender he
  clear h
  induction senders with
  | nil => cases hsender
  | cons first rest ih =>
      obtain ⟨hfirst, hnodup⟩ := List.nodup_cons.1 hnodup
      have hskip : ∀ {other : IdentityPublicKey}, other ∈ first :: rest → other ≠ sender →
          ((logs other).filter fun e => senderKey e = bytesToHex sender.val) = [] := by
        intro other hother hne
        refine List.filter_eq_nil_iff.2 fun e he hkey => hne ?_
        rw [← hfrom other hother e he]
        exact Subtype.ext (bytesToHex_inj (of_decide_eq_true hkey))
      rw [List.flatMap_cons, List.filter_append]
      by_cases hsame : first = sender
      · subst hsame
        have hrest : ((rest.flatMap logs).filter fun e => senderKey e = bytesToHex first.val) = [] := by
          rw [List.filter_flatMap, List.flatMap_eq_nil_iff]
          intro other hother
          exact hskip (List.mem_cons_of_mem _ hother) fun heq => hfirst (heq ▸ hother)
        rw [hrest, List.append_nil, List.filter_eq_self]
        intro e he
        rw [decide_eq_true_eq, senderKey, hfrom first List.mem_cons_self e he]
      · rw [hskip List.mem_cons_self hsame, List.nil_append]
        exact ih ((List.mem_cons.1 hsender).resolve_left (Ne.symm hsame)) hnodup
          fun other hother => hfrom other (List.mem_cons_of_mem _ hother)

theorem chainOf_eq (hperm : transcript.Perm (senders.flatMap logs)) (hsender : sender ∈ senders) :
    chainOf transcript sender = logs sender := by
  refine sortBySequence_of_perm (h.linked sender hsender).2 ?_
  have hfilter := hperm.filter fun e => decide (senderKey e = bytesToHex sender.val)
  rwa [h.filter_eq hsender] at hfilter

end Chains

/-- The senders of a transcript, in the order of the map's sorted keys. -/
theorem exists_senders (transcript : List SignedEnvelope) : ∃ senders : List IdentityPublicKey,
    senders.Pairwise (fun left right => bytesToHex left.val < bytesToHex right.val) ∧
    senders.map (fun sender => bytesToHex sender.val) =
      ((transcript.foldl pushArtifact .empty).entries.map Prod.fst).insertionSort (· ≤ ·) ∧
    ∀ sender, sender ∈ senders ↔ ∃ e ∈ transcript, e.from_ = sender := by
  have hkeys : ∀ key, key ∈ ((transcript.foldl pushArtifact .empty).entries.map
      Prod.fst).insertionSort (· ≤ ·) ↔ ∃ e ∈ transcript, senderKey e = key := by
    intro key
    rw [List.mem_insertionSort, mem_keys_foldl_push]
    simp [OrderedMap.empty]
  have hrange : ((transcript.foldl pushArtifact .empty).entries.map Prod.fst).insertionSort (· ≤ ·) ∈
      Set.range (List.map fun sender : IdentityPublicKey => bytesToHex sender.val) := by
    rw [Set.range_list_map]
    intro key hkey
    obtain ⟨e, -, rfl⟩ := (hkeys key).1 hkey
    exact ⟨e.from_, rfl⟩
  obtain ⟨senders, hsenders⟩ := hrange
  have hsorted : (senders.map fun sender => bytesToHex sender.val).Pairwise (· < ·) := by
    rw [hsenders]
    have hle := List.pairwise_insertionSort (· ≤ ·)
      ((transcript.foldl pushArtifact .empty).entries.map Prod.fst)
    have hnodup : (((transcript.foldl pushArtifact .empty).entries.map
        Prod.fst).insertionSort (· ≤ ·)).Nodup :=
      (List.perm_insertionSort _ _).nodup_iff.2 (transcript.foldl pushArtifact .empty).nodup
    exact (hle.and hnodup).imp fun hboth => lt_of_le_of_ne hboth.1 hboth.2
  refine ⟨senders, List.pairwise_map.1 hsorted, hsenders, fun sender => ?_⟩
  have hmem : sender ∈ senders ↔
      bytesToHex sender.val ∈ senders.map fun sender => bytesToHex sender.val := by
    rw [List.mem_map_of_injective fun a b heq => Subtype.ext (bytesToHex_inj heq)]
  rw [hmem, hsenders, hkeys]
  constructor
  · rintro ⟨e, he, hkey⟩
    exact ⟨e, he, Subtype.ext (bytesToHex_inj hkey)⟩
  · rintro ⟨e, he, rfl⟩
    exact ⟨e, he, rfl⟩

theorem keys_eq {senders : List IdentityPublicKey}
    (hsenders : senders.map (fun sender => bytesToHex sender.val) =
      ((transcript.foldl pushArtifact .empty).entries.map Prod.fst).insertionSort (· ≤ ·)) :
    (((transcript.foldl pushArtifact .empty).entries.map Prod.fst).insertionSort (· ≤ ·)).flatMap
      (artifactsOf (transcript.foldl pushArtifact .empty)) = senders.flatMap (chainOf transcript) := by
  rw [← hsenders, List.flatMap_map]
  exact List.flatMap_congr fun sender _ => artifactsOf_push transcript sender

/-- The chains of a transcript are all of it. -/
theorem perm_flatMap_chainOf {senders : List IdentityPublicKey} (hnodup : senders.Nodup)
    (hall : ∀ e ∈ transcript, e.from_ ∈ senders) :
    transcript.Perm (senders.flatMap (chainOf transcript)) := by
  have hkeys : (senders.map fun sender => bytesToHex sender.val).Nodup :=
    hnodup.map fun a b heq => Subtype.ext (bytesToHex_inj heq)
  have hgroups := flatMap_filter_perm hkeys transcript
  have hself : (transcript.filter fun e => senderKey e ∈ senders.map fun sender =>
      bytesToHex sender.val) = transcript := by
    refine List.filter_eq_self.2 fun e he => ?_
    rw [decide_eq_true_eq]
    exact List.mem_map.2 ⟨e.from_, hall e he, rfl⟩
  rw [hself, List.flatMap_map] at hgroups
  exact hgroups.symm.trans (List.Perm.flatMap_left _ fun sender _ => (sortBySequence_perm _).symm)

/-- **Which transcripts have an order**, and which order it is: the envelopes are artifacts of the
game, and the order of some senders' chains is an order of them. -/
theorem orderEnvelopeTranscript_eq_ok :
    orderEnvelopeTranscript P ed gameId transcript = .ok ordered ↔
      (∀ e ∈ transcript, e.Artifact ed ∧ e.game = gameId) ∧
      ∃ senders logs, Chains P senders logs ∧ ordered = senders.flatMap logs ∧
        transcript.Perm ordered := by
  obtain ⟨senders, hsorted, hkeys, hmem⟩ := exists_senders transcript
  have hnodup : senders.Nodup := hsorted.imp fun hlt heq => by
    rw [heq] at hlt
    exact lt_irrefl _ hlt
  have hfirst : ∀ sender ∈ senders, ∃ first, (chainOf transcript sender).head? = some first ∧
      first.from_ = sender := by
    intro sender hsender
    obtain ⟨e, he, hfrom⟩ := (hmem sender).1 hsender
    cases hchain : chainOf transcript sender with
    | nil =>
        have := mem_chainOf.2 ⟨he, hfrom⟩
        rw [hchain] at this
        cases this
    | cons first rest =>
        exact ⟨first, rfl, (mem_chainOf.1 (hchain ▸ List.mem_cons_self)).2⟩
  have horder : orderSenders P (transcript.foldl pushArtifact .empty)
      (((transcript.foldl pushArtifact .empty).entries.map Prod.fst).insertionSort (· ≤ ·))
        = .ok ordered ↔ (∀ sender ∈ senders, Linked P sender (chainOf transcript sender)) ∧
          ordered = senders.flatMap (chainOf transcript) := by
    rw [orderSenders_eq_ok, keys_eq hkeys, ← hkeys, List.forall_mem_map]
    refine and_congr_left fun _ => forall₂_congr fun sender hsender => ?_
    obtain ⟨first, hhead, hfrom⟩ := hfirst sender hsender
    rw [artifactsOf_push, hhead]
    simp only [Option.mem_some_iff, forall_eq']
    rw [hfrom]
  unfold orderEnvelopeTranscript
  rw [bind_eq_ok]
  constructor
  · rintro ⟨bySender, hgroups, h⟩
    obtain ⟨hall, -, -, rfl⟩ := groupBySender_eq_ok.1 hgroups
    obtain ⟨hlinked, rfl⟩ := horder.1 h
    refine ⟨fun e he => ⟨(hall e he).1, (hall e he).2.1⟩, senders, chainOf transcript,
      ⟨hsorted, fun sender hsender => ⟨fun hnil => ?_, hlinked sender hsender⟩⟩, rfl,
      perm_flatMap_chainOf hnodup fun e he => (hmem e.from_).2 ⟨e, he, rfl⟩⟩
    obtain ⟨first, hhead, -⟩ := hfirst sender hsender
    rw [hnil] at hhead
    cases hhead
  · rintro ⟨hall, senders', logs, hchains, rfl, hperm⟩
    have hsame : senders' = senders := by
      have hmem' : ∀ sender, sender ∈ senders' ↔ sender ∈ senders := by
        intro sender
        rw [hmem]
        constructor
        · intro hsender
          obtain ⟨e, he⟩ := List.exists_mem_of_ne_nil _ (hchains.linked sender hsender).1
          exact ⟨e, hperm.mem_iff.2 (List.mem_flatMap.2 ⟨sender, hsender, he⟩),
            hchains.from_eq hsender he⟩
        · rintro ⟨e, he, rfl⟩
          obtain ⟨sender, hsender, he⟩ := List.mem_flatMap.1 (hperm.mem_iff.1 he)
          rwa [hchains.from_eq hsender he]
      exact ((List.perm_ext_iff_of_nodup hchains.nodup hnodup).2 hmem').eq_of_pairwise
        (fun a b _ _ hlt hlt' => absurd hlt' (lt_asymm hlt)) hchains.sorted hsorted
    subst hsame
    have hchain : ∀ sender ∈ senders', chainOf transcript sender = logs sender :=
      fun sender hsender => hchains.chainOf_eq hperm hsender
    refine ⟨_, groupBySender_eq_ok.2 ⟨fun e he => ⟨(hall e he).1, (hall e he).2, rfl⟩, ?_,
      fun _ _ => by simp, rfl⟩, horder.2 ⟨fun sender hsender => ?_, ?_⟩⟩
    · exact ((hperm.map tuple).nodup_iff).2 hchains.nodup_tuples
    · rw [hchain sender hsender]
      exact (hchains.linked sender hsender).2
    · exact List.flatMap_congr fun sender hsender => (hchain sender hsender).symm

/-! ## The recovery -/

variable {registry registry' : SessionChainRegistry P} {logs : ℕ → List SignedEnvelope} {seat : ℕ}

/-- The artifacts of a seat are accepted exactly when they continue its log. -/
theorem recoverArtifacts_eq_ok (key : String) {artifacts : List SignedEnvelope}
    (h : HoldsLogs registry logs) (hseat : registry.roster.seatOf sender = some seat)
    (hall : ∀ e ∈ artifacts, e.from_ = sender ∧ e.game = registry.gameId) :
    ((∃ registry', recoverArtifacts key registry artifacts = .ok registry') ↔
      Linked P sender (logs seat ++ artifacts)) ∧
    ∀ registry', recoverArtifacts key registry artifacts = .ok registry' →
      HoldsLogs registry' (Function.update logs seat (logs seat ++ artifacts)) ∧
        registry'.gameId = registry.gameId ∧ registry'.roster = registry.roster := by
  induction artifacts generalizing registry logs with
  | nil =>
      have hlinked : Linked P sender (logs seat) := by
        rw [← sender_of_seatOf h hseat]
        exact (h.chain seat).linked
      refine ⟨⟨fun _ => by simpa using hlinked, fun _ => ⟨registry, rfl⟩⟩, ?_⟩
      rintro _ ⟨⟩
      simpa using h
  | cons e rest ih =>
      obtain ⟨hfrom, hgame⟩ := hall e List.mem_cons_self
      have hsplit : logs seat ++ e :: rest = (logs seat ++ [e]) ++ rest := by simp
      unfold recoverArtifacts
      by_cases haccepted : ∃ head, registry.classify e = .chain (.accepted head)
      · obtain ⟨head, haccepted⟩ := haccepted
        have hnext := h.ingest_of_accepted (hfrom ▸ hseat) haccepted
        obtain ⟨hgameId, hroster⟩ := ingest_scope registry e
        have hpair : registry.ingest e = (.chain (.accepted head), (registry.ingest e).2) := by
          rw [← haccepted, ← HoldsLogs.ingest_fst]
        obtain ⟨hiff, hholds⟩ := ih hnext (hroster ▸ hseat) fun e' he' => by
          rw [hgameId]
          exact hall e' (List.mem_cons_of_mem _ he')
        rw [Function.update_self, ← hsplit] at hiff
        rw [hpair]
        refine ⟨hiff, fun registry' hregistry' => ?_⟩
        obtain ⟨hlogs, hgameId', hroster'⟩ := hholds registry' hregistry'
        rw [Function.update_self, Function.update_idem, ← hsplit] at hlogs
        exact ⟨hlogs, hgameId'.trans hgameId, hroster'.trans hroster⟩
      · have hrefused : ∀ registry', (match registry.ingest e with
            | (.chain (.accepted _), registry) => recoverArtifacts key registry rest
            | (result, _) => throw (TranscriptError.not_recovered key e.seq result)) ≠ .ok registry' := by
          intro registry' heq
          rw [show registry.ingest e = (registry.classify e, (registry.ingest e).2) by
            rw [← HoldsLogs.ingest_fst]] at heq
          split at heq
          next hpair => exact haccepted ⟨_, (Prod.mk.inj hpair).1⟩
          next => cases heq
        refine ⟨iff_of_false (fun ⟨registry', heq⟩ => hrefused registry' heq) fun hlinked => ?_,
          fun registry' heq => absurd heq (hrefused registry')⟩
        rw [hsplit] at hlinked
        obtain ⟨-, -, hseq, hprev⟩ := linked_snoc.1 (hlinked.of_prefix (List.prefix_append _ _))
        exact haccepted (h.classify_accepted.2 ⟨hgame, seat, hfrom ▸ hseat, hseq, hprev⟩)

/-- The chains of a transcript for the first seats of a roster. -/
def logsBelow (roster : Roster P) (transcript : List SignedEnvelope) (count seat : ℕ) :
    List SignedEnvelope :=
  if seat < count then chainOf transcript (roster.seats.getD seat (zeroBytes 32)) else []

theorem logsBelow_succ {roster : Roster P} {count : ℕ} (hseat : roster.seats[count]? = some sender) :
    Function.update (logsBelow roster transcript count) count (chainOf transcript sender) =
      logsBelow roster transcript (count + 1) := by
  funext seat
  by_cases heq : seat = count
  · subst heq
    rw [Function.update_self, logsBelow, if_pos (Nat.lt_succ_self _), List.getD_eq_getElem?_getD, hseat]
    rfl
  · rw [Function.update_of_ne heq, logsBelow, logsBelow]
    by_cases hlt : seat < count
    · rw [if_pos hlt, if_pos (by omega)]
    · rw [if_neg hlt, if_neg (by omega)]

/-- The recovery succeeds exactly when every seat has a chain from its first envelope on. -/
theorem recoverSeats_eq_ok {before rest : List IdentityPublicKey}
    (h : HoldsLogs registry (logsBelow registry.roster transcript before.length))
    (hseats : registry.roster.seats = before ++ rest)
    (hgame : ∀ e ∈ transcript, e.game = registry.gameId) :
    ((∃ registry', recoverSeats (transcript.foldl pushArtifact .empty) registry rest = .ok registry') ↔
      ∀ sender ∈ rest, Linked P sender (chainOf transcript sender)) ∧
    ∀ registry', recoverSeats (transcript.foldl pushArtifact .empty) registry rest = .ok registry' →
      HoldsLogs registry' (logsBelow registry.roster transcript registry.roster.seats.length) ∧
        registry'.gameId = registry.gameId ∧ registry'.roster = registry.roster := by
  induction rest generalizing before registry with
  | nil =>
      refine ⟨⟨fun _ => by simp, fun _ => ⟨registry, rfl⟩⟩, ?_⟩
      rintro _ ⟨⟩
      rw [hseats, List.append_nil]
      exact ⟨h, rfl, rfl⟩
  | cons sender rest ih =>
      have hplace : registry.roster.seats[before.length]? = some sender := by
        rw [hseats, List.getElem?_append_right le_rfl, Nat.sub_self]
        rfl
      have hempty : logsBelow registry.roster transcript before.length before.length = [] :=
        if_neg (lt_irrefl _)
      have hall : ∀ e ∈ chainOf transcript sender, e.from_ = sender ∧ e.game = registry.gameId :=
        fun e he => ⟨(mem_chainOf.1 he).2, hgame e (mem_chainOf.1 he).1⟩
      obtain ⟨hiff, hholds⟩ := recoverArtifacts_eq_ok (bytesToHex sender.val) h
        (Roster.seatOf_eq_some.2 hplace) hall
      rw [hempty, List.nil_append] at hiff hholds
      unfold recoverSeats
      rw [artifactsOf_push, List.forall_mem_cons, ← hiff]
      cases hresult : recoverArtifacts (bytesToHex sender.val) registry (chainOf transcript sender) with
      | error error =>
          refine ⟨iff_of_false ?_ ?_, ?_⟩
          · rintro ⟨_, ⟨⟩⟩
          · rintro ⟨⟨_, ⟨⟩⟩, -⟩
          · rintro _ ⟨⟩
      | ok middle =>
          obtain ⟨hlogs, hgameId, hroster⟩ := hholds middle hresult
          rw [logsBelow_succ hplace] at hlogs
          have hlogs' : HoldsLogs middle
              (logsBelow middle.roster transcript (before ++ [sender]).length) := by
            rw [hroster, List.length_append]
            exact hlogs
          have hseats' : middle.roster.seats = (before ++ [sender]) ++ rest := by
            rw [hroster, hseats, List.append_assoc]
            rfl
          have hnext := ih hlogs' hseats' (by rw [hgameId]; exact hgame)
          rw [hroster, hgameId] at hnext
          refine ⟨?_, hnext.2⟩
          rw [and_iff_right ⟨middle, rfl⟩]
          exact hnext.1

theorem recoverSessionChains_eq_ok {roster : Roster P} :
    ((∃ registry, recoverSessionChains ed gameId roster transcript = .ok registry) ↔
      (∀ e ∈ transcript, e.Artifact ed ∧ e.game = gameId ∧ (roster.seatOf e.from_).isSome = true) ∧
      (transcript.map tuple).Nodup ∧
      ∀ sender ∈ roster.seats, Linked P sender (chainOf transcript sender)) ∧
    ∀ registry, recoverSessionChains ed gameId roster transcript = .ok registry →
      HoldsLogs registry (logsBelow roster transcript roster.seats.length) ∧
        registry.gameId = gameId ∧ registry.roster = roster := by
  have hstart : HoldsLogs (SessionChainRegistry.start gameId roster)
      (logsBelow roster transcript ([] : List IdentityPublicKey).length) := .start gameId roster
  unfold recoverSessionChains
  constructor
  · constructor
    · rintro ⟨registry, h⟩
      obtain ⟨bySender, hgroups, h⟩ := bind_eq_ok.1 h
      obtain ⟨hall, hnodup, -, rfl⟩ := groupBySender_eq_ok.1 hgroups
      have hseats := recoverSeats_eq_ok hstart (List.nil_append _).symm fun e he => (hall e he).2.1
      exact ⟨hall, hnodup, hseats.1.1 ⟨registry, h⟩⟩
    · rintro ⟨hall, hnodup, hlinked⟩
      have hgroups : groupBySender ed gameId (fun sender => (roster.seatOf sender).isSome) 0 []
          .empty transcript = .ok (transcript.foldl pushArtifact .empty) :=
        groupBySender_eq_ok.2 ⟨hall, hnodup, fun _ _ => List.not_mem_nil, rfl⟩
      have hseats := recoverSeats_eq_ok hstart (List.nil_append _).symm fun e he => (hall e he).2.1
      obtain ⟨registry, h⟩ := hseats.1.2 hlinked
      exact ⟨registry, bind_eq_ok.2 ⟨_, hgroups, h⟩⟩
  · intro registry h
    obtain ⟨bySender, hgroups, h⟩ := bind_eq_ok.1 h
    obtain ⟨hall, hnodup, -, rfl⟩ := groupBySender_eq_ok.1 hgroups
    exact (recoverSeats_eq_ok hstart (List.nil_append _).symm fun e he => (hall e he).2.1).2 registry h

/-- The order of a transcript is well defined.  Every permutation has the same order, and an ordered
transcript is its own.  A transcript has an order exactly when it is, in some order, the chains of
some senders from their first envelopes on, all artifacts of the game; the order is then these chains
by the senders' texts.  When all senders have a seat, the session is recovered from exactly the
transcripts that have an order, and each seat's chain is what the order has of it. -/
theorem transcript_order_canonical (P : Primitives q G) (ed : Ed25519) (gameId : GameId) :
    (∀ transcript transcript' ordered, transcript.Perm transcript' →
      (orderEnvelopeTranscript P ed gameId transcript = .ok ordered ↔
        orderEnvelopeTranscript P ed gameId transcript' = .ok ordered)) ∧
    (∀ transcript ordered, orderEnvelopeTranscript P ed gameId transcript = .ok ordered →
      orderEnvelopeTranscript P ed gameId ordered = .ok ordered) ∧
    (∀ transcript ordered, orderEnvelopeTranscript P ed gameId transcript = .ok ordered ↔
      (∀ e ∈ transcript, e.Artifact ed ∧ e.game = gameId) ∧
      ∃ senders logs, Chains P senders logs ∧ ordered = senders.flatMap logs ∧
        transcript.Perm ordered) ∧
    ∀ (roster : Roster P) transcript, (∀ e ∈ transcript, (roster.seatOf e.from_).isSome = true) →
      ((∃ registry, recoverSessionChains ed gameId roster transcript = .ok registry) ↔
        ∃ ordered, orderEnvelopeTranscript P ed gameId transcript = .ok ordered) ∧
      ∀ registry ordered, recoverSessionChains ed gameId roster transcript = .ok registry →
        orderEnvelopeTranscript P ed gameId transcript = .ok ordered →
        registry.gameId = gameId ∧ registry.roster = roster ∧
        HoldsLogs registry fun seat => if seat < roster.seats.length then
          ordered.filter fun e => e.from_ = roster.seats.getD seat (zeroBytes 32) else [] := by
  refine ⟨fun transcript transcript' ordered hperm => ?_, fun transcript ordered h => ?_,
    fun transcript ordered => orderEnvelopeTranscript_eq_ok, fun roster transcript hmember => ⟨?_, ?_⟩⟩
  · rw [orderEnvelopeTranscript_eq_ok, orderEnvelopeTranscript_eq_ok]
    refine and_congr (forall_congr' fun e => by rw [hperm.mem_iff]) ?_
    refine exists₂_congr fun senders logs => and_congr_right fun _ => and_congr_right fun _ => ?_
    exact ⟨fun h => hperm.symm.trans h, fun h => hperm.trans h⟩
  · obtain ⟨hall, senders, logs, hchains, hordered, hperm⟩ := orderEnvelopeTranscript_eq_ok.1 h
    exact orderEnvelopeTranscript_eq_ok.2 ⟨fun e he => hall e (hperm.mem_iff.2 he), senders, logs,
      hchains, hordered, .refl _⟩
  · rw [recoverSessionChains_eq_ok.1]
    constructor
    · rintro ⟨hall, hnodup, hlinked⟩
      obtain ⟨senders, hsorted, -, hmem⟩ := exists_senders transcript
      have hsenders : senders.Nodup := hsorted.imp fun hlt heq => by
        rw [heq] at hlt
        exact lt_irrefl _ hlt
      have hchains : Chains P senders (chainOf transcript) := by
        refine ⟨hsorted, fun sender hsender => ?_⟩
        obtain ⟨e, he, hfrom⟩ := (hmem sender).1 hsender
        obtain ⟨seat, hseat⟩ := Option.isSome_iff_exists.1 (hmember e he)
        have hplace := Roster.seatOf_eq_some.1 (hfrom ▸ hseat)
        exact ⟨List.ne_nil_of_mem (mem_chainOf.2 ⟨he, hfrom⟩),
          hlinked sender (List.mem_of_getElem? hplace)⟩
      exact ⟨_, orderEnvelopeTranscript_eq_ok.2 ⟨fun e he => ⟨(hall e he).1, (hall e he).2.1⟩, senders,
        _, hchains, rfl, perm_flatMap_chainOf hsenders fun e he => (hmem e.from_).2 ⟨e, he, rfl⟩⟩⟩
    · rintro ⟨ordered, h⟩
      obtain ⟨hall, senders, logs, hchains, rfl, hperm⟩ := orderEnvelopeTranscript_eq_ok.1 h
      refine ⟨fun e he => ⟨(hall e he).1, (hall e he).2, hmember e he⟩,
        ((hperm.map tuple).nodup_iff).2 hchains.nodup_tuples, fun sender _ => ?_⟩
      by_cases hsender : sender ∈ senders
      · rw [hchains.chainOf_eq hperm hsender]
        exact (hchains.linked sender hsender).2
      · have hnil : chainOf transcript sender = [] := by
          refine List.eq_nil_iff_forall_not_mem.2 fun e he => hsender ?_
          obtain ⟨he, hfrom⟩ := mem_chainOf.1 he
          obtain ⟨other, hother, he⟩ := List.mem_flatMap.1 (hperm.mem_iff.1 he)
          rwa [← hfrom, hchains.from_eq hother he]
        rw [hnil]
        exact linked_nil
  · intro registry ordered hrecover horder
    obtain ⟨hlogs, hgameId, hroster⟩ := recoverSessionChains_eq_ok.2 registry hrecover
    obtain ⟨-, senders, logs, hchains, rfl, hperm⟩ := orderEnvelopeTranscript_eq_ok.1 horder
    refine ⟨hgameId, hroster, ?_⟩
    have hsame : logsBelow roster transcript roster.seats.length = fun seat =>
        if seat < roster.seats.length then (senders.flatMap logs).filter fun e =>
          e.from_ = roster.seats.getD seat (zeroBytes 32) else [] := by
      funext seat
      unfold logsBelow
      refine if_congr Iff.rfl ?_ rfl
      generalize roster.seats.getD seat (zeroBytes 32) = sender
      have hkeys : ((senders.flatMap logs).filter fun e => decide (e.from_ = sender)) =
          (senders.flatMap logs).filter fun e => decide (senderKey e = bytesToHex sender.val) := by
        refine List.filter_congr fun e _ => decide_eq_decide.2 ⟨fun hfrom => ?_, fun hkey => ?_⟩
        · rw [senderKey, hfrom]
        · exact Subtype.ext (bytesToHex_inj hkey)
      rw [hkeys]
      by_cases hsender : sender ∈ senders
      · rw [hchains.filter_eq hsender, hchains.chainOf_eq hperm hsender]
      · have hnone : ∀ e ∈ senders.flatMap logs, senderKey e ≠ bytesToHex sender.val := by
          intro e he hkey
          obtain ⟨other, hother, he⟩ := List.mem_flatMap.1 he
          have hfrom := hchains.from_eq hother he
          rw [Subtype.ext (bytesToHex_inj hkey)] at hfrom
          exact hsender (hfrom ▸ hother)
        rw [List.filter_eq_nil_iff.2 fun e he => by simpa using hnone e he]
        refine List.eq_nil_iff_forall_not_mem.2 fun e he => ?_
        obtain ⟨he, hfrom⟩ := mem_chainOf.1 he
        exact hnone e (hperm.mem_iff.1 he) (by rw [senderKey, hfrom])
    rw [← hsame]
    exact hlogs

end

end

end Tablefolk
