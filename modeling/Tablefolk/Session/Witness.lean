import Tablefolk.Session.Registry
import Tablefolk.Session.SmallGroup

/-!
# Witnesses

The model of `session/witness.ts`: a WITNESS lists the heads of its sender's chains, and
`assessWitness` compares them with the local ones.

* `Linked.take_eq_of_hash`: a hash fixes everything before it, as each envelope names the
  hash of the one before.
* `assessHeads_eq` is what `assessWitness` returns, seat by seat.
* `head_commits_to_prefix`: what the outcome for a claimed head says about the two chains.
-/

namespace Tablefolk

/-- `WitnessHead`. -/
abbrev WitnessHead := ChainHead

/-- `WitnessBody`. -/
structure WitnessBody where
  heads : List WitnessHead
  stateHash : Option Hash256
  deriving DecidableEq

/-- `WitnessHeadOutcome`. -/
inductive WitnessHeadOutcome where
  | matching (seat : ℕ) (claimed : WitnessHead) (localHead : ChainHead)
  | stale (seat : ℕ) (claimed : WitnessHead) (localHead : ChainHead)
  | need_sync (seat : ℕ) (claimed : WitnessHead) (fromSeq toSeq : ℕ)
  | conflict (seat : ℕ) (claimed : WitnessHead) (held : SignedEnvelope) (fromSeq toSeq : ℕ)
  deriving DecidableEq

/-- Why a witness is rejected. -/
inductive WitnessRejection where
  | duplicate_sender | non_roster_order | unknown_sender
  deriving DecidableEq, Repr

/-- `WitnessAssessment`. -/
inductive WitnessAssessment where
  | assessed (outcomes : List WitnessHeadOutcome)
  | rejected (reason : WitnessRejection) (index : ℕ)
  deriving DecidableEq

section

variable {q : ℕ} {G : Type} [AddCommGroup G] [Module (ZMod q) G] {P : Primitives q G}

/-- `currentWitnessBody`. -/
def currentWitnessBody (registry : SessionChainRegistry P) (stateHash : Option Hash256) :
    WitnessBody :=
  ⟨registry.heads, stateHash⟩

/-- The local heads by seat. -/
def localHeads (registry : SessionChainRegistry P) :
    List ChainHead → Except String (List (ℕ × ChainHead))
  | [] => return []
  | head :: rest =>
      match registry.roster.seatOf head.from_ with
      | none => throw "Session registry returned a head outside its own roster"
      | some seat => do
          let others ← localHeads registry rest
          return (seat, head) :: others

/-- The outcome for a claimed head of a seat. -/
def assessHead (registry : SessionChainRegistry P) (localHead : Option ChainHead) (seat : ℕ)
    (claimed : WitnessHead) : Except String WitnessHeadOutcome :=
  match localHead with
  | none => return .need_sync seat claimed 0 claimed.seq
  | some localHead =>
      if localHead.seq < claimed.seq then
        return .need_sync seat claimed (localHead.seq + 1) claimed.seq
      else do
        match ← registry.readRange claimed.from_ claimed.seq claimed.seq with
        | .complete (held :: _) =>
            if P.hashEnvelope held ≠ claimed.hash then
              return .conflict seat claimed held claimed.seq claimed.seq
            else if claimed.seq = localHead.seq then return .matching seat claimed localHead
            else return .stale seat claimed localHead
        | _ => throw "Session registry could not read a sequence at or below its head"

/-- The loop over the claimed heads. -/
def assessHeads (registry : SessionChainRegistry P) (heads : List (ℕ × ChainHead))
    (seenSeats : List ℕ) (previousSeat : ℤ) (index : ℕ) (outcomes : List WitnessHeadOutcome) :
    List WitnessHead → Except String WitnessAssessment
  | [] => return .assessed outcomes
  | claimed :: rest => do
      throwIf (MAX_SAFE_INTEGER < claimed.seq) "Witness sequence must be an unsigned safe integer"
      match registry.roster.seatOf claimed.from_ with
      | none => return .rejected .unknown_sender index
      | some seat =>
          if seat ∈ seenSeats then return .rejected .duplicate_sender index
          else if (seat : ℤ) < previousSeat then return .rejected .non_roster_order index
          else do
            let outcome ← assessHead registry (heads.lookup seat) seat claimed
            assessHeads registry heads (seat :: seenSeats) seat (index + 1) (outcomes ++ [outcome])
              rest

/-- `assessWitness`. -/
def assessWitness (registry : SessionChainRegistry P) (body : WitnessBody) :
    Except String WitnessAssessment := do
  let heads ← localHeads registry registry.heads
  assessHeads registry heads [] (-1) 0 [] body.heads

/-! ## A hash fixes everything before it -/

/-- Two linked logs with one hash at a place are the same up to that place. -/
theorem Linked.take_eq_of_hash {sender sender' : IdentityPublicKey} {log log' : List SignedEnvelope}
    (h : Linked P sender log) (h' : Linked P sender' log')
    (hhash : Set.InjOn P.hashEnvelope {e | e ∈ log ∨ e ∈ log'}) {seq : ℕ} {e e' : SignedEnvelope}
    (he : log[seq]? = some e) (he' : log'[seq]? = some e')
    (heq : P.hashEnvelope e = P.hashEnvelope e') : log.take (seq + 1) = log'.take (seq + 1) := by
  induction seq generalizing e e' with
  | zero =>
      obtain rfl := hhash (.inl (List.mem_of_getElem? he)) (.inr (List.mem_of_getElem? he')) heq
      rw [List.take_add_one, List.take_add_one, he, he', List.take_zero, List.take_zero]
  | succ seq ih =>
      obtain rfl := hhash (.inl (List.mem_of_getElem? he)) (.inr (List.mem_of_getElem? he')) heq
      have hlt : seq < log.length := by
        have := (List.getElem?_eq_some_iff.1 he).1
        omega
      have hlt' : seq < log'.length := by
        have := (List.getElem?_eq_some_iff.1 he').1
        omega
      have hbefore := List.getElem?_eq_getElem hlt
      have hbefore' := List.getElem?_eq_getElem hlt'
      -- both copies of `e` name the hash of what stands before them
      have hprev := (h.getElem? he).2.2.symm.trans (h'.getElem? he').2.2
      rw [prevAfter_take_succ hbefore, prevAfter_take_succ hbefore'] at hprev
      rw [List.take_add_one, List.take_add_one (l := log'), ih hbefore hbefore' hprev, he, he']

/-! ## What an assessment returns -/

variable {registry registry' : SessionChainRegistry P} {logs logs' : ℕ → List SignedEnvelope}
  {seat : ℕ} {claimed : WitnessHead}

/-- The heads of some seats, with their seats. -/
def seatHeads (registry : SessionChainRegistry P) (seats : List ℕ) : List (ℕ × ChainHead) :=
  seats.filterMap fun seat => (registry.chains seat).head.map fun head => (seat, head)

theorem heads_eq (registry : SessionChainRegistry P) :
    registry.heads = (seatHeads registry (List.range registry.roster.size)).map Prod.snd := by
  rw [SessionChainRegistry.heads, seatHeads, List.map_filterMap]
  congr 1
  funext seat
  cases (registry.chains seat).head <;> rfl

theorem mem_seatHeads {seats : List ℕ} {head : ChainHead} :
    (seat, head) ∈ seatHeads registry seats ↔
      seat ∈ seats ∧ (registry.chains seat).head = some head := by
  simp [seatHeads, List.mem_filterMap]

theorem pairwise_seatHeads {seats : List ℕ} (hseats : seats.Pairwise (· < ·)) :
    ((seatHeads registry seats).map Prod.fst).Pairwise (· < ·) := by
  refine hseats.sublist ?_
  induction seats with
  | nil => exact List.nil_sublist _
  | cons seat rest ih =>
      have hrest := ih (List.pairwise_cons.1 hseats).2
      cases hhead : (registry.chains seat).head with
      | none => simpa [seatHeads, hhead] using hrest.cons seat
      | some head => simpa [seatHeads, hhead] using hrest.cons_cons seat

theorem lookup_seatHeads {seats : List ℕ} (hseat : seat ∈ seats) :
    (seatHeads registry seats).lookup seat = (registry.chains seat).head := by
  induction seats with
  | nil => cases hseat
  | cons other rest ih =>
      by_cases heq : seat = other
      · subst heq
        cases hhead : (registry.chains seat).head with
        | none =>
            by_cases hmem : seat ∈ rest
            · simpa [seatHeads, hhead] using ih hmem
            · have hnone : ∀ p ∈ seatHeads registry rest, p.1 ≠ seat := by
                rintro ⟨_, head⟩ hp rfl
                exact hmem (mem_seatHeads.1 hp).1
              have hlookup : (seatHeads registry rest).lookup seat = none :=
                List.lookup_eq_none_iff.2 fun p hp => by simpa using (hnone p hp).symm
              simpa [seatHeads, hhead] using hlookup
        | some head => simp [seatHeads, hhead]
      · have hrest := ih ((List.mem_cons.1 hseat).resolve_left heq)
        have hbeq : (seat == other) = false := by simpa using heq
        cases hhead : (registry.chains other).head with
        | none => simpa [seatHeads, hhead] using hrest
        | some head => simpa [seatHeads, hhead, List.lookup_cons, hbeq] using hrest

theorem HoldsLogs.head_from (h : HoldsLogs registry logs) {head : ChainHead}
    (hhead : (registry.chains seat).head = some head) (hseat : seat < registry.roster.size) :
    registry.roster.seatOf head.from_ = some seat := by
  rw [((h.chain seat).gapFree.head head hhead).1]
  exact seatOf_sender h hseat

/-- The local heads are the heads of the chains. -/
theorem HoldsLogs.localHeads (h : HoldsLogs registry logs) :
    localHeads registry registry.heads
      = .ok (seatHeads registry (List.range registry.roster.size)) := by
  rw [heads_eq]
  have hseats : ∀ p ∈ seatHeads registry (List.range registry.roster.size),
      registry.roster.seatOf p.2.from_ = some p.1 := by
    rintro ⟨seat, head⟩ hp
    obtain ⟨hseat, hhead⟩ := mem_seatHeads.1 hp
    exact h.head_from hhead (List.mem_range.1 hseat)
  generalize seatHeads registry _ = heads at hseats
  induction heads with
  | nil => rfl
  | cons p rest ih =>
      rw [List.map_cons, Tablefolk.localHeads, hseats p List.mem_cons_self]
      dsimp only
      rw [ih fun other hother => hseats other (List.mem_cons_of_mem _ hother)]
      rfl

/-- The outcome for a claimed head, read off the log of its seat. -/
def outcomeOf (registry : SessionChainRegistry P) (seat : ℕ) (claimed : WitnessHead) :
    WitnessHeadOutcome :=
  match (registry.chains seat).head, (registry.chains seat).accepted claimed.seq with
  | some localHead, some held =>
      if P.hashEnvelope held ≠ claimed.hash then
        .conflict seat claimed held claimed.seq claimed.seq
      else if claimed.seq = localHead.seq then .matching seat claimed localHead
      else .stale seat claimed localHead
  | _, _ => .need_sync seat claimed (registry.chains seat).expectedSeq claimed.seq

theorem HoldsLogs.assessHead (h : HoldsLogs registry logs)
    (hseat : registry.roster.seatOf claimed.from_ = some seat)
    (hsafe : claimed.seq ≤ MAX_SAFE_INTEGER) :
    assessHead registry (registry.chains seat).head seat claimed
      = .ok (outcomeOf registry seat claimed) := by
  unfold Tablefolk.assessHead outcomeOf
  rw [(h.chain seat).accepted, (h.chain seat).expectedSeq]
  have hrange := h.readRange hseat (le_refl claimed.seq) hsafe
  cases hhead : (registry.chains seat).head with
  | none =>
      have hlen := (h.chain seat).expectedSeq
      rw [SenderChain.expectedSeq, hhead] at hlen
      rw [← hlen]
      rfl
  | some localHead =>
      have hlen : localHead.seq + 1 = (logs seat).length := by
        rw [← (h.chain seat).expectedSeq, SenderChain.expectedSeq, hhead]
      dsimp only
      by_cases hlt : claimed.seq < (logs seat).length
      · rw [if_neg (by omega), hrange, if_pos hlt, List.getElem?_eq_getElem hlt]
        simp only [ok_bind, Nat.sub_self, zero_add, List.drop_eq_getElem_cons hlt,
          List.take_succ_cons, except_pure_eq]
        split_ifs <;> rfl
      · rw [if_pos (by omega), List.getElem?_eq_none (by omega), hlen]
        rfl

/-- When an assessment of claimed heads is not rejected, the outcomes are those of the heads. -/
theorem HoldsLogs.assessHeads_assessed (h : HoldsLogs registry logs) {seen : List ℕ} {previous : ℤ}
    {index : ℕ} {outcomes all : List WitnessHeadOutcome} {heads : List WitnessHead}
    (hassessed : assessHeads registry (seatHeads registry (List.range registry.roster.size)) seen
      previous index outcomes heads = .ok (.assessed all)) :
    ∃ new, all = outcomes ++ new ∧ List.Forall₂ (fun claimed outcome =>
      claimed.seq ≤ MAX_SAFE_INTEGER ∧ ∃ seat, registry.roster.seatOf claimed.from_ = some seat ∧
        outcome = outcomeOf registry seat claimed) heads new := by
  induction heads generalizing seen previous index outcomes with
  | nil =>
      cases hassessed
      exact ⟨[], by simp, .nil⟩
  | cons claimed rest ih =>
      rw [assessHeads, check_bind_eq_ok, throwIf_eq_ok] at hassessed
      obtain ⟨hsafe, hassessed⟩ := hassessed
      cases hseat : registry.roster.seatOf claimed.from_ with
      | none =>
          rw [hseat] at hassessed
          cases hassessed
      | some seat =>
          rw [hseat] at hassessed
          dsimp only at hassessed
          split at hassessed
          · cases hassessed
          · split at hassessed
            · cases hassessed
            · rw [lookup_seatHeads (List.mem_range.2 (Roster.lt_size_of_seatOf hseat)),
                h.assessHead hseat (not_lt.1 hsafe), ok_bind] at hassessed
              obtain ⟨new, rfl, hnew⟩ := ih hassessed
              exact ⟨_ :: new, by simp, .cons ⟨not_lt.1 hsafe, seat, hseat, rfl⟩ hnew⟩

/-- Heads in roster order are assessed. -/
theorem HoldsLogs.assessHeads_sorted (h : HoldsLogs registry logs) {seen : List ℕ} {previous : ℤ}
    {index : ℕ} {outcomes : List WitnessHeadOutcome} {heads : List (ℕ × WitnessHead)}
    (hseats : ∀ p ∈ heads, registry.roster.seatOf p.2.from_ = some p.1)
    (hsafe : ∀ p ∈ heads, p.2.seq ≤ MAX_SAFE_INTEGER)
    (hsorted : (heads.map Prod.fst).Pairwise (· < ·))
    (hseen : ∀ p ∈ heads, previous < p.1 ∧ ∀ seat ∈ seen, seat < p.1) :
    assessHeads registry (seatHeads registry (List.range registry.roster.size)) seen previous index
      outcomes (heads.map Prod.snd)
      = .ok (.assessed (outcomes ++ heads.map fun p => outcomeOf registry p.1 p.2)) := by
  induction heads generalizing seen previous index outcomes with
  | nil => simp [assessHeads]
  | cons p rest ih =>
      obtain ⟨seat, claimed⟩ := p
      have hseat : registry.roster.seatOf claimed.from_ = some seat :=
        hseats _ List.mem_cons_self
      have hclaimed : claimed.seq ≤ MAX_SAFE_INTEGER := hsafe _ List.mem_cons_self
      obtain ⟨hprevious, hbelow⟩ := hseen _ List.mem_cons_self
      have hfresh : seat ∉ seen := fun hmem => absurd (hbelow seat hmem) (lt_irrefl seat)
      rw [List.map_cons, List.pairwise_cons] at hsorted
      rw [List.map_cons, assessHeads, throwIf_neg (by dsimp only; omega), ok_bind, hseat]
      dsimp only
      rw [if_neg hfresh, if_neg (not_lt.2 hprevious.le),
        lookup_seatHeads (List.mem_range.2 (Roster.lt_size_of_seatOf hseat)),
        h.assessHead hseat hclaimed, ok_bind,
        ih (fun other hother => hseats other (List.mem_cons_of_mem _ hother))
          (fun other hother => hsafe other (List.mem_cons_of_mem _ hother)) hsorted.2 ?_]
      · simp
      · intro other hother
        have hlt : seat < other.1 := hsorted.1 other.1 (List.mem_map_of_mem hother)
        refine ⟨by exact_mod_cast hlt, fun s hs => ?_⟩
        rcases List.mem_cons.1 hs with rfl | hs
        · exact hlt
        · exact (hseen other (List.mem_cons_of_mem _ hother)).2 s hs

/-! ## What an outcome says about the two chains -/

/-- Two chains hold the same envelopes up to a place. -/
def SameUpTo (chain chain' : SenderChain) (seq : ℕ) : Prop :=
  ∀ k ≤ seq, chain.accepted k = chain'.accepted k

/-- The outcome for a head claimed by the second registry is the right one: a claim above
the local head asks for what is after it, and one not above it is a conflict exactly when
the chains differ. -/
def OutcomeSound (registry registry' : SessionChainRegistry P) (claimed : WitnessHead)
    (outcome : WitnessHeadOutcome) : Prop :=
  ∃ seat seat', registry.roster.seatOf claimed.from_ = some seat ∧
    registry'.roster.seatOf claimed.from_ = some seat' ∧
    match (registry.chains seat).head with
    | none => outcome = .need_sync seat claimed 0 claimed.seq
    | some localHead =>
        if localHead.seq < claimed.seq then
          outcome = .need_sync seat claimed (localHead.seq + 1) claimed.seq
        else
          (SameUpTo (registry.chains seat) (registry'.chains seat') claimed.seq →
            outcome = if claimed.seq = localHead.seq then .matching seat claimed localHead
              else .stale seat claimed localHead) ∧
          (¬ SameUpTo (registry.chains seat) (registry'.chains seat') claimed.seq →
            ∃ held, (registry.chains seat).accepted claimed.seq = some held ∧
              outcome = .conflict seat claimed held claimed.seq claimed.seq)

theorem forall₂_imp_of_mem {α β : Type} {R S : α → β → Prop} {l : List α} {l' : List β}
    (h : List.Forall₂ R l l') (himp : ∀ a ∈ l, ∀ b, R a b → S a b) : List.Forall₂ S l l' := by
  induction h with
  | nil => exact .nil
  | cons hab _ ih =>
      exact .cons (himp _ List.mem_cons_self _ hab)
        (ih fun a ha => himp a (List.mem_cons_of_mem _ ha))

/-- Chains that agree on a hash at a place are the same up to it, and conversely. -/
theorem HoldsLog.sameUpTo_iff {chain chain' : SenderChain} {log log' : List SignedEnvelope}
    (h : HoldsLog P chain log) (h' : HoldsLog P chain' log')
    (hhash : Set.InjOn P.hashEnvelope {e | e ∈ log ∨ e ∈ log'}) {seq : ℕ} {e e' : SignedEnvelope}
    (he : chain.accepted seq = some e) (he' : chain'.accepted seq = some e') :
    P.hashEnvelope e = P.hashEnvelope e' ↔ SameUpTo chain chain' seq := by
  constructor
  · intro heq k hk
    rw [h.accepted] at he
    rw [h'.accepted] at he'
    have htake := h.linked.take_eq_of_hash h'.linked hhash he he' heq
    have hk' := congrArg (fun l => l[k]?) htake
    simp only [List.getElem?_take, if_pos (Nat.lt_succ_of_le hk)] at hk'
    rw [h.accepted, h'.accepted, hk']
  · intro hsame
    have := hsame seq le_rfl
    rw [he, he'] at this
    rw [Option.some.inj this]

theorem HoldsLogs.mem_heads (h : HoldsLogs registry logs) (hclaimed : claimed ∈ registry.heads) :
    ∃ seat, registry.roster.seatOf claimed.from_ = some seat ∧
      (registry.chains seat).head = some claimed := by
  rw [heads_eq] at hclaimed
  obtain ⟨⟨seat, head⟩, hp, rfl⟩ := List.mem_map.1 hclaimed
  obtain ⟨hseat, hhead⟩ := mem_seatHeads.1 hp
  exact ⟨seat, h.head_from hhead (List.mem_range.1 hseat), hhead⟩

theorem HoldsLogs.outcomeSound (h : HoldsLogs registry logs) (h' : HoldsLogs registry' logs')
    (hhash : ∀ seat seat', Set.InjOn P.hashEnvelope {e | e ∈ logs seat ∨ e ∈ logs' seat'})
    (hseat : registry.roster.seatOf claimed.from_ = some seat)
    (hclaimed : claimed ∈ registry'.heads) :
    OutcomeSound registry registry' claimed (outcomeOf registry seat claimed) := by
  obtain ⟨seat', hseat', hhead'⟩ := h'.mem_heads hclaimed
  obtain ⟨-, last, hlast, hhash'⟩ := (h'.chain seat').gapFree.head claimed hhead'
  refine ⟨seat, seat', hseat, hseat', ?_⟩
  have hexpected := (h.chain seat).expectedSeq
  unfold SenderChain.expectedSeq at hexpected
  unfold outcomeOf SenderChain.expectedSeq
  cases hhead : (registry.chains seat).head with
  | none => rfl
  | some localHead =>
      rw [hhead] at hexpected
      dsimp only at hexpected ⊢
      by_cases hlt : localHead.seq < claimed.seq
      · rw [if_pos hlt, (h.chain seat).accepted, List.getElem?_eq_none (by omega)]
      · have hheld : (registry.chains seat).accepted claimed.seq
            = some ((logs seat).get ⟨claimed.seq, by omega⟩) := by
          rw [(h.chain seat).accepted]
          exact List.getElem?_eq_getElem (by omega)
        have hiff := (h.chain seat).sameUpTo_iff (h'.chain seat') (hhash seat seat') hheld hlast
        rw [← hhash'] at hiff
        rw [if_neg hlt, hheld]
        refine ⟨fun hsame => ?_, fun hdiffer => ?_⟩
        · exact if_neg (not_not.2 (hiff.2 hsame))
        · exact ⟨_, rfl, if_pos (mt hiff.1 hdiffer)⟩

/-- **A head hash commits to the whole prefix.**  When no two envelopes offered to two
registries of a game have one hash, a hash held by both at a place of a sender's chain
means that they hold the same envelopes up to there; and comparing a witness of the second
with the first gives the right outcome for every head. -/
theorem head_commits_to_prefix (gameId : GameId) (roster roster' : Roster P)
    (l l' : List SignedEnvelope) (hhash : Set.InjOn P.hashEnvelope {e | e ∈ l ∨ e ∈ l'})
    (hsafe : ∀ e ∈ l', e.seq ≤ MAX_SAFE_INTEGER) :
    ∀ A B, A = (SessionChainRegistry.start gameId roster).ingestAll l →
      B = (SessionChainRegistry.start gameId roster').ingestAll l' →
    (∀ sender seat seat', roster.seatOf sender = some seat → roster'.seatOf sender = some seat' →
      ∀ seq e e', (A.chains seat).accepted seq = some e → (B.chains seat').accepted seq = some e' →
        P.hashEnvelope e = P.hashEnvelope e' → ∀ k ≤ seq, ∃ m,
          (A.chains seat).accepted k = some m ∧ (B.chains seat').accepted k = some m) ∧
    (∀ body : WitnessBody, (∀ claimed ∈ body.heads, claimed ∈ B.heads) →
      ∀ outcomes, assessWitness A body = .ok (.assessed outcomes) →
        List.Forall₂ (OutcomeSound A B) body.heads outcomes) ∧
    (roster = roster' → ∀ body : WitnessBody, body.heads.Sublist B.heads →
      ∃ outcomes, assessWitness A body = .ok (.assessed outcomes)) := by
  rintro A B rfl rfl
  obtain ⟨-, hroster, logs, hlogs, -, hmem⟩ := (HoldsLogs.start gameId roster).ingestAll l
  obtain ⟨-, hroster', logs', hlogs', -, hmem'⟩ := (HoldsLogs.start gameId roster').ingestAll l'
  change _ = roster at hroster
  change _ = roster' at hroster'
  have hinj : ∀ seat seat', Set.InjOn P.hashEnvelope {e | e ∈ logs seat ∨ e ∈ logs' seat'} := by
    intro seat seat'
    refine hhash.mono ?_
    rintro e (he | he)
    · exact .inl ((hmem seat e he).resolve_left List.not_mem_nil)
    · exact .inr ((hmem' seat' e he).resolve_left List.not_mem_nil)
  refine ⟨?_, ?_, ?_⟩
  · intro sender seat seat' _ _ seq e e' he he' heq k hk
    have hsame := ((hlogs.chain seat).sameUpTo_iff (hlogs'.chain seat') (hinj seat seat') he he').1 heq
    have hlt : seq < (logs seat).length := by
      rw [(hlogs.chain seat).accepted] at he
      exact (List.getElem?_eq_some_iff.1 he).1
    have hheld : (((SessionChainRegistry.start gameId roster).ingestAll l).chains seat).accepted k
        = some ((logs seat).get ⟨k, by omega⟩) :=
      ((hlogs.chain seat).accepted k).trans (List.getElem?_eq_getElem (by omega))
    exact ⟨_, hheld, (hsame k hk).symm.trans hheld⟩
  · intro body hbody outcomes hassessed
    unfold assessWitness at hassessed
    rw [hlogs.localHeads, ok_bind] at hassessed
    obtain ⟨new, hall, hnew⟩ := hlogs.assessHeads_assessed hassessed
    obtain rfl : outcomes = new := hall
    refine forall₂_imp_of_mem hnew ?_
    rintro claimed hclaimed outcome ⟨-, seat, hseat, rfl⟩
    exact hlogs.outcomeSound hlogs' hinj hseat (hbody claimed hclaimed)
  · rintro rfl body hbody
    rw [heads_eq] at hbody
    obtain ⟨pairs, hpairs, hheads⟩ := List.sublist_map_iff.1 hbody
    have hclaims : ∀ p ∈ pairs, p.1 < roster.size ∧
        (((SessionChainRegistry.start gameId roster).ingestAll l').chains p.1).head = some p.2 := by
      rintro ⟨seat, head⟩ hp
      obtain ⟨hseat, hhead⟩ := mem_seatHeads.1 (hpairs.subset hp)
      exact ⟨by simpa [hroster'] using hseat, hhead⟩
    unfold assessWitness
    rw [hlogs.localHeads, ok_bind, hheads, hlogs.assessHeads_sorted]
    · exact ⟨_, rfl⟩
    · rintro ⟨seat, head⟩ hp
      obtain ⟨hseat, hhead⟩ := hclaims _ hp
      have := hlogs'.head_from hhead (by rwa [hroster'])
      rw [hroster'] at this
      rw [hroster]
      exact this
    · rintro ⟨seat, head⟩ hp
      obtain ⟨-, hhead⟩ := hclaims _ hp
      obtain ⟨-, last, hlast, -⟩ := (hlogs'.chain seat).gapFree.head head hhead
      have hseq := ((hlogs'.chain seat).gapFree.own _ _ hlast).2
      rw [(hlogs'.chain seat).accepted] at hlast
      have hlast' := (hmem' seat last (List.mem_of_getElem? hlast)).resolve_left List.not_mem_nil
      exact hseq ▸ hsafe last hlast'
    · exact ((pairwise_seatHeads List.pairwise_lt_range).sublist (hpairs.map Prod.fst))
    · rintro ⟨seat, head⟩ _
      exact ⟨by dsimp only; omega, by simp⟩

end

/-- A registry of the small group that was offered some envelopes. -/
def SmallGroup.registry (l : List SignedEnvelope) :
    SessionChainRegistry (SmallGroup.primitives fun _ => 0) :=
  (SessionChainRegistry.start SmallGroup.game (SmallGroup.roster fun _ => 0)).ingestAll l


/-- A registry that holds one envelope of a seat, asked about another that holds two. -/
theorem head_commits_to_prefix_small : ∃ outcomes,
    assessWitness (SmallGroup.registry [SmallGroup.firstEnvelope]) (currentWitnessBody
      (SmallGroup.registry [SmallGroup.firstEnvelope, SmallGroup.secondEnvelope]) none)
        = .ok (.assessed outcomes) ∧
    List.Forall₂ (OutcomeSound (SmallGroup.registry [SmallGroup.firstEnvelope])
        (SmallGroup.registry [SmallGroup.firstEnvelope, SmallGroup.secondEnvelope]))
      (SmallGroup.registry [SmallGroup.firstEnvelope, SmallGroup.secondEnvelope]).heads outcomes := by
  obtain ⟨A, hA⟩ : ∃ A, A = SmallGroup.registry [SmallGroup.firstEnvelope] := ⟨_, rfl⟩
  obtain ⟨B, hB⟩ : ∃ B, B = SmallGroup.registry [SmallGroup.firstEnvelope, SmallGroup.secondEnvelope] :=
    ⟨_, rfl⟩
  rw [← hA, ← hB]
  have hinj : Set.InjOn (SmallGroup.primitives fun _ => 0).hashEnvelope
      {e | e ∈ [SmallGroup.firstEnvelope] ∨
        e ∈ [SmallGroup.firstEnvelope, SmallGroup.secondEnvelope]} := by
    intro e he e' he' heq
    simp only [Set.mem_ofPred_eq, List.mem_cons, List.not_mem_nil, or_false, or_self_left] at he he'
    rcases he with rfl | rfl <;> rcases he' with rfl | rfl
    · rfl
    · exact absurd heq (by decide)
    · exact absurd heq (by decide)
    · rfl
  obtain ⟨-, hsound, hassessed⟩ := head_commits_to_prefix SmallGroup.game
    (SmallGroup.roster fun _ => 0) (SmallGroup.roster fun _ => 0) _ _ hinj (by decide) A B hA hB
  obtain ⟨outcomes, houtcomes⟩ := hassessed rfl (currentWitnessBody B none) (List.Sublist.refl _)
  exact ⟨outcomes, houtcomes, hsound _ (fun _ h => h) outcomes houtcomes⟩

end Tablefolk
