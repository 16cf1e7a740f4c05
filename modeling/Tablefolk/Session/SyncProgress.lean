import Tablefolk.Session.Sync

/-!
# Synchronisation makes progress

A registry that holds a WITNESS of another one plans, fetches and applies, again and
again.  `HoldsLogs.repetition` is one repetition: every chain grows by the maximum range,
or up to the claimed head.  `witness_sync_converges` is any number of them.
-/

namespace Tablefolk

section

variable {q : ℕ} {G : Type} [AddCommGroup G] [Module (ZMod q) G] {P : Primitives q G}

/-- A request is served by the remote registry, and the response applied to the local one. -/
def fetch (remote registry : SessionChainRegistry P) (request : SyncRequestBody) :
    Except String (SessionChainRegistry P) := do
  match ← serveSyncRequest remote request with
  | .complete body =>
      match ← applySyncResponse registry request body with
      | (.applied _, next) => return next
      | (.rejected rejection, _) => throw rejection.reason
  | .missing _ => throw "missing"
  | .unknown_sender => throw "unknown_sender"

/-- Plan, then fetch every planned range. -/
def repetition (remote : SessionChainRegistry P) (witness : SignedEnvelope) (maxRange : ℕ)
    (registry : SessionChainRegistry P) : Except String (SessionChainRegistry P) := do
  match ← planWitnessSyncRequests registry witness maxRange with
  | .planned requests => requests.foldlM (fetch remote) registry
  | _ => throw "nothing planned"

/-- Any number of repetitions. -/
def repetitions (remote : SessionChainRegistry P) (witness : SignedEnvelope) (maxRange : ℕ)
    (registry : SessionChainRegistry P) : ℕ → Except String (SessionChainRegistry P)
  | 0 => return registry
  | count + 1 => do
      let next ← repetitions remote witness maxRange registry count
      repetition remote witness maxRange next

variable {registry remote : SessionChainRegistry P} {logs logs' : ℕ → List SignedEnvelope}
  {seat maxRange : ℕ}

/-- No range that a registry can be asked for exceeds the byte limit. -/
def ServesWithin (registry : SessionChainRegistry P) (maxRange : ℕ) : Prop :=
  ∀ sender fromSeq toSeq envelopes, toSeq - fromSeq < maxRange →
    registry.readRange sender fromSeq toSeq = .ok (.complete envelopes) →
    totalBytes envelopes ≤ DEFAULT_MAX_SYNC_RESPONSE_BYTES

theorem ServesWithin.stretch (hbytes : ServesWithin registry maxRange) (h : HoldsLogs registry logs)
    {request : SyncRequestBody} (hseat : registry.roster.seatOf request.from_ = some seat)
    (hle : request.fromSeq ≤ request.toSeq) (hrange : request.toSeq - request.fromSeq < maxRange)
    (hheld : request.toSeq < (logs seat).length) (hsafe : request.toSeq ≤ MAX_SAFE_INTEGER) :
    totalBytes (stretch (logs seat) request) ≤ DEFAULT_MAX_SYNC_RESPONSE_BYTES := by
  refine hbytes request.from_ request.fromSeq request.toSeq _ hrange ?_
  rw [h.readRange hseat hle hsafe, if_pos hheld]
  rfl

theorem ServesWithin.of_logs (h : HoldsLogs registry logs)
    (hsmall : ∀ seat, totalBytes (logs seat) ≤ DEFAULT_MAX_SYNC_RESPONSE_BYTES) :
    ServesWithin registry maxRange := by
  intro sender fromSeq toSeq envelopes _ hrange
  have hread := hrange
  unfold SessionChainRegistry.readRange at hrange
  simp only [check_bind_eq_ok, throwIf_eq_ok, not_lt] at hrange
  obtain ⟨-, hsafe, hle, hrange⟩ := hrange
  cases hseat : registry.roster.seatOf sender with
  | none =>
      rw [hseat] at hrange
      cases hrange
  | some seat =>
      rw [h.readRange hseat hle hsafe] at hread
      split_ifs at hread
      · cases hread
        refine le_trans ?_ (hsmall seat)
        have hsub := (List.take_sublist (toSeq - fromSeq + 1) ((logs seat).drop fromSeq)).trans
          (List.drop_sublist fromSeq (logs seat))
        exact (hsub.map SignedEnvelope.byteLength).sum_le_sum fun _ _ => Nat.zero_le _
      · cases hread

/-! ## One range -/

/-- Fetching the range after a chain's end extends the chain by it. -/
theorem HoldsLogs.fetch (h : HoldsLogs registry logs) (h' : HoldsLogs remote logs')
    (hgame : registry.gameId = remote.gameId) (hroster : registry.roster = remote.roster)
    {sender : IdentityPublicKey} {toSeq : ℕ} (hseat : registry.roster.seatOf sender = some seat)
    (hpre : logs seat <+: logs' seat) (hle : (logs seat).length ≤ toSeq)
    (hrange : toSeq - (logs seat).length < DEFAULT_MAX_SYNC_RANGE_ENVELOPES)
    (hheld : toSeq < (logs' seat).length) (hsafe : toSeq ≤ MAX_SAFE_INTEGER)
    (hbytes : totalBytes (stretch (logs' seat) ⟨sender, (logs seat).length, toSeq⟩)
      ≤ DEFAULT_MAX_SYNC_RESPONSE_BYTES) :
    ∃ next, fetch remote registry ⟨sender, (logs seat).length, toSeq⟩ = .ok next ∧
      HoldsLogs next (Function.update logs seat ((logs' seat).take (toSeq + 1))) ∧
      next.gameId = registry.gameId ∧ next.roster = registry.roster := by
  have hrequest : normalizeRequest ⟨sender, (logs seat).length, toSeq⟩
      = .ok ⟨sender, (logs seat).length, toSeq⟩ := normalizeRequest_eq_ok.2 ⟨rfl, hle, hsafe⟩
  have hserve := h'.serve hrequest (hroster ▸ hseat) hrange hheld hbytes
  have hpreflight := h'.preflight hgame hroster hrequest hseat hrange hheld hbytes
  have hlog : logs seat = (logs' seat).take (logs seat).length := List.prefix_iff_eq_take.1 hpre
  have hsender := sender_of_seatOf h' (hroster ▸ hseat)
  obtain ⟨hnext, hgame', hroster'⟩ := h.ingestEach (h'.chain seat).linked
    (toSeq - (logs seat).length + 1) (fun e he => (h'.game seat e he).trans hgame.symm)
    (hsender.symm ▸ hseat) hlog (by omega)
  have hcount : (logs seat).length + (toSeq - (logs seat).length + 1) = toSeq + 1 := by omega
  rw [hcount] at hnext
  refine ⟨_, ?_, hnext, hgame', hroster'⟩
  unfold Tablefolk.fetch applySyncResponse
  rw [hserve, ok_bind]
  dsimp only
  rw [hpreflight]
  rfl

/-! ## One repetition -/

/-- The range to ask for, after so many envelopes of a chain. -/
def rangeFor (maxRange length : ℕ) (claimed : WitnessHead) : Option SyncRequestBody :=
  if length ≤ claimed.seq then
    some ⟨claimed.from_, length, length + min (claimed.seq - length) (maxRange - 1)⟩
  else none

/-- How long the claims say the chain of a seat is. -/
def claimedLength (claims : List (ℕ × WitnessHead)) (seat : ℕ) : ℕ :=
  ((claims.lookup seat).map fun claimed => claimed.seq + 1).getD 0

/-- The length of a chain after a repetition. -/
def grown (maxRange length claimed : ℕ) : ℕ := max length (min (length + maxRange) claimed)

theorem claimedLength_cons_self {claimed : WitnessHead} {claims : List (ℕ × WitnessHead)} :
    claimedLength ((seat, claimed) :: claims) seat = claimed.seq + 1 := by
  simp [claimedLength]

theorem claimedLength_cons_of_ne {other : ℕ} {claimed : WitnessHead}
    {claims : List (ℕ × WitnessHead)} (hne : other ≠ seat) :
    claimedLength ((seat, claimed) :: claims) other = claimedLength claims other := by
  have hbeq : (other == seat) = false := by simpa using hne
  simp [claimedLength, List.lookup_cons, hbeq]

theorem claimedLength_of_notMem {claims : List (ℕ × WitnessHead)}
    (h : seat ∉ claims.map Prod.fst) : claimedLength claims seat = 0 := by
  have hnone : claims.lookup seat = none := List.lookup_eq_none_iff.2 fun p hp => by
    have hne : seat ≠ p.1 := fun heq => h (heq ▸ List.mem_map_of_mem hp)
    simpa using hne
  simp [claimedLength, hnone]

/-- Fetching every range asked for grows every chain. -/
theorem HoldsLogs.fetchAll {claims : List (ℕ × WitnessHead)} (h : HoldsLogs registry logs)
    (h' : HoldsLogs remote logs') (hgame : registry.gameId = remote.gameId)
    (hroster : registry.roster = remote.roster)
    (hmax : 1 ≤ maxRange ∧ maxRange ≤ DEFAULT_MAX_SYNC_RANGE_ENVELOPES)
    (hclaims : ∀ p ∈ claims, registry.roster.seatOf p.2.from_ = some p.1 ∧
      p.2.seq < (logs' p.1).length ∧ p.2.seq ≤ MAX_SAFE_INTEGER)
    (hnodup : (claims.map Prod.fst).Nodup) (hpre : ∀ seat, logs seat <+: logs' seat)
    (hbytes : ServesWithin remote maxRange) :
    ∃ next, (claims.filterMap fun p => rangeFor maxRange (logs p.1).length p.2).foldlM
        (Tablefolk.fetch remote) registry = .ok next ∧
      HoldsLogs next (fun seat => (logs' seat).take
        (grown maxRange (logs seat).length (claimedLength claims seat))) ∧
      next.gameId = registry.gameId ∧ next.roster = registry.roster := by
  induction claims generalizing registry logs with
  | nil =>
      refine ⟨registry, rfl, ?_, rfl, rfl⟩
      have hsame : (fun seat => (logs' seat).take
          (grown maxRange (logs seat).length (claimedLength [] seat))) = logs := by
        funext seat
        have hzero : claimedLength [] seat = 0 := rfl
        rw [hzero, grown, Nat.min_zero, Nat.max_zero]
        exact (List.prefix_iff_eq_take.1 (hpre seat)).symm
      rwa [hsame]
  | cons p rest ih =>
      obtain ⟨seat, claimed⟩ := p
      obtain ⟨hseat, hheld, hsafe⟩ := hclaims _ List.mem_cons_self
      dsimp only at hseat hheld hsafe
      rw [List.map_cons, List.nodup_cons] at hnodup
      have hfresh : seat ∉ rest.map Prod.fst := hnodup.1
      have hlater : ∀ p ∈ rest, p.1 ≠ seat := by
        rintro p hp rfl
        exact hfresh (List.mem_map_of_mem hp)
      have hrest := fun p (hp : p ∈ rest) => hclaims p (List.mem_cons_of_mem _ hp)
      by_cases hneed : (logs seat).length ≤ claimed.seq
      · obtain ⟨mid, hfetch, hmid, hgame', hroster'⟩ := h.fetch h' hgame hroster hseat (hpre seat)
          (Nat.le_add_right _ (min (claimed.seq - (logs seat).length) (maxRange - 1))) (by omega)
          (by omega) (by omega) (hbytes.stretch h' (hroster ▸ hseat) (Nat.le_add_right _ _)
            (by dsimp only; omega) (by dsimp only; omega) (by dsimp only; omega))
        have hgrown : (logs seat).length + min (claimed.seq - (logs seat).length) (maxRange - 1) + 1
            = grown maxRange (logs seat).length (claimed.seq + 1) := by
          rw [grown]
          omega
        rw [hgrown] at hmid
        have hother : ∀ other, other ≠ seat → Function.update logs seat ((logs' seat).take
            (grown maxRange (logs seat).length (claimed.seq + 1))) other = logs other :=
          fun other hne => Function.update_of_ne hne _ _
        have hself : (Function.update logs seat ((logs' seat).take
            (grown maxRange (logs seat).length (claimed.seq + 1))) seat).length
            = grown maxRange (logs seat).length (claimed.seq + 1) := by
          rw [Function.update_self, List.length_take, grown]
          omega
        obtain ⟨next, hfold, hnext, hgame'', hroster''⟩ := ih hmid (hgame'.trans hgame)
          (hroster'.trans hroster) (by simpa only [hroster'] using hrest) hnodup.2 (fun other => by
            by_cases heq : other = seat
            · subst heq
              rw [Function.update_self]
              exact List.take_prefix _ _
            · rw [hother other heq]
              exact hpre other)
        refine ⟨next, ?_, ?_, hgame''.trans hgame', hroster''.trans hroster'⟩
        · rw [List.filterMap_cons]
          simp only [rangeFor, if_pos hneed, List.foldlM_cons, hfetch, ok_bind]
          rw [← hfold]
          congr 1
          refine List.filterMap_congr fun p hp => ?_
          rw [hother p.1 (hlater p hp), rangeFor]
        · convert hnext using 2 with other
          by_cases heq : other = seat
          · subst heq
            rw [claimedLength_cons_self, hself, claimedLength_of_notMem hfresh]
            simp [grown]
          · rw [claimedLength_cons_of_ne heq, hother other heq]
      · obtain ⟨next, hfold, hnext, hgame'', hroster''⟩ := ih h hgame hroster hrest hnodup.2 hpre
        refine ⟨next, ?_, ?_, hgame'', hroster''⟩
        · rw [List.filterMap_cons]
          simpa only [rangeFor, if_neg hneed] using hfold
        · convert hnext using 2 with other
          by_cases heq : other = seat
          · subst heq
            rw [claimedLength_cons_self, claimedLength_of_notMem hfresh]
            simp only [grown]
            congr 1
            omega
          · rw [claimedLength_cons_of_ne heq]

/-! ## Plans -/

theorem decodeWitnessHeads_safe {index : ℕ} {values : List CborValue} {heads : List WitnessHead}
    (h : decodeWitnessHeads index values = .ok heads) :
    ∀ head ∈ heads, head.seq ≤ MAX_SAFE_INTEGER := by
  induction values generalizing index heads with
  | nil =>
      cases h
      simp
  | cons value rest ih =>
      unfold decodeWitnessHeads at h
      obtain ⟨record, -, h⟩ := bind_eq_ok.1 h
      obtain ⟨identity, -, h⟩ := bind_eq_ok.1 h
      obtain ⟨seq, hseq, h⟩ := bind_eq_ok.1 h
      obtain ⟨hash, -, h⟩ := bind_eq_ok.1 h
      obtain ⟨others, hothers, h⟩ := bind_eq_ok.1 h
      cases h
      intro head hhead
      rcases List.mem_cons.1 hhead with rfl | hhead
      · exact expectUnsignedInteger_le hseq
      · exact ih hothers head hhead

/-- The heads a WITNESS body claims have safe sequence numbers. -/
theorem decodeWitnessBody_safe {value : CborValue} {body : WitnessBody}
    (h : decodeWitnessBody value = .ok body) : ∀ head ∈ body.heads, head.seq ≤ MAX_SAFE_INTEGER := by
  unfold decodeWitnessBody at h
  obtain ⟨record, -, h⟩ := bind_eq_ok.1 h
  obtain ⟨encodedHeads, -, h⟩ := bind_eq_ok.1 h
  rw [check_bind_eq_ok] at h
  obtain ⟨heads, hheads, h⟩ := bind_eq_ok.1 h.2
  rw [check_bind_eq_ok] at h
  have hsafe := decodeWitnessHeads_safe hheads
  obtain ⟨-, h⟩ := h
  split at h
  · obtain ⟨stateHash, -, h⟩ := bind_eq_ok.1 h
    cases h
    exact hsafe
  · cases h
    exact hsafe

/-- What is asked for a claimed head: the range after the local head, or the place of a
conflict. -/
theorem HoldsLogs.requestFor_outcomeOf (h : HoldsLogs registry logs) {claimed : WitnessHead} :
    requestFor maxRange (outcomeOf registry seat claimed) =
      match (logs seat)[claimed.seq]? with
      | none => some ⟨claimed.from_, (logs seat).length,
          (logs seat).length + min (claimed.seq - (logs seat).length) (maxRange - 1)⟩
      | some held =>
          if P.hashEnvelope held ≠ claimed.hash then
            some ⟨claimed.from_, claimed.seq, claimed.seq⟩
          else none := by
  unfold outcomeOf
  rw [(h.chain seat).accepted, (h.chain seat).expectedSeq]
  cases hheld : (logs seat)[claimed.seq]? with
  | none => cases (registry.chains seat).head <;> rfl
  | some held =>
      obtain ⟨head, hhead, -⟩ := ((h.chain seat).gapFree.held claimed.seq).1
        (by rw [(h.chain seat).accepted, hheld]; rfl)
      rw [hhead]
      dsimp only
      split_ifs with hhash hseq
      · simp [requestFor]
      · rfl
      · rfl

theorem exists_of_forall₂ {α β : Type} {R : α → β → Prop} {l : List α} {l' : List β}
    (h : List.Forall₂ R l l') {b : β} (hb : b ∈ l') : ∃ a ∈ l, R a b := by
  induction h with
  | nil => cases hb
  | cons hab _ ih =>
      rcases List.mem_cons.1 hb with rfl | hb
      · exact ⟨_, List.mem_cons_self, hab⟩
      · obtain ⟨a, ha, hR⟩ := ih hb
        exact ⟨a, List.mem_cons_of_mem _ ha, hR⟩

variable {witness existing : SignedEnvelope} {body : WitnessBody}
  {origin : SessionChainRegistry P} {logs₀ : ℕ → List SignedEnvelope}

/-- The heads of a registry, claimed in a WITNESS that is held, are all planned for. -/
theorem HoldsLogs.plan (h : HoldsLogs registry logs) (h₀ : HoldsLogs origin logs₀)
    (hroster : registry.roster = origin.roster)
    (hmax : 1 ≤ maxRange ∧ maxRange ≤ MAX_SAFE_INTEGER)
    (hsize : witness.byteLength ≤ DEFAULT_MAX_SYNC_RESPONSE_BYTES) (htype : witness.type = .WITNESS)
    (hheld : registry.classify witness = .chain (.duplicate existing))
    (hbody : decodeWitnessBody witness.body = .ok body) (hheads : body.heads = origin.heads) :
    planWitnessSyncRequests registry witness maxRange = .ok (.planned
      ((seatHeads origin (List.range origin.roster.size)).filterMap fun p =>
        requestFor maxRange (outcomeOf registry p.1 p.2))) := by
  have hassess : assessWitness registry body = .ok (.assessed
      ((seatHeads origin (List.range origin.roster.size)).map fun p =>
        outcomeOf registry p.1 p.2)) := by
    have hclaims : ∀ p ∈ seatHeads origin (List.range origin.roster.size),
        registry.roster.seatOf p.2.from_ = some p.1 := by
      rintro ⟨seat, head⟩ hp
      obtain ⟨hseat, hhead⟩ := mem_seatHeads.1 hp
      rw [hroster]
      exact h₀.head_from hhead (List.mem_range.1 hseat)
    unfold assessWitness
    rw [h.localHeads, ok_bind, hheads, heads_eq, h.assessHeads_sorted hclaims]
    · rfl
    · intro p hp
      refine decodeWitnessBody_safe hbody p.2 ?_
      rw [hheads, heads_eq]
      exact List.mem_map_of_mem hp
    · exact pairwise_seatHeads List.pairwise_lt_range
    · exact fun p _ => ⟨by omega, by simp⟩
  unfold planWitnessSyncRequests
  rw [throwIf_neg (by omega), ok_bind, if_neg (not_lt.2 hsize), if_neg (not_not.2 htype), hheld]
  dsimp only
  rw [hbody]
  dsimp only
  rw [hassess, ok_bind]
  simp only [List.filterMap_map]
  rfl

/-- Every planned range is nonempty, no longer than the maximum, within safe integers, and
starts where the chain ends or is the single place of a conflict. -/
theorem HoldsLogs.plan_requests (h : HoldsLogs registry logs) {requests : List SyncRequestBody}
    (hplan : planWitnessSyncRequests registry witness maxRange = .ok (.planned requests)) :
    ∀ request ∈ requests, request.fromSeq ≤ request.toSeq ∧
      request.toSeq - request.fromSeq + 1 ≤ maxRange ∧ request.toSeq ≤ MAX_SAFE_INTEGER ∧
      ∃ seat, registry.roster.seatOf request.from_ = some seat ∧
        (request.fromSeq = (registry.chains seat).expectedSeq ∨
          request.toSeq = request.fromSeq ∧
            request.fromSeq < (registry.chains seat).expectedSeq) := by
  unfold planWitnessSyncRequests at hplan
  rw [check_bind_eq_ok, throwIf_eq_ok] at hplan
  obtain ⟨hmax, hplan⟩ := hplan
  split at hplan
  · cases hplan
  · split at hplan
    · cases hplan
    · split at hplan
      · split at hplan
        · cases hplan
        · rename_i body hbody
          obtain ⟨assessment, hassess, hplan⟩ := bind_eq_ok.1 hplan
          cases assessment with
          | rejected reason index => cases hplan
          | assessed outcomes =>
              cases hplan
              unfold assessWitness at hassess
              rw [h.localHeads, ok_bind] at hassess
              obtain ⟨new, hnew, hall⟩ := h.assessHeads_assessed hassess
              obtain rfl : outcomes = new := hnew
              intro request hrequest
              obtain ⟨outcome, houtcome, hrequest⟩ := List.mem_filterMap.1 hrequest
              obtain ⟨claimed, hclaimed, hsafe, seat, hseat, rfl⟩ :=
                exists_of_forall₂ hall houtcome
              rw [h.requestFor_outcomeOf] at hrequest
              simp only [fun other => (h.chain other).expectedSeq]
              cases hheld : (logs seat)[claimed.seq]? with
              | none =>
                  have hlen := List.getElem?_eq_none_iff.1 hheld
                  rw [hheld] at hrequest
                  cases hrequest
                  exact ⟨by dsimp only; omega, by dsimp only; omega, by dsimp only; omega, seat,
                    hseat, .inl rfl⟩
              | some held =>
                  have hlen := (List.getElem?_eq_some_iff.1 hheld).1
                  rw [hheld] at hrequest
                  dsimp only at hrequest
                  split at hrequest
                  · cases hrequest
                    exact ⟨le_rfl, by dsimp only; omega, hsafe, seat, hseat, .inr ⟨rfl, hlen⟩⟩
                  · cases hrequest
      · cases hplan

/-! ## Any number of repetitions -/

theorem HoldsLogs.of_mem_seatHeads (h₀ : HoldsLogs origin logs₀) {head : ChainHead}
    (hp : (seat, head) ∈ seatHeads origin (List.range origin.roster.size)) :
    origin.roster.seatOf head.from_ = some seat ∧ head.seq + 1 = (logs₀ seat).length := by
  obtain ⟨hseat, hhead⟩ := mem_seatHeads.1 hp
  have hlen := (h₀.chain seat).expectedSeq
  rw [SenderChain.expectedSeq, hhead] at hlen
  exact ⟨h₀.head_from hhead (List.mem_range.1 hseat), hlen⟩

/-- When the remote chains extend the local ones, the plan asks for what is after each local
head that is below the claimed one. -/
theorem HoldsLogs.plan_behind (h : HoldsLogs registry logs) (h₀ : HoldsLogs origin logs₀)
    (hroster₀ : registry.roster = origin.roster)
    (hmax : 1 ≤ maxRange ∧ maxRange ≤ MAX_SAFE_INTEGER) (hpre : ∀ seat, logs seat <+: logs' seat)
    (hpre₀ : ∀ seat, logs₀ seat <+: logs' seat)
    (hsize : witness.byteLength ≤ DEFAULT_MAX_SYNC_RESPONSE_BYTES) (htype : witness.type = .WITNESS)
    (hheld : registry.classify witness = .chain (.duplicate existing))
    (hbody : decodeWitnessBody witness.body = .ok body) (hheads : body.heads = origin.heads) :
    planWitnessSyncRequests registry witness maxRange = .ok (.planned
      ((seatHeads origin (List.range origin.roster.size)).filterMap fun p =>
        rangeFor maxRange (logs p.1).length p.2)) := by
  rw [h.plan h₀ hroster₀ hmax hsize htype hheld hbody hheads]
  congr 2
  refine List.filterMap_congr fun p hp => ?_
  obtain ⟨seat, head⟩ := p
  obtain ⟨hseat, hhead⟩ := mem_seatHeads.1 hp
  obtain ⟨-, last, hlast, hhash⟩ := (h₀.chain seat).gapFree.head head hhead
  rw [(h₀.chain seat).accepted] at hlast
  rw [h.requestFor_outcomeOf, rangeFor]
  dsimp only
  by_cases hlt : head.seq < (logs seat).length
  · -- what is held here is what the remote registry held, so there is no conflict
    have hlt₀ := (List.getElem?_eq_some_iff.1 hlast).1
    have hlocal := List.prefix_iff_getElem?.1 (hpre seat) _ hlt
    have hremote := List.prefix_iff_getElem?.1 (hpre₀ seat) _ hlt₀
    rw [hlocal, ← List.getElem?_eq_getElem hlt₀, hlast] at hremote
    rw [List.getElem?_eq_getElem hlt, if_neg (not_le.2 hlt)]
    dsimp only
    rw [Option.some.inj hremote, if_neg (not_not.2 hhash.symm)]
  · rw [List.getElem?_eq_none (not_lt.1 hlt), if_pos (not_lt.1 hlt)]

/-- **One repetition** grows every chain by the maximum range, or up to the claimed head. -/
theorem HoldsLogs.repetition (h : HoldsLogs registry logs) (h' : HoldsLogs remote logs')
    (h₀ : HoldsLogs origin logs₀) (hgame : registry.gameId = remote.gameId)
    (hroster : registry.roster = remote.roster) (hroster₀ : registry.roster = origin.roster)
    (hmax : 1 ≤ maxRange ∧ maxRange ≤ DEFAULT_MAX_SYNC_RANGE_ENVELOPES)
    (hpre : ∀ seat, logs seat <+: logs' seat) (hpre₀ : ∀ seat, logs₀ seat <+: logs' seat)
    (hbytes : ServesWithin remote maxRange)
    (hsize : witness.byteLength ≤ DEFAULT_MAX_SYNC_RESPONSE_BYTES) (htype : witness.type = .WITNESS)
    (hheld : registry.classify witness = .chain (.duplicate existing))
    (hbody : decodeWitnessBody witness.body = .ok body) (hheads : body.heads = origin.heads) :
    ∃ next, repetition remote witness maxRange registry = .ok next ∧
      HoldsLogs next (fun seat => (logs' seat).take
        (grown maxRange (logs seat).length (logs₀ seat).length)) ∧
      next.gameId = registry.gameId ∧ next.roster = registry.roster := by
  have hplan := h.plan_behind h₀ hroster₀ ⟨hmax.1, hmax.2.trans (by decide)⟩ hpre hpre₀ hsize
    htype hheld hbody hheads
  have hlength : ∀ seat, claimedLength (seatHeads origin (List.range origin.roster.size)) seat
      = (logs₀ seat).length := by
    intro seat
    by_cases hseat : seat < origin.roster.size
    · rw [claimedLength, lookup_seatHeads (List.mem_range.2 hseat), ← (h₀.chain seat).expectedSeq,
        SenderChain.expectedSeq]
      cases (origin.chains seat).head <;> rfl
    · rw [h₀.absent seat (not_lt.1 hseat)]
      refine claimedLength_of_notMem ?_
      rintro hmem
      obtain ⟨⟨_, head⟩, hp, rfl⟩ := List.mem_map.1 hmem
      exact hseat (List.mem_range.1 (mem_seatHeads.1 hp).1)
  have hranges : ∀ p ∈ seatHeads origin (List.range origin.roster.size),
      registry.roster.seatOf p.2.from_ = some p.1 ∧ p.2.seq < (logs' p.1).length ∧
      p.2.seq ≤ MAX_SAFE_INTEGER := by
    rintro ⟨seat, head⟩ hp
    obtain ⟨hseat, hlen⟩ := h₀.of_mem_seatHeads hp
    rw [hroster₀]
    refine ⟨hseat, ?_, decodeWitnessBody_safe hbody head ?_⟩
    · have hle := (hpre₀ seat).length_le
      dsimp only
      omega
    · rw [hheads, heads_eq]
      exact List.mem_map_of_mem hp
  obtain ⟨next, hfold, hnext, hgame', hroster'⟩ := h.fetchAll h' hgame hroster hmax hranges
    ((pairwise_seatHeads List.pairwise_lt_range).imp fun hlt => hlt.ne) hpre hbytes
  refine ⟨next, ?_, ?_, hgame', hroster'⟩
  · unfold Tablefolk.repetition
    rw [hplan, ok_bind]
    exact hfold
  · simpa only [hlength] using hnext

theorem grown_grown {maxRange count length claimed : ℕ} :
    grown maxRange (grown (count * maxRange) length claimed) claimed
      = grown ((count + 1) * maxRange) length claimed := by
  unfold grown
  have : (count + 1) * maxRange = count * maxRange + maxRange := by ring
  omega

/-- So many repetitions grow every chain by as many maximum ranges, or up to the claimed
head. -/
theorem HoldsLogs.repetitions (h : HoldsLogs registry logs) (h' : HoldsLogs remote logs')
    (h₀ : HoldsLogs origin logs₀) (hgame : registry.gameId = remote.gameId)
    (hroster : registry.roster = remote.roster) (hroster₀ : registry.roster = origin.roster)
    (hmax : 1 ≤ maxRange ∧ maxRange ≤ DEFAULT_MAX_SYNC_RANGE_ENVELOPES)
    (hpre : ∀ seat, logs seat <+: logs' seat) (hpre₀ : ∀ seat, logs₀ seat <+: logs' seat)
    (hbytes : ServesWithin remote maxRange)
    (hsize : witness.byteLength ≤ DEFAULT_MAX_SYNC_RESPONSE_BYTES) (htype : witness.type = .WITNESS)
    (hheld : registry.classify witness = .chain (.duplicate existing))
    (hbody : decodeWitnessBody witness.body = .ok body) (hheads : body.heads = origin.heads)
    (count : ℕ) :
    ∃ next, repetitions remote witness maxRange registry count = .ok next ∧
      HoldsLogs next (fun seat => (logs' seat).take
        (grown (count * maxRange) (logs seat).length (logs₀ seat).length)) ∧
      next.gameId = registry.gameId ∧ next.roster = registry.roster ∧
      next.classify witness = .chain (.duplicate existing) := by
  induction count with
  | zero =>
      refine ⟨registry, rfl, ?_, rfl, rfl, hheld⟩
      have hsame : (fun seat => (logs' seat).take
          (grown (0 * maxRange) (logs seat).length (logs₀ seat).length)) = logs := by
        funext seat
        have hzero : grown (0 * maxRange) (logs seat).length (logs₀ seat).length
            = (logs seat).length := by
          unfold grown
          omega
        rw [hzero]
        exact (List.prefix_iff_eq_take.1 (hpre seat)).symm
      rwa [hsame]
  | succ count ih =>
      obtain ⟨mid, hmid, hlogs, hgame', hroster', hheld'⟩ := ih
      obtain ⟨next, hnext, hlogs'', hgame'', hroster''⟩ := hlogs.repetition h' h₀
        (hgame'.trans hgame) (hroster'.trans hroster) (hroster'.trans hroster₀) hmax
        (fun seat => List.take_prefix _ _) hpre₀ hbytes hsize htype hheld' hbody hheads
      have hlengths : ∀ seat, ((logs' seat).take
          (grown (count * maxRange) (logs seat).length (logs₀ seat).length)).length
          = grown (count * maxRange) (logs seat).length (logs₀ seat).length := by
        intro seat
        have hle := (hpre seat).length_le
        have hle₀ := (hpre₀ seat).length_le
        rw [List.length_take]
        unfold grown
        omega
      simp only [hlengths, grown_grown] at hlogs''
      refine ⟨next, ?_, hlogs'', hgame''.trans hgame', hroster''.trans hroster', ?_⟩
      · unfold Tablefolk.repetitions
        rw [hmid, ok_bind, hnext]
      · obtain ⟨hwitness, seat, hseat, hplace, hhash⟩ := h.classify_duplicate.1 hheld
        rw [hlogs''.classify_duplicate]
        refine ⟨hwitness.trans (hgame''.trans hgame').symm, seat,
          by rw [hroster''.trans hroster', hseat], ?_, hhash⟩
        obtain ⟨hlt, rfl⟩ := List.getElem?_eq_some_iff.1 hplace
        rw [List.getElem?_take, if_pos (by unfold grown; omega)]
        exact List.prefix_iff_getElem?.1 (hpre seat) _ hlt

/-! ## A conflict -/

/-- A registry holds an envelope. -/
def Holds (registry : SessionChainRegistry P) (e : SignedEnvelope) : Prop :=
  ∃ seat, (registry.chains seat).accepted e.seq = some e

theorem HoldsLogs.classify_of_holds (h : HoldsLogs registry logs) (hheld : Holds registry witness) :
    registry.classify witness = .chain (.duplicate witness) := by
  obtain ⟨seat, hplace⟩ := hheld
  rw [(h.chain seat).accepted] at hplace
  have hmem := List.mem_of_getElem? hplace
  have hseat : seat < registry.roster.size := by
    by_contra hge
    rw [h.absent seat (not_lt.1 hge)] at hmem
    cases hmem
  have hfrom := ((h.chain seat).linked.getElem? hplace).1
  exact h.classify_duplicate.2
    ⟨h.game seat _ hmem, seat, hfrom ▸ seatOf_sender h hseat, hplace, rfl⟩

/-- The envelope at the place of a conflict is served, and refused as an equivocation. -/
theorem HoldsLogs.conflict (h : HoldsLogs registry logs) (h' : HoldsLogs remote logs')
    (hgame : registry.gameId = remote.gameId) (hroster : registry.roster = remote.roster)
    {claimed : WitnessHead} {held held' : SignedEnvelope}
    (hseat : registry.roster.seatOf claimed.from_ = some seat)
    (hlocal : (logs seat)[claimed.seq]? = some held)
    (hremote : (logs' seat)[claimed.seq]? = some held')
    (hne : P.hashEnvelope held ≠ P.hashEnvelope held') (hsafe : claimed.seq ≤ MAX_SAFE_INTEGER)
    (hmax : 1 ≤ maxRange) (hbytes : ServesWithin remote maxRange) :
    serveSyncRequest remote ⟨claimed.from_, claimed.seq, claimed.seq⟩ = .ok (.complete ⟨[held']⟩) ∧
    applySyncResponse registry ⟨claimed.from_, claimed.seq, claimed.seq⟩ ⟨[held']⟩
      = .ok (.applied [.chain (.equivocation held)], registry) := by
  have hrequest : normalizeRequest ⟨claimed.from_, claimed.seq, claimed.seq⟩
      = .ok ⟨claimed.from_, claimed.seq, claimed.seq⟩ :=
    normalizeRequest_eq_ok.2 ⟨rfl, le_rfl, hsafe⟩
  have hlt' := (List.getElem?_eq_some_iff.1 hremote).1
  have hone : stretch (logs' seat) ⟨claimed.from_, claimed.seq, claimed.seq⟩ = [held'] := by
    obtain ⟨hlt, rfl⟩ := List.getElem?_eq_some_iff.1 hremote
    rw [stretch, List.drop_eq_getElem_cons hlt, Nat.sub_self, zero_add, List.take_succ_cons,
      List.take_zero]
  have hrange : claimed.seq - claimed.seq < DEFAULT_MAX_SYNC_RANGE_ENVELOPES := by
    rw [Nat.sub_self]
    decide
  have hseat' : remote.roster.seatOf claimed.from_ = some seat := hroster ▸ hseat
  have hfits : totalBytes (stretch (logs' seat) ⟨claimed.from_, claimed.seq, claimed.seq⟩)
      ≤ DEFAULT_MAX_SYNC_RESPONSE_BYTES :=
    hbytes.stretch h' hseat' le_rfl (by dsimp only; omega) hlt' hsafe
  have hserve := h'.serve hrequest hseat' hrange hlt' hfits
  have hpreflight := h'.preflight hgame hroster hrequest hseat hrange hlt' hfits
  rw [hone] at hserve hpreflight
  refine ⟨hserve, ?_⟩
  obtain ⟨hfrom, hseq, -⟩ := (h'.chain seat).linked.getElem? hremote
  have hsender := sender_of_seatOf h' hseat'
  have hequivocation : registry.classify held' = .chain (.equivocation held) :=
    h.classify_equivocation.2 ⟨(h'.game seat held' (List.mem_of_getElem? hremote)).trans hgame.symm,
      seat, by rw [hfrom, hsender, hseat], by rw [hseq]; exact hlocal, hne⟩
  have hsame : (registry.ingest held').2 = registry :=
    HoldsLogs.ingest_of_not_accepted fun head hhead => by
      rw [hequivocation] at hhead
      cases hhead
  have hresult : (registry.ingest held').1 = .chain (.equivocation held) :=
    HoldsLogs.ingest_fst.trans hequivocation
  unfold applySyncResponse
  rw [hpreflight, ok_bind]
  simp only [Tablefolk.ingestEach, hresult, hsame]
  rfl

theorem ServesWithin.byteLength_le (hbytes : ServesWithin registry maxRange)
    (h : HoldsLogs registry logs) (hmax : 1 ≤ maxRange) (hheld : Holds registry witness)
    (hsafe : witness.seq ≤ MAX_SAFE_INTEGER) :
    witness.byteLength ≤ DEFAULT_MAX_SYNC_RESPONSE_BYTES := by
  obtain ⟨-, seat, hseat, hplace, -⟩ := h.classify_duplicate.1 (h.classify_of_holds hheld)
  obtain ⟨hlt, hget⟩ := List.getElem?_eq_some_iff.1 hplace
  have hfits : totalBytes (Tablefolk.stretch (logs seat) ⟨witness.from_, witness.seq, witness.seq⟩)
      ≤ DEFAULT_MAX_SYNC_RESPONSE_BYTES :=
    hbytes.stretch h hseat le_rfl (by dsimp only; omega) hlt hsafe
  rw [Tablefolk.stretch, List.drop_eq_getElem_cons hlt, Nat.sub_self, zero_add,
    List.take_succ_cons, List.take_zero, hget] at hfits
  simpa [totalBytes] using hfits

/-- **Synchronisation from a WITNESS converges.**  Every planned range is nonempty, no
longer than the maximum, safe, and starts at the end of a chain or is the place of a
conflict.  Against a remote registry that extends the local one and whose heads the WITNESS
once was, each repetition grows every chain by the maximum range or up to the claimed head,
so the head of a sender is reached after as many repetitions as its gap has ranges.  A claim
that conflicts with an envelope held is refused as an equivocation and changes nothing. -/
theorem witness_sync_converges (gameId : GameId) (roster : Roster P) (l before after : List SignedEnvelope)
    (witness : SignedEnvelope) (body : WitnessBody) (maxRange : ℕ) :
    ∀ A B₀ B, A = (SessionChainRegistry.start gameId roster).ingestAll l →
      B₀ = (SessionChainRegistry.start gameId roster).ingestAll before → B = B₀.ingestAll after →
    (∀ requests, planWitnessSyncRequests A witness maxRange = .ok (.planned requests) →
      ∀ request ∈ requests, request.fromSeq ≤ request.toSeq ∧
        request.toSeq - request.fromSeq + 1 ≤ maxRange ∧ request.toSeq ≤ MAX_SAFE_INTEGER ∧
        ∃ seat, roster.seatOf request.from_ = some seat ∧
          (request.fromSeq = (A.chains seat).expectedSeq ∨
            request.toSeq = request.fromSeq ∧ request.fromSeq < (A.chains seat).expectedSeq)) ∧
    ((∀ e ∈ l, e.seq ≤ MAX_SAFE_INTEGER) → 1 ≤ maxRange →
      maxRange ≤ DEFAULT_MAX_SYNC_RANGE_ENVELOPES → ServesWithin B maxRange →
      Holds A witness → witness.type = .WITNESS → decodeWitnessBody witness.body = .ok body →
      body.heads = B₀.heads →
      ((∀ seat seq e, (A.chains seat).accepted seq = some e →
          (B.chains seat).accepted seq = some e) →
        ∀ count, ∃ next requests, repetitions B witness maxRange A count = .ok next ∧
          planWitnessSyncRequests next witness maxRange = .ok (.planned requests) ∧
          (∀ request, request ∈ requests ↔ ∃ seat, roster.seatOf request.from_ = some seat ∧
            (next.chains seat).expectedSeq < (B₀.chains seat).expectedSeq ∧
            request.fromSeq = (next.chains seat).expectedSeq ∧
            request.toSeq + 1 = min ((next.chains seat).expectedSeq + maxRange)
              (B₀.chains seat).expectedSeq) ∧
          ∀ seat, (next.chains seat).expectedSeq = max (A.chains seat).expectedSeq
              (min ((A.chains seat).expectedSeq + count * maxRange) (B₀.chains seat).expectedSeq) ∧
            (∀ seq < (next.chains seat).expectedSeq,
              (next.chains seat).accepted seq = (B.chains seat).accepted seq) ∧
            ((B₀.chains seat).expectedSeq ≤ (next.chains seat).expectedSeq ↔
              ((B₀.chains seat).expectedSeq - (A.chains seat).expectedSeq) ⌈/⌉ maxRange ≤ count)) ∧
      (witness.byteLength ≤ DEFAULT_MAX_SYNC_RESPONSE_BYTES → ∀ claimed ∈ body.heads, ∀ seat held,
        roster.seatOf claimed.from_ = some seat →
        (A.chains seat).accepted claimed.seq = some held → P.hashEnvelope held ≠ claimed.hash →
        ∃ requests held', planWitnessSyncRequests A witness maxRange = .ok (.planned requests) ∧
          ⟨claimed.from_, claimed.seq, claimed.seq⟩ ∈ requests ∧
          serveSyncRequest B ⟨claimed.from_, claimed.seq, claimed.seq⟩
            = .ok (.complete ⟨[held']⟩) ∧
          applySyncResponse A ⟨claimed.from_, claimed.seq, claimed.seq⟩ ⟨[held']⟩
            = .ok (.applied [.chain (.equivocation held)], A))) := by
  intro A B₀ B hA hB₀ hB
  obtain ⟨hgameA, hrosterA, logs, hlogs, -, hmem⟩ := (HoldsLogs.start gameId roster).ingestAll l
  obtain ⟨hgame₀, hroster₀, logs₀, hlogs₀, -, -⟩ := (HoldsLogs.start gameId roster).ingestAll before
  rw [← hA] at hgameA hrosterA hlogs
  rw [← hB₀] at hgame₀ hroster₀ hlogs₀
  obtain ⟨hgameB, hrosterB, logs', hlogs', hpre₀, -⟩ := hlogs₀.ingestAll after
  rw [← hB] at hgameB hrosterB hlogs'
  change _ = gameId at hgameA hgame₀
  change _ = roster at hrosterA hroster₀
  refine ⟨fun requests hplan => ?_, fun hsafe hone hmax hbytes hholds htype hbody hheads =>
    ⟨?_, ?_⟩⟩
  · simpa only [hrosterA] using hlogs.plan_requests hplan
  · intro hextends count
    have hpre : ∀ seat, logs seat <+: logs' seat := by
      intro seat
      refine List.prefix_iff_getElem?.2 fun seq hlt => ?_
      have hplace := hextends seat seq _ (((hlogs.chain seat).accepted seq).trans
        (List.getElem?_eq_getElem hlt))
      rwa [(hlogs'.chain seat).accepted] at hplace
    have hsize : witness.byteLength ≤ DEFAULT_MAX_SYNC_RESPONSE_BYTES :=
      hbytes.byteLength_le hlogs' hone (by
        obtain ⟨seat, hplace⟩ := hholds
        exact ⟨seat, hextends seat _ _ hplace⟩) (by
        obtain ⟨seat, hplace⟩ := hholds
        rw [(hlogs.chain seat).accepted] at hplace
        have hoffered := hmem seat witness (List.mem_of_getElem? hplace)
        exact hsafe witness (hoffered.resolve_left List.not_mem_nil))
    obtain ⟨next, hnext, hlogs'', hgame'', hroster'', hheld⟩ := hlogs.repetitions hlogs' hlogs₀
      (hgameA.trans (hgameB.trans hgame₀).symm) (hrosterA.trans (hrosterB.trans hroster₀).symm)
      (hrosterA.trans hroster₀.symm) ⟨hone, hmax⟩ hpre hpre₀ hbytes hsize htype
      (hlogs.classify_of_holds hholds) hbody hheads count
    have hplan := hlogs''.plan_behind hlogs₀ (hroster''.trans (hrosterA.trans hroster₀.symm))
      ⟨hone, hmax.trans (by decide)⟩ (fun seat => List.take_prefix _ _) hpre₀ hsize htype hheld
      hbody hheads
    have hlength' : ∀ seat, (next.chains seat).expectedSeq = ((logs' seat).take
        (grown (count * maxRange) (logs seat).length (logs₀ seat).length)).length := fun seat =>
      (hlogs''.chain seat).expectedSeq
    refine ⟨next, _, hnext, hplan, fun request => ?_, ?_⟩
    · simp only [← hlength']
      constructor
      · intro hrequest
        obtain ⟨⟨seat, head⟩, hp, hrange⟩ := List.mem_filterMap.1 hrequest
        obtain ⟨hseat, hhead⟩ := hlogs₀.of_mem_seatHeads hp
        unfold rangeFor at hrange
        split at hrange
        · rename_i hneed
          cases hrange
          refine ⟨seat, by rw [← hroster₀]; exact hseat, ?_, rfl, ?_⟩
          · rw [(hlogs₀.chain seat).expectedSeq]
            dsimp only at hneed
            omega
          · rw [(hlogs₀.chain seat).expectedSeq]
            dsimp only at hneed ⊢
            omega
        · cases hrange
      · rintro ⟨seat, hseat, hbehind, hfrom, hto⟩
        have hsome : (B₀.chains seat).head ≠ none := by
          intro hnone
          have hzero : (B₀.chains seat).expectedSeq = 0 := by
            rw [SenderChain.expectedSeq, hnone]
          omega
        obtain ⟨head, hhead⟩ := Option.ne_none_iff_exists'.1 hsome
        have hlt : seat < B₀.roster.size := hroster₀ ▸ Roster.lt_size_of_seatOf hseat
        have hp : (seat, head) ∈ seatHeads B₀ (List.range B₀.roster.size) :=
          mem_seatHeads.2 ⟨List.mem_range.2 hlt, hhead⟩
        obtain ⟨hseat', hseq⟩ := hlogs₀.of_mem_seatHeads hp
        rw [← (hlogs₀.chain seat).expectedSeq] at hseq
        refine List.mem_filterMap.2 ⟨(seat, head), hp, ?_⟩
        rw [rangeFor, if_pos (by dsimp only; omega)]
        obtain ⟨from_, fromSeq, toSeq⟩ := request
        dsimp only at hseat hfrom hto ⊢
        have hidentity : head.from_ = from_ :=
          Roster.seatOf_inj (by rw [← hroster₀]; exact hseat') hseat
        rw [hidentity, hfrom]
        congr 2
        omega
    · intro seat
      have hle := (hpre seat).length_le
      have hle₀ := (hpre₀ seat).length_le
      have hlength : (next.chains seat).expectedSeq = max (A.chains seat).expectedSeq
          (min ((A.chains seat).expectedSeq + count * maxRange) (B₀.chains seat).expectedSeq) := by
        rw [(hlogs''.chain seat).expectedSeq, (hlogs.chain seat).expectedSeq,
          (hlogs₀.chain seat).expectedSeq, List.length_take]
        unfold grown
        omega
      refine ⟨hlength, fun seq hlt => ?_, ?_⟩
      · rw [(hlogs''.chain seat).expectedSeq, List.length_take] at hlt
        rw [(hlogs''.chain seat).accepted, (hlogs'.chain seat).accepted, List.getElem?_take,
          if_pos (by omega)]
      · rw [hlength, ceilDiv_le_iff_le_mul (by omega), Nat.mul_comm maxRange]
        omega
  · intro hsize claimed hclaimed seat held hseat hplace hne
    rw [hheads] at hclaimed
    obtain ⟨seat', hseat', hhead⟩ := hlogs₀.mem_heads hclaimed
    obtain rfl : seat = seat' := Option.some.inj (hseat.symm.trans (by rw [← hroster₀]; exact hseat'))
    obtain ⟨-, last, hlast, hhash⟩ := (hlogs₀.chain seat).gapFree.head claimed hhead
    rw [(hlogs₀.chain seat).accepted] at hlast
    rw [(hlogs.chain seat).accepted] at hplace
    have hremote : (logs' seat)[claimed.seq]? = some last := by
      obtain ⟨hlt, rfl⟩ := List.getElem?_eq_some_iff.1 hlast
      exact List.prefix_iff_getElem?.1 (hpre₀ seat) _ hlt
    have hclaimedSafe := decodeWitnessBody_safe hbody claimed (by rw [hheads]; exact hclaimed)
    obtain ⟨hserve, happly⟩ := hlogs.conflict hlogs' (hgameA.trans (hgameB.trans hgame₀).symm)
      (hrosterA.trans (hrosterB.trans hroster₀).symm) (by rw [hrosterA]; exact hseat) hplace hremote
      (hhash ▸ hne) hclaimedSafe hone hbytes
    have hplan := hlogs.plan hlogs₀ (hrosterA.trans hroster₀.symm) ⟨hone, hmax.trans (by decide)⟩
      hsize htype (hlogs.classify_of_holds hholds) hbody hheads
    refine ⟨_, last, hplan, ?_, hserve, happly⟩
    have hlt : seat < B₀.roster.size := hroster₀ ▸ Roster.lt_size_of_seatOf hseat
    refine List.mem_filterMap.2 ⟨(seat, claimed), mem_seatHeads.2 ⟨List.mem_range.2 hlt, hhead⟩, ?_⟩
    rw [hlogs.requestFor_outcomeOf]
    dsimp only
    rw [hplace]
    exact if_pos hne

end

/-- The second seat's WITNESS claims two envelopes of the first seat, of which the local
registry has none. -/
theorem witness_sync_converges_small : ∃ next,
    repetitions ((SmallGroup.registry [SmallGroup.firstEnvelope, SmallGroup.secondEnvelope]).ingestAll
      [SmallGroup.witnessEnvelope]) SmallGroup.witnessEnvelope 1
      (SmallGroup.registry [SmallGroup.witnessEnvelope]) 2 = .ok next ∧
    (next.chains 0).expectedSeq = 2 := by
  obtain ⟨A, hA⟩ : ∃ A, A = SmallGroup.registry [SmallGroup.witnessEnvelope] := ⟨_, rfl⟩
  obtain ⟨B₀, hB₀⟩ : ∃ B, B = SmallGroup.registry
    [SmallGroup.firstEnvelope, SmallGroup.secondEnvelope] := ⟨_, rfl⟩
  obtain ⟨B, hB⟩ : ∃ B, B = B₀.ingestAll [SmallGroup.witnessEnvelope] := ⟨_, rfl⟩
  rw [← hA, ← hB₀, ← hB]
  obtain ⟨-, hrun⟩ := witness_sync_converges SmallGroup.game (SmallGroup.roster fun _ => 0) _ _ _
    SmallGroup.witnessEnvelope ⟨[⟨SmallGroup.padded 32 [1], 1, SmallGroup.padded 32 [1, 1, 1, 1]⟩],
      none⟩ 1 A B₀ B hA hB₀ hB
  have hfirst : (SmallGroup.roster fun _ => 0).seatOf SmallGroup.firstEnvelope.from_ = some 0 := rfl
  have hsecond : (SmallGroup.roster fun _ => 0).seatOf SmallGroup.secondEnvelope.from_ = some 0 :=
    rfl
  have hwitness : (SmallGroup.roster fun _ => 0).seatOf SmallGroup.witnessEnvelope.from_ = some 1 :=
    rfl
  have hlogs₁ := (HoldsLogs.start SmallGroup.game (SmallGroup.roster fun _ => 0)).ingest_of_accepted
    hfirst rfl
  have hlogs₂ := hlogs₁.ingest_of_accepted hsecond rfl
  have hlogs₃ := hlogs₂.ingest_of_accepted hwitness rfl
  have hbytes : ServesWithin B 1 := by
    rw [hB, hB₀]
    refine ServesWithin.of_logs hlogs₃ fun seat => ?_
    have hsize₁ : SmallGroup.firstEnvelope.byteLength ≤ 64 * 1024 :=
      SignedEnvelope.byteLength_le (by decide) (by decide)
    have hsize₂ : SmallGroup.secondEnvelope.byteLength ≤ 64 * 1024 :=
      SignedEnvelope.byteLength_le (by decide) (by decide)
    have hsize₃ : SmallGroup.witnessEnvelope.byteLength ≤ 64 * 1024 :=
      SignedEnvelope.byteLength_le (by decide) (by decide)
    have hlimit : DEFAULT_MAX_SYNC_RESPONSE_BYTES = 4 * 1024 * 1024 := rfl
    match seat with
    | 0 =>
        show SmallGroup.firstEnvelope.byteLength + (SmallGroup.secondEnvelope.byteLength + 0) ≤ _
        omega
    | 1 =>
        show SmallGroup.witnessEnvelope.byteLength + 0 ≤ _
        omega
    | _ + 2 => exact Nat.zero_le _
  have hheldA : ∀ seat seq e, (A.chains seat).accepted seq = some e →
      seat = 1 ∧ seq = 0 ∧ e = SmallGroup.witnessEnvelope := by
    intro seat seq e he
    have hlogsA := (HoldsLogs.start SmallGroup.game (SmallGroup.roster fun _ => 0)).ingest_of_accepted
      hwitness rfl
    have hplace := (hlogsA.chain seat).accepted seq
    rw [hA] at he
    replace he := hplace.symm.trans he
    by_cases hseat : seat = 1
    · subst hseat
      cases seq with
      | zero => exact ⟨rfl, rfl, (Option.some.inj he).symm⟩
      | succ seq => cases he
    · rw [Function.update_of_ne hseat] at he
      cases he
  obtain ⟨hconverges, -⟩ := hrun (by decide) le_rfl (by decide) hbytes
    ⟨1, by rw [hA]; rfl⟩ rfl rfl (by rw [hB₀]; rfl)
  have hextends : ∀ seat seq e, (A.chains seat).accepted seq = some e →
      (B.chains seat).accepted seq = some e := by
    intro seat seq e he
    obtain ⟨rfl, rfl, rfl⟩ := hheldA seat seq e he
    rw [hB, hB₀]
    rfl
  obtain ⟨next, -, hnext, -, -, hlengths⟩ := hconverges hextends 2
  refine ⟨next, hnext, ?_⟩
  rw [(hlengths 0).1, hA, hB₀]
  rfl

end Tablefolk
