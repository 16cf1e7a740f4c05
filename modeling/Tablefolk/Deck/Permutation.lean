import Tablefolk.Lib.Checks

/-!
# Random permutations

The model of `crypto/random.ts` and `crypto/permutation.ts`.

A random source fills one buffer after the other; here it is the list of the four-byte buffers it
has filled so far, and a result of `none` means that more of them are needed.  Numbers of the source
are double-precision: `roundDouble` is what an operation makes of its exact result.

* `candidate_eq`, `acceptanceLimit_eq`: nothing is rounded.
* `card_residue`: every residue has the same number of accepted candidates.
* `bijOn_permutationOf`: every permutation has exactly one sequence of draws.
-/

namespace Tablefolk

/-! ## Numbers -/

/-- The double closest to a natural number: 53 significant bits, ties to even. -/
def roundDouble (n : ℕ) : ℕ :=
  let unit := 2 ^ (Nat.log2 n + 1 - 53)
  if 2 * (n % unit) < unit ∨ 2 * (n % unit) = unit ∧ n / unit % 2 = 0 then n / unit * unit
  else (n / unit + 1) * unit

/-- `left + right`. -/
def addNumber (left right : ℕ) : ℕ := roundDouble (left + right)

/-- `left - right`, when it is not negative. -/
def subNumber (left right : ℕ) : ℕ := roundDouble (left - right)

/-- `left * right`. -/
def mulNumber (left right : ℕ) : ℕ := roundDouble (left * right)

/-- `n >>> 0`. -/
def toUint32 (n : ℕ) : ℕ := n % 2 ^ 32

theorem roundDouble_of_lt {n : ℕ} (h : n < 2 ^ 53) : roundDouble n = n := by
  have hlog : Nat.log2 n + 1 - 53 = 0 := by
    by_cases hn : n = 0
    · simp [hn]
    · have := (Nat.log2_lt hn).2 h
      omega
  simp [roundDouble, hlog, Nat.mod_one]

/-! ## Uniform numbers -/

/-- A buffer of four bytes, filled by the random source. -/
structure Fill where
  b0 : UInt8
  b1 : UInt8
  b2 : UInt8
  b3 : UInt8
  deriving DecidableEq, Repr

def UINT32_RANGE : ℕ := 0x100000000

inductive RandomError where
  | range (message : String)
  deriving DecidableEq, Repr

/-- The number that the four bytes are. -/
def Fill.candidate (bytes : Fill) : ℕ :=
  toUint32 (addNumber (addNumber (addNumber bytes.b0.toNat (mulNumber bytes.b1.toNat 0x100))
    (mulNumber bytes.b2.toNat 0x10000)) (mulNumber bytes.b3.toNat 0x1000000))

def acceptanceLimit (upperExclusive : ℕ) : ℕ :=
  subNumber UINT32_RANGE (UINT32_RANGE % upperExclusive)

/-- The loop of `randomUint32Below`. -/
def drawBelow (upperExclusive : ℕ) : List Fill → Option (ℕ × List Fill)
  | [] => none
  | bytes :: rest =>
      if bytes.candidate < acceptanceLimit upperExclusive then
        some (bytes.candidate % upperExclusive, rest)
      else drawBelow upperExclusive rest

/-- `randomUint32Below`: the number and the buffers that were not used. -/
def randomUint32Below (upperExclusive : ℕ) (source : List Fill) :
    Except RandomError (Option (ℕ × List Fill)) := do
  throwIf (upperExclusive < 1 ∨ UINT32_RANGE < upperExclusive)
    (.range "Upper bound must be an integer from 1 through 2^32")
  return drawBelow upperExclusive source

/-- The bytes are the number, lowest byte first: no operation rounds and nothing is cut off. -/
theorem Fill.candidate_eq (bytes : Fill) : bytes.candidate =
    bytes.b0.toNat + bytes.b1.toNat * 2 ^ 8 + bytes.b2.toNat * 2 ^ 16 + bytes.b3.toNat * 2 ^ 24 := by
  have h0 := bytes.b0.toNat_lt
  have h1 := bytes.b1.toNat_lt
  have h2 := bytes.b2.toNat_lt
  have h3 := bytes.b3.toNat_lt
  unfold candidate addNumber mulNumber toUint32
  rw [roundDouble_of_lt (n := bytes.b1.toNat * 0x100) (by omega),
    roundDouble_of_lt (n := bytes.b2.toNat * 0x10000) (by omega),
    roundDouble_of_lt (n := bytes.b3.toNat * 0x1000000) (by omega)]
  simp only [roundDouble_of_lt (n := bytes.b0.toNat + bytes.b1.toNat * 0x100) (by omega)]
  simp only [roundDouble_of_lt
    (n := bytes.b0.toNat + bytes.b1.toNat * 0x100 + bytes.b2.toNat * 0x10000) (by omega)]
  rw [roundDouble_of_lt (by omega)]
  omega

theorem acceptanceLimit_eq (upperExclusive : ℕ) :
    acceptanceLimit upperExclusive = 2 ^ 32 - 2 ^ 32 % upperExclusive := by
  unfold acceptanceLimit subNumber UINT32_RANGE
  exact roundDouble_of_lt (by omega)

theorem Fill.candidate_lt (bytes : Fill) : bytes.candidate < 2 ^ 32 := Nat.mod_lt _ (by norm_num)

/-- Every 32-bit number is the candidate of exactly one buffer. -/
theorem bijOn_candidate : Set.BijOn Fill.candidate Set.univ (Set.Iio (2 ^ 32)) := by
  refine ⟨fun bytes _ => bytes.candidate_lt, fun bytes _ other _ heq => ?_, fun n hn => ?_⟩
  · rw [bytes.candidate_eq, other.candidate_eq] at heq
    have h0 := bytes.b0.toNat_lt
    have h1 := bytes.b1.toNat_lt
    have h2 := bytes.b2.toNat_lt
    have h3 := bytes.b3.toNat_lt
    have h0' := other.b0.toNat_lt
    have h1' := other.b1.toNat_lt
    have h2' := other.b2.toNat_lt
    have h3' := other.b3.toNat_lt
    have e0 : bytes.b0 = other.b0 := UInt8.toNat_inj.1 (by omega)
    have e1 : bytes.b1 = other.b1 := UInt8.toNat_inj.1 (by omega)
    have e2 : bytes.b2 = other.b2 := UInt8.toNat_inj.1 (by omega)
    have e3 : bytes.b3 = other.b3 := UInt8.toNat_inj.1 (by omega)
    cases bytes
    cases other
    simp_all
  · have hn : n < 2 ^ 32 := hn
    refine ⟨⟨.ofNat n, .ofNat (n / 2 ^ 8), .ofNat (n / 2 ^ 16), .ofNat (n / 2 ^ 24)⟩,
      Set.mem_univ _, ?_⟩
    rw [Fill.candidate_eq]
    simp only [UInt8.toNat_ofNat']
    omega

/-- Of the accepted candidates, as many leave one residue as any other. -/
theorem card_residue {upperExclusive residue : ℕ} (hresidue : residue < upperExclusive) :
    ((Finset.range (2 ^ 32)).filter fun candidate => candidate < acceptanceLimit upperExclusive ∧
      candidate % upperExclusive = residue).card = 2 ^ 32 / upperExclusive := by
  have hpos : 0 < upperExclusive := by omega
  have hlimit : acceptanceLimit upperExclusive = upperExclusive * (2 ^ 32 / upperExclusive) := by
    have := Nat.div_add_mod (2 ^ 32) upperExclusive
    rw [acceptanceLimit_eq]
    omega
  rw [hlimit]
  have hle : upperExclusive * (2 ^ 32 / upperExclusive) ≤ 2 ^ 32 := Nat.mul_div_le _ _
  -- the accepted candidates with this residue are one for each multiple of the bound
  refine ((Finset.card_range (2 ^ 32 / upperExclusive)).symm.trans (Finset.card_bij
    (fun multiple _ => upperExclusive * multiple + residue) ?_ ?_ ?_)).symm
  · intro multiple hmultiple
    have hlt : multiple < 2 ^ 32 / upperExclusive := Finset.mem_range.1 hmultiple
    have hle' : upperExclusive * (multiple + 1) ≤ upperExclusive * (2 ^ 32 / upperExclusive) :=
      Nat.mul_le_mul_left _ hlt
    rw [Nat.mul_succ] at hle'
    refine Finset.mem_filter.2 ⟨Finset.mem_range.2 (by omega), by omega, ?_⟩
    rw [Nat.mul_add_mod, Nat.mod_eq_of_lt hresidue]
  · intro left _ right _ heq
    exact Nat.eq_of_mul_eq_mul_left hpos (by omega)
  · intro candidate hcandidate
    obtain ⟨-, hlt, hmod⟩ := Finset.mem_filter.1 hcandidate
    refine ⟨candidate / upperExclusive, Finset.mem_range.2 ?_, ?_⟩
    · exact Nat.div_lt_of_lt_mul hlt
    · have := Nat.div_add_mod candidate upperExclusive
      omega

/-- What the loop draws is the residue of the first candidate below the limit. -/
theorem drawBelow_eq_some {upperExclusive value : ℕ} {source rest : List Fill}
    (h : drawBelow upperExclusive source = some (value, rest)) : ∃ refused bytes,
      source = refused ++ bytes :: rest ∧
      (∀ other ∈ refused, acceptanceLimit upperExclusive ≤ other.candidate) ∧
      bytes.candidate < acceptanceLimit upperExclusive ∧ value = bytes.candidate % upperExclusive := by
  induction source with
  | nil => cases h
  | cons bytes source ih =>
      unfold drawBelow at h
      split at h
      · rename_i haccepted
        obtain ⟨rfl, rfl⟩ := Prod.mk.inj (Option.some.inj h)
        exact ⟨[], bytes, rfl, by simp, haccepted, rfl⟩
      · rename_i hrefused
        obtain ⟨refused, other, rfl, hall, haccepted, hvalue⟩ := ih h
        refine ⟨bytes :: refused, other, rfl, ?_, haccepted, hvalue⟩
        intro first hfirst
        rcases List.mem_cons.1 hfirst with rfl | hfirst
        · exact not_lt.1 hrefused
        · exact hall first hfirst

/-! ## Permutations -/

/-- The two entries are exchanged. -/
def swapEntries (permutation : List ℕ) (index swapIndex : ℕ) : List ℕ :=
  (permutation.set index (permutation.getD swapIndex 0)).set swapIndex (permutation.getD index 0)

/-- The loop of `randomPermutation`, down from `index`. -/
def shuffleFrom : ℕ → List ℕ → List Fill → Except RandomError (Option (List ℕ × List Fill))
  | 0, permutation, source => .ok (some (permutation, source))
  | index + 1, permutation, source => do
      match ← randomUint32Below (index + 2) source with
      | none => return none
      | some (swapIndex, source) =>
          shuffleFrom index (swapEntries permutation (index + 1) swapIndex) source

/-- `randomPermutation`: the permutation and the buffers that were not used. -/
def randomPermutation (size : ℕ) (source : List Fill) :
    Except RandomError (Option (List ℕ × List Fill)) := do
  throwIf (0xffffffff < size)
    (.range "Permutation size must be an integer from 0 through 2^32 - 1")
  shuffleFrom (size - 1) (List.range size) source

/-- The loop with the numbers that were drawn. -/
def applyDraws : ℕ → List ℕ → List ℕ → List ℕ
  | index + 1, permutation, swapIndex :: draws =>
      applyDraws index (swapEntries permutation (index + 1) swapIndex) draws
  | _, permutation, _ => permutation

/-- Draws for the loop down from `index`: the first is at most `index`, and so on. -/
inductive Draws : ℕ → List ℕ → Prop
  | nil : Draws 0 []
  | cons {index swapIndex : ℕ} {draws : List ℕ} (hle : swapIndex ≤ index + 1)
      (rest : Draws index draws) : Draws (index + 1) (swapIndex :: draws)

/-- The source gives these draws, one call after the other. -/
inductive DrawnFrom : ℕ → List Fill → List ℕ → List Fill → Prop
  | nil {source : List Fill} : DrawnFrom 0 source [] source
  | cons {index swapIndex : ℕ} {source source' rest : List Fill} {draws : List ℕ}
      (draw : randomUint32Below (index + 2) source = .ok (some (swapIndex, source')))
      (next : DrawnFrom index source' draws rest) :
      DrawnFrom (index + 1) source (swapIndex :: draws) rest

theorem draws_iff {index : ℕ} {draws : List ℕ} : Draws index draws ↔
    draws.length = index ∧ ∀ k (h : k < draws.length), draws[k] ≤ index - k := by
  induction index generalizing draws with
  | zero =>
      constructor
      · rintro ⟨⟩
        simp
      · rintro ⟨hlength, -⟩
        rw [List.length_eq_zero_iff.1 hlength]
        exact .nil
  | succ index ih =>
      constructor
      · rintro (_ | ⟨hle, hrest⟩)
        obtain ⟨hlength, hall⟩ := ih.1 hrest
        refine ⟨by simp [hlength], fun k hk => ?_⟩
        cases k with
        | zero => simpa using hle
        | succ k =>
            have := hall k (by simpa using hk)
            simp only [List.getElem_cons_succ]
            omega
      · rintro ⟨hlength, hall⟩
        cases draws with
        | nil => simp at hlength
        | cons swapIndex draws =>
            have hhead : swapIndex ≤ index + 1 - 0 := hall 0 (Nat.succ_pos _)
            refine .cons hhead (ih.2 ⟨by simpa using hlength, fun k hk => ?_⟩)
            have := hall (k + 1) (by simpa using hk)
            simp only [List.getElem_cons_succ] at this
            omega

theorem swapEntries_perm {permutation : List ℕ} {index swapIndex : ℕ}
    (hindex : index < permutation.length) (hswap : swapIndex < permutation.length) :
    (swapEntries permutation index swapIndex).Perm permutation := by
  unfold swapEntries
  rw [List.getD_eq_getElem _ _ hindex, List.getD_eq_getElem _ _ hswap]
  exact List.set_set_perm hindex hswap

@[simp] theorem length_swapEntries {permutation : List ℕ} {index swapIndex : ℕ} :
    (swapEntries permutation index swapIndex).length = permutation.length := by
  simp [swapEntries]

theorem swapEntries_getElem?_of_lt {permutation : List ℕ} {index swapIndex k : ℕ} (hk : index < k)
    (hswap : swapIndex ≤ index) : (swapEntries permutation index swapIndex)[k]? = permutation[k]? := by
  unfold swapEntries
  rw [List.getElem?_set_ne (by omega), List.getElem?_set_ne (by omega)]

/-- The entry that was drawn stands at the index. -/
theorem swapEntries_getElem? {permutation : List ℕ} {index swapIndex : ℕ}
    (hindex : index < permutation.length) (hswap : swapIndex < permutation.length) :
    (swapEntries permutation index swapIndex)[index]? = permutation[swapIndex]? := by
  unfold swapEntries
  rw [List.getD_eq_getElem _ _ hindex, List.getD_eq_getElem _ _ hswap]
  by_cases hsame : swapIndex = index
  · subst hsame
    simp [hindex]
  · rw [List.getElem?_set_ne hsame]
    simp [hindex, hswap]

theorem applyDraws_perm {index : ℕ} {permutation draws : List ℕ} (h : Draws index draws)
    (hindex : index < permutation.length ∨ index = 0) :
    (applyDraws index permutation draws).Perm permutation := by
  induction h generalizing permutation with
  | nil => exact .refl _
  | @cons index swapIndex draws hle rest ih =>
      have hlt : index + 1 < permutation.length := hindex.resolve_right (by omega)
      refine (ih (.inl ?_)).trans (swapEntries_perm hlt (by omega))
      rw [length_swapEntries]
      omega

/-- The entries above the index stay. -/
theorem applyDraws_getElem? {index k : ℕ} {permutation draws : List ℕ} (h : Draws index draws)
    (hk : index < k) : (applyDraws index permutation draws)[k]? = permutation[k]? := by
  induction h generalizing permutation with
  | nil => rfl
  | @cons index swapIndex draws hle rest ih =>
      exact (ih (by omega)).trans (swapEntries_getElem?_of_lt hk (by omega))

/-- Every arrangement of the entries up to the index has exactly one sequence of draws. -/
theorem existsUnique_draws {index : ℕ} {permutation target : List ℕ} (hnodup : permutation.Nodup)
    (hindex : index < permutation.length ∨ index = 0) (hperm : target.Perm permutation)
    (hsame : ∀ k, index < k → target[k]? = permutation[k]?) :
    ∃! draws, Draws index draws ∧ applyDraws index permutation draws = target := by
  induction index generalizing permutation with
  | zero =>
      -- all entries but the first agree, so the first does
      have htarget : target = permutation := by
        cases permutation with
        | nil => exact hperm.eq_nil
        | cons head tail =>
            cases target with
            | nil => exact absurd hperm.symm.eq_nil (List.cons_ne_nil _ _)
            | cons head' tail' =>
                have htail : tail' = tail := by
                  refine List.ext_getElem? fun k => ?_
                  simpa using hsame (k + 1) (Nat.succ_pos k)
                rw [htail] at hperm ⊢
                have hmem : head' ∈ head :: tail := hperm.subset List.mem_cons_self
                rcases List.mem_cons.1 hmem with rfl | hmem
                · rfl
                · exact absurd hmem (List.nodup_cons.1 (hperm.nodup_iff.2 hnodup)).1
      refine ⟨[], ⟨.nil, htarget.symm⟩, ?_⟩
      rintro draws ⟨⟨⟩, -⟩
      rfl
  | succ index ih =>
      have hlt : index + 1 < permutation.length := hindex.resolve_right (by omega)
      have hlength : target.length = permutation.length := hperm.length_eq
      have htarget : target.Nodup := hperm.nodup_iff.2 hnodup
      -- the entry that ends at the index is drawn
      obtain ⟨swapIndex, hswap, hentry⟩ : ∃ k, ∃ h : k < permutation.length,
          permutation[k] = target[index + 1] :=
        List.mem_iff_getElem.1 (hperm.subset (List.getElem_mem (by omega)))
      have hle : swapIndex ≤ index + 1 := by
        by_contra hgt
        have hmoved := hsame swapIndex (by omega)
        rw [List.getElem?_eq_getElem (by omega), List.getElem?_eq_getElem hswap, hentry] at hmoved
        have := (List.Nodup.getElem_inj_iff htarget).1 (Option.some.inj hmoved)
        omega
      have hstep := swapEntries_perm hlt hswap
      obtain ⟨draws, ⟨hdraws, hresult⟩, hunique⟩ := ih 
        (hstep.nodup_iff.2 hnodup) (.inl (by rw [length_swapEntries]; omega)) (hperm.trans hstep.symm)
        (fun k hk => by
          by_cases hat : k = index + 1
          · subst hat
            rw [swapEntries_getElem? hlt hswap, List.getElem?_eq_getElem hswap, hentry,
              List.getElem?_eq_getElem]
          · rw [swapEntries_getElem?_of_lt (by omega) hle]
            exact hsame k (by omega))
      refine ⟨swapIndex :: draws, ⟨.cons hle hdraws, hresult⟩, ?_⟩
      rintro other ⟨hother, hresult'⟩
      cases hother with
      | @cons _ swapIndex' draws' hle' hrest =>
          -- the same entry must have been drawn
          have hswap' : swapIndex' < permutation.length := by omega
          have hstands : target[index + 1]? = permutation[swapIndex']? := by
            rw [← hresult', ← swapEntries_getElem? hlt hswap']
            exact applyDraws_getElem? hrest (Nat.lt_succ_self index)
          rw [List.getElem?_eq_getElem (by omega), List.getElem?_eq_getElem hswap', ← hentry] at hstands
          have hdrawn : swapIndex = swapIndex' :=
            (List.Nodup.getElem_inj_iff hnodup).1 (Option.some.inj hstands)
          subst hdrawn
          rw [hunique draws' ⟨hrest, hresult'⟩]

/-- The draws of a permutation of that size, the first below the size and each bound one less than
the one before. -/
def DrawsBelow (size : ℕ) (draws : List ℕ) : Prop :=
  draws.length = size - 1 ∧ ∀ k (h : k < draws.length), draws[k] < size - k

theorem drawsBelow_iff {size : ℕ} {draws : List ℕ} :
    DrawsBelow size draws ↔ Draws (size - 1) draws := by
  rw [draws_iff]
  unfold DrawsBelow
  constructor
  · rintro ⟨hlength, hall⟩
    exact ⟨hlength, fun k hk => by have := hall k hk; omega⟩
  · rintro ⟨hlength, hall⟩
    exact ⟨hlength, fun k hk => by have := hall k hk; omega⟩

/-- The permutation of some draws. -/
def permutationOf (size : ℕ) (draws : List ℕ) : List ℕ := applyDraws (size - 1) (List.range size) draws

theorem bijOn_permutationOf (size : ℕ) : Set.BijOn (permutationOf size)
    {draws | DrawsBelow size draws} {permutation | permutation.Perm (List.range size)} := by
  have hindex : size - 1 < (List.range size).length ∨ size - 1 = 0 := by
    rw [List.length_range]
    omega
  have hunique : ∀ target : List ℕ, target.Perm (List.range size) →
      ∃! draws, Draws (size - 1) draws ∧ permutationOf size draws = target := by
    intro target htarget
    refine existsUnique_draws List.nodup_range hindex htarget fun k hk => ?_
    have hlength := htarget.length_eq
    rw [List.length_range] at hlength
    rw [List.getElem?_eq_none (by omega), List.getElem?_eq_none (by simp; omega)]
  refine ⟨fun draws hdraws => ?_, fun draws hdraws other hother heq => ?_, fun target htarget => ?_⟩
  · exact applyDraws_perm (drawsBelow_iff.1 hdraws) hindex
  · have hperm : (permutationOf size other).Perm (List.range size) :=
      applyDraws_perm (drawsBelow_iff.1 hother) hindex
    exact (hunique _ hperm).unique ⟨drawsBelow_iff.1 hdraws, heq⟩ ⟨drawsBelow_iff.1 hother, rfl⟩
  · obtain ⟨draws, ⟨hdraws, hresult⟩, -⟩ := hunique target htarget
    exact ⟨draws, drawsBelow_iff.2 hdraws, hresult⟩

/-! ## The sampler -/

theorem randomUint32Below_eq_ok {upperExclusive value : ℕ} {source rest : List Fill}
    (h : randomUint32Below upperExclusive source = .ok (some (value, rest))) :
    0 < upperExclusive ∧ upperExclusive ≤ 2 ^ 32 ∧
      drawBelow upperExclusive source = some (value, rest) := by
  unfold randomUint32Below at h
  obtain ⟨hrange, h⟩ := check_bind_eq_ok.1 h
  rw [throwIf_eq_ok, not_or] at hrange
  exact ⟨by omega, not_lt.1 hrange.2, Except.ok.inj h⟩

theorem value_lt {upperExclusive value : ℕ} {source rest : List Fill}
    (h : randomUint32Below upperExclusive source = .ok (some (value, rest))) :
    value < upperExclusive := by
  obtain ⟨hpos, -, h⟩ := randomUint32Below_eq_ok h
  obtain ⟨-, bytes, -, -, -, hvalue⟩ := drawBelow_eq_some h
  rw [hvalue]
  exact Nat.mod_lt _ hpos

/-- The loop applies what it draws. -/
theorem shuffleFrom_eq_ok {index : ℕ} {permutation result : List ℕ} {source rest : List Fill}
    (h : shuffleFrom index permutation source = .ok (some (result, rest))) :
    ∃ draws, DrawnFrom index source draws rest ∧ Draws index draws ∧
      applyDraws index permutation draws = result := by
  induction index generalizing permutation source with
  | zero =>
      cases h
      exact ⟨[], .nil, .nil, rfl⟩
  | succ index ih =>
      unfold shuffleFrom at h
      obtain ⟨drawn, hdraw, h⟩ := bind_eq_ok.1 h
      cases drawn with
      | none => cases h
      | some drawn =>
          obtain ⟨swapIndex, source'⟩ := drawn
          obtain ⟨draws, hfrom, hdraws, hresult⟩ := ih h
          have hlt := value_lt hdraw
          exact ⟨swapIndex :: draws, .cons hdraw hfrom, .cons (by omega) hdraws, hresult⟩

/-- The permutation sampler is unbiased.  A permutation that is returned is the one of the draws
that were made, each below its bound; draws and permutations of a size correspond one to one.  A
draw is the residue of the first accepted candidate; buffers and 32-bit candidates correspond one
to one, the candidate and the limit are computed exactly, and every residue has as many accepted
candidates as any other. -/
theorem permutation_sampler_unbiased :
    (∀ size source permutation rest,
      randomPermutation size source = .ok (some (permutation, rest)) →
        permutation.Perm (List.range size) ∧
        ∃ draws, DrawnFrom (size - 1) source draws rest ∧ DrawsBelow size draws ∧
          permutationOf size draws = permutation) ∧
    (∀ size, Set.BijOn (permutationOf size) {draws | DrawsBelow size draws}
      {permutation | permutation.Perm (List.range size)}) ∧
    (∀ upperExclusive source value rest,
      randomUint32Below upperExclusive source = .ok (some (value, rest)) →
        value < upperExclusive ∧ ∃ refused bytes, source = refused ++ bytes :: rest ∧
          (∀ other ∈ refused, acceptanceLimit upperExclusive ≤ other.candidate) ∧
          bytes.candidate < acceptanceLimit upperExclusive ∧
          value = bytes.candidate % upperExclusive) ∧
    (∀ upperExclusive, 1 ≤ upperExclusive → upperExclusive ≤ 2 ^ 32 →
      (∀ source, ∃ result, randomUint32Below upperExclusive source = .ok result) ∧
      acceptanceLimit upperExclusive = 2 ^ 32 - 2 ^ 32 % upperExclusive ∧
      ∀ residue < upperExclusive,
        ((Finset.range (2 ^ 32)).filter fun candidate =>
          candidate < acceptanceLimit upperExclusive ∧ candidate % upperExclusive = residue).card
            = 2 ^ 32 / upperExclusive) ∧
    Set.BijOn Fill.candidate Set.univ (Set.Iio (2 ^ 32)) ∧
    ∀ bytes : Fill, bytes.candidate = bytes.b0.toNat + bytes.b1.toNat * 2 ^ 8
      + bytes.b2.toNat * 2 ^ 16 + bytes.b3.toNat * 2 ^ 24 := by
  refine ⟨?_, bijOn_permutationOf, ?_, ?_, bijOn_candidate, Fill.candidate_eq⟩
  · intro size source permutation rest h
    unfold randomPermutation at h
    obtain ⟨-, h⟩ := check_bind_eq_ok.1 h
    obtain ⟨draws, hfrom, hdraws, hresult⟩ := shuffleFrom_eq_ok h
    have hbelow : DrawsBelow size draws := drawsBelow_iff.2 hdraws
    refine ⟨?_, draws, hfrom, hbelow, hresult⟩
    rw [← hresult]
    exact (bijOn_permutationOf size).mapsTo hbelow
  · intro upperExclusive source value rest h
    exact ⟨value_lt h, drawBelow_eq_some (randomUint32Below_eq_ok h).2.2⟩
  · intro upperExclusive hpos hle
    refine ⟨fun source => ⟨drawBelow upperExclusive source, ?_⟩, acceptanceLimit_eq upperExclusive,
      fun residue hresidue => card_residue hresidue⟩
    have hrange : ¬ (upperExclusive < 1 ∨ UINT32_RANGE < upperExclusive) := by
      unfold UINT32_RANGE
      omega
    unfold randomUint32Below
    rw [throwIf_neg hrange]
    rfl

end Tablefolk
