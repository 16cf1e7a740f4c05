import Mathlib

/-!
# Maps that keep their insertion order

A finite map as a program holds it: a list of entries with distinct keys.  Setting a key
that is there changes its value in place, and a new key comes last.

* `get?_set`, `get?_delete`: what an update leaves to be read.
* `total_set`, `total_of_get?`, `total_eq_sum`: sums over the entries, which is how a program that keeps a
  running total beside a map is verified.
* `values_set`, `values_delete`: the values, up to their order.
-/

namespace Tablefolk

/-- A finite map with the order in which its keys came. -/
structure OrderedMap (α β : Type) where
  entries : List (α × β)
  nodup : (entries.map Prod.fst).Nodup

namespace OrderedMap

variable {α β : Type} [DecidableEq α]

/-- The map without entries. -/
def empty : OrderedMap α β := ⟨[], List.nodup_nil⟩

/-- The value of a key. -/
def get? (m : OrderedMap α β) (k : α) : Option β := (m.entries.find? fun entry => entry.1 = k).map Prod.snd

/-- The number of entries. -/
def size (m : OrderedMap α β) : ℕ := m.entries.length

/-- The entries that pass a test. -/
def filter (m : OrderedMap α β) (p : α × β → Bool) : OrderedMap α β :=
  ⟨m.entries.filter p, m.nodup.sublist (List.filter_sublist.map _)⟩

/-- The map without a key. -/
def delete (m : OrderedMap α β) (k : α) : OrderedMap α β := m.filter fun entry => entry.1 ≠ k

/-- The entries after a key is set. -/
def setEntries (k : α) (v : β) : List (α × β) → List (α × β)
  | [] => [(k, v)]
  | entry :: rest => if entry.1 = k then (k, v) :: rest else entry :: setEntries k v rest

omit [DecidableEq α] in
theorem mem_keys {k : α} {entries : List (α × β)} :
    k ∈ entries.map Prod.fst ↔ ∃ v, (k, v) ∈ entries := by
  simp

theorem keys_setEntries {k : α} {v : β} {entries : List (α × β)} (k' : α) :
    k' ∈ (setEntries k v entries).map Prod.fst ↔ k' = k ∨ k' ∈ entries.map Prod.fst := by
  induction entries with
  | nil => simp [setEntries]
  | cons entry rest ih =>
      rw [setEntries]
      split_ifs with hkey
      · subst hkey
        simp
      · rw [List.map_cons, List.map_cons, List.mem_cons, List.mem_cons, ih]
        tauto

theorem nodup_setEntries {k : α} {v : β} {entries : List (α × β)}
    (h : (entries.map Prod.fst).Nodup) : ((setEntries k v entries).map Prod.fst).Nodup := by
  induction entries with
  | nil => simp [setEntries]
  | cons entry rest ih =>
      rw [List.map_cons, List.nodup_cons] at h
      rw [setEntries]
      split_ifs with hkey
      · subst hkey
        exact List.nodup_cons.2 h
      · rw [List.map_cons, List.nodup_cons]
        refine ⟨fun hmem => ?_, ih h.2⟩
        rcases (keys_setEntries _).1 hmem with heq | hmem
        · exact hkey heq
        · exact h.1 hmem

/-- Set the value of a key. -/
def set (m : OrderedMap α β) (k : α) (v : β) : OrderedMap α β :=
  ⟨setEntries k v m.entries, nodup_setEntries m.nodup⟩

variable {m : OrderedMap α β} {k k' : α} {v w : β}

theorem get?_eq_some : m.get? k = some v ↔ (k, v) ∈ m.entries := by
  obtain ⟨entries, hnodup⟩ := m
  unfold get?
  simp only
  induction entries with
  | nil => simp
  | cons entry rest ih =>
      rw [List.map_cons, List.nodup_cons] at hnodup
      obtain ⟨key, value⟩ := entry
      by_cases hkey : key = k
      · subst hkey
        have hout : ∀ v, (key, v) ∉ rest := fun v hv => hnodup.1 (mem_keys.2 ⟨v, hv⟩)
        simp [hout, eq_comm]
      · simp only [List.find?_cons, hkey, decide_false, List.mem_cons, Prod.mk.injEq]
        rw [ih hnodup.2]
        simp [Ne.symm hkey]

theorem get?_eq_none : m.get? k = none ↔ k ∉ m.entries.map Prod.fst := by
  constructor
  · intro h hmem
    obtain ⟨v, hv⟩ := mem_keys.1 hmem
    rw [get?_eq_some.2 hv] at h
    cases h
  · intro h
    cases hget : m.get? k with
    | none => rfl
    | some v => exact absurd (mem_keys.2 ⟨v, get?_eq_some.1 hget⟩) h

@[simp] theorem get?_empty : (empty : OrderedMap α β).get? k = none := rfl

omit [DecidableEq α] in
@[simp] theorem size_empty : (empty : OrderedMap α β).size = 0 := rfl

theorem get?_filter {p : α × β → Bool} :
    (m.filter p).get? k = some v ↔ m.get? k = some v ∧ p (k, v) = true := by
  rw [get?_eq_some, get?_eq_some]
  exact List.mem_filter

theorem get?_delete : (m.delete k).get? k' = if k' = k then none else m.get? k' := by
  split_ifs with hkey
  · subst hkey
    cases hget : (m.delete k').get? k' with
    | none => rfl
    | some v =>
        have := (get?_filter.1 hget).2
        simp at this
  · ext v
    rw [delete, get?_filter]
    simp [hkey]

theorem get?_set : (m.set k v).get? k' = if k' = k then some v else m.get? k' := by
  obtain ⟨entries, hnodup⟩ := m
  unfold get? set
  simp only
  clear hnodup
  induction entries with
  | nil =>
      by_cases hkey : k' = k
      · simp [setEntries, hkey]
      · simp [setEntries, hkey, Ne.symm hkey]
  | cons entry rest ih =>
      rw [setEntries]
      by_cases hentry : entry.1 = k
      · rw [if_pos hentry]
        by_cases hkey : k' = k
        · simp [hkey]
        · have hne : ¬ k = k' := Ne.symm hkey
          simp [hkey, hne, hentry]
      · rw [if_neg hentry]
        by_cases hhead : entry.1 = k'
        · have hne : ¬ k' = k := fun h => hentry (hhead.trans h)
          simp [hhead, hne]
        · rw [List.find?_cons, List.find?_cons]
          simp only [hhead, decide_false]
          exact ih

theorem size_delete_le : (m.delete k).size ≤ m.size := List.length_filter_le _ _

/-- The sum of a measure over the entries. -/
def total (f : α → β → ℕ) (m : OrderedMap α β) : ℕ := (m.entries.map fun entry => f entry.1 entry.2).sum

omit [DecidableEq α] in
@[simp] theorem total_empty (f : α → β → ℕ) : total f (empty : OrderedMap α β) = 0 := rfl

theorem delete_of_none (h : m.get? k = none) : m.delete k = m := by
  obtain ⟨entries, hnodup⟩ := m
  have hout := get?_eq_none.1 h
  unfold delete filter
  simp only [mk.injEq]
  rw [List.filter_eq_self]
  rintro ⟨key, value⟩ hmem
  have hne : key ≠ k := fun hkey => hout (hkey ▸ mem_keys.2 ⟨value, hmem⟩)
  simpa using hne

/-- A sum is the summand of a key and the sum over the others. -/
theorem total_of_get? (f : α → β → ℕ) (h : m.get? k = some v) :
    m.total f = f k v + (m.delete k).total f := by
  obtain ⟨entries, hnodup⟩ := m
  rw [get?_eq_some] at h
  unfold total delete filter
  simp only at h ⊢
  obtain ⟨before, after, rfl⟩ := List.append_of_mem h
  have hnodup : (before.map Prod.fst ++ k :: after.map Prod.fst).Nodup := by simpa using hnodup
  have hbefore : before.filter (fun entry => decide (entry.1 ≠ k)) = before := by
    rw [List.filter_eq_self]
    intro entry hmem
    have hdis := (List.nodup_append.1 hnodup).2.2 entry.1 (List.mem_map_of_mem hmem) k (by simp)
    simpa using hdis
  have hafter : after.filter (fun entry => decide (entry.1 ≠ k)) = after := by
    rw [List.filter_eq_self]
    intro entry hmem
    have hout := (List.nodup_cons.1 (List.nodup_append.1 hnodup).2.1).1
    have hne : entry.1 ≠ k := fun heq => hout (heq ▸ List.mem_map_of_mem hmem)
    simpa using hne
  rw [List.filter_append, List.filter_cons_of_neg (by simp), hbefore, hafter]
  simp only [List.map_append, List.map_cons, List.sum_append, List.sum_cons]
  omega

theorem delete_set : (m.set k v).delete k = m.delete k := by
  obtain ⟨entries, hnodup⟩ := m
  unfold delete filter set
  simp only [mk.injEq]
  clear hnodup
  induction entries with
  | nil => simp [setEntries]
  | cons entry rest ih =>
      rw [setEntries]
      split_ifs with hkey
      · rw [List.filter_cons_of_neg (by simp), List.filter_cons_of_neg (by simp [hkey])]
      · rw [List.filter_cons_of_pos (by simpa using hkey),
          List.filter_cons_of_pos (by simpa using hkey), ih]

/-- Setting a key replaces its summand. -/
theorem total_set (f : α → β → ℕ) : (m.set k v).total f = f k v + (m.delete k).total f := by
  rw [total_of_get? f (m := m.set k v) (k := k) (v := v) (by rw [get?_set, if_pos rfl]), delete_set]

omit [DecidableEq α] in
theorem size_eq_total : m.size = m.total fun _ _ => 1 := by
  unfold size total
  simp

theorem size_set : (m.set k v).size = 1 + (m.delete k).size := by
  rw [size_eq_total, size_eq_total, total_set]

theorem size_of_get? (h : m.get? k = some v) : m.size = 1 + (m.delete k).size := by
  rw [size_eq_total, size_eq_total, total_of_get? _ h]

/-- A sum over the entries is a sum over any list of the keys. -/
theorem total_eq_sum {f : α → β → ℕ} {g : α → ℕ} {keys : List α} (hnodup : keys.Nodup)
    (hmem : ∀ k, k ∈ keys ↔ ∃ v, m.get? k = some v)
    (hg : ∀ k v, m.get? k = some v → f k v = g k) : m.total f = (keys.map g).sum := by
  have hperm : (m.entries.map Prod.fst).Perm keys := by
    refine (List.perm_ext_iff_of_nodup m.nodup hnodup).2 fun k => ?_
    rw [hmem, mem_keys]
    simp only [get?_eq_some]
  unfold total
  rw [← (hperm.map g).sum_eq, List.map_map]
  refine congrArg List.sum (List.map_congr_left fun entry hentry => ?_)
  exact hg entry.1 entry.2 (get?_eq_some.2 hentry)

theorem size_eq_length {keys : List α} (hnodup : keys.Nodup)
    (hmem : ∀ k, k ∈ keys ↔ ∃ v, m.get? k = some v) : m.size = keys.length := by
  rw [size_eq_total, total_eq_sum (g := fun _ => 1) hnodup hmem fun _ _ _ => rfl]
  simp

/-- The values of the entries. -/
def values (m : OrderedMap α β) : List β := m.entries.map Prod.snd

theorem values_delete (h : m.get? k = some v) : m.values.Perm (v :: (m.delete k).values) := by
  obtain ⟨entries, hnodup⟩ := m
  rw [get?_eq_some] at h
  unfold values delete filter
  simp only at h ⊢
  induction entries with
  | nil => simp at h
  | cons entry rest ih =>
      rw [List.map_cons, List.nodup_cons] at hnodup
      obtain ⟨key, value⟩ := entry
      by_cases hkey : key = k
      · subst hkey
        have hvalue : value = v := by
          rcases List.mem_cons.1 h with heq | hmem
          · exact (Prod.mk.inj heq).2.symm
          · exact absurd (mem_keys.2 ⟨v, hmem⟩) hnodup.1
        have hrest : rest.filter (fun entry => decide (entry.1 ≠ key)) = rest := by
          rw [List.filter_eq_self]
          intro entry hmem
          have hkeys : entry.1 ∈ rest.map Prod.fst := List.mem_map_of_mem hmem
          have hne : entry.1 ≠ key := fun heq => hnodup.1 (heq ▸ hkeys)
          simpa using hne
        rw [List.filter_cons_of_neg (by simp), hrest, hvalue]
        exact .refl _
      · have hmem : (k, v) ∈ rest := by
          rcases List.mem_cons.1 h with heq | hmem
          · exact absurd (Prod.mk.inj heq).1.symm hkey
          · exact hmem
        rw [List.filter_cons_of_pos (by simpa using hkey), List.map_cons, List.map_cons]
        exact ((ih hnodup.2 hmem).cons value).trans (.swap v value _)

theorem values_set (h : m.get? k = none) : (m.set k v).values.Perm (v :: m.values) := by
  have hset := values_delete (m := m.set k v) (k := k) (v := v) (by rw [get?_set, if_pos rfl])
  rwa [delete_set, delete_of_none h] at hset

/-- A map whose keys lie below a bound has at most that many entries, and all of them when it
has as many. -/
theorem get?_isSome_of_full {β : Type} {m : OrderedMap ℕ β} {bound : ℕ}
    (hkeys : ∀ k v, m.get? k = some v → k < bound) (hfull : bound ≤ m.size) {k : ℕ}
    (hk : k < bound) : ∃ v, m.get? k = some v := by
  have hsub : m.entries.map Prod.fst ⊆ List.range bound := by
    intro key hmem
    obtain ⟨v, hv⟩ := mem_keys.1 hmem
    exact List.mem_range.2 (hkeys key v (get?_eq_some.2 hv))
  have hperm : (m.entries.map Prod.fst).Perm (List.range bound) := by
    refine (m.nodup.subperm hsub).perm_of_length_le ?_
    rw [List.length_range, List.length_map]
    exact hfull
  obtain ⟨v, hv⟩ := mem_keys.1 (hperm.mem_iff.2 (List.mem_range.2 hk))
  exact ⟨v, get?_eq_some.2 hv⟩

end OrderedMap

end Tablefolk
