import Tablefolk.Protocol.Cbor

/-!
# CBOR maps in canonical order

A decoded value has the keys of its maps in canonical order, none twice.  What has been read from
such a value by its keys determines it.

* `map_eq_cborMap`: a map in canonical order is the map with its fields.
* `expectExactMap_eq_ok`, `perm_fields`: what a schema with fixed keys has read.
-/

namespace Tablefolk

mutual

/-- Every map in the value has its keys in canonical order, none twice, as `decodeCanonical`
returns it. -/
def CborValue.Ordered : CborValue → Prop
  | .array items => OrderedItems items
  | .map entries =>
      entries.Pairwise (fun a b => canonicalKeyLe a b ∧ a.1 ≠ b.1) ∧ OrderedEntries entries
  | .null | .bool _ | .int _ | .text _ | .bytes _ => True

def OrderedItems : List CborValue → Prop
  | [] => True
  | item :: rest => item.Ordered ∧ OrderedItems rest

def OrderedEntries : List (String × CborValue) → Prop
  | [] => True
  | (_, value) :: rest => value.Ordered ∧ OrderedEntries rest

end

theorem orderedEntries_iff {entries : CborRecord} :
    OrderedEntries entries ↔ ∀ entry ∈ entries, entry.2.Ordered := by
  induction entries with
  | nil => simp [OrderedEntries]
  | cons entry rest ih => simp [OrderedEntries, ih]

instance : IsTrans (String × CborValue) canonicalKeyLe := ⟨fun a b c hab hbc => by
  rcases hab with hab | ⟨hab, hab'⟩ <;> rcases hbc with hbc | ⟨hbc, hbc'⟩
  · exact .inl (by omega)
  · exact .inl (by omega)
  · exact .inl (by omega)
  · exact .inr ⟨by omega, hab'.trans hbc'⟩⟩

instance : Std.Total canonicalKeyLe := ⟨fun a b => by
  rcases lt_trichotomy a.1.utf8ByteSize b.1.utf8ByteSize with h | h | h
  · exact .inl (.inl h)
  · rcases le_total a.1 b.1 with hle | hle
    · exact .inl (.inr ⟨h, hle⟩)
    · exact .inr (.inr ⟨h.symm, hle⟩)
  · exact .inr (.inl h)⟩

theorem key_eq_of_canonicalKeyLe {a b : String × CborValue} (h : canonicalKeyLe a b)
    (h' : canonicalKeyLe b a) : a.1 = b.1 := by
  rcases h with h | ⟨heq, hle⟩ <;> rcases h' with h' | ⟨h', hle'⟩
  · omega
  · omega
  · omega
  · exact le_antisymm hle hle'

/-- A map in canonical order is the map with its fields. -/
theorem map_eq_cborMap {entries fields : CborRecord} (h : (CborValue.map entries).Ordered)
    (hperm : entries.Perm fields) : .map entries = cborMap fields := by
  have hsorted : (fields.insertionSort canonicalKeyLe).Pairwise canonicalKeyLe :=
    List.pairwise_insertionSort canonicalKeyLe fields
  have hsame : entries.Perm (fields.insertionSort canonicalKeyLe) :=
    hperm.trans (cborMap_entries fields).symm
  have heq : entries = fields.insertionSort canonicalKeyLe := by
    refine hsame.eq_of_pairwise (fun a b ha hb hab hba => ?_) (h.1.imp And.left) hsorted
    have hkey := key_eq_of_canonicalKeyLe hab hba
    have hnodup : (entries.map Prod.fst).Nodup :=
      List.pairwise_map.2 (h.1.imp And.right)
    exact List.inj_on_of_nodup_map hnodup ha (hsame.mem_iff.2 hb) hkey
  rw [heq]
  rfl

/-! ## What a schema has read -/

theorem expectExactMap_eq_ok {value : CborValue} {keys : List String} {path : String}
    {entries : CborRecord} (hkeys : keys.Nodup) :
    expectExactMap value keys path = .ok entries ↔
      value = .map entries ∧ (entries.map Prod.fst).Perm keys := by
  constructor
  · intro h
    cases value with
    | map fields =>
        rw [expectExactMap] at h
        split at h
        · cases h
        · rename_i hexact
          cases h
          push Not at hexact
          refine ⟨rfl, ((hkeys.subperm hexact.2).perm_of_length_le ?_).symm⟩
          rw [List.length_map, hexact.1]
    | _ => cases h
  · rintro ⟨rfl, hperm⟩
    rw [expectExactMap, if_neg]
    rintro (hlength | ⟨key, hkey, hmissing⟩)
    · exact hlength (by rw [← hperm.length_eq, List.length_map])
    · exact hmissing (hperm.mem_iff.2 hkey)

/-- A map with these keys is the map of its fields. -/
theorem perm_fields {entries : CborRecord} {keys : List String} (hkeys : keys.Nodup)
    (h : (entries.map Prod.fst).Perm keys) :
    entries.Perm (keys.map fun key => (key, field entries key)) := by
  have hnodup : (entries.map Prod.fst).Nodup := h.nodup_iff.2 hkeys
  have hself : (entries.map Prod.fst).map (fun key => (key, field entries key)) = entries := by
    rw [List.map_map]
    refine (List.map_congr_left fun entry hentry => ?_).trans (List.map_id entries)
    have hlookup : entries.lookup entry.1 = some entry.2 := by
      obtain ⟨before, after, rfl⟩ := List.append_of_mem hentry
      have hfresh : entry.1 ∉ before.map Prod.fst := by
        intro hmem
        rw [List.map_append, List.nodup_append] at hnodup
        exact hnodup.2.2 _ hmem _ (by simp) rfl
      have hbefore : before.lookup entry.1 = none := by
        rw [List.lookup_eq_none_iff]
        intro other hother
        have hne : entry.1 ≠ other.1 := fun heq => hfresh (heq ▸ List.mem_map_of_mem hother)
        simpa using hne
      rw [List.lookup_append, hbefore, Option.none_or, List.lookup_cons]
      simp
    simp [field, hlookup]
  exact (List.Perm.of_eq hself.symm).trans (h.map _)

/-- A map of fields with different keys is in canonical order. -/
theorem ordered_cborMap {fields : CborRecord} (hkeys : (fields.map Prod.fst).Nodup)
    (hvalues : ∀ field ∈ fields, field.2.Ordered) : (cborMap fields).Ordered := by
  have hperm := cborMap_entries fields
  refine ⟨?_, orderedEntries_iff.2 fun entry hentry => hvalues entry (hperm.mem_iff.1 hentry)⟩
  refine (List.pairwise_insertionSort canonicalKeyLe fields).and ?_
  exact List.pairwise_map.1 ((hperm.map Prod.fst).nodup_iff.2 hkeys)

end Tablefolk
