import Mathlib.Data.List.AList

/-!
# Finite tables

A table is an association list without duplicate keys; its order stands for the
order in which the entries are visited.
-/

abbrev Table (K V : Type) := AList fun _ : K => V

namespace AList

variable {K V : Type}

def retain (t : Table K V) (keep : K → V → Bool) : Table K V :=
  ⟨t.entries.filter fun e => keep e.1 e.2, t.nodupKeys.sublist List.filter_sublist⟩

variable [DecidableEq K]

theorem lookup_insert_eq (t : Table K V) (k k' : K) (v : V) :
    (t.insert k v).lookup k' = if k' = k then some v else t.lookup k' := by
  by_cases h : k' = k
  · subst h; simp
  · rw [lookup_insert_ne h, if_neg h]

theorem lookup_retain (t : Table K V) (keep : K → V → Bool) (k : K) :
    (t.retain keep).lookup k = (t.lookup k).filter (keep k) := by
  cases h : t.lookup k with
  | none =>
    rw [lookup_eq_none] at h
    simp only [Option.filter_none]
    rw [lookup_eq_none]
    intro hm
    rw [mem_keys] at h hm
    obtain ⟨e, he, rfl⟩ := List.mem_map.mp hm
    exact h (List.mem_map.mpr ⟨e, (List.mem_filter.mp he).1, rfl⟩)
  | some v =>
    have hmem : (⟨k, v⟩ : Sigma fun _ : K => V) ∈ t.entries := mem_lookup_iff.mp h
    by_cases hk : keep k v = true
    · rw [Option.filter_some_pos hk]
      exact mem_lookup_iff.mpr (List.mem_filter.mpr ⟨hmem, hk⟩)
    · rw [Option.filter_some_neg (by simpa using hk), lookup_eq_none]
      intro hm
      rw [mem_keys] at hm
      obtain ⟨⟨k', v'⟩, he, rfl⟩ := List.mem_map.mp hm
      obtain ⟨he, hk'⟩ := List.mem_filter.mp he
      have : some v = some v' := h.symm.trans (mem_lookup_iff.mpr he)
      exact hk (Option.some.inj this ▸ hk')

end AList
