import LdkController.Json

/-!
# Writing JSON values

What is absent is written as `null` and a table as an object, in the order of
its entries. Both are read back as what they were, if their contents are.
-/

namespace Lib.Json

def ofOption {α : Type} (encode : α → Json) : Option α → Json
  | none => .null
  | some a => encode a

def ofTable {K V : Type} (name : K → String) (encode : V → Json) (t : Table K V) : Json :=
  .obj (t.entries.map fun e => (name e.1, encode e.2))

theorem field_of_lookup {α : Type} {name : String} {decode : Json → Option α} {fields : List (String × Json)} {v : Json}
    (hnodup : (fields.map (·.1)).Nodup) (h : fields.lookup name = some v) :
    field name decode fields = (decode v).map some := by
  rw [field_eq hnodup, h]

theorem option_ofOption {α : Type} {decode : Json → Option α} {encode : α → Json} {o : Option α}
    (h : ∀ a ∈ o, decode (encode a) = some a) (hnull : ∀ a, encode a ≠ .null) :
    option decode (ofOption encode o) = some o := by
  cases o with
  | none => rfl
  | some a =>
    unfold option ofOption
    split
    · rename_i he
      exact absurd he (hnull a)
    · rw [h a rfl]
      rfl

section
variable {K V : Type} [DecidableEq K] {key : String → K} {name : K → String} {decode : Json → Option V}
  {encode : V → Json}

theorem foldlM_entries {l : List (Sigma fun _ : K => V)}
    (h : ∀ e ∈ l, key (name e.1) = e.1 ∧ decode (encode e.2) = some e.2) :
    ∀ t₀ : Table K V, ((l.map fun e => (name e.1, encode e.2)).foldlM
      (fun t f => (decode f.2).map (t.insert (key f.1) ·)) t₀) = some (l.foldl (fun t e => t.insert e.1 e.2) t₀) := by
  induction l with
  | nil => exact fun t₀ => rfl
  | cons e l ih =>
    intro t₀
    obtain ⟨hkey, hvalue⟩ := h e List.mem_cons_self
    rw [List.map_cons, List.foldlM_cons, hkey, hvalue, List.foldl_cons]
    exact ih (fun e' he' => h e' (List.mem_cons_of_mem e he')) (t₀.insert e.1 e.2)

theorem lookup_foldl_insert {l : List (Sigma fun _ : K => V)} (hnodup : l.NodupKeys) (k : K) :
    ∀ t₀ : Table K V, (l.foldl (fun t e => t.insert e.1 e.2) t₀).lookup k = (l.dlookup k).or (t₀.lookup k) := by
  induction l with
  | nil => exact fun t₀ => rfl
  | cons e l ih =>
    intro t₀
    obtain ⟨hnot, hrest⟩ := List.nodupKeys_cons.mp hnodup
    rw [List.foldl_cons, ih hrest, AList.lookup_insert_eq]
    by_cases hk : k = e.1
    · subst hk
      rw [List.dlookup_eq_none.mpr hnot, List.dlookup_cons_eq, if_pos rfl]
      rfl
    · rw [List.dlookup_cons_ne _ _ hk, if_neg hk]

theorem table_ofTable {t : Table K V} (h : ∀ e ∈ t.entries, key (name e.1) = e.1 ∧ decode (encode e.2) = some e.2) :
    ∃ t', table key decode (ofTable name encode t) = some t' ∧ ∀ k, t'.lookup k = t.lookup k := by
  refine ⟨_, foldlM_entries h ∅, fun k => ?_⟩
  rw [lookup_foldl_insert t.nodupKeys, AList.lookup_empty, Option.or_none]
  rfl

end

end Lib.Json
