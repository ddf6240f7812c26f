import LdkController.Table
import Mathlib.Tactic.Basic

/-!
# Reading JSON values

A parsed document, and how a reader of objects takes a field: one that is missing
reads as absent, one that occurs twice is an error (`none`), and fields nobody
asks for are ignored. An object may also be read as a table, whatever its names.
-/

namespace Lib

/-- A number is an integer or, when written with a point or an exponent, a float. -/
inductive Json where
  | null
  | bool (b : Bool)
  | int (n : Int)
  | float (text : String)
  | str (s : String)
  | arr (values : List Json)
  | obj (fields : List (String × Json))

namespace Json

def get (j : Json) (name : String) : Option Json :=
  match j with
  | .obj fields => fields.lookup name
  | _ => none

def field {α : Type} (name : String) (decode : Json → Option α) (fields : List (String × Json)) : Option (Option α) :=
  match fields.filter (·.1 = name) with
  | [] => some none
  | [f] => (decode f.2).map some
  | _ => none

/-- `null` reads as absent. -/
def option {α : Type} (decode : Json → Option α) : Json → Option (Option α)
  | .null => some none
  | j => (decode j).map some

/-- Of fields with one key the last stays. -/
def table {K V : Type} [DecidableEq K] (key : String → K) (decode : Json → Option V) : Json → Option (Table K V)
  | .obj fields => fields.foldlM (fun t f => (decode f.2).map (t.insert (key f.1) ·)) ∅
  | _ => none

/-- The values of a struct's fields, by name or in order. Fields nobody asks for are ignored, a name that is asked
for may not occur twice. -/
def struct (names : List String) : Json → Option (String → Option Json)
  | .obj fields =>
    if ((fields.map (·.1)).filter (· ∈ names)).Nodup then some fun name => fields.lookup name else none
  | .arr values => if values.length ≤ names.length then some fun name => (names.zip values).lookup name else none
  | _ => none

/-- An object in which a field may also be named otherwise. -/
def rename (other name : String) : Json → Json
  | .obj fields => .obj (fields.map fun f => (if f.1 = other then name else f.1, f.2))
  | j => j

def defaulted {α : Type} (default : α) (decode : Json → Option α) : Option Json → Option α
  | none => some default
  | some j => decode j

def string : Json → Option String
  | .str s => some s
  | _ => none

def boolean : Json → Option Bool
  | .bool b => some b
  | _ => none

/-- An object without duplicate names whose fields satisfy `P`. -/
def ObjectOf (P : String → Json → Prop) (j : Json) : Prop :=
  ∃ fields, j = .obj fields ∧ (fields.map (·.1)).Nodup ∧ ∀ f ∈ fields, P f.1 f.2

@[simp] theorem objectOf_obj {P : String → Json → Prop} {fields : List (String × Json)} :
    ObjectOf P (.obj fields) ↔ (fields.map (·.1)).Nodup ∧ ∀ f ∈ fields, P f.1 f.2 := by
  simp [ObjectOf]

theorem mem_of_lookup {name : String} {v : Json} {fields : List (String × Json)}
    (h : fields.lookup name = some v) : (name, v) ∈ fields := by
  obtain ⟨before, after, rfl, _⟩ := List.lookup_eq_some_iff.mp h
  exact List.mem_append_right before List.mem_cons_self

theorem lookup_of_not_mem {name : String} {fields : List (String × Json)} (h : name ∉ fields.map (·.1)) :
    fields.lookup name = none := by
  rw [List.lookup_eq_none_iff]
  intro f hf
  simp only [bne_iff_ne]
  rintro rfl
  exact h (List.mem_map_of_mem hf)

/-- Of distinct names, the reader takes the one it asks for. -/
theorem field_eq {α : Type} {name : String} {decode : Json → Option α} {fields : List (String × Json)}
    (h : (fields.map (·.1)).Nodup) :
    field name decode fields =
      match fields.lookup name with
      | none => some none
      | some v => (decode v).map some := by
  have hfilter : fields.filter (·.1 = name) = ((fields.lookup name).map (name, ·)).toList := by
    induction fields with
    | nil => rfl
    | cons f fields ih =>
      obtain ⟨hnot, hrest⟩ := List.nodup_cons.mp h
      rw [List.filter_cons, List.lookup_cons, ih hrest]
      by_cases hf : f.1 = name
      · have hnone : fields.lookup f.1 = none := lookup_of_not_mem hnot
        simp [← hf, hnone]
      · have hne : (name == f.1) = false := beq_eq_false_iff_ne.mpr fun he => hf he.symm
        simp [hf, hne]
  unfold field
  rw [hfilter]
  cases fields.lookup name <;> rfl

theorem field_some {α : Type} {name : String} {decode : Json → Option α} {fields : List (String × Json)} {a : α}
    (h : field name decode fields = some (some a)) : ∃ v, decode v = some a := by
  unfold field at h
  match hf : fields.filter (·.1 = name) with
  | [] => rw [hf] at h; simp at h
  | [f] => rw [hf] at h; exact ⟨f.2, by simpa using h⟩
  | _ :: _ :: _ => rw [hf] at h; simp at h

/-- A field that may be missing or `null`. -/
theorem field_join {α : Type} {P : Option α → Prop} {name : String} {decode : Json → Option (Option α)}
    {fields : List (String × Json)} {o : Option (Option α)} (h : field name decode fields = some o) (hnone : P none)
    (hsome : ∀ v o, decode v = some o → P o) : P o.join := by
  cases o with
  | none => exact hnone
  | some o =>
    obtain ⟨v, hv⟩ := field_some h
    exact hsome v o hv

theorem option_some {α : Type} {decode : Json → Option α} {j : Json} {a : α}
    (h : option decode j = some (some a)) : decode j = some a := by
  unfold option at h
  split at h
  · simp at h
  · simpa using h

theorem mem_foldlM_insert {K V : Type} [DecidableEq K] {key : String → K} {decode : Json → Option V}
    {fields : List (String × Json)} :
    ∀ {t₀ t : Table K V}, fields.foldlM (fun t f => (decode f.2).map (t.insert (key f.1) ·)) t₀ = some t →
      (∀ e ∈ t₀.entries, ∃ v, decode v = some e.2) → ∀ e ∈ t.entries, ∃ v, decode v = some e.2 := by
  induction fields with
  | nil =>
    intro t₀ t h h₀
    obtain rfl := Option.some.inj h
    exact h₀
  | cons f fields ih =>
    intro t₀ t h h₀
    rw [List.foldlM_cons] at h
    obtain ⟨t₁, ht₁, h⟩ := Option.bind_eq_some_iff.mp h
    obtain ⟨v, hv, rfl⟩ := Option.map_eq_some_iff.mp ht₁
    apply ih h
    intro e he
    rw [AList.entries_insert] at he
    rcases List.mem_cons.mp he with rfl | he
    · exact ⟨f.2, hv⟩
    · exact h₀ e ((List.kerase_sublist _ _).mem he)

theorem mem_table {K V : Type} [DecidableEq K] {key : String → K} {decode : Json → Option V} {j : Json}
    {t : Table K V} (h : j.table key decode = some t) : ∀ e ∈ t.entries, ∃ v, decode v = some e.2 := by
  unfold Json.table at h
  split at h
  · exact mem_foldlM_insert h (by simp)
  · cases h

theorem field_eq_map {α : Type} {name : String} {decode : Json → Option α} {val : Json → α}
    {fields : List (String × Json)} (h : (fields.map (·.1)).Nodup)
    (hval : ∀ v, (obj fields).get name = some v → decode v = some (val v)) :
    field name decode fields = some (((obj fields).get name).map val) := by
  rw [field_eq h]
  simp only [get] at hval ⊢
  cases hv : fields.lookup name with
  | none => rfl
  | some v => simp [hval v hv]

theorem foldlM_insert {K V : Type} [DecidableEq K] {key : String → K} (hkey : Function.Injective key)
    {decode : Json → Option V} {val : Json → V} (fields : List (String × Json))
    (hnodup : (fields.map (·.1)).Nodup) (hval : ∀ f ∈ fields, decode f.2 = some (val f.2)) :
    ∀ t₀ : Table K V, ∃ t, fields.foldlM (fun t f => (decode f.2).map (t.insert (key f.1) ·)) t₀ = some t ∧
      ∀ name, t.lookup (key name) = ((fields.lookup name).map val).or (t₀.lookup (key name)) := by
  induction fields with
  | nil => exact fun t₀ => ⟨t₀, rfl, fun _ => rfl⟩
  | cons f fields ih =>
    intro t₀
    obtain ⟨hnot, hrest⟩ := List.nodup_cons.mp hnodup
    obtain ⟨t, ht, hlk⟩ := ih hrest (fun f' hf' => hval f' (List.mem_cons_of_mem f hf'))
      (t₀.insert (key f.1) (val f.2))
    refine ⟨t, ?_, ?_⟩
    · rw [List.foldlM_cons, hval f List.mem_cons_self]
      exact ht
    · intro name
      rw [hlk, AList.lookup_insert_eq, List.lookup_cons]
      by_cases hf : name = f.1
      · have hnone : fields.lookup f.1 = none := lookup_of_not_mem hnot
        simp [hf, hnone]
      · have hne : (name == f.1) = false := beq_eq_false_iff_ne.mpr hf
        have hk : key name ≠ key f.1 := fun he => hf (hkey he)
        simp [hne, hk]

section
variable {P : String → Json → Prop} {j : Json}

theorem ObjectOf.get (h : ObjectOf P j) {name : String} {v : Json} (hv : j.get name = some v) : P name v := by
  obtain ⟨fields, rfl, _, hall⟩ := h
  exact hall (name, v) (mem_of_lookup hv)

/-- An object whose fields all decode reads as the table of what they decode to. -/
theorem ObjectOf.table {K V : Type} [DecidableEq K] {key : String → K} (hkey : Function.Injective key)
    {decode : Json → Option V} (val : Json → V) (h : ObjectOf P j)
    (hval : ∀ name v, P name v → decode v = some (val v)) :
    ∃ t, j.table key decode = some t ∧ ∀ name, t.lookup (key name) = (j.get name).map val := by
  obtain ⟨fields, rfl, hnodup, hall⟩ := h
  obtain ⟨t, ht, hlk⟩ := foldlM_insert hkey fields hnodup (fun f hf => hval _ _ (hall f hf)) ∅
  exact ⟨t, ht, fun name => (hlk name).trans (by simp [Json.get])⟩

end

end Json

end Lib
