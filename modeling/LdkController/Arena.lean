import LdkController.Table
import Mathlib.Logic.Function.Basic
import Mathlib.Tactic.Basic

/-!
# Tables of shared cells

An arena is a table whose values are handles to mutable cells. Each insertion
allocates the cell `next`, so a key that is removed or inserted again leaves the
old handle usable and unaliased: a write through it touches no key of the table.
-/

namespace Lib

structure Arena (K V : Type) [DecidableEq K] where
  index : Table K Nat
  cells : Nat → V
  next : Nat
  index_lt : ∀ k h, index.lookup k = some h → h < next
  index_inj : ∀ k k' h, index.lookup k = some h → index.lookup k' = some h → k = k'

namespace Arena

variable {K V : Type} [DecidableEq K]

def empty [Inhabited V] : Arena K V := ⟨∅, fun _ => default, 0, by simp, by simp⟩

def handle? (a : Arena K V) (k : K) : Option Nat := a.index.lookup k

def at? (a : Arena K V) (k : K) : Option V := (a.handle? k).map a.cells

def insert (a : Arena K V) (k : K) (v : V) : Arena K V where
  index := a.index.insert k a.next
  cells := Function.update a.cells a.next v
  next := a.next + 1
  index_lt k' h hk := by
    rw [AList.lookup_insert_eq] at hk
    split at hk
    · simp only [Option.some.injEq] at hk; omega
    · have := a.index_lt k' h hk; omega
  index_inj k₁ k₂ h h₁ h₂ := by
    rw [AList.lookup_insert_eq] at h₁ h₂
    have old : ∀ k', a.index.lookup k' = some h → h ≠ a.next := fun k' hk => Nat.ne_of_lt (a.index_lt k' h hk)
    split at h₁ <;> split at h₂ <;> simp_all
    exact a.index_inj _ _ _ h₁ h₂

def retain (a : Arena K V) (keep : K → Nat → Bool) : Arena K V where
  index := a.index.retain keep
  cells := a.cells
  next := a.next
  index_lt k h hk := by
    rw [AList.lookup_retain, Option.filter_eq_some_iff] at hk
    exact a.index_lt k h hk.1
  index_inj k₁ k₂ h h₁ h₂ := by
    rw [AList.lookup_retain, Option.filter_eq_some_iff] at h₁ h₂
    exact a.index_inj k₁ k₂ h h₁.1 h₂.1

def clear (a : Arena K V) : Arena K V := ⟨∅, a.cells, a.next, by simp, by simp⟩

def write (a : Arena K V) (h : Nat) (v : V) : Arena K V :=
  { a with cells := Function.update a.cells h v }

/-! ## What each operation does to the keys -/

theorem handle?_lt (a : Arena K V) {k : K} {h : Nat} (hk : a.handle? k = some h) : h < a.next :=
  a.index_lt k h hk

theorem handle?_inj (a : Arena K V) {k k' : K} {h : Nat} (hk : a.handle? k = some h)
    (hk' : a.handle? k' = some h) : k = k' :=
  a.index_inj k k' h hk hk'

theorem handle?_insert (a : Arena K V) (k k' : K) (v : V) :
    (a.insert k v).handle? k' = if k' = k then some a.next else a.handle? k' :=
  AList.lookup_insert_eq ..

theorem handle?_retain (a : Arena K V) (keep : K → Nat → Bool) (k : K) :
    (a.retain keep).handle? k = (a.handle? k).filter (keep k) :=
  AList.lookup_retain ..

@[simp] theorem handle?_write (a : Arena K V) (h : Nat) (v : V) (k : K) :
    (a.write h v).handle? k = a.handle? k := rfl

@[simp] theorem next_retain (a : Arena K V) (keep : K → Nat → Bool) : (a.retain keep).next = a.next := rfl
@[simp] theorem next_write (a : Arena K V) (h : Nat) (v : V) : (a.write h v).next = a.next := rfl

/-! ## What each operation does to the cells -/

@[simp] theorem cells_retain (a : Arena K V) (keep : K → Nat → Bool) : (a.retain keep).cells = a.cells := rfl

theorem cells_insert_of_lt (a : Arena K V) (k : K) (v : V) {h : Nat} (hh : h < a.next) :
    (a.insert k v).cells h = a.cells h :=
  Function.update_of_ne (Nat.ne_of_lt hh) ..

@[simp] theorem cells_write_self (a : Arena K V) (h : Nat) (v : V) : (a.write h v).cells h = v :=
  Function.update_self ..

theorem cells_write_of_ne (a : Arena K V) {h h' : Nat} (v : V) (hne : h' ≠ h) :
    (a.write h v).cells h' = a.cells h' :=
  Function.update_of_ne hne ..

@[simp] theorem write_cells_self (a : Arena K V) (h : Nat) : a.write h (a.cells h) = a := by
  simp [write]

/-! ## What each operation does to the values of the keys -/

theorem at?_of_handle (a : Arena K V) {k : K} {h : Nat} (hk : a.handle? k = some h) :
    a.at? k = some (a.cells h) := by
  unfold at?; rw [hk]; rfl

@[simp] theorem isSome_at? (a : Arena K V) (k : K) : (a.at? k).isSome = (a.handle? k).isSome := by
  simp [at?]

/-- A write through a handle is seen by the key that owns the handle and by no other. -/
theorem at?_write (a : Arena K V) (h : Nat) (v : V) (k : K) :
    (a.write h v).at? k = if a.handle? k = some h then some v else a.at? k := by
  unfold at?
  rw [handle?_write]
  cases hk : a.handle? k with
  | none => simp
  | some h' =>
    by_cases hh : h' = h
    · subst hh; simp
    · simp [hh, cells_write_of_ne]

/-! ## Inserting one after the other -/

section
variable {α : Type} (f : α → Option (K × V))

def insertEach (a : Arena K V) (l : List α) : Arena K V :=
  l.foldl (fun a x => match f x with | none => a | some (k, v) => a.insert k v) a

variable {f}

theorem insertEach_cons_none (a : Arena K V) {x : α} (hx : f x = none) (l : List α) :
    a.insertEach f (x :: l) = a.insertEach f l := by
  simp only [insertEach, List.foldl_cons, hx]

theorem insertEach_cons_some (a : Arena K V) {x : α} {k : K} {v : V} (hx : f x = some (k, v)) (l : List α) :
    a.insertEach f (x :: l) = (a.insert k v).insertEach f l := by
  simp only [insertEach, List.foldl_cons, hx]

theorem next_le_insertEach (a : Arena K V) (l : List α) : a.next ≤ (a.insertEach f l).next := by
  induction l generalizing a with
  | nil => exact Nat.le_refl _
  | cons x l ih =>
    cases hx : f x with
    | none => rw [a.insertEach_cons_none hx]; exact ih a
    | some kv => rw [a.insertEach_cons_some hx]; exact Nat.le_of_succ_le (ih (a.insert kv.1 kv.2))

theorem cells_insertEach_of_lt (a : Arena K V) (l : List α) {h : Nat} (hh : h < a.next) :
    (a.insertEach f l).cells h = a.cells h := by
  induction l generalizing a with
  | nil => rfl
  | cons x l ih =>
    cases hx : f x with
    | none => rw [a.insertEach_cons_none hx]; exact ih a hh
    | some kv =>
      rw [a.insertEach_cons_some hx, ih _ (Nat.lt_succ_of_lt hh)]
      exact a.cells_insert_of_lt _ _ hh

theorem insert_write (a : Arena K V) (k : K) (v w : V) {h : Nat} (hh : h < a.next) :
    (a.write h w).insert k v = (a.insert k v).write h w := by
  have hcells : Function.update (Function.update a.cells h w) a.next v =
      Function.update (Function.update a.cells a.next v) h w :=
    Function.update_comm (Nat.ne_of_lt hh) w v a.cells
  simp only [insert, write, hcells]

theorem insertEach_write (a : Arena K V) (l : List α) (w : V) {h : Nat} (hh : h < a.next) :
    (a.write h w).insertEach f l = (a.insertEach f l).write h w := by
  induction l generalizing a with
  | nil => rfl
  | cons x l ih =>
    cases hx : f x with
    | none => rw [insertEach_cons_none _ hx, insertEach_cons_none _ hx]; exact ih a hh
    | some kv =>
      rw [insertEach_cons_some _ hx, insertEach_cons_some _ hx, a.insert_write kv.1 kv.2 w hh]
      exact ih _ (Nat.lt_succ_of_lt hh)

theorem handle?_insertEach_of_forall (a : Arena K V) {l : List α} {k : K} (hk : ∀ x ∈ l, ∀ v, f x ≠ some (k, v)) :
    (a.insertEach f l).handle? k = a.handle? k := by
  induction l generalizing a with
  | nil => rfl
  | cons x l ih =>
    have hl : ∀ y ∈ l, ∀ v, f y ≠ some (k, v) := fun y hy => hk y (List.mem_cons_of_mem x hy)
    cases hx : f x with
    | none => rw [a.insertEach_cons_none hx]; exact ih a hl
    | some kv =>
      have hne : k ≠ kv.1 := by
        rintro rfl
        exact hk x List.mem_cons_self kv.2 hx
      rw [a.insertEach_cons_some hx, ih _ hl, handle?_insert, if_neg hne]

theorem handle?_insertEach (a : Arena K V) {l : List α} {k : K} {h : Nat}
    (hk : (a.insertEach f l).handle? k = some h) : a.handle? k = some h ∨ a.next ≤ h := by
  induction l generalizing a with
  | nil => exact .inl hk
  | cons x l ih =>
    cases hx : f x with
    | none => rw [a.insertEach_cons_none hx] at hk; exact ih a hk
    | some kv =>
      rw [a.insertEach_cons_some hx] at hk
      rcases ih _ hk with hold | hnew
      · rw [handle?_insert] at hold
        split at hold
        · exact .inr (Nat.le_of_eq (Option.some.inj hold))
        · exact .inl hold
      · exact .inr (Nat.le_of_succ_le hnew)

theorem at?_insertEach (a : Arena K V) {l : List α} {k : K} {v : V} (hex : ∃ x ∈ l, f x = some (k, v))
    (huniq : ∀ x ∈ l, ∀ v', f x = some (k, v') → v' = v) : (a.insertEach f l).at? k = some v := by
  induction l generalizing a with
  | nil => obtain ⟨x, hx, _⟩ := hex; cases hx
  | cons x l ih =>
    have hl : ∀ y ∈ l, ∀ v', f y = some (k, v') → v' = v := fun y hy => huniq y (List.mem_cons_of_mem x hy)
    by_cases hmem : ∃ y ∈ l, f y = some (k, v)
    · cases hx : f x with
      | none => rw [a.insertEach_cons_none hx]; exact ih a hmem hl
      | some kv => rw [a.insertEach_cons_some hx]; exact ih _ hmem hl
    · have hx : f x = some (k, v) := by
        obtain ⟨y, hy, he⟩ := hex
        rcases List.mem_cons.mp hy with rfl | hy
        · exact he
        · exact absurd ⟨y, hy, he⟩ hmem
      have hnone : ∀ y ∈ l, ∀ v', f y ≠ some (k, v') := fun y hy v' he =>
        hmem ⟨y, hy, hl y hy v' he ▸ he⟩
      rw [a.insertEach_cons_some hx]
      unfold at?
      rw [handle?_insertEach_of_forall _ hnone, handle?_insert, if_pos rfl, Option.map_some,
        cells_insertEach_of_lt _ _ (Nat.lt_succ_self _)]
      exact congrArg some (Function.update_self ..)

theorem at?_insertEach_eq (a : Arena K V) {l : List α} {k : K} {g : Option V} (hold : a.handle? k = none)
    (hg : ∀ v, g = some v → ∃ x ∈ l, f x = some (k, v)) (hl : ∀ x ∈ l, ∀ v, f x = some (k, v) → g = some v) :
    (a.insertEach f l).at? k = g := by
  cases g with
  | some v => exact a.at?_insertEach (hg v rfl) fun x hx v' he => (Option.some.inj (hl x hx v' he)).symm
  | none =>
    unfold at?
    have hnone : ∀ x ∈ l, ∀ v, f x ≠ some (k, v) := fun x hx v he => Option.some_ne_none v (hl x hx v he).symm
    rw [a.handle?_insertEach_of_forall hnone, hold]
    rfl

end

end Arena

end Lib
