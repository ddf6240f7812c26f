import Mathlib.Algebra.GroupWithZero.Nat
import Mathlib.Data.List.Infix
import Mathlib.Data.List.Nodup

/-!
# Walks

A walk is the list of its hops. A hop knows where it leads (`tgt`) and what it
costs (`w`); `E a h` says that the hop `h` can be taken at `a`.
-/

namespace Lib

section
variable {α η : Type} (tgt : η → α) (E : α → η → Prop) (w : η → Nat)

def endOf (a : α) (p : List η) : α := p.foldl (fun _ h => tgt h) a

def nodes (a : α) (p : List η) : List α := a :: p.map tgt

def IsWalk : α → List η → Prop
  | _, [] => True
  | a, h :: p => E a h ∧ IsWalk (tgt h) p

def weight (p : List η) : Nat := (p.map w).sum

@[simp] theorem endOf_nil (a : α) : endOf tgt a [] = a := rfl

@[simp] theorem endOf_cons (a : α) (h : η) (p : List η) : endOf tgt a (h :: p) = endOf tgt (tgt h) p := rfl

@[simp] theorem endOf_append (a : α) (p q : List η) : endOf tgt a (p ++ q) = endOf tgt (endOf tgt a p) q :=
  List.foldl_append

@[simp] theorem weight_nil : weight w [] = 0 := rfl

@[simp] theorem weight_cons (h : η) (p : List η) : weight w (h :: p) = w h + weight w p := List.sum_cons

@[simp] theorem weight_append (p q : List η) : weight w (p ++ q) = weight w p + weight w q := by
  simp [weight]

theorem weight_mono {p q : List η} (h : p <+: q) : weight w p ≤ weight w q := by
  obtain ⟨r, rfl⟩ := h
  rw [weight_append]
  exact Nat.le_add_right _ _

theorem nodes_append (a : α) (p q : List η) : nodes tgt a (p ++ q) = nodes tgt a p ++ q.map tgt := by
  simp [nodes]

theorem nodes_snoc (a : α) (p : List η) (h : η) : nodes tgt a (p ++ [h]) = nodes tgt a p ++ [tgt h] :=
  nodes_append tgt a p [h]

theorem endOf_mem_nodes : ∀ (p : List η) (a : α), endOf tgt a p ∈ nodes tgt a p
  | [], _ => List.mem_singleton_self _
  | h :: p, a => List.mem_cons_of_mem a (endOf_mem_nodes p (tgt h))

theorem nodes_mono (a : α) {p q : List η} (h : p <+: q) : ∀ n ∈ nodes tgt a p, n ∈ nodes tgt a q := by
  obtain ⟨r, rfl⟩ := h
  intro n hn
  rw [nodes_append]
  exact List.mem_append_left _ hn

theorem exists_prefix_of_mem_nodes {a n : α} :
    ∀ {p : List η}, n ∈ nodes tgt a p → ∃ q r, p = q ++ r ∧ endOf tgt a q = n := by
  intro p
  induction p using List.reverseRecOn with
  | nil => intro hn; exact ⟨[], [], rfl, (List.mem_singleton.mp hn).symm⟩
  | append_singleton p h ih =>
    intro hn
    rw [nodes_snoc] at hn
    rcases List.mem_append.mp hn with hn | hn
    · obtain ⟨q, r, rfl, he⟩ := ih hn
      exact ⟨q, r ++ [h], by rw [List.append_assoc], he⟩
    · obtain rfl := List.mem_singleton.mp hn
      exact ⟨p ++ [h], [], by rw [List.append_nil], by simp⟩

variable {tgt E w}

theorem isWalk_append {a : α} {p q : List η} :
    IsWalk tgt E a (p ++ q) ↔ IsWalk tgt E a p ∧ IsWalk tgt E (endOf tgt a p) q := by
  induction p generalizing a with
  | nil => simp [IsWalk]
  | cons h p ih => simp [IsWalk, ih, and_assoc]

theorem isWalk_snoc {a : α} {p : List η} {h : η} :
    IsWalk tgt E a (p ++ [h]) ↔ IsWalk tgt E a p ∧ E (endOf tgt a p) h := by
  rw [isWalk_append]
  simp [IsWalk]

/-- Every hop of a simple walk is taken somewhere, and leads somewhere else. -/
theorem exists_taken {a : α} {p : List η} (hp : IsWalk tgt E a p) (hnodup : (nodes tgt a p).Nodup) :
    ∀ h ∈ p, ∃ n, E n h ∧ tgt h ≠ n := by
  induction p generalizing a with
  | nil => intro h hh; cases hh
  | cons g p ih =>
    obtain ⟨hnew, hrest⟩ := List.nodup_cons.mp hnodup
    intro h hh
    rcases List.mem_cons.mp hh with rfl | hh
    · exact ⟨a, hp.1, fun heq => hnew (heq ▸ List.mem_cons_self)⟩
    · exact ih hp.2 hrest h hh

theorem weight_le_of_forall {c : Nat} {p : List η} (h : ∀ g ∈ p, w g ≤ c) : weight w p ≤ p.length * c := by
  induction p with
  | nil => simp
  | cons g p ih =>
    have hg := h g List.mem_cons_self
    have hp := ih fun g' hg' => h g' (List.mem_cons_of_mem g hg')
    rw [weight_cons, List.length_cons, Nat.succ_mul]
    omega

end

/-! ## Walks whose hops are made from others -/

section
variable {α η ζ : Type} {tgt : η → α} {tgt' : ζ → α} {f : ζ → η} (htgt : ∀ z, tgt (f z) = tgt' z)
include htgt

theorem endOf_map (a : α) (p : List ζ) : endOf tgt a (p.map f) = endOf tgt' a p := by
  induction p generalizing a with
  | nil => rfl
  | cons z p ih => rw [List.map_cons, endOf_cons, endOf_cons, htgt, ih]

theorem nodes_map (a : α) (p : List ζ) : nodes tgt a (p.map f) = nodes tgt' a p := by
  simp [nodes, htgt]

variable {E : α → η → Prop} {E' : α → ζ → Prop}

theorem IsWalk.map (hE : ∀ a z, E' a z → E a (f z)) {a : α} {p : List ζ} (hp : IsWalk tgt' E' a p) :
    IsWalk tgt E a (p.map f) := by
  induction p generalizing a with
  | nil => trivial
  | cons z p ih => exact ⟨hE a z hp.1, (htgt z).symm ▸ ih hp.2⟩

theorem IsWalk.exists_map (hE : ∀ a h, E a h → ∃ z, E' a z ∧ f z = h) {a : α} {p : List η} (hp : IsWalk tgt E a p) :
    ∃ q, IsWalk tgt' E' a q ∧ q.map f = p := by
  induction p generalizing a with
  | nil => exact ⟨[], trivial, rfl⟩
  | cons h p ih =>
    obtain ⟨z, hz, rfl⟩ := hE a h hp.1
    obtain ⟨q, hq, rfl⟩ := ih hp.2
    exact ⟨z :: q, ⟨hz, htgt z ▸ hq⟩, rfl⟩

end

theorem weight_map {η ζ : Type} {w : η → Nat} {f : ζ → η} (p : List ζ) :
    weight w (p.map f) = weight (fun z => w (f z)) p := by
  simp [weight, List.map_map, Function.comp_def]

end Lib
