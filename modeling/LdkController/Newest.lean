import Mathlib.Order.Lattice
import Mathlib.Order.MinMax
import Mathlib.Tactic.Basic
import Mathlib.Data.List.Induction

/-!
# Newest-wins slots

A slot remembers the greatest key it was offered and takes a key only when it
is greater. Offered a list of keys, it takes exactly those that exceed all keys
before them, whatever the order and the repetitions.
-/

namespace Lib

section
variable {κ : Type} [LinearOrder κ]

def takes (slot : Option κ) (k : κ) : Bool :=
  match slot with
  | none => true
  | some c => decide (c < k)

def offer (slot : Option κ) (k : κ) : Option κ := if takes slot k then some k else slot

def newest (l : List κ) : Option κ := l.foldl offer none

@[simp] theorem newest_nil : newest ([] : List κ) = none := rfl

theorem offer_of_takes {slot : Option κ} {k : κ} (h : takes slot k = true) : offer slot k = some k := if_pos h

theorem offer_of_not_takes {slot : Option κ} {k : κ} (h : takes slot k = false) : offer slot k = slot := by
  unfold offer
  rw [if_neg (by rw [h]; exact Bool.false_ne_true)]

theorem newest_snoc (l : List κ) (k : κ) : newest (l ++ [k]) = offer (newest l) k := by
  unfold newest; rw [List.foldl_append]; rfl

theorem newest_spec (l : List κ) :
    (newest l = none ∧ l = []) ∨ ∃ m, newest l = some m ∧ m ∈ l ∧ ∀ k ∈ l, k ≤ m := by
  induction l using List.reverseRecOn with
  | nil => exact Or.inl ⟨rfl, rfl⟩
  | append_singleton l k ih =>
    right
    rw [newest_snoc]
    rcases ih with ⟨hn, rfl⟩ | ⟨m, hm, hmem, hle⟩
    · exact ⟨k, by simp [offer, takes], by simp, by simp⟩
    · rw [hm]
      by_cases hlt : m < k
      · refine ⟨k, by simp [offer, takes, hlt], by simp, fun x hx => ?_⟩
        rcases List.mem_append.mp hx with h | h
        · exact (hle x h).trans hlt.le
        · exact (List.mem_singleton.mp h).le
      · refine ⟨m, by simp [offer, takes, hlt], by simp [hmem], fun x hx => ?_⟩
        rcases List.mem_append.mp hx with h | h
        · exact hle x h
        · exact (List.mem_singleton.mp h) ▸ not_lt.mp hlt

theorem newest_eq_some {l : List κ} {m : κ} (hm : m ∈ l) (hle : ∀ k ∈ l, k ≤ m) : newest l = some m := by
  rcases newest_spec l with ⟨_, rfl⟩ | ⟨m', hm', hmem, hle'⟩
  · cases hm
  · rw [hm', le_antisymm (hle m' hmem) (hle' m hm)]

/-! ## What a slot accepts -/

section
variable {α : Type} (key : α → κ)

def accepted : Option κ → List α → List α
  | _, [] => []
  | slot, x :: l =>
    if takes slot (key x) then x :: accepted (some (key x)) l else accepted slot l

variable {key}

theorem accepted_cons_of_takes {slot : Option κ} {x : α} (h : takes slot (key x) = true) (l : List α) :
    accepted key slot (x :: l) = x :: accepted key (some (key x)) l := by
  rw [accepted, if_pos h]

theorem accepted_cons_of_not_takes {slot : Option κ} {x : α} (h : takes slot (key x) = false) (l : List α) :
    accepted key slot (x :: l) = accepted key slot l := by
  rw [accepted, if_neg (by rw [h]; exact Bool.false_ne_true)]

theorem accepted_snoc (slot : Option κ) (l : List α) (x : α) :
    accepted key slot (l ++ [x]) =
      accepted key slot l ++ (if takes ((l.map key).foldl offer slot) (key x) then [x] else []) := by
  induction l generalizing slot with
  | nil => rfl
  | cons y l ih =>
    rw [List.cons_append, List.map_cons, List.foldl_cons]
    cases ht : takes slot (key y) with
    | true => rw [accepted_cons_of_takes ht, accepted_cons_of_takes ht, ih, offer_of_takes ht, List.cons_append]
    | false => rw [accepted_cons_of_not_takes ht, accepted_cons_of_not_takes ht, ih, offer_of_not_takes ht]

theorem mem_of_mem_accepted {slot : Option κ} {l : List α} {x : α} (h : x ∈ accepted key slot l) : x ∈ l := by
  induction l generalizing slot with
  | nil => cases h
  | cons y l ih =>
    cases ht : takes slot (key y) with
    | true =>
      rw [accepted_cons_of_takes ht] at h
      rcases List.mem_cons.mp h with rfl | h
      · exact List.mem_cons_self
      · exact List.mem_cons_of_mem y (ih h)
    | false =>
      rw [accepted_cons_of_not_takes ht] at h
      exact List.mem_cons_of_mem y (ih h)

theorem lt_of_mem_accepted {c : κ} {l : List α} {x : α} (h : x ∈ accepted key (some c) l) : c < key x := by
  induction l generalizing c with
  | nil => cases h
  | cons y l ih =>
    cases ht : takes (some c) (key y) with
    | true =>
      have hc : c < key y := of_decide_eq_true ht
      rw [accepted_cons_of_takes ht] at h
      rcases List.mem_cons.mp h with rfl | h
      · exact hc
      · exact hc.trans (ih h)
    | false =>
      rw [accepted_cons_of_not_takes ht] at h
      exact ih h

/-- The keys a slot accepts increase. -/
theorem pairwise_accepted (slot : Option κ) (l : List α) :
    (accepted key slot l).Pairwise fun x y => key x < key y := by
  induction l generalizing slot with
  | nil => exact .nil
  | cons x l ih =>
    cases ht : takes slot (key x) with
    | true =>
      rw [accepted_cons_of_takes ht, List.pairwise_cons]
      exact ⟨fun y hy => lt_of_mem_accepted hy, ih _⟩
    | false =>
      rw [accepted_cons_of_not_takes ht]
      exact ih slot

/-- The slot ends with the key of the last element it accepted. -/
theorem foldl_offer_map (slot : Option κ) (l : List α) :
    (l.map key).foldl offer slot = ((accepted key slot l).getLast?.map key).or slot := by
  induction l generalizing slot with
  | nil => rfl
  | cons x l ih =>
    cases ht : takes slot (key x) with
    | true =>
      rw [accepted_cons_of_takes ht, List.map_cons, List.foldl_cons, offer_of_takes ht, ih]
      cases hl : accepted key (some (key x)) l with
      | nil => rfl
      | cons y ys => rw [List.getLast?_cons_cons, List.getLast?_cons]; rfl
    | false =>
      rw [accepted_cons_of_not_takes ht, List.map_cons, List.foldl_cons, offer_of_not_takes ht]
      exact ih slot

/-- The last accepted element is the greatest, when keys tell the elements apart. -/
theorem getLast?_accepted {l : List α} {m : α} (hm : m ∈ l) (hmax : ∀ x ∈ l, key x ≤ key m)
    (hinj : ∀ x ∈ l, key x = key m → x = m) : (accepted key none l).getLast? = some m := by
  have hnewest : newest (l.map key) = some (key m) :=
    newest_eq_some (List.mem_map_of_mem hm) fun k hk => by
      obtain ⟨x, hx, rfl⟩ := List.mem_map.mp hk
      exact hmax x hx
  have hfold : (l.map key).foldl offer none = ((accepted key none l).getLast?.map key).or none :=
    foldl_offer_map none l
  rw [Option.or_none] at hfold
  rw [newest, hfold] at hnewest
  obtain ⟨x, hx, hk⟩ := Option.map_eq_some_iff.mp hnewest
  rw [hx, hinj x (mem_of_mem_accepted (List.mem_of_getLast? hx)) hk]

end

end

end Lib
