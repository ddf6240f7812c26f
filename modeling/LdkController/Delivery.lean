import Mathlib.Data.List.Dedup
import Mathlib.Data.List.Perm.Basic

/-!
# Delivery with acknowledgements

A queue delivers its first event again and again until an attempt at it is
acknowledged. An attempt may count the item of the event, acknowledged or not.
When no item is counted again and none is passed without having been counted,
what was counted is, up to order, the set of the items that were passed.
-/

namespace Lib

/-- `redelivered` says that the first of the queue has been attempted before. -/
structure Delivery (α β : Type) where
  passed : List α
  queue : List α
  redelivered : Bool
  counted : List β

namespace Delivery

structure Attempt where
  counts : Bool
  acknowledged : Bool

section
variable {α β : Type} (item : α → Option β)

def start (queue : List α) : Delivery α β := ⟨[], queue, false, []⟩

def attempt (d : Delivery α β) (t : Attempt) : Delivery α β :=
  match d.queue with
  | [] => d
  | x :: rest =>
    let counted := if t.counts then d.counted ++ (item x).toList else d.counted
    if t.acknowledged then ⟨d.passed ++ [x], rest, false, counted⟩ else ⟨d.passed, x :: rest, true, counted⟩

def stop (d : Delivery α β) : Delivery α β := { d with queue := [] }

def current (d : Delivery α β) : Option β := d.queue.head?.bind item

/-- The attempt does not count an item of the kind again, and does not pass one that has not been counted. -/
def Exact (p : β → Bool) (d : Delivery α β) (t : Attempt) : Prop :=
  ∀ b, d.current item = some b → p b = true →
    (t.counts = true → b ∉ d.counted) ∧ (t.acknowledged = true → t.counts = true ∨ b ∈ d.counted)

/-- Of the items of the kind, those passed are counted once, and nothing else but perhaps the current one. -/
structure Exactly (p : β → Bool) (d : Delivery α β) : Prop where
  nodup : (d.counted.filter p).Nodup
  passed : ∀ b ∈ d.passed.filterMap item, p b = true → b ∈ d.counted
  counted : ∀ b ∈ d.counted, p b = true →
    b ∈ d.passed.filterMap item ∨ (d.redelivered = true ∧ d.current item = some b)

variable {item} {p : β → Bool} {d : Delivery α β}

theorem counted_attempt_of_not_counts (d : Delivery α β) (acknowledged : Bool) :
    (d.attempt item ⟨false, acknowledged⟩).counted = d.counted := by
  unfold Delivery.attempt
  cases d.queue with
  | nil => rfl
  | cons x rest => cases acknowledged <;> rfl

theorem counted_attempt {b : β} (hb : d.current item = some b) (acknowledged : Bool) :
    (d.attempt item ⟨true, acknowledged⟩).counted = d.counted ++ [b] := by
  unfold current at hb
  unfold Delivery.attempt
  cases hq : d.queue with
  | nil =>
    rw [hq] at hb
    cases hb
  | cons x rest =>
    rw [hq] at hb
    have hx : item x = some b := hb
    simp only [hx, Option.toList_some, if_true]
    cases acknowledged <;> rfl

theorem exactly_start (queue : List α) : Exactly item p (start queue) where
  nodup := List.nodup_nil
  passed b hb _ := by cases hb
  counted b hb _ := by cases hb

theorem Exactly.nodup_count (h : Exactly item p d) {t : Attempt} (ht : Exact item p d t) {x : Option β}
    (hx : d.current item = x) : ((if t.counts then d.counted ++ x.toList else d.counted).filter p).Nodup := by
  split
  · rename_i hcounts
    rw [List.filter_append, List.nodup_append]
    refine ⟨h.nodup, ?_, ?_⟩
    · apply List.Nodup.filter
      cases x with
      | none => exact List.nodup_nil
      | some b => exact List.nodup_singleton b
    · intro b hb b' hb' he
      subst he
      obtain ⟨hmem, hp⟩ := List.mem_filter.mp hb'
      rw [← hx, Option.mem_toList] at hmem
      exact (ht b hmem hp).1 hcounts (List.mem_filter.mp hb).1
  · exact h.nodup

theorem Exactly.attempt (h : Exactly item p d) {t : Attempt} (ht : Exact item p d t) :
    Exactly item p (d.attempt item t) := by
  unfold Delivery.attempt
  cases hq : d.queue with
  | nil => exact h
  | cons x rest =>
    have hcurrent : d.current item = item x := by
      unfold current
      rw [hq]
      rfl
    have hnodup := h.nodup_count ht hcurrent
    have hmem : ∀ b, b ∈ (if t.counts then d.counted ++ (item x).toList else d.counted) ↔
        b ∈ d.counted ∨ (t.counts = true ∧ item x = some b) := by
      intro b
      cases t.counts <;> simp
    have hpassed : ∀ b, b ∈ (d.passed ++ [x]).filterMap item ↔ b ∈ d.passed.filterMap item ∨ item x = some b := by
      intro b
      rw [List.filterMap_append, List.mem_append]
      cases hx : item x <;> simp [hx, eq_comm]
    cases hack : t.acknowledged with
    | true =>
      refine ⟨hnodup, ?_, ?_⟩
      · intro b hb hp
        rcases (hpassed b).mp hb with hb | hb
        · exact (hmem b).mpr (.inl (h.passed b hb hp))
        · rcases (ht b (hcurrent.trans hb) hp).2 hack with hc | hc
          · exact (hmem b).mpr (.inr ⟨hc, hb⟩)
          · exact (hmem b).mpr (.inl hc)
      · intro b hb hp
        left
        rcases (hmem b).mp hb with hb | ⟨_, hb⟩
        · rcases h.counted b hb hp with hb | ⟨_, hb⟩
          · exact (hpassed b).mpr (.inl hb)
          · exact (hpassed b).mpr (.inr (hcurrent.symm.trans hb))
        · exact (hpassed b).mpr (.inr hb)
    | false =>
      refine ⟨hnodup, ?_, ?_⟩
      · intro b hb hp
        exact (hmem b).mpr (.inl (h.passed b hb hp))
      · intro b hb hp
        rcases (hmem b).mp hb with hb | ⟨_, hb⟩
        · rcases h.counted b hb hp with hb | ⟨_, hb⟩
          · exact .inl hb
          · exact .inr ⟨rfl, hcurrent.symm.trans hb⟩
        · exact .inr ⟨rfl, hb⟩

/-- Deliveries may end anywhere but at an item of the kind. -/
theorem Exactly.stop (h : Exactly item p d) (hd : ∀ b, d.current item = some b → p b = false) :
    Exactly item p d.stop where
  nodup := h.nodup
  passed := h.passed
  counted b hb hp := by
    rcases h.counted b hb hp with hb | ⟨_, hb⟩
    · exact .inl hb
    · rw [hd b hb] at hp
      cases hp

/-- **Exactly once.** Between two events the items counted are the items passed. -/
theorem Exactly.perm [DecidableEq β] (h : Exactly item p d) (hd : d.redelivered = false) :
    (d.counted.filter p).Perm ((d.passed.filterMap item).filter p).dedup := by
  apply (List.perm_ext_iff_of_nodup h.nodup (List.nodup_dedup _)).mpr
  intro b
  rw [List.mem_dedup, List.mem_filter, List.mem_filter]
  constructor
  · intro hb
    refine ⟨?_, hb.2⟩
    rcases h.counted b hb.1 hb.2 with hb | ⟨hr, _⟩
    · exact hb
    · rw [hd] at hr
      cases hr
  · intro hb
    exact ⟨h.passed b hb.1 hb.2, hb.2⟩

end

end Delivery

end Lib
