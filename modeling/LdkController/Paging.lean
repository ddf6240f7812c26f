import LdkController.Outcome

/-!
# Listings in pages

A listing may be given a limit and an offset. Cut the right way, its pages put
together are the whole listing, and neither argument makes it fail.
-/

namespace Lib

section
variable {ε α : Type}

/-- `Vec::split_off`, of which the tail is kept; a position past the end panics. -/
def splitOff (v : List α) (pos : Nat) : Outcome ε (List α) :=
  if pos ≤ v.length then .ok (v.drop pos) else .panic

/-- `Vec::truncate`. -/
def truncate (v : List α) (len : Nat) : List α := v.take len

/-- What lies between the offset and the limit. -/
def slice (limit offset : Option Nat) (l : List α) : List α :=
  match limit with
  | some n => (l.drop (offset.getD 0)).take n
  | none => l.drop (offset.getD 0)

/-- Reading pages of `k` elements from the offset on, until one is empty, gives the list. -/
inductive PagesFrom (list : Option Nat → Option Nat → Outcome ε (List α)) (k : Nat) : Nat → List α → Prop
  | stop {offset : Nat} : list (some k) (some offset) = .ok [] → PagesFrom list k offset []
  | next {offset : Nat} {page rest : List α} : list (some k) (some offset) = .ok page → page ≠ [] →
      PagesFrom list k (offset + k) rest → PagesFrom list k offset (page ++ rest)

/-- The pages of a listing lose and repeat nothing, and only the listing itself can make them panic. -/
structure Paged (list : Option Nat → Option Nat → Outcome ε (List α)) : Prop where
  panics : ∀ limit offset, list limit offset = .panic → list none none = .panic
  whole : ∀ all limit offset, list none none = .ok all → offset.getD 0 = 0 → (∀ n, limit = some n → all.length ≤ n) →
    list limit offset = .ok all
  pages : ∀ all k, list none none = .ok all → 0 < k → PagesFrom list k 0 all

theorem slice_eq_self {limit offset : Option Nat} {l : List α} (hoffset : offset.getD 0 = 0)
    (hlimit : ∀ n, limit = some n → l.length ≤ n) : slice limit offset l = l := by
  unfold slice
  rw [hoffset, List.drop_zero]
  cases limit with
  | none => rfl
  | some n => exact List.take_of_length_le (hlimit n rfl)

theorem slice_map {β : Type} (f : α → β) (limit offset : Option Nat) (l : List α) :
    (slice limit offset l).map f = slice limit offset (l.map f) := by
  unfold slice
  cases limit with
  | none => exact List.map_drop
  | some n => rw [List.map_take, List.map_drop]

variable {list : Option Nat → Option Nat → Outcome ε (List α)}

theorem pagesFrom_of_slice {l : List α} (h : ∀ limit offset, list limit offset = .ok (slice limit offset l)) {k : Nat}
    (hk : 0 < k) (offset : Nat) : PagesFrom list k offset (l.drop offset) := by
  by_cases hend : l.length ≤ offset
  · rw [List.drop_of_length_le hend]
    refine .stop ((h (some k) (some offset)).trans ?_)
    simp [slice, hend]
  · rw [← List.take_append_drop k (l.drop offset), List.drop_drop]
    refine .next (h (some k) (some offset)) ?_ (pagesFrom_of_slice h hk (offset + k))
    rw [← List.length_pos_iff, List.length_take, List.length_drop]
    omega
  termination_by l.length - offset

/-- Only what is listed under a limit and an offset matters. -/
theorem PagesFrom.congr {list' : Option Nat → Option Nat → Outcome ε (List α)}
    (h : ∀ limit offset, list' (some limit) (some offset) = list (some limit) (some offset)) {k offset : Nat} {l : List α}
    (hpages : PagesFrom list k offset l) : PagesFrom list' k offset l := by
  induction hpages with
  | stop hempty => exact .stop ((h _ _).trans hempty)
  | next hpage hne _ ih => exact .next ((h _ _).trans hpage) hne ih

theorem paged_of_slice (full : Outcome ε (List α))
    (h : ∀ limit offset, list limit offset = full >>= fun l => .ok (slice limit offset l)) : Paged list := by
  have hfull : ∀ all, list none none = .ok all → full = .ok all := by
    intro all hall
    rw [h] at hall
    obtain ⟨l, rfl, hl⟩ := Outcome.bind_eq_ok.mp hall
    rw [slice_eq_self rfl (fun _ hn => by cases hn)] at hl
    rw [Outcome.ok.inj hl]
  refine ⟨fun limit offset hp => ?_, fun all limit offset hall hoffset hlimit => ?_, fun all k hall hk => ?_⟩
  · rw [h] at hp ⊢
    cases full with
    | ok l => cases hp
    | err e => cases hp
    | panic => rfl
  · rw [h, hfull all hall, Outcome.ok_bind, slice_eq_self hoffset hlimit]
  · rw [hfull all hall] at h
    exact pagesFrom_of_slice h hk 0

end

end Lib
