import LdkController.Machine
import Mathlib.Tactic.Linarith

/-!
# Token buckets

A bucket holds tokens up to a capacity and accrues them along a monotone
schedule `ρ`: between `u` and `t` it gains `ρ t - ρ u`. Drawing settles what has
accrued, so no interval is credited twice. `window_law` bounds what can be drawn
in any window by the capacity, the accrual of the window and the credits in it.
-/

namespace Lib

structure Bucket (τ α : Type) where
  level : α
  since : τ

namespace Bucket

inductive Move (τ α : Type) where
  | draw (t : τ) (a : α)
  | credit (t : τ) (a : α)

section
variable {τ α : Type} [LinearOrder τ] [CommRing α] [LinearOrder α]

def Move.time : Move τ α → τ
  | .draw t _ => t
  | .credit t _ => t

def Move.drawn : Move τ α → α
  | .draw _ a => a
  | .credit _ _ => 0

def Move.credited : Move τ α → α
  | .draw _ _ => 0
  | .credit _ a => a

def within (s t : τ) (f : Move τ α → α) : List (Move τ α) → α
  | [] => 0
  | m :: l => (if s ≤ m.time ∧ m.time ≤ t then f m else 0) + within s t f l

variable (cap : α) (ρ : τ → α)

def filled (b : Bucket τ α) (t : τ) : α := min cap (b.level + (ρ (max t b.since) - ρ b.since))

def move (b : Bucket τ α) : Move τ α → Bucket τ α
  | .draw t a => ⟨filled cap ρ b t - a, max t b.since⟩
  | .credit _ a => ⟨min cap (b.level + a), b.since⟩

def Covered (b : Bucket τ α) : Move τ α → Prop
  | .draw t a => 0 ≤ a ∧ a ≤ filled cap ρ b t
  | .credit _ a => 0 ≤ a

variable {cap} {ρ}

omit [LinearOrder α] in
theorem within_eq_zero {s t : τ} (f : Move τ α → α) {l : List (Move τ α)} (h : ∀ m ∈ l, t < m.time) :
    within s t f l = 0 := by
  induction l with
  | nil => rfl
  | cons m l ih =>
    have hm : ¬ (s ≤ m.time ∧ m.time ≤ t) := fun hw => absurd hw.2 (not_le.mpr (h m (by simp)))
    unfold within
    rw [if_neg hm, ih fun x hx => h x (List.mem_cons_of_mem _ hx), add_zero]

theorem filled_le_cap (b : Bucket τ α) (t : τ) : filled cap ρ b t ≤ cap := min_le_left _ _

theorem filled_draw (b : Bucket τ α) (t : τ) (a : α) :
    filled cap ρ (move cap ρ b (.draw t a)) t ≤ filled cap ρ b t - a := by
  show min cap (filled cap ρ b t - a + (ρ (max t (max t b.since)) - ρ (max t b.since))) ≤ _
  rw [max_eq_right (le_max_left t b.since), sub_self, add_zero]
  exact min_le_right _ _

variable [IsStrictOrderedRing α]

theorem filled_credit (b : Bucket τ α) (t : τ) {a : α} (ha : 0 ≤ a) :
    filled cap ρ (move cap ρ b (.credit t a)) t ≤ filled cap ρ b t + a := by
  show min cap (min cap (b.level + a) + (ρ (max t b.since) - ρ b.since)) ≤ _
  have hl : min cap (b.level + a) ≤ b.level + a := min_le_right _ _
  unfold filled
  rcases le_total cap (b.level + (ρ (max t b.since) - ρ b.since)) with h | h
  · rw [min_eq_left h]
    exact (min_le_left _ _).trans (by linarith)
  · rw [min_eq_right h]
    exact (min_le_right _ _).trans (by linarith)

theorem level_nonneg_move (hc : 0 ≤ cap) {b : Bucket τ α} (hb : 0 ≤ b.level) {m : Move τ α}
    (hm : Covered cap ρ b m) : 0 ≤ (move cap ρ b m).level := by
  cases m with
  | draw t a =>
    show 0 ≤ filled cap ρ b t - a
    have := hm.2
    linarith
  | credit t a =>
    have ha : 0 ≤ a := hm
    exact le_min hc (by linarith)

variable (hρ : Monotone ρ)
include hρ

theorem filled_nonneg (hc : 0 ≤ cap) {b : Bucket τ α} (hb : 0 ≤ b.level) (t : τ) : 0 ≤ filled cap ρ b t := by
  have hle : ρ b.since ≤ ρ (max t b.since) := hρ (le_max_right _ _)
  exact le_min hc (by linarith)

theorem filled_elapse (b : Bucket τ α) {u t : τ} (hut : u ≤ t) :
    filled cap ρ b t ≤ filled cap ρ b u + (ρ t - ρ u) := by
  have hgain : ρ (max t b.since) + ρ u ≤ ρ (max u b.since) + ρ t := by
    rcases le_total t b.since with h | h
    · rw [max_eq_right h, max_eq_right (hut.trans h)]
      have := hρ hut
      linarith
    · rw [max_eq_left h]
      have := hρ (le_max_left u b.since)
      linarith
  have hstep : ρ u ≤ ρ t := hρ hut
  unfold filled
  rcases le_total cap (b.level + (ρ (max u b.since) - ρ b.since)) with h | h
  · rw [min_eq_left h]
    exact (min_le_left _ _).trans (by linarith)
  · rw [min_eq_right h]
    exact (min_le_right _ _).trans (by linarith)

/-! ## The law of a window -/

/-- What is drawn from now on is bounded by what the bucket holds now. -/
theorem drawn_le_filled (hc : 0 ≤ cap) {s t : τ} {l : List (Move τ α)} :
    ∀ {b : Bucket τ α} {u : τ}, 0 ≤ b.level → s ≤ u → u ≤ t → (∀ m ∈ l, u ≤ m.time) →
      l.Pairwise (fun m m' => m.time ≤ m'.time) → Steps (move cap ρ) (Covered cap ρ) b l →
      within s t Move.drawn l ≤ filled cap ρ b u + (ρ t - ρ u) + within s t Move.credited l := by
  induction l with
  | nil =>
    intro b u hb _ hut _ _ _
    have h₁ := filled_nonneg hρ hc hb u
    have h₂ := hρ hut
    simp only [within]
    linarith
  | cons m l ih =>
    intro b u hb hsu hut hu hsort hsteps
    obtain ⟨hm, hl⟩ := hsteps
    obtain ⟨hlater, hsort⟩ := List.pairwise_cons.mp hsort
    have hum : u ≤ m.time := hu m (by simp)
    rcases le_or_gt m.time t with hmt | hmt
    · have hw : s ≤ m.time ∧ m.time ≤ t := ⟨hsu.trans hum, hmt⟩
      have hrest := ih (level_nonneg_move hc hb hm) hw.1 hmt hlater hsort hl
      have helapse : filled cap ρ b m.time ≤ filled cap ρ b u + (ρ m.time - ρ u) := filled_elapse hρ b hum
      unfold within
      rw [if_pos hw, if_pos hw]
      cases m with
      | draw v a =>
        have hd : filled cap ρ (move cap ρ b (.draw v a)) v ≤ filled cap ρ b v - a := filled_draw b v a
        simp only [Move.time, Move.drawn, Move.credited] at *
        linarith
      | credit v a =>
        have hd : filled cap ρ (move cap ρ b (.credit v a)) v ≤ filled cap ρ b v + a := filled_credit b v hm
        simp only [Move.time, Move.drawn, Move.credited] at *
        linarith
    · have hout : ∀ x ∈ m :: l, t < x.time := by
        intro x hx
        rcases List.mem_cons.mp hx with rfl | hx
        · exact hmt
        · exact hmt.trans_le (hlater x hx)
      have h₁ := filled_nonneg hρ hc hb u
      have h₂ := hρ hut
      rw [within_eq_zero _ hout, within_eq_zero _ hout]
      linarith

/-- **The law of a token bucket.** -/
theorem window_law (hc : 0 ≤ cap) {l : List (Move τ α)} {s t : τ} (hst : s ≤ t) :
    ∀ {b : Bucket τ α}, 0 ≤ b.level → l.Pairwise (fun m m' => m.time ≤ m'.time) →
      Steps (move cap ρ) (Covered cap ρ) b l →
      within s t Move.drawn l ≤ cap + (ρ t - ρ s) + within s t Move.credited l := by
  induction l with
  | nil =>
    intro b _ _ _
    have := hρ hst
    simp only [within]
    linarith
  | cons m l ih =>
    intro b hb hsort hsteps
    rcases le_or_gt s m.time with hs | hs
    · -- the window has begun: everything from here on is at or after `s`
      have hu : ∀ x ∈ m :: l, s ≤ x.time := by
        intro x hx
        rcases List.mem_cons.mp hx with rfl | hx
        · exact hs
        · exact hs.trans ((List.pairwise_cons.mp hsort).1 x hx)
      have := drawn_le_filled hρ hc hb le_rfl hst hu hsort hsteps
      have : filled cap ρ b s ≤ cap := filled_le_cap b s
      linarith
    · have hw : ¬ (s ≤ m.time ∧ m.time ≤ t) := fun h => absurd h.1 (not_le.mpr hs)
      unfold within
      rw [if_neg hw, if_neg hw, zero_add, zero_add]
      exact ih (level_nonneg_move hc hb hsteps.1) (List.pairwise_cons.mp hsort).2 hsteps.2

end

end Bucket

end Lib
