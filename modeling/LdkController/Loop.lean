import Mathlib.Tactic.Basic

/-!
# Loops with fuel

A loop body either ends with a result or goes on with a new state. A measure
that every step decreases says how much fuel is enough; an invariant of the
steps holds where the loop ends.
-/

namespace Lib

inductive Iter (σ ρ : Type) where
  | step (s : σ)
  | done (r : ρ)
deriving DecidableEq

section
variable {σ ρ : Type} (body : σ → Iter σ ρ)

/-- `none` is out of fuel. -/
def loop : Nat → σ → Option ρ
  | 0, _ => none
  | fuel + 1, s =>
    match body s with
    | .step s' => loop fuel s'
    | .done r => some r

inductive Reaches (s : σ) : σ → Prop
  | refl : Reaches s s
  | step {t t' : σ} : Reaches s t → body t = .step t' → Reaches s t'

variable {body}

theorem isSome_loop {measure : σ → Nat} (hdec : ∀ s s', body s = .step s' → measure s' < measure s) :
    ∀ {fuel : Nat} {s : σ}, measure s < fuel → (loop body fuel s).isSome = true
  | 0, s, h => absurd h (Nat.not_lt_zero _)
  | fuel + 1, s, h => by
    unfold loop
    cases hb : body s with
    | done r => rfl
    | step s' =>
      have hlt := hdec s s' hb
      exact isSome_loop hdec (by omega)

/-- **Invariance.** -/
theorem Reaches.inv {P : σ → Prop} (hstep : ∀ t t', P t → body t = .step t' → P t') {s t : σ}
    (h : Reaches body s t) (hs : P s) : P t := by
  induction h with
  | refl => exact hs
  | step _ hb ih => exact hstep _ _ ih hb

theorem Reaches.head {s s' t : σ} (hb : body s = .step s') (h : Reaches body s' t) : Reaches body s t := by
  induction h with
  | refl => exact .step .refl hb
  | step _ hb' ih => exact .step ih hb'

theorem exists_reaches_of_loop {r : ρ} : ∀ {fuel : Nat} {s : σ}, loop body fuel s = some r →
    ∃ t, Reaches body s t ∧ body t = .done r
  | 0, _, h => by cases h
  | fuel + 1, s, h => by
    unfold loop at h
    cases hb : body s with
    | done r' =>
      rw [hb] at h
      obtain rfl := Option.some.inj h
      exact ⟨s, .refl, hb⟩
    | step s' =>
      rw [hb] at h
      obtain ⟨t, ht, hdone⟩ := exists_reaches_of_loop h
      exact ⟨t, ht.head hb, hdone⟩

theorem exists_loop_of_reaches {r : ρ} {s t : σ} (h : Reaches body s t) :
    ∀ {fuel : Nat}, loop body fuel t = some r → ∃ fuel', loop body fuel' s = some r := by
  induction h with
  | refl => exact fun {fuel} hr => ⟨fuel, hr⟩
  | @step t t' _ hb ih =>
    intro fuel hr
    refine @ih (fuel + 1) ?_
    unfold loop
    rw [hb]
    exact hr

theorem loop_unique {r r' : ρ} : ∀ {m n : Nat} {s : σ}, loop body m s = some r → loop body n s = some r' → r = r'
  | 0, _, _, h, _ => by cases h
  | _ + 1, 0, _, _, h => by cases h
  | m + 1, n + 1, s, h, h' => by
    unfold loop at h h'
    cases hb : body s with
    | done q =>
      rw [hb] at h h'
      exact (Option.some.inj h).symm.trans (Option.some.inj h')
    | step s' =>
      rw [hb] at h h'
      exact loop_unique h h'

theorem done_unique {r r' : ρ} {s t t' : σ} (ht : Reaches body s t) (ht' : Reaches body s t') (hr : body t = .done r)
    (hr' : body t' = .done r') : r = r' := by
  have hone : loop body 1 t = some r := by unfold loop; rw [hr]
  have hone' : loop body 1 t' = some r' := by unfold loop; rw [hr']
  obtain ⟨_, hloop⟩ := exists_loop_of_reaches ht hone
  obtain ⟨_, hloop'⟩ := exists_loop_of_reaches ht' hone'
  exact loop_unique hloop hloop'

end

/-! ## The rounds of a run -/

section
variable {σ ρ α : Type} (body : σ → Iter σ ρ)

/-- The states at the head of the rounds, the last one included. -/
def heads : Nat → σ → List σ
  | 0, _ => []
  | fuel + 1, s =>
    match body s with
    | .step s' => s :: heads fuel s'
    | .done _ => [s]

variable {body} {f : σ → Option α}

/-- What shows only in rounds that have work left shows as often as there is work. -/
theorem length_filterMap_heads_le {measure : σ → Nat} (hdec : ∀ s s', body s = .step s' → measure s' < measure s)
    (hpos : ∀ s a, f s = some a → 0 < measure s) :
    ∀ (fuel : Nat) (s : σ), ((heads body fuel s).filterMap f).length ≤ measure s
  | 0, s => Nat.zero_le _
  | fuel + 1, s => by
    unfold heads
    cases hb : body s with
    | done r =>
      cases hf : f s with
      | none => simp [hf]
      | some a =>
        rw [List.filterMap_cons_some hf]
        exact hpos s a hf
    | step s' =>
      have hrest := length_filterMap_heads_le hdec hpos fuel s'
      have hlt := hdec s s' hb
      have hle : ((s :: heads body fuel s').filterMap f).length ≤ ((heads body fuel s').filterMap f).length + 1 := by
        cases hf : f s with
        | none => simp [hf]
        | some a => simp [hf]
      dsimp only
      omega

/-- What every round marks, and no round shows that is marked, shows at most once. -/
theorem nodup_filterMap_heads {marked : σ → List α} (hnew : ∀ s a, f s = some a → a ∉ marked s)
    (hstep : ∀ s s', body s = .step s' → ∀ a, a ∈ marked s ∨ f s = some a → a ∈ marked s') :
    ∀ (fuel : Nat) (s : σ),
      ((heads body fuel s).filterMap f).Nodup ∧ ∀ a ∈ (heads body fuel s).filterMap f, a ∉ marked s
  | 0, s => ⟨.nil, fun _ h => nomatch h⟩
  | fuel + 1, s => by
    unfold heads
    cases hb : body s with
    | done r =>
      cases hf : f s with
      | none => simp [hf]
      | some a => simpa [hf] using hnew s a hf
    | step s' =>
      obtain ⟨hnodup, hrest⟩ := nodup_filterMap_heads hnew hstep fuel s'
      have hold : ∀ a ∈ (heads body fuel s').filterMap f, a ∉ marked s :=
        fun a ha hm => hrest a ha (hstep s s' hb a (.inl hm))
      cases hf : f s with
      | none =>
        rw [List.filterMap_cons_none hf]
        exact ⟨hnodup, hold⟩
      | some a =>
        rw [List.filterMap_cons_some hf]
        refine ⟨List.nodup_cons.mpr ⟨fun ha => hrest a ha (hstep s s' hb a (.inr hf)), hnodup⟩, fun c hc => ?_⟩
        rcases List.mem_cons.mp hc with rfl | hc
        · exact hnew s c hf
        · exact hold c hc

end

/-! ## One loop following another -/

section
variable {σ τ ρ ρ' : Type}

def Iter.map (f : σ → τ) (g : ρ → ρ') : Iter σ ρ → Iter τ ρ'
  | .step s => .step (f s)
  | .done r => .done (g r)

@[simp] theorem Iter.map_id (i : Iter σ ρ) : i.map id id = i := by cases i <;> rfl

variable {body : σ → Iter σ ρ} {body' : τ → Iter τ ρ'} {f : σ → τ} {g : ρ → ρ'}

theorem loop_sim {r' : ρ'} (h : ∀ s, body' (f s) = (body s).map f g ∨ ∃ q, body' (f s) = .done q ∧ q ≠ r') :
    ∀ {fuel : Nat} {s : σ}, loop body' fuel (f s) = some r' → ∃ r, loop body fuel s = some r ∧ g r = r'
  | 0, _, hr => by cases hr
  | fuel + 1, s, hr => by
    unfold loop at hr ⊢
    rcases h s with heq | ⟨q, hq, hne⟩
    · rw [heq] at hr
      cases hb : body s with
      | done r =>
        rw [hb] at hr
        exact ⟨r, rfl, Option.some.inj hr⟩
      | step s' =>
        rw [hb] at hr
        exact loop_sim h hr
    · rw [hq] at hr
      exact absurd (Option.some.inj hr) hne

/-- **Simulation.** As long as it follows the other one, a loop gets only where that one gets. -/
theorem Reaches.sim {s₀ : σ} (h : ∀ s, Reaches body s₀ s → body' (f s) = (body s).map f g) {t : τ}
    (ht : Reaches body' (f s₀) t) : ∃ s, Reaches body s₀ s ∧ f s = t := by
  induction ht with
  | refl => exact ⟨s₀, .refl, rfl⟩
  | step _ hb ih =>
    obtain ⟨s, hs, rfl⟩ := ih
    rw [h s hs] at hb
    cases hbody : body s with
    | done r => rw [hbody] at hb; cases hb
    | step s' =>
      rw [hbody] at hb
      cases hb
      exact ⟨s', hs.step hbody, rfl⟩

end

end Lib
