import Mathlib.Data.Fintype.EquivFin
import Mathlib.Data.Fintype.Lattice
import Mathlib.Logic.Function.Basic
import Mathlib.Logic.Relation
import Mathlib.Order.WithBot
import Mathlib.Tactic.Basic

/-!
# Threads that take locks

A program takes and releases locks and acts on a shared state; a configuration
is the state and, for each thread, the locks it holds and what is left of its
program. When every thread takes its locks in ascending order of a rank, and
keeps none at its end, no reachable configuration is stuck.
-/

namespace Lib.Locks

inductive Mode where
  | shared | exclusive
deriving DecidableEq, Repr

/-- A lock that is taken says whether it is poisoned; `act` goes on by the state it found. -/
inductive Prog (L S α : Type) where
  | done (a : α)
  | acquire (l : L) (mode : Mode) (next : Bool → Prog L S α)
  | release (l : L) (next : Prog L S α)
  | act (write : S → S) (next : S → Prog L S α)

namespace Prog

variable {L S α β : Type}

protected def bind : Prog L S α → (α → Prog L S β) → Prog L S β
  | .done a, f => f a
  | .acquire l mode next, f => .acquire l mode fun poisoned => (next poisoned).bind f
  | .release l next, f => .release l (next.bind f)
  | .act write next, f => .act write fun s => (next s).bind f

/-- The program alone, with no lock poisoned. -/
def run : Prog L S α → S → S × α
  | .done a, s => (s, a)
  | .acquire _ _ next, s => (next false).run s
  | .release _ next, s => next.run s
  | .act write next, s => (next s).run (write s)

theorem run_bind (p : Prog L S α) (f : α → Prog L S β) : ∀ s, (p.bind f).run s = (f (p.run s).2).run (p.run s).1 := by
  induction p with
  | done a => exact fun _ => rfl
  | acquire l mode next ih => exact fun s => ih false s
  | release l next ih => exact ih
  | act write next ih => exact fun s => ih s (write s)

/-- From the locks held, oldest first, each lock taken ranks above those held then, and `post` holds of the value and
of the locks held at the end. -/
def Ordered {ρ : Type} [LT ρ] [DecidableEq L] (rank : L → ρ) (post : α → List L → Prop) : List L → Prog L S α → Prop
  | held, .done a => post a held
  | held, .acquire l _ next => (∀ h ∈ held, rank h < rank l) ∧ ∀ poisoned, Ordered rank post (held ++ [l]) (next poisoned)
  | held, .release l next => Ordered rank post (held.erase l) next
  | held, .act _ next => ∀ s, Ordered rank post held (next s)

theorem Ordered.bind {ρ : Type} [LT ρ] [DecidableEq L] {rank : L → ρ} {post : α → List L → Prop}
    {post' : β → List L → Prop} {p : Prog L S α} {f : α → Prog L S β} {held : List L} (h : Ordered rank post held p)
    (hf : ∀ a held', post a held' → Ordered rank post' held' (f a)) : Ordered rank post' held (p.bind f) := by
  induction p generalizing held with
  | done a => exact hf a held h
  | acquire l mode next ih => exact ⟨h.1, fun poisoned => ih poisoned (h.2 poisoned)⟩
  | release l next ih => exact ih h
  | act write next ih => exact fun s => ih s (h s)

end Prog

structure Thread (L S α : Type) where
  held : List (L × Mode)
  prog : Prog L S α

structure Config (T L S α : Type) where
  state : S
  threads : T → Thread L S α

namespace Config

variable {T L S α : Type}

def start (s : S) (progs : T → Prog L S α) : Config T L S α := ⟨s, fun t => ⟨[], progs t⟩⟩

def Finished (c : Config T L S α) (t : T) : Prop := ∃ a, (c.threads t).prog = .done a

/-- Readers share a lock; nobody takes one that he holds. -/
def Free (c : Config T L S α) (l : L) (mode : Mode) : Prop :=
  ∀ t, ∀ h ∈ (c.threads t).held, h.1 = l → mode = .shared ∧ h.2 = .shared

def Awaits (c : Config T L S α) (t : T) (l : L) (mode : Mode) : Prop :=
  ∃ next, (c.threads t).prog = .acquire l mode next

def WaitsFor (c : Config T L S α) (t u : T) : Prop :=
  ∃ l mode, c.Awaits t l mode ∧ ∃ h ∈ (c.threads u).held, h.1 = l ∧ ¬ (mode = .shared ∧ h.2 = .shared)

/-- The thread is not a reader that overtakes a waiting writer. -/
def Yields (c : Config T L S α) (t : T) : Prop :=
  ∀ l, c.Awaits t l .shared → ∀ u, ¬ c.Awaits u l .exclusive

theorem waitsFor_of_not_free {c : Config T L S α} {t : T} {l : L} {mode : Mode} (ht : c.Awaits t l mode)
    (hfree : ¬ c.Free l mode) : ∃ u, c.WaitsFor t u := by
  unfold Free at hfree
  push Not at hfree
  obtain ⟨u, h, hh, hl, hmode⟩ := hfree
  exact ⟨u, l, mode, ht, h, hh, hl, fun hm => hmode hm.1 hm.2⟩

theorem Awaits.not_finished {c : Config T L S α} {t : T} {l : L} {mode : Mode} (h : c.Awaits t l mode) :
    ¬ c.Finished t := by
  obtain ⟨next, hprog⟩ := h
  rintro ⟨a, hdone⟩
  rw [hprog] at hdone
  cases hdone

theorem Awaits.unique {c : Config T L S α} {t : T} {l l' : L} {mode mode' : Mode} (h : c.Awaits t l mode)
    (h' : c.Awaits t l' mode') : l = l' ∧ mode = mode' := by
  obtain ⟨next, hprog⟩ := h
  obtain ⟨next', hprog'⟩ := h'
  rw [hprog] at hprog'
  cases hprog'
  exact ⟨rfl, rfl⟩

/-! ## Programs that take locks in ascending order -/

section
variable [DecidableEq L] {ρ : Type} {rank : L → ρ}

def Ordered [LT ρ] (rank : L → ρ) (c : Config T L S α) : Prop :=
  ∀ t, (c.threads t).prog.Ordered rank (fun _ held => held = []) ((c.threads t).held.map (·.1))

theorem not_finished_of_held [LT ρ] {c : Config T L S α} (hc : c.Ordered rank) {u : T} {h : L × Mode}
    (hh : h ∈ (c.threads u).held) : ¬ c.Finished u := by
  rintro ⟨a, ha⟩
  have hu := hc u
  rw [ha] at hu
  have hnil : (c.threads u).held = [] := List.map_eq_nil_iff.mp hu
  rw [hnil] at hh
  cases hh

theorem rank_lt_of_awaits [LT ρ] {c : Config T L S α} (hc : c.Ordered rank) {t : T} {l : L} {mode : Mode}
    (ht : c.Awaits t l mode) : ∀ h ∈ (c.threads t).held, rank h.1 < rank l := by
  obtain ⟨next, hprog⟩ := ht
  have hord := hc t
  rw [hprog] at hord
  exact fun h hh => hord.1 h.1 (List.mem_map_of_mem hh)

/-- Of a waiting thread the rank of the lock it awaits; a thread that does not wait comes last. -/
def level (rank : L → ρ) (c : Config T L S α) (t : T) : WithTop ρ :=
  match (c.threads t).prog with
  | .acquire l _ _ => rank l
  | _ => ⊤

omit [DecidableEq L] in
theorem level_of_awaits {c : Config T L S α} {t : T} {l : L} {mode : Mode} (h : c.Awaits t l mode) :
    level rank c t = rank l := by
  obtain ⟨next, hprog⟩ := h
  unfold level
  rw [hprog]

theorem level_lt_of_waitsFor [Preorder ρ] {c : Config T L S α} (hc : c.Ordered rank) {t u : T}
    (h : c.WaitsFor t u) : level rank c t < level rank c u := by
  obtain ⟨l, mode, ht, h, hh, rfl, _⟩ := h
  rw [level_of_awaits ht]
  cases hu : (c.threads u).prog with
  | acquire l' mode' next =>
    have hau : c.Awaits u l' mode' := ⟨next, hu⟩
    rw [level_of_awaits hau]
    exact WithTop.coe_lt_coe.mpr (rank_lt_of_awaits hc hau h hh)
  | _ =>
    unfold level
    rw [hu]
    exact WithTop.coe_lt_top _

/-- **No cycle.** Along the threads that wait for each other the rank goes up. -/
theorem not_waitsFor_cycle [Preorder ρ] {c : Config T L S α} (hc : c.Ordered rank) (t : T) :
    ¬ Relation.TransGen c.WaitsFor t t := by
  intro h
  have hlt : Relation.TransGen (· < ·) (level rank c t) (level rank c t) :=
    h.lift _ fun _ _ hw => level_lt_of_waitsFor hc hw
  rw [Relation.transGen_eq_self] at hlt
  exact lt_irrefl _ hlt

end

/-! ## Steps -/

variable [DecidableEq T] [DecidableEq L]

inductive Step (t : T) : Config T L S α → Config T L S α → Prop
  | acquire {c l mode next} (poisoned : Bool) (hprog : (c.threads t).prog = .acquire l mode next)
      (hfree : c.Free l mode) :
      Step t c ⟨c.state, Function.update c.threads t ⟨(c.threads t).held ++ [(l, mode)], next poisoned⟩⟩
  | release {c l next} (hprog : (c.threads t).prog = .release l next) :
      Step t c ⟨c.state, Function.update c.threads t ⟨(c.threads t).held.eraseP (·.1 = l), next⟩⟩
  | act {c write next} (hprog : (c.threads t).prog = .act write next) :
      Step t c ⟨write c.state, Function.update c.threads t ⟨(c.threads t).held, next c.state⟩⟩

def CanStep (c : Config T L S α) (t : T) : Prop := ∃ c', Step t c c'

def Reachable : Config T L S α → Config T L S α → Prop := Relation.ReflTransGen fun c c' => ∃ t, Step t c c'

omit [DecidableEq T] in
theorem map_eraseP (l : L) : ∀ held : List (L × Mode),
    (held.eraseP (·.1 = l)).map (·.1) = (held.map (·.1)).erase l
  | [] => rfl
  | h :: held => by
    rw [List.eraseP_cons, List.map_cons, List.erase_cons]
    by_cases hl : h.1 = l
    · simp [hl]
    · simp [hl, map_eraseP l held]

section
variable {ρ : Type} {rank : L → ρ} {c c' : Config T L S α}

theorem Step.ordered [LT ρ] {t : T} (h : Step t c c') (hc : c.Ordered rank) : c'.Ordered rank := by
  have hother : ∀ {s : S} {x : Thread L S α}, x.prog.Ordered rank (fun _ held => held = []) (x.held.map (·.1)) →
      Config.Ordered rank ⟨s, Function.update c.threads t x⟩ := by
    intro s x hx u
    by_cases hu : u = t
    · subst hu
      simpa using hx
    · simpa [Function.update_of_ne hu] using hc u
  have ht := hc t
  cases h with
  | acquire poisoned hprog hfree =>
    rw [hprog] at ht
    apply hother
    rw [List.map_append]
    exact ht.2 poisoned
  | release hprog =>
    rw [hprog] at ht
    apply hother
    rw [map_eraseP]
    exact ht
  | act hprog =>
    rw [hprog] at ht
    exact hother (ht c.state)

theorem Reachable.ordered [LT ρ] (h : Reachable c c') (hc : c.Ordered rank) : c'.Ordered rank := by
  induction h with
  | refl => exact hc
  | tail _ hstep ih =>
    obtain ⟨t, ht⟩ := hstep
    exact ht.ordered ih

theorem canStep_of_not_awaits {t : T} (hun : ¬ c.Finished t) (h : ∀ l mode, ¬ c.Awaits t l mode) :
    c.CanStep t := by
  cases hprog : (c.threads t).prog with
  | done a => exact absurd ⟨a, hprog⟩ hun
  | acquire l mode next => exact absurd ⟨next, hprog⟩ (h l mode)
  | release l next => exact ⟨_, .release hprog⟩
  | act write next => exact ⟨_, .act hprog⟩

theorem canStep_of_free {t : T} {l : L} {mode : Mode} (h : c.Awaits t l mode) (hfree : c.Free l mode) :
    c.CanStep t := by
  obtain ⟨next, hprog⟩ := h
  exact ⟨_, .acquire false hprog hfree⟩

/-- **Progress.** While a thread is unfinished, one can go on, and none needs to overtake a waiting writer. -/
theorem exists_canStep [Finite T] [LinearOrder ρ] (hc : c.Ordered rank) (hun : ∃ t, ¬ c.Finished t) :
    ∃ t, ¬ c.Finished t ∧ c.CanStep t ∧ c.Yields t := by
  obtain ⟨t₀, ht₀⟩ := hun
  have : Nonempty { t // ¬ c.Finished t } := ⟨⟨t₀, ht₀⟩⟩
  obtain ⟨⟨t, ht⟩, hmax⟩ := Finite.exists_max fun t : { t // ¬ c.Finished t } => level rank c t.1
  -- whoever holds a lock that a thread of the highest level awaits would be of a higher one
  have hfree : ∀ u l mode, level rank c u = level rank c t → c.Awaits u l mode → c.Free l mode := by
    intro u l mode hu ha
    by_contra hfree
    obtain ⟨v, hv⟩ := waitsFor_of_not_free ha hfree
    have hlt := level_lt_of_waitsFor hc hv
    obtain ⟨_, _, _, h, hh, _⟩ := hv
    exact absurd (hmax ⟨v, not_finished_of_held hc hh⟩) (not_le.mpr (hu ▸ hlt))
  by_cases hawaits : ∃ l mode, c.Awaits t l mode
  · obtain ⟨l, mode, ha⟩ := hawaits
    by_cases hwriter : ∃ u, c.Awaits u l .exclusive
    · obtain ⟨u, hu⟩ := hwriter
      have hlevel : level rank c u = level rank c t := (level_of_awaits hu).trans (level_of_awaits ha).symm
      refine ⟨u, hu.not_finished, canStep_of_free hu (hfree u l _ hlevel hu), ?_⟩
      intro l' hshared
      cases (hu.unique hshared).2
    · refine ⟨t, ht, canStep_of_free ha (hfree t l mode rfl ha), ?_⟩
      intro l' hshared u hu
      obtain rfl := (ha.unique hshared).1
      exact hwriter ⟨u, hu⟩
  · push Not at hawaits
    exact ⟨t, ht, canStep_of_not_awaits ht hawaits, fun l hl => absurd hl (hawaits l _)⟩

end

end Config

end Lib.Locks
