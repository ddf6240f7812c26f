import LdkController.Loop
import LdkController.Walk
import Mathlib.Data.List.Lattice
import Mathlib.Data.List.Perm.Lattice
import Mathlib.Order.Lattice

/-!
# Best-first search with a hop limit

A queue holds walks from a source. The least one is taken out; if it ends at the
target it has arrived, else it settles the node it ends at, unless the node is
settled, and is prolonged by the hops that lead to nodes not settled yet. Walks
of more hops than the limit are dropped. What arrives are different simple walks
in the order of their weights.
-/

namespace Lib

/-! ## Taking the least element out -/

section
variable {α κ : Type} [LinearOrder κ] (key : α → κ)

def popMin : List α → Option (α × List α)
  | [] => none
  | x :: xs =>
    match popMin xs with
    | none => some (x, xs)
    | some (y, ys) => if key x ≤ key y then some (x, xs) else some (y, x :: ys)

theorem popMin_eq_none : ∀ {l : List α}, popMin key l = none → l = []
  | [], _ => rfl
  | x :: xs, h => by
    unfold popMin at h
    split at h
    · cases h
    · split at h <;> cases h

theorem popMin_spec : ∀ {l : List α} {x : α} {rest : List α}, popMin key l = some (x, rest) →
    l.Perm (x :: rest) ∧ ∀ y ∈ l, key x ≤ key y
  | [], _, _, h => by cases h
  | z :: zs, x, rest, h => by
    unfold popMin at h
    cases hp : popMin key zs with
    | none =>
      rw [hp] at h
      obtain ⟨rfl, rfl⟩ := Prod.mk.inj (Option.some.inj h)
      obtain rfl := popMin_eq_none key hp
      exact ⟨.refl _, fun y hy => (List.mem_singleton.mp hy) ▸ le_refl _⟩
    | some e =>
      obtain ⟨y, ys⟩ := e
      obtain ⟨hperm, hmin⟩ := popMin_spec hp
      rw [hp] at h
      by_cases hle : key z ≤ key y
      · simp only [if_pos hle] at h
        obtain ⟨rfl, rfl⟩ := Prod.mk.inj (Option.some.inj h)
        refine ⟨.refl _, fun u hu => ?_⟩
        rcases List.mem_cons.mp hu with rfl | hu
        · exact le_refl _
        · exact hle.trans (hmin u hu)
      · simp only [if_neg hle] at h
        obtain ⟨rfl, rfl⟩ := Prod.mk.inj (Option.some.inj h)
        refine ⟨(List.Perm.cons z hperm).trans (.swap y z ys), fun u hu => ?_⟩
        rcases List.mem_cons.mp hu with rfl | hu
        · exact (not_le.mp hle).le
        · exact hmin u hu

theorem popMin_map {β : Type} (f : β → α) (l : List β) :
    popMin key (l.map f) = (popMin (fun b => key (f b)) l).map fun e => (f e.1, e.2.map f) := by
  induction l with
  | nil => rfl
  | cons x xs ih =>
    simp only [List.map_cons, popMin, ih]
    cases popMin (fun b => key (f b)) xs with
    | none => rfl
    | some e =>
      simp only [Option.map_some]
      by_cases hle : key (f x) ≤ key (f e.1)
      · rw [if_pos hle, if_pos hle]; rfl
      · rw [if_neg hle, if_neg hle]; rfl

end

namespace BestFirst

structure Problem (α η κ : Type) where
  tgt : η → α
  w : η → Nat
  out : α → List η
  key : List η → κ
  source : α
  target : α
  hopLimit : Nat

structure State (η : Type) where
  heap : List (List η)
  settled : List (List η)
  arrived : List (List η)

section
variable {α η κ : Type} (P : Problem α η κ)

def dest (p : List η) : α := endOf P.tgt P.source p

def ends (settled : List (List η)) : List α := settled.map (dest P)

def children [DecidableEq α] (closed : List α) (p : List η) : List (List η) :=
  ((P.out (dest P p)).filter fun h => P.tgt h ∉ closed).map fun h => p ++ [h]

def init : State η := ⟨[[]], [], []⟩

def body [DecidableEq α] [LinearOrder κ] (maxFound : Nat) (s : State η) : Iter (State η) (List (List η)) :=
  match popMin P.key s.heap with
  | none => .done s.arrived
  | some (p, heap) =>
    if maxFound ≤ s.arrived.length then .done s.arrived
    else if P.hopLimit < p.length then .step { s with heap }
    else if dest P p = P.target then .step { s with heap, arrived := s.arrived ++ [p] }
    else if dest P p ∈ ends P s.settled then .step { s with heap }
    else .step { s with
      heap := heap ++ children P (ends P (p :: s.settled)) p, settled := p :: s.settled }

/-! ## What is queued, settled and arrived -/

/-- The queued walks are hops away from settled ones, to nodes they do not visit. -/
def Grown (settled : List (List η)) (p : List η) : Prop :=
  p = [] ∨ ∃ q ∈ settled, ∃ h ∈ P.out (dest P q), P.tgt h ∉ nodes P.tgt P.source q ∧ q ++ [h] = p

/-- A simple walk within the limit that does not end at the target, and whose parts are settled. -/
structure Settled (settled : List (List η)) (p : List η) : Prop where
  walk : IsWalk P.tgt (fun a h => h ∈ P.out a) P.source p
  simple : (nodes P.tgt P.source p).Nodup
  length_le : p.length ≤ P.hopLimit
  dest_ne : dest P p ≠ P.target
  parts : ∀ q, q <+: p → q ∈ settled

structure Sound (s : State η) : Prop where
  settled : ∀ p ∈ s.settled, Settled P s.settled p
  heap : ∀ p ∈ s.heap, Grown P s.settled p
  arrived : ∀ p ∈ s.arrived, Grown P s.settled p ∧ p.length ≤ P.hopLimit ∧ dest P p = P.target
  distinct : (s.heap ++ s.arrived).Nodup
  order : ∀ p ∈ s.arrived, ∀ q ∈ s.heap, weight P.w p ≤ weight P.w q
  sorted : s.arrived.Pairwise fun p q => weight P.w p ≤ weight P.w q

variable {P}

@[simp] theorem dest_snoc (p : List η) (h : η) : dest P (p ++ [h]) = P.tgt h := endOf_append _ _ _ _

theorem Grown.mono {S T : List (List η)} (h : ∀ q ∈ S, q ∈ T) {p : List η} (hp : Grown P S p) : Grown P T p := by
  rcases hp with rfl | ⟨q, hq, hop, hout, hnew, rfl⟩
  · exact .inl rfl
  · exact .inr ⟨q, h q hq, hop, hout, hnew, rfl⟩

theorem Settled.mono {S T : List (List η)} (h : ∀ q ∈ S, q ∈ T) {p : List η} (hp : Settled P S p) : Settled P T p :=
  { hp with parts := fun q hq => h q (hp.parts q hq) }

theorem Settled.nodes_subset {S : List (List η)} {p : List η} (hp : Settled P S p) :
    ∀ n ∈ nodes P.tgt P.source p, n ∈ ends P S := by
  intro n hn
  obtain ⟨q, r, rfl, rfl⟩ := exists_prefix_of_mem_nodes P.tgt hn
  exact List.mem_map.mpr ⟨q, hp.parts q (List.prefix_append q r), rfl⟩

section
variable {s : State η} (hs : Sound P s)
include hs

theorem Sound.target_not_mem : P.target ∉ ends P s.settled := by
  intro hmem
  obtain ⟨p, hp, hd⟩ := List.mem_map.mp hmem
  exact (hs.settled p hp).dest_ne hd

theorem Sound.walk_of_grown {p : List η} (hp : Grown P s.settled p) :
    IsWalk P.tgt (fun a h => h ∈ P.out a) P.source p ∧ (nodes P.tgt P.source p).Nodup := by
  rcases hp with rfl | ⟨q, hq, h, hout, hnew, rfl⟩
  · exact ⟨trivial, List.nodup_singleton _⟩
  · have hq := hs.settled q hq
    refine ⟨isWalk_snoc.mpr ⟨hq.walk, hout⟩, ?_⟩
    rw [nodes_snoc]
    exact hq.simple.append (List.nodup_singleton _) (by simpa using hnew)

theorem Sound.settled_cons {p : List η} (hp : Grown P s.settled p) (hlen : p.length ≤ P.hopLimit)
    (hd : dest P p ≠ P.target) : ∀ q ∈ p :: s.settled, Settled P (p :: s.settled) q := by
  intro q hq
  have hsub : ∀ r ∈ s.settled, r ∈ p :: s.settled := fun r hr => List.mem_cons_of_mem p hr
  rcases List.mem_cons.mp hq with rfl | hq
  · obtain ⟨hwalk, hsimple⟩ := hs.walk_of_grown hp
    refine ⟨hwalk, hsimple, hlen, hd, fun r hr => ?_⟩
    rcases hp with rfl | ⟨q', hq', h, _, _, rfl⟩
    · rw [List.prefix_nil.mp hr]
      exact List.mem_cons_self
    · rcases List.prefix_concat_iff.mp hr with rfl | hr
      · exact List.mem_cons_self
      · exact List.mem_cons_of_mem _ ((hs.settled q' hq').parts r hr)
  · exact (hs.settled q hq).mono hsub

end

end

/-! ## What a step does -/

section
variable {α η κ : Type} [LinearOrder κ] (P : Problem α η κ)

/-- The least walk `p` is taken out of the queue, `rest` stays. -/
structure Popped (s : State η) (p : List η) (rest : List (List η)) : Prop where
  perm : s.heap.Perm (p :: rest)
  least : ∀ q ∈ s.heap, P.key p ≤ P.key q

inductive Move [DecidableEq α] (maxFound : Nat) (s : State η) : State η → Prop
  | drop {p rest} (hp : Popped P s p rest)
      (h : P.hopLimit < p.length ∨ dest P p ≠ P.target ∧ dest P p ∈ ends P s.settled) :
      Move maxFound s { s with heap := rest }
  | arrive {p rest} (hp : Popped P s p rest) (hroom : s.arrived.length < maxFound) (hlen : p.length ≤ P.hopLimit)
      (hd : dest P p = P.target) : Move maxFound s { s with heap := rest, arrived := s.arrived ++ [p] }
  | settle {p rest} (hp : Popped P s p rest) (hlen : p.length ≤ P.hopLimit) (hd : dest P p ≠ P.target)
      (hnew : dest P p ∉ ends P s.settled) :
      Move maxFound s { s with heap := rest ++ children P (ends P (p :: s.settled)) p, settled := p :: s.settled }

variable {P}

theorem Popped.mem_heap {s : State η} {p : List η} {rest : List (List η)} (h : Popped P s p rest) : p ∈ s.heap :=
  h.perm.mem_iff.mpr List.mem_cons_self

theorem Popped.mem_of_rest {s : State η} {p q : List η} {rest : List (List η)} (h : Popped P s p rest)
    (hq : q ∈ rest) : q ∈ s.heap :=
  h.perm.mem_iff.mpr (List.mem_cons_of_mem p hq)

theorem Popped.mem_cases {s : State η} {p q : List η} {rest : List (List η)} (h : Popped P s p rest)
    (hq : q ∈ s.heap) : q = p ∨ q ∈ rest :=
  List.mem_cons.mp (h.perm.mem_iff.mp hq)

theorem popped_of_popMin {s : State η} {p : List η} {rest : List (List η)}
    (h : popMin P.key s.heap = some (p, rest)) : Popped P s p rest :=
  ⟨(popMin_spec P.key h).1, (popMin_spec P.key h).2⟩

variable [DecidableEq α]

variable (P) in
inductive Round (n : Nat) (s : State η) : Iter (State η) (List (List η)) → Prop
  | finish (h : popMin P.key s.heap = none ∨ n ≤ s.arrived.length) : Round n s (.done s.arrived)
  | drop {p rest} (hp : popMin P.key s.heap = some (p, rest)) (hroom : s.arrived.length < n)
      (h : P.hopLimit < p.length ∨ dest P p ≠ P.target ∧ dest P p ∈ ends P s.settled) :
      Round n s (.step { s with heap := rest })
  | arrive {p rest} (hp : popMin P.key s.heap = some (p, rest)) (hroom : s.arrived.length < n)
      (hlen : p.length ≤ P.hopLimit) (hd : dest P p = P.target) :
      Round n s (.step { s with heap := rest, arrived := s.arrived ++ [p] })
  | settle {p rest} (hp : popMin P.key s.heap = some (p, rest)) (hroom : s.arrived.length < n)
      (hlen : p.length ≤ P.hopLimit) (hd : dest P p ≠ P.target) (hnew : dest P p ∉ ends P s.settled) :
      Round n s (.step { s with
        heap := rest ++ children P (ends P (p :: s.settled)) p, settled := p :: s.settled })

/-- The only place where the tests of a round are taken apart. -/
theorem round_body (n : Nat) (s : State η) : Round P n s (body P n s) := by
  unfold body
  cases hp : popMin P.key s.heap with
  | none => exact .finish (.inl hp)
  | some e =>
    obtain ⟨p, rest⟩ := e
    dsimp only
    split_ifs with hfull hlong hd hmem
    · exact .finish (.inr hfull)
    · exact .drop hp (not_le.mp hfull) (.inl hlong)
    · exact .arrive hp (not_le.mp hfull) (not_lt.mp hlong) hd
    · exact .drop hp (not_le.mp hfull) (.inr ⟨hd, hmem⟩)
    · exact .settle hp (not_le.mp hfull) (not_lt.mp hlong) hd hmem

theorem Round.of_eq {n : Nat} {s : State η} {r : Iter (State η) (List (List η))} (h : body P n s = r) :
    Round P n s r :=
  h ▸ round_body n s

theorem move_of_step {n : Nat} {s s' : State η} (h : body P n s = .step s') : Move P n s s' := by
  cases Round.of_eq h with
  | drop hp _ hdrop => exact .drop (popped_of_popMin hp) hdrop
  | arrive hp hroom hlen hd => exact .arrive (popped_of_popMin hp) hroom hlen hd
  | settle hp _ hlen hd hnew => exact .settle (popped_of_popMin hp) hlen hd hnew

theorem of_done {n : Nat} {s : State η} {r : List (List η)} (h : body P n s = .done r) :
    r = s.arrived ∧ (s.heap = [] ∨ n ≤ s.arrived.length) := by
  cases Round.of_eq h with
  | finish hover => exact ⟨rfl, hover.imp_left (popMin_eq_none P.key)⟩

end

section
variable {α η κ : Type} [DecidableEq α] {P : Problem α η κ}

theorem mem_children {closed : List α} {p q : List η} :
    q ∈ children P closed p ↔ ∃ h ∈ P.out (dest P p), P.tgt h ∉ closed ∧ p ++ [h] = q := by
  simp only [children, List.mem_map, List.mem_filter, decide_eq_true_eq, and_assoc]

theorem grown_children {settled : List (List η)} {p : List η} (hp : Settled P (p :: settled) p) :
    ∀ q ∈ children P (ends P (p :: settled)) p, Grown P (p :: settled) q := by
  intro q hq
  obtain ⟨h, hout, hnew, rfl⟩ := mem_children.mp hq
  exact .inr ⟨p, List.mem_cons_self, h, hout, fun hn => hnew (hp.nodes_subset _ hn), rfl⟩

/-- Different hops away from a node give different walks; a node may have equal hops to itself. -/
theorem nodup_children {closed : List α} {p : List η}
    (hout : (P.out (dest P p)).Pairwise fun g h => g = h → P.tgt g = dest P p) (hclosed : dest P p ∈ closed) :
    (children P closed p).Nodup := by
  unfold children
  refine List.Nodup.map (fun g h e => List.singleton_injective (List.append_cancel_left e)) ?_
  refine List.Pairwise.imp_of_mem ?_ (hout.filter _)
  intro g h hg _ hne heq
  rw [List.mem_filter, decide_eq_true_eq] at hg
  exact hg.2 (hne heq ▸ hclosed)

end

/-! ## Soundness -/

section
variable {α η κ : Type} {P : Problem α η κ}

theorem Sound.init : Sound P (BestFirst.init : State η) where
  settled := fun _ h => by cases h
  heap := fun _ h => .inl (List.mem_singleton.mp h)
  arrived := fun _ h => by cases h
  distinct := List.nodup_singleton _
  order := fun _ h => by cases h
  sorted := .nil

variable [LinearOrder κ]

theorem Sound.distinct_popped {s : State η} (hs : Sound P s) {p : List η} {rest : List (List η)}
    (hp : Popped P s p rest) : p ∉ rest ++ s.arrived ∧ (rest ++ s.arrived).Nodup := by
  have h := (hp.perm.append_right s.arrived).nodup_iff.mp hs.distinct
  rw [List.cons_append] at h
  exact List.nodup_cons.mp h

variable (hkey : ∀ p q, P.key p ≤ P.key q → weight P.w p ≤ weight P.w q)

include hkey in
theorem Sound.arrive {s : State η} (hs : Sound P s) {p : List η} {rest : List (List η)} (hp : Popped P s p rest)
    (hlen : p.length ≤ P.hopLimit) (hd : dest P p = P.target) :
    Sound P { s with heap := rest, arrived := s.arrived ++ [p] } := by
  obtain ⟨hnew, hnodup⟩ := hs.distinct_popped hp
  refine ⟨hs.settled, fun q hq => hs.heap q (hp.mem_of_rest hq), ?_, ?_, ?_, ?_⟩
  · intro q hq
    rcases List.mem_append.mp hq with hq | hq
    · exact hs.arrived q hq
    · obtain rfl := List.mem_singleton.mp hq
      exact ⟨hs.heap q hp.mem_heap, hlen, hd⟩
  · show (rest ++ (s.arrived ++ [p])).Nodup
    rw [← List.append_assoc]
    exact hnodup.append (List.nodup_singleton _) (by simpa using hnew)
  · intro q hq r hr
    rcases List.mem_append.mp hq with hq | hq
    · exact hs.order q hq r (hp.mem_of_rest hr)
    · obtain rfl := List.mem_singleton.mp hq
      exact hkey _ _ (hp.least r (hp.mem_of_rest hr))
  · refine List.pairwise_append.mpr ⟨hs.sorted, List.pairwise_singleton _ _, fun q hq r hr => ?_⟩
    obtain rfl := List.mem_singleton.mp hr
    exact hs.order q hq r hp.mem_heap

variable [DecidableEq α] (hout : ∀ a, (P.out a).Pairwise fun g h => g = h → P.tgt g = a)

include hout in
theorem Sound.distinct_settle {s : State η} (hs : Sound P s) {p : List η} {rest : List (List η)}
    (hp : Popped P s p rest) (hnew : dest P p ∉ ends P s.settled) :
    (rest ++ children P (ends P (p :: s.settled)) p ++ s.arrived).Nodup := by
  have hperm : (rest ++ children P (ends P (p :: s.settled)) p ++ s.arrived).Perm
      (children P (ends P (p :: s.settled)) p ++ (rest ++ s.arrived)) := by
    rw [← List.append_assoc]
    exact List.perm_append_comm.append_right s.arrived
  refine hperm.nodup_iff.mpr ?_
  refine (nodup_children (hout _) List.mem_cons_self).append (hs.distinct_popped hp).2 ?_
  -- a walk of the old state is not a hop away from `p`, which was not settled
  intro q hq hold
  obtain ⟨h, _, _, rfl⟩ := mem_children.mp hq
  have hgrown : Grown P s.settled (p ++ [h]) := by
    rcases List.mem_append.mp hold with hold | hold
    · exact hs.heap _ (hp.mem_of_rest hold)
    · exact (hs.arrived _ hold).1
  rcases hgrown with hnil | ⟨r, hr, h', _, _, heq⟩
  · exact absurd hnil (by simp)
  · obtain ⟨rfl, _⟩ := List.append_inj' heq rfl
    exact hnew (List.mem_map.mpr ⟨r, hr, rfl⟩)

include hout in
theorem Sound.settle {s : State η} (hs : Sound P s) {p : List η} {rest : List (List η)} (hp : Popped P s p rest)
    (hlen : p.length ≤ P.hopLimit) (hd : dest P p ≠ P.target) (hnew : dest P p ∉ ends P s.settled) :
    Sound P { s with
      heap := rest ++ children P (ends P (p :: s.settled)) p, settled := p :: s.settled } := by
  have hsettled := hs.settled_cons (hs.heap p hp.mem_heap) hlen hd
  have hsub : ∀ r ∈ s.settled, r ∈ p :: s.settled := fun r hr => List.mem_cons_of_mem p hr
  refine ⟨hsettled, ?_, ?_, hs.distinct_settle hout hp hnew, ?_, hs.sorted⟩
  · intro q hq
    rcases List.mem_append.mp hq with hq | hq
    · exact (hs.heap q (hp.mem_of_rest hq)).mono hsub
    · exact grown_children (hsettled p List.mem_cons_self) q hq
  · intro q hq
    obtain ⟨hg, hrest⟩ := hs.arrived q hq
    exact ⟨hg.mono hsub, hrest⟩
  · intro q hq r hr
    rcases List.mem_append.mp hr with hr | hr
    · exact hs.order q hq r (hp.mem_of_rest hr)
    · obtain ⟨h, _, _, rfl⟩ := mem_children.mp hr
      have hle := hs.order q hq p hp.mem_heap
      rw [weight_append]
      omega

include hkey hout in
theorem Sound.move {n : Nat} {s s' : State η} (hs : Sound P s) (h : Move P n s s') : Sound P s' := by
  cases h with
  | drop hp _ =>
    exact ⟨hs.settled, fun q hq => hs.heap q (hp.mem_of_rest hq), hs.arrived, (hs.distinct_popped hp).2,
      fun q hq r hr => hs.order q hq r (hp.mem_of_rest hr), hs.sorted⟩
  | arrive hp _ hlen hd => exact hs.arrive hkey hp hlen hd
  | settle hp hlen hd hnew => exact hs.settle hout hp hlen hd hnew

include hkey hout in
theorem sound_of_reaches {n : Nat} {s : State η} (h : Reaches (body P n) init s) : Sound P s :=
  h.inv (fun _ _ hs hb => hs.move hkey hout (move_of_step hb)) Sound.init

end

theorem length_arrived_le {α η κ : Type} [DecidableEq α] [LinearOrder κ] {P : Problem α η κ} {n : Nat} {s : State η}
    (h : Reaches (body P n) init s) : s.arrived.length ≤ n := by
  refine h.inv (P := fun t => t.arrived.length ≤ n) (fun t t' ht hb => ?_) (Nat.zero_le n)
  cases move_of_step hb with
  | drop => exact ht
  | arrive _ hroom =>
    show (t.arrived ++ [_]).length ≤ n
    rw [List.length_append]
    exact hroom
  | settle => exact ht

/-! ## The search ends -/

section
variable {α : Type} [DecidableEq α] (degree : α → Nat)

def remaining (sites closed : List α) : Nat := ((sites.filter fun a => a ∉ closed).map degree).sum

theorem remaining_cons_le (sites closed : List α) (a : α) :
    remaining degree sites (a :: closed) ≤ remaining degree sites closed := by
  unfold remaining
  induction sites with
  | nil => exact le_refl _
  | cons x xs ih =>
    by_cases hx : x ∈ closed
    · simpa [hx] using ih
    · by_cases hxa : x = a
      · subst hxa
        simp [hx] at ih ⊢
        omega
      · simpa [hx, hxa] using ih

theorem remaining_close {sites closed : List α} {a : α} (ha : a ∉ closed) (hsite : a ∈ sites ∨ degree a = 0) :
    degree a + remaining degree sites (a :: closed) ≤ remaining degree sites closed := by
  induction sites with
  | nil =>
    rcases hsite with h | h
    · cases h
    · rw [h, Nat.zero_add]
      exact remaining_cons_le degree [] closed a
  | cons x xs ih =>
    by_cases hxa : x = a
    · subst hxa
      have hle := remaining_cons_le degree xs closed x
      simp only [remaining, List.filter_cons, ha, List.mem_cons, true_or, not_true_eq_false, not_false_eq_true,
        decide_false, decide_true, Bool.false_eq_true, if_false, if_true, List.map_cons, List.sum_cons] at hle ⊢
      omega
    · have hrest := ih (hsite.imp_left fun h => (List.mem_cons.mp h).resolve_left (Ne.symm hxa))
      by_cases hx : x ∈ closed
      · simpa [remaining, hx] using hrest
      · simp [remaining, hx, hxa] at hrest ⊢
        omega

end

section
variable {α η κ : Type} [DecidableEq α] [LinearOrder κ] {P : Problem α η κ} {sites : List α}
  (hsites : ∀ a, a ∈ sites ∨ P.out a = [])
include hsites

variable (P sites) in
omit [LinearOrder κ] hsites in
def work (s : State η) : Nat :=
  s.heap.length + remaining (fun a => (P.out a).length) sites (ends P s.settled)

theorem Move.work_lt {n : Nat} {s s' : State η} (h : Move P n s s') :
    work P sites s' + s'.arrived.length < work P sites s + s.arrived.length + 1 ∧ work P sites s' < work P sites s := by
  unfold work
  cases h with
  | drop hp =>
    have := hp.perm.length_eq
    simp only [List.length_cons] at this ⊢
    omega
  | arrive hp =>
    have := hp.perm.length_eq
    simp only [List.length_cons, List.length_append, List.length_nil] at this ⊢
    omega
  | @settle p rest hp _ _ hnew =>
    have hlen := hp.perm.length_eq
    have hrem := remaining_close (fun a => (P.out a).length) hnew ((hsites _).imp_right (congrArg List.length))
    have hchildren : (children P (ends P (p :: s.settled)) p).length ≤ (P.out (dest P p)).length := by
      unfold children
      rw [List.length_map]
      exact List.length_filter_le _ _
    simp only [ends, List.map_cons, List.length_cons, List.length_append] at hlen hrem hchildren ⊢
    omega

/-- With room for all that can arrive, the search ends with an empty queue. -/
theorem exists_exhausted : ∃ n s, Reaches (body P n) init s ∧ s.heap = [] := by
  have hdec : ∀ s s', body P (work P sites init + 1) s = .step s' → work P sites s' < work P sites s :=
    fun _ _ hb => ((move_of_step hb).work_lt hsites).2
  obtain ⟨r, hr⟩ := Option.isSome_iff_exists.mp (isSome_loop hdec (Nat.lt_succ_self (work P sites init)))
  obtain ⟨s, hs, hdone⟩ := exists_reaches_of_loop hr
  refine ⟨_, s, hs, (of_done hdone).2.resolve_right ?_⟩
  have hbound : work P sites s + s.arrived.length ≤ work P sites init :=
    hs.inv (P := fun t => work P sites t + t.arrived.length ≤ work P sites init)
      (fun t t' ht hb => by have := ((move_of_step hb).work_lt hsites).1; omega) (le_refl _)
  omega

end

end BestFirst

end Lib
