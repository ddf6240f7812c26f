import LdkController.BestFirst
import Mathlib.Data.Set.Finite.Lemmas

/-!
# What a best-first search keeps

The search settles a node by one walk. Of the walks to it whose parts it has
settled it keeps the one that is out of the queue first, and whatever would have
gone on from the others is never queued. This rule determines what is kept, and
the search finds a cheapest walk exactly if all parts of one are kept.
-/

namespace Lib

namespace BestFirst

section
variable {α η κ : Type} (P : Problem α η κ)

/-- A walk within the limit, all parts of which are kept. -/
structure Candidate (K : List η → Prop) (q : List η) : Prop where
  walk : IsWalk P.tgt (fun a h => h ∈ P.out a) P.source q
  length_le : q.length ≤ P.hopLimit
  parts : ∀ r, r <+: q → r ≠ q → K r

variable {P}

theorem Candidate.avoids {K : List η → Prop} (hK : ∀ p, K p → dest P p ≠ P.target) {q : List η}
    (hq : Candidate P K q) (hd : dest P q ≠ P.target) : P.target ∉ nodes P.tgt P.source q := by
  intro hmem
  obtain ⟨r, r', rfl, he⟩ := exists_prefix_of_mem_nodes P.tgt hmem
  by_cases hr : r = r ++ r'
  · exact hd (hr ▸ he)
  · exact hK r (hq.parts r (List.prefix_append r r') hr) he

end

/-! ## First come, first served -/

section
variable {α η κ : Type} [LinearOrder κ] (P : Problem α η κ)

/-- What comes of `p` after the two have parted is below something of `q` there. -/
def Before (p q : List η) : Prop :=
  ∀ p', p' <+: p → ¬ p' <+: q → ∃ q', q' <+: q ∧ ¬ q' <+: p ∧ P.key p' ≤ P.key q'

structure FirstCome (K : List η → Prop) : Prop where
  candidate : ∀ p, K p → Candidate P K p ∧ dest P p ≠ P.target
  served : ∀ q, Candidate P K q → dest P q ≠ P.target → ∃ p, K p ∧ dest P p = dest P q
  first : ∀ p q, K p → Candidate P K q → dest P q = dest P p → Before P p q

/-- `p` is out of the queue before `V` can be. -/
def Passed (p V : List η) : Prop := p <+: V ∨ ∃ e, e <+: V ∧ ¬ e <+: p ∧ P.key p ≤ P.key e

variable {P}

theorem before_of_passed {p V : List η} (h : ∀ p', p' <+: p → Passed P p' V) : Before P p V := by
  intro p' hp' hnot
  rcases h p' hp' with hV | ⟨e, heV, hep', hle⟩
  · exact absurd hV hnot
  · refine ⟨e, heV, fun hep => ?_, hle⟩
    rcases List.prefix_or_prefix_of_prefix hep hp' with h' | h'
    · exact hep' h'
    · exact hnot (h'.trans heV)

section
variable (hinj : Function.Injective P.key)
include hinj

theorem prefix_of_before {p q : List η} (hpq : Before P p q) (hqp : Before P q p) : p <+: q := by
  by_contra hnot
  have hfin : {p' | p' <+: p ∧ ¬ p' <+: q}.Finite :=
    (List.finite_toSet p.inits).subset fun r hr => (List.mem_inits r p).mpr hr.1
  -- the dearest part of `p` after the parting is dearer than itself
  obtain ⟨m, ⟨hm, hmq⟩, hmax⟩ := Set.exists_max_image _ P.key hfin ⟨p, List.prefix_refl p, hnot⟩
  obtain ⟨q', hq', hq'p, hle⟩ := hpq m hm hmq
  obtain ⟨p', hp', hp'q, hle'⟩ := hqp q' hq' hq'p
  have heq : q' = m := hinj ((hle'.trans (hmax p' ⟨hp', hp'q⟩)).antisymm hle)
  exact hq'p (heq ▸ hm)

theorem Before.antisymm {p q : List η} (hpq : Before P p q) (hqp : Before P q p) : p = q :=
  (prefix_of_before hinj hpq hqp).eq_of_length_le (prefix_of_before hinj hqp hpq).length_le

theorem FirstCome.unique {K : List η → Prop} (hK : FirstCome P K) {p q : List η} (hp : K p) (hq : K q)
    (h : dest P q = dest P p) : p = q :=
  (hK.first p q hp (hK.candidate q hq).1 h).antisymm hinj (hK.first q p hq (hK.candidate p hp).1 h.symm)

end

end

/-! ## The order in which walks are settled -/

section
variable {α η κ : Type} [LinearOrder κ] (P : Problem α η κ)

/-- A walk that can still be gone along once its parts are settled. -/
structure Open (settled : List (List η)) (V : List η) : Prop where
  walk : IsWalk P.tgt (fun a h => h ∈ P.out a) P.source V
  length_le : V.length ≤ P.hopLimit
  avoids : P.target ∉ nodes P.tgt P.source V
  parts : ∀ r, r <+: V → r ≠ V → r ∈ settled ∨ dest P r ∉ ends P settled

structure Progress (s : State η) : Prop where
  started : s.settled = [] ∧ s.heap = [[]] ∨ [] ∈ s.settled
  closed : ∀ p ∈ s.settled, ∀ h ∈ P.out (dest P p), P.tgt h ∈ ends P s.settled ∨ p ++ [h] ∈ s.heap ∨
    P.hopLimit ≤ p.length ∨ P.tgt h = P.target ∧ p ++ [h] ∈ s.arrived
  ordered : ∀ p ∈ s.settled, ∀ V, Open P s.settled V → dest P V ∉ ends P s.settled → Passed P p V
  first : ∀ p ∈ s.settled, ∀ V, Open P s.settled V → dest P V = dest P p → Before P p V

variable {P}

omit [LinearOrder κ] in
theorem mem_ends {settled : List (List η)} {p : List η} (h : p ∈ settled) : dest P p ∈ ends P settled :=
  List.mem_map.mpr ⟨p, h, rfl⟩

omit [LinearOrder κ] in
theorem Open.of_cons {settled : List (List η)} {p V : List η} (h : Open P (p :: settled) V)
    (hnew : dest P p ∉ ends P settled) : Open P settled V := by
  refine { h with parts := fun r hr hne => ?_ }
  rcases h.parts r hr hne with hmem | hmem
  · rcases List.mem_cons.mp hmem with rfl | hmem
    · exact .inr hnew
    · exact .inl hmem
  · exact .inr fun h' => hmem (List.mem_cons_of_mem _ h')

theorem exists_first_unsettled {S : List (List η)} (hnil : [] ∈ S) {V : List η} (hV : V ∉ S) :
    ∃ q h r, V = q ++ h :: r ∧ q ∈ S ∧ q ++ [h] ∉ S := by
  induction V using List.reverseRecOn with
  | nil => exact absurd hnil hV
  | append_singleton V h ih =>
    by_cases hmem : V ∈ S
    · exact ⟨V, h, [], rfl, hmem, hV⟩
    · obtain ⟨q, g, r, rfl, hq, hg⟩ := ih hmem
      exact ⟨q, g, r ++ [h], by simp, hq, hg⟩

theorem exists_frontier {s : State η} (hp : Progress P s) {V : List η} (hV : Open P s.settled V)
    (hd : dest P V ∉ ends P s.settled) : ∃ e ∈ s.heap, e <+: V ∧ e ∉ s.settled := by
  rcases hp.started with ⟨hnil, hheap⟩ | hstart
  · refine ⟨[], by rw [hheap]; exact List.mem_cons_self, List.nil_prefix, ?_⟩
    rw [hnil]
    exact List.not_mem_nil
  · obtain ⟨q, h, r, rfl, hq, hnew⟩ := exists_first_unsettled hstart fun hmem => hd (mem_ends hmem)
    have hpre : q ++ [h] <+: q ++ h :: r := ⟨r, by simp⟩
    have hdest : P.tgt h ∉ ends P s.settled := by
      rw [← dest_snoc q h]
      by_cases hr : q ++ [h] = q ++ h :: r
      · rw [hr]; exact hd
      · exact (hV.parts _ hpre hr).resolve_left hnew
    rcases hp.closed q hq h (isWalk_append.mp hV.walk).2.1 with hmem | hmem | hlong | ⟨htgt, _⟩
    · exact absurd hmem hdest
    · exact ⟨q ++ [h], hmem, hpre, hnew⟩
    · have hlen := hV.length_le
      rw [List.length_append, List.length_cons] at hlen
      omega
    · refine absurd (nodes_mono P.tgt P.source hpre _ (endOf_mem_nodes P.tgt _ P.source)) ?_
      have : endOf P.tgt P.source (q ++ [h]) = P.target := (dest_snoc q h).trans htgt
      rw [this]
      exact hV.avoids

theorem passed_popped {s : State η} {p : List η} {rest : List (List η)} (hs : Progress P s) (hp : Popped P s p rest)
    (hparts : ∀ r, r <+: p → r ∈ p :: s.settled) {V : List η} (hV : Open P s.settled V)
    (hd : dest P V ∉ ends P s.settled) : ∀ p', p' <+: p → Passed P p' V := by
  intro p' hp'
  rcases List.mem_cons.mp (hparts p' hp') with rfl | hmem
  · obtain ⟨e, he, heV, hnew⟩ := exists_frontier hs hV hd
    by_cases hep : e <+: p'
    · rcases List.mem_cons.mp (hparts e hep) with rfl | hmem
      · exact .inl heV
      · exact absurd hmem hnew
    · exact .inr ⟨e, heV, hep, hp.least e he⟩
  · exact hs.ordered p' hmem V hV hd

end

/-! ## One step -/

section
variable {α η κ : Type} [LinearOrder κ] {P : Problem α η κ} {s : State η} {p : List η} {rest : List (List η)}

theorem Progress.init : Progress P (BestFirst.init : State η) where
  started := .inl ⟨rfl, rfl⟩
  closed := fun _ h => by cases h
  ordered := fun _ h => by cases h
  first := fun _ h => by cases h

theorem Progress.drop (h : Progress P s) (hp : Popped P s p rest)
    (hdrop : P.hopLimit < p.length ∨ dest P p ≠ P.target ∧ dest P p ∈ ends P s.settled) :
    Progress P { s with heap := rest } := by
  refine ⟨?_, ?_, h.ordered, h.first⟩
  · rcases h.started with ⟨hnil, hheap⟩ | hstart
    · have hpn : p = [] := by
        have := hp.mem_heap
        rw [hheap] at this
        exact List.mem_singleton.mp this
      rw [hnil, hpn] at hdrop
      rcases hdrop with hlt | ⟨_, hmem⟩
      · exact absurd hlt (Nat.not_lt_zero _)
      · cases hmem
    · exact .inr hstart
  · intro t ht hop hout
    rcases h.closed t ht hop hout with hmem | hmem | hrest
    · exact .inl hmem
    · rcases hp.mem_cases hmem with rfl | hmem
      · rcases hdrop with hlt | ⟨_, hmem⟩
        · rw [List.length_append] at hlt
          exact .inr (.inr (.inl (Nat.lt_succ_iff.mp hlt)))
        · exact .inl (by rwa [dest_snoc] at hmem)
      · exact .inr (.inl hmem)
    · exact .inr (.inr hrest)

theorem Progress.arrive (hne : P.source ≠ P.target) (h : Progress P s) (hp : Popped P s p rest)
    (hd : dest P p = P.target) : Progress P { s with heap := rest, arrived := s.arrived ++ [p] } := by
  refine ⟨?_, ?_, h.ordered, h.first⟩
  · rcases h.started with ⟨_, hheap⟩ | hstart
    · have := hp.mem_heap
      rw [hheap] at this
      rw [List.mem_singleton.mp this] at hd
      exact absurd hd hne
    · exact .inr hstart
  · intro t ht hop hout
    rcases h.closed t ht hop hout with hmem | hmem | hlong | ⟨htgt, hmem⟩
    · exact .inl hmem
    · rcases hp.mem_cases hmem with rfl | hmem
      · rw [dest_snoc] at hd
        exact .inr (.inr (.inr ⟨hd, List.mem_append_right _ List.mem_cons_self⟩))
      · exact .inr (.inl hmem)
    · exact .inr (.inr (.inl hlong))
    · exact .inr (.inr (.inr ⟨htgt, List.mem_append_left _ hmem⟩))

theorem Progress.settle [DecidableEq α] (h : Progress P s) (hp : Popped P s p rest)
    (hnew : dest P p ∉ ends P s.settled) (hset : Settled P (p :: s.settled) p) :
    Progress P { s with
      heap := rest ++ children P (ends P (p :: s.settled)) p, settled := p :: s.settled } := by
  refine ⟨.inr ?_, ?_, ?_, ?_⟩
  · exact hset.parts [] List.nil_prefix
  · intro t ht hop hout
    rcases List.mem_cons.mp ht with rfl | ht
    · by_cases hmem : P.tgt hop ∈ ends P (t :: s.settled)
      · exact .inl hmem
      · exact .inr (.inl (List.mem_append_right _ (mem_children.mpr ⟨hop, hout, hmem, rfl⟩)))
    · rcases h.closed t ht hop hout with hmem | hmem | hrest
      · exact .inl (List.mem_cons_of_mem _ hmem)
      · rcases hp.mem_cases hmem with rfl | hmem
        · exact .inl (by rw [← dest_snoc t hop]; exact List.mem_cons_self)
        · exact .inr (.inl (List.mem_append_left _ hmem))
      · exact .inr (.inr hrest)
  · intro t ht V hV hd
    have hopen := hV.of_cons hnew
    have hd' : dest P V ∉ ends P s.settled := fun hmem => hd (List.mem_cons_of_mem _ hmem)
    rcases List.mem_cons.mp ht with rfl | ht
    · exact passed_popped h hp hset.parts hopen hd' t (List.prefix_refl t)
    · exact h.ordered t ht V hopen hd'
  · intro t ht V hV hd
    have hopen := hV.of_cons hnew
    rcases List.mem_cons.mp ht with rfl | ht
    · exact before_of_passed (passed_popped h hp hset.parts hopen (hd ▸ hnew))
    · exact h.first t ht V hopen hd

end

/-! ## Whole runs -/

theorem body_of_exhausted {α η κ : Type} [DecidableEq α] [LinearOrder κ] {P : Problem α η κ} {n : Nat} {s : State η}
    (h : s.heap = []) : body P n s = .done s.arrived := by
  unfold body
  rw [h]
  rfl

section
variable {α η κ : Type} [DecidableEq α] [LinearOrder κ] {P : Problem α η κ}
  (hkey : ∀ p q, P.key p ≤ P.key q → weight P.w p ≤ weight P.w q)
  (hout : ∀ a, (P.out a).Pairwise fun g h => g = h → P.tgt g = a) (hne : P.source ≠ P.target)

include hkey hout hne

theorem progress_of_reaches {n : Nat} {s : State η} (h : Reaches (body P n) init s) : Sound P s ∧ Progress P s := by
  refine h.inv (P := fun t => Sound P t ∧ Progress P t) (fun t t' ht hb => ?_) ⟨.init, .init⟩
  obtain ⟨hs, hp⟩ := ht
  have hm := move_of_step hb
  have hs' := hs.move hkey hout hm
  cases hm with
  | drop hpop hdrop => exact ⟨hs', hp.drop hpop hdrop⟩
  | arrive hpop _ _ hd => exact ⟨hs', hp.arrive hne hpop hd⟩
  | settle hpop _ _ hnew => exact ⟨hs', hp.settle hpop hnew (hs'.settled _ List.mem_cons_self)⟩

/-- **What a search keeps** when it runs to the end. -/
theorem firstCome_of_exhausted {n : Nat} {s : State η} (h : Reaches (body P n) init s) (hheap : s.heap = []) :
    FirstCome P fun p => p ∈ s.settled := by
  obtain ⟨hs, hp⟩ := progress_of_reaches hkey hout hne h
  have hkept : ∀ p ∈ s.settled, dest P p ≠ P.target := fun p hmem => (hs.settled p hmem).dest_ne
  refine ⟨fun p hmem => ?_, fun q hq hd => ?_, fun p q hmem hq hd => ?_⟩
  · have hset := hs.settled p hmem
    exact ⟨⟨hset.walk, hset.length_le, fun r hr _ => hset.parts r hr⟩, hset.dest_ne⟩
  · rcases List.eq_nil_or_concat' q with rfl | ⟨q, hop, rfl⟩
    · rcases hp.started with ⟨_, hstart⟩ | hstart
      · rw [hheap] at hstart
        cases hstart
      · exact ⟨[], hstart, rfl⟩
    · have hmem := hq.parts q (List.prefix_append q _) (by simp)
      have hlen := hq.length_le
      rw [dest_snoc] at hd
      rcases hp.closed q hmem hop (isWalk_snoc.mp hq.walk).2 with hclosed | hqueued | hlong | ⟨htgt, _⟩
      · obtain ⟨p, hpmem, hdest⟩ := List.mem_map.mp hclosed
        exact ⟨p, hpmem, hdest.trans (dest_snoc q hop).symm⟩
      · rw [hheap] at hqueued
        cases hqueued
      · rw [List.length_append, List.length_singleton] at hlen
        omega
      · exact absurd htgt hd
  · refine hp.first p hmem q ⟨hq.walk, hq.length_le, hq.avoids hkept ?_, fun r hr hne => .inl (hq.parts r hr hne)⟩ hd
    rw [hd]
    exact hkept p hmem

end

/-! ## Runs against a family of first comers -/

section
variable {α η κ : Type} [LinearOrder κ] {P : Problem α η κ} (hinj : Function.Injective P.key) {K : List η → Prop}
  (hK : FirstCome P K) {s : State η} (hs : Sound P s) (hp : Progress P s) (hsub : ∀ t ∈ s.settled, K t)
include hinj hK hsub

theorem mem_settled_of_kept {V : List η} (hV : K V) (hd : dest P V ∈ ends P s.settled) : V ∈ s.settled := by
  obtain ⟨t, ht, heq⟩ := List.mem_map.mp hd
  rwa [hK.unique hinj hV (hsub t ht) heq]

theorem open_of_kept {V : List η} (hV : K V) : Open P s.settled V := by
  obtain ⟨hcand, hd⟩ := hK.candidate V hV
  refine ⟨hcand.walk, hcand.length_le, hcand.avoids (fun p hp => (hK.candidate p hp).2) hd, fun r hr hne => ?_⟩
  by_cases hmem : dest P r ∈ ends P s.settled
  · exact .inl (mem_settled_of_kept hinj hK hsub (hcand.parts r hr hne) hmem)
  · exact .inr hmem

include hs hp

theorem kept_of_popped {p : List η} {rest : List (List η)} (hpop : Popped P s p rest) (hlen : p.length ≤ P.hopLimit)
    (hd : dest P p ≠ P.target) (hnew : dest P p ∉ ends P s.settled) : K p := by
  have hset := hs.settled_cons (hs.heap p hpop.mem_heap) hlen hd p List.mem_cons_self
  have hcand : Candidate P K p :=
    ⟨hset.walk, hlen, fun r hr hne => hsub r ((List.mem_cons.mp (hset.parts r hr)).resolve_left hne)⟩
  obtain ⟨V, hV, hdest⟩ := hK.served p hcand hd
  have hbefore : Before P p V :=
    before_of_passed (passed_popped hp hpop hset.parts (open_of_kept hinj hK hsub hV) (hdest ▸ hnew))
  rw [hbefore.antisymm hinj (hK.first V p hV hcand hdest.symm)]
  exact hV

/-- Until something arrives, a part of any walk to the target that prolongs a kept one is queued. -/
theorem exists_queued {W : List η} (hW : Candidate P K W) (hne : P.source ≠ P.target) (hend : dest P W = P.target)
    (hnil : s.arrived = []) : ∃ e ∈ s.heap, e <+: W := by
  rcases List.eq_nil_or_concat' W with rfl | ⟨q, h, rfl⟩
  · exact absurd hend hne
  · have hq : K q := hW.parts q (List.prefix_append q _) (by simp)
    by_cases hmem : dest P q ∈ ends P s.settled
    · have hlen := hW.length_le
      rw [dest_snoc] at hend
      rcases hp.closed q (mem_settled_of_kept hinj hK hsub hq hmem) h (isWalk_snoc.mp hW.walk).2 with
        hclosed | hqueued | hlong | ⟨_, harrived⟩
      · rw [hend] at hclosed
        exact absurd hclosed hs.target_not_mem
      · exact ⟨_, hqueued, List.prefix_refl _⟩
      · rw [List.length_append, List.length_singleton] at hlen
        omega
      · rw [hnil] at harrived
        cases harrived
    · obtain ⟨e, he, hpre, _⟩ := exists_frontier hp (open_of_kept hinj hK hsub hq) hmem
      exact ⟨e, he, hpre.trans (List.prefix_append q _)⟩

omit [LinearOrder κ] hinj hK hp in
theorem candidate_of_arrived (hne : P.source ≠ P.target) : ∀ p ∈ s.arrived, Candidate P K p := by
  intro p hmem
  obtain ⟨hgrown, hlen, hend⟩ := hs.arrived p hmem
  refine ⟨(hs.walk_of_grown hgrown).1, hlen, fun r hr hrp => ?_⟩
  rcases hgrown with rfl | ⟨q, hq, h, _, _, rfl⟩
  · exact absurd hend hne
  · exact hsub r ((hs.settled q hq).parts r ((List.prefix_concat_iff.mp hr).resolve_left hrp))

end

/-! ## What arrives first -/

section
variable {α η κ : Type} (P : Problem α η κ)

def ToTarget (W : List η) : Prop :=
  IsWalk P.tgt (fun a h => h ∈ P.out a) P.source W ∧ W.length ≤ P.hopLimit ∧ dest P W = P.target

def Cheapest (W : List η) : Prop := ToTarget P W ∧ ∀ V, ToTarget P V → weight P.w W ≤ weight P.w V

end

section
variable {α η κ : Type} [DecidableEq α] [LinearOrder κ] {P : Problem α η κ}
  (hkey : ∀ p q, P.key p ≤ P.key q → weight P.w p ≤ weight P.w q)
  (hout : ∀ a, (P.out a).Pairwise fun g h => g = h → P.tgt g = a) (hne : P.source ≠ P.target)
  (hinj : Function.Injective P.key) {K : List η → Prop} (hK : FirstCome P K)
include hkey hout hne hinj hK

/-- **Only what comes first is settled.** -/
theorem kept_of_settled {n : Nat} {s : State η} (h : Reaches (body P n) init s) : ∀ p ∈ s.settled, K p := by
  refine (h.inv (P := fun t => Reaches (body P n) init t ∧ ∀ p ∈ t.settled, K p) (fun t t' ht hb => ?_)
    ⟨.refl, fun _ h => by cases h⟩).2
  refine ⟨ht.1.step hb, ?_⟩
  obtain ⟨hs, hp⟩ := progress_of_reaches hkey hout hne ht.1
  cases move_of_step hb with
  | drop => exact ht.2
  | arrive => exact ht.2
  | settle hpop hlen hd hnew =>
    intro q hq
    rcases List.mem_cons.mp hq with rfl | hq
    · exact kept_of_popped hinj hK hs hp ht.2 hpop hlen hd hnew
    · exact ht.2 q hq

/-- **The first walk that arrives** is no dearer than any that prolongs a kept one. -/
theorem first_no_dearer {W : List η} (hW : Candidate P K W) (hend : dest P W = P.target) {n : Nat} (hn : 0 < n)
    {s : State η} {r : List (List η)} (h : Reaches (body P n) init s) (hdone : body P n s = .done r) :
    ∃ p l, r = p :: l ∧ weight P.w p ≤ weight P.w W := by
  have hfirst : ∀ p l, s.arrived = p :: l → weight P.w p ≤ weight P.w W := by
    refine (h.inv (P := fun t => Reaches (body P n) init t ∧ ∀ p l, t.arrived = p :: l → weight P.w p ≤ weight P.w W)
      (fun t t' ht hb => ?_) ⟨.refl, fun _ _ h => by cases h⟩).2
    refine ⟨ht.1.step hb, ?_⟩
    cases move_of_step hb with
    | drop => exact ht.2
    | settle => exact ht.2
    | @arrive p rest hpop _ _ _ =>
      intro p' l heq
      cases ha : t.arrived with
      | nil =>
        obtain ⟨hs, hp⟩ := progress_of_reaches hkey hout hne ht.1
        obtain ⟨e, he, hpre⟩ :=
          exists_queued hinj hK hs hp (kept_of_settled hkey hout hne hinj hK ht.1) hW hne hend ha
        simp only [ha, List.nil_append, List.cons.injEq] at heq
        rw [← heq.1]
        exact (hkey p e (hpop.least e he)).trans (weight_mono P.w hpre)
      | cons q l' =>
        simp only [ha, List.cons_append, List.cons.injEq] at heq
        rw [← heq.1]
        exact ht.2 q l' ha
  obtain ⟨rfl, hstop⟩ := of_done hdone
  cases ha : s.arrived with
  | cons p l => exact ⟨p, l, rfl, hfirst p l ha⟩
  | nil =>
    rcases hstop with hempty | hfull
    · obtain ⟨hs, hp⟩ := progress_of_reaches hkey hout hne h
      obtain ⟨e, he, _⟩ := exists_queued hinj hK hs hp (kept_of_settled hkey hout hne hinj hK h) hW hne hend ha
      rw [hempty] at he
      cases he
    · rw [ha] at hfull
      exact absurd hn (Nat.not_lt.mpr hfull)

theorem settled_of_kept {n : Nat} {s : State η} (h : Reaches (body P n) init s) (hheap : s.heap = []) :
    ∀ p, K p → p ∈ s.settled := by
  have hsub := kept_of_settled hkey hout hne hinj hK h
  have hfirst := firstCome_of_exhausted hkey hout hne h hheap
  intro p hp
  induction hlen : p.length using Nat.strong_induction_on generalizing p with
  | h k ih =>
    obtain ⟨hcand, hd⟩ := hK.candidate p hp
    have hparts : Candidate P (fun q => q ∈ s.settled) p := by
      refine ⟨hcand.walk, hcand.length_le, fun r hr hne => ih r.length ?_ r (hcand.parts r hr hne) rfl⟩
      rw [← hlen]
      exact hr.length_le.lt_of_ne fun heq => hne (hr.eq_of_length heq)
    obtain ⟨q, hq, hdq⟩ := hfirst.served p hparts hd
    rwa [hK.unique hinj hp (hsub q hq) hdq]

/-- **Everything arrives** that prolongs what comes first. -/
theorem arrived_of_exhausted {n : Nat} {s : State η} (h : Reaches (body P n) init s) (hheap : s.heap = []) {W : List η}
    (hW : Candidate P K W) (hend : dest P W = P.target) : W ∈ s.arrived := by
  obtain ⟨hs, hp⟩ := progress_of_reaches hkey hout hne h
  rcases List.eq_nil_or_concat' W with rfl | ⟨q, hop, rfl⟩
  · exact absurd hend hne
  · have hq := settled_of_kept hkey hout hne hinj hK h hheap q (hW.parts q (List.prefix_append q _) (by simp))
    have hlen := hW.length_le
    rw [dest_snoc] at hend
    rcases hp.closed q hq hop (isWalk_snoc.mp hW.walk).2 with hclosed | hqueued | hlong | ⟨_, harrived⟩
    · rw [hend] at hclosed
      exact absurd hclosed hs.target_not_mem
    · rw [hheap] at hqueued
      cases hqueued
    · rw [List.length_append, List.length_singleton] at hlen
      omega
    · exact harrived

omit hinj hK in
/-- **When the search finds a cheapest walk.** -/
theorem finds_cheapest_iff (hinj : Function.Injective P.key) {sites : List α} (hsites : ∀ a, a ∈ sites ∨ P.out a = [])
    {n : Nat} (hn : 0 < n) {s : State η} {r : List (List η)} (h : Reaches (body P n) init s)
    (hdone : body P n s = .done r) :
    (∃ p l, r = p :: l ∧ Cheapest P p) ↔ ∃ K W, FirstCome P K ∧ Candidate P K W ∧ Cheapest P W := by
  constructor
  · rintro ⟨p, l, rfl, hp⟩
    obtain ⟨m, t, ht, hheap⟩ := exists_exhausted hsites
    have hK := firstCome_of_exhausted hkey hout hne ht hheap
    have hs := (progress_of_reaches hkey hout hne h).1
    refine ⟨_, p, hK, candidate_of_arrived hs (kept_of_settled hkey hout hne hinj hK h) hne p ?_, hp⟩
    rw [← (of_done hdone).1]
    exact List.mem_cons_self
  · rintro ⟨K, W, hK, hW, hcheap⟩
    obtain ⟨p, l, rfl, hle⟩ := first_no_dearer hkey hout hne hinj hK hW hcheap.1.2.2 hn h hdone
    refine ⟨p, l, rfl, ⟨?_, fun V hV => hle.trans (hcheap.2 V hV)⟩⟩
    obtain ⟨hs, _⟩ := progress_of_reaches hkey hout hne h
    have hmem : p ∈ s.arrived := by
      rw [← (of_done hdone).1]
      exact List.mem_cons_self
    obtain ⟨hgrown, hlen, hend⟩ := hs.arrived p hmem
    exact ⟨(hs.walk_of_grown hgrown).1, hlen, hend⟩

end

end BestFirst

end Lib
