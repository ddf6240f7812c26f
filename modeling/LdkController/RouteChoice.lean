import LdkController.RoutesSound

/-!
# Which routes are found

The search keeps one way to each node, the one that is out of its heap first, and
counts the hops only afterwards. So a path is found if all of its parts are ways
that are kept, and a cheap way that is long can keep a dearer short one from
being found.
-/

namespace LdkController

open Lib

/-- A path to the destination of at most six hops, each part of which comes first among the ways that prolong
one that has come first. -/
def LetThrough (service : RouteService) (destPubkey : String) (amountMsat : Nat) (legs : List Leg) : Prop :=
  ∃ destNode, service.parsePublicKey destPubkey = some destNode ∧ service.nodeId ≠ destNode ∧
    IsWalk Leg.target (Takes service.networkGraph amountMsat) service.nodeId legs ∧
    endOf Leg.target service.nodeId legs = destNode ∧
    ∃ K, BestFirst.FirstCome (service.problem amountMsat destNode) K ∧
      BestFirst.Candidate (service.problem amountMsat destNode) K (legs.map (Leg.hop amountMsat))

section
variable {service : RouteService} {destPubkey : String} {amountMsat : Nat} {destNode : NodeId}

theorem sites_or_out_eq_nil (node : NodeId) :
    node ∈ (adjacency service.networkGraph amountMsat).keys ∨ (service.problem amountMsat destNode).out node = [] := by
  rcases mem_keys_or_edges_eq_nil (adjacency service.networkGraph amountMsat) node with h | h
  · exact .inl h
  · exact .inr (by simp [RouteService.problem, routeProblem, h])

theorem exists_firstCome (amountMsat : Nat) (hne : service.nodeId ≠ destNode) :
    ∃ K, BestFirst.FirstCome (service.problem amountMsat destNode) K := by
  obtain ⟨n, t, ht, hheap⟩ := BestFirst.exists_exhausted sites_or_out_eq_nil
  exact ⟨_, BestFirst.firstCome_of_exhausted weight_le_of_key (pairwise_out _ _ _ _) hne ht hheap⟩

theorem letThrough_of_routeOver {maxRoutes : Nat} {routes : List FoundRoute}
    (h : findRoutes ⟨true⟩ service destPubkey amountMsat maxRoutes = some routes) {r : FoundRoute} (hr : r ∈ routes)
    {legs : List Leg} (hover : RouteOver service.networkGraph amountMsat service.nodeId destNode r legs) :
    LetThrough service destPubkey amountMsat legs := by
  rcases exists_run h with rfl | ⟨dest, t, found, hd, hne, ht, hdone, rfl⟩
  · cases hr
  · obtain ⟨path, hpath, rfl⟩ := List.mem_map.mp hr
    obtain ⟨rfl, _⟩ := BestFirst.of_done hdone
    have hlegs : legs.map (Leg.hop amountMsat) = path := by
      refine List.map_injective_iff.mpr routeHop_injective ?_
      rw [List.map_map]
      exact hover.hops.symm
    subst hlegs
    obtain ⟨hs, _⟩ := BestFirst.progress_of_reaches weight_le_of_key (pairwise_out _ _ _ _) hne ht
    obtain ⟨K, hK⟩ := exists_firstCome amountMsat hne
    have hsub := BestFirst.kept_of_settled weight_le_of_key (pairwise_out _ _ _ _) hne key_injective hK ht
    refine ⟨dest, hd, hne, hover.walk, ?_, K, hK, BestFirst.candidate_of_arrived hs hsub hne _ hpath⟩
    exact (endOf_hops legs).symm.trans (hs.arrived _ hpath).2.2

theorem findRoutes_eq_search (hd : service.parsePublicKey destPubkey = some destNode) (hne : service.nodeId ≠ destNode)
    (b : Build) (n : Nat) : findRoutes b service destPubkey amountMsat n =
      search b (adjacency service.networkGraph amountMsat) amountMsat destNode n service.nodeId := by
  unfold findRoutes
  simp only [hd, if_neg hne]

section
variable (hok : ∀ n, findRoutes ⟨true⟩ service destPubkey amountMsat n ≠ none)
include hok

theorem exists_found {legs : List Leg} (h : LetThrough service destPubkey amountMsat legs) :
    ∃ destNode n routes r, findRoutes ⟨true⟩ service destPubkey amountMsat n = some routes ∧ r ∈ routes ∧
      RouteOver service.networkGraph amountMsat service.nodeId destNode r legs := by
  obtain ⟨destNode, hd, hne, hwalk, hend, K, hK, hcand⟩ := h
  obtain ⟨n, t, ht, hheap⟩ : ∃ n t, Reaches (BestFirst.body (service.problem amountMsat destNode) n) BestFirst.init t ∧
      t.heap = [] := BestFirst.exists_exhausted sites_or_out_eq_nil
  obtain ⟨routes, hroutes⟩ := Option.ne_none_iff_exists'.mp (hok n)
  have hsearch := hroutes
  rw [findRoutes_eq_search hd hne] at hsearch
  obtain ⟨t', found, ht', hdone, rfl⟩ := exact_of_search hsearch
  obtain rfl := done_unique ht' ht hdone (BestFirst.body_of_exhausted hheap)
  have hmem := BestFirst.arrived_of_exhausted weight_le_of_key (pairwise_out _ _ _ _) hne key_injective hK ht hheap hcand
    ((endOf_hops legs).trans hend)
  have hs := BestFirst.sound_of_reaches weight_le_of_key (pairwise_out _ _ _ _) ht
  obtain ⟨hgrown, hlen, _⟩ := hs.arrived _ hmem
  rw [List.length_map] at hlen
  exact ⟨destNode, n, _, _, hroutes, List.mem_map.mpr ⟨_, hmem, rfl⟩,
    routeOver_of_legs hne hwalk (hs.walk_of_grown hgrown).2 hlen hend⟩

/-- What depends on the legs of a route alone holds of all that a call may find if it holds of all that is let
through. -/
theorem forall_found_iff {P : FoundRoute → List Leg → Prop} {Q : List Leg → Prop}
    (hiff : ∀ r destNode legs, RouteOver service.networkGraph amountMsat service.nodeId destNode r legs →
      (P r legs ↔ Q legs)) :
    (∀ n routes, findRoutes ⟨true⟩ service destPubkey amountMsat n = some routes → ∀ r ∈ routes, ∀ destNode legs,
      RouteOver service.networkGraph amountMsat service.nodeId destNode r legs → P r legs) ↔
    ∀ legs, LetThrough service destPubkey amountMsat legs → Q legs := by
  constructor
  · intro h legs hlegs
    obtain ⟨destNode, n, routes, r, hroutes, hr, hover⟩ := exists_found hok hlegs
    exact (hiff r destNode legs hover).mp (h n routes hroutes r hr destNode legs hover)
  · intro h n routes hroutes r hr destNode legs hover
    exact (hiff r destNode legs hover).mpr (h legs (letThrough_of_routeOver hroutes hr hover))

end

end

/-! ## The cheapest path -/

def PathTo (service : RouteService) (amountMsat : Nat) (destNode : NodeId) (legs : List Leg) : Prop :=
  IsWalk Leg.target (Takes service.networkGraph amountMsat) service.nodeId legs ∧ legs.length ≤ 6 ∧
    endOf Leg.target service.nodeId legs = destNode

def fees (amountMsat : Nat) (legs : List Leg) : Nat := (legs.map (Leg.fee amountMsat)).sum

/-- If there is a path, the first route goes over a cheapest one. -/
def FindsCheapest (service : RouteService) (amountMsat : Nat) (destNode : NodeId) (routes : List FoundRoute) : Prop :=
  (∃ legs, PathTo service amountMsat destNode legs) → ∃ r rs, routes = r :: rs ∧
    (∃ legs, PathTo service amountMsat destNode legs ∧ r.totalFee = fees amountMsat legs) ∧
    ∀ legs, PathTo service amountMsat destNode legs → r.totalFee ≤ fees amountMsat legs

/-- If there is a path, a cheapest one is let through. -/
def LetsCheapestThrough (service : RouteService) (destPubkey : String) (amountMsat : Nat) (destNode : NodeId) : Prop :=
  (∃ legs, PathTo service amountMsat destNode legs) → ∃ legs, LetThrough service destPubkey amountMsat legs ∧
    ∀ legs', PathTo service amountMsat destNode legs' → fees amountMsat legs ≤ fees amountMsat legs'

section
variable {service : RouteService} {amountMsat : Nat} {destNode : NodeId}

theorem toTarget_iff {path : List PathHop} : BestFirst.ToTarget (service.problem amountMsat destNode) path ↔
    ∃ legs, PathTo service amountMsat destNode legs ∧ legs.map (Leg.hop amountMsat) = path := by
  constructor
  · intro h
    obtain ⟨hwalk, hlen, hend⟩ := h
    obtain ⟨legs, hlegs, rfl⟩ := exists_legs hwalk
    rw [List.length_map] at hlen
    exact ⟨legs, ⟨hlegs, hlen, (endOf_hops legs).symm.trans hend⟩, rfl⟩
  · intro h
    obtain ⟨legs, ⟨hwalk, hlen, hend⟩, rfl⟩ := h
    exact ⟨isWalk_hops hwalk, by rw [List.length_map]; exact hlen, (endOf_hops legs).trans hend⟩

theorem cheapest_iff {legs : List Leg} :
    BestFirst.Cheapest (service.problem amountMsat destNode) (legs.map (Leg.hop amountMsat)) ↔
      BestFirst.ToTarget (service.problem amountMsat destNode) (legs.map (Leg.hop amountMsat)) ∧
        ∀ legs', PathTo service amountMsat destNode legs' → fees amountMsat legs ≤ fees amountMsat legs' := by
  unfold BestFirst.Cheapest
  refine and_congr_right fun _ => ?_
  constructor
  · intro h legs' hlegs'
    have := h _ (toTarget_iff.mpr ⟨legs', hlegs', rfl⟩)
    rwa [show (service.problem amountMsat destNode).w = PathHop.fee from rfl, weight_hops, weight_hops] at this
  · intro h V hV
    obtain ⟨legs', hlegs', rfl⟩ := toTarget_iff.mp hV
    rw [show (service.problem amountMsat destNode).w = PathHop.fee from rfl, weight_hops, weight_hops]
    exact h legs' hlegs'

/-- **When the first route is a cheapest one.** -/
theorem findsCheapest_iff {destPubkey : String} {maxRoutes : Nat} {routes : List FoundRoute}
    (hd : service.parsePublicKey destPubkey = some destNode) (hne : service.nodeId ≠ destNode) (hmax : 0 < maxRoutes)
    (h : findRoutes ⟨true⟩ service destPubkey amountMsat maxRoutes = some routes) :
    FindsCheapest service amountMsat destNode routes ↔ LetsCheapestThrough service destPubkey amountMsat destNode := by
  rw [findRoutes_eq_search hd hne] at h
  obtain ⟨t, found, ht, hdone, rfl⟩ := exact_of_search h
  have hiff := BestFirst.finds_cheapest_iff weight_le_of_key (pairwise_out _ _ _ _) hne key_injective
    sites_or_out_eq_nil hmax ht hdone
  constructor
  · intro hfinds hpath
    obtain ⟨r, rs, heq, _, hleast⟩ := hfinds hpath
    obtain ⟨p, l, rfl, rfl, _⟩ := List.map_eq_cons_iff.mp heq
    have hs := BestFirst.sound_of_reaches weight_le_of_key (pairwise_out _ _ _ _) ht
    have hmem : p ∈ t.arrived := by
      rw [← (BestFirst.of_done hdone).1]
      exact List.mem_cons_self
    obtain ⟨hgrown, hlen, hend⟩ := hs.arrived p hmem
    obtain ⟨legs, _, rfl⟩ := exists_legs (hs.walk_of_grown hgrown).1
    have hfees : (pathRoute service.nodeId (legs.map (Leg.hop amountMsat))).totalFee = fees amountMsat legs :=
      weight_hops legs
    rw [hfees] at hleast
    obtain ⟨K, W, hK, hW, hcheap⟩ := hiff.mp
      ⟨_, l, rfl, cheapest_iff.mpr ⟨⟨(hs.walk_of_grown hgrown).1, hlen, hend⟩, hleast⟩⟩
    obtain ⟨legs, ⟨hwalk, _, hend⟩, rfl⟩ := toTarget_iff.mp hcheap.1
    exact ⟨legs, ⟨destNode, hd, hne, hwalk, hend, K, hK, hW⟩, (cheapest_iff.mp hcheap).2⟩
  · intro hlets hpath
    obtain ⟨legs, ⟨dest, hd', _, hwalk, hend, K, hK, hcand⟩, hleast⟩ := hlets hpath
    obtain rfl := Option.some.inj (hd'.symm.trans hd)
    have hlen : (legs.map (Leg.hop amountMsat)).length ≤ 6 := hcand.length_le
    rw [List.length_map] at hlen
    have htarget := toTarget_iff.mpr ⟨legs, ⟨hwalk, hlen, hend⟩, rfl⟩
    obtain ⟨p, l, rfl, hp⟩ := hiff.mpr ⟨K, _, hK, hcand, cheapest_iff.mpr ⟨htarget, hleast⟩⟩
    obtain ⟨legs', hlegs', rfl⟩ := toTarget_iff.mp hp.1
    exact ⟨_, _, rfl, ⟨legs', hlegs', weight_hops legs'⟩, fun legs'' h'' =>
      (weight_hops legs').trans_le ((cheapest_iff.mp hp).2 legs'' h'')⟩

theorem findsCheapest_iff_two_ways :
    FindsCheapest (serviceOver twoWays) 100000 (keyAt 13) twoWaysRoutes ↔
      LetsCheapestThrough (serviceOver twoWays) keyText 100000 (keyAt 13) :=
  findsCheapest_iff (by decide +kernel) (by decide +kernel) (by decide) findRoutes_twoWays

/-- Six free channels to the node before the destination, and one with a fee. -/
def detour : List (UInt64 × ChannelInfo) :=
  [(1, oneWay 1 2 (policyUpTo 1000000000 0 0)), (2, oneWay 2 3 (policyUpTo 1000000000 0 0)),
    (3, oneWay 3 4 (policyUpTo 1000000000 0 0)), (4, oneWay 4 6 (policyUpTo 1000000000 0 0)),
    (5, oneWay 6 8 (policyUpTo 1000000000 0 0)), (6, oneWay 8 12 (policyUpTo 1000000000 0 0)),
    (7, oneWay 1 12 (policyUpTo 1000000000 10 0)), (8, oneWay 12 13 (policyUpTo 1000000000 0 0))]

theorem not_findsCheapest : findRoutes ⟨true⟩ (serviceOver detour) keyText 100000 1 = some [] ∧
    ¬ FindsCheapest (serviceOver detour) 100000 (keyAt 13) [] := by
  refine ⟨by decide +kernel, fun h => ?_⟩
  have hpath : PathTo (serviceOver detour) 100000 (keyAt 13)
      [⟨keyAt 1, keyAt 12, 7, policyUpTo 1000000000 10 0⟩, ⟨keyAt 12, keyAt 13, 8, policyUpTo 1000000000 0 0⟩] :=
    ⟨⟨⟨rfl, ⟨_, rfl, .inl ⟨rfl, rfl, rfl⟩⟩, by decide⟩, ⟨rfl, ⟨_, rfl, .inl ⟨rfl, rfl, rfl⟩⟩, by decide⟩, trivial⟩,
      by decide, rfl⟩
  obtain ⟨r, rs, heq, _⟩ := h ⟨_, hpath⟩
  cases heq

end

end LdkController
