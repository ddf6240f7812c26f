import LdkController.RouteSearch

/-!
# What the routes are

Every route that is found is a simple path over the channel directions that
admit the amount. Its fees are those of the final amount on every leg, the
sender's own leg included, and neither the flag of a direction nor the amount it
has to forward is looked at again.
-/

namespace LdkController

open Lib

/-! ## Routes and the legs they go over -/

def Leg.fee (amountMsat : Nat) (l : Leg) : Nat :=
  l.update.fees.baseMsat.toNat + amountMsat * l.update.fees.proportionalMillionths.toNat / 1000000

def Leg.hop (amountMsat : Nat) (l : Leg) : PathHop := ⟨l.target, l.scid, l.fee amountMsat, l.update.cltvExpiryDelta⟩

/-- The leg goes away from the node and admits the amount. -/
def Takes (graph : NetworkGraph) (amountMsat : Nat) (node : NodeId) (l : Leg) : Prop :=
  l.source = node ∧ HasLeg graph l ∧ l.update.Admits amountMsat

structure RouteOver (graph : NetworkGraph) (amountMsat : Nat) (source destNode : NodeId) (r : FoundRoute)
    (legs : List Leg) : Prop where
  walk : IsWalk Leg.target (Takes graph amountMsat) source legs
  ends : endOf Leg.target source legs = destNode
  simple : (nodes Leg.target source legs).Nodup
  length : 1 ≤ legs.length ∧ legs.length ≤ 6
  hops : r.hops = legs.map fun l => (l.hop amountMsat).routeHop
  totalFee : r.totalFee = (r.hops.map RouteHop.fee).sum
  totalTimeLock : r.totalTimeLock = (r.hops.map fun h => h.expiry.toNat).sum

section
variable {graph : NetworkGraph} {amountMsat : Nat} {source destNode : NodeId}

theorem mem_out {node : NodeId} {h : PathHop} :
    h ∈ (routeProblem (adjacency graph amountMsat) amountMsat source destNode).out node ↔
      ∃ l, Takes graph amountMsat node l ∧ l.hop amountMsat = h := by
  simp only [routeProblem, List.mem_map, mem_edges, Takes]
  constructor
  · intro hmem
    obtain ⟨_, ⟨l, hleg, hsrc, hadm, rfl⟩, rfl⟩ := hmem
    exact ⟨l, ⟨hsrc, hleg, hadm⟩, rfl⟩
  · intro hmem
    obtain ⟨l, ⟨hsrc, hleg, hadm⟩, rfl⟩ := hmem
    exact ⟨l.edge, ⟨l, hleg, hsrc, hadm, rfl⟩, rfl⟩

theorem exists_legs {node : NodeId} {path : List PathHop}
    (h : IsWalk PathHop.node
      (fun a h => h ∈ (routeProblem (adjacency graph amountMsat) amountMsat source destNode).out a) node path) :
    ∃ legs, IsWalk Leg.target (Takes graph amountMsat) node legs ∧ legs.map (Leg.hop amountMsat) = path :=
  h.exists_map (fun _ => rfl) fun _ _ hmem => mem_out.mp hmem

theorem isWalk_hops {node : NodeId} {legs : List Leg} (h : IsWalk Leg.target (Takes graph amountMsat) node legs) :
    IsWalk PathHop.node
      (fun a h => h ∈ (routeProblem (adjacency graph amountMsat) amountMsat source destNode).out a) node
      (legs.map (Leg.hop amountMsat)) :=
  h.map (fun _ => rfl) fun _ l hl => mem_out.mpr ⟨l, hl, rfl⟩

theorem weight_hops (legs : List Leg) :
    weight PathHop.fee (legs.map (Leg.hop amountMsat)) = (legs.map (Leg.fee amountMsat)).sum :=
  weight_map legs

theorem pathRoute_totalFee (path : List PathHop) :
    (pathRoute source path).totalFee = ((pathRoute source path).hops.map RouteHop.fee).sum := by
  simp [pathRoute, exactEntry, Entry.route, weight, PathHop.routeHop, List.map_map, Function.comp_def]

theorem routeOver_of_legs {legs : List Leg} (hne : source ≠ destNode)
    (hwalk : IsWalk Leg.target (Takes graph amountMsat) source legs)
    (hsimple : (nodes PathHop.node source (legs.map (Leg.hop amountMsat))).Nodup) (hlen : legs.length ≤ 6)
    (hend : endOf Leg.target source legs = destNode) :
    RouteOver graph amountMsat source destNode (pathRoute source (legs.map (Leg.hop amountMsat))) legs := by
  have htgt : ∀ l : Leg, (l.hop amountMsat).node = l.target := fun _ => rfl
  rw [nodes_map htgt] at hsimple
  refine ⟨hwalk, hend, hsimple, ⟨?_, hlen⟩, ?_, pathRoute_totalFee _, rfl⟩
  · cases legs with
    | nil => exact absurd hend hne
    | cons => exact Nat.le_add_left 1 _
  · simp [pathRoute, exactEntry, Entry.route, List.map_map, Function.comp_def]

theorem endOf_hops (legs : List Leg) :
    endOf PathHop.node source (legs.map (Leg.hop amountMsat)) = endOf Leg.target source legs :=
  endOf_map (fun _ => rfl) source legs

end

/-! ## Different paths are reported differently -/

theorem hexString_injective : Function.Injective hexString := by
  intro a b h
  have hhex : ∀ l, hexPaymentHash l = hexString l := fun l =>
    String.toList_inj.mp (by rw [toList_hexPaymentHash, hexString, String.toList_ofList])
  have := decodeHex_hexPaymentHash a
  rw [hhex, h, ← hhex, decodeHex_hexPaymentHash] at this
  exact (Outcome.ok.inj this).symm

theorem routeHop_injective : Function.Injective PathHop.routeHop := by
  intro g h heq
  obtain ⟨⟨gnode⟩, gscid, gfee, gcltv⟩ := g
  obtain ⟨⟨hnode⟩, hscid, hfee, hcltv⟩ := h
  simp only [PathHop.routeHop, RouteHop.mk.injEq] at heq
  obtain ⟨hpub, hid, rfl, rfl⟩ := heq
  obtain rfl := Vector.toList_inj.mp (hexString_injective hpub)
  obtain rfl := formatScid_injective hid
  rfl

theorem pathRoute_injective (source : NodeId) : Function.Injective (pathRoute source) := by
  intro p q heq
  exact List.map_injective_iff.mpr routeHop_injective (congrArg FoundRoute.hops heq)

/-! ## Every route is a path -/

/-- The exact search that a call for routes stands for. -/
def RouteService.problem (service : RouteService) (amountMsat : Nat) (destNode : NodeId) :
    BestFirst.Problem NodeId PathHop EntryKey :=
  routeProblem (adjacency service.networkGraph amountMsat) amountMsat service.nodeId destNode

section
variable {service : RouteService} {destPubkey : String} {amountMsat maxRoutes : Nat} {routes : List FoundRoute}
  (h : findRoutes ⟨true⟩ service destPubkey amountMsat maxRoutes = some routes)
include h

theorem findRoutes_congr (b : Build) : findRoutes b service destPubkey amountMsat maxRoutes = some routes := by
  unfold findRoutes at h ⊢
  cases hd : service.parsePublicKey destPubkey with
  | none => rw [hd] at h; exact h
  | some destNode =>
    rw [hd] at h
    by_cases hself : service.nodeId = destNode
    · simp only [if_pos hself] at h ⊢
      exact h
    · simp only [if_neg hself] at h ⊢
      exact search_congr b h

theorem exists_run : routes = [] ∨ ∃ destNode t r, service.parsePublicKey destPubkey = some destNode ∧
    service.nodeId ≠ destNode ∧ Reaches (BestFirst.body (service.problem amountMsat destNode) maxRoutes) BestFirst.init t ∧
    BestFirst.body (service.problem amountMsat destNode) maxRoutes t = .done r ∧
    routes = r.map (pathRoute service.nodeId) := by
  unfold findRoutes at h
  cases hd : service.parsePublicKey destPubkey with
  | none =>
    rw [hd] at h
    exact .inl (Option.some.inj h).symm
  | some destNode =>
    rw [hd] at h
    by_cases hself : service.nodeId = destNode
    · simp only [if_pos hself] at h
      exact .inl (Option.some.inj h).symm
    · simp only [if_neg hself] at h
      obtain ⟨t, r, ht, hdone, hroutes⟩ := exact_of_search h
      exact .inr ⟨destNode, t, r, rfl, hself, ht, hdone, hroutes⟩

theorem exists_routeOver : ∀ r ∈ routes, ∃ destNode legs, service.parsePublicKey destPubkey = some destNode ∧
    RouteOver service.networkGraph amountMsat service.nodeId destNode r legs := by
  intro r hr
  rcases exists_run h with rfl | ⟨destNode, t, r, hd, hne, ht, hdone, rfl⟩
  · cases hr
  · obtain ⟨rfl, _⟩ := BestFirst.of_done hdone
    have hs := BestFirst.sound_of_reaches weight_le_of_key (pairwise_out _ _ _ _) ht
    obtain ⟨path, hpath, rfl⟩ := List.mem_map.mp hr
    obtain ⟨hgrown, hlen, hend⟩ := hs.arrived path hpath
    obtain ⟨hwalk, hsimple⟩ := hs.walk_of_grown hgrown
    obtain ⟨legs, hlegs, rfl⟩ := exists_legs hwalk
    rw [List.length_map] at hlen
    exact ⟨destNode, legs, hd, routeOver_of_legs hne hlegs hsimple hlen ((endOf_hops legs).symm.trans hend)⟩

/-- **Soundness of the routes.** -/
theorem findRoutes_sound : (∀ b, findRoutes b service destPubkey amountMsat maxRoutes = some routes) ∧
    routes.length ≤ maxRoutes ∧ routes.Nodup ∧ routes.Pairwise (fun r q => r.totalFee ≤ q.totalFee) ∧
    ∀ r ∈ routes, ∃ destNode legs, service.parsePublicKey destPubkey = some destNode ∧
      RouteOver service.networkGraph amountMsat service.nodeId destNode r legs := by
  have hover := exists_routeOver h
  refine ⟨findRoutes_congr h, ?_⟩
  rcases exists_run h with rfl | ⟨destNode, t, r, hd, hne, ht, hdone, rfl⟩
  · exact ⟨Nat.zero_le _, .nil, .nil, hover⟩
  · obtain ⟨rfl, _⟩ := BestFirst.of_done hdone
    have hs := BestFirst.sound_of_reaches weight_le_of_key (pairwise_out _ _ _ _) ht
    refine ⟨?_, ?_, List.pairwise_map.mpr hs.sorted, hover⟩
    · rw [List.length_map]
      exact BestFirst.length_arrived_le ht
    · exact (List.nodup_append.mp hs.distinct).2.1.map (pathRoute_injective _)

end

/-! ## A small network -/

def keyAt (x : UInt8) : NodeId := ⟨((Vector.replicate 32 0).set 0 2).push x⟩

def keyText : String := "02000000000000000000000000000000000000000000000000000000000000000d"

def policyUpTo (htlcMaximumMsat : Nat) (baseMsat proportionalMillionths : UInt32) : ChannelUpdateInfo :=
  ⟨0, true, 40, 1, htlcMaximumMsat, ⟨baseMsat, proportionalMillionths⟩⟩

def oneWay (a b : UInt8) (policy : ChannelUpdateInfo) : ChannelInfo := ⟨keyAt a, some policy, keyAt b, none, none⟩

/-- The node at 1 looks for routes to the one at 13. -/
def serviceOver (channels : List (UInt64 × ChannelInfo)) : RouteService where
  parsePublicKey s := if s = keyText then some (keyAt 13) else none
  nodeId := keyAt 1
  networkGraph := channels.foldl (fun graph ch => graph.insert ch.1 ch.2) ∅

/-- Two channels to the node at 2, two from there to the destination, and a way through the node at 3. -/
def twoWays : List (UInt64 × ChannelInfo) :=
  [(1, oneWay 1 2 (policyUpTo 1000000000 1000 0)), (2, oneWay 1 2 (policyUpTo 1000000000 500 0)),
    (3, oneWay 2 13 (policyUpTo 1000000000 0 10000)), (4, oneWay 2 13 (policyUpTo 1000000000 2000 0)),
    (5, oneWay 1 3 (policyUpTo 1000000000 700 0)), (6, oneWay 3 13 (policyUpTo 1000000000 900 0))]

def twoWaysRoutes : List FoundRoute :=
  [⟨1500, 80, [⟨(keyAt 2).toString, "0x0x2", 500, 40⟩, ⟨keyText, "0x0x3", 1000, 40⟩]⟩,
    ⟨1600, 80, [⟨(keyAt 3).toString, "0x0x5", 700, 40⟩, ⟨keyText, "0x0x6", 900, 40⟩]⟩,
    ⟨2500, 80, [⟨(keyAt 2).toString, "0x0x2", 500, 40⟩, ⟨keyText, "0x0x4", 2000, 40⟩]⟩]

theorem findRoutes_twoWays :
    findRoutes ⟨true⟩ (serviceOver twoWays) keyText 100000 5 = some twoWaysRoutes := by
  decide +kernel

theorem findRoutes_sound_two_ways :
    (∀ b, findRoutes b (serviceOver twoWays) keyText 100000 5 = some twoWaysRoutes) ∧ twoWaysRoutes.Nodup ∧
      ∀ r ∈ twoWaysRoutes, ∃ destNode legs, (serviceOver twoWays).parsePublicKey keyText = some destNode ∧
        RouteOver (serviceOver twoWays).networkGraph 100000 (keyAt 1) destNode r legs := by
  obtain ⟨hall, -, hnodup, -, hover⟩ := findRoutes_sound findRoutes_twoWays
  exact ⟨hall, hnodup, hover⟩

end LdkController
