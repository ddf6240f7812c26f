import LdkController.Incidence
import LdkController.NetworkNodes

/-!
# The network adds up

The nodes are listed in pages and looked up one by one, the channels are only
counted and added. In a graph that is consistent, as the network graph is, the
two agree: every channel stands at two nodes.
-/

namespace LdkController

open Lib

/-- Every channel is listed at its two nodes, and only there. -/
structure NodeGraph.Consistent (g : NodeGraph) : Prop where
  distinct : ∀ scid ch, g.channels.lookup scid = some ch → ch.nodeOne ≠ ch.nodeTwo
  known : ∀ scid ch, g.channels.lookup scid = some ch → ch.nodeOne ∈ g.nodes ∧ ch.nodeTwo ∈ g.nodes
  nodup : ∀ n info, g.nodes.lookup n = some info → info.channels.Nodup
  listed : ∀ n info, g.nodes.lookup n = some info → ∀ scid, scid ∈ info.channels ↔
    ∃ ch, g.channels.lookup scid = some ch ∧ (n = ch.nodeOne ∨ n = ch.nodeTwo)

/-- The limit is 100 where none is given, the offset 0. -/
def nodePages (b : Build) (g : NodeGraph) (limit offset : Option Nat) : Outcome Empty (List NetworkNodeInfo) :=
  (listNetworkNodes b g (limit.getD 100) (offset.getD 0)).elim .panic .ok

/-! ## Sums of capacities -/

def capacityOf (graph : NetworkGraph) (scid : UInt64) : Nat := (graph.lookup scid).elim 0 ChannelInfo.capacity

theorem sum_capacities (graph : NetworkGraph) (scids : List UInt64) :
    (capacities graph scids).sum = (scids.map (capacityOf graph)).sum := by
  induction scids with
  | nil => rfl
  | cons scid scids ih =>
    unfold capacities at ih ⊢
    rw [List.map_cons, List.sum_cons, ← ih, List.filterMap_cons, capacityOf]
    cases graph.lookup scid with
    | none => exact (Nat.zero_add _).symm
    | some ch => rfl

theorem sumU64_of_le (b : Build) {l : List Nat} (h : l.sum ≤ u64Max) : sumU64 b l = some l.sum := by
  rw [sumU64, b.foldlM_addU64 l (Nat.zero_le _), Nat.zero_add, if_neg fun hover => absurd h (Nat.not_le.mpr hover.1),
    mod_of_le_u64Max h]

/-- The running total stays at the largest word once it has reached it. -/
theorem foldl_addCapacity {l : List Nat} {total max : Nat} (h : total ≤ u64Max) :
    (l.foldl addCapacity (total, max)).1 = min (total + l.sum) u64Max := by
  induction l generalizing total max with
  | nil => exact (min_eq_left h).symm
  | cons x l ih =>
    rw [List.foldl_cons, List.sum_cons]
    have hsat : satAddU64 total x ≤ u64Max := min_le_right _ _
    rw [addCapacity, ih hsat]
    unfold satAddU64
    omega

/-! ## What is told of one node -/

def nodeInfoWith (nodeId : NodeId) (info : NodeInfo) (totalCapacity : Nat) : NetworkNodeInfo :=
  match info.announcementInfo with
  | some ann =>
    ⟨nodeId.toString, ann.alias_, "#" ++ hexString ann.rgb.toList, info.channels.length, totalCapacity, ann.addresses,
      ann.lastUpdate⟩
  | none => ⟨nodeId.toString, "", "#000000", info.channels.length, totalCapacity, [], 0⟩

theorem mapNodeInfo_eq (b : Build) (graph : NodeGraph) (nodeId : NodeId) (info : NodeInfo) :
    mapNodeInfo b graph nodeId info =
      (sumU64 b (capacities graph.channels info.channels)).map (nodeInfoWith nodeId info) := by
  unfold mapNodeInfo nodeInfoWith
  cases sumU64 b (capacities graph.channels info.channels) with
  | none => rfl
  | some totalCapacity => cases info.announcementInfo <;> rfl

@[simp] theorem numChannels_nodeInfoWith (nodeId : NodeId) (info : NodeInfo) (n : Nat) :
    (nodeInfoWith nodeId info n).numChannels = info.channels.length := by
  unfold nodeInfoWith
  cases info.announcementInfo <;> rfl

@[simp] theorem totalCapacity_nodeInfoWith (nodeId : NodeId) (info : NodeInfo) (n : Nat) :
    (nodeInfoWith nodeId info n).totalCapacity = n := by
  unfold nodeInfoWith
  cases info.announcementInfo <;> rfl

/-! ## The channels of a node -/

def NetworkGraph.ends (graph : NetworkGraph) (scid : UInt64) : Finset NodeId :=
  (graph.lookup scid).elim ∅ fun ch => {ch.nodeOne, ch.nodeTwo}

def NodeGraph.channelsOf (g : NodeGraph) (n : NodeId) : List UInt64 := (g.nodes.lookup n).elim [] NodeInfo.channels

namespace NodeGraph.Consistent

variable {g : NodeGraph} (hg : g.Consistent)
include hg

theorem ends_of_mem {scid : UInt64} (h : scid ∈ g.channels.keys) :
    (∀ n ∈ g.channels.ends scid, n ∈ g.nodes.keys) ∧ (g.channels.ends scid).card = 2 := by
  obtain ⟨ch, hch⟩ := Option.isSome_iff_exists.mp (AList.lookup_isSome.mpr (AList.mem_keys.mpr h))
  obtain ⟨hone, htwo⟩ := hg.known scid ch hch
  unfold NetworkGraph.ends
  rw [hch, Option.elim_some]
  refine ⟨fun n hn => ?_, Finset.card_pair (hg.distinct scid ch hch)⟩
  rcases Finset.mem_insert.mp hn with rfl | hn
  · exact hone
  · exact Finset.mem_singleton.mp hn ▸ htwo

theorem channelsOf_of_mem {n : NodeId} (h : n ∈ g.nodes.keys) :
    (g.channelsOf n).Nodup ∧ ∀ scid, scid ∈ g.channelsOf n ↔ scid ∈ g.channels.keys ∧ n ∈ g.channels.ends scid := by
  obtain ⟨info, hinfo⟩ := Option.isSome_iff_exists.mp (AList.lookup_isSome.mpr (AList.mem_keys.mpr h))
  unfold channelsOf
  rw [hinfo, Option.elim_some]
  refine ⟨hg.nodup n info hinfo, fun scid => (hg.listed n info hinfo scid).trans ?_⟩
  rw [← AList.mem_keys, ← AList.lookup_isSome]
  unfold NetworkGraph.ends
  cases g.channels.lookup scid with
  | none => simp
  | some ch => simp

theorem sum_capacities_le {n : NodeId} (h : n ∈ g.nodes.keys) :
    (capacities g.channels (g.channelsOf n)).sum ≤ (capacities g.channels g.channels.keys).sum := by
  obtain ⟨hnodup, hmem⟩ := hg.channelsOf_of_mem h
  rw [sum_capacities, sum_capacities]
  exact sum_seen_le g.channels.keys_nodup hnodup hmem _

/-- Whatever is counted of the channels, the nodes together see it twice. -/
theorem sum_channelsOf (w : UInt64 → Nat) :
    (g.nodes.keys.map fun n => ((g.channelsOf n).map w).sum).sum = 2 * (g.channels.keys.map w).sum :=
  sum_sum_seen g.nodes.keys_nodup g.channels.keys_nodup (fun _ => hg.ends_of_mem) (fun _ => hg.channelsOf_of_mem) w

end NodeGraph.Consistent

/-! ## All nodes -/

def NodeGraph.allNodes (g : NodeGraph) : List NetworkNodeInfo :=
  g.nodes.entries.map fun e => nodeInfoWith e.1 e.2 (capacities g.channels e.2.channels).sum

section
variable (b : Build) {g : NodeGraph} (hg : g.Consistent)
  (hfits : (capacities g.channels g.channels.keys).sum ≤ u64Max)
include hg hfits

theorem mapNodeInfo_of_fits {n : NodeId} {info : NodeInfo} (h : g.nodes.lookup n = some info) :
    mapNodeInfo b g n info = some (nodeInfoWith n info (capacities g.channels info.channels).sum) := by
  have hle := hg.sum_capacities_le (AList.lookup_isSome.mp (Option.isSome_iff_exists.mpr ⟨info, h⟩))
  unfold NodeGraph.channelsOf at hle
  rw [h, Option.elim_some] at hle
  rw [mapNodeInfo_eq, sumU64_of_le b (hle.trans hfits)]
  rfl

theorem listNetworkNodes_of_fits (limit offset : Nat) :
    listNetworkNodes b g limit offset = some ((g.allNodes.drop offset).take limit) := by
  have hpage : ((g.nodes.keys.drop offset).take limit).filterMap
      (fun n => (g.nodes.lookup n).map (mapNodeInfo b g n)) = ((g.allNodes.drop offset).take limit).map some := by
    unfold AList.keys List.keys NodeGraph.allNodes
    rw [← List.map_drop, ← List.map_take, ← List.map_drop, ← List.map_take, List.filterMap_map, List.map_map,
      ← List.filterMap_eq_map]
    apply List.filterMap_congr
    intro e he
    have hlookup : g.nodes.lookup e.1 = some e.2 :=
      AList.mem_lookup_iff.mpr (List.drop_subset _ _ (List.take_subset _ _ he))
    simp only [Function.comp_apply, hlookup, Option.map_some, mapNodeInfo_of_fits b hg hfits hlookup]
  unfold listNetworkNodes
  rw [hpage]
  generalize (g.allNodes.drop offset).take limit = l
  induction l with
  | nil => rfl
  | cons x l ih => rw [List.map_cons, List.mapM_cons, ih]; rfl

theorem getNetworkNode_of_fits :
    g.nodes.keys.map (getNetworkNode b g) = g.allNodes.map fun x => some (some x) := by
  unfold AList.keys List.keys NodeGraph.allNodes
  rw [List.map_map, List.map_map]
  apply List.map_congr_left
  intro e he
  have hlookup : g.nodes.lookup e.1 = some e.2 := AList.mem_lookup_iff.mpr he
  simp only [Function.comp_apply, getNetworkNode, hlookup, Option.mapM_some, mapNodeInfo_of_fits b hg hfits hlookup]
  rfl

/-- Whoever reads the nodes page by page and adds up what they are told has every
node once, and twice the number and the capacity of the channels. -/
theorem network_adds_up :
    ∃ all : List NetworkNodeInfo, (∀ k, 0 < k → PagesFrom (nodePages b g) k 0 all) ∧
      g.nodes.keys.map (getNetworkNode b g) = all.map (fun x => some (some x)) ∧
      all.length = (getNetworkStats g).numNodes ∧
      (all.map (·.numChannels)).sum = 2 * (getNetworkStats g).numChannels ∧
      (all.map (·.totalCapacity)).sum = 2 * (getNetworkStats g).totalCapacity := by
  have hsum : ∀ (w : UInt64 → Nat), (g.nodes.entries.map fun e => (e.2.channels.map w).sum).sum =
      2 * (g.channels.keys.map w).sum := by
    intro w
    rw [← hg.sum_channelsOf w]
    unfold AList.keys List.keys
    rw [List.map_map]
    congr 1
    apply List.map_congr_left
    intro e he
    have hlookup : g.nodes.lookup e.1 = some e.2 := AList.mem_lookup_iff.mpr he
    simp only [Function.comp_apply, NodeGraph.channelsOf, hlookup, Option.elim_some]
  refine ⟨g.allNodes, fun k hk => ?_, getNetworkNode_of_fits b hg hfits, ?_, ?_, ?_⟩
  · refine PagesFrom.congr (fun limit offset => ?_)
      (pagesFrom_of_slice (l := g.allNodes) (fun limit offset => rfl) hk 0)
    simp only [nodePages, Option.getD_some, listNetworkNodes_of_fits b hg hfits, Option.elim_some, slice]
  · simp only [NodeGraph.allNodes, getNetworkStats, AList.keys, List.keys, List.length_map]
  · have hcount := hsum fun _ => 1
    simp only [List.map_const', List.sum_replicate, Nat.nsmul_eq_mul, Nat.mul_one] at hcount
    unfold NodeGraph.allNodes getNetworkStats
    rw [List.map_map]
    simpa only [Function.comp_def, numChannels_nodeInfoWith] using hcount
  · have hcap := hsum (capacityOf g.channels)
    have htotal : (getNetworkStats g).totalCapacity = (capacities g.channels g.channels.keys).sum := by
      simp only [getNetworkStats]
      rw [foldl_addCapacity (Nat.zero_le _), Nat.zero_add]
      exact min_eq_left hfits
    rw [htotal, sum_capacities, ← hcap]
    unfold NodeGraph.allNodes
    rw [List.map_map]
    simp only [Function.comp_def, totalCapacity_nodeInfoWith, sum_capacities]

end

def nodeAt (x : UInt8) : NodeId := ⟨Vector.replicate 33 x⟩

def lineGraph : NodeGraph :=
  ⟨((∅ : NetworkGraph).insert 7 ⟨nodeAt 1, none, nodeAt 2, none, some 500⟩).insert 8
      ⟨nodeAt 2, none, nodeAt 3, none, none⟩,
    (((∅ : Table NodeId NodeInfo).insert (nodeAt 1) ⟨[7], none⟩).insert (nodeAt 2) ⟨[8, 7], none⟩).insert (nodeAt 3)
      ⟨[8], none⟩⟩

theorem lineGraph_consistent : lineGraph.Consistent := by
  have h12 : nodeAt 1 ≠ nodeAt 2 := by decide
  have h23 : nodeAt 2 ≠ nodeAt 3 := by decide
  have h13 : nodeAt 1 ≠ nodeAt 3 := by decide
  have hch : ∀ scid, lineGraph.channels.lookup scid =
      if scid = 8 then some ⟨nodeAt 2, none, nodeAt 3, none, none⟩
      else if scid = 7 then some ⟨nodeAt 1, none, nodeAt 2, none, some 500⟩ else none := by
    intro scid
    simp only [lineGraph, AList.lookup_insert_eq, AList.lookup_empty]
  have hnode : ∀ n, lineGraph.nodes.lookup n =
      if n = nodeAt 3 then some ⟨[8], none⟩ else if n = nodeAt 2 then some ⟨[8, 7], none⟩
      else if n = nodeAt 1 then some ⟨[7], none⟩ else none := by
    intro n
    simp only [lineGraph, AList.lookup_insert_eq, AList.lookup_empty]
  refine ⟨?_, ?_, ?_, ?_⟩
  · intro scid ch h
    rw [hch] at h
    split_ifs at h <;> cases h
    · exact h23
    · exact h12
  · intro scid ch h
    rw [hch] at h
    simp only [← AList.lookup_isSome, hnode]
    split_ifs at h <;> cases h <;> simp [h12, h13, h23]
  · intro n info h
    rw [hnode] at h
    split_ifs at h <;> cases h <;> decide
  · intro n info h scid
    rw [hnode] at h
    rw [hch]
    have h78 : (7 : UInt64) ≠ 8 := by decide
    by_cases h8 : scid = 8
    · subst h8
      split_ifs at h with h3 h2 h1 <;> cases h <;> simp_all [eq_comm]
    · by_cases h7 : scid = 7
      · subst h7
        split_ifs at h with h3 h2 h1 <;> cases h <;> simp_all [eq_comm]
      · split_ifs at h <;> cases h <;> simp [h7, h8]

theorem network_adds_up_line : ∃ all : List NetworkNodeInfo, (∀ k, 0 < k → PagesFrom (nodePages .release lineGraph) k 0 all) ∧
    lineGraph.nodes.keys.map (getNetworkNode .release lineGraph) = all.map (fun x => some (some x)) ∧
    all.length = 3 ∧ (all.map (·.numChannels)).sum = 4 ∧ (all.map (·.totalCapacity)).sum = 1000 :=
  network_adds_up .release lineGraph_consistent (by decide)

end LdkController
