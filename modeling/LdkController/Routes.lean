import LdkController.BestFirst
import LdkController.FixedWidth
import LdkController.Handlers
import LdkController.Outcome
import LdkController.ShortChannelId
import LdkController.Table
import Mathlib.Data.List.Lex
import Mathlib.Data.Prod.Lex

/-!
# Routes

`find_routes` and `get_network_channel` of `src/lightning/ldk_service.rs`, and
the two requests that ask for routes. The channel graph is a table by short
channel id, in the order in which the node lists it. An operation that panics
where the build checks for overflow gives `none`.
-/

namespace LdkController

open Lib

structure NodeId where
  bytes : Vector UInt8 33

theorem NodeId.toNats_injective : Function.Injective fun n : NodeId => n.bytes.toList.map UInt8.toNat := by
  intro a b h
  have hlist : a.bytes.toList = b.bytes.toList := List.map_injective_iff.mpr (fun _ _ => UInt8.toNat_inj.mp) h
  cases a
  cases b
  exact congrArg NodeId.mk (Vector.toList_inj.mp hlist)

/-- Byte by byte. -/
instance : LinearOrder NodeId := LinearOrder.lift' _ NodeId.toNats_injective

structure RoutingFees where
  baseMsat : UInt32
  proportionalMillionths : UInt32

structure ChannelUpdateInfo where
  lastUpdate : UInt32
  enabled : Bool
  cltvExpiryDelta : UInt16
  htlcMinimumMsat : Nat
  htlcMaximumMsat : Nat
  fees : RoutingFees

structure ChannelInfo where
  nodeOne : NodeId
  oneToTwo : Option ChannelUpdateInfo
  nodeTwo : NodeId
  twoToOne : Option ChannelUpdateInfo
  capacitySats : Option Nat

abbrev NetworkGraph := Table UInt64 ChannelInfo

/-! ## Looking a channel up -/

structure NetworkChannelPolicy where
  baseFee : UInt32
  feeRate : UInt32
  minHtlc : Nat
  maxHtlc : Nat
  timeLockDelta : UInt16
  disabled : Bool
  lastUpdate : UInt32

structure NetworkChannelInfo where
  shortChannelId : String
  capacity : Option Nat
  node1Pubkey : String
  node2Pubkey : String
  node1Policy : Option NetworkChannelPolicy
  node2Policy : Option NetworkChannelPolicy

def NodeId.toString (n : NodeId) : String := hexString n.bytes.toList

def ChannelUpdateInfo.policy (p : ChannelUpdateInfo) : NetworkChannelPolicy where
  baseFee := p.fees.baseMsat
  feeRate := p.fees.proportionalMillionths
  minHtlc := p.htlcMinimumMsat
  maxHtlc := p.htlcMaximumMsat
  timeLockDelta := p.cltvExpiryDelta
  disabled := !p.enabled
  lastUpdate := p.lastUpdate

/-- The error is the text of a `ChannelFailed`. -/
def getNetworkChannel (graph : NetworkGraph) (scidStr : String) : Except String (Option NetworkChannelInfo) :=
  match parseScid scidStr with
  | none => .error ("invalid scid format: " ++ scidStr)
  | some scid =>
    .ok ((graph.lookup scid).map fun ch =>
      ⟨formatScid scid, ch.capacitySats, ch.nodeOne.toString, ch.nodeTwo.toString,
        ch.oneToTwo.map ChannelUpdateInfo.policy, ch.twoToOne.map ChannelUpdateInfo.policy⟩)

/-! ## The edges of the search -/

structure Edge where
  next : NodeId
  scid : UInt64
  base : UInt32
  prop : UInt32
  cltv : UInt16

abbrev Adjacency := Table NodeId (List Edge)

def Adjacency.edges (adj : Adjacency) (node : NodeId) : List Edge := (adj.lookup node).getD []

/-- `adj.entry(node).or_default().push(edge)` -/
def Adjacency.push (adj : Adjacency) (node : NodeId) (edge : Edge) : Adjacency :=
  adj.insert node (adj.edges node ++ [edge])

def ChannelUpdateInfo.Admits (upd : ChannelUpdateInfo) (amountMsat : Nat) : Prop :=
  upd.htlcMinimumMsat ≤ amountMsat ∧ amountMsat ≤ upd.htlcMaximumMsat

instance (upd : ChannelUpdateInfo) (amountMsat : Nat) : Decidable (upd.Admits amountMsat) :=
  inferInstanceAs (Decidable (_ ∧ _))

def Adjacency.pushDirection (amountMsat : Nat) (scid : UInt64) (source target : NodeId)
    (update : Option ChannelUpdateInfo) (adj : Adjacency) : Adjacency :=
  match update with
  | none => adj
  | some upd =>
    if upd.Admits amountMsat then
      adj.push source ⟨target, scid, upd.fees.baseMsat, upd.fees.proportionalMillionths, upd.cltvExpiryDelta⟩
    else adj

def Adjacency.pushChannel (graph : NetworkGraph) (amountMsat : Nat) (adj : Adjacency) (scid : UInt64) : Adjacency :=
  match graph.lookup scid with
  | none => adj
  | some ch =>
    (adj.pushDirection amountMsat scid ch.nodeOne ch.nodeTwo ch.oneToTwo).pushDirection amountMsat scid
      ch.nodeTwo ch.nodeOne ch.twoToOne

def adjacency (graph : NetworkGraph) (amountMsat : Nat) : Adjacency :=
  graph.keys.foldl (Adjacency.pushChannel graph amountMsat) ∅

/-! ## The search -/

structure RouteHop where
  pubkey : String
  shortChannelId : String
  fee : Nat
  expiry : UInt16
deriving DecidableEq

structure FoundRoute where
  totalFee : Nat
  totalTimeLock : Nat
  hops : List RouteHop
deriving DecidableEq

structure PathHop where
  node : NodeId
  scid : UInt64
  fee : Nat
  cltv : UInt16

structure Entry where
  cost : Nat
  node : NodeId
  path : List PathHop

abbrev HopKey := NodeId ×ₗ ℕ ×ₗ ℕ ×ₗ ℕ

abbrev EntryKey := ℕ ×ₗ NodeId ×ₗ List HopKey

def PathHop.key (h : PathHop) : HopKey := toLex (h.node, toLex (h.scid.toNat, toLex (h.fee, h.cltv.toNat)))

/-- The tuples of the heap are compared component by component. -/
def Entry.key (e : Entry) : EntryKey := toLex (e.cost, toLex (e.node, e.path.map PathHop.key))

structure Search where
  heap : List Entry
  visited : List NodeId
  found : List FoundRoute

def PathHop.routeHop (h : PathHop) : RouteHop := ⟨hexString h.node.bytes.toList, formatScid h.scid, h.fee, h.cltv⟩

-- a path has at most six hops here, so the sum of the time locks fits a `u32`
def Entry.route (e : Entry) : FoundRoute :=
  let hops := e.path.map PathHop.routeHop
  ⟨e.cost, (hops.map fun h => h.expiry.toNat).sum, hops⟩

def hopFee (b : Build) (amountMsat : Nat) (edge : Edge) : Option Nat := do
  let product ← b.mulU64 amountMsat edge.prop.toNat
  b.addU64 edge.base.toNat (product / 1000000)

/-- The heap with the entries that prolong the path by an edge to a node not visited. -/
def expand (b : Build) (amountMsat : Nat) (visited : List NodeId) (cost : Nat) (path : List PathHop) :
    List Entry → List Edge → Option (List Entry)
  | heap, [] => some heap
  | heap, edge :: edges =>
    if edge.next ∈ visited then expand b amountMsat visited cost path heap edges
    else do
      let fee ← hopFee b amountMsat edge
      let cost' ← b.addU64 cost fee
      expand b amountMsat visited cost path
        (heap ++ [⟨cost', edge.next, path ++ [⟨edge.next, edge.scid, fee, edge.cltv⟩]⟩]) edges

section
variable (b : Build) (adj : Adjacency) (amountMsat : Nat) (destNode : NodeId) (maxRoutes : Nat)

/-- One round of the `while let`; the result `none` is a panic. -/
def searchBody (s : Search) : Iter Search (Option (List FoundRoute)) :=
  match popMin Entry.key s.heap with
  | none => .done (some s.found)
  | some (e, heap) =>
    if maxRoutes ≤ s.found.length then .done (some s.found)
    else if 6 < e.path.length then .step { s with heap }
    else if e.node = destNode then .step { s with heap, found := s.found ++ [e.route] }
    else if e.node ∈ s.visited then .step { s with heap }
    else
      match expand b amountMsat (e.node :: s.visited) e.cost e.path heap (adj.edges e.node) with
      | none => .done none
      | some heap => .step { s with heap, visited := e.node :: s.visited }

def Search.start (ourNode : NodeId) : Search := ⟨[⟨0, ourNode, []⟩], [], []⟩

def Search.work (s : Search) : Nat :=
  s.heap.length + BestFirst.remaining (fun node => (adj.edges node).length) adj.keys s.visited

variable {b amountMsat} in
/-- What is put into the heap are prolongations by edges, at most one for each of them. -/
theorem expand_eq_some {visited : List NodeId} {cost : Nat} {path : List PathHop} :
    ∀ {edges : List Edge} {heap heap' : List Entry}, expand b amountMsat visited cost path heap edges = some heap' →
      ∃ pushed, heap' = heap ++ pushed ∧ pushed.length ≤ edges.length ∧ ∀ e ∈ pushed, ∃ edge ∈ edges, ∃ fee,
        e.path = path ++ [⟨edge.next, edge.scid, fee, edge.cltv⟩]
  | [], heap, heap', h => by
    obtain rfl := Option.some.inj h
    exact ⟨[], (List.append_nil _).symm, le_refl _, fun _ he => nomatch he⟩
  | edge :: edges, heap, heap', h => by
    unfold expand at h
    by_cases hv : edge.next ∈ visited
    · rw [if_pos hv] at h
      obtain ⟨pushed, rfl, hle, hpath⟩ := expand_eq_some h
      refine ⟨pushed, rfl, Nat.le_succ_of_le hle, fun e he => ?_⟩
      obtain ⟨edge', hedge', hfee⟩ := hpath e he
      exact ⟨edge', List.mem_cons_of_mem _ hedge', hfee⟩
    · rw [if_neg hv] at h
      obtain ⟨fee, _, h⟩ := Option.bind_eq_some_iff.mp h
      obtain ⟨cost', _, h⟩ := Option.bind_eq_some_iff.mp h
      obtain ⟨pushed, rfl, hle, hpath⟩ := expand_eq_some h
      refine ⟨⟨cost', edge.next, path ++ [⟨edge.next, edge.scid, fee, edge.cltv⟩]⟩ :: pushed,
        by rw [List.append_assoc, List.singleton_append], Nat.succ_le_succ hle, fun e he => ?_⟩
      rcases List.mem_cons.mp he with rfl | he
      · exact ⟨edge, List.mem_cons_self, fee, rfl⟩
      · obtain ⟨edge', hedge', hfee⟩ := hpath e he
        exact ⟨edge', List.mem_cons_of_mem _ hedge', hfee⟩

theorem mem_keys_or_edges_eq_nil (node : NodeId) : node ∈ adj.keys ∨ adj.edges node = [] := by
  by_cases h : node ∈ adj
  · exact .inl h
  · refine .inr ?_
    unfold Adjacency.edges
    rw [AList.lookup_eq_none.mpr h]
    rfl

section
variable {b adj amountMsat destNode maxRoutes}

/-- The path is short enough, does not end at the destination, and the node it ends at is new. -/
def Entry.Opens (destNode : NodeId) (visited : List NodeId) (e : Entry) : Prop :=
  e.path.length ≤ 6 ∧ e.node ≠ destNode ∧ e.node ∉ visited

instance (destNode : NodeId) (visited : List NodeId) (e : Entry) : Decidable (e.Opens destNode visited) :=
  inferInstanceAs (Decidable (_ ∧ _ ∧ _))

variable (b adj amountMsat destNode maxRoutes) in
inductive Search.Round (s : Search) : Iter Search (Option (List FoundRoute)) → Prop
  | finish (h : popMin Entry.key s.heap = none ∨ maxRoutes ≤ s.found.length) : Round s (.done (some s.found))
  | drop {e heap} (hp : popMin Entry.key s.heap = some (e, heap)) (hroom : s.found.length < maxRoutes)
      (h : 6 < e.path.length ∨ e.node ≠ destNode ∧ e.node ∈ s.visited) : Round s (.step { s with heap })
  | arrive {e heap} (hp : popMin Entry.key s.heap = some (e, heap)) (hroom : s.found.length < maxRoutes)
      (hlen : e.path.length ≤ 6) (hd : e.node = destNode) :
      Round s (.step { s with heap, found := s.found ++ [e.route] })
  | visit {e heap heap'} (hp : popMin Entry.key s.heap = some (e, heap)) (hroom : s.found.length < maxRoutes)
      (ho : e.Opens destNode s.visited)
      (hexp : expand b amountMsat (e.node :: s.visited) e.cost e.path heap (adj.edges e.node) = some heap') :
      Round s (.step { s with heap := heap', visited := e.node :: s.visited })
  | panic {e heap} (hp : popMin Entry.key s.heap = some (e, heap)) (hroom : s.found.length < maxRoutes)
      (ho : e.Opens destNode s.visited)
      (hexp : expand b amountMsat (e.node :: s.visited) e.cost e.path heap (adj.edges e.node) = none) :
      Round s (.done none)

theorem round_searchBody (s : Search) :
    s.Round b adj amountMsat destNode maxRoutes (searchBody b adj amountMsat destNode maxRoutes s) := by
  unfold searchBody
  cases hp : popMin Entry.key s.heap with
  | none => exact .finish (.inl hp)
  | some e =>
    obtain ⟨e, heap⟩ := e
    dsimp only
    split_ifs with hfull hlong hd hv
    · exact .finish (.inr hfull)
    · exact .drop hp (not_le.mp hfull) (.inl hlong)
    · exact .arrive hp (not_le.mp hfull) (not_lt.mp hlong) hd
    · exact .drop hp (not_le.mp hfull) (.inr ⟨hd, hv⟩)
    · cases hexp : expand b amountMsat (e.node :: s.visited) e.cost e.path heap (adj.edges e.node) with
      | none => exact .panic hp (not_le.mp hfull) ⟨not_lt.mp hlong, hd, hv⟩ hexp
      | some heap' => exact .visit hp (not_le.mp hfull) ⟨not_lt.mp hlong, hd, hv⟩ hexp

section
variable {s : Search} {r : Iter Search (Option (List FoundRoute))}

theorem Search.Round.of_eq (h : searchBody b adj amountMsat destNode maxRoutes s = r) :
    s.Round b adj amountMsat destNode maxRoutes r :=
  h ▸ round_searchBody s

theorem Search.Round.eq_searchBody (h : s.Round b adj amountMsat destNode maxRoutes r) :
    searchBody b adj amountMsat destNode maxRoutes s = r := by
  unfold searchBody
  cases h with
  | finish h =>
    cases hp : popMin Entry.key s.heap with
    | none => rfl
    | some e => exact if_pos (h.resolve_left fun hnone => by rw [hp] at hnone; cases hnone)
  | drop hp hroom h =>
    simp only [hp, if_neg (not_le.mpr hroom)]
    rcases h with hlong | ⟨hd, hv⟩
    · rw [if_pos hlong]
    · rw [if_neg hd, if_pos hv, ite_self]
  | arrive hp hroom hlen hd => simp only [hp, if_neg (not_le.mpr hroom), if_neg (not_lt.mpr hlen), if_pos hd]
  | visit hp hroom ho hexp =>
    simp only [hp, if_neg (not_le.mpr hroom), if_neg (not_lt.mpr ho.1), if_neg ho.2.1, if_neg ho.2.2, hexp]
  | panic hp hroom ho hexp =>
    simp only [hp, if_neg (not_le.mpr hroom), if_neg (not_lt.mpr ho.1), if_neg ho.2.1, if_neg ho.2.2, hexp]

end

/-- A round that goes on takes the least entry and drops it, or reports it, or visits its node. -/
theorem searchBody_eq_step {s s' : Search} (h : searchBody b adj amountMsat destNode maxRoutes s = .step s') :
    ∃ e heap, popMin Entry.key s.heap = some (e, heap) ∧ s.found.length < maxRoutes ∧
      (¬ e.Opens destNode s.visited ∧ s'.heap = heap ∧ s'.visited = s.visited ∧
          (s'.found = s.found ∨ s'.found = s.found ++ [e.route]) ∨
        e.Opens destNode s.visited ∧ s'.visited = e.node :: s.visited ∧ s'.found = s.found ∧
          expand b amountMsat (e.node :: s.visited) e.cost e.path heap (adj.edges e.node) = some s'.heap) := by
  cases Search.Round.of_eq h with
  | @drop e heap hp hroom hdrop =>
    refine ⟨e, heap, hp, hroom, .inl ⟨fun ho => ?_, rfl, rfl, .inl rfl⟩⟩
    exact hdrop.elim (not_lt.mpr ho.1) fun hv => ho.2.2 hv.2
  | @arrive e heap hp hroom _ hd => exact ⟨e, heap, hp, hroom, .inl ⟨fun ho => ho.2.1 hd, rfl, rfl, .inr rfl⟩⟩
  | @visit e heap _ hp hroom ho hexp => exact ⟨e, heap, hp, hroom, .inr ⟨ho, rfl, rfl, hexp⟩⟩

theorem work_lt_of_step {s s' : Search} (h : searchBody b adj amountMsat destNode maxRoutes s = .step s') :
    s'.work adj < s.work adj := by
  obtain ⟨e, heap, hp, _, hstep⟩ := searchBody_eq_step h
  have hlen := (popMin_spec Entry.key hp).1.length_eq
  rw [List.length_cons] at hlen
  unfold Search.work
  rcases hstep with ⟨_, hheap, hvisited, _⟩ | ⟨⟨_, _, hv⟩, hvisited, _, hexp⟩
  · rw [hheap, hvisited]
    omega
  · obtain ⟨pushed, hpushed, hle, _⟩ := expand_eq_some hexp
    have hrem := BestFirst.remaining_close (fun node => (adj.edges node).length) hv
      ((mem_keys_or_edges_eq_nil adj e.node).imp_right (congrArg List.length))
    rw [hvisited, hpushed, List.length_append]
    omega

end

theorem isSome_search (ourNode : NodeId) :
    (loop (searchBody b adj amountMsat destNode maxRoutes) ((Search.start ourNode).work adj + 1)
      (Search.start ourNode)).isSome = true :=
  isSome_loop (fun _ _ => work_lt_of_step) (Nat.lt_succ_self _)

def search (ourNode : NodeId) : Option (List FoundRoute) :=
  (loop (searchBody b adj amountMsat destNode maxRoutes) ((Search.start ourNode).work adj + 1)
    (Search.start ourNode)).get (isSome_search b adj amountMsat destNode maxRoutes ourNode)

end

/-- `parsePublicKey` reads a key and writes it as 33 bytes. -/
structure RouteService where
  parsePublicKey : String → Option NodeId
  nodeId : NodeId
  networkGraph : NetworkGraph

def findRoutes (b : Build) (service : RouteService) (destPubkey : String) (amountMsat maxRoutes : Nat) :
    Option (List FoundRoute) :=
  match service.parsePublicKey destPubkey with
  | none => some []
  | some destNode =>
    if service.nodeId = destNode then some []
    else search b (adjacency service.networkGraph amountMsat) amountMsat destNode maxRoutes service.nodeId

/-! ## The requests -/

structure EstimateRoutingFeesResponse where
  fee : Nat
  timeLockDelay : Nat

section
variable (b : Build) (service : Option RouteService)

def routesOf (destination : String) (amountMsat maxRoutes : Nat) : Option (List FoundRoute) :=
  match service with
  | some service => findRoutes b service destination amountMsat maxRoutes
  | none => some []

/-- `EstimateRoutingFeesHandler::execute` -/
def executeEstimateRoutingFees (req : Request) : Outcome NIP47Error EstimateRoutingFeesResponse :=
  match req.params with
  | .estimateRoutingFees destination amount =>
    match routesOf b service destination amount 1 with
    | none => .panic
    | some [] => .err ⟨.other, "no route found to destination"⟩
    | some (route :: _) => .ok ⟨route.totalFee, route.totalTimeLock⟩
  | _ => .err (invalidParams "estimate_routing_fees")

/-- `query_routes`; an argument is what its parameter reads as, if it does. -/
def queryRoutes (destination : Option String) (amount maxRoutes : Option Nat) : Outcome ControlError (List FoundRoute) :=
  let destination := destination.getD ""
  let amountMsat := amount.getD 0
  if destination.isEmpty || amountMsat = 0 then .err ⟨"OTHER", "destination and amount required"⟩
  else
    match routesOf b service destination amountMsat (maxRoutes.getD 1) with
    | none => .panic
    | some [] => .err ⟨"NOT_FOUND", "no route found to destination"⟩
    | some (route :: routes) => .ok (route :: routes)

end

end LdkController
