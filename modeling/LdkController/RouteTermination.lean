import LdkController.RouteSearch

/-!
# The end of the search for routes

A round takes one entry out of the heap, and only a round that visits a node puts
entries in, at most one for each edge of the node. No node is visited twice, so
there are at most as many rounds as edges, and one more for the entry that the
search starts with.
-/

namespace LdkController

open Lib

/-! ## Edges and directions -/

def Adjacency.size (adj : Adjacency) : Nat := (adj.keys.map fun node => (adj.edges node).length).sum

def ChannelInfo.directions (ch : ChannelInfo) : List ChannelUpdateInfo := ch.oneToTwo.toList ++ ch.twoToOne.toList

def directions (graph : NetworkGraph) (scid : UInt64) : List ChannelUpdateInfo :=
  ((graph.lookup scid).map ChannelInfo.directions).getD []

def admittedDirections (graph : NetworkGraph) (amountMsat : Nat) : Nat :=
  (graph.keys.flatMap (directions graph)).countP fun upd => upd.Admits amountMsat

theorem size_push (adj : Adjacency) (source : NodeId) (edge : Edge) : (adj.push source edge).size = adj.size + 1 := by
  have hrest : ((adj.keys.erase source).map fun node => ((adj.push source edge).edges node).length) =
      (adj.keys.erase source).map fun node => (adj.edges node).length := by
    refine List.map_congr_left fun node hnode => ?_
    have hne : source ≠ node := Ne.symm ((List.Nodup.mem_erase_iff adj.keys_nodup).mp hnode).1
    rw [edges_push, if_neg hne, List.append_nil]
  have hsource : ((adj.push source edge).edges source).length = (adj.edges source).length + 1 := by
    rw [edges_push, if_pos rfl, List.length_append, List.length_singleton]
  have hkeys : (adj.push source edge).keys = source :: adj.keys.erase source := AList.keys_insert adj
  have hsum : (adj.edges source).length + ((adj.keys.erase source).map fun node => (adj.edges node).length).sum =
      adj.size := by
    by_cases hmem : source ∈ adj.keys
    · exact List.sum_map_erase (fun node => (adj.edges node).length) hmem
    · rw [(mem_keys_or_edges_eq_nil adj source).resolve_left hmem, List.erase_of_not_mem hmem]
      exact Nat.zero_add _
  rw [Adjacency.size, hkeys, List.map_cons, List.sum_cons, hrest, hsource]
  omega

theorem size_pushDirection (amountMsat : Nat) (scid : UInt64) (source target : NodeId)
    (update : Option ChannelUpdateInfo) (adj : Adjacency) :
    (adj.pushDirection amountMsat scid source target update).size =
      adj.size + update.toList.countP fun upd => upd.Admits amountMsat := by
  unfold Adjacency.pushDirection
  cases update with
  | none => rfl
  | some upd =>
    by_cases h : upd.Admits amountMsat
    · simp [h, size_push]
    · simp [h]

theorem size_pushChannel (graph : NetworkGraph) (amountMsat : Nat) (adj : Adjacency) (scid : UInt64) :
    (adj.pushChannel graph amountMsat scid).size =
      adj.size + (directions graph scid).countP fun upd => upd.Admits amountMsat := by
  unfold Adjacency.pushChannel directions
  cases graph.lookup scid with
  | none => rfl
  | some ch =>
    simp only [size_pushDirection, Option.map_some, Option.getD_some, ChannelInfo.directions, List.countP_append]
    omega

theorem size_adjacency (graph : NetworkGraph) (amountMsat : Nat) :
    (adjacency graph amountMsat).size = admittedDirections graph amountMsat := by
  have h : ∀ (scids : List UInt64) (adj : Adjacency),
      (scids.foldl (Adjacency.pushChannel graph amountMsat) adj).size =
        adj.size + (scids.flatMap (directions graph)).countP fun upd => upd.Admits amountMsat := by
    intro scids
    induction scids with
    | nil => intro adj; rfl
    | cons scid scids ih =>
      intro adj
      rw [List.foldl_cons, ih, size_pushChannel, List.flatMap_cons, List.countP_append]
      omega
  exact (h graph.keys ∅).trans (Nat.zero_add _)

/-! ## What a round takes out and puts in -/

def Search.popped (s : Search) : Option Entry := (popMin Entry.key s.heap).map Prod.fst

section
variable (b : Build) (adj : Adjacency) (amountMsat : Nat) (destNode : NodeId) (maxRoutes : Nat)

def Search.expanded (s : Search) : Option NodeId :=
  s.popped.bind fun e => if s.found.length < maxRoutes ∧ e.Opens destNode s.visited then some e.node else none

def rounds (fuel : Nat) (ourNode : NodeId) : List Search :=
  heads (searchBody b adj amountMsat destNode maxRoutes) fuel (Search.start ourNode)

variable {b adj amountMsat destNode maxRoutes}

theorem expanded_not_mem {s : Search} {node : NodeId} (h : s.expanded destNode maxRoutes = some node) :
    node ∉ s.visited := by
  obtain ⟨e, _, h⟩ := Option.bind_eq_some_iff.mp h
  split_ifs at h with ho
  obtain rfl := Option.some.inj h
  exact ho.2.2.2

theorem round_eq {s s' : Search} (h : searchBody b adj amountMsat destNode maxRoutes s = .step s') :
    ∃ e rest pushed, popMin Entry.key s.heap = some (e, rest) ∧ s'.heap = rest ++ pushed ∧
      pushed.length ≤ ((s.expanded destNode maxRoutes).elim 0 fun node => (adj.edges node).length) ∧
      s'.visited = (s.expanded destNode maxRoutes).toList ++ s.visited := by
  obtain ⟨e, rest, hp, hmax, hstep⟩ := searchBody_eq_step h
  have hpopped : s.popped = some e := by rw [Search.popped, hp]; rfl
  rcases hstep with ⟨hno, hheap, hvisited, _⟩ | ⟨ho, hvisited, _, hexp⟩
  · have hexpanded : s.expanded destNode maxRoutes = none := by
      rw [Search.expanded, hpopped, Option.bind_some, if_neg fun hc => hno hc.2]
    refine ⟨e, rest, [], hp, hheap.trans (List.append_nil _).symm, Nat.zero_le _, ?_⟩
    rw [hexpanded, hvisited]
    rfl
  · have hexpanded : s.expanded destNode maxRoutes = some e.node := by
      rw [Search.expanded, hpopped, Option.bind_some, if_pos ⟨hmax, ho⟩]
    obtain ⟨pushed, hheap, hle, _⟩ := expand_eq_some hexp
    refine ⟨e, rest, pushed, hp, hheap, ?_, ?_⟩
    · rw [hexpanded]
      exact hle
    · rw [hexpanded, hvisited]
      rfl

theorem work_start (ourNode : NodeId) : (Search.start ourNode).work adj = 1 + adj.size := by
  simp [Search.work, Search.start, BestFirst.remaining, Adjacency.size]

theorem work_pos_of_popped {s : Search} {e : Entry} (h : s.popped = some e) : 0 < s.work adj := by
  obtain ⟨⟨_, rest⟩, hp, _⟩ := Option.map_eq_some_iff.mp h
  have hlen := (popMin_spec Entry.key hp).1.length_eq
  rw [List.length_cons] at hlen
  unfold Search.work
  omega

end

/-- **Termination of the search.** For any edges the loop ends, after taking out at most as many entries as there are
edges and one more, as no node is expanded twice; the edges are the directions that admit the amount. -/
theorem search_terminates (b : Build) (adj : Adjacency) (amountMsat : Nat) (ourNode destNode : NodeId) (maxRoutes : Nat) :
    (∃ r, loop (searchBody b adj amountMsat destNode maxRoutes) (adj.size + 2) (Search.start ourNode) = some r) ∧
    (∀ fuel, ((rounds b adj amountMsat destNode maxRoutes fuel ourNode).filterMap Search.popped).length ≤ 1 + adj.size) ∧
    (∀ fuel, ((rounds b adj amountMsat destNode maxRoutes fuel ourNode).filterMap
      (Search.expanded destNode maxRoutes)).Nodup) ∧
    (∀ s s', searchBody b adj amountMsat destNode maxRoutes s = .step s' →
      ∃ e rest pushed, popMin Entry.key s.heap = some (e, rest) ∧ s'.heap = rest ++ pushed ∧
        pushed.length ≤ ((s.expanded destNode maxRoutes).elim 0 fun node => (adj.edges node).length)) ∧
    ∀ graph, (adjacency graph amountMsat).size = admittedDirections graph amountMsat := by
  have hdec : ∀ s s', searchBody b adj amountMsat destNode maxRoutes s = .step s' → s'.work adj < s.work adj :=
    fun _ _ => work_lt_of_step
  have hmark : ∀ s s', searchBody b adj amountMsat destNode maxRoutes s = .step s' →
      ∀ node, node ∈ s.visited ∨ s.expanded destNode maxRoutes = some node → node ∈ s'.visited := by
    intro s s' h node hnode
    obtain ⟨_, _, _, _, _, _, hvisited⟩ := round_eq h
    rw [hvisited, List.mem_append, Option.mem_toList]
    exact hnode.symm
  refine ⟨?_, ?_, ?_, ?_, fun graph => size_adjacency graph amountMsat⟩
  · exact Option.isSome_iff_exists.mp (isSome_loop hdec (by rw [work_start]; omega))
  · intro fuel
    rw [← work_start ourNode]
    exact length_filterMap_heads_le hdec (fun _ _ => work_pos_of_popped) fuel _
  · exact fun fuel => (nodup_filterMap_heads (fun _ _ => expanded_not_mem) hmark fuel _).1
  · intro s s' h
    obtain ⟨e, rest, pushed, hp, hheap, hle, _⟩ := round_eq h
    exact ⟨e, rest, pushed, hp, hheap, hle⟩

end LdkController
