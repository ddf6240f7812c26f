import LdkController.FirstCome
import LdkController.Hex
import LdkController.Routes

/-!
# The search for routes as a best-first search

The edges of the search are the channel directions that admit the amount. With
exact fees the search is a best-first search with a limit of six hops; the
program follows it as long as its arithmetic does not leave a word.
-/

namespace LdkController

open Lib

/-! ## Channel directions -/

/-- A channel in one of its directions, with the policy for it. -/
structure Leg where
  source : NodeId
  target : NodeId
  scid : UInt64
  update : ChannelUpdateInfo

def HasLeg (graph : NetworkGraph) (l : Leg) : Prop :=
  ∃ ch, graph.lookup l.scid = some ch ∧
    (ch.nodeOne = l.source ∧ ch.nodeTwo = l.target ∧ ch.oneToTwo = some l.update ∨
      ch.nodeTwo = l.source ∧ ch.nodeOne = l.target ∧ ch.twoToOne = some l.update)

def Leg.edge (l : Leg) : Edge :=
  ⟨l.target, l.scid, l.update.fees.baseMsat, l.update.fees.proportionalMillionths, l.update.cltvExpiryDelta⟩

def directionEdges (amountMsat : Nat) (scid : UInt64) (node source target : NodeId)
    (update : Option ChannelUpdateInfo) : List Edge :=
  match update with
  | none => []
  | some upd => if upd.Admits amountMsat ∧ source = node then [Leg.edge ⟨source, target, scid, upd⟩] else []

def channelEdges (graph : NetworkGraph) (amountMsat : Nat) (node : NodeId) (scid : UInt64) : List Edge :=
  match graph.lookup scid with
  | none => []
  | some ch =>
    directionEdges amountMsat scid node ch.nodeOne ch.nodeTwo ch.oneToTwo ++
      directionEdges amountMsat scid node ch.nodeTwo ch.nodeOne ch.twoToOne

section
variable (amountMsat : Nat) (node : NodeId)

theorem edges_push (adj : Adjacency) (source : NodeId) (edge : Edge) :
    (adj.push source edge).edges node = adj.edges node ++ if source = node then [edge] else [] := by
  unfold Adjacency.push Adjacency.edges
  rw [AList.lookup_insert_eq]
  by_cases h : source = node
  · subst h
    simp
  · simp [h, Ne.symm h]

theorem edges_pushDirection (adj : Adjacency) (scid : UInt64) (source target : NodeId)
    (update : Option ChannelUpdateInfo) :
    (adj.pushDirection amountMsat scid source target update).edges node =
      adj.edges node ++ directionEdges amountMsat scid node source target update := by
  unfold Adjacency.pushDirection directionEdges
  cases update with
  | none => simp
  | some upd =>
    by_cases h : upd.Admits amountMsat
    · dsimp only
      rw [if_pos h, edges_push]
      simp only [h, true_and]
      rfl
    · simp [h]

theorem edges_pushChannel (graph : NetworkGraph) (adj : Adjacency) (scid : UInt64) :
    (adj.pushChannel graph amountMsat scid).edges node = adj.edges node ++ channelEdges graph amountMsat node scid := by
  unfold Adjacency.pushChannel channelEdges
  cases graph.lookup scid with
  | none => simp
  | some ch => rw [edges_pushDirection, edges_pushDirection, List.append_assoc]

theorem edges_adjacency (graph : NetworkGraph) :
    (adjacency graph amountMsat).edges node = graph.keys.flatMap (channelEdges graph amountMsat node) := by
  have h : ∀ (scids : List UInt64) (adj : Adjacency),
      (scids.foldl (Adjacency.pushChannel graph amountMsat) adj).edges node =
        adj.edges node ++ scids.flatMap (channelEdges graph amountMsat node) := by
    intro scids
    induction scids with
    | nil => simp
    | cons scid scids ih =>
      intro adj
      rw [List.foldl_cons, ih, edges_pushChannel, List.append_assoc, List.flatMap_cons]
  exact (h graph.keys ∅).trans (by simp [Adjacency.edges])

variable {amountMsat node}

theorem mem_directionEdges {scid : UInt64} {source target : NodeId} {update : Option ChannelUpdateInfo} {e : Edge} :
    e ∈ directionEdges amountMsat scid node source target update ↔
      ∃ upd, update = some upd ∧ upd.Admits amountMsat ∧ source = node ∧ e = Leg.edge ⟨source, target, scid, upd⟩ := by
  unfold directionEdges
  cases update with
  | none => simp
  | some upd =>
    by_cases h : upd.Admits amountMsat ∧ source = node
    · simp [h]
    · dsimp only
      rw [if_neg h]
      simp only [List.not_mem_nil, Option.some.injEq, exists_eq_left', false_iff]
      exact fun hc => h ⟨hc.1, hc.2.1⟩

theorem pairwise_directionEdges {R : Edge → Edge → Prop} {scid : UInt64} {source target : NodeId}
    {update : Option ChannelUpdateInfo} : (directionEdges amountMsat scid node source target update).Pairwise R := by
  unfold directionEdges
  cases update with
  | none => exact .nil
  | some upd =>
    dsimp only
    by_cases h : upd.Admits amountMsat ∧ source = node
    · rw [if_pos h]
      exact List.pairwise_singleton _ _
    · rw [if_neg h]
      exact .nil

theorem mem_channelEdges {graph : NetworkGraph} {scid : UInt64} {e : Edge} :
    e ∈ channelEdges graph amountMsat node scid ↔
      ∃ l, HasLeg graph l ∧ l.scid = scid ∧ l.source = node ∧ l.update.Admits amountMsat ∧ l.edge = e := by
  unfold channelEdges
  constructor
  · intro h
    cases hch : graph.lookup scid with
    | none => rw [hch] at h; cases h
    | some ch =>
      rw [hch] at h
      rcases List.mem_append.mp h with h | h
      · obtain ⟨upd, hupd, hadm, hsrc, rfl⟩ := mem_directionEdges.mp h
        exact ⟨⟨ch.nodeOne, ch.nodeTwo, scid, upd⟩, ⟨ch, hch, .inl ⟨rfl, rfl, hupd⟩⟩, rfl, hsrc, hadm, rfl⟩
      · obtain ⟨upd, hupd, hadm, hsrc, rfl⟩ := mem_directionEdges.mp h
        exact ⟨⟨ch.nodeTwo, ch.nodeOne, scid, upd⟩, ⟨ch, hch, .inr ⟨rfl, rfl, hupd⟩⟩, rfl, hsrc, hadm, rfl⟩
  · intro h
    obtain ⟨l, ⟨ch, hch, hdir⟩, rfl, hsrc, hadm, rfl⟩ := h
    rw [hch]
    refine List.mem_append.mpr ?_
    rcases hdir with ⟨hone, htwo, hupd⟩ | ⟨htwo, hone, hupd⟩
    · exact .inl (mem_directionEdges.mpr ⟨l.update, hupd, hadm, hone.trans hsrc, by rw [hone, htwo]⟩)
    · exact .inr (mem_directionEdges.mpr ⟨l.update, hupd, hadm, htwo.trans hsrc, by rw [hone, htwo]⟩)

/-- **The edges of a node** are the channel directions from it that admit the amount. -/
theorem mem_edges {graph : NetworkGraph} {e : Edge} :
    e ∈ (adjacency graph amountMsat).edges node ↔
      ∃ l, HasLeg graph l ∧ l.source = node ∧ l.update.Admits amountMsat ∧ l.edge = e := by
  rw [edges_adjacency, List.mem_flatMap]
  constructor
  · intro h
    obtain ⟨scid, _, h⟩ := h
    obtain ⟨l, hleg, _, hrest⟩ := mem_channelEdges.mp h
    exact ⟨l, hleg, hrest⟩
  · intro h
    obtain ⟨l, hleg, hrest⟩ := h
    obtain ⟨ch, hch, _⟩ := id hleg
    refine ⟨l.scid, ?_, mem_channelEdges.mpr ⟨l, hleg, rfl, hrest⟩⟩
    exact AList.mem_keys.mp (AList.lookup_isSome.mp (by rw [hch]; rfl))

theorem pairwise_edges (graph : NetworkGraph) :
    ((adjacency graph amountMsat).edges node).Pairwise fun e f => e.scid = f.scid → e.next = node := by
  rw [edges_adjacency, List.pairwise_flatMap]
  constructor
  · intro scid _
    unfold channelEdges
    cases graph.lookup scid with
    | none => exact .nil
    | some ch =>
      -- only a channel from a node to itself is left by both of its directions
      refine List.pairwise_append.mpr ⟨pairwise_directionEdges, pairwise_directionEdges, fun e he f hf _ => ?_⟩
      obtain ⟨_, _, _, _, rfl⟩ := mem_directionEdges.mp he
      obtain ⟨_, _, _, htwo, _⟩ := mem_directionEdges.mp hf
      exact htwo
  · refine List.Pairwise.imp (fun hne e he f hf heq => ?_) graph.keys_nodup
    obtain ⟨l, _, rfl, _, _, rfl⟩ := mem_channelEdges.mp he
    obtain ⟨l', _, rfl, _, _, rfl⟩ := mem_channelEdges.mp hf
    exact absurd heq hne

end

/-! ## The search with exact fees -/

def Edge.hop (amountMsat : Nat) (e : Edge) : PathHop :=
  ⟨e.next, e.scid, e.base.toNat + amountMsat * e.prop.toNat / 1000000, e.cltv⟩

def exactEntry (source : NodeId) (path : List PathHop) : Entry :=
  ⟨weight PathHop.fee path, endOf PathHop.node source path, path⟩

def routeProblem (adj : Adjacency) (amountMsat : Nat) (source destNode : NodeId) :
    BestFirst.Problem NodeId PathHop EntryKey where
  tgt := PathHop.node
  w := PathHop.fee
  out node := (adj.edges node).map (Edge.hop amountMsat)
  key path := (exactEntry source path).key
  source := source
  target := destNode
  hopLimit := 6

theorem PathHop.key_injective : Function.Injective PathHop.key := by
  intro g h heq
  simp only [PathHop.key, EmbeddingLike.apply_eq_iff_eq, Prod.mk.injEq] at heq
  obtain ⟨hnode, hscid, hfee, hcltv⟩ := heq
  cases g
  cases h
  simp_all [UInt64.toNat_inj, UInt16.toNat_inj]

section
variable {adj : Adjacency} {amountMsat : Nat} {source destNode : NodeId}

theorem key_injective : Function.Injective (routeProblem adj amountMsat source destNode).key := by
  intro p q heq
  simp only [routeProblem, exactEntry, Entry.key, EmbeddingLike.apply_eq_iff_eq, Prod.mk.injEq] at heq
  exact List.map_injective_iff.mpr PathHop.key_injective heq.2.2

theorem weight_le_of_key (p q : List PathHop)
    (h : (routeProblem adj amountMsat source destNode).key p ≤ (routeProblem adj amountMsat source destNode).key q) :
    weight PathHop.fee p ≤ weight PathHop.fee q := by
  rcases Prod.Lex.le_iff.mp h with h | h
  · exact h.le
  · exact h.1.le

end

theorem pairwise_out (graph : NetworkGraph) (amountMsat : Nat) (source destNode node : NodeId) :
    ((routeProblem (adjacency graph amountMsat) amountMsat source destNode).out node).Pairwise
      fun g h => g = h → g.node = node := by
  refine List.pairwise_map.mpr ((pairwise_edges graph).imp fun h heq => h ?_)
  exact congrArg PathHop.scid heq

/-! ## Where the program follows it -/

/-- The arithmetic of an expansion stays within a word. -/
def Fits (amountMsat : Nat) (visited : List NodeId) (cost : Nat) (edges : List Edge) : Prop :=
  ∀ e ∈ edges, e.next ∉ visited →
    amountMsat * e.prop.toNat ≤ u64Max ∧ cost + (e.hop amountMsat).fee ≤ u64Max

theorem hopFee_of_fits (b : Build) {amountMsat : Nat} {e : Edge} (h : amountMsat * e.prop.toNat ≤ u64Max) :
    hopFee b amountMsat e = some (e.hop amountMsat).fee := by
  have hbase := e.base.toNat_lt
  have hfee : e.base.toNat + amountMsat * e.prop.toNat / 1000000 ≤ u64Max := by
    unfold u64Max at h ⊢
    omega
  unfold hopFee
  rw [Build.mulU64_of_le b h]
  exact Build.addU64_of_le b hfee

theorem product_le_of_hopFee {amountMsat fee : Nat} {e : Edge} (h : hopFee ⟨true⟩ amountMsat e = some fee) :
    amountMsat * e.prop.toNat ≤ u64Max := by
  by_contra hgt
  have hnone : Build.mulU64 ⟨true⟩ amountMsat e.prop.toNat = none :=
    Build.mulU64_eq_none.mpr ⟨not_le.mp hgt, rfl⟩
  unfold hopFee at h
  rw [hnone] at h
  cases h

section
variable {amountMsat : Nat} {visited : List NodeId} {cost : Nat} {path : List PathHop}

theorem Fits.tail {e : Edge} {edges : List Edge} (h : Fits amountMsat visited cost (e :: edges)) :
    Fits amountMsat visited cost edges :=
  fun e' he' => h e' (List.mem_cons_of_mem e he')

theorem expand_of_fits (b : Build) : ∀ {edges : List Edge} {heap : List Entry}, Fits amountMsat visited cost edges →
    expand b amountMsat visited cost path heap edges = some (heap ++ (edges.filter fun e => e.next ∉ visited).map fun e =>
      ⟨cost + (e.hop amountMsat).fee, e.next, path ++ [e.hop amountMsat]⟩)
  | [], heap, _ => by simp [expand]
  | e :: edges, heap, h => by
    unfold expand
    by_cases hv : e.next ∈ visited
    · rw [if_pos hv, expand_of_fits b h.tail]
      simp [hv]
    · obtain ⟨hmul, hadd⟩ := h e List.mem_cons_self hv
      rw [if_neg hv, hopFee_of_fits b hmul]
      simp only [Option.bind_eq_bind, Option.bind_some, Build.addU64_of_le b hadd]
      rw [expand_of_fits b h.tail]
      simp [hv, Edge.hop]

theorem fits_of_expand : ∀ {edges : List Edge} {heap heap' : List Entry},
    expand ⟨true⟩ amountMsat visited cost path heap edges = some heap' → Fits amountMsat visited cost edges
  | [], _, _, _ => fun _ h => by cases h
  | e :: edges, heap, heap', h => by
    unfold expand at h
    by_cases hv : e.next ∈ visited
    · rw [if_pos hv] at h
      intro e' he' hv'
      rcases List.mem_cons.mp he' with rfl | he'
      · exact absurd hv hv'
      · exact fits_of_expand h e' he' hv'
    · rw [if_neg hv] at h
      obtain ⟨fee, hfee, h⟩ := Option.bind_eq_some_iff.mp h
      obtain ⟨cost', hcost, h⟩ := Option.bind_eq_some_iff.mp h
      have hmul := product_le_of_hopFee hfee
      rw [hopFee_of_fits ⟨true⟩ hmul] at hfee
      obtain rfl := Option.some.inj hfee
      intro e' he' hv'
      rcases List.mem_cons.mp he' with rfl | he'
      · refine ⟨hmul, ?_⟩
        by_contra hgt
        rw [Build.addU64_eq_none.mpr ⟨not_le.mp hgt, rfl⟩] at hcost
        cases hcost
      · exact fits_of_expand h e' he' hv'

end

section
variable (adj : Adjacency) (amountMsat : Nat) (source destNode : NodeId)

def pathRoute (path : List PathHop) : FoundRoute := (exactEntry source path).route

/-- The state of the program in which a state of the exact search is kept. -/
def render (t : BestFirst.State PathHop) : Search where
  heap := t.heap.map (exactEntry source)
  visited := BestFirst.ends (routeProblem adj amountMsat source destNode) t.settled
  found := t.arrived.map (pathRoute source)

theorem map_children (visited : List NodeId) (path : List PathHop) :
    (BestFirst.children (routeProblem adj amountMsat source destNode) visited path).map (exactEntry source) =
      ((adj.edges (endOf PathHop.node source path)).filter fun e => e.next ∉ visited).map fun e =>
        ⟨weight PathHop.fee path + (e.hop amountMsat).fee, e.next, path ++ [e.hop amountMsat]⟩ := by
  unfold BestFirst.children
  simp only [routeProblem, BestFirst.dest, List.filter_map, List.map_map]
  refine List.map_congr_left fun e _ => ?_
  simp [exactEntry, Edge.hop, Function.comp_def]

theorem popMin_render (t : BestFirst.State PathHop) :
    popMin Entry.key (render adj amountMsat source destNode t).heap =
      (popMin (routeProblem adj amountMsat source destNode).key t.heap).map fun e =>
        (exactEntry source e.1, e.2.map (exactEntry source)) :=
  popMin_map Entry.key (exactEntry source) t.heap

/-- The least path of the heap is expanded, and that takes a fee or a cost out of a word. -/
def Overflows (t : BestFirst.State PathHop) : Prop :=
  ∃ path rest, popMin (routeProblem adj amountMsat source destNode).key t.heap = some (path, rest) ∧ path.length ≤ 6 ∧
    ¬ Fits amountMsat
      (BestFirst.ends (routeProblem adj amountMsat source destNode) (path :: t.settled))
      (weight PathHop.fee path) (adj.edges (endOf PathHop.node source path))

variable {adj amountMsat source destNode}

section
variable {t : BestFirst.State PathHop} {path : List PathHop}

theorem expand_exactEntry (b : Build) (hfit : Fits amountMsat
    (BestFirst.ends (routeProblem adj amountMsat source destNode) (path :: t.settled))
    (weight PathHop.fee path) (adj.edges (endOf PathHop.node source path))) (rest : List (List PathHop)) :
    expand b amountMsat ((exactEntry source path).node :: (render adj amountMsat source destNode t).visited)
        (exactEntry source path).cost (exactEntry source path).path (rest.map (exactEntry source))
        (adj.edges (exactEntry source path).node) =
      some ((rest ++ BestFirst.children (routeProblem adj amountMsat source destNode)
        (BestFirst.ends (routeProblem adj amountMsat source destNode) (path :: t.settled)) path).map
          (exactEntry source)) := by
  rw [List.map_append, map_children]
  exact expand_of_fits b hfit

theorem expand_eq_none (hfit : ¬ Fits amountMsat
    (BestFirst.ends (routeProblem adj amountMsat source destNode) (path :: t.settled))
    (weight PathHop.fee path) (adj.edges (endOf PathHop.node source path))) (rest : List (List PathHop)) :
    expand ⟨true⟩ amountMsat ((exactEntry source path).node :: (render adj amountMsat source destNode t).visited)
        (exactEntry source path).cost (exactEntry source path).path (rest.map (exactEntry source))
        (adj.edges (exactEntry source path).node) = none := by
  cases hexp : expand ⟨true⟩ amountMsat
      ((exactEntry source path).node :: (render adj amountMsat source destNode t).visited)
      (exactEntry source path).cost (exactEntry source path).path (rest.map (exactEntry source))
      (adj.edges (exactEntry source path).node) with
  | none => rfl
  | some heap => exact absurd (fits_of_expand hexp) hfit

end

/-- **One round** follows the exact search, unless the arithmetic overflows. -/
theorem searchBody_render (b : Build) (n : Nat) (t : BestFirst.State PathHop) :
    searchBody b adj amountMsat destNode n (render adj amountMsat source destNode t) =
        (BestFirst.body (routeProblem adj amountMsat source destNode) n t).map
          (render adj amountMsat source destNode) (fun r => some (r.map (pathRoute source))) ∨
      Overflows adj amountMsat source destNode t ∧ (b.overflowChecks = true →
        searchBody b adj amountMsat destNode n (render adj amountMsat source destNode t) = .done none) := by
  have hpop : ∀ {path rest}, popMin (routeProblem adj amountMsat source destNode).key t.heap = some (path, rest) →
      popMin Entry.key (render adj amountMsat source destNode t).heap =
        some (exactEntry source path, rest.map (exactEntry source)) := fun hp => by rw [popMin_render, hp]; rfl
  have hlen : (render adj amountMsat source destNode t).found.length = t.arrived.length := List.length_map _
  generalize hr : BestFirst.body (routeProblem adj amountMsat source destNode) n t = r
  cases BestFirst.Round.of_eq hr with
  | finish h =>
    refine .inl (Search.Round.eq_searchBody (.finish (h.imp (fun hnone => ?_) fun hfull => hlen ▸ hfull)))
    rw [popMin_render, hnone]
    rfl
  | drop hp hroom h => exact .inl (Search.Round.eq_searchBody (.drop (hpop hp) (hlen ▸ hroom) h))
  | arrive hp hroom hshort hd =>
    refine .inl ((Search.Round.eq_searchBody (.arrive (hpop hp) (hlen ▸ hroom) hshort hd)).trans ?_)
    simp [Iter.map, render, pathRoute]
  | @settle path rest hp hroom hshort hd hnew =>
    by_cases hfit : Fits amountMsat
        (BestFirst.ends (routeProblem adj amountMsat source destNode) (path :: t.settled))
        (weight PathHop.fee path) (adj.edges (endOf PathHop.node source path))
    · exact .inl (Search.Round.eq_searchBody
        (.visit (hpop hp) (hlen ▸ hroom) ⟨hshort, hd, hnew⟩ (expand_exactEntry b hfit rest)))
    · refine .inr ⟨⟨path, rest, hp, hshort, hfit⟩, fun hchecks => ?_⟩
      obtain rfl : b = ⟨true⟩ := congrArg Build.mk hchecks
      exact Search.Round.eq_searchBody (.panic (hpop hp) (hlen ▸ hroom) ⟨hshort, hd, hnew⟩ (expand_eq_none hfit rest))

/-! ## Whole searches -/

section
variable {b : Build} {n : Nat}

theorem loop_eq_search (b : Build) (n : Nat) :
    loop (searchBody b adj amountMsat destNode n) ((Search.start source).work adj + 1) (Search.start source) =
      some (search b adj amountMsat destNode n source) :=
  (Option.some_get _).symm

theorem exact_of_search {routes : List FoundRoute} (h : search ⟨true⟩ adj amountMsat destNode n source = some routes) :
    ∃ t r, Reaches (BestFirst.body (routeProblem adj amountMsat source destNode) n) BestFirst.init t ∧
      BestFirst.body (routeProblem adj amountMsat source destNode) n t = .done r ∧
      routes = r.map (pathRoute source) := by
  have hloop : loop (searchBody ⟨true⟩ adj amountMsat destNode n) _
      (render adj amountMsat source destNode BestFirst.init) = some (some routes) := h ▸ loop_eq_search ⟨true⟩ n
  have hsim : ∀ t, searchBody ⟨true⟩ adj amountMsat destNode n (render adj amountMsat source destNode t) =
        (BestFirst.body (routeProblem adj amountMsat source destNode) n t).map
          (render adj amountMsat source destNode) (fun r => some (r.map (pathRoute source))) ∨
      ∃ q, searchBody ⟨true⟩ adj amountMsat destNode n (render adj amountMsat source destNode t) = .done q ∧
        q ≠ some routes :=
    fun t => (searchBody_render ⟨true⟩ n t).imp_right fun h => ⟨none, h.2 rfl, by simp⟩
  obtain ⟨r, hr, hroutes⟩ := loop_sim hsim hloop
  obtain ⟨t, ht, hdone⟩ := exists_reaches_of_loop hr
  exact ⟨t, r, ht, hdone, (Option.some.inj hroutes).symm⟩

theorem searchBody_congr (b : Build) (s : Search) :
    searchBody ⟨true⟩ adj amountMsat destNode n s = searchBody b adj amountMsat destNode n s ∨
      searchBody ⟨true⟩ adj amountMsat destNode n s = .done none := by
  generalize hr : searchBody ⟨true⟩ adj amountMsat destNode n s = r
  cases Search.Round.of_eq hr with
  | finish h => exact .inl (Search.Round.eq_searchBody (.finish h)).symm
  | drop hp hroom h => exact .inl (Search.Round.eq_searchBody (.drop hp hroom h)).symm
  | arrive hp hroom hlen hd => exact .inl (Search.Round.eq_searchBody (.arrive hp hroom hlen hd)).symm
  | visit hp hroom ho hexp =>
    -- where the checks do not panic, any build computes the same heap
    have hfit := fits_of_expand hexp
    have hexp' := (expand_of_fits b hfit).trans ((expand_of_fits ⟨true⟩ hfit).symm.trans hexp)
    exact .inl (Search.Round.eq_searchBody (.visit hp hroom ho hexp')).symm
  | panic hp hroom ho hexp => exact .inr rfl

theorem search_congr (b : Build) {routes : List FoundRoute}
    (h : search ⟨true⟩ adj amountMsat destNode n source = some routes) :
    search b adj amountMsat destNode n source = some routes := by
  have hloop : loop (searchBody ⟨true⟩ adj amountMsat destNode n) _ (Search.start source) = some (some routes) :=
    h ▸ loop_eq_search ⟨true⟩ n
  have hsim : ∀ s, searchBody ⟨true⟩ adj amountMsat destNode n (id s) =
        (searchBody b adj amountMsat destNode n s).map id id ∨
      ∃ q, searchBody ⟨true⟩ adj amountMsat destNode n (id s) = .done q ∧ q ≠ some routes := by
    intro s
    rw [Iter.map_id]
    exact (searchBody_congr b s).imp_right fun h => ⟨none, h, by simp⟩
  obtain ⟨r, hr, rfl⟩ := loop_sim hsim hloop
  exact Option.some.inj ((loop_eq_search b n).symm.trans hr)

variable (hfit : ∀ t, Reaches (BestFirst.body (routeProblem adj amountMsat source destNode) n) BestFirst.init t →
  ¬ Overflows adj amountMsat source destNode t)
include hfit

theorem exists_render_of_reaches {s : Search}
    (h : Reaches (searchBody b adj amountMsat destNode n) (Search.start source) s) :
    ∃ t, Reaches (BestFirst.body (routeProblem adj amountMsat source destNode) n) BestFirst.init t ∧
      render adj amountMsat source destNode t = s :=
  Reaches.sim (fun t ht => (searchBody_render b n t).resolve_right fun h => hfit t ht h.1) h

theorem search_ne_none : search b adj amountMsat destNode n source ≠ none := by
  intro hnone
  obtain ⟨s, hs, hdone⟩ := exists_reaches_of_loop (loop_eq_search b n)
  obtain ⟨t, ht, rfl⟩ := exists_render_of_reaches hfit hs
  rw [(searchBody_render b n t).resolve_right fun h => hfit t ht h.1, hnone] at hdone
  cases hbody : BestFirst.body (routeProblem adj amountMsat source destNode) n t with
  | done r => rw [hbody] at hdone; cases hdone
  | step t' => rw [hbody] at hdone; cases hdone

end

end

end LdkController
