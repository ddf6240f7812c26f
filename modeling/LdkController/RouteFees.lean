import LdkController.RouteChoice

/-!
# Fees, limits and flags along a route

When the arithmetic of the search stays within its words, when the fees that a
route reports are those that the nodes charge, and when the nodes can forward
what they have to.
-/

namespace LdkController

open Lib

/-! ## The arithmetic of a search -/

/-- Whoever looks for whatever routes of the amount over the graph: no check fails, and however the program was
built, what an entry of the heap costs is the true sum of the fees on its path. -/
def ArithmeticExact (graph : NetworkGraph) (amountMsat : Nat) : Prop :=
  ∀ (service : RouteService) (destPubkey : String) (maxRoutes : Nat), service.networkGraph = graph →
    findRoutes ⟨true⟩ service destPubkey amountMsat maxRoutes ≠ none ∧
    ∀ destNode, service.parsePublicKey destPubkey = some destNode → service.nodeId ≠ destNode →
      ∀ b s, Reaches (searchBody b (adjacency graph amountMsat) amountMsat destNode maxRoutes)
          (Search.start service.nodeId) s →
        ∀ e ∈ s.heap, ∃ legs, IsWalk Leg.target (Takes graph amountMsat) service.nodeId legs ∧
          e.path = legs.map (Leg.hop amountMsat) ∧ e.cost = fees amountMsat legs

def ProductsFit (graph : NetworkGraph) (amountMsat : Nat) : Prop :=
  ∀ l, HasLeg graph l → l.update.Admits amountMsat → l.source ≠ l.target →
    amountMsat * l.update.fees.proportionalMillionths.toNat ≤ u64Max

section
variable {graph : NetworkGraph} {amountMsat : Nat}

theorem fee_le {l : Leg} (h : amountMsat * l.update.fees.proportionalMillionths.toNat ≤ u64Max) :
    l.fee amountMsat ≤ 2 ^ 32 + u64Max / 1000000 := by
  have hbase := l.update.fees.baseMsat.toNat_lt
  unfold Leg.fee u64Max at *
  omega

section
variable {source destNode : NodeId} {n : Nat} (hfit : ProductsFit graph amountMsat)
include hfit

theorem weight_le {path : List PathHop}
    (hwalk : IsWalk PathHop.node
      (fun a h => h ∈ (routeProblem (adjacency graph amountMsat) amountMsat source destNode).out a) source path)
    (hsimple : (nodes PathHop.node source path).Nodup) :
    weight PathHop.fee path ≤ path.length * (2 ^ 32 + u64Max / 1000000) := by
  refine weight_le_of_forall fun h hh => ?_
  obtain ⟨node, hout, hne⟩ := exists_taken hwalk hsimple h hh
  obtain ⟨l, ⟨rfl, hleg, hadm⟩, rfl⟩ := mem_out.mp hout
  exact fee_le (hfit l hleg hadm (Ne.symm hne))

theorem not_overflows {t : BestFirst.State PathHop}
    (ht : Reaches (BestFirst.body (routeProblem (adjacency graph amountMsat) amountMsat source destNode) n)
      BestFirst.init t) : ¬ Overflows (adjacency graph amountMsat) amountMsat source destNode t := by
  intro hover
  obtain ⟨path, rest, hpop, hlen, hnot⟩ := hover
  have hs := BestFirst.sound_of_reaches weight_le_of_key (pairwise_out _ _ _ _) ht
  have hmem : path ∈ t.heap := (popMin_spec _ hpop).1.mem_iff.mpr List.mem_cons_self
  obtain ⟨hwalk, hsimple⟩ := hs.walk_of_grown (hs.heap path hmem)
  refine hnot fun e he hnew => ?_
  obtain ⟨l, hleg, hsrc, hadm, rfl⟩ := mem_edges.mp he
  have hne : l.source ≠ l.target := by
    intro heq
    refine hnew (List.mem_cons.mpr (.inl ?_))
    show l.target = endOf PathHop.node source path
    rw [← heq, hsrc]
  have hmul := hfit l hleg hadm hne
  refine ⟨hmul, ?_⟩
  have hcost := weight_le hfit hwalk hsimple
  have hfee := fee_le hmul
  have hseven : path.length * (2 ^ 32 + u64Max / 1000000) ≤ 6 * (2 ^ 32 + u64Max / 1000000) :=
    Nat.mul_le_mul_right _ hlen
  show weight PathHop.fee path + l.fee amountMsat ≤ u64Max
  unfold u64Max at *
  omega

end

theorem search_eq_none {adj : Adjacency} {source destNode : NodeId} {n : Nat} (hne : source ≠ destNode) (hn : 0 < n)
    (hnot : ¬ Fits amountMsat [source] 0 (adj.edges source)) : search ⟨true⟩ adj amountMsat destNode n source = none := by
  have hbody : searchBody ⟨true⟩ adj amountMsat destNode n (Search.start source) = .done none := by
    have hexp : expand ⟨true⟩ amountMsat [source] 0 [] [] (adj.edges source) = none := by
      cases hexp : expand ⟨true⟩ amountMsat [source] 0 [] [] (adj.edges source) with
      | none => rfl
      | some heap => exact absurd (fits_of_expand hexp) hnot
    exact Search.Round.eq_searchBody (.panic rfl hn ⟨Nat.zero_le 6, hne, List.not_mem_nil⟩ hexp)
  have hloop : loop (searchBody ⟨true⟩ adj amountMsat destNode n) _ (Search.start source) =
      some (search ⟨true⟩ adj amountMsat destNode n source) := loop_eq_search ⟨true⟩ n
  unfold loop at hloop
  rw [hbody] at hloop
  exact (Option.some.inj hloop).symm

theorem arithmeticExact_iff (graph : NetworkGraph) (amountMsat : Nat) :
    ArithmeticExact graph amountMsat ↔ ProductsFit graph amountMsat := by
  constructor
  · intro h l hleg hadm hne
    by_contra hgt
    refine (h ⟨fun _ => some l.target, l.source, graph⟩ "" 1 rfl).1 ?_
    unfold findRoutes
    simp only [if_neg hne]
    refine search_eq_none hne Nat.one_pos fun hfit => hgt ?_
    have hmem : l.edge ∈ (adjacency graph amountMsat).edges l.source := mem_edges.mpr ⟨l, hleg, rfl, hadm, rfl⟩
    exact (hfit l.edge hmem fun heq => hne (List.mem_singleton.mp heq).symm).1
  · intro hfit service destPubkey n hgraph
    subst hgraph
    refine ⟨?_, fun destNode _ _ b s hs e he => ?_⟩
    · unfold findRoutes
      cases service.parsePublicKey destPubkey with
      | none => simp
      | some destNode =>
        by_cases hself : service.nodeId = destNode
        · simp [hself]
        · simp only [if_neg hself]
          exact search_ne_none fun t ht => not_overflows hfit ht
    · obtain ⟨t, ht, rfl⟩ := exists_render_of_reaches (fun t ht => not_overflows hfit ht) hs
      obtain ⟨path, hpath, rfl⟩ := List.mem_map.mp he
      have hsound := BestFirst.sound_of_reaches weight_le_of_key (pairwise_out _ _ _ _) ht
      obtain ⟨legs, hlegs, rfl⟩ := exists_legs (hsound.walk_of_grown (hsound.heap path hpath)).1
      exact ⟨legs, hlegs, rfl, weight_hops legs⟩

def allOfIt : List (UInt64 × ChannelInfo) := [(1, oneWay 1 13 (policyUpTo 2100000000000000000 0 10))]

theorem not_arithmeticExact : ¬ ArithmeticExact (serviceOver allOfIt).networkGraph 2100000000000000000 := by
  intro h
  exact (h (serviceOver allOfIt) keyText 1 rfl).1 (by decide +kernel)

end

/-! ## Fees that compound -/

/-- What each node along the legs charges when the amount is to come out at the end. -/
def bolt7Charges (amountMsat : Nat) : List Leg → List Nat
  | [] => []
  | l :: legs => l.fee (amountMsat + (bolt7Charges amountMsat legs).sum) :: bolt7Charges amountMsat legs

/-- The sender does not charge itself. -/
def bolt7Fees (amountMsat : Nat) : List Leg → List Nat
  | [] => []
  | _ :: legs => 0 :: bolt7Charges amountMsat legs

def FeesExact (amountMsat : Nat) (legs : List Leg) (r : FoundRoute) : Prop :=
  r.hops.map RouteHop.fee = bolt7Fees amountMsat legs ∧ r.totalFee = (bolt7Fees amountMsat legs).sum

/-- The sender's policy is free for the amount, and after it the fees of the
later legs never lift a fee by a millisatoshi. -/
def FeesStay (amountMsat : Nat) (legs : List Leg) : Prop :=
  (∀ l ∈ legs.head?, l.update.fees.baseMsat = 0 ∧
    amountMsat * l.update.fees.proportionalMillionths.toNat < 1000000) ∧
  ∀ before l after, legs.tail = before ++ l :: after →
    amountMsat * l.update.fees.proportionalMillionths.toNat % 1000000 +
      l.update.fees.proportionalMillionths.toNat * fees amountMsat after < 1000000

section
variable {amountMsat : Nat}

theorem fee_add_eq_iff (l : Leg) (later : Nat) : l.fee amountMsat = l.fee (amountMsat + later) ↔
    amountMsat * l.update.fees.proportionalMillionths.toNat % 1000000 +
      l.update.fees.proportionalMillionths.toNat * later < 1000000 := by
  unfold Leg.fee
  rw [Nat.add_mul, Nat.mul_comm later]
  omega

theorem fee_eq_zero_iff (l : Leg) : l.fee amountMsat = 0 ↔
    l.update.fees.baseMsat = 0 ∧ amountMsat * l.update.fees.proportionalMillionths.toNat < 1000000 := by
  unfold Leg.fee
  rw [← UInt32.toNat_inj, UInt32.toNat_zero]
  omega

theorem forall_split_cons {η : Type} {Q : η → List η → Prop} (h : η) (p : List η) :
    (∀ before g after, h :: p = before ++ g :: after → Q g after) ↔
      Q h p ∧ ∀ before g after, p = before ++ g :: after → Q g after := by
  constructor
  · intro hall
    exact ⟨hall [] h p rfl, fun before g after heq => hall (h :: before) g after (by rw [heq]; rfl)⟩
  · intro hall before g after heq
    cases before with
    | nil =>
      obtain ⟨rfl, rfl⟩ := List.cons.inj heq
      exact hall.1
    | cons g' before => exact hall.2 before g after (List.cons.inj heq).2

theorem fees_eq_charges_iff (legs : List Leg) : legs.map (Leg.fee amountMsat) = bolt7Charges amountMsat legs ↔
    ∀ before l after, legs = before ++ l :: after →
      amountMsat * l.update.fees.proportionalMillionths.toNat % 1000000 +
        l.update.fees.proportionalMillionths.toNat * fees amountMsat after < 1000000 := by
  induction legs with
  | nil => simp [bolt7Charges]
  | cons l legs ih =>
    rw [forall_split_cons, ← ih, ← fee_add_eq_iff, List.map_cons, bolt7Charges, List.cons.injEq]
    constructor
    · intro h
      exact ⟨by unfold fees; rw [h.2]; exact h.1, h.2⟩
    · intro h
      exact ⟨by rw [← h.2]; exact h.1, h.2⟩

theorem RouteOver.fees {graph : NetworkGraph} {source destNode : NodeId} {r : FoundRoute} {legs : List Leg}
    (h : RouteOver graph amountMsat source destNode r legs) :
    r.hops.map RouteHop.fee = legs.map (Leg.fee amountMsat) := by
  rw [h.hops, List.map_map]
  rfl

theorem feesExact_iff {graph : NetworkGraph} {source destNode : NodeId} {r : FoundRoute} {legs : List Leg}
    (h : RouteOver graph amountMsat source destNode r legs) :
    FeesExact amountMsat legs r ↔ FeesStay amountMsat legs := by
  have htotal : FeesExact amountMsat legs r ↔ legs.map (Leg.fee amountMsat) = bolt7Fees amountMsat legs := by
    unfold FeesExact
    rw [h.totalFee, h.fees]
    exact ⟨fun hexact => hexact.1, fun heq => ⟨heq, by rw [heq]⟩⟩
  rw [htotal]
  unfold FeesStay
  cases legs with
  | nil => exact absurd h.length.1 (by decide)
  | cons l legs =>
    rw [List.map_cons, bolt7Fees, List.cons.injEq, fee_eq_zero_iff, fees_eq_charges_iff]
    simp

theorem executeEstimateRoutingFees_ok {b : Build} {service : RouteService} {req : Request} {destPubkey : String}
    {resp : EstimateRoutingFeesResponse} (hreq : req.params = .estimateRoutingFees destPubkey amountMsat)
    (hresp : executeEstimateRoutingFees b (some service) req = .ok resp) :
    ∃ r rs, findRoutes b service destPubkey amountMsat 1 = some (r :: rs) ∧ resp = ⟨r.totalFee, r.totalTimeLock⟩ := by
  unfold executeEstimateRoutingFees at hresp
  simp only [hreq, routesOf] at hresp
  cases hfound : findRoutes b service destPubkey amountMsat 1 with
  | none => rw [hfound] at hresp; cases hresp
  | some routes =>
    cases routes with
    | nil => rw [hfound] at hresp; cases hresp
    | cons r rs =>
      rw [hfound] at hresp
      exact ⟨r, rs, rfl, (Outcome.ok.inj hresp).symm⟩

/-- **When the reported fees are the ones charged:** for one route, and for all that a call may find. -/
theorem fees_exact_iff {service : RouteService} {destPubkey : String} {maxRoutes : Nat} {routes : List FoundRoute}
    (h : findRoutes ⟨true⟩ service destPubkey amountMsat maxRoutes = some routes) :
    (∀ r ∈ routes, (∃ destNode legs, RouteOver service.networkGraph amountMsat service.nodeId destNode r legs) ∧
      ∀ destNode legs, RouteOver service.networkGraph amountMsat service.nodeId destNode r legs →
        (FeesExact amountMsat legs r ↔ FeesStay amountMsat legs)) ∧
    (∀ req resp, maxRoutes = 1 → req.params = .estimateRoutingFees destPubkey amountMsat →
      executeEstimateRoutingFees ⟨true⟩ (some service) req = .ok resp → ∃ r ∈ routes, resp.fee = r.totalFee) ∧
    ((∀ n, findRoutes ⟨true⟩ service destPubkey amountMsat n ≠ none) →
      ((∀ n found, findRoutes ⟨true⟩ service destPubkey amountMsat n = some found → ∀ r ∈ found, ∀ destNode legs,
          RouteOver service.networkGraph amountMsat service.nodeId destNode r legs → FeesExact amountMsat legs r) ↔
        ∀ legs, LetThrough service destPubkey amountMsat legs → FeesStay amountMsat legs)) := by
  refine ⟨fun r hr => ⟨?_, fun _ _ hover => feesExact_iff hover⟩, fun req resp hmax hreq hresp => ?_, fun hok => ?_⟩
  · obtain ⟨destNode, legs, _, hover⟩ := exists_routeOver h r hr
    exact ⟨destNode, legs, hover⟩
  · subst hmax
    obtain ⟨r, rs, hfound, rfl⟩ := executeEstimateRoutingFees_ok hreq hresp
    rw [h] at hfound
    obtain rfl := Option.some.inj hfound
    exact ⟨r, List.mem_cons_self, rfl⟩
  · exact forall_found_iff hok fun _ _ _ hover => feesExact_iff hover

end

def threeHops : List (UInt64 × ChannelInfo) :=
  [(1, oneWay 1 2 (policyUpTo 1000000000 1000 0)), (2, oneWay 2 3 (policyUpTo 1000000000 0 100000)),
    (3, oneWay 3 13 (policyUpTo 1000000000 1000 0))]

def threeLegs : List Leg :=
  [⟨keyAt 1, keyAt 2, 1, policyUpTo 1000000000 1000 0⟩, ⟨keyAt 2, keyAt 3, 2, policyUpTo 1000000000 0 100000⟩,
    ⟨keyAt 3, keyAt 13, 3, policyUpTo 1000000000 1000 0⟩]

def threeHopRoute : FoundRoute :=
  ⟨12000, 120, [⟨(keyAt 2).toString, "0x0x1", 1000, 40⟩, ⟨(keyAt 3).toString, "0x0x2", 10000, 40⟩,
    ⟨keyText, "0x0x3", 1000, 40⟩]⟩

theorem findRoutes_threeHops : findRoutes ⟨true⟩ (serviceOver threeHops) keyText 100000 1 = some [threeHopRoute] := by
  decide +kernel

theorem routeOver_threeHops : RouteOver (serviceOver threeHops).networkGraph 100000 (keyAt 1) (keyAt 13)
    threeHopRoute threeLegs := by
  refine ⟨⟨⟨rfl, ⟨_, rfl, .inl ⟨rfl, rfl, rfl⟩⟩, by decide⟩, ⟨rfl, ⟨_, rfl, .inl ⟨rfl, rfl, rfl⟩⟩, by decide⟩,
    ⟨rfl, ⟨_, rfl, .inl ⟨rfl, rfl, rfl⟩⟩, by decide⟩, trivial⟩, rfl, ?_, by decide, ?_, rfl, rfl⟩
  · decide +kernel
  · decide +kernel

theorem fees_exact_iff_three_hops : FeesExact 100000 threeLegs threeHopRoute ↔ FeesStay 100000 threeLegs :=
  ((fees_exact_iff findRoutes_threeHops).1 _ List.mem_cons_self).2 _ _ routeOver_threeHops

/-- The sender is charged by its own policy, and what the second node charges on the later fee is missing. -/
theorem fees_not_exact : findRoutes ⟨true⟩ (serviceOver threeHops) keyText 100000 1 = some [threeHopRoute] ∧
    RouteOver (serviceOver threeHops).networkGraph 100000 (keyAt 1) (keyAt 13) threeHopRoute threeLegs ∧
    threeHopRoute.hops.map RouteHop.fee = [1000, 10000, 1000] ∧ bolt7Fees 100000 threeLegs = [0, 10100, 1000] ∧
    ¬ FeesExact 100000 threeLegs threeHopRoute := by
  refine ⟨findRoutes_threeHops, routeOver_threeHops, rfl, by decide, fun h => ?_⟩
  exact absurd h.2 (by decide)

/-! ## What the nodes can forward -/

def ReportedPolicy (graph : NetworkGraph) (l : Leg) (p : NetworkChannelPolicy) : Prop :=
  ∃ info, getNetworkChannel graph (formatScid l.scid) = .ok (some info) ∧
    (info.node1Pubkey = l.source.toString ∧ info.node2Pubkey = l.target.toString ∧ info.node1Policy = some p ∨
      info.node2Pubkey = l.source.toString ∧ info.node1Pubkey = l.target.toString ∧ info.node2Policy = some p)

/-- Each leg is enabled and its limits contain what has to be forwarded over it. -/
def Usable (graph : NetworkGraph) (amountMsat : Nat) (legs : List Leg) : Prop :=
  ∀ before l after, legs = before ++ l :: after →
    (∃ p, ReportedPolicy graph l p ∧ p.disabled = false) ∧
      l.update.Admits (amountMsat + fees amountMsat after)

/-- No leg is disabled, and each has room for the fees of the later ones above the amount. -/
def RoomForFees (amountMsat : Nat) (legs : List Leg) : Prop :=
  ∀ before l after, legs = before ++ l :: after →
    l.update.enabled = true ∧ fees amountMsat after ≤ l.update.htlcMaximumMsat - amountMsat

/-- As `Usable`, for what the nodes of the later legs charge. -/
def UsableCharged (graph : NetworkGraph) (amountMsat : Nat) (legs : List Leg) : Prop :=
  ∀ before l after, legs = before ++ l :: after →
    (∃ p, ReportedPolicy graph l p ∧ p.disabled = false) ∧
      l.update.Admits (amountMsat + (bolt7Charges amountMsat after).sum)

def RoomForCharges (amountMsat : Nat) (legs : List Leg) : Prop :=
  ∀ before l after, legs = before ++ l :: after →
    l.update.enabled = true ∧ (bolt7Charges amountMsat after).sum ≤ l.update.htlcMaximumMsat - amountMsat

theorem toString_injective : Function.Injective NodeId.toString := by
  intro a b h
  cases a
  cases b
  exact congrArg NodeId.mk (Vector.toList_inj.mp (hexString_injective h))

theorem reportedPolicy_iff {graph : NetworkGraph} {l : Leg} (hleg : HasLeg graph l) (hne : l.source ≠ l.target)
    {p : NetworkChannelPolicy} : ReportedPolicy graph l p ↔ p = l.update.policy := by
  obtain ⟨ch, hch, hdir⟩ := hleg
  have hget : getNetworkChannel graph (formatScid l.scid) =
      .ok (some ⟨formatScid l.scid, ch.capacitySats, ch.nodeOne.toString, ch.nodeTwo.toString,
        ch.oneToTwo.map ChannelUpdateInfo.policy, ch.twoToOne.map ChannelUpdateInfo.policy⟩) := by
    unfold getNetworkChannel
    rw [parseScid_formatScid]
    simp [hch]
  unfold ReportedPolicy
  rw [hget]
  constructor
  · intro h
    obtain ⟨info, heq, hcase⟩ := h
    obtain rfl := Option.some.inj (Except.ok.inj heq)
    rcases hdir with ⟨hone, htwo, hupd⟩ | ⟨htwo, hone, hupd⟩
    · rcases hcase with ⟨_, _, hp⟩ | ⟨hsrc, _, _⟩
      · rw [hupd] at hp
        exact (Option.some.inj hp).symm
      · exact absurd ((toString_injective hsrc).symm.trans htwo) hne
    · rcases hcase with ⟨hsrc, _, _⟩ | ⟨_, _, hp⟩
      · exact absurd ((toString_injective hsrc).symm.trans hone) hne
      · rw [hupd] at hp
        exact (Option.some.inj hp).symm
  · intro h
    subst h
    refine ⟨_, rfl, ?_⟩
    rcases hdir with ⟨hone, htwo, hupd⟩ | ⟨htwo, hone, hupd⟩
    · exact .inl ⟨congrArg NodeId.toString hone, congrArg NodeId.toString htwo, congrArg (Option.map _) hupd⟩
    · exact .inr ⟨congrArg NodeId.toString htwo, congrArg NodeId.toString hone, congrArg (Option.map _) hupd⟩

section
variable {graph : NetworkGraph} {amountMsat : Nat} {source destNode : NodeId} {r : FoundRoute} {legs : List Leg}
  (h : RouteOver graph amountMsat source destNode r legs)
include h

theorem RouteOver.leg : ∀ l ∈ legs, HasLeg graph l ∧ l.update.Admits amountMsat ∧ l.source ≠ l.target := by
  intro l hl
  obtain ⟨node, ⟨rfl, hleg, hadm⟩, hne⟩ := exists_taken h.walk h.simple l hl
  exact ⟨hleg, hadm, Ne.symm hne⟩

/-- The amount is admitted on each leg already, whatever is to be added for the later ones. -/
theorem usable_iff_room (added : List Leg → Nat) :
    (∀ before l after, legs = before ++ l :: after →
      (∃ p, ReportedPolicy graph l p ∧ p.disabled = false) ∧ l.update.Admits (amountMsat + added after)) ↔
    ∀ before l after, legs = before ++ l :: after →
      l.update.enabled = true ∧ added after ≤ l.update.htlcMaximumMsat - amountMsat := by
  have hleg : ∀ before l after, legs = before ++ l :: after →
      ((∃ p, ReportedPolicy graph l p ∧ p.disabled = false) ∧ l.update.Admits (amountMsat + added after) ↔
        l.update.enabled = true ∧ added after ≤ l.update.htlcMaximumMsat - amountMsat) := by
    intro before l after heq
    obtain ⟨hleg, ⟨hmin, hmax⟩, hne⟩ := h.leg l (heq ▸ List.mem_append_right before List.mem_cons_self)
    simp only [reportedPolicy_iff hleg hne, exists_eq_left, ChannelUpdateInfo.policy, Bool.not_eq_false',
      ChannelUpdateInfo.Admits]
    refine and_congr_right fun _ => ?_
    omega
  exact ⟨fun hall before l after heq => (hleg before l after heq).mp (hall before l after heq),
    fun hall before l after heq => (hleg before l after heq).mpr (hall before l after heq)⟩

theorem usable_iff_roomForFees : Usable graph amountMsat legs ↔ RoomForFees amountMsat legs :=
  usable_iff_room h (fees amountMsat)

theorem usableCharged_iff_roomForCharges : UsableCharged graph amountMsat legs ↔ RoomForCharges amountMsat legs :=
  usable_iff_room h fun after => (bolt7Charges amountMsat after).sum

end

/-- **When the routes can be used:** one route, and all that a call may find, with the fees that are reported and
with the ones that are charged. -/
theorem usable_iff {service : RouteService} {destPubkey : String} {amountMsat maxRoutes : Nat}
    {routes : List FoundRoute} (h : findRoutes ⟨true⟩ service destPubkey amountMsat maxRoutes = some routes) :
    (∀ r ∈ routes, (∃ destNode legs, RouteOver service.networkGraph amountMsat service.nodeId destNode r legs) ∧
      ∀ destNode legs, RouteOver service.networkGraph amountMsat service.nodeId destNode r legs →
        (Usable service.networkGraph amountMsat legs ↔ RoomForFees amountMsat legs) ∧
        (UsableCharged service.networkGraph amountMsat legs ↔ RoomForCharges amountMsat legs)) ∧
    ((∀ n, findRoutes ⟨true⟩ service destPubkey amountMsat n ≠ none) →
      ((∀ n found, findRoutes ⟨true⟩ service destPubkey amountMsat n = some found → ∀ r ∈ found, ∀ destNode legs,
          RouteOver service.networkGraph amountMsat service.nodeId destNode r legs →
            Usable service.networkGraph amountMsat legs) ↔
        ∀ legs, LetThrough service destPubkey amountMsat legs → RoomForFees amountMsat legs) ∧
      ((∀ n found, findRoutes ⟨true⟩ service destPubkey amountMsat n = some found → ∀ r ∈ found, ∀ destNode legs,
          RouteOver service.networkGraph amountMsat service.nodeId destNode r legs →
            UsableCharged service.networkGraph amountMsat legs) ↔
        ∀ legs, LetThrough service destPubkey amountMsat legs → RoomForCharges amountMsat legs)) := by
  refine ⟨fun r hr => ⟨?_, fun _ _ hover => ⟨usable_iff_roomForFees hover, usableCharged_iff_roomForCharges hover⟩⟩,
    fun hok => ⟨?_, ?_⟩⟩
  · obtain ⟨destNode, legs, _, hover⟩ := exists_routeOver h r hr
    exact ⟨destNode, legs, hover⟩
  · exact forall_found_iff hok fun _ _ _ hover => usable_iff_roomForFees hover
  · exact forall_found_iff hok fun _ _ _ hover => usableCharged_iff_roomForCharges hover

def noRoom : List (UInt64 × ChannelInfo) :=
  [(1, oneWay 1 2 (policyUpTo 100000 0 0)),
    (2, oneWay 2 13 { policyUpTo 1000000000 1000 0 with enabled := false })]

def noRoomLegs : List Leg :=
  [⟨keyAt 1, keyAt 2, 1, policyUpTo 100000 0 0⟩,
    ⟨keyAt 2, keyAt 13, 2, { policyUpTo 1000000000 1000 0 with enabled := false }⟩]

def noRoomRoute : FoundRoute :=
  ⟨1000, 80, [⟨(keyAt 2).toString, "0x0x1", 0, 40⟩, ⟨keyText, "0x0x2", 1000, 40⟩]⟩

theorem findRoutes_noRoom : findRoutes ⟨true⟩ (serviceOver noRoom) keyText 100000 1 = some [noRoomRoute] := by
  decide +kernel

theorem routeOver_noRoom : RouteOver (serviceOver noRoom).networkGraph 100000 (keyAt 1) (keyAt 13) noRoomRoute
    noRoomLegs := by
  refine ⟨⟨⟨rfl, ⟨_, rfl, .inl ⟨rfl, rfl, rfl⟩⟩, by decide⟩, ⟨rfl, ⟨_, rfl, .inl ⟨rfl, rfl, rfl⟩⟩, by decide⟩, trivial⟩,
    rfl, ?_, by decide, ?_, rfl, rfl⟩
  · decide +kernel
  · decide +kernel

theorem usable_iff_no_room :
    (Usable (serviceOver noRoom).networkGraph 100000 noRoomLegs ↔ RoomForFees 100000 noRoomLegs) ∧
      (UsableCharged (serviceOver noRoom).networkGraph 100000 noRoomLegs ↔ RoomForCharges 100000 noRoomLegs) :=
  ((usable_iff findRoutes_noRoom).1 _ List.mem_cons_self).2 _ _ routeOver_noRoom

/-- Neither the flag nor the amount on the first leg allows the route. -/
theorem not_usable : findRoutes ⟨true⟩ (serviceOver noRoom) keyText 100000 1 = some [noRoomRoute] ∧
    RouteOver (serviceOver noRoom).networkGraph 100000 (keyAt 1) (keyAt 13) noRoomRoute noRoomLegs ∧
    ¬ Usable (serviceOver noRoom).networkGraph 100000 noRoomLegs := by
  refine ⟨findRoutes_noRoom, routeOver_noRoom, fun h => ?_⟩
  exact absurd (h [] _ _ rfl).2.2 (by decide)

end LdkController
