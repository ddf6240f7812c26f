import LdkController.Channels
import LdkController.RoutesSound

/-!
# What short channel ids name

The id that a listing or a route reports is read back as the id of its channel.
A text that names a channel is read as that channel as long as its numbers fit
their fields; the reader does not check that they do.
-/

namespace LdkController

open Lib

/-! ## The numbers of a text -/

structure ScidParts where
  block : UInt64
  tx : UInt64
  vout : UInt64
deriving DecidableEq

def scidParts (scid : UInt64) : ScidParts := ⟨scid >>> 40, scid >>> 16 &&& 0xFFFFFF, scid &&& 0xFFFF⟩

namespace ScidParts

def packed (p : ScidParts) : UInt64 := p.block <<< 40 ||| p.tx <<< 16 ||| p.vout

/-- The numbers fit fields of 24, 24 and 16 bits. -/
def InRange (p : ScidParts) : Prop := p.block.toNat < 2 ^ 24 ∧ p.tx.toNat < 2 ^ 24 ∧ p.vout.toNat < 2 ^ 16

instance (p : ScidParts) : Decidable p.InRange := inferInstanceAs (Decidable (_ ∧ _ ∧ _))

end ScidParts

def Writes (s : String) (p : ScidParts) : Prop :=
  ∃ block tx vout, s.toList.splitOn 'x' = [block, tx, vout] ∧
    parseU64 block = some p.block ∧ parseU64 tx = some p.tx ∧ parseU64 vout = some p.vout

theorem Writes.unique {s : String} {p q : ScidParts} (hp : Writes s p) (hq : Writes s q) : p = q := by
  obtain ⟨block, tx, vout, hs, hb, ht, hv⟩ := hp
  obtain ⟨block', tx', vout', hs', hb', ht', hv'⟩ := hq
  rw [hs] at hs'
  obtain ⟨rfl, rfl, rfl⟩ : block = block' ∧ tx = tx' ∧ vout = vout' := by simpa using hs'
  cases p
  cases q
  simp_all

theorem writes_formatScid (scid : UInt64) : Writes (formatScid scid) (scidParts scid) :=
  ⟨_, _, _, splitOn_formatScid scid, parseU64_toString _, parseU64_toString _, parseU64_toString _⟩

theorem parseScid_eq_some {s : String} {scid : UInt64} :
    parseScid s = some scid ↔ ∃ p, Writes s p ∧ p.packed = scid := by
  unfold parseScid
  constructor
  · intro h
    split at h
    · rename_i block tx vout hs
      obtain ⟨b, hb, h⟩ := Option.bind_eq_some_iff.mp h
      obtain ⟨t, ht, h⟩ := Option.bind_eq_some_iff.mp h
      obtain ⟨v, hv, h⟩ := Option.bind_eq_some_iff.mp h
      exact ⟨⟨b, t, v⟩, ⟨block, tx, vout, hs, hb, ht, hv⟩, Option.some.inj h⟩
    · cases h
  · intro h
    obtain ⟨p, ⟨block, tx, vout, hs, hb, ht, hv⟩, rfl⟩ := h
    rw [hs]
    simp only [hb, ht, hv]
    rfl

theorem inRange_scidParts (scid : UInt64) : (scidParts scid).InRange := ⟨block_lt scid, tx_lt scid, vout_lt scid⟩

theorem scidParts_packed {p : ScidParts} (h : p.InRange) : scidParts p.packed = p := by
  obtain ⟨block, tx, vout⟩ := p
  obtain ⟨hb, ht, hv⟩ : block.toNat < 2 ^ 24 ∧ tx.toNat < 2 ^ 24 ∧ vout.toNat < 2 ^ 16 := h
  have hpacked := toNat_packed hb ht hv
  simp only [scidParts, ScidParts.packed, ScidParts.mk.injEq, ← UInt64.toNat_inj, toNat_block, toNat_tx, toNat_vout,
    hpacked]
  omega

theorem scidParts_packed_iff (p : ScidParts) : scidParts p.packed = p ↔ p.InRange :=
  ⟨fun h => h ▸ inRange_scidParts p.packed, scidParts_packed⟩

/-! ## Looking a text up -/

def networkChannelInfo (text : String) (ch : ChannelInfo) : NetworkChannelInfo :=
  ⟨text, ch.capacitySats, ch.nodeOne.toString, ch.nodeTwo.toString, ch.oneToTwo.map ChannelUpdateInfo.policy,
    ch.twoToOne.map ChannelUpdateInfo.policy⟩

@[simp] theorem networkChannelInfo_shortChannelId (text : String) (ch : ChannelInfo) :
    (networkChannelInfo text ch).shortChannelId = text := rfl

theorem getNetworkChannel_of_parse {s : String} {scid : UInt64} (h : parseScid s = some scid) (graph : NetworkGraph) :
    getNetworkChannel graph s = .ok ((graph.lookup scid).map (networkChannelInfo (formatScid scid))) := by
  unfold getNetworkChannel
  rw [h]
  rfl

/-- Every answer is about the channel with these numbers. -/
def AnswersOnly (s : String) (p : ScidParts) : Prop :=
  ∀ graph info, getNetworkChannel graph s = .ok (some info) → Writes info.shortChannelId p

theorem answersOnly_iff {s : String} {scid : UInt64} (h : parseScid s = some scid) (p : ScidParts) :
    AnswersOnly s p ↔ scidParts scid = p := by
  constructor
  · intro hs
    have ch : ChannelInfo := oneWay 1 13 (policyUpTo 1 0 0)
    have hget := getNetworkChannel_of_parse h ((∅ : NetworkGraph).insert scid ch)
    rw [AList.lookup_insert, Option.map_some] at hget
    have hw := hs _ _ hget
    rw [networkChannelInfo_shortChannelId] at hw
    exact (writes_formatScid scid).unique hw
  · intro hp graph info hget
    subst hp
    rw [getNetworkChannel_of_parse h, Except.ok.injEq, Option.map_eq_some_iff] at hget
    obtain ⟨ch, _, rfl⟩ := hget
    exact writes_formatScid scid

/-- No text whose numbers fit names another channel and is read as the same id. -/
def Unaliased (scid : UInt64) (p : ScidParts) : Prop :=
  ∀ s q, Writes s q → q.InRange → parseScid s = some scid → q = p

theorem unaliased_iff (scid : UInt64) (p : ScidParts) : Unaliased scid p ↔ scidParts scid = p := by
  constructor
  · intro h
    exact h _ _ (writes_formatScid scid) (inRange_scidParts scid) (parseScid_formatScid scid)
  · intro hp s q hs hq hparse
    subst hp
    obtain ⟨q', hq', rfl⟩ := parseScid_eq_some.mp hparse
    obtain rfl := hs.unique hq'
    exact (scidParts_packed hq).symm

/-- **Aliasing.** A text that is accepted writes three numbers; they are the ones packed, no other channel is read from
the text or answered with, exactly if they fit their fields. -/
theorem parseScid_unaliased_iff {s : String} {scid : UInt64} (h : parseScid s = some scid) :
    ∃ p, (∀ q, Writes s q ↔ q = p) ∧ (scidParts scid = p ↔ p.InRange) ∧ (Unaliased scid p ↔ p.InRange) ∧
      (AnswersOnly s p ↔ p.InRange) := by
  obtain ⟨p, hp, rfl⟩ := parseScid_eq_some.mp h
  have hfit := scidParts_packed_iff p
  exact ⟨p, fun q => ⟨fun hq => hq.unique hp, fun hq => hq ▸ hp⟩, hfit, (unaliased_iff _ p).trans hfit,
    (answersOnly_iff h p).trans hfit⟩

theorem parseScid_unaliased_iff_first : (scidParts 1099511627776 = ⟨1, 0, 0⟩ ↔ (⟨1, 0, 0⟩ : ScidParts).InRange) ∧
    AnswersOnly "1x0x0" ⟨1, 0, 0⟩ := by
  have hparse : parseScid "1x0x0" = some 1099511627776 := by decide +kernel
  obtain ⟨p, hp, hread, _, hanswers⟩ := parseScid_unaliased_iff hparse
  obtain rfl := (hp ⟨1, 0, 0⟩).mp
    (show Writes "1x0x0" ⟨1, 0, 0⟩ from ⟨['1'], ['0'], ['0'], by decide +kernel, by decide, by decide, by decide⟩)
  exact ⟨hread, hanswers.mpr (by decide)⟩

/-- The index `2 ^ 24` runs into the block. -/
theorem parseScid_aliased : parseScid "0x16777216x0" = some 1099511627776 ∧ Writes "0x16777216x0" ⟨0, 16777216, 0⟩ ∧
    scidParts 1099511627776 ≠ ⟨0, 16777216, 0⟩ ∧ parseScid "1x0x0" = some 1099511627776 ∧ Writes "1x0x0" ⟨1, 0, 0⟩ ∧
    (getNetworkChannel (serviceOver [(1099511627776, oneWay 1 13 (policyUpTo 1 0 0))]).networkGraph
      "0x16777216x0").toOption.map (Option.map NetworkChannelInfo.shortChannelId) = some (some "1x0x0") :=
  ⟨by decide +kernel, ⟨['0'], "16777216".toList, ['0'], by decide +kernel, by decide, by decide +kernel, by decide⟩,
    by decide, by decide +kernel, ⟨['1'], ['0'], ['0'], by decide +kernel, by decide, by decide, by decide⟩,
    by decide +kernel⟩

/-! ## The hops of a route -/

def Adjacency.HasHop (adj : Adjacency) (h : PathHop) : Prop :=
  ∃ node, ∃ edge ∈ adj.edges node, edge.next = h.node ∧ edge.scid = h.scid

def Adjacency.HasRoute (adj : Adjacency) (r : FoundRoute) : Prop :=
  ∃ path : List PathHop, r.hops = path.map PathHop.routeHop ∧ ∀ h ∈ path, adj.HasHop h

structure Search.OverEdges (adj : Adjacency) (s : Search) : Prop where
  heap : ∀ e ∈ s.heap, ∀ h ∈ e.path, adj.HasHop h
  found : ∀ r ∈ s.found, adj.HasRoute r

section
variable {b : Build} {adj : Adjacency} {amountMsat : Nat} {destNode : NodeId} {maxRoutes : Nat}

theorem overEdges_of_step {s s' : Search} (hs : s.OverEdges adj)
    (h : searchBody b adj amountMsat destNode maxRoutes s = .step s') : s'.OverEdges adj := by
  obtain ⟨e, heap, hp, _, hstep⟩ := searchBody_eq_step h
  have hperm := (popMin_spec Entry.key hp).1
  have hpath : ∀ h ∈ e.path, adj.HasHop h := hs.heap e (hperm.mem_iff.mpr List.mem_cons_self)
  have hrest : ∀ e' ∈ heap, ∀ h ∈ e'.path, adj.HasHop h :=
    fun e' he' => hs.heap e' (hperm.mem_iff.mpr (List.mem_cons_of_mem _ he'))
  rcases hstep with ⟨_, hheap, _, hfound⟩ | ⟨_, _, hfound, hexp⟩
  · refine ⟨hheap ▸ hrest, ?_⟩
    rcases hfound with hfound | hfound
    · exact hfound ▸ hs.found
    · intro r hr
      rw [hfound] at hr
      rcases List.mem_append.mp hr with hr | hr
      · exact hs.found r hr
      · obtain rfl := List.mem_singleton.mp hr
        exact ⟨e.path, rfl, hpath⟩
  · obtain ⟨pushed, hheap, _, hpushed⟩ := expand_eq_some hexp
    refine ⟨?_, hfound ▸ hs.found⟩
    intro e' he' h hh
    rw [hheap] at he'
    rcases List.mem_append.mp he' with he' | he'
    · exact hrest e' he' h hh
    · obtain ⟨edge, hedge, fee, heq⟩ := hpushed e' he'
      rw [heq] at hh
      rcases List.mem_append.mp hh with hh | hh
      · exact hpath h hh
      · obtain rfl := List.mem_singleton.mp hh
        exact ⟨e.node, edge, hedge, rfl, rfl⟩

theorem found_of_done {s : Search} {routes : List FoundRoute}
    (h : searchBody b adj amountMsat destNode maxRoutes s = .done (some routes)) : routes = s.found := by
  cases Search.Round.of_eq h with
  | finish _ => rfl

theorem hasRoute_of_search {source : NodeId} {routes : List FoundRoute}
    (h : search b adj amountMsat destNode maxRoutes source = some routes) :
    ∀ r ∈ routes, adj.HasRoute r := by
  obtain ⟨s, hs, hdone⟩ := exists_reaches_of_loop (h ▸ loop_eq_search b maxRoutes)
  obtain rfl := found_of_done hdone
  have hstart : (Search.start source).OverEdges adj := by
    refine ⟨fun e he h hh => ?_, fun r hr => nomatch hr⟩
    obtain rfl := List.mem_singleton.mp he
    cases hh
  exact (hs.inv (fun _ _ => overEdges_of_step) hstart).found

end

theorem exists_leg_of_hop {b : Build} {service : RouteService} {destPubkey : String} {amountMsat maxRoutes : Nat}
    {routes : List FoundRoute} (h : findRoutes b service destPubkey amountMsat maxRoutes = some routes) :
    ∀ r ∈ routes, ∀ hop ∈ r.hops, ∃ l, HasLeg service.networkGraph l ∧ hop.pubkey = l.target.toString ∧
      hop.shortChannelId = formatScid l.scid := by
  intro r hr hop hhop
  unfold findRoutes at h
  split at h
  · cases h
    cases hr
  · split_ifs at h
    · cases h
      cases hr
    · obtain ⟨path, hhops, hpath⟩ := hasRoute_of_search h r hr
      rw [hhops] at hhop
      obtain ⟨p, hp, rfl⟩ := List.mem_map.mp hhop
      obtain ⟨node, edge, hedge, hnode, hscid⟩ := hpath p hp
      obtain ⟨l, hleg, _, _, rfl⟩ := mem_edges.mp hedge
      exact ⟨l, hleg, congrArg NodeId.toString hnode.symm, congrArg formatScid hscid.symm⟩

/-! ## What is reported -/

/-- The text is read as the id, and in every graph it is answered with the channel of the id. -/
def DenotesChannel (text : String) (scid : UInt64) : Prop :=
  parseScid text = some scid ∧
    ∀ graph, getNetworkChannel graph text = .ok ((graph.lookup scid).map (networkChannelInfo text))

theorem denotesChannel_formatScid (scid : UInt64) : DenotesChannel (formatScid scid) scid :=
  ⟨parseScid_formatScid scid, getNetworkChannel_of_parse (parseScid_formatScid scid)⟩

/-- The channel is reported under the id it has, if it has one. -/
def ReportsScid (shortChannelId : Option String) (channel : ChannelDetails) : Prop :=
  Option.Rel DenotesChannel shortChannelId channel.shortChannelId

theorem reportsScid_map (channel : ChannelDetails) :
    ReportsScid (channel.shortChannelId.map formatScid) channel := by
  unfold ReportsScid
  cases channel.shortChannelId with
  | none => exact .none
  | some scid => exact .some (denotesChannel_formatScid scid)

theorem forall₂_listChannels {b : Build} : ∀ {channels : List ChannelDetails} {infos : List ListedChannel},
    listChannels b channels = some infos → List.Forall₂ (fun info channel =>
      info.id = channel.channelId ∧ ReportsScid info.shortChannelId channel) infos channels
  | [], _, h => by
    obtain rfl := Option.some.inj h
    exact .nil
  | channel :: channels, _, h => by
    rw [listChannels, List.mapM_cons] at h
    obtain ⟨info, hinfo, h⟩ := Option.bind_eq_some_iff.mp h
    obtain ⟨infos, hinfos, h⟩ := Option.bind_eq_some_iff.mp h
    obtain rfl := Option.some.inj h
    obtain ⟨capacity, _, hinfo⟩ := Option.bind_eq_some_iff.mp hinfo
    obtain rfl := Option.some.inj hinfo
    exact .cons ⟨rfl, reportsScid_map channel⟩ (forall₂_listChannels hinfos)

/-- **Short channel ids round-trip**, and every id that is reported denotes the channel it is reported for. -/
theorem reported_scids_denote :
    (∀ scid, parseScid (formatScid scid) = some scid) ∧
    (∀ b channels infos, listChannels b channels = some infos → List.Forall₂ (fun info channel =>
      info.id = channel.channelId ∧ ReportsScid info.shortChannelId channel) infos channels) ∧
    (∀ channels id, ∀ fees ∈ getChannelFees channels id, ∃ channel ∈ channels,
      fees.id = channel.channelId ∧ ReportsScid fees.shortChannelId channel) ∧
    (∀ b service destPubkey amountMsat maxRoutes routes,
      findRoutes b service destPubkey amountMsat maxRoutes = some routes → ∀ r ∈ routes, ∀ hop ∈ r.hops,
        ∃ l, HasLeg service.networkGraph l ∧ hop.pubkey = l.target.toString ∧
          DenotesChannel hop.shortChannelId l.scid) := by
  refine ⟨parseScid_formatScid, fun _ _ _ => forall₂_listChannels, ?_, ?_⟩
  · intro channels id fees hfees
    obtain ⟨channel, hchannel, rfl⟩ := List.mem_map.mp hfees
    exact ⟨channel, (List.mem_filter.mp hchannel).1, rfl, reportsScid_map channel⟩
  · intro b service destPubkey amountMsat maxRoutes routes h r hr hop hhop
    obtain ⟨l, hleg, hpubkey, hscid⟩ := exists_leg_of_hop h r hr hop hhop
    exact ⟨l, hleg, hpubkey, hscid ▸ denotesChannel_formatScid l.scid⟩

end LdkController
