import LdkController.HashText
import LdkController.ListingsSound
import LdkController.RelaySound

/-!
# The service stays up

A loop ends when what it does with an event panics, and what panics is arithmetic
in a build that checks for overflow. In any other build both loops outlive every
event, and whatever was handled before, a request that opens is answered.
-/

namespace LdkController

open Lib

/-! ## What does not panic -/

section
variable {b : Build} (hb : b.overflowChecks = false)
include hb

theorem addU64_ne_none (x y : Nat) : b.addU64 x y ≠ none := by
  rw [Ne, Build.addU64_eq_none, hb]
  simp

theorem mulU64_ne_none (x y : Nat) : b.mulU64 x y ≠ none := by
  rw [Ne, Build.mulU64_eq_none, hb]
  simp

theorem sumU64_ne_none (l : List Nat) : sumU64 b l ≠ none := by
  rw [sumU64, b.foldlM_addU64 l (Nat.zero_le _), hb]
  simp

theorem hopFee_ne_none (amountMsat : Nat) (edge : Edge) : hopFee b amountMsat edge ≠ none := by
  unfold hopFee
  cases h : b.mulU64 amountMsat edge.prop.toNat with
  | none => exact absurd h (mulU64_ne_none hb _ _)
  | some product => exact addU64_ne_none hb _ _

theorem expand_ne_none (amountMsat : Nat) (visited : List NodeId) (cost : Nat) (path : List PathHop) :
    ∀ (edges : List Edge) (heap : List Entry), expand b amountMsat visited cost path heap edges ≠ none
  | [], heap => Option.some_ne_none heap
  | edge :: edges, heap => by
    unfold expand
    by_cases hv : edge.next ∈ visited
    · rw [if_pos hv]
      exact expand_ne_none amountMsat visited cost path edges heap
    · rw [if_neg hv]
      cases hfee : hopFee b amountMsat edge with
      | none => exact absurd hfee (hopFee_ne_none hb amountMsat edge)
      | some fee =>
        cases hcost : b.addU64 cost fee with
        | none => exact absurd hcost (addU64_ne_none hb cost fee)
        | some cost' =>
          simp only [hcost, Option.bind_eq_bind, Option.bind_some]
          exact expand_ne_none amountMsat visited cost path edges _

theorem searchBody_ne_done_none (adj : Adjacency) (amountMsat : Nat) (destNode : NodeId) (maxRoutes : Nat) (s : Search) :
    searchBody b adj amountMsat destNode maxRoutes s ≠ .done none := by
  intro h
  cases Search.Round.of_eq h with
  | panic _ _ _ hexp => exact expand_ne_none hb _ _ _ _ _ _ hexp

theorem findRoutes_ne_none (service : RouteService) (dest : String) (amountMsat maxRoutes : Nat) :
    findRoutes b service dest amountMsat maxRoutes ≠ none := by
  unfold findRoutes
  cases service.parsePublicKey dest with
  | none => exact Option.some_ne_none []
  | some destNode =>
    by_cases hown : service.nodeId = destNode
    · simp only [if_pos hown]
      exact Option.some_ne_none []
    · simp only [if_neg hown]
      intro h
      have hloop := Option.eq_some_of_isSome (isSome_search b (adjacency service.networkGraph amountMsat) amountMsat
        destNode maxRoutes service.nodeId)
      unfold search at h
      rw [h] at hloop
      obtain ⟨t, _, hdone⟩ := exists_reaches_of_loop hloop
      exact searchBody_ne_done_none hb _ _ _ _ _ hdone

theorem queryRoutes_ne_panic (service : Option RouteService) (dest : Option String) (amount maxRoutes : Option Nat) :
    queryRoutes b service dest amount maxRoutes ≠ .panic := by
  unfold queryRoutes routesOf
  intro h
  cases service with
  | none =>
    simp only at h
    split at h <;> cases h
  | some service =>
    simp only at h
    split at h
    · cases h
    · cases hroutes : findRoutes b service (dest.getD "") (amount.getD 0) (maxRoutes.getD 1) with
      | none => exact absurd hroutes (findRoutes_ne_none hb _ _ _ _)
      | some routes =>
        rw [hroutes] at h
        cases routes <;> cases h

theorem listChannels_ne_none (channels : List ChannelDetails) : listChannels b channels ≠ none := by
  unfold listChannels
  rw [Ne, mapM_eq_none]
  intro h
  obtain ⟨channel, _, hnone⟩ := h
  unfold ldkChannelInfo at hnone
  cases hcapacity : b.mulU64 channel.channelValueSats 1000 with
  | none => exact absurd hcapacity (mulU64_ne_none hb _ _)
  | some capacity =>
    rw [hcapacity] at hnone
    cases hnone

theorem mapNodeInfo_ne_none (graph : NodeGraph) (nodeId : NodeId) (info : NodeInfo) : mapNodeInfo b graph nodeId info ≠ none := by
  unfold mapNodeInfo
  cases hsum : sumU64 b (capacities graph.channels info.channels) with
  | none => exact absurd hsum (sumU64_ne_none hb _)
  | some total => cases info.announcementInfo <;> exact Option.some_ne_none _

theorem listNetworkNodes_ne_none (graph : NodeGraph) (limit offset : Nat) : listNetworkNodes b graph limit offset ≠ none := by
  unfold listNetworkNodes
  rw [Ne, mapM_eq_none]
  intro h
  obtain ⟨node, hmem, hnone⟩ := h
  obtain ⟨nodeId, _, hnode⟩ := List.mem_filterMap.mp hmem
  obtain ⟨info, _, rfl⟩ := Option.map_eq_some_iff.mp hnode
  exact mapNodeInfo_ne_none hb graph nodeId info hnone

theorem getNetworkNode_ne_none (graph : NodeGraph) (nodeId : NodeId) : getNetworkNode b graph nodeId ≠ none := by
  unfold getNetworkNode
  cases graph.nodes.lookup nodeId with
  | none => exact Option.some_ne_none none
  | some info =>
    simp only [Option.mapM_some]
    cases h : mapNodeInfo b graph nodeId info with
    | none => exact absurd h (mapNodeInfo_ne_none hb graph nodeId info)
    | some node => exact Option.some_ne_none _

end

/-! ## Requests and events -/

section
variable {b : ControlBackend} {params : Json}

theorem withParams_ne_panic {α : Type} {method : String} {decode : Json → Option α} {arm : α → ControlAnswer}
    (h : ∀ p, (arm p).result ≠ .panic) : (b.withParams method decode params arm).result ≠ .panic := by
  unfold ControlBackend.withParams
  cases decode params with
  | none => exact fun hp => by cases hp
  | some p => exact h p

theorem withService_ne_panic {arm : ControlNode → ControlAnswer} (h : ∀ node, (arm node).result ≠ .panic) :
    (b.withService arm).result ≠ .panic := by
  unfold ControlBackend.withService
  cases b.service with
  | none => exact fun hp => by cases hp
  | some node => exact h node

theorem answer_ne_panic (commanded : Commanded) (method : String) (result : ControlResult) :
    (commanded.answer method result).result ≠ .panic := by
  unfold Commanded.answer
  cases commanded.result with
  | error e => exact fun hp => by cases hp
  | ok u => exact fun hp => by cases hp

theorem tell_ne_panic {result : Option ControlResult} (h : result ≠ none) : (ControlAnswer.tell result).result ≠ .panic := by
  cases result with
  | none => exact absurd rfl h
  | some result => exact fun hp => by cases hp

theorem commanded_ne_panic {α : Type} {method : String} {decode : Json → Option α} {run : ControlNode → α → Commanded}
    {result : ControlResult} :
    (b.withParams method decode params fun p => b.withService fun node => (run node p).answer method result).result ≠
      .panic :=
  withParams_ne_panic fun _ => withService_ne_panic fun _ => answer_ne_panic _ _ _

theorem told_ne_panic {α : Type} {method : String} {decode : Json → Option α} {result : α → Option ControlResult}
    (h : ∀ p, result p ≠ none) : (b.withParams method decode params fun p => .tell (result p)).result ≠ .panic :=
  withParams_ne_panic fun p => tell_ne_panic (h p)

theorem ite_ne_panic {p : Prop} [Decidable p] {x y : ControlAnswer} (hx : x.result ≠ .panic) (hy : y.result ≠ .panic) :
    (if p then x else y).result ≠ .panic := by
  by_cases hp : p
  · rwa [if_pos hp]
  · rwa [if_neg hp]

theorem openChannel_ne_panic : (b.openChannel params).result ≠ .panic := by
  apply withParams_ne_panic
  intro p
  by_cases h0 : p.amountSats = 0
  · rw [if_pos h0]
    exact fun hp => by cases hp
  · rw [if_neg h0]
    apply withService_ne_panic
    intro node
    cases p.host with
    | some host => exact answer_ne_panic _ _ _
    | none =>
      simp only
      cases (listPeers node).find? fun peer => peer.pubkey = p.pubkey && peer.connected with
      | none => exact fun hp => by cases hp
      | some peer => exact answer_ne_panic _ _ _

theorem getNetworkNode_ne_panic {build : Build} (hb : build.overflowChecks = false) :
    (b.getNetworkNode build params).result ≠ .panic := by
  apply withParams_ne_panic
  intro pubkey
  apply withService_ne_panic
  intro node
  cases node.parsePublicKey pubkey with
  | error e => exact fun hp => by cases hp
  | ok nodeId =>
    simp only
    cases hnode : getNetworkNode build node.graph nodeId with
    | none => exact absurd hnode (getNetworkNode_ne_none hb _ _)
    | some found => cases found <;> exact fun hp => by cases hp

theorem getNetworkChannel_ne_panic : (b.getNetworkChannel params).result ≠ .panic := by
  apply withParams_ne_panic
  intro scidStr
  apply withService_ne_panic
  intro node
  cases getNetworkChannel node.graph.channels scidStr with
  | error e => exact fun hp => by cases hp
  | ok found => cases found <;> exact fun hp => by cases hp

theorem arm_ne_panic {build : Build} (hb : build.overflowChecks = false) (method : String) :
    (b.arm build method params).result ≠ .panic := by
  have hpeers : b.listPeers.result ≠ .panic := tell_ne_panic (Option.some_ne_none _)
  have hchannels : (b.listChannels build).result ≠ .panic := by
    apply tell_ne_panic
    rw [Ne, Option.map_eq_none_iff]
    exact listChannels_ne_none hb _
  have hnodes : (b.listNetworkNodes build params).result ≠ .panic := by
    apply told_ne_panic
    intro p
    rw [Ne, Option.map_eq_none_iff]
    cases b.service with
    | none => exact Option.some_ne_none _
    | some node => exact listNetworkNodes_ne_none hb _ _ _
  have hroutes : (b.queryRoutes build params).result ≠ .panic := by
    intro h
    unfold ControlBackend.queryRoutes at h
    cases hq : queryRoutes build b.routeService ((params.get "destination").bind Json.string)
        ((params.get "amount").bind deserializeU64) ((params.get "max_routes").bind deserializeU64) with
    | ok routes => simp [hq] at h
    | err e => simp [hq] at h
    | panic => exact absurd hq (queryRoutes_ne_panic hb _ _ _ _)
  unfold ControlBackend.arm
  refine ite_ne_panic openChannel_ne_panic ?_
  refine ite_ne_panic commanded_ne_panic ?_
  refine ite_ne_panic commanded_ne_panic ?_
  refine ite_ne_panic hchannels ?_
  refine ite_ne_panic hpeers ?_
  refine ite_ne_panic commanded_ne_panic ?_
  refine ite_ne_panic (told_ne_panic fun _ => Option.some_ne_none _) ?_
  refine ite_ne_panic commanded_ne_panic ?_
  refine ite_ne_panic hnodes ?_
  refine ite_ne_panic (getNetworkNode_ne_panic hb) ?_
  refine ite_ne_panic (tell_ne_panic (Option.some_ne_none _)) ?_
  refine ite_ne_panic getNetworkChannel_ne_panic ?_
  refine ite_ne_panic (told_ne_panic fun _ => Option.some_ne_none _) ?_
  refine ite_ne_panic hroutes ?_
  exact fun hp => by cases hp

end

section
variable {env : Env} (hb : env.build.overflowChecks = false)
include hb

theorem verifyAccess_ne_panic (s : Stores) (now : Nat) (request : Request) (event : Event) :
    (verifyAccess env s now request event).2 ≠ .panic := by
  intro h
  rcases verifyAccess_cases env s now request event with
    ⟨r, _, hv⟩ | ⟨hp, _⟩ | ⟨_, e, c, _, _, hv⟩ | ⟨us, _, _, hv⟩
  · rw [hv] at h
    cases h
  · have hchecks := (requestSpendMsat_eq_panic.mp (requestSpendMsat_of_prepareUpdates_panic hp)).1
    rw [hb] at hchecks
    cases hchecks
  · rw [hv] at h
    cases h
  · rw [hv] at h
    cases h

theorem isSome_response (backend : Backend) (c : Controller) (now : Nat) (request : Request) (event : Event) :
    (processNwcRequest env backend c now request event).response.isSome = true := by
  unfold processNwcRequest
  have hno := verifyAccess_ne_panic hb c.toStores now request event
  cases hv : verifyAccess env c.toStores now request event with
  | mk a result =>
    cases result with
    | err response => rfl
    | panic => exact absurd (congrArg Prod.snd hv) hno
    | ok us =>
      simp only
      unfold processAdmitted
      split
      · rfl
      · cases requestHandlers request.method with
        | none => rfl
        | some handler =>
          simp only
          cases handler.validate env request with
          | error e => rfl
          | ok u =>
            simp only
            cases executeRequest env backend handler request event.pubkey with
            | mk sent result => cases result <;> rfl

theorem isSome_reply (b : ControlBackend) (c : Controller) (call : ControlCall) (caller : String) :
    (processControlCall env.build b c call caller).reply.isSome = true := by
  unfold processControlCall
  cases authorizeControlMethod c.toStores caller call.method with
  | error e => rfl
  | ok u =>
    simp only
    split
    · rfl
    · split
      · rfl
      · have hno : (b.arm env.build call.method call.params).result ≠ .panic := arm_ne_panic hb call.method
        unfold ControlAnswer.reply
        cases hr : (b.arm env.build call.method call.params).result with
        | ok result => rfl
        | err e => rfl
        | panic => exact absurd hr hno

theorem recordPayment_ne_none (map : Offers) (offer : String) (amountMsat : Nat) :
    recordPayment env.build map offer amountMsat ≠ none := by
  unfold recordPayment
  cases map.lookup offer with
  | none => exact Option.some_ne_none map
  | some record =>
    cases hnum : env.build.addU64 record.numPaymentsReceived 1 with
    | none => exact absurd hnum (addU64_ne_none hb _ _)
    | some num =>
      cases htotal : env.build.addU64 record.totalReceivedMsat amountMsat with
      | none => exact absurd htotal (addU64_ne_none hb _ _)
      | some total =>
        simp only [hnum, htotal]
        exact Option.some_ne_none _

theorem handleLdkEvent_ne_panic (node : NodeView) (fails : String → PublishStep → Option String)
    (subscriptions : Table String (Finset String)) (s : EventStores) (now : Nat) (event : LdkEvent) :
    (handleLdkEvent env.build node fails subscriptions s now event).result ≠ .panic := by
  have hpropagate : ∀ result : Except String Unit, propagate result ≠ .panic := by
    intro result
    cases result with
    | error e => exact fun hp => by cases hp
    | ok u => exact fun hp => by cases hp
  cases event with
  | paymentReceived paymentHash amountMsat =>
    simp only [handleLdkEvent]
    cases publishNwcNotification fails subscriptions "payment_received"
        (.paymentReceived (hexPaymentHash paymentHash.toList) amountMsat) with
    | mk published result =>
      cases result with
      | error e => exact fun hp => by cases hp
      | ok u =>
        simp only [recordOfferPayment, lookupPaymentByHash_hexPaymentHash]
        cases node.payment paymentHash with
        | none => exact fun hp => by cases hp
        | some details =>
          simp only [Outcome.okOr]
          cases offerOfPayment s.offers details with
          | none => exact fun hp => by cases hp
          | some offer =>
            simp only
            cases hrecord : recordPayment env.build s.offers offer amountMsat with
            | none => exact absurd hrecord (recordPayment_ne_none hb _ _ _)
            | some offers => exact fun hp => by cases hp
  | paymentSuccessful paymentHash feePaidMsat => exact hpropagate _
  | paymentClaimable paymentHash amount deadline => exact hpropagate _
  | channelReady id counterparty fundingTxid => exact hpropagate _
  | channelClosed id counterparty reason => exact hpropagate _
  | paymentForwarded prev next fee outbound => exact fun hp => by cases hp
  | other => exact fun hp => by cases hp

end

/-! ## The run -/

namespace Relay

structure Up (s : Service) : Prop where
  serving : s.serving = true
  listening : s.listening = true

section
variable {keys : Keys} {secretKey : String} {texts : Texts} {env : Env} (hb : env.build.overflowChecks = false)
include hb

theorem Up.answerCall {s : Service} (h : Up s) (caller : String) (m : Meets) (body : Body) :
    Up (answerCall texts env s caller m body).1 ∧ (Relay.answerCall texts env s caller m body).2.isSome = true := by
  cases body with
  | wallet request =>
    have hresponse := isSome_response hb (walletBackend texts.render env.build m.payment m.wallet s.controller.toStores
      s.stores) s.controller m.now request ⟨caller, 0, "", [], ""⟩
    refine ⟨⟨hresponse, h.listening⟩, ?_⟩
    simp only [Relay.answerCall, Option.isSome_map]
    exact hresponse
  | control call =>
    have hreply := isSome_reply hb (controlBackend texts s m) s.controller call caller
    refine ⟨⟨hreply, h.listening⟩, ?_⟩
    simp only [Relay.answerCall, Option.isSome_map]
    exact hreply
  | malformed decrypted => exact ⟨h, rfl⟩
  | unsupported responseKind scheme => exact ⟨h, rfl⟩

theorem Up.step {s : Service} (h : Up s) (i : Input) : Up (step keys secretKey texts env s i) := by
  cases hopen : opened keys secretKey texts i with
  | none =>
    rw [(step_of_not_opened hopen).1]
    exact h
  | some c =>
    rw [step_of_opened hopen]
    cases c with
    | call body caller id m =>
      simp only [clearStep, if_pos h.serving]
      exact (h.answerCall hb caller m body).1
    | grant event now =>
      simp only [clearStep, if_pos h.serving]
      exact ⟨h.serving, h.listening⟩
    | fetched event now => exact ⟨h.serving, h.listening⟩
    | ldkEvent event node fails now =>
      simp only [clearStep, if_pos h.listening]
      exact ⟨h.serving, decide_eq_true (handleLdkEvent_ne_panic hb node fails _ _ now event)⟩

end

end Relay

end LdkController
