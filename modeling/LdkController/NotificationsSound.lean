import LdkController.FanOut
import LdkController.RelaySound
import LdkController.SubscriptionSound

/-!
# What subscribers hear

A client hears of an event of the node what the event tells, once for each
cipher of the protocol, if its last accepted subscription lists the type. When
publishing fails, everybody hears the beginning of that.
-/

namespace LdkController

open Lib

/-! ## Publishing -/

def publishedBy (notificationType : String) (notification : Notification) : String × PublishStep → Option Published
  | (client, .send kind) => some ⟨kind, client, notificationType, notification⟩
  | _ => none

theorem publishSteps_eq_fanOut (fails : String → PublishStep → Option String) (t : String) (n : Notification)
    (l : List (String × PublishStep)) :
    publishSteps fails t n l = fanOut (fun x => fails x.1 x.2) (publishedBy t n) l := by
  induction l with
  | nil => rfl
  | cons x l ih =>
    obtain ⟨client, step⟩ := x
    unfold publishSteps fanOut
    rw [ih]
    cases hf : fails client step with
    | some e => rfl
    | none => cases step <;> rfl

theorem nodup_getSubscribers (subscriptions : Table String (Finset String)) (t : String) :
    (getSubscribers subscriptions t).Nodup :=
  (List.Sublist.map Sigma.fst List.filter_sublist).nodup subscriptions.nodupKeys

def copies (kinds : List Nat) (t : String) (n : Notification) (client : String) : List Published :=
  kinds.map (⟨·, client, t, n⟩)

theorem filter_publishSteps {fails : String → PublishStep → Option String} {subscriptions : Table String (Finset String)}
    {t : String} {n : Notification} (steps : List PublishStep) {kinds : List Nat}
    (hkinds : ∀ client, (steps.map (client, ·)).filterMap (publishedBy t n) = copies kinds t n client) (client : String) :
    let p := publishSteps fails t n ((getSubscribers subscriptions t).flatMap fun client => steps.map (client, ·))
    let meant := if isSubscribed subscriptions client t = true then copies kinds t n client else []
    p.1.filter (fun b => b.clientPubkey = client) <+: meant ∧
      (p.2 = .ok () → p.1.filter (fun b => b.clientPubkey = client) = meant) := by
  intro p meant
  have hmeant : (((getSubscribers subscriptions t).flatMap fun client => steps.map (client, ·)).filterMap
      (publishedBy t n)).filter (fun b => b.clientPubkey = client) = meant := by
    rw [List.filterMap_flatMap]
    simp only [hkinds]
    have hreceiver : ∀ k, ∀ b ∈ copies kinds t n k, b.clientPubkey = k := by
      intro k b hb
      obtain ⟨kind, _, rfl⟩ := List.mem_map.mp hb
      rfl
    rw [filter_flatMap_of_nodup hreceiver (nodup_getSubscribers subscriptions t)]
    simp only [mem_getSubscribers]
    rfl
  have hp : p = fanOut (fun x => fails x.1 x.2) (publishedBy t n) _ := publishSteps_eq_fanOut fails t n _
  rw [← hmeant, hp]
  refine ⟨(fanOut_begins _ _ _).filter _, fun hok => ?_⟩
  rw [fanOut_of_ok hok]

/-! ## Events -/

/-- What an event of the node tells: the type, what is said, and the kinds of the events that say it. -/
def announcement (node : NodeView) : LdkEvent → Option (String × Notification × List Nat)
  | .paymentReceived paymentHash amountMsat =>
    some ("payment_received", .paymentReceived (hexPaymentHash paymentHash.toList) amountMsat,
      [nwcNotificationKindNip04, nwcNotificationKindNip44])
  | .paymentSuccessful paymentHash feePaidMsat =>
    some ("payment_sent", .paymentSent (hexPaymentHash paymentHash.toList) (feePaidMsat.getD 0),
      [nwcNotificationKindNip04, nwcNotificationKindNip44])
  | .paymentClaimable paymentHash claimableAmountMsat claimDeadline =>
    some ("hold_invoice_accepted",
      .holdInvoiceAccepted (hexPaymentHash paymentHash.toList) claimableAmountMsat (claimDeadline.getD 0),
      [nwcNotificationKindNip04, nwcNotificationKindNip44])
  | .channelReady channelId counterpartyNodeId fundingTxid =>
    some ("channel_opened", buildChannelOpenedNotification node channelId counterpartyNodeId fundingTxid,
      [nncNotificationKind])
  | .channelClosed channelId counterpartyNodeId reason =>
    some ("channel_closed", .channelClosed channelId (counterpartyNodeId.getD "") (closeType reason), [nncNotificationKind])
  | _ => none

def meantFor (node : NodeView) (event : LdkEvent) (client : String) (listed : String → Bool) : List Published :=
  (announcement node event).elim [] fun a => if listed a.1 = true then copies a.2.2 a.1 a.2.1 client else []

section
variable (fails : String → PublishStep → Option String) (subscriptions : Table String (Finset String)) (t : String)
  (n : Notification) (client : String)

theorem filter_publishNwc :
    let p := publishNwcNotification fails subscriptions t n
    let meant := if isSubscribed subscriptions client t = true then
      copies [nwcNotificationKindNip04, nwcNotificationKindNip44] t n client else []
    p.1.filter (fun b => b.clientPubkey = client) <+: meant ∧
      (p.2 = .ok () → p.1.filter (fun b => b.clientPubkey = client) = meant) :=
  filter_publishSteps [.fromHex, .encrypt nwcNotificationKindNip04, .send nwcNotificationKindNip04,
    .encrypt nwcNotificationKindNip44, .send nwcNotificationKindNip44] (fun _ => rfl) client

theorem filter_publishNnc :
    let p := publishNncNotification fails subscriptions t n
    let meant := if isSubscribed subscriptions client t = true then copies [nncNotificationKind] t n client else []
    p.1.filter (fun b => b.clientPubkey = client) <+: meant ∧
      (p.2 = .ok () → p.1.filter (fun b => b.clientPubkey = client) = meant) :=
  filter_publishSteps [.fromHex, .encrypt nncNotificationKind, .send nncNotificationKind] (fun _ => rfl) client

end

theorem filter_published (build : Build) (node : NodeView) (fails : String → PublishStep → Option String)
    (subscriptions : Table String (Finset String)) (s : EventStores) (now : Nat) (event : LdkEvent) (client : String) :
    let handled := handleLdkEvent build node fails subscriptions s now event
    let meant := meantFor node event client (isSubscribed subscriptions client)
    handled.published.filter (fun b => b.clientPubkey = client) <+: meant ∧
      ((∀ e, handled.result ≠ .err e) → handled.published.filter (fun b => b.clientPubkey = client) = meant) := by
  have hok : ∀ {r : Except String Unit}, (∀ e, propagate r ≠ .err e) → r = .ok () := by
    intro r h
    cases r with
    | error e => exact absurd rfl (h e)
    | ok u => rfl
  cases event with
  | paymentReceived paymentHash amountMsat =>
    have h := filter_publishNwc fails subscriptions "payment_received"
      (.paymentReceived (hexPaymentHash paymentHash.toList) amountMsat) client
    simp only [handleLdkEvent]
    generalize publishNwcNotification fails subscriptions "payment_received"
      (.paymentReceived (hexPaymentHash paymentHash.toList) amountMsat) = p at h ⊢
    obtain ⟨published, e | u⟩ := p
    · exact ⟨h.1, fun hno => absurd rfl (hno e)⟩
    · exact ⟨h.1, fun _ => h.2 rfl⟩
  | paymentSuccessful paymentHash feePaidMsat =>
    have h := filter_publishNwc fails subscriptions "payment_sent"
      (.paymentSent (hexPaymentHash paymentHash.toList) (feePaidMsat.getD 0)) client
    exact ⟨h.1, fun hno => h.2 (hok hno)⟩
  | paymentClaimable paymentHash amount deadline =>
    have h := filter_publishNwc fails subscriptions "hold_invoice_accepted"
      (.holdInvoiceAccepted (hexPaymentHash paymentHash.toList) amount (deadline.getD 0)) client
    exact ⟨h.1, fun hno => h.2 (hok hno)⟩
  | channelReady id counterparty fundingTxid =>
    have h := filter_publishNnc fails subscriptions "channel_opened"
      (buildChannelOpenedNotification node id counterparty fundingTxid) client
    exact ⟨h.1, fun hno => h.2 (hok hno)⟩
  | channelClosed id counterparty reason =>
    have h := filter_publishNnc fails subscriptions "channel_closed"
      (.channelClosed id (counterparty.getD "") (closeType reason)) client
    exact ⟨h.1, fun hno => h.2 (hok hno)⟩
  | paymentForwarded prev next fee outbound => exact ⟨List.prefix_refl [], fun _ => rfl⟩
  | other => exact ⟨List.prefix_refl [], fun _ => rfl⟩

theorem recordOfferPayment_ne_err (build : Build) (node : NodeView) (s : EventStores) (hexHash : String)
    (amountMsat : Nat) (e : String) : (recordOfferPayment build node s hexHash amountMsat).2 ≠ .err e := by
  intro h
  unfold recordOfferPayment at h
  cases hlookup : lookupPaymentByHash node hexHash with
  | err e => simp [hlookup] at h
  | panic => simp [hlookup] at h
  | ok details =>
    cases hoffer : offerOfPayment s.offers details with
    | none => simp [hlookup, hoffer] at h
    | some key => cases hrecord : recordPayment build s.offers key amountMsat <;> simp [hlookup, hoffer, hrecord] at h

/-- Only publishing makes the handler return an error. -/
theorem handleLdkEvent_ne_err {build : Build} {node : NodeView} {fails : String → PublishStep → Option String}
    {subscriptions : Table String (Finset String)} {s : EventStores} {now : Nat} {event : LdkEvent}
    (hfails : ∀ client step, fails client step = none) (e : String) :
    (handleLdkEvent build node fails subscriptions s now event).result ≠ .err e := by
  have hsteps : ∀ t n l, (publishSteps fails t n l).2 = .ok () := by
    intro t n l
    rw [publishSteps_eq_fanOut]
    exact fanOut_ok _ (fun x => hfails x.1 x.2) l
  have hnwc : ∀ t n, propagate (publishNwcNotification fails subscriptions t n).2 ≠ .err e := by
    intro t n
    unfold publishNwcNotification
    rw [hsteps]
    exact fun h => nomatch h
  have hnnc : ∀ t n, propagate (publishNncNotification fails subscriptions t n).2 ≠ .err e := by
    intro t n
    unfold publishNncNotification
    rw [hsteps]
    exact fun h => nomatch h
  cases event with
  | paymentReceived paymentHash amountMsat =>
    have hok : (publishNwcNotification fails subscriptions "payment_received"
        (.paymentReceived (hexPaymentHash paymentHash.toList) amountMsat)).2 = .ok () := hsteps _ _ _
    simp only [handleLdkEvent]
    generalize publishNwcNotification fails subscriptions "payment_received"
      (.paymentReceived (hexPaymentHash paymentHash.toList) amountMsat) = p at hok ⊢
    obtain ⟨published, result⟩ := p
    obtain rfl : result = .ok () := hok
    exact recordOfferPayment_ne_err build node s _ amountMsat e
  | paymentSuccessful paymentHash feePaidMsat => exact hnwc _ _
  | paymentClaimable paymentHash amount deadline => exact hnwc _ _
  | channelReady id counterparty fundingTxid => exact hnnc _ _
  | channelClosed id counterparty reason => exact hnnc _ _
  | paymentForwarded prev next fee outbound => exact fun h => nomatch h
  | other => exact fun h => nomatch h

/-! ## Subscribing -/

/-- The types that a wallet request lists, if it is answered without an error. -/
def listedNwc (request : Request) (response : Option Response) : Option (List String) :=
  match request.method, request.params with
  | .subscribeNotifications, .subscribeNotifications types =>
    if response.any (·.error.isNone) then some types else none
  | _, _ => none

def listedNnc (call : ControlCall) (reply : Option ControlReply) : Option (List String) :=
  if call.method = "subscribe_notifications" ∧ reply.any (·.error.isNone) then deserializeTypes call.params else none

def relisted (c : Controller) (client : String) (listed : Option (List String)) : Table String (Finset String) :=
  listed.elim c.subscriptions fun types => (setSubscription c client types).subscriptions

theorem subscriptions_processAdmitted (env : Env) (backend : Backend) (c : Controller) (us : List StateUpdateRequest)
    {request : Request} (hno : request.method ≠ .subscribeNotifications) (caller : String) :
    (processAdmitted env backend c us request caller).controller.subscriptions = c.subscriptions := by
  unfold processAdmitted
  rw [if_neg hno]
  cases requestHandlers request.method with
  | none => rfl
  | some handler =>
    simp only
    cases handler.validate env request with
    | error e => rfl
    | ok u =>
      simp only
      cases executeRequest env backend handler request caller with
      | mk sent result => cases result <;> rfl

theorem subscriptions_processNwcRequest (env : Env) (backend : Backend) (c : Controller) (now : Nat) (request : Request)
    (event : Event) :
    (processNwcRequest env backend c now request event).controller.subscriptions =
      relisted c event.pubkey (listedNwc request (processNwcRequest env backend c now request event).response) := by
  by_cases hv : ∃ us, (verifyAccess env c.toStores now request event).2 = .ok us
  · obtain ⟨us, hv⟩ := hv
    rw [processNwcRequest_of_ok hv]
    by_cases hsub : request.method = .subscribeNotifications
    · unfold processAdmitted
      rw [if_pos hsub]
      rcases handleNwcSubscribeNotifications_cases { c with access := us.foldl (debit now) c.access } request event.pubkey
        with ⟨types, hparams, _, hres⟩ | ⟨_, e, hres⟩
      · simp only [hres, listedNwc, hsub, hparams]
        rfl
      · simp only [hres]
        have hlisted : listedNwc request (some (.ofError .subscribeNotifications e)) = none := by
          unfold listedNwc
          rw [hsub]
          cases request.params <;> rfl
        rw [hlisted]
        rfl
    · rw [subscriptions_processAdmitted _ _ _ _ hsub]
      have hlisted : ∀ response, listedNwc request response = none := by
        intro response
        unfold listedNwc
        cases hm : request.method with
        | subscribeNotifications => exact absurd hm hsub
        | _ => rfl
      rw [hlisted]
      rfl
  · have hno : ∀ us, (verifyAccess env c.toStores now request event).2 ≠ .ok us := fun us h => hv ⟨us, h⟩
    rw [(processNwcRequest_of_not_ok hno).1]
    have hlisted : listedNwc request (processNwcRequest env backend c now request event).response = none := by
      unfold listedNwc
      rw [response_of_not_ok hno]
      cases request.method with
      | subscribeNotifications => cases request.params <;> rfl
      | _ => rfl
    rw [hlisted]
    rfl

theorem subscriptions_handleGrantEvent (decode : String → Option UsageProfile) (c : Controller) (now : Nat) (e : Event) :
    (handleGrantEvent decode c now e).subscriptions = c.subscriptions := by
  by_cases haway : TurnedAway c e
  · rw [handleGrantEvent_of_turnedAway haway]
  · obtain ⟨t, ht, htakes⟩ := exists_of_not_turnedAway haway
    rw [handleGrantEvent_of_taken decode c now e ht htakes]

theorem subscriptions_processControlCall (build : Build) (b : ControlBackend) (c : Controller) (call : ControlCall)
    (caller : String) :
    (processControlCall build b c call caller).controller.subscriptions =
      relisted c caller (listedNnc call (processControlCall build b c call caller).reply) := by
  have hrefused : ∀ method error, listedNnc call (some (.ofError method error)) = none :=
    fun method error => if_neg fun h => by cases h.2
  unfold processControlCall
  cases authorizeControlMethod c.toStores caller call.method with
  | error e =>
    simp only [hrefused]
    rfl
  | ok u =>
    simp only
    by_cases hsupported : call.method ∉ supportedControlMethods
    · rw [if_pos hsupported]
      simp only [hrefused]
      rfl
    · rw [if_neg hsupported]
      by_cases hsub : call.method = "subscribe_notifications"
      · rw [if_pos hsub]
        unfold handleNncSubscribeNotifications
        cases htypes : deserializeTypes call.params with
        | none =>
          simp only [hrefused]
          rfl
        | some types =>
          simp only
          cases types.find? fun t => t ∉ knownNncNotificationTypes with
          | some t =>
            simp only [hrefused]
            rfl
          | none =>
            have hlisted : listedNnc call (some (.ofResult "subscribe_notifications" .empty)) = some types := by
              unfold listedNnc
              rw [if_pos ⟨hsub, rfl⟩, htypes]
            simp only [hlisted]
            rfl
      · rw [if_neg hsub]
        have hlisted : ∀ reply, listedNnc call reply = none := fun reply => if_neg fun h => hsub h.1
        rw [hlisted]
        rfl

/-! ## The run -/

namespace Relay

section
variable (keys : Keys) (secretKey : String) (texts : Texts) (env : Env)

def clearListed (s : Service) : Clear → Option (String × List String)
  | .call (.wallet request) caller _ m =>
    if s.serving then
      (listedNwc request (processWalletRequest texts.render env m.payment m.wallet s.controller s.stores m.now request
        ⟨caller, 0, "", [], ""⟩).response).map (caller, ·)
    else none
  | .call (.control call) caller _ m =>
    if s.serving then
      (listedNnc call (processControlCall env.build (controlBackend texts s m) s.controller call caller).reply).map
        (caller, ·)
    else none
  | _ => none

def listed (s : Service) (i : Input) : Option (String × List String) :=
  (opened keys secretKey texts i).bind (clearListed texts env s)

def notifications (s : Service) : Input → List Published
  | .ldkEvent event node fails now =>
    if s.listening then
      (handleLdkEvent env.build node fails s.controller.subscriptions ⟨s.stores.offers, s.history⟩ now event).published
    else []
  | _ => []

end

section
variable {keys : Keys} {secretKey : String} {texts : Texts} {env : Env} {s : Service}

def Subscribed (s : Service) (history : List (String × List String)) : Prop :=
  ∀ client t, isSubscribed s.controller.subscriptions client t =
    decide (t ∈ (Subscription.lastList client history).getD [])

theorem Subscribed.relist {history : List (String × List String)} (h : Subscribed s history) {s' : Service}
    {caller : String} {types : Option (List String)}
    (hs : s'.controller.subscriptions = relisted s.controller caller types) :
    Subscribed s' (history ++ (types.map (caller, ·)).toList) := by
  intro client t
  rw [hs]
  cases types with
  | none =>
    rw [Option.map_none, Option.toList_none, List.append_nil]
    exact h client t
  | some types =>
    rw [Option.map_some, Option.toList_some, Subscription.lastList_snoc]
    refine (Subscription.isSubscribed_setSubscription s.controller caller types client t).trans ?_
    by_cases hc : client = caller
    · rw [if_pos hc, if_pos hc.symm]
      rfl
    · rw [if_neg hc, if_neg (Ne.symm hc)]
      exact h client t

theorem Subscribed.clearStep {history : List (String × List String)} (h : Subscribed s history) (c : Clear) :
    Subscribed (clearStep texts env s c) (history ++ (clearListed texts env s c).toList) := by
  have hsame : ∀ {s' : Service}, s'.controller.subscriptions = s.controller.subscriptions →
      Subscribed s' (history ++ (none : Option (String × List String)).toList) := by
    intro s' hs
    exact @Subscribed.relist s history h s' "" none hs
  cases c with
  | call body caller id m =>
    simp only [Relay.clearStep]
    by_cases hs : s.serving = true
    · rw [if_pos hs]
      cases body with
      | wallet request =>
        simp only [clearListed, if_pos hs]
        exact h.relist (subscriptions_processNwcRequest env _ s.controller m.now request _)
      | control call =>
        simp only [clearListed, if_pos hs]
        exact h.relist (subscriptions_processControlCall env.build _ s.controller call caller)
      | malformed decrypted => exact hsame rfl
      | unsupported responseKind scheme => exact hsame rfl
    · rw [if_neg hs]
      have hnone : clearListed texts env s (.call body caller id m) = none := by
        unfold clearListed
        cases body <;> simp [hs]
      rw [hnone]
      exact hsame rfl
  | grant event now =>
    simp only [Relay.clearStep]
    by_cases hs : s.serving = true
    · rw [if_pos hs]
      exact hsame (subscriptions_handleGrantEvent texts.parseProfile s.controller now event)
    · rw [if_neg hs]
      exact hsame rfl
  | fetched event now => exact hsame (subscriptions_handleGrantEvent texts.parseProfile s.controller now event)
  | ldkEvent event node fails now =>
    simp only [Relay.clearStep]
    by_cases hl : s.listening = true
    · rw [if_pos hl]
      exact hsame rfl
    · rw [if_neg hl]
      exact hsame rfl

end

/-- **What is heard.** Whatever the service has been through and whatever fails now, a client hears of an event the
beginning of what the event tells if its last accepted subscription lists the type, and all of it if nothing fails. -/
theorem heard_of_listed (keys : Keys) (secretKey : String) (texts : Texts) (env : Env) (relay : Option String)
    (before : List Input) {node : NodeView} {fails : String → PublishStep → Option String} {now : Nat} {event : LdkEvent}
    (client : String) :
    let s := exec (step keys secretKey texts env) (.init relay) before
    let history := answers (step keys secretKey texts env) (listed keys secretKey texts env) (.init relay) before
    let meant := meantFor node event client fun t => t ∈ (Subscription.lastList client history).getD []
    let heard := (notifications env s (.ldkEvent event node fails now)).filter fun b => b.clientPubkey = client
    heard <+: meant ∧ (s.listening = true → (∀ client step, fails client step = none) → heard = meant) := by
  intro s history meant heard
  have hstart : Subscribed (.init relay) [] := fun _ _ => rfl
  have hsubscribed : Subscribed s ([] ++ history) := exec_opened (fun s h c hs => hs.clearStep c) before hstart
  rw [List.nil_append] at hsubscribed
  have hmeant : meantFor node event client (isSubscribed s.controller.subscriptions client) = meant :=
    congrArg (meantFor node event client) (funext fun t => hsubscribed client t)
  have hone := filter_published env.build node fails s.controller.subscriptions ⟨s.stores.offers, s.history⟩ now event
    client
  rw [hmeant] at hone
  by_cases hl : s.listening = true
  · simp only [heard, notifications, if_pos hl]
    exact ⟨hone.1, fun _ hfails => hone.2 (handleLdkEvent_ne_err hfails)⟩
  · simp only [heard, notifications, if_neg hl]
    exact ⟨List.nil_prefix, fun h => absurd h hl⟩

end Relay

end LdkController
