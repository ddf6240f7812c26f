import LdkController.SubscriptionSound

/-!
# Notifications after a revocation

Who may subscribe is checked when the request is made. What is published later
goes to whoever is in the store, so it is permitted exactly as long as no
profile is taken away from a client that is subscribed under it.
-/

namespace LdkController.Revocation

open Lib

inductive Protocol where
  | nwc | nnc
deriving DecidableEq, Repr

def protocolOf (notificationType : String) : Option Protocol :=
  if notificationType ∈ knownNwcNotificationTypes then some .nwc
  else if notificationType ∈ knownNncNotificationTypes then some .nnc
  else none

def permits (profile : UsageProfile) : Protocol → Bool
  | .nwc => (authorizeMethod profile .subscribeNotifications).isOk
  | .nnc => profile.control.any fun control => "subscribe_notifications" ∈ control ∨ "ALL" ∈ control

def Permitted (s : Stores) (client : String) (protocol : Protocol) : Prop :=
  ∃ profile, s.getUsageProfile client = some profile ∧ permits profile protocol = true

structure World extends Controller where
  eventStores : EventStores

inductive Op where
  | upsert (targetPubkey : String) (profile : UsageProfile) (now : Nat)
  | clearAll
  | request (request : Subscription.Op)
  | event (node : NodeView) (fails : String → PublishStep → Option String) (now : Nat) (event : LdkEvent)

def step (env : Env) (w : World) : Op → World
  | .upsert targetPubkey profile now =>
    { w with toStores := w.toStores.upsertUsageProfileAndResetStates targetPubkey profile now }
  | .clearAll => { w with toStores := w.toStores.clearAllUsageProfilesAndStates }
  | .request request => { w with toController := Subscription.step env w.toController request }
  | .event node fails now event =>
    { w with eventStores := (handleLdkEvent env.build node fails w.subscriptions w.eventStores now event).stores }

def published (env : Env) (w : World) : Op → List Published
  | .event node fails now event =>
    (handleLdkEvent env.build node fails w.subscriptions w.eventStores now event).published
  | _ => []

/-- No client is subscribed over a protocol for which a replaced or cleared profile leaves it without permission. -/
def Unsubscribed (w : World) : Op → Prop
  | .upsert targetPubkey profile _ => ∀ t protocol, protocolOf t = some protocol → permits profile protocol = false →
      isSubscribed w.subscriptions targetPubkey t = false
  | .clearAll => ∀ client t, isSubscribed w.subscriptions client t = false
  | _ => True

/-- Every notification that the step publishes is permitted by the current profile of the client. -/
def PublishesPermitted (env : Env) (w : World) (op : Op) : Prop :=
  ∀ p ∈ published env w op, ∃ protocol, protocolOf p.notificationType = some protocol ∧
    Permitted w.toStores p.clientPubkey protocol

/-! ## What is published -/

theorem mem_publishSteps {fails : String → PublishStep → Option String} {t : String} {n : Notification}
    {p : Published} {l : List (String × PublishStep)} (h : p ∈ (publishSteps fails t n l).1) :
    p.notificationType = t ∧ p.notification = n ∧ ∃ x ∈ l, x.1 = p.clientPubkey := by
  induction l with
  | nil => cases h
  | cons x l ih =>
    obtain ⟨client, step⟩ := x
    have hrest : p ∈ (publishSteps fails t n l).1 →
        p.notificationType = t ∧ p.notification = n ∧ ∃ x ∈ (client, step) :: l, x.1 = p.clientPubkey := by
      intro hp
      obtain ⟨ht, hn, y, hy, hc⟩ := ih hp
      exact ⟨ht, hn, y, List.mem_cons_of_mem _ hy, hc⟩
    unfold publishSteps at h
    cases hf : fails client step with
    | some e =>
      simp only [hf] at h
      cases h
    | none =>
      simp only [hf] at h
      cases step with
      | fromHex => exact hrest h
      | encrypt kind => exact hrest h
      | send kind =>
        rcases List.mem_cons.mp h with rfl | h
        · exact ⟨rfl, rfl, _, List.mem_cons_self, rfl⟩
        · exact hrest h

theorem isSubscribed_of_published {fails : String → PublishStep → Option String}
    {subscriptions : Table String (Finset String)} {t : String} {n : Notification} {p : Published}
    (steps : List PublishStep)
    (h : p ∈ (publishSteps fails t n ((getSubscribers subscriptions t).flatMap fun client =>
      steps.map (client, ·))).1) :
    isSubscribed subscriptions p.clientPubkey p.notificationType = true := by
  obtain ⟨ht, _, x, hx, hc⟩ := mem_publishSteps h
  obtain ⟨client, hclient, hx⟩ := List.mem_flatMap.mp hx
  obtain ⟨s, _, rfl⟩ := List.mem_map.mp hx
  have hc : client = p.clientPubkey := hc
  rw [ht, ← hc]
  exact mem_getSubscribers.mp hclient

section
variable {fails : String → PublishStep → Option String} {subscriptions : Table String (Finset String)} {t : String}
  {n : Notification} {p : Published}

theorem isSubscribed_of_nwc (h : p ∈ (publishNwcNotification fails subscriptions t n).1) :
    isSubscribed subscriptions p.clientPubkey p.notificationType = true :=
  isSubscribed_of_published [.fromHex, .encrypt nwcNotificationKindNip04, .send nwcNotificationKindNip04,
    .encrypt nwcNotificationKindNip44, .send nwcNotificationKindNip44] h

theorem isSubscribed_of_nnc (h : p ∈ (publishNncNotification fails subscriptions t n).1) :
    isSubscribed subscriptions p.clientPubkey p.notificationType = true :=
  isSubscribed_of_published [.fromHex, .encrypt nncNotificationKind, .send nncNotificationKind] h

theorem published_paymentReceived (build : Build) (node : NodeView) (s : EventStores) (now : Nat)
    (paymentHash : Bytes32) (amountMsat : Nat) :
    (handleLdkEvent build node fails subscriptions s now (.paymentReceived paymentHash amountMsat)).published =
      (publishNwcNotification fails subscriptions "payment_received"
        (.paymentReceived (hexPaymentHash paymentHash.toList) amountMsat)).1 := by
  simp only [handleLdkEvent]
  cases publishNwcNotification fails subscriptions "payment_received"
    (.paymentReceived (hexPaymentHash paymentHash.toList) amountMsat) with
  | mk published result =>
    cases result with
    | error e => rfl
    | ok u => rfl

/-- Whatever fails on the way, a notification goes to a subscriber of its type. -/
theorem isSubscribed_of_handled {build : Build} {node : NodeView} {s : EventStores} {now : Nat} {event : LdkEvent}
    (h : p ∈ (handleLdkEvent build node fails subscriptions s now event).published) :
    isSubscribed subscriptions p.clientPubkey p.notificationType = true := by
  cases event with
  | paymentReceived paymentHash amountMsat =>
    rw [published_paymentReceived] at h
    exact isSubscribed_of_nwc h
  | paymentSuccessful paymentHash feePaidMsat => exact isSubscribed_of_nwc h
  | paymentClaimable paymentHash amount deadline => exact isSubscribed_of_nwc h
  | channelReady id counterparty fundingTxid => exact isSubscribed_of_nnc h
  | channelClosed id counterparty reason => exact isSubscribed_of_nnc h
  | paymentForwarded prev next fee outbound => cases h
  | other => cases h

end

/-! ## The run -/

/-- Whatever a client is subscribed to is permitted by its current profile. -/
def Entitled (w : World) : Prop :=
  ∀ client t, isSubscribed w.subscriptions client t = true →
    ∃ protocol, protocolOf t = some protocol ∧ Permitted w.toStores client protocol

theorem permits_of_authorizeControlMethod {s : Stores} {client : String}
    (h : authorizeControlMethod s client "subscribe_notifications" = .ok ()) : Permitted s client .nnc := by
  unfold authorizeControlMethod at h
  cases hp : s.getUsageProfile client with
  | none =>
    simp only [hp] at h
    cases h
  | some profile =>
    refine ⟨profile, hp, ?_⟩
    simp only [hp] at h
    cases hc : profile.control with
    | none =>
      simp only [hc] at h
      cases h
    | some control =>
      simp only [hc] at h
      split at h
      · cases h
      · rename_i hno
        simp only [permits, hc, Option.any_some, decide_eq_true_eq]
        by_contra hnone
        push Not at hnone
        exact hno (.inr hnone)

theorem permitted_of_request {c : Controller} {request : Subscription.Op} {types : List String} {t : String}
    (hp : Subscription.Permitted c request) (hknown : ∀ t ∈ types, t ∈ request.known) (ht : t ∈ types) :
    ∃ protocol, protocolOf t = some protocol ∧ Permitted c.toStores request.client protocol := by
  have hmem := hknown t ht
  cases request with
  | nwc backend now event types' =>
    obtain ⟨profile, rule, hprofile, hauth⟩ := hp
    refine ⟨.nwc, if_pos hmem, profile, hprofile, ?_⟩
    simp only [permits, hauth, Outcome.isOk]
  | nnc other caller types' =>
    have hnot : t ∉ knownNwcNotificationTypes := by
      simp only [Subscription.Op.known, knownNncNotificationTypes, List.mem_cons, List.not_mem_nil, or_false] at hmem
      rcases hmem with rfl | rfl <;> decide
    refine ⟨.nnc, ?_, permits_of_authorizeControlMethod hp⟩
    have hnnc : t ∈ knownNncNotificationTypes := hmem
    unfold protocolOf
    rw [if_neg hnot, if_pos hnnc]

theorem Entitled.request {env : Env} {w : World} (h : Entitled w) (request : Subscription.Op) :
    Entitled (step env w (.request request)) := by
  intro client t ht
  have hkept : ∀ {client protocol}, Permitted w.toStores client protocol →
      (Subscription.step env w.toController request).usageProfiles = w.usageProfiles →
      Permitted (Subscription.step env w.toController request).toStores client protocol := by
    intro client protocol hp hprofiles
    obtain ⟨profile, hprofile, hpermits⟩ := hp
    refine ⟨profile, ?_, hpermits⟩
    unfold Stores.getUsageProfile
    rw [hprofiles]
    exact hprofile
  have ht' : isSubscribed (Subscription.step env w.toController request).subscriptions client t = true := ht
  rcases Subscription.step_cases env w.toController request with
    ⟨_, hp, hprofiles, types, _, hknown, hsub⟩ | ⟨_, hprofiles, hsub⟩
  · rw [hsub, Subscription.isSubscribed_setSubscription] at ht'
    by_cases hc : client = request.client
    · rw [if_pos hc, decide_eq_true_eq] at ht'
      obtain ⟨protocol, hprotocol, hpermitted⟩ := permitted_of_request hp hknown ht'
      rw [← hc] at hpermitted
      exact ⟨protocol, hprotocol, hkept hpermitted hprofiles⟩
    · rw [if_neg hc] at ht'
      obtain ⟨protocol, hprotocol, hpermitted⟩ := h client t ht'
      exact ⟨protocol, hprotocol, hkept hpermitted hprofiles⟩
  · rw [hsub] at ht'
    obtain ⟨protocol, hprotocol, hpermitted⟩ := h client t ht'
    exact ⟨protocol, hprotocol, hkept hpermitted hprofiles⟩

theorem Entitled.upsert {env : Env} {w : World} (h : Entitled w) {target : String} {profile : UsageProfile} {now : Nat}
    (hop : Unsubscribed w (.upsert target profile now)) : Entitled (step env w (.upsert target profile now)) := by
  intro client t ht
  have ht' : isSubscribed w.subscriptions client t = true := ht
  obtain ⟨protocol, hprotocol, old, hold, hpermits⟩ := h client t ht'
  have hprofile : (step env w (.upsert target profile now)).getUsageProfile client =
      if client = target then some profile else w.getUsageProfile client :=
    Stores.getUsageProfile_upsert w.toStores target profile now client
  refine ⟨protocol, hprotocol, ?_⟩
  unfold Permitted
  rw [hprofile]
  by_cases hc : client = target
  · rw [if_pos hc]
    refine ⟨profile, rfl, ?_⟩
    by_contra hno
    have hnone := hop t protocol hprotocol (Bool.eq_false_iff.mpr hno)
    rw [← hc, ht'] at hnone
    cases hnone
  · rw [if_neg hc]
    exact ⟨old, hold, hpermits⟩

theorem Entitled.step {env : Env} {w : World} {op : Op} (hop : Unsubscribed w op) (h : Entitled w) :
    Entitled (step env w op) := by
  cases op with
  | upsert target profile now => exact h.upsert hop
  | clearAll =>
    intro client t ht
    have ht' : isSubscribed w.subscriptions client t = true := ht
    rw [hop client t] at ht'
    cases ht'
  | request request => exact h.request request
  | event node fails now event => exact h

theorem Entitled.published {env : Env} {w : World} (h : Entitled w) (op : Op) : PublishesPermitted env w op := by
  intro p hp
  cases op with
  | event node fails now event => exact h _ _ (isSubscribed_of_handled hp)
  | upsert target profile now => cases hp
  | clearAll => cases hp
  | request request => cases hp

/-- **Revocation.** In every run from an empty subscription store in which a profile is replaced or cleared only while
nobody it leaves without permission is subscribed, every notification is permitted when it is published. -/
theorem published_permitted {env : Env} {w : World} {ops : List Op} (hempty : w.subscriptions = ∅)
    (h : Steps (step env) Unsubscribed w ops) : Steps (step env) (PublishesPermitted env) w ops := by
  apply h.of_inv (fun w op hop hw => Entitled.step hop hw) fun w op _ hw => hw.published op
  intro client t ht
  rw [hempty] at ht
  cases ht

namespace Sample

open LdkController.Sample

def world : World := ⟨Subscription.Sample.controller, ⟨∅, []⟩⟩

def subscribe (types : List String) : Op := .request (Subscription.Sample.wallet types)

def paid : Op := .event ⟨fun _ => none, []⟩ (fun _ _ => none) 0 (.paymentReceived (Vector.replicate 32 7) 5)

def revoke : Op := .upsert alice ⟨none, some ∅, none⟩ 2

end Sample

theorem published_permitted_unsubscribed :
    Steps (step LdkController.Sample.env) (PublishesPermitted LdkController.Sample.env) Sample.world
      [Sample.subscribe ["payment_received"], Sample.paid, Sample.subscribe [], Sample.revoke, Sample.paid] := by
  apply published_permitted rfl
  refine ⟨trivial, trivial, trivial, ?_, trivial, trivial⟩
  intro t protocol _ _
  rfl

/-- After the methods are emptied, or all profiles cleared, the client still gets both kinds. -/
theorem published_permitted_fails :
    (¬ Steps (step LdkController.Sample.env) (PublishesPermitted LdkController.Sample.env) Sample.world
        [Sample.subscribe ["payment_received"], Sample.revoke, Sample.paid]) ∧
      ¬ Steps (step LdkController.Sample.env) (PublishesPermitted LdkController.Sample.env) Sample.world
        [Sample.subscribe ["payment_received"], .clearAll, Sample.paid] := by
  constructor
  · intro h
    obtain ⟨protocol, hprotocol, profile, hprofile, hpermits⟩ := h.2.2.1 _ List.mem_cons_self
    obtain rfl : Protocol.nwc = protocol := Option.some.inj hprotocol
    obtain rfl : (⟨none, some ∅, none⟩ : UsageProfile) = profile := Option.some.inj hprofile
    revert hpermits
    decide
  · intro h
    obtain ⟨_, _, profile, hprofile, _⟩ := h.2.2.1 _ List.mem_cons_self
    cases hprofile

end LdkController.Revocation
