import LdkController.GrantsSound
import LdkController.Notifications

/-!
# One subscription for each client

Requests of both protocols write the same entry of the subscription store. A
client is subscribed to what its last accepted request lists, whichever
protocol it came over: an accepted wallet request ends the control
subscriptions of its client, and the other way round.
-/

namespace LdkController.Subscription

open Lib

/-- A `subscribe_notifications` request. Over the control protocol `types` is what the params parse to. -/
inductive Op where
  | nwc (backend : Backend) (now : Nat) (event : Event) (types : List String)
  | nnc (other : ControlRequest → String → ControlResponse) (callerPubkey : String) (types : Except String (List String))

def Op.client : Op → String
  | .nwc _ _ event _ => event.pubkey
  | .nnc _ callerPubkey _ => callerPubkey

def Op.types : Op → Option (List String)
  | .nwc _ _ _ types => some types
  | .nnc _ _ types => types.toOption

def Op.known : Op → List String
  | .nwc _ _ _ _ => knownNwcNotificationTypes
  | .nnc _ _ _ => knownNncNotificationTypes

def nwcRequest (types : List String) : Request := ⟨.subscribeNotifications, .subscribeNotifications types⟩

def nncRequest (types : Except String (List String)) : ControlRequest := ⟨"subscribe_notifications", types⟩

def step (env : Env) (c : Controller) : Op → Controller
  | .nwc backend now event types => (processNwcRequest env backend c now (nwcRequest types) event).controller
  | .nnc other callerPubkey types => (processControlRequest other c (nncRequest types) callerPubkey).1

/-- The response carries no error. -/
def accepts (env : Env) (c : Controller) : Op → Bool
  | .nwc backend now event types =>
    (processNwcRequest env backend c now (nwcRequest types) event).response.any (·.error.isNone)
  | .nnc other callerPubkey types => (processControlRequest other c (nncRequest types) callerPubkey).2.error.isNone

def accepted (env : Env) (c : Controller) (op : Op) : Option (String × List String) :=
  if accepts env c op then op.types.map (op.client, ·) else none

def acceptedNwc (env : Env) (c : Controller) : Op → Option (String × List String)
  | .nwc backend now event types => accepted env c (.nwc backend now event types)
  | .nnc _ _ _ => none

/-- The list of the client's last request among those accepted. -/
def lastList (client : String) (requests : List (String × List String)) : Option (List String) :=
  ((requests.filter fun r => r.1 = client).getLast?).map (·.2)

/-! ## What one request does -/

def Permitted (c : Controller) : Op → Prop
  | .nwc _ _ event _ =>
    ∃ profile rule, c.getUsageProfile event.pubkey = some profile ∧
      authorizeMethod profile .subscribeNotifications = .ok rule
  | .nnc _ callerPubkey _ => authorizeControlMethod c.toStores callerPubkey "subscribe_notifications" = .ok ()

theorem permitted_of_verifyAccess {env : Env} {c : Controller} {backend : Backend} {now : Nat} {event : Event}
    {types : List String} {us : List StateUpdateRequest}
    (hv : (verifyAccess env c.toStores now (nwcRequest types) event).2 = .ok us) :
    Permitted c (.nwc backend now event types) := by
  obtain ⟨profile, rule, _, _, _, hp, hm, _⟩ := prepareUpdates_eq_ok.mp (verifyAccess_eq_ok.mp hv).1
  exact ⟨profile, rule, hp, hm⟩

/-- **Inversion of a request.** -/
theorem step_cases (env : Env) (c : Controller) (op : Op) :
    (accepts env c op = true ∧ Permitted c op ∧ (step env c op).usageProfiles = c.usageProfiles ∧
      ∃ types, op.types = some types ∧ (∀ t ∈ types, t ∈ op.known) ∧
        (step env c op).subscriptions = (setSubscription c op.client types).subscriptions) ∨
    (accepts env c op = false ∧ (step env c op).usageProfiles = c.usageProfiles ∧
      (step env c op).subscriptions = c.subscriptions) := by
  cases op with
  | nwc backend now event types =>
    by_cases hv : ∃ us, (verifyAccess env c.toStores now (nwcRequest types) event).2 = .ok us
    · obtain ⟨us, hv⟩ := hv
      have hpermitted : Permitted c (.nwc backend now event types) := permitted_of_verifyAccess hv
      simp only [accepts, step]
      rw [processNwcRequest_of_ok hv]
      simp only [processAdmitted, nwcRequest, if_true]
      rcases handleNwcSubscribeNotifications_cases { c with access := (us.foldl (debit now) c.access) }
        (nwcRequest types) event.pubkey with ⟨_, hparams, hknown, hres⟩ | ⟨_, e, hres⟩
      · left
        obtain rfl := RequestParams.subscribeNotifications.inj hparams
        unfold nwcRequest at hres
        rw [hres]
        exact ⟨rfl, hpermitted, rfl, types, rfl, hknown, rfl⟩
      · right
        unfold nwcRequest at hres
        rw [hres]
        exact ⟨rfl, rfl, rfl⟩
    · right
      have hno : ∀ us, (verifyAccess env c.toStores now (nwcRequest types) event).2 ≠ .ok us := fun us h => hv ⟨us, h⟩
      have hc : (processNwcRequest env backend c now (nwcRequest types) event).controller = c :=
        (processNwcRequest_of_not_ok hno).1
      simp only [accepts, step, hc]
      exact ⟨response_of_not_ok hno, trivial, trivial⟩
  | nnc other caller types =>
    simp only [accepts, step, processControlRequest, nncRequest]
    cases ha : authorizeControlMethod c.toStores caller "subscribe_notifications" with
    | error e =>
      right
      exact ⟨rfl, rfl, rfl⟩
    | ok u =>
      simp only [supportedControlMethods, if_true]
      rw [if_neg (by decide)]
      cases types with
      | error e => exact .inr ⟨rfl, rfl, rfl⟩
      | ok types =>
        simp only
        cases hf : types.find? fun t => t ∉ knownNncNotificationTypes with
        | some t =>
          right
          exact ⟨rfl, rfl, rfl⟩
        | none =>
          left
          exact ⟨rfl, ha, rfl, types, rfl, find?_unknown.mp hf, rfl⟩

/-! ## The run -/

theorem isSubscribed_setSubscription (c : Controller) (client : String) (types : List String) (client' t : String) :
    isSubscribed (setSubscription c client types).subscriptions client' t =
      if client' = client then decide (t ∈ types) else isSubscribed c.subscriptions client' t := by
  unfold isSubscribed setSubscription subscribe unsubscribe
  by_cases hc : client' = client
  · subst hc
    cases types with
    | nil => simp
    | cons t' types => simp
  · rw [if_neg hc]
    cases types with
    | nil => simp [AList.lookup_erase_ne hc]
    | cons t' types => simp [AList.lookup_insert_ne hc]

theorem lastList_snoc (client : String) (requests : List (String × List String)) (r : String × List String) :
    lastList client (requests ++ [r]) = if r.1 = client then some r.2 else lastList client requests := by
  unfold lastList
  by_cases hr : r.1 = client
  · simp [List.filter_append, hr]
  · simp [List.filter_append, hr]

/-- What the client is subscribed to, given the lists accepted so far and the store before. -/
def subscribedTo (before : Controller) (requests : List (String × List String)) (client t : String) : Bool :=
  match lastList client requests with
  | some types => decide (t ∈ types)
  | none => isSubscribed before.subscriptions client t

theorem subscribedTo_step {env : Env} {before c : Controller} {requests : List (String × List String)} (op : Op)
    (h : ∀ client t, isSubscribed c.subscriptions client t = subscribedTo before requests client t) (client t : String) :
    isSubscribed (step env c op).subscriptions client t =
      subscribedTo before (requests ++ (accepted env c op).toList) client t := by
  unfold accepted
  rcases step_cases env c op with ⟨ha, _, _, types, htypes, _, hsub⟩ | ⟨ha, _, hsub⟩
  · rw [if_pos ha, htypes, hsub, isSubscribed_setSubscription]
    unfold subscribedTo
    rw [Option.map_some, Option.toList_some, lastList_snoc]
    by_cases hc : client = op.client
    · rw [if_pos hc, if_pos hc.symm]
    · rw [if_neg hc, if_neg fun he => hc he.symm]
      exact h client t
  · rw [if_neg (by rw [ha]; exact Bool.false_ne_true), hsub, Option.toList_none, List.append_nil]
    exact h client t

/-- **The last accepted request.** After every sequence of requests over both protocols a client is subscribed to what
its last accepted request lists, whichever protocol it came over, and a request with an unknown type is rejected
without effect on any subscription. -/
theorem last_accepted_list (env : Env) (c : Controller) (ops : List Op) :
    let c' := exec (step env) c ops
    (∀ client t, isSubscribed c'.subscriptions client t =
      subscribedTo c (answers (step env) (accepted env) c ops) client t) ∧
    (∀ client t, client ∈ getSubscribers c'.subscriptions t ↔
      subscribedTo c (answers (step env) (accepted env) c ops) client t = true) ∧
    ∀ op types t, op.types = some types → t ∈ types → t ∉ op.known →
      accepts env c' op = false ∧ (step env c' op).subscriptions = c'.subscriptions := by
  intro c'
  have hrun : ∀ client t, isSubscribed c'.subscriptions client t =
      subscribedTo c (answers (step env) (accepted env) c ops) client t := by
    have h := exec_history (R := fun c₁ requests => ∀ client t, isSubscribed c₁.subscriptions client t =
      subscribedTo c requests client t) (accepted env) (fun _ _ op h => subscribedTo_step op h) ops (h := [])
      fun client t => rfl
    rwa [List.nil_append] at h
  refine ⟨hrun, ?_, ?_⟩
  · intro client t
    rw [mem_getSubscribers, hrun]
  · intro op types t htypes ht hunknown
    rcases step_cases env c' op with ⟨_, _, _, types', htypes', hknown, _⟩ | ⟨ha, _, hsub⟩
    · rw [htypes] at htypes'
      rw [Option.some.inj htypes'] at ht
      exact absurd (hknown t ht) hunknown
    · exact ⟨ha, hsub⟩

namespace Sample

open LdkController.Sample

/-- A profile that permits the request over both protocols. -/
def profile : UsageProfile := ⟨none, none, some (AList.singleton "subscribe_notifications" ⟨none⟩)⟩

def controller : Controller :=
  { Controller.init none with toStores := Stores.empty.upsertUsageProfileAndResetStates alice profile 0 }

def wallet (types : List String) : Op := .nwc backend 1 event types

def control (types : List String) : Op := .nnc (fun r _ => ⟨r.method, none, none⟩) alice (.ok types)

end Sample

/-- An accepted control request ends the client's wallet subscription. -/
theorem independent_subscriptions_fail :
    lastList LdkController.Sample.alice (answers (step LdkController.Sample.env) (acceptedNwc LdkController.Sample.env)
        Sample.controller [Sample.wallet ["payment_received"], Sample.control ["channel_opened"]]) =
        some ["payment_received"] ∧
      isSubscribed (exec (step LdkController.Sample.env) Sample.controller
        [Sample.wallet ["payment_received"], Sample.control ["channel_opened"]]).subscriptions
          LdkController.Sample.alice "payment_received" = false := by
  decide

end LdkController.Subscription
