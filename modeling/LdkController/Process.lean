import LdkController.Grants
import LdkController.Handlers

/-!
# Processing a request

`src/lib.rs`: `process_nwc_request` with all its exits, and the dispatch of a
control request up to the methods that only talk to the node. The debit is made
first; the only exit that gives it back is the failed execution.
-/

namespace LdkController

open Lib

/-! ## Subscriptions -/

def subscribe (subscriptions : Table String (Finset String)) (clientPubkey : String) (types : List String) :
    Table String (Finset String) :=
  subscriptions.insert clientPubkey types.toFinset

def unsubscribe (subscriptions : Table String (Finset String)) (clientPubkey : String) :
    Table String (Finset String) :=
  subscriptions.erase clientPubkey

/-- The part of the two `subscribe_notifications` branches that writes the store. -/
def setSubscription (c : Controller) (clientPubkey : String) (types : List String) : Controller :=
  { c with subscriptions :=
      if types.isEmpty then unsubscribe c.subscriptions clientPubkey
      else subscribe c.subscriptions clientPubkey types }

def knownNwcNotificationTypes : List String := ["payment_received", "payment_sent", "hold_invoice_accepted"]

def handleNwcSubscribeNotifications (c : Controller) (request : Request) (callerPubkey : String) :
    Controller × Response :=
  match request.params with
  | .subscribeNotifications types =>
    match types.find? fun t => t ∉ knownNwcNotificationTypes with
    | some t => (c, .ofError .subscribeNotifications ⟨.other, "unknown notification type: " ++ t⟩)
    | none =>
      (setSubscription c callerPubkey types, .ofResult .subscribeNotifications .subscribeNotifications)
  | _ => (c, .ofError .subscribeNotifications (invalidParams "subscribe_notifications"))

/-! ## Wallet requests -/

inductive Exit where
  | refused | panicked | subscribed | subscribeRejected | notImplemented | invalid | executed | failed
deriving DecidableEq, Repr

def Exit.rejected : Exit → Bool
  | .refused | .subscribeRejected | .notImplemented | .invalid => true
  | _ => false

structure Processed where
  controller : Controller
  exit : Exit
  response : Option Response
  sent : Option (Sent × String)

def executeRequest (env : Env) (backend : Backend) (handler : Handler) (request : Request) (callerPubkey : String) :
    Option (Sent × String) × Except NIP47Error Response :=
  if request.method ∈ backend.forcedExecuteFailures then
    (none, .error ⟨.other, "forced execute failure for testing"⟩)
  else
    let execution := handler.execute env backend request callerPubkey
    (execution.sent,
      match execution.result with
      | .ok response => .ok response
      | .err e => .error e
      | .panic => .error ⟨.other, "internal execution task failed: " ++ backend.joinError⟩)

def processAdmitted (env : Env) (backend : Backend) (c : Controller) (updates : List StateUpdateRequest)
    (request : Request) (callerPubkey : String) : Processed :=
  if request.method = .subscribeNotifications then
    let (c, response) := handleNwcSubscribeNotifications c request callerPubkey
    ⟨c, if response.error.isNone then .subscribed else .subscribeRejected, some response, none⟩
  else
    match requestHandlers request.method with
    | none =>
      ⟨c, .notImplemented,
        some (.ofError request.method ⟨.notImplemented, request.method.asStr ++ " not implemented yet"⟩), none⟩
    | some handler =>
      match handler.validate env request with
      | .error e => ⟨c, .invalid, some (.ofError request.method e), none⟩
      | .ok _ =>
        match executeRequest env backend handler request callerPubkey with
        | (sent, .ok response) => ⟨c, .executed, some response, sent⟩
        | (sent, .error e) =>
          ⟨{ c with access := refundAppliedStateUpdates c.access updates }, .failed,
            some (.ofError request.method e), sent⟩

def processNwcRequest (env : Env) (backend : Backend) (c : Controller) (now : Nat) (request : Request)
    (event : Event) : Processed :=
  match verifyAccess env c.toStores now request event with
  | (a, .err response) => ⟨{ c with access := a }, .refused, some response, none⟩
  | (a, .panic) => ⟨{ c with access := a }, .panicked, none, none⟩
  | (a, .ok updates) => processAdmitted env backend { c with access := a } updates request event.pubkey

/-! ## Control requests -/

/-- `types` is what the params parse to as those of `subscribe_notifications`. -/
structure ControlRequest where
  method : String
  types : Except String (List String)

structure ControlResponse where
  resultType : String
  result : Option String
  error : Option ControlError
deriving DecidableEq, Repr

def supportedControlMethods : List String :=
  ["connect_peer", "open_channel", "close_channel", "list_channels", "list_peers", "disconnect_peer",
    "subscribe_notifications", "get_channel_fees", "set_channel_fees", "list_network_nodes", "get_network_node",
    "get_network_stats", "get_network_channel", "get_forwarding_history", "get_pending_htlcs", "query_routes"]

def knownNncNotificationTypes : List String := ["channel_opened", "channel_closed"]

/-- `other` answers the methods that only talk to the node. -/
def processControlRequest (other : ControlRequest → String → ControlResponse) (c : Controller)
    (request : ControlRequest) (callerPubkey : String) : Controller × ControlResponse :=
  match authorizeControlMethod c.toStores callerPubkey request.method with
  | .error error => (c, ⟨request.method, none, some error⟩)
  | .ok _ =>
    if request.method ∉ supportedControlMethods then
      (c, ⟨request.method, none, some ⟨"NOT_IMPLEMENTED", "unknown control method: " ++ request.method⟩⟩)
    else if request.method = "subscribe_notifications" then
      match request.types with
      | .error e =>
        (c, ⟨request.method, none, some ⟨"OTHER", "invalid subscribe_notifications params: " ++ e⟩⟩)
      | .ok types =>
        match types.find? fun t => t ∉ knownNncNotificationTypes with
        | some t => (c, ⟨"subscribe_notifications", none, some ⟨"OTHER", "unknown notification type: " ++ t⟩⟩)
        | none => (setSubscription c callerPubkey types, ⟨"subscribe_notifications", some "{}", none⟩)
    else (c, other request callerPubkey)

end LdkController
