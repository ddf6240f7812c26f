import LdkController.Hex
import LdkController.Offers
import LdkController.Process

/-!
# Notifications

`src/state/subscription_store.rs`, `src/state/forwarding_store.rs` and the LDK
event loop of `src/lib.rs`: what is published to whom when an event of the node
is handled, and what the handler records. A notification carries what the
builders put into it from the event; their constant fields and times are left
out.
-/

namespace LdkController

open Lib

/-! ## Who is subscribed -/

def getSubscribers (subscriptions : Table String (Finset String)) (notificationType : String) : List String :=
  (subscriptions.entries.filter fun e => notificationType ∈ e.2).map (·.1)

def isSubscribed (subscriptions : Table String (Finset String)) (clientPubkey notificationType : String) : Bool :=
  ((subscriptions.lookup clientPubkey).map fun types => decide (notificationType ∈ types)).getD false

theorem mem_getSubscribers {subscriptions : Table String (Finset String)} {client t : String} :
    client ∈ getSubscribers subscriptions t ↔ isSubscribed subscriptions client t = true := by
  unfold getSubscribers isSubscribed
  rw [List.mem_map]
  constructor
  · intro h
    obtain ⟨e, he, hc⟩ := h
    obtain ⟨hmem, ht⟩ := List.mem_filter.mp he
    have hlk : subscriptions.lookup client = some e.2 := by
      rw [← hc]
      exact AList.mem_lookup_iff.mpr hmem
    rw [hlk]
    exact ht
  · intro h
    cases hlk : subscriptions.lookup client with
    | none => simp [hlk] at h
    | some types =>
      simp only [hlk, Option.map_some, Option.getD_some] at h
      exact ⟨⟨client, types⟩, List.mem_filter.mpr ⟨AList.mem_lookup_iff.mp hlk, h⟩, rfl⟩

/-! ## Publishing -/

inductive Notification where
  | paymentReceived (paymentHash : String) (amount : Nat)
  | paymentSent (paymentHash : String) (feesPaid : Nat)
  | holdInvoiceAccepted (paymentHash : String) (amount settleDeadline : Nat)
  | channelOpened (id : String) (shortChannelId : Option String) (peerPubkey : String)
      (capacity localBalance remoteBalance : Nat) (fundingTxid : String) (isPrivate : Bool)
  | channelClosed (id peerPubkey closeType : String)
deriving DecidableEq, Repr

structure Published where
  kind : Nat
  clientPubkey : String
  notificationType : String
  notification : Notification
deriving DecidableEq, Repr

/-- What the publishers do for one client, in order; each step may fail. -/
inductive PublishStep where
  | fromHex
  | encrypt (kind : Nat)
  | send (kind : Nat)
deriving DecidableEq, Repr

def publishSteps (fails : String → PublishStep → Option String) (notificationType : String)
    (notification : Notification) : List (String × PublishStep) → List Published × Except String Unit
  | [] => ([], .ok ())
  | (client, step) :: rest =>
    match fails client step with
    | some e => ([], .error e)
    | none =>
      let (published, result) := publishSteps fails notificationType notification rest
      match step with
      | .send kind => (⟨kind, client, notificationType, notification⟩ :: published, result)
      | _ => (published, result)

def nwcNotificationKindNip04 : Nat := 23196
def nwcNotificationKindNip44 : Nat := 23197
def nncNotificationKind : Nat := 23200

def publishNwcNotification (fails : String → PublishStep → Option String)
    (subscriptions : Table String (Finset String)) (notificationType : String) (notification : Notification) :
    List Published × Except String Unit :=
  publishSteps fails notificationType notification ((getSubscribers subscriptions notificationType).flatMap fun client =>
    [(client, .fromHex), (client, .encrypt nwcNotificationKindNip04), (client, .send nwcNotificationKindNip04),
      (client, .encrypt nwcNotificationKindNip44), (client, .send nwcNotificationKindNip44)])

def publishNncNotification (fails : String → PublishStep → Option String)
    (subscriptions : Table String (Finset String)) (notificationType : String) (notification : Notification) :
    List Published × Except String Unit :=
  publishSteps fails notificationType notification ((getSubscribers subscriptions notificationType).flatMap fun client =>
    [(client, .fromHex), (client, .encrypt nncNotificationKind), (client, .send nncNotificationKind)])

/-! ## Events of the node -/

inductive ClosureReason where
  | counterpartyForceClosed | holderForceClosed
  | legacyCooperativeClosure | locallyInitiatedCooperativeClosure | counterpartyInitiatedCooperativeClosure
  | other
deriving DecidableEq, Repr

inductive LdkEvent where
  | paymentReceived (paymentHash : Bytes32) (amountMsat : Nat)
  | paymentSuccessful (paymentHash : Bytes32) (feePaidMsat : Option Nat)
  | paymentClaimable (paymentHash : Bytes32) (claimableAmountMsat : Nat) (claimDeadline : Option Nat)
  | channelReady (channelId : String) (counterpartyNodeId fundingTxid : Option String)
  | channelClosed (channelId : String) (counterpartyNodeId : Option String) (reason : Option ClosureReason)
  | paymentForwarded (prevChannelId nextChannelId : String) (totalFeeEarnedMsat outboundAmountForwardedMsat : Option Nat)
  | other
deriving DecidableEq

structure LdkChannelInfo where
  id : String
  shortChannelId : Option String
  capacity : Nat
  localBalance : Nat
  remoteBalance : Nat
  isPrivate : Bool
deriving DecidableEq, Repr

structure NodeView where
  payment : Bytes32 → Option PaymentDetails
  channels : List LdkChannelInfo

def lookupPaymentByHash (node : NodeView) (paymentHash : String) : Outcome String PaymentDetails :=
  match decodeHex paymentHash with
  | .err e => .err ("payment not found: invalid payment hash hex: " ++ e)
  | .panic => .panic
  | .ok hashBytes =>
    if h : hashBytes.length = 32 then
      Outcome.okOr (node.payment ⟨hashBytes.toArray, h⟩) ("payment not found: " ++ paymentHash)
    else .err "payment not found: payment hash must be 32 bytes"

def buildChannelOpenedNotification (node : NodeView) (channelId : String) (counterparty fundingTxid : Option String) :
    Notification :=
  let channel := node.channels.find? (·.id = channelId)
  .channelOpened channelId (channel.bind (·.shortChannelId)) (counterparty.getD "")
    ((channel.map (·.capacity)).getD 0) ((channel.map (·.localBalance)).getD 0)
    ((channel.map (·.remoteBalance)).getD 0) (fundingTxid.getD "") ((channel.map (·.isPrivate)).getD false)

def closeType : Option ClosureReason → String
  | some .counterpartyForceClosed => "force"
  | some .holderForceClosed => "force"
  | some .legacyCooperativeClosure => "cooperative"
  | some .locallyInitiatedCooperativeClosure => "cooperative"
  | some .counterpartyInitiatedCooperativeClosure => "cooperative"
  | _ => "unknown"

structure ForwardingEntry where
  incomingChannelId : String
  outgoingChannelId : String
  incomingAmount : Nat
  outgoingAmount : Nat
  feeEarned : Nat
  settledAt : Nat
deriving DecidableEq, Repr

/-- The stores that only the event loop writes. -/
structure EventStores where
  offers : Offers
  forwardingHistory : List ForwardingEntry

def offerOfPayment (offers : Offers) (details : PaymentDetails) : Option String :=
  if details.direction = .inbound then
    match details.kind with
    | .bolt12Offer _ offerId => findByOfferId offers offerId
    | _ => none
  else none

def recordOfferPayment (build : Build) (node : NodeView) (s : EventStores) (hexHash : String) (amountMsat : Nat) :
    EventStores × Outcome String Unit :=
  match lookupPaymentByHash node hexHash with
  | .err _ => (s, .ok ())
  | .panic => (s, .panic)
  | .ok details =>
    match offerOfPayment s.offers details with
    | none => (s, .ok ())
    | some offerKey =>
      match recordPayment build s.offers offerKey amountMsat with
      | none => (s, .panic)
      | some offers => ({ s with offers := offers }, .ok ())

/-- The result of a publisher, as the handler returns it. -/
def propagate : Except String Unit → Outcome String Unit
  | .ok _ => .ok ()
  | .error e => .err e

structure Handled where
  stores : EventStores
  published : List Published
  result : Outcome String Unit

/-- `fails` says which steps of publishing fail this time; `now` is the time in seconds. -/
def handleLdkEvent (build : Build) (node : NodeView) (fails : String → PublishStep → Option String)
    (subscriptions : Table String (Finset String)) (s : EventStores) (now : Nat) : LdkEvent → Handled
  | .paymentReceived paymentHash amountMsat =>
    let hexHash := hexPaymentHash paymentHash.toList
    let (published, result) :=
      publishNwcNotification fails subscriptions "payment_received" (.paymentReceived hexHash amountMsat)
    match result with
    -- `?`: nothing is recorded once publishing has failed
    | .error e => ⟨s, published, .err e⟩
    | .ok _ =>
      let (stores, result) := recordOfferPayment build node s hexHash amountMsat
      ⟨stores, published, result⟩
  | .paymentSuccessful paymentHash feePaidMsat =>
    let (published, result) := publishNwcNotification fails subscriptions "payment_sent"
      (.paymentSent (hexPaymentHash paymentHash.toList) (feePaidMsat.getD 0))
    ⟨s, published, propagate result⟩
  | .paymentClaimable paymentHash claimableAmountMsat claimDeadline =>
    let (published, result) := publishNwcNotification fails subscriptions "hold_invoice_accepted"
      (.holdInvoiceAccepted (hexPaymentHash paymentHash.toList) claimableAmountMsat (claimDeadline.getD 0))
    ⟨s, published, propagate result⟩
  | .channelReady channelId counterpartyNodeId fundingTxid =>
    let (published, result) := publishNncNotification fails subscriptions "channel_opened"
      (buildChannelOpenedNotification node channelId counterpartyNodeId fundingTxid)
    ⟨s, published, propagate result⟩
  | .channelClosed channelId counterpartyNodeId reason =>
    let (published, result) := publishNncNotification fails subscriptions "channel_closed"
      (.channelClosed channelId (counterpartyNodeId.getD "") (closeType reason))
    ⟨s, published, propagate result⟩
  | .paymentForwarded prevChannelId nextChannelId totalFeeEarnedMsat outboundAmountForwardedMsat =>
    let fee := totalFeeEarnedMsat.getD 0
    let outgoing := outboundAmountForwardedMsat.getD 0
    let incoming := min (outgoing + fee) u64Max
    ⟨{ s with forwardingHistory := s.forwardingHistory ++ [⟨prevChannelId, nextChannelId, incoming, outgoing, fee, now⟩] },
      [], .ok ()⟩
  | .other => ⟨s, [], .ok ()⟩

end LdkController
