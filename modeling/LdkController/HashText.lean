import LdkController.RevocationSound
import LdkController.WalletMethods

/-!
# The text of a payment hash

Notifications and listings write a hash as two digits for each byte, and so does
the node's library in an invoice. The lookup of a payment reads it back, so the
text that was handed out finds the payment with that hash and no other.
-/

namespace LdkController

open Lib

/-! ## Two encoders -/

theorem hexPaymentHash_eq_hexString (bytes : List UInt8) : hexPaymentHash bytes = hexString bytes := by
  unfold hexString
  rw [← toList_hexPaymentHash, String.ofList_toList]

theorem lookupPaymentByHash_hexPaymentHash (node : NodeView) (hash : Bytes32) :
    lookupPaymentByHash node (hexPaymentHash hash.toList) =
      Outcome.okOr (node.payment hash) ("payment not found: " ++ hexPaymentHash hash.toList) := by
  have hlen : hash.toList.length = 32 := Vector.length_toList
  have hvec : (⟨hash.toList.toArray, hlen⟩ : Bytes32) = hash := Vector.toList_inj.mp (by simp)
  unfold lookupPaymentByHash
  rw [decodeHex_hexPaymentHash]
  simp only [dif_pos hlen, hvec]

/-! ## Where a hash is written -/

def LdkEvent.paymentHash? : LdkEvent → Option Bytes32
  | .paymentReceived paymentHash _ => some paymentHash
  | .paymentSuccessful paymentHash _ => some paymentHash
  | .paymentClaimable paymentHash _ _ => some paymentHash
  | _ => none

def Notification.paymentHash? : Notification → Option String
  | .paymentReceived paymentHash _ => some paymentHash
  | .paymentSent paymentHash _ => some paymentHash
  | .holdInvoiceAccepted paymentHash _ _ => some paymentHash
  | _ => none

def ListedPayment.hash? (payment : ListedPayment) : Option Bytes32 :=
  match payment.kind, payment.hash with
  | .bolt11 _, (hash : Bytes32) => some hash
  | .bolt11Jit _, (hash : Bytes32) => some hash
  | .spontaneous _, (hash : Bytes32) => some hash
  | .bolt12Offer _ _, (hash : Option Bytes32) => hash
  | .bolt12Refund _, (hash : Option Bytes32) => hash
  | .onchain, _ => none

/-- The library writes the hash of an invoice as two lower-case digits for each byte. -/
def WritesHashes (node : WalletNode) (hashOf : String → Bytes32) : Prop :=
  ∀ invoice, (node.invoiceData invoice).paymentHash = hexString (hashOf invoice).toList

/-- The text is given out for the hash: in a notification, in a listed transaction, in a listed invoice or for an
invoice that is made. -/
inductive WrittenFor (hash : Bytes32) : String → Prop
  | notification {build : Build} {node : NodeView} {fails : String → PublishStep → Option String}
      {subscriptions : Table String (Finset String)} {s : EventStores} {now : Nat} {event : LdkEvent} {p : Published}
      {text : String} : event.paymentHash? = some hash →
      p ∈ (handleLdkEvent build node fails subscriptions s now event).published →
      p.notification.paymentHash? = some text → WrittenFor hash text
  | transaction {payment : ListedPayment} : payment.hash? = some hash →
      WrittenFor hash (paymentDetailsToLookupInvoiceResponse payment).paymentHash
  | invoice {payment : ListedPayment} {state : Option String} {entry : InvoiceEntry} : payment.hash? = some hash →
      invoiceEntry state payment = some entry → WrittenFor hash entry.paymentHash
  | made {b : WalletBackend} {node : WalletNode} {hashOf : String → Bytes32} {req : Request}
      {response : MakeInvoiceResponse} {text : String} : b.service = some node → WritesHashes node hashOf →
      b.makeInvoice req = .ok (.makeInvoice response) → hashOf response.invoice = hash →
      response.paymentHash = some text → WrittenFor hash text

section
variable {fails : String → PublishStep → Option String} {subscriptions : Table String (Finset String)} {t : String}
  {n : Notification} {p : Published}

theorem notification_of_nwc (h : p ∈ (publishNwcNotification fails subscriptions t n).1) : p.notification = n :=
  (Revocation.mem_publishSteps h).2.1

theorem notification_of_nnc (h : p ∈ (publishNncNotification fails subscriptions t n).1) : p.notification = n :=
  (Revocation.mem_publishSteps h).2.1

theorem paymentHash_of_handled {build : Build} {node : NodeView} {s : EventStores} {now : Nat} {event : LdkEvent}
    (h : p ∈ (handleLdkEvent build node fails subscriptions s now event).published) :
    p.notification.paymentHash? = event.paymentHash?.map fun hash => hexPaymentHash hash.toList := by
  cases event with
  | paymentReceived paymentHash amountMsat =>
    rw [Revocation.published_paymentReceived] at h
    rw [notification_of_nwc h]
    rfl
  | paymentSuccessful paymentHash feePaidMsat => rw [notification_of_nwc h]; rfl
  | paymentClaimable paymentHash amount deadline => rw [notification_of_nwc h]; rfl
  | channelReady id counterparty fundingTxid => rw [notification_of_nnc h]; rfl
  | channelClosed id counterparty reason => rw [notification_of_nnc h]; rfl
  | paymentForwarded prev next fee outbound => cases h
  | other => cases h

end

theorem paymentHashFromKind_eq (payment : ListedPayment) : paymentHashFromKind payment.kind payment.hash =
    payment.hash?.map fun hash => hexPaymentHash hash.toList := by
  obtain ⟨⟨id, kind, fee, direction, status⟩, hash, amount, timestamp⟩ := payment
  cases kind <;> rfl

theorem paymentHash_of_makeInvoice {b : WalletBackend} {node : WalletNode} {req : Request}
    {response : MakeInvoiceResponse} {text : String} (hnode : b.service = some node)
    (h : b.makeInvoice req = .ok (.makeInvoice response)) (htext : response.paymentHash = some text) :
    text = (node.invoiceData response.invoice).paymentHash := by
  unfold WalletBackend.makeInvoice at h
  rw [hnode] at h
  cases hreq : req.params with
  | makeInvoice params =>
    rw [hreq] at h
    simp only at h
    cases hmade : node.makeLdkInvoice params.amount params.description params.descriptionHash params.expiry with
    | error e =>
      rw [hmade] at h
      cases h
    | ok invoice =>
      rw [hmade] at h
      cases h
      rw [← Option.some.inj htext, WalletNode.invoiceData_of_made hmade]
  | _ =>
    rw [hreq] at h
    cases h
    cases htext

theorem WrittenFor.eq {hash : Bytes32} {text : String} (h : WrittenFor hash text) :
    text = hexPaymentHash hash.toList := by
  cases h with
  | notification hevent hp htext =>
    rw [paymentHash_of_handled hp, hevent] at htext
    exact (Option.some.inj htext).symm
  | @transaction payment hpayment =>
    show (paymentHashFromKind payment.kind payment.hash).getD "" = _
    rw [paymentHashFromKind_eq, hpayment]
    rfl
  | @invoice payment state entry hpayment hentry =>
    unfold invoiceEntry at hentry
    split at hentry
    · cases hentry
    · cases hentry
      show (paymentHashFromKind payment.kind payment.hash).getD "" = _
      rw [paymentHashFromKind_eq, hpayment]
      rfl
  | made hnode hwrites hmade hhash htext =>
    rw [paymentHash_of_makeInvoice hnode hmade htext, hwrites, hhash, hexPaymentHash_eq_hexString]

/-- **A hash that was handed out finds its payment.** -/
theorem hash_text_round_trip :
    (∀ bytes, decodeHex (hexPaymentHash bytes) = .ok bytes ∧ hexPaymentHash bytes = hexString bytes) ∧
    ∀ (node : NodeView) (hash : Bytes32) (text : String), WrittenFor hash text →
      lookupPaymentByHash node text = Outcome.okOr (node.payment hash) ("payment not found: " ++ text) := by
  refine ⟨fun bytes => ⟨decodeHex_hexPaymentHash bytes, hexPaymentHash_eq_hexString bytes⟩, fun node hash text h => ?_⟩
  rw [h.eq, lookupPaymentByHash_hexPaymentHash]

namespace Sample

def sevens : Bytes32 := Vector.replicate 32 7

def paid : ListedPayment := ⟨⟨"07", .bolt11 none, some 0, .outbound, .succeeded⟩, sevens, some 1000, 1700000000⟩

def paidNode : NodeView := ⟨fun hash => if hash = sevens then some paid.toPaymentDetails else none, []⟩

/-- Every invoice of this node is for the same hash. -/
def maker : WalletNode where
  receiver := ⟨.ok, fun _ _ _ _ => .ok "lnbc1", fun _ _ _ _ => .error "", fun _ => .error "", fun _ => none, some⟩
  invoiceData _ := ⟨hexString sevens.toList, some 1000, none⟩
  parseInvoice := .ok
  payment _ := none
  payments := []
  syncWallets := .ok ()
  spendableOnchainBalanceSats := 0
  totalLightningBalanceSats := 0
  nodeId := "node"
  network := "regtest"
  latestBestBlockHeight := 0
  routes := ⟨fun _ => none, ⟨Vector.replicate 33 2⟩, ∅⟩

def makerBackend : WalletBackend := ⟨some maker, "node", none, 9, fun _ => ""⟩

def invoiceRequest : Request := ⟨.makeInvoice, .makeInvoice ⟨1000, none, none, none⟩⟩

end Sample

theorem hash_text_round_trip_listed :
    lookupPaymentByHash Sample.paidNode (paymentDetailsToLookupInvoiceResponse Sample.paid).paymentHash =
        .ok Sample.paid.toPaymentDetails ∧
      ∃ response text, Sample.makerBackend.makeInvoice Sample.invoiceRequest = .ok (.makeInvoice response) ∧
        response.paymentHash = some text ∧
        lookupPaymentByHash Sample.paidNode text = .ok Sample.paid.toPaymentDetails := by
  have hpaid : Sample.paidNode.payment Sample.sevens = some Sample.paid.toPaymentDetails := by
    simp [Sample.paidNode]
  refine ⟨?_, ⟨"lnbc1", some (hexString Sample.sevens.toList), none, none, some 1000, some 9, none⟩, _, rfl, rfl, ?_⟩
  · rw [hash_text_round_trip.2 Sample.paidNode Sample.sevens _ (.transaction rfl), hpaid]
    rfl
  · have hmade : WrittenFor Sample.sevens (hexString Sample.sevens.toList) :=
      @WrittenFor.made _ Sample.makerBackend Sample.maker (fun _ => Sample.sevens) Sample.invoiceRequest _ _ rfl
        (fun _ => rfl) rfl rfl rfl
    rw [hash_text_round_trip.2 Sample.paidNode Sample.sevens _ hmade, hpaid]
    rfl

end LdkController
