import LdkController.Bip321
import LdkController.Notifications
import LdkController.Paging
import LdkController.StableSort

/-!
# Listings

The four requests that list what the node and the stores hold, and `get_history`
of `src/state/forwarding_store.rs`. A store is listed in the order of its table.
Offsets and limits fit a `usize`, and the constant fields of an entry are left
out.
-/

namespace LdkController

open Lib

/-! ## Payments as they are listed -/

def PaymentKind.Hash : PaymentKind → Type
  | .onchain => Unit
  | .bolt11 _ | .bolt11Jit _ | .spontaneous _ => Bytes32
  | .bolt12Offer _ _ | .bolt12Refund _ => Option Bytes32

structure ListedPayment extends PaymentDetails where
  hash : kind.Hash
  amountMsat : Option Nat
  latestUpdateTimestamp : Nat

def paymentHashFromKind : (kind : PaymentKind) → kind.Hash → Option String
  | .bolt11 _, (hash : Bytes32) => some (hexPaymentHash hash.toList)
  | .bolt11Jit _, (hash : Bytes32) => some (hexPaymentHash hash.toList)
  | .spontaneous _, (hash : Bytes32) => some (hexPaymentHash hash.toList)
  | .bolt12Offer _ _, (hash : Option Bytes32) => hash.map fun h => hexPaymentHash h.toList
  | .bolt12Refund _, (hash : Option Bytes32) => hash.map fun h => hexPaymentHash h.toList
  | .onchain, _ => none

def preimageFromKind (kind : PaymentKind) : Option String := kind.preimage.map hexPaymentHash

def paymentMethodFromKind : PaymentKind → Option PaymentMethod
  | .bolt11 _ | .bolt11Jit _ => some .bolt11
  | .bolt12Offer _ _ | .bolt12Refund _ => some .bolt12
  | .spontaneous _ => some .keysend
  | .onchain => none

inductive TransactionState where
  | pending | settled | failed
deriving DecidableEq, Repr

structure LookupInvoiceResponse where
  transactionType : Option TransactionType
  state : Option TransactionState
  preimage : Option String
  paymentHash : String
  amount : Nat
  feesPaid : Nat
  createdAt : Option Nat
  settledAt : Option Nat
  paymentMethod : Option PaymentMethod
deriving DecidableEq, Repr

def paymentDetailsToLookupInvoiceResponse (payment : ListedPayment) : LookupInvoiceResponse where
  transactionType :=
    match payment.direction with
    | .inbound => some .incoming
    | .outbound => some .outgoing
  state :=
    match payment.status with
    | .pending => some .pending
    | .succeeded => some .settled
    | .failed => some .failed
  preimage := preimageFromKind payment.kind
  paymentHash := (paymentHashFromKind payment.kind payment.hash).getD ""
  amount := payment.amountMsat.getD 0
  feesPaid := payment.feePaidMsat.getD 0
  createdAt := if 0 < payment.latestUpdateTimestamp then some payment.latestUpdateTimestamp else none
  settledAt := if payment.status = .succeeded then some payment.latestUpdateTimestamp else none
  paymentMethod := paymentMethodFromKind payment.kind

/-! ## `list_payments_filtered` -/

/-- `matches!` of a requested method with the kind of a payment. -/
def PaymentMethod.covers : PaymentMethod → PaymentKind → Bool
  | .bolt11, .bolt11 _ | .bolt11, .bolt11Jit _ => true
  | .bolt12, .bolt12Offer _ _ | .bolt12, .bolt12Refund _ => true
  | .keysend, .spontaneous _ => true
  | _, _ => false

def passesFilter (fromSecs untilSecs : Option Nat) (unpaid : Option Bool) (direction : Option PaymentDirection)
    (paymentMethod : Option PaymentMethod) (p : ListedPayment) : Bool :=
  if fromSecs.any fun fromTs => p.latestUpdateTimestamp < fromTs then false
  else if untilSecs.any fun untilTs => untilTs < p.latestUpdateTimestamp then false
  else if direction.any fun dir => p.direction ≠ dir then false
  else if paymentMethod.any fun pm => !pm.covers p.kind then false
  else if !unpaid.getD false && p.status = .pending then false
  else true

def newestFirst (payments : List ListedPayment) : List ListedPayment :=
  payments.mergeSort fun a b => decide (b.latestUpdateTimestamp ≤ a.latestUpdateTimestamp)

def listPaymentsFiltered (payments : List ListedPayment) (fromSecs untilSecs limit offset : Option Nat)
    (unpaid : Option Bool) (direction : Option PaymentDirection) (paymentMethod : Option PaymentMethod) :
    List ListedPayment :=
  let payments := newestFirst (payments.filter (passesFilter fromSecs untilSecs unpaid direction paymentMethod))
  let offsetVal := offset.getD 0
  let payments := if 0 < offsetVal then payments.drop offsetVal else payments
  match limit with
  | some lim => payments.take lim
  | none => payments

def TransactionType.direction : TransactionType → PaymentDirection
  | .incoming => .inbound
  | .outgoing => .outbound

/-- `ListTransactionsHandler::execute`; without a service there are no payments. -/
def executeListTransactions (service : Option (List ListedPayment)) (req : Request) :
    Outcome NIP47Error (List LookupInvoiceResponse) :=
  match service, req.params with
  | some payments, .listTransactions params =>
    .ok ((listPaymentsFiltered payments params.fromSecs params.untilSecs params.limit params.offset params.unpaid
      (params.transactionType.map TransactionType.direction) params.paymentMethod).map
        paymentDetailsToLookupInvoiceResponse)
  | _, _ => .ok []

/-! ## The other listings -/

def truncateTo {α : Type} (limit : Option Nat) (entries : List α) : List α :=
  match limit with
  | some limit => truncate entries limit
  | none => entries

/-- The cut that the handlers for offers and addresses make. -/
def applyOffsetLimit {α : Type} (offset limit : Option Nat) (entries : List α) : Outcome NIP47Error (List α) :=
  let offset := offset.getD 0
  (if 0 < offset ∧ offset < entries.length then splitOff entries offset
  else if entries.length ≤ offset ∧ 0 < offset then .ok []
  else .ok entries) >>= fun entries => .ok (truncateTo limit entries)

structure InvoiceEntry where
  paymentHash : String
  amount : Nat
  state : String
  preimage : Option String
  createdAt : Option Nat
  settledAt : Option Nat
deriving DecidableEq, Repr

def PaymentStatus.stateStr : PaymentStatus → String
  | .pending => "pending"
  | .succeeded => "settled"
  | .failed => "expired"

def invoiceEntry (state : Option String) (payment : ListedPayment) : Option InvoiceEntry :=
  if state.any fun stateFilter => stateFilter ≠ payment.status.stateStr then none
  else some {
    paymentHash := (paymentHashFromKind payment.kind payment.hash).getD ""
    amount := payment.amountMsat.getD 0
    state := payment.status.stateStr
    preimage := preimageFromKind payment.kind
    createdAt := if 0 < payment.latestUpdateTimestamp then some payment.latestUpdateTimestamp else none
    settledAt := if payment.status = .succeeded then some payment.latestUpdateTimestamp else none }

/-- `ListInvoicesHandler::execute`, with the cut of its own. -/
def executeListInvoices (service : Option (List ListedPayment)) (req : Request) :
    Outcome NIP47Error (List InvoiceEntry) :=
  match service, req.params with
  | some payments, .listInvoices params =>
    let invoices := (listPaymentsFiltered payments params.fromSecs params.untilSecs none none (some true)
      (some .inbound) (some .bolt11)).filterMap (invoiceEntry params.state)
    let offset := params.offset.getD 0
    (if 0 < offset ∧ offset < invoices.length then splitOff invoices offset
    else if invoices.length ≤ offset then .ok []
    else .ok invoices) >>= fun invoices => .ok (truncateTo params.limit invoices)
  | _, _ => .ok []

structure OfferEntry where
  offer : String
  description : String
  amount : Nat
  active : Bool
  numPaymentsReceived : Nat
  totalReceived : Nat
deriving DecidableEq, Repr

def listOffers (map : Offers) : List OfferRecord := map.entries.map (·.2)

def offerEntry (record : OfferRecord) : OfferEntry :=
  ⟨record.offer, record.description, record.amountMsat, record.active, record.numPaymentsReceived,
    record.totalReceivedMsat⟩

/-- `ListOffersHandler::execute` -/
def executeListOffers (map : Offers) (req : Request) : Outcome NIP47Error (List OfferEntry) :=
  match req.params with
  | .listOffers params =>
    applyOffsetLimit params.offset params.limit
      (((listOffers map).filter fun record => if params.activeOnly.getD false then record.active else true).map offerEntry)
  | _ => .err (invalidParams "list_offers")

structure AddressEntry where
  address : String
  totalReceivedSats : Nat
deriving DecidableEq, Repr

def listAddresses (map : Addresses) : List AddressRecord := map.entries.map (·.2)

/-- `none` where the sum panics. -/
def addressEntry (b : Build) (record : AddressRecord) : Option AddressEntry := do
  let totalReceivedSats ← record.transactions.foldlM (fun total tx => b.addU64 total tx.amountSats) 0
  return ⟨record.address, totalReceivedSats⟩

/-- `ListAddressesHandler::execute` -/
def executeListAddresses (b : Build) (map : Addresses) (req : Request) : Outcome NIP47Error (List AddressEntry) :=
  match req.params with
  | .listAddresses params =>
    match (listAddresses map).mapM (addressEntry b) with
    | none => .panic
    | some addresses => applyOffsetLimit params.offset params.limit addresses
  | _ => .err (invalidParams "list_addresses")

def getHistory (history : List ForwardingEntry) (fromSecs untilSecs : Option Nat) (limit offset : Nat) :
    List ForwardingEntry :=
  ((history.filter fun e =>
    if fromSecs.any fun fromTs => e.settledAt < fromTs then false
    else if untilSecs.any fun untilTs => untilTs < e.settledAt then false
    else true).drop offset).take limit

end LdkController
