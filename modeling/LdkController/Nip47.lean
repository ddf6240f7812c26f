import Mathlib.Tactic.Basic

/-!
# Wallet requests and responses

What the service uses of the wallet protocol's types: methods, the parameters of
each request, responses with their error codes, and the events that carry
requests and grants. Amounts and times are `u64` (`Nat`).
-/

namespace LdkController

inductive Method where
  | getInfo | getBalance | payInvoice | payKeysend | makeInvoice | lookupInvoice | listTransactions
  | makeHoldInvoice | cancelHoldInvoice | settleHoldInvoice | payOnchain | makeNewAddress | payOffer
  | makeOffer | lookupOffer | lookupAddress | listInvoices | listOffers | disableOffer | listAddresses
  | payBip321 | makeBip321 | subscribeNotifications | estimateOnchainFees | estimateRoutingFees
  | unknown (name : String)
deriving DecidableEq, Repr

def Method.asStr : Method → String
  | .getInfo => "get_info"
  | .getBalance => "get_balance"
  | .payInvoice => "pay_invoice"
  | .payKeysend => "pay_keysend"
  | .makeInvoice => "make_invoice"
  | .lookupInvoice => "lookup_invoice"
  | .listTransactions => "list_transactions"
  | .makeHoldInvoice => "make_hold_invoice"
  | .cancelHoldInvoice => "cancel_hold_invoice"
  | .settleHoldInvoice => "settle_hold_invoice"
  | .payOnchain => "pay_onchain"
  | .makeNewAddress => "make_new_address"
  | .payOffer => "pay_offer"
  | .makeOffer => "make_offer"
  | .lookupOffer => "lookup_offer"
  | .lookupAddress => "lookup_address"
  | .listInvoices => "list_invoices"
  | .listOffers => "list_offers"
  | .disableOffer => "disable_offer"
  | .listAddresses => "list_addresses"
  | .payBip321 => "pay_bip321"
  | .makeBip321 => "make_bip321"
  | .subscribeNotifications => "subscribe_notifications"
  | .estimateOnchainFees => "estimate_onchain_fees"
  | .estimateRoutingFees => "estimate_routing_fees"
  | .unknown name => name

/-- The key under which a profile permits every method. -/
def Method.all : Method := .unknown "ALL"

/-! ## Requests -/

structure PayInvoiceRequest where
  invoice : String
  amount : Option Nat
deriving DecidableEq, Repr

structure PayKeysendRequest where
  pubkey : String
  amount : Nat
deriving DecidableEq, Repr

structure PayOnchainRequest where
  address : String
  amountSats : Nat
  feerate : Option Nat
deriving DecidableEq, Repr

structure PayOfferRequest where
  offer : String
  amount : Option Nat
  payerNote : Option String
deriving DecidableEq, Repr

structure MakeInvoiceRequest where
  amount : Nat
  description : Option String
  descriptionHash : Option String
  expiry : Option Nat
deriving DecidableEq, Repr

structure LookupInvoiceRequest where
  paymentHash : Option String
  invoice : Option String
deriving DecidableEq, Repr

inductive TransactionType where
  | incoming | outgoing
deriving DecidableEq, Repr

inductive PaymentMethod where
  | bolt11 | bolt12 | keysend
deriving DecidableEq, Repr

structure ListTransactionsRequest where
  fromSecs : Option Nat
  untilSecs : Option Nat
  limit : Option Nat
  offset : Option Nat
  unpaid : Option Bool
  transactionType : Option TransactionType
  paymentMethod : Option PaymentMethod
deriving DecidableEq, Repr

structure MakeHoldInvoiceRequest where
  paymentHash : String
  amount : Nat
deriving DecidableEq, Repr

structure MakeOfferRequest where
  amount : Nat
  description : String
  expiry : Option Nat
deriving DecidableEq, Repr

structure ListInvoicesRequest where
  fromSecs : Option Nat
  untilSecs : Option Nat
  state : Option String
  limit : Option Nat
  offset : Option Nat
deriving DecidableEq, Repr

structure ListOffersRequest where
  activeOnly : Option Bool
  limit : Option Nat
  offset : Option Nat
deriving DecidableEq, Repr

structure ListAddressesRequest where
  limit : Option Nat
  offset : Option Nat
deriving DecidableEq, Repr

structure Bip321MethodEntry where
  method : String
  expiry : Option Nat
  addressType : Option String
deriving DecidableEq, Repr

structure MakeBip321Request where
  amount : Option Nat
  label : Option String
  message : Option String
  methods : Option (List Bip321MethodEntry)
deriving DecidableEq, Repr

inductive RequestParams where
  | getInfo
  | getBalance
  | payInvoice (params : PayInvoiceRequest)
  | payKeysend (params : PayKeysendRequest)
  | makeInvoice (params : MakeInvoiceRequest)
  | lookupInvoice (params : LookupInvoiceRequest)
  | listTransactions (params : ListTransactionsRequest)
  | makeHoldInvoice (params : MakeHoldInvoiceRequest)
  | cancelHoldInvoice (paymentHash : String)
  | settleHoldInvoice (preimage : String)
  | payOnchain (params : PayOnchainRequest)
  | makeNewAddress
  | payOffer (params : PayOfferRequest)
  | makeOffer (params : MakeOfferRequest)
  | lookupOffer (offer : String)
  | lookupAddress (address : String)
  | listInvoices (params : ListInvoicesRequest)
  | listOffers (params : ListOffersRequest)
  | disableOffer (offer : String)
  | listAddresses (params : ListAddressesRequest)
  | payBip321 (uri : String)
  | makeBip321 (params : MakeBip321Request)
  | subscribeNotifications (types : List String)
  | estimateOnchainFees
  | estimateRoutingFees (destination : String) (amount : Nat)
deriving DecidableEq, Repr

structure Request where
  method : Method
  params : RequestParams
deriving DecidableEq, Repr

/-! ## Responses -/

inductive ErrorCode where
  | rateLimited | notImplemented | quotaExceeded | restricted | unauthorized | paymentFailed | notFound | other
deriving DecidableEq, Repr

structure NIP47Error where
  code : ErrorCode
  message : String
deriving DecidableEq, Repr

inductive ResponseResult where
  | payInvoice (preimage : String) (feesPaid : Option Nat)
  | payKeysend (preimage : String) (feesPaid : Option Nat)
  | payOnchain (txid : String)
  | payOffer (preimage : Option String) (feesPaid : Option Nat)
  | payBip321 (preimage txid : Option String) (feesPaid : Option Nat) (paymentMethod : String)
  | cancelHoldInvoice
  | settleHoldInvoice
  | subscribeNotifications
  /-- The result of a handler whose execution is a parameter of the model. -/
  | other (text : String)
deriving DecidableEq, Repr

structure Response where
  resultType : Method
  error : Option NIP47Error
  result : Option ResponseResult
deriving DecidableEq, Repr

def Response.ofError (method : Method) (e : NIP47Error) : Response := ⟨method, some e, none⟩

def Response.ofResult (method : Method) (r : ResponseResult) : Response := ⟨method, none, some r⟩

/-! ## Events -/

structure Event where
  pubkey : String
  createdAt : Nat
  id : String
  tags : List (List String)
  content : String
deriving DecidableEq, Repr

end LdkController
