import LdkController.Access
import LdkController.LdkService

/-!
# Request handlers

`src/lib.rs`: the `validate` and `execute` of each handler. The handlers that
pay are modelled in full; a handler that reads or fills other stores executes as
the backend says, since it touches no rate state.
-/

namespace LdkController

open Lib

structure Backend where
  service : Option Node
  forcedExecuteFailures : List Method
  joinError : String
  other : Request → String → Outcome NIP47Error Response

/-- The payment that was accepted on the way, and how the execution ends. -/
structure Execution where
  sent : Option (Sent × String)
  result : Outcome NIP47Error Response

structure Handler where
  validate : Env → Request → Except NIP47Error Unit
  execute : Env → Backend → Request → String → Execution

def mapLdkServiceError (operation : String) (code : ErrorCode) (error : LdkServiceError) : NIP47Error :=
  ⟨code, "ldk " ++ operation ++ " failed: " ++ error.display⟩

def invalidParams (name : String) : NIP47Error := ⟨.other, "invalid params for " ++ name⟩

def serviceUnavailable : NIP47Error := ⟨.other, "ldk service unavailable"⟩

/-! ## Checks -/

/-- Unicode's `White_Space`. -/
def isWhitespace (ch : Char) : Bool :=
  let n := ch.toNat
  (9 ≤ n ∧ n ≤ 13) ∨ n = 32 ∨ n = 133 ∨ n = 160 ∨ n = 5760 ∨ (8192 ≤ n ∧ n ≤ 8202) ∨ n = 8232 ∨ n = 8233 ∨
    n = 8239 ∨ n = 8287 ∨ n = 12288

def trimIsEmpty (s : String) : Bool := s.toList.all isWhitespace

def firstFailure : List (Bool × String) → Except NIP47Error Unit
  | [] => .ok ()
  | (failed, message) :: checks => if failed then .error ⟨.other, message⟩ else firstFailure checks

def amountPositive (amount : Nat) : Bool × String := (amount = 0, "amount must be greater than 0")

def required (field value : String) : Bool × String := (trimIsEmpty value, field ++ " is required")

def exactParams (params : RequestParams) (name : String) (req : Request) : Except NIP47Error Unit :=
  if req.params ≠ params then .error (invalidParams name) else .ok ()

def executeOther (_ : Env) (backend : Backend) (req : Request) (callerPubkey : String) : Execution :=
  ⟨none, backend.other req callerPubkey⟩

/-! ## Handlers that pay -/

def Attempt.respond {α : Type} (attempt : Attempt α) (operation : String) (response : α → Response) : Execution :=
  ⟨attempt.sent,
    match attempt.result with
    | .ok payment => .ok (response payment)
    | .error e => .err (mapLdkServiceError operation .paymentFailed e)⟩

def payInvoiceHandler : Handler where
  validate _ req :=
    match req.params with
    | .payInvoice params =>
      firstFailure [required "invoice" params.invoice, (params.amount = some 0, "amount must be greater than 0")]
    | _ => .error (invalidParams "pay_invoice")
  execute _ backend req _ :=
    match backend.service, req.params with
    | some node, .payInvoice params =>
      (payInvoice node params.invoice params.amount).respond "pay_invoice" fun payment =>
        .ofResult .payInvoice (.payInvoice payment.preimage payment.feesPaidMsat)
    | _, _ => ⟨none, .ok (.ofResult .payInvoice (.payInvoice "00" (some 0)))⟩

def payKeysendHandler : Handler where
  validate _ req :=
    match req.params with
    | .payKeysend params => firstFailure [required "pubkey" params.pubkey, amountPositive params.amount]
    | _ => .error (invalidParams "pay_keysend")
  execute _ backend req _ :=
    match backend.service, req.params with
    | some node, .payKeysend params =>
      (payKeysend node params.pubkey params.amount).respond "pay_keysend" fun payment =>
        .ofResult .payKeysend (.payKeysend payment.preimage payment.feesPaidMsat)
    | _, _ => ⟨none, .ok (.ofResult .payKeysend (.payKeysend "00" (some 0)))⟩

def payOnchainHandler : Handler where
  validate _ req :=
    match req.params with
    | .payOnchain params =>
      firstFailure [required "address" params.address,
        (params.amountSats = 0, "amount_sats must be greater than 0")]
    | _ => .error (invalidParams "pay_onchain")
  execute _ backend req _ :=
    match backend.service with
    | none => ⟨none, .err serviceUnavailable⟩
    | some node =>
      match req.params with
      | .payOnchain params =>
        (payOnchain node params.address params.amountSats params.feerate).respond "pay_onchain" fun txid =>
          .ofResult .payOnchain (.payOnchain txid)
      | _ => ⟨none, .err (invalidParams "pay_onchain")⟩

def payOfferHandler : Handler where
  validate _ req :=
    match req.params with
    | .payOffer params => firstFailure [required "offer" params.offer]
    | _ => .error (invalidParams "pay_offer")
  execute _ backend req _ :=
    match backend.service with
    | none => ⟨none, .err serviceUnavailable⟩
    | some node =>
      match req.params with
      | .payOffer params =>
        (payOffer node params.offer params.amount params.payerNote).respond "pay_offer" fun payment =>
          .ofResult .payOffer (.payOffer (some payment.preimage) payment.feesPaidMsat)
      | _ => ⟨none, .err (invalidParams "pay_offer")⟩

/-- The payment of a parsed URI: lightning, else an offer, else an on-chain address. -/
def payUri (node : Node) (uri : Bip321Uri) (amountMsat : Option Nat) : Execution :=
  match uri.lightning with
  | invoice :: _ =>
    (payInvoice node invoice amountMsat).respond "pay_bip321/bolt11" fun payment =>
      .ofResult .payBip321 (.payBip321 (some payment.preimage) none payment.feesPaidMsat "bolt11")
  | [] =>
    match uri.lno with
    | offer :: _ =>
      (payOffer node offer amountMsat none).respond "pay_bip321/bolt12" fun payment =>
        .ofResult .payBip321 (.payBip321 (some payment.preimage) none payment.feesPaidMsat "bolt12")
    | [] =>
      if uri.address.isSome then
        match uri.amount, uri.addressStr with
        | none, _ => ⟨none, .err ⟨.other, "on-chain payment requires amount"⟩⟩
        | some _, none => ⟨none, .err ⟨.other, "missing address string"⟩⟩
        | some amountSat, some addrStr =>
          (payOnchain node addrStr amountSat none).respond "pay_bip321/onchain" fun txid =>
            .ofResult .payBip321 (.payBip321 none (some txid) none "onchain")
      else ⟨none, .err ⟨.other, "no supported payment method in URI"⟩⟩

def payBip321Handler : Handler where
  validate env req :=
    match req.params with
    | .payBip321 uri => do
      firstFailure [required "uri" uri]
      match env.parseBip321 uri with
      | .error e => .error ⟨.other, "invalid BIP-321 URI: " ++ e⟩
      | .ok _ => .ok ()
    | _ => .error (invalidParams "pay_bip321")
  execute env backend req _ :=
    match backend.service with
    | none => ⟨none, .err serviceUnavailable⟩
    | some node =>
      match req.params with
      | .payBip321 uriStr =>
        match env.parseBip321 uriStr with
        | .error e => ⟨none, .err ⟨.other, "invalid BIP-321 URI: " ++ e⟩⟩
        | .ok uri =>
          match uri.amount with
          | none => payUri node uri none
          | some sats =>
            match (env.toMsat sats : Outcome NIP47Error Nat) with
            | .ok amountMsat => payUri node uri (some amountMsat)
            | .err e => ⟨none, .err e⟩
            | .panic => ⟨none, .panic⟩
      | _ => ⟨none, .err (invalidParams "pay_bip321")⟩

/-! ## Other handlers -/

def getInfoHandler : Handler := ⟨fun _ => exactParams .getInfo "get_info", executeOther⟩

def getBalanceHandler : Handler := ⟨fun _ => exactParams .getBalance "get_balance", executeOther⟩

def makeInvoiceHandler : Handler where
  validate _ req :=
    match req.params with
    | .makeInvoice params => firstFailure [amountPositive params.amount]
    | _ => .error (invalidParams "make_invoice")
  execute := executeOther

def lookupInvoiceHandler : Handler where
  validate _ req :=
    match req.params with
    | .lookupInvoice params =>
      firstFailure [((params.paymentHash.getD "").isEmpty && (params.invoice.getD "").isEmpty,
        "payment_hash or invoice is required")]
    | _ => .error (invalidParams "lookup_invoice")
  execute := executeOther

def listTransactionsHandler : Handler where
  validate _ req :=
    match req.params with
    | .listTransactions _ => .ok ()
    | _ => .error (invalidParams "list_transactions")
  execute := executeOther

def makeHoldInvoiceHandler : Handler where
  validate _ req :=
    match req.params with
    | .makeHoldInvoice params =>
      firstFailure [required "payment_hash" params.paymentHash, amountPositive params.amount]
    | _ => .error (invalidParams "make_hold_invoice")
  execute := executeOther

def cancelHoldInvoiceHandler : Handler where
  validate _ req :=
    match req.params with
    | .cancelHoldInvoice paymentHash => firstFailure [required "payment_hash" paymentHash]
    | _ => .error (invalidParams "cancel_hold_invoice")
  execute _ _ _ _ := ⟨none, .ok (.ofResult .cancelHoldInvoice .cancelHoldInvoice)⟩

def settleHoldInvoiceHandler : Handler where
  validate _ req :=
    match req.params with
    | .settleHoldInvoice preimage => firstFailure [required "preimage" preimage]
    | _ => .error (invalidParams "settle_hold_invoice")
  execute _ _ _ _ := ⟨none, .ok (.ofResult .settleHoldInvoice .settleHoldInvoice)⟩

def makeNewAddressHandler : Handler := ⟨fun _ => exactParams .makeNewAddress "make_new_address", executeOther⟩

def makeOfferHandler : Handler where
  validate _ req :=
    match req.params with
    | .makeOffer params => firstFailure [amountPositive params.amount, required "description" params.description]
    | _ => .error (invalidParams "make_offer")
  execute := executeOther

def lookupOfferHandler : Handler where
  validate _ req :=
    match req.params with
    | .lookupOffer offer => firstFailure [required "offer" offer]
    | _ => .error (invalidParams "lookup_offer")
  execute := executeOther

def lookupAddressHandler : Handler where
  validate _ req :=
    match req.params with
    | .lookupAddress address => firstFailure [required "address" address]
    | _ => .error (invalidParams "lookup_address")
  execute := executeOther

def listInvoicesHandler : Handler where
  validate _ req :=
    match req.params with
    | .listInvoices _ => .ok ()
    | _ => .error (invalidParams "list_invoices")
  execute := executeOther

def listOffersHandler : Handler where
  validate _ req :=
    match req.params with
    | .listOffers _ => .ok ()
    | _ => .error (invalidParams "list_offers")
  execute := executeOther

def disableOfferHandler : Handler where
  validate _ req :=
    match req.params with
    | .disableOffer offer => firstFailure [required "offer" offer]
    | _ => .error (invalidParams "disable_offer")
  execute := executeOther

def listAddressesHandler : Handler where
  validate _ req :=
    match req.params with
    | .listAddresses _ => .ok ()
    | _ => .error (invalidParams "list_addresses")
  execute := executeOther

def makeBip321Handler : Handler where
  validate _ req :=
    match req.params with
    | .makeBip321 _ => .ok ()
    | _ => .error (invalidParams "make_bip321")
  execute := executeOther

def estimateOnchainFeesHandler : Handler where
  validate _ := exactParams .estimateOnchainFees "estimate_onchain_fees"
  execute _ _ _ _ := ⟨none, .err ⟨.notImplemented, "estimate_onchain_fees not yet implemented"⟩⟩

def estimateRoutingFeesHandler : Handler where
  validate _ req :=
    match req.params with
    | .estimateRoutingFees destination amount =>
      firstFailure [(destination.isEmpty || amount = 0, "destination and amount required")]
    | _ => .error (invalidParams "estimate_routing_fees")
  execute := executeOther

def requestHandlers : Method → Option Handler
  | .getInfo => some getInfoHandler
  | .getBalance => some getBalanceHandler
  | .payInvoice => some payInvoiceHandler
  | .payKeysend => some payKeysendHandler
  | .makeInvoice => some makeInvoiceHandler
  | .lookupInvoice => some lookupInvoiceHandler
  | .listTransactions => some listTransactionsHandler
  | .makeHoldInvoice => some makeHoldInvoiceHandler
  | .cancelHoldInvoice => some cancelHoldInvoiceHandler
  | .settleHoldInvoice => some settleHoldInvoiceHandler
  | .makeNewAddress => some makeNewAddressHandler
  | .payOnchain => some payOnchainHandler
  | .makeOffer => some makeOfferHandler
  | .payOffer => some payOfferHandler
  | .lookupOffer => some lookupOfferHandler
  | .lookupAddress => some lookupAddressHandler
  | .listInvoices => some listInvoicesHandler
  | .listOffers => some listOffersHandler
  | .disableOffer => some disableOfferHandler
  | .listAddresses => some listAddressesHandler
  | .payBip321 => some payBip321Handler
  | .makeBip321 => some makeBip321Handler
  | .estimateOnchainFees => some estimateOnchainFeesHandler
  | .estimateRoutingFees => some estimateRoutingFeesHandler
  | .subscribeNotifications | .unknown _ => none

end LdkController
