import LdkController.AllowedMethods
import LdkController.Listings
import LdkController.Process
import LdkController.Routes

/-!
# Wallet methods

The `execute` of the handlers of `src/lib.rs` that pay nothing, with the calls of
`src/lightning/ldk_service.rs` they make and the two stores they write. What they
answer is the backend with which `process_nwc_request` runs them.
-/

namespace LdkController

open Lib

/-! ## The node behind them -/

/-- What an invoice that the node made says of itself. -/
structure InvoiceData where
  paymentHash : String
  amountMilliSatoshis : Option Nat
  expiresAt : Option Nat
deriving DecidableEq, Repr

structure WalletNode where
  receiver : Receiver
  invoiceData : String → InvoiceData
  /-- The payment hash of an invoice that is looked up. -/
  parseInvoice : String → Except String String
  payment : Bytes32 → Option ListedPayment
  payments : List ListedPayment
  syncWallets : Except String Unit
  spendableOnchainBalanceSats : Nat
  totalLightningBalanceSats : Nat
  nodeId : String
  network : String
  latestBestBlockHeight : Nat
  routes : RouteService

/-- The variants of `LdkServiceError` with which the calls here end. -/
inductive WalletError where
  | syncFailed (msg : String)
  | addressGenerationFailed (msg : String)
  | balanceOverflow (sats : Nat)
  | invalidInvoice (msg : String)
  | invalidInvoiceRequest (msg : String)
  | invalidAmount (amount : Nat)
  | offerFailed (msg : String)
deriving DecidableEq, Repr

def WalletError.display : WalletError → String
  | .syncFailed msg => "ldk wallet sync failed: " ++ msg
  | .addressGenerationFailed msg => "ldk address generation failed: " ++ msg
  | .balanceOverflow sats => "balance conversion overflow for sats=" ++ toString sats
  | .invalidInvoice msg => "invalid invoice: " ++ msg
  | .invalidInvoiceRequest msg => "invalid invoice request: " ++ msg
  | .invalidAmount amount => "invalid amount: " ++ toString amount
  | .offerFailed msg => "offer operation failed: " ++ msg

/-- `map_ldk_service_error` -/
def mapWalletError (operation : String) (error : WalletError) : NIP47Error :=
  ⟨.other, "ldk " ++ operation ++ " failed: " ++ error.display⟩

structure LdkBalance where
  totalMsat : Nat
  lightningMsat : Nat
  onchainMsat : Nat
deriving DecidableEq, Repr

def checkedU64 (n : Nat) : Option Nat := if n ≤ u64Max then some n else none

structure LdkInvoiceResult extends InvoiceData where
  invoice : String

namespace WalletNode

variable (node : WalletNode)

-- the `sats` of the last error are added whether it is needed or not, and always fit
def getBalance : Except WalletError LdkBalance :=
  match checkedU64 (node.spendableOnchainBalanceSats * 1000) with
  | none => .error (.balanceOverflow node.spendableOnchainBalanceSats)
  | some onchainMsat =>
    match checkedU64 (node.totalLightningBalanceSats * 1000) with
    | none => .error (.balanceOverflow node.totalLightningBalanceSats)
    | some lightningMsat =>
      match checkedU64 (onchainMsat + lightningMsat) with
      | none => .error (.balanceOverflow (node.spendableOnchainBalanceSats + node.totalLightningBalanceSats))
      | some totalMsat => .ok ⟨totalMsat, lightningMsat, onchainMsat⟩

def makeLdkInvoice (amountMsat : Nat) (description descriptionHash : Option String) (expirySecs : Option Nat) :
    Except WalletError LdkInvoiceResult :=
  if amountMsat = 0 then .error (.invalidAmount amountMsat)
  else if descriptionHash.isSome then .error (.invalidInvoiceRequest "description_hash is not supported yet")
  else
    match node.receiver.newDescription (description.getD "nwc invoice") with
    | .error e => .error (.invalidInvoiceRequest e)
    | .ok desc =>
      match (expirySecs.map u32OfU64).getD (some 3600) with
      | none => .error (.invalidInvoiceRequest "expiry exceeds u32::MAX")
      | some expiryU32 =>
        match node.receiver.receiveBolt11 0 amountMsat desc expiryU32 with
        | .error e => .error (.invalidInvoiceRequest e)
        | .ok invoice => .ok ⟨node.invoiceData invoice, invoice⟩

/-- A payment URI is made with the same invoices, of which only the text is kept. -/
theorem toOption_makeLdkInvoice (amountMsat : Nat) (description descriptionHash : Option String)
    (expirySecs : Option Nat) :
    (node.makeLdkInvoice amountMsat description descriptionHash expirySecs).toOption =
      (makeInvoice node.receiver 0 amountMsat description descriptionHash expirySecs).map fun invoice =>
        ⟨node.invoiceData invoice, invoice⟩ := by
  unfold makeLdkInvoice makeInvoice
  by_cases hzero : amountMsat = 0
  · simp only [hzero, if_true]
    rfl
  by_cases hhash : descriptionHash.isSome
  · simp only [hzero, hhash, if_false, if_true]
    rfl
  simp only [hzero, hhash, if_false]
  cases node.receiver.newDescription (description.getD "nwc invoice") with
  | error e => rfl
  | ok desc =>
    cases (expirySecs.map u32OfU64).getD (some 3600) with
    | none => rfl
    | some expiryU32 =>
      simp only [Except.toOption, Option.bind_eq_bind, Option.bind_some]
      cases node.receiver.receiveBolt11 0 amountMsat desc expiryU32 <;> rfl

theorem invoiceData_of_made {node : WalletNode} {amountMsat : Nat} {description descriptionHash : Option String}
    {expirySecs : Option Nat} {made : LdkInvoiceResult}
    (h : node.makeLdkInvoice amountMsat description descriptionHash expirySecs = .ok made) :
    made.toInvoiceData = node.invoiceData made.invoice := by
  have hmade := node.toOption_makeLdkInvoice amountMsat description descriptionHash expirySecs
  rw [h] at hmade
  obtain ⟨invoice, -, rfl⟩ := Option.map_eq_some_iff.mp hmade.symm
  rfl

/-- The error is the text of a `PaymentNotFound`, with its prefix. -/
def lookupPaymentByHash (paymentHash : String) : Outcome String ListedPayment :=
  match decodeHex paymentHash with
  | .err e => .err ("payment not found: invalid payment hash hex: " ++ e)
  | .panic => .panic
  | .ok hashBytes =>
    if h : hashBytes.length = 32 then
      Outcome.okOr (node.payment ⟨hashBytes.toArray, h⟩) ("payment not found: " ++ paymentHash)
    else .err "payment not found: payment hash must be 32 bytes"

end WalletNode

/-! ## Results -/

structure GetInfoResponse where
  alias_ : String
  pubkey : String
  network : String
  blockHeight : Nat
  methods : List Method
  notifications : List String
  bip321Methods : Option (List (String × Option (List String)))
deriving DecidableEq, Repr

structure MakeInvoiceResponse where
  invoice : String
  paymentHash : Option String
  description : Option String
  descriptionHash : Option String
  amount : Option Nat
  createdAt : Option Nat
  expiresAt : Option Nat
deriving DecidableEq, Repr

structure LookupAddressResponse where
  address : String
  totalReceivedSats : Nat
  transactions : List AddressTransaction
deriving DecidableEq, Repr

inductive WalletResult where
  | getInfo (response : GetInfoResponse)
  | getBalance (balance lightningBalance onchainBalanceSats : Nat)
  | makeInvoice (response : MakeInvoiceResponse)
  | lookupInvoice (response : LookupInvoiceResponse)
  | listTransactions (transactions : List LookupInvoiceResponse)
  | makeHoldInvoice (paymentHash : String) (amount createdAt expiresAt : Nat)
  | makeNewAddress (address : String)
  | makeOffer (offer description : String) (amount : Nat)
  | lookupOffer (entry : OfferEntry)
  | lookupAddress (response : LookupAddressResponse)
  | listInvoices (invoices : List InvoiceEntry)
  | listOffers (offers : List OfferEntry)
  | disableOffer
  | listAddresses (addresses : List AddressEntry)
  | makeBip321 (uri : String)
  | estimateRoutingFees (fee timeLockDelay : Nat)

structure WalletStores where
  offers : Offers
  addresses : Addresses

structure WalletBackend where
  service : Option WalletNode
  ownPubkey : String
  nodeAlias : Option String
  now : Nat
  formatUri : Bip321Draft → String

def getAddress (map : Addresses) (address : String) : Option AddressRecord := map.lookup address

abbrev WalletExecution := WalletStores × Outcome NIP47Error WalletResult

namespace WalletBackend

variable (build : Build) (b : WalletBackend) (stores : WalletStores)

/-! ## Reading the node -/

def getInfo (s : Stores) (callerPubkey : String) : WalletResult :=
  let methods := allowedMethodsFor s callerPubkey
  let alias_ := b.nodeAlias.getD "ldk-controller"
  match b.service with
  | some node => .getInfo ⟨alias_, node.nodeId, node.network, node.latestBestBlockHeight, methods,
      ["payment_received", "payment_sent", "hold_invoice_accepted"],
      some [("bolt11", none), ("bolt12", none), ("onchain", some ["p2tr"])]⟩
  | none => .getInfo ⟨alias_, b.ownPubkey, "regtest", 0, methods, [], none⟩

def getBalance : Outcome NIP47Error WalletResult :=
  match b.service with
  | none => .ok (.getBalance 0 0 0)
  | some node =>
    match node.syncWallets with
    | .error e => .err ⟨.other, "ldk sync failed: " ++ (WalletError.syncFailed e).display⟩
    | .ok _ =>
      match node.getBalance with
      | .error e => .err ⟨.other, "ldk balance failed: " ++ e.display⟩
      | .ok bal => .ok (.getBalance bal.totalMsat bal.lightningMsat (bal.onchainMsat / 1000))

def makeInvoice (req : Request) : Outcome NIP47Error WalletResult :=
  match b.service, req.params with
  | some node, .makeInvoice params =>
    match node.makeLdkInvoice params.amount params.description params.descriptionHash params.expiry with
    | .error e => .err (mapWalletError "make_invoice" e)
    | .ok invoice => .ok (.makeInvoice ⟨invoice.invoice, some invoice.paymentHash, params.description,
        params.descriptionHash, invoice.amountMilliSatoshis, some b.now, invoice.expiresAt⟩)
  | _, _ => .ok (.makeInvoice ⟨"dummy_invoice", none, none, none, none, none, none⟩)

def lookupInvoice (req : Request) : Outcome NIP47Error WalletResult :=
  match b.service, req.params with
  | some node, .lookupInvoice params =>
    let found (lookup : Outcome String ListedPayment) : Outcome NIP47Error WalletResult :=
      match lookup with
      | .ok details => .ok (.lookupInvoice (paymentDetailsToLookupInvoiceResponse details))
      | .err message => .err ⟨.notFound, message⟩
      | .panic => .panic
    match params.invoice, params.paymentHash with
    | some invoice, _ =>
      match node.parseInvoice invoice with
      | .error e => .err (mapWalletError "lookup_invoice" (.invalidInvoice e))
      | .ok hash => found (node.lookupPaymentByHash hash)
    | none, some hash => found (node.lookupPaymentByHash hash)
    | none, none => .err ⟨.other, "payment_hash or invoice is required"⟩
  | _, _ =>
    .ok (.lookupInvoice ⟨some .outgoing, some .settled, none, "00", 0, 0, some b.now, none, none⟩)

def payments : Option (List ListedPayment) := b.service.map (·.payments)

/-! ## Offers and addresses -/

def makeNewAddress : WalletExecution :=
  match b.service with
  | none => (stores, .err serviceUnavailable)
  | some node =>
    match node.receiver.newAddress 0 with
    | .error e => (stores, .err (mapWalletError "make_new_address" (.addressGenerationFailed e)))
    | .ok address =>
      ({ stores with addresses := registerAddress stores.addresses address }, .ok (.makeNewAddress address))

def makeOffer (req : Request) : WalletExecution :=
  match b.service with
  | none => (stores, .err serviceUnavailable)
  | some node =>
    match req.params with
    | .makeOffer params =>
      match node.receiver.receiveBolt12 0 params.amount params.description params.expiry with
      | .error e => (stores, .err (mapWalletError "make_offer" (.offerFailed e)))
      | .ok offerStr =>
        let offerId := (node.receiver.offerId offerStr).getD (Vector.replicate 32 0)
        ({ stores with offers := insertOffer stores.offers offerStr params.description params.amount offerId },
          .ok (.makeOffer offerStr params.description params.amount))
    | _ => (stores, .err (invalidParams "make_offer"))

def lookupOffer (req : Request) : Outcome NIP47Error WalletResult :=
  match req.params with
  | .lookupOffer offer =>
    match getOffer stores.offers offer with
    | none => .err ⟨.notFound, "offer not found: " ++ offer⟩
    | some record => .ok (.lookupOffer (offerEntry record))
  | _ => .err (invalidParams "lookup_offer")

def disableOffer (req : Request) : WalletExecution :=
  match req.params with
  | .disableOffer offer =>
    let (offers, found) := LdkController.disableOffer stores.offers offer
    ({ stores with offers },
      if found then .ok .disableOffer else .err ⟨.notFound, "offer not found: " ++ offer⟩)
  | _ => (stores, .err (invalidParams "disable_offer"))

def lookupAddress (req : Request) : Outcome NIP47Error WalletResult :=
  match req.params with
  | .lookupAddress address =>
    match getAddress stores.addresses address with
    | none => .err ⟨.notFound, "address not found: " ++ address⟩
    | some record =>
      match addressEntry build record with
      | none => .panic
      | some entry => .ok (.lookupAddress ⟨record.address, entry.totalReceivedSats, record.transactions⟩)
  | _ => .err (invalidParams "lookup_address")

def makeBip321 (req : Request) : WalletExecution :=
  match b.service with
  | none => (stores, .err serviceUnavailable)
  | some node =>
    match req.params with
    | .makeBip321 params =>
      let built := buildBip321 node.receiver params stores.offers stores.addresses
      (⟨built.offers, built.addresses⟩,
        if built.generatedAny then .ok (.makeBip321 (b.formatUri built.uri))
        else .err ⟨.other, "failed to generate any payment instruction"⟩)
    | _ => (stores, .err (invalidParams "make_bip321"))

/-! ## The handler of a method -/

def execute (s : Stores) (req : Request) (callerPubkey : String) : WalletExecution :=
  match req.method with
  | .getInfo => (stores, .ok (b.getInfo s callerPubkey))
  | .getBalance => (stores, b.getBalance)
  | .makeInvoice => (stores, b.makeInvoice req)
  | .lookupInvoice => (stores, b.lookupInvoice req)
  | .listTransactions =>
    (stores, executeListTransactions b.payments req >>= fun transactions => .ok (.listTransactions transactions))
  | .makeHoldInvoice => (stores, .ok (.makeHoldInvoice "00" 0 b.now b.now))
  | .makeNewAddress => b.makeNewAddress stores
  | .makeOffer => b.makeOffer stores req
  | .lookupOffer => (stores, lookupOffer stores req)
  | .lookupAddress => (stores, lookupAddress build stores req)
  | .listInvoices => (stores, executeListInvoices b.payments req >>= fun invoices => .ok (.listInvoices invoices))
  | .listOffers => (stores, executeListOffers stores.offers req >>= fun offers => .ok (.listOffers offers))
  | .disableOffer => disableOffer stores req
  | .listAddresses =>
    (stores, executeListAddresses build stores.addresses req >>= fun addresses => .ok (.listAddresses addresses))
  | .makeBip321 => b.makeBip321 stores req
  | .estimateRoutingFees =>
    (stores, executeEstimateRoutingFees build (b.service.map (·.routes)) req >>= fun fees =>
      .ok (.estimateRoutingFees fees.fee fees.timeLockDelay))
  -- the other methods have handlers of their own, or none
  | _ => (stores, .err serviceUnavailable)

end WalletBackend

/-! ## A request with its effect on the stores -/

def walletMethod : Method → Bool
  | .getInfo | .getBalance | .makeInvoice | .lookupInvoice | .listTransactions | .makeHoldInvoice | .makeNewAddress
  | .makeOffer | .lookupOffer | .lookupAddress | .listInvoices | .listOffers | .disableOffer | .listAddresses
  | .makeBip321 | .estimateRoutingFees => true
  | _ => false

structure PaymentBackend where
  service : Option Node
  forcedExecuteFailures : List Method
  joinError : String

/-- `render` writes a result into a response. -/
def walletBackend (render : WalletResult → String) (build : Build) (p : PaymentBackend) (b : WalletBackend) (s : Stores)
    (stores : WalletStores) : Backend where
  service := p.service
  forcedExecuteFailures := p.forcedExecuteFailures
  joinError := p.joinError
  other req caller := (b.execute build stores s req caller).2 >>= fun r => .ok (.ofResult req.method (.other (render r)))

def Exit.executes : Exit → Bool
  | .executed | .failed => true
  | _ => false

structure WalletProcessed extends Processed where
  stores : WalletStores

/-- `process_nwc_request` with all its handlers. -/
def processWalletRequest (render : WalletResult → String) (env : Env) (p : PaymentBackend) (b : WalletBackend)
    (c : Controller) (stores : WalletStores) (now : Nat) (request : Request) (event : Event) : WalletProcessed :=
  let processed := processNwcRequest env (walletBackend render env.build p b c.toStores stores) c now request event
  ⟨processed,
    if processed.exit.executes = true ∧ request.method ∉ p.forcedExecuteFailures ∧ walletMethod request.method = true then
      (b.execute env.build stores c.toStores request event.pubkey).1
    else stores⟩

end LdkController
