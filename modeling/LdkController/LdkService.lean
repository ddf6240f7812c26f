import LdkController.Poll
import LdkController.Nip47

/-!
# The node behind the wallet

`src/lightning/ldk_service.rs`: the payments that a handler asks the node for,
and the wait for their outcome. What the node's library parses, answers and
reports during one request is given by a `Node`.
-/

namespace LdkController

open Lib

structure Bolt11Invoice where
  amountMilliSatoshis : Option Nat
deriving DecidableEq, Repr

structure Offer where
  amountMsat : Option Nat
deriving DecidableEq, Repr

inductive PaymentDirection where
  | inbound | outbound
deriving DecidableEq, Repr

inductive PaymentStatus where
  | pending | succeeded | failed
deriving DecidableEq, Repr

abbrev Bytes32 := Vector UInt8 32

inductive PaymentKind where
  | onchain
  | bolt11 (preimage : Option (List UInt8))
  | bolt11Jit (preimage : Option (List UInt8))
  | spontaneous (preimage : Option (List UInt8))
  | bolt12Offer (preimage : Option (List UInt8)) (offerId : Bytes32)
  | bolt12Refund (preimage : Option (List UInt8))
deriving DecidableEq

structure PaymentDetails where
  id : String
  kind : PaymentKind
  feePaidMsat : Option Nat
  direction : PaymentDirection
  status : PaymentStatus
deriving DecidableEq

inductive Sent where
  | bolt11 (invoice : Bolt11Invoice)
  | bolt11UsingAmount (invoice : Bolt11Invoice) (amountMsat : Nat)
  | spontaneous (amountMsat : Nat) (nodeId : String)
  | bolt12 (offer : Offer) (payerNote : Option String)
  | onchain (address : String) (amountSats : Nat)
deriving DecidableEq, Repr

/-- The amount in msat that reaches the recipient. -/
def Sent.principal : Sent → Nat
  | .bolt11 invoice => invoice.amountMilliSatoshis.getD 0
  | .bolt11UsingAmount _ amountMsat => amountMsat
  | .spontaneous amountMsat _ => amountMsat
  | .bolt12 offer _ => offer.amountMsat.getD 0
  | .onchain _ amountSats => 1000 * amountSats

/-- `send` answers with a payment id, or with a transaction id on chain. `listPayments` and `elapsedNanos` are what
the rounds of the wait see: a round comes at least 100 ms after the one before. -/
structure Node where
  parseInvoice : String → Except String Bolt11Invoice
  parseOffer : String → Except String Offer
  parsePubkey : String → Except String String
  parseAddress : String → Except String String
  send : Sent → Except String String
  listPayments : Nat → List PaymentDetails
  elapsedNanos : Nat → Nat
  sleep_le : ∀ i, 100000000 * i ≤ elapsedNanos i

inductive LdkServiceError where
  | invalidInvoice (msg : String)
  | invalidPubkey (msg : String)
  | invalidAmount (amount : Nat)
  | paymentFailed (msg : String)
  | invalidAddress (msg : String)
  | offerFailed (msg : String)
deriving DecidableEq, Repr

def LdkServiceError.display : LdkServiceError → String
  | .invalidInvoice msg => "invalid invoice: " ++ msg
  | .invalidPubkey msg => "invalid pubkey: " ++ msg
  | .invalidAmount amount => "invalid amount: " ++ toString amount
  | .paymentFailed msg => "payment failed: " ++ msg
  | .invalidAddress msg => "invalid address: " ++ msg
  | .offerFailed msg => "offer operation failed: " ++ msg

structure LdkPaymentResult where
  preimage : String
  feesPaidMsat : Option Nat
deriving DecidableEq, Repr

def hexDigit (n : Nat) : Char := if n < 10 then Char.ofNat (48 + n) else Char.ofNat (87 + n)

def hexString (bytes : List UInt8) : String :=
  String.ofList (bytes.flatMap fun b => [hexDigit (b.toNat / 16), hexDigit (b.toNat % 16)])

/-! ## Waiting for the outcome -/

def PaymentKind.preimage : PaymentKind → Option (List UInt8)
  | .bolt11 preimage => preimage
  | .bolt11Jit preimage => preimage
  | .spontaneous preimage => preimage
  | .bolt12Offer preimage _ => preimage
  | .bolt12Refund preimage => preimage
  | .onchain => none

namespace Node

variable (node : Node) (paymentId : String)

def outbound? (i : Nat) : Option PaymentDetails :=
  (node.listPayments i).find? fun p => p.id = paymentId ∧ p.direction = .outbound

def probe (i : Nat) : Option (Except LdkServiceError LdkPaymentResult) :=
  match node.outbound? paymentId i with
  | none => none
  | some payment =>
    match payment.status with
    | .succeeded =>
      match payment.kind.preimage with
      | none => some (.error (.paymentFailed "payment succeeded but preimage missing"))
      | some preimage => some (.ok ⟨hexString preimage, payment.feePaidMsat⟩)
    | .failed => some (.error (.paymentFailed "payment marked failed"))
    | .pending => none

def late (i : Nat) : Bool := 60000000000 < node.elapsedNanos i

theorem late_of_rounds : node.late 601 = true := by
  have h := node.sleep_le 601
  unfold late
  rw [decide_eq_true_eq]
  omega

-- 602 rounds of 100 ms outlast the timeout
theorem isSome_poll_probe : (poll (node.probe paymentId) node.late 602 0).isSome = true :=
  isSome_poll (Nat.zero_le 601) node.late_of_rounds (by decide)

def waitForOutboundPayment : Except LdkServiceError LdkPaymentResult :=
  match (poll (node.probe paymentId) node.late 602 0).get (node.isSome_poll_probe paymentId) with
  | some result => result
  | none => .error (.paymentFailed "timeout waiting for payment outcome")

end Node

/-! ## Asking the node for a payment -/

/-- The payment that the node accepted, with the id it gave it, and what the call returns. -/
structure Attempt (α : Type) where
  sent : Option (Sent × String)
  result : Except LdkServiceError α

def Node.sendAndWait (node : Node) (payment : Sent) : Attempt LdkPaymentResult :=
  match node.send payment with
  | .error e => ⟨none, .error (.paymentFailed e)⟩
  | .ok paymentId => ⟨some (payment, paymentId), node.waitForOutboundPayment paymentId⟩

def payInvoice (node : Node) (invoiceStr : String) (amountMsat : Option Nat) : Attempt LdkPaymentResult :=
  match node.parseInvoice invoiceStr with
  | .error e => ⟨none, .error (.invalidInvoice e)⟩
  | .ok invoice =>
    match amountMsat with
    | some amount => node.sendAndWait (.bolt11UsingAmount invoice amount)
    | none => node.sendAndWait (.bolt11 invoice)

def payKeysend (node : Node) (destPubkey : String) (amountMsat : Nat) : Attempt LdkPaymentResult :=
  if amountMsat = 0 then ⟨none, .error (.invalidAmount amountMsat)⟩
  else
    match node.parsePubkey destPubkey with
    | .error e => ⟨none, .error (.invalidPubkey e)⟩
    | .ok nodeId => node.sendAndWait (.spontaneous amountMsat nodeId)

def payOnchain (node : Node) (address : String) (amountSats : Nat) (_feerate : Option Nat) : Attempt String :=
  match node.parseAddress address with
  | .error e => ⟨none, .error (.invalidAddress e)⟩
  | .ok addr =>
    match node.send (.onchain addr amountSats) with
    | .error e => ⟨none, .error (.paymentFailed e)⟩
    | .ok txid => ⟨some (.onchain addr amountSats, txid), .ok txid⟩

-- the amount of the request is not used: the offer's own is paid
def payOffer (node : Node) (offerStr : String) (_amount : Option Nat) (payerNote : Option String) :
    Attempt LdkPaymentResult :=
  match node.parseOffer offerStr with
  | .error e => ⟨none, .error (.offerFailed ("invalid offer: " ++ e))⟩
  | .ok offer => node.sendAndWait (.bolt12 offer payerNote)

end LdkController
