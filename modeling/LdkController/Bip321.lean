import LdkController.Handlers
import LdkController.Offers

/-!
# Making a payment URI

`src/lib.rs`: `MakeBip321Handler`, with the calls of `src/lightning/ldk_service.rs`
and `src/state/` that it makes. The URI collects one payment instruction for each
method entry that the node can serve; an entry that fails is only reported on
standard error, so its error is not kept here.
-/

namespace LdkController

open Lib

/-- A `bip321::Uri` with the parameters that its maker sets and no payer reads. -/
structure Bip321Draft extends Bip321Uri where
  label : Option String
  message : Option String
deriving DecidableEq, Repr

def Bip321Draft.new : Bip321Draft := ⟨⟨none, [], [], none, none⟩, none, none⟩

/-- What the node's library answers on the receiving side; the first argument of a
request to the node is the method entry that it is made for. -/
structure Receiver where
  newDescription : String → Except String String
  receiveBolt11 : Nat → Nat → String → Nat → Except String String
  receiveBolt12 : Nat → Nat → String → Option Nat → Except String String
  newAddress : Nat → Except String String
  offerId : String → Option Bytes32
  parseAddress : String → Option String

def u32Max : Nat := 2 ^ 32 - 1

def u32OfU64 (n : Nat) : Option Nat := if n ≤ u32Max then some n else none

structure AddressTransaction where
  txid : String
  amountSats : Nat
  timestamp : Nat
deriving DecidableEq, Repr

structure AddressRecord where
  address : String
  transactions : List AddressTransaction
deriving DecidableEq, Repr

abbrev Addresses := Table String AddressRecord

def registerAddress (map : Addresses) (address : String) : Addresses :=
  if address ∈ map then map else map.insert address ⟨address, []⟩

/-! ## The node's answers -/

def makeInvoice (receiver : Receiver) (i amountMsat : Nat) (description descriptionHash : Option String)
    (expirySecs : Option Nat) : Option String :=
  if amountMsat = 0 then none
  else if descriptionHash.isSome then none
  else do
    let desc ← (receiver.newDescription (description.getD "nwc invoice")).toOption
    let expiryU32 ← (expirySecs.map u32OfU64).getD (some 3600)
    (receiver.receiveBolt11 i amountMsat desc expiryU32).toOption

def makeOffer (receiver : Receiver) (i amountMsat : Nat) (description : String) (expirySecs : Option Nat) :
    Option String :=
  (receiver.receiveBolt12 i amountMsat description expirySecs).toOption

def newOnchainAddress (receiver : Receiver) (i : Nat) : Option String := (receiver.newAddress i).toOption

/-! ## One method entry after the other -/

structure Bip321Build where
  uri : Bip321Draft
  generatedAny : Bool
  offers : Offers
  addresses : Addresses

def defaultMethods : List Bip321MethodEntry :=
  [⟨"bolt11", none, none⟩, ⟨"bolt12", none, none⟩, ⟨"onchain", none, none⟩]

section
variable (receiver : Receiver) (params : MakeBip321Request)

def addBolt11 (b : Bip321Build) (i : Nat) (entry : Bip321MethodEntry) : Bip321Build :=
  match params.amount with
  | none => b
  | some amountMsat =>
    match makeInvoice receiver i amountMsat params.message none entry.expiry with
    | none => b
    | some invoice =>
      { b with uri := { b.uri with lightning := b.uri.lightning ++ [invoice] }, generatedAny := true }

def addBolt12 (b : Bip321Build) (i : Nat) (entry : Bip321MethodEntry) : Bip321Build :=
  let amount := params.amount.getD 0
  let desc := params.message.getD "bip321 offer"
  match makeOffer receiver i amount desc (entry.expiry.bind u32OfU64) with
  | none => b
  | some offerStr =>
    let offerId := (receiver.offerId offerStr).getD (Vector.replicate 32 0)
    { b with
      uri := { b.uri with lno := b.uri.lno ++ [offerStr] }, generatedAny := true,
      offers := insertOffer b.offers offerStr desc amount offerId }

def addOnchain (b : Bip321Build) (i : Nat) (entry : Bip321MethodEntry) : Bip321Build :=
  -- only p2tr addresses are supported
  if entry.addressType.any (· ≠ "p2tr") then b
  else
    match newOnchainAddress receiver i with
    | none => b
    | some addrStr =>
      let addresses := registerAddress b.addresses addrStr
      match receiver.parseAddress addrStr with
      | none => { b with addresses }
      | some parsed =>
        { b with
          uri := { b.uri with address := some parsed, addressStr := some addrStr }, generatedAny := true, addresses }

def addEntry (b : Bip321Build) (i : Nat) (entry : Bip321MethodEntry) : Bip321Build :=
  if entry.method = "bolt11" then addBolt11 receiver params b i entry
  else if entry.method = "bolt12" then addBolt12 receiver params b i entry
  else if entry.method = "onchain" then addOnchain receiver b i entry
  else b

def addEntries : Bip321Build → Nat → List Bip321MethodEntry → Bip321Build
  | b, _, [] => b
  | b, i, entry :: entries => addEntries (addEntry receiver params b i entry) (i + 1) entries

def buildBip321 (offers : Offers) (addresses : Addresses) : Bip321Build :=
  let uri : Bip321Draft := { Bip321Draft.new with
    amount := params.amount.map (· / 1000), label := params.label, message := params.message }
  addEntries receiver params ⟨uri, false, offers, addresses⟩ 0 (params.methods.getD defaultMethods)

end

/-- `MakeBip321Handler::execute`; `format` writes the URI out as text. -/
def executeMakeBip321 (format : Bip321Draft → String) (service : Option Receiver) (offers : Offers)
    (addresses : Addresses) (req : Request) : (Offers × Addresses) × Except NIP47Error Response :=
  match service with
  | none => ((offers, addresses), .error serviceUnavailable)
  | some receiver =>
    match req.params with
    | .makeBip321 params =>
      let b := buildBip321 receiver params offers addresses
      ((b.offers, b.addresses),
        if b.generatedAny then .ok (.ofResult .makeBip321 (.other (format b.uri)))
        else .error ⟨.other, "failed to generate any payment instruction"⟩)
    | _ => ((offers, addresses), .error (invalidParams "make_bip321"))

/-! ## What an entry adds -/

def ReceivedFor (receiver : Receiver) (amountMsat : Nat) (invoice : String) : Prop :=
  ∃ i desc expiry, receiver.receiveBolt11 i amountMsat desc expiry = .ok invoice

section
variable {receiver : Receiver} {params : MakeBip321Request}

theorem receivedFor_of_makeInvoice {i amountMsat : Nat} {description descriptionHash : Option String}
    {expirySecs : Option Nat} {invoice : String}
    (h : makeInvoice receiver i amountMsat description descriptionHash expirySecs = some invoice) :
    0 < amountMsat ∧ ReceivedFor receiver amountMsat invoice := by
  unfold makeInvoice at h
  by_cases h0 : amountMsat = 0
  · rw [if_pos h0] at h; cases h
  · by_cases hd : descriptionHash.isSome = true
    · rw [if_neg h0, if_pos hd] at h; cases h
    · rw [if_neg h0, if_neg hd] at h
      simp only [Option.bind_eq_bind, Option.bind_eq_some_iff] at h
      obtain ⟨desc, _, expiryU32, _, hr⟩ := h
      cases hrec : receiver.receiveBolt11 i amountMsat desc expiryU32 with
      | error e => rw [hrec] at hr; cases hr
      | ok inv =>
        rw [hrec] at hr
        obtain rfl := Option.some.inj hr
        exact ⟨by omega, i, desc, expiryU32, hrec⟩

/-- The amount is set once, and every invoice is made for the requested amount and counts
as a payment instruction. -/
structure BuildInv (receiver : Receiver) (params : MakeBip321Request) (b : Bip321Build) : Prop where
  amount : b.uri.amount = params.amount.map (· / 1000)
  invoices : ∀ invoice ∈ b.uri.lightning,
    ∃ a, params.amount = some a ∧ 0 < a ∧ ReceivedFor receiver a invoice
  generated : b.uri.lightning ≠ [] → b.generatedAny = true

theorem BuildInv.addBolt11 {b : Bip321Build} (h : BuildInv receiver params b) (i : Nat) (entry : Bip321MethodEntry) :
    BuildInv receiver params (addBolt11 receiver params b i entry) := by
  unfold LdkController.addBolt11
  cases ha : params.amount with
  | none => exact h
  | some a =>
    simp only
    cases hi : makeInvoice receiver i a params.message none entry.expiry with
    | none => exact h
    | some invoice =>
      refine ⟨h.amount, fun inv hinv => ?_, fun _ => rfl⟩
      rcases List.mem_append.mp hinv with hinv | hinv
      · exact h.invoices inv hinv
      · obtain rfl := List.mem_singleton.mp hinv
        exact ⟨a, ha, receivedFor_of_makeInvoice hi⟩

theorem BuildInv.addBolt12 {b : Bip321Build} (h : BuildInv receiver params b) (i : Nat) (entry : Bip321MethodEntry) :
    BuildInv receiver params (addBolt12 receiver params b i entry) := by
  unfold LdkController.addBolt12
  simp only
  cases makeOffer receiver i (params.amount.getD 0) (params.message.getD "bip321 offer")
      (entry.expiry.bind u32OfU64) with
  | none => exact h
  | some offerStr => exact ⟨h.amount, h.invoices, fun _ => rfl⟩

theorem BuildInv.addOnchain {b : Bip321Build} (h : BuildInv receiver params b) (i : Nat) (entry : Bip321MethodEntry) :
    BuildInv receiver params (addOnchain receiver b i entry) := by
  unfold LdkController.addOnchain
  by_cases hat : entry.addressType.any (· ≠ "p2tr") = true
  · rw [if_pos hat]; exact h
  · rw [if_neg hat]
    cases newOnchainAddress receiver i with
    | none => exact h
    | some addrStr =>
      simp only
      cases receiver.parseAddress addrStr with
      | none => exact ⟨h.amount, h.invoices, h.generated⟩
      | some parsed => exact ⟨h.amount, h.invoices, fun _ => rfl⟩

theorem BuildInv.addEntry {b : Bip321Build} (h : BuildInv receiver params b) (i : Nat) (entry : Bip321MethodEntry) :
    BuildInv receiver params (addEntry receiver params b i entry) := by
  unfold LdkController.addEntry
  split
  · exact h.addBolt11 i entry
  · split
    · exact h.addBolt12 i entry
    · split
      · exact h.addOnchain i entry
      · exact h

theorem BuildInv.addEntries {entries : List Bip321MethodEntry} :
    ∀ {b : Bip321Build} {i : Nat}, BuildInv receiver params b →
      BuildInv receiver params (addEntries receiver params b i entries) := by
  induction entries with
  | nil => intro _ _ h; exact h
  | cons entry entries ih => intro _ i h; exact ih (h.addEntry i entry)

theorem buildInv_buildBip321 (receiver : Receiver) (params : MakeBip321Request) (offers : Offers)
    (addresses : Addresses) : BuildInv receiver params (buildBip321 receiver params offers addresses) :=
  BuildInv.addEntries ⟨rfl, fun _ h => (by cases h), fun h => absurd rfl h⟩

end

end LdkController
