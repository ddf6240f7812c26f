import LdkController.FixedWidth
import LdkController.LdkService
import LdkController.Table

/-!
# The offer store

`src/state/offer_store.rs`. An offer is kept under its text and found again by
its id. The totals are `u64`: recording a payment gives `none` where the
addition panics.
-/

namespace LdkController

open Lib

structure OfferRecord where
  offer : String
  description : String
  amountMsat : Nat
  active : Bool
  numPaymentsReceived : Nat
  totalReceivedMsat : Nat
  offerId : Bytes32
deriving DecidableEq

abbrev Offers := Table String OfferRecord

def insertOffer (map : Offers) (offer description : String) (amountMsat : Nat) (offerId : Bytes32) : Offers :=
  map.insert offer ⟨offer, description, amountMsat, true, 0, 0, offerId⟩

def findByOfferId (map : Offers) (offerId : Bytes32) : Option String :=
  (map.entries.find? fun e => e.2.offerId = offerId).map (·.1)

def getOffer (map : Offers) (offer : String) : Option OfferRecord := map.lookup offer

def disableOffer (map : Offers) (offer : String) : Offers × Bool :=
  match map.lookup offer with
  | some record => (map.insert offer { record with active := false }, true)
  | none => (map, false)

def recordPayment (build : Build) (map : Offers) (offer : String) (amountMsat : Nat) : Option Offers :=
  match map.lookup offer with
  | some record => do
    let numPaymentsReceived ← build.addU64 record.numPaymentsReceived 1
    let totalReceivedMsat ← build.addU64 record.totalReceivedMsat amountMsat
    return map.insert offer { record with
      numPaymentsReceived := numPaymentsReceived, totalReceivedMsat := totalReceivedMsat }
  | none => some map

end LdkController
