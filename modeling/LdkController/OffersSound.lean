import LdkController.EventLoop
import LdkController.Since
import LdkController.StoresSound

/-!
# The life of an offer

What `lookup_offer` tells about an offer is decided by what happened to it since
it was last registered: the offers that requests made, those they disabled, and
the payments that were published for it. Other offers do not matter, nor does
anything else that the service handled.
-/

namespace LdkController

open Lib

/-! ## Changes -/

inductive OfferChange where
  | registered (offer description : String) (amountMsat : Nat) (offerId : Bytes32)
  | disabled (offer : String)
  | paid (offer : String) (amountMsat : Nat)
deriving DecidableEq

namespace OfferChange

def offer : OfferChange → String
  | .registered offer _ _ _ => offer
  | .disabled offer => offer
  | .paid offer _ => offer

/-- `none` where the store panics. -/
def apply (build : Build) (map : Offers) : OfferChange → Option Offers
  | .registered offer description amountMsat offerId => some (insertOffer map offer description amountMsat offerId)
  | .disabled offer => some (disableOffer map offer).1
  | .paid offer amountMsat => recordPayment build map offer amountMsat

def registers (offer : String) : OfferChange → Bool
  | .registered offer' _ _ _ => offer' = offer
  | _ => false

def amountFor (offer : String) : OfferChange → Option Nat
  | .paid offer' amountMsat => if offer' = offer then some amountMsat else none
  | _ => none

/-- The record that a registration makes, with what came after it. -/
def record (after : List OfferChange) : OfferChange → Option OfferRecord
  | .registered offer description amountMsat offerId =>
    let amounts := after.filterMap (amountFor offer)
    some ⟨offer, description, amountMsat, .disabled offer ∉ after, amounts.length % 2 ^ 64, amounts.sum % 2 ^ 64, offerId⟩
  | _ => none

end OfferChange

def lifeOf (offer : String) (log : List OfferChange) : Option OfferRecord :=
  (since (OfferChange.registers offer) log).bind fun last => last.1.record last.2

/-! ## One change -/

theorem registered_of_registers {offer : String} {c : OfferChange} (h : c.registers offer = true) :
    ∃ description amountMsat offerId, c = .registered offer description amountMsat offerId := by
  cases c with
  | registered offer' description amountMsat offerId =>
    obtain rfl : offer' = offer := of_decide_eq_true h
    exact ⟨description, amountMsat, offerId, rfl⟩
  | disabled offer' => cases h
  | paid offer' amountMsat => cases h

theorem lifeOf_snoc_of_ne {offer : String} {log : List OfferChange} {c : OfferChange} (h : c.offer ≠ offer) :
    lifeOf offer (log ++ [c]) = lifeOf offer log := by
  have hreset : c.registers offer = false := by
    cases c with
    | registered offer' description amountMsat offerId => exact decide_eq_false h
    | disabled offer' => rfl
    | paid offer' amountMsat => rfl
  have hamount : c.amountFor offer = none := by
    cases c with
    | registered offer' description amountMsat offerId => rfl
    | disabled offer' => rfl
    | paid offer' amountMsat => exact if_neg h
  have hdisabled : OfferChange.disabled offer ≠ c := by
    intro he
    rw [← he] at h
    exact h rfl
  unfold lifeOf
  rw [since_snoc, hreset]
  simp only [Bool.false_eq_true, if_false]
  cases hlast : since (OfferChange.registers offer) log with
  | none => rfl
  | some last =>
    obtain ⟨r, after⟩ := last
    obtain ⟨_, _, hr, _⟩ := since_eq_some.mp hlast
    obtain ⟨description, amountMsat, offerId, rfl⟩ := registered_of_registers hr
    simp [OfferChange.record, List.filterMap_append, hamount, hdisabled]

theorem lifeOf_registered (log : List OfferChange) (offer description : String) (amountMsat : Nat) (offerId : Bytes32) :
    lifeOf offer (log ++ [.registered offer description amountMsat offerId]) =
      some ⟨offer, description, amountMsat, true, 0, 0, offerId⟩ := by
  unfold lifeOf
  rw [since_snoc, if_pos (by simp [OfferChange.registers])]
  simp [OfferChange.record]

theorem lifeOf_disabled (log : List OfferChange) (offer : String) :
    lifeOf offer (log ++ [.disabled offer]) = (lifeOf offer log).map fun record => { record with active := false } := by
  unfold lifeOf
  rw [since_snoc, if_neg (by simp [OfferChange.registers])]
  cases hlast : since (OfferChange.registers offer) log with
  | none => rfl
  | some last =>
    obtain ⟨r, after⟩ := last
    obtain ⟨_, _, hr, _⟩ := since_eq_some.mp hlast
    obtain ⟨description, amountMsat, offerId, rfl⟩ := registered_of_registers hr
    have hamount : (OfferChange.disabled offer).amountFor offer = none := rfl
    simp [OfferChange.record, List.filterMap_append, hamount]

theorem lifeOf_paid (log : List OfferChange) (offer : String) (amountMsat : Nat) :
    lifeOf offer (log ++ [.paid offer amountMsat]) = (lifeOf offer log).map fun record => { record with
      numPaymentsReceived := (record.numPaymentsReceived + 1) % 2 ^ 64
      totalReceivedMsat := (record.totalReceivedMsat + amountMsat) % 2 ^ 64 } := by
  unfold lifeOf
  rw [since_snoc, if_neg (by simp [OfferChange.registers])]
  cases hlast : since (OfferChange.registers offer) log with
  | none => rfl
  | some last =>
    obtain ⟨r, after⟩ := last
    obtain ⟨_, _, hr, _⟩ := since_eq_some.mp hlast
    obtain ⟨description, amount, offerId, rfl⟩ := registered_of_registers hr
    simp [OfferChange.record, List.filterMap_append, OfferChange.amountFor]

theorem lookup_apply (build : Build) {map map' : Offers} {log : List OfferChange} {c : OfferChange}
    (h : ∀ offer, map.lookup offer = lifeOf offer log) (hc : c.apply build map = some map') (offer : String) :
    map'.lookup offer = lifeOf offer (log ++ [c]) := by
  by_cases ho : c.offer = offer
  · subst ho
    cases c with
    | registered offer description amountMsat offerId =>
      obtain rfl := Option.some.inj hc
      simp only [OfferChange.offer, lifeOf_registered]
      exact AList.lookup_insert map
    | disabled offer =>
      obtain rfl := Option.some.inj hc
      simp only [OfferChange.offer, lifeOf_disabled, ← h, disableOffer]
      cases hl : map.lookup offer with
      | none => simp [hl]
      | some record => exact AList.lookup_insert map
    | paid offer amountMsat =>
      simp only [OfferChange.offer, OfferChange.apply, lifeOf_paid, ← h, recordPayment] at hc ⊢
      cases hl : map.lookup offer with
      | none =>
        simp only [hl] at hc
        obtain rfl := Option.some.inj hc
        simp [hl]
      | some record =>
        simp only [hl, Option.bind_eq_bind, Option.bind_eq_some_iff, Option.pure_def, Option.some.injEq] at hc
        obtain ⟨num, hnum, total, htotal, rfl⟩ := hc
        rw [AList.lookup_insert, Build.addU64_eq_mod hnum, Build.addU64_eq_mod htotal]
        rfl
  · rw [lifeOf_snoc_of_ne ho, ← h]
    cases c with
    | registered offer' description amountMsat offerId =>
      obtain rfl := Option.some.inj hc
      exact AList.lookup_insert_ne (Ne.symm ho)
    | disabled offer' =>
      obtain rfl := Option.some.inj hc
      unfold disableOffer
      cases map.lookup offer' with
      | none => rfl
      | some record => exact AList.lookup_insert_ne (Ne.symm ho)
    | paid offer' amountMsat => exact (EventLoop.lookup_recordPayment hc offer).1 (Ne.symm ho)

def Follows (map : Offers) (log : List OfferChange) : Prop := ∀ offer, map.lookup offer = lifeOf offer log

theorem Follows.register {map : Offers} {log : List OfferChange} (h : Follows map log) (offer description : String)
    (amountMsat : Nat) (offerId : Bytes32) :
    Follows (insertOffer map offer description amountMsat offerId)
      (log ++ [.registered offer description amountMsat offerId]) :=
  lookup_apply .release h rfl

/-! ## Requests -/

def offerIdOf (receiver : Receiver) (offer : String) : Bytes32 := (receiver.offerId offer).getD (Vector.replicate 32 0)

def uriOffer (receiver : Receiver) (params : MakeBip321Request) (offer : String) : OfferChange :=
  .registered offer (params.message.getD "bip321 offer") (params.amount.getD 0) (offerIdOf receiver offer)

def requestChanges (b : WalletBackend) (stores : WalletStores) (req : Request) : List OfferChange :=
  match req.method, req.params with
  | .makeOffer, .makeOffer params =>
    match b.service with
    | none => []
    | some node =>
      match node.receiver.receiveBolt12 0 params.amount params.description params.expiry with
      | .error _ => []
      | .ok offer => [.registered offer params.description params.amount (offerIdOf node.receiver offer)]
  | .disableOffer, .disableOffer offer => [.disabled offer]
  | .makeBip321, .makeBip321 params =>
    match b.service with
    | none => []
    | some node =>
      (buildBip321 node.receiver params stores.offers stores.addresses).uri.lno.map (uriOffer node.receiver params)
  | _, _ => []

section
variable {receiver : Receiver} {params : MakeBip321Request} {log : List OfferChange}

theorem follows_addEntry {b : Bip321Build} (h : Follows b.offers (log ++ b.uri.lno.map (uriOffer receiver params)))
    (i : Nat) (entry : Bip321MethodEntry) :
    Follows (addEntry receiver params b i entry).offers
      (log ++ (addEntry receiver params b i entry).uri.lno.map (uriOffer receiver params)) := by
  unfold addEntry
  by_cases h11 : entry.method = "bolt11"
  · rw [if_pos h11]
    unfold addBolt11
    cases params.amount with
    | none => exact h
    | some amountMsat =>
      simp only
      cases makeInvoice receiver i amountMsat params.message none entry.expiry with
      | none => exact h
      | some invoice => exact h
  · rw [if_neg h11]
    by_cases h12 : entry.method = "bolt12"
    · rw [if_pos h12]
      unfold addBolt12
      simp only
      cases makeOffer receiver i (params.amount.getD 0) (params.message.getD "bip321 offer")
          (entry.expiry.bind u32OfU64) with
      | none => exact h
      | some offer =>
        simp only [List.map_append, ← List.append_assoc]
        exact h.register offer _ _ _
    · rw [if_neg h12]
      by_cases hon : entry.method = "onchain"
      · rw [if_pos hon]
        unfold addOnchain
        by_cases hat : entry.addressType.any (· ≠ "p2tr") = true
        · rw [if_pos hat]
          exact h
        · rw [if_neg hat]
          cases newOnchainAddress receiver i with
          | none => exact h
          | some addr =>
            simp only
            cases receiver.parseAddress addr with
            | none => exact h
            | some parsed => exact h
      · rw [if_neg hon]
        exact h

theorem follows_addEntries {entries : List Bip321MethodEntry} :
    ∀ {b : Bip321Build} {i : Nat}, Follows b.offers (log ++ b.uri.lno.map (uriOffer receiver params)) →
      Follows (addEntries receiver params b i entries).offers
        (log ++ (addEntries receiver params b i entries).uri.lno.map (uriOffer receiver params)) := by
  induction entries with
  | nil => intro _ _ h; exact h
  | cons entry entries ih => intro _ i h; exact ih (follows_addEntry h i entry)

end

theorem follows_execute {b : WalletBackend} {build : Build} {stores : WalletStores} {log : List OfferChange}
    (h : Follows stores.offers log) (c : Stores) (req : Request) (caller : String) :
    Follows (b.execute build stores c req caller).1.offers (log ++ requestChanges b stores req) := by
  have hnone : Follows stores.offers (log ++ []) := by
    rw [List.append_nil]
    exact h
  unfold WalletBackend.execute requestChanges
  cases req.method with
  | makeNewAddress =>
    simp only [WalletBackend.makeNewAddress]
    cases b.service with
    | none => exact hnone
    | some node => simp only; cases node.receiver.newAddress 0 <;> exact hnone
  | makeOffer =>
    simp only [WalletBackend.makeOffer]
    cases hp : req.params with
    | makeOffer params =>
      cases b.service with
      | none => exact hnone
      | some node =>
        simp only
        cases node.receiver.receiveBolt12 0 params.amount params.description params.expiry with
        | error e => exact hnone
        | ok offer => exact h.register offer _ _ _
    | _ => cases b.service <;> exact hnone
  | disableOffer =>
    simp only [WalletBackend.disableOffer]
    cases hp : req.params with
    | disableOffer offer => exact lookup_apply build h rfl
    | _ => exact hnone
  | makeBip321 =>
    simp only [WalletBackend.makeBip321]
    cases hp : req.params with
    | makeBip321 params =>
      cases b.service with
      | none => exact hnone
      | some node => exact follows_addEntries hnone
    | _ => cases b.service <;> exact hnone
  | _ => exact hnone

/-! ## Events of the node -/

/-- A payment counts for its offer once it is published. -/
def paymentChanges (node : NodeView) (fails : String → PublishStep → Option String)
    (subscriptions : Table String (Finset String)) (offers : Offers) : LdkEvent → List OfferChange
  | .paymentReceived paymentHash amountMsat =>
    match (publishNwcNotification fails subscriptions "payment_received"
        (.paymentReceived (hexPaymentHash paymentHash.toList) amountMsat)).2 with
    | .error _ => []
    | .ok _ =>
      (((node.payment paymentHash).bind EventLoop.bolt12OfferId).bind (findByOfferId offers)).toList.map
        (.paid · amountMsat)
  | _ => []

theorem follows_handleLdkEvent {build : Build} {node : NodeView} {fails : String → PublishStep → Option String}
    {subscriptions : Table String (Finset String)} {s : EventStores} {now : Nat} {event : LdkEvent}
    {log : List OfferChange} (h : Follows s.offers log)
    (hp : (handleLdkEvent build node fails subscriptions s now event).result ≠ .panic) :
    Follows (handleLdkEvent build node fails subscriptions s now event).stores.offers
      (log ++ paymentChanges node fails subscriptions s.offers event) := by
  have hnone : Follows s.offers (log ++ []) := by
    rw [List.append_nil]
    exact h
  cases event with
  | paymentReceived hash amount =>
    simp only [handleLdkEvent, paymentChanges] at hp ⊢
    generalize publishNwcNotification fails subscriptions "payment_received"
      (.paymentReceived (hexPaymentHash hash.toList) amount) = published at hp ⊢
    obtain ⟨published, e | u⟩ := published
    · exact hnone
    · simp only [EventLoop.recordOfferPayment_eq build s amount rfl] at hp ⊢
      cases hkey : ((node.payment hash).bind EventLoop.bolt12OfferId).bind (findByOfferId s.offers) with
      | none => exact hnone
      | some key =>
        simp only [hkey] at hp ⊢
        cases hrecord : recordPayment build s.offers key amount with
        | none =>
          simp only [hrecord] at hp
          exact absurd rfl hp
        | some offers => exact lookup_apply build h hrecord
  | paymentSuccessful hash fee => exact hnone
  | paymentClaimable hash amount deadline => exact hnone
  | channelReady id counterparty fundingTxid => exact hnone
  | channelClosed id counterparty reason => exact hnone
  | paymentForwarded prev next fee outbound => exact hnone
  | other => exact hnone

/-! ## The run -/

namespace Relay

section
variable (keys : Keys) (secretKey : String) (texts : Texts) (env : Env)

def clearChanges (s : Service) : Clear → List OfferChange
  | .call body caller _ m => if s.serving then callChanges texts env s caller m requestChanges body else []
  | .ldkEvent event node fails _ =>
    if s.listening then paymentChanges node fails s.controller.subscriptions s.stores.offers event else []
  | _ => []

end

section
variable {keys : Keys} {secretKey : String} {texts : Texts} {env : Env} {s : Service} {log : List OfferChange}

theorem requestChanges_of_not_walletMethod {b : WalletBackend} {stores : WalletStores} {req : Request}
    (h : walletMethod req.method = false) : requestChanges b stores req = [] := by
  unfold requestChanges
  cases hm : req.method with
  | makeOffer => rw [hm] at h; cases h
  | disableOffer => rw [hm] at h; cases h
  | makeBip321 => rw [hm] at h; cases h
  | _ => rfl

theorem listening_answerCall (texts : Texts) (env : Env) (s : Service) (caller : String) (m : Meets) (body : Body) :
    (answerCall texts env s caller m body).1.listening = s.listening := by
  cases body <;> rfl

/-- The offers are known as long as the loop over the node's events has not panicked. -/
def Known (s : Service) (history : List (List OfferChange)) : Prop :=
  s.listening = true → Follows s.stores.offers history.flatten

theorem Known.clearStep {history : List (List OfferChange)} (h : Known s history) (c : Clear) :
    Known (clearStep texts env s c) (history ++ [clearChanges texts env s c]) := by
  have hsame : ∀ {s' : Service}, s'.listening = s.listening → s'.stores.offers = s.stores.offers →
      Known s' (history ++ [[]]) := by
    intro s' hl ho hup
    rw [ho, List.flatten_append]
    simp only [List.flatten_cons, List.flatten_nil, List.append_nil]
    exact h (hl ▸ hup)
  cases c with
  | call body caller id m =>
    simp only [Relay.clearStep, clearChanges]
    by_cases hs : s.serving = true
    · rw [if_pos hs, if_pos hs]
      intro hup
      rw [List.flatten_append, List.flatten_singleton]
      have hlistening : s.listening = true := (listening_answerCall texts env s caller m body).symm.trans hup
      exact kept_answerCall (R := fun stores log => Follows stores.offers log)
        (fun b c req caller hfollows => follows_execute hfollows c req caller)
        (fun _ _ _ hmethod => requestChanges_of_not_walletMethod hmethod) (h hlistening) caller m body
    · rw [if_neg hs, if_neg hs]
      exact hsame rfl rfl
  | grant event now =>
    simp only [Relay.clearStep, clearChanges]
    by_cases hs : s.serving = true
    · rw [if_pos hs]
      exact hsame rfl rfl
    · rw [if_neg hs]
      exact hsame rfl rfl
  | fetched event now => exact hsame rfl rfl
  | ldkEvent event node fails now =>
    simp only [Relay.clearStep, clearChanges]
    by_cases hl : s.listening = true
    · rw [if_pos hl, if_pos hl]
      intro hup
      rw [List.flatten_append]
      simp only [List.flatten_cons, List.flatten_nil, List.append_nil]
      exact follows_handleLdkEvent (h hl) (of_decide_eq_true hup)
    · rw [if_neg hl, if_neg hl]
      exact hsame rfl rfl

end

namespace Sample

def receiver : Receiver where
  newDescription := .ok
  receiveBolt11 _ _ _ _ := .error "no channel"
  receiveBolt12 _ _ _ _ := .ok EventLoop.Sample.coffee.offer
  newAddress _ := .error "no address"
  offerId _ := some EventLoop.Sample.coffee.offerId
  parseAddress := some

end Sample

end Relay

end LdkController
