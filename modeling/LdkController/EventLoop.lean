import LdkController.Delivery
import LdkController.Machine
import LdkController.Notifications
import Mathlib.Algebra.GroupWithZero.Nat
import Mathlib.Data.Finset.Insert

/-!
# The event loop and the totals of offers

`run_nwc_service_with_ldk` handles the events of the node in a loop. The event
stays first in the queue until `event_handled` succeeds, whatever the handler
returned. A payment is recorded for its offer once the notification is published,
so the totals are right as long as each payment is published exactly once.
-/

namespace LdkController.EventLoop

open Lib

abbrev Payment := Bytes32 × Nat

def payment : LdkEvent → Option Payment
  | .paymentReceived paymentHash amountMsat => some (paymentHash, amountMsat)
  | _ => none

structure Round where
  node : NodeView
  fails : String → PublishStep → Option String
  subscriptions : Table String (Finset String)
  now : Nat
  acknowledged : Bool

/-- What `delivery` counts are the payments that were published, which are recorded if they have an offer. -/
structure World where
  delivery : Delivery LdkEvent Payment
  stores : EventStores

def publishes (r : Round) (p : Payment) : Bool :=
  match (publishNwcNotification r.fails r.subscriptions "payment_received"
      (.paymentReceived (hexPaymentHash p.1.toList) p.2)).2 with
  | .ok _ => true
  | .error _ => false

def step (build : Build) (w : World) (r : Round) : World :=
  match w.delivery.queue with
  | [] => w
  | event :: _ =>
    let handled := handleLdkEvent build r.node r.fails r.subscriptions w.stores r.now event
    match handled.result with
    -- the panic ends the task
    | .panic => ⟨w.delivery.stop, handled.stores⟩
    | _ => ⟨w.delivery.attempt payment ⟨(payment event).any (publishes r), r.acknowledged⟩, handled.stores⟩

structure Registration where
  offer : String
  description : String
  amountMsat : Nat
  offerId : Bytes32

def register (regs : List Registration) : Offers :=
  regs.foldl (fun map r => insertOffer map r.offer r.description r.amountMsat r.offerId) ∅

def start (regs : List Registration) (events : List LdkEvent) : World := ⟨.start events, ⟨register regs, []⟩⟩

def bolt12OfferId (details : PaymentDetails) : Option Bytes32 :=
  if details.direction = .inbound then
    match details.kind with
    | .bolt12Offer _ offerId => some offerId
    | _ => none
  else none

section
variable (offerOf : Bytes32 → Option Bytes32)

/-- The node knows the offer of the payment whose event is handled. -/
def Answers (w : World) (r : Round) : Prop :=
  ∀ p, w.delivery.current payment = some p → (r.node.payment p.1).bind bolt12OfferId = offerOf p.1

/-- A payment for the offer is not published again and the totals have room for it, and it is not passed before it
has been published. -/
def Exact (reg : Registration) (w : World) (r : Round) : Prop :=
  ∀ p, w.delivery.current payment = some p → offerOf p.1 = some reg.offerId →
    (publishes r p = true → p ∉ w.delivery.counted ∧ ∀ record, getOffer w.stores.offers reg.offer = some record →
      record.numPaymentsReceived + 1 ≤ u64Max ∧ record.totalReceivedMsat + p.2 ≤ u64Max) ∧
    (r.acknowledged = true → publishes r p = true ∨ p ∈ w.delivery.counted)

def isFor (reg : Registration) (p : Payment) : Bool := offerOf p.1 = some reg.offerId

/-- The offer is the only one with its id, and its totals are those of the payments counted. -/
structure Tracks (reg : Registration) (w : World) : Prop where
  exactly : w.delivery.Exactly payment (isFor offerOf reg)
  unique : ∀ key record, w.stores.offers.lookup key = some record → record.offerId = reg.offerId → key = reg.offer
  totals : ∃ record, w.stores.offers.lookup reg.offer = some record ∧ record.offerId = reg.offerId ∧
    record.numPaymentsReceived = (w.delivery.counted.filter (isFor offerOf reg)).length ∧
    record.totalReceivedMsat = ((w.delivery.counted.filter (isFor offerOf reg)).map (·.2)).sum

end

/-! ## Registering -/

def Registration.record (r : Registration) : OfferRecord :=
  ⟨r.offer, r.description, r.amountMsat, true, 0, 0, r.offerId⟩

theorem lookup_register_of_forall {regs : List Registration} {key : String} (hkey : ∀ r ∈ regs, r.offer ≠ key) :
    ∀ map : Offers, (regs.foldl (fun map r => insertOffer map r.offer r.description r.amountMsat r.offerId)
      map).lookup key = map.lookup key := by
  induction regs with
  | nil => intro map; rfl
  | cons r regs ih =>
    intro map
    rw [List.foldl_cons, ih fun r' hr' => hkey r' (List.mem_cons_of_mem r hr')]
    exact AList.lookup_insert_ne (hkey r List.mem_cons_self).symm

theorem lookup_register {regs : List Registration} (hoffers : (regs.map (·.offer)).Nodup) {r : Registration}
    (hr : r ∈ regs) (map : Offers) :
    (regs.foldl (fun map r => insertOffer map r.offer r.description r.amountMsat r.offerId) map).lookup r.offer =
      some r.record := by
  induction regs generalizing map with
  | nil => cases hr
  | cons r' regs ih =>
    obtain ⟨hnot, hrest⟩ := List.nodup_cons.mp hoffers
    rw [List.foldl_cons]
    rcases List.mem_cons.mp hr with rfl | hr
    · have hkey : ∀ r' ∈ regs, r'.offer ≠ r.offer := fun r' hr' he => hnot (List.mem_map.mpr ⟨r', hr', he⟩)
      rw [lookup_register_of_forall hkey]
      exact AList.lookup_insert _
    · exact ih hrest hr _

theorem exists_of_lookup_register {regs : List Registration} {key : String} {record : OfferRecord} :
    ∀ {map : Offers}, (regs.foldl (fun map r => insertOffer map r.offer r.description r.amountMsat r.offerId)
      map).lookup key = some record → map.lookup key = some record ∨ ∃ r ∈ regs, r.offer = key ∧ r.record = record := by
  induction regs with
  | nil => intro map h; exact .inl h
  | cons r regs ih =>
    intro map h
    rw [List.foldl_cons] at h
    rcases ih h with h | ⟨r', hr', hkey⟩
    · unfold insertOffer at h
      rw [AList.lookup_insert_eq] at h
      split at h
      · rename_i he
        exact .inr ⟨r, List.mem_cons_self, he.symm, Option.some.inj h⟩
      · exact .inl h
    · exact .inr ⟨r', List.mem_cons_of_mem r hr', hkey⟩

theorem tracks_start (offerOf : Bytes32 → Option Bytes32) {regs : List Registration}
    (hoffers : (regs.map (·.offer)).Nodup) (hids : (regs.map (·.offerId)).Nodup) {reg : Registration}
    (hreg : reg ∈ regs) (events : List LdkEvent) : Tracks offerOf reg (start regs events) where
  exactly := Delivery.exactly_start events
  unique key record hk hid := by
    rcases exists_of_lookup_register hk with h | ⟨r, hr, hkey, hrecord⟩
    · cases h
    · have hsame : r.offerId = reg.offerId := by rw [← hid, ← hrecord]; rfl
      obtain rfl := List.inj_on_of_nodup_map hids hr hreg hsame
      exact hkey.symm
  totals := ⟨reg.record, lookup_register hoffers hreg ∅, rfl, rfl, rfl⟩

/-! ## Finding and recording -/

theorem lookup_of_findByOfferId {offers : Offers} {id : Bytes32} {key : String} (h : findByOfferId offers id = some key) :
    ∃ record, offers.lookup key = some record ∧ record.offerId = id := by
  obtain ⟨e, he, rfl⟩ := Option.map_eq_some_iff.mp h
  have hid := List.find?_some he
  exact ⟨e.2, AList.mem_lookup_iff.mpr (List.mem_of_find?_eq_some he), of_decide_eq_true hid⟩

theorem findByOfferId_ne_none {offers : Offers} {key : String} {record : OfferRecord}
    (h : offers.lookup key = some record) : findByOfferId offers record.offerId ≠ none := by
  intro hnone
  have hfind := List.find?_eq_none.mp (Option.map_eq_none_iff.mp hnone) ⟨key, record⟩ (AList.mem_lookup_iff.mp h)
  exact hfind (decide_eq_true rfl)

/-- Recording changes the totals of one offer. -/
theorem lookup_recordPayment {build : Build} {offers offers' : Offers} {offer : String} {amount : Nat}
    (h : recordPayment build offers offer amount = some offers') (key : String) :
    (key ≠ offer → offers'.lookup key = offers.lookup key) ∧
      (offers'.lookup key).map (·.offerId) = (offers.lookup key).map (·.offerId) := by
  unfold recordPayment at h
  cases hlk : offers.lookup offer with
  | none =>
    rw [hlk] at h
    obtain rfl := Option.some.inj h
    exact ⟨fun _ => rfl, rfl⟩
  | some record =>
    simp only [hlk, Option.bind_eq_bind, Option.bind_eq_some_iff, Option.pure_def, Option.some.injEq] at h
    obtain ⟨num, _, total, _, rfl⟩ := h
    refine ⟨AList.lookup_insert_ne, ?_⟩
    rw [AList.lookup_insert_eq]
    split
    · rename_i he
      rw [he, hlk]
      rfl
    · rfl

theorem offerOfPayment_eq (offers : Offers) (details : PaymentDetails) :
    offerOfPayment offers details = (bolt12OfferId details).bind (findByOfferId offers) := by
  unfold offerOfPayment bolt12OfferId
  split
  · cases details.kind <;> rfl
  · rfl

theorem lookupPaymentByHash_hex (node : NodeView) (hash : Bytes32) :
    lookupPaymentByHash node (hexPaymentHash hash.toList) =
      Outcome.okOr (node.payment hash) ("payment not found: " ++ hexPaymentHash hash.toList) := by
  have hlength : hash.toList.length = 32 := Vector.length_toList
  unfold lookupPaymentByHash
  rw [decodeHex_hexPaymentHash]
  simp only [hlength, dif_pos]
  have hback : (⟨hash.toList.toArray, hlength⟩ : Bytes32) = hash := Vector.toArray_inj.mp (Array.toArray_toList ..)
  rw [hback]

theorem recordOfferPayment_eq (build : Build) {node : NodeView} (s : EventStores) {hash : Bytes32} (amount : Nat)
    {id : Option Bytes32} (h : (node.payment hash).bind bolt12OfferId = id) :
    recordOfferPayment build node s (hexPaymentHash hash.toList) amount =
      match id.bind (findByOfferId s.offers) with
      | none => (s, .ok ())
      | some key =>
        match recordPayment build s.offers key amount with
        | none => (s, .panic)
        | some offers => ({ s with offers := offers }, .ok ()) := by
  unfold recordOfferPayment
  rw [lookupPaymentByHash_hex, ← h]
  cases node.payment hash with
  | none => rfl
  | some details =>
    rw [Option.bind_some, ← offerOfPayment_eq]
    rfl

/-! ## One round -/

section
variable (build : Build) {r : Round} {w : World}

theorem step_of_no_payment {event : LdkEvent} {rest : List LdkEvent} (hq : w.delivery.queue = event :: rest)
    (h : payment event = none) :
    ∃ stores, stores.offers = w.stores.offers ∧
      step build w r = ⟨w.delivery.attempt payment ⟨false, r.acknowledged⟩, stores⟩ := by
  have hpropagate : ∀ x : Except String Unit, propagate x ≠ .panic := by
    intro x hx
    cases x <;> cases hx
  have hstep : ∀ handled : Handled, handleLdkEvent build r.node r.fails r.subscriptions w.stores r.now event = handled →
      handled.stores.offers = w.stores.offers → handled.result ≠ .panic → ∃ stores, stores.offers = w.stores.offers ∧
        step build w r = ⟨w.delivery.attempt payment ⟨false, r.acknowledged⟩, stores⟩ := by
    intro handled he hoffers hresult
    refine ⟨handled.stores, hoffers, ?_⟩
    unfold step
    rw [hq]
    simp only [he, h, Option.any_none]
  cases event with
  | paymentReceived hash amount => cases h
  | paymentSuccessful hash fee => exact hstep _ rfl rfl (hpropagate _)
  | paymentClaimable hash amount deadline => exact hstep _ rfl rfl (hpropagate _)
  | channelReady id counterparty fundingTxid => exact hstep _ rfl rfl (hpropagate _)
  | channelClosed id counterparty reason => exact hstep _ rfl rfl (hpropagate _)
  | paymentForwarded prev next fee outbound => exact hstep _ rfl rfl (fun hx => by cases hx)
  | other => exact hstep _ rfl rfl (fun hx => by cases hx)

theorem step_of_not_published {p : Payment} {rest : List LdkEvent}
    (hq : w.delivery.queue = .paymentReceived p.1 p.2 :: rest) (hp : publishes r p = false) :
    step build w r = ⟨w.delivery.attempt payment ⟨false, r.acknowledged⟩, w.stores⟩ := by
  unfold step
  rw [hq]
  simp only [payment, Option.any_some, hp, handleLdkEvent]
  unfold publishes at hp
  generalize publishNwcNotification r.fails r.subscriptions "payment_received"
    (.paymentReceived (hexPaymentHash p.1.toList) p.2) = x at hp ⊢
  obtain ⟨published, e | u⟩ := x
  · rfl
  · cases hp

theorem step_of_published {p : Payment} {rest : List LdkEvent} {id : Option Bytes32}
    (hq : w.delivery.queue = .paymentReceived p.1 p.2 :: rest) (hp : publishes r p = true)
    (hid : (r.node.payment p.1).bind bolt12OfferId = id) :
    step build w r =
      match id.bind (findByOfferId w.stores.offers) with
      | none => ⟨w.delivery.attempt payment ⟨true, r.acknowledged⟩, w.stores⟩
      | some key =>
        match recordPayment build w.stores.offers key p.2 with
        | none => ⟨w.delivery.stop, w.stores⟩
        | some offers => ⟨w.delivery.attempt payment ⟨true, r.acknowledged⟩, { w.stores with offers := offers }⟩ := by
  unfold step
  rw [hq]
  simp only [payment, Option.any_some, hp, handleLdkEvent, recordOfferPayment_eq build w.stores p.2 hid]
  unfold publishes at hp
  generalize publishNwcNotification r.fails r.subscriptions "payment_received"
    (.paymentReceived (hexPaymentHash p.1.toList) p.2) = x at hp ⊢
  obtain ⟨published, e | u⟩ := x
  · cases hp
  · cases id.bind (findByOfferId w.stores.offers) with
    | none => rfl
    | some key =>
      simp only
      cases recordPayment build w.stores.offers key p.2 <;> rfl

end

theorem current_cons {d : Delivery LdkEvent Payment} {event : LdkEvent} {rest : List LdkEvent}
    (hq : d.queue = event :: rest) : d.current payment = payment event := by
  unfold Delivery.current
  rw [hq]
  rfl

section
variable {offerOf : Bytes32 → Option Bytes32} {reg : Registration} {w : World}

/-- What happens to the totals is that nothing of the offer is counted. -/
theorem Tracks.keep (h : Tracks offerOf reg w) {w' : World}
    (hexactly : w'.delivery.Exactly payment (isFor offerOf reg))
    (hcounted : w'.delivery.counted.filter (isFor offerOf reg) = w.delivery.counted.filter (isFor offerOf reg))
    (hlookup : w'.stores.offers.lookup reg.offer = w.stores.offers.lookup reg.offer)
    (hids : ∀ key, (w'.stores.offers.lookup key).map (·.offerId) = (w.stores.offers.lookup key).map (·.offerId)) :
    Tracks offerOf reg w' where
  exactly := hexactly
  unique key record hk hid := by
    have hmap := hids key
    rw [hk] at hmap
    obtain ⟨record', hk', hid'⟩ := Option.map_eq_some_iff.mp hmap.symm
    exact h.unique key record' hk' (hid'.trans hid)
  totals := by
    rw [hlookup, hcounted]
    exact h.totals

theorem Tracks.exact_of_not_for (hno : ∀ p, w.delivery.current payment = some p → isFor offerOf reg p = false)
    (a : Delivery.Attempt) : w.delivery.Exact payment (isFor offerOf reg) a := by
  intro p hp hfor
  rw [hno p hp] at hfor
  cases hfor

theorem Tracks.findByOfferId (h : Tracks offerOf reg w) :
    findByOfferId w.stores.offers reg.offerId = some reg.offer := by
  obtain ⟨record, hlk, hid, _⟩ := h.totals
  obtain ⟨key, hkey⟩ := Option.ne_none_iff_exists'.mp (findByOfferId_ne_none hlk)
  rw [hid] at hkey
  obtain ⟨record', hlk', hid'⟩ := lookup_of_findByOfferId hkey
  rw [hkey, h.unique key record' hlk' hid']

theorem Tracks.ne_of_findByOfferId (h : Tracks offerOf reg w) {id : Bytes32} (hid : id ≠ reg.offerId) {key : String}
    (hkey : LdkController.findByOfferId w.stores.offers id = some key) : key ≠ reg.offer := by
  intro he
  obtain ⟨record, hlk, hrecord⟩ := lookup_of_findByOfferId hkey
  obtain ⟨record', hlk', hrecord', _⟩ := h.totals
  rw [he, hlk'] at hlk
  obtain rfl := Option.some.inj hlk
  exact hid (hrecord.symm.trans hrecord')

theorem Tracks.skip (h : Tracks offerOf reg w) {a : Delivery.Attempt}
    (hexact : w.delivery.Exact payment (isFor offerOf reg) a) (hcounts : a.counts = false) {stores : EventStores}
    (hoffers : stores.offers = w.stores.offers) :
    Tracks offerOf reg ⟨w.delivery.attempt payment a, stores⟩ := by
  obtain ⟨counts, acknowledged⟩ := a
  obtain rfl : counts = false := hcounts
  apply h.keep (h.exactly.attempt hexact)
  · rw [Delivery.counted_attempt_of_not_counts]
  · rw [hoffers]
  · intro key
    rw [hoffers]

/-- A payment for another offer, or for none, is published. -/
theorem Tracks.other (h : Tracks offerOf reg w) (build : Build) {r : Round} {p : Payment} {rest : List LdkEvent}
    (hq : w.delivery.queue = .paymentReceived p.1 p.2 :: rest) (hanswers : Answers offerOf w r)
    (hpublished : publishes r p = true) (hfor : offerOf p.1 ≠ some reg.offerId) : Tracks offerOf reg (step build w r) := by
  have hcurrent : w.delivery.current payment = some p := current_cons hq
  have hnot : isFor offerOf reg p = false := decide_eq_false hfor
  have hno : ∀ p', w.delivery.current payment = some p' → isFor offerOf reg p' = false := by
    intro p' hp'
    obtain rfl := Option.some.inj (hcurrent.symm.trans hp')
    exact hnot
  have hexactly : (w.delivery.attempt payment ⟨true, r.acknowledged⟩).Exactly payment (isFor offerOf reg) :=
    h.exactly.attempt (Tracks.exact_of_not_for hno _)
  have hcounted : (w.delivery.attempt payment ⟨true, r.acknowledged⟩).counted.filter (isFor offerOf reg) =
      w.delivery.counted.filter (isFor offerOf reg) := by
    rw [Delivery.counted_attempt hcurrent, List.filter_append, List.filter_cons_of_neg (by rw [hnot]; decide)]
    exact List.append_nil _
  rw [step_of_published build hq hpublished (hanswers p hcurrent)]
  cases hfind : (offerOf p.1).bind (LdkController.findByOfferId w.stores.offers) with
  | none => exact h.keep hexactly hcounted rfl fun _ => rfl
  | some key =>
    obtain ⟨id, hid, hkey⟩ := Option.bind_eq_some_iff.mp hfind
    have hne : key ≠ reg.offer := h.ne_of_findByOfferId (fun he => hfor (he ▸ hid)) hkey
    simp only
    cases hrecord : recordPayment build w.stores.offers key p.2 with
    | none => exact h.keep (h.exactly.stop hno) rfl rfl fun _ => rfl
    | some offers =>
      exact h.keep hexactly hcounted ((lookup_recordPayment hrecord reg.offer).1 hne.symm) fun k =>
        (lookup_recordPayment hrecord k).2

theorem Tracks.count (h : Tracks offerOf reg w) (build : Build) {r : Round} {p : Payment} {rest : List LdkEvent}
    (hq : w.delivery.queue = .paymentReceived p.1 p.2 :: rest) (hanswers : Answers offerOf w r)
    (hexact : Exact offerOf reg w r) (hpublished : publishes r p = true) (hfor : offerOf p.1 = some reg.offerId) :
    Tracks offerOf reg (step build w r) := by
  have hcurrent : w.delivery.current payment = some p := current_cons hq
  obtain ⟨hcounts, _⟩ := hexact p hcurrent hfor
  obtain ⟨hnew, hroom⟩ := hcounts hpublished
  obtain ⟨record, hlk, hid, hnum, htotal⟩ := h.totals
  obtain ⟨hnumRoom, htotalRoom⟩ := hroom record hlk
  have hexact' : w.delivery.Exact payment (isFor offerOf reg) ⟨true, r.acknowledged⟩ := by
    intro p' hp' _
    obtain rfl := Option.some.inj (hcurrent.symm.trans hp')
    exact ⟨fun _ => hnew, fun _ => .inl rfl⟩
  have hcounted : (w.delivery.attempt payment ⟨true, r.acknowledged⟩).counted.filter (isFor offerOf reg) =
      w.delivery.counted.filter (isFor offerOf reg) ++ [p] := by
    have hyes : isFor offerOf reg p = true := decide_eq_true hfor
    rw [Delivery.counted_attempt hcurrent, List.filter_append, List.filter_cons_of_pos hyes]
    rfl
  have hrecord : recordPayment build w.stores.offers reg.offer p.2 =
      some (w.stores.offers.insert reg.offer { record with
        numPaymentsReceived := record.numPaymentsReceived + 1, totalReceivedMsat := record.totalReceivedMsat + p.2 }) := by
    unfold recordPayment
    simp only [hlk, build.addU64_of_le hnumRoom, build.addU64_of_le htotalRoom, Option.bind_eq_bind, Option.bind_some,
      Option.pure_def]
  rw [step_of_published build hq hpublished ((hanswers p hcurrent).trans hfor)]
  simp only [Option.bind_some, h.findByOfferId, hrecord]
  refine ⟨h.exactly.attempt hexact', ?_, _, AList.lookup_insert _, hid, ?_, ?_⟩
  · intro key record' hk hid'
    rw [AList.lookup_insert_eq] at hk
    split at hk
    · assumption
    · exact h.unique key record' hk hid'
  · rw [hcounted, List.length_append, hnum]
    rfl
  · rw [hcounted, List.map_append, List.sum_append, htotal]
    rfl

theorem tracks_step (build : Build) {r : Round} (hanswers : Answers offerOf w r) (hexact : Exact offerOf reg w r)
    (h : Tracks offerOf reg w) : Tracks offerOf reg (step build w r) := by
  cases hq : w.delivery.queue with
  | nil =>
    unfold step
    rw [hq]
    exact h
  | cons event rest =>
    have hcurrent := current_cons hq
    cases hpay : payment event with
    | none =>
      obtain ⟨stores, hoffers, hstep⟩ := step_of_no_payment build (r := r) hq hpay
      rw [hstep]
      refine h.skip (Tracks.exact_of_not_for ?_ _) rfl hoffers
      intro p hp
      rw [hcurrent, hpay] at hp
      cases hp
    | some p =>
      obtain rfl : event = .paymentReceived p.1 p.2 := by
        cases event with
        | paymentReceived hash amount =>
          obtain rfl := Option.some.inj hpay
          rfl
        | _ => cases hpay
      cases hpublished : publishes r p with
      | false =>
        rw [step_of_not_published build hq hpublished]
        refine h.skip ?_ rfl rfl
        intro p' hp' hfor
        obtain rfl := Option.some.inj ((hcurrent.trans hpay).symm.trans hp')
        have hpasses := (hexact p hp' (of_decide_eq_true hfor)).2
        rw [hpublished] at hpasses
        exact ⟨fun hc => absurd hc Bool.false_ne_true, hpasses⟩
      | true =>
        by_cases hfor : offerOf p.1 = some reg.offerId
        · exact h.count build hq hanswers hexact hpublished hfor
        · exact h.other build hq hanswers hpublished hfor

end

/-- **Offer totals.** In a run in which every payment for the offer is published once, before it is passed, and the
totals have room for it, they are exact whenever the loop has moved past an event. -/
theorem offer_counted_once (build : Build) (offerOf : Bytes32 → Option Bytes32) {regs : List Registration}
    (hoffers : (regs.map (·.offer)).Nodup) (hids : (regs.map (·.offerId)).Nodup) {reg : Registration} (hreg : reg ∈ regs)
    {events : List LdkEvent} {rounds : List Round}
    (hanswers : Steps (step build) (Answers offerOf) (start regs events) rounds)
    (hexact : Steps (step build) (Exact offerOf reg) (start regs events) rounds)
    (hmoved : (exec (step build) (start regs events) rounds).delivery.redelivered = false) :
    let w := exec (step build) (start regs events) rounds
    let received := ((w.delivery.passed.filterMap payment).filter (isFor offerOf reg)).dedup
    ∃ record, getOffer w.stores.offers reg.offer = some record ∧ record.numPaymentsReceived = received.length ∧
      record.totalReceivedMsat = (received.map (·.2)).sum := by
  have hrun : Tracks offerOf reg (exec (step build) (start regs events) rounds) :=
    (hanswers.and hexact).exec_inv (fun w r hr h => tracks_step build hr.1 hr.2 h)
      (tracks_start offerOf hoffers hids hreg events)
  have hperm := hrun.exactly.perm hmoved
  obtain ⟨record, hlk, _, hnum, htotal⟩ := hrun.totals
  exact ⟨record, hlk, hnum.trans hperm.length_eq, htotal.trans (hperm.map _).sum_nat⟩

namespace Sample

def coffee : Registration := ⟨"lno1coffee", "coffee", 5000, Vector.replicate 32 1⟩

def hash : Bytes32 := Vector.replicate 32 7

/-- Every payment is a BOLT-12 payment for the coffee. -/
def node : NodeView :=
  ⟨fun _ => some ⟨"07", .bolt12Offer none coffee.offerId, none, .inbound, .succeeded⟩, []⟩

/-- The only subscriber cannot be reached, or can. -/
def round (reached acknowledged : Bool) : Round where
  node := node
  fails := fun _ _ => if reached then none else some "relay not connected"
  subscriptions := AList.singleton "alice" {"payment_received"}
  now := 9
  acknowledged := acknowledged

def run (rounds : List Round) : World := exec (step .release) (start [coffee] [.paymentReceived hash 5000]) rounds

def totals (w : World) : Option (Nat × Nat) :=
  (getOffer w.stores.offers coffee.offer).map fun r => (r.numPaymentsReceived, r.totalReceivedMsat)

end Sample

/-- The first attempt is neither published nor acknowledged, the second is both. -/
theorem offer_counted_retried :
    ∃ record, getOffer (Sample.run [Sample.round false false, Sample.round true true]).stores.offers
        Sample.coffee.offer = some record ∧ record.numPaymentsReceived = 1 ∧ record.totalReceivedMsat = 5000 := by
  let rounds := [Sample.round false false, Sample.round true true]
  have hanswers : Steps (step .release) (Answers fun _ => some Sample.coffee.offerId)
      (start [Sample.coffee] [.paymentReceived Sample.hash 5000]) rounds :=
    ⟨fun _ _ => rfl, fun _ _ => rfl, trivial⟩
  have hexact : Steps (step .release) (Exact (fun _ => some Sample.coffee.offerId) Sample.coffee)
      (start [Sample.coffee] [.paymentReceived Sample.hash 5000]) rounds := by
    refine ⟨?_, ?_, trivial⟩
    · intro p hp _
      obtain rfl : (Sample.hash, 5000) = p := Option.some.inj hp
      exact ⟨fun h => absurd h (by decide), fun h => by cases h⟩
    · intro p hp _
      obtain rfl : (Sample.hash, 5000) = p := Option.some.inj hp
      refine ⟨fun _ => ⟨List.not_mem_nil, fun record hlk => ?_⟩, fun _ => .inl (by decide)⟩
      obtain rfl : Sample.coffee.record = record := Option.some.inj hlk
      decide
  exact offer_counted_once .release (fun _ => some Sample.coffee.offerId) (by decide) (by decide)
    (List.mem_singleton.mpr rfl) hanswers hexact rfl

/-- A payment whose notification fails is lost, one whose acknowledgement fails is counted again. -/
theorem offer_counted_fails :
    (Sample.run [Sample.round false true]).delivery.passed = [.paymentReceived Sample.hash 5000] ∧
      Sample.totals (Sample.run [Sample.round false true]) = some (0, 0) ∧
      (Sample.run [Sample.round true false, Sample.round true true]).delivery.passed =
        [.paymentReceived Sample.hash 5000] ∧
      Sample.totals (Sample.run [Sample.round true false, Sample.round true true]) = some (2, 10000) := by
  decide

end LdkController.EventLoop
