import LdkController.SpendSound

/-!
# When a payment's debit is given back

The wait merges a failure, a timeout and a success without preimage into one
error, and the error is all that the refund sees. The debit is given back for a
failed payment only, exactly when the node reports a conclusive outcome in time.
-/

namespace LdkController

open Lib

/-! ## What the wait observes -/

namespace Node

variable (node : Node) (paymentId : String)

def statusAt (i : Nat) : Option PaymentStatus := (node.outbound? paymentId i).map (·.status)

/-- Round `i` comes: every earlier round found the payment open, within the 60 s. -/
def InTime (i : Nat) : Prop :=
  ∀ j < i, (node.statusAt paymentId j = none ∨ node.statusAt paymentId j = some .pending) ∧
    node.elapsedNanos j ≤ 60000000000

def Conclusive : Prop :=
  ∃ i p, node.InTime paymentId i ∧ node.outbound? paymentId i = some p ∧
    (p.status = .failed ∨ (p.status = .succeeded ∧ p.kind.preimage.isSome = true))

variable {node paymentId}

theorem probe_eq_none {i : Nat} :
    node.probe paymentId i = none ↔
      node.statusAt paymentId i = none ∨ node.statusAt paymentId i = some .pending := by
  unfold probe statusAt
  cases ho : node.outbound? paymentId i with
  | none => simp
  | some p =>
    cases hs : p.status with
    | pending => simp [hs]
    | failed => simp [hs]
    | succeeded => cases hk : p.kind.preimage <;> simp [hs, hk]

theorem reached_iff {i : Nat} :
    Reached (node.probe paymentId) node.late 0 i ↔ node.InTime paymentId i := by
  unfold Reached InTime
  have hlate : ∀ j, node.late j = false ↔ node.elapsedNanos j ≤ 60000000000 := by
    intro j
    unfold late
    rw [decide_eq_false_iff_not, not_lt]
  constructor
  · intro h j hj
    obtain ⟨hp, hl⟩ := h.2 j (Nat.zero_le j) hj
    exact ⟨probe_eq_none.mp hp, (hlate j).mp hl⟩
  · intro h
    refine ⟨Nat.zero_le i, fun j _ hj => ?_⟩
    exact ⟨probe_eq_none.mpr (h j hj).1, (hlate j).mpr (h j hj).2⟩

variable (node paymentId) in
theorem exists_last_round : ∃ k, k ≤ 601 ∧ Ends (node.probe paymentId) node.late 0 k :=
  exists_ends (Nat.zero_le 601) node.late_of_rounds

/-- **The wait returns.** Its last round is the first that is decisive or late. -/
theorem waitForOutboundPayment_of_ends {k : Nat} (h : Ends (node.probe paymentId) node.late 0 k) :
    node.waitForOutboundPayment paymentId =
      (node.probe paymentId k).getD (.error (.paymentFailed "timeout waiting for payment outcome")) := by
  obtain ⟨e, he, hends⟩ := node.exists_last_round paymentId
  obtain rfl := h.unique hends
  have hpoll := poll_of_ends h (by omega : k < 0 + 602)
  unfold waitForOutboundPayment
  simp only [hpoll, Option.get_some]
  cases node.probe paymentId k <;> rfl

theorem conclusive_of_wait_ok {r : LdkPaymentResult} (h : node.waitForOutboundPayment paymentId = .ok r) :
    node.Conclusive paymentId := by
  obtain ⟨k, _, hk⟩ := node.exists_last_round paymentId
  rw [waitForOutboundPayment_of_ends hk] at h
  unfold probe at h
  cases hp : node.outbound? paymentId k with
  | none => rw [hp] at h; cases h
  | some p =>
    rw [hp] at h
    cases hs : p.status with
    | pending => simp only [hs] at h; cases h
    | failed => simp only [hs] at h; cases h
    | succeeded =>
      cases hpre : p.kind.preimage with
      | none => simp only [hs, hpre] at h; cases h
      | some preimage => exact ⟨k, p, reached_iff.mp hk.1, hp, .inr ⟨hs, by rw [hpre]; rfl⟩⟩

theorem wait_failed_iff :
    ((∃ e, node.waitForOutboundPayment paymentId = .error e) →
        ∃ i, node.InTime paymentId i ∧ node.statusAt paymentId i = some .failed) ↔
      node.Conclusive paymentId := by
  constructor
  · intro h
    cases hw : node.waitForOutboundPayment paymentId with
    | ok r => exact conclusive_of_wait_ok hw
    | error e =>
      obtain ⟨i, hi, hf⟩ := h ⟨e, hw⟩
      obtain ⟨p, hp, hs⟩ := Option.map_eq_some_iff.mp hf
      exact ⟨i, p, hi, hp, .inl hs⟩
  · rintro ⟨i, p, hi, hp, hf | ⟨hs, hpre⟩⟩
    · intro _
      exact ⟨i, hi, by unfold statusAt; rw [hp, Option.map_some, hf]⟩
    · rintro ⟨e, he⟩
      obtain ⟨preimage, hpre⟩ := Option.isSome_iff_exists.mp hpre
      have hprobe : node.probe paymentId i = some (.ok ⟨hexString preimage, p.feePaidMsat⟩) := by
        unfold probe
        simp only [hp, hs, hpre]
      have hends : Ends (node.probe paymentId) node.late 0 i := ⟨reached_iff.mpr hi, .inl (by rw [hprobe]; rfl)⟩
      rw [waitForOutboundPayment_of_ends hends, hprobe] at he
      cases he

end Node

/-! ## From the wait to the refund -/

def Sent.lightning : Sent → Bool
  | .onchain _ _ => false
  | _ => true

theorem sendAndWait_sent {node : Node} {payment s : Sent} {id : String}
    (h : (node.sendAndWait payment).sent = some (s, id)) :
    (node.sendAndWait payment).result = node.waitForOutboundPayment id := by
  unfold Node.sendAndWait at h ⊢
  cases hs : node.send payment with
  | error e => rw [hs] at h; cases h
  | ok id' =>
    rw [hs] at h
    obtain rfl := (Prod.mk.inj (Option.some.inj h)).2
    rfl

theorem result_of_sent {node : Node} {attempt : Attempt LdkPaymentResult} {s : Sent} {id : String}
    (hattempt : (∃ e, attempt = ⟨none, .error e⟩) ∨ ∃ payment, attempt = node.sendAndWait payment)
    (h : attempt.sent = some (s, id)) : attempt.result = node.waitForOutboundPayment id := by
  rcases hattempt with ⟨e, rfl⟩ | ⟨payment, rfl⟩
  · cases h
  · exact sendAndWait_sent h

theorem payInvoice_sent {node : Node} {invoiceStr : String} {amount : Option Nat} {s : Sent} {id : String}
    (h : (payInvoice node invoiceStr amount).sent = some (s, id)) :
    (payInvoice node invoiceStr amount).result = node.waitForOutboundPayment id := by
  apply result_of_sent _ h
  exact (payInvoice_cases node invoiceStr amount).imp_right fun ⟨_, payment, _, hpay, _⟩ => ⟨payment, hpay⟩

theorem payKeysend_sent {node : Node} {destPubkey : String} {amount : Nat} {s : Sent} {id : String}
    (h : (payKeysend node destPubkey amount).sent = some (s, id)) :
    (payKeysend node destPubkey amount).result = node.waitForOutboundPayment id := by
  apply result_of_sent _ h
  exact (payKeysend_cases node destPubkey amount).imp_right fun ⟨payment, hpay, _⟩ => ⟨payment, hpay⟩

theorem payOffer_sent {node : Node} {offerStr : String} {amount : Option Nat} {note : Option String} {s : Sent}
    {id : String} (h : (payOffer node offerStr amount note).sent = some (s, id)) :
    (payOffer node offerStr amount note).result = node.waitForOutboundPayment id := by
  apply result_of_sent _ h
  exact (payOffer_cases node offerStr amount note).imp_right fun ⟨_, payment, _, hpay, _⟩ => ⟨payment, hpay⟩

theorem payOnchain_sent {node : Node} {address : String} {sats : Nat} {feerate : Option Nat} {s : Sent} {id : String}
    (h : (payOnchain node address sats feerate).sent = some (s, id)) : s.lightning = false := by
  rcases payOnchain_cases node address sats feerate with ⟨e, he⟩ | ⟨addr, txid, hpay⟩
  · rw [he] at h; cases h
  · rw [hpay] at h
    obtain rfl := (Prod.mk.inj (Option.some.inj h)).1
    rfl

/-- The execution of a lightning payment fails exactly when its wait does. -/
def Awaits (node : Node) (x : Execution) : Prop :=
  ∀ s id, x.sent = some (s, id) → s.lightning = true →
    ((∀ response, x.result ≠ .ok response) ↔ ∃ e, node.waitForOutboundPayment id = .error e)

theorem awaits_none (node : Node) (result : Outcome NIP47Error Response) : Awaits node ⟨none, result⟩ := by
  intro s id h; cases h

theorem awaits_respond {node : Node} {attempt : Attempt LdkPaymentResult} {operation : String}
    {f : LdkPaymentResult → Response}
    (h : ∀ s id, attempt.sent = some (s, id) → attempt.result = node.waitForOutboundPayment id) :
    Awaits node (attempt.respond operation f) := by
  intro s id hs _
  rw [← h s id hs]
  unfold Attempt.respond
  cases attempt.result with
  | ok r => simp
  | error e => simp

theorem awaits_onchain {node : Node} {attempt : Attempt String} {operation : String} {f : String → Response}
    (h : ∀ s id, attempt.sent = some (s, id) → s.lightning = false) : Awaits node (attempt.respond operation f) := by
  intro s id hs hl
  rw [h s id hs] at hl; cases hl

theorem awaits_payUri (node : Node) (uri : Bip321Uri) (amount : Option Nat) : Awaits node (payUri node uri amount) := by
  unfold payUri
  cases uri.lightning with
  | cons invoiceStr rest => exact awaits_respond fun _ _ => payInvoice_sent
  | nil =>
    cases uri.lno with
    | cons offerStr rest => exact awaits_respond fun _ _ => payOffer_sent
    | nil =>
      by_cases ha : uri.address.isSome = true
      · simp only [ha, if_true]
        cases uri.amount with
        | none => exact awaits_none _ _
        | some sats =>
          cases uri.addressStr with
          | none => exact awaits_none _ _
          | some addr => exact awaits_onchain fun _ _ => payOnchain_sent
      · simp only [ha, Bool.false_eq_true, if_false]
        exact awaits_none _ _

theorem awaits_execute {env : Env} {backend : Backend} {node : Node} {request : Request} {handler : Handler}
    {caller : String} (hnode : backend.service = some node)
    (hh : requestHandlers request.method = some handler) (hval : handler.validate env request = .ok ()) :
    Awaits node (handler.execute env backend request caller) := by
  rcases handler_cases hh hval with
    ⟨rfl, p, hp⟩ | ⟨rfl, p, hp⟩ | ⟨rfl, p, hp⟩ | ⟨rfl, p, hp⟩ | ⟨rfl, uriStr, hp⟩ | ⟨_, hnone⟩
  · simp only [payInvoiceHandler, hnode, hp]
    exact awaits_respond fun _ _ => payInvoice_sent
  · simp only [payKeysendHandler, hnode, hp]
    exact awaits_respond fun _ _ => payKeysend_sent
  · simp only [payOnchainHandler, hnode, hp]
    exact awaits_onchain fun _ _ => payOnchain_sent
  · simp only [payOfferHandler, hnode, hp]
    exact awaits_respond fun _ _ => payOffer_sent
  · simp only [payBip321Handler, hnode, hp]
    cases env.parseBip321 uriStr with
    | error e => exact awaits_none _ _
    | ok uri =>
      simp only
      cases uri.amount with
      | none => exact awaits_payUri _ _ _
      | some sats =>
        simp only
        cases env.toMsat sats with
        | ok msat => exact awaits_payUri _ _ _
        | err e => exact awaits_none _ _
        | panic => exact awaits_none _ _
  · intro s id hs
    rw [hnone] at hs; cases hs

theorem executeRequest_awaits {env : Env} {backend : Backend} {node : Node} {handler : Handler} {request : Request}
    {caller : String} (h : Awaits node (handler.execute env backend request caller)) {s : Sent} {id : String}
    (hs : (executeRequest env backend handler request caller).1 = some (s, id)) (hl : s.lightning = true) :
    (∃ e, (executeRequest env backend handler request caller).2 = .error e) ↔
      ∃ e, node.waitForOutboundPayment id = .error e := by
  unfold executeRequest at hs ⊢
  by_cases hf : request.method ∈ backend.forcedExecuteFailures
  · rw [if_pos hf] at hs; cases hs
  · rw [if_neg hf] at hs ⊢
    rw [← h s id hs hl]
    simp only
    cases (handler.execute env backend request caller).result with
    | ok response => simp
    | err e => simp
    | panic => simp

section
variable {env : Env} {backend : Backend} {c : Controller} {now : Nat} {request : Request} {event : Event}
  {us : List StateUpdateRequest} {node : Node} {s : Sent} {id : String}

theorem failed_iff_wait_error (hnode : backend.service = some node)
    (hadm : (verifyAccess env c.toStores now request event).2 = .ok us)
    (hsent : (processNwcRequest env backend c now request event).sent = some (s, id)) (hl : s.lightning = true) :
    ((processNwcRequest env backend c now request event).exit = .failed ↔
        ∃ e, node.waitForOutboundPayment id = .error e) ∧
      ((processNwcRequest env backend c now request event).exit = .failed →
        (processNwcRequest env backend c now request event).controller.access =
          refundAppliedStateUpdates (us.foldl (debit now) c.access) us) := by
  rw [processNwcRequest_of_ok hadm] at hsent ⊢
  rcases processAdmitted_cases env backend { c with access := us.foldl (debit now) c.access } us request
      event.pubkey with
    ⟨_, _, _, hnone⟩ | ⟨_, _, _, hnone⟩ | ⟨handler, _, hh, hval, hfst, hend⟩
  · rw [hnone] at hsent; cases hsent
  · rw [hnone] at hsent; cases hsent
  · rw [hfst] at hsent
    have hiff := executeRequest_awaits (awaits_execute hnode hh hval) hsent hl
    rcases hend with ⟨response, hres, hexit, _⟩ | ⟨e, hres, hexit, hc⟩
    · rw [hexit, ← hiff]
      refine ⟨iff_of_false (fun h => by cases h) ?_, fun h => by cases h⟩
      rintro ⟨e, he⟩
      rw [hres] at he; cases he
    · rw [hexit, ← hiff]
      exact ⟨iff_of_true rfl ⟨e, hres⟩, fun _ => by rw [hc]⟩

/-- **Refunds.** The debit of an accepted lightning payment is given back if and only if the wait fails; and the wait
fails only for a payment that has failed for good if and only if its outcome is conclusive. -/
theorem refund_only_after_failure_iff (hnode : backend.service = some node)
    (hadm : (verifyAccess env c.toStores now request event).2 = .ok us)
    (hsent : (processNwcRequest env backend c now request event).sent = some (s, id)) (hl : s.lightning = true)
    (hfinal : ∀ i j, i ≤ j → node.statusAt id i = some .failed → node.statusAt id j = some .failed) :
    (((∃ e, node.waitForOutboundPayment id = .error e) →
        ∃ i, node.InTime id i ∧ ∀ j, i ≤ j → node.statusAt id j = some .failed) ↔ node.Conclusive id) ∧
      ((processNwcRequest env backend c now request event).exit = .failed ↔
        ∃ e, node.waitForOutboundPayment id = .error e) ∧
      ((processNwcRequest env backend c now request event).exit = .failed →
        (processNwcRequest env backend c now request event).controller.access =
          refundAppliedStateUpdates (us.foldl (debit now) c.access) us) := by
  refine ⟨?_, failed_iff_wait_error hnode hadm hsent hl⟩
  rw [← Node.wait_failed_iff]
  constructor
  · intro h he
    obtain ⟨i, hi, hj⟩ := h he
    exact ⟨i, hi, hj i (Nat.le_refl i)⟩
  · intro h he
    obtain ⟨i, hi, hf⟩ := h he
    exact ⟨i, hi, fun j hij => hfinal i j hij hf⟩

end

namespace Sample

def failing : Node :=
  { node with listPayments := fun _ => [⟨"payment-1", .bolt11 none, none, .outbound, .failed⟩] }

/-- A node whose payment settles after the second round, which comes 61 s after the first. -/
def slow : Node where
  parseInvoice := node.parseInvoice
  parseOffer := node.parseOffer
  parsePubkey := node.parsePubkey
  parseAddress := node.parseAddress
  send := node.send
  listPayments i :=
    [⟨"payment-1", .bolt11 (if i < 2 then none else some [0, 1, 2]), none, .outbound,
      if i < 2 then .pending else .succeeded⟩]
  elapsedNanos i := 61000000000 * i
  sleep_le _ := Nat.mul_le_mul_right _ (by decide)

def payCoffee : Request := ⟨.payInvoice, .payInvoice ⟨coffee, some 5000⟩⟩

end Sample

theorem refund_after_failed_payment :
    ∃ i, Sample.failing.InTime "payment-1" i ∧ ∀ j, i ≤ j → Sample.failing.statusAt "payment-1" j = some .failed :=
  have hadm : (verifyAccess Sample.env Sample.controller.toStores 7 Sample.payCoffee Sample.event).2 =
      .ok [⟨.quota Sample.alice, ⟨0, 10000⟩, 5000, .quota, ⟨.quota, 0⟩⟩] := by decide
  have hsent : (processNwcRequest Sample.env { Sample.attached with service := some Sample.failing }
      Sample.controller 7 Sample.payCoffee Sample.event).sent =
        some (.bolt11UsingAmount ⟨some 250000000⟩ 5000, "payment-1") := by decide
  have hconclusive : Sample.failing.Conclusive "payment-1" :=
    ⟨0, _, fun _ h => absurd h (Nat.not_lt_zero _), rfl, .inl rfl⟩
  (refund_only_after_failure_iff rfl hadm hsent rfl fun _ _ _ _ => rfl).1.mpr hconclusive ⟨_, rfl⟩

/-- The wait times out, the quota is full again, and the payment settles. -/
theorem refund_only_after_failure_fails :
    (processNwcRequest Sample.env { Sample.attached with service := some Sample.slow } Sample.controller 7
        Sample.payCoffee Sample.event).exit = .failed ∧
      (processNwcRequest Sample.env { Sample.attached with service := some Sample.slow } Sample.controller 7
        Sample.payCoffee Sample.event).controller.access.quota.at? (.quota Sample.alice) = some ⟨10000, 0⟩ ∧
      Sample.slow.statusAt "payment-1" 1 = some .pending ∧ Sample.slow.statusAt "payment-1" 2 = some .succeeded := by
  decide

end LdkController
