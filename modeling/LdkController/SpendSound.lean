import LdkController.ProcessSound

/-!
# What is charged and what is paid

The charge is computed from the request alone, the payment from what the
request's invoice, offer or URI says. Of an executed request the principal is at
most the charge exactly when the amount that decides the payment is the one
that was charged.
-/

namespace LdkController

open Lib

/-! ## What a payment does -/

theorem payInvoice_cases (node : Node) (invoiceStr : String) (amount : Option Nat) :
    (∃ e, payInvoice node invoiceStr amount = ⟨none, .error e⟩) ∨
    ∃ invoice payment, node.parseInvoice invoiceStr = .ok invoice ∧
      payInvoice node invoiceStr amount = node.sendAndWait payment ∧
      payment.principal = amount.getD (invoice.amountMilliSatoshis.getD 0) := by
  unfold payInvoice
  cases node.parseInvoice invoiceStr with
  | error e => exact .inl ⟨_, rfl⟩
  | ok invoice =>
    cases amount with
    | some a => exact .inr ⟨invoice, _, rfl, rfl, rfl⟩
    | none => exact .inr ⟨invoice, _, rfl, rfl, rfl⟩

theorem payKeysend_cases (node : Node) (destPubkey : String) (amount : Nat) :
    (∃ e, payKeysend node destPubkey amount = ⟨none, .error e⟩) ∨
    ∃ payment, payKeysend node destPubkey amount = node.sendAndWait payment ∧ payment.principal = amount := by
  unfold payKeysend
  by_cases h0 : amount = 0
  · rw [if_pos h0]
    exact .inl ⟨_, rfl⟩
  · rw [if_neg h0]
    cases node.parsePubkey destPubkey with
    | error e => exact .inl ⟨_, rfl⟩
    | ok nodeId => exact .inr ⟨_, rfl, rfl⟩

theorem payOffer_cases (node : Node) (offerStr : String) (amount : Option Nat) (note : Option String) :
    (∃ e, payOffer node offerStr amount note = ⟨none, .error e⟩) ∨
    ∃ offer payment, node.parseOffer offerStr = .ok offer ∧
      payOffer node offerStr amount note = node.sendAndWait payment ∧
      payment.principal = offer.amountMsat.getD 0 := by
  unfold payOffer
  cases node.parseOffer offerStr with
  | error e => exact .inl ⟨_, rfl⟩
  | ok offer => exact .inr ⟨offer, _, rfl, rfl, rfl⟩

theorem payOnchain_cases (node : Node) (address : String) (sats : Nat) (feerate : Option Nat) :
    (∃ e, payOnchain node address sats feerate = ⟨none, .error e⟩) ∨
    ∃ addr txid, payOnchain node address sats feerate = ⟨some (.onchain addr sats, txid), .ok txid⟩ := by
  unfold payOnchain
  cases node.parseAddress address with
  | error e => exact .inl ⟨_, rfl⟩
  | ok addr =>
    simp only
    cases node.send (.onchain addr sats) with
    | error e => exact .inl ⟨_, rfl⟩
    | ok txid => exact .inr ⟨addr, txid, rfl⟩

theorem sendAndWait_ok {node : Node} {payment : Sent} {r : LdkPaymentResult}
    (h : (node.sendAndWait payment).result = .ok r) :
    ∃ id, (node.sendAndWait payment).sent = some (payment, id) := by
  unfold Node.sendAndWait at h ⊢
  cases hs : node.send payment with
  | error e => rw [hs] at h; cases h
  | ok id => exact ⟨id, rfl⟩

theorem principal_payKeysend {node : Node} {destPubkey : String} {amount : Nat} {r : LdkPaymentResult}
    (h : (payKeysend node destPubkey amount).result = .ok r) :
    ∃ s id, (payKeysend node destPubkey amount).sent = some (s, id) ∧ s.principal = amount := by
  rcases payKeysend_cases node destPubkey amount with ⟨e, he⟩ | ⟨payment, hpay, hprin⟩
  · rw [he] at h; cases h
  · rw [hpay] at h ⊢
    obtain ⟨id, hs⟩ := sendAndWait_ok h
    exact ⟨payment, id, hs, hprin⟩

theorem principal_payOnchain {node : Node} {address : String} {sats : Nat} {feerate : Option Nat} {txid : String}
    (h : (payOnchain node address sats feerate).result = .ok txid) :
    ∃ s id, (payOnchain node address sats feerate).sent = some (s, id) ∧ s.principal = 1000 * sats := by
  rcases payOnchain_cases node address sats feerate with ⟨e, he⟩ | ⟨addr, id, hpay⟩
  · rw [he] at h; cases h
  · rw [hpay]
    exact ⟨_, id, rfl, rfl⟩

theorem respond_ok {α : Type} {attempt : Attempt α} {operation : String} {f : α → Response} {response : Response}
    (h : (attempt.respond operation f).result = .ok response) : ∃ r, attempt.result = .ok r := by
  unfold Attempt.respond at h
  cases hr : attempt.result with
  | ok r => exact ⟨r, rfl⟩
  | error e => simp only [hr] at h; cases h

/-! ## Which handler runs -/

def RequestParams.pays : RequestParams → Bool
  | .payInvoice _ | .payKeysend _ | .payOnchain _ | .payOffer _ | .payBip321 _ => true
  | _ => false

theorem exactParams_ok {p : RequestParams} {name : String} {request : Request}
    (h : exactParams p name request = .ok ()) : request.params = p := by
  unfold exactParams at h
  by_cases hp : request.params = p
  · exact hp
  · rw [if_pos hp] at h; cases h

/-- A validated request has the params of its method, and only the handlers that pay send anything. -/
theorem handler_cases {env : Env} {request : Request} {handler : Handler}
    (hh : requestHandlers request.method = some handler) (hval : handler.validate env request = .ok ()) :
    (handler = payInvoiceHandler ∧ ∃ p, request.params = .payInvoice p) ∨
    (handler = payKeysendHandler ∧ ∃ p, request.params = .payKeysend p) ∨
    (handler = payOnchainHandler ∧ ∃ p, request.params = .payOnchain p) ∨
    (handler = payOfferHandler ∧ ∃ p, request.params = .payOffer p) ∨
    (handler = payBip321Handler ∧ ∃ uri, request.params = .payBip321 uri) ∨
    (request.params.pays = false ∧
      ∀ (env : Env) (backend : Backend) (caller : String), (handler.execute env backend request caller).sent = none) := by
  cases hm : request.method <;> rw [hm] at hh
  case subscribeNotifications => cases hh
  case unknown => cases hh
  case payInvoice =>
    obtain rfl := Option.some.inj hh
    simp only [payInvoiceHandler] at hval
    split at hval
    · rename_i p hp; exact .inl ⟨rfl, p, hp⟩
    · cases hval
  case payKeysend =>
    obtain rfl := Option.some.inj hh
    simp only [payKeysendHandler] at hval
    split at hval
    · rename_i p hp; exact .inr (.inl ⟨rfl, p, hp⟩)
    · cases hval
  case payOnchain =>
    obtain rfl := Option.some.inj hh
    simp only [payOnchainHandler] at hval
    split at hval
    · rename_i p hp; exact .inr (.inr (.inl ⟨rfl, p, hp⟩))
    · cases hval
  case payOffer =>
    obtain rfl := Option.some.inj hh
    simp only [payOfferHandler] at hval
    split at hval
    · rename_i p hp; exact .inr (.inr (.inr (.inl ⟨rfl, p, hp⟩)))
    · cases hval
  case payBip321 =>
    obtain rfl := Option.some.inj hh
    simp only [payBip321Handler] at hval
    split at hval
    · rename_i uri hp; exact .inr (.inr (.inr (.inr (.inl ⟨rfl, uri, hp⟩))))
    · cases hval
  case getInfo | getBalance | makeNewAddress | estimateOnchainFees =>
    obtain rfl := Option.some.inj hh
    refine .inr (.inr (.inr (.inr (.inr ⟨?_, fun _ _ _ => rfl⟩))))
    rw [exactParams_ok hval]; rfl
  all_goals
    obtain rfl := Option.some.inj hh
    refine .inr (.inr (.inr (.inr (.inr ⟨?_, fun _ _ _ => rfl⟩))))
    simp only [makeInvoiceHandler, lookupInvoiceHandler, listTransactionsHandler, makeHoldInvoiceHandler,
      cancelHoldInvoiceHandler, settleHoldInvoiceHandler, makeOfferHandler, lookupOfferHandler,
      lookupAddressHandler, listInvoicesHandler, listOffersHandler, disableOfferHandler, listAddressesHandler,
      makeBip321Handler, estimateRoutingFeesHandler] at hval
    split at hval
    · rename_i hp; rw [hp]; rfl
    · cases hval

/-! ## The charge -/

def quotaDebit (us : List StateUpdateRequest) : Nat :=
  ((us.find? fun u => u.context = .quota).map (·.amount)).getD 0

theorem quotaDebit_of_ok {env : Env} {s : Stores} {request : Request} {caller : String} {profile : UsageProfile}
    {rule : RateLimitRule} {us : List StateUpdateRequest} (hprof : s.getUsageProfile caller = some profile)
    (hquota : profile.quota = some rule) (h : prepareUpdates env s request caller = .ok us) :
    ∃ spend, requestSpendMsat env request = (.ok spend : Outcome Response _) ∧ quotaDebit us = spend.getD 0 := by
  obtain ⟨profile', mr, spend, rate, quota, hp, _, hr, hs, hq, rfl⟩ := prepareUpdates_eq_ok.mp h
  obtain rfl := Option.some.inj (hprof.symm.trans hp)
  refine ⟨spend, hs, ?_⟩
  have hquotaPart : quotaDebit quota = spend.getD 0 := by
    rcases quotaUpdates_eq_ok.mp hq with ⟨h0 | hnone, rfl⟩ | ⟨rule', cell, _, _, _, rfl⟩
    · rw [h0]; rfl
    · rw [hquota] at hnone; cases hnone
    · rfl
  rcases accessRateUpdates_eq_ok.mp hr with ⟨_, rfl⟩ | ⟨_, _, _, _, rfl⟩
  · exact hquotaPart
  · exact hquotaPart

theorem quotaDebit_le {a : AccessState} {now : Nat} {us : List StateUpdateRequest} (h : Covered a now us) :
    (quotaDebit us : Int) ≤ i64Max := by
  unfold quotaDebit
  cases hf : us.find? fun u => u.context = .quota with
  | none => exact (by decide : (0 : Int) ≤ i64Max)
  | some u => exact (h u (List.mem_of_find?_eq_some hf)).2.1

theorem toMsat_eq_ok {ε : Type} {env : Env} {sats msat : Nat} :
    env.toMsat sats = (.ok msat : Outcome ε Nat) ↔ env.build.mulU64 sats 1000 = some msat := by
  unfold Env.toMsat
  cases env.build.mulU64 sats 1000 with
  | none => simp
  | some m => simp

/-! ## Where the two agree -/

def UriCharged (node : Node) (uri : Bip321Uri) : Prop :=
  match uri.lightning with
  | invoiceStr :: _ =>
    uri.amount.isSome = true ∨
      ∀ invoice, node.parseInvoice invoiceStr = .ok invoice → invoice.amountMilliSatoshis.getD 0 = 0
  | [] =>
    match uri.lno with
    | offerStr :: _ =>
      ∀ offer, node.parseOffer offerStr = .ok offer →
        offer.amountMsat.getD 0 ≤ uri.amount.getD 0 * 1000 % 2 ^ 64
    | [] => ∀ sats, uri.amount = some sats → sats * 1000 ≤ u64Max

/-- The amount that decides the payment is one that the charge is computed from. -/
def ChargedInFull (env : Env) (backend : Backend) (request : Request) : Prop :=
  match backend.service, request.params with
  | some node, .payInvoice params =>
    params.amount.isSome = true ∨
      ∀ invoice, node.parseInvoice params.invoice = .ok invoice → invoice.amountMilliSatoshis.getD 0 = 0
  | some node, .payOffer params =>
    ∀ offer, node.parseOffer params.offer = .ok offer → offer.amountMsat.getD 0 ≤ params.amount.getD 0
  | some node, .payBip321 uriStr => ∀ uri, env.parseBip321 uriStr = .ok uri → UriCharged node uri
  | _, _ => True

theorem getD_le_getD_zero_iff {amount : Option Nat} {own : Nat} :
    amount.getD own ≤ amount.getD 0 ↔ amount.isSome = true ∨ own = 0 := by
  cases amount with
  | none => simp
  | some a => simp

theorem payInvoice_charged {node : Node} {invoiceStr : String} {amount : Option Nat} {r : LdkPaymentResult}
    (h : (payInvoice node invoiceStr amount).result = .ok r) :
    ∃ s id, (payInvoice node invoiceStr amount).sent = some (s, id) ∧
      (s.principal ≤ amount.getD 0 ↔ amount.isSome = true ∨
        ∀ invoice, node.parseInvoice invoiceStr = .ok invoice → invoice.amountMilliSatoshis.getD 0 = 0) := by
  rcases payInvoice_cases node invoiceStr amount with ⟨e, he⟩ | ⟨invoice, payment, hi, hpay, hprin⟩
  · rw [he] at h; cases h
  · rw [hpay] at h ⊢
    obtain ⟨id, hs⟩ := sendAndWait_ok h
    refine ⟨payment, id, hs, ?_⟩
    rw [hprin, getD_le_getD_zero_iff, hi]
    simp only [Except.ok.injEq, forall_eq']

theorem payOffer_charged {node : Node} {offerStr : String} {amount : Option Nat} {note : Option String}
    {r : LdkPaymentResult} (h : (payOffer node offerStr amount note).result = .ok r) (charge : Nat) :
    ∃ s id, (payOffer node offerStr amount note).sent = some (s, id) ∧
      (s.principal ≤ charge ↔
        ∀ offer, node.parseOffer offerStr = .ok offer → offer.amountMsat.getD 0 ≤ charge) := by
  rcases payOffer_cases node offerStr amount note with ⟨e, he⟩ | ⟨offer, payment, ho, hpay, hprin⟩
  · rw [he] at h; cases h
  · rw [hpay] at h ⊢
    obtain ⟨id, hs⟩ := sendAndWait_ok h
    refine ⟨payment, id, hs, ?_⟩
    rw [hprin, ho]
    simp only [Except.ok.injEq, forall_eq']

theorem mul_le_mod_iff (sats : Nat) : 1000 * sats ≤ sats * 1000 % 2 ^ 64 ↔ sats * 1000 ≤ u64Max := by
  unfold u64Max
  omega

theorem payUri_charged {node : Node} {uri : Bip321Uri} {amount : Option Nat} {response : Response}
    (hamount : amount = uri.amount.map fun sats => sats * 1000 % 2 ^ 64)
    (h : (payUri node uri amount).result = .ok response) :
    ∃ s id, (payUri node uri amount).sent = some (s, id) ∧ (s.principal ≤ amount.getD 0 ↔ UriCharged node uri) := by
  unfold payUri at h ⊢
  unfold UriCharged
  cases hl : uri.lightning with
  | cons invoiceStr rest =>
    rw [hl] at h
    obtain ⟨r, hr⟩ := respond_ok h
    obtain ⟨s, id, hs, hiff⟩ := payInvoice_charged hr
    refine ⟨s, id, hs, ?_⟩
    have hsome : amount.isSome = uri.amount.isSome := by rw [hamount, Option.isSome_map]
    rw [← hsome]
    exact hiff
  | nil =>
    rw [hl] at h
    cases hn : uri.lno with
    | cons offerStr rest =>
      rw [hn] at h
      obtain ⟨r, hr⟩ := respond_ok h
      obtain ⟨s, id, hs, hiff⟩ := payOffer_charged hr (amount.getD 0)
      refine ⟨s, id, hs, ?_⟩
      have hcharge : amount.getD 0 = uri.amount.getD 0 * 1000 % 2 ^ 64 := by
        rw [hamount]
        cases uri.amount <;> rfl
      rw [← hcharge]
      exact hiff
    | nil =>
      rw [hn] at h
      simp only at h ⊢
      cases ha : uri.address.isSome with
      | false => rw [ha] at h; cases h
      | true =>
        rw [ha] at h
        cases hsats : uri.amount with
        | none => rw [hsats] at h; cases h
        | some sats =>
          cases haddr : uri.addressStr with
          | none => rw [hsats, haddr] at h; cases h
          | some addr =>
            rw [hsats, haddr] at h
            obtain ⟨txid, hr⟩ := respond_ok h
            obtain ⟨s, id, hs, hprin⟩ := principal_payOnchain hr
            refine ⟨s, id, hs, ?_⟩
            rw [hprin, hamount, hsats, Option.map_some, Option.getD_some, mul_le_mod_iff]
            simp only [Option.some.injEq, forall_eq']

theorem executeRequest_ok {env : Env} {backend : Backend} {handler : Handler} {request : Request} {caller : String}
    {response : Response} (h : (executeRequest env backend handler request caller).2 = .ok response) :
    (executeRequest env backend handler request caller).1 = (handler.execute env backend request caller).sent ∧
      (handler.execute env backend request caller).result = .ok response := by
  unfold executeRequest at h ⊢
  by_cases hf : request.method ∈ backend.forcedExecuteFailures
  · rw [if_pos hf] at h; cases h
  · rw [if_neg hf] at h ⊢
    simp only at h
    refine ⟨rfl, ?_⟩
    cases hr : (handler.execute env backend request caller).result with
    | ok r => rw [hr] at h; exact congrArg Outcome.ok (Except.ok.inj h)
    | err e => rw [hr] at h; cases h
    | panic => rw [hr] at h; cases h

theorem forall_sent_iff {sent : Option (Sent × String)} {s : Sent} {id : String} {charge : Nat}
    (h : sent = some (s, id)) :
    (∀ s' id', sent = some (s', id') → s'.principal ≤ charge) ↔ s.principal ≤ charge := by
  subst h
  simp only [Option.some.injEq, Prod.mk.injEq, and_imp, forall_eq', forall_apply_eq_imp_iff]

theorem forall_sent_none {charge : Nat} :
    ∀ s' id', (none : Option (Sent × String)) = some (s', id') → s'.principal ≤ charge := by
  intro _ _ h; cases h

/-! ## One execution -/

section
variable {env : Env} {backend : Backend} {request : Request} {handler : Handler} {caller : String}

theorem chargedInFull_of_no_service (hn : backend.service = none) : ChargedInFull env backend request := by
  unfold ChargedInFull
  rw [hn]
  trivial

theorem chargedInFull_of_not_pays (hpays : request.params.pays = false) : ChargedInFull env backend request := by
  unfold ChargedInFull
  cases hp : request.params <;> rw [hp] at hpays <;> cases hpays <;> cases backend.service <;> trivial

theorem sent_of_no_service (hh : requestHandlers request.method = some handler)
    (hval : handler.validate env request = .ok ()) (hn : backend.service = none) :
    (handler.execute env backend request caller).sent = none := by
  rcases handler_cases hh hval with
    ⟨rfl, p, hp⟩ | ⟨rfl, p, hp⟩ | ⟨rfl, p, hp⟩ | ⟨rfl, p, hp⟩ | ⟨rfl, uriStr, hp⟩ | ⟨_, hnone⟩
  · simp only [payInvoiceHandler, hn]
  · simp only [payKeysendHandler, hn]
  · simp only [payOnchainHandler, hn]
  · simp only [payOfferHandler, hn]
  · simp only [payBip321Handler, hn]
  · exact hnone env backend caller

theorem payBip321_charged {node : Node} {uriStr : String} {response : Response} {spend : Option Nat}
    (hn : backend.service = some node) (hp : request.params = .payBip321 uriStr)
    (hres : (payBip321Handler.execute env backend request caller).result = .ok response)
    (hspend : requestSpendMsat env request = (.ok spend : Outcome Response _)) :
    ∃ s id, (payBip321Handler.execute env backend request caller).sent = some (s, id) ∧
      (s.principal ≤ spend.getD 0 ↔ ∀ uri, env.parseBip321 uriStr = .ok uri → UriCharged node uri) := by
  unfold requestSpendMsat at hspend
  simp only [payBip321Handler, hn, hp] at hres hspend ⊢
  cases hu : env.parseBip321 uriStr with
  | error e => rw [hu] at hres; cases hres
  | ok uri =>
    simp only [Except.ok.injEq, forall_eq']
    simp only [hu, Except.toOption, Option.bind_some] at hres hspend
    cases ha : uri.amount with
    | none =>
      rw [ha] at hres hspend
      obtain rfl := Outcome.ok.inj hspend
      exact payUri_charged (by rw [ha]; rfl) hres
    | some sats =>
      rw [ha] at hres hspend
      simp only [Outcome.bind_eq_ok] at hspend
      obtain ⟨msat, hm, hsp⟩ := hspend
      obtain rfl := Outcome.ok.inj hsp
      have hm' : env.toMsat sats = (.ok msat : Outcome NIP47Error Nat) := toMsat_eq_ok.mpr (toMsat_eq_ok.mp hm)
      simp only [hm'] at hres ⊢
      have hamount : some msat = uri.amount.map fun sats => sats * 1000 % 2 ^ 64 := by
        rw [ha, Build.mulU64_eq_mod (toMsat_eq_ok.mp hm)]; rfl
      exact payUri_charged hamount hres

theorem executed_charged_iff {response : Response} {spend : Option Nat}
    (hh : requestHandlers request.method = some handler) (hval : handler.validate env request = .ok ())
    (hres : (handler.execute env backend request caller).result = .ok response)
    (hspend : requestSpendMsat env request = (.ok spend : Outcome Response _))
    (hle : ((spend.getD 0 : Nat) : Int) ≤ i64Max) :
    (∀ s id, (handler.execute env backend request caller).sent = some (s, id) → s.principal ≤ spend.getD 0) ↔
      ChargedInFull env backend request := by
  cases hn : backend.service with
  | none =>
    rw [sent_of_no_service hh hval hn]
    exact iff_of_true forall_sent_none (chargedInFull_of_no_service hn)
  | some node => ?_
  rcases handler_cases hh hval with
    ⟨rfl, p, hp⟩ | ⟨rfl, p, hp⟩ | ⟨rfl, p, hp⟩ | ⟨rfl, p, hp⟩ | ⟨rfl, uriStr, hp⟩ | ⟨hpays, hnone⟩
  · unfold requestSpendMsat at hspend
    simp only [payInvoiceHandler, ChargedInFull, hn, hp] at hres hspend ⊢
    obtain rfl := Outcome.ok.inj hspend
    obtain ⟨r, hr⟩ := respond_ok hres
    obtain ⟨s, id, hs, hiff⟩ := payInvoice_charged hr
    exact (forall_sent_iff hs).trans hiff
  · unfold requestSpendMsat at hspend
    simp only [payKeysendHandler, ChargedInFull, hn, hp] at hres hspend ⊢
    obtain rfl := Outcome.ok.inj hspend
    obtain ⟨r, hr⟩ := respond_ok hres
    obtain ⟨s, id, hs, hprin⟩ := principal_payKeysend hr
    exact (forall_sent_iff hs).trans (iff_of_true (Nat.le_of_eq hprin) trivial)
  · unfold requestSpendMsat at hspend
    simp only [payOnchainHandler, ChargedInFull, hn, hp] at hres hspend ⊢
    obtain rfl := Outcome.ok.inj hspend
    obtain ⟨r, hr⟩ := respond_ok hres
    obtain ⟨s, id, hs, hprin⟩ := principal_payOnchain hr
    refine (forall_sent_iff hs).trans (iff_of_true ?_ trivial)
    -- a saturated charge would not have been admitted
    rw [hprin]
    simp only [Option.getD_some, satMulU64, u64Max, i64Max] at hle ⊢
    omega
  · unfold requestSpendMsat at hspend
    simp only [payOfferHandler, ChargedInFull, hn, hp] at hres hspend ⊢
    obtain rfl := Outcome.ok.inj hspend
    obtain ⟨r, hr⟩ := respond_ok hres
    obtain ⟨s, id, hs, hiff⟩ := payOffer_charged hr (p.amount.getD 0)
    exact (forall_sent_iff hs).trans hiff
  · obtain ⟨s, id, hs, hiff⟩ := payBip321_charged hn hp hres hspend
    unfold ChargedInFull
    simp only [hn, hp]
    exact (forall_sent_iff hs).trans hiff
  · rw [hnone]
    exact iff_of_true forall_sent_none (chargedInFull_of_not_pays hpays)

end

/-- **Spend quota.** Of a request that is admitted under a quota rule and executed, the principal is at most the quota
debit if and only if it is charged in full. -/
theorem principal_le_debit_iff {env : Env} {backend : Backend} {c : Controller} {now : Nat} {request : Request}
    {event : Event} {profile : UsageProfile} {rule : RateLimitRule} {us : List StateUpdateRequest}
    (hprof : c.getUsageProfile event.pubkey = some profile) (hquota : profile.quota = some rule)
    (hadm : (verifyAccess env c.toStores now request event).2 = .ok us)
    (hexec : (processNwcRequest env backend c now request event).exit = .executed) :
    (∀ s id, (processNwcRequest env backend c now request event).sent = some (s, id) →
        s.principal ≤ quotaDebit us) ↔ ChargedInFull env backend request := by
  obtain ⟨hp, hcov⟩ := verifyAccess_eq_ok.mp hadm
  obtain ⟨spend, hspend, hdebit⟩ := quotaDebit_of_ok hprof hquota hp
  have hle := quotaDebit_le hcov
  rw [processNwcRequest_of_ok hadm] at hexec ⊢
  rw [hdebit] at hle ⊢
  rcases processAdmitted_cases env backend { c with access := us.foldl (debit now) c.access } us request
      event.pubkey with
    ⟨hrej, _, _⟩ | ⟨hexit, _, _⟩ | ⟨handler, _, hh, hval, hsent, ⟨response, hres, _, _⟩ | ⟨_, _, hexit, _⟩⟩
  · rw [hexec] at hrej; cases hrej
  · rw [hexec] at hexit; cases hexit
  · obtain ⟨hfst, hok⟩ := executeRequest_ok hres
    rw [hsent, hfst]
    exact executed_charged_iff hh hval hok hspend hle
  · rw [hexec] at hexit; cases hexit

namespace Sample

/-- An invoice of 250000 sats, cut short. -/
def coffee : String := "lnbc2500u1pvjluez"

def node : Node where
  parseInvoice s := if s = coffee then .ok ⟨some 250000000⟩ else .error "invalid bech32 string"
  parseOffer _ := .error "invalid bech32 string"
  parsePubkey s := .ok s
  parseAddress s := .ok s
  send _ := .ok "payment-1"
  listPayments _ := [⟨"payment-1", .bolt11 (some [0, 1, 2]), some 0, .outbound, .succeeded⟩]
  elapsedNanos i := 100000000 * i
  sleep_le _ := Nat.le_refl _

def attached : Backend := { backend with service := some node }

end Sample

theorem principal_le_debit_stated_amount :
    (Sent.bolt11UsingAmount ⟨some 250000000⟩ 5000).principal ≤
      quotaDebit [⟨.quota Sample.alice, ⟨0, 10000⟩, 5000, .quota, ⟨.quota, 0⟩⟩] := by
  have hprof : Sample.controller.getUsageProfile Sample.event.pubkey = some Sample.quotaProfile := rfl
  have hsent : (processNwcRequest Sample.env Sample.attached Sample.controller 7
      ⟨.payInvoice, .payInvoice ⟨Sample.coffee, some 5000⟩⟩ Sample.event).sent =
        some (.bolt11UsingAmount ⟨some 250000000⟩ 5000, "payment-1") := by decide
  have hcharged : ChargedInFull Sample.env Sample.attached ⟨.payInvoice, .payInvoice ⟨Sample.coffee, some 5000⟩⟩ :=
    .inl rfl
  exact (principal_le_debit_iff hprof rfl (by decide) (by decide)).mpr hcharged _ _ hsent

/-- With a quota of 10000 msat, 250000 sats are sent for a debit of nothing. -/
theorem principal_le_debit_fails :
    ¬ ∀ (env : Env) (backend : Backend) (c : Controller) (now : Nat) (request : Request) (event : Event)
      (profile : UsageProfile) (rule : RateLimitRule) (us : List StateUpdateRequest),
      c.getUsageProfile event.pubkey = some profile → profile.quota = some rule →
      (verifyAccess env c.toStores now request event).2 = .ok us →
      (processNwcRequest env backend c now request event).exit = .executed →
      ∀ s id, (processNwcRequest env backend c now request event).sent = some (s, id) →
        s.principal ≤ quotaDebit us := by
  intro h
  have hle := h Sample.env Sample.attached Sample.controller 7 ⟨.payInvoice, .payInvoice ⟨Sample.coffee, none⟩⟩
    Sample.event Sample.quotaProfile ⟨0, 10000⟩ [] rfl rfl (by decide) (by decide)
    (.bolt11 ⟨some 250000000⟩) "payment-1" (by decide)
  revert hle
  decide

end LdkController
