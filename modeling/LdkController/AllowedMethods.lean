import LdkController.StoreSound

/-!
# Advertised and enforced methods

`src/lib.rs`: `allowed_methods_for` lists what `get_info` tells a caller it may
call. The permission rule is written out there a second time; a method is listed
exactly when `verify_access` does not turn it away for want of permission.
-/

namespace LdkController

open Lib

def supportedMethods : List Method :=
  [.getInfo, .getBalance, .payInvoice, .payKeysend, .makeInvoice, .lookupInvoice, .listTransactions,
    .makeHoldInvoice, .cancelHoldInvoice, .settleHoldInvoice, .payOnchain, .makeNewAddress, .payOffer, .makeOffer,
    .lookupOffer, .lookupAddress, .listInvoices, .listOffers, .disableOffer, .listAddresses, .payBip321,
    .makeBip321, .subscribeNotifications, .estimateOnchainFees, .estimateRoutingFees]

def allowedMethodsFor (s : Stores) (callerPubkey : String) : List Method :=
  match s.getUsageProfile callerPubkey with
  | none => []
  | some profile =>
    match profile.methods with
    | none => supportedMethods
    | some methods =>
      if methods.entries.isEmpty then []
      else if Method.all ∈ methods then supportedMethods
      else supportedMethods.filter (· ∈ methods)

def Response.denies (r : Response) : Prop :=
  ∃ e, r.error = some e ∧ (e.code = .unauthorized ∨ e.code = .restricted)

/-! ## What the store permits -/

def MethodPermitted (s : Stores) (callerPubkey : String) (m : Method) : Prop :=
  ∃ profile, s.getUsageProfile callerPubkey = some profile ∧ Store.Permits profile m

theorem permits_of_authorizeMethod {p : UsageProfile} {m : Method} {mr : Option MethodAccessRule}
    (h : authorizeMethod p m = .ok mr) : Store.Permits p m := by
  intro ms hms
  rcases authorizeMethod_eq_ok.mp h with ⟨hn, _⟩ | ⟨ms', mr', hms', _, hm | ⟨_, ha⟩⟩
  · rw [hn] at hms; cases hms
  · obtain rfl := Option.some.inj (hms'.symm.trans hms)
    exact .inl (AList.lookup_isSome.mp (by rw [hm]; rfl))
  · obtain rfl := Option.some.inj (hms'.symm.trans hms)
    exact .inr (AList.lookup_isSome.mp (by rw [ha]; rfl))

theorem mem_allowedMethodsFor {s : Stores} {caller : String} {m : Method} (hm : m ∈ supportedMethods) :
    m ∈ allowedMethodsFor s caller ↔ MethodPermitted s caller m := by
  unfold allowedMethodsFor MethodPermitted Store.Permits
  cases s.getUsageProfile caller with
  | none => simp
  | some profile =>
    simp only [Option.some.injEq, exists_eq_left']
    cases profile.methods with
    | none => simp [hm]
    | some ms =>
      simp only [Option.some.injEq, forall_eq']
      by_cases he : ms.entries.isEmpty
      · have hnone : ∀ k, k ∉ ms := by
          intro k hk
          have hkeys : k ∈ ms.entries.map (·.1) := hk
          rw [List.isEmpty_iff.mp he] at hkeys
          cases hkeys
        simp only [he, if_true, List.not_mem_nil, hnone, or_self]
      · by_cases ha : Method.all ∈ ms
        · simp only [he, Bool.false_eq_true, if_false, ha, if_true, hm, or_true]
        · simp only [he, Bool.false_eq_true, if_false, ha, List.mem_filter, hm, true_and, decide_eq_true_eq, or_false]

/-! ## What `verify_access` turns away -/

theorem not_denies_of_other {m : Method} {message : String} : ¬ (Response.ofError m ⟨.other, message⟩).denies := by
  rintro ⟨_, h, hcode⟩
  obtain rfl := Option.some.inj h
  rcases hcode with hcode | hcode <;> cases hcode

theorem not_denies_rateStateErrorResponse (m : Method) (e : RateStateError) (c : AccessErrorContext) :
    ¬ (rateStateErrorResponse m e c).denies := by
  cases e with
  | insufficientBalance =>
    rintro ⟨_, h, hcode⟩
    obtain rfl := Option.some.inj h
    cases c <;> rcases hcode with hcode | hcode <;> cases hcode
  | amountTooLarge | invalidRule | internalInvariantViolation => exact not_denies_of_other

theorem denies_accessDeniedResponse (m : Method) : (accessDeniedResponse m).denies := ⟨_, rfl, .inr rfl⟩

theorem not_denies_missingStateResponse (m : Method) (c : AccessErrorContext) :
    ¬ (missingStateResponse m c).denies := by
  cases c with
  | accessRate => exact not_denies_of_other
  | quota => exact not_denies_of_other

theorem denies_of_prepareUpdates {env : Env} {s : Stores} {request : Request} {caller : String} {r : Response}
    (h : prepareUpdates env s request caller = .err r) : r.denies ↔ ¬ MethodPermitted s caller request.method := by
  unfold prepareUpdates at h
  simp only [Outcome.bind_eq_err, Outcome.pure_eq, reduceCtorEq, and_false, exists_false, or_false] at h
  rcases h with h | ⟨profile, hp, h⟩
  · obtain ⟨hnone, rfl⟩ := Outcome.okOr_eq_err.mp h
    refine ⟨fun _ => ?_, fun _ => ⟨_, rfl, .inl rfl⟩⟩
    rintro ⟨profile, hp, _⟩
    rw [hnone] at hp; cases hp
  · have hp := Outcome.okOr_eq_ok.mp hp
    rcases h with h | ⟨mr, hmr, h⟩
    · refine ⟨fun _ => ?_, fun _ => authorizeMethod_err h ▸ denies_accessDeniedResponse _⟩
      rintro ⟨profile', hp', hperm⟩
      obtain rfl := Option.some.inj (hp.symm.trans hp')
      obtain ⟨mr, hmr⟩ := Store.authorizeMethod_of_permits hperm
      rw [h] at hmr; cases hmr
    · have hperm : MethodPermitted s caller request.method := ⟨profile, hp, permits_of_authorizeMethod hmr⟩
      refine ⟨fun hd => absurd hd ?_, fun hn => absurd hperm hn⟩
      rcases h with h | ⟨rate, _, h | ⟨spend, _, h⟩⟩
      · exact accessRateUpdates_err h ▸ not_denies_missingStateResponse _ _
      · exact absurd h (requestSpendMsat_ne_err env request r)
      · exact quotaUpdates_err h ▸ not_denies_missingStateResponse _ _

theorem permitted_of_prepareUpdates {env : Env} {s : Stores} {request : Request} {caller : String}
    (h : ∀ r, prepareUpdates env s request caller ≠ .err r) : MethodPermitted s caller request.method := by
  unfold prepareUpdates at h
  cases hp : s.getUsageProfile caller with
  | none =>
    rw [hp] at h
    exact absurd rfl (h _)
  | some profile =>
    rw [hp] at h
    cases hm : authorizeMethod profile request.method with
    | ok mr => exact ⟨profile, hp, permits_of_authorizeMethod hm⟩
    | panic => exact absurd hm (authorizeMethod_ne_panic profile request.method)
    | err r =>
      refine absurd ?_ (h r)
      show (authorizeMethod profile request.method >>= _) = _
      rw [hm]
      rfl

/-- **Advertised is enforced.** A supported method is listed for a caller exactly when
a request for it is not turned away as unauthorized or restricted. -/
theorem allowed_iff_enforced (env : Env) (s : Stores) (now : Nat) (request : Request) (event : Event)
    (hm : request.method ∈ supportedMethods) :
    request.method ∈ allowedMethodsFor s event.pubkey ↔
      ¬ ∃ r, (verifyAccess env s now request event).2 = .err r ∧ r.denies := by
  rw [mem_allowedMethodsFor hm]
  rcases verifyAccess_cases env s now request event with
    ⟨r, hp, hv⟩ | ⟨hp, hv⟩ | ⟨us, e, c, hp, _, hv⟩ | ⟨us, hp, _, hv⟩
  · have hd := denies_of_prepareUpdates hp
    rw [hv]
    simp only [Outcome.err.injEq, exists_eq_left', hd, not_not]
  · have hperm := permitted_of_prepareUpdates fun r hr => by rw [hp] at hr; cases hr
    simp only [hv, hperm, reduceCtorEq, false_and, exists_false, not_false_eq_true]
  · have hperm := permitted_of_prepareUpdates fun r hr => by rw [hp] at hr; cases hr
    simp only [hv, hperm, Outcome.err.injEq, exists_eq_left', not_denies_rateStateErrorResponse, not_false_eq_true]
  · have hperm := permitted_of_prepareUpdates fun r hr => by rw [hp] at hr; cases hr
    simp only [hv, hperm, reduceCtorEq, false_and, exists_false, not_false_eq_true]

theorem allowed_iff_enforced_get_info :
    let methods : Table Method MethodAccessRule := AList.singleton .getInfo ⟨none⟩
    let s : Stores := ⟨AList.singleton Sample.alice ⟨none, some methods, none⟩, .empty⟩
    Method.getInfo ∈ allowedMethodsFor s Sample.alice := by
  intro methods s
  refine (allowed_iff_enforced Sample.env s 7 ⟨.getInfo, .getInfo⟩ Sample.event (by decide)).mpr ?_
  rintro ⟨r, hr, _⟩
  have hok : (verifyAccess Sample.env s 7 ⟨.getInfo, .getInfo⟩ Sample.event).2.isOk = true := by decide
  rw [hr] at hok
  cases hok

end LdkController
