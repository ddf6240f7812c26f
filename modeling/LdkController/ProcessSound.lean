import LdkController.AccessSound
import LdkController.Process

/-!
# The exits of `process_nwc_request`

A request that is turned away after its admission keeps its charge: nothing is
given back before the execution. So a rejected request is free exactly when it
is turned away by the admission itself, or was charged nothing.
-/

namespace LdkController

open Lib

/-! ## The exits -/

/-- The request gets past the checks that follow its admission. -/
def Accepted (env : Env) (request : Request) : Prop :=
  if request.method = .subscribeNotifications then
    ∃ types, request.params = .subscribeNotifications types ∧ ∀ t ∈ types, t ∈ knownNwcNotificationTypes
  else ∃ handler, requestHandlers request.method = some handler ∧ handler.validate env request = .ok ()

theorem find?_unknown {types known : List String} :
    (types.find? fun t => t ∉ known) = none ↔ ∀ t ∈ types, t ∈ known := by
  simp [List.find?_eq_none]

theorem handleNwcSubscribeNotifications_cases (c : Controller) (request : Request) (caller : String) :
    (∃ types, request.params = .subscribeNotifications types ∧ (∀ t ∈ types, t ∈ knownNwcNotificationTypes) ∧
      handleNwcSubscribeNotifications c request caller =
        (setSubscription c caller types, .ofResult .subscribeNotifications .subscribeNotifications)) ∨
    (¬ (∃ types, request.params = .subscribeNotifications types ∧ ∀ t ∈ types, t ∈ knownNwcNotificationTypes) ∧
      ∃ e, handleNwcSubscribeNotifications c request caller = (c, .ofError .subscribeNotifications e)) := by
  unfold handleNwcSubscribeNotifications
  cases request.params with
  | subscribeNotifications types =>
    cases hf : types.find? fun t => t ∉ knownNwcNotificationTypes with
    | none =>
      simp only [hf]
      exact .inl ⟨types, rfl, find?_unknown.mp hf, rfl⟩
    | some t =>
      simp only [hf]
      refine .inr ⟨?_, _, rfl⟩
      rintro ⟨_, he, hall⟩
      obtain rfl := RequestParams.subscribeNotifications.inj he
      rw [find?_unknown.mpr hall] at hf
      cases hf
  | _ => exact .inr ⟨fun ⟨_, h, _⟩ => (by cases h), _, rfl⟩

/-- **Inversion of the admitted branch.** The access store changes on the failed execution only. -/
theorem processAdmitted_cases (env : Env) (backend : Backend) (c : Controller) (us : List StateUpdateRequest)
    (request : Request) (caller : String) :
    ((processAdmitted env backend c us request caller).exit.rejected = true ∧ ¬ Accepted env request ∧
      (processAdmitted env backend c us request caller).controller.access = c.access ∧
      (processAdmitted env backend c us request caller).sent = none) ∨
    ((processAdmitted env backend c us request caller).exit = .subscribed ∧ Accepted env request ∧
      (processAdmitted env backend c us request caller).controller.access = c.access ∧
      (processAdmitted env backend c us request caller).sent = none) ∨
    ∃ handler, Accepted env request ∧ requestHandlers request.method = some handler ∧
      handler.validate env request = .ok () ∧
      (processAdmitted env backend c us request caller).sent =
        (executeRequest env backend handler request caller).1 ∧
      ((∃ response, (executeRequest env backend handler request caller).2 = .ok response ∧
          (processAdmitted env backend c us request caller).exit = .executed ∧
          (processAdmitted env backend c us request caller).controller = c) ∨
        ∃ e, (executeRequest env backend handler request caller).2 = .error e ∧
          (processAdmitted env backend c us request caller).exit = .failed ∧
          (processAdmitted env backend c us request caller).controller =
            { c with access := refundAppliedStateUpdates c.access us }) := by
  by_cases hsub : request.method = .subscribeNotifications
  · have hacc : Accepted env request ↔
        ∃ types, request.params = .subscribeNotifications types ∧ ∀ t ∈ types, t ∈ knownNwcNotificationTypes := by
      unfold Accepted
      rw [if_pos hsub]
    rw [hacc]
    unfold processAdmitted
    rw [if_pos hsub]
    rcases handleNwcSubscribeNotifications_cases c request caller with ⟨types, hparams, hknown, hres⟩ | ⟨hno, e, hres⟩
    · right; left
      rw [hres]
      exact ⟨rfl, ⟨types, hparams, hknown⟩, rfl, rfl⟩
    · left
      rw [hres]
      exact ⟨rfl, hno, rfl, rfl⟩
  · have hacc : Accepted env request ↔
        ∃ handler, requestHandlers request.method = some handler ∧ handler.validate env request = .ok () := by
      unfold Accepted
      rw [if_neg hsub]
    rw [hacc]
    unfold processAdmitted
    rw [if_neg hsub]
    cases hh : requestHandlers request.method with
    | none => exact .inl ⟨rfl, fun ⟨_, h, _⟩ => (by cases h), rfl, rfl⟩
    | some handler =>
      cases hv : handler.validate env request with
      | error e =>
        simp only [hv]
        left
        refine ⟨rfl, ?_, trivial, trivial⟩
        rintro ⟨_, h, hval⟩
        obtain rfl := Option.some.inj h
        rw [hv] at hval; cases hval
      | ok _ =>
        simp only [hv]
        right; right
        refine ⟨handler, ⟨handler, rfl, hv⟩, rfl, hv, ?_⟩
        cases hx : executeRequest env backend handler request caller with
        | mk sent result =>
          cases result with
          | ok response => exact ⟨rfl, .inl ⟨response, rfl, rfl, rfl⟩⟩
          | error e => exact ⟨rfl, .inr ⟨e, rfl, rfl, rfl⟩⟩

theorem processNwcRequest_of_ok {env : Env} {backend : Backend} {c : Controller} {now : Nat} {request : Request}
    {event : Event} {us : List StateUpdateRequest}
    (h : (verifyAccess env c.toStores now request event).2 = .ok us) :
    processNwcRequest env backend c now request event =
      processAdmitted env backend { c with access := us.foldl (debit now) c.access } us request event.pubkey := by
  have hfst := verifyAccess_of_ok h
  unfold processNwcRequest
  rw [← hfst]
  cases hv : verifyAccess env c.toStores now request event with
  | mk a o =>
    rw [hv] at h
    cases h
    rfl

theorem processNwcRequest_of_not_ok {env : Env} {backend : Backend} {c : Controller} {now : Nat} {request : Request}
    {event : Event} (h : ∀ us, (verifyAccess env c.toStores now request event).2 ≠ .ok us) :
    (processNwcRequest env backend c now request event).controller = c ∧
      ((processNwcRequest env backend c now request event).exit = .refused ∨
        (processNwcRequest env backend c now request event).exit = .panicked) ∧
      (processNwcRequest env backend c now request event).sent = none := by
  have hfst := verifyAccess_of_not_ok h
  unfold processNwcRequest
  cases hv : verifyAccess env c.toStores now request event with
  | mk a o =>
    rw [hv] at h hfst
    have ha : a = c.access := hfst
    subst ha
    cases o with
    | ok us => exact absurd rfl (h us)
    | err r => exact ⟨rfl, .inl rfl, rfl⟩
    | panic => exact ⟨rfl, .inr rfl, rfl⟩

theorem response_of_not_ok {env : Env} {backend : Backend} {c : Controller} {now : Nat} {request : Request}
    {event : Event} (h : ∀ us, (verifyAccess env c.toStores now request event).2 ≠ .ok us) :
    (processNwcRequest env backend c now request event).response.any (·.error.isNone) = false := by
  unfold processNwcRequest
  cases hv : verifyAccess env c.toStores now request event with
  | mk a o =>
    rw [hv] at h
    cases o with
    | ok us => exact absurd rfl (h us)
    | panic => rfl
    | err r =>
      obtain ⟨e, rfl⟩ := verifyAccess_err (by rw [hv])
      rfl

/-- A control request changes nothing but subscriptions. -/
theorem processControlRequest_frame (other : ControlRequest → String → ControlResponse) (c : Controller)
    (request : ControlRequest) (caller : String) :
    ∃ subscriptions, (processControlRequest other c request caller).1 = { c with subscriptions := subscriptions } := by
  unfold processControlRequest
  repeat' split
  all_goals exact ⟨_, rfl⟩

theorem stores_processControlRequest (other : ControlRequest → String → ControlResponse) (c : Controller)
    (request : ControlRequest) (caller : String) :
    (processControlRequest other c request caller).1.toStores = c.toStores := by
  obtain ⟨subscriptions, h⟩ := processControlRequest_frame other c request caller
  rw [h]

/-! ## What a rejected request costs -/

/-- The charge of every update is what its bucket has refilled since it was written. -/
def Neutral (a : AccessState) (now : Nat) (us : List StateUpdateRequest) : Prop :=
  ∀ u ∈ us, (a.read u.state).refilled now u.rule - u.amount = (a.read u.state).balance

theorem charged_eq_iff (now : Nat) (a : AccessState) (u : StateUpdateRequest) :
    charged now a u = a.read u.state ↔ (a.read u.state).refilled now u.rule - u.amount = (a.read u.state).balance := by
  unfold charged
  constructor
  · intro h
    exact congrArg RateState.balance h
  · intro h
    rw [h]

theorem debitEach_of_neutral {now : Nat} {a : AccessState} {us : List StateUpdateRequest} (h : Neutral a now us) :
    us.foldl (debit now) a = a := by
  induction us with
  | nil => rfl
  | cons u us ih =>
    have hu : debit now a u = a := by
      unfold debit
      rw [(charged_eq_iff now a u).mpr (h u List.mem_cons_self), AccessState.write_read_self]
    rw [List.foldl_cons, hu]
    exact ih fun v hv => h v (List.mem_cons_of_mem u hv)

theorem debitEach_eq_iff {now : Nat} {a : AccessState} {us : List StateUpdateRequest}
    (hne : us.Pairwise fun u v => u.state ≠ v.state) : us.foldl (debit now) a = a ↔ Neutral a now us := by
  constructor
  · intro h u hu
    have hread := read_debitEach now hne hu a
    rw [h] at hread
    exact (charged_eq_iff now a u).mp hread.symm
  · exact debitEach_of_neutral

/-- **Cost of a rejected request.** An error without an execution leaves every rate state as it was if and only if the
request passes the checks that follow its admission, or is not admitted, or each charge was neutral. -/
theorem rejected_free_iff (env : Env) (backend : Backend) (c : Controller) (now : Nat) (request : Request)
    (event : Event) :
    ((processNwcRequest env backend c now request event).exit.rejected = true →
        (processNwcRequest env backend c now request event).controller.access = c.access) ↔
      (Accepted env request ∨ ∀ us, prepareUpdates env c.toStores request event.pubkey = .ok us →
        Covered c.access now us → Neutral c.access now us) := by
  by_cases hok : ∃ us, (verifyAccess env c.toStores now request event).2 = .ok us
  · obtain ⟨us, hv⟩ := hok
    obtain ⟨hp, hcov⟩ := verifyAccess_eq_ok.mp hv
    have hneutral : (∀ us', prepareUpdates env c.toStores request event.pubkey = .ok us' →
        Covered c.access now us' → Neutral c.access now us') ↔ us.foldl (debit now) c.access = c.access := by
      rw [debitEach_eq_iff (states_pairwise_ne hp)]
      refine ⟨fun h => h us hp hcov, fun h us' hp' _ => ?_⟩
      rw [hp] at hp'
      cases hp'
      exact h
    rw [processNwcRequest_of_ok hv, hneutral]
    rcases processAdmitted_cases env backend { c with access := us.foldl (debit now) c.access } us request
        event.pubkey with
      ⟨hrej, hacc, haccess, _⟩ | ⟨hexit, hacc, _⟩ |
      ⟨handler, hacc, _, _, _, ⟨_, _, hexit, _⟩ | ⟨_, _, hexit, _⟩⟩
    · rw [haccess, or_iff_right hacc]
      exact ⟨fun h => h hrej, fun h _ => h⟩
    -- the other exits are no rejections
    all_goals exact iff_of_true (fun hr => by rw [hexit] at hr; cases hr) (.inl hacc)
  · have hno : ∀ us, (verifyAccess env c.toStores now request event).2 ≠ .ok us := fun us hv => hok ⟨us, hv⟩
    apply iff_of_true
    · intro _
      rw [(processNwcRequest_of_not_ok hno).1]
    · right
      intro us hp hcov
      exact absurd (verifyAccess_eq_ok.mpr ⟨hp, hcov⟩) (hno us)

namespace Sample

def backend : Backend := ⟨none, [], "task 1 panicked", fun _ _ => .err ⟨.other, "not available"⟩⟩

def quotaProfile : UsageProfile := ⟨some ⟨0, 10000⟩, none, none⟩

def controller : Controller :=
  { Controller.init none with toStores := Stores.empty.upsertUsageProfileAndResetStates alice quotaProfile 0 }

end Sample

/-- A payment without an invoice is refused by its handler and keeps 1000 msat of the quota. -/
theorem rejected_free_fails :
    ¬ ∀ (env : Env) (backend : Backend) (c : Controller) (now : Nat) (request : Request) (event : Event),
      (processNwcRequest env backend c now request event).exit.rejected = true →
        (processNwcRequest env backend c now request event).controller.access = c.access := by
  intro h
  have hfree := h Sample.env Sample.backend Sample.controller 7 ⟨.payInvoice, .payInvoice ⟨"", some 1000⟩⟩
    Sample.event (by decide)
  have hat := congrArg (fun a => a.quota.at? (.quota Sample.alice)) hfree
  revert hat
  decide

end LdkController
