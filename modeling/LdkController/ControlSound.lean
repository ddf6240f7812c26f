import LdkController.Machine
import LdkController.Process
import LdkController.ProcessSound

/-!
# Control methods have no rate

`authorize_control_method` looks at the names in the control map and never at
the rules beside them. What gets past it in a window is what was requested in
it, so a rate holds exactly when the caller keeps it.
-/

namespace LdkController.Control

open Lib

/-- The limit that the profile gives the method, directly or through `ALL`. -/
def limit (profile : UsageProfile) (method : String) : Option RateLimitRule :=
  profile.control.bind fun control =>
    match control.lookup method with
    | some rule => rule.accessRate
    | none => (control.lookup "ALL").bind (·.accessRate)

structure Call where
  now : Nat
  types : Except String (List String)

section
variable (other : ControlRequest → String → ControlResponse) (caller method : String)

def step (c : Controller) (call : Call) : Controller := (processControlRequest other c ⟨method, call.types⟩ caller).1

/-- The time of a request that gets past `authorize_control_method`. -/
def authorized (c : Controller) (call : Call) : Option Nat :=
  match authorizeControlMethod c.toStores caller method with
  | .ok _ => some call.now
  | .error _ => none

end

def within (s t : Nat) (times : List Nat) : Nat := times.countP fun now => s ≤ now ∧ now ≤ t

/-- In every window the times cost at most the capacity and what the rate adds to it, at a million tokens each. -/
def Keeps (rule : RateLimitRule) (times : List Nat) : Prop :=
  ∀ s t, s ≤ t → (1000000 * within s t times : Nat) ≤ rule.maxCapacity + rule.ratePerMicro * (t - s : Nat)

theorem authorizeControlMethod_of_limit {s : Stores} {caller method : String} {profile : UsageProfile}
    {rule : RateLimitRule} (hp : s.getUsageProfile caller = some profile) (hl : limit profile method = some rule) :
    authorizeControlMethod s caller method = .ok () := by
  obtain ⟨control, hc, hrule⟩ := Option.bind_eq_some_iff.mp hl
  have hmem : method ∈ control ∨ "ALL" ∈ control := by
    cases hm : control.lookup method with
    | some mr => exact .inl (AList.lookup_isSome.mp (by rw [hm]; rfl))
    | none =>
      simp only [hm] at hrule
      obtain ⟨mr, hall, _⟩ := Option.bind_eq_some_iff.mp hrule
      exact .inr (AList.lookup_isSome.mp (by rw [hall]; rfl))
  have hne : control.entries.isEmpty = false := by
    cases he : control.entries with
    | cons e l => rfl
    | nil =>
      have hkeys : control.keys = [] := by
        unfold AList.keys
        rw [he]
        rfl
      simp only [AList.mem_keys, hkeys, List.not_mem_nil, or_self] at hmem
  unfold authorizeControlMethod
  simp only [hp, hc, hne, Bool.false_eq_true, false_or]
  rw [if_neg fun h => hmem.elim h.1 h.2]

theorem answers_authorized (other : ControlRequest → String → ControlResponse) {caller method : String}
    {profile : UsageProfile} {rule : RateLimitRule} (hl : limit profile method = some rule) {calls : List Call}
    {c : Controller} (hp : c.getUsageProfile caller = some profile) :
    answers (step other caller method) (authorized caller method) c calls = calls.map (·.now) := by
  induction calls generalizing c with
  | nil => rfl
  | cons call calls ih =>
    have hp' : (step other caller method c call).getUsageProfile caller = some profile := by
      unfold step
      rw [stores_processControlRequest]
      exact hp
    have hauth : authorized caller method c call = some call.now := by
      unfold authorized
      rw [authorizeControlMethod_of_limit hp hl]
    rw [answers, ih hp', hauth]
    rfl

/-- **Control rates.** What gets past authorization keeps the limit of the method if and only if the requests do. -/
theorem control_rate_iff (other : ControlRequest → String → ControlResponse) {c : Controller} {caller method : String}
    {profile : UsageProfile} {rule : RateLimitRule} (hp : c.getUsageProfile caller = some profile)
    (hl : limit profile method = some rule) (calls : List Call) :
    Keeps rule (answers (step other caller method) (authorized caller method) c calls) ↔
      Keeps rule (calls.map (·.now)) := by
  rw [answers_authorized other hl hp]

namespace Sample

open LdkController.Sample

def rule : RateLimitRule := ⟨0, 1000000⟩

/-- One call of `open_channel`, ever. -/
def profile : UsageProfile := ⟨none, none, some (AList.singleton "open_channel" ⟨some rule⟩)⟩

def controller : Controller :=
  { Controller.init none with toStores := Stores.empty.upsertUsageProfileAndResetStates alice profile 0 }

def other : ControlRequest → String → ControlResponse := fun r _ => ⟨r.method, some "{}", none⟩

def calls : List Call := [⟨5, .error ""⟩, ⟨6, .error ""⟩]

/-- A call a second. -/
def steadyRule : RateLimitRule := ⟨1, 1000000⟩

def steadyProfile : UsageProfile := ⟨none, none, some (AList.singleton "open_channel" ⟨some steadyRule⟩)⟩

def steadyController : Controller :=
  { Controller.init none with toStores := Stores.empty.upsertUsageProfileAndResetStates alice steadyProfile 0 }

def steadyCalls : List Call := [⟨5, .error ""⟩, ⟨1000005, .error ""⟩, ⟨2000005, .error ""⟩]

end Sample

theorem control_rate_steady :
    Keeps Sample.steadyRule (answers (step Sample.other LdkController.Sample.alice "open_channel")
      (authorized LdkController.Sample.alice "open_channel") Sample.steadyController Sample.steadyCalls) := by
  have hp : Sample.steadyController.getUsageProfile LdkController.Sample.alice = some Sample.steadyProfile := rfl
  have hl : limit Sample.steadyProfile "open_channel" = some Sample.steadyRule := rfl
  refine (control_rate_iff Sample.other hp hl _).mpr ?_
  intro s t hst
  show ((1000000 * within s t [5, 1000005, 2000005] : Nat) : Int) ≤ 1000000 + (1 : Nat) * (t - s : Nat)
  simp only [within, List.countP_cons, List.countP_nil, decide_eq_true_eq]
  split_ifs <;> omega

theorem control_rate_fails :
    limit Sample.profile "open_channel" = some Sample.rule ∧
      ¬ Keeps Sample.rule (answers (step Sample.other LdkController.Sample.alice "open_channel")
        (authorized LdkController.Sample.alice "open_channel") Sample.controller Sample.calls) := by
  refine ⟨rfl, ?_⟩
  intro h
  have hboth := h 5 6 (by decide)
  revert hboth
  decide

end LdkController.Control
