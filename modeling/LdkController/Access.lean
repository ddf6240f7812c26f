import LdkController.FixedWidth
import LdkController.Outcome
import LdkController.UsageProfile
import Mathlib.Data.List.Sort

/-!
# Access to the wallet

`src/lib.rs`: how a request is admitted and charged (`verify_access`), how a
charge is given back, and who may call a control method. A function that
changes rate states gives the store it leaves behind next to its result. No
critical section panics, so the locks are never poisoned.
-/

namespace LdkController

open Lib

/-- What `bip321::Uri` holds; the amount is in satoshis. -/
structure Bip321Uri where
  amount : Option Nat
  lightning : List String
  lno : List String
  address : Option String
  addressStr : Option String
deriving DecidableEq, Repr

/-- How the service was built, and the parser it uses for payment URIs. -/
structure Env where
  build : Build
  parseBip321 : String → Except String Bip321Uri

def Env.toMsat {ε : Type} (env : Env) (sats : Nat) : Outcome ε Nat :=
  match env.build.mulU64 sats 1000 with
  | none => .panic
  | some msat => .ok msat

structure StateUpdateRequest where
  key : AccessKey
  rule : RateLimitRule
  amount : Nat
  context : AccessErrorContext
  state : SharedRateState
deriving DecidableEq, Repr

def compareAccessKeys : AccessKey → AccessKey → Ordering
  | .method ap am, .method bp bm => (compare ap bp).then (compare am.asStr bm.asStr)
  | .method _ _, .quota _ => .lt
  | .quota _, .method _ _ => .gt
  | .quota ap, .quota bp => compare ap bp

/-! ## Responses -/

def accessDeniedResponse (method : Method) : Response :=
  .ofError method ⟨.restricted, "access denied, insufficient permission"⟩

def unauthorizedResponse (method : Method) : Response := .ofError method ⟨.unauthorized, "unauthorized"⟩

def mapRateStateError (error : RateStateError) (context : AccessErrorContext) : NIP47Error :=
  match error with
  | .insufficientBalance =>
    match context with
    | .accessRate => ⟨.rateLimited, "rate limit exceeded"⟩
    | .quota => ⟨.quotaExceeded, "quota exceeded"⟩
  | .amountTooLarge _ => ⟨.other, "invalid amount: exceeds i64::MAX"⟩
  | .invalidRule _ => ⟨.other, "invalid rate limit rule"⟩
  | .internalInvariantViolation => ⟨.other, "internal rate state error"⟩

def rateStateErrorResponse (method : Method) (error : RateStateError) (context : AccessErrorContext) : Response :=
  .ofError method (mapRateStateError error context)

def missingStateResponse (method : Method) (context : AccessErrorContext) : Response :=
  match context with
  | .accessRate => .ofError method ⟨.other, "missing access rate state"⟩
  | .quota => .ofError method ⟨.other, "missing quota state"⟩

/-! ## Admitting a request: `verify_access`, phase by phase -/

def requestSpendMsat {ε : Type} (env : Env) (request : Request) : Outcome ε (Option Nat) :=
  match request.params with
  | .payInvoice params => .ok params.amount
  | .payKeysend params => .ok (some params.amount)
  | .payOnchain params => .ok (some (satMulU64 params.amountSats 1000))
  | .payOffer params => .ok params.amount
  | .payBip321 uri =>
    match (env.parseBip321 uri).toOption.bind (·.amount) with
    | none => .ok none
    | some sats => do return some (← env.toMsat sats)
  | _ => .ok none

def authorizeMethod (profile : UsageProfile) (method : Method) : Outcome Response (Option MethodAccessRule) :=
  match profile.methods with
  | none => .ok none
  | some methods =>
    if methods.entries.isEmpty then .err (accessDeniedResponse method)
    else
      match methods.lookup method with
      | some rule => .ok (some rule)
      | none =>
        match methods.lookup Method.all with
        | some rule => .ok (some rule)
        | none => .err (accessDeniedResponse method)

def accessRateUpdates (a : AccessState) (request : Request) (callerPubkey : String)
    (methodRule : Option MethodAccessRule) : Outcome Response (List StateUpdateRequest) :=
  match methodRule.bind (·.accessRate) with
  | none => .ok []
  | some rule => do
    let key := AccessKey.method callerPubkey request.method
    let state ← Outcome.okOr (a.getAccessRateState key) (missingStateResponse request.method .accessRate)
    return [⟨key, rule, 1000000, .accessRate, state⟩]

def quotaUpdates (a : AccessState) (request : Request) (callerPubkey : String) (profile : UsageProfile)
    (amountMsat : Nat) : Outcome Response (List StateUpdateRequest) :=
  if 0 < amountMsat then
    match profile.quota with
    | none => .ok []
    | some rule => do
      let key := AccessKey.quota callerPubkey
      let state ← Outcome.okOr (a.getQuotaState key) (missingStateResponse request.method .quota)
      return [⟨key, rule, amountMsat, .quota, state⟩]
  else .ok []

def prepareUpdates (env : Env) (s : Stores) (request : Request) (callerPubkey : String) :
    Outcome Response (List StateUpdateRequest) := do
  let profile ← Outcome.okOr (s.getUsageProfile callerPubkey) (unauthorizedResponse request.method)
  let methodRule ← authorizeMethod profile request.method
  let rate ← accessRateUpdates s.access request callerPubkey methodRule
  let amountMsat ← requestSpendMsat env request
  let quota ← quotaUpdates s.access request callerPubkey profile (amountMsat.getD 0)
  -- one lock order for all requests
  return (rate ++ quota).insertionSort fun a b => (compareAccessKeys a.key b.key).isLE

def checkAll (a : AccessState) (method : Method) (now : Nat) : List StateUpdateRequest → Outcome Response Unit
  | [] => .ok ()
  | u :: us =>
    match (a.read u.state).checkWithdrawAfterRefill u.amount now u.rule with
    | .error e => .err (rateStateErrorResponse method e u.context)
    | .ok _ => checkAll a method now us

def debitAll (method : Method) (now : Nat) :
    AccessState → List StateUpdateRequest → AccessState × Outcome Response Unit
  | a, [] => (a, .ok ())
  | a, u :: us =>
    match (a.read u.state).withdrawAfterRefill u.amount now u.rule with
    | (state, .error e) => (a.write u.state state, .err (rateStateErrorResponse method e u.context))
    | (state, .ok _) => debitAll method now (a.write u.state state) us

/-- `now` is the time that `verify_access` reads. -/
def verifyAccess (env : Env) (s : Stores) (now : Nat) (request : Request) (event : Event) :
    AccessState × Outcome Response (List StateUpdateRequest) :=
  match prepareUpdates env s request event.pubkey with
  | .err response => (s.access, .err response)
  | .panic => (s.access, .panic)
  | .ok updates =>
    match checkAll s.access request.method now updates with
    | .err response => (s.access, .err response)
    | .panic => (s.access, .panic)
    | .ok _ =>
      match debitAll request.method now s.access updates with
      | (a, .err response) => (a, .err response)
      | (a, .panic) => (a, .panic)
      | (a, .ok _) => (a, .ok updates)

def refundAppliedStateUpdates (a : AccessState) (updates : List StateUpdateRequest) : AccessState :=
  updates.foldl (fun a u => a.write u.state ((a.read u.state).refund u.amount u.rule).1) a

/-! ## Control methods -/

structure ControlError where
  code : String
  message : String
deriving DecidableEq, Repr

def authorizeControlMethod (s : Stores) (callerPubkey method : String) : Except ControlError Unit :=
  match s.getUsageProfile callerPubkey with
  | none => .error ⟨"UNAUTHORIZED", "unauthorized"⟩
  | some profile =>
    match profile.control with
    | none => .error ⟨"RESTRICTED", "control access denied, missing control permissions"⟩
    | some controlMethods =>
      if controlMethods.entries.isEmpty ∨ (method ∉ controlMethods ∧ "ALL" ∉ controlMethods) then
        .error ⟨"RESTRICTED", "control access denied, insufficient permission"⟩
      else .ok ()

end LdkController
