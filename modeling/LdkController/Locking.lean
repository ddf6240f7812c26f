import LdkController.Locks
import LdkController.UpdateRace

/-!
# The locks of the access store

`verify_access`, `refund_applied_state_updates` and the operations of the stores
(`src/lib.rs`, `src/state/store/access_store.rs`, `src/usage_profile/`) as the
threads run them: the profile map and the two maps of rate states are read and
written under a lock each, a rate state under its own. A map's lock is given
back before the next is taken; the states a request charges are locked together,
in the order of their keys.
-/

namespace LdkController.Locking

open Lib Lib.Locks

inductive LockId where
  | usageProfiles
  | map (context : AccessErrorContext)
  | state (state : SharedRateState)
deriving DecidableEq, Repr

/-- An error or a panic ends the program; what it holds then is given back before. -/
def Locked (ε α : Type) := Prog LockId Stores (Outcome ε α)

section
variable {ε α β : Type}

instance : Monad (Locked ε) where
  pure a := .done (.ok a)
  bind p f := Prog.bind p fun
    | .ok a => f a
    | .err e => .done (.err e)
    | .panic => .done .panic

def lift (x : Outcome ε α) : Locked ε α := .done x

/-- One access to a map; `expect` panics when the lock is poisoned. -/
def withMap (l : LockId) (mode : Mode) (f : Stores → Stores × α) : Locked ε α :=
  .acquire l mode fun poisoned =>
    if poisoned then .release l (.done .panic)
    else .act (fun s => (f s).1) fun s => .release l (.done (.ok (f s).2))

def readMap (l : LockId) (f : Stores → α) : Locked ε α := withMap l .shared fun s => (s, f s)

def writeMap (l : LockId) (f : Stores → Stores) : Locked ε Unit := withMap l .exclusive fun s => (f s, ())

/-! ## The stores -/

def getUsageProfile (pubkey : String) : Locked ε (Option UsageProfile) :=
  readMap .usageProfiles (·.getUsageProfile pubkey)

def upsertUsageProfile (targetPubkey : String) (profile : UsageProfile) : Locked ε Unit :=
  writeMap .usageProfiles fun s => { s with usageProfiles := s.usageProfiles.insert targetPubkey profile }

def clearUsageProfiles : Locked ε Unit := writeMap .usageProfiles fun s => { s with usageProfiles := ∅ }

def getAccessRateState (key : AccessKey) : Locked ε (Option SharedRateState) :=
  readMap (.map .accessRate) (·.access.getAccessRateState key)

def getQuotaState (key : AccessKey) : Locked ε (Option SharedRateState) :=
  readMap (.map .quota) (·.access.getQuotaState key)

def insertAccessRateState (key : AccessKey) (state : RateState) : Locked ε Unit :=
  writeMap (.map .accessRate) fun s => { s with access := s.access.insertAccessRateState key state }

def insertQuotaState (key : AccessKey) (state : RateState) : Locked ε Unit :=
  writeMap (.map .quota) fun s => { s with access := s.access.insertQuotaState key state }

def retainAccessRateStates (keep : AccessKey → Bool) : Locked ε Unit :=
  writeMap (.map .accessRate) fun s => { s with access := s.access.retainAccessRateStates keep }

def retainQuotaStates (keep : AccessKey → Bool) : Locked ε Unit :=
  writeMap (.map .quota) fun s => { s with access := s.access.retainQuotaStates keep }

def clearAccessRateStates : Locked ε Unit :=
  writeMap (.map .accessRate) fun s => { s with access := { s.access with accessRate := s.access.accessRate.clear } }

def clearQuotaStates : Locked ε Unit :=
  writeMap (.map .quota) fun s => { s with access := { s.access with quota := s.access.quota.clear } }

def clearAllStates : Locked ε Unit := do
  clearAccessRateStates
  clearQuotaStates

/-! ## The profile service -/

def clearStatesForPubkey (pubkey : String) : Locked ε Unit := do
  retainAccessRateStates fun key => !keyBelongsToPubkey key pubkey
  retainQuotaStates fun key => !keyBelongsToPubkey key pubkey

def initializeMethodStates (targetPubkey : String) (now : Nat) :
    List (Sigma fun _ : Method => MethodAccessRule) → Locked ε Unit
  | [] => pure ()
  | entry :: entries =>
    match entry.2.accessRate with
    | none => initializeMethodStates targetPubkey now entries
    | some rule =>
      match RateState.fromRule now rule with
      | .error _ => initializeMethodStates targetPubkey now entries
      | .ok state => do
        insertAccessRateState (.method targetPubkey entry.1) state
        initializeMethodStates targetPubkey now entries

def initializeStatesForProfile (targetPubkey : String) (profile : UsageProfile) (now : Nat) : Locked ε Unit := do
  initializeMethodStates targetPubkey now (profile.methods.elim [] (·.entries))
  match profile.quota with
  | none => pure ()
  | some rule =>
    match RateState.fromRule now rule with
    | .error _ => pure ()
    | .ok state => insertQuotaState (.quota targetPubkey) state

def upsertUsageProfileAndResetStates (targetPubkey : String) (profile : UsageProfile) (now : Nat) :
    Locked ε Unit := do
  clearStatesForPubkey targetPubkey
  initializeStatesForProfile targetPubkey profile now
  upsertUsageProfile targetPubkey profile

def clearAllUsageProfilesAndStates : Locked ε Unit := do
  clearUsageProfiles
  clearAllStates

end

/-! ## Charging a request -/

def poisonedStateResponse (method : Method) (context : AccessErrorContext) : Response :=
  match context with
  | .accessRate => .ofError method ⟨.other, "access rate state lock poisoned"⟩
  | .quota => .ofError method ⟨.other, "quota state lock poisoned"⟩

def accessRateUpdates (request : Request) (callerPubkey : String) (methodRule : Option MethodAccessRule) :
    Locked Response (List StateUpdateRequest) :=
  match methodRule.bind (·.accessRate) with
  | none => pure []
  | some rule => do
    let key := AccessKey.method callerPubkey request.method
    let found ← getAccessRateState key
    let state ← lift (Outcome.okOr found (missingStateResponse request.method .accessRate))
    return [⟨key, rule, 1000000, .accessRate, state⟩]

def quotaUpdates (request : Request) (callerPubkey : String) (profile : UsageProfile) (amountMsat : Nat) :
    Locked Response (List StateUpdateRequest) :=
  if 0 < amountMsat then
    match profile.quota with
    | none => pure []
    | some rule => do
      let key := AccessKey.quota callerPubkey
      let found ← getQuotaState key
      let state ← lift (Outcome.okOr found (missingStateResponse request.method .quota))
      return [⟨key, rule, amountMsat, .quota, state⟩]
  else pure []

/-- The guards are dropped in the order in which they were taken. -/
def dropGuards : List StateUpdateRequest → Prog LockId Stores Unit
  | [] => .done ()
  | u :: us => .release (.state u.state) (dropGuards us)

/-- The guards are dropped however the program ends. -/
def Locked.thenDrop {ε α : Type} (p : Locked ε α) (guarded : List StateUpdateRequest) : Locked ε α :=
  Prog.bind p fun r => (dropGuards guarded).bind fun _ => .done r

def lockStates (method : Method) (guarded : List StateUpdateRequest) :
    List StateUpdateRequest → Locked Response Unit
  | [] => pure ()
  | u :: us => .acquire (.state u.state) .exclusive fun poisoned =>
    if poisoned then
      .release (.state u.state) ((lift (.err (poisonedStateResponse method u.context))).thenDrop guarded)
    else lockStates method (guarded ++ [u]) us

def checkStates (method : Method) (now : Nat) : List StateUpdateRequest → Locked Response Unit
  | [] => pure ()
  | u :: us => .act id fun s =>
    match (s.access.read u.state).checkWithdrawAfterRefill u.amount now u.rule with
    | .error e => .done (.err (rateStateErrorResponse method e u.context))
    | .ok _ => checkStates method now us

def debitState (now : Nat) (s : Stores) (u : StateUpdateRequest) : RateState × Except RateStateError Unit :=
  (s.access.read u.state).withdrawAfterRefill u.amount now u.rule

def debitStates (method : Method) (now : Nat) : List StateUpdateRequest → Locked Response Unit
  | [] => pure ()
  | u :: us => .act (fun s => { s with access := s.access.write u.state (debitState now s u).1 }) fun s =>
    match (debitState now s u).2 with
    | .error e => .done (.err (rateStateErrorResponse method e u.context))
    | .ok _ => debitStates method now us

def chargeStates (method : Method) (now : Nat) (updates : List StateUpdateRequest) : Locked Response Unit := do
  checkStates method now updates
  debitStates method now updates

def commit (method : Method) (now : Nat) (updates : List StateUpdateRequest) :
    Locked Response (List StateUpdateRequest) := do
  lockStates method [] updates
  (chargeStates method now updates).thenDrop updates
  return updates

def verifyAccess (env : Env) (now : Nat) (request : Request) (event : Event) :
    Locked Response (List StateUpdateRequest) := do
  let found ← getUsageProfile event.pubkey
  let profile ← lift (Outcome.okOr found (unauthorizedResponse request.method))
  let methodRule ← lift (authorizeMethod profile request.method)
  let rate ← accessRateUpdates request event.pubkey methodRule
  let amountMsat ← lift (requestSpendMsat env request)
  let quota ← quotaUpdates request event.pubkey profile (amountMsat.getD 0)
  commit request.method now ((rate ++ quota).insertionSort fun a b => (compareAccessKeys a.key b.key).isLE)

def refundAppliedStateUpdates : List StateUpdateRequest → Prog LockId Stores Unit
  | [] => .done ()
  | u :: us => .acquire (.state u.state) .exclusive fun poisoned =>
    if poisoned then .release (.state u.state) (refundAppliedStateUpdates us)
    else
      .act (fun s =>
        { s with access := s.access.write u.state ((s.access.read u.state).refund u.amount u.rule).1 }) fun _ =>
        .release (.state u.state) (refundAppliedStateUpdates us)

/-! ## A call alone -/

section
variable {ε α β : Type}

def Locked.run (p : Locked ε α) (s : Stores) : Stores × Outcome ε α := Prog.run p s

@[simp] theorem run_lift (x : Outcome ε α) (s : Stores) : (lift x).run s = (s, x) := rfl

@[simp] theorem run_pure (a : α) (s : Stores) : (pure a : Locked ε α).run s = (s, .ok a) := rfl

@[simp] theorem run_readMap (l : LockId) (f : Stores → α) (s : Stores) :
    (readMap l f : Locked ε α).run s = (s, .ok (f s)) := rfl

@[simp] theorem run_writeMap (l : LockId) (f : Stores → Stores) (s : Stores) :
    (writeMap l f : Locked ε Unit).run s = (f s, .ok ()) := rfl

theorem run_bind (p : Locked ε α) (f : α → Locked ε β) (s : Stores) :
    (p >>= f).run s =
      match p.run s with
      | (s', .ok a) => (f a).run s'
      | (s', .err e) => (s', .err e)
      | (s', .panic) => (s', .panic) := by
  refine (Prog.run_bind p _ s).trans ?_
  unfold Locked.run
  rcases Prog.run p s with ⟨s', _ | _ | _⟩ <;> rfl

theorem run_initializeMethodStates (t : String) (now : Nat) (l : List (Sigma fun _ : Method => MethodAccessRule)) :
    ∀ s : Stores, (initializeMethodStates t now l : Locked ε Unit).run s =
      ({ s with access := l.foldl (initializeMethodState t now) s.access }, .ok ()) := by
  induction l with
  | nil => exact fun _ => rfl
  | cons e l ih =>
    intro s
    rw [List.foldl_cons]
    cases hr : e.2.accessRate with
    | none =>
      simp only [initializeMethodStates, initializeMethodState, hr]
      exact ih s
    | some rule =>
      cases hf : RateState.fromRule now rule with
      | error err =>
        simp only [initializeMethodStates, initializeMethodState, hr, hf]
        exact ih s
      | ok st =>
        simp only [initializeMethodStates, initializeMethodState, hr, hf, run_bind, insertAccessRateState, run_writeMap]
        exact ih _

theorem run_initializeStatesForProfile (t : String) (p : UsageProfile) (now : Nat) (s : Stores) :
    (initializeStatesForProfile t p now : Locked ε Unit).run s =
      ({ s with access := LdkController.initializeStatesForProfile s.access t p now }, .ok ()) := by
  have hmethods : p.methods.elim s.access (·.entries.foldl (initializeMethodState t now) s.access) =
      (p.methods.elim [] (·.entries)).foldl (initializeMethodState t now) s.access := by
    cases p.methods <;> rfl
  simp only [initializeStatesForProfile, run_bind, run_initializeMethodStates, ← hmethods]
  unfold LdkController.initializeStatesForProfile
  cases hq : p.quota with
  | none => cases p.methods <;> rfl
  | some rule =>
    cases hf : RateState.fromRule now rule with
    | error err =>
      simp only [hf]
      cases p.methods <;> rfl
    | ok st =>
      simp only [hf, insertQuotaState, run_writeMap]
      cases p.methods <;> rfl

theorem run_upsertUsageProfileAndResetStates (t : String) (p : UsageProfile) (now : Nat) (s : Stores) :
    (upsertUsageProfileAndResetStates t p now : Locked ε Unit).run s =
      (s.upsertUsageProfileAndResetStates t p now, .ok ()) := by
  simp only [upsertUsageProfileAndResetStates, clearStatesForPubkey, upsertUsageProfile, retainAccessRateStates,
    retainQuotaStates, run_bind, run_writeMap, run_initializeStatesForProfile]
  rfl

theorem run_clearAllUsageProfilesAndStates (s : Stores) :
    (clearAllUsageProfilesAndStates : Locked ε Unit).run s = (s.clearAllUsageProfilesAndStates, .ok ()) := rfl

end

theorem run_accessRateUpdates (request : Request) (caller : String) (mr : Option MethodAccessRule) (s : Stores) :
    (accessRateUpdates request caller mr).run s =
      (s, LdkController.accessRateUpdates s.access request caller mr) := by
  unfold accessRateUpdates LdkController.accessRateUpdates
  cases mr.bind (·.accessRate) with
  | none => rfl
  | some rule =>
    simp only [run_bind, getAccessRateState, run_readMap, run_lift]
    cases s.access.getAccessRateState (.method caller request.method) <;> rfl

theorem run_quotaUpdates (request : Request) (caller : String) (p : UsageProfile) (amount : Nat) (s : Stores) :
    (quotaUpdates request caller p amount).run s =
      (s, LdkController.quotaUpdates s.access request caller p amount) := by
  unfold quotaUpdates LdkController.quotaUpdates
  by_cases hpos : 0 < amount
  · rw [if_pos hpos, if_pos hpos]
    cases p.quota with
    | none => rfl
    | some rule =>
      simp only [run_bind, getQuotaState, run_readMap, run_lift]
      cases s.access.getQuotaState (.quota caller) <;> rfl
  · rw [if_neg hpos, if_neg hpos]
    rfl

theorem run_dropGuards (us : List StateUpdateRequest) (s : Stores) : (dropGuards us).run s = (s, ()) := by
  induction us with
  | nil => rfl
  | cons u us ih => exact ih

theorem run_thenDrop {ε α : Type} (p : Locked ε α) (us : List StateUpdateRequest) (s : Stores) :
    (p.thenDrop us).run s = p.run s := by
  refine (Prog.run_bind p _ s).trans ?_
  rw [Prog.run_bind, run_dropGuards]
  rfl

theorem run_lockStates (method : Method) (us : List StateUpdateRequest) (s : Stores) :
    ∀ guarded, (lockStates method guarded us).run s = (s, .ok ()) := by
  induction us with
  | nil => exact fun _ => rfl
  | cons u us ih => exact fun guarded => ih (guarded ++ [u])

theorem run_checkStates (method : Method) (now : Nat) (us : List StateUpdateRequest) (s : Stores) :
    (checkStates method now us).run s = (s, checkAll s.access method now us) := by
  induction us with
  | nil => rfl
  | cons u us ih =>
    unfold checkStates checkAll
    simp only [Locked.run, Prog.run, id_eq]
    cases (s.access.read u.state).checkWithdrawAfterRefill u.amount now u.rule with
    | error e => rfl
    | ok _ => exact ih

theorem run_debitStates (method : Method) (now : Nat) (us : List StateUpdateRequest) :
    ∀ s : Stores, (debitStates method now us).run s =
      ({ s with access := (debitAll method now s.access us).1 }, (debitAll method now s.access us).2) := by
  induction us with
  | nil => exact fun _ => rfl
  | cons u us ih =>
    intro s
    unfold debitStates debitAll
    simp only [Locked.run, Prog.run, debitState]
    rcases (s.access.read u.state).withdrawAfterRefill u.amount now u.rule with ⟨st, e | _⟩
    · rfl
    · exact ih _

theorem run_chargeStates (method : Method) (now : Nat) (us : List StateUpdateRequest) (s : Stores) :
    (chargeStates method now us).run s =
      match checkAll s.access method now us with
      | .ok _ => ({ s with access := (debitAll method now s.access us).1 }, (debitAll method now s.access us).2)
      | .err e => (s, .err e)
      | .panic => (s, .panic) := by
  simp only [chargeStates, run_bind, run_checkStates, run_debitStates]
  cases checkAll s.access method now us <;> rfl

theorem run_commit (method : Method) (now : Nat) (us : List StateUpdateRequest) (s : Stores) :
    (commit method now us).run s =
      ({ s with access := (Update.commit s.access method now us).1 }, (Update.commit s.access method now us).2) := by
  simp only [commit, run_bind, run_lockStates, run_thenDrop, run_chargeStates, run_pure]
  unfold Update.commit
  cases checkAll s.access method now us with
  | err e => rfl
  | panic => rfl
  | ok _ => rcases debitAll method now s.access us with ⟨a, _ | _ | _⟩ <;> rfl

/-- Alone, the request's program is `verify_access`. -/
theorem run_verifyAccess (env : Env) (now : Nat) (request : Request) (event : Event) (s : Stores) :
    (verifyAccess env now request event).run s =
      ({ s with access := (LdkController.verifyAccess env s now request event).1 },
        (LdkController.verifyAccess env s now request event).2) := by
  rw [Update.verifyAccess_eq]
  unfold prepareUpdates
  simp only [verifyAccess, getUsageProfile, run_bind, run_readMap, run_lift, run_accessRateUpdates, run_quotaUpdates]
  cases s.getUsageProfile event.pubkey with
  | none => rfl
  | some profile =>
    simp only [Outcome.okOr, Outcome.ok_bind]
    cases authorizeMethod profile request.method with
    | err e => rfl
    | panic => rfl
    | ok mr =>
      simp only [Outcome.ok_bind]
      cases LdkController.accessRateUpdates s.access request event.pubkey mr with
      | err e => rfl
      | panic => rfl
      | ok rate =>
        simp only [Outcome.ok_bind]
        cases (requestSpendMsat env request : Outcome Response _) with
        | err e => rfl
        | panic => rfl
        | ok spend =>
          simp only [Outcome.ok_bind]
          cases LdkController.quotaUpdates s.access request event.pubkey profile (spend.getD 0) with
          | err e => rfl
          | panic => rfl
          | ok quota =>
            exact run_commit ..

theorem run_refundAppliedStateUpdates (us : List StateUpdateRequest) :
    ∀ s : Stores, (refundAppliedStateUpdates us).run s =
      ({ s with access := LdkController.refundAppliedStateUpdates s.access us }, ()) := by
  induction us with
  | nil => exact fun _ => rfl
  | cons u us ih => exact fun s => ih _

end LdkController.Locking
