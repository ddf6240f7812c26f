import LdkController.AccessSound
import LdkController.Machine

/-!
# A profile update beside a request

The update clears both maps, inserts the new states one by one and stores the
profile last; the request looks up the profile, then each handle, and charges
what it has found. Lookups that all find what was there before the update, or
all what is there after it, make the two tasks run as if one after the other.
-/

namespace LdkController.Update

open Lib

/-! ## The update, step by step -/

inductive UpdateStep where
  | clearAccessRate
  | clearQuota
  | insertMethod (entry : Sigma fun _ : Method => MethodAccessRule)
  | insertQuota (rule : RateLimitRule)
  | storeProfile (profile : UsageProfile)

section
variable (targetPubkey : String) (now : Nat)

def UpdateStep.apply (s : Stores) : UpdateStep → Stores
  | .clearAccessRate =>
    { s with access := s.access.retainAccessRateStates fun key => !keyBelongsToPubkey key targetPubkey }
  | .clearQuota => { s with access := s.access.retainQuotaStates fun key => !keyBelongsToPubkey key targetPubkey }
  | .insertMethod entry => { s with access := initializeMethodState targetPubkey now s.access entry }
  | .insertQuota rule =>
    match RateState.fromRule now rule with
    | .error _ => s
    | .ok state => { s with access := s.access.insertQuotaState (.quota targetPubkey) state }
  | .storeProfile profile => { s with usageProfiles := s.usageProfiles.insert targetPubkey profile }

def applyEach (s : Stores) (l : List UpdateStep) : Stores := l.foldl (UpdateStep.apply targetPubkey now) s

end

def updateSteps (profile : UsageProfile) : List UpdateStep :=
  [.clearAccessRate, .clearQuota] ++ (profile.methods.elim [] (·.entries)).map .insertMethod ++
    profile.quota.toList.map .insertQuota ++ [.storeProfile profile]

theorem applyEach_append (t : String) (now : Nat) (s : Stores) (l l' : List UpdateStep) :
    applyEach t now s (l ++ l') = applyEach t now (applyEach t now s l) l' :=
  List.foldl_append ..

section
variable (s : Stores) (t : String) (now : Nat)

theorem apply_insertMethod (e : Sigma fun _ : Method => MethodAccessRule) :
    (UpdateStep.insertMethod e).apply t now s =
      { s with access := { s.access with accessRate := s.access.accessRate.insertEach (methodState t now) [e] } } := by
  simp only [UpdateStep.apply, initializeMethodState_eq]

theorem apply_insertQuota (rule : RateLimitRule) :
    (UpdateStep.insertQuota rule).apply t now s =
      { s with access := { s.access with quota := s.access.quota.insertEach (quotaState t now) [rule] } } := by
  unfold UpdateStep.apply Arena.insertEach
  cases hf : RateState.fromRule now rule with
  | error err => simp [quotaState, hf, Except.toOption]
  | ok st => simp [quotaState, hf, Except.toOption, AccessState.insertQuotaState]

end

theorem applyEach_insertMethod (t : String) (now : Nat) (l : List (Sigma fun _ : Method => MethodAccessRule)) :
    ∀ s : Stores, applyEach t now s (l.map .insertMethod) =
      { s with access := { s.access with accessRate := s.access.accessRate.insertEach (methodState t now) l } } := by
  induction l with
  | nil => intro s; rfl
  | cons e l ih =>
    intro s
    have he := apply_insertMethod s t now e
    unfold applyEach at ih ⊢
    rw [List.map_cons, List.foldl_cons, he, ih]
    rfl

/-- Alone, the steps are the update. -/
theorem applyEach_updateSteps (s : Stores) (t : String) (p : UsageProfile) (now : Nat) :
    applyEach t now s (updateSteps p) = s.upsertUsageProfileAndResetStates t p now := by
  unfold updateSteps
  rw [applyEach_append, applyEach_append, applyEach_append, applyEach_insertMethod]
  unfold Stores.upsertUsageProfileAndResetStates
  rw [initializeStatesForProfile_eq]
  cases p.quota with
  | none => rfl
  | some rule =>
    simp only [applyEach, Option.toList_some, List.map_cons, List.map_nil, List.foldl_cons, List.foldl_nil,
      apply_insertQuota]
    rfl

/-! ## The request, step by step -/

inductive Phase where
  | start
  | fetchRate (profile : UsageProfile) (methodRule : Option MethodAccessRule)
  | fetchQuota (profile : UsageProfile) (rate : List StateUpdateRequest) (amountMsat : Nat)
  | lock (updates : List StateUpdateRequest)

def Phase.updates : Phase → List StateUpdateRequest
  | .start => []
  | .fetchRate _ _ => []
  | .fetchQuota _ rate _ => rate
  | .lock updates => updates

inductive Progress where
  | at (phase : Phase)
  | done (outcome : Outcome Response (List StateUpdateRequest))

/-- The critical section: all states are locked, checked and debited. -/
def commit (a : AccessState) (method : Method) (now : Nat) (updates : List StateUpdateRequest) :
    AccessState × Outcome Response (List StateUpdateRequest) :=
  match checkAll a method now updates with
  | .err response => (a, .err response)
  | .panic => (a, .panic)
  | .ok _ =>
    match debitAll method now a updates with
    | (a, .err response) => (a, .err response)
    | (a, .panic) => (a, .panic)
    | (a, .ok _) => (a, .ok updates)

section
variable (env : Env) (request : Request) (event : Event)

def lookUp (s : Stores) : Phase → Outcome Response Phase
  | .start => do
    let profile ← Outcome.okOr (s.getUsageProfile event.pubkey) (unauthorizedResponse request.method)
    let methodRule ← authorizeMethod profile request.method
    return .fetchRate profile methodRule
  | .fetchRate profile methodRule => do
    let rate ← accessRateUpdates s.access request event.pubkey methodRule
    let amountMsat ← requestSpendMsat env request
    return .fetchQuota profile rate (amountMsat.getD 0)
  | .fetchQuota profile rate amountMsat => do
    let quota ← quotaUpdates s.access request event.pubkey profile amountMsat
    return .lock ((rate ++ quota).insertionSort fun a b => (compareAccessKeys a.key b.key).isLE)
  | .lock updates => .ok (.lock updates)

/-- What the request would go on to prepare if nobody else ran. -/
def prepareFrom (s : Stores) : Phase → Outcome Response (List StateUpdateRequest)
  | .start => prepareUpdates env s request event.pubkey
  | .fetchRate profile methodRule => do
    let rate ← accessRateUpdates s.access request event.pubkey methodRule
    let amountMsat ← requestSpendMsat env request
    let quota ← quotaUpdates s.access request event.pubkey profile (amountMsat.getD 0)
    return (rate ++ quota).insertionSort fun a b => (compareAccessKeys a.key b.key).isLE
  | .fetchQuota profile rate amountMsat => do
    let quota ← quotaUpdates s.access request event.pubkey profile amountMsat
    return (rate ++ quota).insertionSort fun a b => (compareAccessKeys a.key b.key).isLE
  | .lock updates => .ok updates

theorem prepareFrom_eq (s : Stores) (phase : Phase) :
    prepareFrom env request event s phase =
      (lookUp env request event s phase >>= prepareFrom env request event s) := by
  cases phase with
  | start => simp only [prepareFrom, lookUp, prepareUpdates, Outcome.bind_assoc, Outcome.pure_eq, Outcome.ok_bind]
  | fetchRate profile mr => simp only [prepareFrom, lookUp, Outcome.bind_assoc, Outcome.pure_eq, Outcome.ok_bind]
  | fetchQuota profile rate amount =>
    simp only [prepareFrom, lookUp, Outcome.bind_assoc, Outcome.pure_eq, Outcome.ok_bind]
  | lock us => rfl

theorem verifyAccess_eq (s : Stores) (now : Nat) :
    verifyAccess env s now request event =
      match prepareUpdates env s request event.pubkey with
      | .err response => (s.access, .err response)
      | .panic => (s.access, .panic)
      | .ok updates => commit s.access request.method now updates := rfl

end

/-! ## Updates leave existing cells alone -/

def Allocated (a : AccessState) (h : SharedRateState) : Prop := h.cell < (a.map h.store).next

/-- Whoever holds a handle can go on as if nothing happened. -/
structure Aloof (f : Stores → Stores) : Prop where
  next : ∀ s c, (s.access.map c).next ≤ ((f s).access.map c).next
  read : ∀ s h, Allocated s.access h → (f s).access.read h = s.access.read h
  write : ∀ s h v, Allocated s.access h →
    f { s with access := s.access.write h v } = { f s with access := (f s).access.write h v }

theorem Aloof.allocated {f : Stores → Stores} (hf : Aloof f) {s : Stores} {h : SharedRateState}
    (hh : Allocated s.access h) : Allocated (f s).access h :=
  Nat.lt_of_lt_of_le hh (hf.next s h.store)

section
variable {g : Arena AccessKey RateState → Arena AccessKey RateState} (hnext : ∀ a, a.next ≤ (g a).next)
  (hcells : ∀ a h, h < a.next → (g a).cells h = a.cells h)
  (hwrite : ∀ a h v, h < a.next → g (a.write h v) = (g a).write h v)
include hnext hcells hwrite

theorem aloof_accessRate : Aloof fun s => { s with access := { s.access with accessRate := g s.access.accessRate } } := by
  refine ⟨?_, ?_, ?_⟩
  · intro s c
    cases c with
    | accessRate => exact hnext _
    | quota => exact Nat.le_refl _
  · rintro s ⟨c, cell⟩ hh
    cases c with
    | accessRate => exact hcells _ _ hh
    | quota => rfl
  · rintro s ⟨c, cell⟩ v hh
    cases c with
    | accessRate =>
      simp only [AccessState.write]
      rw [hwrite s.access.accessRate cell v hh]
    | quota => rfl

theorem aloof_quota : Aloof fun s => { s with access := { s.access with quota := g s.access.quota } } := by
  refine ⟨?_, ?_, ?_⟩
  · intro s c
    cases c with
    | accessRate => exact Nat.le_refl _
    | quota => exact hnext _
  · rintro s ⟨c, cell⟩ hh
    cases c with
    | accessRate => rfl
    | quota => exact hcells _ _ hh
  · rintro s ⟨c, cell⟩ v hh
    cases c with
    | accessRate => rfl
    | quota =>
      simp only [AccessState.write]
      rw [hwrite s.access.quota cell v hh]

end

theorem aloof_apply (t : String) (now : Nat) (step : UpdateStep) : Aloof fun s => step.apply t now s := by
  cases step with
  | clearAccessRate =>
    exact aloof_accessRate (g := fun a => a.retain fun key _ => !keyBelongsToPubkey key t) (fun _ => Nat.le_refl _)
      (fun _ _ _ => rfl) fun _ _ _ _ => rfl
  | clearQuota =>
    exact aloof_quota (g := fun a => a.retain fun key _ => !keyBelongsToPubkey key t) (fun _ => Nat.le_refl _)
      (fun _ _ _ => rfl) fun _ _ _ _ => rfl
  | insertMethod entry =>
    simp only [apply_insertMethod]
    exact aloof_accessRate (fun _ => Arena.next_le_insertEach ..) (fun _ _ hh => Arena.cells_insertEach_of_lt _ _ hh)
      fun a _ v hh => a.insertEach_write [entry] v hh
  | insertQuota rule =>
    simp only [apply_insertQuota]
    exact aloof_quota (fun _ => Arena.next_le_insertEach ..) (fun _ _ hh => Arena.cells_insertEach_of_lt _ _ hh)
      fun a _ v hh => a.insertEach_write [rule] v hh
  | storeProfile profile =>
    exact ⟨fun s c => Nat.le_refl _, fun s h _ => rfl, fun s h v _ => rfl⟩

theorem aloof_applyEach (t : String) (now : Nat) (l : List UpdateStep) : Aloof fun s => applyEach t now s l := by
  induction l with
  | nil => exact ⟨fun s c => Nat.le_refl _, fun s h _ => rfl, fun s h v _ => rfl⟩
  | cons step l ih =>
    have hstep := aloof_apply t now step
    refine ⟨?_, ?_, ?_⟩
    · intro s c
      exact Nat.le_trans (hstep.next s c) (ih.next _ c)
    · intro s h hh
      exact (ih.read _ h (hstep.allocated hh)).trans (hstep.read s h hh)
    · intro s h v hh
      have hrest := ih.write (step.apply t now s) h v (hstep.allocated hh)
      simp only at hrest
      unfold applyEach at hrest ⊢
      rw [List.foldl_cons, List.foldl_cons, hstep.write s h v hh, hrest]

section
variable {f : Stores → Stores} (hf : Aloof f) {s : Stores}
include hf

theorem Aloof.checkAll (m : Method) (now : Nat) {us : List StateUpdateRequest}
    (hus : ∀ u ∈ us, Allocated s.access u.state) : checkAll (f s).access m now us = checkAll s.access m now us := by
  induction us with
  | nil => rfl
  | cons u us ih =>
    have hrest := ih fun v hv => hus v (List.mem_cons_of_mem u hv)
    simp only [LdkController.checkAll, hf.read s u.state (hus u List.mem_cons_self), hrest]

theorem Aloof.debitAll (m : Method) (now : Nat) {us : List StateUpdateRequest} :
    ∀ {s : Stores}, (∀ u ∈ us, Allocated s.access u.state) →
      f { s with access := (debitAll m now s.access us).1 } =
          { f s with access := (debitAll m now (f s).access us).1 } ∧
        (debitAll m now (f s).access us).2 = (debitAll m now s.access us).2 := by
  induction us with
  | nil => intro s _; exact ⟨rfl, rfl⟩
  | cons u us ih =>
    intro s hus
    have hu : Allocated s.access u.state := hus u List.mem_cons_self
    have hread := hf.read s u.state hu
    simp only [LdkController.debitAll, hread]
    cases hw : (s.access.read u.state).withdrawAfterRefill u.amount now u.rule with
    | mk state result =>
      have hwrite := hf.write s u.state state hu
      cases result with
      | error e => exact ⟨hwrite, rfl⟩
      | ok _ =>
        have hus' : ∀ v ∈ us, Allocated (s.access.write u.state state) v.state := by
          intro v hv
          unfold Allocated
          rw [AccessState.next_write]
          exact hus v (List.mem_cons_of_mem u hv)
        have hrest := @ih { s with access := s.access.write u.state state } hus'
        rw [hwrite] at hrest
        exact hrest

/-- The critical section and what others do meanwhile can be swapped. -/
theorem Aloof.commit (m : Method) (now : Nat) {us : List StateUpdateRequest}
    (hus : ∀ u ∈ us, Allocated s.access u.state) :
    f { s with access := (commit s.access m now us).1 } = { f s with access := (commit (f s).access m now us).1 } ∧
      (commit (f s).access m now us).2 = (commit s.access m now us).2 := by
  unfold Update.commit
  rw [hf.checkAll m now hus]
  cases LdkController.checkAll s.access m now us with
  | err r => exact ⟨rfl, rfl⟩
  | panic => exact ⟨rfl, rfl⟩
  | ok _ =>
    have hdebit := hf.debitAll m now hus
    generalize LdkController.debitAll m now s.access us = x at hdebit ⊢
    generalize LdkController.debitAll m now (f s).access us = y at hdebit ⊢
    obtain ⟨a₁, o₁⟩ := x
    obtain ⟨a₂, o₂⟩ := y
    obtain ⟨hstores, rfl⟩ := hdebit
    cases o₂ <;> exact ⟨hstores, rfl⟩

end

/-! ## The two tasks -/

structure World where
  stores : Stores
  update : List UpdateStep
  request : Progress

inductive Turn where
  | update | request
deriving DecidableEq

section
variable (env : Env) (t : String) (nowUpdate nowRequest : Nat) (request : Request) (event : Event)

def start (s : Stores) (p : UsageProfile) : World := ⟨s, updateSteps p, .at .start⟩

def step (w : World) : Turn → World
  | .update =>
    match w.update with
    | [] => w
    | next :: rest => { w with stores := next.apply t nowUpdate w.stores, update := rest }
  | .request =>
    match w.request with
    | .done _ => w
    | .at (.lock updates) =>
      let r := commit w.stores.access request.method nowRequest updates
      { w with stores := { w.stores with access := r.1 }, request := .done r.2 }
    | .at phase =>
      match lookUp env request event w.stores phase with
      | .ok next => { w with request := .at next }
      | .err response => { w with request := .done (.err response) }
      | .panic => { w with request := .done .panic }

/-- The next lookup of the request finds what it would find in `s`. -/
def Finds (s : Stores) (w : World) : Turn → Prop
  | .update => True
  | .request =>
    match w.request with
    | .at .start => w.stores.getUsageProfile event.pubkey = s.getUsageProfile event.pubkey
    | .at (.fetchRate _ methodRule) =>
      (methodRule.bind (·.accessRate)).isSome →
        w.stores.access.getAccessRateState (.method event.pubkey request.method) =
          s.access.getAccessRateState (.method event.pubkey request.method)
    | .at (.fetchQuota profile _ amountMsat) =>
      0 < amountMsat → profile.quota.isSome →
        w.stores.access.getQuotaState (.quota event.pubkey) = s.access.getQuotaState (.quota event.pubkey)
    | .at (.lock _) => True
    | .done _ => True

end

/-! ## What the request finds -/

section
variable {env : Env} {request : Request} {event : Event} {s : Stores} {w : World}

variable (env) in
theorem lookUp_of_finds {phase : Phase} (hr : w.request = .at phase) (h : Finds request event s w .request) :
    lookUp env request event w.stores phase = lookUp env request event s phase := by
  unfold Finds at h
  rw [hr] at h
  cases phase with
  | start => simp only [lookUp, show _ = _ from h]
  | fetchRate profile mr =>
    have hrate : accessRateUpdates w.stores.access request event.pubkey mr =
        accessRateUpdates s.access request event.pubkey mr := by
      unfold accessRateUpdates
      cases hrule : mr.bind (·.accessRate) with
      | none => rfl
      | some rule => simp only [h (by rw [hrule]; rfl)]
    simp only [lookUp, hrate]
  | fetchQuota profile rate amount =>
    have hquota : quotaUpdates w.stores.access request event.pubkey profile amount =
        quotaUpdates s.access request event.pubkey profile amount := by
      unfold quotaUpdates
      by_cases hpos : 0 < amount
      · rw [if_pos hpos, if_pos hpos]
        cases hrule : profile.quota with
        | none => rfl
        | some rule => simp only [h hpos (by rw [hrule]; rfl)]
      · rw [if_neg hpos, if_neg hpos]
    simp only [lookUp, hquota]
  | lock us => rfl

theorem allocated_lookUp {phase next : Phase} (h : lookUp env request event s phase = .ok next)
    (hus : ∀ u ∈ phase.updates, Allocated s.access u.state) : ∀ u ∈ next.updates, Allocated s.access u.state := by
  cases phase with
  | start =>
    simp only [lookUp, Outcome.bind_eq_ok, Outcome.pure_eq, Outcome.ok.injEq] at h
    obtain ⟨_, _, _, _, rfl⟩ := h
    intro u hu
    cases hu
  | fetchRate profile mr =>
    simp only [lookUp, Outcome.bind_eq_ok, Outcome.pure_eq, Outcome.ok.injEq] at h
    obtain ⟨rate, hrate, _, _, rfl⟩ := h
    intro u hu
    rcases accessRateUpdates_eq_ok.mp hrate with ⟨_, rfl⟩ | ⟨rule, cell, _, hcell, rfl⟩
    · cases hu
    · obtain rfl := List.mem_singleton.mp hu
      exact Arena.handle?_lt _ hcell
  | fetchQuota profile rate amount =>
    simp only [lookUp, Outcome.bind_eq_ok, Outcome.pure_eq, Outcome.ok.injEq] at h
    obtain ⟨quota, hquota, rfl⟩ := h
    intro u hu
    rcases List.mem_append.mp ((List.mem_insertionSort _).mp hu) with hu | hu
    · exact hus u hu
    · rcases quotaUpdates_eq_ok.mp hquota with ⟨_, rfl⟩ | ⟨rule, cell, _, _, hcell, rfl⟩
      · cases hu
      · obtain rfl := List.mem_singleton.mp hu
        exact Arena.handle?_lt _ hcell
  | lock us =>
    obtain rfl := Outcome.ok.inj h
    exact hus

variable (env request event) in
theorem step_of_done (t : String) (nowUpdate nowRequest : Nat) {o : Outcome Response (List StateUpdateRequest)}
    (hr : w.request = .done o) : step env t nowUpdate nowRequest request event w .request = w := by
  unfold step
  rw [hr]

variable (env request event) in
theorem step_of_lock (t : String) (nowUpdate nowRequest : Nat) {us : List StateUpdateRequest}
    (hr : w.request = .at (.lock us)) :
    step env t nowUpdate nowRequest request event w .request =
      { w with
        stores := { w.stores with access := (commit w.stores.access request.method nowRequest us).1 }
        request := .done (commit w.stores.access request.method nowRequest us).2 } := by
  unfold step
  rw [hr]

/-- A lookup that finds what it would find in `s` brings the request closer to what it would do in `s`. -/
theorem step_lookUp (t : String) (nowUpdate nowRequest : Nat) {phase : Phase} (hr : w.request = .at phase)
    (hlock : ∀ us, phase ≠ .lock us) (hl : lookUp env request event w.stores phase = lookUp env request event s phase)
    (hp : prepareFrom env request event s phase = prepareUpdates env s request event.pubkey) :
    (∃ next, lookUp env request event w.stores phase = .ok next ∧
      step env t nowUpdate nowRequest request event w .request = { w with request := .at next } ∧
      prepareFrom env request event s next = prepareUpdates env s request event.pubkey) ∨
    ∃ o, step env t nowUpdate nowRequest request event w .request = { w with request := .done o } ∧
      verifyAccess env s nowRequest request event = (s.access, o) := by
  have hstep : step env t nowUpdate nowRequest request event w .request =
      match lookUp env request event s phase with
      | .ok next => { w with request := .at next }
      | .err response => { w with request := .done (.err response) }
      | .panic => { w with request := .done .panic } := by
    rw [← hl]
    unfold step
    rw [hr]
    cases phase with
    | lock us => exact absurd rfl (hlock us)
    | _ => rfl
  rw [prepareFrom_eq] at hp
  rw [hstep, hl, verifyAccess_eq, ← hp]
  cases lookUp env request event s phase with
  | ok next => exact .inl ⟨next, rfl, rfl, rfl⟩
  | err response => exact .inr ⟨_, rfl, rfl⟩
  | panic => exact .inr ⟨_, rfl, rfl⟩

end

/-! ## The serial orders -/

section
variable (env : Env) (t : String) (nowUpdate nowRequest : Nat) (request : Request) (event : Event) (s : Stores)
  (p : UsageProfile)

def requestAlone : Stores × Outcome Response (List StateUpdateRequest) :=
  let r := verifyAccess env s nowRequest request event
  ({ s with access := r.1 }, r.2)

/-- The request is on its way to what it does before the update. -/
def Before (w : World) : Prop :=
  ∃ past, past ++ w.update = updateSteps p ∧
    match w.request with
    | .at phase => w.stores = applyEach t nowUpdate s past ∧
        prepareFrom env request event s phase = prepareUpdates env s request event.pubkey ∧
        ∀ u ∈ phase.updates, Allocated s.access u.state
    | .done o => w.stores = applyEach t nowUpdate (requestAlone env nowRequest request event s).1 past ∧
        o = (requestAlone env nowRequest request event s).2

/-- The request is on its way to what it does after the update, which leaves `s`. -/
def After (w : World) : Prop :=
  match w.request with
  | .at phase => applyEach t nowUpdate w.stores w.update = s ∧
      prepareFrom env request event s phase = prepareUpdates env s request event.pubkey ∧
      ∀ u ∈ phase.updates, Allocated w.stores.access u.state
  | .done o => applyEach t nowUpdate w.stores w.update = (requestAlone env nowRequest request event s).1 ∧
      o = (requestAlone env nowRequest request event s).2

variable {env t nowUpdate nowRequest request event s p} {w : World}

theorem requestAlone_of_lock {us : List StateUpdateRequest}
    (h : prepareFrom env request event s (.lock us) = prepareUpdates env s request event.pubkey) :
    requestAlone env nowRequest request event s =
      ({ s with access := (commit s.access request.method nowRequest us).1 },
        (commit s.access request.method nowRequest us).2) := by
  unfold requestAlone
  rw [verifyAccess_eq, ← h]
  rfl

theorem before_update (h : Before env t nowUpdate nowRequest request event s p w) :
    Before env t nowUpdate nowRequest request event s p (step env t nowUpdate nowRequest request event w .update) := by
  obtain ⟨past, hsteps, hreq⟩ := h
  unfold step
  cases hu : w.update with
  | nil => exact ⟨past, hsteps, hreq⟩
  | cons next rest =>
    refine ⟨past ++ [next], ?_, ?_⟩
    · rw [← hsteps, hu, List.append_assoc]
      rfl
    · simp only
      cases hr : w.request with
      | «at» phase =>
        rw [hr] at hreq
        obtain ⟨hstores, hrest⟩ := hreq
        refine ⟨?_, hrest⟩
        rw [applyEach_append, ← hstores]
        rfl
      | done o =>
        rw [hr] at hreq
        obtain ⟨hstores, hrest⟩ := hreq
        refine ⟨?_, hrest⟩
        rw [applyEach_append, ← hstores]
        rfl

theorem before_request (h : Before env t nowUpdate nowRequest request event s p w)
    (hfinds : Finds request event s w .request) :
    Before env t nowUpdate nowRequest request event s p (step env t nowUpdate nowRequest request event w .request) := by
  obtain ⟨past, hsteps, hreq⟩ := h
  cases hr : w.request with
  | done o =>
    rw [step_of_done env request event t nowUpdate nowRequest hr]
    exact ⟨past, hsteps, hreq⟩
  | «at» phase =>
    rw [hr] at hreq
    obtain ⟨hstores, hp, hus⟩ := hreq
    by_cases hlock : ∃ us, phase = .lock us
    · obtain ⟨us, rfl⟩ := hlock
      have hcommit := (aloof_applyEach t nowUpdate past).commit request.method nowRequest hus
      rw [step_of_lock env request event t nowUpdate nowRequest hr]
      refine ⟨past, hsteps, ?_⟩
      simp only
      rw [requestAlone_of_lock hp, hstores]
      exact ⟨hcommit.1.symm, hcommit.2⟩
    · have hl := lookUp_of_finds env hr hfinds
      rcases step_lookUp t nowUpdate nowRequest hr (fun us he => hlock ⟨us, he⟩) hl hp with
        ⟨next, hnext, hstep, hp'⟩ | ⟨o, hstep, ho⟩
      · rw [hstep]
        exact ⟨past, hsteps, hstores, hp', allocated_lookUp (hl ▸ hnext) hus⟩
      · rw [hstep]
        refine ⟨past, hsteps, ?_⟩
        unfold requestAlone
        rw [ho]
        exact ⟨hstores, rfl⟩

theorem before_step (h : Before env t nowUpdate nowRequest request event s p w) (turn : Turn)
    (hfinds : Finds request event s w turn) :
    Before env t nowUpdate nowRequest request event s p (step env t nowUpdate nowRequest request event w turn) := by
  cases turn with
  | update => exact before_update h
  | request => exact before_request h hfinds

theorem after_update (h : After env t nowUpdate nowRequest request event s w) :
    After env t nowUpdate nowRequest request event s (step env t nowUpdate nowRequest request event w .update) := by
  unfold After at h
  unfold step
  cases hu : w.update with
  | nil => exact h
  | cons next rest =>
    unfold After
    simp only
    cases hr : w.request with
    | «at» phase =>
      rw [hr, hu] at h
      obtain ⟨hstores, hp, hus⟩ := h
      exact ⟨hstores, hp, fun u hu => (aloof_apply t nowUpdate next).allocated (hus u hu)⟩
    | done o =>
      rw [hr, hu] at h
      exact h

theorem after_request (h : After env t nowUpdate nowRequest request event s w)
    (hfinds : Finds request event s w .request) :
    After env t nowUpdate nowRequest request event s (step env t nowUpdate nowRequest request event w .request) := by
  cases hr : w.request with
  | done o =>
    rw [step_of_done env request event t nowUpdate nowRequest hr]
    exact h
  | «at» phase =>
    unfold After at h
    rw [hr] at h
    obtain ⟨hstores, hp, hus⟩ := h
    by_cases hlock : ∃ us, phase = .lock us
    · obtain ⟨us, rfl⟩ := hlock
      have hcommit := (aloof_applyEach t nowUpdate w.update).commit request.method nowRequest hus
      rw [step_of_lock env request event t nowUpdate nowRequest hr]
      unfold After
      simp only
      rw [requestAlone_of_lock hp]
      rw [hstores] at hcommit
      exact ⟨hcommit.1, hcommit.2.symm⟩
    · have hl := lookUp_of_finds env hr hfinds
      rcases step_lookUp t nowUpdate nowRequest hr (fun us he => hlock ⟨us, he⟩) hl hp with
        ⟨next, hnext, hstep, hp'⟩ | ⟨o, hstep, ho⟩
      · rw [hstep]
        exact ⟨hstores, hp', allocated_lookUp hnext hus⟩
      · rw [hstep]
        unfold After requestAlone
        rw [ho]
        exact ⟨hstores, rfl⟩

theorem after_step (h : After env t nowUpdate nowRequest request event s w) (turn : Turn)
    (hfinds : Finds request event s w turn) :
    After env t nowUpdate nowRequest request event s (step env t nowUpdate nowRequest request event w turn) := by
  cases turn with
  | update => exact after_update h
  | request => exact after_request h hfinds

/-- **Atomic updates.** When every lookup of the request finds what was there before the update, or every one what is
there after it, a completed run ends with the stores and the result of one of the two serial orders. -/
theorem update_serial {schedule : List Turn} {o : Outcome Response (List StateUpdateRequest)}
    (hupdate : (exec (step env t nowUpdate nowRequest request event) (start s p) schedule).update = [])
    (hrequest : (exec (step env t nowUpdate nowRequest request event) (start s p) schedule).request = .done o)
    (hfinds : Steps (step env t nowUpdate nowRequest request event) (Finds request event s) (start s p) schedule ∨
      Steps (step env t nowUpdate nowRequest request event)
        (Finds request event (s.upsertUsageProfileAndResetStates t p nowUpdate)) (start s p) schedule) :
    let stores := (exec (step env t nowUpdate nowRequest request event) (start s p) schedule).stores
    let first := requestAlone env nowRequest request event s
    let last := requestAlone env nowRequest request event (s.upsertUsageProfileAndResetStates t p nowUpdate)
    (stores = first.1.upsertUsageProfileAndResetStates t p nowUpdate ∧ o = first.2) ∨
      (stores = last.1 ∧ o = last.2) := by
  rcases hfinds with hfinds | hfinds
  · left
    have hstart : Before env t nowUpdate nowRequest request event s p (start s p) :=
      ⟨[], rfl, rfl, rfl, fun u hu => by cases hu⟩
    obtain ⟨past, hsteps, hreq⟩ := hfinds.exec_inv (fun w turn hf h => before_step h turn hf) hstart
    rw [hrequest] at hreq
    rw [hupdate, List.append_nil] at hsteps
    subst hsteps
    simp only [applyEach_updateSteps] at hreq
    exact hreq
  · right
    have hstart : After env t nowUpdate nowRequest request event (s.upsertUsageProfileAndResetStates t p nowUpdate)
        (start s p) :=
      ⟨applyEach_updateSteps s t p nowUpdate, rfl, fun u hu => by cases hu⟩
    have hend := hfinds.exec_inv (fun w turn hf h => after_step h turn hf) hstart
    unfold After at hend
    rw [hrequest, hupdate] at hend
    exact hend

end

namespace Sample

open LdkController.Sample

/-- One `get_info`, ever. -/
def profile : UsageProfile := ⟨none, some (AList.singleton .getInfo ⟨some ⟨0, 1000000⟩⟩), none⟩

def stores : Stores := Stores.empty.upsertUsageProfileAndResetStates alice profile 0

def getInfo : Request := ⟨.getInfo, .getInfo⟩

/-- The same profile is granted again while the request runs. -/
def run (schedule : List Turn) : World := exec (step env alice 8 9 getInfo event) (start stores profile) schedule

def alone (s : Stores) : Outcome Response (List StateUpdateRequest) := (requestAlone env 9 getInfo event s).2

def early : List Turn := [.request, .request, .update, .request, .update, .update, .request, .update]

def between : List Turn := [.request, .update, .request, .update, .update, .update]

end Sample

theorem update_serial_early :
    ((Sample.run Sample.early).stores =
          (requestAlone LdkController.Sample.env 9 Sample.getInfo LdkController.Sample.event
            Sample.stores).1.upsertUsageProfileAndResetStates LdkController.Sample.alice Sample.profile 8 ∧
        Sample.alone Sample.stores = Sample.alone Sample.stores) ∨
      ((Sample.run Sample.early).stores =
          (requestAlone LdkController.Sample.env 9 Sample.getInfo LdkController.Sample.event
            (Sample.stores.upsertUsageProfileAndResetStates LdkController.Sample.alice Sample.profile 8)).1 ∧
        Sample.alone Sample.stores =
          Sample.alone (Sample.stores.upsertUsageProfileAndResetStates LdkController.Sample.alice Sample.profile 8)) :=
  update_serial rfl rfl (.inl ⟨rfl, fun _ => rfl, trivial, fun h => absurd h (by decide), trivial, trivial, trivial,
    trivial, trivial⟩)

/-- Both serial orders admit the request. -/
theorem update_serial_fails :
    (Sample.run Sample.between).update = [] ∧
      (Sample.run Sample.between).request = .done (.err (missingStateResponse .getInfo .accessRate)) ∧
      (Sample.alone Sample.stores).isOk = true ∧
      (Sample.alone (Sample.stores.upsertUsageProfileAndResetStates LdkController.Sample.alice Sample.profile
        8)).isOk = true :=
  ⟨rfl, rfl, by decide, by decide⟩

end LdkController.Update
