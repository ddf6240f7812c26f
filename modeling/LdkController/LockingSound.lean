import LdkController.Locking

/-!
# No deadlock

A thread holds a map's lock alone, and locks rate states in the order of their
keys: the state of a method before the state of a quota. So every wait leads to
a state further up, and no set of calls locks itself out.
-/

namespace LdkController.Locking

open Lib Lib.Locks

/-! ## The order of the keys -/

def keyContext : AccessKey → AccessErrorContext
  | .method _ _ => .accessRate
  | .quota _ => .quota

def keyMethod : AccessKey → String
  | .method _ method => method.asStr
  | .quota _ => ""

def contextRank : AccessErrorContext → Nat
  | .accessRate => 1
  | .quota => 2

theorem compareAccessKeys_eq :
    compareAccessKeys = compareLex (compareOn fun k => contextRank (keyContext k))
      (compareLex (compareOn accessKeyPubkey) (compareOn keyMethod)) := by
  funext k k'
  match k, k' with
  | .method _ _, .method _ _ => rfl
  | .method _ _, .quota _ => rfl
  | .quota _, .method _ _ => rfl
  | .quota ap, .quota bp =>
    simp [compareAccessKeys, compareLex, compareOn, keyContext, contextRank, accessKeyPubkey, keyMethod]

instance : Std.TransCmp compareAccessKeys := compareAccessKeys_eq ▸ inferInstance

theorem compareAccessKeys_of_context {k k' : AccessKey} (h : contextRank (keyContext k) < contextRank (keyContext k')) :
    compareAccessKeys k k' = .lt := by
  cases k <;> cases k' <;> simp_all [keyContext, contextRank, compareAccessKeys]

/-! ## The order of the locks -/

def rank : LockId → Nat
  | .usageProfiles => 0
  | .map _ => 0
  | .state state => contextRank state.store

/-- The program takes its locks in order, keeps none, and returns what satisfies `Q`. -/
def Returns {ε α : Type} (p : Locked ε α) (Q : α → Prop) : Prop :=
  Prog.Ordered rank (fun r held => held = [] ∧ ∀ a, r = .ok a → Q a) [] p

section
variable {ε α β : Type} {p : Locked ε α} {Q : α → Prop} {Q' : β → Prop}

theorem returns_lift {x : Outcome ε α} (h : ∀ a, x = .ok a → Q a) : Returns (lift x) Q := ⟨rfl, h⟩

theorem returns_pure {a : α} (h : Q a) : Returns (pure a : Locked ε α) Q := ⟨rfl, fun _ ha => Outcome.ok.inj ha ▸ h⟩

theorem Returns.bind {f : α → Locked ε β} (h : Returns p Q) (hf : ∀ a, Q a → Returns (f a) Q') :
    Returns (p >>= f) Q' := by
  refine Prog.Ordered.bind h ?_
  rintro r held ⟨rfl, hr⟩
  cases r with
  | ok a => exact hf a (hr a rfl)
  | err e => exact ⟨rfl, fun _ ha => by cases ha⟩
  | panic => exact ⟨rfl, fun _ ha => by cases ha⟩

theorem returns_withMap {l : LockId} {mode : Mode} {f : Stores → Stores × α} (h : ∀ s, Q (f s).2) :
    Returns (withMap l mode f : Locked ε α) Q := by
  refine ⟨by simp, ?_⟩
  intro poisoned
  cases poisoned with
  | true => exact ⟨by simp, fun _ ha => by cases ha⟩
  | false => exact fun s => ⟨by simp, fun _ ha => Outcome.ok.inj ha ▸ h s⟩

theorem returns_readMap {l : LockId} {f : Stores → α} (h : ∀ s, Q (f s)) : Returns (readMap l f : Locked ε α) Q :=
  returns_withMap h

theorem returns_writeMap {l : LockId} {f : Stores → Stores} : Returns (writeMap l f : Locked ε Unit) fun _ => True :=
  returns_withMap fun _ => trivial

end

/-! ## Each call's locks -/

/-- A request charges at most one state of each map. -/
def OfContext (context : AccessErrorContext) (us : List StateUpdateRequest) : Prop :=
  us = [] ∨ ∃ u, us = [u] ∧ keyContext u.key = context ∧ u.state.store = context

theorem returns_getAccessRateState {ε : Type} (key : AccessKey) :
    Returns (getAccessRateState key : Locked ε _) fun found => ∀ st ∈ found, st.store = .accessRate := by
  apply returns_readMap
  intro s st hst
  obtain ⟨cell, _, rfl⟩ := Option.map_eq_some_iff.mp hst
  rfl

theorem returns_getQuotaState {ε : Type} (key : AccessKey) :
    Returns (getQuotaState key : Locked ε _) fun found => ∀ st ∈ found, st.store = .quota := by
  apply returns_readMap
  intro s st hst
  obtain ⟨cell, _, rfl⟩ := Option.map_eq_some_iff.mp hst
  rfl

theorem returns_update {context : AccessErrorContext} {get : Locked Response (Option SharedRateState)}
    (hget : Returns get fun found => ∀ st ∈ found, st.store = context) (missing : Response)
    {update : SharedRateState → StateUpdateRequest} (hkey : ∀ st, keyContext (update st).key = context)
    (hstate : ∀ st, (update st).state = st) :
    Returns (do
      let found ← get
      let state ← lift (Outcome.okOr found missing)
      return [update state]) (OfContext context) := by
  refine hget.bind fun found hfound => ?_
  refine (returns_lift fun st hst => hfound st (Outcome.okOr_eq_ok.mp hst)).bind ?_
  intro st hst
  exact returns_pure (.inr ⟨_, rfl, hkey st, (congrArg SharedRateState.store (hstate st)).trans hst⟩)

theorem returns_accessRateUpdates (request : Request) (caller : String) (mr : Option MethodAccessRule) :
    Returns (accessRateUpdates request caller mr) (OfContext .accessRate) := by
  unfold accessRateUpdates
  split
  · exact returns_pure (.inl rfl)
  · exact returns_update (returns_getAccessRateState _) _ (fun _ => rfl) fun _ => rfl

theorem returns_quotaUpdates (request : Request) (caller : String) (profile : UsageProfile) (amount : Nat) :
    Returns (quotaUpdates request caller profile amount) (OfContext .quota) := by
  unfold quotaUpdates
  split
  · split
    · exact returns_pure (.inl rfl)
    · exact returns_update (returns_getQuotaState _) _ (fun _ => rfl) fun _ => rfl
  · exact returns_pure (.inl rfl)

/-- The states are locked in the strict order of their keys, which is that of the ranks. -/
def Ascending (us : List StateUpdateRequest) : Prop :=
  us.Pairwise fun u v => compareAccessKeys u.key v.key = .lt ∧ rank (.state u.state) < rank (.state v.state)

theorem ascending_insertionSort {rate quota : List StateUpdateRequest} (hr : OfContext .accessRate rate)
    (hq : OfContext .quota quota) :
    Ascending ((rate ++ quota).insertionSort fun a b => (compareAccessKeys a.key b.key).isLE) := by
  have hasc : Ascending (rate ++ quota) := by
    rcases hr with rfl | ⟨u, rfl, huk, hus⟩
    · rcases hq with rfl | ⟨v, rfl, _⟩ <;> simp [Ascending]
    · rcases hq with rfl | ⟨v, rfl, hvk, hvs⟩
      · simp [Ascending]
      · have hlt : compareAccessKeys u.key v.key = .lt :=
          compareAccessKeys_of_context (by rw [huk, hvk]; decide)
        simp [Ascending, hlt, rank, hus, hvs, contextRank]
  rwa [List.Pairwise.insertionSort_eq (hasc.imp fun h => by simp [h.1])]

theorem ordered_dropGuards (us : List StateUpdateRequest) :
    Prog.Ordered rank (fun _ held => held = []) (us.map fun u => LockId.state u.state) (dropGuards us) := by
  induction us with
  | nil => rfl
  | cons u us ih =>
    show Prog.Ordered rank _ (List.erase _ _) (dropGuards us)
    rw [List.map_cons, List.erase_cons_head]
    exact ih

theorem ordered_thenDrop {ε α : Type} {p : Locked ε α} {us : List StateUpdateRequest} {held : List LockId}
    (h : Prog.Ordered rank (fun _ held => held = us.map fun u => LockId.state u.state) held p) :
    Prog.Ordered rank (fun _ held => held = []) held (p.thenDrop us) := by
  refine Prog.Ordered.bind h ?_
  rintro r _ rfl
  exact (ordered_dropGuards us).bind fun _ _ hnil => hnil

theorem ordered_lockStates (method : Method) (us : List StateUpdateRequest) :
    ∀ guarded, Ascending (guarded ++ us) →
      Prog.Ordered rank (fun r held => match r with
        | .ok _ => held = (guarded ++ us).map fun u => LockId.state u.state
        | _ => held = []) (guarded.map fun u => LockId.state u.state) (lockStates method guarded us) := by
  induction us with
  | nil => simp [lockStates, pure, Prog.Ordered]
  | cons u us ih =>
    intro guarded hasc
    have hbelow : ∀ l ∈ guarded.map fun u => LockId.state u.state, rank l < rank (.state u.state) := by
      intro l hl
      obtain ⟨v, hv, rfl⟩ := List.mem_map.mp hl
      exact ((List.pairwise_append.mp hasc).2.2 v hv u List.mem_cons_self).2
    refine ⟨hbelow, ?_⟩
    intro poisoned
    cases poisoned with
    | true =>
      have hnot : LockId.state u.state ∉ guarded.map fun u => LockId.state u.state :=
        fun hmem => Nat.lt_irrefl _ (hbelow _ hmem)
      show Prog.Ordered rank _ (List.erase (_ ++ [LockId.state u.state]) _) ((dropGuards guarded).bind _)
      rw [List.erase_append_right _ hnot, List.erase_cons_head, List.append_nil]
      exact (ordered_dropGuards guarded).bind fun _ _ hnil => hnil
    | false =>
      have hnext := ih (guarded ++ [u]) (by simpa using hasc)
      simpa using hnext

theorem ordered_checkStates (method : Method) (now : Nat) (held : List LockId) (us : List StateUpdateRequest) :
    Prog.Ordered rank (fun _ h => h = held) held (checkStates method now us) := by
  induction us with
  | nil => rfl
  | cons u us ih =>
    intro s
    beta_reduce
    cases (s.access.read u.state).checkWithdrawAfterRefill u.amount now u.rule with
    | error e => rfl
    | ok _ => exact ih

theorem ordered_debitStates (method : Method) (now : Nat) (held : List LockId) (us : List StateUpdateRequest) :
    Prog.Ordered rank (fun _ h => h = held) held (debitStates method now us) := by
  induction us with
  | nil => rfl
  | cons u us ih =>
    intro s
    beta_reduce
    cases (debitState now s u).2 with
    | error e => rfl
    | ok _ => exact ih

theorem ordered_chargeStates (method : Method) (now : Nat) (held : List LockId) (us : List StateUpdateRequest) :
    Prog.Ordered rank (fun _ h => h = held) held (chargeStates method now us) := by
  refine (ordered_checkStates method now held us).bind ?_
  rintro r _ rfl
  cases r with
  | ok _ => exact ordered_debitStates method now _ us
  | err e => rfl
  | panic => rfl

theorem returns_commit (method : Method) (now : Nat) {us : List StateUpdateRequest} (h : Ascending us) :
    Returns (commit method now us) fun _ => True := by
  refine Prog.Ordered.bind (ordered_lockStates method us [] h) ?_
  intro r held hr
  cases r with
  | err e => exact ⟨hr, fun _ _ => trivial⟩
  | panic => exact ⟨hr, fun _ _ => trivial⟩
  | ok _ =>
    rw [hr]
    refine Prog.Ordered.bind (ordered_thenDrop (ordered_chargeStates method now _ us)) ?_
    rintro r _ rfl
    cases r with
    | ok _ => exact returns_pure trivial
    | err e => exact ⟨rfl, fun _ _ => trivial⟩
    | panic => exact ⟨rfl, fun _ _ => trivial⟩

theorem returns_verifyAccess (env : Env) (now : Nat) (request : Request) (event : Event) :
    Returns (verifyAccess env now request event) fun _ => True := by
  have hany : ∀ {ε α : Type} (x : Outcome ε α), Returns (lift x) fun _ => True :=
    fun _ => returns_lift fun _ _ => trivial
  refine Returns.bind (Q := fun _ => True) (returns_readMap fun _ => trivial) ?_
  intro found _
  refine (hany _).bind fun profile _ => (hany _).bind fun methodRule _ => ?_
  refine (returns_accessRateUpdates request event.pubkey methodRule).bind fun rate hrate => ?_
  refine (hany _).bind fun amountMsat _ => ?_
  refine (returns_quotaUpdates request event.pubkey profile _).bind fun quota hquota => ?_
  exact returns_commit request.method now (ascending_insertionSort hrate hquota)

theorem ordered_refundAppliedStateUpdates (us : List StateUpdateRequest) :
    Prog.Ordered rank (fun _ held => held = []) [] (refundAppliedStateUpdates us) := by
  induction us with
  | nil => rfl
  | cons u us ih =>
    have hdrop : Prog.Ordered rank (fun _ held => held = []) ([LockId.state u.state].erase (.state u.state))
        (refundAppliedStateUpdates us) := by
      rw [List.erase_cons_head]
      exact ih
    refine ⟨by simp, ?_⟩
    intro poisoned
    cases poisoned with
    | true => exact hdrop
    | false => exact fun _ => hdrop

theorem returns_initializeMethodStates {ε : Type} (t : String) (now : Nat)
    (l : List (Sigma fun _ : Method => MethodAccessRule)) :
    Returns (initializeMethodStates t now l : Locked ε Unit) fun _ => True := by
  induction l with
  | nil => exact returns_pure trivial
  | cons e l ih =>
    unfold initializeMethodStates
    split
    · exact ih
    · split
      · exact ih
      · exact returns_writeMap.bind fun _ _ => ih

theorem returns_upsertUsageProfileAndResetStates {ε : Type} (t : String) (p : UsageProfile) (now : Nat) :
    Returns (upsertUsageProfileAndResetStates t p now : Locked ε Unit) fun _ => True := by
  refine Returns.bind (Q := fun _ => True) (returns_writeMap.bind fun _ _ => returns_writeMap) fun _ _ => ?_
  refine Returns.bind (Q := fun _ => True) ?_ fun _ _ => returns_writeMap
  refine (returns_initializeMethodStates t now _).bind fun _ _ => ?_
  split
  · exact returns_pure trivial
  · split
    · exact returns_pure trivial
    · exact returns_writeMap

/-! ## Any calls, any interleaving -/

inductive Call where
  | verifyAccess (env : Env) (now : Nat) (request : Request) (event : Event)
  | refundAppliedStateUpdates (updates : List StateUpdateRequest)
  | upsertUsageProfileAndResetStates (targetPubkey : String) (profile : UsageProfile) (now : Nat)
  | clearAllUsageProfilesAndStates
  | getUsageProfile (pubkey : String)
  | upsertUsageProfile (targetPubkey : String) (profile : UsageProfile)
  | clearUsageProfiles
  | getAccessRateState (key : AccessKey)
  | getQuotaState (key : AccessKey)
  | insertAccessRateState (key : AccessKey) (state : RateState)
  | insertQuotaState (key : AccessKey) (state : RateState)
  | retainAccessRateStates (keep : AccessKey → Bool)
  | retainQuotaStates (keep : AccessKey → Bool)
  | clearAllStates

/-- What the call returns is of no concern to the others. -/
def Locked.forget {ε α : Type} (p : Locked ε α) : Prog LockId Stores Unit := Prog.bind p fun _ => .done ()

def Call.program : Call → Prog LockId Stores Unit
  | .verifyAccess env now request event => (Locking.verifyAccess env now request event).forget
  | .refundAppliedStateUpdates updates => Locking.refundAppliedStateUpdates updates
  | .upsertUsageProfileAndResetStates targetPubkey profile now =>
    (Locking.upsertUsageProfileAndResetStates targetPubkey profile now : Locked Empty Unit).forget
  | .clearAllUsageProfilesAndStates => (Locking.clearAllUsageProfilesAndStates : Locked Empty Unit).forget
  | .getUsageProfile pubkey => (Locking.getUsageProfile pubkey : Locked Empty _).forget
  | .upsertUsageProfile targetPubkey profile => (Locking.upsertUsageProfile targetPubkey profile : Locked Empty _).forget
  | .clearUsageProfiles => (Locking.clearUsageProfiles : Locked Empty _).forget
  | .getAccessRateState key => (Locking.getAccessRateState key : Locked Empty _).forget
  | .getQuotaState key => (Locking.getQuotaState key : Locked Empty _).forget
  | .insertAccessRateState key state => (Locking.insertAccessRateState key state : Locked Empty _).forget
  | .insertQuotaState key state => (Locking.insertQuotaState key state : Locked Empty _).forget
  | .retainAccessRateStates keep => (Locking.retainAccessRateStates keep : Locked Empty _).forget
  | .retainQuotaStates keep => (Locking.retainQuotaStates keep : Locked Empty _).forget
  | .clearAllStates => (Locking.clearAllStates : Locked Empty _).forget

theorem Returns.forget {ε α : Type} {p : Locked ε α} {Q : α → Prop} (h : Returns p Q) :
    Prog.Ordered rank (fun _ held => held = []) [] p.forget :=
  Prog.Ordered.bind h fun _ _ hr => hr.1

theorem ordered_program (call : Call) : Prog.Ordered rank (fun _ held => held = []) [] call.program := by
  have hread : ∀ {α : Type} (l : LockId) (f : Stores → α), Prog.Ordered rank (fun _ held => held = []) []
      (readMap l f : Locked Empty α).forget :=
    fun _ _ => (returns_readMap (Q := fun _ => True) fun _ => trivial).forget
  have hwrite : ∀ (l : LockId) (f : Stores → Stores), Prog.Ordered rank (fun _ held => held = []) []
      (writeMap l f : Locked Empty Unit).forget :=
    fun _ _ => returns_writeMap.forget
  cases call with
  | verifyAccess env now request event => exact (returns_verifyAccess env now request event).forget
  | refundAppliedStateUpdates updates => exact ordered_refundAppliedStateUpdates updates
  | upsertUsageProfileAndResetStates t p now => exact (returns_upsertUsageProfileAndResetStates t p now).forget
  | clearAllUsageProfilesAndStates =>
    exact (returns_writeMap.bind fun _ _ => returns_writeMap.bind fun _ _ => returns_writeMap).forget
  | clearAllStates => exact (returns_writeMap.bind fun _ _ => returns_writeMap).forget
  | getUsageProfile pubkey => exact hread ..
  | getAccessRateState key => exact hread ..
  | getQuotaState key => exact hread ..
  | _ => exact hwrite ..

/-- **No deadlock.** As long as a call is unfinished, some unfinished call can go on, and no calls wait for each other in
a cycle: every wait is for a lock that ranks above those held, and between states that is the order of their keys. -/
theorem no_deadlock {T : Type} [Finite T] [DecidableEq T] (calls : T → Call) (s : Stores)
    (c : Config T LockId Stores Unit) (h : Config.Reachable (.start s fun t => (calls t).program) c) :
    ((∃ t, ¬ c.Finished t) → ∃ t, ¬ c.Finished t ∧ c.CanStep t ∧ c.Yields t) ∧
      (∀ t, ¬ Relation.TransGen c.WaitsFor t t) ∧
      (∀ t l mode, c.Awaits t l mode → ∀ held ∈ (c.threads t).held, rank held.1 < rank l) ∧
      Std.TransCmp compareAccessKeys ∧
      ∀ k k' st st', st.store = keyContext k → st'.store = keyContext k' →
        rank (.state st) < rank (.state st') → compareAccessKeys k k' = .lt := by
  have hord : c.Ordered rank := h.ordered fun t => ordered_program (calls t)
  refine ⟨Config.exists_canStep hord, Config.not_waitsFor_cycle hord, ?_, inferInstance, ?_⟩
  · exact fun t l mode ha => Config.rank_lt_of_awaits hord ha
  · rintro k k' ⟨store, cell⟩ ⟨store', cell'⟩ hk hk' hlt
    obtain rfl : store = keyContext k := hk
    obtain rfl : store' = keyContext k' := hk'
    exact compareAccessKeys_of_context hlt

def refundTwice (_ : Fin 2) : Call := .refundAppliedStateUpdates [⟨.quota "alice", ⟨0, 10⟩, 1, .quota, ⟨.quota, 0⟩⟩]

theorem no_deadlock_refunds :
    ∃ c, Config.Reachable (.start .empty fun t => (refundTwice t).program) c ∧ c.WaitsFor 1 0 ∧
      ∃ t, ¬ c.Finished t ∧ c.CanStep t ∧ c.Yields t := by
  have hfree : (Config.start Stores.empty fun t => (refundTwice t).program).Free
      (.state ⟨.quota, 0⟩) .exclusive := fun _ _ hh => by cases hh
  have hreach : Config.Reachable (.start .empty fun t => (refundTwice t).program) _ :=
    .tail .refl ⟨0, .acquire false rfl hfree⟩
  refine ⟨_, hreach, ⟨_, _, ⟨_, rfl⟩, _, List.mem_singleton_self _, rfl, fun h => by cases h.1⟩, ?_⟩
  exact (no_deadlock refundTwice .empty _ hreach).1 ⟨1, fun ⟨_, hdone⟩ => by cases hdone⟩

end LdkController.Locking
