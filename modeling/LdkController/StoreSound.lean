import LdkController.AccessSound
import LdkController.Machine

/-!
# The stores over whole runs

A run replaces and clears profiles, admits requests, and gives back charges that
were handed out at any earlier point. Handles outlive the states they point to,
so the invariant also says what a handle that is still out can reach: nothing,
or a state kept under the very rule that it carries.
-/

namespace LdkController.Store

open Lib

/-- The stores, and every list of updates that `verify_access` has handed out. -/
structure World where
  stores : Stores
  issued : List (List StateUpdateRequest)

def World.empty : World := ⟨.empty, []⟩

inductive Op where
  | upsert (targetPubkey : String) (profile : ValidProfile) (now : Nat)
  | clearAll
  | verify (now : Nat) (request : Request) (event : Event)
  | refund (i : Nat)

def step (env : Env) (w : World) : Op → World
  | .upsert targetPubkey profile now =>
    { w with stores := w.stores.upsertUsageProfileAndResetStates targetPubkey profile.1 now }
  | .clearAll => { w with stores := w.stores.clearAllUsageProfilesAndStates }
  | .verify now request event =>
    match verifyAccess env w.stores now request event with
    | (a, .ok updates) => ⟨{ w.stores with access := a }, w.issued ++ [updates]⟩
    | (a, _) => { w with stores := { w.stores with access := a } }
  | .refund i =>
    { w with stores :=
        { w.stores with access := refundAppliedStateUpdates w.stores.access ((w.issued[i]?).getD []) } }

def after (env : Env) (ops : List Op) : Stores := (exec (step env) .empty ops).stores

/-! ## The invariant -/

structure Inv (w : World) : Prop where
  live : ∀ c k, ((w.stores.access.map c).handle? k).isSome = (w.stores.rule c k).isSome
  bounds : ∀ c k h r, (w.stores.access.map c).handle? k = some h → w.stores.rule c k = some r →
    (w.stores.access.read ⟨c, h⟩).InBounds r
  old : ∀ us ∈ w.issued, ∀ u ∈ us, u.state.cell < (w.stores.access.map u.state.store).next
  reach : ∀ us ∈ w.issued, ∀ u ∈ us, ∀ k,
    (w.stores.access.map u.state.store).handle? k = some u.state.cell →
      w.stores.rule u.state.store k = some u.rule

theorem inv_empty : Inv .empty where
  live c k := by rw [show World.empty.stores.access.map c = .empty from AccessState.map_empty c]; rfl
  bounds c k h r hk := by
    rw [show World.empty.stores.access.map c = .empty from AccessState.map_empty c] at hk; cases hk
  old us hus := by cases hus
  reach us hus := by cases hus

/-- Only cell contents change, each within the bounds of the rule it is kept under. -/
theorem Inv.of_access {w : World} (h : Inv w) {a : AccessState}
    (hh : ∀ c k, (a.map c).handle? k = (w.stores.access.map c).handle? k)
    (hn : ∀ c, (a.map c).next = (w.stores.access.map c).next)
    (hb : ∀ c k cell r, (w.stores.access.map c).handle? k = some cell → w.stores.rule c k = some r →
      (w.stores.access.read ⟨c, cell⟩).InBounds r → (a.read ⟨c, cell⟩).InBounds r) :
    Inv { w with stores := { w.stores with access := a } } where
  live c k := by
    show ((a.map c).handle? k).isSome = _
    rw [hh]; exact h.live c k
  bounds c k cell r hk hr := by
    have hk' : (w.stores.access.map c).handle? k = some cell := (hh c k).symm.trans hk
    exact hb c k cell r hk' hr (h.bounds c k cell r hk' hr)
  old us hus u hu := by
    show _ < (a.map _).next
    rw [hn]; exact h.old us hus u hu
  reach us hus u hu k hk := h.reach us hus u hu k ((hh _ k).symm.trans hk)

/-! ## Replacing and clearing profiles -/

theorem rule_upsert (s : Stores) (t : String) (p : UsageProfile) (now : Nat) (c : AccessErrorContext)
    (k : AccessKey) :
    (s.upsertUsageProfileAndResetStates t p now).rule c k =
      if accessKeyPubkey k = t then p.rule c k else s.rule c k := by
  unfold Stores.rule
  rw [Stores.getUsageProfile_upsert]
  split <;> rfl

theorem at?_upsert_valid (s : Stores) (t : String) (p : ValidProfile) (now : Nat) {c : AccessErrorContext}
    {k : AccessKey} (hk : accessKeyPubkey k = t) :
    ((s.upsertUsageProfileAndResetStates t p.1 now).access.map c).at? k =
      (p.1.rule c k).map fun r => ⟨r.maxCapacity, now⟩ := by
  rw [Stores.at?_upsert _ _ _ _ _ hk]
  cases hr : p.1.rule c k with
  | none => rfl
  | some r =>
    have hf : RateState.fromRule now r = .ok ⟨r.maxCapacity, now⟩ :=
      RateState.fromRule_eq_ok.mpr ⟨p.cap_nonneg hr, rfl⟩
    simp [hf, Except.toOption]

theorem Inv.upsert {w : World} (h : Inv w) (t : String) (p : ValidProfile) (now : Nat) :
    Inv { w with stores := w.stores.upsertUsageProfileAndResetStates t p.1 now } where
  live c k := by
    show (((w.stores.upsertUsageProfileAndResetStates t p.1 now).access.map c).handle? k).isSome =
      ((w.stores.upsertUsageProfileAndResetStates t p.1 now).rule c k).isSome
    rw [rule_upsert]
    by_cases hk : accessKeyPubkey k = t
    · rw [if_pos hk, ← Arena.isSome_at?, at?_upsert_valid w.stores t p now hk, Option.isSome_map]
    · rw [if_neg hk, Stores.handle?_upsert_of_ne _ _ _ _ _ hk]; exact h.live c k
  bounds c k cell r hk hr := by
    show (((w.stores.upsertUsageProfileAndResetStates t p.1 now).access.map c).cells cell).InBounds r
    have hat := Arena.at?_of_handle _ hk
    rw [rule_upsert] at hr
    by_cases hpk : accessKeyPubkey k = t
    · rw [if_pos hpk] at hr
      rw [at?_upsert_valid w.stores t p now hpk, hr, Option.map_some] at hat
      rw [← Option.some.inj hat]
      exact ⟨p.cap_nonneg hr, le_refl _⟩
    · rw [if_neg hpk] at hr
      have hk' : (w.stores.access.map c).handle? k = some cell := by
        rw [← Stores.handle?_upsert_of_ne _ t p.1 now _ hpk]; exact hk
      rw [Stores.at?_upsert_of_ne _ _ _ _ _ hpk, Arena.at?_of_handle _ hk'] at hat
      rw [← Option.some.inj hat]
      exact h.bounds c k cell r hk' hr
  old us hus u hu := Nat.lt_of_lt_of_le (h.old us hus u hu) (Stores.next_le_upsert ..)
  reach us hus u hu k hk := by
    show (w.stores.upsertUsageProfileAndResetStates t p.1 now).rule _ k = some u.rule
    rw [rule_upsert]
    by_cases hpk : accessKeyPubkey k = t
    · -- a handle that is still out is older than every state of the new profile
      have hge := Stores.next_le_handle?_upsert _ _ _ _ _ hpk hk
      exact absurd (h.old us hus u hu) (Nat.not_lt.mpr hge)
    · rw [if_neg hpk]
      apply h.reach us hus u hu k
      rw [← Stores.handle?_upsert_of_ne _ t p.1 now _ hpk]; exact hk

theorem Inv.clearAll {w : World} (h : Inv w) :
    Inv { w with stores := w.stores.clearAllUsageProfilesAndStates } where
  live c k := by
    show ((w.stores.access.clearAllStates.map c).handle? k).isSome = _
    rw [AccessState.map_clearAllStates]; rfl
  bounds c k cell r hk := by
    have hk' : (w.stores.access.clearAllStates.map c).handle? k = some cell := hk
    rw [AccessState.map_clearAllStates] at hk'; cases hk'
  old us hus u hu := by
    show _ < (w.stores.access.clearAllStates.map _).next
    rw [AccessState.map_clearAllStates]; exact h.old us hus u hu
  reach us hus u hu k hk := by
    have hk' : (w.stores.access.clearAllStates.map u.state.store).handle? k = some u.state.cell := hk
    rw [AccessState.map_clearAllStates] at hk'; cases hk'

/-! ## Admitting requests -/

/-- Under the invariant a prepared update carries the rule its state is kept under: a state that the `ALL` entry's
rule would need does not exist. -/
theorem Inv.rule_of_prepared {w : World} (h : Inv w) {env : Env} {request : Request} {caller : String}
    {u : StateUpdateRequest} (hu : Prepared env w.stores request caller u) :
    w.stores.rule u.context u.key = some u.rule := by
  have hlive := h.live u.context u.key
  rw [hu.handle, Option.isSome_some] at hlive
  cases hu with
  | quota hp _ _ hr _ =>
    show (w.stores.getUsageProfile caller).bind _ = _
    rw [hp]; exact hr
  | @accessRate profile mr rule cell hp hm hr _ =>
    have hrule : w.stores.rule .accessRate (.method caller request.method) =
        (profile.methods.bind (·.lookup request.method)).bind (·.accessRate) := by
      show (w.stores.getUsageProfile caller).bind _ = _
      rw [hp]; rfl
    rw [hrule] at hlive ⊢
    rcases authorizeMethod_eq_ok.mp hm with ⟨_, he⟩ | ⟨ms, mr', hms, he, hlk | ⟨hlk, _⟩⟩
    · cases he
    · obtain rfl := Option.some.inj he
      rw [hms, Option.bind_some, hlk]; exact hr
    · rw [hms, Option.bind_some, hlk] at hlive
      cases hlive

theorem Inv.debit {w : World} (h : Inv w) {env : Env} {now : Nat} {request : Request} {caller : String}
    {us : List StateUpdateRequest} (hp : prepareUpdates env w.stores request caller = .ok us)
    (hc : Covered w.stores.access now us) :
    Inv { w with stores := { w.stores with access := us.foldl (debit now) w.stores.access } } := by
  apply h.of_access (fun c k => handle?_debitEach now us c k _) (fun c => next_debitEach now us c _)
  intro c k cell r hk hr hb
  by_cases hmem : ∃ u ∈ us, u.state = ⟨c, cell⟩
  · obtain ⟨u, hu, hst⟩ := hmem
    have hprep := prepared_of_mem hp u hu
    have hctx : u.context = c := by rw [← hprep.store, hst]
    have hkey : u.key = k := by
      have hh := hprep.handle
      rw [hctx, hst] at hh
      exact Arena.handle?_inj _ hh hk
    have hrule := h.rule_of_prepared hprep
    rw [hctx, hkey, hr] at hrule
    obtain rfl := Option.some.inj hrule
    rw [← hst] at hb ⊢
    rw [read_debitEach now (states_pairwise_ne hp) hu]
    have hw := hb.withdraw u.amount now
    rwa [RateState.withdraw_of_covers (hc u hu)] at hw
  · rw [read_debitEach_of_forall now w.stores.access fun u hu he => hmem ⟨u, hu, he.symm⟩]
    exact hb

theorem Inv.issue {w : World} (h : Inv w) {us : List StateUpdateRequest}
    (hold : ∀ u ∈ us, u.state.cell < (w.stores.access.map u.state.store).next)
    (hreach : ∀ u ∈ us, ∀ k, (w.stores.access.map u.state.store).handle? k = some u.state.cell →
      w.stores.rule u.state.store k = some u.rule) : Inv { w with issued := w.issued ++ [us] } where
  live := h.live
  bounds := h.bounds
  old us' hus' := by
    rcases List.mem_append.mp hus' with hmem | hmem
    · exact h.old us' hmem
    · obtain rfl := List.mem_singleton.mp hmem; exact hold
  reach us' hus' := by
    rcases List.mem_append.mp hus' with hmem | hmem
    · exact h.reach us' hmem
    · obtain rfl := List.mem_singleton.mp hmem; exact hreach

theorem Inv.verify {w : World} (h : Inv w) (env : Env) (now : Nat) (request : Request) (event : Event) :
    Inv (step env w (.verify now request event)) := by
  rcases verifyAccess_cases env w.stores now request event with
    ⟨r, _, hv⟩ | ⟨_, hv⟩ | ⟨us, e, c, _, _, hv⟩ | ⟨us, hp, hc, hv⟩ <;> simp only [step, hv]
  · exact h
  · exact h
  · exact h
  · apply (h.debit hp hc).issue
    · intro u hu
      have hprep := prepared_of_mem hp u hu
      show _ < ((us.foldl (LdkController.debit now) w.stores.access).map _).next
      rw [next_debitEach, hprep.store]
      exact Arena.handle?_lt _ hprep.handle
    · intro u hu k hk
      have hprep := prepared_of_mem hp u hu
      have hk' : ((us.foldl (LdkController.debit now) w.stores.access).map u.state.store).handle? k =
        some u.state.cell := hk
      rw [handle?_debitEach, hprep.store] at hk'
      obtain rfl := Arena.handle?_inj _ hk' hprep.handle
      show w.stores.rule _ _ = _
      rw [hprep.store]
      exact h.rule_of_prepared hprep

/-! ## Giving charges back -/

theorem Inv.refund {w : World} (h : Inv w) {us : List StateUpdateRequest}
    (hreach : ∀ u ∈ us, ∀ k, (w.stores.access.map u.state.store).handle? k = some u.state.cell →
      w.stores.rule u.state.store k = some u.rule) :
    Inv { w with stores := { w.stores with access := refundAppliedStateUpdates w.stores.access us } } := by
  induction us generalizing w with
  | nil => exact h
  | cons u us ih =>
    have hone : Inv { w with stores := { w.stores with
        access := w.stores.access.write u.state ((w.stores.access.read u.state).refund u.amount u.rule).1 } } := by
      apply h.of_access (fun c k => AccessState.handle?_write ..) (fun c => AccessState.next_write ..)
      intro c k cell r hk hr hb
      by_cases hst : u.state = ⟨c, cell⟩
      · have hrule := hreach u List.mem_cons_self k (by rw [hst]; exact hk)
        rw [hst] at hrule ⊢
        obtain rfl := Option.some.inj (hr.symm.trans hrule)
        rw [AccessState.read_write_self]
        exact hb.refund u.amount
      · rw [AccessState.read_write_of_ne _ _ fun he => hst he.symm]
        exact hb
    apply ih hone
    intro v hv k hk
    apply hreach v (List.mem_cons_of_mem u hv) k
    have hk' : ((w.stores.access.write u.state _).map v.state.store).handle? k = some v.state.cell := hk
    rwa [AccessState.handle?_write] at hk'

/-! ## The run -/

theorem inv_step (env : Env) {w : World} (op : Op) (h : Inv w) : Inv (step env w op) := by
  cases op with
  | upsert t p now => exact h.upsert t p now
  | clearAll => exact h.clearAll
  | verify now request event => exact h.verify env now request event
  | refund i =>
    apply h.refund
    intro u hu
    cases hi : w.issued[i]? with
    | none => rw [hi] at hu; cases hu
    | some us => rw [hi] at hu; exact h.reach us (List.mem_of_getElem? hi) u hu

theorem inv_run (env : Env) (ops : List Op) : Inv (exec (step env) .empty ops) :=
  exec_inv (fun _ op => inv_step env op) ops inv_empty

theorem rule_accessRate {s : Stores} {p : String} {m : Method} {rule : RateLimitRule} :
    s.rule .accessRate (.method p m) = some rule ↔
      ∃ profile ms mr, s.getUsageProfile p = some profile ∧ profile.methods = some ms ∧ ms.lookup m = some mr ∧
        mr.accessRate = some rule := by
  simp only [Stores.rule, accessKeyPubkey, UsageProfile.rule, Option.bind_eq_some_iff]
  constructor
  · rintro ⟨profile, hp, mr, ⟨ms, hms, hlk⟩, hr⟩
    exact ⟨profile, ms, mr, hp, hms, hlk, hr⟩
  · rintro ⟨profile, ms, mr, hp, hms, hlk, hr⟩
    exact ⟨profile, hp, mr, ⟨ms, hms, hlk⟩, hr⟩

theorem rule_quota {s : Stores} {p : String} {rule : RateLimitRule} :
    s.rule .quota (.quota p) = some rule ↔
      ∃ profile, s.getUsageProfile p = some profile ∧ profile.quota = some rule := by
  simp only [Stores.rule, accessKeyPubkey, UsageProfile.rule, Option.bind_eq_some_iff]

theorem handle_of_getAccessRateState {a : AccessState} {k : AccessKey} {h : SharedRateState}
    (hk : a.getAccessRateState k = some h) : ∃ cell, h = ⟨.accessRate, cell⟩ ∧ a.accessRate.handle? k = some cell := by
  obtain ⟨cell, hc, rfl⟩ := Option.map_eq_some_iff.mp hk
  exact ⟨cell, rfl, hc⟩

theorem handle_of_getQuotaState {a : AccessState} {k : AccessKey} {h : SharedRateState}
    (hk : a.getQuotaState k = some h) : ∃ cell, h = ⟨.quota, cell⟩ ∧ a.quota.handle? k = some cell := by
  obtain ⟨cell, hc, rfl⟩ := Option.map_eq_some_iff.mp hk
  exact ⟨cell, rfl, hc⟩

theorem Inv.isSome_getAccessRateState {w : World} (h : Inv w) (k : AccessKey) :
    (w.stores.access.getAccessRateState k).isSome = (w.stores.rule .accessRate k).isSome := by
  unfold AccessState.getAccessRateState
  rw [Option.isSome_map]
  exact h.live .accessRate k

theorem Inv.isSome_getQuotaState {w : World} (h : Inv w) (k : AccessKey) :
    (w.stores.access.getQuotaState k).isSome = (w.stores.rule .quota k).isSome := by
  unfold AccessState.getQuotaState
  rw [Option.isSome_map]
  exact h.live .quota k

def Op.installs (p : String) : Op → Option (Option UsageProfile)
  | .upsert targetPubkey profile _ => if targetPubkey = p then some (some profile.1) else none
  | .clearAll => some none
  | .verify _ _ _ => none
  | .refund _ => none

/-- The profile of the last upsert for the pubkey, if no clear came after it. -/
def lastUpsert (p : String) (ops : List Op) : Option UsageProfile := (ops.reverse.findSome? (Op.installs p)).join

theorem getUsageProfile_step (env : Env) (w : World) (op : Op) (p : String) :
    (step env w op).stores.getUsageProfile p = (op.installs p).getD (w.stores.getUsageProfile p) := by
  cases op with
  | upsert targetPubkey profile now =>
    refine (Stores.getUsageProfile_upsert ..).trans ?_
    simp only [Op.installs]
    by_cases h : targetPubkey = p
    · rw [if_pos h, if_pos h.symm]
      rfl
    · rw [if_neg h, if_neg fun h' => h h'.symm]
      rfl
  | clearAll => exact AList.lookup_empty p
  | verify now request event =>
    simp only [step]
    rcases verifyAccess env w.stores now request event with ⟨a, us | response | _⟩ <;> rfl
  | refund i => rfl

theorem getUsageProfile_exec (env : Env) (p : String) (ops : List Op) :
    ∀ w : World, (exec (step env) w ops).stores.getUsageProfile p =
      (ops.reverse.findSome? (Op.installs p)).getD (w.stores.getUsageProfile p) := by
  induction ops with
  | nil => exact fun w => rfl
  | cons op ops ih =>
    intro w
    rw [exec_cons, ih, getUsageProfile_step, List.reverse_cons, List.findSome?_append, List.findSome?_singleton]
    cases ops.reverse.findSome? (Op.installs p) <;> rfl

theorem getUsageProfile_after (env : Env) (ops : List Op) (p : String) :
    (after env ops).getUsageProfile p = lastUpsert p ops := by
  refine (getUsageProfile_exec env p ops .empty).trans ?_
  unfold lastUpsert
  cases ops.reverse.findSome? (Op.installs p) <;> rfl

/-- **The store invariant.** After every run the profile of a pubkey is the one installed last, it has exactly the
states that this profile has rules for, and each balance is within the capacity of its current rule. -/
theorem store_invariant (env : Env) (ops : List Op) (p : String) :
    let s := after env ops
    s.getUsageProfile p = lastUpsert p ops ∧
    (∀ m, (s.access.getAccessRateState (.method p m)).isSome ↔
      ∃ profile ms mr rule, s.getUsageProfile p = some profile ∧ profile.methods = some ms ∧
        ms.lookup m = some mr ∧ mr.accessRate = some rule) ∧
    ((s.access.getQuotaState (.quota p)).isSome ↔
      ∃ profile rule, s.getUsageProfile p = some profile ∧ profile.quota = some rule) ∧
    (s.getUsageProfile p = none → ∀ k, accessKeyPubkey k = p →
      s.access.getAccessRateState k = none ∧ s.access.getQuotaState k = none) ∧
    (∀ profile ms m mr rule h, s.getUsageProfile p = some profile → profile.methods = some ms →
      ms.lookup m = some mr → mr.accessRate = some rule → s.access.getAccessRateState (.method p m) = some h →
      0 ≤ (s.access.read h).balance ∧ (s.access.read h).balance ≤ rule.maxCapacity) ∧
    ∀ profile rule h, s.getUsageProfile p = some profile → profile.quota = some rule →
      s.access.getQuotaState (.quota p) = some h →
      0 ≤ (s.access.read h).balance ∧ (s.access.read h).balance ≤ rule.maxCapacity := by
  intro s
  have hinv := inv_run env ops
  have hrate : ∀ k, (s.access.getAccessRateState k).isSome = (s.rule .accessRate k).isSome :=
    hinv.isSome_getAccessRateState
  have hquota : ∀ k, (s.access.getQuotaState k).isSome = (s.rule .quota k).isSome := hinv.isSome_getQuotaState
  refine ⟨getUsageProfile_after env ops p, ?_, ?_, ?_, ?_, ?_⟩
  · intro m
    rw [hrate, Option.isSome_iff_exists]
    constructor
    · rintro ⟨rule, hr⟩
      obtain ⟨profile, ms, mr, h⟩ := rule_accessRate.mp hr
      exact ⟨profile, ms, mr, rule, h⟩
    · rintro ⟨profile, ms, mr, rule, h⟩
      exact ⟨rule, rule_accessRate.mpr ⟨profile, ms, mr, h⟩⟩
  · rw [hquota, Option.isSome_iff_exists]
    constructor
    · rintro ⟨rule, hr⟩
      obtain ⟨profile, h⟩ := rule_quota.mp hr
      exact ⟨profile, rule, h⟩
    · rintro ⟨profile, rule, h⟩
      exact ⟨rule, rule_quota.mpr ⟨profile, h⟩⟩
  · intro hp k hk
    have hnone : ∀ c, s.rule c k = none := by
      intro c
      unfold Stores.rule
      rw [hk, hp]; rfl
    have ha := hrate k
    have hq := hquota k
    rw [hnone, Option.isSome_none, Option.isSome_eq_false_iff, Option.isNone_iff_eq_none] at ha hq
    exact ⟨ha, hq⟩
  · intro profile ms m mr rule h hp hms hlk hr hh
    obtain ⟨cell, rfl, hc⟩ := handle_of_getAccessRateState hh
    exact hinv.bounds .accessRate _ cell rule hc (rule_accessRate.mpr ⟨profile, ms, mr, hp, hms, hlk, hr⟩)
  · intro profile rule h hp hr hh
    obtain ⟨cell, rfl, hc⟩ := handle_of_getQuotaState hh
    exact hinv.bounds .quota _ cell rule hc (rule_quota.mpr ⟨profile, hp, hr⟩)

/-! ## Permitted methods and their states -/

def Permits (p : UsageProfile) (m : Method) : Prop := ∀ ms, p.methods = some ms → m ∈ ms ∨ Method.all ∈ ms

/-- Where the method is not listed, the entry that permits it carries no rate. -/
def Keyed (p : UsageProfile) (m : Method) : Prop :=
  ∀ ms, p.methods = some ms → m ∈ ms ∨ ∀ mr, ms.lookup Method.all = some mr → mr.accessRate = none

theorem authorizeMethod_of_permits {p : UsageProfile} {m : Method} (h : Permits p m) :
    ∃ mr, authorizeMethod p m = .ok mr := by
  cases hms : p.methods with
  | none => exact ⟨none, authorizeMethod_eq_ok.mpr (.inl ⟨hms, rfl⟩)⟩
  | some ms =>
    cases hm : ms.lookup m with
    | some mr => exact ⟨some mr, authorizeMethod_eq_ok.mpr (.inr ⟨ms, mr, hms, rfl, .inl hm⟩)⟩
    | none =>
      rcases h ms hms with hmem | hall
      · rw [← AList.lookup_isSome, hm] at hmem; cases hmem
      · obtain ⟨mr, hmr⟩ := Option.isSome_iff_exists.mp (AList.lookup_isSome.mpr hall)
        exact ⟨some mr, authorizeMethod_eq_ok.mpr (.inr ⟨ms, mr, hms, rfl, .inr ⟨hm, hmr⟩⟩)⟩

section
variable {w : World} {env : Env} {now : Nat} {request : Request} {event : Event} {profile : UsageProfile}

theorem Inv.accessRateUpdates_of_keyed (h : Inv w) {caller : String}
    (hp : w.stores.getUsageProfile caller = some profile) (hk : Keyed profile request.method)
    {mr : Option MethodAccessRule} (hm : authorizeMethod profile request.method = .ok mr) :
    ∃ us, accessRateUpdates w.stores.access request caller mr = .ok us := by
  cases hr : mr.bind (·.accessRate) with
  | none => exact ⟨[], accessRateUpdates_eq_ok.mpr (.inl ⟨hr, rfl⟩)⟩
  | some rule =>
    obtain ⟨mr', rfl, hr'⟩ := Option.bind_eq_some_iff.mp hr
    have hlk : ∃ ms, profile.methods = some ms ∧ ms.lookup request.method = some mr' := by
      rcases authorizeMethod_eq_ok.mp hm with ⟨_, he⟩ | ⟨ms, mr'', hms, he, hlk | ⟨hnone, hall⟩⟩
      · cases he
      · obtain rfl := Option.some.inj he
        exact ⟨ms, hms, hlk⟩
      · obtain rfl := Option.some.inj he
        rcases hk ms hms with hmem | hfree
        · rw [← AList.lookup_isSome, hnone] at hmem; cases hmem
        · rw [hfree _ hall] at hr'; cases hr'
    obtain ⟨ms, hms, hlk⟩ := hlk
    have hlive := h.live .accessRate (.method caller request.method)
    rw [rule_accessRate.mpr ⟨profile, ms, mr', hp, hms, hlk, hr'⟩] at hlive
    obtain ⟨cell, hc⟩ := Option.isSome_iff_exists.mp hlive
    exact ⟨_, accessRateUpdates_eq_ok.mpr (.inr ⟨rule, cell, hr, hc, rfl⟩)⟩

theorem Inv.quotaUpdates_of_profile (h : Inv w) {caller : String}
    (hp : w.stores.getUsageProfile caller = some profile) (amount : Nat) :
    ∃ us, quotaUpdates w.stores.access request caller profile amount = .ok us := by
  rcases Nat.eq_zero_or_pos amount with h0 | hpos
  · exact ⟨[], quotaUpdates_eq_ok.mpr (.inl ⟨.inl h0, rfl⟩)⟩
  · cases hq : profile.quota with
    | none => exact ⟨[], quotaUpdates_eq_ok.mpr (.inl ⟨.inr hq, rfl⟩)⟩
    | some rule =>
      have hlive := h.live .quota (.quota caller)
      rw [rule_quota.mpr ⟨profile, hp, hq⟩] at hlive
      obtain ⟨cell, hc⟩ := Option.isSome_iff_exists.mp hlive
      exact ⟨_, quotaUpdates_eq_ok.mpr (.inr ⟨rule, cell, hpos, hq, hc, rfl⟩)⟩

theorem Inv.prepareUpdates_ne_err (h : Inv w) {caller : String}
    (hp : w.stores.getUsageProfile caller = some profile) (hperm : Permits profile request.method)
    (hk : Keyed profile request.method) (r : Response) : prepareUpdates env w.stores request caller ≠ .err r := by
  obtain ⟨mr, hm⟩ := authorizeMethod_of_permits hperm
  obtain ⟨rate, hr⟩ := h.accessRateUpdates_of_keyed hp hk hm
  unfold prepareUpdates
  rw [hp]
  simp only [Outcome.okOr, Outcome.ok_bind, hm, hr]
  cases hs : requestSpendMsat env request with
  | err e => exact absurd hs (requestSpendMsat_ne_err env request e)
  | panic => intro he; cases he
  | ok spend =>
    obtain ⟨quota, hq⟩ : ∃ us, quotaUpdates w.stores.access request caller profile (spend.getD 0) = .ok us :=
      h.quotaUpdates_of_profile hp _
    simp only [Outcome.ok_bind, hq]
    intro he; cases he

theorem rateStateErrorResponse_ne_missing (m : Method) (e : RateStateError) (c c' : AccessErrorContext) :
    rateStateErrorResponse m e c ≠ missingStateResponse m c' := by
  cases e <;> cases c <;> cases c' <;>
    simp [rateStateErrorResponse, mapRateStateError, missingStateResponse, Response.ofError]

theorem Inv.verifyAccess_of_not_keyed (h : Inv w) (hp : w.stores.getUsageProfile event.pubkey = some profile)
    (hk : ¬ Keyed profile request.method) :
    (verifyAccess env w.stores now request event).2 = .err (missingStateResponse request.method .accessRate) := by
  simp only [Keyed, not_forall, not_or] at hk
  obtain ⟨ms, hms, hmem, mr, hall, hr⟩ := hk
  obtain ⟨rule, hr⟩ := Option.ne_none_iff_exists'.mp hr
  have hlk : ms.lookup request.method = none := AList.lookup_eq_none.mpr hmem
  have hm : authorizeMethod profile request.method = .ok (some mr) :=
    authorizeMethod_eq_ok.mpr (.inr ⟨ms, mr, hms, rfl, .inr ⟨hlk, hall⟩⟩)
  have hlive := h.isSome_getAccessRateState (.method event.pubkey request.method)
  have hnone : w.stores.rule .accessRate (.method event.pubkey request.method) = none := by
    simp only [Stores.rule, accessKeyPubkey, hp, Option.bind_some, UsageProfile.rule, hms, hlk, Option.bind_none]
  rw [hnone, Option.isSome_none, Option.isSome_eq_false_iff, Option.isNone_iff_eq_none] at hlive
  have hprep : prepareUpdates env w.stores request event.pubkey =
      .err (missingStateResponse request.method .accessRate) := by
    unfold prepareUpdates
    rw [hp]
    simp only [Outcome.okOr, Outcome.ok_bind, hm, accessRateUpdates, Option.bind_some, hr, hlive, Outcome.err_bind]
  unfold verifyAccess
  rw [hprep]

theorem Inv.verifyAccess_ne_missing (h : Inv w) (hp : w.stores.getUsageProfile event.pubkey = some profile)
    (hperm : Permits profile request.method) (hk : Keyed profile request.method) (c : AccessErrorContext) :
    (verifyAccess env w.stores now request event).2 ≠ .err (missingStateResponse request.method c) := by
  intro hv
  rcases verifyAccess_cases env w.stores now request event with
    ⟨r, hpr, _⟩ | ⟨_, he⟩ | ⟨us, e, c', _, _, he⟩ | ⟨us, _, _, he⟩
  · exact h.prepareUpdates_ne_err hp hperm hk r hpr
  · rw [he] at hv; cases hv
  · rw [he] at hv
    exact rateStateErrorResponse_ne_missing _ e c' c (Outcome.err.inj hv)
  · rw [he] at hv; cases hv

/-- A request that spends nothing needs the one token of its method only. -/
theorem Inv.verifyAccess_of_token (h : Inv w) (hp : w.stores.getUsageProfile event.pubkey = some profile)
    (hperm : Permits profile request.method) (hk : Keyed profile request.method) {spend : Option Nat}
    (hspend : requestSpendMsat env request = (.ok spend : Outcome Response _)) (hzero : spend.getD 0 = 0)
    (htoken : ∀ mr rule h, authorizeMethod profile request.method = .ok (some mr) → mr.accessRate = some rule →
      w.stores.access.getAccessRateState (.method event.pubkey request.method) = some h →
      1000000 ≤ (w.stores.access.read h).refilled now rule) :
    (verifyAccess env w.stores now request event).2.isOk = true := by
  obtain ⟨mr, hm⟩ := authorizeMethod_of_permits hperm
  obtain ⟨rate, hr⟩ := h.accessRateUpdates_of_keyed hp hk hm
  have hprep : prepareUpdates env w.stores request event.pubkey = .ok (rate ++ []) :=
    prepareUpdates_eq_ok.mpr ⟨profile, mr, spend, rate, [], hp, hm, hr, hspend,
      quotaUpdates_eq_ok.mpr (.inl ⟨.inl hzero, rfl⟩), rfl⟩
  have hcov : Covered w.stores.access now (rate ++ []) := by
    rw [List.append_nil]
    rcases accessRateUpdates_eq_ok.mp hr with ⟨_, rfl⟩ | ⟨rule, cell, hrule, hc, rfl⟩
    · intro u hu; cases hu
    · intro u hu
      obtain rfl := List.mem_singleton.mp hu
      obtain ⟨mr', rfl, hrule⟩ := Option.bind_eq_some_iff.mp hrule
      have hget : w.stores.access.getAccessRateState (.method event.pubkey request.method) =
          some ⟨.accessRate, cell⟩ := by
        unfold AccessState.getAccessRateState
        rw [hc]; rfl
      have hle := htoken mr' rule _ hm hrule hget
      have hcap := RateState.refilled_le_cap (w.stores.access.read ⟨.accessRate, cell⟩) now rule
      have hamount : ((1000000 : Nat) : Int) ≤ i64Max := by decide
      exact ⟨le_trans (by decide) (le_trans hle hcap), hamount, hle⟩
  rw [verifyAccess_eq_ok.mpr ⟨hprep, hcov⟩]
  rfl

/-- **Counters of permitted methods.** In every state of every run, a permitted request never meets a missing state and
is admitted from a bucket that holds its token, if and only if the profile keeps a state for its method. -/
theorem permitted_counters_iff (ops : List Op) (hp : (after env ops).getUsageProfile event.pubkey = some profile)
    (hperm : Permits profile request.method) :
    ((∀ c, (verifyAccess env (after env ops) now request event).2 ≠
        .err (missingStateResponse request.method c)) ∧
      ∀ spend, requestSpendMsat env request = (.ok spend : Outcome Response _) → spend.getD 0 = 0 →
        (∀ mr rule h, authorizeMethod profile request.method = .ok (some mr) → mr.accessRate = some rule →
          (after env ops).access.getAccessRateState (.method event.pubkey request.method) = some h →
          1000000 ≤ ((after env ops).access.read h).refilled now rule) →
        (verifyAccess env (after env ops) now request event).2.isOk = true) ↔
      Keyed profile request.method := by
  have hinv := inv_run env ops
  constructor
  · intro hall
    by_contra hk
    exact hall.1 .accessRate (hinv.verifyAccess_of_not_keyed hp hk)
  · intro hk
    refine ⟨hinv.verifyAccess_ne_missing hp hperm hk, ?_⟩
    intro spend hspend hzero htoken
    exact hinv.verifyAccess_of_token hp hperm hk hspend hzero htoken

end

/-! ## A rated `ALL` entry -/

def ratedProfile (m : Method) : ValidProfile :=
  ⟨⟨none, some (AList.singleton m ⟨some ⟨0, 5000000⟩⟩), none⟩, by
    intro r hr
    simp [UsageProfile.rules] at hr
    simp [hr]⟩

theorem permitted_counters_get_info :
    (verifyAccess Sample.env (after Sample.env [.upsert Sample.alice (ratedProfile .getInfo) 0]) 7
      ⟨.getInfo, .getInfo⟩ Sample.event).2.isOk = true := by
  have hp : (after Sample.env [.upsert Sample.alice (ratedProfile .getInfo) 0]).getUsageProfile Sample.event.pubkey =
      some (ratedProfile .getInfo).1 := by rfl
  have hperm : Permits (ratedProfile .getInfo).1 (⟨.getInfo, .getInfo⟩ : Request).method := by
    intro ms hms
    obtain rfl := Option.some.inj hms
    exact .inl (by decide)
  have hk : Keyed (ratedProfile .getInfo).1 .getInfo := by
    intro ms hms
    obtain rfl := Option.some.inj hms
    exact .inl (by decide)
  refine ((permitted_counters_iff _ hp hperm).mpr hk).2 none rfl rfl ?_
  intro mr rule h hm hr hh
  obtain rfl : (⟨some ⟨0, 5000000⟩⟩ : MethodAccessRule) = mr := Option.some.inj (Outcome.ok.inj hm)
  obtain rfl := Option.some.inj hr
  obtain rfl : (⟨.accessRate, 0⟩ : SharedRateState) = h := Option.some.inj hh
  decide

/-- The state of an `ALL` entry is full, but no request is ever looked up there. -/
theorem permitted_counters_fail :
    (after Sample.env [.upsert Sample.alice (ratedProfile Method.all) 0]).access.accessRate.at?
        (.method Sample.alice Method.all) = some ⟨5000000, 0⟩ ∧
      Permits (ratedProfile Method.all).1 .getInfo ∧
      (verifyAccess Sample.env (after Sample.env [.upsert Sample.alice (ratedProfile Method.all) 0]) 7
        ⟨.getInfo, .getInfo⟩ Sample.event).2 = .err (missingStateResponse .getInfo .accessRate) := by
  refine ⟨by rfl, ?_, by rfl⟩
  intro ms hms
  obtain rfl := Option.some.inj hms
  exact .inr (by decide)

end LdkController.Store
