import LdkController.Ledger
import LdkController.RateStateSound
import LdkController.StoreSound

/-!
# Exact accounting

What a state without refill holds is its capacity less what a ledger of the run
says it is owed. The ledger sees which profiles are replaced, what each admitted
request is charged and which requests are refunded. It names a state by its map
and key, so it knows nothing of handles, and a refund through a handle that
outlived its state must come out as no entry of the new one.
-/

namespace LdkController.Accounting

open Lib

/-- The stores, the requests in flight and those of them that were refunded. -/
structure World extends Store.World where
  refunded : Finset Nat

def World.empty : World := ⟨.empty, ∅⟩

/-- A capacity is an `i64`. -/
abbrev BoundedProfile := { p : ValidProfile // ∀ r ∈ p.1.rules, r.maxCapacity ≤ i64Max }

inductive Op where
  | upsert (targetPubkey : String) (profile : BoundedProfile) (now : Nat)
  | clearAll
  | verify (now : Nat) (request : Request) (event : Event)
  | refund (i : Nat)

/-- A request is refunded at most once, and only after it was admitted. -/
def Refundable (w : World) (i : Nat) : Prop := i < w.issued.length ∧ i ∉ w.refunded

instance (w : World) (i : Nat) : Decidable (Refundable w i) := inferInstanceAs (Decidable (_ ∧ _))

def step (env : Env) (w : World) : Op → World
  | .upsert targetPubkey profile now =>
    { w with toWorld := Store.step env w.toWorld (.upsert targetPubkey profile.1 now) }
  | .clearAll => { w with toWorld := Store.step env w.toWorld .clearAll }
  | .verify now request event => { w with toWorld := Store.step env w.toWorld (.verify now request event) }
  | .refund i =>
    if Refundable w i then ⟨Store.step env w.toWorld (.refund i), insert i w.refunded⟩ else w

/-! ## The ledger of a run -/

abbrev Account := AccessErrorContext × AccessKey

def amountOf (us : List StateUpdateRequest) (p : StateUpdateRequest → Bool) : Nat := ((us.filter p).map (·.amount)).sum

def entry (env : Env) (w : World) : Op → Option (Entry Account)
  | .upsert targetPubkey _ _ => some (.reopen fun a => accessKeyPubkey a.2 = targetPubkey)
  | .clearAll => some (.reopen fun _ => true)
  | .verify now request event =>
    match (verifyAccess env w.stores now request event).2 with
    | .ok us => some (.charge fun a => amountOf us fun u => (u.context, u.key) = a)
    | _ => none
  | .refund i => if Refundable w i then some (.giveBack i) else none

def ledger (env : Env) (ops : List Op) : Ledger Account :=
  (answers (step env) (entry env) .empty ops).foldl Ledger.post .empty

/-! ## Amounts -/

theorem amountOf_of_forall {us : List StateUpdateRequest} {p : StateUpdateRequest → Bool}
    (h : ∀ u ∈ us, p u = false) : amountOf us p = 0 := by
  unfold amountOf
  rw [List.filter_eq_nil_iff.mpr fun u hu => by simp [h u hu]]
  rfl

theorem amountOf_congr {us : List StateUpdateRequest} {p q : StateUpdateRequest → Bool}
    (h : ∀ u ∈ us, p u = q u) : amountOf us p = amountOf us q := by
  unfold amountOf
  rw [List.filter_congr h]

theorem amountOf_state {us : List StateUpdateRequest} (hne : us.Pairwise fun u v => u.state ≠ v.state)
    {u : StateUpdateRequest} (hu : u ∈ us) : amountOf us (fun v => v.state = u.state) = u.amount := by
  induction us with
  | nil => cases hu
  | cons v us ih =>
    obtain ⟨hv, hus⟩ := List.pairwise_cons.mp hne
    unfold amountOf
    rcases List.mem_cons.mp hu with rfl | hmem
    · have hrest : amountOf us (fun v => v.state = u.state) = 0 := by
        apply amountOf_of_forall
        intro w hw
        simp [(hv w hw).symm]
      unfold amountOf at hrest
      simp [hrest]
    · have hvu := hv u hmem
      have ih := ih hus hmem
      unfold amountOf at ih
      simp [hvu, ih]

/-- What is charged to a live state by its name is what is charged through its handle. -/
theorem amountOf_account {s : Stores} {env : Env} {request : Request} {caller : String} {us : List StateUpdateRequest}
    (hp : prepareUpdates env s request caller = .ok us) {c : AccessErrorContext} {k : AccessKey} {cell : Nat}
    (hcell : (s.access.map c).handle? k = some cell) :
    amountOf us (fun u => (u.context, u.key) = (c, k)) = amountOf us fun u => u.state = ⟨c, cell⟩ := by
  apply amountOf_congr
  intro u hu
  have hprep := prepared_of_mem hp u hu
  have hh := hprep.handle
  have hs := hprep.store
  rw [decide_eq_decide]
  constructor
  · intro he
    obtain ⟨hc, hk⟩ := Prod.mk.inj he
    rw [hc, hk, hcell] at hh
    show (⟨u.state.store, u.state.cell⟩ : SharedRateState) = _
    rw [hs, hc, Option.some.inj hh]
  · intro hst
    rw [hst] at hh hs
    have hc : c = u.context := hs
    rw [← hc] at hh
    rw [← hc, (s.access.map c).handle?_inj hh hcell]

/-! ## The invariant -/

structure Balanced (w : World) (l : Ledger Account) : Prop where
  store : Store.Inv w.toWorld
  count : l.count = w.issued.length
  admitted : ∀ i ∈ w.refunded, i < w.issued.length
  distinct : ∀ us ∈ w.issued, us.Pairwise fun u v => u.state ≠ v.state
  bounded : ∀ c k r, w.stores.rule c k = some r → r.maxCapacity ≤ i64Max
  owed : ∀ c k h, (w.stores.access.map c).handle? k = some h → ∀ i us, w.issued[i]? = some us →
    l.owed (c, k) i = if i ∈ w.refunded then 0 else amountOf us fun u => u.state = ⟨c, h⟩
  exact : ∀ c k h r, (w.stores.access.map c).handle? k = some h → w.stores.rule c k = some r → r.ratePerMicro = 0 →
    (w.stores.access.read ⟨c, h⟩).balance = r.maxCapacity - l.total (c, k)

theorem balanced_empty : Balanced .empty .empty where
  store := Store.inv_empty
  count := rfl
  admitted i hi := by cases hi
  distinct us hus := by cases hus
  bounded c k r hr := by cases hr
  owed c k h hk := by
    rw [show World.empty.stores.access.map c = .empty from AccessState.map_empty c] at hk; cases hk
  exact c k h r hk := by
    rw [show World.empty.stores.access.map c = .empty from AccessState.map_empty c] at hk; cases hk

theorem step_verify_of_ok {w : World} {env : Env} {now : Nat} {request : Request} {event : Event} {us : List StateUpdateRequest}
    (hv : (verifyAccess env w.stores now request event).2 = .ok us) :
    step env w (.verify now request event) =
      ⟨⟨{ w.stores with access := us.foldl (debit now) w.stores.access }, w.issued ++ [us]⟩, w.refunded⟩ := by
  have hpair : verifyAccess env w.stores now request event = (us.foldl (debit now) w.stores.access, .ok us) :=
    Prod.ext (verifyAccess_of_ok hv) hv
  simp only [step, Store.step, hpair]

theorem step_verify_of_not_ok {w : World} {env : Env} {now : Nat} {request : Request} {event : Event}
    (hv : ∀ us, (verifyAccess env w.stores now request event).2 ≠ .ok us) :
    step env w (.verify now request event) = w := by
  have ha := verifyAccess_of_not_ok hv
  simp only [step, Store.step]
  generalize verifyAccess env w.stores now request event = x at hv ha
  obtain ⟨a, o⟩ := x
  obtain rfl : a = w.stores.access := ha
  cases o with
  | ok us => exact absurd rfl (hv us)
  | err r => rfl
  | panic => rfl

/-! ## Replacing and clearing profiles -/

section
variable {w : World} {l : Ledger Account} (h : Balanced w l)
include h

/-- A request that is in flight owes nothing to a state created after it. -/
theorem Balanced.amountOf_new {us : List StateUpdateRequest} (hus : us ∈ w.issued) {c : AccessErrorContext} {cell : Nat}
    (hnew : (w.stores.access.map c).next ≤ cell) : amountOf us (fun u => u.state = ⟨c, cell⟩) = 0 := by
  apply amountOf_of_forall
  intro u hu
  have hold := h.store.old us hus u hu
  simp only [decide_eq_false_iff_not]
  intro hst
  rw [hst] at hold
  exact absurd hold (Nat.not_lt.mpr hnew)

theorem Balanced.upsert (env : Env) (t : String) (p : BoundedProfile) (now : Nat) :
    Balanced (step env w (.upsert t p now)) (l.post (.reopen fun a => accessKeyPubkey a.2 = t)) where
  store := Store.inv_step env (.upsert t p.1 now) h.store
  count := h.count
  admitted := h.admitted
  distinct := h.distinct
  bounded c k r hr := by
    have hr' : (w.stores.upsertUsageProfileAndResetStates t p.1.1 now).rule c k = some r := hr
    rw [Store.rule_upsert] at hr'
    by_cases hk : accessKeyPubkey k = t
    · rw [if_pos hk] at hr'
      exact p.2 r (UsageProfile.mem_rules_of_rule hr')
    · rw [if_neg hk] at hr'
      exact h.bounded c k r hr'
  owed c k cell hcell i us hus := by
    have hcell' : ((w.stores.upsertUsageProfileAndResetStates t p.1.1 now).access.map c).handle? k = some cell := hcell
    have hmem : us ∈ w.issued := List.mem_of_getElem? hus
    rw [Ledger.owed_reopen]
    by_cases hk : accessKeyPubkey k = t
    · have hnew := Stores.next_le_handle?_upsert _ _ _ _ _ hk hcell'
      simp only [hk, decide_true, if_true, h.amountOf_new hmem hnew, ite_self]
    · rw [Stores.handle?_upsert_of_ne _ _ _ _ _ hk] at hcell'
      simp only [hk, decide_false, Bool.false_eq_true, if_false]
      exact h.owed c k cell hcell' i us hus
  exact c k cell r hcell hr hrate := by
    have hcell' : ((w.stores.upsertUsageProfileAndResetStates t p.1.1 now).access.map c).handle? k = some cell := hcell
    have hr' : (w.stores.upsertUsageProfileAndResetStates t p.1.1 now).rule c k = some r := hr
    have hat := Arena.at?_of_handle _ hcell'
    show (((w.stores.upsertUsageProfileAndResetStates t p.1.1 now).access.map c).cells cell).balance = _
    rw [Store.rule_upsert] at hr'
    rw [Ledger.total_reopen]
    by_cases hk : accessKeyPubkey k = t
    · rw [if_pos hk] at hr'
      rw [Store.at?_upsert_valid w.stores t p.1 now hk, hr', Option.map_some] at hat
      rw [← Option.some.inj hat]
      simp [hk]
    · rw [if_neg hk] at hr'
      rw [Stores.handle?_upsert_of_ne _ _ _ _ _ hk] at hcell'
      rw [Stores.at?_upsert_of_ne _ _ _ _ _ hk, Arena.at?_of_handle _ hcell'] at hat
      rw [← Option.some.inj hat]
      simp only [hk, decide_false, Bool.false_eq_true, if_false]
      exact h.exact c k cell r hcell' hr' hrate

theorem Balanced.clearAll (env : Env) : Balanced (step env w .clearAll) (l.post (.reopen fun _ => true)) where
  store := Store.inv_step env .clearAll h.store
  count := h.count
  admitted := h.admitted
  distinct := h.distinct
  bounded c k r hr := by cases hr
  owed c k cell hcell := by
    have hcell' : (w.stores.access.clearAllStates.map c).handle? k = some cell := hcell
    rw [AccessState.map_clearAllStates] at hcell'
    cases hcell'
  exact c k cell r hcell hr := by cases hr

/-! ## Admitting requests -/

theorem Balanced.refilled_eq {c : AccessErrorContext} {k : AccessKey} {cell : Nat} {r : RateLimitRule}
    (hcell : (w.stores.access.map c).handle? k = some cell) (hr : w.stores.rule c k = some r)
    (hrate : r.ratePerMicro = 0) (now : Nat) :
    (w.stores.access.read ⟨c, cell⟩).refilled now r = (w.stores.access.read ⟨c, cell⟩).balance := by
  have hb := h.store.bounds c k cell r hcell hr
  have hle := hb.2
  rw [RateState.refilled_eq hb (h.bounded c k r hr), hrate]
  simpa using hle

section
variable {env : Env} {now : Nat} {request : Request} {event : Event} {us : List StateUpdateRequest}
  (hp : prepareUpdates env w.stores request event.pubkey = .ok us)
include hp

theorem Balanced.balance_debit {c : AccessErrorContext} {k : AccessKey} {cell : Nat} {r : RateLimitRule}
    (hcell : (w.stores.access.map c).handle? k = some cell) (hr : w.stores.rule c k = some r)
    (hrate : r.ratePerMicro = 0) :
    ((us.foldl (debit now) w.stores.access).read ⟨c, cell⟩).balance =
      (w.stores.access.read ⟨c, cell⟩).balance - (amountOf us fun u => u.state = ⟨c, cell⟩ : Nat) := by
  by_cases hmem : ∃ u ∈ us, u.state = ⟨c, cell⟩
  · obtain ⟨u, hu, hst⟩ := hmem
    have hprep := prepared_of_mem hp u hu
    have hh := hprep.handle
    have hctx : u.context = c := by rw [← hprep.store, hst]
    rw [hctx, hst] at hh
    have hrule := h.store.rule_of_prepared hprep
    rw [hctx, Arena.handle?_inj _ hh hcell, hr] at hrule
    have hrefill := h.refilled_eq hcell hr hrate now
    rw [← hst, read_debitEach now (states_pairwise_ne hp) hu, amountOf_state (states_pairwise_ne hp) hu]
    show (w.stores.access.read u.state).refilled now u.rule - u.amount = _
    rw [hst, ← Option.some.inj hrule, hrefill]
  · have hne : ∀ u ∈ us, u.state ≠ ⟨c, cell⟩ := fun u hu he => hmem ⟨u, hu, he⟩
    have hzero : amountOf us (fun u => u.state = ⟨c, cell⟩) = 0 := by
      apply amountOf_of_forall
      intro u hu
      simp [hne u hu]
    rw [read_debitEach_of_forall now w.stores.access fun u hu => (hne u hu).symm, hzero]
    simp

end

theorem Balanced.admission {env : Env} {now : Nat} {request : Request} {event : Event} {us : List StateUpdateRequest}
    (hv : (verifyAccess env w.stores now request event).2 = .ok us) :
    Balanced (step env w (.verify now request event))
      (l.post (.charge fun a => amountOf us fun u => (u.context, u.key) = a)) := by
  obtain ⟨hp, hc⟩ := verifyAccess_eq_ok.mp hv
  have hcell : ∀ {c k cell}, ((us.foldl (debit now) w.stores.access).map c).handle? k = some cell →
      (w.stores.access.map c).handle? k = some cell := fun hk => (handle?_debitEach ..).symm.trans hk
  have hstore : Store.Inv (step env w (.verify now request event)).toWorld :=
    Store.inv_step env (.verify now request event) h.store
  rw [step_verify_of_ok hv] at hstore ⊢
  refine ⟨hstore, ?_, ?_, ?_, h.bounded, ?_, ?_⟩
  · rw [Ledger.count_charge, List.length_append, h.count]
    rfl
  · intro i hi
    rw [List.length_append]
    exact Nat.lt_add_right _ (h.admitted i hi)
  · intro us' hus'
    rcases List.mem_append.mp hus' with hmem | hmem
    · exact h.distinct us' hmem
    · rw [List.mem_singleton.mp hmem]
      exact states_pairwise_ne hp
  · intro c k cell hk i us' hi
    rw [Ledger.owed_charge, h.count]
    by_cases hlast : i = w.issued.length
    · subst hlast
      have hnew : w.issued.length ∉ w.refunded := fun hmem => Nat.lt_irrefl _ (h.admitted _ hmem)
      rw [List.getElem?_concat_length] at hi
      rw [if_pos rfl, if_neg hnew, ← Option.some.inj hi]
      exact amountOf_account hp (hcell hk)
    · rw [if_neg hlast]
      have hlt : i < (w.issued ++ [us]).length := (List.getElem?_eq_some_iff.mp hi).1
      rw [List.length_append, List.length_singleton] at hlt
      rw [List.getElem?_append_left (by omega)] at hi
      exact h.owed c k cell (hcell hk) i us' hi
  · intro c k cell r hk hr hrate
    rw [Ledger.total_charge, amountOf_account hp (hcell hk)]
    have hdebit : ((us.foldl (debit now) w.stores.access).read ⟨c, cell⟩).balance =
        (w.stores.access.read ⟨c, cell⟩).balance - (amountOf us fun u => u.state = ⟨c, cell⟩ : Nat) :=
      h.balance_debit hp (hcell hk) hr hrate
    have hexact := h.exact c k cell r (hcell hk) hr hrate
    show ((us.foldl (debit now) w.stores.access).read ⟨c, cell⟩).balance = _
    rw [hdebit, hexact]
    omega

/-! ## Giving charges back -/

theorem Balanced.balance_refund {i : Nat} {us : List StateUpdateRequest} (hi : w.issued[i]? = some us)
    (hnot : i ∉ w.refunded) {c : AccessErrorContext} {k : AccessKey} {cell : Nat} {r : RateLimitRule}
    (hcell : (w.stores.access.map c).handle? k = some cell) (hr : w.stores.rule c k = some r)
    (hrate : r.ratePerMicro = 0) :
    ((refundAppliedStateUpdates w.stores.access us).read ⟨c, cell⟩).balance =
      (w.stores.access.read ⟨c, cell⟩).balance + (amountOf us fun u => u.state = ⟨c, cell⟩ : Nat) := by
  have hus : us ∈ w.issued := List.mem_of_getElem? hi
  by_cases hmem : ∃ u ∈ us, u.state = ⟨c, cell⟩
  · obtain ⟨u, hu, hst⟩ := hmem
    have hrule := h.store.reach us hus u hu k (by rw [hst]; exact hcell)
    rw [hst, hr] at hrule
    -- the capacity has room for what the request still owes
    have howed := h.owed c k cell hcell i us hi
    rw [if_neg hnot, ← hst, amountOf_state (h.distinct us hus) hu] at howed
    have hle := l.owed_le_total (c, k) (i := i) (by rw [h.count]; exact (List.getElem?_eq_some_iff.mp hi).1)
    have hexact := h.exact c k cell r hcell hr hrate
    have hb := h.store.bounds c k cell r hcell hr
    have hcap := h.bounded c k r hr
    have hamount : (u.amount : Int) ≤ i64Max := by
      have := hb.1
      omega
    rw [← hst, read_refundEach us w.stores.access (h.distinct us hus) hu, amountOf_state (h.distinct us hus) hu, hst,
      ← Option.some.inj hrule, RateState.refund_of_valid (le_trans hb.1 hb.2) hamount]
    show min (satAddI64 _ _) _ = _
    unfold satAddI64
    have hb0 := hb.1
    rw [clamp_eq_self (by unfold i64Min; omega) (by omega), min_eq_left (by omega)]
  · have hne : ∀ u ∈ us, u.state ≠ ⟨c, cell⟩ := fun u hu he => hmem ⟨u, hu, he⟩
    have hzero : amountOf us (fun u => u.state = ⟨c, cell⟩) = 0 := by
      apply amountOf_of_forall
      intro u hu
      simp [hne u hu]
    rw [read_refundEach_of_forall us w.stores.access fun u hu => (hne u hu).symm, hzero]
    simp

theorem Balanced.giveBack (env : Env) {i : Nat} (hi : Refundable w i) :
    Balanced (step env w (.refund i)) (l.post (.giveBack i)) := by
  obtain ⟨us, hus⟩ : ∃ us, w.issued[i]? = some us := ⟨_, List.getElem?_eq_getElem hi.1⟩
  have hstep : step env w (.refund i) =
      ⟨⟨{ w.stores with access := refundAppliedStateUpdates w.stores.access us }, w.issued⟩, insert i w.refunded⟩ := by
    simp only [step, if_pos hi, Store.step, hus, Option.getD_some]
  have hcell : ∀ {c k cell}, ((refundAppliedStateUpdates w.stores.access us).map c).handle? k = some cell →
      (w.stores.access.map c).handle? k = some cell := fun hk => (handle?_refundEach ..).symm.trans hk
  have hstore : Store.Inv (step env w (.refund i)).toWorld := by
    simp only [step, if_pos hi]
    exact Store.inv_step env (.refund i) h.store
  rw [hstep] at hstore ⊢
  refine ⟨hstore, h.count, ?_, h.distinct, h.bounded, ?_, ?_⟩
  · intro j hj
    rcases Finset.mem_insert.mp hj with rfl | hj
    · exact hi.1
    · exact h.admitted j hj
  · intro c k cell hk j us' hj
    rw [Ledger.owed_giveBack]
    by_cases hji : j = i
    · rw [if_pos hji, if_pos (by simp [hji])]
    · rw [if_neg hji, h.owed c k cell (hcell hk) j us' hj]
      simp [hji]
  · intro c k cell r hk hr hrate
    have hrefund := h.balance_refund hus hi.2 (hcell hk) hr hrate
    have hexact := h.exact c k cell r (hcell hk) hr hrate
    have hgive := l.total_giveBack (by rw [h.count]; exact hi.1) (c, k) (i := i)
    have howed := h.owed c k cell (hcell hk) i us hus
    rw [if_neg hi.2] at howed
    show ((refundAppliedStateUpdates w.stores.access us).read ⟨c, cell⟩).balance = _
    rw [hrefund, hexact]
    omega

/-! ## The run -/

theorem Balanced.step (env : Env) (op : Op) :
    Balanced (step env w op) ((entry env w op).toList.foldl Ledger.post l) := by
  cases op with
  | upsert t p now => exact h.upsert env t p now
  | clearAll => exact h.clearAll env
  | refund i =>
    by_cases hi : Refundable w i
    · simp only [entry, if_pos hi]
      exact h.giveBack env hi
    · simp only [entry, Accounting.step, if_neg hi]
      exact h
  | verify now request event =>
    by_cases hv : ∃ us, (verifyAccess env w.stores now request event).2 = .ok us
    · obtain ⟨us, hv⟩ := hv
      simp only [entry, hv]
      exact h.admission hv
    · rw [step_verify_of_not_ok fun us hok => hv ⟨us, hok⟩]
      simp only [entry]
      generalize (verifyAccess env w.stores now request event).2 = o at hv
      cases o with
      | ok us => exact absurd ⟨us, rfl⟩ hv
      | err r => exact h
      | panic => exact h

end

theorem balanced_run (env : Env) (ops : List Op) : Balanced (exec (step env) .empty ops) (ledger env ops) :=
  exec_answers (entry env) (fun _ _ op h => h.step env op) ops balanced_empty

/-- **Exact accounting.** At every point of every run, a live state whose current rule does not refill holds its
capacity less what was charged to it since it was created and not refunded since. -/
theorem exact_accounting (env : Env) (ops : List Op) (c : AccessErrorContext) (k : AccessKey) (s : RateState)
    (r : RateLimitRule) (hs : ((exec (step env) .empty ops).stores.access.map c).at? k = some s)
    (hr : (exec (step env) .empty ops).stores.rule c k = some r) (hrate : r.ratePerMicro = 0) :
    s.balance = r.maxCapacity - (ledger env ops).total (c, k) := by
  obtain ⟨cell, hcell, rfl⟩ := Option.map_eq_some_iff.mp hs
  exact (balanced_run env ops).exact c k cell r hcell hr hrate

def ratedProfile : BoundedProfile :=
  ⟨Store.ratedProfile .getInfo, by
    intro r hr
    simp [Store.ratedProfile, UsageProfile.rules] at hr
    simp [hr, i64Max]⟩

/-- The first request is refunded after the profile was replaced: it was never charged to the new state. -/
theorem exact_accounting_replaced :
    (4000000 : Int) = 5000000 - (ledger Sample.env
      [.upsert Sample.alice ratedProfile 0, .verify 1 ⟨.getInfo, .getInfo⟩ Sample.event,
        .upsert Sample.alice ratedProfile 2, .verify 3 ⟨.getInfo, .getInfo⟩ Sample.event,
        .verify 4 ⟨.getInfo, .getInfo⟩ Sample.event, .refund 0, .refund 1]).total
          (.accessRate, .method Sample.alice .getInfo) :=
  exact_accounting _ _ _ _ ⟨4000000, 2⟩ ⟨0, 5000000⟩ (by rfl) (by rfl) rfl

end LdkController.Accounting
