import LdkController.Access

/-!
# `verify_access` is all-or-nothing

What is prepared is at most one update of each map, so the states that are
locked are different, and a debit after a passed check cannot fail. Either
nothing changes or exactly the states named in the answer are charged.
-/

namespace LdkController

open Lib

/-! ## What is prepared -/

theorem requestSpendMsat_ne_err {ε : Type} (env : Env) (request : Request) (e : ε) :
    requestSpendMsat env request ≠ .err e := by
  unfold requestSpendMsat
  split
  case h_5 uri _ =>
    split
    · intro h; cases h
    · unfold Env.toMsat
      split <;> intro h <;> cases h
  all_goals intro h; cases h

theorem authorizeMethod_eq_ok {p : UsageProfile} {m : Method} {r : Option MethodAccessRule} :
    authorizeMethod p m = .ok r ↔
      (p.methods = none ∧ r = none) ∨
        ∃ ms mr, p.methods = some ms ∧ r = some mr ∧
          (ms.lookup m = some mr ∨ (ms.lookup m = none ∧ ms.lookup Method.all = some mr)) := by
  unfold authorizeMethod
  cases hms : p.methods with
  | none =>
    simp only [true_and, reduceCtorEq, false_and, exists_false, or_false, Outcome.ok.injEq]
    exact eq_comm
  | some ms =>
    have hne : ∀ {k mr}, ms.lookup k = some mr → ms.entries.isEmpty = false := by
      intro k mr hk
      have hmem := AList.mem_lookup_iff.mp hk
      cases he : ms.entries with
      | nil => rw [he] at hmem; cases hmem
      | cons e l => rfl
    simp only [reduceCtorEq, false_and, Option.some.injEq, false_or, exists_eq_left', exists_and_left]
    cases hm : ms.lookup m with
    | some mr =>
      rw [hne hm]
      simp only [Bool.false_eq_true, if_false, Outcome.ok.injEq, Option.some.injEq, reduceCtorEq, false_and, or_false]
      exact ⟨fun h => ⟨mr, h.symm, rfl⟩, fun ⟨_, h, e⟩ => by rw [h, e]⟩
    | none =>
      cases ha : ms.lookup Method.all with
      | some mr =>
        rw [hne ha]
        simp only [Bool.false_eq_true, if_false, Outcome.ok.injEq, Option.some.injEq, reduceCtorEq, true_and, false_or]
        exact ⟨fun h => ⟨mr, h.symm, rfl⟩, fun ⟨_, h, e⟩ => by rw [h, e]⟩
      | none => split <;> simp

theorem authorizeMethod_ne_panic (p : UsageProfile) (m : Method) : authorizeMethod p m ≠ .panic := by
  unfold authorizeMethod
  repeat' split
  all_goals intro h; cases h

theorem accessRateUpdates_eq_ok {a : AccessState} {request : Request} {caller : String}
    {mr : Option MethodAccessRule} {us : List StateUpdateRequest} :
    accessRateUpdates a request caller mr = .ok us ↔
      (mr.bind (·.accessRate) = none ∧ us = []) ∨
        ∃ rule cell, mr.bind (·.accessRate) = some rule ∧
          a.accessRate.handle? (.method caller request.method) = some cell ∧
          us = [⟨.method caller request.method, rule, 1000000, .accessRate, ⟨.accessRate, cell⟩⟩] := by
  unfold accessRateUpdates AccessState.getAccessRateState
  cases mr.bind (·.accessRate) with
  | none =>
    simp only [Outcome.ok.injEq, true_and, reduceCtorEq, false_and, exists_false, or_false]
    exact eq_comm
  | some rule =>
    simp only [Outcome.bind_eq_ok, Outcome.okOr_eq_ok, Option.map_eq_some_iff, Outcome.pure_eq, Outcome.ok.injEq,
      reduceCtorEq, false_and, false_or, Option.some.injEq]
    constructor
    · rintro ⟨_, ⟨cell, hc, rfl⟩, rfl⟩
      exact ⟨rule, cell, rfl, hc, rfl⟩
    · rintro ⟨_, cell, rfl, hc, rfl⟩
      exact ⟨_, ⟨cell, hc, rfl⟩, rfl⟩

theorem quotaUpdates_eq_ok {a : AccessState} {request : Request} {caller : String} {p : UsageProfile}
    {amount : Nat} {us : List StateUpdateRequest} :
    quotaUpdates a request caller p amount = .ok us ↔
      ((amount = 0 ∨ p.quota = none) ∧ us = []) ∨
        ∃ rule cell, 0 < amount ∧ p.quota = some rule ∧ a.quota.handle? (.quota caller) = some cell ∧
          us = [⟨.quota caller, rule, amount, .quota, ⟨.quota, cell⟩⟩] := by
  unfold quotaUpdates AccessState.getQuotaState
  rcases Nat.eq_zero_or_pos amount with h0 | hpos
  · subst h0
    simp only [Nat.lt_irrefl, if_false, true_or, true_and, false_and, exists_false, or_false, Outcome.ok.injEq]
    exact eq_comm
  · rw [if_pos hpos]
    cases p.quota with
    | none =>
      simp only [Outcome.ok.injEq, or_true, true_and, reduceCtorEq, false_and, and_false, exists_false, or_false]
      exact eq_comm
    | some rule =>
      simp only [Outcome.bind_eq_ok, Outcome.okOr_eq_ok, Option.map_eq_some_iff, Outcome.pure_eq, Outcome.ok.injEq,
        reduceCtorEq, or_false, Option.some.injEq, Nat.pos_iff_ne_zero.mp hpos, false_and, false_or]
      constructor
      · rintro ⟨_, ⟨cell, hc, rfl⟩, rfl⟩
        exact ⟨rule, cell, hpos, rfl, hc, rfl⟩
      · rintro ⟨_, cell, _, rfl, hc, rfl⟩
        exact ⟨_, ⟨cell, hc, rfl⟩, rfl⟩

theorem requestSpendMsat_eq_panic {ε : Type} {env : Env} {request : Request} :
    requestSpendMsat env request = (.panic : Outcome ε _) ↔
      env.build.overflowChecks = true ∧ ∃ uri sats, request.params = .payBip321 uri ∧
        (env.parseBip321 uri).toOption.bind (·.amount) = some sats ∧ u64Max < sats * 1000 := by
  unfold requestSpendMsat
  cases request.params with
  | payBip321 uri =>
    simp only [RequestParams.payBip321.injEq]
    cases ha : (env.parseBip321 uri).toOption.bind (·.amount) with
    | none =>
      refine ⟨fun h => (by cases h), ?_⟩
      rintro ⟨_, _, sats, rfl, hs, _⟩
      rw [ha] at hs; cases hs
    | some sats =>
      have hmul : env.build.mulU64 sats 1000 = none ↔ u64Max < sats * 1000 ∧ env.build.overflowChecks = true :=
        Build.mulU64_eq_none
      simp only [Env.toMsat]
      cases hm : env.build.mulU64 sats 1000 with
      | none =>
        obtain ⟨hlt, ho⟩ := hmul.mp hm
        exact ⟨fun _ => ⟨ho, uri, sats, rfl, ha, hlt⟩, fun _ => rfl⟩
      | some msat =>
        refine ⟨fun h => (by cases h), ?_⟩
        rintro ⟨ho, _, sats', rfl, hs, hlt⟩
        obtain rfl := Option.some.inj (ha.symm.trans hs)
        rw [hmul.mpr ⟨hlt, ho⟩] at hm; cases hm
  | _ => simp

theorem accessRateUpdates_ne_panic (a : AccessState) (request : Request) (caller : String)
    (mr : Option MethodAccessRule) : accessRateUpdates a request caller mr ≠ .panic := by
  unfold accessRateUpdates
  split
  · intro h; cases h
  · simp [Outcome.bind_eq_panic]

theorem quotaUpdates_ne_panic (a : AccessState) (request : Request) (caller : String) (p : UsageProfile)
    (amount : Nat) : quotaUpdates a request caller p amount ≠ .panic := by
  unfold quotaUpdates
  split
  · split
    · intro h; cases h
    · simp [Outcome.bind_eq_panic]
  · intro h; cases h

theorem requestSpendMsat_of_prepareUpdates_panic {env : Env} {s : Stores} {request : Request} {caller : String}
    (h : prepareUpdates env s request caller = .panic) :
    requestSpendMsat env request = (.panic : Outcome Response _) := by
  unfold prepareUpdates at h
  simp only [Outcome.bind_eq_panic, Outcome.okOr_ne_panic, authorizeMethod_ne_panic, accessRateUpdates_ne_panic,
    quotaUpdates_ne_panic, Outcome.pure_eq, reduceCtorEq, and_false, exists_false, or_false, false_or] at h
  obtain ⟨_, _, _, _, _, _, hs⟩ := h
  exact hs

theorem authorizeMethod_err {p : UsageProfile} {m : Method} {r : Response} (h : authorizeMethod p m = .err r) :
    r = accessDeniedResponse m := by
  unfold authorizeMethod at h
  repeat' split at h
  all_goals cases h
  all_goals rfl

theorem accessRateUpdates_err {a : AccessState} {request : Request} {caller : String} {mr : Option MethodAccessRule}
    {r : Response} (h : accessRateUpdates a request caller mr = .err r) :
    r = missingStateResponse request.method .accessRate := by
  unfold accessRateUpdates at h
  split at h
  · cases h
  · simp only [Outcome.bind_eq_err, Outcome.okOr_eq_err, Outcome.pure_eq, reduceCtorEq, and_false, exists_false,
      or_false] at h
    exact h.2.symm

theorem quotaUpdates_err {a : AccessState} {request : Request} {caller : String} {p : UsageProfile} {amount : Nat}
    {r : Response} (h : quotaUpdates a request caller p amount = .err r) :
    r = missingStateResponse request.method .quota := by
  unfold quotaUpdates at h
  split at h
  · split at h
    · cases h
    · simp only [Outcome.bind_eq_err, Outcome.okOr_eq_err, Outcome.pure_eq, reduceCtorEq, and_false, exists_false,
        or_false] at h
      exact h.2.symm
  · cases h

theorem prepareUpdates_err {env : Env} {s : Stores} {request : Request} {caller : String} {r : Response}
    (h : prepareUpdates env s request caller = .err r) : ∃ e, r = .ofError request.method e := by
  unfold prepareUpdates at h
  simp only [Outcome.bind_eq_err, Outcome.pure_eq, reduceCtorEq, and_false, exists_false, or_false] at h
  rcases h with h | ⟨profile, _, h | ⟨mr, _, h | ⟨rate, _, h | ⟨spend, _, h⟩⟩⟩⟩
  · exact ⟨_, (Outcome.okOr_eq_err.mp h).2.symm⟩
  · exact ⟨_, authorizeMethod_err h⟩
  · exact ⟨_, accessRateUpdates_err h⟩
  · exact absurd h (requestSpendMsat_ne_err env request r)
  · exact ⟨_, quotaUpdates_err h⟩

/-- The sort leaves the rate update before the quota update. -/
theorem insertionSort_updates {a : AccessState} {request : Request} {caller : String} {mr : Option MethodAccessRule}
    {profile : UsageProfile} {amount : Nat} {rate quota : List StateUpdateRequest}
    (hr : accessRateUpdates a request caller mr = .ok rate)
    (hq : quotaUpdates a request caller profile amount = .ok quota) :
    (rate ++ quota).insertionSort (fun a b => (compareAccessKeys a.key b.key).isLE) = rate ++ quota := by
  apply List.Pairwise.insertionSort_eq
  rcases accessRateUpdates_eq_ok.mp hr with ⟨_, rfl⟩ | ⟨_, _, _, _, rfl⟩ <;>
    rcases quotaUpdates_eq_ok.mp hq with ⟨_, rfl⟩ | ⟨_, _, _, _, _, rfl⟩ <;>
    simp [compareAccessKeys]

/-- **Inversion of the prepare phase.** -/
theorem prepareUpdates_eq_ok {env : Env} {s : Stores} {request : Request} {caller : String}
    {us : List StateUpdateRequest} :
    prepareUpdates env s request caller = .ok us ↔
      ∃ profile mr spend rate quota, s.getUsageProfile caller = some profile ∧
        authorizeMethod profile request.method = .ok mr ∧
        accessRateUpdates s.access request caller mr = .ok rate ∧
        requestSpendMsat env request = (.ok spend : Outcome Response _) ∧
        quotaUpdates s.access request caller profile (spend.getD 0) = .ok quota ∧ us = rate ++ quota := by
  unfold prepareUpdates
  simp only [Outcome.bind_eq_ok, Outcome.okOr_eq_ok, Outcome.pure_eq, Outcome.ok.injEq]
  constructor
  · rintro ⟨profile, hp, mr, hmr, rate, hr, spend, hs, quota, hq, rfl⟩
    exact ⟨profile, mr, spend, rate, quota, hp, hmr, hr, hs, hq, insertionSort_updates hr hq⟩
  · rintro ⟨profile, mr, spend, rate, quota, hp, hmr, hr, hs, hq, rfl⟩
    exact ⟨profile, hp, mr, hmr, rate, hr, spend, hs, quota, hq, insertionSort_updates hr hq⟩

/-- One update for each limit that the caller's profile sets for the request. -/
inductive Prepared (env : Env) (s : Stores) (request : Request) (caller : String) : StateUpdateRequest → Prop where
  | accessRate {profile : UsageProfile} {mr : MethodAccessRule} {rule : RateLimitRule} {cell : Nat}
      (hp : s.getUsageProfile caller = some profile)
      (hm : authorizeMethod profile request.method = .ok (some mr)) (hr : mr.accessRate = some rule)
      (hc : s.access.accessRate.handle? (.method caller request.method) = some cell) :
      Prepared env s request caller
        ⟨.method caller request.method, rule, 1000000, .accessRate, ⟨.accessRate, cell⟩⟩
  | quota {profile : UsageProfile} {amount : Nat} {rule : RateLimitRule} {cell : Nat}
      (hp : s.getUsageProfile caller = some profile)
      (hs : requestSpendMsat env request = (.ok (some amount) : Outcome Response _)) (hpos : 0 < amount)
      (hr : profile.quota = some rule) (hc : s.access.quota.handle? (.quota caller) = some cell) :
      Prepared env s request caller ⟨.quota caller, rule, amount, .quota, ⟨.quota, cell⟩⟩

theorem prepared_of_mem {env : Env} {s : Stores} {request : Request} {caller : String}
    {us : List StateUpdateRequest} (h : prepareUpdates env s request caller = .ok us) :
    ∀ u ∈ us, Prepared env s request caller u := by
  obtain ⟨profile, mr, spend, rate, quota, hp, hm, hr, hs, hq, rfl⟩ := prepareUpdates_eq_ok.mp h
  intro u hu
  rcases List.mem_append.mp hu with hu | hu
  · rcases accessRateUpdates_eq_ok.mp hr with ⟨_, rfl⟩ | ⟨rule, cell, hrule, hc, rfl⟩
    · cases hu
    · obtain rfl := List.mem_singleton.mp hu
      obtain ⟨mr', rfl, hrule⟩ := Option.bind_eq_some_iff.mp hrule
      exact .accessRate hp hm hrule hc
  · rcases quotaUpdates_eq_ok.mp hq with ⟨_, rfl⟩ | ⟨rule, cell, hpos, hrule, hc, rfl⟩
    · cases hu
    · obtain rfl := List.mem_singleton.mp hu
      cases spend with
      | none => cases hpos
      | some amount => exact .quota hp hs hpos hrule hc

theorem mem_of_prepared {env : Env} {s : Stores} {request : Request} {caller : String}
    {us : List StateUpdateRequest} (h : prepareUpdates env s request caller = .ok us) {u : StateUpdateRequest}
    (hu : Prepared env s request caller u) : u ∈ us := by
  obtain ⟨profile, mr, spend, rate, quota, hp, hm, hr, hs, hq, rfl⟩ := prepareUpdates_eq_ok.mp h
  cases hu with
  | accessRate hp' hm' hrule hc =>
    cases hp.symm.trans hp'
    cases hm.symm.trans hm'
    apply List.mem_append_left
    rcases accessRateUpdates_eq_ok.mp hr with ⟨hnone, _⟩ | ⟨rule', cell', hrule', hc', rfl⟩
    · rw [Option.bind_some, hrule] at hnone
      cases hnone
    · cases hrule.symm.trans hrule'
      cases hc.symm.trans hc'
      exact List.mem_singleton_self _
  | quota hp' hs' hpos hrule hc =>
    cases hp.symm.trans hp'
    cases hs.symm.trans hs'
    apply List.mem_append_right
    rcases quotaUpdates_eq_ok.mp hq with ⟨hnone, _⟩ | ⟨rule', cell', _, hrule', hc', rfl⟩
    · rcases hnone with hzero | hnone
      · exact absurd hpos (hzero ▸ Nat.lt_irrefl 0)
      · rw [hrule] at hnone
        cases hnone
    · cases hrule.symm.trans hrule'
      cases hc.symm.trans hc'
      exact List.mem_singleton_self _

theorem Prepared.store {env : Env} {s : Stores} {request : Request} {caller : String} {u : StateUpdateRequest}
    (h : Prepared env s request caller u) : u.state.store = u.context := by cases h <;> rfl

theorem Prepared.handle {env : Env} {s : Stores} {request : Request} {caller : String} {u : StateUpdateRequest}
    (h : Prepared env s request caller u) : (s.access.map u.context).handle? u.key = some u.state.cell := by
  cases h <;> assumption

theorem pairwise_prepareUpdates {env : Env} {s : Stores} {request : Request} {caller : String}
    {us : List StateUpdateRequest} (h : prepareUpdates env s request caller = .ok us) :
    us.Pairwise fun u v => u.context = .accessRate ∧ v.context = .quota := by
  obtain ⟨profile, mr, spend, rate, quota, _, _, hr, _, hq, rfl⟩ := prepareUpdates_eq_ok.mp h
  rcases accessRateUpdates_eq_ok.mp hr with ⟨_, rfl⟩ | ⟨_, _, _, _, rfl⟩ <;>
    rcases quotaUpdates_eq_ok.mp hq with ⟨_, rfl⟩ | ⟨_, _, _, _, _, rfl⟩ <;> simp

theorem states_pairwise_ne {env : Env} {s : Stores} {request : Request} {caller : String}
    {us : List StateUpdateRequest} (h : prepareUpdates env s request caller = .ok us) :
    us.Pairwise fun u v => u.state ≠ v.state := by
  have hprep := prepared_of_mem h
  refine (pairwise_prepareUpdates h).imp_of_mem ?_
  intro u v hu hv hc he
  have hstore : u.context = v.context := by rw [← (hprep u hu).store, ← (hprep v hv).store, he]
  rw [hc.1, hc.2] at hstore
  cases hstore

/-! ## The check and the debit -/

def Covered (a : AccessState) (now : Nat) (us : List StateUpdateRequest) : Prop :=
  ∀ u ∈ us, (a.read u.state).Covers u.amount now u.rule

instance (a : AccessState) (now : Nat) (us : List StateUpdateRequest) : Decidable (Covered a now us) :=
  inferInstanceAs (Decidable (∀ u ∈ us, _))

theorem checkAll_of_covered {a : AccessState} {m : Method} {now : Nat} {us : List StateUpdateRequest}
    (h : Covered a now us) : checkAll a m now us = .ok () := by
  induction us with
  | nil => rfl
  | cons u us ih =>
    have hu := RateState.check_eq_ok.mpr (h u List.mem_cons_self)
    simp only [checkAll, hu]
    exact ih fun v hv => h v (List.mem_cons_of_mem u hv)

theorem checkAll_of_not_covered {a : AccessState} {m : Method} {now : Nat} {us : List StateUpdateRequest}
    (h : ¬ Covered a now us) : ∃ e c, checkAll a m now us = .err (rateStateErrorResponse m e c) := by
  induction us with
  | nil => exact absurd (fun u hu => by cases hu) h
  | cons u us ih =>
    by_cases hu : (a.read u.state).Covers u.amount now u.rule
    · have hus : ¬ Covered a now us := by
        intro hc
        exact h fun v hv => (List.mem_cons.mp hv).elim (fun e => e ▸ hu) (hc v)
      simp only [checkAll, RateState.check_eq_ok.mpr hu]
      exact ih hus
    · obtain ⟨e, _, hc⟩ := RateState.withdraw_of_not_covers hu
      simp only [checkAll, hc]
      exact ⟨e, u.context, rfl⟩

theorem checkAll_eq_ok {a : AccessState} {m : Method} {now : Nat} {us : List StateUpdateRequest} :
    checkAll a m now us = .ok () ↔ Covered a now us := by
  constructor
  · intro hchk
    by_contra hc
    obtain ⟨e, c, he⟩ := checkAll_of_not_covered (m := m) hc
    rw [he] at hchk
    cases hchk
  · exact checkAll_of_covered

/-! ## Writing the states of a list, one after the other -/

section
variable (f : RateState → StateUpdateRequest → RateState)

def modify (a : AccessState) (u : StateUpdateRequest) : AccessState := a.write u.state (f (a.read u.state) u)

theorem read_modify_of_ne (a : AccessState) (u : StateUpdateRequest) {h : SharedRateState} (hne : h ≠ u.state) :
    (modify f a u).read h = a.read h :=
  AccessState.read_write_of_ne a _ hne

theorem read_modifyEach_of_forall {us : List StateUpdateRequest} {h : SharedRateState} :
    ∀ a : AccessState, (∀ u ∈ us, h ≠ u.state) → (us.foldl (modify f) a).read h = a.read h := by
  induction us with
  | nil => intro a _; rfl
  | cons u us ih =>
    intro a hne
    rw [List.foldl_cons, ih _ fun v hv => hne v (List.mem_cons_of_mem u hv)]
    exact read_modify_of_ne f a u (hne u List.mem_cons_self)

theorem read_modifyEach {us : List StateUpdateRequest} (hne : us.Pairwise fun u v => u.state ≠ v.state)
    {u : StateUpdateRequest} (hu : u ∈ us) :
    ∀ a : AccessState, (us.foldl (modify f) a).read u.state = f (a.read u.state) u := by
  induction us with
  | nil => cases hu
  | cons v us ih =>
    intro a
    obtain ⟨hv, hus⟩ := List.pairwise_cons.mp hne
    rw [List.foldl_cons]
    rcases List.mem_cons.mp hu with rfl | hmem
    · rw [read_modifyEach_of_forall f _ fun w hw => hv w hw]
      exact AccessState.read_write_self ..
    · rw [ih hus hmem, read_modify_of_ne f a v (hv u hmem).symm]

theorem handle?_modifyEach (us : List StateUpdateRequest) (c : AccessErrorContext) (k : AccessKey) :
    ∀ a : AccessState, ((us.foldl (modify f) a).map c).handle? k = (a.map c).handle? k := by
  induction us with
  | nil => intro a; rfl
  | cons u us ih => intro a; rw [List.foldl_cons, ih]; exact AccessState.handle?_write ..

theorem next_modifyEach (us : List StateUpdateRequest) (c : AccessErrorContext) :
    ∀ a : AccessState, ((us.foldl (modify f) a).map c).next = (a.map c).next := by
  induction us with
  | nil => intro a; rfl
  | cons u us ih => intro a; rw [List.foldl_cons, ih]; exact AccessState.next_write ..

end

def charged (now : Nat) (a : AccessState) (u : StateUpdateRequest) : RateState :=
  { a.read u.state with balance := (a.read u.state).refilled now u.rule - u.amount }

def debit (now : Nat) (a : AccessState) (u : StateUpdateRequest) : AccessState := a.write u.state (charged now a u)

section
variable (now : Nat) {us : List StateUpdateRequest}

theorem read_debit_of_ne (a : AccessState) (u : StateUpdateRequest) {h : SharedRateState} (hne : h ≠ u.state) :
    (debit now a u).read h = a.read h :=
  AccessState.read_write_of_ne a _ hne

theorem read_debitEach_of_forall {h : SharedRateState} (a : AccessState) (hne : ∀ u ∈ us, h ≠ u.state) :
    (us.foldl (debit now) a).read h = a.read h :=
  read_modifyEach_of_forall (fun s u => { s with balance := s.refilled now u.rule - u.amount }) a hne

theorem read_debitEach (hne : us.Pairwise fun u v => u.state ≠ v.state) {u : StateUpdateRequest} (hu : u ∈ us)
    (a : AccessState) : (us.foldl (debit now) a).read u.state = charged now a u :=
  read_modifyEach (fun s u => { s with balance := s.refilled now u.rule - u.amount }) hne hu a

end

theorem handle?_debitEach (now : Nat) (us : List StateUpdateRequest) (c : AccessErrorContext) (k : AccessKey)
    (a : AccessState) : ((us.foldl (debit now) a).map c).handle? k = (a.map c).handle? k :=
  handle?_modifyEach (fun s u => { s with balance := s.refilled now u.rule - u.amount }) us c k a

theorem next_debitEach (now : Nat) (us : List StateUpdateRequest) (c : AccessErrorContext) (a : AccessState) :
    ((us.foldl (debit now) a).map c).next = (a.map c).next :=
  next_modifyEach (fun s u => { s with balance := s.refilled now u.rule - u.amount }) us c a

section
variable (us : List StateUpdateRequest) (a : AccessState)

theorem read_refundEach_of_forall {h : SharedRateState} (hne : ∀ u ∈ us, h ≠ u.state) :
    (refundAppliedStateUpdates a us).read h = a.read h :=
  read_modifyEach_of_forall (fun s u => (s.refund u.amount u.rule).1) a hne

theorem read_refundEach {u : StateUpdateRequest} (hne : us.Pairwise fun u v => u.state ≠ v.state) (hu : u ∈ us) :
    (refundAppliedStateUpdates a us).read u.state = ((a.read u.state).refund u.amount u.rule).1 :=
  read_modifyEach (fun s u => (s.refund u.amount u.rule).1) hne hu a

theorem handle?_refundEach (c : AccessErrorContext) (k : AccessKey) :
    ((refundAppliedStateUpdates a us).map c).handle? k = (a.map c).handle? k :=
  handle?_modifyEach (fun s u => (s.refund u.amount u.rule).1) us c k a

end

theorem debitAll_of_covered {m : Method} {now : Nat} {us : List StateUpdateRequest}
    (hne : us.Pairwise fun u v => u.state ≠ v.state) :
    ∀ {a : AccessState}, Covered a now us → debitAll m now a us = (us.foldl (debit now) a, .ok ()) := by
  induction us with
  | nil => intro a _; rfl
  | cons u us ih =>
    intro a h
    obtain ⟨hu, hus⟩ := List.pairwise_cons.mp hne
    have hw := RateState.withdraw_of_covers (h u List.mem_cons_self)
    -- the states differ, so this debit leaves the check of the others valid
    have hrest : Covered (debit now a u) now us := by
      intro v hv
      rw [read_debit_of_ne now a u (hu v hv).symm]
      exact h v (List.mem_cons_of_mem u hv)
    simp only [debitAll, hw, List.foldl_cons]
    exact ih hus hrest

/-- **Inversion of `verify_access`.** -/
theorem verifyAccess_cases (env : Env) (s : Stores) (now : Nat) (request : Request) (event : Event) :
    (∃ r, prepareUpdates env s request event.pubkey = .err r ∧
      verifyAccess env s now request event = (s.access, .err r)) ∨
    (prepareUpdates env s request event.pubkey = .panic ∧
      verifyAccess env s now request event = (s.access, .panic)) ∨
    (∃ us e c, prepareUpdates env s request event.pubkey = .ok us ∧ ¬ Covered s.access now us ∧
      verifyAccess env s now request event = (s.access, .err (rateStateErrorResponse request.method e c))) ∨
    ∃ us, prepareUpdates env s request event.pubkey = .ok us ∧ Covered s.access now us ∧
      verifyAccess env s now request event = (us.foldl (debit now) s.access, .ok us) := by
  unfold verifyAccess
  cases hp : prepareUpdates env s request event.pubkey with
  | err r => exact .inl ⟨r, rfl, rfl⟩
  | panic => exact .inr (.inl ⟨rfl, rfl⟩)
  | ok us =>
    by_cases hc : Covered s.access now us
    · simp only [checkAll_of_covered hc, debitAll_of_covered (states_pairwise_ne hp) hc]
      exact .inr (.inr (.inr ⟨us, rfl, hc, rfl⟩))
    · obtain ⟨e, c, he⟩ := checkAll_of_not_covered (m := request.method) hc
      simp only [he]
      exact .inr (.inr (.inl ⟨us, e, c, rfl, hc, rfl⟩))

theorem verifyAccess_eq_ok {env : Env} {s : Stores} {now : Nat} {request : Request} {event : Event}
    {us : List StateUpdateRequest} :
    (verifyAccess env s now request event).2 = .ok us ↔
      prepareUpdates env s request event.pubkey = .ok us ∧ Covered s.access now us := by
  rcases verifyAccess_cases env s now request event with
    ⟨r, hp, hv⟩ | ⟨hp, hv⟩ | ⟨us', e, c, hp, hc, hv⟩ | ⟨us', hp, hc, hv⟩ <;> rw [hv, hp]
  · simp
  · simp
  · simp only [reduceCtorEq, Outcome.ok.injEq, false_iff, not_and]
    intro h; rwa [← h]
  · simp only [Outcome.ok.injEq, iff_self_and]
    intro h; rwa [← h]

theorem verifyAccess_of_ok {env : Env} {s : Stores} {now : Nat} {request : Request} {event : Event}
    {us : List StateUpdateRequest} (h : (verifyAccess env s now request event).2 = .ok us) :
    (verifyAccess env s now request event).1 = us.foldl (debit now) s.access := by
  rcases verifyAccess_cases env s now request event with
    ⟨r, _, hv⟩ | ⟨_, hv⟩ | ⟨us', e, c, _, _, hv⟩ | ⟨us', _, _, hv⟩ <;> rw [hv] at h ⊢ <;> cases h
  rfl

theorem verifyAccess_err {env : Env} {s : Stores} {now : Nat} {request : Request} {event : Event} {r : Response}
    (h : (verifyAccess env s now request event).2 = .err r) : ∃ e, r = .ofError request.method e := by
  rcases verifyAccess_cases env s now request event with
    ⟨r', hp, hv⟩ | ⟨_, hv⟩ | ⟨us', e, c, _, _, hv⟩ | ⟨us', _, _, hv⟩ <;> rw [hv] at h <;> cases h
  · exact prepareUpdates_err hp
  · exact ⟨_, rfl⟩

theorem verifyAccess_of_not_ok {env : Env} {s : Stores} {now : Nat} {request : Request} {event : Event}
    (h : ∀ us, (verifyAccess env s now request event).2 ≠ .ok us) :
    (verifyAccess env s now request event).1 = s.access := by
  rcases verifyAccess_cases env s now request event with
    ⟨r, _, hv⟩ | ⟨_, hv⟩ | ⟨us', e, c, _, _, hv⟩ | ⟨us', _, _, hv⟩
  · rw [hv]
  · rw [hv]
  · rw [hv]
  · exact absurd (by rw [hv]) (h us')

/-! ## All or nothing -/

/-- A refusal leaves the store as it was. An admission charges exactly the states named in the answer, the caller's
own, one for each limit that its profile sets, and no debit can fail once the check has passed. -/
theorem verify_access_atomic (env : Env) (s : Stores) (now : Nat) (request : Request) (event : Event) :
    (match verifyAccess env s now request event with
      | (a, .err _) => a = s.access
      | (a, .panic) => a = s.access ∧ env.build.overflowChecks = true ∧
          requestSpendMsat env request = (.panic : Outcome Response _)
      | (a, .ok us) =>
          (us.Pairwise fun u v => u.context = .accessRate ∧ v.context = .quota) ∧
          (∀ u ∈ us,
            (u.context = .accessRate ∧ u.key = .method event.pubkey request.method ∧
                s.access.getAccessRateState u.key = some u.state) ∨
              (u.context = .quota ∧ u.key = .quota event.pubkey ∧ s.access.getQuotaState u.key = some u.state ∧
                0 < u.amount ∧ requestSpendMsat env request = (.ok (some u.amount) : Outcome Response _))) ∧
          (∀ u ∈ us, ∃ refilled, (s.access.read u.state).calculateRefill now u.rule = .ok refilled ∧
            0 ≤ refilled - u.amount ∧
            a.read u.state = { s.access.read u.state with balance := refilled - u.amount }) ∧
          (∀ h : SharedRateState, (∀ u ∈ us, u.state ≠ h) → a.read h = s.access.read h) ∧
          (∀ c k, (a.map c).handle? k = (s.access.map c).handle? k) ∧
          ∀ u, u ∈ us ↔ Prepared env s request event.pubkey u) ∧
      ∀ us, prepareUpdates env s request event.pubkey = .ok us →
        checkAll s.access request.method now us = .ok () →
        (debitAll request.method now s.access us).2 = .ok () := by
  constructor
  · rcases verifyAccess_cases env s now request event with
      ⟨r, _, hv⟩ | ⟨hp, hv⟩ | ⟨us, e, c, _, _, hv⟩ | ⟨us, hp, hc, hv⟩ <;> rw [hv]
    · have hs := requestSpendMsat_of_prepareUpdates_panic hp
      exact ⟨rfl, (requestSpendMsat_eq_panic.mp hs).1, hs⟩
    · refine ⟨pairwise_prepareUpdates hp, ?_, ?_, ?_, fun c k => handle?_debitEach now us c k s.access,
        fun u => ⟨prepared_of_mem hp u, mem_of_prepared hp⟩⟩
      · intro u hu
        cases prepared_of_mem hp u hu with
        | accessRate _ _ _ hh => exact .inl ⟨rfl, rfl, by simp [AccessState.getAccessRateState, hh]⟩
        | quota _ hs hpos _ hh => exact .inr ⟨rfl, rfl, by simp [AccessState.getQuotaState, hh], hpos, hs⟩
      · intro u hu
        obtain ⟨hcap, _, hle⟩ := hc u hu
        refine ⟨(s.access.read u.state).refilled now u.rule, ?_, Int.sub_nonneg_of_le hle, ?_⟩
        · unfold RateState.calculateRefill; rw [if_neg (not_lt.mpr hcap)]
        · exact read_debitEach now (states_pairwise_ne hp) hu s.access
      · intro h hne
        exact read_debitEach_of_forall now s.access fun u hu => (hne u hu).symm
  · intro us hp hchk
    rw [debitAll_of_covered (states_pairwise_ne hp) (checkAll_eq_ok.mp hchk)]

/-! ## Sample data -/

namespace Sample

def env : Env := ⟨.release, fun _ => .error "invalid uri"⟩

def alice : String := "79be667ef9dcbbac55a06295ce870b07029bfcdb2dce28d959f2815b16f81798"

def event : Event := ⟨alice, 1700000000, "0a", [], ""⟩

end Sample

end LdkController
