import LdkController.AccessStore

/-!
# Usage profiles

`src/usage_profile/`: the profile a grant gives to a pubkey, the profile store,
and the service that replaces a profile together with its rate states. A table
visits its entries in some order, as a hash map does.
-/

namespace LdkController

open Lib

structure MethodAccessRule where
  accessRate : Option RateLimitRule
deriving DecidableEq, Repr

structure UsageProfile where
  quota : Option RateLimitRule
  methods : Option (Table Method MethodAccessRule)
  control : Option (Table String MethodAccessRule)
deriving DecidableEq

namespace UsageProfile

def rules (p : UsageProfile) : List RateLimitRule :=
  p.quota.toList ++ p.methods.elim [] (·.entries.filterMap (·.2.accessRate)) ++
    p.control.elim [] (·.entries.filterMap (·.2.accessRate))

/-- What deserialization guarantees of a profile. -/
def Valid (p : UsageProfile) : Prop := ∀ r ∈ p.rules, 0 ≤ r.maxCapacity

instance (p : UsageProfile) : Decidable p.Valid := inferInstanceAs (Decidable (∀ r ∈ p.rules, _))

/-- The rule under which the profile keeps a state at a key of each map. -/
def rule (p : UsageProfile) : AccessErrorContext → AccessKey → Option RateLimitRule
  | .accessRate, .method _ m => (p.methods.bind (·.lookup m)).bind (·.accessRate)
  | .quota, .quota _ => p.quota
  | _, _ => none

theorem mem_rules_of_rule {p : UsageProfile} {c : AccessErrorContext} {k : AccessKey} {r : RateLimitRule}
    (h : p.rule c k = some r) : r ∈ p.rules := by
  unfold rules
  match c, k with
  | .accessRate, .method _ m =>
    simp only [rule, Option.bind_eq_some_iff] at h
    obtain ⟨mr, ⟨ms, hms, hlk⟩, hr⟩ := h
    refine List.mem_append_left _ (List.mem_append_right _ ?_)
    rw [hms]
    exact List.mem_filterMap.mpr ⟨⟨m, mr⟩, AList.mem_lookup_iff.mp hlk, hr⟩
  | .quota, .quota _ =>
    refine List.mem_append_left _ (List.mem_append_left _ ?_)
    exact Option.mem_toList.mpr h
  | .accessRate, .quota _ => cases h
  | .quota, .method _ _ => cases h

end UsageProfile

abbrev ValidProfile := { p : UsageProfile // p.Valid }

theorem ValidProfile.cap_nonneg (p : ValidProfile) {c : AccessErrorContext} {k : AccessKey} {r : RateLimitRule}
    (h : p.1.rule c k = some r) : 0 ≤ r.maxCapacity :=
  p.2 r (UsageProfile.mem_rules_of_rule h)

structure Stores where
  usageProfiles : Table String UsageProfile
  access : AccessState

def Stores.empty : Stores := ⟨∅, .empty⟩

/-! ## The profile service -/

def keyBelongsToPubkey (key : AccessKey) (pubkey : String) : Bool := accessKeyPubkey key = pubkey

def clearStatesForPubkey (a : AccessState) (pubkey : String) : AccessState :=
  (a.retainAccessRateStates fun key => !keyBelongsToPubkey key pubkey).retainQuotaStates
    fun key => !keyBelongsToPubkey key pubkey

/-- The body of the loop over the profile's methods. -/
def initializeMethodState (targetPubkey : String) (now : Nat) (a : AccessState)
    (entry : Sigma fun _ : Method => MethodAccessRule) : AccessState :=
  match entry.2.accessRate with
  | none => a
  | some rule =>
    match RateState.fromRule now rule with
    | .error _ => a
    | .ok state => a.insertAccessRateState (.method targetPubkey entry.1) state

def initializeStatesForProfile (a : AccessState) (targetPubkey : String) (profile : UsageProfile) (now : Nat) :
    AccessState :=
  let a := match profile.methods with
    | none => a
    | some methods => methods.entries.foldl (initializeMethodState targetPubkey now) a
  match profile.quota with
  | none => a
  | some rule =>
    match RateState.fromRule now rule with
    | .error _ => a
    | .ok state => a.insertQuotaState (.quota targetPubkey) state

namespace Stores

def getUsageProfile (s : Stores) (pubkey : String) : Option UsageProfile := s.usageProfiles.lookup pubkey

/-- `now` is the time that `initializeStatesForProfile` reads. -/
def upsertUsageProfileAndResetStates (s : Stores) (targetPubkey : String) (profile : UsageProfile) (now : Nat) :
    Stores where
  access := initializeStatesForProfile (clearStatesForPubkey s.access targetPubkey) targetPubkey profile now
  usageProfiles := s.usageProfiles.insert targetPubkey profile

def clearAllUsageProfilesAndStates (s : Stores) : Stores := ⟨∅, s.access.clearAllStates⟩

def rule (s : Stores) (c : AccessErrorContext) (k : AccessKey) : Option RateLimitRule :=
  (s.getUsageProfile (accessKeyPubkey k)).bind (·.rule c k)

end Stores

/-! ## What replacing a profile does to the states -/

def methodState (targetPubkey : String) (now : Nat) (entry : Sigma fun _ : Method => MethodAccessRule) :
    Option (AccessKey × RateState) :=
  entry.2.accessRate.bind fun rule =>
    (RateState.fromRule now rule).toOption.map (AccessKey.method targetPubkey entry.1, ·)

def quotaState (targetPubkey : String) (now : Nat) (rule : RateLimitRule) : Option (AccessKey × RateState) :=
  (RateState.fromRule now rule).toOption.map (AccessKey.quota targetPubkey, ·)

theorem initializeMethodState_eq (t : String) (now : Nat) (a : AccessState)
    (e : Sigma fun _ : Method => MethodAccessRule) :
    initializeMethodState t now a e = { a with accessRate := a.accessRate.insertEach (methodState t now) [e] } := by
  unfold initializeMethodState Arena.insertEach
  cases hr : e.2.accessRate with
  | none => simp [methodState, hr]
  | some rule =>
    cases hf : RateState.fromRule now rule with
    | error err => simp [methodState, hr, hf, Except.toOption]
    | ok st => simp [methodState, hr, hf, Except.toOption, AccessState.insertAccessRateState]

theorem foldl_initializeMethodState (t : String) (now : Nat) (l : List (Sigma fun _ : Method => MethodAccessRule)) :
    ∀ a : AccessState, l.foldl (initializeMethodState t now) a =
      { a with accessRate := a.accessRate.insertEach (methodState t now) l } := by
  induction l with
  | nil => intro a; rfl
  | cons e l ih =>
    intro a
    rw [List.foldl_cons, ih, initializeMethodState_eq]
    rfl

theorem initializeStatesForProfile_eq (a : AccessState) (t : String) (p : UsageProfile) (now : Nat) :
    initializeStatesForProfile a t p now =
      ⟨a.accessRate.insertEach (methodState t now) (p.methods.elim [] (·.entries)),
        a.quota.insertEach (quotaState t now) p.quota.toList⟩ := by
  unfold initializeStatesForProfile
  have hm : (match p.methods with
      | none => a
      | some methods => methods.entries.foldl (initializeMethodState t now) a) =
      { a with accessRate := a.accessRate.insertEach (methodState t now) (p.methods.elim [] (·.entries)) } := by
    cases p.methods with
    | none => rfl
    | some methods => exact foldl_initializeMethodState ..
  simp only [hm]
  cases hq : p.quota with
  | none => rfl
  | some rule =>
    unfold Arena.insertEach
    cases hf : RateState.fromRule now rule with
    | error err => simp [quotaState, hf, Except.toOption]
    | ok st => simp [quotaState, hf, Except.toOption, AccessState.insertQuotaState]

@[simp] theorem map_clearStatesForPubkey (a : AccessState) (t : String) (c : AccessErrorContext) :
    (clearStatesForPubkey a t).map c = (a.map c).retain fun key _ => !keyBelongsToPubkey key t := by
  cases c <;> rfl

theorem handle?_clearStatesForPubkey (a : AccessState) (t : String) (c : AccessErrorContext) (k : AccessKey) :
    ((clearStatesForPubkey a t).map c).handle? k =
      if accessKeyPubkey k = t then none else (a.map c).handle? k := by
  rw [map_clearStatesForPubkey, Arena.handle?_retain]
  cases (a.map c).handle? k <;> by_cases h : accessKeyPubkey k = t <;> simp [keyBelongsToPubkey, h]

theorem key_of_methodState {t : String} {now : Nat} {e : Sigma fun _ : Method => MethodAccessRule} {k : AccessKey}
    {v : RateState} (h : methodState t now e = some (k, v)) :
    k = .method t e.1 ∧ (e.2.accessRate.bind fun r => (RateState.fromRule now r).toOption) = some v := by
  unfold methodState at h
  cases hr : e.2.accessRate with
  | none => simp [hr] at h
  | some rule =>
    cases hf : (RateState.fromRule now rule).toOption with
    | none => simp [hr, hf] at h
    | some st => simp [hr, hf] at h; simp [h, hf]

theorem key_of_quotaState {t : String} {now : Nat} {r : RateLimitRule} {k : AccessKey} {v : RateState}
    (h : quotaState t now r = some (k, v)) :
    k = .quota t ∧ (RateState.fromRule now r).toOption = some v := by
  unfold quotaState at h
  cases hf : (RateState.fromRule now r).toOption with
  | none => simp [hf] at h
  | some st => simp [hf] at h; simp [h]

section
variable (a : AccessState) (t : String) (p : UsageProfile) (now : Nat) (c : AccessErrorContext)

theorem next_le_initializeStatesForProfile :
    (a.map c).next ≤ ((initializeStatesForProfile a t p now).map c).next := by
  rw [initializeStatesForProfile_eq]
  cases c <;> exact Arena.next_le_insertEach ..

theorem cells_initializeStatesForProfile_of_lt {h : Nat} (hh : h < (a.map c).next) :
    ((initializeStatesForProfile a t p now).map c).cells h = (a.map c).cells h := by
  rw [initializeStatesForProfile_eq]
  cases c <;> exact Arena.cells_insertEach_of_lt _ _ hh

theorem handle?_initializeStatesForProfile {k : AccessKey} {h : Nat}
    (hk : ((initializeStatesForProfile a t p now).map c).handle? k = some h) :
    (a.map c).handle? k = some h ∨ (a.map c).next ≤ h := by
  rw [initializeStatesForProfile_eq] at hk
  cases c <;> exact Arena.handle?_insertEach _ hk

theorem handle?_initializeStatesForProfile_of_ne {k : AccessKey} (hk : accessKeyPubkey k ≠ t) :
    ((initializeStatesForProfile a t p now).map c).handle? k = (a.map c).handle? k := by
  rw [initializeStatesForProfile_eq]
  cases c with
  | accessRate =>
    apply Arena.handle?_insertEach_of_forall
    intro e _ v he
    obtain ⟨rfl, _⟩ := key_of_methodState he
    exact hk rfl
  | quota =>
    apply Arena.handle?_insertEach_of_forall
    intro r _ v he
    obtain ⟨rfl, _⟩ := key_of_quotaState he
    exact hk rfl

/-- A key without an entry gets a fresh state when the profile has a valid rule for it. -/
theorem at?_initializeStatesForProfile {k : AccessKey} (hold : (a.map c).handle? k = none)
    (hk : accessKeyPubkey k = t) :
    ((initializeStatesForProfile a t p now).map c).at? k =
      (p.rule c k).bind fun r => (RateState.fromRule now r).toOption := by
  subst hk
  rw [initializeStatesForProfile_eq]
  cases c with
  | accessRate =>
    apply Arena.at?_insertEach_eq _ hold
    · intro v hv
      match k with
      | .quota _ => cases hv
      | .method pk m =>
        simp only [UsageProfile.rule, Option.bind_eq_some_iff] at hv
        obtain ⟨r, ⟨mr, ⟨ms, hms, hlk⟩, hr⟩, hv⟩ := hv
        rw [hms]
        refine ⟨⟨m, mr⟩, AList.mem_lookup_iff.mp hlk, ?_⟩
        simp [methodState, hr, hv, accessKeyPubkey]
    · intro e he v hev
      obtain ⟨hk, hv⟩ := key_of_methodState hev
      cases hms : p.methods with
      | none => rw [hms] at he; cases he
      | some ms =>
        rw [hms] at he
        rw [hk]
        have hlk : ms.lookup e.1 = some e.2 := AList.mem_lookup_iff.mpr he
        simp only [UsageProfile.rule, hms, Option.bind_some, hlk]
        exact hv
  | quota =>
    apply Arena.at?_insertEach_eq _ hold
    · intro v hv
      match k with
      | .method _ _ => cases hv
      | .quota pk =>
        simp only [UsageProfile.rule, Option.bind_eq_some_iff] at hv
        obtain ⟨r, hr, hv⟩ := hv
        exact ⟨r, Option.mem_toList.mpr hr, by simp [quotaState, hv, accessKeyPubkey]⟩
    · intro r hr v hev
      obtain ⟨hk, hv⟩ := key_of_quotaState hev
      rw [hk]
      simp only [UsageProfile.rule, Option.mem_toList.mp hr, Option.bind_some]
      exact hv

end

namespace Stores

variable (s : Stores) (t : String) (p : UsageProfile) (now : Nat) (c : AccessErrorContext)

theorem getUsageProfile_upsert (q : String) :
    (s.upsertUsageProfileAndResetStates t p now).getUsageProfile q = if q = t then some p else s.getUsageProfile q :=
  AList.lookup_insert_eq ..

theorem next_le_upsert :
    (s.access.map c).next ≤ ((s.upsertUsageProfileAndResetStates t p now).access.map c).next := by
  have h := next_le_initializeStatesForProfile (clearStatesForPubkey s.access t) t p now c
  rwa [map_clearStatesForPubkey, Arena.next_retain] at h

theorem handle?_upsert_of_ne {k : AccessKey} (hk : accessKeyPubkey k ≠ t) :
    ((s.upsertUsageProfileAndResetStates t p now).access.map c).handle? k = (s.access.map c).handle? k := by
  show ((initializeStatesForProfile _ t p now).map c).handle? k = _
  rw [handle?_initializeStatesForProfile_of_ne _ _ _ _ _ hk, handle?_clearStatesForPubkey, if_neg hk]

/-- The target's states are all new: no handle given out before reaches them. -/
theorem next_le_handle?_upsert {k : AccessKey} {h : Nat} (hk : accessKeyPubkey k = t)
    (hh : ((s.upsertUsageProfileAndResetStates t p now).access.map c).handle? k = some h) :
    (s.access.map c).next ≤ h := by
  rcases handle?_initializeStatesForProfile _ _ _ _ _ hh with hold | hnew
  · rw [handle?_clearStatesForPubkey, if_pos hk] at hold
    cases hold
  · rwa [map_clearStatesForPubkey, Arena.next_retain] at hnew

theorem at?_upsert {k : AccessKey} (hk : accessKeyPubkey k = t) :
    ((s.upsertUsageProfileAndResetStates t p now).access.map c).at? k =
      (p.rule c k).bind fun r => (RateState.fromRule now r).toOption := by
  apply at?_initializeStatesForProfile _ _ _ _ _ _ hk
  rw [handle?_clearStatesForPubkey, if_pos hk]

theorem at?_upsert_of_ne {k : AccessKey} (hk : accessKeyPubkey k ≠ t) :
    ((s.upsertUsageProfileAndResetStates t p now).access.map c).at? k = (s.access.map c).at? k := by
  have hh := s.handle?_upsert_of_ne t p now c hk
  unfold Arena.at?
  rw [hh]
  cases hold : (s.access.map c).handle? k with
  | none => rfl
  | some h =>
    have hlt : h < ((clearStatesForPubkey s.access t).map c).next := by
      rw [map_clearStatesForPubkey]; exact (s.access.map c).handle?_lt hold
    have hc := cells_initializeStatesForProfile_of_lt (clearStatesForPubkey s.access t) t p now c hlt
    rw [map_clearStatesForPubkey, Arena.cells_retain] at hc
    exact congrArg some hc

end Stores

end LdkController
