import LdkController.AuthoritySound
import LdkController.RateStateSound
import Mathlib.Tactic.Linarith
import Mathlib.Tactic.Positivity

/-!
# What a rule lets through

A rule of a profile meters requests: its state is charged for them, and the
charge of a request that fails is given back. From the grant of the rule on, the
charges that are kept add up to at most the capacity and what is refilled, over
any run of the service. The refill time of a state never moves, so each request
is credited with all the time since the grant.
-/

namespace LdkController.Relay

open Lib

/-! ## The charge of a request -/

def chargedTo (c : AccessErrorContext) (k : AccessKey) (us : List StateUpdateRequest) : Nat :=
  ((us.find? fun u => u.context = c ∧ u.key = k).map (·.amount)).getD 0

section
variable {env : Env} {s : Stores} {request : Request} {client : String} {us : List StateUpdateRequest}
  {profile : UsageProfile} {rule : RateLimitRule} {c : AccessErrorContext} {k : AccessKey}

/-- An entry of the method decides, not the one for `ALL`. -/
theorem authorizeMethod_of_rule {m : Method} (h : profile.rule .accessRate (.method client m) = some rule)
    {mr : Option MethodAccessRule} (hm : authorizeMethod profile m = .ok mr) : mr.bind (·.accessRate) = some rule := by
  simp only [UsageProfile.rule, Option.bind_eq_some_iff] at h
  obtain ⟨own, ⟨methods, hmethods, hlookup⟩, hown⟩ := h
  unfold authorizeMethod at hm
  simp only [hmethods, hlookup] at hm
  by_cases hempty : methods.entries.isEmpty = true
  · rw [if_pos hempty] at hm
    cases hm
  · rw [if_neg hempty] at hm
    rw [← Outcome.ok.inj hm]
    exact hown

theorem rule_of_prepared {u : StateUpdateRequest} (h : Prepared env s request client u)
    (hprofile : s.getUsageProfile client = some profile) (hrule : profile.rule u.context u.key = some rule) :
    u.rule = rule := by
  cases h with
  | accessRate hp hm hr hc =>
    obtain rfl := Option.some.inj (hprofile.symm.trans hp)
    have hown := authorizeMethod_of_rule hrule hm
    exact Option.some.inj (hr.symm.trans hown)
  | quota hp hs hpos hr hc =>
    obtain rfl := Option.some.inj (hprofile.symm.trans hp)
    exact Option.some.inj (hr.symm.trans hrule)

theorem update_cases (hp : prepareUpdates env s request client = .ok us)
    (hprofile : s.getUsageProfile client = some profile) (hrule : profile.rule c k = some rule) {cell : Nat}
    (hcell : (s.access.map c).handle? k = some cell) :
    (chargedTo c k us = 0 ∧ ∀ u ∈ us, u.state ≠ ⟨c, cell⟩) ∨
      ∃ u ∈ us, u.rule = rule ∧ u.amount = chargedTo c k us ∧ u.state = ⟨c, cell⟩ := by
  unfold chargedTo
  cases hfind : us.find? fun u => u.context = c ∧ u.key = k with
  | none =>
    refine .inl ⟨rfl, fun u hu hstate => ?_⟩
    have hprep := prepared_of_mem hp u hu
    have hstore : u.context = c := by rw [← hprep.store, hstate]
    have hhandle := hprep.handle
    rw [hstore, hstate] at hhandle
    have hkey : u.key = k := (s.access.map c).handle?_inj hhandle hcell
    exact List.find?_eq_none.mp hfind u hu (decide_eq_true ⟨hstore, hkey⟩)
  | some u =>
    have hmatch := List.find?_some hfind
    obtain ⟨hstore, hkey⟩ := of_decide_eq_true hmatch
    have hu := List.mem_of_find?_eq_some hfind
    have hprep := prepared_of_mem hp u hu
    have hhandle := hprep.handle
    rw [hstore, hkey, hcell] at hhandle
    refine .inr ⟨u, hu, rule_of_prepared hprep hprofile (by rw [hstore, hkey]; exact hrule), rfl, ?_⟩
    rw [Option.some.inj hhandle, ← hstore, ← hprep.store]

/-- Writing the states of the updates writes this one once, or not at all. -/
theorem at?_modifyEach (f : RateState → StateUpdateRequest → RateState)
    (hp : prepareUpdates env s request client = .ok us) (hprofile : s.getUsageProfile client = some profile)
    (hrule : profile.rule c k = some rule) {a : AccessState} {st : RateState}
    (ha : (a.map c).handle? k = (s.access.map c).handle? k) (hst : (a.map c).at? k = some st) :
    (chargedTo c k us = 0 ∧ ((us.foldl (modify f) a).map c).at? k = some st) ∨
      ∃ u ∈ us, u.rule = rule ∧ u.amount = chargedTo c k us ∧ a.read u.state = st ∧
        ((us.foldl (modify f) a).map c).at? k = some (f st u) := by
  obtain ⟨cell, hcell, hread⟩ := Option.map_eq_some_iff.mp hst
  have hafter : ((us.foldl (modify f) a).map c).handle? k = some cell := (handle?_modifyEach f us c k a).trans hcell
  rw [Arena.at?_of_handle _ hafter]
  rcases update_cases hp hprofile hrule (ha.symm.trans hcell) with ⟨hzero, hnone⟩ | ⟨u, hu, hur, hamount, hstate⟩
  · left
    refine ⟨hzero, congrArg some ?_⟩
    have hsame : (us.foldl (modify f) a).read ⟨c, cell⟩ = a.read ⟨c, cell⟩ :=
      read_modifyEach_of_forall f a fun u hu he => hnone u hu he.symm
    exact hsame.trans hread
  · right
    have hreadu : a.read u.state = st := by
      rw [hstate]
      exact hread
    refine ⟨u, hu, hur, hamount, hreadu, congrArg some ?_⟩
    have hwrite := read_modifyEach f (states_pairwise_ne hp) hu a
    rw [hreadu, hstate] at hwrite
    exact hwrite

end

/-! ## A request of the client -/

/-- The client has the rule, and its state was made at `since`. -/
structure Metered (c : AccessErrorContext) (k : AccessKey) (rule : RateLimitRule) (since : Nat) (ctl : Controller) :
    Prop where
  profile : ∃ profile, ctl.getUsageProfile (accessKeyPubkey k) = some profile ∧ profile.rule c k = some rule
  state : ∃ st, (ctl.access.map c).at? k = some st ∧ st.InBounds rule ∧ st.lastRefillMicros = since

def level (c : AccessErrorContext) (k : AccessKey) (a : AccessState) : Int := ((a.map c).at? k).elim 0 (·.balance)

def keptCharge (c : AccessErrorContext) (k : AccessKey) (env : Env) (backend : Backend) (ctl : Controller) (now : Nat)
    (request : Request) (event : Event) : Nat :=
  match (verifyAccess env ctl.toStores now request event).2 with
  | .ok us => if (processNwcRequest env backend ctl now request event).exit = .failed then 0 else chargedTo c k us
  | _ => 0

section
variable {c : AccessErrorContext} {k : AccessKey} {rule : RateLimitRule} {since : Nat} {ctl ctl' : Controller}

theorem level_of_at? {a : AccessState} {st : RateState} (h : (a.map c).at? k = some st) : level c k a = st.balance :=
  congrArg (fun o : Option RateState => o.elim 0 (·.balance)) h

theorem Metered.level_nonneg (h : Metered c k rule since ctl) : 0 ≤ level c k ctl.access := by
  obtain ⟨st, hst, hbounds, _⟩ := h.state
  rw [level_of_at? hst]
  exact hbounds.1

theorem Metered.of_same (h : Metered c k rule since ctl)
    (hprofile : ctl'.getUsageProfile (accessKeyPubkey k) = ctl.getUsageProfile (accessKeyPubkey k))
    (hstate : (ctl'.access.map c).at? k = (ctl.access.map c).at? k) :
    Metered c k rule since ctl' ∧ level c k ctl'.access = level c k ctl.access := by
  refine ⟨⟨?_, ?_⟩, congrArg (fun o : Option RateState => o.elim 0 (·.balance)) hstate⟩
  · rw [hprofile]
    exact h.profile
  · rw [hstate]
    exact h.state

theorem refilled_le_since {st : RateState} (hbounds : st.InBounds rule) (hsince : st.lastRefillMicros = since) (now : Nat) :
    st.refilled now rule ≤ st.balance + rule.ratePerMicro * (now - since : Nat) := by
  have h := RateState.refilled_le hbounds.1 now rule
  rwa [hsince] at h

variable {env : Env} {backend : Backend} {now : Nat} {request : Request} {event : Event} {us : List StateUpdateRequest}

theorem Metered.debit (h : Metered c k rule since ctl)
    (hv : (verifyAccess env ctl.toStores now request event).2 = .ok us) (he : event.pubkey = accessKeyPubkey k) :
    Metered c k rule since { ctl with access := us.foldl (LdkController.debit now) ctl.access } ∧
      level c k (us.foldl (LdkController.debit now) ctl.access) + chargedTo c k us ≤
        level c k ctl.access + rule.ratePerMicro * (now - since : Nat) := by
  obtain ⟨profile, hprofile, hrule⟩ := h.profile
  obtain ⟨st, hst, hbounds, hsince⟩ := h.state
  obtain ⟨hp, hcov⟩ := verifyAccess_eq_ok.mp hv
  rw [he] at hp
  have hgain : 0 ≤ (rule.ratePerMicro : Int) * (now - since : Nat) := by positivity
  rw [level_of_at? hst]
  rcases at?_modifyEach (fun st u => { st with balance := st.refilled now u.rule - u.amount }) hp hprofile hrule rfl hst
    with ⟨hzero, hat⟩ | ⟨u, hu, hur, hamount, hread, hat⟩
  · refine ⟨⟨⟨profile, hprofile, hrule⟩, st, hat, hbounds, hsince⟩, ?_⟩
    have hafter : level c k (us.foldl (LdkController.debit now) ctl.access) = st.balance := level_of_at? hat
    rw [hafter, hzero]
    simpa using hgain
  · have hcovers : st.Covers u.amount now rule := by
      have h := hcov u hu
      rwa [hread, hur] at h
    rw [hur] at hat
    have hwithdraw := hbounds.withdraw u.amount now
    rw [RateState.withdraw_of_covers hcovers] at hwithdraw
    refine ⟨⟨⟨profile, hprofile, hrule⟩, _, hat, hwithdraw, hsince⟩, ?_⟩
    have hle := refilled_le_since hbounds hsince now
    have hafter : level c k (us.foldl (LdkController.debit now) ctl.access) = st.refilled now rule - u.amount :=
      level_of_at? hat
    rw [hafter, ← hamount]
    omega

theorem Metered.refund (h : Metered c k rule since ctl) {s : Stores}
    (hp : prepareUpdates env s request (accessKeyPubkey k) = .ok us) (hprofile : s.usageProfiles = ctl.usageProfiles)
    (hhandles : (ctl.access.map c).handle? k = (s.access.map c).handle? k) :
    Metered c k rule since { ctl with access := refundAppliedStateUpdates ctl.access us } ∧
      level c k (refundAppliedStateUpdates ctl.access us) ≤ level c k ctl.access + chargedTo c k us := by
  obtain ⟨profile, hctl, hrule⟩ := h.profile
  obtain ⟨st, hst, hbounds, hsince⟩ := h.state
  have hs : s.getUsageProfile (accessKeyPubkey k) = some profile := by
    unfold Stores.getUsageProfile
    rw [hprofile]
    exact hctl
  rw [level_of_at? hst]
  rcases at?_modifyEach (fun st u => (st.refund u.amount u.rule).1) hp hs hrule hhandles hst with
    ⟨hzero, hat⟩ | ⟨u, _, hur, hamount, _, hat⟩
  · refine ⟨⟨⟨profile, hctl, hrule⟩, st, hat, hbounds, hsince⟩, ?_⟩
    have hafter : level c k (refundAppliedStateUpdates ctl.access us) = st.balance := level_of_at? hat
    rw [hafter, hzero]
    simp
  · rw [hur] at hat
    have hafter : level c k (refundAppliedStateUpdates ctl.access us) = (st.refund u.amount rule).1.balance :=
      level_of_at? hat
    have hkept : (st.refund u.amount rule).1.lastRefillMicros = since ∧
        (st.refund u.amount rule).1.balance ≤ st.balance + u.amount := by
      by_cases hvalid : 0 ≤ rule.maxCapacity ∧ (u.amount : Int) ≤ i64Max
      · rw [RateState.refund_of_valid hvalid.1 hvalid.2]
        refine ⟨hsince, (min_le_left _ _).trans (max_le ?_ (min_le_right _ _))⟩
        have h0 := hbounds.1
        unfold i64Min
        omega
      · obtain ⟨e, hrefund⟩ := RateState.refund_of_invalid (s := st) hvalid
        rw [hrefund]
        exact ⟨hsince, by simp⟩
    refine ⟨⟨⟨profile, hctl, hrule⟩, _, hat, hbounds.refund u.amount, hkept.1⟩, ?_⟩
    rw [hafter, ← hamount]
    exact hkept.2

/-- What becomes of an admitted request gives back its charge or keeps it. -/
theorem Metered.of_admitted (h : Metered c k rule since ctl) {s : Stores}
    (hp : prepareUpdates env s request (accessKeyPubkey k) = .ok us) (hprofile : s.usageProfiles = ctl.usageProfiles)
    (hhandles : (ctl.access.map c).handle? k = (s.access.map c).handle? k) (backend : Backend) (caller : String) :
    let processed := processAdmitted env backend ctl us request caller
    Metered c k rule since processed.controller ∧
      level c k processed.controller.access + (if processed.exit = .failed then 0 else chargedTo c k us : Nat) ≤
        level c k ctl.access + chargedTo c k us := by
  intro processed
  have hle : (if processed.exit = .failed then 0 else chargedTo c k us) ≤ chargedTo c k us := by
    by_cases hfailed : processed.exit = .failed
    · rw [if_pos hfailed]
      exact Nat.zero_le _
    · rw [if_neg hfailed]
  have hsame : processed.controller.getUsageProfile (accessKeyPubkey k) = ctl.getUsageProfile (accessKeyPubkey k) := by
    unfold Stores.getUsageProfile
    rw [(sameGrants_processAdmitted env backend ctl us request caller).profiles]
  have hkept : processed.controller.access = ctl.access → Metered c k rule since processed.controller ∧
      level c k processed.controller.access + (if processed.exit = .failed then 0 else chargedTo c k us : Nat) ≤
        level c k ctl.access + chargedTo c k us := by
    intro haccess
    obtain ⟨hmet, hlevel⟩ := h.of_same hsame (by rw [haccess])
    refine ⟨hmet, ?_⟩
    rw [hlevel]
    omega
  rcases processAdmitted_cases env backend ctl us request caller with
    ⟨_, _, haccess, _⟩ | ⟨_, _, haccess, _⟩ | ⟨_, _, _, _, _, ⟨_, _, _, hc⟩ | ⟨_, _, hexit, hc⟩⟩
  · exact hkept haccess
  · exact hkept haccess
  · exact hkept (by rw [hc])
  · have hfailed : processed.exit = .failed := hexit
    have hc : processed.controller = { ctl with access := refundAppliedStateUpdates ctl.access us } := hc
    rw [if_pos hfailed, hc, Nat.cast_zero, add_zero]
    exact h.refund hp hprofile hhandles

/-- **One request.** The charge that is kept comes out of the state and the accrual since the grant. -/
theorem Metered.one_request (h : Metered c k rule since ctl) (env : Env) (backend : Backend) (now : Nat)
    (request : Request) (he : event.pubkey = accessKeyPubkey k) :
    Metered c k rule since (processNwcRequest env backend ctl now request event).controller ∧
      level c k (processNwcRequest env backend ctl now request event).controller.access +
          keptCharge c k env backend ctl now request event ≤
        level c k ctl.access + rule.ratePerMicro * (now - since : Nat) := by
  by_cases hv : ∃ us, (verifyAccess env ctl.toStores now request event).2 = .ok us
  · obtain ⟨us, hv⟩ := hv
    obtain ⟨hmetered, hle⟩ := h.debit hv he
    have hp := (verifyAccess_eq_ok.mp hv).1
    obtain ⟨hmet, hkept⟩ := hmetered.of_admitted (he ▸ hp) (Eq.refl ctl.usageProfiles)
      (handle?_debitEach now us c k ctl.access) backend event.pubkey
    simp only [keptCharge, hv]
    rw [processNwcRequest_of_ok hv]
    exact ⟨hmet, hkept.trans hle⟩
  · have hno : ∀ us, (verifyAccess env ctl.toStores now request event).2 ≠ .ok us := fun us hus => hv ⟨us, hus⟩
    have hzero : keptCharge c k env backend ctl now request event = 0 := by
      unfold keptCharge
      split
      · rename_i us hus
        exact absurd hus (hno us)
      · rfl
    have hgain : 0 ≤ (rule.ratePerMicro : Int) * (now - since : Nat) := by positivity
    rw [(processNwcRequest_of_not_ok hno).1, hzero]
    refine ⟨h, ?_⟩
    omega

end

/-! ## The run -/

def keptFor (c : AccessErrorContext) (k : AccessKey) (texts : Texts) (env : Env) (s : Service) : Clear → Int
  | .call (.wallet request) caller _ m =>
    if s.serving = true ∧ caller = accessKeyPubkey k then
      keptCharge c k env (walletBackend texts.render env.build m.payment m.wallet s.controller.toStores s.stores)
        s.controller m.now request ⟨caller, 0, "", [], ""⟩
    else 0
  | _ => 0

theorem keptFor_nonneg (c : AccessErrorContext) (k : AccessKey) (texts : Texts) (env : Env) (s : Service) (cl : Clear) :
    0 ≤ keptFor c k texts env s cl := by
  unfold keptFor
  cases cl with
  | call body caller id m =>
    cases body with
    | wallet request => by_cases hc : s.serving = true ∧ caller = accessKeyPubkey k <;> simp [hc]
    | _ => exact le_refl 0
  | _ => exact le_refl 0

/-- The time that has passed since the grant when the client makes a request. -/
def waited (client : String) (since : Nat) : Clear → Int
  | .call (.wallet _) caller _ m => if caller = client then (m.now - since : Nat) else 0
  | _ => 0

/-- A grant of the client that is taken in is no newer than the last. -/
def Ungranted (client : String) (s : Service) (i : Input) : Prop :=
  ∀ event ∈ granted s i, parseGrantTarget s.controller.relayPubkey event = some client → TurnedAway s.controller event

section
variable {keys : Keys} {secretKey : String} {texts : Texts} {env : Env} {c : AccessErrorContext} {k : AccessKey}
  {rule : RateLimitRule} {since : Nat} {s : Service}

theorem agree_processNwcRequest {env : Env} {backend : Backend} {ctl : Controller} {now : Nat} {request : Request}
    {event : Event} {client : String} (hne : event.pubkey ≠ client) :
    Isolation.Agree client (processNwcRequest env backend ctl now request event).controller.access ctl.access := by
  by_cases hv : ∃ us, (verifyAccess env ctl.toStores now request event).2 = .ok us
  · obtain ⟨us, hv⟩ := hv
    have hp := (verifyAccess_eq_ok.mp hv).1
    have hheld : ∀ u ∈ us, Isolation.Held event.pubkey ctl.access u := by
      intro u hu
      obtain ⟨howner, hlive⟩ := Isolation.live_of_prepared (prepared_of_mem hp u hu)
      exact hlive.held howner
    have hdebit : Isolation.Agree client (us.foldl (debit now) ctl.access) ctl.access :=
      Isolation.agree_modifyEach_of_ne (fun st u => { st with balance := st.refilled now u.rule - u.amount }) hne hheld
    rw [processNwcRequest_of_ok hv]
    rcases processAdmitted_cases env backend { ctl with access := us.foldl (debit now) ctl.access } us request event.pubkey
      with ⟨_, _, haccess, _⟩ | ⟨_, _, haccess, _⟩ | ⟨_, _, _, _, _, ⟨_, _, _, hc⟩ | ⟨_, _, _, hc⟩⟩
    · rw [haccess]
      exact hdebit
    · rw [haccess]
      exact hdebit
    · rw [hc]
      exact hdebit
    · rw [hc]
      intro c' k hk
      have hrefund := Isolation.agree_modifyEach_of_ne (fun st u => (st.refund u.amount u.rule).1) hne
        fun u hu => (hheld u hu).grows (Isolation.grows_modifyEach
          (fun st u => { st with balance := st.refilled now u.rule - u.amount }) us ctl.access)
      exact (hrefund c' k hk).trans (hdebit c' k hk)
  · rw [(processNwcRequest_of_not_ok fun us hus => hv ⟨us, hus⟩).1]
    exact fun _ _ _ => rfl

theorem Metered.answerCall (h : Metered c k rule since s.controller) (hs : s.serving = true) (body : Body)
    (caller id : String) (m : Meets) :
    Metered c k rule since (answerCall texts env s caller m body).1.controller ∧
      level c k (Relay.answerCall texts env s caller m body).1.controller.access +
          keptFor c k texts env s (.call body caller id m) ≤
        level c k s.controller.access + rule.ratePerMicro * waited (accessKeyPubkey k) since (.call body caller id m) := by
  cases body with
  | wallet request =>
    simp only [Relay.answerCall, keptFor, waited, hs, true_and]
    by_cases hc : caller = accessKeyPubkey k
    · rw [if_pos hc, if_pos hc]
      exact h.one_request env _ m.now request hc
    · rw [if_neg hc, if_neg hc]
      have hsame := sameGrants_processNwcRequest env (walletBackend texts.render env.build m.payment m.wallet
        s.controller.toStores s.stores) s.controller m.now request ⟨caller, 0, "", [], ""⟩
      obtain ⟨hkept, hlevel⟩ := h.of_same (by unfold Stores.getUsageProfile; rw [hsame.profiles])
        (agree_processNwcRequest hc c k rfl)
      refine ⟨hkept, ?_⟩
      rw [add_zero, mul_zero, add_zero]
      exact hlevel.le
  | control call =>
    obtain ⟨subscriptions, hc⟩ := processControlCall_frame env.build (controlBackend texts s m) s.controller call caller
    simp only [Relay.answerCall, keptFor, waited, hc]
    exact ⟨⟨h.profile, h.state⟩, by simp⟩
  | malformed decrypted => exact ⟨h, by simp [Relay.answerCall, keptFor, waited]⟩
  | unsupported responseKind scheme => exact ⟨h, by simp [Relay.answerCall, keptFor, waited]⟩

theorem Metered.grant (h : Metered c k rule since s.controller) (texts : Texts) (now : Nat) {event : Event}
    (haway : parseGrantTarget s.controller.relayPubkey event = some (accessKeyPubkey k) → TurnedAway s.controller event) :
    Metered c k rule since (handleGrant texts s now event).controller ∧
      level c k (handleGrant texts s now event).controller.access = level c k s.controller.access := by
  by_cases ht : parseGrantTarget s.controller.relayPubkey event = some (accessKeyPubkey k)
  · unfold handleGrant
    rw [handleGrantEvent_of_turnedAway (haway ht)]
    exact ⟨h, rfl⟩
  · have hquiet := Isolation.quiet_grant texts.parseProfile s.controller now event ht
    exact h.of_same hquiet.profile (hquiet.states c k rfl)

theorem Metered.step {i : Input} (h : Metered c k rule since s.controller) (hgrant : Ungranted (accessKeyPubkey k) s i) :
    Metered c k rule since (step keys secretKey texts env s i).controller ∧
      level c k (Relay.step keys secretKey texts env s i).controller.access +
          (opened keys secretKey texts i).elim 0 (keptFor c k texts env s) ≤
        level c k s.controller.access +
          rule.ratePerMicro * (opened keys secretKey texts i).elim 0 (waited (accessKeyPubkey k) since) := by
  unfold Ungranted at hgrant
  rw [granted_eq keys secretKey texts env] at hgrant
  cases hopen : opened keys secretKey texts i with
  | none =>
    rw [(step_of_not_opened hopen).1]
    exact ⟨h, by simp⟩
  | some cl =>
    rw [hopen, Option.bind_some] at hgrant
    rw [step_of_opened hopen]
    simp only [Option.elim_some]
    cases cl with
    | call body caller id m =>
      simp only [clearStep]
      by_cases hs : s.serving = true
      · rw [if_pos hs]
        exact h.answerCall hs body caller id m
      · rw [if_neg hs]
        have hkept : keptFor c k texts env s (.call body caller id m) = 0 := by
          unfold keptFor
          cases body <;> simp [hs]
        have hwaited : 0 ≤ waited (accessKeyPubkey k) since (.call body caller id m) := by
          unfold waited
          cases body with
          | wallet request => by_cases hc : caller = accessKeyPubkey k <;> simp [hc]
          | _ => exact le_refl _
        refine ⟨h, ?_⟩
        rw [hkept, add_zero]
        exact le_add_of_nonneg_right (mul_nonneg (by positivity) hwaited)
    | grant event now =>
      simp only [clearStep]
      by_cases hs : s.serving = true
      · rw [if_pos hs]
        obtain ⟨hmet, hlevel⟩ := h.grant texts now (hgrant event (if_pos hs))
        exact ⟨hmet, by simp [hlevel, keptFor, waited]⟩
      · rw [if_neg hs]
        exact ⟨h, by simp [keptFor, waited]⟩
    | fetched event now =>
      obtain ⟨hmet, hlevel⟩ := h.grant texts now (hgrant event rfl)
      exact ⟨hmet, by simp [clearStep, hlevel, keptFor, waited]⟩
    | ldkEvent event node fails now =>
      simp only [clearStep]
      by_cases hl : s.listening = true
      · rw [if_pos hl]
        exact ⟨h, by simp [handleNodeEvent, keptFor, waited]⟩
      · rw [if_neg hl]
        exact ⟨h, by simp [keptFor, waited]⟩

variable (since) in
theorem metered_grant {grant : Event} {profile : UsageProfile}
    (htarget : parseGrantTarget s.controller.relayPubkey grant = some (accessKeyPubkey k))
    (hnewest : takes (slot s.controller (accessKeyPubkey k)) grant.key = true)
    (hprofile : texts.parseProfile grant.content = some profile) (hrule : profile.rule c k = some rule)
    (hcapacity : 0 ≤ rule.maxCapacity) :
    Metered c k rule since (handleGrant texts s since grant).controller ∧
      level c k (handleGrant texts s since grant).controller.access = rule.maxCapacity := by
  have hstate : ((handleGrant texts s since grant).controller.access.map c).at? k = some ⟨rule.maxCapacity, since⟩ := by
    unfold handleGrant
    rw [handleGrantEvent_of_taken texts.parseProfile s.controller since grant htarget hnewest, hprofile]
    refine (Stores.at?_upsert s.controller.toStores (accessKeyPubkey k) profile since c rfl).trans ?_
    rw [hrule, Option.bind_some, RateState.fromRule_eq_ok.mpr ⟨hcapacity, rfl⟩]
    rfl
  refine ⟨⟨⟨profile, ?_, hrule⟩, _, hstate, ⟨hcapacity, le_refl _⟩, rfl⟩, level_of_at? hstate⟩
  unfold handleGrant
  rw [getUsageProfile_handleGrantEvent texts.parseProfile s.controller since grant htarget hnewest, hprofile]
  rfl

/-- **The rule.** What costs no more than the charges that are kept is bounded over every run. -/
theorem within_rule {grant : Event} {profile : UsageProfile} {cost : Service → Input → Int} {P : Service → Input → Prop}
    (htarget : parseGrantTarget s.controller.relayPubkey grant = some (accessKeyPubkey k))
    (hnewest : takes (slot s.controller (accessKeyPubkey k)) grant.key = true)
    (hprofile : texts.parseProfile grant.content = some profile) (hrule : profile.rule c k = some rule)
    (hcapacity : 0 ≤ rule.maxCapacity)
    (hcost : ∀ s i, P s i → Metered c k rule since s.controller →
      cost s i ≤ (opened keys secretKey texts i).elim 0 (keptFor c k texts env s))
    {l : List Input} (hP : Steps (step keys secretKey texts env) P (handleGrant texts s since grant) l)
    (hgrants : Steps (step keys secretKey texts env) (Ungranted (accessKeyPubkey k)) (handleGrant texts s since grant) l) :
    tally (step keys secretKey texts env) cost (handleGrant texts s since grant) l ≤
      rule.maxCapacity + tally (step keys secretKey texts env)
        (fun _ i => rule.ratePerMicro * (opened keys secretKey texts i).elim 0 (waited (accessKeyPubkey k) since))
        (handleGrant texts s since grant) l := by
  obtain ⟨hstart, hlevel⟩ := metered_grant since htarget hnewest hprofile hrule hcapacity
  have hone : ∀ s i, P s i ∧ Ungranted (accessKeyPubkey k) s i → Metered c k rule since s.controller →
      Metered c k rule since (step keys secretKey texts env s i).controller ∧
        level c k (step keys secretKey texts env s i).controller.access + cost s i ≤
          level c k s.controller.access +
            rule.ratePerMicro * (opened keys secretKey texts i).elim 0 (waited (accessKeyPubkey k) since) := by
    intro s i hi hs
    obtain ⟨hmet, hle⟩ : _ ∧ level c k (step keys secretKey texts env s i).controller.access + _ ≤ _ := hs.step hi.2
    have hle' := hcost s i hi.1 hs
    exact ⟨hmet, by linarith⟩
  obtain ⟨hend, hrun⟩ := (hP.and hgrants).amortized (fun s => Metered c k rule since s.controller)
    (fun s => level c k s.controller.access) hone hstart
  have hnonneg := hend.level_nonneg
  rw [hlevel] at hrun
  linarith

end

end LdkController.Relay
