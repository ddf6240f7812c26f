import LdkController.MeterSound
import LdkController.SpendSound
import Mathlib.Data.List.Find

/-!
# What a client can spend and ask

A quota meters payments and an access rate meters the requests of a method, so
what the node pays for a client, and how many of its requests succeed, stays
within the rule over any run of the service. A quota that does not refill is a
budget for good.
-/

namespace LdkController.Relay

open Lib

/-! ## One request -/

def servedBy (p : Processed) : Nat := if p.response.any (·.error.isNone) then 1 else 0

section
variable {env : Env} {backend : Backend} {s : Stores} {ctl : Controller} {now since : Nat} {request : Request}
  {event : Event} {us : List StateUpdateRequest} {profile : UsageProfile} {rule : RateLimitRule}

theorem chargedTo_method {client : String} (hp : prepareUpdates env s request client = .ok us)
    (hprofile : s.getUsageProfile client = some profile)
    (hrule : profile.rule .accessRate (.method client request.method) = some rule) :
    chargedTo .accessRate (.method client request.method) us = 1000000 := by
  obtain ⟨profile', mr, spend, rate, quota, hprofile', hm, hrate, _, hq, rfl⟩ := prepareUpdates_eq_ok.mp hp
  obtain rfl := Option.some.inj (hprofile.symm.trans hprofile')
  have hown := authorizeMethod_of_rule hrule hm
  rcases accessRateUpdates_eq_ok.mp hrate with ⟨hnone, _⟩ | ⟨rule', cell, _, _, rfl⟩
  · rw [hown] at hnone
    cases hnone
  · simp [chargedTo]

theorem response_of_failed (h : (processNwcRequest env backend ctl now request event).exit = .failed) :
    (processNwcRequest env backend ctl now request event).response.any (·.error.isNone) = false := by
  by_cases hv : ∃ us, (verifyAccess env ctl.toStores now request event).2 = .ok us
  · obtain ⟨us, hv⟩ := hv
    rw [processNwcRequest_of_ok hv] at h ⊢
    unfold processAdmitted at h ⊢
    by_cases hsub : request.method = .subscribeNotifications
    · rw [if_pos hsub] at h
      simp only at h
      split at h <;> cases h
    · rw [if_neg hsub] at h ⊢
      cases hhandler : requestHandlers request.method with
      | none =>
        rw [hhandler] at h
        cases h
      | some handler =>
        simp only [hhandler] at h ⊢
        cases hval : handler.validate env request with
        | error e =>
          rw [hval] at h
          cases h
        | ok u =>
          simp only [hval] at h ⊢
          cases hres : executeRequest env backend handler request event.pubkey with
          | mk sent result =>
            cases result with
            | error e => rfl
            | ok response =>
              rw [hres] at h
              cases h
  · exact response_of_not_ok fun us hus => hv ⟨us, hus⟩

/-- A request that succeeds costs the access rate one request. -/
theorem servedBy_le {client : String} (h : Metered .accessRate (.method client request.method) rule since ctl)
    (he : event.pubkey = client) :
    1000000 * servedBy (processNwcRequest env backend ctl now request event) ≤
      keptCharge .accessRate (.method client request.method) env backend ctl now request event := by
  by_cases hv : ∃ us, (verifyAccess env ctl.toStores now request event).2 = .ok us
  · obtain ⟨us, hv⟩ := hv
    obtain ⟨profile, hprofile, hrule⟩ := h.profile
    have hp : prepareUpdates env ctl.toStores request client = .ok us := he ▸ (verifyAccess_eq_ok.mp hv).1
    have hcharged : chargedTo .accessRate (.method client request.method) us = 1000000 :=
      chargedTo_method hp hprofile hrule
    simp only [keptCharge, hv, servedBy, hcharged]
    by_cases hfailed : (processNwcRequest env backend ctl now request event).exit = .failed
    · rw [if_pos hfailed, response_of_failed hfailed]
      simp
    · rw [if_neg hfailed]
      by_cases hserved : (processNwcRequest env backend ctl now request event).response.any (·.error.isNone) = true
      · rw [if_pos hserved]
      · rw [if_neg hserved]
        exact Nat.zero_le _
  · have hno : ∀ us, (verifyAccess env ctl.toStores now request event).2 ≠ .ok us := fun us hus => hv ⟨us, hus⟩
    unfold servedBy
    rw [response_of_not_ok hno]
    exact Nat.zero_le _

end

/-! ## The run -/

def servedFor (texts : Texts) (env : Env) (client : String) (method : Method) (s : Service) : Clear → Int
  | .call (.wallet request) caller _ m =>
    if s.serving = true ∧ caller = client ∧ request.method = method then
      servedBy (processWalletRequest texts.render env m.payment m.wallet s.controller s.stores m.now request
        ⟨caller, 0, "", [], ""⟩).toProcessed
    else 0
  | _ => 0

section
variable {keys : Keys} {secretKey : String} {texts : Texts} {env : Env} {s : Service} {since : Nat} {grant : Event}
  {client : String} {profile : UsageProfile} {rule : RateLimitRule}

/-- **Access rate.** From the grant of a rate for a method until a newer grant, each request of the client for the
method that succeeds takes 1000000 out of the capacity, and what the rule adds for each of its requests since. -/
theorem served_within_rate {method : Method}
    (htarget : parseGrantTarget s.controller.relayPubkey grant = some client)
    (hnewest : takes (slot s.controller client) grant.key = true)
    (hprofile : texts.parseProfile grant.content = some profile)
    (hrate : (profile.methods.bind (·.lookup method)).bind (·.accessRate) = some rule)
    (hcapacity : 0 ≤ rule.maxCapacity) {l : List Input}
    (hgrants : Steps (step keys secretKey texts env) (Ungranted client) (handleGrant texts s since grant) l) :
    tally (step keys secretKey texts env)
        (fun s i => 1000000 * (opened keys secretKey texts i).elim 0 (servedFor texts env client method s))
        (handleGrant texts s since grant) l ≤
      rule.maxCapacity + tally (step keys secretKey texts env)
        (fun _ i => rule.ratePerMicro * (opened keys secretKey texts i).elim 0 (waited client since))
        (handleGrant texts s since grant) l := by
  refine within_rule (P := fun _ _ => True) (c := .accessRate) (k := .method client method) htarget hnewest hprofile hrate
    hcapacity ?_ (Steps.of_forall fun _ _ _ => trivial) hgrants
  intro s i _ hmet
  cases hopen : opened keys secretKey texts i with
  | none => exact le_refl 0
  | some cl =>
    simp only [Option.elim_some]
    have hnonneg : 0 ≤ keptFor .accessRate (.method client method) texts env s cl := keptFor_nonneg _ _ _ _ _ _
    cases cl with
    | call body caller id m =>
      cases body with
      | wallet request =>
        simp only [servedFor]
        by_cases hc : s.serving = true ∧ caller = client ∧ request.method = method
        · obtain ⟨hs, hcaller, rfl⟩ := hc
          rw [if_pos ⟨hs, hcaller, rfl⟩, keptFor, if_pos ⟨hs, hcaller⟩]
          exact_mod_cast servedBy_le hmet hcaller
        · rw [if_neg hc, mul_zero]
          exact hnonneg
      | _ => exact le_refl 0
    | _ => exact le_refl 0

end

namespace Sample

end Sample

namespace Sample

/-- Two requests of `get_info`, and no more. -/
def rateTexts : Texts :=
  { texts with
    parseProfile content :=
      if content = "rate" then some ⟨none, some (AList.singleton .getInfo ⟨some ⟨0, 2000000⟩⟩), none⟩ else none }

def rateGrant : Event := ⟨"owner", 5, "0a", [["d", "node:alice"]], "rate"⟩

def ask : Input := .notification (event "alice" "01" "nip04" "get_info") meets

end Sample

/-- The third request is refused. -/
theorem served_within_rate_three :
    tally (step Sample.keys "node" Sample.rateTexts Sample.env)
        (fun s i => 1000000 * (opened Sample.keys "node" Sample.rateTexts i).elim 0
          (servedFor Sample.rateTexts Sample.env "alice" .getInfo s))
        (handleGrant Sample.rateTexts Sample.service 7 Sample.rateGrant) [Sample.ask, Sample.ask, Sample.ask] ≤
      2000000 + tally (step Sample.keys "node" Sample.rateTexts Sample.env)
        (fun _ i => ((0 : Nat) : Int) * (opened Sample.keys "node" Sample.rateTexts i).elim 0 (waited "alice" 7))
        (handleGrant Sample.rateTexts Sample.service 7 Sample.rateGrant) [Sample.ask, Sample.ask, Sample.ask] := by
  have hprofile : Sample.rateTexts.parseProfile Sample.rateGrant.content =
      some ⟨none, some (AList.singleton .getInfo ⟨some ⟨0, 2000000⟩⟩), none⟩ := rfl
  have hnone : ∀ s, Ungranted "alice" s Sample.ask := by
    intro s event hevent
    have hgranted : granted s Sample.ask = none := if_neg fun h => absurd h.2 (by decide)
    rw [hgranted] at hevent
    cases hevent
  have hrate : (((some (AList.singleton .getInfo ⟨some ⟨0, 2000000⟩⟩) : Option (Table Method MethodAccessRule)).bind
      (·.lookup .getInfo)).bind (·.accessRate)) = some ⟨0, 2000000⟩ := by decide
  have hgrants : Steps (step Sample.keys "node" Sample.rateTexts Sample.env) (Ungranted "alice")
      (handleGrant Sample.rateTexts Sample.service 7 Sample.rateGrant) [Sample.ask, Sample.ask, Sample.ask] :=
    ⟨hnone _, hnone _, hnone _, trivial⟩
  exact served_within_rate rfl rfl hprofile hrate (by decide) hgrants

end LdkController.Relay
