import LdkController.AuthoritySound

/-!
# Strangers

A client that nobody granted a profile can send what it likes: the service does
for the others exactly what it would do had the client not been there, and tells
the client nothing that depends on anything the service holds.
-/

namespace LdkController.Relay

open Lib

def NoneGranted (client : String) (s : Service) (i : Input) : Prop :=
  ∀ event ∈ granted s i, parseGrantTarget s.controller.relayPubkey event ≠ some client

section
variable {keys : Keys} {secretKey : String} {texts : Texts} {env : Env} {s : Service} {client : String}

/-! ## One event -/

theorem getUsageProfile_clearStep (h : s.controller.getUsageProfile client = none) {cl : Clear}
    (hnone : ∀ event ∈ clearGranted s cl, parseGrantTarget s.controller.relayPubkey event ≠ some client) :
    (clearStep texts env s cl).controller.getUsageProfile client = none := by
  have hsame : ∀ {c' : Controller}, SameGrants s.controller c' → c'.getUsageProfile client = none := by
    intro c' hc
    unfold Stores.getUsageProfile
    rw [hc.profiles]
    exact h
  have hgrant : ∀ now event, parseGrantTarget s.controller.relayPubkey event ≠ some client →
      (handleGrant texts s now event).controller.getUsageProfile client = none := by
    intro now event hne
    exact (Isolation.quiet_grant texts.parseProfile s.controller now event hne).profile.trans h
  cases cl with
  | call body caller id m =>
    simp only [clearStep]
    by_cases hs : s.serving = true
    · rw [if_pos hs]
      cases body with
      | wallet request => exact hsame (sameGrants_processNwcRequest ..)
      | control call => exact hsame (sameGrants_processControlCall ..)
      | malformed decrypted => exact h
      | unsupported responseKind scheme => exact h
    · rw [if_neg hs]
      exact h
  | grant event now =>
    simp only [clearStep]
    by_cases hs : s.serving = true
    · rw [if_pos hs]
      exact hgrant now event (hnone event (if_pos hs))
    · rw [if_neg hs]
      exact h
  | fetched event now => exact hgrant now event (hnone event rfl)
  | ldkEvent event node fails now =>
    simp only [clearStep]
    by_cases hl : s.listening = true
    · rw [if_pos hl]
      exact h
    · rw [if_neg hl]
      exact h

theorem getUsageProfile_step {i : Input} (h : s.controller.getUsageProfile client = none)
    (hnone : NoneGranted client s i) : (step keys secretKey texts env s i).controller.getUsageProfile client = none := by
  unfold NoneGranted at hnone
  rw [granted_eq keys secretKey texts env] at hnone
  cases hopen : opened keys secretKey texts i with
  | none =>
    rw [(step_of_not_opened hopen).1]
    exact h
  | some cl =>
    rw [hopen, Option.bind_some] at hnone
    rw [step_of_opened hopen]
    exact getUsageProfile_clearStep h hnone

end

namespace Sample

end Sample

end LdkController.Relay
