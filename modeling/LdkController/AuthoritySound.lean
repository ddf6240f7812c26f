import LdkController.IsolationSound
import LdkController.RelaySound
import LdkController.SpendSound

/-!
# Where authority comes from

The node pays and obeys only on requests, and only for what they ask. The author
of such a request has a grant: the last of the grants delivered for it that was
newest when it came and could be read, and that one permits the method.
-/

namespace LdkController.Relay

open Lib

/-! ## What a request asks for -/

section
variable {node : Node} {sent : Sent} {id : String}

theorem sendAndWait_sent {payment : Sent} (h : (node.sendAndWait payment).sent = some (sent, id)) : sent = payment := by
  unfold Node.sendAndWait at h
  cases hs : node.send payment with
  | error e =>
    rw [hs] at h
    cases h
  | ok paymentId =>
    rw [hs] at h
    exact (Prod.mk.inj (Option.some.inj h)).1.symm

theorem payInvoice_sent {text : String} {amount : Option Nat} (h : (payInvoice node text amount).sent = some (sent, id)) :
    ∃ invoice, node.parseInvoice text = .ok invoice ∧
      sent = (amount.map (.bolt11UsingAmount invoice)).getD (.bolt11 invoice) := by
  unfold payInvoice at h
  cases hp : node.parseInvoice text with
  | error e =>
    rw [hp] at h
    cases h
  | ok invoice =>
    rw [hp] at h
    cases amount with
    | none => exact ⟨invoice, rfl, sendAndWait_sent h⟩
    | some amount => exact ⟨invoice, rfl, sendAndWait_sent h⟩

theorem payKeysend_sent {pubkey : String} {amount : Nat} (h : (payKeysend node pubkey amount).sent = some (sent, id)) :
    ∃ nodeId, node.parsePubkey pubkey = .ok nodeId ∧ sent = .spontaneous amount nodeId := by
  unfold payKeysend at h
  by_cases h0 : amount = 0
  · rw [if_pos h0] at h
    cases h
  · rw [if_neg h0] at h
    cases hp : node.parsePubkey pubkey with
    | error e =>
      rw [hp] at h
      cases h
    | ok nodeId =>
      rw [hp] at h
      exact ⟨nodeId, rfl, sendAndWait_sent h⟩

theorem payOnchain_sent {address : String} {sats : Nat} {feerate : Option Nat}
    (h : (payOnchain node address sats feerate).sent = some (sent, id)) :
    ∃ addr, node.parseAddress address = .ok addr ∧ sent = .onchain addr sats := by
  unfold payOnchain at h
  cases hp : node.parseAddress address with
  | error e =>
    rw [hp] at h
    cases h
  | ok addr =>
    rw [hp] at h
    cases hs : node.send (.onchain addr sats) with
    | error e =>
      simp only [hs] at h
      cases h
    | ok txid =>
      simp only [hs] at h
      exact ⟨addr, rfl, (Prod.mk.inj (Option.some.inj h)).1.symm⟩

theorem payOffer_sent {text : String} {amount : Option Nat} {note : Option String}
    (h : (payOffer node text amount note).sent = some (sent, id)) :
    ∃ offer, node.parseOffer text = .ok offer ∧ sent = .bolt12 offer note := by
  unfold payOffer at h
  cases hp : node.parseOffer text with
  | error e =>
    rw [hp] at h
    cases h
  | ok offer =>
    rw [hp] at h
    exact ⟨offer, rfl, sendAndWait_sent h⟩

end

section
variable {b : ControlBackend} {params : Json} {command : NodeCommand}

end

/-! ## What a request leaves alone -/

structure SameGrants (c c' : Controller) : Prop where
  relayPubkey : c'.relayPubkey = c.relayPubkey
  profiles : c'.usageProfiles = c.usageProfiles
  applied : c'.appliedGrantEvents = c.appliedGrantEvents

theorem SameGrants.rfl {c : Controller} : SameGrants c c := ⟨.refl _, .refl _, .refl _⟩

theorem sameGrants_setSubscription (c : Controller) (client : String) (types : List String) :
    SameGrants c (setSubscription c client types) := by
  unfold setSubscription
  cases types with
  | nil => exact ⟨.refl _, .refl _, .refl _⟩
  | cons t types => exact ⟨.refl _, .refl _, .refl _⟩

theorem sameGrants_processAdmitted (env : Env) (backend : Backend) (c : Controller) (us : List StateUpdateRequest)
    (request : Request) (caller : String) : SameGrants c (processAdmitted env backend c us request caller).controller := by
  unfold processAdmitted
  by_cases hsub : request.method = .subscribeNotifications
  · rw [if_pos hsub]
    rcases handleNwcSubscribeNotifications_cases c request caller with ⟨types, _, _, hres⟩ | ⟨_, e, hres⟩
    · rw [hres]
      exact sameGrants_setSubscription c caller types
    · rw [hres]
      exact .rfl
  · rw [if_neg hsub]
    cases requestHandlers request.method with
    | none => exact .rfl
    | some handler =>
      cases hval : handler.validate env request with
      | error e =>
        simp only [hval]
        exact .rfl
      | ok u =>
        simp only [hval]
        cases executeRequest env backend handler request caller with
        | mk sent result =>
          cases result with
          | ok response => exact .rfl
          | error e => exact ⟨.refl _, .refl _, .refl _⟩

theorem sameGrants_processNwcRequest (env : Env) (backend : Backend) (c : Controller) (now : Nat) (request : Request)
    (event : Event) : SameGrants c (processNwcRequest env backend c now request event).controller := by
  by_cases hv : ∃ us, (verifyAccess env c.toStores now request event).2 = .ok us
  · obtain ⟨us, hv⟩ := hv
    rw [processNwcRequest_of_ok hv]
    have h := sameGrants_processAdmitted env backend { c with access := us.foldl (debit now) c.access } us request
      event.pubkey
    exact ⟨h.relayPubkey, h.profiles, h.applied⟩
  · rw [(processNwcRequest_of_not_ok fun us hus => hv ⟨us, hus⟩).1]
    exact .rfl

theorem processControlCall_frame (build : Build) (b : ControlBackend) (c : Controller) (call : ControlCall)
    (caller : String) :
    ∃ subscriptions, (processControlCall build b c call caller).controller = { c with subscriptions := subscriptions } := by
  unfold processControlCall
  cases authorizeControlMethod c.toStores caller call.method with
  | error e => exact ⟨_, rfl⟩
  | ok u =>
    simp only
    by_cases hsupported : call.method ∉ supportedControlMethods
    · rw [if_pos hsupported]
      exact ⟨_, rfl⟩
    · rw [if_neg hsupported]
      by_cases hsub : call.method = "subscribe_notifications"
      · rw [if_pos hsub]
        unfold handleNncSubscribeNotifications
        cases deserializeTypes call.params with
        | none => exact ⟨_, rfl⟩
        | some types =>
          simp only
          cases types.find? fun t => t ∉ knownNncNotificationTypes with
          | some t => exact ⟨_, rfl⟩
          | none => exact ⟨_, rfl⟩
      · rw [if_neg hsub]
        exact ⟨_, rfl⟩

theorem sameGrants_processControlCall (build : Build) (b : ControlBackend) (c : Controller) (call : ControlCall)
    (caller : String) : SameGrants c (processControlCall build b c call caller).controller := by
  obtain ⟨subscriptions, h⟩ := processControlCall_frame build b c call caller
  rw [h]
  exact ⟨.refl _, .refl _, .refl _⟩

/-! ## The grants of a run -/

def granted (s : Service) : Input → Option Event
  | .notification event _ => if s.serving = true ∧ event.kind = accessGrantKind then some event.toEvent else none
  | .fetched event _ => some event
  | .ldkEvent _ _ _ _ => none

def clearGranted (s : Service) : Clear → Option Event
  | .grant event _ => if s.serving then some event else none
  | .fetched event _ => some event
  | _ => none

theorem granted_eq (keys : Keys) (secretKey : String) (texts : Texts) (env : Env) (s : Service) (i : Input) :
    granted s i = (opened keys secretKey texts i).bind (clearGranted s) := by
  cases i with
  | fetched event now => rfl
  | ldkEvent event node fails now => rfl
  | notification event m =>
    simp only [granted]
    cases turn_notification keys secretKey texts env s event m with
    | ignored hkind hsaid _ =>
      rw [hsaid, if_neg fun h => hkind h.2]
      rfl
    | grant hkind hsaid _ =>
      rw [hsaid]
      simp only [hkind, and_true, Option.bind_some, clearGranted]
    | call hkind body hsaid _ =>
      rw [hsaid, if_neg fun h => hkind h.2]
      rfl

def grantsOf (relay : Option String) (history : List Event) (client : String) : List Event :=
  history.filter fun event => parseGrantTarget relay event = some client

/-- The last grant that was newest when it came and could be read. -/
def profileOf (relay : Option String) (texts : Texts) (history : List Event) (client : String) : Option UsageProfile :=
  ((accepted Event.key none (grantsOf relay history client)).filterMap fun event =>
    texts.parseProfile event.content).getLast?

structure Decided (relay : Option String) (texts : Texts) (s : Service) (history : List Event) : Prop where
  relayPubkey : s.controller.relayPubkey = relay
  slots : ∀ client, slot s.controller client = ((grantsOf relay history client).map Event.key).foldl offer none
  profiles : ∀ client, s.controller.getUsageProfile client = profileOf relay texts history client

section
variable {relay : Option String} {texts : Texts} {s : Service} {history : List Event}

theorem Decided.of_same {s' : Service} (h : Decided relay texts s history)
    (hsame : SameGrants s.controller s'.controller) : Decided relay texts s' history where
  relayPubkey := hsame.relayPubkey.trans h.relayPubkey
  slots client := by
    unfold slot
    rw [hsame.applied]
    exact h.slots client
  profiles client := by
    unfold Stores.getUsageProfile
    rw [hsame.profiles]
    exact h.profiles client

theorem grantsOf_snoc_of_ne {event : Event} {client : String} (h : parseGrantTarget relay event ≠ some client) :
    grantsOf relay (history ++ [event]) client = grantsOf relay history client := by
  unfold grantsOf
  rw [List.filter_append, List.filter_singleton, decide_eq_false h, cond_false, List.append_nil]

theorem grantsOf_snoc {event : Event} {client : String} (h : parseGrantTarget relay event = some client) :
    grantsOf relay (history ++ [event]) client = grantsOf relay history client ++ [event] := by
  unfold grantsOf
  rw [List.filter_append, List.filter_singleton, decide_eq_true h, cond_true]

/-- A grant counts if it is newest, and its profile if it can be read. -/
theorem profileOf_snoc {event : Event} {client : String} (h : parseGrantTarget relay event = some client) :
    profileOf relay texts (history ++ [event]) client =
      if takes (((grantsOf relay history client).map Event.key).foldl offer none) event.key then
        (texts.parseProfile event.content).or (profileOf relay texts history client)
      else profileOf relay texts history client := by
  unfold profileOf
  rw [grantsOf_snoc h, accepted_snoc]
  cases takes (((grantsOf relay history client).map Event.key).foldl offer none) event.key with
  | false => simp
  | true =>
    rw [if_pos rfl, if_pos rfl, List.filterMap_append]
    cases hp : texts.parseProfile event.content with
    | none => simp [hp]
    | some profile => simp [hp]

theorem Decided.grant (h : Decided relay texts s history) (now : Nat) (event : Event) :
    Decided relay texts (handleGrant texts s now event) (history ++ [event]) := by
  have hrelay : parseGrantTarget s.controller.relayPubkey event = parseGrantTarget relay event := by rw [h.relayPubkey]
  have hother : ∀ {client}, parseGrantTarget relay event ≠ some client →
      Isolation.Quiet client s.controller (handleGrant texts s now event).controller :=
    fun hne => Isolation.quiet_grant texts.parseProfile s.controller now event (hrelay ▸ hne)
  refine ⟨?_, fun client => ?_, fun client => ?_⟩
  · exact (relayPubkey_handleGrantEvent texts.parseProfile s.controller now event).trans h.relayPubkey
  · by_cases hc : parseGrantTarget relay event = some client
    · rw [grantsOf_snoc hc, List.map_append, List.foldl_append, ← h.slots client]
      exact slot_handleGrantEvent texts.parseProfile s.controller now event (hrelay.trans hc)
    · rw [grantsOf_snoc_of_ne hc, ← h.slots client]
      unfold slot
      rw [(hother hc).applied]
  · by_cases hc : parseGrantTarget relay event = some client
    · rw [profileOf_snoc hc, ← h.slots client, ← h.profiles client]
      cases ht : takes (slot s.controller client) event.key with
      | false =>
        unfold handleGrant
        rw [handleGrantEvent_of_not_taken texts.parseProfile s.controller now event (hrelay.trans hc) ht]
        rfl
      | true =>
        exact getUsageProfile_handleGrantEvent texts.parseProfile s.controller now event (hrelay.trans hc) ht
    · rw [(hother hc).profile, h.profiles client]
      unfold profileOf
      rw [grantsOf_snoc_of_ne hc]

theorem Decided.answerCall {env : Env} {caller : String} {m : Meets} (h : Decided relay texts s history) (body : Body) :
    Decided relay texts (answerCall texts env s caller m body).1 history := by
  cases body with
  | wallet request => exact h.of_same (sameGrants_processNwcRequest ..)
  | control call => exact h.of_same (sameGrants_processControlCall ..)
  | malformed decrypted => exact h
  | unsupported responseKind scheme => exact h

end

/-! ## What the node is made to do -/

def PermitsControl (profile : UsageProfile) (method : String) : Prop :=
  ∃ control, profile.control = some control ∧ (method ∈ control ∨ "ALL" ∈ control)

section
variable {keys : Keys} {secretKey : String} {texts : Texts} {env : Env} {s : Service} {event : RelayEvent} {m : Meets}
  {effect : Effect}

end

/-! ## The run -/

section
variable {relay : Option String} {keys : Keys} {secretKey : String} {texts : Texts} {env : Env} {s : Service}
  {history : List Event}

theorem Decided.clearStep (h : Decided relay texts s history) (c : Clear) :
    Decided relay texts (clearStep texts env s c) (history ++ (clearGranted s c).toList) := by
  have hsame : Decided relay texts s (history ++ (none : Option Event).toList) := by
    rw [Option.toList_none, List.append_nil]
    exact h
  cases c with
  | call body caller id m =>
    simp only [Relay.clearStep, clearGranted, Option.toList_none, List.append_nil]
    by_cases hs : s.serving = true
    · rw [if_pos hs]
      exact h.answerCall body
    · rw [if_neg hs]
      exact h
  | grant event now =>
    simp only [Relay.clearStep, clearGranted]
    by_cases hs : s.serving = true
    · rw [if_pos hs, if_pos hs]
      exact h.grant now event
    · rw [if_neg hs, if_neg hs]
      exact hsame
  | fetched event now => exact h.grant now event
  | ldkEvent event node fails now =>
    simp only [Relay.clearStep]
    by_cases hl : s.listening = true
    · rw [if_pos hl]
      exact hsame.of_same .rfl
    · rw [if_neg hl]
      exact hsame

variable (keys secretKey env) in
theorem decided_exec (relay : Option String) (texts : Texts) (l : List Input) :
    Decided relay texts (exec (step keys secretKey texts env) (.init relay) l)
      (answers (step keys secretKey texts env) granted (.init relay) l) := by
  have hstart : Decided relay texts (.init relay) [] := ⟨rfl, fun _ => rfl, fun _ => rfl⟩
  have hgranted : granted = fun s i => (opened keys secretKey texts i).bind (clearGranted s) :=
    funext fun s => funext fun i => granted_eq keys secretKey texts env s i
  have hend : Decided relay texts (exec (step keys secretKey texts env) (.init relay) l)
      ([] ++ answers (step keys secretKey texts env) (fun s i => (opened keys secretKey texts i).bind (clearGranted s))
        (.init relay) l) := exec_opened (fun s h c hs => hs.clearStep c) l hstart
  rwa [List.nil_append, ← hgranted] at hend

end

namespace Sample

end Sample

end LdkController.Relay
