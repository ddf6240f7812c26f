import LdkController.Machine
import LdkController.Newest
import LdkController.ProcessSound
import Mathlib.Data.Prod.Lex
import Mathlib.Data.String.Basic

/-!
# What grants decide

The applied-grant map is a newest-wins slot for each target. The profile that a
history of grants leaves is the last accepted one that parses, which is the
newest event's unless that one does not parse. The owner list is read nowhere:
a foreign grant is without effect exactly while the slot turns it away.
-/

namespace LdkController

open Lib

/-! ## The slot of a target -/

def AppliedGrantEvent.key (a : AppliedGrantEvent) : ℕ ×ₗ String := toLex (a.createdAt, a.eventId)

def Event.key (e : Event) : ℕ ×ₗ String := toLex (e.createdAt, e.id)

def slot (c : Controller) (target : String) : Option (ℕ ×ₗ String) :=
  (c.appliedGrantEvents.lookup target).map AppliedGrantEvent.key

theorem key_lt_iff (a : AppliedGrantEvent) (e : Event) :
    a.key < e.key ↔ a.createdAt < e.createdAt ∨ (e.createdAt = a.createdAt ∧ a.eventId < e.id) := by
  unfold AppliedGrantEvent.key Event.key
  rw [Prod.Lex.toLex_lt_toLex, eq_comm (a := e.createdAt)]

theorem shouldApplyGrantEvent_eq (map : Table String AppliedGrantEvent) (t : String) (e : Event) :
    shouldApplyGrantEvent map t e =
      (if takes ((map.lookup t).map AppliedGrantEvent.key) e.key then map.insert t ⟨e.createdAt, e.id⟩ else map,
        takes ((map.lookup t).map AppliedGrantEvent.key) e.key) := by
  unfold shouldApplyGrantEvent
  cases hl : map.lookup t with
  | none => rfl
  | some a =>
    simp only [Option.map_some, takes, key_lt_iff, decide_eq_true_eq]
    split <;> simp_all

section
variable (decode : String → Option UsageProfile) (c : Controller) (now : Nat) (e : Event)

theorem handleGrantEvent_of_no_target (h : parseGrantTarget c.relayPubkey e = none) :
    handleGrantEvent decode c now e = c := by
  unfold handleGrantEvent; rw [h]

theorem handleGrantEvent_of_not_taken {t : String} (h : parseGrantTarget c.relayPubkey e = some t)
    (ht : takes (slot c t) e.key = false) : handleGrantEvent decode c now e = c := by
  unfold slot at ht
  unfold handleGrantEvent
  rw [h]
  simp only [shouldApplyGrantEvent_eq, ht, Bool.false_eq_true, if_false]

theorem handleGrantEvent_of_taken {t : String} (h : parseGrantTarget c.relayPubkey e = some t)
    (ht : takes (slot c t) e.key = true) :
    handleGrantEvent decode c now e =
      { c with
        appliedGrantEvents := c.appliedGrantEvents.insert t ⟨e.createdAt, e.id⟩
        toStores := (decode e.content).elim c.toStores
          (c.toStores.upsertUsageProfileAndResetStates t · now) } := by
  unfold slot at ht
  unfold handleGrantEvent
  rw [h]
  simp only [shouldApplyGrantEvent_eq, ht, if_true]
  cases decode e.content <;> rfl

@[simp] theorem relayPubkey_handleGrantEvent : (handleGrantEvent decode c now e).relayPubkey = c.relayPubkey := by
  unfold handleGrantEvent
  repeat' split
  all_goals rfl

theorem slot_handleGrantEvent {t : String} (h : parseGrantTarget c.relayPubkey e = some t) :
    slot (handleGrantEvent decode c now e) t = offer (slot c t) e.key := by
  cases ht : takes (slot c t) e.key with
  | false =>
    rw [handleGrantEvent_of_not_taken decode c now e h ht, offer_of_not_takes ht]
  | true =>
    rw [offer_of_takes ht, handleGrantEvent_of_taken decode c now e h ht]
    simp [slot, AppliedGrantEvent.key, Event.key]

theorem getUsageProfile_handleGrantEvent {t : String} (h : parseGrantTarget c.relayPubkey e = some t)
    (ht : takes (slot c t) e.key = true) :
    (handleGrantEvent decode c now e).getUsageProfile t = (decode e.content).or (c.getUsageProfile t) := by
  rw [handleGrantEvent_of_taken decode c now e h ht]
  cases decode e.content with
  | none => rfl
  | some profile => exact (Stores.getUsageProfile_upsert ..).trans (if_pos rfl)

end

/-! ## Delivery order -/

def deliver (decode : String → Option UsageProfile) (c : Controller) (d : Nat × Event) : Controller :=
  handleGrantEvent decode c d.1 d.2

/-- **History of a target.** The profile is that of the last accepted event that parses. -/
theorem getUsageProfile_deliver (decode : String → Option UsageProfile) {r : Option String} {t : String}
    {l : List (Nat × Event)} (hfor : ∀ d ∈ l, parseGrantTarget r d.2 = some t) :
    ∀ {c : Controller}, c.relayPubkey = r →
      (exec (deliver decode) c l).getUsageProfile t =
        (((accepted Event.key (slot c t) (l.map (·.2))).filterMap fun e => decode e.content).getLast?).or
          (c.getUsageProfile t) := by
  induction l with
  | nil => intro c _; rfl
  | cons d l ih =>
    intro c hc
    have hd : parseGrantTarget c.relayPubkey d.2 = some t := by rw [hc]; exact hfor d List.mem_cons_self
    have hc' : (deliver decode c d).relayPubkey = r := by
      unfold deliver
      rw [relayPubkey_handleGrantEvent, hc]
    rw [exec_cons, ih (fun x hx => hfor x (List.mem_cons_of_mem d hx)) hc', List.map_cons]
    have hslot : slot (deliver decode c d) t = offer (slot c t) d.2.key := slot_handleGrantEvent decode c d.1 d.2 hd
    cases ht : takes (slot c t) d.2.key with
    | false =>
      have hsame : deliver decode c d = c := handleGrantEvent_of_not_taken decode c d.1 d.2 hd ht
      rw [hsame, accepted_cons_of_not_takes ht]
    | true =>
      have hprofile : (deliver decode c d).getUsageProfile t = (decode d.2.content).or (c.getUsageProfile t) :=
        getUsageProfile_handleGrantEvent decode c d.1 d.2 hd ht
      rw [hslot, offer_of_takes ht, accepted_cons_of_takes ht, hprofile, ← Option.or_assoc]
      congr 1
      -- what is accepted later supersedes this event if it parses
      cases hdec : decode d.2.content with
      | none => simp [hdec]
      | some profile =>
        simp only [List.filterMap_cons, hdec, List.getLast?_cons]
        cases ((accepted Event.key (some d.2.key) (l.map (·.2))).filterMap fun e => decode e.content).getLast? <;> rfl

theorem verifyAccess_of_no_profile {env : Env} {s : Stores} {now : Nat} {request : Request} {event : Event}
    (h : s.getUsageProfile event.pubkey = none) :
    (verifyAccess env s now request event).2 = .err (unauthorizedResponse request.method) := by
  have hp : prepareUpdates env s request event.pubkey = .err (unauthorizedResponse request.method) := by
    unfold prepareUpdates
    rw [h]
    rfl
  unfold verifyAccess
  rw [hp]

section
variable {m : Event} {es : List Event} (hmax : ∀ e ∈ es, e ≠ m → e.key < m.key)
include hmax

theorem key_le_of_forall_lt : ∀ e ∈ es, e.key ≤ m.key := by
  intro e he
  by_cases hem : e = m
  · rw [hem]
  · exact (hmax e he hem).le

theorem eq_of_key_of_forall_lt : ∀ e ∈ es, e.key = m.key → e = m := by
  intro e he hk
  by_contra hem
  exact absurd hk (hmax e he hem).ne

end

/-- **Delivery order.** From empty stores the target ends with the profile of the newest event, or with none if that
event does not parse, if and only if it parses or no event that was accepted on the way does. -/
theorem grants_converge_iff {decode : String → Option UsageProfile} {r : Option String} {t : String}
    {l : List (Nat × Event)} {m : Event} (hfor : ∀ d ∈ l, parseGrantTarget r d.2 = some t)
    (hm : m ∈ l.map (·.2)) (hmax : ∀ e ∈ l.map (·.2), e ≠ m → e.key < m.key) :
    ((exec (deliver decode) (.init r) l).getUsageProfile t = decode m.content ∧
        (decode m.content = none → ∀ (env : Env) (now : Nat) (request : Request) (event : Event), event.pubkey = t →
          (verifyAccess env (exec (deliver decode) (.init r) l).toStores now request event).2 =
            .err (unauthorizedResponse request.method))) ↔
      ((decode m.content).isSome = true ∨
        ∀ e ∈ accepted Event.key none (l.map (·.2)), decode e.content = none) := by
  have hprofile : (exec (deliver decode) (.init r) l).getUsageProfile t =
      ((accepted Event.key none (l.map (·.2))).filterMap fun e => decode e.content).getLast? :=
    (getUsageProfile_deliver decode hfor rfl).trans (Option.or_none ..)
  obtain ⟨as, has⟩ := List.getLast?_eq_some_iff.mp
    (getLast?_accepted hm (key_le_of_forall_lt hmax) (eq_of_key_of_forall_lt hmax))
  rw [hprofile, has]
  constructor
  · rintro ⟨h, _⟩
    cases hdec : decode m.content with
    | some profile => exact .inl rfl
    | none =>
      right
      rw [hdec, List.getLast?_eq_none_iff, List.filterMap_eq_nil_iff] at h
      exact h
  · intro h
    have heq : ((as ++ [m]).filterMap fun e => decode e.content).getLast? = decode m.content := by
      rcases h with hsome | hnone
      · obtain ⟨profile, hdec⟩ := Option.isSome_iff_exists.mp hsome
        simp [List.filterMap_append, hdec]
      · rw [List.filterMap_eq_nil_iff.mpr hnone]
        exact (hnone m (List.mem_append_right as List.mem_cons_self)).symm
    refine ⟨heq, ?_⟩
    intro hdec env now request event ht
    apply verifyAccess_of_no_profile
    rw [ht]
    show (exec (deliver decode) (.init r) l).getUsageProfile t = none
    rw [hprofile, has, heq, hdec]

namespace Sample

def noMethods : String := "\x7b\"methods\":\x7b\x7d\x7d"

def decode (content : String) : Option UsageProfile :=
  if content = "{}" then some ⟨none, none, none⟩
  else if content = noMethods then some ⟨none, some ∅, none⟩
  else none

def grant (author target : String) (createdAt : Nat) (id content : String) : Event :=
  ⟨author, createdAt, id, [["d", "node:" ++ target]], content⟩

end Sample

theorem grants_converge_out_of_order :
    (exec (deliver Sample.decode) (.init none)
      [(7, Sample.grant "owner" "alice" 2 "0b" "{}"), (8, Sample.grant "owner" "alice" 1 "0a" "")]).getUsageProfile
        "alice" = some ⟨none, none, none⟩ :=
  ((grants_converge_iff (m := Sample.grant "owner" "alice" 2 "0b" "{}") (by decide) (by decide) (by decide)).mpr
    (.inl rfl)).1

/-- The newest event takes the slot without taking the older profile away. -/
theorem grants_converge_fails :
    (exec (deliver Sample.decode) (.init none)
        [(7, Sample.grant "owner" "alice" 1 "0a" "{}"), (8, Sample.grant "owner" "alice" 2 "0b" "")]).getUsageProfile
          "alice" = some ⟨none, none, none⟩ ∧
      (exec (deliver Sample.decode) (.init none)
        [(7, Sample.grant "owner" "alice" 2 "0b" ""), (8, Sample.grant "owner" "alice" 1 "0a" "{}")]).getUsageProfile
          "alice" = none ∧
      Sample.decode "" = none := by
  decide

/-! ## Grants from others -/

inductive Input where
  | grant (now : Nat) (event : Event)
  | request (backend : Backend) (now : Nat) (request : Request) (event : Event)
  | control (other : ControlRequest → String → ControlResponse) (request : ControlRequest) (callerPubkey : String)

inductive Reply where
  | verify (outcome : Outcome Response (List StateUpdateRequest))
  | authorize (outcome : Except ControlError Unit)
deriving DecidableEq

def take (env : Env) (decode : String → Option UsageProfile) (c : Controller) : Input → Controller
  | .grant now event => handleGrantEvent decode c now event
  | .request backend now request event => (processNwcRequest env backend c now request event).controller
  | .control other request callerPubkey => (processControlRequest other c request callerPubkey).1

def reply (env : Env) (c : Controller) : Input → Option Reply
  | .grant _ _ => none
  | .request _ now request event => some (.verify (verifyAccess env c.toStores now request event).2)
  | .control _ request callerPubkey => some (.authorize (authorizeControlMethod c.toStores callerPubkey request.method))

def foreign (owners : List String) : Input → Bool
  | .grant _ event => event.pubkey ∉ owners
  | _ => false

/-- The slot of the grant's target, if it has one, turns the event away. -/
def TurnedAway (c : Controller) (event : Event) : Prop :=
  ∀ t, parseGrantTarget c.relayPubkey event = some t → takes (slot c t) event.key = false

theorem handleGrantEvent_of_turnedAway {decode : String → Option UsageProfile} {c : Controller} {now : Nat}
    {e : Event} (h : TurnedAway c e) : handleGrantEvent decode c now e = c := by
  cases ht : parseGrantTarget c.relayPubkey e with
  | none => exact handleGrantEvent_of_no_target decode c now e ht
  | some t => exact handleGrantEvent_of_not_taken decode c now e ht (h t ht)

theorem exists_of_not_turnedAway {c : Controller} {e : Event} (h : ¬ TurnedAway c e) :
    ∃ t, parseGrantTarget c.relayPubkey e = some t ∧ takes (slot c t) e.key = true := by
  unfold TurnedAway at h
  push Not at h
  obtain ⟨t, ht, hs⟩ := h
  exact ⟨t, ht, Bool.eq_true_of_not_eq_false hs⟩

/-- **Foreign grants.** In a run in which every grant of a non-owner is turned away, deleting those grants changes no
outcome of an access check, and the run ends in the same state. -/
theorem foreign_grants_erased {env : Env} {decode : String → Option UsageProfile} {owners : List String}
    {c : Controller} {l : List Input}
    (h : Steps (take env decode) (fun c i => ∀ now event, i = .grant now event → event.pubkey ∉ owners →
      TurnedAway c event) (setOwners c owners) l) :
    answers (take env decode) (reply env) (setOwners c owners) (l.filter fun i => !foreign owners i) =
        answers (take env decode) (reply env) (setOwners c owners) l ∧
      exec (take env decode) (setOwners c owners) (l.filter fun i => !foreign owners i) =
        exec (take env decode) (setOwners c owners) l := by
  have hquiet : Steps (take env decode) (fun c i => foreign owners i = true →
      take env decode c i = c ∧ reply env c i = none) (setOwners c owners) l := by
    refine h.mono fun c i hi hf => ?_
    cases i with
    | grant now event => exact ⟨handleGrantEvent_of_turnedAway (hi now event rfl (of_decide_eq_true hf)), rfl⟩
    | request backend now request event => cases hf
    | control other request caller => cases hf
  have herase := Steps.erase (reply env) hquiet
  exact ⟨herase.2, herase.1⟩

namespace Sample

def getInfo : Input := .request backend 9 ⟨.getInfo, .getInfo⟩ ⟨"mallory", 3, "0c", [], ""⟩

def history : List Input :=
  [.grant 7 (grant "owner" "mallory" 2 "0b" ""), .grant 8 (grant "mallory" "mallory" 1 "0a" "{}"), getInfo]

end Sample

theorem foreign_grants_stale :
    answers (take Sample.env Sample.decode) (reply Sample.env) (setOwners (.init none) ["owner"])
        (Sample.history.filter fun i => !foreign ["owner"] i) =
      answers (take Sample.env Sample.decode) (reply Sample.env) (setOwners (.init none) ["owner"])
        Sample.history := by
  have hsteps : Steps (take Sample.env Sample.decode) (fun c i => ∀ now event, i = .grant now event →
      event.pubkey ∉ ["owner"] → TurnedAway c event) (setOwners (.init none) ["owner"]) Sample.history := by
    refine ⟨?_, ?_, ?_, trivial⟩
    · intro now event he hf
      obtain ⟨_, rfl⟩ := Input.grant.inj he
      exact absurd (by decide) hf
    · intro now event he _ t ht
      obtain ⟨_, rfl⟩ := Input.grant.inj he
      obtain rfl : "mallory" = t := Option.some.inj ht
      decide
    · intro now event he
      cases he
  exact (foreign_grants_erased hsteps).1

/-- Who is not an owner grants himself access. -/
theorem foreign_grants_fail :
    ¬ ∀ (env : Env) (decode : String → Option UsageProfile) (owners : List String) (c : Controller) (l : List Input),
      owners ≠ [] →
      answers (take env decode) (reply env) (setOwners c owners) (l.filter fun i => !foreign owners i) =
        answers (take env decode) (reply env) (setOwners c owners) l := by
  intro h
  have hsame := h Sample.env Sample.decode ["owner"] (.init none)
    [.grant 7 (Sample.grant "mallory" "mallory" 1 "0a" "{}"), Sample.getInfo] (by decide)
  revert hsame
  decide

end LdkController
