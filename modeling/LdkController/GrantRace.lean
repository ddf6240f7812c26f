import LdkController.GrantsSound

/-!
# The two grant loops

The periodic fetch and the notification loop take the same events, each in two
critical sections: the slot first, the profile afterwards. Between the two the
other loop may run. A profile that is installed after a newer one stays, since
the newer event is already in the slot.
-/

namespace LdkController.Race

open Lib

inductive Task where
  | fetch | notification
deriving DecidableEq, Repr

/-- The event that a task has recorded and not yet installed, with its target. -/
structure World where
  controller : Controller
  pending : Task → Option (String × Event)

def World.init (relayPubkey : Option String) : World := ⟨.init relayPubkey, fun _ => none⟩

inductive Act where
  | check (task : Task) (event : Event)
  | install (task : Task) (now : Nat)

/-- `check` is `parse_grant_target` with `should_apply_grant_event`, `install` the rest of the branch. -/
def step (decode : String → Option UsageProfile) (w : World) : Act → World
  | .check task event =>
    match parseGrantTarget w.controller.relayPubkey event with
    | none => w
    | some targetPubkey =>
      match shouldApplyGrantEvent w.controller.appliedGrantEvents targetPubkey event with
      | (applied, false) => { w with controller := { w.controller with appliedGrantEvents := applied } }
      | (applied, true) =>
        { controller := { w.controller with appliedGrantEvents := applied }
          pending := Function.update w.pending task (some (targetPubkey, event)) }
  | .install task now =>
    match w.pending task with
    | none => w
    | some (targetPubkey, event) =>
      { controller :=
          match decode event.content with
          | none => w.controller
          | some profile =>
            { w.controller with
              toStores := w.controller.toStores.upsertUsageProfileAndResetStates targetPubkey profile now }
        pending := Function.update w.pending task none }

def Enabled (w : World) : Act → Prop
  | .check task _ => w.pending task = none
  | .install _ _ => True

/-- The newest event recorded for the target still waits to be installed, by either task. -/
def Open (t : String) (w : World) : Prop :=
  ∃ task e, w.pending task = some (t, e) ∧ slot w.controller t = some e.key

/-- When a profile is installed for the target, the newest event recorded for it is among what waits. -/
def Current (t : String) (w : World) : Act → Prop
  | .check _ _ => True
  | .install task _ => ∀ e, w.pending task = some (t, e) → Open t w

def Act.grantFor (r : Option String) (t : String) : Act → Option Event
  | .check _ e => if parseGrantTarget r e = some t then some e else none
  | .install _ _ => none

theorem grantFor_check (r : Option String) (t : String) (task : Task) (e : Event) :
    (Act.check task e).grantFor r t = if parseGrantTarget r e = some t then some e else none := rfl

def delivered (r : Option String) (t : String) (l : List Act) : List Event := l.filterMap (Act.grantFor r t)

/-! ## What a check and an installation change -/

def World.record (w : World) (task : Task) (u : String) (e : Event) : World where
  controller := { w.controller with
    appliedGrantEvents := w.controller.appliedGrantEvents.insert u ⟨e.createdAt, e.id⟩ }
  pending := Function.update w.pending task (some (u, e))

section
variable (decode : String → Option UsageProfile) (w : World) (task : Task) (now : Nat) (e : Event)

theorem step_check_of_turnedAway (h : TurnedAway w.controller e) : step decode w (.check task e) = w := by
  unfold step
  cases hu : parseGrantTarget w.controller.relayPubkey e with
  | none => simp only [hu]
  | some u =>
    have ht : takes (slot w.controller u) e.key = false := h u hu
    unfold slot at ht
    simp only [hu, shouldApplyGrantEvent_eq, ht, Bool.false_eq_true, if_false]

theorem step_check_of_takes {u : String} (hu : parseGrantTarget w.controller.relayPubkey e = some u)
    (ht : takes (slot w.controller u) e.key = true) :
    step decode w (.check task e) = w.record task u e := by
  unfold slot at ht
  simp only [step, hu, shouldApplyGrantEvent_eq, ht, if_true, World.record]

theorem step_install_of_idle (h : w.pending task = none) : step decode w (.install task now) = w := by
  simp only [step, h]

/-- Without interleaving the two steps are the grant branch. -/
theorem step_step_eq (hidle : w.pending task = none) :
    (step decode (step decode w (.check task e)) (.install task now)).controller =
      handleGrantEvent decode w.controller now e := by
  by_cases haway : TurnedAway w.controller e
  · rw [step_check_of_turnedAway decode w task e haway, step_install_of_idle decode w task now hidle,
      handleGrantEvent_of_turnedAway haway]
  · obtain ⟨u, hu, ht⟩ := exists_of_not_turnedAway haway
    rw [step_check_of_takes decode w task e hu ht]
    unfold slot at ht
    unfold handleGrantEvent
    cases hdec : decode e.content with
    | none => simp only [step, World.record, Function.update_self, hu, shouldApplyGrantEvent_eq, ht, if_true, hdec]
    | some p => simp only [step, World.record, Function.update_self, hu, shouldApplyGrantEvent_eq, ht, if_true, hdec]

end

theorem pending_of_update {pending : Task → Option (String × Event)} {task task' : Task}
    {o : Option (String × Event)} {x : String × Event} (h : Function.update pending task o task' = some x) :
    (task' = task ∧ o = some x) ∨ (task' ≠ task ∧ pending task' = some x) := by
  rw [Function.update_apply] at h
  by_cases htask : task' = task
  · rw [if_pos htask] at h
    exact .inl ⟨htask, h⟩
  · rw [if_neg htask] at h
    exact .inr ⟨htask, h⟩

section
variable (decode : String → Option UsageProfile) (w : World) (task : Task) (now : Nat) (t : String)

theorem pending_install : (step decode w (.install task now)).pending = Function.update w.pending task none := by
  cases hp : w.pending task with
  | none => rw [step_install_of_idle decode w task now hp, ← hp, Function.update_eq_self]
  | some ue => simp only [step, hp]

/-- An installation changes nothing but the stores. -/
theorem exists_stores_install : ∃ stores,
    (step decode w (.install task now)).controller = { w.controller with toStores := stores } := by
  cases hp : w.pending task with
  | none => exact ⟨w.controller.toStores, by rw [step_install_of_idle decode w task now hp]⟩
  | some ue =>
    obtain ⟨u, e⟩ := ue
    simp only [step, hp]
    cases decode e.content with
    | none => exact ⟨w.controller.toStores, rfl⟩
    | some p => exact ⟨_, rfl⟩

theorem relayPubkey_install :
    (step decode w (.install task now)).controller.relayPubkey = w.controller.relayPubkey := by
  obtain ⟨_, h⟩ := exists_stores_install decode w task now
  rw [h]

theorem slot_install : slot (step decode w (.install task now)).controller t = slot w.controller t := by
  obtain ⟨_, h⟩ := exists_stores_install decode w task now
  rw [h]
  rfl

theorem getUsageProfile_install {e : Event} (h : w.pending task = some (t, e)) :
    (step decode w (.install task now)).controller.getUsageProfile t =
      (decode e.content).or (w.controller.getUsageProfile t) := by
  simp only [step, h]
  cases decode e.content with
  | none => rfl
  | some p => exact (Stores.getUsageProfile_upsert ..).trans (if_pos rfl)

theorem getUsageProfile_install_of_ne (h : ∀ e, w.pending task ≠ some (t, e)) :
    (step decode w (.install task now)).controller.getUsageProfile t = w.controller.getUsageProfile t := by
  unfold step
  cases hp : w.pending task with
  | none => simp only [hp]
  | some ue =>
    obtain ⟨u, e⟩ := ue
    simp only [hp]
    have hne : t ≠ u := fun heq => h e (by rw [hp, heq])
    cases decode e.content with
    | none => rfl
    | some p => exact (Stores.getUsageProfile_upsert ..).trans (if_neg hne)

end

theorem slot_record (w : World) (task : Task) (u t : String) (e : Event) :
    slot (w.record task u e).controller t = if t = u then some e.key else slot w.controller t := by
  unfold slot World.record
  simp only [AList.lookup_insert_eq]
  by_cases h : t = u
  · rw [if_pos h, if_pos h]; rfl
  · rw [if_neg h, if_neg h]

theorem Open.of_frame {t : String} {w w' : World} (h : Open t w)
    (hslot : slot w'.controller t = slot w.controller t)
    (hpending : ∀ task e, w.pending task = some (t, e) → w'.pending task = some (t, e)) : Open t w' := by
  obtain ⟨task, e, hp, hs⟩ := h
  exact ⟨task, e, hpending task e hp, hslot.trans hs⟩

/-! ## The invariant -/

/-- The slot holds the newest of the delivered events `es`, which is installed or waits to be. -/
structure Inv (decode : String → Option UsageProfile) (r : Option String) (t : String) (w : World)
    (es : List Event) : Prop where
  relay : w.controller.relayPubkey = r
  newest : slot w.controller t = newest (es.map Event.key)
  waiting : ∀ task e, w.pending task = some (t, e) → e ∈ es
  settled : ∀ k, slot w.controller t = some k → Open t w ∨
    ∃ e ∈ es, e.key = k ∧ w.controller.getUsageProfile t = decode e.content

section
variable {decode : String → Option UsageProfile} {r : Option String} {t : String} {w : World} {es : List Event}

theorem inv_init : Inv decode r t (.init r) [] where
  relay := rfl
  newest := rfl
  waiting task e h := by cases h
  settled k h := by cases h

theorem inv_turnedAway (h : Inv decode r t w es) (task : Task) {e : Event} (haway : TurnedAway w.controller e) :
    Inv decode r t w (es ++ ((Act.check task e).grantFor r t).toList) := by
  rw [grantFor_check]
  by_cases ht : parseGrantTarget r e = some t
  · have hnot : takes (slot w.controller t) e.key = false := haway t (h.relay.symm ▸ ht)
    rw [if_pos ht]
    refine ⟨h.relay, ?_, ?_, ?_⟩
    · rw [Option.toList_some, List.map_append, List.map_singleton, newest_snoc, ← h.newest, offer_of_not_takes hnot]
    · intro task f hf
      exact List.mem_append_left _ (h.waiting task f hf)
    · intro k hk
      refine (h.settled k hk).imp_right ?_
      rintro ⟨f, hf, hkey⟩
      exact ⟨f, List.mem_append_left _ hf, hkey⟩
  · rw [if_neg ht, Option.toList_none, List.append_nil]
    exact h

theorem inv_record (h : Inv decode r t w es) (task : Task) {e : Event}
    (htakes : takes (slot w.controller t) e.key = true) : Inv decode r t (w.record task t e) (es ++ [e]) := by
  have hslot : slot (w.record task t e).controller t = some e.key := by
    rw [slot_record, if_pos rfl]
  refine ⟨h.relay, ?_, ?_, ?_⟩
  · rw [hslot, List.map_append, List.map_singleton, newest_snoc, ← h.newest, offer_of_takes htakes]
  · intro task' f hf
    rcases pending_of_update hf with ⟨_, heq⟩ | ⟨_, hf⟩
    · cases heq
      exact List.mem_append_right _ List.mem_cons_self
    · exact List.mem_append_left _ (h.waiting task' f hf)
  · intro k _
    exact .inl ⟨task, e, Function.update_self .., hslot⟩

/-- Another target's event displaces nothing that waits for this one: the task was idle. -/
theorem inv_record_of_ne (h : Inv decode r t w es) {task : Task} {u : String} (e : Event)
    (hidle : w.pending task = none) (hu : t ≠ u) : Inv decode r t (w.record task u e) es := by
  have hslot : slot (w.record task u e).controller t = slot w.controller t := by
    rw [slot_record, if_neg hu]
  refine ⟨h.relay, hslot.trans h.newest, ?_, ?_⟩
  · intro task' f hf
    rcases pending_of_update hf with ⟨_, heq⟩ | ⟨_, hf⟩
    · cases heq
      exact absurd rfl hu
    · exact h.waiting task' f hf
  · intro k hk
    rcases h.settled k (hslot.symm.trans hk) with hopen | hdone
    · left
      apply hopen.of_frame hslot
      intro task' f hf
      have htask : task' ≠ task := by
        rintro rfl
        rw [hidle] at hf
        cases hf
      exact (Function.update_of_ne htask ..).trans hf
    · exact .inr hdone

theorem inv_check (h : Inv decode r t w es) {task : Task} {e : Event} (hidle : w.pending task = none) :
    Inv decode r t (step decode w (.check task e)) (es ++ ((Act.check task e).grantFor r t).toList) := by
  by_cases haway : TurnedAway w.controller e
  · rw [step_check_of_turnedAway decode w task e haway]
    exact inv_turnedAway h task haway
  · obtain ⟨u, hu, htakes⟩ := exists_of_not_turnedAway haway
    rw [step_check_of_takes decode w task e hu htakes]
    rw [h.relay] at hu
    rw [grantFor_check, hu]
    by_cases ht : t = u
    · subst ht
      rw [if_pos rfl, Option.toList_some]
      exact inv_record h task htakes
    · rw [if_neg fun heq => ht (Option.some.inj heq).symm, Option.toList_none, List.append_nil]
      exact inv_record_of_ne h e hidle ht

/-- An installation: the newest event's own settles the target, any other leaves the newest waiting. -/
theorem inv_install (h : Inv decode r t w es) {task : Task} {now : Nat} (hcur : Current t w (.install task now))
    (hparse : ∀ e ∈ es, (decode e.content).isSome = true) :
    Inv decode r t (step decode w (.install task now)) es := by
  have hslot := slot_install decode w task now t
  have hpending : ∀ {task' e}, (step decode w (.install task now)).pending task' = some (t, e) →
      w.pending task' = some (t, e) := by
    intro task' e he
    rw [pending_install] at he
    rcases pending_of_update he with ⟨_, heq⟩ | ⟨_, he⟩
    · cases heq
    · exact he
  have hkept : ∀ {task' e}, task' ≠ task → w.pending task' = some (t, e) →
      (step decode w (.install task now)).pending task' = some (t, e) := by
    intro task' e htask he
    rw [pending_install, Function.update_of_ne htask, he]
  refine ⟨(relayPubkey_install ..).trans h.relay, hslot.trans h.newest, fun _ e he => h.waiting _ e (hpending he), ?_⟩
  intro k hk
  rw [hslot] at hk
  -- what is installed for another target leaves this one's profile and what waits for it
  by_cases hmine : ∃ e, w.pending task = some (t, e)
  · obtain ⟨e, he⟩ := hmine
    obtain ⟨task', e', he', hs⟩ := hcur e he
    by_cases htask : task' = task
    · subst htask
      rw [he] at he'
      cases he'
      have hmem : e ∈ es := h.waiting task' e he
      obtain ⟨p, hp⟩ := Option.isSome_iff_exists.mp (hparse e hmem)
      refine .inr ⟨e, hmem, Option.some.inj (hs.symm.trans hk), ?_⟩
      rw [getUsageProfile_install decode w task' now t he, hp]
      rfl
    · exact .inl ⟨task', e', hkept htask he', hslot.trans hs⟩
  · have hother : ∀ e, w.pending task ≠ some (t, e) := fun e he => hmine ⟨e, he⟩
    rcases h.settled k hk with hopen | hdone
    · left
      apply hopen.of_frame hslot
      intro task' e he
      apply hkept ?_ he
      rintro rfl
      exact hother e he
    · rw [getUsageProfile_install_of_ne decode w task now t hother]
      exact .inr hdone

theorem inv_step (h : Inv decode r t w es) {a : Act} (hen : Enabled w a) (hcur : Current t w a)
    (hparse : ∀ e ∈ es, (decode e.content).isSome = true) :
    Inv decode r t (step decode w a) (es ++ (a.grantFor r t).toList) := by
  cases a with
  | check task e => exact inv_check h hen
  | install task now =>
    rw [Act.grantFor, Option.toList_none, List.append_nil]
    exact inv_install h hcur hparse

theorem inv_exec {l : List Act} (hl : Steps (step decode) (fun w a => Enabled w a ∧ Current t w a) w l)
    (h : Inv decode r t w es) (hparse : ∀ e ∈ es ++ delivered r t l, (decode e.content).isSome = true) :
    Inv decode r t (exec (step decode) w l) (es ++ delivered r t l) := by
  induction l generalizing w es with
  | nil =>
    rw [delivered, List.filterMap_nil, List.append_nil]
    exact h
  | cons a l ih =>
    obtain ⟨⟨hen, hcur⟩, hl⟩ := hl
    have hsplit : es ++ delivered r t (a :: l) = (es ++ (a.grantFor r t).toList) ++ delivered r t l := by
      rw [List.append_assoc, delivered, List.filterMap_cons]
      cases a.grantFor r t <;> rfl
    rw [hsplit] at hparse ⊢
    exact ih hl (inv_step h hen hcur fun e he => hparse e (by simp [he])) hparse

end

/-- **No stale grant.** In every interleaving of the two loops in which the newest recorded event is always among what
waits when a profile is installed, a target for which nothing waits has the profile of its newest event. -/
theorem no_stale_grant {decode : String → Option UsageProfile} {r : Option String} {t : String} {l : List Act}
    {m : Event} (hl : Steps (step decode) (fun w a => Enabled w a ∧ Current t w a) (.init r) l)
    (hparse : ∀ e ∈ delivered r t l, (decode e.content).isSome = true)
    (hm : m ∈ delivered r t l) (hmax : ∀ e ∈ delivered r t l, e ≠ m → e.key < m.key)
    (hdone : ∀ task, (exec (step decode) (.init r) l).pending task = none) :
    (exec (step decode) (.init r) l).controller.getUsageProfile t = decode m.content := by
  have hinv : Inv decode r t (exec (step decode) (.init r) l) (delivered r t l) := inv_exec hl inv_init hparse
  have hnewest : slot (exec (step decode) (.init r) l).controller t = some m.key := by
    rw [hinv.newest]
    apply newest_eq_some (List.mem_map_of_mem hm)
    intro k hk
    obtain ⟨e, he, rfl⟩ := List.mem_map.mp hk
    exact key_le_of_forall_lt hmax e he
  rcases hinv.settled m.key hnewest with ⟨task, e, hp, _⟩ | ⟨e, he, hk, hprofile⟩
  · rw [hdone task] at hp
    cases hp
  · rw [hprofile, eq_of_key_of_forall_lt hmax e he hk]

/-- Installed at any other moment, a profile replaces that of a newer event, which nothing brings back. -/
theorem stale_of_not_open {decode : String → Option UsageProfile} {w : World} {t : String} {task : Task} {now : Nat}
    {e : Event} (he : w.pending task = some (t, e)) (hopen : ¬ Open t w) (hparse : (decode e.content).isSome = true) :
    (step decode w (.install task now)).controller.getUsageProfile t = decode e.content ∧
      slot (step decode w (.install task now)).controller t ≠ some e.key ∧
      ¬ Open t (step decode w (.install task now)) := by
  rw [getUsageProfile_install decode w task now t he, slot_install]
  refine ⟨?_, fun hs => hopen ⟨task, e, he, hs⟩, ?_⟩
  · obtain ⟨p, hp⟩ := Option.isSome_iff_exists.mp hparse
    rw [hp]
    rfl
  · rintro ⟨task', f, hf, hs⟩
    rw [slot_install] at hs
    rw [pending_install] at hf
    rcases pending_of_update hf with ⟨_, heq⟩ | ⟨_, hf⟩
    · cases heq
    · exact hopen ⟨task', f, hf, hs⟩

namespace Sample

open LdkController.Sample

def granted : Event := grant "owner" "alice" 1 "0a" "{}"

def revoked : Event := grant "owner" "alice" 2 "0b" noMethods

def inOrder : List Act :=
  [.check .notification granted, .check .fetch revoked, .install .notification 7, .install .fetch 8]

def outOfOrder : List Act :=
  [.check .notification granted, .check .fetch revoked, .install .fetch 7, .install .notification 8]

end Sample

theorem no_stale_grant_in_order :
    (exec (step LdkController.Sample.decode) (.init none) Sample.inOrder).controller.getUsageProfile "alice" =
      some ⟨none, some ∅, none⟩ := by
  have hsteps : Steps (step LdkController.Sample.decode) (fun w a => Enabled w a ∧ Current "alice" w a) (.init none)
      Sample.inOrder := by
    refine ⟨⟨rfl, trivial⟩, ⟨rfl, trivial⟩, ⟨trivial, ?_⟩, ⟨trivial, ?_⟩, trivial⟩
    · intro e _
      exact ⟨.fetch, Sample.revoked, by decide, by decide⟩
    · intro e _
      exact ⟨.fetch, Sample.revoked, by decide, by decide⟩
  refine no_stale_grant (m := Sample.revoked) hsteps (by decide) (by decide) (by decide) ?_
  intro task
  cases task <;> decide

/-- The revocation is installed first and recorded for good; the older grant comes back. -/
theorem no_stale_grant_fails :
    Steps (step LdkController.Sample.decode) Enabled (.init none) Sample.outOfOrder ∧
      (∀ task, (exec (step LdkController.Sample.decode) (.init none) Sample.outOfOrder).pending task = none) ∧
      delivered none "alice" Sample.outOfOrder = [Sample.granted, Sample.revoked] ∧
      Sample.granted.key < Sample.revoked.key ∧
      (exec (step LdkController.Sample.decode) (.init none) Sample.outOfOrder).controller.getUsageProfile "alice" =
        LdkController.Sample.decode Sample.granted.content ∧
      LdkController.Sample.decode Sample.granted.content ≠ LdkController.Sample.decode Sample.revoked.content := by
  refine ⟨⟨rfl, rfl, trivial, trivial, trivial⟩, ?_, by decide, by decide, by decide, by decide⟩
  intro task
  cases task <;> decide

end LdkController.Race
