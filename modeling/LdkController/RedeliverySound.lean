import LdkController.GrantRace

/-!
# Redelivered grants

Every event comes by subscription and again with every fetch. The slot of a
target accepts increasing keys only, whichever loop asks, so an event installs
its profile at most once and a delivery that is not newer changes nothing.
-/

namespace LdkController.Race

open Lib

def World.idle (c : Controller) : World := ⟨c, fun _ => none⟩

/-- The event that this step's `should_apply_grant_event` accepts for the target. -/
def acceptedFor (t : String) (w : World) : Act → Option Event
  | .check _ event =>
    match parseGrantTarget w.controller.relayPubkey event with
    | none => none
    | some u =>
      if u = t ∧ (shouldApplyGrantEvent w.controller.appliedGrantEvents u event).2 = true then some event else none
  | .install _ _ => none

/-- The call of `upsert_usage_profile_and_reset_states` that this step makes. -/
def upserted (decode : String → Option UsageProfile) (w : World) : Act → Option (String × Event)
  | .check _ _ => none
  | .install task _ => (w.pending task).filter fun x => (decode x.2.content).isSome

/-! ## What is accepted -/

theorem relayPubkey_step (decode : String → Option UsageProfile) (w : World) (a : Act) :
    (step decode w a).controller.relayPubkey = w.controller.relayPubkey := by
  cases a with
  | install task now => exact relayPubkey_install decode w task now
  | check task e =>
    by_cases haway : TurnedAway w.controller e
    · rw [step_check_of_turnedAway decode w task e haway]
    · obtain ⟨u, hu, ht⟩ := exists_of_not_turnedAway haway
      rw [step_check_of_takes decode w task e hu ht]
      rfl

theorem delivered_cons (r : Option String) (t : String) (a : Act) (l : List Act) :
    delivered r t (a :: l) = (a.grantFor r t).toList ++ delivered r t l := by
  unfold delivered
  rw [List.filterMap_cons]
  cases a.grantFor r t <;> rfl

theorem acceptedFor_check (t : String) (w : World) (task : Task) (e : Event) :
    acceptedFor t w (.check task e) =
      ((Act.check task e).grantFor w.controller.relayPubkey t).filter fun e => takes (slot w.controller t) e.key := by
  unfold acceptedFor
  rw [grantFor_check]
  cases hu : parseGrantTarget w.controller.relayPubkey e with
  | none => simp only [hu, reduceCtorEq, if_false, Option.filter_none]
  | some u =>
    simp only [hu, shouldApplyGrantEvent_eq, Option.some.injEq]
    by_cases ht : u = t
    · subst ht
      unfold slot
      simp only [true_and, if_true, Option.filter_some]
    · simp [ht]

theorem slot_step (decode : String → Option UsageProfile) (w : World) (t : String) (a : Act) :
    slot (step decode w a).controller t =
      ((a.grantFor w.controller.relayPubkey t).toList.map Event.key).foldl offer (slot w.controller t) := by
  cases a with
  | install task now => exact slot_install decode w task now t
  | check task e =>
    rw [grantFor_check]
    by_cases haway : TurnedAway w.controller e
    · rw [step_check_of_turnedAway decode w task e haway]
      by_cases ht : parseGrantTarget w.controller.relayPubkey e = some t
      · rw [if_pos ht]
        exact (offer_of_not_takes (haway t ht)).symm
      · rw [if_neg ht]
        rfl
    · obtain ⟨u, hu, hs⟩ := exists_of_not_turnedAway haway
      rw [step_check_of_takes decode w task e hu hs, slot_record, hu]
      by_cases ht : t = u
      · subst ht
        rw [if_pos rfl, if_pos rfl]
        exact (offer_of_takes hs).symm
      · rw [if_neg ht, if_neg fun he => ht (Option.some.inj he).symm]
        rfl

theorem relayPubkey_exec (decode : String → Option UsageProfile) {r : Option String} {w : World}
    (hr : w.controller.relayPubkey = r) (l : List Act) : (exec (step decode) w l).controller.relayPubkey = r :=
  exec_inv (fun w a h => (relayPubkey_step decode w a).trans h) l hr

theorem slot_exec (decode : String → Option UsageProfile) {r : Option String} (t : String) {l : List Act} {w : World}
    (hr : w.controller.relayPubkey = r) :
    slot (exec (step decode) w l).controller t = ((delivered r t l).map Event.key).foldl offer (slot w.controller t) := by
  induction l generalizing w with
  | nil => rfl
  | cons a l ih =>
    rw [exec_cons, ih ((relayPubkey_step decode w a).trans hr), slot_step, hr, delivered_cons, List.map_append,
      List.foldl_append]

/-- The accepted events of a target are those that its slot accepts out of all that are delivered for it. -/
theorem answers_acceptedFor (decode : String → Option UsageProfile) {r : Option String} (t : String) {l : List Act}
    {w : World} (hr : w.controller.relayPubkey = r) :
    answers (step decode) (acceptedFor t) w l = accepted Event.key (slot w.controller t) (delivered r t l) := by
  induction l generalizing w with
  | nil => rfl
  | cons a l ih =>
    rw [answers, ih ((relayPubkey_step decode w a).trans hr), slot_step, hr, delivered_cons]
    cases a with
    | install task now => rfl
    | check task e =>
      rw [acceptedFor_check, hr]
      cases (Act.check task e).grantFor r t with
      | none => rfl
      | some f =>
        cases hs : takes (slot w.controller t) f.key with
        | false =>
          simp only [Option.filter_some, hs, Option.toList_some, List.map_cons, List.map_nil, List.foldl_cons,
            List.foldl_nil, offer_of_not_takes hs, List.cons_append, List.nil_append, accepted_cons_of_not_takes hs]
          simp
        | true =>
          simp only [Option.filter_some, hs, Option.toList_some, List.map_cons, List.map_nil, List.foldl_cons,
            List.foldl_nil, offer_of_takes hs, List.cons_append, List.nil_append, accepted_cons_of_takes hs]
          simp

/-! ## What is installed -/

def grantName (x : String × Event) : String × (ℕ ×ₗ String) := (x.1, x.2.key)

/-- The key is at most the one in the slot of the target. -/
def Recorded (w : World) (x : String × Event) : Prop := ∃ m, slot w.controller x.1 = some m ∧ x.2.key ≤ m

/-- What was installed and what waits has been recorded, and no two of them have one name. -/
structure Once (w : World) (done : List (String × Event)) : Prop where
  installed : ∀ x ∈ done, Recorded w x
  waiting : ∀ task x, w.pending task = some x → Recorded w x
  nodup : (done.map grantName).Nodup
  fresh : ∀ task x, w.pending task = some x → grantName x ∉ done.map grantName
  apart : ∀ task task' x y, w.pending task = some x → w.pending task' = some y → grantName x = grantName y →
    task = task'

theorem once_idle (c : Controller) : Once (.idle c) [] where
  installed x hx := by cases hx
  waiting task x hx := by cases hx
  nodup := .nil
  fresh task x hx := by cases hx
  apart task task' x y hx := by cases hx

section
variable {w : World} {u : String} {e : Event} (htakes : takes (slot w.controller u) e.key = true)
include htakes

theorem Recorded.lt {x : String × Event} (h : Recorded w x) (hu : x.1 = u) : x.2.key < e.key := by
  obtain ⟨m, hm, hle⟩ := h
  rw [hu] at hm
  rw [hm] at htakes
  exact lt_of_le_of_lt hle (of_decide_eq_true htakes)

theorem Recorded.record {x : String × Event} (h : Recorded w x) (task : Task) : Recorded (w.record task u e) x := by
  unfold Recorded
  rw [slot_record]
  by_cases hu : x.1 = u
  · rw [if_pos hu]
    exact ⟨e.key, rfl, (h.lt htakes hu).le⟩
  · rw [if_neg hu]
    exact h

theorem Recorded.ne {x : String × Event} (h : Recorded w x) : grantName x ≠ grantName (u, e) := by
  intro hn
  obtain ⟨hu, hk⟩ := Prod.mk.inj hn
  exact absurd hk (h.lt htakes hu).ne

theorem Once.record {done : List (String × Event)} (h : Once w done) (task : Task) :
    Once (w.record task u e) done := by
  have hpending : ∀ {task' x}, (w.record task u e).pending task' = some x →
      (task' = task ∧ x = (u, e)) ∨ w.pending task' = some x := by
    intro task' x hx
    rcases pending_of_update hx with ⟨htask, hx⟩ | ⟨_, hx⟩
    · exact .inl ⟨htask, (Option.some.inj hx).symm⟩
    · exact .inr hx
  refine ⟨fun x hx => (h.installed x hx).record htakes task, ?_, h.nodup, ?_, ?_⟩
  · intro task' x hx
    rcases hpending hx with ⟨_, rfl⟩ | hx
    · exact ⟨e.key, by rw [slot_record, if_pos rfl], le_refl _⟩
    · exact (h.waiting task' x hx).record htakes task
  · intro task' x hx
    rcases hpending hx with ⟨_, rfl⟩ | hx
    · intro hmem
      obtain ⟨y, hy, hn⟩ := List.mem_map.mp hmem
      exact (h.installed y hy).ne htakes hn
    · exact h.fresh task' x hx
  · intro task₁ task₂ x y hx hy hn
    rcases hpending hx with ⟨h₁, rfl⟩ | hx <;> rcases hpending hy with ⟨h₂, rfl⟩ | hy
    · rw [h₁, h₂]
    · exact absurd hn.symm ((h.waiting task₂ y hy).ne htakes)
    · exact absurd hn ((h.waiting task₁ x hx).ne htakes)
    · exact h.apart task₁ task₂ x y hx hy hn

end

theorem Once.install {decode : String → Option UsageProfile} {w : World} {done : List (String × Event)}
    (h : Once w done) (task : Task) (now : Nat) :
    Once (step decode w (.install task now)) (done ++ (upserted decode w (.install task now)).toList) := by
  have hrecorded : ∀ {x}, Recorded w x → Recorded (step decode w (.install task now)) x := by
    intro x hx
    unfold Recorded
    rw [slot_install]
    exact hx
  have hpending : ∀ {task' x}, (step decode w (.install task now)).pending task' = some x →
      task' ≠ task ∧ w.pending task' = some x := by
    intro task' x hx
    rw [pending_install] at hx
    rcases pending_of_update hx with ⟨_, hx⟩ | hx
    · cases hx
    · exact hx
  have hnew : ∀ {x}, x ∈ (upserted decode w (.install task now)).toList → w.pending task = some x := by
    intro x hx
    exact (Option.filter_eq_some_iff.mp (Option.mem_toList.mp hx)).1
  refine ⟨?_, fun task' x hx => hrecorded (h.waiting task' x (hpending hx).2), ?_, ?_, ?_⟩
  · intro x hx
    rcases List.mem_append.mp hx with hx | hx
    · exact hrecorded (h.installed x hx)
    · exact hrecorded (h.waiting task x (hnew hx))
  · rw [List.map_append]
    apply List.Nodup.append h.nodup
    · cases upserted decode w (.install task now) <;> simp
    · intro n hn hn'
      obtain ⟨x, hx, rfl⟩ := List.mem_map.mp hn'
      exact h.fresh task x (hnew hx) hn
  · intro task' x hx hmem
    obtain ⟨htask, hx⟩ := hpending hx
    rw [List.map_append] at hmem
    rcases List.mem_append.mp hmem with hmem | hmem
    · exact h.fresh task' x hx hmem
    · obtain ⟨y, hy, hn⟩ := List.mem_map.mp hmem
      exact htask (h.apart task' task x y hx (hnew hy) hn.symm)
  · intro task₁ task₂ x y hx hy hn
    exact h.apart task₁ task₂ x y (hpending hx).2 (hpending hy).2 hn

theorem once_step {decode : String → Option UsageProfile} {w : World} {done : List (String × Event)} (a : Act)
    (h : Once w done) : Once (step decode w a) (done ++ (upserted decode w a).toList) := by
  cases a with
  | install task now => exact h.install task now
  | check task e =>
    rw [show upserted decode w (.check task e) = none from rfl, Option.toList_none, List.append_nil]
    by_cases haway : TurnedAway w.controller e
    · rw [step_check_of_turnedAway decode w task e haway]
      exact h
    · obtain ⟨u, hu, ht⟩ := exists_of_not_turnedAway haway
      rw [step_check_of_takes decode w task e hu ht]
      exact h.record ht task

theorem once_run (decode : String → Option UsageProfile) (c : Controller) (l : List Act) :
    Once (exec (step decode) (.idle c) l) (answers (step decode) (upserted decode) (.idle c) l) := by
  have h := exec_history (upserted decode) (fun _ _ a h => once_step a h) l (once_idle c)
  rwa [List.nil_append] at h

/-- **Redelivered grants.** In every interleaving of the two loops the keys accepted for a target increase, no event is
installed twice, and a delivery that is not newer than the last accepted one changes nothing. -/
theorem redelivered_grants (decode : String → Option UsageProfile) (c : Controller) (l : List Act) :
    let w := exec (step decode) (.idle c) l
    (∀ t, (answers (step decode) (acceptedFor t) (.idle c) l).Pairwise fun e f => e.key < f.key) ∧
    ((answers (step decode) (upserted decode) (.idle c) l).map grantName).Nodup ∧
    ∀ t e last, parseGrantTarget c.relayPubkey e = some t →
      (answers (step decode) (acceptedFor t) (.idle c) l).getLast? = some last → e.key ≤ last.key →
      ∀ task, step decode w (.check task e) = w ∧
        (w.pending task = none → ∀ now, step decode w (.install task now) = w) := by
  intro w
  refine ⟨?_, (once_run decode c l).nodup, ?_⟩
  · intro t
    rw [answers_acceptedFor decode t rfl]
    exact pairwise_accepted ..
  · intro t e last ht hlast hle task
    have haway : TurnedAway w.controller e := by
      intro t' ht'
      rw [relayPubkey_exec decode rfl l] at ht'
      have heq : t = t' := Option.some.inj (ht.symm.trans ht')
      have hslot : slot w.controller t = some last.key := by
        rw [answers_acceptedFor decode t rfl] at hlast
        rw [slot_exec decode t rfl, foldl_offer_map, hlast]
        rfl
      rw [← heq, hslot]
      exact decide_eq_false (not_lt.mpr hle)
    exact ⟨step_check_of_turnedAway decode w task e haway, fun hidle now => step_install_of_idle decode w task now hidle⟩

end LdkController.Race
