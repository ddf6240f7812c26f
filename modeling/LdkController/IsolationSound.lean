import LdkController.GrantsSound

/-!
# Callers are isolated

Two runs, of which the second leaves out whatever concerns one caller, look the
same to every other caller. Handles differ between the runs, so states are
compared by their keys, and a request in flight by what its handle reaches: in
both runs the state of its key, or in both nothing.
-/

namespace LdkController.Isolation

open Lib

/-! ## What a request in flight reaches -/

/-- The update is the pubkey's, and its handle reaches no state but that of its own key. -/
structure Held (p : String) (a : AccessState) (u : StateUpdateRequest) : Prop where
  owner : accessKeyPubkey u.key = p
  old : u.state.cell < (a.map u.state.store).next
  own : ∀ k, (a.map u.state.store).handle? k = some u.state.cell → k = u.key

/-- A key has in the second store the handle it has in the first, or a newer one, or none. -/
structure Grows (a a' : AccessState) : Prop where
  next : ∀ c, (a.map c).next ≤ (a'.map c).next
  handle : ∀ c k h, (a'.map c).handle? k = some h → (a.map c).handle? k = some h ∨ (a.map c).next ≤ h

theorem Held.grows {p : String} {a a' : AccessState} {u : StateUpdateRequest} (h : Held p a u) (hg : Grows a a') :
    Held p a' u where
  owner := h.owner
  old := Nat.lt_of_lt_of_le h.old (hg.next _)
  own k hk := by
    rcases hg.handle _ k _ hk with hold | hnew
    · exact h.own k hold
    · exact absurd h.old (Nat.not_lt.mpr hnew)

theorem grows_of_handles {a a' : AccessState} (hn : ∀ c, (a'.map c).next = (a.map c).next)
    (hh : ∀ c k, (a'.map c).handle? k = (a.map c).handle? k) : Grows a a' where
  next c := by rw [hn]
  handle c k h hk := .inl ((hh c k).symm.trans hk)

theorem Grows.rfl {a : AccessState} : Grows a a := grows_of_handles (fun _ => .refl _) fun _ _ => .refl _

theorem grows_upsert (s : Stores) (t : String) (p : UsageProfile) (now : Nat) :
    Grows s.access (s.upsertUsageProfileAndResetStates t p now).access where
  next c := s.next_le_upsert t p now c
  handle c k h hk := by
    by_cases ht : accessKeyPubkey k = t
    · exact .inr (s.next_le_handle?_upsert t p now c ht hk)
    · exact .inl ((s.handle?_upsert_of_ne t p now c ht).symm.trans hk)

theorem grows_modifyEach (f : RateState → StateUpdateRequest → RateState) (us : List StateUpdateRequest)
    (a : AccessState) : Grows a (us.foldl (modify f) a) :=
  grows_of_handles (fun c => next_modifyEach f us c a) fun c k => handle?_modifyEach f us c k a

def Live (a : AccessState) (u : StateUpdateRequest) : Prop :=
  (a.map u.state.store).handle? u.key = some u.state.cell

theorem Live.held {p : String} {a : AccessState} {u : StateUpdateRequest} (h : Live a u)
    (hp : accessKeyPubkey u.key = p) : Held p a u where
  owner := hp
  old := Arena.handle?_lt _ h
  own _ hk := Arena.handle?_inj _ hk h

theorem live_of_prepared {env : Env} {s : Stores} {request : Request} {caller : String} {u : StateUpdateRequest}
    (h : Prepared env s request caller u) : accessKeyPubkey u.key = caller ∧ Live s.access u := by
  constructor
  · cases h <;> rfl
  · unfold Live
    rw [h.store]
    exact h.handle

theorem not_live_upsert (s : Stores) {t : String} {u : StateUpdateRequest} (h : Held t s.access u) (p : UsageProfile)
    (now : Nat) : ¬ Live (s.upsertUsageProfileAndResetStates t p now).access u := by
  intro hl
  have hnew := s.next_le_handle?_upsert t p now _ h.owner hl
  exact absurd h.old (Nat.not_lt.mpr hnew)

/-! ## Two stores that look alike to a pubkey -/

def Agree (b : String) (a₁ a₂ : AccessState) : Prop :=
  ∀ c k, accessKeyPubkey k = b → (a₁.map c).at? k = (a₂.map c).at? k

/-- Updates of one request of the pubkey in two stores. -/
structure Twin (b : String) (a₁ a₂ : AccessState) (u₁ u₂ : StateUpdateRequest) : Prop where
  held₁ : Held b a₁ u₁
  held₂ : Held b a₂ u₂
  key : u₁.key = u₂.key
  rule : u₁.rule = u₂.rule
  amount : u₁.amount = u₂.amount
  context : u₁.context = u₂.context
  store : u₁.state.store = u₂.state.store
  live : Live a₁ u₁ ↔ Live a₂ u₂

section
variable {b : String} {a₁ a₂ : AccessState} {u₁ u₂ : StateUpdateRequest}

theorem Agree.symm (h : Agree b a₁ a₂) : Agree b a₂ a₁ := fun c k hk => (h c k hk).symm

theorem Twin.symm (h : Twin b a₁ a₂ u₁ u₂) : Twin b a₂ a₁ u₂ u₁ :=
  ⟨h.held₂, h.held₁, h.key.symm, h.rule.symm, h.amount.symm, h.context.symm, h.store.symm, h.live.symm⟩

theorem Twin.grows (h : Twin b a₁ a₂ u₁ u₂) {a₁' a₂' : AccessState} (h₁ : Grows a₁ a₁') (h₂ : Grows a₂ a₂')
    (hl : Live a₁' u₁ ↔ Live a₂' u₂) : Twin b a₁' a₂' u₁ u₂ :=
  ⟨h.held₁.grows h₁, h.held₂.grows h₂, h.key, h.rule, h.amount, h.context, h.store, hl⟩

theorem live_modifyEach (f : RateState → StateUpdateRequest → RateState) (us : List StateUpdateRequest)
    {a : AccessState} {u : StateUpdateRequest} : Live (us.foldl (modify f) a) u ↔ Live a u := by
  unfold Live
  rw [handle?_modifyEach]

/-- Through live handles both see the state of their common key. -/
theorem Twin.read_eq (h : Twin b a₁ a₂ u₁ u₂) (hagree : Agree b a₁ a₂) (hl : Live a₁ u₁) :
    a₁.read u₁.state = a₂.read u₂.state := by
  have h₁ := Arena.at?_of_handle _ hl
  have h₂ := Arena.at?_of_handle _ (h.live.mp hl)
  rw [← h.key, ← h.store, ← hagree u₁.state.store u₁.key h.held₁.owner, h₁] at h₂
  unfold AccessState.read
  rw [← h.store]
  exact Option.some.inj h₂

theorem Twin.reaches (h : Twin b a₁ a₂ u₁ u₂) {c : AccessErrorContext} {k : AccessKey}
    (hk : c = u₁.state.store ∧ (a₁.map c).handle? k = some u₁.state.cell) :
    Live a₁ u₁ ∧ c = u₂.state.store ∧ (a₂.map c).handle? k = some u₂.state.cell := by
  obtain ⟨rfl, hk⟩ := hk
  obtain rfl := h.held₁.own k hk
  refine ⟨hk, h.store, ?_⟩
  have hl : Live a₂ u₂ := h.live.mp hk
  rw [h.store, h.key]
  exact hl

variable {f : RateState → StateUpdateRequest → RateState}
  (hf : ∀ s u v, u.rule = v.rule → u.amount = v.amount → f s u = f s v)
include hf

theorem Agree.modify (hagree : Agree b a₁ a₂) (h : Twin b a₁ a₂ u₁ u₂) :
    Agree b (modify f a₁ u₁) (modify f a₂ u₂) := by
  intro c k hk
  unfold LdkController.modify
  rw [AccessState.at?_write, AccessState.at?_write]
  by_cases hreach : c = u₁.state.store ∧ (a₁.map c).handle? k = some u₁.state.cell
  · obtain ⟨hl, hreach₂⟩ := h.reaches hreach
    rw [if_pos hreach, if_pos hreach₂, h.read_eq hagree hl, hf _ u₁ u₂ h.rule h.amount]
  · have hreach₂ : ¬ (c = u₂.state.store ∧ (a₂.map c).handle? k = some u₂.state.cell) :=
      fun h₂ => hreach (h.symm.reaches h₂).2
    rw [if_neg hreach, if_neg hreach₂]
    exact hagree c k hk

theorem Agree.modifyEach {us₁ us₂ : List StateUpdateRequest} (hagree : Agree b a₁ a₂)
    (htwin : List.Forall₂ (Twin b a₁ a₂) us₁ us₂) :
    Agree b (us₁.foldl (LdkController.modify f) a₁) (us₂.foldl (LdkController.modify f) a₂) := by
  induction us₁ generalizing us₂ a₁ a₂ with
  | nil =>
    cases htwin
    exact hagree
  | cons u₁ us₁ ih =>
    cases htwin with
    | @cons _ u₂ _ us₂ h htwin =>
      rw [List.foldl_cons, List.foldl_cons]
      apply ih (hagree.modify hf h)
      refine htwin.imp fun v₁ v₂ hv => hv.grows (grows_modifyEach f [u₁] a₁) (grows_modifyEach f [u₂] a₂) ?_
      exact (live_modifyEach f [u₁]).trans (hv.live.trans (live_modifyEach f [u₂]).symm)

end

/-! ## Admitting a request in both -/

section
variable {b : String} {s₁ s₂ : Stores} (hagree : Agree b s₁.access s₂.access)
include hagree

/-- In both stores a handle of a key of the pubkey is found, or in neither. -/
theorem Agree.state {ε : Type} {k : AccessKey} (c : AccessErrorContext) (hk : accessKeyPubkey k = b) (e : ε) :
    Outcome.Rel (fun x y : SharedRateState => x.store = c ∧ y.store = c ∧
        (s₁.access.map c).handle? k = some x.cell ∧ (s₂.access.map c).handle? k = some y.cell)
      (Outcome.okOr (((s₁.access.map c).handle? k).map (⟨c, ·⟩)) e)
      (Outcome.okOr (((s₂.access.map c).handle? k).map (⟨c, ·⟩)) e) := by
  have hsome : ((s₁.access.map c).handle? k).isSome = ((s₂.access.map c).handle? k).isSome := by
    rw [← Arena.isSome_at?, hagree c k hk, Arena.isSome_at?]
  cases h₁ : (s₁.access.map c).handle? k with
  | none =>
    cases h₂ : (s₂.access.map c).handle? k with
    | none => exact rfl
    | some cell₂ => rw [h₁, h₂] at hsome; cases hsome
  | some cell₁ =>
    cases h₂ : (s₂.access.map c).handle? k with
    | none => rw [h₁, h₂] at hsome; cases hsome
    | some cell₂ => exact ⟨rfl, rfl, rfl, rfl⟩

omit hagree in
theorem twin_of_live {u₁ u₂ : StateUpdateRequest} (hb : accessKeyPubkey u₁.key = b) (hkey : u₁.key = u₂.key)
    (hrule : u₁.rule = u₂.rule) (hamount : u₁.amount = u₂.amount) (hcontext : u₁.context = u₂.context)
    (hstore : u₁.state.store = u₂.state.store) (h₁ : Live s₁.access u₁) (h₂ : Live s₂.access u₂) :
    Twin b s₁.access s₂.access u₁ u₂ :=
  ⟨h₁.held hb, h₂.held (hkey ▸ hb), hkey, hrule, hamount, hcontext, hstore, iff_of_true h₁ h₂⟩

theorem accessRateUpdates_rel (request : Request) (mr : Option MethodAccessRule) :
    Outcome.Rel (List.Forall₂ (Twin b s₁.access s₂.access)) (accessRateUpdates s₁.access request b mr)
      (accessRateUpdates s₂.access request b mr) := by
  unfold accessRateUpdates
  cases mr.bind (·.accessRate) with
  | none => exact .nil
  | some rule =>
    apply Outcome.Rel.bind (hagree.state .accessRate (k := .method b request.method) rfl _)
    rintro ⟨_, cell₁⟩ ⟨_, cell₂⟩ - - ⟨rfl, rfl, h₁, h₂⟩
    exact .cons (twin_of_live rfl rfl rfl rfl rfl rfl h₁ h₂) .nil

theorem quotaUpdates_rel (request : Request) (profile : UsageProfile) (amount : Nat) :
    Outcome.Rel (List.Forall₂ (Twin b s₁.access s₂.access)) (quotaUpdates s₁.access request b profile amount)
      (quotaUpdates s₂.access request b profile amount) := by
  unfold quotaUpdates
  by_cases hpos : 0 < amount
  · rw [if_pos hpos, if_pos hpos]
    cases profile.quota with
    | none => exact .nil
    | some rule =>
      apply Outcome.Rel.bind (hagree.state .quota (k := .quota b) rfl _)
      rintro ⟨_, cell₁⟩ ⟨_, cell₂⟩ - - ⟨rfl, rfl, h₁, h₂⟩
      exact .cons (twin_of_live rfl rfl rfl rfl rfl rfl h₁ h₂) .nil
  · rw [if_neg hpos, if_neg hpos]
    exact .nil

theorem prepareUpdates_rel (env : Env) (request : Request)
    (hprofile : s₁.getUsageProfile b = s₂.getUsageProfile b) :
    Outcome.Rel (List.Forall₂ (Twin b s₁.access s₂.access)) (prepareUpdates env s₁ request b)
      (prepareUpdates env s₂ request b) := by
  unfold prepareUpdates
  rw [← hprofile]
  apply Outcome.Rel.bind (R := Eq) (Outcome.Rel.refl fun _ _ => rfl)
  rintro profile _ - - rfl
  apply Outcome.Rel.bind (R := Eq) (Outcome.Rel.refl fun _ _ => rfl)
  rintro mr _ - - rfl
  apply Outcome.Rel.bind (accessRateUpdates_rel hagree request mr)
  intro rate₁ rate₂ hr₁ hr₂ hrate
  apply Outcome.Rel.bind (R := Eq) (Outcome.Rel.refl fun _ _ => rfl)
  rintro spend _ - - rfl
  apply Outcome.Rel.bind (quotaUpdates_rel hagree request profile (spend.getD 0))
  intro quota₁ quota₂ hq₁ hq₂ hquota
  rw [insertionSort_updates hr₁ hq₁, insertionSort_updates hr₂ hq₂]
  exact List.rel_append hrate hquota

theorem checkAll_eq (m : Method) (now : Nat) {us₁ us₂ : List StateUpdateRequest}
    (htwin : List.Forall₂ (Twin b s₁.access s₂.access) us₁ us₂) (hus : ∀ u ∈ us₁, Live s₁.access u) :
    checkAll s₁.access m now us₁ = checkAll s₂.access m now us₂ := by
  induction htwin with
  | nil => rfl
  | @cons u₁ u₂ us₁ us₂ h htwin ih =>
    have hread : s₁.access.read u₁.state = s₂.access.read u₂.state := h.read_eq hagree (hus u₁ List.mem_cons_self)
    have hrest := ih fun u hu => hus u (List.mem_cons_of_mem u₁ hu)
    simp only [checkAll, hread, h.rule, h.amount, h.context, hrest]

/-- **One request.** The answers name the same charges, and the stores stay alike. -/
theorem verifyAccess_rel (env : Env) (now : Nat) (request : Request) (event : Event) (hb : event.pubkey = b)
    (hprofile : s₁.getUsageProfile b = s₂.getUsageProfile b) :
    Agree b (verifyAccess env s₁ now request event).1 (verifyAccess env s₂ now request event).1 ∧
      Outcome.Rel (List.Forall₂ (Twin b s₁.access s₂.access)) (verifyAccess env s₁ now request event).2
        (verifyAccess env s₂ now request event).2 := by
  have hrel := prepareUpdates_rel hagree env request hprofile
  subst hb
  unfold verifyAccess
  cases h₁ : prepareUpdates env s₁ request event.pubkey with
  | err r₁ =>
    cases h₂ : prepareUpdates env s₂ request event.pubkey with
    | err r₂ => rw [h₁, h₂] at hrel; exact ⟨hagree, hrel⟩
    | _ => rw [h₁, h₂] at hrel; cases hrel
  | panic =>
    cases h₂ : prepareUpdates env s₂ request event.pubkey with
    | panic => exact ⟨hagree, trivial⟩
    | _ => rw [h₁, h₂] at hrel; cases hrel
  | ok us₁ =>
    cases h₂ : prepareUpdates env s₂ request event.pubkey with
    | ok us₂ =>
      rw [h₁, h₂] at hrel
      have hcheck := checkAll_eq hagree request.method now hrel fun u hu => (live_of_prepared (prepared_of_mem h₁ u hu)).2
      simp only [← hcheck]
      by_cases hc₁ : Covered s₁.access now us₁
      · have hc₂ : Covered s₂.access now us₂ := checkAll_eq_ok.mp (hcheck.symm.trans (checkAll_of_covered hc₁))
        simp only [checkAll_of_covered hc₁, debitAll_of_covered (states_pairwise_ne h₁) hc₁,
          debitAll_of_covered (states_pairwise_ne h₂) hc₂]
        refine ⟨?_, hrel⟩
        exact hagree.modifyEach (f := fun s u => { s with balance := s.refilled now u.rule - u.amount })
          (fun s u v hr ha => by rw [hr, ha]) hrel
      · obtain ⟨e, c, he⟩ := checkAll_of_not_covered (m := request.method) hc₁
        simp only [he]
        exact ⟨hagree, rfl⟩
    | _ => rw [h₁, h₂] at hrel; cases hrel

end

/-! ## Runs -/

/-- What was admitted for a pubkey can be given back at any later time. -/
structure World where
  controller : Controller
  issued : String → List (List StateUpdateRequest)

def World.start (c : Controller) : World := ⟨c, fun _ => []⟩

inductive Op where
  | grant (now : Nat) (event : Event)
  | request (now : Nat) (request : Request) (event : Event)
  | refund (callerPubkey : String) (i : Nat)
  | control (other : ControlRequest → String → ControlResponse) (request : ControlRequest) (callerPubkey : String)

/-- Whom the operation is about: the target of a grant, or the caller. -/
def Op.subject (relayPubkey : Option String) : Op → Option String
  | .grant _ event => parseGrantTarget relayPubkey event
  | .request _ _ event => some event.pubkey
  | .refund callerPubkey _ => some callerPubkey
  | .control _ _ callerPubkey => some callerPubkey

def World.withAccess (w : World) (a : AccessState) : World := { w with controller := { w.controller with access := a } }

def World.issue (w : World) (p : String) (us : List StateUpdateRequest) : World :=
  { w with issued := Function.update w.issued p (w.issued p ++ [us]) }

section
variable (env : Env) (decode : String → Option UsageProfile)

def step (w : World) : Op → World
  | .grant now event => { w with controller := handleGrantEvent decode w.controller now event }
  | .request now request event =>
    match verifyAccess env w.controller.toStores now request event with
    | (a, .ok us) => (w.withAccess a).issue event.pubkey us
    | (a, _) => w.withAccess a
  | .refund callerPubkey i =>
    match (w.issued callerPubkey)[i]? with
    | none => w
    | some us => w.withAccess (refundAppliedStateUpdates w.controller.access us)
  | .control other request callerPubkey =>
    { w with controller := (processControlRequest other w.controller request callerPubkey).1 }

/-- An update without its handle. -/
structure Charge where
  key : AccessKey
  rule : RateLimitRule
  amount : Nat
  context : AccessErrorContext
deriving DecidableEq

def charge (u : StateUpdateRequest) : Charge := ⟨u.key, u.rule, u.amount, u.context⟩

inductive Reply where
  | verify (outcome : Outcome Response (List Charge))
  | authorize (outcome : Except ControlError Unit)
deriving DecidableEq

def replyTo (b : String) (w : World) : Op → Option Reply
  | .request now request event =>
    if event.pubkey = b then
      some (.verify do return (← (verifyAccess env w.controller.toStores now request event).2).map charge)
    else none
  | .control _ request callerPubkey =>
    if callerPubkey = b then
      some (.authorize (authorizeControlMethod w.controller.toStores callerPubkey request.method))
    else none
  | _ => none

end

/-! ## An operation about someone else -/

structure Quiet (b : String) (c c' : Controller) : Prop where
  relayPubkey : c'.relayPubkey = c.relayPubkey
  profile : c'.getUsageProfile b = c.getUsageProfile b
  applied : c'.appliedGrantEvents.lookup b = c.appliedGrantEvents.lookup b
  handle : ∀ ctx k, accessKeyPubkey k = b → (c'.access.map ctx).handle? k = (c.access.map ctx).handle? k
  states : Agree b c'.access c.access

theorem Quiet.rfl {b : String} {c : Controller} : Quiet b c c :=
  ⟨.refl _, .refl _, .refl _, fun _ _ _ => .refl _, fun _ _ _ => .refl _⟩

theorem agree_modifyEach_of_ne (f : RateState → StateUpdateRequest → RateState) {b p : String} (hpb : p ≠ b)
    {us : List StateUpdateRequest} {a : AccessState} (hus : ∀ u ∈ us, Held p a u) :
    Agree b (us.foldl (modify f) a) a := by
  induction us generalizing a with
  | nil => exact fun _ _ _ => rfl
  | cons u us ih =>
    intro c k hk
    have hg : Grows a (modify f a u) := grows_modifyEach f [u] a
    rw [List.foldl_cons, ih (fun v hv => (hus v (List.mem_cons_of_mem u hv)).grows hg) c k hk]
    unfold modify
    rw [AccessState.at?_write, if_neg]
    rintro ⟨rfl, hhandle⟩
    have hu := hus u List.mem_cons_self
    rw [hu.own k hhandle, hu.owner] at hk
    exact hpb hk

theorem quiet_modifyEach (f : RateState → StateUpdateRequest → RateState) {b p : String} (hpb : p ≠ b)
    (c : Controller) {us : List StateUpdateRequest} (hus : ∀ u ∈ us, Held p c.access u) :
    Quiet b c { c with access := us.foldl (modify f) c.access } :=
  ⟨rfl, rfl, rfl, fun ctx k _ => handle?_modifyEach f us ctx k c.access, agree_modifyEach_of_ne f hpb hus⟩

theorem quiet_grant (decode : String → Option UsageProfile) (c : Controller) (now : Nat) (event : Event) {b : String}
    (h : parseGrantTarget c.relayPubkey event ≠ some b) : Quiet b c (handleGrantEvent decode c now event) := by
  by_cases haway : TurnedAway c event
  · rw [handleGrantEvent_of_turnedAway haway]
    exact .rfl
  · obtain ⟨t, ht, htakes⟩ := exists_of_not_turnedAway haway
    have hbt : b ≠ t := fun hb => h (hb ▸ ht)
    rw [handleGrantEvent_of_taken decode c now event ht htakes]
    cases decode event.content with
    | none => exact ⟨rfl, rfl, AList.lookup_insert_ne hbt, fun _ _ _ => rfl, fun _ _ _ => rfl⟩
    | some profile =>
      refine ⟨rfl, ?_, AList.lookup_insert_ne hbt, ?_, ?_⟩
      · exact (Stores.getUsageProfile_upsert ..).trans (if_neg hbt)
      · intro ctx k hk
        exact Stores.handle?_upsert_of_ne _ _ _ _ _ (hk ▸ hbt)
      · intro ctx k hk
        exact Stores.at?_upsert_of_ne _ _ _ _ _ (hk ▸ hbt)

/-- What an admitted request leaves is written state by state. -/
theorem verifyAccess_modifies (env : Env) (s : Stores) (now : Nat) (request : Request) (event : Event) :
    ∃ f us, (verifyAccess env s now request event).1 = us.foldl (modify f) s.access ∧
      (∀ u ∈ us, Held event.pubkey s.access u) ∧
      ∀ us', (verifyAccess env s now request event).2 = .ok us' → us' = us := by
  have hnone : ∀ u ∈ ([] : List StateUpdateRequest), Held event.pubkey s.access u := fun u hu => by cases hu
  rcases verifyAccess_cases env s now request event with
    ⟨r, _, hv⟩ | ⟨_, hv⟩ | ⟨_, e, c, _, _, hv⟩ | ⟨us, hp, _, hv⟩ <;> rw [hv]
  · exact ⟨fun st _ => st, [], rfl, hnone, fun _ h => by cases h⟩
  · exact ⟨fun st _ => st, [], rfl, hnone, fun _ h => by cases h⟩
  · exact ⟨fun st _ => st, [], rfl, hnone, fun _ h => by cases h⟩
  · refine ⟨fun st u => { st with balance := st.refilled now u.rule - u.amount }, us, rfl, ?_, ?_⟩
    · intro u hu
      obtain ⟨howner, hlive⟩ := live_of_prepared (prepared_of_mem hp u hu)
      exact hlive.held howner
    · exact fun us' h => (Outcome.ok.inj h).symm

theorem grows_grant (decode : String → Option UsageProfile) (c : Controller) (now : Nat) (event : Event) :
    Grows c.access (handleGrantEvent decode c now event).access := by
  by_cases haway : TurnedAway c event
  · rw [handleGrantEvent_of_turnedAway haway]
    exact .rfl
  · obtain ⟨t, ht, htakes⟩ := exists_of_not_turnedAway haway
    rw [handleGrantEvent_of_taken decode c now event ht htakes]
    cases decode event.content with
    | none => exact .rfl
    | some profile => exact grows_upsert c.toStores t profile now

def Owned (w : World) : Prop := ∀ p, ∀ us ∈ w.issued p, ∀ u ∈ us, Held p w.controller.access u

theorem Owned.grows {w w' : World} (h : Owned w) (hg : Grows w.controller.access w'.controller.access)
    (hi : w'.issued = w.issued) : Owned w' := by
  intro p us hus u hu
  rw [hi] at hus
  exact (h p us hus u hu).grows hg

theorem Owned.issue {w : World} (h : Owned w) {p : String} {us : List StateUpdateRequest}
    (hus : ∀ u ∈ us, Held p w.controller.access u) : Owned (w.issue p us) := by
  intro q vs hvs
  by_cases hq : q = p
  · subst hq
    unfold World.issue at hvs
    simp only [Function.update_self, List.mem_append, List.mem_singleton] at hvs
    rcases hvs with hvs | rfl
    · exact h q vs hvs
    · exact hus
  · unfold World.issue at hvs
    simp only [Function.update_of_ne hq] at hvs
    exact h q vs hvs

section
variable (env : Env) (decode : String → Option UsageProfile) (w : World)

theorem step_request (now : Nat) (request : Request) (event : Event) :
    ∃ f us, (∀ u ∈ us, Held event.pubkey w.controller.access u) ∧
      (step env decode w (.request now request event) = w.withAccess (us.foldl (modify f) w.controller.access) ∨
        step env decode w (.request now request event) =
          (w.withAccess (us.foldl (modify f) w.controller.access)).issue event.pubkey us) := by
  obtain ⟨f, us, ha, hus, hok⟩ := verifyAccess_modifies env w.controller.toStores now request event
  refine ⟨f, us, hus, ?_⟩
  rw [← ha]
  unfold step
  simp only
  generalize verifyAccess env w.controller.toStores now request event = v at hok ⊢
  obtain ⟨a, us' | r | _⟩ := v
  · right
    obtain rfl := hok us' rfl
    rfl
  · exact .inl rfl
  · exact .inl rfl

theorem relayPubkey_step (op : Op) : (step env decode w op).controller.relayPubkey = w.controller.relayPubkey := by
  cases op with
  | grant now event => exact relayPubkey_handleGrantEvent decode w.controller now event
  | request now request event =>
    obtain ⟨f, us, _, hstep | hstep⟩ := step_request env decode w now request event <;> rw [hstep] <;> rfl
  | refund p i =>
    simp only [step]
    cases (w.issued p)[i]? <;> rfl
  | control other request caller =>
    obtain ⟨subscriptions, hc⟩ := processControlRequest_frame other w.controller request caller
    simp only [step]
    rw [hc]

theorem grows_step (op : Op) : Grows w.controller.access (step env decode w op).controller.access := by
  cases op with
  | grant now event => exact grows_grant decode w.controller now event
  | request now request event =>
    obtain ⟨f, us, _, hstep | hstep⟩ := step_request env decode w now request event
    · rw [hstep]
      exact grows_modifyEach f us w.controller.access
    · rw [hstep]
      exact grows_modifyEach f us w.controller.access
  | refund p i =>
    simp only [step]
    cases (w.issued p)[i]? with
    | none => exact .rfl
    | some us => exact grows_modifyEach (fun st u => (st.refund u.amount u.rule).1) us w.controller.access
  | control other request caller =>
    simp only [step, stores_processControlRequest]
    exact .rfl

theorem owned_step (op : Op) (h : Owned w) : Owned (step env decode w op) := by
  have hg := grows_step env decode w op
  cases op with
  | grant now event => exact h.grows hg rfl
  | request now request event =>
    obtain ⟨f, us, hus, hstep | hstep⟩ := step_request env decode w now request event
    · rw [hstep] at hg ⊢
      exact h.grows hg rfl
    · rw [hstep] at hg ⊢
      have ho : Owned (w.withAccess (us.foldl (modify f) w.controller.access)) := h.grows hg rfl
      exact ho.issue fun u hu => (hus u hu).grows hg
  | refund p i =>
    refine h.grows hg ?_
    simp only [step]
    cases (w.issued p)[i]? <;> rfl
  | control other request caller => exact h.grows hg rfl

theorem quiet_step {b : String} (op : Op) (h : Owned w) (hb : op.subject w.controller.relayPubkey ≠ some b) :
    Quiet b w.controller (step env decode w op).controller ∧ (step env decode w op).issued b = w.issued b := by
  cases op with
  | grant now event => exact ⟨quiet_grant decode w.controller now event hb, rfl⟩
  | request now request event =>
    have hne : event.pubkey ≠ b := fun he => hb (congrArg some he)
    obtain ⟨f, us, hus, hstep | hstep⟩ := step_request env decode w now request event
    · rw [hstep]
      exact ⟨quiet_modifyEach f hne w.controller hus, rfl⟩
    · rw [hstep]
      exact ⟨quiet_modifyEach f hne w.controller hus, Function.update_of_ne hne.symm ..⟩
  | refund p i =>
    have hne : p ≠ b := fun he => hb (congrArg some he)
    simp only [step]
    cases hi : (w.issued p)[i]? with
    | none => exact ⟨.rfl, rfl⟩
    | some us =>
      exact ⟨quiet_modifyEach (fun st u => (st.refund u.amount u.rule).1) hne w.controller
        (h p us (List.mem_of_getElem? hi)), rfl⟩
  | control other request caller =>
    obtain ⟨subscriptions, hc⟩ := processControlRequest_frame other w.controller request caller
    simp only [step]
    rw [hc]
    exact ⟨⟨rfl, rfl, rfl, fun _ _ _ => rfl, fun _ _ _ => rfl⟩, trivial⟩

end

/-! ## The two runs -/

structure Alike (b : String) (w₁ w₂ : World) : Prop where
  owned₁ : Owned w₁
  owned₂ : Owned w₂
  relayPubkey : w₁.controller.relayPubkey = w₂.controller.relayPubkey
  profile : w₁.controller.getUsageProfile b = w₂.controller.getUsageProfile b
  applied : w₁.controller.appliedGrantEvents.lookup b = w₂.controller.appliedGrantEvents.lookup b
  states : Agree b w₁.controller.access w₂.controller.access
  issued : List.Forall₂ (List.Forall₂ (Twin b w₁.controller.access w₂.controller.access)) (w₁.issued b) (w₂.issued b)

section
variable (env : Env) (decode : String → Option UsageProfile) {b : String} {w₁ w₂ : World}

theorem Alike.symm (h : Alike b w₁ w₂) : Alike b w₂ w₁ where
  owned₁ := h.owned₂
  owned₂ := h.owned₁
  relayPubkey := h.relayPubkey.symm
  profile := h.profile.symm
  applied := h.applied.symm
  states := h.states.symm
  issued := h.issued.flip.imp fun _ _ ht => ht.flip.imp fun _ _ ht => ht.symm

/-- A step about someone else in the first run only. -/
theorem Alike.step_left (h : Alike b w₁ w₂) {op : Op} (hb : op.subject w₁.controller.relayPubkey ≠ some b) :
    Alike b (step env decode w₁ op) w₂ := by
  obtain ⟨hq, hi⟩ := quiet_step env decode w₁ op h.owned₁ hb
  refine ⟨owned_step env decode w₁ op h.owned₁, h.owned₂, hq.relayPubkey.trans h.relayPubkey,
    hq.profile.trans h.profile, hq.applied.trans h.applied, ?_, ?_⟩
  · exact fun c k hk => (hq.states c k hk).trans (h.states c k hk)
  · rw [hi]
    refine h.issued.imp fun us₁ us₂ hus => hus.imp fun u₁ u₂ ht => ?_
    refine ht.grows (grows_step env decode w₁ op) .rfl ?_
    unfold Live at *
    rw [hq.handle _ _ ht.held₁.owner]
    exact ht.live

theorem Alike.grant (h : Alike b w₁ w₂) {now : Nat} {event : Event}
    (ht : parseGrantTarget w₁.controller.relayPubkey event = some b) :
    Alike b (step env decode w₁ (.grant now event)) (step env decode w₂ (.grant now event)) := by
  have ht₂ : parseGrantTarget w₂.controller.relayPubkey event = some b := h.relayPubkey ▸ ht
  have hslot : slot w₁.controller b = slot w₂.controller b := by
    unfold slot
    rw [h.applied]
  have ho₁ := owned_step env decode w₁ (.grant now event) h.owned₁
  have ho₂ := owned_step env decode w₂ (.grant now event) h.owned₂
  simp only [step] at ho₁ ho₂ ⊢
  cases htakes : takes (slot w₁.controller b) event.key with
  | false =>
    rw [handleGrantEvent_of_not_taken decode _ now event ht htakes,
      handleGrantEvent_of_not_taken decode _ now event ht₂ (hslot ▸ htakes)]
    exact h
  | true =>
    rw [handleGrantEvent_of_taken decode _ now event ht htakes] at ho₁ ⊢
    rw [handleGrantEvent_of_taken decode _ now event ht₂ (hslot ▸ htakes)] at ho₂ ⊢
    have happlied : ∀ c : Controller,
        (c.appliedGrantEvents.insert b ⟨event.createdAt, event.id⟩).lookup b = some ⟨event.createdAt, event.id⟩ :=
      fun c => AList.lookup_insert _
    cases hdecode : decode event.content with
    | none =>
      rw [hdecode] at ho₁ ho₂
      exact ⟨ho₁, ho₂, h.relayPubkey, h.profile, (happlied _).trans (happlied _).symm, h.states, h.issued⟩
    | some profile =>
      rw [hdecode] at ho₁ ho₂
      refine ⟨ho₁, ho₂, h.relayPubkey, ?_, (happlied _).trans (happlied _).symm, ?_, ?_⟩
      · have hb : ∀ s : Stores, (s.upsertUsageProfileAndResetStates b profile now).getUsageProfile b = some profile :=
          fun s => (Stores.getUsageProfile_upsert ..).trans (if_pos rfl)
        exact (hb _).trans (hb _).symm
      · intro c k hk
        exact (Stores.at?_upsert _ _ _ _ _ hk).trans (Stores.at?_upsert _ _ _ _ _ hk).symm
      · refine h.issued.imp fun us₁ us₂ hus => hus.imp fun u₁ u₂ htwin => ?_
        refine htwin.grows (grows_upsert _ b profile now) (grows_upsert _ b profile now) ?_
        exact iff_of_false (not_live_upsert _ htwin.held₁ profile now) (not_live_upsert _ htwin.held₂ profile now)

theorem charges_eq {a₁ a₂ : AccessState} {x y : Outcome Response (List StateUpdateRequest)}
    (h : Outcome.Rel (List.Forall₂ (Twin b a₁ a₂)) x y) :
    (do return (← x).map charge) = (do return (← y).map charge : Outcome Response (List Charge)) := by
  cases x with
  | ok us₁ =>
    cases y with
    | ok us₂ =>
      apply congrArg Outcome.ok
      induction h with
      | nil => rfl
      | cons ht _ ih =>
        rw [List.map_cons, List.map_cons, ih]
        simp only [charge, ht.key, ht.rule, ht.amount, ht.context]
    | err e => cases h
    | panic => cases h
  | err e =>
    cases y with
    | err e' => exact congrArg Outcome.err h
    | ok us₂ => cases h
    | panic => cases h
  | panic =>
    cases y with
    | panic => rfl
    | ok us₂ => cases h
    | err e => cases h

theorem Alike.request (h : Alike b w₁ w₂) {now : Nat} {request : Request} {event : Event} (hb : event.pubkey = b) :
    Alike b (step env decode w₁ (.request now request event)) (step env decode w₂ (.request now request event)) ∧
      replyTo env b w₁ (.request now request event) = replyTo env b w₂ (.request now request event) := by
  obtain ⟨hagree, hrel⟩ := verifyAccess_rel h.states env now request event hb h.profile
  have ho₁ := owned_step env decode w₁ (.request now request event) h.owned₁
  have ho₂ := owned_step env decode w₂ (.request now request event) h.owned₂
  have htwins : ∀ us₁ us₂, List.Forall₂ (Twin b w₁.controller.access w₂.controller.access) us₁ us₂ →
      List.Forall₂ (Twin b (verifyAccess env w₁.controller.toStores now request event).1
        (verifyAccess env w₂.controller.toStores now request event).1) us₁ us₂ := by
    obtain ⟨f₁, vs₁, ha₁, _⟩ := verifyAccess_modifies env w₁.controller.toStores now request event
    obtain ⟨f₂, vs₂, ha₂, _⟩ := verifyAccess_modifies env w₂.controller.toStores now request event
    intro us₁ us₂ hus
    rw [ha₁, ha₂]
    refine hus.imp fun u₁ u₂ ht => ht.grows (grows_modifyEach f₁ vs₁ _) (grows_modifyEach f₂ vs₂ _) ?_
    rw [live_modifyEach, live_modifyEach, ht.live]
  refine ⟨?_, ?_⟩
  · simp only [step] at ho₁ ho₂ ⊢
    generalize verifyAccess env w₁.controller.toStores now request event = v₁ at *
    generalize verifyAccess env w₂.controller.toStores now request event = v₂ at *
    have hissued := h.issued.imp htwins
    obtain ⟨a₁, us₁ | r₁ | _⟩ := v₁
    · obtain ⟨a₂, us₂ | r₂ | _⟩ := v₂
      · refine ⟨ho₁, ho₂, h.relayPubkey, h.profile, h.applied, hagree, ?_⟩
        simp only [World.issue, hb, Function.update_self]
        exact List.rel_append hissued (.cons (htwins us₁ us₂ hrel) .nil)
      · cases hrel
      · cases hrel
    · obtain ⟨a₂, us₂ | r₂ | _⟩ := v₂
      · cases hrel
      · exact ⟨ho₁, ho₂, h.relayPubkey, h.profile, h.applied, hagree, hissued⟩
      · cases hrel
    · obtain ⟨a₂, us₂ | r₂ | _⟩ := v₂
      · cases hrel
      · cases hrel
      · exact ⟨ho₁, ho₂, h.relayPubkey, h.profile, h.applied, hagree, hissued⟩
  · simp only [replyTo, if_pos hb]
    exact congrArg (fun o => some (Reply.verify o)) (charges_eq hrel)

theorem Alike.refund (h : Alike b w₁ w₂) {i : Nat} :
    Alike b (step env decode w₁ (.refund b i)) (step env decode w₂ (.refund b i)) := by
  have ho₁ := owned_step env decode w₁ (.refund b i) h.owned₁
  have ho₂ := owned_step env decode w₂ (.refund b i) h.owned₂
  have hlen := h.issued.length_eq
  simp only [step] at ho₁ ho₂ ⊢
  by_cases hi : i < (w₁.issued b).length
  · have hi₂ : i < (w₂.issued b).length := hlen ▸ hi
    have htwin := h.issued.get hi hi₂
    rw [List.getElem?_eq_getElem hi] at ho₁ ⊢
    rw [List.getElem?_eq_getElem hi₂] at ho₂ ⊢
    simp only at ho₁ ho₂ ⊢
    refine ⟨ho₁, ho₂, h.relayPubkey, h.profile, h.applied, ?_, ?_⟩
    · exact h.states.modifyEach (f := fun st u => (st.refund u.amount u.rule).1)
        (fun s u v hr ha => by rw [hr, ha]) htwin
    · refine h.issued.imp fun us₁ us₂ hus => hus.imp fun u₁ u₂ ht => ?_
      let f := fun (st : RateState) (u : StateUpdateRequest) => (st.refund u.amount u.rule).1
      refine ht.grows (grows_modifyEach f _ _) (grows_modifyEach f _ _) ?_
      exact (live_modifyEach f _).trans (ht.live.trans (live_modifyEach f _).symm)
  · rw [List.getElem?_eq_none (Nat.not_lt.mp hi)] at ho₁ ⊢
    rw [List.getElem?_eq_none (hlen ▸ Nat.not_lt.mp hi)] at ho₂ ⊢
    exact h

theorem Alike.control (h : Alike b w₁ w₂) {other : ControlRequest → String → ControlResponse}
    {request : ControlRequest} :
    Alike b (step env decode w₁ (.control other request b)) (step env decode w₂ (.control other request b)) ∧
      replyTo env b w₁ (.control other request b) = replyTo env b w₂ (.control other request b) := by
  obtain ⟨subs₁, h₁⟩ := processControlRequest_frame other w₁.controller request b
  obtain ⟨subs₂, h₂⟩ := processControlRequest_frame other w₂.controller request b
  refine ⟨?_, ?_⟩
  · simp only [step]
    rw [h₁, h₂]
    exact ⟨h.owned₁, h.owned₂, h.relayPubkey, h.profile, h.applied, h.states, h.issued⟩
  · simp only [replyTo, authorizeControlMethod, h.profile]

theorem Alike.step_own (h : Alike b w₁ w₂) {op : Op} (hb : op.subject w₁.controller.relayPubkey = some b) :
    Alike b (step env decode w₁ op) (step env decode w₂ op) ∧ replyTo env b w₁ op = replyTo env b w₂ op := by
  cases op with
  | grant now event => exact ⟨h.grant env decode hb, rfl⟩
  | request now request event => exact h.request env decode (Option.some.inj hb)
  | refund p i =>
    obtain rfl := Option.some.inj hb
    exact ⟨h.refund env decode, rfl⟩
  | control other request caller =>
    obtain rfl := Option.some.inj hb
    exact h.control env decode

theorem replyTo_of_ne {w : World} {op : Op} (hb : op.subject w.controller.relayPubkey ≠ some b) :
    replyTo env b w op = none := by
  cases op with
  | grant now event => rfl
  | request now request event => exact if_neg fun he => hb (congrArg some he)
  | refund p i => rfl
  | control other request caller => exact if_neg fun he => hb (congrArg some he)

end

theorem owned_start (c : Controller) : Owned (.start c) := fun _ _ hus => by cases hus

theorem alike_start (c : Controller) (b : String) : Alike b (.start c) (.start c) :=
  ⟨owned_start c, owned_start c, rfl, rfl, rfl, fun _ _ _ => rfl, .nil⟩

def concerns (relayPubkey : Option String) (a : String) (op : Op) : Bool := op.subject relayPubkey = some a

/-- **Isolation.** Leaving out of a run what concerns one pubkey changes for another neither the results of its access
checks nor its profile nor its states. -/
theorem callers_isolated (env : Env) (decode : String → Option UsageProfile) (c : Controller) {a b : String}
    (hab : a ≠ b) (ops : List Op) :
    let run := exec (step env decode) (.start c) ops
    let without := exec (step env decode) (.start c) (ops.filter fun op => !concerns c.relayPubkey a op)
    answers (step env decode) (replyTo env b) (.start c) ops =
        answers (step env decode) (replyTo env b) (.start c) (ops.filter fun op => !concerns c.relayPubkey a op) ∧
      run.controller.getUsageProfile b = without.controller.getUsageProfile b ∧
      ∀ ctx k, accessKeyPubkey k = b →
        (run.controller.access.map ctx).at? k = (without.controller.access.map ctx).at? k := by
  let R := fun w₁ w₂ => Alike b w₁ w₂ ∧ w₁.controller.relayPubkey = c.relayPubkey
  have hdrop : ∀ w₁ w₂ op, concerns c.relayPubkey a op = true → R w₁ w₂ →
      R (step env decode w₁ op) w₂ ∧ replyTo env b w₁ op = none := by
    intro w₁ w₂ op hd ⟨halike, hr⟩
    have ha : op.subject w₁.controller.relayPubkey = some a := by
      rw [hr]
      exact of_decide_eq_true hd
    have hb : op.subject w₁.controller.relayPubkey ≠ some b := fun he => hab (Option.some.inj (ha.symm.trans he))
    exact ⟨⟨halike.step_left env decode hb, (relayPubkey_step ..).trans hr⟩, replyTo_of_ne env hb⟩
  have hkeep : ∀ w₁ w₂ op, concerns c.relayPubkey a op = false → R w₁ w₂ →
      R (step env decode w₁ op) (step env decode w₂ op) ∧ replyTo env b w₁ op = replyTo env b w₂ op := by
    intro w₁ w₂ op _ ⟨halike, hr⟩
    have hr' : (step env decode w₁ op).controller.relayPubkey = c.relayPubkey := (relayPubkey_step ..).trans hr
    by_cases hb : op.subject w₁.controller.relayPubkey = some b
    · obtain ⟨hstep, hreply⟩ := halike.step_own env decode hb
      exact ⟨⟨hstep, hr'⟩, hreply⟩
    · have hb₂ : op.subject w₂.controller.relayPubkey ≠ some b := halike.relayPubkey ▸ hb
      have hboth := ((halike.step_left env decode hb).symm.step_left env decode hb₂).symm
      exact ⟨⟨hboth, hr'⟩, (replyTo_of_ne env hb).trans (replyTo_of_ne env hb₂).symm⟩
  have hunwind := exec_filter (replyTo env b) hdrop hkeep ops ⟨alike_start c b, rfl⟩
  exact ⟨hunwind.2, hunwind.1.1.profile, hunwind.1.1.states⟩

namespace Sample

open LdkController.Sample

def getInfo (caller : String) : Op := .request 9 ⟨.getInfo, .getInfo⟩ ⟨caller, 3, "0c", [], ""⟩

def ops : List Op :=
  [.grant 7 (grant "owner" "alice" 1 "0a" "{}"), .grant 8 (grant "owner" "bob" 2 "0b" "{}"), getInfo "alice",
    getInfo "bob"]

end Sample

theorem callers_isolated_two :
    answers (step LdkController.Sample.env LdkController.Sample.decode) (replyTo LdkController.Sample.env "bob")
        (.start (.init none)) (Sample.ops.filter fun op => !concerns none "alice" op) = [.verify (.ok [])] :=
  (callers_isolated LdkController.Sample.env LdkController.Sample.decode (.init none) (a := "alice") (b := "bob")
    (by decide) Sample.ops).1.symm.trans (by decide)

end LdkController.Isolation
