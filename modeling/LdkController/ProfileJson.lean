import LdkController.GrantsSound
import LdkController.Json

/-!
# Decoding a grant's profile

The deserializers derived for `UsageProfile`, `MethodAccessRule` and
`RateLimitRule` (`src/usage_profile/mod.rs`, `src/rate_limit_rule.rs`), and the
format in which the NIP has a grant written. The NIP calls a method's limit
`rate`; the decoder looks for it under the name of its own field, `access_rate`,
and so honours exactly the grants that give no method a limit.
-/

namespace LdkController

open Lib

/-! ## The decoder -/

def deserializeU64 : Json → Option Nat
  | .int n => if 0 ≤ n ∧ n ≤ u64Max then some n.toNat else none
  | _ => none

def deserializeI64 : Json → Option Int
  | .int n => if i64Min ≤ n ∧ n ≤ i64Max then some n else none
  | _ => none

def defaultMaxCapacity : Int := i64Max

def deserializeMaxCapacity (j : Json) : Option Int := do
  let value ← deserializeI64 j
  if value < 0 then none else some value

/-- A struct is read from an object, or from an array of its fields in order, where
only a field with a default may be left out. -/
def RateLimitRule.deserialize : Json → Option RateLimitRule
  | .obj fields => do
    let ratePerMicro ← Json.field "rate_per_micro" deserializeU64 fields
    let maxCapacity ← Json.field "max_capacity" deserializeMaxCapacity fields
    return ⟨ratePerMicro.getD 0, maxCapacity.getD defaultMaxCapacity⟩
  | .arr [] => some ⟨0, defaultMaxCapacity⟩
  | .arr [ratePerMicro] => do return ⟨← deserializeU64 ratePerMicro, defaultMaxCapacity⟩
  | .arr [ratePerMicro, maxCapacity] => do
    return ⟨← deserializeU64 ratePerMicro, ← deserializeMaxCapacity maxCapacity⟩
  | _ => none

def MethodAccessRule.deserialize : Json → Option MethodAccessRule
  | .obj fields => do
    let accessRate ← Json.field "access_rate" (Json.option RateLimitRule.deserialize) fields
    return ⟨accessRate.join⟩
  | .arr [accessRate] => do return ⟨← Json.option RateLimitRule.deserialize accessRate⟩
  | _ => none

section
variable (methodOf : String → Method)

def deserializeMethods : Json → Option (Option (Table Method MethodAccessRule)) :=
  Json.option (Json.table methodOf MethodAccessRule.deserialize)

def deserializeControl : Json → Option (Option (Table String MethodAccessRule)) :=
  Json.option (Json.table id MethodAccessRule.deserialize)

def UsageProfile.deserialize : Json → Option UsageProfile
  | .obj fields => do
    let quota ← Json.field "quota" (Json.option RateLimitRule.deserialize) fields
    let methods ← Json.field "methods" (deserializeMethods methodOf) fields
    let control ← Json.field "control" deserializeControl fields
    return ⟨quota.join, methods.join, control.join⟩
  | .arr [quota, methods, control] => do
    return ⟨← Json.option RateLimitRule.deserialize quota, ← deserializeMethods methodOf methods,
      ← deserializeControl control⟩
  | _ => none

end

/-! ## What every decoded profile satisfies -/

def RateLimitRule.InRange (r : RateLimitRule) : Prop := 0 ≤ r.maxCapacity ∧ r.maxCapacity ≤ i64Max

theorem deserializeI64_le {j : Json} {n : Int} (h : deserializeI64 j = some n) : n ≤ i64Max := by
  cases j with
  | int m =>
    simp only [deserializeI64, Option.ite_none_right_eq_some, Option.some.injEq] at h
    exact h.2 ▸ h.1.2
  | _ => cases h

theorem deserializeMaxCapacity_inRange {j : Json} {n : Int} (h : deserializeMaxCapacity j = some n) :
    0 ≤ n ∧ n ≤ i64Max := by
  unfold deserializeMaxCapacity at h
  obtain ⟨value, hvalue, h⟩ := Option.bind_eq_some_iff.mp h
  by_cases hneg : value < 0
  · rw [if_pos hneg] at h
    cases h
  · rw [if_neg hneg] at h
    obtain rfl := Option.some.inj h
    exact ⟨Int.not_lt.mp hneg, deserializeI64_le hvalue⟩

theorem defaultMaxCapacity_inRange : 0 ≤ defaultMaxCapacity ∧ defaultMaxCapacity ≤ i64Max := by decide

theorem RateLimitRule.deserialize_inRange {j : Json} {r : RateLimitRule}
    (h : RateLimitRule.deserialize j = some r) : r.InRange := by
  unfold RateLimitRule.deserialize at h
  split at h
  · obtain ⟨rate, _, h⟩ := Option.bind_eq_some_iff.mp h
    obtain ⟨cap, hcap, h⟩ := Option.bind_eq_some_iff.mp h
    obtain rfl := Option.some.inj h
    cases cap with
    | none => exact defaultMaxCapacity_inRange
    | some cap =>
      obtain ⟨v, hv⟩ := Json.field_some hcap
      exact deserializeMaxCapacity_inRange hv
  · obtain rfl := Option.some.inj h
    exact defaultMaxCapacity_inRange
  · obtain ⟨rate, _, h⟩ := Option.bind_eq_some_iff.mp h
    obtain rfl := Option.some.inj h
    exact defaultMaxCapacity_inRange
  · obtain ⟨rate, _, h⟩ := Option.bind_eq_some_iff.mp h
    obtain ⟨cap, hcap, h⟩ := Option.bind_eq_some_iff.mp h
    obtain rfl := Option.some.inj h
    exact deserializeMaxCapacity_inRange hcap
  · cases h

def LimitInRange (o : Option RateLimitRule) : Prop := ∀ r ∈ o, r.InRange

def RulesInRange {K : Type} (o : Option (Table K MethodAccessRule)) : Prop :=
  ∀ r ∈ o.elim [] (·.entries.filterMap (·.2.accessRate)), r.InRange

theorem limitInRange_of_deserialize {j : Json} {o : Option RateLimitRule}
    (h : Json.option RateLimitRule.deserialize j = some o) : LimitInRange o := by
  intro r hr
  obtain rfl := Option.mem_def.mp hr
  exact RateLimitRule.deserialize_inRange (Json.option_some h)

theorem MethodAccessRule.deserialize_inRange {j : Json} {m : MethodAccessRule}
    (h : MethodAccessRule.deserialize j = some m) : LimitInRange m.accessRate := by
  unfold MethodAccessRule.deserialize at h
  split at h
  · obtain ⟨rate, hrate, h⟩ := Option.bind_eq_some_iff.mp h
    obtain rfl := Option.some.inj h
    exact Json.field_join (P := LimitInRange) hrate (by simp [LimitInRange]) fun _ _ => limitInRange_of_deserialize
  · obtain ⟨rate, hrate, h⟩ := Option.bind_eq_some_iff.mp h
    obtain rfl := Option.some.inj h
    exact limitInRange_of_deserialize hrate
  · cases h

theorem rulesInRange_of_deserialize {K : Type} [DecidableEq K] {key : String → K} {j : Json}
    {o : Option (Table K MethodAccessRule)}
    (h : Json.option (Json.table key MethodAccessRule.deserialize) j = some o) : RulesInRange o := by
  intro r hr
  cases o with
  | none => cases hr
  | some t =>
    obtain ⟨e, he, hr⟩ := List.mem_filterMap.mp hr
    obtain ⟨v, hv⟩ := Json.mem_table (Json.option_some h) e he
    exact MethodAccessRule.deserialize_inRange hv r hr

/-- What the other modules assume of a granted profile. -/
theorem UsageProfile.deserialize_inRange {methodOf : String → Method} {j : Json} {p : UsageProfile}
    (h : UsageProfile.deserialize methodOf j = some p) : ∀ r ∈ p.rules, r.InRange := by
  have hparts : LimitInRange p.quota ∧ RulesInRange p.methods ∧ RulesInRange p.control := by
    unfold UsageProfile.deserialize at h
    split at h
    · obtain ⟨q, hq, h⟩ := Option.bind_eq_some_iff.mp h
      obtain ⟨ms, hm, h⟩ := Option.bind_eq_some_iff.mp h
      obtain ⟨cs, hc, h⟩ := Option.bind_eq_some_iff.mp h
      obtain rfl := Option.some.inj h
      exact ⟨Json.field_join (P := LimitInRange) hq (by simp [LimitInRange]) fun _ _ => limitInRange_of_deserialize,
        Json.field_join (P := RulesInRange) hm (by simp [RulesInRange]) fun _ _ => rulesInRange_of_deserialize,
        Json.field_join (P := RulesInRange) hc (by simp [RulesInRange]) fun _ _ => rulesInRange_of_deserialize⟩
    · obtain ⟨q, hq, h⟩ := Option.bind_eq_some_iff.mp h
      obtain ⟨ms, hm, h⟩ := Option.bind_eq_some_iff.mp h
      obtain ⟨cs, hc, h⟩ := Option.bind_eq_some_iff.mp h
      obtain rfl := Option.some.inj h
      exact ⟨limitInRange_of_deserialize hq, rulesInRange_of_deserialize hm, rulesInRange_of_deserialize hc⟩
    · cases h
  obtain ⟨hq, hm, hc⟩ := hparts
  intro r hr
  rcases List.mem_append.mp hr with hr | hr
  · rcases List.mem_append.mp hr with hr | hr
    · exact hq r (Option.mem_toList.mp hr)
    · exact hm r hr
  · exact hc r hr

theorem UsageProfile.deserialize_valid {methodOf : String → Method} {j : Json} {p : UsageProfile}
    (h : UsageProfile.deserialize methodOf j = some p) : p.Valid :=
  fun r hr => (UsageProfile.deserialize_inRange h r hr).1

/-! ## The format of the NIP -/

def IsLimit : Json → Prop :=
  Json.ObjectOf fun name v =>
    (name = "rate_per_micro" → ∃ n : Int, v = .int n ∧ 0 ≤ n ∧ n ≤ u64Max) ∧
    (name = "max_capacity" → ∃ n : Int, v = .int n ∧ 0 ≤ n ∧ n ≤ i64Max)

/-- Fields the NIP does not name may stand anywhere, but not one the decoder would take
for a limit. -/
def IsAccessRule : Json → Prop :=
  Json.ObjectOf fun name v => (name = "rate" → IsLimit v) ∧ name ≠ "access_rate"

def IsGrant : Json → Prop :=
  Json.ObjectOf fun name v =>
    (name = "methods" ∨ name = "control" → Json.ObjectOf (fun _ => IsAccessRule) v) ∧
    (name = "quota" → IsLimit v)

def number (j : Json) (name : String) : Option Int :=
  match j.get name with
  | some (.int n) => some n
  | _ => none

def writtenLimit (j : Json) : RateLimitRule :=
  ⟨((number j "rate_per_micro").getD 0).toNat, (number j "max_capacity").getD i64Max⟩

def writtenRule (j : Json) : MethodAccessRule := ⟨(j.get "rate").map writtenLimit⟩

structure Honours (methodOf : String → Method) (j : Json) (p : UsageProfile) : Prop where
  quota : p.quota = (j.get "quota").map writtenLimit
  methods : p.methods.isSome = (j.get "methods").isSome
  control : p.control.isSome = (j.get "control").isSome
  method : ∀ name, (p.methods.bind (·.lookup (methodOf name))) =
    ((j.get "methods").bind (·.get name)).map writtenRule
  controlMethod : ∀ name, (p.control.bind (·.lookup name)) =
    ((j.get "control").bind (·.get name)).map writtenRule

def NoRate (j : Json) : Prop :=
  ∀ part ∈ ["methods", "control"], ∀ rules, j.get part = some rules →
    ∀ name rule, rules.get name = some rule → rule.get "rate" = none

/-! ## What the decoder makes of a grant -/

theorem deserializeMaxCapacity_int {n : Int} (h0 : 0 ≤ n) (h : n ≤ i64Max) :
    deserializeMaxCapacity (.int n) = some n := by
  have hmin : i64Min ≤ n := Int.le_trans (by decide) h0
  simp [deserializeMaxCapacity, deserializeI64, hmin, h, Int.not_lt.mpr h0]

theorem field_number {α : Type} {name : String} {decode : Json → Option α} {val : Int → α}
    {fields : List (String × Json)} (hnodup : (fields.map (·.1)).Nodup)
    (h : ∀ v, (Json.obj fields).get name = some v → ∃ n, v = .int n ∧ decode (.int n) = some (val n)) :
    Json.field name decode fields = some ((number (.obj fields) name).map val) := by
  rw [Json.field_eq hnodup]
  unfold number
  simp only [Json.get] at h ⊢
  cases hv : fields.lookup name with
  | none => rfl
  | some v =>
    obtain ⟨n, rfl, hn⟩ := h v hv
    simp [hn]

theorem RateLimitRule.deserialize_of_isLimit {j : Json} (h : IsLimit j) :
    RateLimitRule.deserialize j = some (writtenLimit j) := by
  have hget := @Json.ObjectOf.get _ _ h
  obtain ⟨fields, rfl, hnodup, _⟩ := h
  have hrate : Json.field "rate_per_micro" deserializeU64 fields =
      some ((number (.obj fields) "rate_per_micro").map Int.toNat) := by
    apply field_number hnodup
    intro v hv
    obtain ⟨n, rfl, h0, hn⟩ := (hget hv).1 rfl
    exact ⟨n, rfl, by simp [deserializeU64, h0, hn]⟩
  have hcap : Json.field "max_capacity" deserializeMaxCapacity fields =
      some ((number (.obj fields) "max_capacity").map id) := by
    apply field_number hnodup
    intro v hv
    obtain ⟨n, rfl, h0, hn⟩ := (hget hv).2 rfl
    exact ⟨n, rfl, deserializeMaxCapacity_int h0 hn⟩
  simp only [RateLimitRule.deserialize, hrate, hcap, Option.bind_eq_bind, Option.bind_some]
  cases hn : number (.obj fields) "rate_per_micro" <;> simp [writtenLimit, hn, defaultMaxCapacity]

theorem MethodAccessRule.deserialize_of_isAccessRule {j : Json} (h : IsAccessRule j) :
    MethodAccessRule.deserialize j = some ⟨none⟩ := by
  have hget := @Json.ObjectOf.get _ _ h
  obtain ⟨fields, rfl, hnodup, _⟩ := h
  have hnone : fields.lookup "access_rate" = none := by
    cases hv : fields.lookup "access_rate" with
    | none => rfl
    | some v => exact absurd rfl (hget hv).2
  simp [MethodAccessRule.deserialize, Json.field_eq hnodup, hnone]

theorem field_quota {fields : List (String × Json)} (hnodup : (fields.map (·.1)).Nodup)
    (h : ∀ v, (Json.obj fields).get "quota" = some v → IsLimit v) :
    Json.field "quota" (Json.option RateLimitRule.deserialize) fields =
      some (((Json.obj fields).get "quota").map fun v => some (writtenLimit v)) := by
  apply Json.field_eq_map hnodup
  intro v hv
  have hlimit := RateLimitRule.deserialize_of_isLimit (h v hv)
  obtain ⟨_, rfl, _⟩ := h v hv
  simp [Json.option, hlimit]

/-- A written limit is a field the decoder does not know: it reads every rule as one
without a limit. -/
theorem field_rules {K : Type} [DecidableEq K] {key : String → K} (hkey : Function.Injective key)
    {fields : List (String × Json)} (hnodup : (fields.map (·.1)).Nodup) {part : String}
    (h : ∀ v, (Json.obj fields).get part = some v → Json.ObjectOf (fun _ => IsAccessRule) v) :
    ∃ t : Option (Table K MethodAccessRule),
      Json.field part (Json.option (Json.table key MethodAccessRule.deserialize)) fields = some (t.map some) ∧
        t.isSome = ((Json.obj fields).get part).isSome ∧
        ∀ name, t.bind (·.lookup (key name)) =
          (((Json.obj fields).get part).bind (·.get name)).map fun _ => ⟨none⟩ := by
  rw [Json.field_eq hnodup]
  simp only [Json.get] at h ⊢
  cases hv : fields.lookup part with
  | none => exact ⟨none, rfl, rfl, fun _ => rfl⟩
  | some v =>
    obtain ⟨t, ht, hlk⟩ := (h v hv).table hkey (fun _ => (⟨none⟩ : MethodAccessRule))
      fun _ _ hrule => MethodAccessRule.deserialize_of_isAccessRule hrule
    obtain ⟨_, rfl, _⟩ := h v hv
    exact ⟨some t, by simp [Json.option, ht], rfl, hlk⟩

theorem UsageProfile.deserialize_of_isGrant {methodOf : String → Method} (hinj : Function.Injective methodOf)
    {j : Json} (h : IsGrant j) :
    ∃ p, UsageProfile.deserialize methodOf j = some p ∧ p.quota = (j.get "quota").map writtenLimit ∧
      p.methods.isSome = (j.get "methods").isSome ∧ p.control.isSome = (j.get "control").isSome ∧
      (∀ name, p.methods.bind (·.lookup (methodOf name)) =
        ((j.get "methods").bind (·.get name)).map fun _ => ⟨none⟩) ∧
      ∀ name, p.control.bind (·.lookup name) = ((j.get "control").bind (·.get name)).map fun _ => ⟨none⟩ := by
  have hget := @Json.ObjectOf.get _ _ h
  obtain ⟨fields, rfl, hnodup, _⟩ := h
  have hq := field_quota hnodup fun v hv => (hget hv).2 rfl
  obtain ⟨ms, hm, hmsome, hmlk⟩ := field_rules hinj hnodup fun v hv => (hget hv).1 (.inl rfl)
  obtain ⟨cs, hc, hcsome, hclk⟩ := field_rules Function.injective_id hnodup fun v hv => (hget hv).1 (.inr rfl)
  refine ⟨⟨((Json.obj fields).get "quota").map writtenLimit, ms, cs⟩, ?_, rfl, hmsome, hcsome, hmlk, hclk⟩
  have hjoin : ∀ {α : Type} (o : Option α), (o.map some).join = o := fun o => by cases o <;> rfl
  simp only [UsageProfile.deserialize, deserializeMethods, deserializeControl, hq, hm, hc, Option.bind_eq_bind,
    Option.bind_some, hjoin]
  cases (Json.obj fields).get "quota" <;> rfl

theorem writtenRule_eq_none {j : Json} : writtenRule j = ⟨none⟩ ↔ j.get "rate" = none := by
  simp [writtenRule]

theorem map_writtenRule {o : Option Json} :
    (o.map fun _ => (⟨none⟩ : MethodAccessRule)) = o.map writtenRule ↔ ∀ rule, o = some rule → rule.get "rate" = none := by
  cases o with
  | none => simp
  | some rule =>
    simp only [Option.map_some, Option.some.injEq, forall_eq', eq_comm (a := (⟨none⟩ : MethodAccessRule))]
    exact writtenRule_eq_none

/-- A grant is honoured when, and only when, it limits no method. -/
theorem grant_honoured (methodOf : String → Method) (hinj : Function.Injective methodOf) (j : Json) (h : IsGrant j) :
    (∃ p, UsageProfile.deserialize methodOf j = some p ∧ Honours methodOf j p) ↔ NoRate j := by
  obtain ⟨p, hp, hq, hm, hc, hmethod, hcontrol⟩ := UsageProfile.deserialize_of_isGrant hinj h
  have hrate : NoRate j ↔ (∀ name, ∀ rule, (j.get "methods").bind (·.get name) = some rule → rule.get "rate" = none) ∧
      ∀ name, ∀ rule, (j.get "control").bind (·.get name) = some rule → rule.get "rate" = none := by
    simp only [NoRate, List.mem_cons, List.not_mem_nil, or_false, forall_eq_or_imp, forall_eq,
      Option.bind_eq_some_iff, forall_exists_index, and_imp]
    constructor
    · rintro ⟨h₁, h₂⟩
      exact ⟨fun name rule rules hr => h₁ rules hr name rule, fun name rule rules hr => h₂ rules hr name rule⟩
    · rintro ⟨h₁, h₂⟩
      exact ⟨fun rules hr name rule => h₁ name rule rules hr, fun rules hr name rule => h₂ name rule rules hr⟩
  rw [hrate]
  constructor
  · rintro ⟨p', hp', hon⟩
    obtain rfl := Option.some.inj (hp.symm.trans hp')
    exact ⟨fun name => map_writtenRule.mp ((hmethod name).symm.trans (hon.method name)),
      fun name => map_writtenRule.mp ((hcontrol name).symm.trans (hon.controlMethod name))⟩
  · rintro ⟨h₁, h₂⟩
    exact ⟨p, hp, hq, hm, hc, fun name => (hmethod name).trans (map_writtenRule.mpr (h₁ name)),
      fun name => (hcontrol name).trans (map_writtenRule.mpr (h₂ name))⟩

/-! ## A grant as the node takes it -/

/-- `parse` reads the content's text. -/
def decodeGrant (parse : String → Option Json) (methodOf : String → Method) (content : String) : Option UsageProfile :=
  (parse content).bind (UsageProfile.deserialize methodOf)

/-- Taking a grant leaves every method without a limit, whatever limits it writes. -/
theorem rule_handleGrantEvent {methodOf : String → Method} (hinj : Function.Injective methodOf)
    {parse : String → Option Json} {c : Controller} {now : Nat} {e : Event} {t : String} {j : Json}
    (ht : parseGrantTarget c.relayPubkey e = some t) (htakes : takes (slot c t) e.key = true)
    (hj : parse e.content = some j) (hgrant : IsGrant j) (name : String) :
    (handleGrantEvent (decodeGrant parse methodOf) c now e).rule .accessRate (.method t (methodOf name)) = none := by
  obtain ⟨p, hp, _, _, _, hmethod, _⟩ := UsageProfile.deserialize_of_isGrant hinj hgrant
  have hprofile : (handleGrantEvent (decodeGrant parse methodOf) c now e).getUsageProfile t = some p := by
    rw [getUsageProfile_handleGrantEvent _ _ _ _ ht htakes, decodeGrant, hj, Option.bind_some, hp]
    rfl
  unfold Stores.rule
  simp only [accessKeyPubkey, hprofile, Option.bind_some, UsageProfile.rule, hmethod]
  cases (j.get "methods").bind (·.get name) <;> rfl

/-! ## The grant the NIP gives as its example -/

def Method.known : List Method :=
  [.getInfo, .getBalance, .payInvoice, .payKeysend, .makeInvoice, .lookupInvoice, .listTransactions,
    .makeHoldInvoice, .cancelHoldInvoice, .settleHoldInvoice, .payOnchain, .makeNewAddress, .payOffer, .makeOffer,
    .lookupOffer, .lookupAddress, .listInvoices, .listOffers, .disableOffer, .listAddresses, .payBip321, .makeBip321,
    .subscribeNotifications, .estimateOnchainFees, .estimateRoutingFees]

def Method.ofStr (name : String) : Method := (Method.known.find? (·.asStr = name)).getD (.unknown name)

theorem Method.asStr_ofStr (name : String) : (Method.ofStr name).asStr = name := by
  unfold Method.ofStr
  cases h : Method.known.find? (·.asStr = name) with
  | none => rfl
  | some m => simpa using List.find?_some h

theorem Method.ofStr_injective : Function.Injective Method.ofStr :=
  Function.LeftInverse.injective Method.asStr_ofStr

def exampleGrant (getBalance : Json) : Json :=
  .obj [("methods", .obj [("get_info", .obj []), ("get_balance", getBalance), ("pay_invoice", .obj [])]),
    ("control", .obj [("connect_peer", .obj []), ("open_channel", .obj []), ("close_channel", .obj []),
      ("list_channels", .obj [])]),
    ("quota", .obj [("rate_per_micro", .int 1), ("max_capacity", .int 1000000)])]

def exampleRule : Json := .obj [("rate", .obj [("rate_per_micro", .int 10), ("max_capacity", .int 1000)])]

theorem grant_honoured_example :
    IsGrant (exampleGrant (.obj [])) ∧ ∃ p, UsageProfile.deserialize Method.ofStr (exampleGrant (.obj [])) = some p ∧
      Honours Method.ofStr (exampleGrant (.obj [])) p := by
  have hgrant : IsGrant (exampleGrant (.obj [])) := by
    simp [exampleGrant, IsGrant, IsAccessRule, IsLimit, u64Max, i64Max]
  refine ⟨hgrant, (grant_honoured Method.ofStr Method.ofStr_injective _ hgrant).mpr ?_⟩
  intro part hpart rules hrules name rule hrule
  have hempty : rule = .obj [] := by
    simp only [List.mem_cons, List.not_mem_nil, or_false] at hpart
    rcases hpart with rfl | rfl
    · obtain rfl := Option.some.inj hrules
      have hmem := Json.mem_of_lookup hrule
      simp only [List.mem_cons, Prod.mk.injEq, List.not_mem_nil, or_false] at hmem
      rcases hmem with ⟨_, h⟩ | ⟨_, h⟩ | ⟨_, h⟩ <;> exact h
    · obtain rfl := Option.some.inj hrules
      have hmem := Json.mem_of_lookup hrule
      simp only [List.mem_cons, Prod.mk.injEq, List.not_mem_nil, or_false] at hmem
      rcases hmem with ⟨_, h⟩ | ⟨_, h⟩ | ⟨_, h⟩ | ⟨_, h⟩ <;> exact h
  rw [hempty]
  rfl

/-- The written limit of `get_balance` reads as none. -/
theorem grant_honoured_fails :
    IsGrant (exampleGrant exampleRule) ∧ writtenRule exampleRule = ⟨some ⟨10, 1000⟩⟩ ∧
      (UsageProfile.deserialize Method.ofStr (exampleGrant exampleRule)).map
        (fun p => (p.methods.bind (·.lookup .getBalance), p.quota)) = some (some ⟨none⟩, some ⟨1, 1000000⟩) ∧
      ¬ ∃ p, UsageProfile.deserialize Method.ofStr (exampleGrant exampleRule) = some p ∧
        Honours Method.ofStr (exampleGrant exampleRule) p := by
  have hdecode : (UsageProfile.deserialize Method.ofStr (exampleGrant exampleRule)).map
      (fun p => (p.methods.bind (·.lookup .getBalance), p.quota)) = some (some ⟨none⟩, some ⟨1, 1000000⟩) := by
    decide
  refine ⟨?_, by decide, hdecode, ?_⟩
  · simp [exampleGrant, exampleRule, IsGrant, IsAccessRule, IsLimit, u64Max, i64Max]
  · rintro ⟨p, hp, hon⟩
    have hrule : (p.methods.bind (·.lookup .getBalance)) = some ⟨some ⟨10, 1000⟩⟩ := hon.method "get_balance"
    rw [hp] at hdecode
    simp [hrule] at hdecode

end LdkController
