import LdkController.ProfileJson
import LdkController.JsonWrite

/-!
# Writing a profile and reading it back

The serializers derived beside the deserializers (`src/usage_profile/mod.rs`,
`src/rate_limit_rule.rs`). A capacity is a signed number and is written whatever
its sign, but a negative one is refused on reading: the profiles that come back
are the valid ones, and they come back as they were.
-/

namespace LdkController

open Lib

def RateLimitRule.serialize (r : RateLimitRule) : Json :=
  .obj [("rate_per_micro", .int r.ratePerMicro), ("max_capacity", .int r.maxCapacity)]

def MethodAccessRule.serialize (m : MethodAccessRule) : Json :=
  .obj [("access_rate", Json.ofOption RateLimitRule.serialize m.accessRate)]

def UsageProfile.serialize (p : UsageProfile) : Json :=
  .obj [("quota", Json.ofOption RateLimitRule.serialize p.quota),
    ("methods", Json.ofOption (Json.ofTable Method.asStr MethodAccessRule.serialize) p.methods),
    ("control", Json.ofOption (Json.ofTable id MethodAccessRule.serialize) p.control)]

/-- The fields are a `u64` and an `i64`. -/
def RateLimitRule.Fits (r : RateLimitRule) : Prop :=
  r.ratePerMicro ≤ u64Max ∧ i64Min ≤ r.maxCapacity ∧ r.maxCapacity ≤ i64Max

/-- Equal as hash maps are: in every lookup. -/
structure UsageProfile.Same (p' p : UsageProfile) : Prop where
  quota : p'.quota = p.quota
  methods : p'.methods.isSome = p.methods.isSome
  control : p'.control.isSome = p.control.isSome
  method : ∀ m, p'.methods.bind (·.lookup m) = p.methods.bind (·.lookup m)
  controlMethod : ∀ name, p'.control.bind (·.lookup name) = p.control.bind (·.lookup name)

/-! ## One limit -/

theorem deserializeU64_int {n : Nat} (h : n ≤ u64Max) : deserializeU64 (.int n) = some n := by
  simp [deserializeU64, h]

theorem deserializeMaxCapacity_neg {n : Int} (h : n < 0) : deserializeMaxCapacity (.int n) = none := by
  by_cases hr : i64Min ≤ n ∧ n ≤ i64Max
  · simp [deserializeMaxCapacity, deserializeI64, hr, h]
  · simp only [deserializeMaxCapacity, deserializeI64, if_neg hr]
    rfl

theorem RateLimitRule.deserialize_serialize {r : RateLimitRule} (h : r.Fits) :
    RateLimitRule.deserialize r.serialize = if 0 ≤ r.maxCapacity then some r else none := by
  obtain ⟨hrate, _, hmax⟩ := h
  simp only [RateLimitRule.serialize, RateLimitRule.deserialize]
  rw [Json.field_of_lookup (by simp) rfl, deserializeU64_int hrate, Json.field_of_lookup (by simp) rfl]
  by_cases hcap : 0 ≤ r.maxCapacity
  · rw [deserializeMaxCapacity_int hcap hmax, if_pos hcap]
    rfl
  · rw [deserializeMaxCapacity_neg (Int.not_le.mp hcap), if_neg hcap]
    rfl

theorem RateLimitRule.serialize_ne_null (r : RateLimitRule) : r.serialize ≠ .null := Json.noConfusion

/-! ## One method's rule -/

theorem MethodAccessRule.deserialize_serialize {m : MethodAccessRule} (h : ∀ r ∈ m.accessRate, r.Fits ∧ 0 ≤ r.maxCapacity) :
    MethodAccessRule.deserialize m.serialize = some m := by
  have hrate : Json.option RateLimitRule.deserialize (Json.ofOption RateLimitRule.serialize m.accessRate) =
      some m.accessRate := by
    apply Json.option_ofOption _ RateLimitRule.serialize_ne_null
    intro r hr
    rw [RateLimitRule.deserialize_serialize (h r hr).1, if_pos (h r hr).2]
  simp only [MethodAccessRule.serialize, MethodAccessRule.deserialize]
  rw [Json.field_of_lookup (by simp) rfl, hrate]
  rfl

section
variable {K : Type} [DecidableEq K] {key : String → K} {name : K → String} {o : Option (Table K MethodAccessRule)}

theorem rules_round_trip (key : String → K) (name : K → String) (hname : ∀ t ∈ o, ∀ k ∈ t, key (name k) = k)
    (h : ∀ r ∈ o.elim [] (·.entries.filterMap (·.2.accessRate)), r.Fits ∧ 0 ≤ r.maxCapacity) :
    ∃ o', Json.option (Json.table key MethodAccessRule.deserialize)
        (Json.ofOption (Json.ofTable name MethodAccessRule.serialize) o) = some o' ∧
      o'.isSome = o.isSome ∧ ∀ k, o'.bind (·.lookup k) = o.bind (·.lookup k) := by
  cases o with
  | none => exact ⟨none, rfl, rfl, fun _ => rfl⟩
  | some t =>
    obtain ⟨t', ht', hlk⟩ : ∃ t', Json.table key MethodAccessRule.deserialize
        (Json.ofTable name MethodAccessRule.serialize t) = some t' ∧ ∀ k, t'.lookup k = t.lookup k := by
      apply Json.table_ofTable
      intro e he
      refine ⟨hname t rfl e.1 (AList.mem_keys.mpr (List.mem_map_of_mem he)), ?_⟩
      apply MethodAccessRule.deserialize_serialize
      intro r hr
      exact h r (List.mem_filterMap.mpr ⟨e, he, hr⟩)
    refine ⟨some t', ?_, rfl, hlk⟩
    simp only [Json.ofOption, Json.ofTable, Json.option]
    simp only [Json.ofTable] at ht'
    rw [ht']
    rfl

end

/-! ## The profile -/

section
variable {methodOf : String → Method} {p : UsageProfile}

theorem UsageProfile.mem_rules {r : RateLimitRule} :
    r ∈ p.rules ↔ r ∈ p.quota ∨ r ∈ p.methods.elim [] (·.entries.filterMap (·.2.accessRate)) ∨
      r ∈ p.control.elim [] (·.entries.filterMap (·.2.accessRate)) := by
  unfold UsageProfile.rules
  rw [List.mem_append, List.mem_append, Option.mem_toList, or_assoc]
  rfl

theorem UsageProfile.deserialize_serialize_eq :
    UsageProfile.deserialize methodOf p.serialize =
      (Json.option RateLimitRule.deserialize (Json.ofOption RateLimitRule.serialize p.quota)).bind fun quota =>
        (deserializeMethods methodOf
          (Json.ofOption (Json.ofTable Method.asStr MethodAccessRule.serialize) p.methods)).bind fun methods =>
          (deserializeControl (Json.ofOption (Json.ofTable id MethodAccessRule.serialize) p.control)).map fun control =>
            ⟨quota, methods, control⟩ := by
  simp only [UsageProfile.serialize, UsageProfile.deserialize]
  rw [Json.field_of_lookup (by simp) rfl, Json.field_of_lookup (by simp) rfl, Json.field_of_lookup (by simp) rfl]
  cases Json.option RateLimitRule.deserialize (Json.ofOption RateLimitRule.serialize p.quota) with
  | none => rfl
  | some quota =>
    cases deserializeMethods methodOf (Json.ofOption (Json.ofTable Method.asStr MethodAccessRule.serialize) p.methods) with
    | none => rfl
    | some methods =>
      cases deserializeControl (Json.ofOption (Json.ofTable id MethodAccessRule.serialize) p.control) <;> rfl

theorem UsageProfile.deserialize_serialize (hfits : ∀ r ∈ p.rules, r.Fits)
    (hname : ∀ t ∈ p.methods, ∀ m ∈ t, methodOf m.asStr = m) (hvalid : p.Valid) :
    ∃ p', UsageProfile.deserialize methodOf p.serialize = some p' ∧ p'.Same p := by
  have hrule : ∀ r ∈ p.rules, r.Fits ∧ 0 ≤ r.maxCapacity := fun r hr => ⟨hfits r hr, hvalid r hr⟩
  have hquota : Json.option RateLimitRule.deserialize (Json.ofOption RateLimitRule.serialize p.quota) = some p.quota := by
    apply Json.option_ofOption _ RateLimitRule.serialize_ne_null
    intro r hr
    obtain ⟨hr, hcap⟩ := hrule r (mem_rules.mpr (.inl hr))
    rw [RateLimitRule.deserialize_serialize hr, if_pos hcap]
  obtain ⟨ms, hms, hmsome, hmlk⟩ := rules_round_trip methodOf Method.asStr hname
    fun r hr => hrule r (mem_rules.mpr (.inr (.inl hr)))
  obtain ⟨cs, hcs, hcsome, hclk⟩ := rules_round_trip id id (o := p.control) (fun _ _ _ _ => rfl)
    fun r hr => hrule r (mem_rules.mpr (.inr (.inr hr)))
  refine ⟨⟨p.quota, ms, cs⟩, ?_, rfl, hmsome, hcsome, hmlk, hclk⟩
  rw [deserialize_serialize_eq, hquota, Option.bind_some, deserializeMethods, hms, Option.bind_some, deserializeControl,
    hcs]
  rfl

end

end LdkController
