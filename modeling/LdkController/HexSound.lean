import LdkController.Hex
import Mathlib.Data.Fintype.Basic

/-!
# What the hexadecimal decoder reads

The decoder takes the text pair by pair. A pair is read as a number, so it may
also be a plus sign and a digit; and a pair of bytes may cut a character. Both
are out of the grammar.
-/

namespace LdkController

open Lib

/-! ## The grammar -/

/-- The digit `c`, of either case, stands for `n`. -/
def HexValue (c : Char) (n : Nat) : Prop :=
  "0123456789abcdef".toList[n]? = some c ∨ "0123456789ABCDEF".toList[n]? = some c

instance (c : Char) (n : Nat) : Decidable (HexValue c n) := inferInstanceAs (Decidable (_ ∨ _))

def IsHexDigit (c : Char) : Prop := ∃ n, HexValue c n

/-- The bytes that two digits each stand for. -/
inductive Denotes : List Char → List UInt8 → Prop
  | nil : Denotes [] []
  | cons {c d : Char} {hi lo : Nat} {b : UInt8} {rest : List Char} {bytes : List UInt8} : HexValue c hi →
      HexValue d lo → b.toNat = 16 * hi + lo → Denotes rest bytes → Denotes (c :: d :: rest) (b :: bytes)

def IsHex (s : String) : Prop := s.length % 2 = 0 ∧ ∀ c ∈ s.toList, IsHexDigit c

/-- The decoder returns, accepts the texts of the grammar and no others, and gives what they denote. -/
structure DecodesGrammar (s : String) : Prop where
  returns : decodeHex s ≠ .panic
  accepts : (∃ bytes, decodeHex s = .ok bytes) ↔ IsHex s
  denoted : ∀ bytes, IsHex s → decodeHex s = .ok bytes → Denotes s.toList bytes

/-! ## Digits -/

theorem HexValue.spec {c : Char} {n : Nat} (h : HexValue c n) :
    n < 16 ∧ charToDigit16 c = some n ∧ c.utf8Size = 1 ∧ c ≠ '+' := by
  have hof : ∀ digits : List Char, (∀ m < 16, charToDigit16 (digits.getD m '+') = some m ∧
      (digits.getD m '+').utf8Size = 1 ∧ digits.getD m '+' ≠ '+') →
      ∀ m < 16, digits[m]? = some c → charToDigit16 c = some m ∧ c.utf8Size = 1 ∧ c ≠ '+' := by
    intro digits hdigits m hm hc
    have hget : digits.getD m '+' = c := by rw [List.getD_eq_getElem?_getD, hc, Option.getD_some]
    exact hget ▸ hdigits m hm
  have hlt : n < 16 := by
    rcases h with h | h
    · exact (List.getElem?_eq_some_iff.mp h).1
    · exact (List.getElem?_eq_some_iff.mp h).1
  rcases h with h | h
  · exact ⟨hlt, hof "0123456789abcdef".toList (by decide +kernel) n hlt h⟩
  · exact ⟨hlt, hof "0123456789ABCDEF".toList (by decide +kernel) n hlt h⟩

theorem toNat_le_of_le {c d : Char} (h : c ≤ d) : c.toNat ≤ d.toNat := UInt32.le_iff_toNat_le.mp (Char.le_def.mp h)

theorem hexValue_of_charToDigit16 {c : Char} {n : Nat} (h : charToDigit16 c = some n) : HexValue c n := by
  have hascii : ∀ m : Fin 128, ∀ n ∈ charToDigit16 (Char.ofNat m), HexValue (Char.ofNat m) n := by decide +kernel
  have hle : c.toNat < 128 := by
    unfold charToDigit16 at h
    by_cases hd : '0' ≤ c ∧ c ≤ '9'
    · exact (toNat_le_of_le hd.2).trans_lt (by decide)
    · rw [if_neg hd] at h
      by_cases hl : 'a' ≤ c ∧ c ≤ 'f'
      · exact (toNat_le_of_le hl.2).trans_lt (by decide)
      · rw [if_neg hl] at h
        by_cases hu : 'A' ≤ c ∧ c ≤ 'F'
        · exact (toNat_le_of_le hu.2).trans_lt (by decide)
        · rw [if_neg hu] at h
          cases h
  have hc := hascii ⟨c.toNat, hle⟩ n
  rw [Char.ofNat_toNat] at hc
  exact hc h

/-! ## Pairs -/

/-- The number parser reads two digits, or a plus sign and a digit. -/
def Readable (c d : Char) : Prop := (IsHexDigit c ∨ c = '+') ∧ IsHexDigit d

theorem u8FromStrRadix16_of_digits {c d : Char} {hi lo : Nat} (hc : HexValue c hi) (hd : HexValue d lo) :
    ∃ b, u8FromStrRadix16 c d = .ok b ∧ b.toNat = 16 * hi + lo := by
  obtain ⟨hhi, hcv, _, hplus⟩ := hc.spec
  obtain ⟨hlo, hdv, _, _⟩ := hd.spec
  refine ⟨UInt8.ofNat (16 * hi + lo), ?_, ?_⟩
  · unfold u8FromStrRadix16
    simp only [hdv, if_neg hplus, hcv]
  · rw [UInt8.toNat_ofNat']
    omega

theorem readable_iff {c d : Char} : Readable c d ↔ ∃ b, u8FromStrRadix16 c d = .ok b := by
  unfold u8FromStrRadix16
  constructor
  · intro h
    obtain ⟨hc, lo, hlo⟩ := h
    rw [hlo.spec.2.1]
    by_cases hplus : c = '+'
    · exact ⟨_, if_pos hplus⟩
    · obtain ⟨hi, hhi⟩ := hc.resolve_right hplus
      refine ⟨UInt8.ofNat (16 * hi + lo), ?_⟩
      simp only [if_neg hplus, hhi.spec.2.1]
  · intro h
    obtain ⟨b, h⟩ := h
    cases hd : charToDigit16 d with
    | none => rw [hd] at h; cases h
    | some lo =>
      refine ⟨?_, lo, hexValue_of_charToDigit16 hd⟩
      by_cases hplus : c = '+'
      · exact .inr hplus
      · rw [hd] at h
        simp only [if_neg hplus] at h
        cases hc : charToDigit16 c with
        | none => rw [hc] at h; cases h
        | some hi => exact .inl ⟨hi, hexValue_of_charToDigit16 hc⟩

theorem Readable.utf8Size {c d : Char} (h : Readable c d) : c.utf8Size = 1 ∧ d.utf8Size = 1 := by
  obtain ⟨hc, lo, hlo⟩ := h
  refine ⟨?_, hlo.spec.2.2.1⟩
  rcases hc with ⟨hi, hhi⟩ | rfl
  · exact hhi.spec.2.2.1
  · decide

/-- The first pair that is not readable is made of whole characters. -/
inductive Refused : List Char → Prop
  | pair {c d : Char} {rest : List Char} : c.utf8Size = 1 → d.utf8Size = 1 → ¬ Readable c d → Refused (c :: d :: rest)
  | char {c : Char} {rest : List Char} : c.utf8Size = 2 → Refused (c :: rest)
  | later {c d : Char} {rest : List Char} : Readable c d → Refused rest → Refused (c :: d :: rest)

/-! ## Texts -/

theorem decodeHexPairs_of_readable {c d : Char} (rest : List Char) (h : Readable c d) :
    ∃ b, decodeHexPairs (c :: d :: rest) = (do return b :: (← decodeHexPairs rest)) := by
  obtain ⟨b, hb⟩ := readable_iff.mp h
  obtain ⟨hc, hd⟩ := h.utf8Size
  exact ⟨b, by simp only [decodeHexPairs, hc, hd, if_true, hb]⟩

theorem err_of_refused {cs : List Char} (h : Refused cs) : ∃ e, decodeHexPairs cs = .err e := by
  induction h with
  | @pair c d rest hc hd hnot =>
    cases hread : u8FromStrRadix16 c d with
    | ok b => exact absurd (readable_iff.mpr ⟨b, hread⟩) hnot
    | error e => exact ⟨e, by simp only [decodeHexPairs, hc, hd, if_true, hread]⟩
  | @char c rest hc =>
    cases rest with
    | nil => exact ⟨_, if_pos hc⟩
    | cons d rest => exact ⟨"invalid digit found in string", by simp [decodeHexPairs, hc]⟩
  | later hread _ ih =>
    obtain ⟨e, he⟩ := ih
    obtain ⟨b, hb⟩ := decodeHexPairs_of_readable _ hread
    exact ⟨e, by rw [hb, he]; rfl⟩

theorem refused_of_err {e : String} : ∀ {cs : List Char}, decodeHexPairs cs = .err e → Refused cs
  | [], h => by cases h
  | [c], h => by
    by_cases hc : c.utf8Size = 2
    · exact .char hc
    · simp only [decodeHexPairs, if_neg hc] at h
      cases h
  | c :: d :: rest, h => by
    by_cases hread : Readable c d
    · obtain ⟨b, hb⟩ := decodeHexPairs_of_readable rest hread
      rw [hb] at h
      rcases Outcome.bind_eq_err.mp h with h | ⟨_, _, h⟩
      · exact .later hread (refused_of_err h)
      · cases h
    · by_cases hc : c.utf8Size = 1
      · by_cases hd : d.utf8Size = 1
        · exact .pair hc hd hread
        · simp only [decodeHexPairs, if_pos hc, if_neg hd] at h
          cases h
      · by_cases hc' : c.utf8Size = 2
        · exact .char hc'
        · simp only [decodeHexPairs, if_neg hc, if_neg hc'] at h
          cases h

theorem Refused.exists_not_digit {cs : List Char} (h : Refused cs) : ∃ c ∈ cs, ¬ IsHexDigit c := by
  induction h with
  | @pair c d rest _ _ hnot =>
    by_cases hc : IsHexDigit c
    · exact ⟨d, by simp, fun hd => hnot ⟨.inl hc, hd⟩⟩
    · exact ⟨c, by simp, hc⟩
  | @char c rest hc =>
    refine ⟨c, by simp, fun hdigit => ?_⟩
    obtain ⟨n, hn⟩ := hdigit
    rw [hn.spec.2.2.1] at hc
    cases hc
  | later _ _ ih =>
    obtain ⟨c, hmem, hc⟩ := ih
    exact ⟨c, List.mem_cons_of_mem _ (List.mem_cons_of_mem _ hmem), hc⟩

theorem exists_denotes : ∀ {cs : List Char}, cs.length % 2 = 0 → (∀ c ∈ cs, IsHexDigit c) →
    ∃ bytes, decodeHexPairs cs = .ok bytes ∧ Denotes cs bytes
  | [], _, _ => ⟨[], rfl, .nil⟩
  | [c], h, _ => by cases h
  | c :: d :: rest, h, hdigits => by
    obtain ⟨hi, hhi⟩ := hdigits c (by simp)
    obtain ⟨lo, hlo⟩ := hdigits d (by simp)
    obtain ⟨b, hb, hval⟩ := u8FromStrRadix16_of_digits hhi hlo
    have hlen : rest.length % 2 = 0 := by
      rw [List.length_cons, List.length_cons] at h
      omega
    obtain ⟨bytes, hrest, hden⟩ := exists_denotes hlen fun x hx => hdigits x (by simp [hx])
    refine ⟨b :: bytes, ?_, .cons hhi hlo hval hden⟩
    simp only [decodeHexPairs, hhi.spec.2.2.1, hlo.spec.2.2.1, if_true, hb, hrest, Outcome.ok_bind, Outcome.pure_eq]

theorem sum_utf8Size_of_digits {cs : List Char} (h : ∀ c ∈ cs, IsHexDigit c) :
    (cs.map Char.utf8Size).sum = cs.length := by
  induction cs with
  | nil => rfl
  | cons c cs ih =>
    obtain ⟨n, hn⟩ := h c List.mem_cons_self
    rw [List.map_cons, List.sum_cons, List.length_cons, ih fun x hx => h x (List.mem_cons_of_mem c hx), hn.spec.2.2.1,
      Nat.add_comm]

theorem decodeHex_of_isHex {s : String} (h : IsHex s) : ∃ bytes, decodeHex s = .ok bytes ∧ Denotes s.toList bytes := by
  obtain ⟨hlen, hdigits⟩ := h
  have heven : (s.toList.map Char.utf8Size).sum % 2 = 0 := by
    rw [sum_utf8Size_of_digits hdigits]
    exact hlen
  obtain ⟨bytes, hb, hden⟩ := exists_denotes hlen hdigits
  refine ⟨bytes, ?_, hden⟩
  unfold decodeHex
  rw [heven, if_neg (by decide), hb]

theorem decodesGrammar_of_err {s e : String} (he : decodeHex s = .err e) (hnot : ¬ IsHex s) : DecodesGrammar s where
  returns h := by rw [he] at h; cases h
  accepts := by
    refine iff_of_false (fun h => ?_) hnot
    obtain ⟨bytes, hb⟩ := h
    rw [he] at hb; cases hb
  denoted _ h _ := absurd h hnot

theorem decodesGrammar_of_isHex {s : String} (h : IsHex s) : DecodesGrammar s := by
  obtain ⟨bytes, hb, hden⟩ := decodeHex_of_isHex h
  refine ⟨fun hp => ?_, ⟨fun _ => h, fun _ => ⟨bytes, hb⟩⟩, fun bytes' _ hb' => ?_⟩
  · rw [hb] at hp; cases hp
  · rw [hb] at hb'
    exact Outcome.ok.inj hb' ▸ hden

/-- **The decoder meets its grammar** on a text of odd size, on hexadecimal digits only, and where the first pair
that is neither two digits nor a plus sign and a digit cuts no character. -/
theorem decodesGrammar_iff (s : String) : DecodesGrammar s ↔
    (s.toList.map Char.utf8Size).sum % 2 ≠ 0 ∨ (∀ c ∈ s.toList, IsHexDigit c) ∨ Refused s.toList := by
  by_cases hodd : (s.toList.map Char.utf8Size).sum % 2 ≠ 0
  · refine iff_of_true (decodesGrammar_of_err (if_pos hodd) fun h => hodd ?_) (.inl hodd)
    rw [sum_utf8Size_of_digits h.2]
    exact h.1
  · have hpairs : decodeHex s = decodeHexPairs s.toList := if_neg hodd
    constructor
    · intro h
      cases hres : decodeHexPairs s.toList with
      | ok bytes => exact .inr (.inl (h.accepts.mp ⟨bytes, hpairs.trans hres⟩).2)
      | err e => exact .inr (.inr (refused_of_err hres))
      | panic => exact absurd (hpairs.trans hres) h.returns
    · intro h
      rcases h with h | h | h
      · exact absurd h hodd
      · refine decodesGrammar_of_isHex ⟨?_, h⟩
        rw [sum_utf8Size_of_digits h] at hodd
        exact not_not.mp hodd
      · obtain ⟨e, he⟩ := err_of_refused h
        obtain ⟨c, hmem, hc⟩ := h.exists_not_digit
        exact decodesGrammar_of_err (hpairs.trans he) fun hhex => hc (hhex.2 c hmem)

/-- A plus sign is read, and a character across two pairs stops the program. -/
theorem decodeHex_not_grammar : (decodeHex "+a" = .ok [10] ∧ ¬ DecodesGrammar "+a") ∧
    (decodeHex "aéa" = .panic ∧ ¬ DecodesGrammar "aéa") ∧ ¬ ∀ s, DecodesGrammar s := by
  have hplus : ¬ DecodesGrammar "+a" := by
    intro h
    obtain ⟨n, hn⟩ := (h.accepts.mp ⟨[10], by decide⟩).2 '+' (by decide)
    exact hn.spec.2.2.2 rfl
  have hcut : ¬ DecodesGrammar "aéa" := fun h => h.returns (by decide)
  exact ⟨⟨by decide, hplus⟩, ⟨by decide, hcut⟩, fun h => hplus (h "+a")⟩

end LdkController
