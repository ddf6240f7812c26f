import LdkController.LdkService
import LdkController.Outcome
import Mathlib.Algebra.GroupWithZero.Nat

/-!
# Hexadecimal text

`hex_payment_hash` of `src/lib.rs` and `decode_hex` of
`src/lightning/ldk_service.rs`. The decoder slices the text by bytes, so it
panics where a slice would cut a character.
-/

namespace LdkController

open Lib

/-- `{:02x}`. -/
def formatHexByte (b : UInt8) : String := String.ofList [hexDigit (b.toNat / 16), hexDigit (b.toNat % 16)]

def hexPaymentHash (bytes : List UInt8) : String := bytes.foldl (fun out b => out ++ formatHexByte b) ""

def charToDigit16 (c : Char) : Option Nat :=
  if '0' ≤ c ∧ c ≤ '9' then some (c.toNat - 48)
  else if 'a' ≤ c ∧ c ≤ 'f' then some (c.toNat - 87)
  else if 'A' ≤ c ∧ c ≤ 'F' then some (c.toNat - 55)
  else none

/-- `u8::from_str_radix(_, 16)` on a text of two bytes; a leading plus sign is accepted. -/
def u8FromStrRadix16 (c d : Char) : Except String UInt8 :=
  match charToDigit16 d with
  | none => .error "invalid digit found in string"
  | some lo =>
    if c = '+' then .ok (UInt8.ofNat lo)
    else
      match charToDigit16 c with
      | none => .error "invalid digit found in string"
      | some hi => .ok (UInt8.ofNat (16 * hi + lo))

/-- The steps of the iterator, each on the next two bytes. -/
def decodeHexPairs : List Char → Outcome String (List UInt8)
  | [] => .ok []
  | [c] => if c.utf8Size = 2 then .err "invalid digit found in string" else .panic
  | c :: d :: rest =>
    if c.utf8Size = 1 then
      if d.utf8Size = 1 then
        match u8FromStrRadix16 c d with
        | .error e => .err e
        | .ok b => do return b :: (← decodeHexPairs rest)
      else .panic
    else if c.utf8Size = 2 then .err "invalid digit found in string"
    else .panic

def decodeHex (s : String) : Outcome String (List UInt8) :=
  if (s.toList.map Char.utf8Size).sum % 2 ≠ 0 then .err "odd-length hex string" else decodeHexPairs s.toList

/-! ## Reading back what was written -/

theorem hexDigit_spec {n : Nat} (h : n < 16) :
    charToDigit16 (hexDigit n) = some n ∧ (hexDigit n).utf8Size = 1 ∧ hexDigit n ≠ '+' := by
  have hall : ∀ m : Fin 16, charToDigit16 (hexDigit m) = some m.1 ∧ (hexDigit m).utf8Size = 1 ∧ hexDigit m ≠ '+' := by
    decide
  exact hall ⟨n, h⟩

theorem toList_hexPaymentHash (bytes : List UInt8) :
    (hexPaymentHash bytes).toList = bytes.flatMap fun b => [hexDigit (b.toNat / 16), hexDigit (b.toNat % 16)] := by
  have h : ∀ (l : List UInt8) (out : String), (l.foldl (fun out b => out ++ formatHexByte b) out).toList =
      out.toList ++ l.flatMap fun b => [hexDigit (b.toNat / 16), hexDigit (b.toNat % 16)] := by
    intro l
    induction l with
    | nil => simp
    | cons b l ih =>
      intro out
      rw [List.foldl_cons, ih, String.toList_append, formatHexByte, String.toList_ofList, List.append_assoc,
        List.flatMap_cons]
  exact (h bytes "").trans (by simp)

theorem u8FromStrRadix16_format (b : UInt8) :
    u8FromStrRadix16 (hexDigit (b.toNat / 16)) (hexDigit (b.toNat % 16)) = .ok b := by
  have hb := b.toNat_lt
  obtain ⟨hhi, _, hplus⟩ := hexDigit_spec (n := b.toNat / 16) (by omega)
  obtain ⟨hlo, _, _⟩ := hexDigit_spec (n := b.toNat % 16) (by omega)
  unfold u8FromStrRadix16
  simp only [hlo, if_neg hplus, hhi]
  rw [Nat.div_add_mod, UInt8.ofNat_toNat]

theorem utf8Size_formatHexByte (b : UInt8) :
    (hexDigit (b.toNat / 16)).utf8Size = 1 ∧ (hexDigit (b.toNat % 16)).utf8Size = 1 := by
  have hb := b.toNat_lt
  exact ⟨(hexDigit_spec (by omega)).2.1, (hexDigit_spec (by omega)).2.1⟩

theorem decodeHex_hexPaymentHash (bytes : List UInt8) : decodeHex (hexPaymentHash bytes) = .ok bytes := by
  have hsize : ∀ l : List UInt8, ((l.flatMap fun b =>
      [hexDigit (b.toNat / 16), hexDigit (b.toNat % 16)]).map Char.utf8Size).sum % 2 = 0 := by
    intro l
    induction l with
    | nil => rfl
    | cons b l ih =>
      obtain ⟨hhi, hlo⟩ := utf8Size_formatHexByte b
      simp only [List.flatMap_cons, List.map_append, List.sum_append, List.map_cons, List.map_nil, List.sum_cons,
        List.sum_nil, hhi, hlo]
      omega
  have hpairs : ∀ l : List UInt8, decodeHexPairs (l.flatMap fun b =>
      [hexDigit (b.toNat / 16), hexDigit (b.toNat % 16)]) = .ok l := by
    intro l
    induction l with
    | nil => rfl
    | cons b l ih =>
      obtain ⟨hhi, hlo⟩ := utf8Size_formatHexByte b
      simp only [List.flatMap_cons, List.cons_append, List.nil_append, decodeHexPairs, hhi, hlo, if_true,
        u8FromStrRadix16_format, ih, Outcome.ok_bind, Outcome.pure_eq]
  unfold decodeHex
  rw [toList_hexPaymentHash, if_neg (by rw [hsize]; decide), hpairs]

end LdkController
