import LdkController.FixedWidth

/-!
# Short channel ids

`format_scid` and `parse_scid` of `src/lightning/ldk_service.rs`: block, index of
the transaction and index of the output, packed into a `u64` and written as
three decimals. What is formatted is parsed back.
-/

namespace LdkController

open Lib

def formatScid (scid : UInt64) : String :=
  let block := scid >>> 40
  let tx := scid >>> 16 &&& 0xFFFFFF
  let vout := scid &&& 0xFFFF
  toString block.toNat ++ "x" ++ toString tx.toNat ++ "x" ++ toString vout.toNat

/-- `str::parse` at `u64`: digits, after a plus sign if there is one. -/
def parseU64 (s : List Char) : Option UInt64 :=
  let digits := match s with
    | '+' :: rest => rest
    | _ => s
  if digits.isEmpty || !digits.all Char.isDigit then none
  else
    let n := Nat.ofDigitChars 10 digits 0
    if n ≤ u64Max then some (UInt64.ofNat n) else none

def parseScid (s : String) : Option UInt64 :=
  match s.toList.splitOn 'x' with
  | [block, tx, vout] => do
    let block ← parseU64 block
    let tx ← parseU64 tx
    let vout ← parseU64 vout
    return block <<< 40 ||| tx <<< 16 ||| vout
  | _ => none

/-! ## Reading back what was written -/

theorem isDigit_of_mem_toString {n : Nat} {c : Char} (h : c ∈ (toString n).toList) : c.isDigit = true := by
  have heq : (toString n).toList = Nat.toDigits 10 n := by
    show (Nat.repr n).toList = _
    rw [Nat.repr_eq_ofList_toDigits, String.toList_ofList]
  rw [heq] at h
  exact Nat.isDigit_of_mem_toDigits (by decide) (by decide) h

theorem parseU64_toString (n : UInt64) : parseU64 (toString n.toNat).toList = some n := by
  have heq : (toString n.toNat).toList = Nat.toDigits 10 n.toNat := by
    show (Nat.repr n.toNat).toList = _
    rw [Nat.repr_eq_ofList_toDigits, String.toList_ofList]
  have hplus : ∀ rest, (toString n.toNat).toList ≠ '+' :: rest := by
    intro rest h
    have hmem : '+' ∈ (toString n.toNat).toList := by rw [h]; exact List.mem_cons_self
    exact absurd (isDigit_of_mem_toString hmem) (by decide)
  have hall : (toString n.toNat).toList.all Char.isDigit = true :=
    List.all_eq_true.mpr fun c hc => isDigit_of_mem_toString hc
  have hne : (toString n.toNat).toList.isEmpty = false := by
    rw [heq, List.isEmpty_eq_false_iff]
    exact Nat.toDigits_ne_nil
  have hval : Nat.ofDigitChars 10 (toString n.toNat).toList 0 = n.toNat := by
    rw [heq]
    exact Nat.ofDigitChars_toDigits (by decide) (by decide)
  have hle : n.toNat ≤ u64Max := Nat.le_of_lt_succ n.toNat_lt
  generalize (toString n.toNat).toList = s at hplus hall hne hval
  unfold parseU64
  split
  · exact absurd rfl (hplus _)
  · simp only [hne, hall, hval, if_pos hle, Bool.not_true, Bool.or_false, UInt64.ofNat_toNat]
    rfl

theorem toNat_block (scid : UInt64) : (scid >>> 40).toNat = scid.toNat / 2 ^ 40 := by
  simp [Nat.shiftRight_eq_div_pow]

theorem toNat_tx (scid : UInt64) : (scid >>> 16 &&& 0xFFFFFF).toNat = scid.toNat / 2 ^ 16 % 2 ^ 24 := by
  have hmask := Nat.and_two_pow_sub_one_eq_mod (scid.toNat / 2 ^ 16) 24
  simpa [Nat.shiftRight_eq_div_pow] using hmask

theorem toNat_vout (scid : UInt64) : (scid &&& 0xFFFF).toNat = scid.toNat % 2 ^ 16 := by
  have hmask := Nat.and_two_pow_sub_one_eq_mod scid.toNat 16
  simpa using hmask

/-- Fields of 24, 24 and 16 bits do not overlap. -/
theorem toNat_packed {block tx vout : UInt64} (hb : block.toNat < 2 ^ 24) (ht : tx.toNat < 2 ^ 24)
    (hv : vout.toNat < 2 ^ 16) :
    (block <<< 40 ||| tx <<< 16 ||| vout).toNat = 2 ^ 40 * block.toNat + 2 ^ 16 * tx.toNat + vout.toNat := by
  have hblock : (block <<< 40).toNat = 2 ^ 40 * block.toNat := by
    simp [Nat.shiftLeft_eq]
    omega
  have htx : (tx <<< 16).toNat = 2 ^ 16 * tx.toNat := by
    simp [Nat.shiftLeft_eq]
    omega
  have hlow : 2 ^ 16 * tx.toNat + vout.toNat < 2 ^ 40 := by omega
  rw [UInt64.toNat_or, UInt64.toNat_or, hblock, htx, Nat.or_assoc, ← Nat.two_pow_add_eq_or_of_lt hv,
    ← Nat.two_pow_add_eq_or_of_lt hlow, Nat.add_assoc]

theorem block_lt (scid : UInt64) : (scid >>> 40).toNat < 2 ^ 24 := by
  rw [toNat_block]
  exact Nat.div_lt_of_lt_mul scid.toNat_lt

theorem tx_lt (scid : UInt64) : (scid >>> 16 &&& 0xFFFFFF).toNat < 2 ^ 24 := by
  rw [toNat_tx]
  exact Nat.mod_lt _ (by decide)

theorem vout_lt (scid : UInt64) : (scid &&& 0xFFFF).toNat < 2 ^ 16 := by
  rw [toNat_vout]
  exact Nat.mod_lt _ (by decide)

theorem repacked (scid : UInt64) :
    (scid >>> 40) <<< 40 ||| (scid >>> 16 &&& 0xFFFFFF) <<< 16 ||| (scid &&& 0xFFFF) = scid := by
  apply UInt64.toNat_inj.mp
  rw [toNat_packed (block_lt scid) (tx_lt scid) (vout_lt scid), toNat_block, toNat_tx, toNat_vout]
  omega

theorem splitOn_formatScid (scid : UInt64) :
    (formatScid scid).toList.splitOn 'x' = [(toString (scid >>> 40).toNat).toList,
      (toString (scid >>> 16 &&& 0xFFFFFF).toNat).toList, (toString (scid &&& 0xFFFF).toNat).toList] := by
  have hx : ∀ n : Nat, 'x' ∉ (toString n).toList := fun n h => absurd (isDigit_of_mem_toString h) (by decide)
  have hlist : (formatScid scid).toList = (toString (scid >>> 40).toNat).toList ++
      'x' :: ((toString (scid >>> 16 &&& 0xFFFFFF).toNat).toList ++
        'x' :: (toString (scid &&& 0xFFFF).toNat).toList) := by
    simp [formatScid]
  rw [hlist, List.splitOn_append_cons_self_of_not_mem (hx _), List.splitOn_append_cons_self_of_not_mem (hx _),
    List.splitOn_eq_singleton (hx _)]

theorem parseScid_formatScid (scid : UInt64) : parseScid (formatScid scid) = some scid := by
  unfold parseScid
  rw [splitOn_formatScid]
  simp only [parseU64_toString]
  exact congrArg some (repacked scid)

theorem formatScid_injective : Function.Injective formatScid := by
  intro a b h
  have := parseScid_formatScid a
  rw [h, parseScid_formatScid] at this
  exact (Option.some.inj this).symm

end LdkController
