import Mathlib.Algebra.BigOperators.Group.Finset.Basic
import Mathlib.Algebra.Order.BigOperators.Group.Finset

/-!
# Ledgers

A ledger numbers the charges in the order they were posted and remembers what
each still owes to each account. An account that is opened anew is owed
nothing, and a charge that is given back owes nothing to any account.
-/

namespace Lib

structure Ledger (A : Type) where
  count : Nat
  owed : A → Nat → Nat

inductive Entry (A : Type) where
  | reopen (accounts : A → Bool)
  | charge (amounts : A → Nat)
  | giveBack (i : Nat)

namespace Ledger

variable {A : Type}

def empty : Ledger A := ⟨0, fun _ _ => 0⟩

def post (l : Ledger A) : Entry A → Ledger A
  | .reopen accounts => { l with owed := fun a i => if accounts a then 0 else l.owed a i }
  | .charge amounts => ⟨l.count + 1, fun a i => if i = l.count then amounts a else l.owed a i⟩
  | .giveBack i => { l with owed := fun a j => if j = i then 0 else l.owed a j }

def total (l : Ledger A) (a : A) : Nat := ∑ i ∈ Finset.range l.count, l.owed a i

@[simp] theorem count_reopen (l : Ledger A) (accounts : A → Bool) : (l.post (.reopen accounts)).count = l.count := rfl

@[simp] theorem count_charge (l : Ledger A) (amounts : A → Nat) : (l.post (.charge amounts)).count = l.count + 1 := rfl

@[simp] theorem count_giveBack (l : Ledger A) (i : Nat) : (l.post (.giveBack i)).count = l.count := rfl

theorem owed_le_total (l : Ledger A) (a : A) {i : Nat} (hi : i < l.count) : l.owed a i ≤ l.total a :=
  Finset.single_le_sum (fun _ _ => Nat.zero_le _) (Finset.mem_range.mpr hi)

theorem owed_reopen (l : Ledger A) (accounts : A → Bool) (a : A) (i : Nat) :
    (l.post (.reopen accounts)).owed a i = if accounts a then 0 else l.owed a i := rfl

theorem owed_charge (l : Ledger A) (amounts : A → Nat) (a : A) (i : Nat) :
    (l.post (.charge amounts)).owed a i = if i = l.count then amounts a else l.owed a i := rfl

theorem owed_giveBack (l : Ledger A) (i : Nat) (a : A) (j : Nat) :
    (l.post (.giveBack i)).owed a j = if j = i then 0 else l.owed a j := rfl

theorem total_reopen (l : Ledger A) (accounts : A → Bool) (a : A) :
    (l.post (.reopen accounts)).total a = if accounts a then 0 else l.total a := by
  unfold total
  simp only [owed_reopen, count_reopen]
  by_cases h : accounts a = true
  · simp only [if_pos h, Finset.sum_const_zero]
  · simp only [if_neg h]

theorem total_charge (l : Ledger A) (amounts : A → Nat) (a : A) :
    (l.post (.charge amounts)).total a = l.total a + amounts a := by
  unfold total
  rw [count_charge, Finset.sum_range_succ, owed_charge, if_pos rfl]
  congr 1
  apply Finset.sum_congr rfl
  intro i hi
  rw [owed_charge, if_neg (Nat.ne_of_lt (Finset.mem_range.mp hi))]

theorem total_giveBack (l : Ledger A) {i : Nat} (hi : i < l.count) (a : A) :
    (l.post (.giveBack i)).total a + l.owed a i = l.total a := by
  have hmem : i ∈ Finset.range l.count := Finset.mem_range.mpr hi
  have hrest : ∑ j ∈ (Finset.range l.count).erase i, (l.post (.giveBack i)).owed a j =
      ∑ j ∈ (Finset.range l.count).erase i, l.owed a j := by
    apply Finset.sum_congr rfl
    intro j hj
    rw [owed_giveBack, if_neg (Finset.ne_of_mem_erase hj)]
  unfold total
  rw [count_giveBack, ← Finset.add_sum_erase _ _ hmem, ← Finset.add_sum_erase _ (l.owed a) hmem, hrest, owed_giveBack,
    if_pos rfl]
  omega

end Ledger

end Lib
