import LdkController.Arena
import LdkController.Nip47
import LdkController.RateState

/-!
# The access store

`src/state/store/access_store.rs`. The store is two maps of shared rate states,
one for each context in which a request is charged. A `SharedRateState` is a
handle: it outlives the entry it was taken from.
-/

namespace LdkController

open Lib

inductive AccessKey where
  | method (pubkey : String) (method : Method)
  | quota (pubkey : String)
deriving DecidableEq, Repr

inductive AccessErrorContext where
  | accessRate | quota
deriving DecidableEq, Repr

structure AccessState where
  accessRate : Arena AccessKey RateState
  quota : Arena AccessKey RateState

/-- `store` is the map that allocated the cell. -/
structure SharedRateState where
  store : AccessErrorContext
  cell : Nat
deriving DecidableEq, Repr

def accessKeyPubkey : AccessKey → String
  | .method pubkey _ => pubkey
  | .quota pubkey => pubkey

namespace AccessState

def empty : AccessState := ⟨.empty, .empty⟩

def map (s : AccessState) : AccessErrorContext → Arena AccessKey RateState
  | .accessRate => s.accessRate
  | .quota => s.quota

def getAccessRateState (s : AccessState) (key : AccessKey) : Option SharedRateState :=
  (s.accessRate.handle? key).map (⟨.accessRate, ·⟩)

def getQuotaState (s : AccessState) (key : AccessKey) : Option SharedRateState :=
  (s.quota.handle? key).map (⟨.quota, ·⟩)

def insertAccessRateState (s : AccessState) (key : AccessKey) (state : RateState) : AccessState :=
  { s with accessRate := s.accessRate.insert key state }

def insertQuotaState (s : AccessState) (key : AccessKey) (state : RateState) : AccessState :=
  { s with quota := s.quota.insert key state }

def retainAccessRateStates (s : AccessState) (keep : AccessKey → Bool) : AccessState :=
  { s with accessRate := s.accessRate.retain fun k _ => keep k }

def retainQuotaStates (s : AccessState) (keep : AccessKey → Bool) : AccessState :=
  { s with quota := s.quota.retain fun k _ => keep k }

def clearAllStates (s : AccessState) : AccessState := ⟨s.accessRate.clear, s.quota.clear⟩

def read (s : AccessState) (h : SharedRateState) : RateState := (s.map h.store).cells h.cell

def write (s : AccessState) (h : SharedRateState) (v : RateState) : AccessState :=
  match h.store with
  | .accessRate => { s with accessRate := s.accessRate.write h.cell v }
  | .quota => { s with quota := s.quota.write h.cell v }

/-! ## Reading back -/

@[simp] theorem map_empty (c : AccessErrorContext) : empty.map c = .empty := by cases c <;> rfl

theorem map_write (s : AccessState) (h : SharedRateState) (v : RateState) (c : AccessErrorContext) :
    (s.write h v).map c = if c = h.store then (s.map c).write h.cell v else s.map c := by
  obtain ⟨store, cell⟩ := h
  cases store <;> cases c <;> rfl

@[simp] theorem map_clearAllStates (s : AccessState) (c : AccessErrorContext) :
    s.clearAllStates.map c = (s.map c).clear := by cases c <;> rfl

@[simp] theorem read_write_self (s : AccessState) (h : SharedRateState) (v : RateState) :
    (s.write h v).read h = v := by
  unfold read
  rw [map_write, if_pos rfl, Arena.cells_write_self]

theorem read_write_of_ne (s : AccessState) {h h' : SharedRateState} (v : RateState) (hne : h' ≠ h) :
    (s.write h v).read h' = s.read h' := by
  unfold read
  rw [map_write]
  split
  · rename_i hs
    apply Arena.cells_write_of_ne
    intro hc
    exact hne (by cases h; cases h'; simp_all)
  · rfl

@[simp] theorem handle?_write (s : AccessState) (h : SharedRateState) (v : RateState) (c : AccessErrorContext)
    (k : AccessKey) : ((s.write h v).map c).handle? k = (s.map c).handle? k := by
  rw [map_write]; split <;> simp

@[simp] theorem next_write (s : AccessState) (h : SharedRateState) (v : RateState) (c : AccessErrorContext) :
    ((s.write h v).map c).next = (s.map c).next := by
  rw [map_write]; split <;> simp

@[simp] theorem write_read_self (s : AccessState) (h : SharedRateState) : s.write h (s.read h) = s := by
  obtain ⟨store, cell⟩ := h
  cases store <;> simp [write, read, map]

theorem at?_write (s : AccessState) (h : SharedRateState) (v : RateState) (c : AccessErrorContext) (k : AccessKey) :
    ((s.write h v).map c).at? k =
      if c = h.store ∧ (s.map c).handle? k = some h.cell then some v else (s.map c).at? k := by
  rw [map_write]
  by_cases hc : c = h.store
  · rw [if_pos hc, Arena.at?_write]; simp [hc]
  · rw [if_neg hc, if_neg fun hh => hc hh.1]

end AccessState

end LdkController
