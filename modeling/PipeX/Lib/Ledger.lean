/-
  PipeX.Lib.Ledger

  Handles that are acquired and released, such as the descriptors of a process.

  Handles are numbered in the order in which they are acquired, so that one whose
  number the system has given out twice counts as two.  `Holds` says which of them
  are still to be released: together with the released ones they are the acquired
  ones, each once.
-/
import Mathlib.Data.List.Range
import Mathlib.Data.List.Perm.Basic
import Mathlib.Data.List.Nodup
import Mathlib.Tactic.Common

structure Ledger where
  /-- how many have been acquired, which is the number of the next one -/
  acquired : Nat
  released : List Nat
deriving DecidableEq, Repr

namespace Ledger

def new : Ledger := ⟨0, []⟩

def acquire (ledger : Ledger) : Ledger := { ledger with acquired := ledger.acquired + 1 }

def release (ledger : Ledger) (handles : List Nat) : Ledger :=
  { ledger with released := ledger.released ++ handles }

/-- These are still to be released. -/
def Holds (ledger : Ledger) (held : List Nat) : Prop :=
  (held ++ ledger.released).Perm (List.range ledger.acquired)

/-- Every handle has been released, and once. -/
def Settled (ledger : Ledger) : Prop :=
  ∀ handle, handle < ledger.acquired → ledger.released.count handle = 1

variable {ledger : Ledger} {held handles : List Nat}

theorem holds_new : new.Holds [] := List.Perm.refl []

theorem Holds.perm (h : ledger.Holds held) (hperm : handles.Perm held) : ledger.Holds handles :=
  (hperm.append_right _).trans h

/-- A new handle has the next number. -/
theorem Holds.acquire (h : ledger.Holds held) :
    ledger.acquire.Holds (held ++ [ledger.acquired]) := by
  show (held ++ [ledger.acquired] ++ ledger.released).Perm (List.range (ledger.acquired + 1))
  rw [List.range_succ, List.append_assoc]
  have hswap : ([ledger.acquired] ++ ledger.released).Perm (ledger.released ++ [ledger.acquired]) :=
    List.perm_append_comm
  refine (hswap.append_left held).trans ?_
  rw [← List.append_assoc]
  exact h.append_right _

theorem Holds.release (h : ledger.Holds (handles ++ held)) :
    (ledger.release handles).Holds held := by
  show (held ++ (ledger.released ++ handles)).Perm (List.range ledger.acquired)
  refine List.Perm.trans ?_ h
  rw [← List.append_assoc, List.append_assoc handles]
  exact List.perm_append_comm

/-- With nothing left to release, everything has been. -/
theorem Holds.settled (h : ledger.Holds []) : ledger.Settled := by
  intro handle hlt
  have hperm : ledger.released.Perm (List.range ledger.acquired) := h
  rw [hperm.count_eq]
  exact List.count_eq_one_of_mem List.nodup_range (List.mem_range.mpr hlt)

/-- What is still to be released has not been. -/
theorem Holds.not_released (h : ledger.Holds held) {handle : Nat} (hheld : handle ∈ held) :
    handle ∉ ledger.released := by
  have hnodup : (held ++ ledger.released).Nodup := h.nodup_iff.mpr List.nodup_range
  exact List.disjoint_of_nodup_append hnodup hheld

end Ledger
