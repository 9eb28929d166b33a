/-
  PipeX.Lib.Tracker

  Work that is tracked until it has settled, so that one can wait for all of it.

  Whoever tracks work numbers it, keeps what is pending, and forgets what has
  settled some time later.  `Tracks` says which work is running and which has
  settled without having been forgotten.  One who waits for a snapshot of what is
  pending waits for everything that was running (`Tracks.none_running`).
-/
import Mathlib.Data.List.Perm.Basic
import Mathlib.Data.List.Nodup
import Mathlib.Tactic.Common

structure Tracker where
  /-- the number of the next work -/
  next : Nat
  pending : List Nat
  settled : List Nat
deriving DecidableEq, Repr

namespace Tracker

def new : Tracker := ⟨0, [], []⟩

def track (tracker : Tracker) : Tracker :=
  { tracker with next := tracker.next + 1, pending := tracker.pending ++ [tracker.next] }

def settle (tracker : Tracker) (id : Nat) : Tracker :=
  { tracker with settled := id :: tracker.settled }

def forget (tracker : Tracker) (id : Nat) : Tracker :=
  { tracker with pending := tracker.pending.erase id }

structure Tracks (tracker : Tracker) (running ended : List Nat) : Prop where
  nodup : running.Nodup
  pending : ∀ id ∈ running, id ∈ tracker.pending
  unsettled : ∀ id ∈ running, id ∉ tracker.settled
  ended : ∀ id ∈ ended, id ∈ tracker.settled
  fresh : ∀ id, id ∈ tracker.pending ∨ id ∈ tracker.settled → id < tracker.next

variable {tracker : Tracker} {running ended awaited : List Nat} {id : Nat}

theorem tracks_new : new.Tracks [] [] :=
  ⟨List.nodup_nil, nofun, nofun, nofun, fun _ h => h.elim nofun nofun⟩

namespace Tracks

theorem rearrange {running' ended' : List Nat} (h : tracker.Tracks running ended)
    (hrunning : running'.Perm running) (hended : ∀ id ∈ ended', id ∈ ended) :
    tracker.Tracks running' ended' where
  nodup := hrunning.nodup_iff.mpr h.nodup
  pending id hid := h.pending id (hrunning.mem_iff.mp hid)
  unsettled id hid := h.unsettled id (hrunning.mem_iff.mp hid)
  ended id hid := h.ended id (hended id hid)
  fresh := h.fresh

/-- New work is running. -/
theorem track (h : tracker.Tracks running ended) :
    tracker.track.Tracks (tracker.next :: running) ended := by
  have hnew : tracker.next ∉ running := by
    intro hmem
    exact absurd (h.fresh _ (.inl (h.pending _ hmem))) (Nat.lt_irrefl _)
  refine ⟨List.nodup_cons.mpr ⟨hnew, h.nodup⟩, ?_, ?_, h.ended, ?_⟩
  · intro id hid
    rcases List.mem_cons.mp hid with rfl | hid
    · exact List.mem_append_right _ (List.mem_singleton.mpr rfl)
    · exact List.mem_append_left _ (h.pending id hid)
  · intro id hid
    rcases List.mem_cons.mp hid with rfl | hid
    · intro hsettled
      exact absurd (h.fresh _ (.inr hsettled)) (Nat.lt_irrefl _)
    · exact h.unsettled id hid
  · intro id hid
    show id < tracker.next + 1
    rcases hid with hid | hid
    · rcases List.mem_append.mp hid with hid | hid
      · exact Nat.lt_succ_of_lt (h.fresh id (.inl hid))
      · rw [List.mem_singleton.mp hid]
        exact Nat.lt_succ_self _
    · exact Nat.lt_succ_of_lt (h.fresh id (.inr hid))

/-- Work that settles has ended. -/
theorem settle (h : tracker.Tracks (id :: running) ended) :
    (tracker.settle id).Tracks running (id :: ended) := by
  obtain ⟨hnot, hnodup⟩ := List.nodup_cons.mp h.nodup
  refine ⟨hnodup, ?_, ?_, ?_, ?_⟩
  · intro id' hid'
    exact h.pending id' (List.mem_cons_of_mem _ hid')
  · intro id' hid' hsettled
    rcases List.mem_cons.mp hsettled with rfl | hsettled
    · exact hnot hid'
    · exact h.unsettled id' (List.mem_cons_of_mem _ hid') hsettled
  · intro id' hid'
    rcases List.mem_cons.mp hid' with rfl | hid'
    · exact List.mem_cons_self ..
    · exact List.mem_cons_of_mem _ (h.ended id' hid')
  · rintro id' (hid' | hid')
    · exact h.fresh id' (.inl hid')
    · rcases List.mem_cons.mp hid' with rfl | hid'
      · exact h.fresh id' (.inl (h.pending id' (List.mem_cons_self ..)))
      · exact h.fresh id' (.inr hid')

/-- Only work that has ended is forgotten. -/
theorem forget (h : tracker.Tracks running (id :: ended)) :
    (tracker.forget id).Tracks running ended := by
  refine ⟨h.nodup, ?_, h.unsettled, fun id' hid' => h.ended id' (List.mem_cons_of_mem _ hid'), ?_⟩
  · intro id' hid'
    have hne : id' ≠ id := by
      rintro rfl
      exact h.unsettled id' hid' (h.ended id' (List.mem_cons_self ..))
    exact (List.mem_erase_of_ne hne).mpr (h.pending id' hid')
  · rintro id' (hid' | hid')
    · exact h.fresh id' (.inl (List.mem_of_mem_erase hid'))
    · exact h.fresh id' (.inr hid')

/-- When all that is waited for has settled, nothing runs. -/
theorem none_running (h : tracker.Tracks running ended) (hawaited : ∀ id ∈ running, id ∈ awaited)
    (hsettled : ∀ id ∈ awaited, id ∈ tracker.settled) : running = [] := by
  apply List.eq_nil_iff_forall_not_mem.mpr
  intro id hid
  exact h.unsettled id hid (hsettled id (hawaited id hid))

end Tracks
end Tracker
