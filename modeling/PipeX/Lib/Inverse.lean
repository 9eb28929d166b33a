/-
  PipeX.Lib.Inverse

  Programs over streams that lead back from where others have led.

  A writer and a reader are put together through the encoding they share:
  `EncodesBy` says what the one writes, `DecodesBy` what the other restores, and
  `EncodesBy.undoes` that the second undoes the first, however the encoding is cut
  in between.  Only inputs within an invariant `P` of all buffers count, such as a
  limit on their length.  `undoes_foldlM` is the same for rows of programs, where
  the readers stand in the opposite order.
-/
import PipeX.Lib.Pipeline

namespace Chunked

open Outcomes

variable {α β γ ε : Type}

/-- Chunks to chunks, or a failure. -/
abbrev Program (α ε : Type) : Type := List (List α) → Except ε (List (List α))

variable (P : List α → Prop)

/-- What the program writes for input within `P` encodes it, and is within `P`. -/
def EncodesBy (p : Program α ε) (R : List α → List α → Prop) : Prop :=
  ∀ chunks out, P chunks.flatten → p chunks = .ok out → P out.flatten ∧ R chunks.flatten out.flatten

/-- The program restores what is encoded, however the encoding is cut. -/
def DecodesBy (q : Program α ε) (R : List α → List α → Prop) : Prop :=
  ∀ chunks x, P x → P chunks.flatten → R x chunks.flatten → ∃ out, q chunks = .ok out ∧ out.flatten = x

/-- `q` leads back from where `p` has led. -/
structure Undoes (q p : Program α ε) : Prop where
  stays : ∀ {chunks out}, P chunks.flatten → p chunks = .ok out → P out.flatten
  back : ∀ {chunks out}, P chunks.flatten → p chunks = .ok out →
    ∀ cut, cut.flatten = out.flatten → ∃ restored, q cut = .ok restored ∧
      restored.flatten = chunks.flatten

variable {P}

theorem EncodesBy.undoes {p q : Program α ε} {R : List α → List α → Prop} (hp : EncodesBy P p R)
    (hq : DecodesBy P q R) : Undoes P q p where
  stays hchunks hout := (hp _ _ hchunks hout).1
  back hchunks hout cut hcut := by
    obtain ⟨hin, hencoded⟩ := hp _ _ hchunks hout
    exact hq cut _ hchunks (hcut ▸ hin) (hcut ▸ hencoded)

theorem undoes_pure : Undoes P (pure : Program α ε) pure where
  stays hchunks hout := by
    cases hout
    exact hchunks
  back _ hout cut hcut := by
    cases hout
    exact ⟨cut, rfl, hcut⟩

/-- The last program is undone first. -/
theorem undoes_bind {p q p' q' : Program α ε} (h : Undoes P q p) (h' : Undoes P q' p') :
    Undoes P (fun chunks => q' chunks >>= q) (fun chunks => p chunks >>= p') where
  stays hchunks hout := by
    obtain ⟨middle, hmiddle, hout⟩ := bind_ok hout
    exact h'.stays (h.stays hchunks hmiddle) hout
  back hchunks hout cut hcut := by
    obtain ⟨middle, hmiddle, hout⟩ := bind_ok hout
    obtain ⟨between, hbetween, hsame⟩ := h'.back (h.stays hchunks hmiddle) hout cut hcut
    obtain ⟨restored, hrestored, hback⟩ := h.back hchunks hmiddle between hsame
    exact ⟨restored, by rw [hbetween]; exact hrestored, hback⟩

/-- Rows of programs, each told its place, which may be another one on the way back. -/
theorem undoes_foldlM {p : β × Nat → Program α ε} {q : γ × Nat → Program α ε} {items : List β}
    {items' : List γ} (h : List.Forall₂ (fun item item' =>
      ∀ i i', Undoes P (q (item', i')) (p (item, i))) items items') (n n' : Nat) :
    Undoes P (fun chunks => (items'.reverse.zipIdx n').foldlM (fun chunks item => q item chunks) chunks)
      (fun chunks => (items.zipIdx n).foldlM (fun chunks item => p item chunks) chunks) := by
  induction h generalizing n with
  | nil => exact undoes_pure
  | cons hitem _ ih =>
    simpa only [List.reverse_cons, List.zipIdx_append, List.zipIdx_cons, List.zipIdx_nil,
      List.foldlM_append, List.foldlM_cons, List.foldlM_nil, bind_pure] using
      undoes_bind (hitem n _) (ih (n + 1))

/-! ## Programs from functions and from stages -/

/-- The program that has all of its input in one piece. -/
def whole (f : List α → Except ε (List α)) : Program α ε :=
  fun chunks => (f chunks.flatten).map fun out => [out]

theorem whole_ok {f : List α → Except ε (List α)} {chunks out : List (List α)}
    (h : whole f chunks = .ok out) : f chunks.flatten = .ok out.flatten := by
  rw [whole] at h
  cases hf : f chunks.flatten with
  | error e =>
    rw [hf] at h
    cases h
  | ok x =>
    rw [hf] at h
    cases h
    rw [List.flatten_singleton]

theorem encodes_whole {f : List α → Except ε (List α)} {R : List α → List α → Prop}
    (h : ∀ x y, P x → f x = .ok y → P y ∧ R x y) : EncodesBy P (whole f) R :=
  fun _ _ hchunks hout => h _ _ hchunks (whole_ok hout)

theorem decodes_whole {f : List α → Except ε (List α)} {R : List α → List α → Prop}
    (h : ∀ x y, P x → P y → R x y → f y = .ok x) : DecodesBy P (whole f) R := by
  intro chunks x hx hchunks hencoded
  exact ⟨[x], by rw [whole, h x _ hx hchunks hencoded]; rfl, List.flatten_singleton⟩

/-- Functions one after another, on one piece. -/
theorem foldlM_whole {f : β → List α → Except ε (List α)} (items : List β) (x : List α) :
    items.foldlM (fun chunks item => whole (f item) chunks) [x] =
      (items.foldlM (fun x item => f item x) x).map fun out => [out] := by
  induction items generalizing x with
  | nil => rfl
  | cons item items ih =>
    rw [List.foldlM_cons, List.foldlM_cons, whole, List.flatten_singleton]
    cases f item x with
    | error e => rfl
    | ok y => exact ih y

/-! ## Pieces that came out -/

theorem pieces_ok {chunks : Except ε (List (List α))} {f : Except ε (List α)} {out : List (List α)}
    (h : Pieces chunks f) (hout : chunks = .ok out) : f = .ok out.flatten := by
  subst hout
  exact agree_ok (agree_symm h)

theorem pieces_of_ok {chunks : Except ε (List (List α))} {x : List α}
    (h : Pieces chunks (.ok x)) : ∃ out, chunks = .ok out ∧ out.flatten = x := by
  have hmap := agree_ok h
  cases chunks with
  | error e => cases hmap
  | ok out => exact ⟨out, rfl, Except.ok.inj hmap⟩

/-- A row of rows of stages. -/
theorem runStages_flatMap {rows : β → List (Stage α ε)} (items : List β) (chunks : List (List α)) :
    runStages (items.flatMap rows) chunks =
      items.foldlM (fun chunks item => runStages (rows item) chunks) chunks := by
  induction items generalizing chunks with
  | nil => rfl
  | cons item items ih =>
    rw [List.flatMap_cons, runStages_append, List.foldlM_cons]
    exact bind_congr ih

/-- A stage that goes through where it passes on has passed everything on. -/
theorem each_completed_eq {f : α → Emit α ε Unit}
    (h : ∀ x, (f x).Succeeds → f x = Emit.push x) {xs ys : List α}
    (hrun : ((each f).complete () xs).completed = .ok ys) : ys = xs := by
  induction xs generalizing ys with
  | nil =>
    cases hrun
    rfl
  | cons x xs ih =>
    have hcall := Emit.completed_ok hrun
    rw [Transform.complete_cons] at hcall
    obtain ⟨u, hx, hrest, hout⟩ := Emit.bind_eq_ok (congrArg Emit.result hcall)
    rw [show (each f).transform () x = f x from rfl] at hcall hx hout
    rw [h x ⟨u, hx⟩, Emit.bind_ok rfl] at hcall
    -- what is written behind the first is the rest
    have hys : [x] ++ ((each f).complete () xs).out = ys := congrArg Emit.out hcall
    have hrest' : ((each f).complete () xs).completed = .ok ((each f).complete () xs).out := by
      rw [Emit.completed, hrest]
      rfl
    have hxs := ih hrest'
    rw [← hys, hxs, List.singleton_append]

end Chunked
