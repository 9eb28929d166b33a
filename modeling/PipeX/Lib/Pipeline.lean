/-
  PipeX.Lib.Pipeline

  Stream stages in a row.  A stage that computes a function of its whole input,
  however that input is cut, can be put behind any other; what comes out of the
  row is what the functions compute one after another (`realizes_append`,
  `realizes_flatMap`).
-/
import PipeX.Lib.Chunked
import PipeX.Lib.Outcome
import Mathlib.Algebra.GroupWithZero.Nat

namespace Chunked

open Outcomes

variable {α β ε : Type}

/-- A stage, handed all its chunks and ended. -/
abbrev Stage (α ε : Type) : Type := List (List α) → Emit (List α) ε Unit

/-- An empty chunk that is pushed does not arrive. -/
def handOver (chunks : List (List α)) : List (List α) := chunks.filter fun chunk => !chunk.isEmpty

/-- What a call that returned has written. -/
def Emit.completed (call : Emit β ε Unit) : Except ε (List β) := call.result.map fun _ => call.out

/-- The chunks that come out of a stage that completes. -/
def Stage.completed (stage : Stage α ε) (chunks : List (List α)) : Except ε (List (List α)) :=
  (stage (handOver chunks)).completed

/-- What comes out of the last stage if all of them complete; nothing is said about
    what has come out of a row that fails. -/
def runStages (stages : List (Stage α ε)) (chunks : List (List α)) : Except ε (List (List α)) :=
  stages.foldlM (fun chunks stage => stage.completed chunks) chunks

@[simp] theorem flatten_handOver (chunks : List (List α)) :
    (handOver chunks).flatten = chunks.flatten := by
  induction chunks with
  | nil => rfl
  | cons chunk chunks ih =>
    cases chunk with
    | nil => simpa [handOver] using ih
    | cons x xs =>
      have hcons : handOver ((x :: xs) :: chunks) = (x :: xs) :: handOver chunks := rfl
      rw [hcons, List.flatten_cons, List.flatten_cons, ih]

/-! ## Functions of the whole -/

/-- The stage writes what `f` returns, and fails where `f` fails. -/
def Stage.Computes (stage : Stage α ε) (f : List α → Except ε (List α)) : Prop :=
  ∀ chunks, (stage chunks).Delivers (f chunks.flatten)

/-- Pieces of a whole, or a failure on both sides. -/
def Pieces (chunks : Except ε (List (List α))) (whole : Except ε (List α)) : Prop :=
  Agree (chunks.map List.flatten) whole

/-- The row writes what `f` returns, and fails where `f` fails. -/
def Realizes (stages : List (Stage α ε)) (f : List α → Except ε (List α)) : Prop :=
  ∀ chunks, Pieces (runStages stages chunks) (f chunks.flatten)

/-- The same continuation on both sides. -/
theorem pieces_bind {chunks : Except ε (List (List α))} {whole : Except ε (List α)}
    (h : Pieces chunks whole) {f : List (List α) → Except ε (List (List α))}
    {g : List α → Except ε (List α)}
    (hfg : ∀ out, chunks = .ok out → Pieces (f out) (g out.flatten)) :
    Pieces (chunks >>= f) (whole >>= g) := by
  cases chunks with
  | error e =>
    cases whole with
    | error e' => exact True.intro
    | ok all => exact absurd h id
  | ok out =>
    cases whole with
    | error e' => exact absurd h id
    | ok all =>
      cases h
      exact hfg out rfl

/-- A check behind the last stage. -/
theorem pieces_check {chunks : Except ε (List (List α))} {whole : Except ε (List α)}
    (h : Pieces chunks whole) (x : Except ε Unit) :
    Pieces (chunks >>= fun out => x >>= fun _ => pure out)
      (whole >>= fun all => x >>= fun _ => pure all) := by
  refine pieces_bind h fun out _ => ?_
  cases x with
  | error e => exact True.intro
  | ok u => rfl

/-- What a call delivers is one whole. -/
theorem delivers_agree {call : Emit (List α) ε Unit} {whole whole' : Except ε (List α)}
    (h : call.Delivers whole) (h' : call.Delivers whole') : Agree whole whole' := by
  cases whole with
  | error e =>
    cases whole' with
    | error e' => exact True.intro
    | ok all =>
      obtain ⟨_, hok⟩ := h.1.mp (h'.1.mpr ⟨all, rfl⟩)
      cases hok
  | ok all =>
    cases whole' with
    | error e' =>
      obtain ⟨_, hok⟩ := h'.1.mp (h.1.mpr ⟨all, rfl⟩)
      cases hok
    | ok all' => exact (h.2 all rfl).symm.trans (h'.2 all' rfl)

theorem realizes_nil : Realizes ([] : List (Stage α ε)) pure := fun _ => rfl

theorem Stage.Computes.realizes {stage : Stage α ε} {f : List α → Except ε (List α)}
    (h : stage.Computes f) : Realizes [stage] f := by
  intro chunks
  obtain ⟨hiff, hout⟩ := h (handOver chunks)
  rw [flatten_handOver] at hiff hout
  have hrun : runStages [stage] chunks = stage.completed chunks := by
    simp only [runStages, List.foldlM_cons, List.foldlM_nil, bind_pure]
  rw [hrun]
  cases hwhole : f chunks.flatten with
  | error e =>
    cases hresult : (stage (handOver chunks)).result with
    | error e' => simp [Stage.completed, Emit.completed, hresult, Except.map, Pieces, Agree]
    | ok u =>
      obtain ⟨all, hall⟩ := hiff.mp ⟨u, hresult⟩
      rw [hwhole] at hall
      cases hall
  | ok all =>
    obtain ⟨u, hresult⟩ := hiff.mpr ⟨all, hwhole⟩
    simpa [Stage.completed, Emit.completed, hresult, Except.map, Pieces, Agree] using hout all hwhole

theorem runStages_append (ss ts : List (Stage α ε)) (chunks : List (List α)) :
    runStages (ss ++ ts) chunks = runStages ss chunks >>= runStages ts := by
  simp only [runStages, List.foldlM_append]
  rfl

theorem realizes_append {ss ts : List (Stage α ε)} {f g : List α → Except ε (List α)}
    (hs : Realizes ss f) (ht : Realizes ts g) : Realizes (ss ++ ts) fun x => f x >>= g := by
  intro chunks
  show Pieces (runStages (ss ++ ts) chunks) (f chunks.flatten >>= g)
  rw [runStages_append]
  exact pieces_bind (hs chunks) fun out _ => ht out

theorem realizes_congr {stages : List (Stage α ε)} {f g : List α → Except ε (List α)}
    (h : Realizes stages f) (hfg : ∀ x, Agree (f x) (g x)) : Realizes stages g :=
  fun chunks => agree_trans (h chunks) (hfg chunks.flatten)

/-- The rows of a list, one behind the other. -/
theorem realizes_flatMap {rows : β → List (Stage α ε)} {f : β → List α → Except ε (List α)}
    {items : List β} (h : ∀ item ∈ items, Realizes (rows item) (f item)) :
    Realizes (items.flatMap rows) fun x => items.foldlM (fun x item => f item x) x := by
  induction items with
  | nil => exact realizes_nil
  | cons item items ih =>
    have hrest := ih fun i hi => h i (List.mem_cons_of_mem _ hi)
    rw [List.flatMap_cons]
    simpa only [List.foldlM_cons] using
      realizes_append (h item (List.mem_cons_self ..)) hrest

/-! ## Completed calls -/

theorem Emit.completed_ok {call : Emit β ε Unit} {out : List β} (h : call.completed = .ok out) :
    call = ⟨out, .ok ()⟩ := by
  obtain ⟨written, result⟩ := call
  cases result with
  | error e => cases h
  | ok u =>
    cases h
    rfl

/-! ## One out for one in -/

/-- A stage without a state and without anything left to do at the end. -/
def each (f : α → Emit β ε Unit) : Transform Unit α β ε where
  transform _ x := f x
  flush _ := pure ()

/-- A stage that makes one output of each input. -/
theorem each_completed {f : α → Emit β ε Unit} {p : α → Except ε β} {xs : List α}
    (h : ∀ x ∈ xs, f x = Emit.ofExcept (p x) >>= Emit.push) :
    ((each f).complete () xs).completed = xs.mapM p := by
  induction xs with
  | nil => rfl
  | cons x xs ih =>
    have hrest := ih fun y hy => h y (List.mem_cons_of_mem _ hy)
    -- the first input, and the whole stage again behind it
    rw [Transform.complete_cons]
    show Emit.completed (f x >>= fun u => (each f).complete u xs) = _
    rw [h x (List.mem_cons_self ..), List.mapM_cons, ← hrest]
    cases hx : p x with
    | error e => rfl
    | ok y =>
      rw [Emit.ofExcept_ok, Emit.pure_bind', Emit.bind_ok rfl]
      cases hresult : ((each f).complete () xs).result with
      | error e =>
        simp [Emit.completed, hresult, Except.map, bind, Except.bind]
      | ok u =>
        simp [Emit.completed, hresult, Except.map, bind, Except.bind, pure, Except.pure]

/-- A stage that passes everything on. -/
theorem each_push {f : α → Emit α ε Unit} {xs : List α} (h : ∀ x ∈ xs, f x = Emit.push x) :
    ((each f).complete () xs).completed = .ok xs := by
  have hall : ((each f).complete () xs).completed = xs.mapM pure :=
    each_completed fun x hx => by rw [h x hx]; rfl
  have hpure := List.mapM_pure (m := Except ε) (l := xs) (f := id)
  rw [List.map_id] at hpure
  exact hall.trans hpure

theorem forall₂_of_mapM {p : α → Except ε β} {xs : List α} {ys : List β}
    (h : xs.mapM p = .ok ys) : List.Forall₂ (fun x y => p x = .ok y) xs ys := by
  induction xs generalizing ys with
  | nil =>
    cases h
    exact .nil
  | cons x xs ih =>
    rw [List.mapM_cons] at h
    obtain ⟨y, hy, h⟩ := Outcomes.bind_ok h
    obtain ⟨ys', hys, h⟩ := Outcomes.bind_ok h
    cases h
    exact .cons hy (ih hys)

/-- A check of each input lets all of them through or fails. -/
theorem eq_of_mapM {p : α → Except ε α} (hp : ∀ x y, p x = .ok y → y = x) {xs ys : List α}
    (h : xs.mapM p = .ok ys) : ys = xs := by
  have hall := forall₂_of_mapM h
  clear h
  induction hall with
  | nil => rfl
  | cons hxy _ ih => rw [hp _ _ hxy, ih]

/-! ## Budgets -/

section Budget

variable {weight : α → Nat} {limit : Nat} {exceeded : ε} {forward : α → Emit α ε Unit}

/-- A stage that passes on what it is handed until a budget is used up. -/
def budget (weight : α → Nat) (limit : Nat) (exceeded : ε) (forward : α → Emit α ε Unit) :
    Transform Nat α α ε where
  transform total x :=
    if weight x > limit - total then
      Emit.fail exceeded
    else do
      forward x
      return total + weight x
  flush _ := pure ()

/-- The running total decides what the weight of all decides. -/
theorem budget_feed {total : Nat} (htotal : total ≤ limit) {xs : List α}
    (hforward : ∀ x ∈ xs, forward x = Emit.push x) :
    (total + (xs.map weight).sum ≤ limit →
      (budget weight limit exceeded forward).feed total xs =
        ⟨xs, .ok (total + (xs.map weight).sum)⟩) ∧
    (limit < total + (xs.map weight).sum →
      ∃ e, ((budget weight limit exceeded forward).feed total xs).result = .error e) := by
  induction xs generalizing total with
  | nil =>
    refine ⟨fun _ => rfl, fun h => ?_⟩
    simp only [List.map_nil, List.sum_nil] at h
    omega
  | cons x xs ih =>
    simp only [List.map_cons, List.sum_cons]
    rw [Transform.feed_cons]
    by_cases hx : weight x > limit - total
    · have hfail : (budget weight limit exceeded forward).transform total x = Emit.fail exceeded :=
        if_pos hx
      rw [hfail]
      refine ⟨fun h => ?_, fun _ => ⟨_, rfl⟩⟩
      omega
    -- it still fits, and the total moves on
    · have hpush : (budget weight limit exceeded forward).transform total x =
          ⟨[x], .ok (total + weight x)⟩ := by
        show (if weight x > limit - total then _ else _) = _
        rw [if_neg hx, hforward x (List.mem_cons_self ..)]
        rfl
      obtain ⟨hfits, hexceeds⟩ := @ih (total + weight x) (by omega)
        fun y hy => hforward y (List.mem_cons_of_mem _ hy)
      rw [hpush, Emit.bind_ok rfl]
      refine ⟨fun h => ?_, fun h => ?_⟩
      · rw [hfits (by omega), Nat.add_assoc]
        rfl
      · exact hexceeds (by omega)

theorem budget_completed {xs : List α} (hforward : ∀ x ∈ xs, forward x = Emit.push x) :
    ((xs.map weight).sum ≤ limit →
      (budget weight limit exceeded forward).complete 0 xs = ⟨xs, .ok ()⟩) ∧
    (limit < (xs.map weight).sum →
      ∃ e, ((budget weight limit exceeded forward).complete 0 xs).result = .error e) := by
  obtain ⟨hfits, hexceeds⟩ := @budget_feed α ε weight limit exceeded forward 0 (Nat.zero_le _) xs
    hforward
  rw [Nat.zero_add] at hfits hexceeds
  refine ⟨fun h => ?_, fun h => ?_⟩
  · rw [Transform.complete, hfits h, Emit.bind_ok rfl]
    exact Emit.ext (List.append_nil _) rfl
  · obtain ⟨e, he⟩ := hexceeds h
    exact ⟨e, by rw [Transform.complete, Emit.bind_error he]⟩

end Budget
end Chunked
