/-
  PipeX.Lib.Chunked

  Consumers that are handed their input in chunks.

  * `Partial` is a fixed-size buffer that is being filled: the copy of
    `min(missing, available)` items that every such consumer repeats.
  * `InputLoop` is a `while` loop over the rest of one chunk.  Its law `Splits`
    says that a pass over `a ++ b` is a pass over `a` that is then resumed on
    `b`; from it follows that the loop cannot see where its input was cut
    (`run_append`).
  * `Transform` is a stream stage: a call for every chunk and one at the end.
-/
import PipeX.Lib.Emit
import Mathlib.Data.List.Basic
import Mathlib.Tactic.Common

namespace Chunked

/-! ## Filling a buffer of a fixed size -/

/-- A buffer of `n` items of which some, but not all, have been received. -/
structure Partial (α : Type) (n : Nat) where
  filled : List α
  short : filled.length < n
deriving Repr

/-- What copying input into a partly filled buffer comes to. -/
inductive Fill (α : Type) (n : Nat) where
  | more (p : Partial α n)
  | full (items rest : List α)
deriving Repr

namespace Partial

variable {α : Type} {n : Nat}

/-- The buffer before anything has been copied into it. -/
def empty (h : 0 < n) : Partial α n := ⟨[], h⟩

/-- Copy as many items as are missing, or as there are. -/
def fill (p : Partial α n) (input : List α) : Fill α n :=
  let copied := min (n - p.filled.length) input.length
  if h : (p.filled ++ input.take copied).length < n then
    .more ⟨p.filled ++ input.take copied, h⟩
  else
    .full (p.filled ++ input.take copied) (input.drop copied)

/-- Too little input is taken as a whole and the buffer stays incomplete. -/
theorem fill_more (p : Partial α n) (input : List α)
    (h : (p.filled ++ input).length < n) : p.fill input = .more ⟨p.filled ++ input, h⟩ := by
  have hp := p.short
  have hlen : (p.filled ++ input).length = p.filled.length + input.length := List.length_append
  have hmin : min (n - p.filled.length) input.length = input.length := by omega
  simp only [fill, hmin, List.take_length, dif_pos h]

/-- Enough input completes the buffer and leaves the rest. -/
theorem fill_full (p : Partial α n) {input : List α}
    (h : n ≤ p.filled.length + input.length) :
    p.fill input = .full (p.filled ++ input.take (n - p.filled.length))
      (input.drop (n - p.filled.length)) := by
  have hp := p.short
  have hmin : min (n - p.filled.length) input.length = n - p.filled.length := by omega
  have hlen : (p.filled ++ input.take (n - p.filled.length)).length = n := by
    rw [List.length_append, List.length_take]
    omega
  simp only [fill, hmin]
  rw [dif_neg (by omega)]

/-- An empty buffer keeps an input that is too short for it, -/
theorem fill_empty_more (h : 0 < n) {input : List α} (hlt : input.length < n) :
    (empty h).fill input = .more ⟨input, hlt⟩ :=
  fill_more (empty h) input hlt

/-- and otherwise takes what fits into it. -/
theorem fill_empty_full (h : 0 < n) {input : List α} (hle : n ≤ input.length) :
    (empty h).fill input = .full (input.take n) (input.drop n) := by
  rw [fill_full (empty h) (by simpa [empty] using hle)]
  simp [empty]

/-- A buffer that is filled by exactly the items in front. -/
theorem fill_empty_append (h : 0 < n) {front : List α} (hfront : front.length = n)
    (rest : List α) : (empty h).fill (front ++ rest) = .full front rest := by
  rw [fill_empty_full h (by rw [List.length_append]; omega), List.take_left' hfront,
    List.drop_left' hfront]

/-- The two cases of `fill`, with the facts that characterise each of them. -/
theorem fill_cases (p : Partial α n) (input : List α) :
    (∃ h : (p.filled ++ input).length < n, p.fill input = .more ⟨p.filled ++ input, h⟩) ∨
    (∃ items rest, p.fill input = .full items rest ∧ items.length = n ∧
      p.filled ++ input = items ++ rest) := by
  by_cases h : (p.filled ++ input).length < n
  · exact .inl ⟨h, fill_more p input h⟩
  · have hp := p.short
    rw [List.length_append] at h
    refine .inr ⟨_, _, fill_full p (by omega), ?_, ?_⟩
    · rw [List.length_append, List.length_take]
      omega
    · rw [List.append_assoc, List.take_append_drop]

/-- A completed buffer used up at least one item. -/
theorem length_rest_lt {p : Partial α n} {x : α} {xs items rest : List α}
    (h : p.fill (x :: xs) = .full items rest) : rest.length ≤ xs.length := by
  have hp := p.short
  rcases fill_cases p (x :: xs) with ⟨_, hm⟩ | ⟨items', rest', hf, hlen, heq⟩
  · rw [hm] at h; cases h
  · rw [hf] at h
    cases h
    have := congrArg List.length heq
    simp only [List.length_append, List.length_cons] at this
    omega

/-- An incomplete buffer is completed by the input that comes later. -/
theorem fill_append_of_more {p p' : Partial α n} {a : List α} (b : List α)
    (h : p.fill a = .more p') : p.fill (a ++ b) = p'.fill b := by
  rcases fill_cases p a with ⟨hlt, hm⟩ | ⟨items, rest, hf, -, -⟩
  · rw [hm] at h
    cases h
    have hlen : (p.filled ++ a).length = p.filled.length + a.length := List.length_append
    -- `b` may leave the buffer incomplete too
    by_cases hb : (p.filled ++ (a ++ b)).length < n
    · rw [fill_more p _ hb, fill_more ⟨p.filled ++ a, hlt⟩ _ (by rwa [List.append_assoc])]
      simp only [List.append_assoc]
    · simp only [List.length_append] at hb
      rw [fill_full p (by rw [List.length_append]; omega),
        fill_full ⟨p.filled ++ a, hlt⟩ (by rw [hlen]; omega), hlen]
      have htake : n - p.filled.length = a.length + (n - (p.filled.length + a.length)) := by omega
      rw [htake, List.take_length_add_append, List.drop_length_add_append, List.append_assoc]
  · rw [hf] at h; cases h

/-- Input after the item that completes the buffer is left untouched. -/
theorem fill_append_of_full {p : Partial α n} {a items rest : List α} (b : List α)
    (h : p.fill a = .full items rest) : p.fill (a ++ b) = .full items (rest ++ b) := by
  have hp := p.short
  rcases fill_cases p a with ⟨_, hm⟩ | ⟨items', rest', hf, hlen, heq⟩
  · rw [hm] at h; cases h
  · rw [hf] at h
    cases h
    have hlena := congrArg List.length heq
    simp only [List.length_append] at hlena
    have hge : n ≤ p.filled.length + a.length := by omega
    rw [fill_full p hge] at hf
    cases hf
    rw [fill_full p (by rw [List.length_append]; omega),
      List.take_append_of_le_length (by omega), List.drop_append_of_le_length (by omega)]

end Partial

/-! ## Loops over the rest of one chunk -/

/-- Where one pass of a loop leaves off: all input is used up in the middle of a
    unit, or a unit is complete and the rest is still to be read. -/
inductive Progress (σ α : Type) where
  | more (s : σ)
  | done (s : σ) (rest : List α)

/-- A `while (offset < chunk.length)` loop; `body` is one pass over the rest of
    the chunk, and every pass that completes a unit uses up an item. -/
structure InputLoop (σ α ο ε : Type) where
  body : σ → List α → Emit ο ε (Progress σ α)
  consumes : ∀ s x xs s' rest,
    (body s (x :: xs)).result = .ok (.done s' rest) → rest.length ≤ xs.length

namespace InputLoop

variable {σ α ο ε : Type} (loop : InputLoop σ α ο ε)

/-- The loop with a bound on the number of its passes. -/
def runWithin : Nat → σ → List α → Emit ο ε σ
  | _, s, [] => pure s
  | 0, s, _ :: _ => pure s -- not reached from `run`: every pass uses up an item
  | n + 1, s, x :: xs =>
    loop.body s (x :: xs) >>= fun
      | .more s' => pure s'
      | .done s' rest => runWithin n s' rest

/-- The loop over one chunk. -/
def run (s : σ) (input : List α) : Emit ο ε σ := loop.runWithin input.length s input

/-- Any bound that covers the input gives the same run. -/
theorem runWithin_eq_run {n : Nat} {s : σ} {input : List α} (h : input.length ≤ n) :
    loop.runWithin n s input = loop.run s input := by
  suffices key : ∀ m n s (input : List α), input.length ≤ m → input.length ≤ n →
      loop.runWithin m s input = loop.runWithin n s input from
    key _ _ _ _ h (Nat.le_refl _)
  intro m
  -- on the first bound; the second one follows it down the passes
  induction m with
  | zero =>
    intro n s input hm _
    have hnil : input = [] := List.length_eq_zero_iff.mp (by omega)
    subst hnil
    cases n <;> rfl
  | succ m ih =>
    intro n s input hm hn
    cases input with
    | nil => cases n <;> rfl
    | cons x xs =>
      cases n with
      | zero => simp at hn
      | succ n =>
        refine Emit.bind_congr' fun p hp => ?_
        cases p with
        | more s' => rfl
        | done s' rest =>
          have hrest := loop.consumes s x xs s' rest hp
          simp only [List.length_cons] at hm hn
          exact ih n s' rest (by omega) (by omega)

@[simp] theorem run_nil (s : σ) : loop.run s [] = pure s := rfl

/-- The loop over what a pass left. -/
def next : Progress σ α → Emit ο ε σ
  | .more s => pure s
  | .done s rest => loop.run s rest

@[simp] theorem next_more (s : σ) : loop.next (.more s) = pure s := rfl
@[simp] theorem next_done (s : σ) (rest : List α) : loop.next (.done s rest) = loop.run s rest :=
  rfl

/-- One pass, and then the loop over what it left. -/
theorem run_cons (s : σ) (x : α) (xs : List α) :
    loop.run s (x :: xs) = loop.body s (x :: xs) >>= loop.next := by
  change loop.runWithin (xs.length + 1) s (x :: xs) = _
  simp only [runWithin]
  refine Emit.bind_congr' fun p hp => ?_
  cases p with
  | more s' => rfl
  | done s' rest => exact runWithin_eq_run loop (loop.consumes s x xs s' rest hp)

/-- `run_cons` for an input that is only known not to be empty. -/
theorem run_of_ne_nil (s : σ) {input : List α} (h : input ≠ []) :
    loop.run s input = loop.body s input >>= loop.next := by
  obtain ⟨x, xs, rfl⟩ := List.exists_cons_of_ne_nil h
  exact loop.run_cons s x xs

/-- Induction along a run: from what every pass leaves to the input of the pass. -/
theorem induct {motive : σ → List α → Prop} (nil : ∀ s, motive s [])
    (pass : ∀ s input, input ≠ [] →
      (∀ s' rest, (loop.body s input).result = .ok (.done s' rest) → motive s' rest) →
      motive s input) (s : σ) (input : List α) : motive s input := by
  suffices key : ∀ n s (input : List α), input.length ≤ n → motive s input from
    key _ s input (Nat.le_refl _)
  intro n
  induction n with
  | zero =>
    intro s input hn
    rw [List.length_eq_zero_iff.mp (Nat.le_zero.mp hn)]
    exact nil s
  | succ n ih =>
    intro s input hn
    cases input with
    | nil => exact nil s
    | cons x xs =>
      refine pass s (x :: xs) (by simp) fun s' rest h => ih s' rest ?_
      have hrest := loop.consumes s x xs s' rest h
      simp only [List.length_cons] at hn
      omega

/-- Go on with more input where a pass left off. -/
def resume (b : List α) : Progress σ α → Emit ο ε (Progress σ α)
  | .more s => loop.body s b
  | .done s rest => pure (.done s (rest ++ b))

@[simp] theorem resume_more (b : List α) (s : σ) : loop.resume b (.more s) = loop.body s b := rfl
@[simp] theorem resume_done (b : List α) (s : σ) (rest : List α) :
    loop.resume b (.done s rest) = pure (.done s (rest ++ b)) := rfl

/-- A pass over `a ++ b` is a pass over `a`, resumed on `b` where it ran out of
    input. -/
def Splits : Prop :=
  ∀ s (a b : List α), a ≠ [] → b ≠ [] → loop.body s (a ++ b) = loop.body s a >>= loop.resume b

variable {loop}

/-- A splitting loop does not see a cut of its input. -/
theorem Splits.run_append (hs : loop.Splits) (s : σ) (a b : List α) :
    loop.run s (a ++ b) = loop.run s a >>= fun s' => loop.run s' b := by
  by_cases hb : b = []
  · subst hb
    simp only [List.append_nil, run_nil, bind_pure]
  induction s, a using loop.induct with
  | nil s => simp
  | pass s a ha ih =>
    rw [loop.run_of_ne_nil s (by simp [ha]), loop.run_of_ne_nil s ha, hs s a b ha hb,
      bind_assoc, bind_assoc]
    -- the cut is in the middle of a unit, or in what the first pass left
    refine Emit.bind_congr' fun p hp => ?_
    cases p with
    | more s' =>
      simp only [resume_more, next_more, pure_bind]
      rw [loop.run_of_ne_nil s' hb]
    | done s' rest =>
      simp only [resume_done, next_done, pure_bind]
      exact ih s' rest hp

end InputLoop

/-! ## Stream stages -/

/-- A stream stage: `transform` for every chunk, `flush` after the last. -/
structure Transform (σ ι ο ε : Type) where
  transform : σ → ι → Emit ο ε σ
  flush : σ → Emit ο ε Unit

namespace Transform

variable {σ ι ο ε : Type} (t : Transform σ ι ο ε)

/-- Hand over chunks one by one; a failing call is the last. -/
def feed (s : σ) (chunks : List ι) : Emit ο ε σ := chunks.foldlM t.transform s

/-- Hand over all chunks and end the stream. -/
def complete (s : σ) (chunks : List ι) : Emit ο ε Unit := t.feed s chunks >>= t.flush

@[simp] theorem feed_nil (s : σ) : t.feed s [] = pure s := rfl

theorem feed_cons (s : σ) (c : ι) (cs : List ι) :
    t.feed s (c :: cs) = t.transform s c >>= fun s' => t.feed s' cs := by
  simp only [feed, List.foldlM_cons]

theorem complete_cons (s : σ) (c : ι) (cs : List ι) :
    t.complete s (c :: cs) = t.transform s c >>= fun s' => t.complete s' cs := by
  rw [complete, feed_cons, bind_assoc]
  rfl

/-- The stage with outputs of another form. -/
def mapOut {ο' : Type} (g : ο → ο') : Transform σ ι ο' ε where
  transform s c := (t.transform s c).mapOut g
  flush s := (t.flush s).mapOut g

theorem feed_mapOut {ο' : Type} (g : ο → ο') (s : σ) (chunks : List ι) :
    (t.mapOut g).feed s chunks = (t.feed s chunks).mapOut g := by
  induction chunks generalizing s with
  | nil => rfl
  | cons c cs ih =>
    rw [feed_cons, feed_cons, Emit.mapOut_bind]
    congr 1
    funext s'
    exact ih s'

theorem complete_mapOut {ο' : Type} (g : ο → ο') (s : σ) (chunks : List ι) :
    (t.mapOut g).complete s chunks = (t.complete s chunks).mapOut g := by
  rw [complete, complete, feed_mapOut, Emit.mapOut_bind]
  rfl

end Transform
end Chunked
