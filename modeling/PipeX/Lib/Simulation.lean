/-
  PipeX.Lib.Simulation

  A program that writes more than another one, and otherwise does the same.

  `Simulates P erase R x y`: every entry that `x` writes satisfies `P`; the outputs that
  `erase` leaves of them are those of `y`; and the two end in values that `R` relates, or
  in the same failure.  There is one rule for each way to put programs together, loops
  over a chunk and stream stages included.
-/
import PipeX.Lib.Chunked

namespace Chunked

variable {ο ο' ε α α' β β' σ τ ι : Type}

/-- Values that `R` relates, or one failure. -/
inductive Related (R : α → β → Prop) : Except ε α → Except ε β → Prop where
  | ok {a : α} {b : β} (h : R a b) : Related R (.ok a) (.ok b)
  | error (e : ε) : Related R (.error e) (.error e)

theorem Related.mono {R S : α → β → Prop} {x : Except ε α} {y : Except ε β}
    (h : Related R x y) (hRS : ∀ a b, R a b → S a b) : Related S x y := by
  cases h with
  | ok h => exact .ok (hRS _ _ h)
  | error e => exact .error e

theorem Related.refl (x : Except ε α) : Related Eq x x := by
  cases x with
  | ok a => exact .ok rfl
  | error e => exact .error e

theorem Related.eq {x y : Except ε α} (h : Related Eq x y) : x = y := by
  cases h with
  | ok h => rw [h]
  | error e => rfl

structure Simulates (P : ο' → Prop) (erase : ο' → Option ο) (R : α → β → Prop)
    (x : Emit ο' ε α) (y : Emit ο ε β) : Prop where
  entries : ∀ e ∈ x.out, P e
  out : x.out.filterMap erase = y.out
  result : Related R x.result y.result

namespace Simulates

variable {P : ο' → Prop} {erase : ο' → Option ο} {R : α → β → Prop} {S : α' → β' → Prop}

/-! ## Single steps -/

theorem pure {a : α} {b : β} (h : R a b) :
    Simulates P erase R (Pure.pure a : Emit ο' ε α) (Pure.pure b) :=
  ⟨by simp, rfl, .ok h⟩

theorem fail (e : ε) : Simulates P erase R (Emit.fail e) (Emit.fail e) :=
  ⟨by simp, rfl, .error e⟩

/-- A call that neither of them has anything to write in. -/
theorem ofExcept (x : Except ε α) : Simulates P erase Eq (Emit.ofExcept x) (Emit.ofExcept x) :=
  ⟨by simp, rfl, .refl x⟩

/-- An entry that the other program writes too. -/
theorem push {e : ο'} {o : ο} (hP : P e) (ho : erase e = some o) :
    Simulates P erase Eq (Emit.push e : Emit ο' ε Unit) (Emit.push o) :=
  ⟨by simpa using hP, by simp [ho], .ok rfl⟩

/-- One that it does not write. -/
theorem note {e : ο'} (hP : P e) (ho : erase e = none) :
    Simulates P erase Eq (Emit.push e : Emit ο' ε Unit) (Pure.pure ()) :=
  ⟨by simpa using hP, by simp [ho], .ok rfl⟩

/-! ## Composition -/

theorem mono {x : Emit ο' ε α} {y : Emit ο ε β} {T : α → β → Prop} (h : Simulates P erase R x y)
    (hRT : ∀ a b, R a b → T a b) : Simulates P erase T x y :=
  ⟨h.entries, h.out, h.result.mono hRT⟩

/-- One after the other; the second half may use what the first has returned. -/
theorem bind' {x : Emit ο' ε α} {y : Emit ο ε β} {f : α → Emit ο' ε α'} {g : β → Emit ο ε β'}
    (h : Simulates P erase R x y)
    (hf : ∀ a b, x.result = .ok a → y.result = .ok b → R a b →
      Simulates P erase S (f a) (g b)) : Simulates P erase S (x >>= f) (y >>= g) := by
  have hresult := h.result
  generalize hx : x.result = xr at hresult
  generalize hy : y.result = yr at hresult
  cases hresult with
  | error e =>
    rw [Emit.bind_error hx, Emit.bind_error hy]
    exact ⟨h.entries, h.out, .error e⟩
  | @ok a b hab =>
    have hrest := hf a b hx hy hab
    rw [Emit.bind_ok hx, Emit.bind_ok hy]
    refine ⟨?_, ?_, hrest.result⟩
    · intro e he
      rcases List.mem_append.mp he with he | he
      · exact h.entries e he
      · exact hrest.entries e he
    · rw [List.filterMap_append, h.out, hrest.out]

theorem bind {x : Emit ο' ε α} {y : Emit ο ε β} {f : α → Emit ο' ε α'} {g : β → Emit ο ε β'}
    (h : Simulates P erase R x y) (hf : ∀ a b, R a b → Simulates P erase S (f a) (g b)) :
    Simulates P erase S (x >>= f) (y >>= g) :=
  h.bind' fun a b _ _ => hf a b

/-- The same, where the other program writes nothing. -/
theorem bind_except {x : Emit ο' ε α} {y : Except ε β} {f : α → Emit ο' ε α'}
    {g : β → Except ε β'} (h : Simulates P erase R x (Emit.ofExcept y))
    (hf : ∀ a b, R a b → Simulates P erase S (f a) (Emit.ofExcept (g b))) :
    Simulates P erase S (x >>= f) (Emit.ofExcept (y >>= g)) := by
  rw [Emit.ofExcept_bind]
  exact h.bind hf

/-- A first half that the other program does not have. -/
theorem bind_left {x : Emit ο' ε α} {f : α → Emit ο' ε α'} {b : β} {y : Emit ο ε β'}
    (h : Simulates P erase R x (Pure.pure b)) (hf : ∀ a, R a b → Simulates P erase S (f a) y) :
    Simulates P erase S (x >>= f) y := by
  rw [← pure_bind b fun _ => y]
  refine h.bind' fun a b' _ hb hab => ?_
  cases hb
  exact hf a hab

/-- A branch that both take. -/
theorem ite {p q : Prop} [Decidable p] [Decidable q] {x x' : Emit ο' ε α} {y y' : Emit ο ε β}
    (hpq : p ↔ q) (hthen : q → Simulates P erase R x y) (helse : ¬ q → Simulates P erase R x' y') :
    Simulates P erase R (if p then x else x') (if q then y else y') := by
  by_cases hq : q
  · rw [if_pos (hpq.mpr hq), if_pos hq]
    exact hthen hq
  · rw [if_neg (mt hpq.mp hq), if_neg hq]
    exact helse hq

/-- Both write their entries in another form. -/
theorem mapOut {ρ ρ' : Type} {x : Emit ο' ε α} {y : Emit ο ε β} {f : ο' → ρ'} {g : ο → ρ}
    {Q : ρ' → Prop} {erase' : ρ' → Option ρ} (h : Simulates P erase R x y)
    (hP : ∀ e, P e → Q (f e)) (herase : ∀ e, erase' (f e) = (erase e).map g) :
    Simulates Q erase' R (x.mapOut f) (y.mapOut g) where
  entries e he := by
    obtain ⟨e', he', rfl⟩ := List.mem_map.mp he
    exact hP e' (h.entries e' he')
  out := by
    rw [Emit.mapOut_out, Emit.mapOut_out, ← h.out, List.filterMap_map, List.map_filterMap]
    congr 1
    funext e
    exact herase e
  result := h.result

/-! ## Loops and stages -/

/-- The two leave off at the same place, in states that `R` relates over the rest. -/
inductive SameProgress (R : List ι → σ → τ → Prop) : Progress σ ι → Progress τ ι → Prop where
  | more {s : σ} {t : τ} (h : R [] s t) : SameProgress R (.more s) (.more t)
  | done {s : σ} {t : τ} {rest : List ι} (h : R rest s t) :
      SameProgress R (.done s rest) (.done t rest)

/-- Loops whose passes simulate each other. -/
theorem run (loop : InputLoop σ ι ο' ε) (loop' : InputLoop τ ι ο ε)
    {R : List ι → σ → τ → Prop}
    (hbody : ∀ s t input, input ≠ [] → R input s t →
      Simulates P erase (SameProgress R) (loop.body s input) (loop'.body t input))
    {s : σ} {t : τ} (input : List ι) (h : R input s t) :
    Simulates P erase (R []) (loop.run s input) (loop'.run t input) := by
  induction s, input using loop.induct generalizing t with
  | nil s => exact pure h
  | pass s input hne ih =>
    rw [loop.run_of_ne_nil s hne, loop'.run_of_ne_nil t hne]
    refine (hbody s t input hne h).bind' fun p p' hp _ hpp' => ?_
    cases hpp' with
    | more h => exact pure h
    | done h => exact ih _ _ hp h

/-- Stages whose calls simulate each other. -/
theorem feed {stage : Transform σ ι ο' ε} {stage' : Transform τ ι ο ε} {R : σ → τ → Prop}
    (htransform : ∀ s t chunk, R s t →
      Simulates P erase R (stage.transform s chunk) (stage'.transform t chunk))
    {s : σ} {t : τ} (chunks : List ι) (h : R s t) :
    Simulates P erase R (stage.feed s chunks) (stage'.feed t chunks) := by
  induction chunks generalizing s t with
  | nil => exact pure h
  | cons chunk chunks ih =>
    rw [Transform.feed_cons, Transform.feed_cons]
    exact (htransform s t chunk h).bind fun _ _ h => ih h

theorem complete {stage : Transform σ ι ο' ε} {stage' : Transform τ ι ο ε} {R : σ → τ → Prop}
    (htransform : ∀ s t chunk, R s t →
      Simulates P erase R (stage.transform s chunk) (stage'.transform t chunk))
    (hflush : ∀ s t, R s t → Simulates P erase Eq (stage.flush s) (stage'.flush t))
    {s : σ} {t : τ} (chunks : List ι) (h : R s t) :
    Simulates P erase Eq (stage.complete s chunks) (stage'.complete t chunks) :=
  (feed htransform chunks h).bind fun s t h => hflush s t h

end Simulates
end Chunked
