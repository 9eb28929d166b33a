/-
  PipeX.Lib.Outcome

  `Except` computations, read from their end: what has gone through when a
  computation returned, and when two computations come to the same.
-/
import Mathlib.Tactic.Common

namespace Outcomes

variable {ε α β : Type}

/-! ## Computations that returned -/

/-- Both halves of a computation that returned have returned. -/
theorem bind_ok {x : Except ε α} {f : α → Except ε β} {b : β} (h : x >>= f = .ok b) :
    ∃ a, x = .ok a ∧ f a = .ok b := by
  cases x with
  | error e => cases h
  | ok a => exact ⟨a, rfl, h⟩

theorem bind_ok_iff {x : Except ε α} {f : α → Except ε β} {b : β} :
    x >>= f = .ok b ↔ ∃ a, x = .ok a ∧ f a = .ok b := by
  refine ⟨bind_ok, ?_⟩
  rintro ⟨a, rfl, h⟩
  exact h

/-- A loop that threw has thrown at one of the items, behind those that went through. -/
theorem foldlM_error {f : β → α → Except ε β} {items : List α} {b : β} {e : ε}
    (h : items.foldlM f b = .error e) :
    ∃ before item after middle, items = before ++ item :: after ∧
      before.foldlM f b = .ok middle ∧ f middle item = .error e := by
  induction items generalizing b with
  | nil => cases h
  | cons item items ih =>
    rw [List.foldlM_cons] at h
    cases hitem : f b item with
    | error e' =>
      rw [hitem] at h
      cases h
      exact ⟨[], item, items, b, rfl, rfl, hitem⟩
    | ok next =>
      rw [hitem] at h
      obtain ⟨before, failed, after, middle, hsplit, hbefore, hfails⟩ := ih h
      refine ⟨item :: before, failed, after, middle, ?_, ?_, hfails⟩
      · rw [hsplit, List.cons_append]
      · rw [List.foldlM_cons, hitem]
        exact hbefore

/-- A map over items that all go through goes through. -/
theorem mapM_ok {f : α → Except ε β} {items : List α} (h : ∀ item ∈ items, ∃ b, f item = .ok b) :
    ∃ results, items.mapM f = .ok results ∧ results.length = items.length := by
  induction items with
  | nil => exact ⟨[], rfl, rfl⟩
  | cons item items ih =>
    obtain ⟨b, hb⟩ := h item (List.mem_cons_self ..)
    obtain ⟨results, hresults, hlength⟩ := ih fun other hother =>
      h other (List.mem_cons_of_mem _ hother)
    refine ⟨b :: results, ?_, congrArg Nat.succ hlength⟩
    rw [List.mapM_cons, hb, hresults]
    rfl

/-- No guard has fired in front of it, -/
theorem guard_ok {c : Prop} [Decidable c] {e : ε} {f : PUnit → Except ε β} {x : Except ε β} {b : β}
    (h : (if c then throw e >>= f else x) = .ok b) : ¬ c ∧ x = .ok b := by
  by_cases hc : c
  · rw [if_pos hc] at h
    cases h
  · rw [if_neg hc] at h
    exact ⟨hc, h⟩

/-- also where the guard is the other branch of a result, -/
theorem guard_or_ok {c : Prop} [Decidable c] {e : ε} {x : Except ε β} {b : β}
    (h : (if c then throw e else x) = .ok b) : ¬ c ∧ x = .ok b := by
  by_cases hc : c
  · rw [if_pos hc] at h
    cases h
  · rw [if_neg hc] at h
    exact ⟨hc, h⟩

/-- and a check that is made in some cases only has let it through. -/
theorem check_ok {c : Prop} [Decidable c] {x : Except ε α} {y : Except ε β} {b : β}
    (h : (if c then x >>= fun _ => y else y) = .ok b) : y = .ok b := by
  by_cases hc : c
  · rw [if_pos hc] at h
    obtain ⟨-, -, h⟩ := bind_ok h
    exact h
  · rw [if_neg hc] at h
    exact h

/-! ## Agreement -/

/-- Both return, and the same value, or both fail. -/
def Agree : Except ε α → Except ε α → Prop
  | .ok a, .ok b => a = b
  | .error _, .error _ => True
  | _, _ => False

@[refl] theorem agree_refl (x : Except ε α) : Agree x x := by
  cases x with
  | error e => trivial
  | ok a => rfl

theorem agree_ok {x : Except ε α} {a : α} (h : Agree x (.ok a)) : x = .ok a := by
  cases x with
  | error e => exact absurd h id
  | ok b => exact congrArg Except.ok h

theorem agree_trans {x y z : Except ε α} (hxy : Agree x y) (hyz : Agree y z) : Agree x z := by
  cases x with
  | error e =>
    cases z with
    | error e' => trivial
    | ok c =>
      cases y with
      | error e' => exact absurd hyz id
      | ok b => exact absurd hxy id
  | ok a =>
    cases y with
    | error e => exact absurd hxy id
    | ok b =>
      cases hxy
      exact hyz

@[symm] theorem agree_symm {x y : Except ε α} (h : Agree x y) : Agree y x := by
  cases x with
  | error e =>
    cases y with
    | error e' => trivial
    | ok b => exact absurd h id
  | ok a =>
    cases y with
    | error e => exact absurd h id
    | ok b => exact Eq.symm h

theorem agree_map {x y : Except ε α} (h : Agree x y) (f : α → β) : Agree (x.map f) (y.map f) := by
  cases x with
  | error e =>
    cases y with
    | error e' => trivial
    | ok b => exact absurd h id
  | ok a =>
    cases y with
    | error e => exact absurd h id
    | ok b => exact congrArg f h

theorem agree_bind {x y : Except ε α} (h : Agree x y) {f g : α → Except ε β}
    (hfg : ∀ a, x = .ok a → Agree (f a) (g a)) : Agree (x >>= f) (y >>= g) := by
  cases x with
  | error e =>
    cases y with
    | error e' => trivial
    | ok b => exact absurd h id
  | ok a =>
    cases y with
    | error e' => exact absurd h id
    | ok b =>
      cases h
      exact hfg a rfl

end Outcomes
