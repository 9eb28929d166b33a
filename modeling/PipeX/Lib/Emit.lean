/-
  PipeX.Lib.Emit

  Calls that write a list of outputs and then either return or fail.  What was
  written before a failure stays written, which is what distinguishes `Emit`
  from an `Except` computation with a list of results: a stream consumer sees
  the outputs of a call that later throws.
-/
import Mathlib.Data.List.Basic
import Mathlib.Data.List.Infix

namespace Chunked

/-- The outcome of one call: the outputs it wrote, in order, and how it ended. -/
structure Emit (ο ε α : Type) where
  out : List ο
  result : Except ε α
deriving Repr

namespace Emit

variable {ο ο' ε α β γ : Type}

@[ext] theorem ext {x y : Emit ο ε α} (hout : x.out = y.out) (hres : x.result = y.result) :
    x = y := by
  cases x; cases y; simp_all

/-- The continuation runs only when the first call returned; its outputs come
    after those already written. -/
def bind (x : Emit ο ε α) (f : α → Emit ο ε β) : Emit ο ε β :=
  match x.result with
  | .ok a => ⟨x.out ++ (f a).out, (f a).result⟩
  | .error e => ⟨x.out, .error e⟩

instance : Monad (Emit ο ε) where
  pure a := ⟨[], .ok a⟩
  bind := Emit.bind

/-- Write one output. -/
def push (o : ο) : Emit ο ε Unit := ⟨[o], .ok ()⟩

/-- Fail without writing anything. -/
def fail (e : ε) : Emit ο ε α := ⟨[], .error e⟩

/-- A call that writes nothing. -/
def ofExcept (x : Except ε α) : Emit ο ε α := ⟨[], x⟩

instance : MonadLift (Except ε) (Emit ο ε) := ⟨ofExcept⟩

@[simp] theorem pure_out (a : α) : (pure a : Emit ο ε α).out = [] := rfl
@[simp] theorem pure_result (a : α) : (pure a : Emit ο ε α).result = .ok a := rfl
@[simp] theorem push_out (o : ο) : (push o : Emit ο ε Unit).out = [o] := rfl
@[simp] theorem push_result (o : ο) : (push o : Emit ο ε Unit).result = .ok () := rfl
@[simp] theorem fail_out (e : ε) : (fail e : Emit ο ε α).out = [] := rfl
@[simp] theorem fail_result (e : ε) : (fail e : Emit ο ε α).result = .error e := rfl
@[simp] theorem ofExcept_out (x : Except ε α) : (ofExcept x : Emit ο ε α).out = [] := rfl
@[simp] theorem ofExcept_result (x : Except ε α) : (ofExcept x : Emit ο ε α).result = x := rfl
@[simp] theorem liftM_eq (x : Except ε α) : (liftM x : Emit ο ε α) = ofExcept x := rfl
@[simp] theorem monadLift_eq (x : Except ε α) : (MonadLift.monadLift x : Emit ο ε α) = ofExcept x :=
  rfl

theorem bind_ok {x : Emit ο ε α} {a : α} (h : x.result = .ok a) (f : α → Emit ο ε β) :
    x >>= f = ⟨x.out ++ (f a).out, (f a).result⟩ := by
  change Emit.bind x f = _
  rw [Emit.bind, h]

theorem bind_error {x : Emit ο ε α} {e : ε} (h : x.result = .error e) (f : α → Emit ο ε β) :
    x >>= f = ⟨x.out, .error e⟩ := by
  change Emit.bind x f = _
  rw [Emit.bind, h]

@[simp] theorem pure_bind' (a : α) (f : α → Emit ο ε β) : (pure a : Emit ο ε α) >>= f = f a := by
  rw [bind_ok rfl]
  simp

@[simp] theorem fail_bind (e : ε) (f : α → Emit ο ε β) : (fail e : Emit ο ε α) >>= f = fail e :=
  rfl

@[simp] theorem ofExcept_ok (a : α) : (ofExcept (.ok a) : Emit ο ε α) = pure a := rfl
@[simp] theorem ofExcept_pure (a : α) : (ofExcept (pure a) : Emit ο ε α) = pure a := rfl
@[simp] theorem ofExcept_error (e : ε) : (ofExcept (.error e) : Emit ο ε α) = fail e := rfl

theorem ofExcept_bind (x : Except ε α) (f : α → Except ε β) :
    (ofExcept (x >>= f) : Emit ο ε β) = ofExcept x >>= fun a => ofExcept (f a) := by
  cases x with
  | error e => rfl
  | ok a => rfl

theorem bind_assoc' (x : Emit ο ε α) (f : α → Emit ο ε β) (g : β → Emit ο ε γ) :
    x >>= f >>= g = x >>= fun a => f a >>= g := by
  cases hx : x.result with
  | error e => rw [bind_error hx, bind_error hx, bind_error rfl]
  | ok a =>
    rw [bind_ok hx, bind_ok hx]
    cases hf : (f a).result with
    | error e => rw [bind_error rfl, bind_error hf]
    | ok b =>
      rw [bind_ok rfl, bind_ok hf]
      simp only [List.append_assoc]

theorem bind_pure' (x : Emit ο ε α) : x >>= pure = x := by
  cases hx : x.result with
  | error e => rw [bind_error hx]; exact Emit.ext rfl hx.symm
  | ok a => rw [bind_ok hx]; exact Emit.ext (by simp) (by simp [hx])

instance : LawfulMonad (Emit ο ε) :=
  LawfulMonad.mk' _ (fun x => bind_pure' x) (fun a f => pure_bind' a f)
    (fun x f g => bind_assoc' x f g)

/-- Only the values a call can return matter to its continuation. -/
theorem bind_congr' {x : Emit ο ε α} {f g : α → Emit ο ε β}
    (h : ∀ a, x.result = .ok a → f a = g a) : x >>= f = x >>= g := by
  cases hx : x.result with
  | error e => rw [bind_error hx, bind_error hx]
  | ok a => rw [bind_ok hx, bind_ok hx, h a hx]

/-- A call that returned wrote exactly the outputs of its two halves. -/
theorem bind_eq_ok {x : Emit ο ε α} {f : α → Emit ο ε β} {b : β}
    (h : (x >>= f).result = .ok b) :
    ∃ a, x.result = .ok a ∧ (f a).result = .ok b ∧ (x >>= f).out = x.out ++ (f a).out := by
  cases hx : x.result with
  | error e => rw [bind_error hx] at h; cases h
  | ok a =>
    rw [bind_ok hx] at h ⊢
    exact ⟨a, rfl, h, rfl⟩

/-- A continuation that writes less makes the whole write less. -/
theorem bind_out_prefix {x : Emit ο ε α} {f : α → Emit ο ε β} {g : α → Emit ο ε γ}
    (h : ∀ a, x.result = .ok a → (f a).out <+: (g a).out) : (x >>= f).out <+: (x >>= g).out := by
  cases hx : x.result with
  | error e => rw [bind_error hx, bind_error hx]
  | ok a =>
    rw [bind_ok hx, bind_ok hx]
    exact (List.prefix_append_right_inj _).mpr (h a hx)

theorem bind_pure_out (x : Emit ο ε α) (f : α → β) : (x >>= fun a => pure (f a)).out = x.out := by
  cases hx : x.result with
  | error e => rw [bind_error hx]
  | ok a => rw [bind_ok hx, pure_out, List.append_nil]

theorem bind_result (x : Emit ο ε α) (f : α → Emit ο ε β) :
    (x >>= f).result = x.result.bind fun a => (f a).result := by
  cases hx : x.result with
  | error e => rw [bind_error hx]; rfl
  | ok a => rw [bind_ok hx]; rfl

/-- Whether the call returned. -/
def Succeeds (x : Emit ο ε α) : Prop := ∃ a, x.result = .ok a

@[simp] theorem succeeds_pure (a : α) : (pure a : Emit ο ε α).Succeeds := ⟨a, rfl⟩

@[simp] theorem not_succeeds_fail (e : ε) : ¬ (fail e : Emit ο ε α).Succeeds := by
  rintro ⟨a, h⟩
  cases h

theorem succeeds_bind (x : Emit ο ε α) (f : α → Emit ο ε β) :
    (x >>= f).Succeeds ↔ ∃ a, x.result = .ok a ∧ (f a).Succeeds := by
  constructor
  · rintro ⟨b, hb⟩
    obtain ⟨a, ha, hfa, -⟩ := bind_eq_ok hb
    exact ⟨a, ha, b, hfa⟩
  · rintro ⟨a, ha, b, hb⟩
    exact ⟨b, by rw [bind_ok ha]; exact hb⟩

/-! ## Outputs of another form -/

/-- The same call with every output rewritten. -/
def mapOut (g : ο → ο') (x : Emit ο ε α) : Emit ο' ε α := ⟨x.out.map g, x.result⟩

@[simp] theorem mapOut_out (g : ο → ο') (x : Emit ο ε α) : (x.mapOut g).out = x.out.map g := rfl
@[simp] theorem mapOut_result (g : ο → ο') (x : Emit ο ε α) : (x.mapOut g).result = x.result := rfl
@[simp] theorem mapOut_mapOut {ο'' : Type} (g : ο → ο') (g' : ο' → ο'') (x : Emit ο ε α) :
    (x.mapOut g).mapOut g' = x.mapOut fun o => g' (g o) := by
  simp [mapOut]

@[simp] theorem mapOut_pure (g : ο → ο') (a : α) :
    (pure a : Emit ο ε α).mapOut g = pure a := rfl
@[simp] theorem mapOut_push (g : ο → ο') (o : ο) :
    (push o : Emit ο ε Unit).mapOut g = push (g o) := rfl
@[simp] theorem mapOut_ofExcept (g : ο → ο') (x : Except ε α) :
    (ofExcept x : Emit ο ε α).mapOut g = ofExcept x := rfl

@[simp] theorem mapOut_bind (g : ο → ο') (x : Emit ο ε α) (f : α → Emit ο ε β) :
    (x >>= f).mapOut g = x.mapOut g >>= fun a => (f a).mapOut g := by
  cases hx : x.result with
  | error e =>
    have hx' : (x.mapOut g).result = .error e := hx
    rw [bind_error hx, bind_error hx']
    rfl
  | ok a =>
    have hx' : (x.mapOut g).result = .ok a := hx
    rw [bind_ok hx, bind_ok hx']
    simp [mapOut]

/-! ## Pieces of a whole -/

/-- The call writes, piece by piece, what `whole` returns, and fails where `whole`
    fails. -/
def Delivers (x : Emit (List ο) ε Unit) (whole : Except ε (List ο)) : Prop :=
  (x.Succeeds ↔ ∃ all, whole = .ok all) ∧ ∀ all, whole = .ok all → x.out.flatten = all

theorem delivers_error {x : Emit (List ο) ε Unit} (h : ¬ x.Succeeds) (e : ε) :
    x.Delivers (.error e) := by
  refine ⟨⟨fun hx => absurd hx h, ?_⟩, fun _ he => by cases he⟩
  rintro ⟨_, he⟩
  cases he

theorem delivers_ok {x : Emit (List ο) ε Unit} {all : List ο} (hres : x.result = .ok ())
    (hout : x.out.flatten = all) : x.Delivers (.ok all) := by
  refine ⟨⟨fun _ => ⟨all, rfl⟩, fun _ => ⟨(), hres⟩⟩, fun _ h => ?_⟩
  cases h
  exact hout

/-- The whole in one piece. -/
theorem delivers_push (whole : Except ε (List ο)) : (ofExcept whole >>= push).Delivers whole := by
  cases whole with
  | error e => exact delivers_error (not_succeeds_fail e) e
  | ok all => exact delivers_ok rfl (by simp)

end Emit
end Chunked
