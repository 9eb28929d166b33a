/-
  PipeX.Lib.Transition

  Machines that take actions one after another.

  A `Machine` says which actions are enabled in a state and what they lead to.
  Its runs are lists of actions; `Along` is a property of every step of a run,
  and a run is `Legal` if every action is enabled when its turn comes.

  * `invariant` — what every step preserves holds at the end of every run.
  * `along_of_invariant` — what an invariant implies of the next step holds of
    every step.
  * `count_add_le` — a measure bounds the number of the steps that lower it.
  * `restrict` — the same machine under a condition on its steps.
-/
import Mathlib.Tactic.Common

namespace Transition

/-- Which actions are enabled in a state, and what they lead to. -/
structure Machine (σ α : Type) where
  enabled : σ → α → Prop
  step : σ → α → σ

namespace Machine

variable {σ α : Type} (m : Machine σ α)

/-- The state behind a list of actions. -/
def run (s : σ) (actions : List α) : σ := actions.foldl m.step s

/-- A property of every step: of the state before it and its action. -/
def Along (Q : σ → α → Prop) : σ → List α → Prop
  | _, [] => True
  | s, a :: actions => Q s a ∧ Along Q (m.step s a) actions

/-- Every action is enabled when its turn comes. -/
def Legal (s : σ) (actions : List α) : Prop := m.Along m.enabled s actions

@[simp] theorem run_nil (s : σ) : m.run s [] = s := rfl

@[simp] theorem run_cons (s : σ) (a : α) (actions : List α) :
    m.run s (a :: actions) = m.run (m.step s a) actions := rfl

theorem run_append (s : σ) (as bs : List α) : m.run s (as ++ bs) = m.run (m.run s as) bs :=
  List.foldl_append

instance decidableAlong (Q : σ → α → Prop) [∀ s a, Decidable (Q s a)] :
    ∀ s actions, Decidable (m.Along Q s actions)
  | _, [] => isTrue trivial
  | s, a :: actions =>
    have := decidableAlong Q (m.step s a) actions
    inferInstanceAs (Decidable (Q s a ∧ m.Along Q (m.step s a) actions))

instance decidableLegal [∀ s a, Decidable (m.enabled s a)] (s : σ) (actions : List α) :
    Decidable (m.Legal s actions) :=
  inferInstanceAs (Decidable (m.Along m.enabled s actions))

variable {m}

/-- What every step preserves holds at the end of every run. -/
theorem invariant {P : σ → Prop} (hstep : ∀ s a, P s → m.enabled s a → P (m.step s a)) {s : σ}
    {actions : List α} (h : P s) (hlegal : m.Legal s actions) : P (m.run s actions) := by
  induction actions generalizing s with
  | nil => exact h
  | cons a actions ih =>
    obtain ⟨henabled, hlegal⟩ := hlegal
    exact ih (hstep s a h henabled) hlegal

/-- The same for runs over some of the actions only. -/
theorem invariant_of_forall {P : σ → Prop} {C : α → Prop}
    (hstep : ∀ s a, P s → m.enabled s a → C a → P (m.step s a)) {s : σ} {actions : List α}
    (h : P s) (hlegal : m.Legal s actions) (hC : ∀ a ∈ actions, C a) : P (m.run s actions) := by
  induction actions generalizing s with
  | nil => exact h
  | cons a actions ih =>
    obtain ⟨henabled, hlegal⟩ := hlegal
    have ha := hC a (List.mem_cons_self ..)
    exact ih (hstep s a h henabled ha) hlegal fun b hb => hC b (List.mem_cons_of_mem _ hb)

/-- What an invariant implies of the next step holds of every step. -/
theorem along_of_invariant {P : σ → Prop} {Q : σ → α → Prop}
    (hstep : ∀ s a, P s → m.enabled s a → P (m.step s a))
    (hnext : ∀ s a, P s → m.enabled s a → Q s a) {s : σ} {actions : List α} (h : P s)
    (hlegal : m.Legal s actions) : m.Along Q s actions := by
  induction actions generalizing s with
  | nil => trivial
  | cons a actions ih =>
    obtain ⟨henabled, hlegal⟩ := hlegal
    exact ⟨hnext s a h henabled, ih (hstep s a h henabled) hlegal⟩

theorem along_append {Q : σ → α → Prop} {s : σ} {as bs : List α} :
    m.Along Q s (as ++ bs) ↔ m.Along Q s as ∧ m.Along Q (m.run s as) bs := by
  induction as generalizing s with
  | nil => simp [Along]
  | cons a as ih =>
    rw [List.cons_append, Along, Along, run_cons, ih, and_assoc]

variable (m) in
/-- A legal run from one state to another. -/
def Leads (s : σ) (actions : List α) (s' : σ) : Prop := m.Legal s actions ∧ m.run s actions = s'

theorem Leads.append {s s' s'' : σ} {as bs : List α} (h : m.Leads s as s')
    (h' : m.Leads s' bs s'') : m.Leads s (as ++ bs) s'' := by
  obtain ⟨hlegal, rfl⟩ := h
  obtain ⟨hlegal', rfl⟩ := h'
  exact ⟨along_append.mpr ⟨hlegal, hlegal'⟩, m.run_append s as bs⟩

/-- How many steps of a run have a property. -/
def count (m : Machine σ α) (Q : σ → α → Bool) : σ → List α → Nat
  | _, [] => 0
  | s, a :: actions => (if Q s a then 1 else 0) + m.count Q (m.step s a) actions

/-- Where such steps lower a measure and the others do not raise it, it bounds their
    number. -/
theorem count_add_le {P : σ → Prop} {Q : σ → α → Bool} {measure : σ → Nat}
    (hstep : ∀ s a, P s → m.enabled s a → P (m.step s a))
    (hmeasure : ∀ s a, P s → m.enabled s a →
      (if Q s a then 1 else 0) + measure (m.step s a) ≤ measure s)
    {s : σ} {actions : List α} (h : P s) (hlegal : m.Legal s actions) :
    m.count Q s actions + measure (m.run s actions) ≤ measure s := by
  induction actions generalizing s with
  | nil => exact Nat.le_of_eq (Nat.zero_add _)
  | cons a actions ih =>
    obtain ⟨henabled, hlegal⟩ := hlegal
    have hrest := ih (hstep s a h henabled) hlegal
    have hfirst := hmeasure s a h henabled
    rw [count, run_cons]
    omega

/-- Every beginning of a legal run is one. -/
theorem legal_of_front {s : σ} {front actions : List α} (hfront : front <+: actions)
    (hlegal : m.Legal s actions) : m.Legal s front := by
  obtain ⟨rest, rfl⟩ := hfront
  exact (along_append.mp hlegal).1

theorem along_and {Q R : σ → α → Prop} {s : σ} {actions : List α} (hQ : m.Along Q s actions)
    (hR : m.Along R s actions) : m.Along (fun s a => Q s a ∧ R s a) s actions := by
  induction actions generalizing s with
  | nil => trivial
  | cons a actions ih => exact ⟨⟨hQ.1, hR.1⟩, ih hQ.2 hR.2⟩

variable (m)

/-- The machine that takes only the steps that meet a condition. -/
def restrict (C : σ → α → Prop) : Machine σ α where
  enabled s a := m.enabled s a ∧ C s a
  step := m.step

variable {m}

theorem restrict_along {C Q : σ → α → Prop} {s : σ} {actions : List α} :
    (m.restrict C).Along Q s actions ↔ m.Along Q s actions := by
  induction actions generalizing s with
  | nil => exact Iff.rfl
  | cons a actions ih => exact and_congr_right fun _ => ih

theorem restrict_count {C : σ → α → Prop} {Q : σ → α → Bool} {s : σ} {actions : List α} :
    (m.restrict C).count Q s actions = m.count Q s actions := by
  induction actions generalizing s with
  | nil => rfl
  | cons a actions ih =>
    rw [count, count, ih]
    rfl

/-- A legal run whose steps meet the condition is one of the restricted machine. -/
theorem restrict_legal {C : σ → α → Prop} {s : σ} {actions : List α} (hlegal : m.Legal s actions)
    (hC : m.Along C s actions) : (m.restrict C).Legal s actions :=
  restrict_along.mpr (along_and hlegal hC)

end Machine
end Transition
