/-
  PipeX.Core.FrameLimits.Residual

  The automaton of the profile: a state for every way a value can be cut, and its
  step by one byte.

  A state needs no stack.  The values still to come follow one another whatever
  array, map or extension they belong to, so that their number `m` is enough.
  `rest_cons` is the derivative of the language of a state; from it follow that a
  value has no proper prefix that is a value (`rest_prefix_free`), and that a
  state needs at least `minimum` more bytes (`minimum_le_length`).
-/
import PipeX.Core.FrameLimits.Grammar

namespace PipeX.FrameLimits

open BigEndian

/-- What is still to come of a value; `m` more values follow in each case. -/
inductive Residual where
  | values (m : Nat)
  | payload (left m : Nat)
  | extensionType (bytes m : Nat)
  | length (left value : Nat) (f : Field) (m : Nat)
deriving DecidableEq, Repr

namespace Residual

/-- An empty payload is no state of its own. -/
def afterPayload (left m : Nat) : Residual := if left = 0 then .values m else .payload left m

def ofContent (m : Nat) : Content → Residual
  | .payload n => afterPayload n m
  | .children n => .values (n + m)
  | .extension n => .extensionType n m

def ofOpening (m : Nat) : Opening → Residual
  | .direct content => ofContent m content
  | .lengthField width f => .length width 0 f m

/-- One more byte; `none` where it cannot be part of a value. -/
def step (b : UInt8) : Residual → Option Residual
  | .values 0 => none
  | .values (m + 1) => (opening b).map (ofOpening m)
  | .payload left m => some (afterPayload (left - 1) m)
  | .extensionType bytes m =>
    if takesValue b then some (afterPayload bytes (m + 1))
    else if standsAlone b then some (afterPayload bytes m)
    else none
  | .length left value f m =>
    if left = 1 then some (ofContent m (f.content (value * 256 + b.toNat)))
    else some (.length (left - 1) (value * 256 + b.toNat) f m)

/-- The language of a state. -/
def Rest : Residual → Bytes → Prop
  | .values m, q => Values m q
  | .payload left m, q => (Content.payload left).Rest m q
  | .extensionType bytes m, q => (Content.extension bytes).Rest m q
  | .length left value f m, q =>
    ∃ l r, l.length = left ∧ (f.content (value * 256 ^ left + beNat l)).Rest m r ∧ q = l ++ r

/-- What is being filled is not full yet. -/
def Proper : Residual → Prop
  | .payload left _ => 0 < left
  | .length left _ _ _ => 0 < left
  | _ => True

/-! ## The language of a state -/

theorem afterPayload_proper (left m : Nat) : (afterPayload left m).Proper := by
  rw [afterPayload]
  split
  · trivial
  · exact Nat.pos_of_ne_zero ‹_›

theorem ofContent_proper (m : Nat) (content : Content) : (ofContent m content).Proper := by
  cases content with
  | payload n => exact afterPayload_proper n m
  | children n => trivial
  | extension n => trivial

theorem rest_afterPayload {left m : Nat} {q : Bytes} :
    (afterPayload left m).Rest q ↔ (Content.payload left).Rest m q := by
  rw [afterPayload]
  split
  · rename_i hleft
    subst hleft
    constructor
    · exact fun h => ⟨[], q, rfl, h, rfl⟩
    · rintro ⟨p, r, hp, hr, rfl⟩
      rw [List.length_eq_zero_iff.mp hp]
      exact hr
  · rfl

theorem rest_ofContent {m : Nat} {content : Content} {q : Bytes} :
    (ofContent m content).Rest q ↔ content.Rest m q := by
  cases content with
  | payload n => exact rest_afterPayload
  | children n => rfl
  | extension n => rfl

/-- One value after another: what a head announces, and then the others. -/
theorem content_rest_iff {m : Nat} {content : Content} {q : Bytes} :
    content.Rest m q ↔ ∃ body r, content.Rest 0 body ∧ Values m r ∧ q = body ++ r := by
  cases content with
  | payload n =>
    constructor
    · rintro ⟨p, r, hp, hr, rfl⟩
      exact ⟨p, r, ⟨p, [], hp, values_zero_iff.mpr rfl, by simp⟩, hr, rfl⟩
    · rintro ⟨body, r, ⟨p, e, hp, he, rfl⟩, hr, rfl⟩
      rw [values_zero_iff.mp he, List.append_nil]
      exact ⟨p, r, hp, hr, rfl⟩
  | children n => exact values_add_iff
  -- the type byte of an extension says whether a value belongs to it
  | extension n =>
    constructor
    · rintro ⟨type, p, r, hp, rfl, ⟨htype, hr⟩ | ⟨htype, hr⟩⟩
      · exact ⟨type :: p, r, ⟨type, p, [], hp, by simp, .inl ⟨htype, values_zero_iff.mpr rfl⟩⟩, hr,
          rfl⟩
      · rw [Nat.add_comm, values_add_iff] at hr
        obtain ⟨v, r', hv, hr', rfl⟩ := hr
        exact ⟨type :: p ++ v, r', ⟨type, p, v, hp, rfl, .inr ⟨htype, hv⟩⟩, hr', by simp⟩
    · rintro ⟨body, r, ⟨type, p, e, hp, rfl, ⟨htype, he⟩ | ⟨htype, he⟩⟩, hr, rfl⟩
      · rw [values_zero_iff.mp he, List.append_nil]
        exact ⟨type, p, r, hp, rfl, .inl ⟨htype, hr⟩⟩
      · refine ⟨type, p, e ++ r, hp, by simp, .inr ⟨htype, ?_⟩⟩
        rw [Nat.add_comm, values_add_iff]
        exact ⟨e, r, he, hr, rfl⟩

/-- A value more is a head more. -/
theorem values_succ_iff {m : Nat} {q : Bytes} :
    Values (m + 1) q ↔ ∃ head content r, Head head content ∧ content.Rest m r ∧ q = head ++ r := by
  rw [Nat.add_comm, values_add_iff]
  constructor
  · rintro ⟨v, r, hv, hr, rfl⟩
    obtain ⟨head, content, body, h, hbody, rfl⟩ := isValue_iff.mp (values_one_iff.mp hv)
    exact ⟨head, content, body ++ r, h, content_rest_iff.mpr ⟨body, r, hbody, hr, rfl⟩, by simp⟩
  · rintro ⟨head, content, r, h, hr, rfl⟩
    obtain ⟨body, r', hbody, hr', rfl⟩ := content_rest_iff.mp hr
    exact ⟨head ++ body, r', values_one_iff.mpr (isValue_iff.mpr ⟨head, content, body, h, hbody, rfl⟩),
      hr', by simp⟩

/-- The first byte of a value. -/
theorem values_succ_cons {m : Nat} {b : UInt8} {q : Bytes} :
    Values (m + 1) (b :: q) ↔ ∃ o, opening b = some o ∧ (ofOpening m o).Rest q := by
  rw [values_succ_iff]
  constructor
  · rintro ⟨head, content, r, h, hr, heq⟩
    obtain ⟨b', l, rfl⟩ := List.exists_cons_of_ne_nil (head_ne_nil h)
    rw [List.cons_append, List.cons.injEq] at heq
    obtain ⟨rfl, rfl⟩ := heq
    -- the first byte opens the head
    obtain ⟨o, ho, hl⟩ := head_cons_iff.mp h
    refine ⟨o, ho, ?_⟩
    cases o with
    | direct content' =>
      obtain ⟨rfl, rfl⟩ := hl
      exact rest_ofContent.mpr hr
    | lengthField width f =>
      obtain ⟨hwidth, rfl⟩ := hl
      exact ⟨l, r, hwidth, by simpa using hr, rfl⟩
  · rintro ⟨o, ho, hrest⟩
    cases o with
    | direct content =>
      exact ⟨[b], content, q, head_cons_iff.mpr ⟨_, ho, rfl, rfl⟩, rest_ofContent.mp hrest, rfl⟩
    | lengthField width f =>
      obtain ⟨l, r, hwidth, hr, rfl⟩ := hrest
      exact ⟨b :: l, _, r, head_cons_iff.mpr ⟨_, ho, hwidth, rfl⟩, by simpa using hr, rfl⟩

/-! ## The derivative -/

theorem step_proper {r r' : Residual} {b : UInt8} (h : r.step b = some r') (hr : r.Proper) :
    r'.Proper := by
  cases r with
  | values m =>
    cases m with
    | zero => cases h
    | succ m =>
      obtain ⟨o, ho, rfl⟩ := Option.map_eq_some_iff.mp h
      cases o with
      | direct content => exact ofContent_proper m content
      | lengthField width f => exact opening_width ho
  | payload left m =>
    cases h
    exact afterPayload_proper _ m
  | extensionType bytes m =>
    simp only [step] at h
    split at h
    · cases h
      exact afterPayload_proper _ _
    · split at h
      · cases h
        exact afterPayload_proper _ _
      · cases h
  | length left value f m =>
    simp only [step] at h
    split at h
    · cases h
      exact ofContent_proper _ _
    · cases h
      change 0 < left - 1
      change 0 < left at hr
      omega

theorem payload_rest_cons {left m : Nat} (hleft : 0 < left) {b : UInt8} {q : Bytes} :
    (Content.payload left).Rest m (b :: q) ↔ (Content.payload (left - 1)).Rest m q := by
  constructor
  · rintro ⟨p, r, hp, hr, heq⟩
    cases p with
    | nil =>
      rw [List.length_nil] at hp
      omega
    | cons b' p =>
      rw [List.cons_append, List.cons.injEq] at heq
      obtain ⟨rfl, rfl⟩ := heq
      rw [List.length_cons] at hp
      exact ⟨p, r, by omega, hr, rfl⟩
  · rintro ⟨p, r, hp, hr, rfl⟩
    exact ⟨b :: p, r, by rw [List.length_cons]; omega, hr, rfl⟩

theorem extension_rest_cons {bytes m : Nat} {b : UInt8} {q : Bytes} :
    (Content.extension bytes).Rest m (b :: q) ↔
      (standsAlone b = true ∧ (Content.payload bytes).Rest m q) ∨
        (takesValue b = true ∧ (Content.payload bytes).Rest (m + 1) q) := by
  constructor
  · rintro ⟨type, p, r, hp, heq, htype⟩
    rw [List.cons_append, List.cons.injEq] at heq
    obtain ⟨rfl, rfl⟩ := heq
    rcases htype with ⟨htype, hr⟩ | ⟨htype, hr⟩
    · exact .inl ⟨htype, p, r, hp, hr, rfl⟩
    · exact .inr ⟨htype, p, r, hp, hr, rfl⟩
  · rintro (⟨htype, p, r, hp, hr, rfl⟩ | ⟨htype, p, r, hp, hr, rfl⟩)
    · exact ⟨b, p, r, hp, rfl, .inl ⟨htype, hr⟩⟩
    · exact ⟨b, p, r, hp, rfl, .inr ⟨htype, hr⟩⟩

theorem length_rest_cons {left value m : Nat} {f : Field} {b : UInt8} {q : Bytes} :
    (Residual.length (left + 1) value f m).Rest (b :: q) ↔
      (Residual.length left (value * 256 + b.toNat) f m).Rest q := by
  -- the bytes of the field are big-endian, so each one shifts the others
  have hvalue : ∀ l : Bytes, l.length = left →
      value * 256 ^ (left + 1) + beNat (b :: l) =
        (value * 256 + b.toNat) * 256 ^ left + beNat l := by
    intro l hl
    rw [beNat_cons, hl, Nat.pow_succ]
    ring
  constructor
  · rintro ⟨l, r, hl, hr, heq⟩
    cases l with
    | nil => cases hl
    | cons b' l =>
      rw [List.cons_append, List.cons.injEq] at heq
      obtain ⟨rfl, rfl⟩ := heq
      have hl' : l.length = left := by simpa using hl
      rw [hvalue l hl'] at hr
      exact ⟨l, r, hl', hr, rfl⟩
  · rintro ⟨l, r, hl, hr, rfl⟩
    rw [← hvalue l hl] at hr
    exact ⟨b :: l, r, by rw [List.length_cons, hl], hr, rfl⟩

/-- The derivative of the language of a state by one byte is the language of the
    next state. -/
theorem rest_cons {r : Residual} (hr : r.Proper) {b : UInt8} {q : Bytes} :
    r.Rest (b :: q) ↔ ∃ r', r.step b = some r' ∧ r'.Rest q := by
  cases r with
  | values m =>
    cases m with
    | zero => simp [Rest, step, values_zero_iff]
    | succ m =>
      refine values_succ_cons.trans ?_
      simp only [step, Option.map_eq_some_iff, exists_exists_and_eq_and]
  | payload left m =>
    refine (payload_rest_cons hr).trans ?_
    simp only [step, Option.some.injEq, exists_eq_left', rest_afterPayload]
  | extensionType bytes m =>
    refine extension_rest_cons.trans ?_
    -- the two kinds of type bytes exclude each other
    by_cases htakes : takesValue b = true
    · simp only [step, htakes, not_standsAlone_of_takesValue htakes, if_true, Bool.false_eq_true,
        false_and, true_and, false_or, Option.some.injEq, exists_eq_left', rest_afterPayload]
    · by_cases halone : standsAlone b = true
      · simp only [step, htakes, halone, if_true, Bool.false_eq_true, if_false, false_and, true_and,
          or_false, Option.some.injEq, exists_eq_left', rest_afterPayload]
      · simp [step, htakes, halone]
  | length left value f m =>
    obtain ⟨left, rfl⟩ : ∃ n, left = n + 1 := Nat.exists_eq_succ_of_ne_zero (Nat.ne_of_gt hr)
    rw [length_rest_cons]
    -- the last byte of the field ends it
    by_cases hone : left = 0
    · subst hone
      simp only [step, Nat.zero_add, if_true, Option.some.injEq, exists_eq_left', rest_ofContent]
      constructor
      · rintro ⟨l, r, hl, hr, rfl⟩
        rw [List.length_eq_zero_iff.mp hl] at hr ⊢
        simpa using hr
      · intro h
        exact ⟨[], q, rfl, by simpa using h, rfl⟩
    · simp only [step, show ¬ left + 1 = 1 from by omega, if_false, Option.some.injEq,
        exists_eq_left', Nat.add_sub_cancel]

/-- The state behind more bytes. -/
def reach (r : Residual) : Bytes → Option Residual
  | [] => some r
  | b :: q => (r.step b).bind fun r' => r'.reach q

theorem reach_append {r : Residual} {p q : Bytes} :
    r.reach (p ++ q) = (r.reach p).bind fun r' => r'.reach q := by
  induction p generalizing r with
  | nil => rfl
  | cons b p ih =>
    simp only [List.cons_append, reach]
    cases r.step b with
    | none => rfl
    | some r' => exact ih

theorem reach_snoc {r r' r'' : Residual} {p : Bytes} {b : UInt8} (hp : r.reach p = some r')
    (hb : r'.step b = some r'') : r.reach (p ++ [b]) = some r'' := by
  rw [reach_append, hp, Option.bind_some, reach, hb]
  rfl

theorem reach_proper {r r' : Residual} {p : Bytes} (h : r.reach p = some r') (hr : r.Proper) :
    r'.Proper := by
  induction p generalizing r with
  | nil =>
    cases h
    exact hr
  | cons b p ih =>
    obtain ⟨r₁, hstep, hreach⟩ := Option.bind_eq_some_iff.mp h
    exact ih hreach (step_proper hstep hr)

/-- What goes on from a state goes on from where its beginning leads. -/
theorem rest_append {r : Residual} (hr : r.Proper) {p q : Bytes} :
    r.Rest (p ++ q) ↔ ∃ r', r.reach p = some r' ∧ r'.Rest q := by
  induction p generalizing r with
  | nil => simp [reach]
  | cons b p ih =>
    rw [List.cons_append, rest_cons hr]
    simp only [reach, Option.bind_eq_some_iff]
    constructor
    · rintro ⟨r', hstep, hrest⟩
      obtain ⟨r'', hreach, hq⟩ := (ih (step_proper hstep hr)).mp hrest
      exact ⟨r'', ⟨r', hstep, hreach⟩, hq⟩
    · rintro ⟨r'', ⟨r', hstep, hreach⟩, hq⟩
      exact ⟨r', hstep, (ih (step_proper hstep hr)).mpr ⟨r'', hreach, hq⟩⟩

/-! ## What a state still needs -/

/-- The bytes that are certain to follow: one for each value at least. -/
def minimum : Residual → Nat
  | .values m => m
  | .payload left m => left + m
  | .extensionType bytes m => 1 + bytes + m
  | .length left _ _ m => left + m

theorem isValue_ne_nil {v : Bytes} (h : IsValue v) : v ≠ [] := by
  obtain ⟨head, content, body, hhead, -, rfl⟩ := isValue_iff.mp h
  simp [head_ne_nil hhead]

theorem values_length_le {m : Nat} {q : Bytes} (h : Values m q) : m ≤ q.length := by
  obtain ⟨vs, rfl, hvs, rfl⟩ := h
  induction vs with
  | nil => exact Nat.le_refl 0
  | cons v vs ih =>
    have hv := List.length_pos_iff.mpr (isValue_ne_nil (hvs v (by simp)))
    have ih := ih fun w hw => hvs w (by simp [hw])
    rw [List.length_cons, List.flatten_cons, List.length_append]
    omega

theorem content_rest_length_le {content : Content} {m : Nat} {q : Bytes} (h : content.Rest m q) :
    m ≤ q.length := by
  obtain ⟨body, r, -, hr, rfl⟩ := content_rest_iff.mp h
  have := values_length_le hr
  rw [List.length_append]
  omega

theorem minimum_le_length {r : Residual} {q : Bytes} (h : r.Rest q) : r.minimum ≤ q.length := by
  cases r with
  | values m => exact values_length_le h
  | payload left m =>
    obtain ⟨p, r, rfl, hr, rfl⟩ := h
    have := values_length_le hr
    rw [minimum, List.length_append]
    omega
  | extensionType bytes m =>
    obtain ⟨type, p, r, rfl, rfl, htype⟩ := h
    have hm : m ≤ r.length := by
      rcases htype with ⟨-, hr⟩ | ⟨-, hr⟩
      · exact values_length_le hr
      · exact Nat.le_of_succ_le (values_length_le hr)
    rw [minimum, List.length_append, List.length_cons]
    omega
  | length left value f m =>
    obtain ⟨l, r, rfl, hr, rfl⟩ := h
    have := content_rest_length_le hr
    rw [minimum, List.length_append]
    omega

/-- Only behind the last value nothing needs to follow. -/
theorem rest_nil {r : Residual} (hr : r.Proper) : r.Rest [] ↔ r = .values 0 := by
  constructor
  · intro h
    -- whatever is to come has a length
    have hmin := minimum_le_length h
    cases r with
    | values m =>
      have hm : m = 0 := Nat.le_zero.mp hmin
      rw [hm]
    | payload left m =>
      change 0 < left at hr
      change left + m ≤ 0 at hmin
      omega
    | extensionType bytes m =>
      change 1 + bytes + m ≤ 0 at hmin
      omega
    | length left value f m =>
      change 0 < left at hr
      change left + m ≤ 0 at hmin
      omega
  · rintro rfl
    exact values_zero_iff.mpr rfl

/-- No way to go on is the beginning of another one. -/
theorem rest_prefix_free {r : Residual} (hr : r.Proper) {q e : Bytes} (hq : r.Rest q)
    (hqe : r.Rest (q ++ e)) : e = [] := by
  induction q generalizing r with
  | nil =>
    rw [(rest_nil hr).mp hq] at hqe
    exact values_zero_iff.mp hqe
  | cons b q ih =>
    obtain ⟨r', hstep, hq'⟩ := (rest_cons hr).mp hq
    obtain ⟨r'', hstep', hqe'⟩ := (rest_cons hr).mp hqe
    rw [hstep] at hstep'
    cases hstep'
    exact ih (step_proper hstep hr) hq' hqe'

end Residual

/-- A beginning of a value, and what makes a value of it. -/
theorem isValue_append_iff {p q : Bytes} {r : Residual}
    (hp : (Residual.values 1).reach p = some r) : IsValue (p ++ q) ↔ r.Rest q := by
  have hone : (Residual.values 1).Proper := trivial
  rw [← values_one_iff]
  refine (Residual.rest_append hone).trans ?_
  simp only [hp, Option.some.injEq, exists_eq_left']

/-- Behind a value nothing more of it is read. -/
theorem reach_isValue {v : Bytes} {r : Residual} (hv : IsValue v)
    (h : (Residual.values 1).reach v = some r) : r = .values 0 := by
  have hone : (Residual.values 1).Proper := trivial
  rw [← List.append_nil v, isValue_append_iff h, Residual.rest_nil (Residual.reach_proper h hone)]
    at hv
  exact hv

/-- A value of which another one is a prefix is that other one. -/
theorem isValue_prefix_eq {v w : Bytes} (hv : IsValue v) (hw : IsValue w) (h : v <+: w) : v = w := by
  obtain ⟨e, rfl⟩ := h
  have hone : (Residual.values 1).Proper := trivial
  rw [Residual.rest_prefix_free hone (values_one_iff.mpr hv) (values_one_iff.mpr hw),
    List.append_nil]

/-- Two lists of values in front of the same bytes: one of them goes on where the
    other one ends. -/
theorem values_comparable {vs ws : List Bytes} {b : Bytes} (hvs : ∀ v ∈ vs, IsValue v)
    (hws : ∀ w ∈ ws, IsValue w) (hv : vs.flatten <+: b) (hw : ws.flatten <+: b) :
    vs <+: ws ∨ ws <+: vs := by
  induction vs generalizing ws b with
  | nil => exact .inl List.nil_prefix
  | cons v vs ih =>
    cases ws with
    | nil => exact .inr List.nil_prefix
    | cons w ws =>
      rw [List.flatten_cons] at hv hw
      have hvb := (List.prefix_append v vs.flatten).trans hv
      have hwb := (List.prefix_append w ws.flatten).trans hw
      -- no value is a proper front of another one
      have heq : v = w := by
        rcases List.prefix_or_prefix_of_prefix hvb hwb with h | h
        · exact isValue_prefix_eq (hvs v (by simp)) (hws w (by simp)) h
        · exact (isValue_prefix_eq (hws w (by simp)) (hvs v (by simp)) h).symm
      subst heq
      obtain ⟨b, rfl⟩ := hvb
      rw [List.prefix_append_right_inj] at hv hw
      rcases ih (fun x hx => hvs x (by simp [hx])) (fun x hx => hws x (by simp [hx])) hv hw with h | h
      · exact .inl (List.prefix_cons_inj v |>.mpr h)
      · exact .inr (List.prefix_cons_inj v |>.mpr h)

end PipeX.FrameLimits
