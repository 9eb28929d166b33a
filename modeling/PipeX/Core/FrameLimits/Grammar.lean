/-
  PipeX.Core.FrameLimits.Grammar

  The MessagePack values of the wire profile, as a language over bytes, and its
  residuals: what may follow a given beginning.

  `IsValue` is the profile.  A `Residual` stands for the language of all ways to
  go on, and needs no stack: the values that are still to come follow one another
  whatever array, map or extension they belong to, so their number is enough.
  `rest_cons` is the derivative of that language by one byte.
-/
import PipeX.Core.Runtime
import PipeX.Lib.BigEndian

namespace PipeX.FrameLimits

open BigEndian

/-! ## The profile -/

/-- What a value consists of behind its head. -/
inductive Content where
  | payload (bytes : Nat)
  | children (values : Nat)
  | extension (bytes : Nat)
deriving DecidableEq, Repr

/-- Float 32 and 64, uint 8 to 64, int 8 to 64, with their widths. -/
def numbers : List (UInt8 × Nat) :=
  [(0xca, 4), (0xcb, 8), (0xcc, 1), (0xcd, 2), (0xce, 4), (0xcf, 8), (0xd0, 1), (0xd1, 2),
    (0xd2, 4), (0xd3, 8)]

/-- Bin 8 to 32 and str 8 to 32, with the widths of their length fields. -/
def strings : List (UInt8 × Nat) :=
  [(0xc4, 1), (0xc5, 2), (0xc6, 4), (0xd9, 1), (0xda, 2), (0xdb, 4)]

/-- Fixext 1 to 16, with their payload lengths. -/
def fixexts : List (UInt8 × Nat) := [(0xd4, 1), (0xd5, 2), (0xd6, 4), (0xd7, 8), (0xd8, 16)]

/-- Ext 8 to 32, with the widths of their length fields. -/
def exts : List (UInt8 × Nat) := [(0xc7, 1), (0xc8, 2), (0xc9, 4)]

/-- A head and what it announces.  A scalar has an empty payload. -/
inductive Head : Bytes → Content → Prop where
  | scalar {b : UInt8}
      (h : b.toNat ≤ 0x7f ∨ 0xe0 ≤ b.toNat ∨ b = 0xc0 ∨ b = 0xc2 ∨ b = 0xc3) :
      Head [b] (.payload 0)
  | number {b : UInt8} {n : Nat} (h : (b, n) ∈ numbers) : Head [b] (.payload n)
  | fixstr {b : UInt8} (h : 0xa0 ≤ b.toNat ∧ b.toNat ≤ 0xbf) : Head [b] (.payload (b.toNat - 0xa0))
  | string {b : UInt8} {l : Bytes} (h : (b, l.length) ∈ strings) :
      Head (b :: l) (.payload (beNat l))
  | fixarray {b : UInt8} (h : 0x90 ≤ b.toNat ∧ b.toNat ≤ 0x9f) :
      Head [b] (.children (b.toNat - 0x90))
  | array {b : UInt8} {l : Bytes} (h : (b, l.length) ∈ [(0xdc, 2), (0xdd, 4)]) :
      Head (b :: l) (.children (beNat l))
  | fixmap {b : UInt8} (h : 0x80 ≤ b.toNat ∧ b.toNat ≤ 0x8f) :
      Head [b] (.children (2 * (b.toNat - 0x80)))
  | map {b : UInt8} {l : Bytes} (h : (b, l.length) ∈ [(0xde, 2), (0xdf, 4)]) :
      Head (b :: l) (.children (2 * beNat l))
  | fixext {b : UInt8} {n : Nat} (h : (b, n) ∈ fixexts) : Head [b] (.extension n)
  | ext {b : UInt8} {l : Bytes} (h : (b, l.length) ∈ exts) : Head (b :: l) (.extension (beNat l))

/-- Extension types that are complete with their payload. -/
def standsAlone (type : UInt8) : Bool := [0x00, 0x42, 0x74, 0xff].contains type

/-- Extension types that one more value belongs to. -/
def takesValue (type : UInt8) : Bool := [0x65, 0x73, 0x78].contains type

/-- The values of the profile. -/
inductive IsValue : Bytes → Prop where
  | payload {head p : Bytes} (h : Head head (.payload p.length)) : IsValue (head ++ p)
  | children {head : Bytes} {vs : List Bytes} (h : Head head (.children vs.length))
      (hvs : ∀ v ∈ vs, IsValue v) : IsValue (head ++ vs.flatten)
  | extension {head p : Bytes} {type : UInt8} (h : Head head (.extension p.length))
      (htype : standsAlone type = true) : IsValue (head ++ type :: p)
  | contextual {head p v : Bytes} {type : UInt8} (h : Head head (.extension p.length))
      (htype : takesValue type = true) (hv : IsValue v) : IsValue (head ++ (type :: p ++ v))

/-! ## Heads, byte by byte -/

/-- What a length field counts. -/
inductive Field where
  | payload
  | children (factor : Nat)
  | extension
deriving DecidableEq, Repr

def Field.content : Field → Nat → Content
  | .payload, n => .payload n
  | .children factor, n => .children (factor * n)
  | .extension, n => .extension n

/-- What the first byte of a head says. -/
inductive Opening where
  | direct (content : Content)
  | lengthField (width : Nat) (f : Field)
deriving DecidableEq, Repr

def opening (b : UInt8) : Option Opening :=
  let n := b.toNat
  if n ≤ 0x7f ∨ 0xe0 ≤ n then some (.direct (.payload 0))
  else if n ≤ 0x8f then some (.direct (.children (2 * (n - 0x80))))
  else if n ≤ 0x9f then some (.direct (.children (n - 0x90)))
  else if n ≤ 0xbf then some (.direct (.payload (n - 0xa0)))
  else
    match n with
    | 0xc0 | 0xc2 | 0xc3 => some (.direct (.payload 0))
    | 0xc4 | 0xd9 => some (.lengthField 1 .payload)
    | 0xc5 | 0xda => some (.lengthField 2 .payload)
    | 0xc6 | 0xdb => some (.lengthField 4 .payload)
    | 0xc7 => some (.lengthField 1 .extension)
    | 0xc8 => some (.lengthField 2 .extension)
    | 0xc9 => some (.lengthField 4 .extension)
    | 0xcc | 0xd0 => some (.direct (.payload 1))
    | 0xcd | 0xd1 => some (.direct (.payload 2))
    | 0xca | 0xce | 0xd2 => some (.direct (.payload 4))
    | 0xcb | 0xcf | 0xd3 => some (.direct (.payload 8))
    | 0xd4 => some (.direct (.extension 1))
    | 0xd5 => some (.direct (.extension 2))
    | 0xd6 => some (.direct (.extension 4))
    | 0xd7 => some (.direct (.extension 8))
    | 0xd8 => some (.direct (.extension 16))
    | 0xdc => some (.lengthField 2 (.children 1))
    | 0xdd => some (.lengthField 4 (.children 1))
    | 0xde => some (.lengthField 2 (.children 2))
    | 0xdf => some (.lengthField 4 (.children 2))
    | _ => none

/-- How the rest of a head completes its first byte. -/
def Opening.Completes : Opening → Bytes → Content → Prop
  | .direct content', l, content => l = [] ∧ content = content'
  | .lengthField width f, l, content => l.length = width ∧ content = f.content (beNat l)

theorem opening_of_head {b : UInt8} {l : Bytes} {content : Content} (h : Head (b :: l) content) :
    ∃ o, opening b = some o ∧ o.Completes l content := by
  -- a head per kind of value; its opening is a computation
  cases h with
  | scalar h =>
    rcases h with h | h | rfl | rfl | rfl
    · exact ⟨_, if_pos (.inl h), rfl, rfl⟩
    · exact ⟨_, if_pos (.inr h), rfl, rfl⟩
    all_goals exact ⟨_, rfl, rfl, rfl⟩
  | number h =>
    -- ten first bytes
    simp only [numbers, List.mem_cons, Prod.mk.injEq, List.not_mem_nil, or_false] at h
    rcases h with ⟨rfl, rfl⟩ | ⟨rfl, rfl⟩ | ⟨rfl, rfl⟩ | ⟨rfl, rfl⟩ | ⟨rfl, rfl⟩ | ⟨rfl, rfl⟩ |
      ⟨rfl, rfl⟩ | ⟨rfl, rfl⟩ | ⟨rfl, rfl⟩ | ⟨rfl, rfl⟩
    all_goals exact ⟨_, rfl, rfl, rfl⟩
  | fixstr h =>
    refine ⟨.direct (.payload (b.toNat - 0xa0)), ?_, rfl, rfl⟩
    simp only [opening]
    rw [if_neg (by omega), if_neg (by omega), if_neg (by omega), if_pos h.2]
  | string h =>
    simp only [strings, List.mem_cons, Prod.mk.injEq, List.not_mem_nil, or_false] at h
    rcases h with ⟨rfl, hl⟩ | ⟨rfl, hl⟩ | ⟨rfl, hl⟩ | ⟨rfl, hl⟩ | ⟨rfl, hl⟩ | ⟨rfl, hl⟩
    all_goals exact ⟨_, rfl, hl, rfl⟩
  | fixarray h =>
    refine ⟨.direct (.children (b.toNat - 0x90)), ?_, rfl, rfl⟩
    simp only [opening]
    rw [if_neg (by omega), if_neg (by omega), if_pos h.2]
  | array h =>
    simp only [List.mem_cons, Prod.mk.injEq, List.not_mem_nil, or_false] at h
    rcases h with ⟨rfl, hl⟩ | ⟨rfl, hl⟩
    all_goals exact ⟨_, rfl, hl, by rw [Field.content, Nat.one_mul]⟩
  | fixmap h =>
    refine ⟨.direct (.children (2 * (b.toNat - 0x80))), ?_, rfl, rfl⟩
    simp only [opening]
    rw [if_neg (by omega), if_pos h.2]
  | map h =>
    simp only [List.mem_cons, Prod.mk.injEq, List.not_mem_nil, or_false] at h
    rcases h with ⟨rfl, hl⟩ | ⟨rfl, hl⟩
    all_goals exact ⟨_, rfl, hl, rfl⟩
  | fixext h =>
    simp only [fixexts, List.mem_cons, Prod.mk.injEq, List.not_mem_nil, or_false] at h
    rcases h with ⟨rfl, rfl⟩ | ⟨rfl, rfl⟩ | ⟨rfl, rfl⟩ | ⟨rfl, rfl⟩ | ⟨rfl, rfl⟩
    all_goals exact ⟨_, rfl, rfl, rfl⟩
  | ext h =>
    simp only [exts, List.mem_cons, Prod.mk.injEq, List.not_mem_nil, or_false] at h
    rcases h with ⟨rfl, hl⟩ | ⟨rfl, hl⟩ | ⟨rfl, hl⟩
    all_goals exact ⟨_, rfl, hl, rfl⟩

/-- Whether the tables and ranges of the profile have this opening. -/
def listed (b : UInt8) : Opening → Bool
  | .direct (.payload n) =>
    decide ((n = 0 ∧ (b.toNat ≤ 0x7f ∨ 0xe0 ≤ b.toNat ∨ b = 0xc0 ∨ b = 0xc2 ∨ b = 0xc3)) ∨
      (b, n) ∈ numbers ∨ ((0xa0 ≤ b.toNat ∧ b.toNat ≤ 0xbf) ∧ n = b.toNat - 0xa0))
  | .direct (.children n) =>
    decide (((0x90 ≤ b.toNat ∧ b.toNat ≤ 0x9f) ∧ n = b.toNat - 0x90) ∨
      ((0x80 ≤ b.toNat ∧ b.toNat ≤ 0x8f) ∧ n = 2 * (b.toNat - 0x80)))
  | .direct (.extension n) => decide ((b, n) ∈ fixexts)
  | .lengthField width .payload => decide ((b, width) ∈ strings)
  | .lengthField width (.children factor) =>
    decide ((factor = 1 ∧ (b, width) ∈ [(0xdc, 2), (0xdd, 4)]) ∨
      (factor = 2 ∧ (b, width) ∈ [(0xde, 2), (0xdf, 4)]))
  | .lengthField width .extension => decide ((b, width) ∈ exts)

/-- A fact about every byte, checked on the 256 of them. -/
theorem forall_byte (P : UInt8 → Prop) (h : ∀ n : Fin 256, P (UInt8.ofNat n)) (b : UInt8) : P b := by
  have hb := h ⟨b.toNat, b.toNat_lt⟩
  rwa [UInt8.ofNat_toNat] at hb

theorem opening_listed {b : UInt8} {o : Opening} (h : opening b = some o) : listed b o = true := by
  have hb : (opening b).all (listed b) = true :=
    forall_byte (fun b => (opening b).all (listed b) = true) (by decide +kernel) b
  rw [h] at hb
  exact hb

/-- No length field is empty. -/
theorem opening_width {b : UInt8} {width : Nat} {f : Field}
    (h : opening b = some (.lengthField width f)) : 0 < width := by
  have hlisted := opening_listed h
  cases f with
  | payload =>
    simp only [listed, decide_eq_true_eq, strings, List.mem_cons, Prod.mk.injEq, List.not_mem_nil,
      or_false] at hlisted
    omega
  | children factor =>
    simp only [listed, decide_eq_true_eq, List.mem_cons, Prod.mk.injEq, List.not_mem_nil,
      or_false] at hlisted
    omega
  | extension =>
    simp only [listed, decide_eq_true_eq, exts, List.mem_cons, Prod.mk.injEq, List.not_mem_nil,
      or_false] at hlisted
    omega

theorem not_standsAlone_of_takesValue {type : UInt8} (h : takesValue type = true) :
    standsAlone type = false := by
  simp only [takesValue, List.contains_eq_mem, List.mem_cons, List.not_mem_nil, or_false,
    decide_eq_true_eq] at h
  rcases h with rfl | rfl | rfl <;> rfl

theorem head_of_opening {b : UInt8} {l : Bytes} {content : Content} {o : Opening}
    (h : opening b = some o) (hl : o.Completes l content) : Head (b :: l) content := by
  have hlisted := opening_listed h
  -- a first byte is listed with its opening
  cases o with
  | direct content' =>
    obtain ⟨rfl, rfl⟩ := hl
    cases content with
    | payload n =>
      simp only [listed, decide_eq_true_eq] at hlisted
      rcases hlisted with ⟨hn, hb⟩ | hb | ⟨hb, hn⟩
      · rw [hn]
        exact .scalar hb
      · exact .number hb
      · rw [hn]
        exact .fixstr hb
    | children n =>
      simp only [listed, decide_eq_true_eq] at hlisted
      rcases hlisted with ⟨hb, hn⟩ | ⟨hb, hn⟩
      · rw [hn]
        exact .fixarray hb
      · rw [hn]
        exact .fixmap hb
    | extension n =>
      simp only [listed, decide_eq_true_eq] at hlisted
      exact .fixext hlisted
  | lengthField width f =>
    obtain ⟨rfl, rfl⟩ := hl
    cases f with
    | payload =>
      simp only [listed, decide_eq_true_eq] at hlisted
      exact .string hlisted
    | children factor =>
      simp only [listed, decide_eq_true_eq] at hlisted
      rcases hlisted with ⟨rfl, hb⟩ | ⟨rfl, hb⟩
      · rw [Field.content, Nat.one_mul]
        exact .array hb
      · exact .map hb
    | extension =>
      simp only [listed, decide_eq_true_eq] at hlisted
      exact .ext hlisted

/-- A head begins with a byte that opens it. -/
theorem head_cons_iff {b : UInt8} {l : Bytes} {content : Content} :
    Head (b :: l) content ↔ ∃ o, opening b = some o ∧ o.Completes l content :=
  ⟨opening_of_head, fun ⟨_, h, hl⟩ => head_of_opening h hl⟩

theorem head_ne_nil {head : Bytes} {content : Content} (h : Head head content) : head ≠ [] := by
  cases h <;> exact List.cons_ne_nil _ _

/-! ## Sequences of values -/

/-- `m` values in a row. -/
def Values (m : Nat) (q : Bytes) : Prop :=
  ∃ vs : List Bytes, vs.length = m ∧ (∀ v ∈ vs, IsValue v) ∧ q = vs.flatten

/-- What is announced, and `m` values behind it. -/
def Content.Rest (m : Nat) : Content → Bytes → Prop
  | .payload n, q => ∃ p r, p.length = n ∧ Values m r ∧ q = p ++ r
  | .children n, q => Values (n + m) q
  | .extension n, q => ∃ type p r, p.length = n ∧ q = type :: p ++ r ∧
    ((standsAlone type = true ∧ Values m r) ∨ (takesValue type = true ∧ Values (m + 1) r))

theorem values_zero_iff {q : Bytes} : Values 0 q ↔ q = [] := by
  constructor
  · rintro ⟨vs, hlen, -, rfl⟩
    rw [List.length_eq_zero_iff.mp hlen]
    rfl
  · rintro rfl
    exact ⟨[], rfl, by simp, rfl⟩

theorem values_one_iff {q : Bytes} : Values 1 q ↔ IsValue q := by
  constructor
  · rintro ⟨vs, hlen, hvs, rfl⟩
    obtain ⟨v, rfl⟩ := List.length_eq_one_iff.mp hlen
    simpa using hvs
  · intro h
    exact ⟨[q], rfl, by simpa using h, by simp⟩

theorem values_add_iff {m n : Nat} {q : Bytes} :
    Values (m + n) q ↔ ∃ a b, Values m a ∧ Values n b ∧ q = a ++ b := by
  constructor
  · rintro ⟨vs, hlen, hvs, rfl⟩
    refine ⟨(vs.take m).flatten, (vs.drop m).flatten, ⟨vs.take m, ?_, ?_, rfl⟩,
      ⟨vs.drop m, ?_, ?_, rfl⟩, ?_⟩
    · rw [List.length_take]
      omega
    · exact fun v hv => hvs v (List.mem_of_mem_take hv)
    · rw [List.length_drop]
      omega
    · exact fun v hv => hvs v (List.mem_of_mem_drop hv)
    · rw [← List.flatten_append, List.take_append_drop]
  · rintro ⟨a, b, ⟨vs, hm, hvs, rfl⟩, ⟨ws, hn, hws, rfl⟩, rfl⟩
    refine ⟨vs ++ ws, by rw [List.length_append, hm, hn], fun v hv => ?_, by rw [List.flatten_append]⟩
    rcases List.mem_append.mp hv with hv | hv
    · exact hvs v hv
    · exact hws v hv

/-- A value is a head and what it announces. -/
theorem isValue_iff {v : Bytes} :
    IsValue v ↔ ∃ head content body, Head head content ∧ content.Rest 0 body ∧ v = head ++ body := by
  constructor
  · intro h
    cases h with
    | payload h => exact ⟨_, _, _, h, ⟨_, [], rfl, values_zero_iff.mpr rfl, by simp⟩, rfl⟩
    | children h hvs => exact ⟨_, _, _, h, ⟨_, rfl, hvs, rfl⟩, rfl⟩
    | extension h htype =>
      exact ⟨_, _, _, h, ⟨_, _, [], rfl, by simp, .inl ⟨htype, values_zero_iff.mpr rfl⟩⟩, rfl⟩
    | contextual h htype hv =>
      exact ⟨_, _, _, h, ⟨_, _, _, rfl, rfl, .inr ⟨htype, values_one_iff.mpr hv⟩⟩, rfl⟩
  · rintro ⟨head, content, body, h, hbody, rfl⟩
    cases content with
    | payload n =>
      obtain ⟨p, r, rfl, hr, rfl⟩ := hbody
      rw [values_zero_iff.mp hr, List.append_nil]
      exact .payload h
    | children n =>
      obtain ⟨vs, rfl, hvs, rfl⟩ := hbody
      exact .children h hvs
    | extension n =>
      obtain ⟨type, p, r, rfl, rfl, ⟨htype, hr⟩ | ⟨htype, hr⟩⟩ := hbody
      · rw [values_zero_iff.mp hr, List.append_nil]
        exact .extension h htype
      · exact .contextual h htype (values_one_iff.mp hr)

end PipeX.FrameLimits
