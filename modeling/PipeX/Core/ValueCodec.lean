/-
  PipeX.Core.ValueCodec

  What `fromBuffer` makes of what `toBuffer` has made, for the values that `run`
  takes.

  The three functions of `src/core/core.ts` order their cases differently.  Every
  kind of value comes back but one: an `ArrayBuffer` is an object for `detectType`
  and raw bytes for `toBuffer`, so that `fromBuffer` reads its bytes as
  MessagePack.
-/
import PipeX.Core.Value
import PipeX.Lib.BigEndian
import Mathlib.Data.Nat.Digits.Defs

namespace PipeX

open FrameLimits

/-! ## Values that are encoded -/

/-- `isWellFormed` of a string: no surrogate stands alone. -/
def wellFormed : JsString → Bool
  | [] => true
  | [unit] => decide (unit < 0xd800 ∨ 0xdfff < unit)
  | unit :: next :: rest =>
    if 0xd800 ≤ unit ∧ unit ≤ 0xdbff then
      decide (0xdc00 ≤ next ∧ next ≤ 0xdfff) && wellFormed rest
    else
      decide (unit < 0xd800 ∨ 0xdfff < unit) && wellFormed (next :: rest)

/-- `Number.isSafeInteger(value)`. -/
def JsDouble.isSafeInteger : JsDouble → Bool
  | .integer n => decide (n.natAbs ≤ maxSafeInteger)
  | .other bits => decide (bits = negativeZero)

/-- `a === b`, of safe integers. -/
def JsDouble.strictEquals (a b : JsDouble) : Prop :=
  a = b ∨ (a = .other negativeZero ∧ b = .integer 0) ∨ (a = .integer 0 ∧ b = .other negativeZero)

section Codec

variable {Obj : Type}

/-- The values that are to come back; `representable` are the arrays and objects that
    MessagePack can hold. -/
def Value.Codable (representable : Obj → Prop) : Value Obj → Prop
  | .undefined => True
  | .null => True
  | .boolean _ => True
  | .number n => n.isSafeInteger = true
  | .bigint _ => True
  | .string s => wellFormed s = true
  | .buffer _ => True
  | .arrayBuffer _ => True
  | .array o => representable o
  | .object o => representable o
  | .symbol _ => False
  | .function _ => False

/-- Equal values of one kind; arrays and objects are compared by what they hold. -/
def Value.Same (deepEqual : Obj → Obj → Prop) : Value Obj → Value Obj → Prop
  | .number m, .number n => m.strictEquals n
  | .array o, .array o' => deepEqual o o'
  | .object o, .object o' => deepEqual o o'
  | .array _, _ => False
  | .object _, _ => False
  | value, value' => value = value'

/-- What the runtime and msgpackr promise. -/
structure Host.Exact (host : Host Obj) (representable : Obj → Prop)
    (deepEqual : Obj → Obj → Prop) : Prop where
  utf8 : ∀ s, wellFormed s = true → host.decodeUtf8 (host.encodeUtf8 s) = s
  utf8_empty : host.encodeUtf8 [] = []
  numberText : ∀ n : Int, n.natAbs ≤ maxSafeInteger →
    wellFormed (host.numberText (.integer n)) = true ∧
      host.toNumber (host.numberText (.integer n)) = .integer n
  negativeZeroText : host.numberText (.other negativeZero) = host.numberText (.integer 0)
  bigintText : ∀ n, wellFormed (host.bigintText n) = true ∧
    host.toBigInt (host.bigintText n) = some n
  array : ∀ o bytes, representable o → host.pack (.array o) = .ok bytes →
    ∃ o', host.unpack bytes = some (.array o') ∧ deepEqual o o'
  object : ∀ o bytes, representable o → host.pack (.object o) = .ok bytes →
    ∃ o', host.unpack bytes = some (.object o') ∧ deepEqual o o'
  /-- An encoding is longer than the bytes it holds. -/
  arrayBuffer : ∀ bytes content, host.unpack bytes = some (.arrayBuffer content) →
    content.length < bytes.length

variable (host : Host Obj)

/-- The input stage of `run`. -/
def inputStage (value : Value Obj) (maxFrameBytes : Nat) : Except JsError Bytes := do
  let data ← toBuffer host value
  if detectType value = .object ∨ detectType value = .array then
    let _ ← assertMessagePackFrameLimits data maxFrameBytes 1
  return data

/-- Whatever of this value the input stage lets through comes back. -/
def RoundTrips (deepEqual : Obj → Obj → Prop) (value : Value Obj) (maxFrameBytes : Nat) : Prop :=
  ∀ data, inputStage host value maxFrameBytes = .ok data →
    ∃ value', fromBuffer host data (detectType value) maxFrameBytes = .ok value' ∧
      value.Same deepEqual value'

/-! ## Kinds that are text -/

/-- A value that is neither an object nor an array is not scanned. -/
theorem inputStage_text {value : Value Obj} {data : Bytes} {maxFrameBytes : Nat}
    (htype : ¬ (detectType value = .object ∨ detectType value = .array))
    (hdata : toBuffer host value = .ok data) :
    inputStage host value maxFrameBytes = .ok data := by
  simp only [inputStage, hdata, if_neg htype]
  rfl

/-- One that has an encoding comes back if its encoding does. -/
theorem roundTrips_text {deepEqual : Obj → Obj → Prop} {value : Value Obj} (value' : Value Obj)
    {data : Bytes} {maxFrameBytes : Nat}
    (htype : ¬ (detectType value = .object ∨ detectType value = .array))
    (hdata : toBuffer host value = .ok data)
    (hback : fromBuffer host data (detectType value) maxFrameBytes = .ok value')
    (hsame : value.Same deepEqual value') : RoundTrips host deepEqual value maxFrameBytes := by
  intro data' hstage
  rw [inputStage_text host htype hdata] at hstage
  cases hstage
  exact ⟨value', hback, hsame⟩

variable {host} {representable : Obj → Prop} {deepEqual : Obj → Obj → Prop}
  (hexact : host.Exact representable deepEqual) (maxFrameBytes : Nat)

include hexact

theorem fromBuffer_number {text : JsString} {n : Int} (hwell : wellFormed text = true)
    (hnumber : host.toNumber text = .integer n) :
    fromBuffer host (host.encodeUtf8 text) .number maxFrameBytes = .ok (.number (.integer n)) := by
  simp only [fromBuffer, hexact.utf8 text hwell, hnumber, JsDouble.isNaN, Bool.false_eq_true,
    if_false]
  rfl

theorem roundTrips_number {n : JsDouble} (hsafe : n.isSafeInteger = true) :
    RoundTrips host deepEqual (.number n) maxFrameBytes := by
  have htype : ¬ (detectType (.number n : Value Obj) = .object ∨
      detectType (.number n : Value Obj) = .array) := by simp [detectType]
  cases n with
  -- the text of a safe integer is read back digit by digit
  | integer n =>
    obtain ⟨hwell, hnumber⟩ := hexact.numberText n (by simpa [JsDouble.isSafeInteger] using hsafe)
    exact roundTrips_text host _ htype rfl (fromBuffer_number hexact maxFrameBytes hwell hnumber)
      (.inl rfl)
  | other bits =>
    -- −0 is written as 0
    have hbits : bits = negativeZero := by simpa [JsDouble.isSafeInteger] using hsafe
    subst hbits
    obtain ⟨hwell, hnumber⟩ := hexact.numberText 0 (by decide)
    have hdata : toBuffer host (.number (.other negativeZero)) =
        .ok (host.encodeUtf8 (host.numberText (.integer 0))) := by
      rw [toBuffer, hexact.negativeZeroText]
    exact roundTrips_text host _ htype hdata (fromBuffer_number hexact maxFrameBytes hwell hnumber)
      (.inr (.inl ⟨rfl, rfl⟩))

theorem roundTrips_bigint (n : Int) :
    RoundTrips host deepEqual (.bigint n) maxFrameBytes := by
  obtain ⟨hwell, hbigint⟩ := hexact.bigintText n
  refine roundTrips_text host (.bigint n) (by simp [detectType]) rfl ?_ rfl
  simp only [detectType, fromBuffer, hexact.utf8 _ hwell, hbigint]
  rfl

theorem roundTrips_boolean (b : Bool) :
    RoundTrips host deepEqual (.boolean b) maxFrameBytes := by
  have hwell : wellFormed (booleanText b) = true := by cases b <;> decide
  refine roundTrips_text host (.boolean b) (by simp [detectType]) rfl ?_ rfl
  simp only [detectType, fromBuffer, hexact.utf8 _ hwell]
  cases b <;> rfl

theorem roundTrips_string {s : JsString} (hwell : wellFormed s = true) :
    RoundTrips host deepEqual (.string s) maxFrameBytes := by
  refine roundTrips_text host (.string s) (by simp [detectType]) rfl ?_ rfl
  simp only [detectType, fromBuffer, hexact.utf8 s hwell]
  rfl

theorem roundTrips_null : RoundTrips host deepEqual .null maxFrameBytes := by
  refine roundTrips_text host .null (by simp [detectType]) rfl ?_ rfl
  -- no bytes are what `fromBuffer` expects
  simp only [detectType, fromBuffer, hexact.utf8_empty]
  rfl

theorem roundTrips_undefined : RoundTrips host deepEqual .undefined maxFrameBytes := by
  refine roundTrips_text host .undefined (by simp [detectType]) rfl ?_ rfl
  simp only [detectType, fromBuffer, hexact.utf8_empty]
  rfl

omit hexact in
theorem roundTrips_buffer (bytes : Bytes) :
    RoundTrips host deepEqual (.buffer bytes) maxFrameBytes :=
  roundTrips_text host _ (by simp [detectType]) rfl rfl rfl

/-! ## Kinds that are MessagePack -/

omit hexact in
/-- An object or an array is let through if its encoding is scanned. -/
theorem inputStage_messagePack {value : Value Obj} {data : Bytes}
    (htype : detectType value = .object ∨ detectType value = .array)
    (hstage : inputStage host value maxFrameBytes = .ok data) :
    toBuffer host value = .ok data ∧ ∃ n, assertMessagePackFrameLimits data maxFrameBytes 1 = .ok n := by
  simp only [inputStage, if_pos htype] at hstage
  cases hdata : toBuffer host value with
  | error e =>
    rw [hdata] at hstage
    cases hstage
  | ok bytes =>
    rw [hdata] at hstage
    -- behind the encoding stands the scan
    cases hscan : assertMessagePackFrameLimits bytes maxFrameBytes 1 with
    | error e =>
      simp only [bind, Except.bind, hscan] at hstage
      cases hstage
    | ok n =>
      simp only [bind, Except.bind, hscan] at hstage
      cases hstage
      exact ⟨rfl, n, hscan⟩

omit hexact in
/-- What has been scanned is decoded if it is of the expected kind. -/
theorem fromMessagePack_of_scan {data : Bytes} {n : Nat} {value : Value Obj}
    {expected : Value Obj → Bool}
    (hscan : assertMessagePackFrameLimits data maxFrameBytes 1 = .ok n)
    (hunpack : host.unpack data = some value) (hkind : expected value = true) :
    fromMessagePack host data maxFrameBytes expected = .ok value := by
  simp only [fromMessagePack, bind, Except.bind, hscan, hunpack, hkind, if_true]
  rfl

theorem roundTrips_array {o : Obj} (hrep : representable o) :
    RoundTrips host deepEqual (.array o) maxFrameBytes := by
  intro data hstage
  obtain ⟨hpack, n, hscan⟩ := inputStage_messagePack maxFrameBytes (.inr rfl) hstage
  obtain ⟨o', hunpack, hequal⟩ := hexact.array o data hrep hpack
  exact ⟨.array o', fromMessagePack_of_scan maxFrameBytes hscan hunpack rfl, hequal⟩

theorem roundTrips_object {o : Obj} (hrep : representable o) :
    RoundTrips host deepEqual (.object o) maxFrameBytes := by
  intro data hstage
  obtain ⟨hpack, n, hscan⟩ := inputStage_messagePack maxFrameBytes (.inl rfl) hstage
  obtain ⟨o', hunpack, hequal⟩ := hexact.object o data hrep hpack
  exact ⟨.object o', fromMessagePack_of_scan maxFrameBytes hscan hunpack rfl, hequal⟩

/-- An `ArrayBuffer` that is let through never comes back: its bytes are decoded. -/
theorem not_roundTrips_arrayBuffer {bytes : Bytes} {n : Nat}
    (hscan : assertMessagePackFrameLimits bytes maxFrameBytes 1 = .ok n) :
    ¬ RoundTrips host deepEqual (.arrayBuffer bytes) maxFrameBytes := by
  intro htrips
  have hstage : inputStage host (.arrayBuffer bytes) maxFrameBytes = .ok bytes := by
    simp only [inputStage, toBuffer, detectType, true_or, if_true, bind, Except.bind, hscan]
    rfl
  -- the scan lets the raw bytes through as if they were an encoding
  obtain ⟨value, hback, hsame⟩ := htrips bytes hstage
  have hvalue : value = .arrayBuffer bytes := Eq.symm hsame
  subst hvalue
  -- the decoded buffer would have to be as long as its own encoding
  change fromMessagePack host bytes maxFrameBytes Value.isRecord = _ at hback
  simp only [fromMessagePack, bind, Except.bind, hscan] at hback
  cases hunpack : host.unpack bytes with
  | none =>
    rw [hunpack] at hback
    cases hback
  | some decoded =>
    simp only [hunpack] at hback
    split at hback
    · cases hback
      exact Nat.lt_irrefl _ (hexact.arrayBuffer bytes bytes hunpack)
    · cases hback

omit hexact in
/-- One that the scan refuses is refused by `run`. -/
theorem roundTrips_arrayBuffer {bytes : Bytes}
    (hscan : ¬ ∃ n, assertMessagePackFrameLimits bytes maxFrameBytes 1 = .ok n) :
    RoundTrips host deepEqual (.arrayBuffer bytes) maxFrameBytes := by
  intro data hstage
  obtain ⟨hdata, hpasses⟩ := inputStage_messagePack maxFrameBytes (.inl rfl) hstage
  cases hdata
  exact absurd hpasses hscan

/-! ## The round trip -/

/-- Every value that `run` lets through comes back, equal and of its kind, exactly if
    it is no `ArrayBuffer` whose bytes are a frame of MessagePack. -/
theorem fromBuffer_toBuffer {value : Value Obj} (hvalue : value.Codable representable) :
    RoundTrips host deepEqual value maxFrameBytes ↔
      ¬ ∃ bytes n, value = .arrayBuffer bytes ∧
        assertMessagePackFrameLimits bytes maxFrameBytes 1 = .ok n := by
  constructor
  · rintro htrips ⟨bytes, n, rfl, hscan⟩
    exact not_roundTrips_arrayBuffer hexact maxFrameBytes hscan htrips
  · intro hother
    -- one lemma for each kind
    cases value with
    | undefined => exact roundTrips_undefined hexact maxFrameBytes
    | null => exact roundTrips_null hexact maxFrameBytes
    | boolean b => exact roundTrips_boolean hexact maxFrameBytes b
    | number n => exact roundTrips_number hexact maxFrameBytes hvalue
    | bigint n => exact roundTrips_bigint hexact maxFrameBytes n
    | string s => exact roundTrips_string hexact maxFrameBytes hvalue
    | buffer bytes => exact roundTrips_buffer maxFrameBytes bytes
    | arrayBuffer bytes =>
      exact roundTrips_arrayBuffer maxFrameBytes fun ⟨n, hscan⟩ => hother ⟨bytes, n, rfl, hscan⟩
    | array o => exact roundTrips_array hexact maxFrameBytes hvalue
    | object o => exact roundTrips_object hexact maxFrameBytes hvalue
    | symbol text => exact absurd hvalue id
    | function text => exact absurd hvalue id

end Codec

/-! ## A runtime -/

/-- The digits of a positive number. -/
def digitsText (n : Nat) : JsString :=
  (Nat.digits 10 n).reverse.map fun d => UInt16.ofNat (0x30 + d)

/-- Decimal digits, and a sign in front of a negative number. -/
def decimalText : Int → JsString
  | .ofNat 0 => [0x30]
  | .ofNat (n + 1) => digitsText (n + 1)
  | .negSucc n => 0x2d :: digitsText (n + 1)

/-- The number of a row of decimal digits. -/
def digitsValue (text : JsString) : Nat :=
  Nat.ofDigits 10 (text.reverse.map fun unit => unit.toNat - 0x30)

def decimalValue : JsString → Int
  | 0x2d :: digits => - (digitsValue digits : Int)
  | digits => digitsValue digits

theorem toNat_digit {d : Nat} (h : d < 10) : (UInt16.ofNat (0x30 + d)).toNat = 0x30 + d := by
  rw [UInt16.toNat_ofNat']
  exact Nat.mod_eq_of_lt (by omega)

theorem digitsText_units {n : Nat} {unit : UInt16} (h : unit ∈ digitsText n) :
    0x30 ≤ unit.toNat ∧ unit.toNat < 0x3a := by
  obtain ⟨d, hd, rfl⟩ := List.mem_map.mp h
  have hlt : d < 10 := Nat.digits_lt_base (by decide) (List.mem_reverse.mp hd)
  rw [toNat_digit hlt]
  omega

theorem digitsValue_digitsText (n : Nat) : digitsValue (digitsText n) = n := by
  -- a digit survives its way through a character
  have hdigits : (Nat.digits 10 n).map (fun d => (UInt16.ofNat (0x30 + d)).toNat - 0x30) =
      Nat.digits 10 n := by
    refine (List.map_congr_left fun d hd => ?_).trans (List.map_id _)
    rw [toNat_digit (Nat.digits_lt_base (by decide) hd), id_eq]
    omega
  rw [digitsValue, digitsText, ← List.map_reverse, List.reverse_reverse, List.map_map]
  exact (congrArg (Nat.ofDigits 10) hdigits).trans (Nat.ofDigits_digits 10 n)

/-- A text without a sign is read digit by digit. -/
theorem decimalValue_unsigned {text : JsString} (h : ∀ unit ∈ text, unit.toNat ≠ 0x2d) :
    decimalValue text = digitsValue text := by
  unfold decimalValue
  split
  · exact absurd rfl (h 0x2d (List.mem_cons_self ..))
  · rfl

theorem decimalValue_decimalText (n : Int) : decimalValue (decimalText n) = n := by
  match n with
  | .ofNat 0 => decide
  | .ofNat (n + 1) =>
    -- no digit is the sign
    have hunsigned : ∀ unit ∈ digitsText (n + 1), unit.toNat ≠ 0x2d := fun unit hunit => by
      have hdigit := digitsText_units hunit
      omega
    exact (decimalValue_unsigned hunsigned).trans
      (congrArg Int.ofNat (digitsValue_digitsText (n + 1)))
  | .negSucc n =>
    exact congrArg (fun k : Nat => - (k : Int)) (digitsValue_digitsText (n + 1))

/-- Below the surrogates, every text is well formed. -/
theorem wellFormed_of_lt {s : JsString} (h : ∀ unit ∈ s, unit.toNat < 0xd800) :
    wellFormed s = true := by
  have hlow {unit : UInt16} (hunit : unit ∈ s) : unit < 0xd800 :=
    UInt16.lt_iff_toNat_lt.mpr (h unit hunit)
  -- the induction follows the pairs that `wellFormed` looks at
  induction s using wellFormed.induct with
  | case1 => rfl
  | case2 unit => simpa [wellFormed] using .inl (hlow (List.mem_singleton.mpr rfl))
  | case3 unit next rest hhigh =>
    have hunit := hlow (List.mem_cons_self ..)
    exact absurd hunit (UInt16.not_lt.mpr hhigh.1)
  | case4 unit next rest hhigh ih =>
    have hrest := ih (fun u hu => h u (List.mem_cons_of_mem _ hu))
      (fun hu => hlow (List.mem_cons_of_mem _ hu))
    have hunit := hlow (List.mem_cons_self ..)
    rw [wellFormed, if_neg hhigh, hrest]
    simpa using .inl hunit

theorem wellFormed_decimalText (n : Int) : wellFormed (decimalText n) = true := by
  apply wellFormed_of_lt
  intro unit hunit
  match n with
  | .ofNat 0 =>
    rw [List.mem_singleton.mp hunit]
    decide
  | .ofNat (n + 1) =>
    have hdigit := digitsText_units (n := n + 1) hunit
    omega
  | .negSucc n =>
    rcases List.mem_cons.mp hunit with rfl | htail
    · decide
    · have hdigit := digitsText_units (n := n + 1) htail
      omega

/-- ASCII as it is, and any other text as 0xff and its units. -/
def sampleEncode (s : JsString) : Bytes :=
  if s.all fun unit => unit.toNat < 0x80 then
    s.map UInt16.toUInt8
  else
    0xff :: s.flatMap fun unit => BigEndian.beBytes 2 unit.toNat

/-- The units of pairs of bytes. -/
def pairUnits : Bytes → JsString
  | high :: low :: rest => UInt16.ofNat (BigEndian.beNat [high, low]) :: pairUnits rest
  | _ => []

def sampleDecode : Bytes → JsString
  | 0xff :: rest => pairUnits rest
  | bytes => bytes.map UInt8.toUInt16

theorem pairUnits_flatMap (s : JsString) :
    pairUnits (s.flatMap fun unit => BigEndian.beBytes 2 unit.toNat) = s := by
  induction s with
  | nil => rfl
  | cons unit s ih =>
    -- two bytes hold a unit
    have hunit : BigEndian.beNat (BigEndian.beBytes 2 unit.toNat) = unit.toNat :=
      BigEndian.beNat_beBytes unit.toNat_lt
    obtain ⟨high, low, hbytes⟩ := List.length_eq_two.mp (BigEndian.beBytes_length 2 unit.toNat)
    rw [hbytes] at hunit
    rw [List.flatMap_cons, hbytes]
    simp only [List.cons_append, List.nil_append, pairUnits, hunit, ih, UInt16.ofNat_toNat]

theorem sampleDecode_sampleEncode (s : JsString) : sampleDecode (sampleEncode s) = s := by
  by_cases hascii : (s.all fun unit => decide (unit.toNat < 0x80)) = true
  · have hlt : ∀ unit ∈ s, unit.toNat < 0x80 := by simpa using hascii
    -- a unit below 0x80 survives its way through a byte
    have hback : ∀ unit ∈ s, unit.toUInt8.toUInt16 = unit := by
      intro unit hunit
      apply UInt16.toNat_inj.mp
      rw [UInt8.toNat_toUInt16, UInt16.toNat_toUInt8]
      exact Nat.mod_eq_of_lt (Nat.lt_trans (hlt unit hunit) (by decide))
    have hmap : (s.map UInt16.toUInt8).map UInt8.toUInt16 = s := by
      rw [List.map_map]
      exact (List.map_congr_left hback).trans (List.map_id s)
    rw [sampleEncode, if_pos hascii]
    cases s with
    | nil => rfl
    | cons unit s =>
      -- no ASCII character is the mark
      have hmark : unit.toUInt8 ≠ 0xff := by
        intro heq
        have hunit := hlt unit (List.mem_cons_self ..)
        rw [← hback unit (List.mem_cons_self ..), heq] at hunit
        revert hunit
        decide
      rw [List.map_cons] at hmap ⊢
      unfold sampleDecode
      split
      · rename_i hcons
        exact absurd (List.cons.inj hcons).1 hmark
      · exact hmap
  · rw [sampleEncode, if_neg hascii]
    exact pairUnits_flatMap s

/-- A runtime in which the only array and the only object are empty. -/
def codecHost : Host Unit where
  encodeUtf8 := sampleEncode
  decodeUtf8 := sampleDecode
  numberText
    | .integer n => decimalText n
    | .other _ => decimalText 0
  bigintText := decimalText
  toNumber text := .integer (decimalValue text)
  toBigInt text := some (decimalValue text)
  parseJson _ := none
  property _ _ := .undefined
  elements _ := []
  viewLength _ := none
  pack
    | .array _ => .ok [0x90]
    | .object _ => .ok [0xde, 0, 0]
    | _ => .error (plainError "unsupported value")
  unpack bytes :=
    if bytes = [0x90] then some (.array ())
    else if bytes = [0x80] ∨ bytes = [0xde, 0, 0] then some (.object ())
    else none
  unpackMultiple _ := ([], false)

theorem codecHost_exact : codecHost.Exact (fun _ => True) Eq where
  utf8 s _ := sampleDecode_sampleEncode s
  utf8_empty := rfl
  numberText n _ := ⟨wellFormed_decimalText n, congrArg JsDouble.integer (decimalValue_decimalText n)⟩
  negativeZeroText := rfl
  bigintText n := ⟨wellFormed_decimalText n, congrArg some (decimalValue_decimalText n)⟩
  array o bytes _ h := by
    cases h
    exact ⟨(), rfl, rfl⟩
  object o bytes _ h := by
    cases h
    exact ⟨(), by simp [codecHost], rfl⟩
  arrayBuffer bytes content h := by
    simp only [codecHost] at h
    split at h
    · cases h
    · split at h <;> cases h

/-- A number comes back. -/
theorem fromBuffer_toBuffer_number :
    RoundTrips codecHost Eq (.number (.integer (-42))) 8 := by
  have hsafe : (Value.number (.integer (-42))).Codable fun _ : Unit => True := by
    show JsDouble.isSafeInteger (.integer (-42)) = true
    decide
  refine (fromBuffer_toBuffer codecHost_exact 8 hsafe).mpr ?_
  rintro ⟨bytes, n, h, -⟩
  cases h

/-- The byte of an empty map in an `ArrayBuffer` is let through, and decoded as that
    map. -/
theorem arrayBuffer_decoded :
    codecHost.Exact (fun _ => True) Eq ∧ (Value.arrayBuffer [0x80]).Codable (fun _ : Unit => True) ∧
      inputStage codecHost (.arrayBuffer [0x80]) 8 = .ok [0x80] ∧
      fromBuffer codecHost [0x80] (detectType (.arrayBuffer [0x80] : Value Unit)) 8 =
        .ok (.object ()) ∧
      ¬ RoundTrips codecHost Eq (.arrayBuffer [0x80]) 8 := by
  refine ⟨codecHost_exact, trivial, by rfl, by rfl, fun htrips => ?_⟩
  obtain ⟨value, hback, hsame⟩ := htrips [0x80] (by rfl)
  have hobject : fromBuffer codecHost [0x80] (detectType (.arrayBuffer [0x80] : Value Unit)) 8 =
      .ok (.object ()) := by rfl
  -- an `ArrayBuffer` is not the map that comes back
  rw [hobject] at hback
  cases hback
  cases hsame

end PipeX
