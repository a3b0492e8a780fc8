import Crossbook.Fixed.Digits
import Crossbook.Fixed.Reading

set_option autoImplicit false

namespace Crossbook

open Decimal Scientific Spans

def kMaxFormattedFixed : Nat := 24

structure Backwards where
  free : Nat
  text : Bytes
  deriving DecidableEq, Repr

/-- No result means a write in front of the buffer. -/
def Backwards.put (buf : Backwards) (c : UInt8) : Option Backwards :=
  match buf.free with
  | 0 => none
  | free + 1 => some ⟨free, c :: buf.text⟩

def putFraction : Nat → UInt64 → Backwards → Option (UInt64 × Backwards)
  | 0, magnitude, buf => some (magnitude, buf)
  | places + 1, magnitude, buf =>
    (buf.put (digitByte magnitude)).bind (putFraction places (magnitude / 10))

def putInteger (magnitude : UInt64) (buf : Backwards) : Option Backwards :=
  (buf.put (digitByte magnitude)).bind fun next =>
    if more : magnitude / 10 ≠ 0 then putInteger (magnitude / 10) next else some next
termination_by magnitude.toNat
decreasing_by exact MachineInt.toNat_div_ten_lt more

/-- `format_fixed_into` a buffer of `size` bytes. -/
def formatFixedInto (mantissa : Int64) (scale : Scale) (size : Nat) : Option Bytes :=
  (putFraction scale.toNat (magnitudeOf mantissa) ⟨size, []⟩).bind fun fraction =>
    (if 0 < scale then fraction.2.put (ascii '.') else some fraction.2).bind fun pointed =>
      (putInteger fraction.1 pointed).bind fun whole =>
        (if mantissa < 0 then whole.put (ascii '-') else some whole).map Backwards.text

section Buffer

def Backwards.write (buf : Backwards) (front : Bytes) : Backwards :=
  ⟨buf.free - front.length, front ++ buf.text⟩

theorem put_eq (buf : Backwards) (c : UInt8) (room : 0 < buf.free) :
    buf.put c = some (buf.write [c]) := by
  obtain ⟨free, text⟩ := buf
  cases free with
  | zero => simp at room
  | succ free => rfl

theorem putFraction_eq (places : Nat) (magnitude : UInt64) (buf : Backwards)
    (room : places ≤ buf.free) :
    putFraction places magnitude buf = some ((formatFraction places magnitude []).1,
      buf.write (formatFraction places magnitude []).2) := by
  induction places generalizing magnitude buf with
  | zero => simp [putFraction, formatFraction, Backwards.write]
  | succ places ih =>
    have later : places ≤ (buf.write [digitByte magnitude]).free := by
      simp only [Backwards.write, List.length_singleton]
      omega
    rw [putFraction, put_eq _ _ (by omega), Option.bind_some, ih _ _ later, formatFraction,
      formatFraction_append _ _ [digitByte magnitude]]
    simp [Backwards.write, Nat.sub_sub, Nat.add_comm]

theorem putInteger_eq (magnitude : UInt64) (buf : Backwards)
    (room : (digitsLoop magnitude).length ≤ buf.free) :
    putInteger magnitude buf = some (buf.write (digitsLoop magnitude).reverse) := by
  induction magnitude, buf using putInteger.induct with
  | case1 magnitude buf ih =>
    rw [digitsLoop_eq, List.length_cons] at room
    rw [putInteger, put_eq _ _ (by omega), Option.bind_some, digitsLoop_eq]
    by_cases last : magnitude / 10 = 0
    · rw [dif_neg (not_not.mpr last), if_pos last]
      rfl
    · rw [if_neg last] at room
      have later : (digitsLoop (magnitude / 10)).length ≤
          (buf.write [digitByte magnitude]).free := by
        simp only [Backwards.write, List.length_singleton]
        omega
      rw [dif_pos last, if_neg last, ih _ last later]
      simp [Backwards.write, Nat.sub_sub, Nat.add_comm]

theorem write_write (buf : Backwards) (first second : Bytes) :
    (buf.write first).write second = buf.write (second ++ first) := by
  simp [Backwards.write, Nat.sub_sub, Nat.add_comm]

theorem putIf_eq (condition : Prop) [Decidable condition] (c : UInt8) (buf : Backwards)
    (room : (if condition then [c] else []).length ≤ buf.free) :
    (if condition then buf.put c else some buf) =
      some (buf.write (if condition then [c] else [])) := by
  split
  next holds =>
    rw [if_pos holds, List.length_singleton] at room
    exact put_eq buf c room
  next => rfl

theorem formatFixed_eq (mantissa : Int64) (scale : Scale) :
    formatFixed mantissa scale =
      (if mantissa < 0 then [ascii '-'] else []) ++
        ((digitsLoop (formatFraction scale.toNat (magnitudeOf mantissa) []).1).reverse ++
          ((if 0 < scale then [ascii '.'] else []) ++
            (formatFraction scale.toNat (magnitudeOf mantissa) []).2)) := by
  rw [formatFixed]
  split <;> split <;> rfl

theorem formatFixedInto_eq (mantissa : Int64) (scale : Scale) {size : Nat}
    (room : (formatFixed mantissa scale).length ≤ size) :
    formatFixedInto mantissa scale size = some (formatFixed mantissa scale) := by
  have fraction := length_formatFraction scale.toNat (magnitudeOf mantissa)
  rw [formatFixed_eq] at room ⊢
  simp only [List.length_append, List.length_reverse, fraction] at room
  rw [formatFixedInto, putFraction_eq _ _ _ (by dsimp only; omega), Option.bind_some,
    putIf_eq, Option.bind_some, putInteger_eq, Option.bind_some, putIf_eq, Option.map_some,
    write_write, write_write, write_write]
  · simp [Backwards.write]
  all_goals
    simp only [Backwards.write, List.length_reverse, fraction]
    omega

theorem toNat_magnitudeOf (value : Int64) : (magnitudeOf value).toNat = value.toInt.natAbs :=
  toNat_magnitudeU64 value

theorem length_formatFixed (mantissa : Int64) {scale : Scale} (valid : scale ≤ kMaxScale) :
    (formatFixed mantissa scale).length ≤ 22 := by
  have bound : scale.toNat ≤ 18 := UInt8.le_iff_toNat_le.mp valid
  have fraction := length_formatFraction scale.toNat (magnitudeOf mantissa)
  have small : (magnitudeOf mantissa).toNat < 10 ^ 20 :=
    (magnitudeOf mantissa).toNat_lt.trans (by decide)
  have integer : (digitsLoop (formatFraction scale.toNat (magnitudeOf mantissa) []).1).length ≤
      20 - scale.toNat := by
    obtain ⟨k, width⟩ : ∃ k, 20 - scale.toNat = k + 1 := ⟨19 - scale.toNat, by omega⟩
    rw [width]
    apply digitsLoop_length
    have total : 10 ^ scale.toNat * 10 ^ (k + 1) = 10 ^ 20 := by
      rw [← pow_add]
      congr 1
      omega
    rw [toNat_formatFraction]
    apply Nat.div_lt_of_lt_mul
    rwa [total]
  have sign : (if mantissa < 0 then [ascii '-'] else []).length ≤ 1 := by split <;> simp
  have point : (if 0 < scale then [ascii '.'] else []).length ≤ 1 := by split <;> simp
  rw [formatFixed_eq]
  simp only [List.length_append, List.length_reverse, fraction]
  omega

end Buffer

section Inverse

def formatted (mantissa : Int64) (scale : Scale) : Numeral where
  sign := if mantissa < 0 then some .minus else none
  integer := (digitsLoop (formatFraction scale.toNat (magnitudeOf mantissa) []).1).reverse
  fraction := if 0 < scale then some (formatFraction scale.toNat (magnitudeOf mantissa) []).2
    else none
  exponent := none
  integerDigits := by
    rw [digitsLoop_print]
    exact (print_number _).digits
  fractionDigits := by
    split
    · exact digits_formatFraction _ _
    · simp
  someDigit := by
    rw [digitsLoop_print]
    exact List.append_ne_nil_of_left_ne_nil (print_number _).some_ _

theorem formatted_text (mantissa : Int64) (scale : Scale) :
    (formatted mantissa scale).text = formatFixed mantissa scale := by
  have whole : ¬ 0 < scale → (formatFraction scale.toNat (magnitudeOf mantissa) []).2 = [] := by
    intro none
    have zero : scale.toNat = 0 := by
      have low := UInt8.lt_iff_toNat_lt.not.mp none
      simpa using low
    rw [zero]
    rfl
  rw [formatFixed_eq, Numeral.text, formatted]
  dsimp only
  by_cases pointed : 0 < scale
  · rw [if_pos pointed, if_pos pointed]
    split <;> simp [signText, fractionText, exponentText, Sign.byte, point, ascii]
  · rw [if_neg pointed, if_neg pointed, whole pointed]
    split <;> simp [signText, fractionText, exponentText, Sign.byte, ascii]

theorem formatted_fraction (mantissa : Int64) (scale : Scale) :
    (formatted mantissa scale).fraction.getD [] =
      (formatFraction scale.toNat (magnitudeOf mantissa) []).2 := by
  rw [formatted]
  dsimp only
  split
  · rfl
  next none =>
    have zero : scale.toNat = 0 := by
      have low := UInt8.lt_iff_toNat_lt.not.mp none
      simpa using low
    rw [zero]
    rfl

theorem formatted_significand (mantissa : Int64) (scale : Scale) :
    (formatted mantissa scale).significand = mantissa.toInt.natAbs := by
  have integer := value_print (formatFraction scale.toNat (magnitudeOf mantissa) []).1.toNat
  rw [Numeral.significand, Numeral.digits, formatted_fraction, formatted]
  dsimp only
  rw [digitsLoop_print, Decimal.value, valueFrom_append, ← Decimal.value, integer,
    value_formatFraction, toNat_magnitudeOf]

theorem formatted_cutShift (mantissa : Int64) (scale : Scale) :
    cutShift (formatted mantissa scale) scale = 0 := by
  rw [cutShift, Numeral.places, formatted_fraction, length_formatFraction]
  exact sub_eq_zero.mpr (add_zero _)

theorem parse_formatted (mantissa : Int64) {scale : Scale} (valid : scale ≤ kMaxScale)
    (movable : mantissa ≠ Int64.minValue) :
    parseFixed (formatFixed mantissa scale) scale = ⟨mantissa, .ok⟩ := by
  have low := mantissa.le_toInt
  have high := mantissa.toInt_lt
  have moved : mantissa.toInt ≠ -2 ^ 63 := fun edge => movable (Int64.toInt_inj.mp edge)
  have small : mantissa.toInt.natAbs < 2 ^ 63 := by omega
  have zero : Int32.ofInt 0 = 0 := rfl
  have still : shiftMantissa (Int64.ofNat mantissa.toInt.natAbs) 0 =
      ⟨Int64.ofNat mantissa.toInt.natAbs, .ok⟩ := rfl
  have sign : (formatted mantissa scale).negative = decide (mantissa < 0) := by
    rw [Numeral.negative, formatted]
    dsimp only
    by_cases below : mantissa < 0 <;> simp [below]
  rw [← formatted_text, parseFixed_text _ valid, settled, formatted_significand,
    if_neg (not_le.mpr small), formatted_cutShift, zero, still]
  have fine : (ParseResult.mk (Int64.ofNat mantissa.toInt.natAbs) .ok).ok = true := rfl
  dsimp only
  rw [if_pos fine, sign]
  congr 1
  have value := Int64.toInt_ofNat_of_lt small
  by_cases below : mantissa < 0
  · have negative : mantissa.toInt < 0 := by simpa using Int64.lt_iff_toInt_lt.mp below
    rw [decide_eq_true below, if_pos rfl, ← Int64.toInt_inj,
      MachineInt.toInt_neg_of_ne _ (by omega), value]
    omega
  · have nonneg : 0 ≤ mantissa.toInt := by
      simpa using Int64.le_iff_toInt_le.mp (Int64.not_lt.mp below)
    rw [decide_eq_false below, if_neg Bool.false_ne_true, ← Int64.toInt_inj, value]
    omega

theorem formatFixed_negative {mantissa : Int64} (below : mantissa < 0) (scale : Scale) :
    ∃ rest, formatFixed mantissa scale = ascii '-' :: rest := by
  rw [formatFixed_eq, if_pos below]
  exact ⟨_, rfl⟩

theorem formatFixed_unsigned {mantissa : Int64} (above : ¬ mantissa < 0) (scale : Scale) :
    Stops isSign (formatFixed mantissa scale) := by
  have body := body_stops (formatted mantissa scale)
  have none_ : (formatted mantissa scale).sign = none := if_neg above
  rwa [← formatted_text, Numeral.text, none_, signText, List.nil_append]

theorem dropPlus_formatFixed (mantissa : Int64) (scale : Scale) :
    dropPlus (formatFixed mantissa scale) = formatFixed mantissa scale := by
  by_cases below : mantissa < 0
  · obtain ⟨rest, text⟩ := formatFixed_negative below scale
    rw [text]
    rfl
  · have unsigned := formatFixed_unsigned below scale
    cases text : formatFixed mantissa scale with
    | nil => rfl
    | cons c rest =>
      rw [text, stops_cons] at unsigned
      have plain : c ≠ ascii '+' := by
        rintro rfl
        exact absurd unsigned (by decide)
      rw [dropPlus, if_neg plain]

/-- Formatting fits the buffer, and what it writes parses back to the mantissa. -/
theorem format_parse_inverse (mantissa : Int64) (scale : Scale) (valid : scale ≤ kMaxScale) :
    formatFixedInto mantissa scale kMaxFormattedFixed = some (formatFixed mantissa scale) ∧
      (formatFixed mantissa scale).length ≤ kMaxFormattedFixed ∧
      (mantissa ≠ Int64.minValue →
        parseFixed (formatFixed mantissa scale) scale = ⟨mantissa, .ok⟩ ∧
          isCanonicalAtScale (formatFixed mantissa scale) scale = true) := by
  have short : (formatFixed mantissa scale).length ≤ kMaxFormattedFixed :=
    (length_formatFixed mantissa valid).trans (by decide)
  refine ⟨formatFixedInto_eq mantissa scale short, short, fun movable => ?_⟩
  have parsed := parse_formatted mantissa valid movable
  refine ⟨parsed, ?_⟩
  rw [isCanonicalAtScale, dropPlus_formatFixed, parsed]
  simp [ParseResult.ok]

theorem format_parse_inverse_small :
    (18 : Scale) ≤ kMaxScale ∧ (-1 : Int64) ≠ Int64.minValue ∧
      parseFixed (formatFixed (-1) 18) 18 = ⟨-1, .ok⟩ :=
  ⟨by decide, by decide, ((format_parse_inverse (-1) 18 (by decide)).2.2 (by decide)).1⟩

end Inverse

section Overloads

/-- Both checks answer the same for a token. -/
def OverloadsAgree (text : Bytes) (scale : Scale) : Prop :=
  isCanonicalAtScale text scale = true ↔
    ∃ m, parseFixed text scale = ⟨m, .ok⟩ ∧ isCanonicalMantissa text scale m = true

theorem dropPlus_cases (text : Bytes) :
    dropPlus text = text ∨ ∃ rest, text = ascii '+' :: rest := by
  cases text with
  | nil => exact .inl rfl
  | cons c rest =>
    by_cases plus : c = ascii '+'
    · exact .inr ⟨rest, by rw [plus]⟩
    · exact .inl (if_neg plus)

theorem isCanonicalAtScale_iff (text : Bytes) (scale : Scale) :
    isCanonicalAtScale text scale = true ↔
      ∃ m, parseFixed (dropPlus text) scale = ⟨m, .ok⟩ ∧ formatFixed m scale = dropPlus text := by
  rw [isCanonicalAtScale]
  generalize parseFixed (dropPlus text) scale = parsed
  obtain ⟨mantissa, error⟩ := parsed
  simp only [ParseResult.ok, Bool.and_eq_true, beq_iff_eq, ParseResult.mk.injEq]
  constructor
  · rintro ⟨fine, same⟩
    exact ⟨mantissa, ⟨rfl, fine⟩, same⟩
  · rintro ⟨m, ⟨rfl, fine⟩, same⟩
    exact ⟨fine, same⟩

theorem isCanonicalMantissa_iff (text : Bytes) (scale : Scale) (m : Int64) :
    isCanonicalMantissa text scale m = true ↔ formatFixed m scale = dropPlus text := by
  simp [isCanonicalMantissa]

theorem parseFixed_plus {rest : Bytes} {scale : Scale} (valid : scale ≤ kMaxScale)
    (some_ : rest ≠ []) (stops : Stops isSign rest) :
    parseFixed (ascii '+' :: rest) scale = parseFixed rest scale := by
  have bare := takeSign_text none stops
  have plus := takeSign_text (some .plus) stops
  rw [signText, List.nil_append] at bare
  rw [parseFixed_eq valid (by simp), parseFixed_eq valid some_, bare]
  exact congrArg (fun signed => finish signed.1 scale (readDigits signed.2)) plus

theorem parseFixed_two_signs (rest : Bytes) {scale : Scale} (valid : scale ≤ kMaxScale) :
    parseFixed (ascii '+' :: ascii '-' :: rest) scale = ⟨0, .malformed⟩ := by
  rw [parseFixed_eq valid (by simp)]
  rfl

theorem parse_formatted_min {scale : Scale} (valid : scale ≤ kMaxScale) :
    parseFixed (formatFixed Int64.minValue scale) scale = ⟨0, .overflow⟩ := by
  rw [← formatted_text, parseFixed_text _ valid, settled, formatted_significand]
  rfl

theorem overloads_agree_iff (text : Bytes) (scale : Scale) (valid : scale ≤ kMaxScale) :
    OverloadsAgree text scale ↔
      ¬ ∃ m : Int64, m < 0 ∧ m ≠ Int64.minValue ∧ text = ascii '+' :: formatFixed m scale := by
  simp only [OverloadsAgree, isCanonicalAtScale_iff, isCanonicalMantissa_iff]
  rcases dropPlus_cases text with same | ⟨rest, rfl⟩
  · rw [same]
    refine ⟨fun _ => ?_, fun _ => Iff.rfl⟩
    rintro ⟨m, -, -, rfl⟩
    rw [dropPlus, if_pos rfl] at same
    exact List.cons_ne_self _ _ same.symm
  · have dropped : dropPlus (ascii '+' :: rest) = rest := by rw [dropPlus, if_pos rfl]
    simp only [dropped, List.cons.injEq, true_and]
    by_cases canonical : ∃ m, formatFixed m scale = rest
    · obtain ⟨m, rfl⟩ := canonical
      by_cases below : m < 0
      · -- The doubled sign is read by the first overload only.
        obtain ⟨body, text⟩ := formatFixed_negative below scale
        have unread : ¬ ∃ k, parseFixed (ascii '+' :: formatFixed m scale) scale = ⟨k, .ok⟩ ∧
            formatFixed k scale = formatFixed m scale := by
          rw [text, parseFixed_two_signs body valid]
          simp
        rw [iff_false_right unread, not_iff_not]
        constructor
        · rintro ⟨k, read, spelled⟩
          refine ⟨m, below, ?_, rfl⟩
          rintro rfl
          rw [parse_formatted_min valid] at read
          simp at read
        · rintro ⟨k, -, movable, spelled⟩
          rw [spelled]
          exact ⟨k, parse_formatted k valid movable, rfl⟩
      · -- Without a sign behind it the plus changes nothing for either overload.
        have unsigned := formatFixed_unsigned below scale
        have nonempty : formatFixed m scale ≠ [] := formatted_text m scale ▸ text_ne_nil _
        rw [parseFixed_plus valid nonempty unsigned]
        refine ⟨fun _ => ?_, fun _ => Iff.rfl⟩
        rintro ⟨k, negative, -, spelled⟩
        obtain ⟨body, text⟩ := formatFixed_negative negative scale
        rw [spelled, text, stops_cons] at unsigned
        exact absurd unsigned (by decide)
    · have never (first : Bytes) :
          ¬ ∃ m, parseFixed first scale = ⟨m, .ok⟩ ∧ formatFixed m scale = rest :=
        fun ⟨m, _, spelled⟩ => canonical ⟨m, spelled⟩
      refine ⟨fun _ => ?_, fun _ => iff_of_false (never _) (never _)⟩
      rintro ⟨m, -, -, rfl⟩
      exact canonical ⟨m, rfl⟩

theorem overloads_agree_iff_plain :
    (0 : Scale) ≤ kMaxScale ∧ (OverloadsAgree (bytes "+5") 0 ↔
      ¬ ∃ m : Int64, m < 0 ∧ m ≠ Int64.minValue ∧ bytes "+5" = ascii '+' :: formatFixed m 0) :=
  ⟨by decide, overloads_agree_iff _ _ (by decide)⟩

theorem overloads_differ_on_two_signs :
    isCanonicalAtScale (bytes "+-5") 0 = true ∧
      parseFixed (bytes "+-5") 0 = ⟨0, .malformed⟩ ∧ ¬ OverloadsAgree (bytes "+-5") 0 := by
  have first : isCanonicalAtScale (bytes "+-5") 0 = true := by decide +kernel
  have second : parseFixed (bytes "+-5") 0 = ⟨0, .malformed⟩ := by decide +kernel
  refine ⟨first, second, fun agree => ?_⟩
  obtain ⟨m, read, -⟩ := agree.mp first
  rw [second] at read
  simp at read

end Overloads

end Crossbook
