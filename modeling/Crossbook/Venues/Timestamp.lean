import Crossbook.Lib.Decimal
import Crossbook.Lib.Spans
import Crossbook.Venues.CivilDays

set_option autoImplicit false

namespace Crossbook

open Gregorian (Date dayNumber monthLength)

structure DigitField (width : Nat) (digits : Bytes) : Prop where
  length : digits.length = width
  digits : ∀ c ∈ digits, Decimal.isDigit c = true

structure TimeText where
  year : Bytes
  month : Bytes
  day : Bytes
  separator : UInt8
  hour : Bytes
  minute : Bytes
  second : Bytes
  fraction : Option Bytes
  zone : UInt8

namespace TimeText

def fractionText : Option Bytes → Bytes
  | none => []
  | some digits => ascii '.' :: digits

def text (t : TimeText) : Bytes :=
  t.year ++ ascii '-' :: (t.month ++ ascii '-' :: (t.day ++ t.separator ::
    (t.hour ++ ascii ':' :: (t.minute ++ ascii ':' :: (t.second ++
      (fractionText t.fraction ++ [t.zone]))))))

/-- YYYY-MM-DD, T or t, HH:MM:SS, an optional point with digits behind it, and Z or z. -/
structure Formed (t : TimeText) : Prop where
  year : DigitField 4 t.year
  month : DigitField 2 t.month
  day : DigitField 2 t.day
  separator : t.separator = ascii 'T' ∨ t.separator = ascii 't'
  hour : DigitField 2 t.hour
  minute : DigitField 2 t.minute
  second : DigitField 2 t.second
  fraction : ∀ digits, t.fraction = some digits → Decimal.Number digits
  zone : t.zone = ascii 'Z' ∨ t.zone = ascii 'z'

structure InRange (t : TimeText) : Prop where
  month : 1 ≤ Decimal.value t.month ∧ Decimal.value t.month ≤ 12
  day : 1 ≤ Decimal.value t.day
  hour : Decimal.value t.hour ≤ 23
  minute : Decimal.value t.minute ≤ 59
  second : Decimal.value t.second ≤ 60

def lastDay (t : TimeText) : Nat := monthLength (Decimal.value t.year) (Decimal.value t.month)

/-- Seconds since 1970, where a day past the end of its month counts on into the next. -/
def seconds (t : TimeText) : Int :=
  (dayNumber (Decimal.value t.year) (Decimal.value t.month) (Decimal.value t.day) -
      civilEpoch.number) * 86400 +
    Decimal.value t.hour * 3600 + Decimal.value t.minute * 60 + Decimal.value t.second

structure InBound (t : TimeText) : Prop where
  low : 0 ≤ t.seconds
  high : t.seconds ≤ kMaxSeconds.toInt

/-- The nanoseconds of a fraction; digits after the ninth are dropped. -/
def fractionValue : Option Bytes → Nat
  | none => 0
  | some digits => Decimal.value (digits.take 9) * 10 ^ (9 - digits.length)

def nanos (t : TimeText) : Int := t.seconds * 1000000000 + fractionValue t.fraction

end TimeText

section Digits

theorem toUInt32_digit {c : UInt8} (digit : Decimal.isDigit c = true) :
    (c - ascii '0').toUInt32 = UInt32.ofNat (Decimal.digitValue c) := by
  apply UInt32.toNat_inj.mp
  have small := Decimal.digitValue_lt digit
  rw [UInt8.toNat_toUInt32, UInt32.toNat_ofNat', Nat.mod_eq_of_lt (by omega)]
  rfl

theorem takeDigitsLoop_run {digits : Bytes} (all : ∀ c ∈ digits, Decimal.isDigit c = true)
    (value : Nat) (rest : Bytes) :
    takeDigitsLoop digits.length (UInt32.ofNat value) (digits ++ rest) =
      some (UInt32.ofNat (Decimal.valueFrom value digits), rest) := by
  induction digits generalizing value with
  | nil => rfl
  | cons c digits ih =>
    have digit := all c (by simp)
    have next : UInt32.ofNat value * 10 + (c - ascii '0').toUInt32 =
        UInt32.ofNat (value * 10 + Decimal.digitValue c) := by
      rw [toUInt32_digit digit, UInt32.ofNat_add, UInt32.ofNat_mul]
      rfl
    have isDig : isDigit c = true := digit
    rw [List.length_cons, List.cons_append, takeDigitsLoop, if_pos isDig, next,
      ih fun c member => all c (by simp [member])]
    rfl

theorem takeDigits_field {width : Nat} {digits : Bytes} (field : DigitField width digits)
    (rest : Bytes) :
    takeDigits width (digits ++ rest) = some (UInt32.ofNat (Decimal.value digits), rest) := by
  obtain ⟨rfl, all⟩ := field
  exact takeDigitsLoop_run all 0 rest

theorem takeDigitsLoop_some {width : Nat} {value read : UInt32} {s rest : Bytes}
    (taken : takeDigitsLoop width value s = some (read, rest)) :
    ∃ digits, DigitField width digits ∧ s = digits ++ rest := by
  induction width generalizing value s with
  | zero =>
    obtain ⟨-, rfl⟩ := Prod.mk.inj (Option.some.inj taken)
    exact ⟨[], ⟨rfl, by simp⟩, rfl⟩
  | succ width ih =>
    cases s with
    | nil => exact absurd taken nofun
    | cons c s =>
      rw [takeDigitsLoop] at taken
      cases digit : isDigit c with
      | false => exact absurd taken (by simp [digit])
      | true =>
        rw [if_pos digit] at taken
        obtain ⟨digits, field, rfl⟩ := ih taken
        refine ⟨c :: digits, ⟨by rw [List.length_cons, field.length], ?_⟩, rfl⟩
        intro x member
        rcases List.mem_cons.mp member with rfl | later
        · exact digit
        · exact field.digits x later

theorem takeByte_accepted {accepts : UInt8 → Bool} {c : UInt8} (accepted : accepts c = true)
    (rest : Bytes) : takeByte accepts (c :: rest) = some rest := by
  rw [takeByte, if_pos accepted]

theorem takeByte_some {accepts : UInt8 → Bool} {s rest : Bytes}
    (taken : takeByte accepts s = some rest) : ∃ c, accepts c = true ∧ s = c :: rest := by
  cases s with
  | nil => exact absurd taken nofun
  | cons c s =>
    rw [takeByte] at taken
    cases accepted : accepts c with
    | false => exact absurd taken (by simp [accepted])
    | true =>
      rw [if_pos accepted] at taken
      obtain rfl := Option.some.inj taken
      exact ⟨c, accepted, rfl⟩

theorem bind_some_of {α β : Type} {x : Option α} {a : α} (held : x = some a) (f : α → Option β) :
    (x >>= f) = f a := by
  rw [held]
  rfl

theorem bind_takeDigits {α : Type} {width : Nat} {s : Bytes} {next : UInt32 × Bytes → Option α}
    {out : α} (read : (takeDigits width s >>= next) = some out) :
    ∃ digits value rest, DigitField width digits ∧ s = digits ++ rest ∧
      next (value, rest) = some out := by
  obtain ⟨⟨value, rest⟩, taken, later⟩ := Option.bind_eq_some_iff.mp read
  obtain ⟨digits, field, rfl⟩ := takeDigitsLoop_some taken
  exact ⟨digits, value, rest, field, rfl, later⟩

theorem bind_takeByte {α : Type} {accepts : UInt8 → Bool} {s : Bytes} {next : Bytes → Option α}
    {out : α} (read : (takeByte accepts s >>= next) = some out) :
    ∃ c rest, accepts c = true ∧ s = c :: rest ∧ next rest = some out := by
  obtain ⟨rest, taken, later⟩ := Option.bind_eq_some_iff.mp read
  obtain ⟨c, accepted, rfl⟩ := takeByte_some taken
  exact ⟨c, rest, accepted, rfl, later⟩

theorem toInt64_digit {c : UInt8} (digit : Decimal.isDigit c = true) :
    (c - ascii '0').toUInt64.toInt64 = Int64.ofNat (Decimal.digitValue c) := by
  have small := Decimal.digitValue_lt digit
  have word : (c - ascii '0').toUInt64 = UInt64.ofNat (Decimal.digitValue c) := by
    apply UInt64.toNat_inj.mp
    rw [UInt8.toNat_toUInt64, UInt64.toNat_ofNat', Nat.mod_eq_of_lt (by omega)]
    rfl
  rw [word]
  rfl

theorem fractionNanos_run {digits rest : Bytes} (all : ∀ c ∈ digits, Decimal.isDigit c = true)
    (stops : Spans.Stops Decimal.isDigit rest) (read value : Nat) (most : read ≤ 9) :
    fractionNanos read (Int64.ofNat value) (digits ++ rest) =
      ((min 9 (read + digits.length),
        Int64.ofNat (Decimal.valueFrom value (digits.take (9 - read)))), rest) := by
  -- Only the first nine digits of a fraction are read for their value.
  induction digits generalizing read value with
  | nil =>
    have kept : min 9 (read + 0) = read := by omega
    rw [List.nil_append, List.take_nil, List.length_nil, kept]
    cases rest with
    | nil => rfl
    | cons c rest =>
      have other : isDigit c = false := (Spans.stops_cons c rest).mp stops
      rw [fractionNanos, if_neg (by simp [other])]
      rfl
  | cons c digits ih =>
    have digit := all c (by simp)
    have isDig : isDigit c = true := digit
    have later := ih fun c member => all c (by simp [member])
    rw [List.cons_append, fractionNanos, if_pos isDig]
    by_cases more : read < 9
    · have next : Int64.ofNat value * 10 + (c - ascii '0').toUInt64.toInt64 =
          Int64.ofNat (value * 10 + Decimal.digitValue c) := by
        rw [toInt64_digit digit, Int64.ofNat_add, Int64.ofNat_mul]
        rfl
      have width : 9 - read = 9 - (read + 1) + 1 := by omega
      rw [if_pos more, next, later (read + 1) _ more, width, List.take_succ_cons, List.length_cons,
        Nat.add_right_comm read 1]
      rfl
    · have full : read = 9 := by omega
      subst full
      rw [if_neg more, later 9 value le_rfl, List.length_cons]
      simp only [Nat.sub_self, List.take_zero]
      congr 2
      omega

theorem foldl_scale (value count : Nat) :
    (List.range count).foldl (fun scaled _ => scaled * 10) (Int64.ofNat value) =
      Int64.ofNat (value * 10 ^ count) := by
  induction count with
  | zero => simp
  | succ count ih =>
    rw [List.range_succ, List.foldl_append, ih, List.foldl_cons, List.foldl_nil, Nat.pow_succ,
      ← Nat.mul_assoc, Int64.ofNat_mul (value * 10 ^ count)]
    rfl

theorem takeNanos_run {digits rest : Bytes} (number : Decimal.Number digits)
    (stops : Spans.Stops Decimal.isDigit rest) :
    takeNanos (ascii '.' :: (digits ++ rest)) =
      some (Int64.ofNat (TimeText.fractionValue (some digits)), rest) := by
  have read := fractionNanos_run number.digits stops 0 0 (by decide)
  have zero : Int64.ofNat 0 = 0 := rfl
  have some_ : digits.length ≠ 0 := mt List.length_eq_zero_iff.mp number.some_
  have width : 9 - min 9 (0 + digits.length) = 9 - digits.length := by omega
  rw [zero] at read
  rw [takeNanos, if_pos rfl]
  simp only [read, width, foldl_scale]
  rw [if_neg (by omega)]
  rfl

theorem takeNanos_text {fraction : Option Bytes} {zone : UInt8}
    (numbers : ∀ digits, fraction = some digits → Decimal.Number digits)
    (utc : zone = ascii 'Z' ∨ zone = ascii 'z') :
    takeNanos (TimeText.fractionText fraction ++ [zone]) =
      some (Int64.ofNat (TimeText.fractionValue fraction), [zone]) := by
  cases fraction with
  | none => rcases utc with rfl | rfl <;> rfl
  | some digits =>
    have stops : Spans.Stops Decimal.isDigit [zone] := by
      rw [Spans.stops_cons]
      rcases utc with rfl | rfl <;> decide
    exact takeNanos_run (numbers digits rfl) stops

theorem takeNanos_some {s rest : Bytes} {nanos : Int64} (taken : takeNanos s = some (nanos, rest)) :
    ∃ fraction : Option Bytes, s = TimeText.fractionText fraction ++ rest ∧
      ∀ digits, fraction = some digits → Decimal.Number digits := by
  cases s with
  | nil =>
    obtain ⟨-, rfl⟩ := Prod.mk.inj (Option.some.inj taken)
    exact ⟨none, rfl, nofun⟩
  | cons c s =>
    by_cases point : c = ascii '.'
    · subst point
      obtain ⟨run, all, split⟩ := Spans.exists_run Decimal.isDigit s
      have stops := Spans.stops_dropWhile (p := Decimal.isDigit) s
      rw [split] at taken ⊢
      by_cases empty : run = []
      · have read := fractionNanos_run all stops 0 0 (by decide)
        have zero : Int64.ofNat 0 = 0 := rfl
        rw [zero, empty, List.nil_append] at read
        rw [takeNanos, if_pos rfl, empty, List.nil_append] at taken
        simp [read] at taken
      · rw [takeNanos_run ⟨empty, all⟩ stops] at taken
        obtain ⟨-, behind⟩ := Prod.mk.inj (Option.some.inj taken)
        refine ⟨some run, by rw [← behind]; rfl, ?_⟩
        intro digits same
        obtain rfl := Option.some.inj same
        exact ⟨empty, all⟩
    · rw [takeNanos, if_neg point] at taken
      obtain ⟨-, rfl⟩ := Prod.mk.inj (Option.some.inj taken)
      exact ⟨none, rfl, nofun⟩

theorem valueFrom_lt {digits : Bytes} (all : ∀ c ∈ digits, Decimal.isDigit c = true)
    (value : Nat) :
    Decimal.valueFrom value digits < (value + 1) * 10 ^ digits.length := by
  induction digits generalizing value with
  | nil => simp [Decimal.valueFrom]
  | cons c digits ih =>
    have small := Decimal.digitValue_lt (all c (by simp))
    have later := ih (fun c member => all c (by simp [member]))
      (value * 10 + Decimal.digitValue c)
    have wider : (value * 10 + Decimal.digitValue c + 1) * 10 ^ digits.length ≤
        (value + 1) * 10 * 10 ^ digits.length := Nat.mul_le_mul_right _ (by omega)
    rw [Decimal.valueFrom_cons, List.length_cons, Nat.pow_succ, Nat.mul_comm (10 ^ digits.length),
      ← Nat.mul_assoc]
    omega

theorem DigitField.value_lt {width : Nat} {digits : Bytes} (field : DigitField width digits) :
    Decimal.value digits < 10 ^ width := by
  have bound := valueFrom_lt field.digits 0
  rw [field.length] at bound
  simpa [Decimal.value] using bound

end Digits

namespace TimeText

variable {t : TimeText}

/-- The code's own sum of seconds, on its machine words. -/
def secondsWord (t : TimeText) : Int64 :=
  let field (digits : Bytes) : UInt32 := UInt32.ofNat (Decimal.value digits)
  daysFromCivil (field t.year).toUInt64.toInt64 (field t.month) (field t.day) * 86400 +
    (field t.hour).toUInt64.toInt64 * 3600 + (field t.minute).toUInt64.toInt64 * 60 +
      (field t.second).toUInt64.toInt64

def FieldsRefused (t : TimeText) : Prop :=
  let field (digits : Bytes) : UInt32 := UInt32.ofNat (Decimal.value digits)
  field t.month < 1 ∨ 12 < field t.month ∨ field t.day < 1 ∨ 31 < field t.day ∨
    23 < field t.hour ∨ 59 < field t.minute ∨ 60 < field t.second

instance (t : TimeText) : Decidable t.FieldsRefused :=
  inferInstanceAs (Decidable (_ ∨ _ ∨ _ ∨ _ ∨ _ ∨ _ ∨ _))

theorem parse_text_eq (formed : t.Formed) (out : Int64) :
    parseRfc3339Nanos t.text = some out ↔
      ¬ t.FieldsRefused ∧ ¬ (t.secondsWord < 0 ∨ kMaxSeconds < t.secondsWord) ∧
        t.secondsWord * 1000000000 + Int64.ofNat (fractionValue t.fraction) = out := by
  have separator : (t.separator == ascii 'T' || t.separator == ascii 't') = true := by
    simpa using formed.separator
  have zone : (t.zone == ascii 'Z' || t.zone == ascii 'z') = true := by
    simpa using formed.zone
  have nanos := takeNanos_text formed.fraction formed.zone
  have dash (rest : Bytes) : takeByte (· == ascii '-') (ascii '-' :: rest) = some rest :=
    takeByte_accepted (beq_self_eq_true _) rest
  have colon (rest : Bytes) : takeByte (· == ascii ':') (ascii ':' :: rest) = some rest :=
    takeByte_accepted (beq_self_eq_true _) rest
  unfold parseRfc3339Nanos text
  rw [bind_some_of (takeDigits_field formed.year _)]
  dsimp only
  rw [bind_some_of (dash _), bind_some_of (takeDigits_field formed.month _)]
  dsimp only
  rw [bind_some_of (dash _), bind_some_of (takeDigits_field formed.day _)]
  dsimp only
  rw [bind_some_of (takeByte_accepted separator _), bind_some_of (takeDigits_field formed.hour _)]
  dsimp only
  rw [bind_some_of (colon _), bind_some_of (takeDigits_field formed.minute _)]
  dsimp only
  rw [bind_some_of (colon _), bind_some_of (takeDigits_field formed.second _)]
  change (if t.FieldsRefused then none else _) = _ ↔ _
  by_cases refused : t.FieldsRefused
  · rw [if_pos refused]
    simp [refused]
  rw [if_neg refused, bind_some_of nanos]
  dsimp only
  rw [bind_some_of (takeByte_accepted zone _)]
  change (if ([] : Bytes).isEmpty = false ∨ t.secondsWord < 0 ∨ kMaxSeconds < t.secondsWord then none
    else some (t.secondsWord * 1000000000 + Int64.ofNat (fractionValue t.fraction))) = some out ↔ _
  by_cases outside : t.secondsWord < 0 ∨ kMaxSeconds < t.secondsWord
  · rw [if_pos (.inr outside)]
    simp [outside]
  · rw [if_neg (by simpa using outside)]
    simp only [refused, outside, not_false_eq_true, true_and, Option.some.injEq]

theorem toNat_field {width : Nat} {digits : Bytes} (field : DigitField width digits)
    (narrow : width ≤ 4) :
    (UInt32.ofNat (Decimal.value digits)).toNat = Decimal.value digits := by
  have bound := field.value_lt
  have small : 10 ^ width ≤ 10 ^ 4 := Nat.pow_le_pow_right (by decide) narrow
  exact UInt32.toNat_ofNat_of_lt' (by change _ < 2 ^ 32; omega)

theorem toInt_field {width : Nat} {digits : Bytes} (field : DigitField width digits)
    (narrow : width ≤ 4) :
    (UInt32.ofNat (Decimal.value digits)).toUInt64.toInt64.toInt = Decimal.value digits := by
  have value := toNat_field field narrow
  have word := (UInt32.ofNat (Decimal.value digits)).toNat_lt
  rw [MachineInt.toInt_toInt64 _ (by rw [UInt32.toNat_toUInt64]; omega), UInt32.toNat_toUInt64,
    value]

theorem not_fieldsRefused_iff (formed : t.Formed) :
    ¬ t.FieldsRefused ↔ t.InRange ∧ Decimal.value t.day ≤ 31 := by
  have month := toNat_field formed.month (by decide)
  have day := toNat_field formed.day (by decide)
  have hour := toNat_field formed.hour (by decide)
  have minute := toNat_field formed.minute (by decide)
  have second := toNat_field formed.second (by decide)
  simp only [FieldsRefused, UInt32.lt_iff_toNat_lt, month, day, hour, minute, second,
    UInt32.reduceToNat]
  constructor
  · intro kept
    exact ⟨⟨by omega, by omega, by omega, by omega, by omega⟩, by omega⟩
  · rintro ⟨⟨_, _, _, _, _⟩, _⟩
    omega

theorem dayNumber_bounds (formed : t.Formed) (inRange : t.InRange)
    (last : Decimal.value t.day ≤ 31) :
    -10 ^ 8 ≤
        dayNumber (Decimal.value t.year) (Decimal.value t.month) (Decimal.value t.day) - 719163 ∧
      dayNumber (Decimal.value t.year) (Decimal.value t.month) (Decimal.value t.day) - 719163 ≤
        10 ^ 8 := by
  have year := formed.year.value_lt
  have months := Gregorian.daysBeforeMonth_eq (Decimal.value t.year) inRange.month.1
    inRange.month.2
  obtain ⟨low, high⟩ := inRange.month
  unfold dayNumber Gregorian.daysBeforeYear
  split at months
  · omega
  · split at months <;> omega

theorem toInt_sum {days hour minute second : Int64}
    (dayRange : -10 ^ 8 ≤ days.toInt ∧ days.toInt ≤ 10 ^ 8)
    (hourRange : 0 ≤ hour.toInt ∧ hour.toInt ≤ 23)
    (minuteRange : 0 ≤ minute.toInt ∧ minute.toInt ≤ 59)
    (secondRange : 0 ≤ second.toInt ∧ second.toInt ≤ 60) :
    (days * 86400 + hour * 3600 + minute * 60 + second).toInt =
      days.toInt * 86400 + hour.toInt * 3600 + minute.toInt * 60 + second.toInt := by
  have dayPart : (days * 86400).toInt = days.toInt * 86400 :=
    MachineInt.toInt_mul_of_fits days 86400 (by change _ ≤ days.toInt * 86400; omega)
      (by change days.toInt * 86400 < _; omega)
  have hourPart : (hour * 3600).toInt = hour.toInt * 3600 :=
    MachineInt.toInt_mul_of_fits hour 3600 (by change _ ≤ hour.toInt * 3600; omega)
      (by change hour.toInt * 3600 < _; omega)
  have minutePart : (minute * 60).toInt = minute.toInt * 60 :=
    MachineInt.toInt_mul_of_fits minute 60 (by change _ ≤ minute.toInt * 60; omega)
      (by change minute.toInt * 60 < _; omega)
  have withHours := MachineInt.toInt_add_of_fits (days * 86400) (hour * 3600)
    (by rw [dayPart, hourPart]; omega) (by rw [dayPart, hourPart]; omega)
  rw [dayPart, hourPart] at withHours
  have withMinutes := MachineInt.toInt_add_of_fits (days * 86400 + hour * 3600) (minute * 60)
    (by rw [withHours, minutePart]; omega) (by rw [withHours, minutePart]; omega)
  rw [withHours, minutePart] at withMinutes
  rw [MachineInt.toInt_add_of_fits _ _ (by rw [withMinutes]; omega) (by rw [withMinutes]; omega),
    withMinutes]

theorem secondsWord_eq (formed : t.Formed) (inRange : t.InRange)
    (last : Decimal.value t.day ≤ 31) : t.secondsWord.toInt = t.seconds := by
  have yearValue := toInt_field formed.year (by decide)
  have month := toNat_field formed.month (by decide)
  have day := toNat_field formed.day (by decide)
  have hour := toInt_field formed.hour (by decide)
  have minute := toInt_field formed.minute (by decide)
  have second := toInt_field formed.second (by decide)
  have bounds := dayNumber_bounds formed inRange last
  have epoch : civilEpoch.number = 719163 := by decide
  have days := toInt_daysFromCivil
    (UInt32.ofNat (Decimal.value t.year)).toUInt64.toInt64 (UInt32.ofNat (Decimal.value t.month))
    (UInt32.ofNat (Decimal.value t.day))
  rw [yearValue, month, day] at days
  have range : YearInRange (Decimal.value t.year) := by
    have year := formed.year.value_lt
    constructor <;> omega
  have days := days range inRange.month.1 inRange.month.2 inRange.day last
  rw [eraNumber_eq _ inRange.month.1 inRange.month.2 inRange.day] at days
  have dayRange : -10 ^ 8 ≤ (daysFromCivil (UInt32.ofNat (Decimal.value t.year)).toUInt64.toInt64
      (UInt32.ofNat (Decimal.value t.month)) (UInt32.ofNat (Decimal.value t.day))).toInt ∧
      (daysFromCivil (UInt32.ofNat (Decimal.value t.year)).toUInt64.toInt64
        (UInt32.ofNat (Decimal.value t.month)) (UInt32.ofNat (Decimal.value t.day))).toInt ≤
        10 ^ 8 := by
    rw [days]
    exact bounds
  have sum := toInt_sum dayRange
    (by rw [hour]; have := inRange.hour; omega) (by rw [minute]; have := inRange.minute; omega)
    (by rw [second]; have := inRange.second; omega)
  rw [days, hour, minute, second] at sum
  unfold secondsWord seconds
  rw [epoch]
  exact sum

theorem fractionValue_lt (fraction : Option Bytes)
    (numbers : ∀ digits, fraction = some digits → Decimal.Number digits) :
    fractionValue fraction < 1000000000 := by
  cases fraction with
  | none => decide
  | some digits =>
    have front := valueFrom_lt (show ∀ c ∈ digits.take 9, Decimal.isDigit c = true from
      fun c member => (numbers digits rfl).digits c (List.mem_of_mem_take member)) 0
    have whole : 10 ^ (digits.take 9).length * 10 ^ (9 - digits.length) = 10 ^ 9 := by
      rw [← Nat.pow_add, List.length_take]
      congr 1
      omega
    have scaled := Nat.mul_lt_mul_of_pos_right front
      (Nat.pow_pos (n := 9 - digits.length) (show 0 < 10 by decide))
    rw [Nat.zero_add, Nat.one_mul, whole] at scaled
    exact scaled

theorem parse_text (formed : t.Formed) (out : Int64) :
    parseRfc3339Nanos t.text = some out ↔
      t.InRange ∧ Decimal.value t.day ≤ 31 ∧ t.InBound ∧ out.toInt = t.nanos := by
  rw [parse_text_eq formed, not_fieldsRefused_iff formed, and_assoc]
  refine and_congr_right fun inRange => and_congr_right fun last => ?_
  have seconds := secondsWord_eq formed inRange last
  have small := fractionValue_lt t.fraction formed.fraction
  have top : kMaxSeconds.toInt = 9223372035 := by decide
  have fraction : (Int64.ofNat (fractionValue t.fraction)).toInt = fractionValue t.fraction :=
    Int64.toInt_ofNat_of_lt (by omega)
  have bound : ¬ (t.secondsWord < 0 ∨ kMaxSeconds < t.secondsWord) ↔ t.InBound := by
    rw [Int64.lt_iff_toInt_lt, Int64.lt_iff_toInt_lt, seconds, Int64.toInt_zero]
    constructor
    · intro inside
      exact ⟨by omega, by omega⟩
    · intro inBound
      have low := inBound.low
      have high := inBound.high
      omega
  rw [bound]
  refine and_congr_right fun inBound => ?_
  have low := inBound.low
  have high := inBound.high
  have scaled : (t.secondsWord * 1000000000).toInt = t.seconds * 1000000000 := by
    rw [← seconds]
    apply MachineInt.toInt_mul_of_fits
    · change _ ≤ t.secondsWord.toInt * 1000000000
      omega
    · change t.secondsWord.toInt * 1000000000 < _
      omega
  have total : (t.secondsWord * 1000000000 + Int64.ofNat (fractionValue t.fraction)).toInt =
      t.nanos := by
    rw [MachineInt.toInt_add_of_fits _ _ (by rw [scaled, fraction]; omega)
      (by rw [scaled, fraction]; omega), scaled, fraction, nanos]
  rw [← Int64.toInt_inj, total]
  exact eq_comm

theorem formed_of_parse {text : Bytes} {out : Int64}
    (parsed : parseRfc3339Nanos text = some out) : ∃ t : TimeText, t.text = text ∧ t.Formed := by
  unfold parseRfc3339Nanos at parsed
  obtain ⟨year, _, _, yearField, cut1, parsed⟩ := bind_takeDigits parsed
  obtain ⟨_, _, dash, cut2, parsed⟩ := bind_takeByte parsed
  obtain ⟨month, _, _, monthField, cut3, parsed⟩ := bind_takeDigits parsed
  obtain ⟨_, _, dash', cut4, parsed⟩ := bind_takeByte parsed
  obtain ⟨day, _, _, dayField, cut5, parsed⟩ := bind_takeDigits parsed
  obtain ⟨separator, _, separatorIs, cut6, parsed⟩ := bind_takeByte parsed
  obtain ⟨hour, _, _, hourField, cut7, parsed⟩ := bind_takeDigits parsed
  obtain ⟨_, _, colon, cut8, parsed⟩ := bind_takeByte parsed
  obtain ⟨minute, _, _, minuteField, cut9, parsed⟩ := bind_takeDigits parsed
  obtain ⟨_, _, colon', cut10, parsed⟩ := bind_takeByte parsed
  obtain ⟨second, _, _, secondField, cut11, parsed⟩ := bind_takeDigits parsed
  dsimp only at parsed
  split at parsed
  · contradiction
  obtain ⟨⟨_, s⟩, nanosTaken, parsed⟩ := Option.bind_eq_some_iff.mp parsed
  obtain ⟨fraction, cut12, numbers⟩ := takeNanos_some nanosTaken
  obtain ⟨zone, _, zoneIs, cut13, parsed⟩ := bind_takeByte parsed
  dsimp only at parsed
  split at parsed
  · contradiction
  rename_i accepted
  have last := (not_or.mp accepted).1
  simp only [Bool.not_eq_false, List.isEmpty_iff] at last
  obtain rfl := beq_iff_eq.mp dash
  obtain rfl := beq_iff_eq.mp dash'
  obtain rfl := beq_iff_eq.mp colon
  obtain rfl := beq_iff_eq.mp colon'
  subst cut1 cut2 cut3 cut4 cut5 cut6 cut7 cut8 cut9 cut10 cut11 cut12 cut13 last
  exact ⟨⟨year, month, day, separator, hour, minute, second, fraction, zone⟩, rfl,
    ⟨yearField, monthField, dayField, by simpa using separatorIs, hourField, minuteField,
      secondField, numbers, by simpa using zoneIs⟩⟩

theorem fractionText_inj {left right : Option Bytes}
    (same : fractionText left = fractionText right) : left = right := by
  cases left <;> cases right <;> simp_all [fractionText]

theorem text_inj {t u : TimeText} (formed : t.Formed) (formed' : u.Formed)
    (same : t.text = u.text) : t = u := by
  -- The fields have fixed widths, so a text is read in one way only.
  have cut {left right : Bytes} {restL restR : Bytes} {width : Nat} {c d : UInt8}
      (fieldL : DigitField width left) (fieldR : DigitField width right)
      (equal : left ++ c :: restL = right ++ d :: restR) : left = right ∧ c = d ∧ restL = restR := by
    obtain ⟨digits, behind⟩ := List.append_inj equal (fieldL.length.trans fieldR.length.symm)
    exact ⟨digits, List.cons.inj behind⟩
  obtain ⟨year, -, same⟩ := cut formed.year formed'.year same
  obtain ⟨month, -, same⟩ := cut formed.month formed'.month same
  obtain ⟨day, separator, same⟩ := cut formed.day formed'.day same
  obtain ⟨hour, -, same⟩ := cut formed.hour formed'.hour same
  obtain ⟨minute, -, same⟩ := cut formed.minute formed'.minute same
  obtain ⟨second, same⟩ := List.append_inj same
    (formed.second.length.trans formed'.second.length.symm)
  obtain ⟨fraction, zone⟩ := List.append_inj' same rfl
  have fraction := fractionText_inj fraction
  have zone := (List.cons.inj zone).1
  obtain ⟨⟩ := t
  obtain ⟨⟩ := u
  simp_all

structure Valid (t : TimeText) : Prop where
  formed : t.Formed
  inRange : t.InRange
  dated : Decimal.value t.day ≤ t.lastDay
  inBound : t.InBound

/-- A timestamp of a day past the end of its month, but not past the 31st. -/
structure Impossible (t : TimeText) : Prop where
  formed : t.Formed
  inRange : t.InRange
  undated : t.lastDay < Decimal.value t.day
  last : Decimal.value t.day ≤ 31
  inBound : t.InBound

theorem fits_nanos (formed : t.Formed) (inBound : t.InBound) :
    Fits t.seconds ∧ Fits (t.seconds * 1000000000) ∧ Fits t.nanos := by
  have small := fractionValue_lt t.fraction formed.fraction
  have top : kMaxSeconds.toInt = 9223372035 := by decide
  obtain ⟨low, high⟩ := inBound
  unfold Fits nanos
  omega

end TimeText

open TimeText

structure ParsedExactly (text : Bytes) : Prop where
  accepted : (∃ out, parseRfc3339Nanos text = some out) ↔ ∃ t : TimeText, t.text = text ∧ t.Valid
  value : ∀ (t : TimeText) (out : Int64), t.text = text → t.Valid →
    parseRfc3339Nanos text = some out → out.toInt = t.nanos
  fits : ∀ t : TimeText, t.text = text → t.Valid →
    Fits t.seconds ∧ Fits (t.seconds * 1000000000) ∧ Fits t.nanos

/-- The parser is exact but for the days 29 to 31 that their month does not have. -/
theorem parsedExactly_iff (text : Bytes) :
    ParsedExactly text ↔ ¬ ∃ t : TimeText, t.text = text ∧ t.Impossible := by
  constructor
  · rintro parsed ⟨t, rfl, impossible⟩
    have fits := (fits_nanos impossible.formed impossible.inBound).2.2
    have taken := (parse_text impossible.formed (Int64.ofInt t.nanos)).mpr
      ⟨impossible.inRange, impossible.last, impossible.inBound, toInt_ofInt_of_fits fits⟩
    obtain ⟨u, same, valid⟩ := parsed.accepted.mp ⟨_, taken⟩
    obtain rfl := text_inj valid.formed impossible.formed same
    exact absurd impossible.undated (Nat.not_lt.mpr valid.dated)
  · intro possible
    refine ⟨⟨?_, ?_⟩, ?_, ?_⟩
    · rintro ⟨out, taken⟩
      obtain ⟨t, rfl, formed⟩ := formed_of_parse taken
      obtain ⟨inRange, last, inBound, -⟩ := (parse_text formed out).mp taken
      refine ⟨t, rfl, formed, inRange, ?_, inBound⟩
      by_contra undated
      exact possible ⟨t, rfl, formed, inRange, Nat.not_le.mp undated, last, inBound⟩
    · rintro ⟨t, rfl, valid⟩
      have fits := (fits_nanos valid.formed valid.inBound).2.2
      have last := valid.dated.trans (Gregorian.monthLength_le _ _)
      exact ⟨Int64.ofInt t.nanos, (parse_text valid.formed _).mpr
        ⟨valid.inRange, last, valid.inBound, toInt_ofInt_of_fits fits⟩⟩
    · rintro t out rfl valid taken
      exact ((parse_text valid.formed out).mp taken).2.2.2
    · rintro t - valid
      exact fits_nanos valid.formed valid.inBound

theorem impossible_date_parses : ¬ ParsedExactly (bytes "2026-02-30T00:00:00Z") := by
  intro parsed
  let t : TimeText :=
    ⟨bytes "2026", bytes "02", bytes "30", ascii 'T', bytes "00", bytes "00", bytes "00", none,
      ascii 'Z'⟩
  have formed : t.Formed := by
    refine ⟨⟨?_, ?_⟩, ⟨?_, ?_⟩, ⟨?_, ?_⟩, .inl rfl, ⟨?_, ?_⟩, ⟨?_, ?_⟩, ⟨?_, ?_⟩, nofun, .inl rfl⟩ <;>
      decide +kernel
  have taken : parseRfc3339Nanos (bytes "2026-02-30T00:00:00Z") = some 1772409600000000000 := by
    decide +kernel
  have spelled : t.text = bytes "2026-02-30T00:00:00Z" := by decide +kernel
  obtain ⟨u, same, valid⟩ := parsed.accepted.mp ⟨_, taken⟩
  obtain rfl := text_inj valid.formed formed (same.trans spelled.symm)
  exact absurd valid.dated (by decide +kernel)

end Crossbook
