import Mathlib

set_option autoImplicit false

namespace Gregorian

def IsLeap (year : Int) : Prop := year % 4 = 0 ∧ (year % 100 ≠ 0 ∨ year % 400 = 0)

instance : DecidablePred IsLeap := fun year =>
  inferInstanceAs (Decidable (year % 4 = 0 ∧ (year % 100 ≠ 0 ∨ year % 400 = 0)))

def monthLength (year : Int) (month : Nat) : Nat :=
  if month = 2 then (if IsLeap year then 29 else 28)
  else if month = 4 ∨ month = 6 ∨ month = 9 ∨ month = 11 then 30
  else 31

theorem monthLength_pos (year : Int) (month : Nat) : 1 ≤ monthLength year month := by
  unfold monthLength
  split_ifs <;> decide

theorem monthLength_le (year : Int) (month : Nat) : monthLength year month ≤ 31 := by
  unfold monthLength
  split_ifs <;> decide

/-- A date that exists in the proleptic Gregorian calendar. -/
@[ext] structure Date where
  year : Int
  month : Nat
  day : Nat
  monthLow : 1 ≤ month
  monthHigh : month ≤ 12
  dayLow : 1 ≤ day
  dayHigh : day ≤ monthLength year month
  deriving DecidableEq

namespace Date

def next (d : Date) : Date :=
  if more : d.day < monthLength d.year d.month then
    { d with day := d.day + 1, dayLow := by omega, dayHigh := more }
  else if later : d.month < 12 then
    { d with
      month := d.month + 1
      day := 1
      monthLow := by omega
      monthHigh := later
      dayLow := le_rfl
      dayHigh := monthLength_pos _ _ }
  else
    { year := d.year + 1
      month := 1
      day := 1
      monthLow := le_rfl
      monthHigh := by decide
      dayLow := le_rfl
      dayHigh := monthLength_pos _ _ }

def Before (a b : Date) : Prop :=
  a.year < b.year ∨
    a.year = b.year ∧ (a.month < b.month ∨ a.month = b.month ∧ a.day < b.day)

end Date

def daysBeforeYear (year : Int) : Int :=
  365 * (year - 1) + (year - 1) / 4 - (year - 1) / 100 + (year - 1) / 400

def daysBeforeMonth (year : Int) : Nat → Nat
  | 0 => 0
  | 1 => 0
  | month + 2 => daysBeforeMonth year (month + 1) + monthLength year (month + 1)

def dayNumber (year : Int) (month day : Nat) : Int :=
  daysBeforeYear year + daysBeforeMonth year month + day

def Date.number (d : Date) : Int := dayNumber d.year d.month d.day

theorem daysBeforeYear_succ (year : Int) :
    daysBeforeYear (year + 1) = daysBeforeYear year + if IsLeap year then 366 else 365 := by
  unfold daysBeforeYear
  split
  next leap =>
    obtain ⟨four, century⟩ := leap
    omega
  next common =>
    unfold IsLeap at common
    omega

theorem daysBeforeYear_mono {a b : Int} (first : a ≤ b) : daysBeforeYear a ≤ daysBeforeYear b := by
  induction b, first using Int.leInduction with
  | base => exact le_rfl
  | succ b _ ih =>
    rw [daysBeforeYear_succ]
    split <;> omega

theorem daysBeforeMonth_succ (year : Int) {month : Nat} (low : 1 ≤ month) :
    daysBeforeMonth year (month + 1) = daysBeforeMonth year month + monthLength year month := by
  obtain ⟨month, rfl⟩ : ∃ m, month = m + 1 := ⟨month - 1, by omega⟩
  rfl

theorem daysBeforeMonth_mono (year : Int) {a b : Nat} (low : 1 ≤ a) (first : a ≤ b) :
    daysBeforeMonth year a ≤ daysBeforeMonth year b := by
  induction b, first using Nat.le_induction with
  | base => exact le_rfl
  | succ b later ih =>
    rw [daysBeforeMonth_succ year (by omega)]
    omega

theorem daysBeforeMonth_eq (year : Int) {month : Nat} (low : 1 ≤ month) (high : month ≤ 12) :
    daysBeforeMonth year month =
      if month ≤ 2 then 31 * (month - 1)
      else (153 * (month - 3) + 2) / 5 + 59 + if IsLeap year then 1 else 0 := by
  by_cases leap : IsLeap year <;> interval_cases month <;>
    simp [daysBeforeMonth, monthLength, leap]

theorem daysBeforeMonth_year (year : Int) :
    daysBeforeMonth year 13 = if IsLeap year then 366 else 365 := by
  by_cases leap : IsLeap year <;> simp [daysBeforeMonth, monthLength, leap]

namespace Date

theorem number_next (d : Date) : d.next.number = d.number + 1 := by
  have low := d.monthLow
  have high := d.monthHigh
  have day := d.dayHigh
  unfold next
  split
  next more =>
    simp only [number, dayNumber]
    omega
  next last =>
    have months := daysBeforeMonth_succ d.year low
    split
    next later =>
      simp only [number, dayNumber, months]
      omega
    next december =>
      have month : d.month = 12 := by omega
      have whole := daysBeforeMonth_year d.year
      rw [month] at months day last
      have first : daysBeforeMonth (d.year + 1) 1 = 0 := rfl
      simp only [number, dayNumber, month, daysBeforeYear_succ, first]
      split at whole <;> simp_all <;> omega

theorem number_iterate (d : Date) (n : Nat) : (next^[n] d).number = d.number + n := by
  induction n with
  | zero => simp
  | succ n ih =>
    rw [Function.iterate_succ_apply', number_next, ih]
    omega

theorem number_lt {a b : Date} (first : a.Before b) : a.number < b.number := by
  have dayA := a.dayHigh
  have dayB := b.dayLow
  have monthA := daysBeforeMonth_succ a.year a.monthLow
  rcases first with year | ⟨year, month | ⟨month, day⟩⟩
  · have whole := daysBeforeYear_mono (a := a.year + 1) (b := b.year) year
    have inside := daysBeforeMonth_mono a.year (a := a.month + 1) (b := 13) (by omega)
      (by have := a.monthHigh; omega)
    rw [daysBeforeYear_succ] at whole
    rw [daysBeforeMonth_year] at inside
    simp only [number, dayNumber]
    split at whole <;> simp_all <;> omega
  · have later := daysBeforeMonth_mono a.year (a := a.month + 1) (b := b.month) (by omega) month
    simp only [number, dayNumber, ← year]
    omega
  · simp only [number, dayNumber, ← year, ← month]
    omega

theorem before_or_eq_or_before (a b : Date) : a.Before b ∨ a = b ∨ b.Before a := by
  unfold Before
  rw [Date.ext_iff]
  omega

theorem number_injective : Function.Injective number := by
  intro a b same
  rcases before_or_eq_or_before a b with first | equal | second
  · exact absurd same (number_lt first).ne
  · exact equal
  · exact absurd same (number_lt second).ne'

theorem before_iff (a b : Date) : a.Before b ↔ a.number < b.number := by
  refine ⟨number_lt, ?_⟩
  intro less
  rcases before_or_eq_or_before a b with first | rfl | second
  · exact first
  · exact absurd less (lt_irrefl _)
  · exact absurd less (number_lt second).not_gt

theorem iterate_eq_iff (a b : Date) (n : Nat) : next^[n] a = b ↔ b.number = a.number + n := by
  rw [← number_iterate]
  exact ⟨fun same => same ▸ rfl, fun same => number_injective same.symm⟩

/-- `n` days lie between two dates, counted one calendar day at a time. -/
def DaysApart (a b : Date) (n : Int) : Prop :=
  (∃ steps : Nat, n = steps ∧ next^[steps] a = b) ∨ ∃ steps : Nat, n = -steps ∧ next^[steps] b = a

theorem daysApart_iff (a b : Date) (n : Int) : DaysApart a b n ↔ n = b.number - a.number := by
  constructor
  · intro apart
    rcases apart with ⟨steps, rfl, reached⟩ | ⟨steps, rfl, reached⟩
    · have counted := (iterate_eq_iff a b steps).mp reached
      omega
    · have counted := (iterate_eq_iff b a steps).mp reached
      omega
  · intro counted
    rcases le_total 0 n with forward | backward
    · exact .inl ⟨n.toNat, by omega, (iterate_eq_iff a b n.toNat).mpr (by omega)⟩
    · exact .inr ⟨(-n).toNat, by omega, (iterate_eq_iff b a (-n).toNat).mpr (by omega)⟩

end Date

end Gregorian
