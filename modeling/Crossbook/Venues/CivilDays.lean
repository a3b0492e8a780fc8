import Crossbook.Lib.Gregorian
import Crossbook.SignedArithmetic
import Crossbook.Venues.Rfc3339

set_option autoImplicit false

namespace Crossbook

open Gregorian (Date dayNumber)

def YearInRange (year : Int) : Prop := -10 ^ 16 ≤ year ∧ year ≤ 10 ^ 16

theorem tdiv_era (y : Int) : (if 0 ≤ y then y else y - 399).tdiv 400 = y / 400 := by
  split
  next nonneg => exact Int.tdiv_eq_ediv_of_nonneg nonneg
  next negative =>
    have mirrored : (y - 399).tdiv 400 = -((399 - y) / 400) := by
      rw [← Int.tdiv_eq_ediv_of_nonneg (by omega), ← Int.neg_tdiv]
      congr 1
      omega
    rw [mirrored]
    omega

theorem toInt_era (y : Int64) (low : -2 ^ 62 ≤ y.toInt) :
    ((if 0 ≤ y then y else y - 399) / 400).toInt = y.toInt / 400 := by
  have high := y.toInt_lt
  have shifted : (y - 399).toInt = y.toInt - 399 :=
    MachineInt.toInt_sub_of_fits _ _ (by change -2 ^ 63 ≤ y.toInt - 399; omega)
      (by change y.toInt - 399 < 2 ^ 63; omega)
  have chosen : (if 0 ≤ y then y else y - 399).toInt =
      if 0 ≤ y.toInt then y.toInt else y.toInt - 399 := by
    by_cases nonneg : 0 ≤ y.toInt
    · rw [if_pos nonneg, if_pos (Int64.le_iff_toInt_le.mpr (by simpa using nonneg))]
    · rw [if_neg nonneg, if_neg (fun le => nonneg (by simpa using Int64.le_iff_toInt_le.mp le)),
        shifted]
  rw [toInt_div_of_pos _ _ (by decide), chosen]
  exact tdiv_era y.toInt

def marchYear (year : Int) (month : Nat) : Int := if month ≤ 2 then year - 1 else year

def monthShift (month : Nat) : Nat := if 2 < month then month - 3 else month + 9

def dayOfYear (month day : Nat) : Nat := (153 * monthShift month + 2) / 5 + day - 1

def eraNumber (y : Int) (doy : Nat) : Int :=
  y / 400 * 146097 + (y % 400 * 365 + y % 400 / 4 - y % 400 / 100 + doy) - 719468

theorem eraNumber_eq (year : Int) {month day : Nat} (low : 1 ≤ month) (high : month ≤ 12)
    (first : 1 ≤ day) :
    eraNumber (marchYear year month) (dayOfYear month day) = dayNumber year month day - 719163 := by
  rw [dayNumber, Gregorian.daysBeforeMonth_eq year low high]
  unfold eraNumber marchYear dayOfYear monthShift Gregorian.daysBeforeYear
  by_cases winter : month ≤ 2
  · simp only [winter, if_true, Nat.not_lt.mpr winter, if_false]
    omega
  · simp only [winter, if_false, Nat.not_le.mp winter, if_true]
    by_cases leap : Gregorian.IsLeap year
    · simp only [leap, if_true]
      unfold Gregorian.IsLeap at leap
      omega
    · simp only [leap, if_false]
      unfold Gregorian.IsLeap at leap
      omega

/-- Every signed value the formula passes through is one an `Int64` holds. -/
structure EraFits (y : Int) (doy : Nat) : Prop where
  shifted : Fits (y - 399)
  era : Fits (y / 400 * 400)
  days : Fits (y / 400 * 146097)
  total : Fits (eraNumber y doy + 719468)
  result : Fits (eraNumber y doy)

theorem eraFits {y : Int} {doy : Nat} (range : -2 * 10 ^ 16 ≤ y ∧ y ≤ 2 * 10 ^ 16) (small : doy ≤ 400) :
    EraFits y doy := by
  constructor <;> simp only [Fits, eraNumber] <;> omega

theorem toNat_dayOfYear (m d : UInt32) (low : 1 ≤ m.toNat) (high : m.toNat ≤ 12)
    (first : 1 ≤ d.toNat) (last : d.toNat ≤ 31) :
    ((153 * (if 2 < m then m - 3 else m + 9) + 2) / 5 + d - 1).toNat =
      dayOfYear m.toNat d.toNat := by
  have shift : (if 2 < m then m - 3 else m + 9).toNat = monthShift m.toNat := by
    have two : 2 < m ↔ 2 < m.toNat := UInt32.lt_iff_toNat_lt
    unfold monthShift
    by_cases late : 2 < m.toNat
    · rw [if_pos late, if_pos (two.mpr late), UInt32.toNat_sub_of_le _ _ (two.mpr late)]
      rfl
    · rw [if_neg late, if_neg (mt two.mp late), UInt32.toNat_add]
      change (m.toNat + 9) % 2 ^ 32 = _
      omega
  have small : monthShift m.toNat ≤ 11 := by
    unfold monthShift
    split <;> omega
  have scaled : ((153 * (if 2 < m then m - 3 else m + 9) + 2) / 5).toNat =
      (153 * monthShift m.toNat + 2) / 5 := by
    rw [UInt32.toNat_div, UInt32.toNat_add, UInt32.toNat_mul, shift]
    change (153 * monthShift m.toNat % 2 ^ 32 + 2) % 2 ^ 32 / 5 = _
    omega
  rw [UInt32.toNat_sub, UInt32.toNat_add, scaled, dayOfYear]
  change (2 ^ 32 - 1 + ((153 * monthShift m.toNat + 2) / 5 + d.toNat) % 2 ^ 32) % 2 ^ 32 = _
  omega

theorem toNat_dayOfEra (y : Int64) (era : Int64) (doy : UInt32)
    (cut : (y - era * 400).toInt = y.toInt % 400) (small : doy.toNat ≤ 400) :
    (((y - era * 400).toUInt64.toUInt32 * 365 + (y - era * 400).toUInt64.toUInt32 / 4 -
        (y - era * 400).toUInt64.toUInt32 / 100 + doy).toNat : Int) =
      y.toInt % 400 * 365 + y.toInt % 400 / 4 - y.toInt % 400 / 100 + doy.toNat := by
  have yoe : ((y - era * 400).toUInt64.toUInt32.toNat : Int) = y.toInt % 400 := by
    have bits := MachineInt.toNat_toUInt64 (y - era * 400)
    rw [UInt64.toNat_toUInt32]
    omega
  generalize (y - era * 400).toUInt64.toUInt32 = part at yoe ⊢
  rw [UInt32.toNat_add, UInt32.toNat_sub, UInt32.toNat_add, UInt32.toNat_mul, UInt32.toNat_div,
    UInt32.toNat_div, ← yoe]
  simp only [UInt32.reduceToNat]
  omega

theorem dayOfYear_le {month day : Nat} (high : month ≤ 12) (last : day ≤ 31) :
    dayOfYear month day ≤ 400 := by
  unfold dayOfYear monthShift
  split <;> omega

theorem marchYear_range {year : Int} (range : YearInRange year) (month : Nat) :
    -2 * 10 ^ 16 ≤ marchYear year month ∧ marchYear year month ≤ 2 * 10 ^ 16 := by
  obtain ⟨least, most⟩ := range
  unfold marchYear
  split <;> omega

theorem toInt_marchYear (y : Int64) (m : UInt32) (range : YearInRange y.toInt) :
    (if m ≤ 2 then y - 1 else y).toInt = marchYear y.toInt m.toNat := by
  obtain ⟨least, most⟩ := range
  have two : m ≤ 2 ↔ m.toNat ≤ 2 := UInt32.le_iff_toNat_le
  unfold marchYear
  by_cases winter : m.toNat ≤ 2
  · rw [if_pos winter, if_pos (two.mpr winter)]
    exact MachineInt.toInt_sub_of_fits _ _ (by change -2 ^ 63 ≤ y.toInt - 1; omega)
      (by change y.toInt - 1 < 2 ^ 63; omega)
  · rw [if_neg winter, if_neg (mt two.mp winter)]

theorem toInt_eraSum (era : Int64) (doe : UInt32) (days : Fits (era.toInt * 146097))
    (total : Fits (era.toInt * 146097 + doe.toNat))
    (result : Fits (era.toInt * 146097 + doe.toNat - 719468)) :
    (era * 146097 + doe.toUInt64.toInt64 - 719468).toInt =
      era.toInt * 146097 + doe.toNat - 719468 := by
  have scaled : (era * 146097).toInt = era.toInt * 146097 :=
    MachineInt.toInt_mul_of_fits era 146097 days.1 days.2
  have wide : doe.toUInt64.toInt64.toInt = doe.toNat := by
    rw [MachineInt.toInt_toInt64 _ (by rw [UInt32.toNat_toUInt64]; have := doe.toNat_lt; omega),
      UInt32.toNat_toUInt64]
  have sum : (era * 146097 + doe.toUInt64.toInt64).toInt = era.toInt * 146097 + doe.toNat := by
    rw [MachineInt.toInt_add_of_fits _ _ (by rw [scaled, wide]; exact total.1)
      (by rw [scaled, wide]; exact total.2), scaled, wide]
  have offset : (719468 : Int64).toInt = 719468 := by decide
  rw [MachineInt.toInt_sub_of_fits _ _ (by rw [sum, offset]; exact result.1)
    (by rw [sum, offset]; exact result.2), sum, offset]

theorem toInt_daysFromCivil (y : Int64) (m d : UInt32) (range : YearInRange y.toInt)
    (low : 1 ≤ m.toNat) (high : m.toNat ≤ 12) (first : 1 ≤ d.toNat) (last : d.toNat ≤ 31) :
    (daysFromCivil y m d).toInt =
      eraNumber (marchYear y.toInt m.toNat) (dayOfYear m.toNat d.toNat) := by
  have doy := toNat_dayOfYear m d low high first last
  have small : dayOfYear m.toNat d.toNat ≤ 400 := dayOfYear_le high last
  have march := marchYear_range range m.toNat
  have year := toInt_marchYear y m range
  have fits := eraFits march small
  unfold daysFromCivil
  dsimp only
  generalize (if m ≤ 2 then y - 1 else y) = shifted at year ⊢
  rw [← year] at fits march ⊢
  have era := toInt_era shifted (by omega)
  generalize (if 0 ≤ shifted then shifted else shifted - 399) / 400 = eraWord at era ⊢
  have cut : (shifted - eraWord * 400).toInt = shifted.toInt % 400 := by
    have held : Fits (eraWord.toInt * 400) := era ▸ fits.era
    have scaled : (eraWord * 400).toInt = eraWord.toInt * 400 :=
      MachineInt.toInt_mul_of_fits eraWord 400 held.1 held.2
    rw [MachineInt.toInt_sub_of_fits _ _ (by omega) (by omega), scaled, era]
    omega
  have doe := toNat_dayOfEra shifted eraWord _ cut (by rw [doy]; exact small)
  rw [doy] at doe
  have total := fits.total
  have result := fits.result
  unfold eraNumber at total result ⊢
  rw [toInt_eraSum, era, doe]
  · rw [era]
    exact fits.days
  · rw [era, doe]
    exact ⟨by have := total.1; omega, by have := total.2; omega⟩
  · rw [era, doe]
    exact result

theorem january_le_december : 1 ≤ 12 := by decide

def civilEpoch : Date := ⟨1970, 1, 1, by decide, january_le_december, by decide, by decide⟩

def civilDay (date : Date) : Int :=
  (daysFromCivil (Int64.ofInt date.year) (UInt32.ofNat date.month) (UInt32.ofNat date.day)).toInt

theorem civilDay_eq (date : Date) (range : YearInRange date.year) :
    civilDay date = date.number - civilEpoch.number := by
  have low := date.monthLow
  have high := date.monthHigh
  have first := date.dayLow
  have last := date.dayHigh.trans (Gregorian.monthLength_le _ _)
  have year : (Int64.ofInt date.year).toInt = date.year := by
    obtain ⟨least, most⟩ := range
    exact toInt_ofInt_of_fits ⟨by omega, by omega⟩
  have month : (UInt32.ofNat date.month).toNat = date.month :=
    UInt32.toNat_ofNat_of_lt' (by change date.month < 2 ^ 32; omega)
  have day : (UInt32.ofNat date.day).toNat = date.day :=
    UInt32.toNat_ofNat_of_lt' (by change date.day < 2 ^ 32; omega)
  have epoch : civilEpoch.number = 719163 := by decide
  have computed := toInt_daysFromCivil (Int64.ofInt date.year) (UInt32.ofNat date.month)
    (UInt32.ofNat date.day)
  rw [year, month, day] at computed
  rw [civilDay, computed range low high first last, eraNumber_eq _ low high first, epoch]
  rfl

theorem daysFromCivil_counts :
    (∀ date : Date, YearInRange date.year →
      EraFits (marchYear date.year date.month) (dayOfYear date.month date.day) ∧
        Date.DaysApart civilEpoch date (civilDay date)) ∧
    (∀ date : Date, YearInRange date.year → YearInRange date.next.year →
      civilDay date.next = civilDay date + 1) ∧
    ∀ a b : Date, YearInRange a.year → YearInRange b.year →
      (civilDay a = civilDay b → a = b) ∧ (a.Before b ↔ civilDay a < civilDay b) := by
  refine ⟨?_, ?_, ?_⟩
  · intro date range
    have last := date.dayHigh.trans (Gregorian.monthLength_le _ _)
    refine ⟨eraFits (marchYear_range range _) (dayOfYear_le date.monthHigh last), ?_⟩
    rw [Date.daysApart_iff, civilDay_eq date range]
  · intro date range rangeNext
    rw [civilDay_eq date range, civilDay_eq _ rangeNext, Date.number_next]
    omega
  · intro a b rangeA rangeB
    rw [civilDay_eq a rangeA, civilDay_eq b rangeB]
    constructor
    · intro same
      exact Date.number_injective (by omega)
    · rw [Date.before_iff]
      omega

theorem daysFromCivil_counts_leap_day :
    let leapDay : Date := ⟨-400, 2, 29, by decide, by decide, by decide, by decide⟩
    Date.DaysApart civilEpoch leapDay (civilDay leapDay) := by
  intro leapDay
  exact (daysFromCivil_counts.1 leapDay ⟨by decide, by decide⟩).2

end Crossbook
