import Crossbook.Fixed.Exactness

set_option autoImplicit false

namespace Crossbook

open Scientific

section Results

variable {n : Numeral} {scale : Scale}

theorem settled_eq (small : n.significand < 2 ^ 63) :
    settled n scale = match settle n.significand (appliedShift n scale) with
      | .ok mantissa =>
        ⟨if n.negative then -Int64.ofNat mantissa else Int64.ofNat mantissa, .ok⟩
      | .error error => ⟨0, error⟩ := by
  rw [settled, if_neg (not_le.mpr small), shiftMantissa_settle small]
  rcases settle_cases n.significand (appliedShift n scale) with
    failed | failed | ⟨mantissa, fine⟩
  · rw [← appliedShift, failed]
    rfl
  · rw [← appliedShift, failed]
    rfl
  · rw [← appliedShift, fine]
    rfl

theorem settled_large (large : 2 ^ 63 ≤ n.significand) : settled n scale = ⟨0, .overflow⟩ :=
  if_pos large

theorem parseFixed_ok_iff (valid : scale ≤ kMaxScale) (m : Int64) :
    parseFixed n.text scale = ⟨m, .ok⟩ ↔ n.significand < 2 ^ 63 ∧
      ∃ mantissa, settle n.significand (appliedShift n scale) = .ok mantissa ∧
        m = if n.negative then -Int64.ofNat mantissa else Int64.ofNat mantissa := by
  rw [parseFixed_text n valid]
  by_cases small : n.significand < 2 ^ 63
  · rw [settled_eq small]
    rcases settle_cases n.significand (appliedShift n scale) with
      failed | failed | ⟨mantissa, fine⟩
    · simp [failed]
    · simp [failed]
    · simp only [fine, small, ParseResult.mk.injEq, and_true, true_and, Except.ok.injEq,
        exists_eq_left']
      exact eq_comm
  · rw [settled_large (not_lt.mp small)]
    exact ⟨nofun, fun read => absurd read.1 small⟩

theorem parseFixed_overflow_iff (valid : scale ≤ kMaxScale) :
    (parseFixed n.text scale).error = .overflow ↔ 2 ^ 63 ≤ n.significand ∨
      settle n.significand (appliedShift n scale) = .error .overflow := by
  rw [parseFixed_text n valid]
  by_cases small : n.significand < 2 ^ 63
  · rw [settled_eq small, or_iff_right (not_le.mpr small)]
    rcases settle_cases n.significand (appliedShift n scale) with
      failed | failed | ⟨mantissa, fine⟩ <;> simp [*]
  · rw [settled_large (not_lt.mp small)]
    exact ⟨fun _ => .inl (not_lt.mp small), fun _ => rfl⟩

theorem parseFixed_precisionLoss_iff (valid : scale ≤ kMaxScale) :
    (parseFixed n.text scale).error = .precisionLoss ↔ n.significand < 2 ^ 63 ∧
      settle n.significand (appliedShift n scale) = .error .precisionLoss := by
  rw [parseFixed_text n valid]
  by_cases small : n.significand < 2 ^ 63
  · rw [settled_eq small, and_iff_right small]
    rcases settle_cases n.significand (appliedShift n scale) with
      failed | failed | ⟨mantissa, fine⟩ <;> simp [*]
  · rw [settled_large (not_lt.mp small)]
    exact ⟨nofun, fun lost => absurd lost.1 small⟩

theorem scaled_written (n : Numeral) (scale : Scale) :
    n.magnitude * (10 : ℚ) ^ scale.toNat = scaled n.significand (writtenShift n scale) := by
  rw [Numeral.magnitude, scaled, writtenShift, zpow_add₀ (by norm_num), zpow_natCast]
  ring

end Results

section Soundness

/-- A parse that succeeds gives the number that the text spells. -/
def ReadsExactly (text : Bytes) (scale : Scale) : Prop :=
  ∀ m, parseFixed text scale = ⟨m, .ok⟩ →
    (∃ n : Numeral, n.text = text) ∧
      ∀ n : Numeral, n.text = text → n.value = m.toInt * (10 : ℚ) ^ (-(scale.toNat : Int))

def Lands (n : Numeral) (scale : Scale) : Prop :=
  ∃ mantissa : Nat, mantissa < 2 ^ 63 ∧
    (mantissa : ℚ) = scaled n.significand (appliedShift n scale)

theorem lands_iff {n : Numeral} {scale : Scale} (some_ : n.significand ≠ 0)
    (small : n.significand < 2 ^ 63) :
    Lands n scale ↔ ∃ mantissa, settle n.significand (appliedShift n scale) = .ok mantissa := by
  constructor
  · rintro ⟨mantissa, bound, value⟩
    rcases settle_cases n.significand (appliedShift n scale) with
      failed | failed | fine
    · have large := (settle_overflow some_ small).mp failed
      have tiny : (mantissa : ℚ) < 2 ^ 63 := by exact_mod_cast bound
      rw [← value] at large
      exact absurd tiny (not_lt.mpr large)
    · exact absurd ⟨mantissa, value.symm⟩ (settle_precisionLoss.mp failed)
    · exact fine
  · rintro ⟨mantissa, settled⟩
    exact ⟨mantissa, settle_ok small settled⟩

theorem signed_value (n : Numeral) (scale : Scale) {mantissa : Nat} (small : mantissa < 2 ^ 63) :
    n.value = (if n.negative then -Int64.ofNat mantissa else Int64.ofNat mantissa).toInt *
        (10 : ℚ) ^ (-(scale.toNat : Int)) ↔
      (mantissa : ℚ) = scaled n.significand (writtenShift n scale) := by
  have whole := Int64.toInt_ofNat_of_lt small
  have negated : (-Int64.ofNat mantissa).toInt = -(mantissa : Int) := by
    rw [MachineInt.toInt_neg_of_ne _ (by omega), whole]
  have unscale : n.magnitude = mantissa * (10 : ℚ) ^ (-(scale.toNat : Int)) ↔
      (mantissa : ℚ) = scaled n.significand (writtenShift n scale) := by
    rw [← scaled_written, zpow_neg, zpow_natCast, ← div_eq_mul_inv, eq_div_iff (by positivity),
      eq_comm]
  rw [← unscale, Numeral.value]
  split
  · rw [negated, Int.cast_neg, Int.cast_natCast, neg_mul, neg_inj]
  · rw [whole, Int.cast_natCast]

theorem parseFixed_sound_iff (text : Bytes) (scale : Scale) (valid : scale ≤ kMaxScale) :
    ReadsExactly text scale ↔ ∀ n : Numeral, n.text = text →
      n.significand = 0 ∨ 2 ^ 63 ≤ n.significand ∨ ¬ Cut n scale ∨ ¬ Lands n scale := by
  constructor
  · rintro exact n rfl
    by_contra broken
    simp only [not_or, not_le, not_not] at broken
    obtain ⟨some_, small, cut, lands⟩ := broken
    obtain ⟨mantissa, settled⟩ := (lands_iff some_ small).mp lands
    obtain ⟨bound, applied⟩ := settle_ok small settled
    have read := (parseFixed_ok_iff valid _).mpr ⟨small, mantissa, settled, rfl⟩
    have written := (signed_value n scale bound).mp ((exact _ read).2 n rfl)
    apply cut
    have same := applied.symm.trans written
    have digits : (n.significand : ℚ) ≠ 0 := by exact_mod_cast some_
    exact zpow_right_injective₀ (by norm_num) (by norm_num) (mul_left_cancel₀ digits same)
  · intro sound m read
    have formed : (parseFixed text scale).error ≠ .malformed := by simp [read]
    have nonempty : text ≠ [] := by
      rintro rfl
      rw [parseFixed, if_neg (UInt8.not_lt.mpr valid)] at read
      simp at read
    refine ⟨numeral_of_parseFixed valid nonempty formed, ?_⟩
    rintro n rfl
    obtain ⟨small, mantissa, settled, rfl⟩ := (parseFixed_ok_iff valid m).mp read
    obtain ⟨bound, applied⟩ := settle_ok small settled
    refine (signed_value n scale bound).mpr ?_
    rcases sound n rfl with zero | large | uncut | astray
    · rw [applied, zero, scaled, scaled, Nat.cast_zero, zero_mul, zero_mul]
    · exact absurd small (not_lt.mpr large)
    · rw [applied, not_not.mp uncut]
    · exact absurd ⟨mantissa, bound, applied⟩ astray

theorem parseFixed_sound_iff_short :
    (8 : Scale) ≤ kMaxScale ∧ (ReadsExactly (bytes "1.5e-3") 8 ↔
      ∀ n : Numeral, n.text = bytes "1.5e-3" →
        n.significand = 0 ∨ 2 ^ 63 ≤ n.significand ∨ ¬ Cut n 8 ∨ ¬ Lands n 8) :=
  ⟨by decide, parseFixed_sound_iff _ _ (by decide)⟩

-- A one behind a thousand places, times ten to the two thousand.
def cutNumeral : Numeral where
  sign := none
  integer := bytes "0"
  fraction := some (List.replicate 999 (ascii '0') ++ bytes "1")
  exponent := some ⟨false, none, bytes "2000", by decide +kernel⟩
  integerDigits := by decide +kernel
  fractionDigits := by
    intro c member
    rcases List.mem_append.mp member with zeros | one
    · rw [List.eq_of_mem_replicate zeros]
      decide
    · clear member
      revert c
      decide +kernel
  someDigit := List.append_ne_nil_of_left_ne_nil (by decide +kernel) _

theorem valueFrom_zeros (count : Nat) (rest : Bytes) :
    Decimal.valueFrom 0 (List.replicate count (ascii '0') ++ rest) = Decimal.valueFrom 0 rest := by
  induction count with
  | zero => rfl
  | succ count ih => exact ih

theorem cutNumeral_significand : cutNumeral.significand = 1 := by
  have zeros := valueFrom_zeros 1000 (bytes "1")
  have front : cutNumeral.digits = List.replicate 1000 (ascii '0') ++ bytes "1" := rfl
  have one : Decimal.valueFrom 0 (bytes "1") = 1 := by decide +kernel
  rw [Numeral.significand, front, Decimal.value, zeros, one]

theorem cutNumeral_places : cutNumeral.places = 1000 := by
  have fraction : cutNumeral.fraction.getD [] = List.replicate 999 (ascii '0') ++ bytes "1" := rfl
  have one : (bytes "1").length = 1 := by decide +kernel
  rw [Numeral.places, fraction, List.length_append, List.length_replicate, one]

theorem cut_exponent_misreads :
    parseFixed cutNumeral.text 0 = ⟨1, .ok⟩ ∧ ¬ ReadsExactly cutNumeral.text 0 := by
  have exponent : cutExponent cutNumeral.exponent = 1000 := by decide +kernel
  have still : cutShift cutNumeral 0 = 0 := by
    rw [cutShift, exponent, cutNumeral_places]
    decide
  have read : parseFixed cutNumeral.text 0 = ⟨1, .ok⟩ := by
    rw [parseFixed_text _ (by decide), settled, cutNumeral_significand, still]
    rfl
  refine ⟨read, fun exact => ?_⟩
  have value := (exact 1 read).2 cutNumeral rfl
  have spelled : cutNumeral.exponentValue = 2000 := by decide +kernel
  have power : cutNumeral.power = 1000 := by
    rw [Numeral.power, spelled, cutNumeral_places]
    decide
  have plain : cutNumeral.negative = false := rfl
  have one : (1 : Int64).toInt = 1 := rfl
  have large : (1 : ℚ) < 10 ^ 1000 := one_lt_pow₀ (by norm_num) (by decide)
  rw [Numeral.value, plain, Numeral.magnitude, cutNumeral_significand, power, one] at value
  norm_num at value
  exact absurd value large.ne'

end Soundness

section Completeness

structure RefusesTruly (text : Bytes) (scale : Scale) (n : Numeral) : Prop where
  succeeds (k : Int) : n.value * (10 : ℚ) ^ scale.toNat = k → k.natAbs ≤ 2 ^ 63 - 1 →
    ∃ m, parseFixed text scale = ⟨m, .ok⟩
  precisionLoss : (parseFixed text scale).error = .precisionLoss →
    ¬ ∃ k : Int, n.value * (10 : ℚ) ^ scale.toNat = k
  overflow : (parseFixed text scale).error = .overflow →
    2 ^ 63 - 1 < |n.value * (10 : ℚ) ^ scale.toNat|

/-- Where overflow and precision loss are decided on digits that tell the truth. -/
structure Plain (n : Numeral) (scale : Scale) : Prop where
  zero : n.significand = 0 → appliedShift n scale ≤ 18
  digits : 2 ^ 63 ≤ n.significand → 2 ^ 63 - 1 < scaled n.significand (writtenShift n scale)
  cutUp : Cut n scale → n.significand ≠ 0 → n.significand < 2 ^ 63 →
    2 ^ 63 ≤ scaled n.significand (appliedShift n scale) →
    2 ^ 63 - 1 < scaled n.significand (writtenShift n scale)
  cutDown : Cut n scale → n.significand ≠ 0 → n.significand < 2 ^ 63 →
    (¬ ∃ k : Int, scaled n.significand (appliedShift n scale) = k) →
    ¬ ∃ k : Int, scaled n.significand (writtenShift n scale) = k

theorem value_integer_iff (n : Numeral) (scale : Scale) :
    (∃ k : Int, n.value * (10 : ℚ) ^ scale.toNat = k) ↔
      ∃ k : Int, scaled n.significand (writtenShift n scale) = k := by
  rw [← scaled_written, Numeral.value]
  split
  · constructor
    · rintro ⟨k, value⟩
      exact ⟨-k, by rw [Int.cast_neg, ← value, neg_mul, neg_neg]⟩
    · rintro ⟨k, value⟩
      exact ⟨-k, by rw [Int.cast_neg, ← value, neg_mul]⟩
  · rfl

theorem abs_scaled (n : Numeral) (scale : Scale) :
    |n.value * (10 : ℚ) ^ scale.toNat| = scaled n.significand (writtenShift n scale) := by
  rw [← scaled_written, abs_mul, Numeral.abs_value, abs_of_nonneg (by positivity : (0 : ℚ) ≤ 10 ^ _)]

theorem scaled_zero (shift : Int) : scaled 0 shift = 0 := by simp [scaled]

theorem settle_none (shift : Int) :
    settle 0 shift = if 18 < shift then .error .overflow else .ok 0 := by
  unfold settle
  by_cases up : 0 ≤ shift
  · by_cases far : 18 < shift <;> simp [up, far]
  · have near : ¬ 18 < shift := by omega
    simp [up, near]

theorem succeeds_of_refusals {n : Numeral} {scale : Scale} (valid : scale ≤ kMaxScale)
    (noOverflow : (parseFixed n.text scale).error ≠ .overflow)
    (noLoss : (parseFixed n.text scale).error ≠ .precisionLoss) :
    ∃ m, parseFixed n.text scale = ⟨m, .ok⟩ := by
  -- Success is what remains when neither refusal applies.
  rw [ne_eq, parseFixed_overflow_iff valid, not_or, not_le] at noOverflow
  rw [ne_eq, parseFixed_precisionLoss_iff valid, not_and] at noLoss
  rcases settle_cases n.significand (appliedShift n scale) with failed | failed | ⟨mantissa, fine⟩
  · exact absurd failed noOverflow.2
  · exact absurd failed (noLoss noOverflow.1)
  · exact ⟨_, (parseFixed_ok_iff valid _).mpr ⟨noOverflow.1, mantissa, fine, rfl⟩⟩

theorem RefusesTruly.plain {n : Numeral} {scale : Scale} (valid : scale ≤ kMaxScale)
    (truly : RefusesTruly n.text scale n) : Plain n scale where
  zero none := by
    by_contra far
    have settled := settle_none (appliedShift n scale)
    rw [if_pos (not_le.mp far), ← none] at settled
    have large := truly.overflow ((parseFixed_overflow_iff valid).mpr (.inr settled))
    rw [abs_scaled, none, scaled_zero] at large
    norm_num at large
  digits large := by
    rw [← abs_scaled]
    exact truly.overflow ((parseFixed_overflow_iff valid).mpr (.inl large))
  cutUp _ some_ small large := by
    have settled := (settle_overflow some_ small).mpr large
    rw [← abs_scaled]
    exact truly.overflow ((parseFixed_overflow_iff valid).mpr (.inr settled))
  cutDown _ _ small fraction := by
    have settled := settle_precisionLoss.mpr fraction
    rw [← value_integer_iff]
    exact truly.precisionLoss ((parseFixed_precisionLoss_iff valid).mpr ⟨small, settled⟩)

theorem Plain.truly_large {n : Numeral} {scale : Scale} (valid : scale ≤ kMaxScale)
    (plain : Plain n scale) (refused : (parseFixed n.text scale).error = .overflow) :
    2 ^ 63 - 1 < scaled n.significand (writtenShift n scale) := by
  by_cases small : n.significand < 2 ^ 63
  · have settled := ((parseFixed_overflow_iff valid).mp refused).resolve_left (not_le.mpr small)
    by_cases none : n.significand = 0
    · rw [none, settle_none, if_neg (not_lt.mpr (plain.zero none))] at settled
      simp at settled
    · have large := (settle_overflow none small).mp settled
      by_cases cut : Cut n scale
      · exact plain.cutUp cut none small large
      · rw [← not_not.mp cut]
        exact (sub_one_lt _).trans_le large
  · exact plain.digits (not_lt.mp small)

theorem Plain.truly_fraction {n : Numeral} {scale : Scale} (valid : scale ≤ kMaxScale)
    (plain : Plain n scale) (refused : (parseFixed n.text scale).error = .precisionLoss) :
    ¬ ∃ k : Int, scaled n.significand (writtenShift n scale) = k := by
  obtain ⟨small, settled⟩ := (parseFixed_precisionLoss_iff valid).mp refused
  have fraction := settle_precisionLoss.mp settled
  by_cases none : n.significand = 0
  · exact absurd ⟨0, by rw [none, scaled_zero, Int.cast_zero]⟩ fraction
  · by_cases cut : Cut n scale
    · exact plain.cutDown cut none small fraction
    · rwa [← not_not.mp cut]

theorem parseFixed_complete_iff (n : Numeral) (scale : Scale) (valid : scale ≤ kMaxScale) :
    RefusesTruly n.text scale n ↔ Plain n scale := by
  refine ⟨RefusesTruly.plain valid, fun plain => ?_⟩
  have overflow := plain.truly_large valid
  have fraction := plain.truly_fraction valid
  rw [← abs_scaled] at overflow
  rw [← value_integer_iff] at fraction
  refine ⟨fun k value fits => succeeds_of_refusals valid ?_ ?_, fraction, overflow⟩
  · intro refused
    have large := overflow refused
    rw [value, ← Int.cast_abs, Int.abs_eq_natAbs, Int.cast_natCast] at large
    have bound : (k.natAbs : ℚ) ≤ (2 ^ 63 - 1 : Nat) := by exact_mod_cast fits
    have top : ((2 ^ 63 - 1 : Nat) : ℚ) = 2 ^ 63 - 1 := by norm_num
    rw [top] at bound
    exact absurd large (not_lt.mpr bound)
  · exact fun refused => fraction refused ⟨k, value⟩

def shortNumeral : Numeral where
  sign := some .minus
  integer := bytes "1"
  fraction := some (bytes "5")
  exponent := some ⟨false, some .minus, bytes "3", by decide +kernel⟩
  integerDigits := by decide +kernel
  fractionDigits := by decide +kernel
  someDigit := by decide +kernel

theorem parseFixed_complete_iff_short :
    (8 : Scale) ≤ kMaxScale ∧ (RefusesTruly shortNumeral.text 8 shortNumeral ↔
      Plain shortNumeral 8) :=
  ⟨by decide, parseFixed_complete_iff shortNumeral 8 (by decide)⟩

-- Zero with an exponent, and a one with twenty zeros behind the point.
def zeroNumeral : Numeral where
  sign := none
  integer := bytes "0"
  fraction := none
  exponent := some ⟨false, none, bytes "19", by decide +kernel⟩
  integerDigits := by decide +kernel
  fractionDigits := by decide +kernel
  someDigit := by decide +kernel

def paddedNumeral : Numeral where
  sign := none
  integer := bytes "1"
  fraction := some (bytes "00000000000000000000")
  exponent := none
  integerDigits := by decide +kernel
  fractionDigits := by decide +kernel
  someDigit := by decide +kernel

theorem zero_and_padding_overflow :
    (parseFixed zeroNumeral.text 0 = ⟨0, .overflow⟩ ∧
      ¬ RefusesTruly zeroNumeral.text 0 zeroNumeral) ∧
    (parseFixed paddedNumeral.text 0 = ⟨0, .overflow⟩ ∧
      ¬ RefusesTruly paddedNumeral.text 0 paddedNumeral) := by
  have zero : parseFixed zeroNumeral.text 0 = ⟨0, .overflow⟩ := by decide +kernel
  have padded : parseFixed paddedNumeral.text 0 = ⟨0, .overflow⟩ := by decide +kernel
  refine ⟨⟨zero, fun truly => ?_⟩, ⟨padded, fun truly => ?_⟩⟩
  · have large := truly.overflow (by rw [zero])
    have digits : zeroNumeral.significand = 0 := by decide +kernel
    rw [abs_scaled, digits, scaled_zero] at large
    norm_num at large
  · have large := truly.overflow (by rw [padded])
    have digits : paddedNumeral.significand = 10 ^ 20 := by decide +kernel
    have shift : writtenShift paddedNumeral 0 = -20 := by decide +kernel
    rw [abs_scaled, digits, shift, scaled] at large
    norm_num at large

end Completeness

end Crossbook
