import Crossbook.Fixed
import Crossbook.Lib.Rounding
import Crossbook.Lib.Signed

set_option autoImplicit false

namespace Crossbook

def magnitudeU64 (v : Int64) : UInt64 := if v < 0 then 0 - v.toUInt64 else v.toUInt64

def checkedMulSigned (a b : Int64) : Option Int64 :=
  let kMaxMagnitude := Int64.maxValue.toUInt64
  let ua := magnitudeU64 a
  let ub := magnitudeU64 b
  if kMaxMagnitude < ua ∨ kMaxMagnitude < ub then none
  else
    (checkedMul ua.toInt64 ub.toInt64).map fun product =>
      if decide (a < 0) != decide (b < 0) then -product else product

def checkedAddSigned (a b : Int64) : Option Int64 :=
  if 0 ≤ b then checkedAdd a b else if a < Int64.minValue - b then none else some (a + b)

def checkedSubSigned (a b : Int64) : Option Int64 :=
  if b = Int64.minValue then if 0 ≤ a then none else some (a - b)
  else checkedAddSigned a (-b)

def floorDiv (num den : Int64) : Int64 :=
  let quotient := num / den
  let remainder := num % den
  if remainder ≠ 0 ∧ decide (remainder < 0) ≠ decide (den < 0) then quotient - 1 else quotient

def ceilDiv (num den : Int64) : Int64 :=
  let quotient := num / den
  let remainder := num % den
  if remainder ≠ 0 ∧ decide (remainder < 0) = decide (den < 0) then quotient + 1 else quotient

def divAwayFromZero (num den : Int64) : Int64 :=
  let quotient := num / den
  if num % den = 0 then quotient
  else if decide (num < 0) = decide (den < 0) then quotient + 1 else quotient - 1

def Fits (x : Int) : Prop := -2 ^ 63 ≤ x ∧ x < 2 ^ 63

instance (x : Int) : Decidable (Fits x) := inferInstanceAs (Decidable (_ ∧ _))

theorem fits_toInt (x : Int64) : Fits x.toInt := ⟨x.le_toInt, x.toInt_lt⟩

theorem toInt_ofInt_of_fits {x : Int} (fits : Fits x) : (Int64.ofInt x).toInt = x :=
  Int64.toInt_ofInt_of_le fits.1 fits.2

theorem unmet_of_none {found : Option Int64} {value : Int} {P : Prop} (bounded : P → Fits value)
    (finds : ∀ out, found = some out ↔ P ∧ out.toInt = value) (missing : found = none) : ¬ P := by
  intro holds
  have present := (finds _).mpr ⟨holds, toInt_ofInt_of_fits (bounded holds)⟩
  exact Option.some_ne_none _ (present.symm.trans missing)

theorem toInt_div_of_pos (num den : Int64) (positive : 0 < den.toInt) :
    (num / den).toInt = num.toInt.tdiv den.toInt :=
  Signed.toInt_div (.of_pos positive)

structure MulFits (a b : Int64) : Prop where
  left : a.toInt ≠ -2 ^ 63
  right : b.toInt ≠ -2 ^ 63
  product : (a.toInt * b.toInt).natAbs < 2 ^ 63

instance (a b : Int64) : Decidable (MulFits a b) :=
  decidable_of_iff (a.toInt ≠ -2 ^ 63 ∧ b.toInt ≠ -2 ^ 63 ∧ (a.toInt * b.toInt).natAbs < 2 ^ 63)
    ⟨fun parts => ⟨parts.1, parts.2.1, parts.2.2⟩, fun fits => ⟨fits.left, fits.right, fits.product⟩⟩

theorem toNat_magnitudeU64 (v : Int64) : (magnitudeU64 v).toNat = v.toInt.natAbs := by
  have bits := MachineInt.toNat_toUInt64 v
  have low := v.le_toInt
  have high := v.toInt_lt
  have bound := v.toUInt64.toNat_lt
  unfold magnitudeU64
  split
  next negative =>
    have below : v.toInt < 0 := by simpa using Int64.lt_iff_toInt_lt.mp negative
    rw [UInt64.toNat_sub]
    simp only [UInt64.toNat_zero]
    omega
  next nonnegative =>
    have above : 0 ≤ v.toInt := by
      simpa using Int64.le_iff_toInt_le.mp (Int64.not_lt.mp nonnegative)
    omega

theorem checkedMul_eq_some (a b out : Int64) (left : 0 ≤ a.toInt) (right : 0 ≤ b.toInt) :
    checkedMul a b = some out ↔ a.toInt * b.toInt < 2 ^ 63 ∧ out.toInt = a.toInt * b.toInt := by
  unfold checkedMul
  by_cases zero : a = 0 ∨ b = 0
  · have vanishes : a.toInt * b.toInt = 0 := by
      rcases zero with rfl | rfl <;> simp
    rw [if_pos zero, vanishes, Option.some.injEq]
    exact ⟨by rintro rfl; simp, fun value => (Int64.toInt_inj.mp (by simpa using value.2)).symm⟩
  · have positive : 0 < b.toInt := by
      refine lt_of_le_of_ne right fun same => zero (.inr ?_)
      exact Int64.toInt_inj.mp (by simpa using same.symm)
    have guard : Int64.maxValue / b < a ↔ ¬ a.toInt * b.toInt < 2 ^ 63 := by
      rw [Int64.lt_iff_toInt_lt, toInt_div_of_pos _ _ positive,
        Int.tdiv_eq_ediv_of_nonneg (by decide), Int.ediv_lt_iff_lt_mul positive]
      have top : Int64.maxValue.toInt = 2 ^ 63 - 1 := by decide
      omega
    rw [if_neg zero]
    by_cases fits : a.toInt * b.toInt < 2 ^ 63
    · have value : (a * b).toInt = a.toInt * b.toInt := by
        have low := mul_nonneg left right
        exact MachineInt.toInt_mul_of_fits a b (by omega) fits
      rw [if_neg (fun wraps => guard.mp wraps fits), Option.some.injEq]
      constructor
      · rintro rfl
        exact ⟨fits, value⟩
      · exact fun same => Int64.toInt_inj.mp (value.trans same.2.symm)
    · rw [if_pos (guard.mpr fits)]
      exact ⟨nofun, fun same => absurd same.1 fits⟩

theorem checkedAdd_eq_some (a b out : Int64) (right : 0 ≤ b.toInt) :
    checkedAdd a b = some out ↔ Fits (a.toInt + b.toInt) ∧ out.toInt = a.toInt + b.toInt := by
  have low := a.le_toInt
  have high := b.toInt_lt
  have top : Int64.maxValue.toInt = 2 ^ 63 - 1 := by decide
  have room : (Int64.maxValue - b).toInt = 2 ^ 63 - 1 - b.toInt := by
    rw [MachineInt.toInt_sub_of_fits _ _ (by omega) (by omega), top]
  unfold checkedAdd
  by_cases fits : Fits (a.toInt + b.toInt)
  · have value := MachineInt.toInt_add_of_fits a b fits.1 fits.2
    have inside : ¬ Int64.maxValue - b < a := by
      rw [Int64.lt_iff_toInt_lt, room]
      have := fits.2
      omega
    rw [if_neg inside, Option.some.injEq]
    constructor
    · rintro rfl
      exact ⟨fits, value⟩
    · exact fun same => Int64.toInt_inj.mp (value.trans same.2.symm)
  · have outside : Int64.maxValue - b < a := by
      rw [Int64.lt_iff_toInt_lt, room]
      unfold Fits at fits
      omega
    simp [outside, fits]

theorem checkedAddSigned_eq_some (a b out : Int64) :
    checkedAddSigned a b = some out ↔
      Fits (a.toInt + b.toInt) ∧ out.toInt = a.toInt + b.toInt := by
  have high := a.toInt_lt
  have low := b.le_toInt
  unfold checkedAddSigned
  by_cases nonnegative : 0 ≤ b
  · rw [if_pos nonnegative]
    exact checkedAdd_eq_some a b out (by simpa using Int64.le_iff_toInt_le.mp nonnegative)
  · have negative : b.toInt < 0 := by
      simpa using Int64.lt_iff_toInt_lt.mp (Int64.not_le.mp nonnegative)
    have bottom : Int64.minValue.toInt = -2 ^ 63 := by decide
    have room : (Int64.minValue - b).toInt = -2 ^ 63 - b.toInt := by
      rw [MachineInt.toInt_sub_of_fits _ _ (by omega) (by omega), bottom]
    rw [if_neg nonnegative]
    by_cases fits : Fits (a.toInt + b.toInt)
    · have value := MachineInt.toInt_add_of_fits a b fits.1 fits.2
      have inside : ¬ a < Int64.minValue - b := by
        rw [Int64.lt_iff_toInt_lt, room]
        have := fits.1
        omega
      rw [if_neg inside, Option.some.injEq]
      constructor
      · rintro rfl
        exact ⟨fits, value⟩
      · exact fun same => Int64.toInt_inj.mp (value.trans same.2.symm)
    · have outside : a < Int64.minValue - b := by
        rw [Int64.lt_iff_toInt_lt, room]
        unfold Fits at fits
        omega
      simp [outside, fits]

theorem toInt_magnitude (v : Int64) (movable : v.toInt ≠ -2 ^ 63) :
    (magnitudeU64 v).toInt64.toInt = v.toInt.natAbs := by
  have value := toNat_magnitudeU64 v
  have low := v.le_toInt
  have high := v.toInt_lt
  rw [MachineInt.toInt_toInt64 _ (by omega), value]

theorem magnitude_guard (v : Int64) :
    Int64.maxValue.toUInt64 < magnitudeU64 v ↔ v.toInt = -2 ^ 63 := by
  have value := toNat_magnitudeU64 v
  have low := v.le_toInt
  have high := v.toInt_lt
  have top : Int64.maxValue.toUInt64.toNat = 2 ^ 63 - 1 := by decide
  rw [UInt64.lt_iff_toNat_lt, value, top]
  omega

theorem signed_product (a b : Int64) :
    a.toInt * b.toInt = if decide (a < 0) != decide (b < 0)
      then -((a.toInt.natAbs : Int) * b.toInt.natAbs)
      else (a.toInt.natAbs : Int) * b.toInt.natAbs := by
  have left : decide (a < 0) = decide (a.toInt < 0) :=
    decide_eq_decide.mpr (by simpa using Int64.lt_iff_toInt_lt (x := a) (y := 0))
  have right : decide (b < 0) = decide (b.toInt < 0) :=
    decide_eq_decide.mpr (by simpa using Int64.lt_iff_toInt_lt (x := b) (y := 0))
  rw [left, right]
  rcases lt_or_ge a.toInt 0 with aNegative | aNonneg <;>
    rcases lt_or_ge b.toInt 0 with bNegative | bNonneg <;>
    simp [*, abs_of_neg, abs_of_nonneg, not_lt.mpr]

theorem checkedMulSigned_eq_some (a b out : Int64) :
    checkedMulSigned a b = some out ↔ MulFits a b ∧ out.toInt = a.toInt * b.toInt := by
  unfold checkedMulSigned
  by_cases edge : a.toInt = -2 ^ 63 ∨ b.toInt = -2 ^ 63
  · simp only [magnitude_guard, edge, if_true, reduceCtorEq, false_iff]
    rintro ⟨fits, -⟩
    exact edge.elim fits.left fits.right
  · obtain ⟨left, right⟩ := not_or.mp edge
    have nonneg (v : Int64) (movable : v.toInt ≠ -2 ^ 63) :
        0 ≤ (magnitudeU64 v).toInt64.toInt := by
      rw [toInt_magnitude v movable]
      omega
    have inner (product : Int64) := checkedMul_eq_some (magnitudeU64 a).toInt64
      (magnitudeU64 b).toInt64 product (nonneg a left) (nonneg b right)
    rw [toInt_magnitude a left, toInt_magnitude b right, ← Int.natCast_mul, ← Int.natAbs_mul]
      at inner
    simp only [magnitude_guard, edge, if_false, Option.map_eq_some_iff]
    have signed := signed_product a b
    rw [← Int.natCast_mul, ← Int.natAbs_mul] at signed
    constructor
    · rintro ⟨product, computed, rfl⟩
      obtain ⟨fits, value⟩ := (inner product).mp computed
      refine ⟨⟨left, right, by omega⟩, ?_⟩
      split at signed
      next opposite =>
        rw [if_pos opposite, MachineInt.toInt_neg_of_ne product (by omega), value, ← signed]
      next agree =>
        rw [if_neg agree, value, ← signed]
    · rintro ⟨fits, value⟩
      have bound := fits.product
      have small : Fits ((a.toInt * b.toInt).natAbs : Int) := ⟨by omega, by omega⟩
      have held := toInt_ofInt_of_fits small
      refine ⟨Int64.ofInt (a.toInt * b.toInt).natAbs,
        (inner _).mpr ⟨by omega, held⟩, ?_⟩
      apply Int64.toInt_inj.mp
      split at signed
      next opposite =>
        rw [if_pos opposite, MachineInt.toInt_neg_of_ne _ (by omega), held, value, ← signed]
      next agree =>
        rw [if_neg agree, held, value, ← signed]

theorem mulFits_iff {a b : Int64} (left : 0 ≤ a.toInt) (right : 0 ≤ b.toInt) :
    MulFits a b ↔ Fits (a.toInt * b.toInt) := by
  have nonneg := mul_nonneg left right
  constructor
  · intro fits
    have small := fits.product
    exact ⟨by omega, by omega⟩
  · intro fits
    have small := fits.2
    exact ⟨by omega, by omega, by omega⟩

theorem addProduct_eq_some {total a b out : Int64} (sum : 0 ≤ total.toInt) (left : 0 ≤ a.toInt)
    (right : 0 ≤ b.toInt) :
    (checkedMulSigned a b).bind (checkedAddSigned total) = some out ↔
      Fits (total.toInt + a.toInt * b.toInt) ∧ out.toInt = total.toInt + a.toInt * b.toInt := by
  have nonneg := mul_nonneg left right
  rw [Option.bind_eq_some_iff]
  simp only [checkedMulSigned_eq_some, mulFits_iff left right, checkedAddSigned_eq_some]
  constructor
  · rintro ⟨product, ⟨-, value⟩, placed⟩
    rwa [value] at placed
  · intro placed
    have small : Fits (a.toInt * b.toInt) := by
      have room := placed.1
      unfold Fits at room ⊢
      omega
    refine ⟨Int64.ofInt (a.toInt * b.toInt), ⟨small, toInt_ofInt_of_fits small⟩, ?_⟩
    rwa [toInt_ofInt_of_fits small]

def awayFromZero (num den : Int) : Int :=
  num.sign * den.sign * ((num.natAbs + den.natAbs - 1) / den.natAbs : Nat)

theorem ceil_div_nat (n d : Nat) (positive : 0 < d) :
    (n + d - 1) / d = if n % d = 0 then n / d else n / d + 1 := by
  have whole := Nat.div_add_mod n d
  have small := Nat.mod_lt n positive
  split
  next exact =>
    have shape : n + d - 1 = d * (n / d) + (d - 1) := by omega
    have rest : (d - 1) / d = 0 := Nat.div_eq_of_lt (by omega)
    rw [shape, Nat.mul_add_div positive, rest, Nat.add_zero]
  next inexact =>
    have shape : n + d - 1 = d * (n / d + 1) + (n % d - 1) := by
      rw [Nat.mul_add]
      omega
    have rest : (n % d - 1) / d = 0 := Nat.div_eq_of_lt (by omega)
    rw [shape, Nat.mul_add_div positive, rest, Nat.add_zero]

theorem awayFromZero_of_nonneg (n d : Nat) (positive : 0 < d) :
    awayFromZero n d = if (n : Int).tmod d = 0 then (n : Int).tdiv d else (n : Int).tdiv d + 1 := by
  have sign : (d : Int).sign = 1 := Int.sign_eq_one_of_pos (by omega)
  rw [← Int.ofNat_tmod, ← Int.ofNat_tdiv, awayFromZero, sign, Int.natAbs_natCast,
    Int.natAbs_natCast, ceil_div_nat n d positive]
  rcases Nat.eq_zero_or_pos n with rfl | above
  · simp
  · rw [Int.sign_eq_one_of_pos (by omega)]
    by_cases exact : n % d = 0
    · rw [if_pos exact, if_pos (by omega), one_mul, one_mul]
    · rw [if_neg exact, if_neg (by omega), one_mul, one_mul, Nat.cast_add, Nat.cast_one]

theorem awayFromZero_neg (num den : Int) : awayFromZero (-num) den = -awayFromZero num den := by
  simp [awayFromZero]

theorem awayFromZero_neg_right (num den : Int) : awayFromZero num (-den) = -awayFromZero num den := by
  simp [awayFromZero]

theorem awayFromZero_of_pos (num : Int) (d : Nat) (positive : 0 < d) :
    awayFromZero num d = if num.tmod d = 0 then num.tdiv d
      else if num < 0 then num.tdiv d - 1 else num.tdiv d + 1 := by
  rcases Int.natAbs_eq num with nonneg | negative
  · rw [nonneg, awayFromZero_of_nonneg _ d positive, if_neg (by omega : ¬ (num.natAbs : Int) < 0)]
  · have flipped := awayFromZero_of_nonneg num.natAbs d positive
    rw [negative, awayFromZero_neg, flipped, Int.neg_tmod, Int.neg_tdiv]
    simp only [neg_eq_zero]
    by_cases exact : (num.natAbs : Int).tmod d = 0
    · rw [if_pos exact, if_pos exact]
    · have below : -(num.natAbs : Int) < 0 := by
        rcases Nat.eq_zero_or_pos num.natAbs with zero | above
        · simp [zero] at exact
        · omega
      rw [if_neg exact, if_neg exact, if_pos below]
      omega

theorem awayFromZero_eq (num den : Int) (nonzero : den ≠ 0) :
    awayFromZero num den = if num.tmod den = 0 then num.tdiv den
      else if num < 0 ↔ den < 0 then num.tdiv den + 1 else num.tdiv den - 1 := by
  have size : 0 < den.natAbs := Int.natAbs_pos.mpr nonzero
  have direct := awayFromZero_of_pos num den.natAbs size
  rcases Int.natAbs_eq den with nonneg | negative
  · have above : ¬ den < 0 := by omega
    rw [← nonneg] at direct
    simp only [direct, above, iff_false, ite_not]
  · have below : den < 0 := by omega
    have mirrored : (den.natAbs : Int) = -den := by omega
    rw [mirrored, awayFromZero_neg_right, Int.tmod_neg, Int.tdiv_neg, neg_eq_iff_eq_neg] at direct
    simp only [direct, below, iff_true]
    split_ifs <;> omega

theorem natAbs_tdiv_le_half (num den : Int) (inexact : num.tmod den ≠ 0) :
    (num.tdiv den).natAbs ≤ num.natAbs / 2 := by
  rw [Int.natAbs_tdiv]
  rcases Nat.lt_or_ge den.natAbs 2 with narrow | wide
  · rcases (by omega : den = 0 ∨ den = 1 ∨ den = -1) with rfl | rfl | rfl
    · exact (Nat.div_zero _).trans_le (Nat.zero_le _)
    · simp at inexact
    · simp at inexact
  · exact Nat.div_le_div_left wide (by decide)

structure Divided (num den : Int64) : Prop where
  whole : num.toInt = den.toInt * (num / den).toInt + (num % den).toInt
  quotient : (num / den).toInt = num.toInt.tdiv den.toInt
  remainder : (num % den).toInt = num.toInt.tmod den.toInt
  exact : num % den = 0 ↔ (num % den).toInt = 0
  small : (num % den).toInt.natAbs < den.toInt.natAbs
  room : (num % den).toInt ≠ 0 → ((num / den).toInt).natAbs ≤ num.toInt.natAbs / 2

theorem lt_zero_iff (x : Int64) : x < 0 ↔ x.toInt < 0 := by
  rw [Int64.lt_iff_toInt_lt, Int64.toInt_zero]

theorem divided {num den : Int64} (defined : Signed.Divides num den) : Divided num den := by
  have quotient := Signed.toInt_div defined
  have remainder : (num % den).toInt = num.toInt.tmod den.toInt := Int64.toInt_mod num den
  constructor
  case whole => rw [quotient, remainder, Int.mul_tdiv_add_tmod]
  case quotient => exact quotient
  case remainder => exact remainder
  case exact => rw [← Int64.toInt_inj, Int64.toInt_zero]
  case small =>
    rw [remainder, Int.natAbs_tmod]
    exact Nat.mod_lt _ (Int.natAbs_pos.mpr defined.nonzero)
  case room =>
    rw [remainder, quotient]
    exact natAbs_tdiv_le_half num.toInt den.toInt

section Quotients

variable {num den : Int64}

theorem Divided.toInt_step (parts : Divided num den) (inexact : (num % den).toInt ≠ 0) :
    (num / den + 1).toInt = (num / den).toInt + 1 ∧
      (num / den - 1).toInt = (num / den).toInt - 1 := by
  have room := parts.room inexact
  have low := num.le_toInt
  have high := num.toInt_lt
  have unit : (1 : Int64).toInt = 1 := rfl
  rw [MachineInt.toInt_add_of_fits _ _ (by omega) (by omega),
    MachineInt.toInt_sub_of_fits _ _ (by omega) (by omega), unit]
  exact ⟨rfl, rfl⟩

theorem toInt_divAwayFromZero (defined : Signed.Divides num den) :
    (divAwayFromZero num den).toInt = awayFromZero num.toInt den.toInt := by
  have parts := divided defined
  rw [awayFromZero_eq _ _ defined.nonzero, ← parts.quotient, ← parts.remainder]
  unfold divAwayFromZero
  simp only [parts.exact, decide_eq_decide, lt_zero_iff]
  by_cases even : (num % den).toInt = 0
  · rw [if_pos even, if_pos even]
  · obtain ⟨up, down⟩ := parts.toInt_step even
    rw [if_neg even, if_neg even]
    split
    next => exact up
    next => exact down

theorem toInt_ceilDiv (defined : Signed.Divides num den) :
    (ceilDiv num den).toInt = ⌈(num.toInt : ℚ) / den.toInt⌉ := by
  have parts := divided defined
  rw [Rounding.ceil_div_of_rem defined.nonzero parts.whole parts.small]
  unfold ceilDiv
  simp only [ne_eq, parts.exact, decide_eq_decide, lt_zero_iff]
  split
  next up => exact (parts.toInt_step up.1).1
  next => rfl

theorem toInt_floorDiv (defined : Signed.Divides num den) :
    (floorDiv num den).toInt = ⌊(num.toInt : ℚ) / den.toInt⌋ := by
  have parts := divided defined
  rw [Rounding.floor_div_of_rem defined.nonzero parts.whole parts.small]
  unfold floorDiv
  simp only [ne_eq, parts.exact, decide_eq_decide, lt_zero_iff]
  split
  next down => exact (parts.toInt_step down.1).2
  next => rfl

end Quotients

theorem checkedSubSigned_eq_some (a b out : Int64) :
    checkedSubSigned a b = some out ↔
      Fits (a.toInt - b.toInt) ∧ out.toInt = a.toInt - b.toInt := by
  have low := a.le_toInt
  have high := a.toInt_lt
  have bottom : Int64.minValue.toInt = -2 ^ 63 := by decide
  unfold checkedSubSigned
  by_cases edge : b = Int64.minValue
  · rw [if_pos edge, edge, bottom]
    by_cases nonnegative : 0 ≤ a
    · have above : 0 ≤ a.toInt := by simpa using Int64.le_iff_toInt_le.mp nonnegative
      have wide : ¬ Fits (a.toInt - -2 ^ 63) := by
        unfold Fits
        omega
      rw [if_pos nonnegative]
      exact ⟨nofun, fun same => absurd same.1 wide⟩
    · have below : a.toInt < 0 := by
        simpa using Int64.lt_iff_toInt_lt.mp (Int64.not_le.mp nonnegative)
      have value := MachineInt.toInt_sub_of_fits a Int64.minValue (by omega) (by omega)
      rw [bottom] at value
      rw [if_neg nonnegative, Option.some.injEq, ← Int64.toInt_inj, value, eq_comm]
      exact ⟨fun same => ⟨⟨by omega, by omega⟩, same⟩, fun same => same.2⟩
  · have movable : b.toInt ≠ -2 ^ 63 := fun same =>
      edge (Int64.toInt_inj.mp (same.trans bottom.symm))
    rw [if_neg edge, checkedAddSigned_eq_some, MachineInt.toInt_neg_of_ne b movable, ← sub_eq_add_neg]

end Crossbook
