import Crossbook.SignedArithmetic

set_option autoImplicit false

namespace Crossbook

-- The same functions with each signed operation made explicit: `none` where one is undefined.
namespace Defined

open Signed

def checkedMul (a b : Int64) : Option (Option Int64) :=
  if a = 0 ∨ b = 0 then some (some 0)
  else do
    let limit ← div Int64.maxValue b
    if limit < a then return none
    let product ← mul a b
    return some product

def checkedAdd (a b : Int64) : Option (Option Int64) := do
  let limit ← sub Int64.maxValue b
  if limit < a then return none
  let sum ← add a b
  return some sum

def checkedMulSigned (a b : Int64) : Option (Option Int64) :=
  let kMaxMagnitude := Int64.maxValue.toUInt64
  let ua := magnitudeU64 a
  let ub := magnitudeU64 b
  if kMaxMagnitude < ua ∨ kMaxMagnitude < ub then some none
  else do
    match ← checkedMul ua.toInt64 ub.toInt64 with
    | none => return none
    | some product =>
      if decide (a < 0) != decide (b < 0) then
        let negated ← neg product
        return some negated
      return some product

def checkedAddSigned (a b : Int64) : Option (Option Int64) :=
  if 0 ≤ b then checkedAdd a b
  else do
    let limit ← sub Int64.minValue b
    if a < limit then return none
    let sum ← add a b
    return some sum

def checkedSubSigned (a b : Int64) : Option (Option Int64) :=
  if b = Int64.minValue then
    if 0 ≤ a then some none
    else do
      let difference ← sub a b
      return some difference
  else do
    let negated ← neg b
    checkedAddSigned a negated

def floorDiv (num den : Int64) : Option Int64 := do
  let quotient ← div num den
  let remainder ← mod num den
  if remainder ≠ 0 ∧ decide (remainder < 0) ≠ decide (den < 0) then sub quotient 1
  else return quotient

def ceilDiv (num den : Int64) : Option Int64 := do
  let quotient ← div num den
  let remainder ← mod num den
  if remainder ≠ 0 ∧ decide (remainder < 0) = decide (den < 0) then add quotient 1
  else return quotient

def divAwayFromZero (num den : Int64) : Option Int64 := do
  let quotient ← div num den
  let remainder ← mod num den
  if remainder = 0 then return quotient
  else if decide (num < 0) = decide (den < 0) then add quotient 1
  else sub quotient 1

section Checked

variable (a b : Int64)

theorem checkedMul_defined (left : 0 ≤ a.toInt) (right : 0 ≤ b.toInt) :
    checkedMul a b = some (Crossbook.checkedMul a b) := by
  have exact := checkedMul_eq_some a b
  unfold checkedMul
  unfold Crossbook.checkedMul at exact ⊢
  split
  next => rfl
  next nonzero =>
    rw [if_neg nonzero] at exact
    have positive : 0 < b.toInt := by
      refine lt_of_le_of_ne right fun same => nonzero (.inr ?_)
      exact Int64.toInt_inj.mp (by simpa using same.symm)
    rw [div_of_divides (.of_pos positive)]
    rw [Option.bind_eq_bind, Option.bind_some]
    split
    next => rfl
    next room =>
      rw [if_neg room] at exact
      have fits := (exact (a * b) left right).mp rfl
      have product := mul_nonneg left right
      rw [mul_of_fits (by omega) fits.1]
      rfl

theorem checkedAdd_defined (right : 0 ≤ b.toInt) :
    checkedAdd a b = some (Crossbook.checkedAdd a b) := by
  have exact := checkedAdd_eq_some a b
  have top : Int64.maxValue.toInt = 2 ^ 63 - 1 := by decide
  have high := b.toInt_lt
  unfold checkedAdd
  unfold Crossbook.checkedAdd at exact ⊢
  rw [sub_of_fits (by omega) (by omega)]
  simp only [Option.bind_eq_bind, Option.bind_some]
  split
  next => rfl
  next room =>
    rw [if_neg room] at exact
    have fits := ((exact (a + b) right).mp rfl).1
    rw [add_of_fits fits.1 fits.2]
    rfl

theorem checkedMulSigned_defined :
    checkedMulSigned a b = some (Crossbook.checkedMulSigned a b) := by
  unfold checkedMulSigned Crossbook.checkedMulSigned
  dsimp only
  split
  next => rfl
  next inside =>
    rw [magnitude_guard, magnitude_guard] at inside
    obtain ⟨left, right⟩ := not_or.mp inside
    have nonneg (v : Int64) (movable : v.toInt ≠ -2 ^ 63) :
        0 ≤ (magnitudeU64 v).toInt64.toInt := by
      rw [toInt_magnitude v movable]
      omega
    rw [checkedMul_defined _ _ (nonneg a left) (nonneg b right), Option.bind_eq_bind,
      Option.bind_some]
    cases found : Crossbook.checkedMul (magnitudeU64 a).toInt64 (magnitudeU64 b).toInt64 with
    | none => rfl
    | some product =>
      have value := ((checkedMul_eq_some _ _ product (nonneg a left) (nonneg b right)).mp found).2
      have above : 0 ≤ product.toInt := value ▸ mul_nonneg (nonneg a left) (nonneg b right)
      dsimp only [Option.map_some]
      rw [neg_of_ne (by omega)]
      split <;> rfl

theorem checkedAddSigned_defined :
    checkedAddSigned a b = some (Crossbook.checkedAddSigned a b) := by
  have exact := checkedAddSigned_eq_some a b
  have bottom : Int64.minValue.toInt = -2 ^ 63 := by decide
  have low := b.le_toInt
  unfold checkedAddSigned
  unfold Crossbook.checkedAddSigned at exact ⊢
  split
  next nonneg => exact checkedAdd_defined a b (by simpa using Int64.le_iff_toInt_le.mp nonneg)
  next negative =>
    rw [if_neg negative] at exact
    rw [Int64.not_le, lt_zero_iff] at negative
    rw [sub_of_fits (by omega) (by omega)]
    rw [Option.bind_eq_bind, Option.bind_some]
    split
    next => rfl
    next room =>
      rw [if_neg room] at exact
      have fits := ((exact (a + b)).mp rfl).1
      rw [add_of_fits fits.1 fits.2]
      rfl

theorem checkedSubSigned_defined :
    checkedSubSigned a b = some (Crossbook.checkedSubSigned a b) := by
  have bottom : Int64.minValue.toInt = -2 ^ 63 := by decide
  have low := a.le_toInt
  unfold checkedSubSigned Crossbook.checkedSubSigned
  split
  next least =>
    split
    next => rfl
    next negative =>
      rw [Int64.not_le, lt_zero_iff] at negative
      rw [least, sub_of_fits (by omega) (by omega)]
      rfl
  next movable =>
    have least : b.toInt ≠ -2 ^ 63 := fun same =>
      movable (Int64.toInt_inj.mp (same.trans bottom.symm))
    rw [neg_of_ne least, Option.bind_eq_bind, Option.bind_some, checkedAddSigned_defined]

end Checked

section Quotients

variable {num den : Int64}

theorem steps_defined (defined : Divides num den) (inexact : num % den ≠ 0) :
    add (num / den) 1 = some (num / den + 1) ∧ sub (num / den) 1 = some (num / den - 1) := by
  have parts := divided defined
  have unit : (1 : Int64).toInt = 1 := rfl
  rw [ne_eq, parts.exact] at inexact
  obtain ⟨up, down⟩ := parts.toInt_step inexact
  rw [add, sub, exactly_eq_some, exactly_eq_some, unit]
  exact ⟨up, down⟩

theorem floorDiv_defined (defined : Divides num den) :
    floorDiv num den = some (Crossbook.floorDiv num den) := by
  unfold floorDiv Crossbook.floorDiv
  rw [div_of_divides defined, mod_of_divides defined]
  simp only [Option.bind_eq_bind, Option.bind_some]
  split
  next down => exact (steps_defined defined down.1).2
  next => rfl

theorem ceilDiv_defined (defined : Divides num den) :
    ceilDiv num den = some (Crossbook.ceilDiv num den) := by
  unfold ceilDiv Crossbook.ceilDiv
  rw [div_of_divides defined, mod_of_divides defined]
  simp only [Option.bind_eq_bind, Option.bind_some]
  split
  next up => exact (steps_defined defined up.1).1
  next => rfl

theorem divAwayFromZero_defined (defined : Divides num den) :
    divAwayFromZero num den = some (Crossbook.divAwayFromZero num den) := by
  unfold divAwayFromZero Crossbook.divAwayFromZero
  rw [div_of_divides defined, mod_of_divides defined]
  simp only [Option.bind_eq_bind, Option.bind_some]
  split
  next => rfl
  next inexact =>
    obtain ⟨up, down⟩ := steps_defined defined inexact
    split
    next => exact up
    next => exact down

end Quotients

end Defined

/-- A checked operation meets no undefined step, returns true exactly where `accepted` holds, and
then stores the value. -/
structure ChecksExactly (checked : Option (Option Int64)) (accepted : Prop) (value : Int) :
    Prop where
  defined : ∃ found, checked = some found
  returns : (∃ out, checked = some (some out)) ↔ accepted
  stores (out : Int64) : checked = some (some out) → out.toInt = value

def Quotient (divided : Option Int64) (value : Int) : Prop :=
  ∃ out, divided = some out ∧ out.toInt = value

structure ArithmeticExact (a b : Int64) : Prop where
  add : ChecksExactly (Defined.checkedAddSigned a b) (Fits (a.toInt + b.toInt)) (a.toInt + b.toInt)
  sub : ChecksExactly (Defined.checkedSubSigned a b) (Fits (a.toInt - b.toInt)) (a.toInt - b.toInt)
  mul : ChecksExactly (Defined.checkedMulSigned a b)
    (a ≠ Int64.minValue ∧ b ≠ Int64.minValue ∧ (a.toInt * b.toInt).natAbs ≤ 2 ^ 63 - 1)
    (a.toInt * b.toInt)

structure QuotientsExact (a b : Int64) : Prop where
  floor : Quotient (Defined.floorDiv a b) ⌊(a.toInt : ℚ) / b.toInt⌋
  ceil : Quotient (Defined.ceilDiv a b) ⌈(a.toInt : ℚ) / b.toInt⌉
  away : Quotient (Defined.divAwayFromZero a b) (awayFromZero a.toInt b.toInt)

theorem ChecksExactly.of_eq_some {checked : Option (Option Int64)} {found : Option Int64}
    {accepted : Prop} {value : Int} (defined : checked = some found) (bounded : accepted → Fits value)
    (finds : ∀ out, found = some out ↔ accepted ∧ out.toInt = value) :
    ChecksExactly checked accepted value := by
  have met (out : Int64) : checked = some (some out) ↔ accepted ∧ out.toInt = value := by
    rw [defined, Option.some.injEq, finds]
  refine ⟨⟨found, defined⟩, ⟨?_, ?_⟩, fun out result => ((met out).mp result).2⟩
  · rintro ⟨out, result⟩
    exact ((met out).mp result).1
  · intro holds
    exact ⟨Int64.ofInt value, (met _).mpr ⟨holds, toInt_ofInt_of_fits (bounded holds)⟩⟩

theorem signedArithmetic_exact (a b : Int64) : ArithmeticExact a b ∧
    (b ≠ 0 → ¬ (a = Int64.minValue ∧ b = -1) → QuotientsExact a b) := by
  constructor
  · constructor
    case add =>
      exact .of_eq_some (Defined.checkedAddSigned_defined a b) id (checkedAddSigned_eq_some a b)
    case sub =>
      exact .of_eq_some (Defined.checkedSubSigned_defined a b) id (checkedSubSigned_eq_some a b)
    case mul =>
      have accepted : (a ≠ Int64.minValue ∧ b ≠ Int64.minValue ∧
          (a.toInt * b.toInt).natAbs ≤ 2 ^ 63 - 1) ↔ MulFits a b := by
        rw [ne_eq, ne_eq, ← Int64.toInt_inj, ← Int64.toInt_inj]
        have bottom : Int64.minValue.toInt = -2 ^ 63 := by decide
        rw [bottom]
        constructor
        · rintro ⟨left, right, product⟩
          exact ⟨left, right, by omega⟩
        · intro fits
          have product := fits.product
          exact ⟨fits.left, fits.right, by omega⟩
      rw [accepted]
      refine .of_eq_some (Defined.checkedMulSigned_defined a b) ?_ (checkedMulSigned_eq_some a b)
      intro fits
      have product := fits.product
      exact ⟨by omega, by omega⟩
  · intro nonzero regular
    have defined := Signed.Divides.of_ne nonzero regular
    constructor
    case floor => exact ⟨_, Defined.floorDiv_defined defined, toInt_floorDiv defined⟩
    case ceil => exact ⟨_, Defined.ceilDiv_defined defined, toInt_ceilDiv defined⟩
    case away => exact ⟨_, Defined.divAwayFromZero_defined defined, toInt_divAwayFromZero defined⟩

theorem signedArithmetic_exact_opposite : QuotientsExact (-7) 2 :=
  (signedArithmetic_exact (-7) 2).2 (by decide) (by decide)

end Crossbook
