import Crossbook.Lib.MachineInt

set_option autoImplicit false

namespace Signed

def exactly (value : Int) : Option Int64 :=
  if -2 ^ 63 ≤ value ∧ value < 2 ^ 63 then some (Int64.ofInt value) else none

theorem exactly_eq_some (value : Int) (r : Int64) : exactly value = some r ↔ r.toInt = value := by
  unfold exactly
  rw [Option.ite_none_right_eq_some, Option.some.injEq]
  constructor
  · rintro ⟨fits, rfl⟩
    exact Int64.toInt_ofInt_of_le fits.1 fits.2
  · rintro rfl
    exact ⟨⟨r.le_toInt, r.toInt_lt⟩, Int64.ofInt_toInt r⟩

def add (a b : Int64) : Option Int64 := exactly (a.toInt + b.toInt)

def sub (a b : Int64) : Option Int64 := exactly (a.toInt - b.toInt)

def neg (a : Int64) : Option Int64 := exactly (-a.toInt)

def mul (a b : Int64) : Option Int64 := exactly (a.toInt * b.toInt)

def div (a b : Int64) : Option Int64 := if b = 0 then none else exactly (a.toInt.tdiv b.toInt)

-- A remainder is undefined with its quotient.
def mod (a b : Int64) : Option Int64 := (div a b).map fun _ => a % b

structure Divides (num den : Int64) : Prop where
  nonzero : den.toInt ≠ 0
  regular : ¬ (num.toInt = -2 ^ 63 ∧ den.toInt = -1)

section Divisions

variable {num den : Int64}

theorem Divides.of_pos (positive : 0 < den.toInt) : Divides num den := ⟨by omega, by omega⟩

theorem Divides.of_ne (nonzero : den ≠ 0) (regular : ¬ (num = Int64.minValue ∧ den = -1)) :
    Divides num den := by
  constructor
  · exact fun zero => nonzero (Int64.toInt_inj.mp zero)
  · rintro ⟨least, negated⟩
    exact regular ⟨Int64.toInt_inj.mp least, Int64.toInt_inj.mp negated⟩

theorem toInt_div (defined : Divides num den) : (num / den).toInt = num.toInt.tdiv den.toInt := by
  by_cases least : num = Int64.minValue
  · have negated : den ≠ -1 := fun same => defined.regular ⟨by rw [least]; rfl, by rw [same]; rfl⟩
    exact Int64.toInt_div_of_ne_right num den negated
  · exact Int64.toInt_div_of_ne_left num den least

theorem div_of_divides (defined : Divides num den) : div num den = some (num / den) := by
  have nonzero : den ≠ 0 := fun zero => defined.nonzero (by rw [zero]; rfl)
  rw [div, if_neg nonzero, exactly_eq_some]
  exact toInt_div defined

theorem mod_of_divides (defined : Divides num den) : mod num den = some (num % den) := by
  rw [mod, div_of_divides defined, Option.map_some]

end Divisions

theorem neg_of_ne {a : Int64} (movable : a.toInt ≠ -2 ^ 63) : neg a = some (-a) := by
  rw [neg, exactly_eq_some, MachineInt.toInt_neg_of_ne a movable]

section Sums

variable {a b : Int64}

theorem add_of_fits (low : -2 ^ 63 ≤ a.toInt + b.toInt) (high : a.toInt + b.toInt < 2 ^ 63) :
    add a b = some (a + b) := by
  rw [add, exactly_eq_some, MachineInt.toInt_add_of_fits a b low high]

theorem sub_of_fits (low : -2 ^ 63 ≤ a.toInt - b.toInt) (high : a.toInt - b.toInt < 2 ^ 63) :
    sub a b = some (a - b) := by
  rw [sub, exactly_eq_some, MachineInt.toInt_sub_of_fits a b low high]

theorem mul_of_fits (low : -2 ^ 63 ≤ a.toInt * b.toInt) (high : a.toInt * b.toInt < 2 ^ 63) :
    mul a b = some (a * b) := by
  rw [mul, exactly_eq_some, MachineInt.toInt_mul_of_fits a b low high]

end Sums

end Signed
