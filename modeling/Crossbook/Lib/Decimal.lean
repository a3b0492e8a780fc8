import Mathlib

set_option autoImplicit false

namespace Decimal

def isDigit (c : UInt8) : Bool := 48 ≤ c && c ≤ 57

def digitValue (c : UInt8) : Nat := (c - 48).toNat

def valueFrom (value : Nat) (text : List UInt8) : Nat :=
  text.foldl (fun value c => value * 10 + digitValue c) value

def value (text : List UInt8) : Nat := valueFrom 0 text

structure Number (text : List UInt8) : Prop where
  some_ : text ≠ []
  digits : ∀ c ∈ text, isDigit c = true

instance (text : List UInt8) : Decidable (Number text) :=
  decidable_of_iff (text ≠ [] ∧ ∀ c ∈ text, isDigit c = true)
    ⟨fun both => ⟨both.1, both.2⟩, fun number => ⟨number.some_, number.digits⟩⟩

def digit (d : Nat) : UInt8 := UInt8.ofNat (48 + d)

def print (n : Nat) : List UInt8 :=
  if n < 10 then [digit n] else print (n / 10) ++ [digit (n % 10)]

theorem digit_isDigit (d : Nat) (small : d < 10) : isDigit (digit d) = true := by
  revert d
  decide

theorem digitValue_digit (d : Nat) (small : d < 10) : digitValue (digit d) = d := by
  revert d
  decide

theorem digitValue_lt {c : UInt8} (isDig : isDigit c = true) : digitValue c < 10 := by
  simp only [isDigit, Bool.and_eq_true, decide_eq_true_eq, UInt8.le_iff_toNat_le] at isDig
  have low : (48 : UInt8).toNat ≤ c.toNat := isDig.1
  have high : c.toNat ≤ 57 := isDig.2
  rw [digitValue, UInt8.toNat_sub_of_le c 48 (UInt8.le_iff_toNat_le.mpr low)]
  change c.toNat - 48 < 10
  omega

theorem valueFrom_cons (start : Nat) (c : UInt8) (rest : List UInt8) :
    valueFrom start (c :: rest) = valueFrom (start * 10 + digitValue c) rest := rfl

theorem valueFrom_append (start : Nat) (front back : List UInt8) :
    valueFrom start (front ++ back) = valueFrom (valueFrom start front) back :=
  List.foldl_append

theorem le_valueFrom (start : Nat) (text : List UInt8) : start ≤ valueFrom start text := by
  induction text generalizing start with
  | nil => exact le_rfl
  | cons c rest ih =>
    have later := ih (start * 10 + digitValue c)
    rw [valueFrom_cons]
    omega

theorem print_number (n : Nat) : Number (print n) := by
  fun_induction print n with
  | case1 n small => exact ⟨by simp, by simpa using digit_isDigit n small⟩
  | case2 n large ih =>
    refine ⟨by simp, ?_⟩
    rw [List.forall_mem_append]
    exact ⟨ih.digits, by simpa using digit_isDigit (n % 10) (Nat.mod_lt _ (by decide))⟩

theorem value_print (n : Nat) : value (print n) = n := by
  fun_induction print n with
  | case1 n small => simp [value, valueFrom, digitValue_digit n small]
  | case2 n large ih =>
    have last := digitValue_digit (n % 10) (Nat.mod_lt _ (by decide))
    rw [value] at ih
    rw [value, valueFrom_append, ih, valueFrom_cons, last]
    simp only [valueFrom, List.foldl_nil]
    omega

theorem print_head (n : Nat) (positive : 0 < n) : ∃ c rest, print n = c :: rest ∧ c ≠ 48 := by
  fun_induction print n with
  | case1 n small =>
    have other : ∀ d, d < 10 → 0 < d → digit d ≠ 48 := by decide
    exact ⟨digit n, [], rfl, other n small positive⟩
  | case2 n large ih =>
    obtain ⟨c, rest, spelled, other⟩ := ih (by omega)
    exact ⟨c, rest ++ [digit (n % 10)], by rw [spelled]; rfl, other⟩

end Decimal
