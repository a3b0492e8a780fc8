import Crossbook.Execution.Comparison

set_option autoImplicit false

namespace Crossbook

open Lot (cost volume fill)

section Distance

variable {reference moved : Int64}

theorem toInt_distance (left : 0 ≤ reference.toInt) (right : 0 ≤ moved.toInt) :
    (if reference < moved then moved - reference else reference - moved).toInt =
      |moved.toInt - reference.toInt| := by
  have high := reference.toInt_lt
  have top := moved.toInt_lt
  split
  next ahead =>
    have less := Int64.lt_iff_toInt_lt.mp ahead
    rw [MachineInt.toInt_sub_of_fits _ _ (by omega) (by omega), abs_of_pos (by omega)]
  next behind =>
    rw [Int64.lt_iff_toInt_lt] at behind
    rw [MachineInt.toInt_sub_of_fits _ _ (by omega) (by omega), abs_of_nonpos (by omega)]
    omega

theorem toInt_bpsBetween (positive : 0 < reference.toInt) (right : 0 ≤ moved.toInt) :
    (bpsBetween reference moved).toInt =
      if |moved.toInt - reference.toInt| * 1000000 < 2 ^ 63
      then |moved.toInt - reference.toInt| * 1000000 / reference.toInt else 0 := by
  have million : (1000000 : Int64).toInt = 1000000 := rfl
  have distance := toInt_distance positive.le right
  have nonneg : 0 ≤ |moved.toInt - reference.toInt| := abs_nonneg _
  have nonzero : reference ≠ 0 := by
    rintro rfl
    exact absurd positive (by decide)
  unfold bpsBetween
  rw [if_neg nonzero]
  dsimp only
  generalize (if reference < moved then moved - reference else reference - moved) = delta
    at distance
  cases scaled : checkedMulSigned delta 1000000 with
  | none =>
    have fits := mulFits_iff (distance ▸ nonneg : 0 ≤ delta.toInt) (b := 1000000) (by decide)
    have large := unmet_of_none fits.mp (checkedMulSigned_eq_some delta 1000000) scaled
    rw [fits, distance, million] at large
    have wide : ¬ |moved.toInt - reference.toInt| * 1000000 < 2 ^ 63 :=
      fun small => large ⟨by omega, small⟩
    rw [if_neg wide]
    rfl
  | some product =>
    obtain ⟨fits, value⟩ := (checkedMulSigned_eq_some delta 1000000 product).mp scaled
    have small := fits.product
    rw [distance, million] at value small
    rw [if_pos (by omega)]
    dsimp only
    rw [toInt_div_of_pos _ _ positive, value, Int.tdiv_eq_ediv_of_nonneg (by omega)]

end Distance

/-- The slippage is no less than the distance of the mean from the touch. -/
structure CoversDistance (touch : Level) (answer : Execution) : Prop where
  enough : |answer.vwap.ticks.toInt - touch.ticks| * 1000000 ≤ answer.slippage.toInt * touch.ticks
  zero : answer.slippage = 0 → answer.vwap = touch.price

/-- A distance of whole hundredths of a basis point whose millionfold can be held. -/
structure WholeDistance (touch mean : Int) : Prop where
  held : |mean - touch| * 1000000 < 2 ^ 63
  whole : touch ∣ |mean - touch| * 1000000

theorem coversDistance_iff {side : Side} {levels : List Level} {wanted : Int} {answer : Execution}
    {touch : Level} (fills : answer.Fills side levels wanted)
    (first : levels.head? = some touch) (positive : 0 < touch.ticks)
    (nonneg : 0 ≤ answer.vwap.ticks.toInt) :
    CoversDistance touch answer ↔ WholeDistance touch.ticks answer.vwap.ticks.toInt := by
  have value := toInt_bpsBetween positive nonneg
  have slippage := fills.slippage touch first
  rw [← slippage] at value
  change answer.slippage.toInt =
    if |answer.vwap.ticks.toInt - touch.ticks| * 1000000 < 2 ^ 63
    then |answer.vwap.ticks.toInt - touch.ticks| * 1000000 / touch.ticks else 0 at value
  constructor
  · intro covers
    have enough := covers.enough
    have held : |answer.vwap.ticks.toInt - touch.ticks| * 1000000 < 2 ^ 63 := by
      by_contra wide
      rw [if_neg wide] at value
      rw [value, zero_mul] at enough
      omega
    rw [if_pos held] at value
    rw [value] at enough
    have exact_ := le_antisymm (Int.ediv_mul_le _ positive.ne') enough
    exact ⟨held, Dvd.intro_left (|answer.vwap.ticks.toInt - touch.ticks| * 1000000 / touch.ticks)
      exact_⟩
  · intro exact_
    rw [if_pos exact_.held] at value
    have whole := Int.ediv_mul_cancel exact_.whole
    refine ⟨by rw [value, whole], fun zero => ?_⟩
    rw [← value, zero, Int64.toInt_zero, zero_mul] at whole
    have apart : answer.vwap.ticks.toInt - touch.ticks = 0 := by
      apply abs_eq_zero.mp
      omega
    exact congrArg Price.mk (Int64.toInt_inj.mp (by
      rw [sub_eq_zero.mp apart]
      rfl))

section Requests

variable {S : Type} [SideImpl S] [LawfulSideImpl S]

theorem slippage_covers_iff (book : BasicL2Book S) (reached : book.Reached) (side : Side)
    (touch : Level) (first : (book.levels side).head? = some touch) (positive : 0 < touch.ticks) :
    (∀ wanted : Qty, (costToTrade book side wanted).status = .ok →
      (CoversDistance touch (costToTrade book side wanted) ↔
        WholeDistance touch.ticks
          (roundedMean side (cost (fill wanted.units.toInt (lots (book.levels side))))
            (volume (fill wanted.units.toInt (lots (book.levels side))))))) ∧
    (∀ slippage : CentiBps, (executableSize book side slippage).status = .ok →
      (CoversDistance touch (executableSize book side slippage) ↔
        WholeDistance touch.ticks
          (roundedMean side
            (totalNotional (reachable (book.levels side) touch.ticks slippage.toInt))
            (totalQuantity (reachable (book.levels side) touch.ticks slippage.toInt))))) := by
  have resting := reached.resting side
  constructor
  · intro wanted ok
    have traded := costToTrade_ok resting ok
    have nonneg := traded.fills.vwap_nonneg resting traded.wanting
    rw [coversDistance_iff traded.fills first positive nonneg, traded.fills.vwap]
  · intro slippage ok
    obtain ⟨other, sized⟩ := executableSize_ok resting ok
    obtain rfl := Option.some.inj (first.symm.trans sized.first)
    have nonneg := sized.fills.vwap_nonneg resting (sized.covered_pos resting)
    rw [coversDistance_iff sized.fills first positive nonneg, sized.fills.vwap,
      sized.filled resting, cost_lots, volume_lots]

end Requests

-- The mean of 2000000 and 2000002 is half a hundredth of a basis point away.
theorem slippage_understated :
    let book : MapBook := ((BasicL2Book.new ⟨bytes "BTC/USD", 1, 8⟩).run
      [.apply .ask ⟨2000000⟩ ⟨1⟩, .apply .ask ⟨2000002⟩ ⟨1⟩])
    let answer := costToTrade book .ask ⟨2⟩
    (book.levels .ask).head? = some ⟨⟨2000000⟩, ⟨1⟩⟩ ∧ answer.status = .ok ∧
      answer.vwap = ⟨2000001⟩ ∧ answer.slippage = 0 ∧
        ¬ CoversDistance ⟨⟨2000000⟩, ⟨1⟩⟩ answer := by
  intro book answer
  have vwap : answer.vwap = ⟨2000001⟩ := by decide +kernel
  have slippage : answer.slippage = 0 := by decide +kernel
  refine ⟨by decide +kernel, by decide +kernel, vwap, slippage, fun covers => ?_⟩
  exact absurd ((covers.zero slippage).symm.trans vwap) (by decide)

theorem slippage_covers_iff_tenth :
    let book : MapBook := ((BasicL2Book.new ⟨bytes "BTC/USD", 1, 8⟩).run
      [.apply .bid ⟨100⟩ ⟨1⟩, .apply .bid ⟨90⟩ ⟨1⟩])
    (costToTrade book .bid ⟨2⟩).status = .ok ∧
      (CoversDistance ⟨⟨100⟩, ⟨1⟩⟩ (costToTrade book .bid ⟨2⟩) ↔
        WholeDistance 100 (roundedMean .bid
          (cost (fill 2 (lots (book.levels .bid))))
          (volume (fill 2 (lots (book.levels .bid)))))) := by
  intro book
  have ok : (costToTrade book .bid ⟨2⟩).status = .ok := by decide +kernel
  have holds := slippage_covers_iff book (.after _ (BasicL2Book.levels_new _) _) .bid
    ⟨⟨100⟩, ⟨1⟩⟩ (by decide +kernel) (by decide)
  exact ⟨ok, holds.1 ⟨2⟩ ok⟩

end Crossbook
