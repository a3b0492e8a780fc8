import Crossbook.Execution.Filling

set_option autoImplicit false

namespace Crossbook

/-- The price `slippage` away from the touch, over the integers, rounded toward the touch. -/
def limitTicks (side : Side) (touch slippage : Int) : Int :=
  match side with
  | .ask => touch + touch * slippage / 1000000
  | .bid => touch - touch * slippage / 1000000

def Within (touch slippage : Int) (level : Level) : Prop :=
  ((level.ticks - touch).natAbs : Int) * 1000000 ≤ touch * slippage

instance (touch slippage : Int) (level : Level) : Decidable (Within touch slippage level) :=
  inferInstanceAs (Decidable (_ ≤ _))

def reachable (levels : List Level) (touch slippage : Int) : List Level :=
  levels.filter fun level => decide (Within touch slippage level)

theorem reachable_resting {levels : List Level} (resting : ∀ level ∈ levels, level.Resting)
    (touch slippage : Int) : ∀ level ∈ reachable levels touch slippage, level.Resting :=
  fun level inside => resting level (List.mem_of_mem_filter inside)

theorem takeWhile_eq_filter {α : Type} {p : α → Bool} {xs : List α}
    (downward : xs.Pairwise fun a b => p b = true → p a = true) :
    xs.takeWhile p = xs.filter p := by
  induction xs with
  | nil => rfl
  | cons x rest ih =>
    obtain ⟨before, later⟩ := List.pairwise_cons.mp downward
    by_cases holds : p x = true
    · rw [List.takeWhile_cons_of_pos holds, List.filter_cons_of_pos holds, ih later]
    · have none : rest.filter p = [] :=
        List.filter_eq_nil_iff.mpr fun y member also => holds (before y member also)
      rw [List.takeWhile_cons_of_neg holds, List.filter_cons_of_neg holds, none]

section Limit

variable {touch : Int64} {slippage : CentiBps}

theorem priceLimit_eq_some (side : Side) (left : 0 ≤ touch.toInt) (right : 0 ≤ slippage.toInt)
    (limit : Int64) :
    priceLimit touch side slippage = some limit ↔
      Fits (touch.toInt * slippage.toInt) ∧ Fits (limitTicks side touch.toInt slippage.toInt) ∧
        limit.toInt = limitTicks side touch.toInt slippage.toInt := by
  have nonneg := mul_nonneg left right
  have million : (1000000 : Int64).toInt = 1000000 := rfl
  have offset (product : Int64) (value : product.toInt = touch.toInt * slippage.toInt) :
      (product / 1000000).toInt = touch.toInt * slippage.toInt / 1000000 := by
    rw [toInt_div_of_pos _ _ (by decide), million, value, Int.tdiv_eq_ediv_of_nonneg nonneg]
  have inner (product : Int64) (value : product.toInt = touch.toInt * slippage.toInt) :
      (match side with
        | .ask => checkedAddSigned touch (product / 1000000)
        | .bid => checkedAddSigned touch (-(product / 1000000))) = some limit ↔
        Fits (limitTicks side touch.toInt slippage.toInt) ∧
          limit.toInt = limitTicks side touch.toInt slippage.toInt := by
    have moved := offset product value
    cases side with
    | ask => rw [checkedAddSigned_eq_some, moved]; rfl
    | bid =>
      have negated := MachineInt.toInt_neg_of_ne (product / 1000000) (by omega)
      rw [checkedAddSigned_eq_some, negated, moved]
      rfl
  unfold priceLimit
  rw [Option.bind_eq_some_iff]
  simp only [checkedMulSigned_eq_some, mulFits_iff left right]
  constructor
  · rintro ⟨product, ⟨fits, value⟩, placed⟩
    exact ⟨fits, (inner product value).mp placed⟩
  · rintro ⟨fits, placed⟩
    have value := toInt_ofInt_of_fits fits
    exact ⟨_, ⟨fits, value⟩, (inner _ value).mpr placed⟩

theorem within_iff (side : Side) (limit : Int64) (level : Level)
    (placed : limit.toInt = limitTicks side touch.toInt slippage.toInt)
    (behind : precedes side level.price.ticks touch = false) :
    beyondLimit limit level.price.ticks side = false ↔
      Within touch.toInt slippage.toInt level := by
  unfold Within
  cases side with
  | ask =>
    simp only [precedes, decide_eq_false_iff_not, Int64.lt_iff_toInt_lt, limitTicks,
      beyondLimit, Level.ticks] at behind placed ⊢
    rw [placed]
    omega
  | bid =>
    simp only [precedes, decide_eq_false_iff_not, Int64.lt_iff_toInt_lt, limitTicks,
      beyondLimit, Level.ticks] at behind placed ⊢
    rw [placed]
    omega

end Limit

theorem totalQuantity_pos {levels : List Level} (resting : ∀ level ∈ levels, level.Resting)
    {level : Level} (member : level ∈ levels) : 0 < totalQuantity levels := by
  obtain ⟨front, back, rfl⟩ := List.append_of_mem member
  have before := totalQuantity_nonneg fun x inside => resting x (List.mem_append_left _ inside)
  have after := totalQuantity_nonneg fun x inside =>
    resting x (List.mem_append_right _ (List.mem_cons_of_mem _ inside))
  have here := (resting level member).quantity
  have single : totalQuantity (level :: back) = level.units + totalQuantity back := by
    simp [totalQuantity]
  rw [totalQuantity_append, single]
  omega

structure SizeWalk.Took (walk : SizeWalk) (taken : List Level) : Prop where
  notional : walk.notional.toInt = totalNotional taken
  quantity : walk.totalQty.toInt = totalQuantity taken
  limitPrice : walk.limitPrice = (taken.getLast?.map Level.price).getD ⟨0⟩
  levels : walk.levels = taken.length

theorem took_none : ({} : SizeWalk).Took [] := ⟨rfl, rfl, rfl, rfl⟩

theorem SizeWalk.Took.fills {walk : SizeWalk} {covered levels : List Level} (side : Side)
    {touch : Level} (took : walk.Took covered) (first : levels.head? = some touch)
    (front : covered <+: levels) (some : covered ≠ [])
    (resting : ∀ level ∈ covered, level.Resting) (exhausted : Bool) :
    Execution.Fills
      { qty := ⟨walk.totalQty⟩
        vwap := ⟨conservativeVwap walk.notional walk.totalQty side⟩
        limitPrice := walk.limitPrice
        levels := walk.levels
        depthExhausted := exhausted
        slippage := bpsBetween touch.price.ticks (conservativeVwap walk.notional walk.totalQty side)
        status := .ok } side levels (totalQuantity covered) := by
  have filled := fill_front front some resting
  have taken : lots covered ≠ [] := by simpa [lots] using some
  have positive := Lot.volume_pos (lots_positive resting) taken
  rw [volume_lots] at positive
  constructor
  case quantity => rw [filled, volume_lots, took.quantity]
  case count => rw [filled, took.levels, lots, List.length_map]
  case worst =>
    rw [took.levels, ← List.prefix_iff_eq_take.mp front, took.limitPrice,
      List.getLast?_eq_some_getLast some]
    rfl
  case vwap =>
    rw [filled, volume_lots, cost_lots, ← took.notional, ← took.quantity]
    exact toInt_conservativeVwap _ _ side (took.quantity ▸ positive)
  case slippage =>
    intro other same
    obtain rfl := Option.some.inj (first.symm.trans same)
    rfl

structure TotalsFit (levels : List Level) : Prop where
  notional : Fits (totalNotional levels)
  quantity : Fits (totalQuantity levels)

theorem TotalsFit.front {front back : List Level} (fits : TotalsFit (front ++ back))
    (resting : ∀ level ∈ front ++ back, level.Resting) : TotalsFit front := by
  obtain ⟨before, after⟩ := List.forall_mem_append.mp resting
  have notional := fits.notional
  have quantity := fits.quantity
  rw [totalNotional_append] at notional
  rw [totalQuantity_append] at quantity
  have first := totalNotional_nonneg before
  have second := totalNotional_nonneg after
  have third := totalQuantity_nonneg before
  have fourth := totalQuantity_nonneg after
  unfold Fits at notional quantity
  exact ⟨⟨by omega, by omega⟩, ⟨by omega, by omega⟩⟩

theorem sizeStep_inside {side : Side} {limit : Int64} {walk : SizeWalk} {taken : List Level}
    {level : Level} (took : walk.Took taken) (before : ∀ level ∈ taken, level.Resting)
    (resting : level.Resting) (inside : beyondLimit limit level.price.ticks side = false) :
    (TotalsFit (taken ++ [level]) ∧ ∃ next : SizeWalk,
      sizeStep side limit walk level = (next, true) ∧ next.Took (taken ++ [level]) ∧
        next.overflowed = walk.overflowed ∧ next.stoppedAtLimit = walk.stoppedAtLimit) ∨
    (¬ TotalsFit (taken ++ [level]) ∧ ∃ next : SizeWalk,
      sizeStep side limit walk level = (next, false) ∧ next.overflowed = true) := by
  have single : totalNotional [level] = level.notional := by simp [totalNotional]
  have count : totalQuantity [level] = level.units := by simp [totalQuantity]
  have priorNotional := totalNotional_nonneg before
  have units := resting.quantity
  have notional (out : Int64) :
      (checkedMulSigned level.price.ticks level.qty.units).bind
          (checkedAddSigned walk.notional) = some out ↔
        Fits (totalNotional (taken ++ [level])) ∧ out.toInt = totalNotional (taken ++ [level]) := by
    rw [addProduct_eq_some (took.notional ▸ priorNotional) resting.price units.le,
      totalNotional_append, single, took.notional]
    rfl
  have quantity (out : Int64) : checkedAddSigned walk.totalQty level.qty.units = some out ↔
      Fits (totalQuantity (taken ++ [level])) ∧ out.toInt = totalQuantity (taken ++ [level]) := by
    rw [checkedAddSigned_eq_some, took.quantity, totalQuantity_append, count]
    rfl
  unfold sizeStep
  rw [inside, if_neg Bool.false_ne_true]
  cases added : (checkedMulSigned level.price.ticks level.qty.units).bind
      (checkedAddSigned walk.notional) with
  | none =>
    have large := unmet_of_none id notional added
    exact .inr ⟨fun fits => large fits.notional, _, rfl, rfl⟩
  | some sum =>
    obtain ⟨sumFits, sumValue⟩ := (notional sum).mp added
    cases counted : checkedAddSigned walk.totalQty level.qty.units with
    | none =>
      have large := unmet_of_none id quantity counted
      exact .inr ⟨fun fits => large fits.quantity, _, rfl, rfl⟩
    | some total =>
      obtain ⟨totalFits, totalValue⟩ := (quantity total).mp counted
      refine .inl ⟨⟨sumFits, totalFits⟩, _, rfl, ⟨sumValue, totalValue, ?_, ?_⟩, rfl, rfl⟩
      · simp
      · simp [took.levels]

theorem visit_sizeStep (side : Side) (limit : Int64) {walk : SizeWalk} {taken : List Level}
    (took : walk.Took taken) (calm : walk.overflowed = false) (going : walk.stoppedAtLimit = false)
    (levels : List Level) (resting : ∀ level ∈ taken ++ levels, level.Resting)
    (inside : Level → Bool)
    (limited : ∀ level ∈ levels,
      beyondLimit limit level.price.ticks side = false ↔ inside level = true) :
    let final := Visit.visit (sizeStep side limit) walk levels
    (TotalsFit (taken ++ levels.takeWhile inside) ↔ final.overflowed = false) ∧
      (final.overflowed = false → final.Took (taken ++ levels.takeWhile inside) ∧
        (final.stoppedAtLimit = false ↔ levels.takeWhile inside = levels)) := by
  have held (walk : SizeWalk) (taken : List Level) (took : walk.Took taken) : TotalsFit taken :=
    ⟨took.notional ▸ fits_toInt _, took.quantity ▸ fits_toInt _⟩
  induction levels generalizing walk taken with
  | nil =>
    simp only [List.takeWhile_nil, List.append_nil, Visit.visit_nil]
    exact ⟨⟨fun _ => calm, fun _ => held walk taken took⟩,
      fun _ => ⟨took, ⟨fun _ => trivial, fun _ => going⟩⟩⟩
  | cons level rest ih =>
    obtain ⟨before, here, after⟩ : (∀ level ∈ taken, level.Resting) ∧ level.Resting ∧
        ∀ level ∈ rest, level.Resting := by
      simpa [or_imp, forall_and] using resting
    have split : taken ++ level :: rest.takeWhile inside =
        taken ++ [level] ++ rest.takeWhile inside := by simp
    have later : ∀ x ∈ taken ++ [level] ++ rest, x.Resting := by simpa using resting
    cases within : inside level with
    | true =>
      have open_ := (limited level (by simp)).mpr within
      rw [List.takeWhile_cons_of_pos within, Visit.visit_cons, split]
      rcases sizeStep_inside took before here open_ with
        ⟨-, next, step, tookNext, sameFlag, sameStop⟩ | ⟨overflows, next, step, flagged⟩
      · have tail := ih tookNext (sameFlag.trans calm) (sameStop.trans going) later
          fun x member => limited x (by simp [member])
        rw [step]
        refine ⟨tail.1, fun settled => ?_⟩
        obtain ⟨final, whole⟩ := tail.2 settled
        exact ⟨final, whole.trans (by simp)⟩
      · rw [step]
        simp only [Bool.false_eq_true, if_false, flagged, iff_false, Bool.true_eq_false,
          false_imp_iff, and_true]
        -- Totals over more levels are no smaller.
        intro fits
        refine overflows (fits.front fun x member => later x ?_)
        rw [List.mem_append] at member ⊢
        exact member.imp_right fun inRest => (List.takeWhile_subset inside) inRest
    | false =>
      have beyond : beyondLimit limit level.price.ticks side = true := by
        have closed := (limited level (by simp)).not.mpr (by simp [within])
        simpa using closed
      have stop : sizeStep side limit walk level = ({ walk with stoppedAtLimit := true }, false) := by
        simp [sizeStep, beyond]
      rw [List.takeWhile_cons_of_neg (by simp [within]), Visit.visit_cons, stop]
      simp only [Bool.false_eq_true, if_false, calm, List.append_nil, iff_true, true_imp_iff]
      exact ⟨held walk taken took, ⟨took.notional, took.quantity, took.limitPrice, took.levels⟩,
        by simp⟩

/-- The slippage product, the price limit or a total over the reachable levels is too large. -/
def SizeOverflows (levels : List Level) (side : Side) (touch slippage : Int) : Prop :=
  ¬ Fits (touch * slippage) ∨ ¬ Fits (limitTicks side touch slippage) ∨
    ¬ TotalsFit (reachable levels touch slippage)

structure SizeTotals (levels covered : List Level) (answer : Execution) : Prop where
  quantity : answer.qty.units.toInt = totalQuantity covered
  count : answer.levels = covered.length
  worst : covered.getLast?.map Level.price = some answer.limitPrice
  exhausted : answer.depthExhausted = true ↔ covered = levels

structure SizeExact (levels : List Level) (side : Side) (slippage : Int) (answer : Execution) :
    Prop where
  empty : answer.status = .emptyBook ↔ levels = []
  overflow : answer.status = .overflow ↔ ∃ touch, levels.head? = some touch ∧
    SizeOverflows levels side touch.ticks slippage
  ok : answer.status = .ok ↔ ∃ touch, levels.head? = some touch ∧
    ¬ SizeOverflows levels side touch.ticks slippage
  neverExcluded : answer.status ≠ .limitExcludedAll
  totals (touch : Level) : answer.status = .ok → levels.head? = some touch →
    SizeTotals levels (reachable levels touch.ticks slippage) answer

theorem sizeExact_of_overflow {levels : List Level} {side : Side} {slippage : Int} {touch : Level}
    (first : levels.head? = some touch) (overflows : SizeOverflows levels side touch.ticks slippage) :
    SizeExact levels side slippage { status := .overflow } where
  empty := by
    refine ⟨nofun, ?_⟩
    rintro rfl
    simp at first
  overflow := ⟨fun _ => ⟨touch, first, overflows⟩, fun _ => rfl⟩
  ok := by
    refine ⟨nofun, ?_⟩
    rintro ⟨other, same, fits⟩
    obtain rfl := Option.some.inj (first.symm.trans same)
    exact absurd overflows fits
  neverExcluded := nofun
  totals _ := nofun

theorem sizeExact_of_totals {levels : List Level} {side : Side} {slippage : Int} {touch : Level}
    {answer : Execution} (first : levels.head? = some touch)
    (fits : ¬ SizeOverflows levels side touch.ticks slippage) (ok : answer.status = .ok)
    (totals : SizeTotals levels (reachable levels touch.ticks slippage) answer) :
    SizeExact levels side slippage answer where
  empty := by
    rw [ok]
    refine ⟨nofun, ?_⟩
    rintro rfl
    simp at first
  overflow := by
    rw [ok]
    refine ⟨nofun, ?_⟩
    rintro ⟨other, same, overflows⟩
    obtain rfl := Option.some.inj (first.symm.trans same)
    exact absurd overflows fits
  ok := ⟨fun _ => ⟨touch, first, fits⟩, fun _ => ok⟩
  neverExcluded := by
    rw [ok]
    exact nofun
  totals other _ same := by
    obtain rfl := Option.some.inj (first.symm.trans same)
    exact totals

section Reachable

variable {side : Side} {levels : List Level} {touch : Level} {slippage : CentiBps} {limit : Int64}

theorem behind_touch (ordered : BookOrder side levels) (first : levels.head? = some touch)
    (level : Level) (member : level ∈ levels) :
    precedes side level.price.ticks touch.price.ticks = false := by
  obtain ⟨rest, rfl⟩ := List.head?_eq_some_iff.mp first
  rcases List.mem_cons.mp member with rfl | later
  · exact precedes_irrefl side _
  · have before := (List.pairwise_cons.mp ordered).1 level later
    by_contra also
    have loop := precedes_trans side _ _ _ before (by simpa using also)
    rw [precedes_irrefl] at loop
    exact Bool.false_ne_true loop

theorem beyondLimit_nearer {a b : Int64} (before : precedes side a b = true)
    (inside : beyondLimit limit b side = false) : beyondLimit limit a side = false := by
  cases side <;> simp only [beyondLimit, precedes, decide_eq_false_iff_not, decide_eq_true_eq]
      at before inside ⊢ <;> grind

theorem takeWhile_reachable (ordered : BookOrder side levels) (first : levels.head? = some touch)
    (placed : limit.toInt = limitTicks side touch.ticks slippage.toInt) :
    levels.takeWhile (fun level => decide (Within touch.ticks slippage.toInt level)) =
      reachable levels touch.ticks slippage.toInt := by
  apply takeWhile_eq_filter
  refine List.Pairwise.imp_of_mem ?_ ordered
  intro a b left right before
  have nearer : beyondLimit limit a.price.ticks side = false ↔
      Within touch.ticks slippage.toInt a :=
    within_iff side limit a placed (behind_touch ordered first a left)
  have further : beyondLimit limit b.price.ticks side = false ↔
      Within touch.ticks slippage.toInt b :=
    within_iff side limit b placed (behind_touch ordered first b right)
  rw [decide_eq_true_eq, decide_eq_true_eq]
  exact fun inside => nearer.mp (beyondLimit_nearer before (further.mpr inside))

theorem touch_reachable {slippage : Int} (first : levels.head? = some touch)
    (nonneg : 0 ≤ touch.ticks * slippage) : touch ∈ reachable levels touch.ticks slippage := by
  obtain ⟨rest, rfl⟩ := List.head?_eq_some_iff.mp first
  simpa [reachable, Within] using nonneg

end Reachable

section Answer

variable {S : Type} [SideImpl S] [LawfulSideImpl S]

inductive SizeAnswer (side : Side) (levels : List Level) (slippage : Int) (answer : Execution) :
    Prop
  | empty : levels = [] → answer = { depthExhausted := true, status := .emptyBook } →
      SizeAnswer side levels slippage answer
  | overflow (touch : Level) : levels.head? = some touch →
      SizeOverflows levels side touch.ticks slippage → answer = { status := .overflow } →
      SizeAnswer side levels slippage answer
  | ok (touch : Level) : levels.head? = some touch →
      ¬ SizeOverflows levels side touch.ticks slippage → answer.status = .ok →
      reachable levels touch.ticks slippage <+: levels →
      answer.Fills side levels (totalQuantity (reachable levels touch.ticks slippage)) →
      (answer.depthExhausted = true ↔ reachable levels touch.ticks slippage = levels) →
      SizeAnswer side levels slippage answer

theorem executableSize_answer (book : BasicL2Book S) (side : Side) (slippage : CentiBps)
    (nonneg : 0 ≤ slippage.toInt) (resting : ∀ level ∈ book.levels side, level.Resting) :
    SizeAnswer side (book.levels side) slippage.toInt (executableSize book side slippage) := by
  have accepted : ¬ slippage < 0 := by
    rw [Int64.lt_iff_toInt_lt, Int64.toInt_zero]
    omega
  have ordered := book.levels_bookOrder side
  unfold executableSize
  rw [if_neg accepted, BasicL2Book.best_eq]
  cases first : (book.levels side).head? with
  | none => exact .empty (List.head?_eq_none_iff.mp first) rfl
  | some touch =>
    have here : touch.Resting := resting touch (List.mem_of_head? first)
    dsimp only
    cases placed : priceLimit touch.price.ticks side slippage with
    | none =>
      have large := unmet_of_none And.right
        (fun limit => (priceLimit_eq_some side here.price nonneg limit).trans and_assoc.symm) placed
      refine .overflow touch first ?_ rfl
      rw [SizeOverflows, ← or_assoc]
      exact .inl (not_and_or.mp large)
    | some limit =>
      obtain ⟨productFits, limitFits, value⟩ :=
        (priceLimit_eq_some side here.price nonneg _).mp placed
      have walked := visit_sizeStep side limit took_none rfl rfl (book.levels side)
        (by simpa using resting) (fun level => decide (Within touch.ticks slippage.toInt level))
        fun level member => by
          rw [decide_eq_true_eq]
          exact within_iff side limit level value (behind_touch ordered first level member)
      have front := List.takeWhile_prefix (l := book.levels side) fun level =>
        decide (Within touch.ticks slippage.toInt level)
      rw [takeWhile_reachable ordered first value] at walked front
      rw [List.nil_append] at walked
      have member := touch_reachable first (mul_nonneg here.price nonneg)
      have positive : 0 < totalQuantity (reachable (book.levels side) touch.ticks slippage.toInt) :=
        totalQuantity_pos (reachable_resting resting _ _) member
      dsimp only
      rw [BasicL2Book.forEach_eq]
      generalize Visit.visit (sizeStep side limit) {} (book.levels side) = final at walked
      cases flagged : final.overflowed with
      | true =>
        rw [if_pos rfl]
        refine .overflow touch first (.inr (.inr fun fits => ?_)) rfl
        exact absurd (walked.1.mp fits) (by simp [flagged])
      | false =>
        obtain ⟨took, whole⟩ := walked.2 flagged
        -- The touch is inside its own limit, so `limitExcludedAll` is never the answer.
        have held : final.totalQty ≠ 0 := by
          intro zero
          have total := took.quantity
          rw [zero, Int64.toInt_zero] at total
          omega
        rw [if_neg Bool.false_ne_true, if_neg held]
        have fits : ¬ SizeOverflows (book.levels side) side touch.ticks slippage.toInt := by
          simp only [SizeOverflows, not_or, not_not]
          exact ⟨productFits, limitFits, walked.1.mpr flagged⟩
        have taken := reachable_resting resting touch.ticks slippage.toInt
        refine .ok touch first fits rfl front
          (took.fills side first front (List.ne_nil_of_mem member) taken _) ?_
        rw [← whole, Bool.not_eq_true']

theorem executableSize_exact (book : BasicL2Book S) (built : book.Built) (side : Side)
    (slippage : CentiBps) (nonneg : 0 ≤ slippage) :
    SizeExact (book.levels side) side slippage.toInt (executableSize book side slippage) := by
  have budget : 0 ≤ slippage.toInt := by simpa using Int64.le_iff_toInt_le.mp nonneg
  have resting := built.resting side
  cases executableSize_answer book side slippage budget resting with
  | empty none answer =>
    rw [answer, none]
    exact ⟨by simp, by simp, by simp, nofun, nofun⟩
  | overflow touch first overflows answer =>
    rw [answer]
    exact sizeExact_of_overflow first overflows
  | ok touch first fits ok front fills exhausted =>
    have taken : reachable (book.levels side) touch.ticks slippage.toInt ≠ [] :=
      List.ne_nil_of_mem
        (touch_reachable first (mul_nonneg (resting touch (List.mem_of_head? first)).price budget))
    have covered := fill_front front taken (reachable_resting resting _ _)
    have quantity := fills.quantity
    have count := fills.count
    rw [covered, volume_lots] at quantity
    rw [covered, lots, List.length_map] at count
    have worst := fills.worst
    rw [count, ← List.prefix_iff_eq_take.mp front] at worst
    exact sizeExact_of_totals first fits ok ⟨quantity, count, worst, exhausted⟩

-- An ask on the limit, one past it, and a slippage of five per cent.
theorem executableSize_exact_limit :
    let book : MapBook := (((BasicL2Book.new ⟨bytes "BTC/USD", 1, 8⟩).apply .ask ⟨100⟩ ⟨3⟩).1.apply
      .ask ⟨105⟩ ⟨4⟩).1.apply .ask ⟨106⟩ ⟨9⟩ |>.1
    (0 : CentiBps) ≤ 50000 ∧
      SizeExact (book.levels .ask) .ask (50000 : CentiBps).toInt (executableSize book .ask 50000) :=
  ⟨by decide, executableSize_exact _
    (.apply _ _ _ (.apply _ _ _ (.apply _ _ _ (BasicL2Book.built_new _)))) .ask 50000 (by decide)⟩

end Answer

end Crossbook
