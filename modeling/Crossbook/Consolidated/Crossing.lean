import Crossbook.Consolidated.ArrivalOrder

set_option autoImplicit false

namespace Crossbook

structure MidpointExact (bid ask : Int64) (ratio : CentiBps) : Prop where
  delta : (ask - bid).toInt = ask.toInt - bid.toInt
  half : ((ask - bid) / 2).toInt = (ask.toInt - bid.toInt).tdiv 2
  mid : (bid + (ask - bid) / 2).toInt = bid.toInt + (ask.toInt - bid.toInt).tdiv 2
  low : min bid.toInt ask.toInt ≤ (bid + (ask - bid) / 2).toInt
  high : (bid + (ask - bid) / 2).toInt ≤ max bid.toInt ask.toInt
  positive : 0 < (bid + (ask - bid) / 2).toInt
  ratio : ratio.toInt =
    ((ask.toInt - bid.toInt) * 1000000).tdiv (bid + (ask - bid) / 2).toInt

section Midpoint

variable {bid ask : Int64}

theorem checkedSubSigned_value {delta : Int64} (computed : checkedSubSigned ask bid = some delta) :
    delta = ask - bid ∧ delta.toInt = ask.toInt - bid.toInt := by
  obtain ⟨fits, value⟩ := (checkedSubSigned_eq_some ask bid delta).mp computed
  have exact_ := MachineInt.toInt_sub_of_fits ask bid fits.1 fits.2
  exact ⟨Int64.toInt_inj.mp (value.trans exact_.symm), value⟩

theorem toInt_half (delta : Int64) : (delta / 2).toInt = delta.toInt.tdiv 2 :=
  toInt_div_of_pos delta 2 (by decide)

theorem tdiv_two_between (delta : Int) :
    min 0 delta ≤ delta.tdiv 2 ∧ delta.tdiv 2 ≤ max 0 delta := by
  rw [Int.tdiv_eq_ediv]
  have unit : Int.sign 2 = 1 := rfl
  rw [unit]
  split <;> omega

theorem midpoint_between {delta : Int64} (computed : checkedSubSigned ask bid = some delta) :
    (bid + delta / 2).toInt = bid.toInt + (ask.toInt - bid.toInt).tdiv 2 ∧
      min bid.toInt ask.toInt ≤ (bid + delta / 2).toInt ∧
        (bid + delta / 2).toInt ≤ max bid.toInt ask.toInt := by
  -- The midpoint is anchored on the bid, so no step of it leaves the word.
  obtain ⟨-, value⟩ := checkedSubSigned_value computed
  have half := toInt_half delta
  have inside := tdiv_two_between (ask.toInt - bid.toInt)
  have low := bid.le_toInt
  have high := bid.toInt_lt
  have bottom := ask.le_toInt
  have top := ask.toInt_lt
  rw [value] at half
  rw [MachineInt.toInt_add_of_fits _ _ (by omega) (by omega), half]
  exact ⟨rfl, by omega, by omega⟩

theorem tdiv_sign (num : Int) {den : Int} (positive : 0 < den) :
    (0 < num.tdiv den → 0 < num) ∧ (num.tdiv den < 0 → num < 0) := by
  constructor
  · intro above
    by_contra below
    have mirrored := Int.tdiv_nonneg (a := -num) (b := den) (by omega) positive.le
    rw [Int.neg_tdiv] at mirrored
    omega
  · intro below
    by_contra above
    have nonneg := Int.tdiv_nonneg (a := num) (b := den) (by omega) positive.le
    omega

end Midpoint

namespace ConsolidatedBook

variable (book : ConsolidatedBook) (now : Timestamp)

theorem crossed_of_best {bid ask : EffectivePrice} (bestBid : book.best .bid now = some bid)
    (bestAsk : book.best .ask now = some ask) :
    book.crossed now = true ↔ ask.effective.ticks.toInt ≤ bid.effective.ticks.toInt := by
  unfold crossed
  rw [bestBid, bestAsk]
  simp only [decide_eq_true_eq, Int64.le_iff_toInt_le]

theorem spreadTicks_eq_some {ticks : Int64} (answered : book.spreadTicks now = some ticks) :
    ∃ bid ask, book.best .bid now = some bid ∧ book.best .ask now = some ask ∧
      checkedSubSigned ask.effective.ticks bid.effective.ticks = some ticks := by
  unfold spreadTicks at answered
  cases bestBid : book.best .bid now with
  | none => simp [bestBid] at answered
  | some bid =>
    cases bestAsk : book.best .ask now with
    | none => simp [bestBid, bestAsk] at answered
    | some ask =>
      rw [bestBid, bestAsk] at answered
      exact ⟨bid, ask, rfl, rfl, answered⟩

theorem spread_eq_some {ratio : CentiBps} (answered : book.spread now = some ratio) :
    ∃ bid ask, book.best .bid now = some bid ∧ book.best .ask now = some ask ∧
      MidpointExact bid.effective.ticks ask.effective.ticks ratio := by
  unfold spread at answered
  cases bestBid : book.best .bid now with
  | none => simp [bestBid] at answered
  | some bid =>
    cases bestAsk : book.best .ask now with
    | none => simp [bestBid, bestAsk] at answered
    | some ask =>
      rw [bestBid, bestAsk] at answered
      obtain ⟨delta, computed, rest⟩ := Option.bind_eq_some_iff.mp answered
      obtain ⟨same, value⟩ := checkedSubSigned_value computed
      obtain ⟨mid, low, high⟩ := midpoint_between computed
      have half := toInt_half delta
      dsimp only at rest
      split at rest
      next => exact absurd rest nofun
      next above =>
        obtain ⟨scaled, multiplied, divided⟩ := Option.map_eq_some_iff.mp rest
        obtain ⟨-, product⟩ := (checkedMulSigned_eq_some _ _ _).mp multiplied
        have positive : 0 < (bid.effective.ticks + delta / 2).toInt := by
          rw [Int64.le_iff_toInt_le, Int64.toInt_zero] at above
          omega
        have million : (1000000 : Int64).toInt = 1000000 := rfl
        refine ⟨bid, ask, rfl, rfl, ?_⟩
        rw [value] at half product
        rw [million] at product
        rw [← divided]
        subst same
        refine ⟨value, half, mid, low, high, positive, ?_⟩
        rw [toInt_div_of_pos _ _ positive, product]

/-- The three answers about one pair of best prices. -/
theorem spread_consistent :
    (∀ ticks, book.spreadTicks now = some ticks →
      ∃ bid ask, book.best .bid now = some bid ∧ book.best .ask now = some ask ∧
        ticks.toInt = ask.effective.ticks.toInt - bid.effective.ticks.toInt ∧
          (book.crossed now = true ↔ ticks ≤ 0)) ∧
    (∀ ratio, book.spread now = some ratio →
      (0 < ratio → book.crossed now = false) ∧ (ratio < 0 → book.crossed now = true) ∧
        ∃ bid ask, book.best .bid now = some bid ∧ book.best .ask now = some ask ∧
          MidpointExact bid.effective.ticks ask.effective.ticks ratio) ∧
    (∀ bid ask delta : Int64, checkedSubSigned ask bid = some delta →
      (bid + delta / 2).toInt = bid.toInt + (ask.toInt - bid.toInt).tdiv 2 ∧
        min bid.toInt ask.toInt ≤ (bid + delta / 2).toInt ∧
          (bid + delta / 2).toInt ≤ max bid.toInt ask.toInt) := by
  refine ⟨fun ticks answered => ?_, fun ratio answered => ?_, fun _ _ _ => midpoint_between⟩
  · obtain ⟨bid, ask, bestBid, bestAsk, computed⟩ := book.spreadTicks_eq_some now answered
    obtain ⟨-, value⟩ := checkedSubSigned_value computed
    refine ⟨bid, ask, bestBid, bestAsk, value, ?_⟩
    rw [book.crossed_of_best now bestBid bestAsk, Int64.le_iff_toInt_le, value, Int64.toInt_zero]
    omega
  · obtain ⟨bid, ask, bestBid, bestAsk, exact_⟩ := book.spread_eq_some now answered
    have sign := tdiv_sign ((ask.effective.ticks.toInt - bid.effective.ticks.toInt) * 1000000)
      exact_.positive
    rw [← exact_.ratio] at sign
    have crossed := book.crossed_of_best now bestBid bestAsk
    refine ⟨fun above => ?_, fun below => ?_, bid, ask, bestBid, bestAsk, exact_⟩
    · have apart := sign.1 (by simpa using Int64.lt_iff_toInt_lt.mp above)
      rw [← Bool.not_eq_true, crossed]
      omega
    · have apart := sign.2 (by simpa using Int64.lt_iff_toInt_lt.mp below)
      rw [crossed]
      omega

-- Thirty-five ticks between two venues, less than a basis point.
theorem spread_consistent_healthy :
    let book := [Call.update (testQuote "kraken" 452800 452850 0),
      .update (testQuote "alpha" 452790 452835 0)].foldl call (new testSpec 0 .disabled)
    book.spreadTicks 7 = some 35 ∧ book.spread 7 = some 77 ∧
      (book.crossed 7 = true ↔ (35 : Int64) ≤ 0) ∧ book.crossed 7 = false := by
  intro book
  have ticks : book.spreadTicks 7 = some 35 := by decide +kernel
  have ratio : book.spread 7 = some 77 := by decide +kernel
  obtain ⟨_, _, -, -, -, agree⟩ := (spread_consistent book 7).1 35 ticks
  exact ⟨ticks, ratio, agree, ((spread_consistent book 7).2.1 77 ratio).1 (by decide)⟩

def Crosses (bidder asker : VenueQuote) : Prop :=
  ∃ bid ask, book.effectivePrice .bid now bidder = some bid ∧
    book.effectivePrice .ask now asker = some ask ∧
      ask.effective.ticks.toInt ≤ bid.effective.ticks.toInt

def CrossedByTwo : Prop :=
  ∃ bidder ∈ book.quotes, ∃ asker ∈ book.quotes, bidder.venue ≠ asker.venue ∧
    book.Crosses now bidder asker

variable {book now}

theorem best_none {side : Side} (none : book.best side now = none) (quote : VenueQuote)
    (listed : quote ∈ book.quotes) : book.effectivePrice side now quote = .none := by
  rw [best_eq_first, Ranking.first_eq_none, prices, List.filterMap_eq_nil_iff] at none
  exact none quote listed

theorem best_some {side : Side} {leader : EffectivePrice}
    (distinct : KeyedList.Distinct VenueQuote.venue book.quotes)
    (best : book.best side now = some leader) :
    (∃ quote ∈ book.quotes, book.effectivePrice side now quote = some leader) ∧
      ∀ other ∈ book.quotes, ∀ price, book.effectivePrice side now other = some price →
        precedes side price.effective.ticks leader.effective.ticks = false := by
  rw [best_eq_first] at best
  obtain ⟨listed, ahead⟩ := Ranking.first_eq_some (ranksAfter_strict side) _
    (prices_untied distinct side now) leader best
  refine ⟨List.mem_filterMap.mp listed, fun other inside price ranked => ?_⟩
  rcases ahead price (List.mem_filterMap.mpr ⟨other, inside, ranked⟩) with rfl | later
  · exact precedes_irrefl side _
  · rcases (ranksAfter_iff side price leader).mp later with better | ⟨tie, -⟩
    · by_contra also
      have loop := precedes_trans side _ _ _ better (by simpa using also)
      simp [precedes_irrefl] at loop
    · rw [tie]
      exact precedes_irrefl side _

theorem crossed_iff (distinct : KeyedList.Distinct VenueQuote.venue book.quotes) :
    book.crossed now = true ↔
      ∃ bidder ∈ book.quotes, ∃ asker ∈ book.quotes, book.Crosses now bidder asker := by
  constructor
  · intro crossed
    cases bestBid : book.best .bid now with
    | none => simp [ConsolidatedBook.crossed, bestBid] at crossed
    | some bid =>
      cases bestAsk : book.best .ask now with
      | none => simp [ConsolidatedBook.crossed, bestBid, bestAsk] at crossed
      | some ask =>
        obtain ⟨bidder, inside, priced⟩ := (best_some distinct bestBid).1
        obtain ⟨asker, listed, offered⟩ := (best_some distinct bestAsk).1
        exact ⟨bidder, inside, asker, listed, bid, ask, priced, offered,
          (book.crossed_of_best now bestBid bestAsk).mp crossed⟩
  · rintro ⟨bidder, inside, asker, listed, bid, ask, priced, offered, meets⟩
    cases bestBid : book.best .bid now with
    | none => simp [best_none bestBid bidder inside] at priced
    | some high =>
      cases bestAsk : book.best .ask now with
      | none => simp [best_none bestAsk asker listed] at offered
      | some low =>
        have above := (best_some distinct bestBid).2 bidder inside bid priced
        have below := (best_some distinct bestAsk).2 asker listed ask offered
        rw [book.crossed_of_best now bestBid bestAsk]
        simp only [precedes, decide_eq_false_iff_not, Int64.lt_iff_toInt_lt] at above below
        omega

/-- A venue whose own quote is locked or inverted also meets the quote of another venue. -/
def SelfCrossedMeets (book : ConsolidatedBook) (now : Timestamp) : Prop :=
  ∀ quote ∈ book.quotes, book.Crosses now quote quote →
    ∃ other ∈ book.quotes, other.venue ≠ quote.venue ∧
      (book.Crosses now quote other ∨ book.Crosses now other quote)

theorem crosses_either {quote bidder asker : VenueQuote} (own : book.Crosses now quote quote)
    (two : book.Crosses now bidder asker) :
    book.Crosses now quote asker ∨ book.Crosses now bidder quote := by
  obtain ⟨bid, ask, bids, asks, meets⟩ := own
  obtain ⟨high, low, highs, lows, above⟩ := two
  -- An ask out of the bidder's reach is above the other pair's ask too.
  by_cases reaches : ask.effective.ticks.toInt ≤ high.effective.ticks.toInt
  · exact .inr ⟨high, ask, highs, asks, reaches⟩
  · exact .inl ⟨bid, low, bids, lows, by omega⟩

theorem crossed_two_venues_iff (spec : InstrumentSpec) (maxAgeNs : Timestamp)
    (staleness : StalenessPolicy) (history : List Call) (now : Timestamp) :
    let book := history.foldl call (new spec maxAgeNs staleness)
    (book.crossed now = true → book.CrossedByTwo now) ↔ book.SelfCrossedMeets now := by
  intro book
  have distinct : KeyedList.Distinct VenueQuote.venue book.quotes :=
    (mirrors_latest spec maxAgeNs staleness history).distinct
  constructor
  · intro two quote inside own
    obtain ⟨bidder, bids, asker, asks, apart, meets⟩ :=
      two ((crossed_iff distinct).mpr ⟨quote, inside, quote, inside, own⟩)
    by_cases same : bidder.venue = quote.venue
    · obtain rfl := distinct.eq_of_key bids inside same
      exact ⟨asker, asks, Ne.symm apart, .inl meets⟩
    · by_cases also : asker.venue = quote.venue
      · obtain rfl := distinct.eq_of_key asks inside also
        exact ⟨bidder, bids, same, .inr meets⟩
      · rcases crosses_either own meets with reaches | reached
        · exact ⟨asker, asks, also, .inl reaches⟩
        · exact ⟨bidder, bids, same, .inr reached⟩
  · intro meets crossed
    obtain ⟨bidder, bids, asker, asks, crosses⟩ := (crossed_iff distinct).mp crossed
    by_cases same : bidder.venue = asker.venue
    · obtain rfl := distinct.eq_of_key bids asks same
      obtain ⟨other, listed, apart, either⟩ := meets bidder bids crosses
      rcases either with reaches | reached
      · exact ⟨bidder, bids, other, listed, Ne.symm apart, reaches⟩
      · exact ⟨other, listed, bidder, bids, apart, reached⟩
    · exact ⟨bidder, bids, asker, asks, same, crosses⟩

-- One venue with a locked quote crosses the market by itself.
theorem crossed_single_venue :
    let book := [Call.update (testQuote "kraken" 452835 452835 0)].foldl call
      (new testSpec 0 .disabled)
    book.crossed 7 = true ∧ ¬ book.CrossedByTwo 7 := by
  intro book
  refine ⟨by decide +kernel, ?_⟩
  rintro ⟨bidder, bids, asker, asks, apart, -⟩
  have only : book.quotes = [testQuote "kraken" 452835 452835 0] := by decide +kernel
  rw [only, List.mem_singleton] at bids asks
  exact apart (by rw [bids, asks])

end ConsolidatedBook

end Crossbook
