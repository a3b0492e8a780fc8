import Crossbook.Consolidated.Fees
import Crossbook.Consolidated.History

set_option autoImplicit false

namespace Crossbook

def BetterThen (side : Side) (price other : Int64) (venue otherVenue : Bytes) : Prop :=
  precedes side price other = true ∨ price = other ∧ venue < otherVenue

namespace BetterThen

variable {side : Side}

theorem irrefl (price : Int64) (venue : Bytes) : ¬ BetterThen side price price venue venue := by
  rintro (better | ⟨-, smaller⟩)
  · simp [precedes_irrefl] at better
  · exact List.lt_irrefl venue smaller

theorem trans {a b c : Int64} {x y z : Bytes} (left : BetterThen side a b x y)
    (right : BetterThen side b c y z) : BetterThen side a c x z := by
  rcases left with better | ⟨rfl, smaller⟩ <;> rcases right with later | ⟨rfl, larger⟩
  · exact .inl (precedes_trans side a b c better later)
  · exact .inl better
  · exact .inl later
  · exact .inr ⟨rfl, List.lt_trans smaller larger⟩

theorem total {a b : Int64} {x y : Bytes} (differ : x ≠ y) :
    BetterThen side a b x y ∨ BetterThen side b a y x := by
  rcases eq_or_ne a b with rfl | apart
  · by_cases smaller : x < y
    · exact .inl (.inr ⟨rfl, smaller⟩)
    · exact .inr (.inr ⟨rfl, Std.lt_of_le_of_ne (List.not_lt.mp smaller) differ.symm⟩)
  · exact (precedes_total side a b apart).imp .inl .inl

end BetterThen

def RanksBefore (side : Side) (a b : EffectivePrice) : Prop :=
  BetterThen side a.effective.ticks b.effective.ticks a.venue b.venue

theorem ranksAfter_iff (side : Side) (a b : EffectivePrice) :
    ranksAfter side a b = true ↔ RanksBefore side b a := by
  unfold ranksAfter RanksBefore BetterThen
  split
  next differ =>
    have apart : ¬ b.effective.ticks = a.effective.ticks := Ne.symm differ
    cases side <;> simp [precedes, apart]
  next same =>
    have tie : b.effective.ticks = a.effective.ticks := (not_not.mp same).symm
    simp [tie, precedes_irrefl]

theorem ranksAfter_strict (side : Side) : Ranking.StrictOrder (ranksAfter side) where
  irrefl a := by
    by_contra related
    exact BetterThen.irrefl _ _ ((ranksAfter_iff side a a).mp (by simpa using related))
  trans a b c left right := by
    rw [ranksAfter_iff] at left right ⊢
    exact BetterThen.trans right left

namespace ConsolidatedBook

theorem venue_effectivePrice {book : ConsolidatedBook} {side : Side} {now : Timestamp}
    {quote : VenueQuote} {price : EffectivePrice}
    (ranked : book.effectivePrice side now quote = some price) : price.venue = quote.venue := by
  unfold effectivePrice at ranked
  split at ranked
  next => exact absurd ranked nofun
  next =>
    obtain ⟨effective, -, rfl⟩ := Option.map_eq_some_iff.mp ranked
    rfl

def prices (book : ConsolidatedBook) (side : Side) (now : Timestamp) : List EffectivePrice :=
  book.quotes.filterMap (book.effectivePrice side now)

theorem prices_untied {book : ConsolidatedBook}
    (distinct : KeyedList.Distinct VenueQuote.venue book.quotes) (side : Side)
    (now : Timestamp) : Ranking.Untied (ranksAfter side) (book.prices side now) := by
  have venues := distinct.filterMap (fun _ _ ranked => venue_effectivePrice ranked)
    (f := book.effectivePrice side now)
  refine (List.pairwise_map.mp venues).imp ?_
  intro a b differ
  rw [ranksAfter_iff, ranksAfter_iff]
  exact (BetterThen.total differ).symm

theorem best_eq_first (book : ConsolidatedBook) (side : Side) (now : Timestamp) :
    book.best side now = Ranking.first (ranksAfter side) (book.prices side now) := by
  rw [best, prices, Ranking.first, List.foldl_filterMap]
  congr 1
  funext leader quote
  unfold bestStep
  cases book.effectivePrice side now quote <;> rfl

def priced (side : Side) (quote : VenueQuote) : EffectivePrice where
  venue := quote.venue
  quoted := (quote.level side).price
  effective := ⟨Int64.ofInt
    (adjustedPrice side (quote.level side).price.ticks.toInt quote.fees.taker.toInt)⟩
  size := (quote.level side).qty

structure Priceable (book : ConsolidatedBook) (side : Side) (now : Timestamp)
    (quote : VenueQuote) : Prop where
  usable : book.usable quote side now = true
  fee : FeeFits side (quote.level side).price.ticks quote.fees.taker

instance (book : ConsolidatedBook) (side : Side) (now : Timestamp) (quote : VenueQuote) :
    Decidable (book.Priceable side now quote) :=
  decidable_of_iff (book.usable quote side now = true ∧
      FeeFits side (quote.level side).price.ticks quote.fees.taker)
    ⟨fun parts => ⟨parts.1, parts.2⟩, fun priceable => ⟨priceable.usable, priceable.fee⟩⟩

theorem effectivePrice_eq (book : ConsolidatedBook) (side : Side) (now : Timestamp)
    (quote : VenueQuote) :
    book.effectivePrice side now quote =
      if book.Priceable side now quote then some (priced side quote) else none := by
  unfold effectivePrice
  by_cases usable : book.usable quote side now = true
  · rw [if_neg (by simp [usable])]
    by_cases fee : FeeFits side (quote.level side).price.ticks quote.fees.taker
    · have applied := (applyTakerFee_eq_some _ side quote.fees _).mpr
        ⟨fee, toInt_ofInt_of_fits fee.adjusted⟩
      rw [applied, if_pos ⟨usable, fee⟩]
      rfl
    · have refused : applyTakerFee (quote.level side).price.ticks side quote.fees = none := by
        apply Option.eq_none_iff_forall_ne_some.mpr
        intro effective applied
        exact fee ((applyTakerFee_eq_some _ side quote.fees effective).mp applied).1
      rw [refused, if_neg fun priceable => fee priceable.fee]
      rfl
  · rw [if_pos (by simpa using usable), if_neg fun priceable => usable priceable.usable]

theorem prices_eq (book : ConsolidatedBook) (side : Side) (now : Timestamp) :
    book.prices side now =
      (book.quotes.filter (fun quote => book.Priceable side now quote)).map (priced side) := by
  rw [prices, ← List.filterMap_eq_map, ← List.filterMap_eq_filter, List.filterMap_filterMap]
  congr 1
  funext quote
  rw [effectivePrice_eq]
  by_cases priceable : book.Priceable side now quote <;> simp [Option.guard, priceable]

theorem ranked_perm (book : ConsolidatedBook) (side : Side) (now : Timestamp) :
    (book.ranked side now).Perm
      ((book.quotes.filter (fun quote => book.Priceable side now quote)).map (priced side)) := by
  rw [← prices_eq]
  exact Ranking.insertionSort_perm _ _

section Distinct

variable {book : ConsolidatedBook}
  (distinct : KeyedList.Distinct VenueQuote.venue book.quotes) (side : Side) (now : Timestamp)

include distinct

theorem ranked_sorted : (book.ranked side now).Pairwise (RanksBefore side) := by
  have sorted := Ranking.insertionSort_sorted (ranksAfter_strict side) _
    (prices_untied distinct side now)
  exact sorted.imp fun {a b} later => (ranksAfter_iff side b a).mp later

theorem best_eq_head? : book.best side now = (book.ranked side now).head? := by
  rw [best_eq_first]
  exact Ranking.first_eq_head? (ranksAfter_strict side) _ (prices_untied distinct side now)

end Distinct

section Agreement

variable {a b : ConsolidatedBook} (rules : a.SameRules b)

include rules

theorem SameRules.timestampFresh (stampedAt now : Timestamp) :
    a.timestampFresh stampedAt now = b.timestampFresh stampedAt now := by
  rw [ConsolidatedBook.timestampFresh, ConsolidatedBook.timestampFresh, rules.maxAgeNs,
    rules.staleness]

theorem SameRules.usable (quote : VenueQuote) (side : Side) (now : Timestamp) :
    a.usable quote side now = b.usable quote side now := by
  rw [ConsolidatedBook.usable, ConsolidatedBook.usable, rules.spec, rules.timestampFresh]

theorem SameRules.prices_perm (quotes : a.quotes.Perm b.quotes) (side : Side) (now : Timestamp) :
    (a.prices side now).Perm (b.prices side now) := by
  have same : a.effectivePrice side now = b.effectivePrice side now := by
    funext quote
    rw [effectivePrice, effectivePrice, rules.usable]
  rw [prices, prices, same]
  exact quotes.filterMap _

variable (distinct : KeyedList.Distinct VenueQuote.venue a.quotes) (quotes : a.quotes.Perm b.quotes)

include distinct quotes

theorem SameRules.ranked (side : Side) (now : Timestamp) : a.ranked side now = b.ranked side now :=
  Ranking.insertionSort_congr (ranksAfter_strict side) (prices_untied distinct side now)
    (rules.prices_perm quotes side now)

theorem SameRules.best (side : Side) (now : Timestamp) : a.best side now = b.best side now := by
  rw [best_eq_first, best_eq_first]
  exact Ranking.first_congr (ranksAfter_strict side) (prices_untied distinct side now)
    (rules.prices_perm quotes side now)

theorem SameRules.spreadTicks (now : Timestamp) : a.spreadTicks now = b.spreadTicks now := by
  simp only [ConsolidatedBook.spreadTicks, rules.best distinct quotes]

theorem SameRules.spread (now : Timestamp) : a.spread now = b.spread now := by
  simp only [ConsolidatedBook.spread, rules.best distinct quotes]

theorem SameRules.crossed (now : Timestamp) : a.crossed now = b.crossed now := by
  simp only [ConsolidatedBook.crossed, rules.best distinct quotes]

end Agreement

end ConsolidatedBook

end Crossbook
