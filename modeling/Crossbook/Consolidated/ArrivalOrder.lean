import Crossbook.Consolidated.BestExecution

set_option autoImplicit false

namespace Crossbook.ConsolidatedBook

structure SameDecisions (S : Type) [SideImpl S] (a b : ConsolidatedBook) : Prop where
  ranked : ∀ side now, a.ranked side now = b.ranked side now
  best : ∀ side now, a.best side now = b.best side now
  spreadTicks : ∀ now, a.spreadTicks now = b.spreadTicks now
  spread : ∀ now, a.spread now = b.spread now
  crossed : ∀ now, a.crossed now = b.crossed now
  bestExecution : ∀ side wanted now (books : Bytes → Option (BasicL2Book S)),
    bestExecution a side wanted now books = bestExecution b side wanted now books

/-- The ranking lists exactly the priceable quotes, strictly ordered; the best price heads it; the
winner of `bestExecution` comes before every other candidate. -/
structure RanksExactly (S : Type) [SideImpl S] (book : ConsolidatedBook) : Prop where
  listed : ∀ side now, (book.ranked side now).Perm
    ((book.quotes.filter fun quote => book.Priceable side now quote).map (priced side))
  ordered : ∀ side now, (book.ranked side now).Pairwise (RanksBefore side)
  best : ∀ side now, book.best side now = (book.ranked side now).head?
  found : ∀ side wanted now (books : Bytes → Option (BasicL2Book S)),
    (Crossbook.bestExecution book side wanted now books).found = true ↔
      ∃ candidate, IsCandidate book side wanted now books candidate
  winner : ∀ side wanted now (books : Bytes → Option (BasicL2Book S)),
    (Crossbook.bestExecution book side wanted now books).found = true →
      ∃ winner, Wins (Crossbook.bestExecution book side wanted now books) winner ∧
        IsCandidate book side wanted now books winner ∧
        ∀ other, IsCandidate book side wanted now books other →
          other = winner ∨ winner.Before side other

theorem ranksExactly_of_distinct (S : Type) [SideImpl S] {book : ConsolidatedBook}
    (distinct : KeyedList.Distinct VenueQuote.venue book.quotes) : RanksExactly S book where
  listed := book.ranked_perm
  ordered := ranked_sorted distinct
  best := best_eq_head? distinct
  found := bestExecution_found_iff book
  winner := bestExecution_wins distinct

theorem sameDecisions_of_perm (S : Type) [SideImpl S] {a b : ConsolidatedBook}
    (rules : a.SameRules b) (distinct : KeyedList.Distinct VenueQuote.venue a.quotes)
    (quotes : a.quotes.Perm b.quotes) : SameDecisions S a b where
  ranked := rules.ranked distinct quotes
  best := rules.best distinct quotes
  spreadTicks := rules.spreadTicks distinct quotes
  spread := rules.spread distinct quotes
  crossed := rules.crossed distinct quotes
  bestExecution := bestExecution_congr rules distinct quotes

theorem decisions_independent_of_arrival (S : Type) [SideImpl S] (spec : InstrumentSpec)
    (maxAgeNs : Timestamp) (staleness : StalenessPolicy) (first second : List Call)
    (agree : ∀ venue, latest spec first venue = latest spec second venue) :
    let a := first.foldl call (new spec maxAgeNs staleness)
    let b := second.foldl call (new spec maxAgeNs staleness)
    SameDecisions S a b ∧ RanksExactly S a ∧
      KeyedList.Distinct VenueQuote.venue a.quotes ∧
      ∀ quote, quote ∈ a.quotes ↔ latest spec first quote.venue = some quote := by
  intro a b
  have left : a.Mirrors (latest spec first) := mirrors_latest spec maxAgeNs staleness first
  have right : b.Mirrors (latest spec first) := by
    rw [funext agree]
    exact mirrors_latest spec maxAgeNs staleness second
  have leftRules : a.SameRules (new spec maxAgeNs staleness) := run_sameRules _ first
  have rightRules : b.SameRules (new spec maxAgeNs staleness) := run_sameRules _ second
  have rules : a.SameRules b :=
    ⟨leftRules.spec.trans rightRules.spec.symm, leftRules.maxAgeNs.trans rightRules.maxAgeNs.symm,
      leftRules.staleness.trans rightRules.staleness.symm⟩
  exact ⟨sameDecisions_of_perm S rules left.distinct (left.perm right),
    ranksExactly_of_distinct S left.distinct, left.distinct, left.listed⟩

def testSpec : InstrumentSpec := ⟨bytes "BTC/USD", 1, 8⟩

def testQuote (venue : String) (bid ask : Int64) (taker : CentiBps) : VenueQuote where
  venue := bytes venue
  spec := testSpec
  bid := ⟨⟨bid⟩, ⟨100⟩⟩
  ask := ⟨⟨ask⟩, ⟨100⟩⟩
  hasBid := true
  hasAsk := true
  receivedAt := 1
  fees := ⟨taker⟩
  synced := true

-- One venue reconnects in the second history, so that the storage order differs.
def zuluFirst : List Call :=
  [.update (testQuote "zulu" 452835 452836 0), .update (testQuote "alpha" 452835 452836 0)]

def alphaFirst : List Call :=
  [.update (testQuote "zulu" 452834 452836 0), .update (testQuote "alpha" 452835 452836 0),
    .remove (bytes "zulu"), .update (testQuote "zulu" 452835 452836 0)]

theorem decisions_independent_of_arrival_swapped :
    let a := zuluFirst.foldl call (new testSpec kDefaultMaxAgeNs .enforce)
    let b := alphaFirst.foldl call (new testSpec kDefaultMaxAgeNs .enforce)
    a.quotes ≠ b.quotes ∧
      (SameDecisions MapSide a b ∧ RanksExactly MapSide a ∧
        KeyedList.Distinct VenueQuote.venue a.quotes ∧
        ∀ quote, quote ∈ a.quotes ↔ latest testSpec zuluFirst quote.venue = some quote) := by
  intro a b
  refine ⟨by decide +kernel, ?_⟩
  apply decisions_independent_of_arrival
  intro venue
  have accepted (name : String) (bid : Int64) :
      Accepted testSpec (testQuote name bid 452836 0) :=
    ⟨by simp [sameInstrument, testQuote], by simp [testQuote]⟩
  have venue_testQuote (name : String) (bid : Int64) :
      (testQuote name bid 452836 0).venue = bytes name := rfl
  simp only [latest, zuluFirst, alphaFirst, List.foldl_cons, List.foldl_nil, latestStep, accepted,
    venue_testQuote, and_true]
  by_cases zulu : bytes "zulu" = venue
  · have apart : bytes "alpha" ≠ venue := zulu ▸ by decide +kernel
    simp [zulu, apart]
  · simp [zulu]

theorem ranked_omits_a_fitting_price :
    let book := call (new testSpec kDefaultMaxAgeNs .enforce)
      (.update (testQuote "zulu" 1 (2 ^ 62) 2600))
    ¬ (book.ranked .ask 1).Perm
      ((book.quotes.filter fun quote => book.usable quote .ask 1 = true ∧
        Fits (adjustedPrice .ask quote.ask.price.ticks.toInt quote.fees.taker.toInt)).map
          (priced .ask)) := by
  decide +kernel

end Crossbook.ConsolidatedBook
