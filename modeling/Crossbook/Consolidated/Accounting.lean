import Crossbook.Consolidated.ArrivalOrder

set_option autoImplicit false

namespace Crossbook

section Accounting

variable {S : Type} [SideImpl S] (consolidated : ConsolidatedBook) (side : Side) (wanted : Qty)
  (now : Timestamp) (books : Bytes → Option (BasicL2Book S))

def usableQuotes : List VenueQuote :=
  consolidated.quotes.filter fun quote => consolidated.usable quote side now

theorem judge_accounts (quote : VenueQuote) :
    (judge consolidated side wanted now books quote).rejected +
        (judge consolidated side wanted now books quote).candidate.toList.length =
      if consolidated.usable quote side now = true ∧ (books quote.venue).isSome = true
      then 1 else 0 := by
  unfold judge
  by_cases usable : consolidated.usable quote side now = true
  · cases supplied : books quote.venue with
    | none => simp [usable]
    | some book =>
      simp only [usable, Bool.true_eq_false, if_false, Option.isSome_some, and_self, if_true]
      split
      next => rfl
      next =>
        split
        next => rfl
        next =>
          split
          next => rfl
          next =>
            cases applyTakerFee (costToTrade book side wanted).vwap.ticks side quote.fees <;> rfl
  · simp [usable]

def booklessQuotes : List VenueQuote :=
  (usableQuotes consolidated side now).filter fun quote => (books quote.venue).isNone

theorem usableQuotes_length :
    (usableQuotes consolidated side now).length =
      (candidates consolidated side wanted now books).length +
        (bestExecution consolidated side wanted now books).venuesRejected +
          (booklessQuotes consolidated side now books).length := by
  have rejected : (bestExecution consolidated side wanted now books).venuesRejected =
      (consolidated.quotes.map fun quote =>
        (judge consolidated side wanted now books quote).rejected).sum := by
    rw [bestExecution_eq]
    cases Ranking.first (Candidate.losesTo side)
      (candidates consolidated side wanted now books) <;> rfl
  rw [rejected]
  unfold usableQuotes candidates booklessQuotes usableQuotes
  induction consolidated.quotes with
  | nil => rfl
  | cons quote rest ih =>
    have verdict := judge_accounts consolidated side wanted now books quote
    simp only [List.filter_cons, List.filterMap_cons, List.map_cons, List.sum_cons]
    cases found : (judge consolidated side wanted now books quote).candidate <;>
      cases usable : consolidated.usable quote side now <;>
        cases supplied : books quote.venue <;>
          simp only [found, usable, supplied, Option.toList_none, Option.toList_some,
            List.length_nil, Option.isSome_none, Option.isSome_some,
            Option.isNone_none, Option.isNone_some, Bool.false_eq_true, and_self, and_false,
            false_and, if_true, if_false, List.length_cons, List.filter_cons] at verdict ⊢ <;>
          omega

/-- The books answer for every usable venue exactly where the counters add up. -/
theorem bestExecution_accounts_iff :
    ((usableQuotes consolidated side now).length =
        (candidates consolidated side wanted now books).length +
          (bestExecution consolidated side wanted now books).venuesRejected ↔
      ∀ quote ∈ consolidated.quotes, consolidated.usable quote side now = true →
        books quote.venue ≠ none) ∧
    ((bestExecution consolidated side wanted now books).found = true ↔
      ∃ candidate, IsCandidate consolidated side wanted now books candidate) := by
  have total := usableQuotes_length consolidated side wanted now books
  refine ⟨?_, bestExecution_found_iff consolidated side wanted now books⟩
  have none : (booklessQuotes consolidated side now books).length = 0 ↔
      ∀ quote ∈ consolidated.quotes, consolidated.usable quote side now = true →
        books quote.venue ≠ none := by
    rw [List.length_eq_zero_iff, booklessQuotes, List.filter_eq_nil_iff]
    simp [usableQuotes]
  rw [← none]
  omega

end Accounting

-- A usable quote without a book is neither a candidate nor counted as rejected.
theorem bestExecution_skips_bookless :
    let consolidated := [ConsolidatedBook.Call.update
        (ConsolidatedBook.testQuote "kraken" 452800 452835 0)].foldl ConsolidatedBook.call
      (ConsolidatedBook.new ConsolidatedBook.testSpec 0 .disabled)
    let books : Bytes → Option MapBook := fun _ => none
    (usableQuotes consolidated .ask 7).length ≠
      (candidates consolidated .ask ⟨4⟩ 7 books).length +
        (bestExecution consolidated .ask ⟨4⟩ 7 books).venuesRejected := by
  decide +kernel

end Crossbook
