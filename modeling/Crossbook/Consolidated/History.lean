import Crossbook.Consolidated.Book
import Crossbook.Lib.Run

set_option autoImplicit false

namespace Crossbook

namespace ConsolidatedBook

inductive Call where
  | update (quote : VenueQuote)
  | remove (venue : Bytes)
  deriving DecidableEq, Repr

def call (book : ConsolidatedBook) : Call → ConsolidatedBook
  | .update quote => (book.update quote).1
  | .remove venue => book.remove venue

structure Accepted (spec : InstrumentSpec) (quote : VenueQuote) : Prop where
  instrument : sameInstrument quote.spec spec = true
  taker : 0 ≤ quote.fees.taker.toInt

instance (spec : InstrumentSpec) (quote : VenueQuote) : Decidable (Accepted spec quote) :=
  decidable_of_iff (sameInstrument quote.spec spec = true ∧ 0 ≤ quote.fees.taker.toInt)
    ⟨fun parts => ⟨parts.1, parts.2⟩, fun accepted => ⟨accepted.instrument, accepted.taker⟩⟩

def latestStep (spec : InstrumentSpec) (venue : Bytes) (held : Option VenueQuote) :
    Call → Option VenueQuote
  | .update quote => if quote.venue = venue ∧ Accepted spec quote then some quote else held
  | .remove gone => if gone = venue then none else held

/-- The latest accepted quote of a venue, unless it was removed after. -/
def latest (spec : InstrumentSpec) (history : List Call) (venue : Bytes) : Option VenueQuote :=
  history.foldl (latestStep spec venue) none

structure Mirrors (book : ConsolidatedBook) (held : Bytes → Option VenueQuote) : Prop where
  distinct : KeyedList.Distinct VenueQuote.venue book.quotes
  listed : ∀ quote, quote ∈ book.quotes ↔ held quote.venue = some quote
  placed : ∀ venue quote, held venue = some quote → quote.venue = venue
  accepted : ∀ quote ∈ book.quotes, Accepted book.spec quote

theorem update_accepted (book : ConsolidatedBook) (quote : VenueQuote)
    (accepted : Accepted book.spec quote) :
    book.update quote =
      ({ book with quotes := KeyedList.put VenueQuote.venue quote book.quotes }, true) := by
  have taker : ¬ quote.fees.taker < 0 := by
    rw [Int64.lt_iff_toInt_lt]
    simpa using accepted.taker
  simp [update, accepted.instrument, taker]

theorem update_refused (book : ConsolidatedBook) (quote : VenueQuote)
    (refused : ¬ Accepted book.spec quote) :
    book.update quote = ({ book with rejectedUpdates := book.rejectedUpdates + 1 }, false) := by
  unfold update
  split
  next => rfl
  next same =>
    have negative : quote.fees.taker < 0 := by
      rw [Int64.lt_iff_toInt_lt]
      by_contra nonnegative
      exact refused ⟨by simpa using same, by simpa using nonnegative⟩
    rw [if_pos negative]

theorem Mirrors.update_step {book : ConsolidatedBook} {held : Bytes → Option VenueQuote}
    (mirrors : book.Mirrors held) (quote : VenueQuote) :
    (book.update quote).1.Mirrors
      (fun venue => latestStep book.spec venue (held venue) (.update quote)) := by
  by_cases accepted : Accepted book.spec quote
  · rw [update_accepted book quote accepted]
    have member := mirrors.distinct.mem_put quote
    refine ⟨mirrors.distinct.put quote, ?_, ?_, ?_⟩
    · intro other
      rw [member, mirrors.listed, latestStep]
      by_cases same : quote.venue = other.venue
      · rw [if_pos ⟨same, accepted⟩, Option.some.injEq]
        constructor
        · rintro (rfl | ⟨-, differ⟩)
          · rfl
          · exact absurd same.symm differ
        · exact fun equal => .inl equal.symm
      · rw [if_neg fun both => same both.1]
        constructor
        · rintro (rfl | ⟨kept, -⟩)
          · exact absurd rfl same
          · exact kept
        · exact fun kept => .inr ⟨kept, Ne.symm same⟩
    · intro venue other stored
      rw [latestStep] at stored
      split at stored
      next both => exact Option.some.inj stored ▸ both.1
      next => exact mirrors.placed venue other stored
    · intro other stored
      rcases (member other).mp stored with rfl | ⟨kept, -⟩
      · exact accepted
      · exact mirrors.accepted other kept
  · rw [update_refused book quote accepted]
    refine ⟨mirrors.distinct, ?_, ?_, mirrors.accepted⟩
    · intro other
      rw [latestStep, if_neg fun both => accepted both.2]
      exact mirrors.listed other
    · intro venue other stored
      rw [latestStep, if_neg fun both => accepted both.2] at stored
      exact mirrors.placed venue other stored

theorem Mirrors.remove_step {book : ConsolidatedBook} {held : Bytes → Option VenueQuote}
    (mirrors : book.Mirrors held) (gone : Bytes) :
    (book.remove gone).Mirrors
      (fun venue => latestStep book.spec venue (held venue) (.remove gone)) := by
  have member := mirrors.distinct.mem_drop gone
  refine ⟨mirrors.distinct.drop gone, ?_, ?_, ?_⟩
  · intro other
    rw [remove, member, mirrors.listed, latestStep]
    by_cases same : gone = other.venue
    · simp [same]
    · simp [same, Ne.symm same]
  · intro venue other stored
    rw [latestStep] at stored
    split at stored
    next => exact absurd stored nofun
    next => exact mirrors.placed venue other stored
  · intro other stored
    exact mirrors.accepted other ((member other).mp stored).1

theorem Mirrors.call_step {book : ConsolidatedBook} {held : Bytes → Option VenueQuote}
    (mirrors : book.Mirrors held) (c : Call) :
    (book.call c).Mirrors (fun venue => latestStep book.spec venue (held venue) c) := by
  cases c with
  | update quote => exact mirrors.update_step quote
  | remove venue => exact mirrors.remove_step venue

structure SameRules (a b : ConsolidatedBook) : Prop where
  spec : a.spec = b.spec
  maxAgeNs : a.maxAgeNs = b.maxAgeNs
  staleness : a.staleness = b.staleness

theorem call_sameRules (book : ConsolidatedBook) (c : Call) : (book.call c).SameRules book := by
  cases c with
  | update quote =>
    by_cases accepted : Accepted book.spec quote
    · rw [call, update_accepted book quote accepted]
      exact ⟨rfl, rfl, rfl⟩
    · rw [call, update_refused book quote accepted]
      exact ⟨rfl, rfl, rfl⟩
  | remove venue => exact ⟨rfl, rfl, rfl⟩

theorem run_sameRules (book : ConsolidatedBook) (history : List Call) :
    (history.foldl call book).SameRules book := by
  refine Run.foldl_invariant (P := fun reached : ConsolidatedBook => reached.SameRules book) ?_ history
    ⟨rfl, rfl, rfl⟩
  intro reached c same
  have kept := call_sameRules reached c
  exact ⟨kept.spec.trans same.spec, kept.maxAgeNs.trans same.maxAgeNs,
    kept.staleness.trans same.staleness⟩

theorem Mirrors.run {book : ConsolidatedBook} {held : Bytes → Option VenueQuote}
    (mirrors : book.Mirrors held) (history : List Call) :
    (history.foldl call book).Mirrors
      (fun venue => history.foldl (latestStep book.spec venue) (held venue)) := by
  induction history generalizing book held with
  | nil => exact mirrors
  | cons c rest ih =>
    have later := ih (mirrors.call_step c)
    rwa [(call_sameRules book c).spec] at later

theorem mirrors_latest (spec : InstrumentSpec) (maxAgeNs : Timestamp)
    (staleness : StalenessPolicy) (history : List Call) :
    (history.foldl call (new spec maxAgeNs staleness)).Mirrors (latest spec history) := by
  have fresh : (new spec maxAgeNs staleness).Mirrors (fun _ => none) :=
    ⟨List.nodup_nil, by simp [new], nofun, by simp [new]⟩
  exact fresh.run history

theorem Mirrors.perm {a b : ConsolidatedBook} {held : Bytes → Option VenueQuote}
    (left : a.Mirrors held) (right : b.Mirrors held) : a.quotes.Perm b.quotes :=
  left.distinct.perm right.distinct fun quote =>
    (left.listed quote).trans (right.listed quote).symm

end ConsolidatedBook

end Crossbook
