import Crossbook.Consolidated.Ranked

set_option autoImplicit false

namespace Crossbook

/-- A venue's answer to `bestExecution`: what filling the size there would cost. -/
structure Candidate where
  venue : Bytes
  execution : Execution
  effective : Int64
  deriving DecidableEq, Repr

namespace Candidate

def complete (candidate : Candidate) : Bool := !candidate.execution.depthExhausted

/-- Complete fills first, then the better effective vwap, then the smaller venue name. -/
def Before (side : Side) (a b : Candidate) : Prop :=
  a.complete = true ∧ b.complete = false ∨
    a.complete = b.complete ∧ BetterThen side a.effective b.effective a.venue b.venue

def losesTo (side : Side) (held candidate : Candidate) : Bool :=
  if candidate.complete ≠ held.complete then candidate.complete
  else if candidate.effective ≠ held.effective then
    match side with
    | .ask => decide (candidate.effective < held.effective)
    | .bid => decide (held.effective < candidate.effective)
  else decide (candidate.venue < held.venue)

theorem losesTo_iff (side : Side) (held candidate : Candidate) :
    held.losesTo side candidate = true ↔ candidate.Before side held := by
  unfold losesTo Before BetterThen
  by_cases together : candidate.complete = held.complete
  · rw [if_neg (not_not.mpr together)]
    by_cases tie : candidate.effective = held.effective
    · simp [together, tie, precedes_irrefl]
    · cases side <;> simp [together, tie, precedes]
  · rw [if_pos together]
    cases full : candidate.complete <;> cases other : held.complete <;>
      simp [full, other] at together ⊢

theorem losesTo_strict (side : Side) : Ranking.StrictOrder (losesTo side) where
  irrefl a := by
    by_contra related
    rcases (losesTo_iff side a a).mp (by simpa using related) with ⟨full, partly⟩ | ⟨-, before⟩
    · simp [full] at partly
    · exact BetterThen.irrefl _ _ before
  trans a b c left right := by
    rw [losesTo_iff] at left right ⊢
    rcases right with ⟨full, partly⟩ | ⟨together, before⟩ <;>
      rcases left with ⟨fuller, lesser⟩ | ⟨alike, later⟩
    · exact .inl ⟨full, lesser⟩
    · exact .inl ⟨full, alike ▸ partly⟩
    · exact .inl ⟨together.trans fuller, lesser⟩
    · exact .inr ⟨together.trans alike, before.trans later⟩

theorem before_total {side : Side} {a b : Candidate} (differ : a.venue ≠ b.venue) :
    a.Before side b ∨ b.Before side a := by
  by_cases together : a.complete = b.complete
  · exact (BetterThen.total differ).imp (fun before => .inr ⟨together, before⟩)
      (fun before => .inr ⟨together.symm, before⟩)
  · unfold Before
    cases full : a.complete <;> cases other : b.complete <;> simp [full, other] at together ⊢

end Candidate

structure Verdict where
  considered : Nat
  rejected : Nat
  candidate : Option Candidate
  deriving DecidableEq, Repr

section Selecting

variable {S : Type} [SideImpl S]

def judge (consolidated : ConsolidatedBook) (side : Side) (wanted : Qty) (now : Timestamp)
    (books : Bytes → Option (BasicL2Book S)) (quote : VenueQuote) : Verdict :=
  if consolidated.usable quote side now = false then ⟨0, 0, none⟩
  else
    match books quote.venue with
    | none => ⟨0, 0, none⟩
    | some book =>
      if sameInstrument book.spec consolidated.spec = false then ⟨0, 1, none⟩
      else if consolidated.timestampFresh book.lastUpdate now = false then ⟨0, 1, none⟩
      else if (costToTrade book side wanted).ok = false then ⟨1, 1, none⟩
      else
        match applyTakerFee (costToTrade book side wanted).vwap.ticks side quote.fees with
        | none => ⟨1, 1, none⟩
        | some effective => ⟨1, 0, some ⟨quote.venue, costToTrade book side wanted, effective⟩⟩

def Selection.ofLeader (considered rejected : Nat) : Option Candidate → Selection
  | none => { best := { venuesConsidered := considered, venuesRejected := rejected } }
  | some leader =>
    { best :=
        { venue := leader.venue
          execution := leader.execution
          effectiveVwap := ⟨leader.effective⟩
          venuesConsidered := considered
          venuesRejected := rejected
          found := true }
      bestEffective := leader.effective
      bestComplete := leader.complete }

namespace Selection

theorem reject_ofLeader (considered rejected : Nat) (leader : Option Candidate) :
    (ofLeader considered rejected leader).reject = ofLeader considered (rejected + 1) leader := by
  cases leader <;> rfl

theorem consider_ofLeader (considered rejected : Nat) (leader : Option Candidate) :
    (ofLeader considered rejected leader).consider = ofLeader (considered + 1) rejected leader := by
  cases leader <;> rfl

theorem offer_ofLeader (considered rejected : Nat) (leader : Option Candidate) (side : Side)
    (candidate : Candidate) :
    (ofLeader considered rejected leader).offer side candidate.venue candidate.execution
        candidate.effective =
      ofLeader considered rejected
        (Ranking.keepFirst (Candidate.losesTo side) leader candidate) := by
  cases leader with
  | none => rfl
  | some held =>
    have same : (ofLeader considered rejected (some held)).better side candidate.venue
        (!candidate.execution.depthExhausted) candidate.effective =
          held.losesTo side candidate := rfl
    rw [offer, same, Ranking.keepFirst]
    split <;> rfl

end Selection

theorem selectStep_ofLeader (consolidated : ConsolidatedBook) (side : Side) (wanted : Qty)
    (now : Timestamp) (books : Bytes → Option (BasicL2Book S)) (considered rejected : Nat)
    (leader : Option Candidate) (quote : VenueQuote) :
    selectStep consolidated side wanted now books (.ofLeader considered rejected leader) quote =
      .ofLeader (considered + (judge consolidated side wanted now books quote).considered)
        (rejected + (judge consolidated side wanted now books quote).rejected)
        ((judge consolidated side wanted now books quote).candidate.toList.foldl
          (Ranking.keepFirst (Candidate.losesTo side)) leader) := by
  -- The loop and `judge` ask the same questions in the same order.
  unfold selectStep judge
  split
  next => rfl
  next =>
    cases books quote.venue with
    | none => rfl
    | some book =>
      dsimp only
      split
      next => exact Selection.reject_ofLeader considered rejected leader
      next =>
        split
        next => exact Selection.reject_ofLeader considered rejected leader
        next =>
          split
          next => rw [Selection.consider_ofLeader, Selection.reject_ofLeader]; rfl
          next =>
            rw [Selection.consider_ofLeader]
            cases applyTakerFee (costToTrade book side wanted).vwap.ticks side quote.fees with
            | none => exact Selection.reject_ofLeader (considered + 1) rejected leader
            | some effective =>
              exact Selection.offer_ofLeader (considered + 1) rejected leader side
                ⟨quote.venue, costToTrade book side wanted, effective⟩

def candidates (consolidated : ConsolidatedBook) (side : Side) (wanted : Qty) (now : Timestamp)
    (books : Bytes → Option (BasicL2Book S)) : List Candidate :=
  consolidated.quotes.filterMap fun quote =>
    (judge consolidated side wanted now books quote).candidate

theorem foldl_selectStep (consolidated : ConsolidatedBook) (side : Side) (wanted : Qty)
    (now : Timestamp) (books : Bytes → Option (BasicL2Book S)) (considered rejected : Nat)
    (leader : Option Candidate) (quotes : List VenueQuote) :
    quotes.foldl (selectStep consolidated side wanted now books)
        (.ofLeader considered rejected leader) =
      .ofLeader
        (considered + (quotes.map fun quote =>
          (judge consolidated side wanted now books quote).considered).sum)
        (rejected + (quotes.map fun quote =>
          (judge consolidated side wanted now books quote).rejected).sum)
        ((quotes.filterMap fun quote =>
          (judge consolidated side wanted now books quote).candidate).foldl
            (Ranking.keepFirst (Candidate.losesTo side)) leader) := by
  induction quotes generalizing considered rejected leader with
  | nil => rfl
  | cons quote rest ih =>
    rw [List.foldl_cons, selectStep_ofLeader, ih, List.map_cons, List.map_cons, List.sum_cons,
      List.sum_cons, Nat.add_assoc, Nat.add_assoc]
    congr 1
    cases held : (judge consolidated side wanted now books quote).candidate <;> simp [held]

theorem bestExecution_eq (consolidated : ConsolidatedBook) (side : Side) (wanted : Qty)
    (now : Timestamp) (books : Bytes → Option (BasicL2Book S)) :
    bestExecution consolidated side wanted now books =
      (Selection.ofLeader
        (consolidated.quotes.map fun quote =>
          (judge consolidated side wanted now books quote).considered).sum
        (consolidated.quotes.map fun quote =>
          (judge consolidated side wanted now books quote).rejected).sum
        (Ranking.first (Candidate.losesTo side)
          (candidates consolidated side wanted now books))).best := by
  have run := foldl_selectStep consolidated side wanted now books 0 0 none consolidated.quotes
  rw [Nat.zero_add, Nat.zero_add] at run
  exact congrArg Selection.best run

end Selecting

section Outcome

variable {S : Type} [SideImpl S]

/-- A venue answers with a candidate: it is usable, its book is the right one and fresh, the walk
fills something and the fee can be applied. -/
structure Answers (consolidated : ConsolidatedBook) (side : Side) (wanted : Qty) (now : Timestamp)
    (books : Bytes → Option (BasicL2Book S)) (quote : VenueQuote) (book : BasicL2Book S)
    (candidate : Candidate) : Prop where
  usable : consolidated.usable quote side now = true
  supplied : books quote.venue = some book
  instrument : sameInstrument book.spec consolidated.spec = true
  fresh : consolidated.timestampFresh book.lastUpdate now = true
  ok : (costToTrade book side wanted).ok = true
  fee : FeeFits side (costToTrade book side wanted).vwap.ticks quote.fees.taker
  venue : candidate.venue = quote.venue
  execution : candidate.execution = costToTrade book side wanted
  effective : candidate.effective.toInt =
    adjustedPrice side candidate.execution.vwap.ticks.toInt quote.fees.taker.toInt

def IsCandidate (consolidated : ConsolidatedBook) (side : Side) (wanted : Qty) (now : Timestamp)
    (books : Bytes → Option (BasicL2Book S)) (candidate : Candidate) : Prop :=
  ∃ quote ∈ consolidated.quotes, ∃ book,
    Answers consolidated side wanted now books quote book candidate

theorem judge_candidate (consolidated : ConsolidatedBook) (side : Side) (wanted : Qty)
    (now : Timestamp) (books : Bytes → Option (BasicL2Book S)) (quote : VenueQuote)
    (candidate : Candidate) :
    (judge consolidated side wanted now books quote).candidate = some candidate ↔
      ∃ book, Answers consolidated side wanted now books quote book candidate := by
  constructor
  · intro judged
    unfold judge at judged
    split at judged
    next => exact absurd judged nofun
    next usable =>
      cases supplied : books quote.venue with
      | none => simp [supplied] at judged
      | some book =>
        simp only [supplied] at judged
        split at judged
        next => exact absurd judged nofun
        next instrument =>
          split at judged
          next => exact absurd judged nofun
          next fresh =>
            split at judged
            next => exact absurd judged nofun
            next ok =>
              cases applied : applyTakerFee (costToTrade book side wanted).vwap.ticks side
                  quote.fees with
              | none => simp [applied] at judged
              | some effective =>
                simp only [applied, Option.some.injEq] at judged
                obtain ⟨fee, value⟩ := (applyTakerFee_eq_some _ side quote.fees _).mp applied
                subst judged
                exact ⟨book, by simpa using usable, supplied, by simpa using instrument,
                  by simpa using fresh, by simpa using ok, fee, rfl, rfl, value⟩
  · rintro ⟨book, answers⟩
    have value := answers.effective
    rw [answers.execution] at value
    have applied := (applyTakerFee_eq_some _ side quote.fees _).mpr ⟨answers.fee, value⟩
    simp only [judge, answers.usable, answers.supplied, answers.instrument, answers.fresh,
      answers.ok, applied, Bool.true_eq_false, if_false, Option.some.injEq]
    rw [← answers.venue, ← answers.execution]

theorem mem_candidates (consolidated : ConsolidatedBook) (side : Side) (wanted : Qty)
    (now : Timestamp) (books : Bytes → Option (BasicL2Book S)) (candidate : Candidate) :
    candidate ∈ candidates consolidated side wanted now books ↔
      IsCandidate consolidated side wanted now books candidate := by
  rw [candidates, List.mem_filterMap, IsCandidate]
  simp only [judge_candidate]

theorem candidates_untied {consolidated : ConsolidatedBook}
    (distinct : KeyedList.Distinct VenueQuote.venue consolidated.quotes) (side : Side)
    (wanted : Qty) (now : Timestamp) (books : Bytes → Option (BasicL2Book S)) :
    Ranking.Untied (Candidate.losesTo side) (candidates consolidated side wanted now books) := by
  have venues : KeyedList.Distinct Candidate.venue
      (candidates consolidated side wanted now books) := by
    apply distinct.filterMap
    intro quote candidate judged
    obtain ⟨book, answers⟩ := (judge_candidate _ _ _ _ _ _ _).mp judged
    exact answers.venue
  refine (List.pairwise_map.mp venues).imp ?_
  intro a b differ
  rw [Candidate.losesTo_iff, Candidate.losesTo_iff]
  exact (Candidate.before_total differ).symm

structure Wins (result : BestExecution) (candidate : Candidate) : Prop where
  found : result.found = true
  venue : result.venue = candidate.venue
  execution : result.execution = candidate.execution
  effectiveVwap : result.effectiveVwap = ⟨candidate.effective⟩

theorem bestExecution_found_iff (consolidated : ConsolidatedBook) (side : Side)
    (wanted : Qty) (now : Timestamp) (books : Bytes → Option (BasicL2Book S)) :
    (bestExecution consolidated side wanted now books).found = true ↔
      ∃ candidate, IsCandidate consolidated side wanted now books candidate := by
  have empty : Ranking.first (Candidate.losesTo side)
        (candidates consolidated side wanted now books) = none ↔
      candidates consolidated side wanted now books = [] := Ranking.first_eq_none _
  simp only [← mem_candidates]
  rw [bestExecution_eq]
  cases chosen : Ranking.first (Candidate.losesTo side)
      (candidates consolidated side wanted now books) with
  | none =>
    rw [empty.mp chosen]
    simp [Selection.ofLeader]
  | some leader =>
    have some : candidates consolidated side wanted now books ≠ [] := by
      intro none
      simp [empty.mpr none] at chosen
    exact ⟨fun _ => List.exists_mem_of_ne_nil _ some, fun _ => rfl⟩

theorem bestExecution_wins {consolidated : ConsolidatedBook}
    (distinct : KeyedList.Distinct VenueQuote.venue consolidated.quotes) (side : Side)
    (wanted : Qty) (now : Timestamp) (books : Bytes → Option (BasicL2Book S))
    (found : (bestExecution consolidated side wanted now books).found = true) :
    ∃ winner, Wins (bestExecution consolidated side wanted now books) winner ∧
      IsCandidate consolidated side wanted now books winner ∧
      ∀ other, IsCandidate consolidated side wanted now books other →
        other = winner ∨ winner.Before side other := by
  rw [bestExecution_eq] at found ⊢
  cases chosen : Ranking.first (Candidate.losesTo side)
      (candidates consolidated side wanted now books) with
  | none =>
    rw [chosen] at found
    exact absurd found nofun
  | some winner =>
    obtain ⟨listed, ahead⟩ := Ranking.first_eq_some (Candidate.losesTo_strict side) _
      (candidates_untied distinct side wanted now books) winner chosen
    refine ⟨winner, ⟨rfl, rfl, rfl, rfl⟩, (mem_candidates _ _ _ _ _ _).mp listed, ?_⟩
    intro other candidate
    have before := ahead other ((mem_candidates _ _ _ _ _ _).mpr candidate)
    rwa [Candidate.losesTo_iff] at before

theorem bestExecution_congr {a b : ConsolidatedBook} (rules : a.SameRules b)
    (distinct : KeyedList.Distinct VenueQuote.venue a.quotes) (quotes : a.quotes.Perm b.quotes)
    (side : Side) (wanted : Qty) (now : Timestamp) (books : Bytes → Option (BasicL2Book S)) :
    bestExecution a side wanted now books = bestExecution b side wanted now books := by
  have same : judge a side wanted now books = judge b side wanted now books := by
    funext quote
    simp only [judge, rules.usable, rules.timestampFresh, rules.spec]
  have perm : (candidates a side wanted now books).Perm (candidates b side wanted now books) := by
    rw [candidates, candidates, same]
    exact quotes.filterMap _
  rw [bestExecution_eq, bestExecution_eq, same, (quotes.map _).sum_eq, (quotes.map _).sum_eq,
    Ranking.first_congr (Candidate.losesTo_strict side)
      (candidates_untied distinct side wanted now books) perm]

end Outcome

end Crossbook
