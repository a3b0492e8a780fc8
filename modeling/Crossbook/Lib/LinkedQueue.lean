import Crossbook.Lib.Visit

set_option autoImplicit false

/-! Doubly linked queues in an arena: nodes of any type that name their neighbours. -/

namespace LinkedQueue

variable {R : Type}

/-- The nodes of `refs` are linked in this order, from the neighbour `entry` before the first to
the neighbour `exit` after the last. -/
def Linked (prev next : R → R) (entry : R) : List R → R → Prop
  | [], _ => True
  | r :: rest, exit => prev r = entry ∧ next r = rest.headD exit ∧ Linked prev next r rest exit

variable {prev next prev' next' : R → R} {entry exit : R} {refs : List R}

theorem linked_append (xs ys : List R) :
    Linked prev next entry (xs ++ ys) exit ↔
      Linked prev next entry xs (ys.headD exit) ∧ Linked prev next (xs.getLastD entry) ys exit := by
  induction xs generalizing entry with
  | nil => simp [Linked]
  | cons x rest ih =>
    have last : (x :: rest).getLastD entry = rest.getLastD x := by
      cases rest <;> rfl
    have head : (rest ++ ys).headD exit = rest.headD (ys.headD exit) := by
      cases rest <;> rfl
    rw [List.cons_append, Linked, Linked, ih, last, head]
    tauto

theorem linked_congr (linked : Linked prev next entry refs exit)
    (same : ∀ r ∈ refs, prev' r = prev r ∧ next' r = next r) :
    Linked prev' next' entry refs exit := by
  induction refs generalizing entry with
  | nil => trivial
  | cons r rest ih =>
    obtain ⟨before, after, tail⟩ := linked
    obtain ⟨samePrev, sameNext⟩ := same r (by simp)
    exact ⟨samePrev.trans before, sameNext.trans after,
      ih tail fun other member => same other (List.mem_cons_of_mem r member)⟩

theorem linked_retarget {exit' : R} (linked : Linked prev next entry refs exit) (nodup : refs.Nodup)
    (samePrev : ∀ r ∈ refs, prev' r = prev r)
    (sameNext : ∀ r ∈ refs, refs.getLast? ≠ some r → next' r = next r)
    (last : ∀ r, refs.getLast? = some r → next' r = exit') : Linked prev' next' entry refs exit' := by
  -- Only the last node's successor changes.
  induction refs generalizing entry with
  | nil => trivial
  | cons r rest ih =>
    obtain ⟨before, after, tail⟩ := linked
    obtain ⟨fresh, nodup⟩ := List.nodup_cons.mp nodup
    refine ⟨(samePrev r (by simp)).trans before, ?_, ?_⟩
    · cases rest with
      | nil => exact last r rfl
      | cons s more =>
        have inner : (r :: s :: more).getLast? ≠ some r := by
          rw [List.getLast?_cons_cons]
          intro final
          exact fresh (List.mem_of_getLast? final)
        exact (sameNext r (by simp) inner).trans after
    · cases rest with
      | nil => trivial
      | cons s more =>
        have final : (r :: s :: more).getLast? = (s :: more).getLast? := List.getLast?_cons_cons
        rw [final] at sameNext last
        exact ih tail nodup (fun other member => samePrev other (List.mem_cons_of_mem r member))
          (fun other member => sameNext other (List.mem_cons_of_mem r member)) last

theorem linked_resource {entry' : R} (linked : Linked prev next entry refs exit) (nodup : refs.Nodup)
    (sameNext : ∀ r ∈ refs, next' r = next r)
    (samePrev : ∀ r ∈ refs, refs.head? ≠ some r → prev' r = prev r)
    (first : ∀ r, refs.head? = some r → prev' r = entry') : Linked prev' next' entry' refs exit := by
  -- Only the first node's predecessor changes.
  cases refs with
  | nil => trivial
  | cons r rest =>
    obtain ⟨-, after, tail⟩ := linked
    obtain ⟨fresh, -⟩ := List.nodup_cons.mp nodup
    refine ⟨first r rfl, (sameNext r (by simp)).trans after, ?_⟩
    apply linked_congr tail
    intro other member
    have later : (r :: rest).head? ≠ some other := by
      intro head
      obtain rfl := Option.some.inj head
      exact fresh member
    exact ⟨samePrev other (List.mem_cons_of_mem r member) later,
      sameNext other (List.mem_cons_of_mem r member)⟩

theorem linked_push {none r : R} (linked : Linked prev next none refs none) (nodup : refs.Nodup)
    (samePrev : ∀ x ∈ refs, prev' x = prev x)
    (sameNext : ∀ x ∈ refs, refs.getLast? ≠ some x → next' x = next x)
    (last : ∀ x, refs.getLast? = some x → next' x = r) (before : prev' r = refs.getLastD none)
    (after : next' r = none) : Linked prev' next' none (refs ++ [r]) none := by
  rw [linked_append]
  exact ⟨linked_retarget linked nodup samePrev sameNext last, before, after, trivial⟩

theorem linked_unlink {none r : R} {xs ys : List R}
    (linked : Linked prev next none (xs ++ r :: ys) none) (nodup : (xs ++ r :: ys).Nodup)
    (samePrev : ∀ x ∈ xs ++ ys, ys.head? ≠ some x → prev' x = prev x)
    (sameNext : ∀ x ∈ xs ++ ys, xs.getLast? ≠ some x → next' x = next x)
    (joinNext : ∀ x, xs.getLast? = some x → next' x = next r)
    (joinPrev : ∀ x, ys.head? = some x → prev' x = prev r) :
    Linked prev' next' none (xs ++ ys) none := by
  obtain ⟨front, before, after, back⟩ := (linked_append xs (r :: ys)).mp linked
  rw [List.nodup_append] at nodup
  obtain ⟨nodupFront, nodupBack, apart⟩ := nodup
  have nodupBack := (List.nodup_cons.mp nodupBack).2
  rw [linked_append]
  constructor
  · rw [← after]
    apply linked_retarget front nodupFront _ _ joinNext
    · intro x member
      apply samePrev x (List.mem_append_left ys member)
      intro head
      exact apart x member x (List.mem_cons_of_mem r (List.mem_of_head? head)) rfl
    · exact fun x member => sameNext x (List.mem_append_left ys member)
  · rw [← before]
    apply linked_resource back nodupBack _ _ joinPrev
    · intro x member
      apply sameNext x (List.mem_append_right xs member)
      intro final
      exact apart x (List.mem_of_getLast? final) x (List.mem_cons_of_mem r member) rfl
    · exact fun x member => samePrev x (List.mem_append_right xs member)

section Pointers

variable {none r : R} {xs ys : List R}

theorem getLast?_of_getLastD {x : R} (last : refs.getLastD none = x) (some_ : x ≠ none) :
    refs.getLast? = some x := by
  rw [List.getLastD_eq_getLast?] at last
  cases found : refs.getLast? with
  | none =>
    rw [found] at last
    exact absurd last.symm some_
  | some y =>
    rw [found] at last
    exact congrArg some last

theorem head?_of_headD {x : R} (head : refs.headD none = x) (some_ : x ≠ none) :
    refs.head? = some x := by
  cases refs with
  | nil => exact absurd head.symm some_
  | cons y rest => exact congrArg some head

variable [DecidableEq R]

structure Pushed (prev next prev' next' : R → R) (none r last : R) : Prop where
  prev_eq : ∀ x, prev' x = if x = r then last else prev x
  next_eq : ∀ x, next' x =
    if x = r then none else if last ≠ none ∧ x = last then r else next x

theorem Pushed.linked (pushed : Pushed prev next prev' next' none r (refs.getLastD none))
    (linked : Linked prev next none refs none) (nodup : refs.Nodup) (proper : none ∉ refs)
    (fresh : r ∉ refs) : Linked prev' next' none (refs ++ [r]) none := by
  have away : ∀ x ∈ refs, x ≠ r := fun x member same => fresh (same ▸ member)
  apply linked_push linked nodup
  · intro x member
    rw [pushed.prev_eq, if_neg (away x member)]
  · intro x member inner
    rw [pushed.next_eq, if_neg (away x member), if_neg]
    intro ⟨some_, last⟩
    exact inner (last ▸ getLast?_of_getLastD rfl some_)
  · intro x last
    have member := List.mem_of_getLast? last
    have here : refs.getLastD none = x := by
      rw [List.getLastD_eq_getLast?, last]
      rfl
    rw [pushed.next_eq, if_neg (away x member), here, if_pos]
    exact ⟨fun sentinel => proper (sentinel ▸ member), rfl⟩
  · rw [pushed.prev_eq, if_pos rfl]
  · rw [pushed.next_eq, if_pos rfl]

theorem Pushed.elsewhere {others : List R}
    (pushed : Pushed prev next prev' next' none r (refs.getLastD none))
    (linked : Linked prev next entry others exit)
    (apart : ∀ x ∈ others, x ≠ r ∧ x ∉ refs) : Linked prev' next' entry others exit := by
  apply linked_congr linked
  intro x member
  obtain ⟨away, foreign⟩ := apart x member
  refine ⟨by rw [pushed.prev_eq, if_neg away], ?_⟩
  rw [pushed.next_eq, if_neg away, if_neg]
  intro ⟨some_, last⟩
  exact foreign (List.mem_of_getLast? (getLast?_of_getLastD last.symm (last ▸ some_)))

structure Joined (prev next prev' next' : R → R) (none r before after : R) : Prop where
  prev_eq : ∀ x, prev' x =
    if x = r then none else if after ≠ none ∧ x = after then before else prev x
  next_eq : ∀ x, next' x =
    if x = r then none else if before ≠ none ∧ x = before then after else next x

theorem Joined.linked
    (joined : Joined prev next prev' next' none r (xs.getLastD none) (ys.headD none))
    (linked : Linked prev next none (xs ++ r :: ys) none) (nodup : (xs ++ r :: ys).Nodup)
    (proper : none ∉ xs ++ r :: ys) : Linked prev' next' none (xs ++ ys) none := by
  have away : ∀ x ∈ xs ++ ys, x ≠ r := by
    intro x member same
    exact (List.nodup_cons.mp ((List.perm_middle.nodup_iff).mp nodup)).1 (same ▸ member)
  obtain ⟨-, before, after, -⟩ := (linked_append xs (r :: ys)).mp linked
  change next r = ys.headD none at after
  apply linked_unlink linked nodup
  · intro x member inner
    rw [joined.prev_eq, if_neg (away x member), if_neg]
    intro ⟨some_, same⟩
    exact inner (same ▸ head?_of_headD rfl some_)
  · intro x member inner
    rw [joined.next_eq, if_neg (away x member), if_neg]
    intro ⟨some_, same⟩
    exact inner (same ▸ getLast?_of_getLastD rfl some_)
  · intro x last
    have member := List.mem_of_getLast? last
    have here : xs.getLastD none = x := by
      rw [List.getLastD_eq_getLast?, last]
      rfl
    rw [joined.next_eq, if_neg (away x (List.mem_append_left ys member)), here, if_pos, after]
    exact ⟨fun sentinel => proper (List.mem_append_left _ (sentinel ▸ member)), rfl⟩
  · intro x head
    have member := List.mem_of_head? head
    have here : ys.headD none = x := by
      rw [List.headD_eq_head?_getD, head]
      rfl
    rw [joined.prev_eq, if_neg (away x (List.mem_append_right xs member)), here, if_pos, before]
    refine ⟨fun sentinel => proper ?_, rfl⟩
    exact List.mem_append_right _ (List.mem_cons_of_mem _ (sentinel ▸ member))

theorem Joined.elsewhere {others : List R}
    (joined : Joined prev next prev' next' none r (xs.getLastD none) (ys.headD none))
    (linked : Linked prev next entry others exit)
    (apart : ∀ x ∈ others, x ∉ xs ++ r :: ys) : Linked prev' next' entry others exit := by
  apply linked_congr linked
  intro x member
  have foreign := apart x member
  simp only [List.mem_append, List.mem_cons, not_or] at foreign
  obtain ⟨notFront, away, notBack⟩ := foreign
  constructor
  · rw [joined.prev_eq, if_neg away, if_neg]
    intro ⟨some_, same⟩
    exact notBack (List.mem_of_head? (head?_of_headD same.symm (same ▸ some_)))
  · rw [joined.next_eq, if_neg away, if_neg]
    intro ⟨some_, same⟩
    exact notFront (List.mem_of_getLast? (getLast?_of_getLastD same.symm (same ▸ some_)))

end Pointers

section Walk

variable [DecidableEq R] {σ α : Type}

/-- Follow the links from a cursor until `none`, or until the callback stops; running out of
steps means that the links never end. -/
def walk (next : R → R) (none : R) (node : R → α) (fn : σ → α → σ × Bool) :
    Nat → R → σ → Option σ
  | 0, cursor, state => if cursor = none then some state else Option.none
  | steps + 1, cursor, state =>
    if cursor = none then some state
    else if (fn state (node cursor)).2 then
      walk next none node fn steps (next cursor) (fn state (node cursor)).1
    else some (fn state (node cursor)).1

theorem walk_linked (none : R) (node : R → α) (fn : σ → α → σ × Bool) (steps : Nat) (state : σ)
    (linked : Linked prev next entry refs none) (proper : none ∉ refs)
    (enough : refs.length ≤ steps) :
    walk next none node fn steps (refs.headD none) state =
      some (Visit.visit fn state (refs.map node)) := by
  induction refs generalizing entry steps state with
  | nil => cases steps <;> simp [walk]
  | cons r rest ih =>
    obtain ⟨-, after, tail⟩ := linked
    obtain ⟨steps, rfl⟩ := Nat.exists_eq_succ_of_ne_zero (show steps ≠ 0 by simp at enough; omega)
    simp only [List.mem_cons, not_or] at proper
    have later := ih steps (fn state (node r)).1 tail proper.2 (by simpa using enough)
    rw [List.headD_cons, walk, if_neg (Ne.symm proper.1), after, later, List.map_cons,
      Visit.visit_cons]
    split <;> rfl

end Walk

end LinkedQueue
