import Crossbook.Json.Delivered

set_option autoImplicit false

namespace Crossbook

namespace Json

open Spans (Stops)

section Lists

variable {α β : Type}

inductive Listed (item : Bytes → α → Prop) : Bytes → List α → Prop
  | last {w t v : Bytes} {a : α} (before : Blank w) (text : item t a) (after : Blank v) :
      Listed item (w ++ (t ++ v)) [a]
  | more {w t v rest : Bytes} {a : α} {items : List α} (before : Blank w) (text : item t a)
      (after : Blank v) (later : Listed item rest items) :
      Listed item (w ++ (t ++ (v ++ ascii ',' :: rest))) (a :: items)

def Holds (opening : UInt8) (item : Bytes → α → Prop) (t : Bytes) (items : List α) : Prop :=
  (∃ w, Blank w ∧ t = opening :: (w ++ [closing opening]) ∧ items = []) ∨
    ∃ body, Listed item body items ∧ t = opening :: (body ++ [closing opening])

/-- An item's text begins with a byte that is not a delimiter, is scanned the same wherever it
stands, and spells one thing. -/
structure Readable (scanner : Scanner) (item : Bytes → α → Prop) : Prop where
  scans : Scans scanner fun t => ∃ a, item t a
  unique : ∀ t a b, item t a → item t b → a = b

theorem blank_not_comma {v rest : Bytes} (blank : Blank v) (after : Bytes) :
    v ≠ after ++ ascii ',' :: rest := by
  rintro rfl
  exact absurd (blank (ascii ',') (by simp)) (by decide)

theorem blank_comma {v v' rest rest' : Bytes} (blank : Blank v) (blank' : Blank v')
    (same : v ++ ascii ',' :: rest = v' ++ ascii ',' :: rest') : rest = rest' := by
  have next := (nextByte_iff _ (ascii ',') rest).mpr ⟨v, blank, rfl, by decide⟩
  rw [same, (nextByte_iff _ (ascii ',') rest').mpr ⟨v', blank', rfl, by decide⟩] at next
  exact (Prod.mk.inj (Option.some.inj next)).2.symm

theorem Readable.front {scanner : Scanner} {item : Bytes → α → Prop}
    (readable : Readable scanner item) {w w' t t' rest rest' : Bytes} {a a' : α}
    (before : Blank w) (before' : Blank w') (text : item t a) (text' : item t' a')
    (follow : Follow rest) (follow' : Follow rest')
    (same : w ++ (t ++ rest) = w' ++ (t' ++ rest')) : a = a' ∧ rest = rest' := by
  have scanned := readable.scans.complete w t rest before ⟨a, text⟩ follow
  have scanned' := readable.scans.complete w' t' rest' before' ⟨a', text'⟩ follow'
  rw [same, scanned'] at scanned
  obtain rfl := Option.some.inj scanned
  have stops : ∀ u b, item u b → Stops isSpace (u ++ rest') := by
    intro u b spelled
    obtain ⟨c, tail, rfl, proper⟩ := readable.scans.headed u ⟨b, spelled⟩
    simpa using solid_of_proper proper
  have trimmed : t ++ rest' = t' ++ rest' := by
    rw [← skipSpace_run before (stops t a text), ← skipSpace_run before' (stops t' a' text'), same]
  obtain rfl := List.append_cancel_right trimmed
  exact ⟨readable.unique t a a' text text', rfl⟩

theorem listed_unique {scanner : Scanner} {item : Bytes → α → Prop}
    (readable : Readable scanner item) {body : Bytes} {items items' : List α}
    (listed : Listed item body items) (listed' : Listed item body items') : items = items' := by
  have follow : ∀ v, Blank v → Follow v := fun v blank => by
    simpa using follow_blank blank (Spans.stops_nil (p := fun c => !isDelimiter c))
  have followComma : ∀ v rest, Blank v → Follow (v ++ ascii ',' :: rest) :=
    fun v rest blank => follow_blank blank (follow_cons (by decide) rest)
  generalize whole : body = text at listed'
  induction listed generalizing text items' with
  | last before text after =>
    cases listed' with
    | last before' text' after' =>
      obtain ⟨rfl, _⟩ := readable.front before before' text text' (follow _ after)
        (follow _ after') whole
      rfl
    | more before' text' after' later' =>
      obtain ⟨_, tails⟩ := readable.front before before' text text' (follow _ after)
        (followComma _ _ after') whole
      exact absurd tails (blank_not_comma after _)
  | more before text after later ih =>
    cases listed' with
    | last before' text' after' =>
      obtain ⟨_, tails⟩ := readable.front before before' text text' (followComma _ _ after)
        (follow _ after') whole
      exact absurd tails.symm (blank_not_comma after' _)
    | more before' text' after' later' =>
      obtain ⟨rfl, tails⟩ := readable.front before before' text text' (followComma _ _ after)
        (followComma _ _ after') whole
      rw [ih _ (blank_comma after after' tails) later']

theorem listed_not_blank {scanner : Scanner} {item : Bytes → α → Prop}
    (readable : Readable scanner item) {body : Bytes} {items : List α}
    (listed : Listed item body items) : ¬ Blank body := by
  have solid : ∀ t a w rest, item t a → ¬ Blank (w ++ (t ++ rest)) := by
    intro t a w rest text blank
    obtain ⟨c, tail, rfl, proper⟩ := readable.scans.headed t ⟨a, text⟩
    have space := blank c (by simp)
    rw [solid_of_proper proper] at space
    contradiction
  cases listed with
  | last before text after => exact solid _ _ _ _ text
  | more before text after later => exact solid _ _ _ _ text

theorem holds_unique {scanner : Scanner} {item : Bytes → α → Prop}
    (readable : Readable scanner item) {opening : UInt8} {t : Bytes} {items items' : List α}
    (holds : Holds opening item t items) (holds' : Holds opening item t items') :
    items = items' := by
  have inside : ∀ body body' : Bytes, opening :: (body ++ [closing opening]) =
      opening :: (body' ++ [closing opening]) → body = body' := by
    intro body body' same
    exact List.append_cancel_right (List.cons_eq_cons.mp same).2
  rcases holds with ⟨w, blank, rfl, rfl⟩ | ⟨body, listed, rfl⟩
  · rcases holds' with ⟨_, _, _, rfl⟩ | ⟨body', listed', same⟩
    · rfl
    · rw [inside w body' same] at blank
      exact absurd blank (listed_not_blank readable listed')
  · rcases holds' with ⟨w, blank, same, _⟩ | ⟨body', listed', same⟩
    · rw [← inside body w same] at blank
      exact absurd blank (listed_not_blank readable listed)
    · rw [← inside body body' same] at listed'
      exact listed_unique readable listed listed'

theorem listed_mono {item item' : Bytes → α → Prop} (sub : ∀ t a, item t a → item' t a)
    {body : Bytes} {items : List α} (listed : Listed item body items) : Listed item' body items := by
  induction listed with
  | last before text after => exact .last before (sub _ _ text) after
  | more before text after _ ih => exact .more before (sub _ _ text) after ih

theorem holds_mono {item item' : Bytes → α → Prop} (sub : ∀ t a, item t a → item' t a)
    {opening : UInt8} {t : Bytes} {items : List α} (holds : Holds opening item t items) :
    Holds opening item' t items := by
  rcases holds with empty | ⟨body, listed, whole⟩
  · exact .inl empty
  · exact .inr ⟨body, listed_mono sub listed, whole⟩

theorem itemsOf_listed {reader : Reader β} {item : Bytes → α → Prop} (spelling : β → α)
    (sound : ∀ s b rest, reader.run s = some (b, rest) →
      ∃ w t, Blank w ∧ item t (spelling b) ∧ s = w ++ (t ++ rest))
    (close : UInt8) (s rest : Bytes) (closed : (itemsOf reader close s).2 = .closed rest) :
    ∃ body, Listed item body ((itemsOf reader close s).1.map spelling) ∧
      s = body ++ close :: rest := by
  fun_induction itemsOf reader close s with
  | case1 => simp at closed
  | case2 => simp at closed
  | case3 s b middle read tail next =>
    obtain rfl := WalkEnd.closed.inj closed
    obtain ⟨w, t, blank, text, rfl⟩ := sound _ _ _ read
    obtain ⟨v, after, rfl, _⟩ := (nextByte_iff _ _ _).mp next
    exact ⟨_, .last blank text after, by simp⟩
  | case4 s b middle read tail next different ih =>
    obtain ⟨w, t, blank, text, rfl⟩ := sound _ _ _ read
    obtain ⟨v, after, rfl, _⟩ := (nextByte_iff _ _ _).mp next
    obtain ⟨body, listed, rfl⟩ := ih closed
    exact ⟨_, .more blank text after listed, by simp⟩
  | case5 => simp at closed

theorem contentsOf_text {reader : Reader β} {item : Bytes → α → Prop} (spelling : β → α)
    (sound : ∀ s b rest, reader.run s = some (b, rest) →
      ∃ w t, Blank w ∧ item t (spelling b) ∧ s = w ++ (t ++ rest))
    (opening : UInt8) (s rest : Bytes)
    (closed : (contentsOf reader opening (closing opening) s).2 = .closed rest) :
    ∃ w t, Blank w ∧ s = w ++ (t ++ rest) ∧
      Holds opening item t ((contentsOf reader opening (closing opening) s).1.map spelling) := by
  cases start : nextByte s with
  | none => simp [contentsOf, start] at closed
  | some next =>
    obtain ⟨c, inside⟩ := next
    obtain ⟨w, blank, rfl, _⟩ := (nextByte_iff _ _ _).mp start
    have listed : (itemsOf reader (closing opening) inside).2 = .closed rest → ∃ body,
        Listed item body ((itemsOf reader (closing opening) inside).1.map spelling) ∧
          inside = body ++ closing opening :: rest := itemsOf_listed spelling sound _ _ _
    rw [contentsOf, start] at closed ⊢
    dsimp only at closed ⊢
    by_cases opens : c = opening
    · subst opens
      rw [if_pos rfl] at closed ⊢
      cases first : nextByte inside with
      | none =>
        rw [first] at closed
        obtain ⟨body, items, whole⟩ := listed closed
        exact ⟨w, _, blank, by simp [whole], .inr ⟨body, items, rfl⟩⟩
      | some next =>
        obtain ⟨d, tail⟩ := next
        rw [first] at closed
        dsimp only at closed ⊢
        by_cases close : d = closing c
        · rw [if_pos close] at closed ⊢
          obtain rfl := WalkEnd.closed.inj closed
          obtain ⟨v, inner, rfl, _⟩ := (nextByte_iff _ _ _).mp first
          exact ⟨w, _, blank, by simp [close], .inl ⟨v, inner, rfl, rfl⟩⟩
        · rw [if_neg close] at closed ⊢
          obtain ⟨body, items, whole⟩ := listed closed
          exact ⟨w, _, blank, by simp [whole], .inr ⟨body, items, rfl⟩⟩
    · rw [if_neg opens] at closed
      simp at closed

theorem contentsOf_holds {reader : Reader β} {item : Bytes → α → Prop} (spelling : β → α)
    (sound : ∀ s b rest, reader.run s = some (b, rest) →
      ∃ w t, Blank w ∧ item t (spelling b) ∧ s = w ++ (t ++ rest))
    (opening : UInt8) (inside : Bytes) (solid : isSpace opening = false)
    (closed : (contentsOf reader opening (closing opening) (opening :: inside)).2 = .closed []) :
    Holds opening item (opening :: inside)
      ((contentsOf reader opening (closing opening) (opening :: inside)).1.map spelling) := by
  obtain ⟨w, t, blank, whole, holds⟩ := contentsOf_text spelling sound opening _ [] closed
  rw [List.append_nil] at whole
  -- No blank stands in front of the opening byte.
  cases w with
  | nil => rwa [whole] at holds ⊢
  | cons c rest =>
    rw [List.cons_append, List.cons.injEq] at whole
    have space := blank c (by simp)
    rw [← whole.1, solid] at space
    contradiction

end Lists

end Json

end Crossbook
