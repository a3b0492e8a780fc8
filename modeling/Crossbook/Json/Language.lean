import Crossbook.Json.Grammar
import Crossbook.Lib.Spans

set_option autoImplicit false

namespace Crossbook

namespace Json

open Spans (Stops)

section Numbers

theorem someDigits_iff (s rest : Bytes) :
    someDigits s = some rest ↔ ∃ digits, Digits digits ∧ s = digits ++ rest ∧ Stops isDigit rest := by
  constructor
  · intro found
    cases s with
    | nil => simp [someDigits] at found
    | cons c tail =>
      rw [someDigits, Option.ite_none_right_eq_some] at found
      obtain ⟨digit, same⟩ := found
      obtain rfl := Option.some.inj same
      obtain ⟨run, digits, whole⟩ := Spans.exists_run isDigit tail
      refine ⟨c :: run, ⟨by simp, ?_⟩, congrArg (List.cons c) whole, Spans.stops_dropWhile tail⟩
      simpa using ⟨digit, digits⟩
  · rintro ⟨digits, ⟨some_, all⟩, rfl, stops⟩
    cases digits with
    | nil => contradiction
    | cons c run =>
      rw [List.cons_append, someDigits, if_pos (all c (by simp)),
        Spans.dropWhile_run (fun x member => all x (List.mem_cons_of_mem c member)) stops]

theorem numberInteger_sound (s rest : Bytes) (found : numberInteger s = some rest) :
    ∃ integer, IntegerText integer ∧ s = integer ++ rest := by
  cases s with
  | nil => simp [numberInteger] at found
  | cons c tail =>
    rw [numberInteger] at found
    split at found
    · rename_i zero
      obtain rfl := Option.some.inj found
      exact ⟨[ascii '0'], .inl rfl, by rw [zero]; rfl⟩
    · rename_i nonzero
      have digits : someDigits (c :: tail) = some rest := found
      obtain ⟨run, digits, whole, _⟩ := (someDigits_iff _ _).mp digits
      refine ⟨run, .inr ⟨digits, ?_⟩, whole⟩
      cases run with
      | nil => exact absurd rfl digits.1
      | cons d run =>
        obtain ⟨rfl, _⟩ := List.cons_eq_cons.mp whole
        simpa using nonzero

theorem numberInteger_complete (integer rest : Bytes) (text : IntegerText integer)
    (stops : Stops isDigit rest) : numberInteger (integer ++ rest) = some rest := by
  rcases text with rfl | ⟨digits, nonzero⟩
  · rfl
  · have found := (someDigits_iff (integer ++ rest) rest).mpr ⟨integer, digits, rfl, stops⟩
    cases integer with
    | nil => exact absurd rfl digits.1
    | cons c run =>
      rw [List.cons_append] at found ⊢
      rw [numberInteger, if_neg (by simpa using nonzero)]
      exact found

theorem numberFraction_sound (s rest : Bytes) (found : numberFraction s = some rest) :
    ∃ fraction, FractionText fraction ∧ s = fraction ++ rest := by
  cases s with
  | nil =>
    obtain rfl := Option.some.inj found
    exact ⟨[], .inl rfl, rfl⟩
  | cons c tail =>
    rw [numberFraction] at found
    split at found
    · rename_i point
      obtain ⟨digits, all, whole, _⟩ := (someDigits_iff _ _).mp found
      exact ⟨c :: digits, .inr ⟨digits, all, by rw [point]⟩, by rw [whole]; rfl⟩
    · obtain rfl := Option.some.inj found
      exact ⟨[], .inl rfl, rfl⟩

theorem numberFraction_complete (fraction rest : Bytes) (text : FractionText fraction)
    (stops : Stops isDigit rest) (noPoint : rest.head? ≠ some (ascii '.')) :
    numberFraction (fraction ++ rest) = some rest := by
  rcases text with rfl | ⟨digits, all, rfl⟩
  · cases rest with
    | nil => rfl
    | cons c tail =>
      rw [List.nil_append, numberFraction, if_neg (by simpa using noPoint)]
  · rw [List.cons_append, numberFraction, if_pos rfl]
    exact (someDigits_iff _ _).mpr ⟨digits, all, rfl, stops⟩

theorem takeSign_sound (s : Bytes) :
    ∃ sign, SignText sign ∧ s = sign ++ (takeSign s).2 := by
  cases s with
  | nil => exact ⟨[], .inl rfl, rfl⟩
  | cons c tail =>
    rw [takeSign]
    split
    · rename_i signed
      rcases signed with rfl | rfl
      · exact ⟨[ascii '+'], .inr (.inl rfl), rfl⟩
      · exact ⟨[ascii '-'], .inr (.inr rfl), rfl⟩
    · exact ⟨[], .inl rfl, rfl⟩

theorem takeSign_complete (sign digits : Bytes) (text : SignText sign) (all : Digits digits) :
    (takeSign (sign ++ digits)).2 = digits := by
  rcases text with rfl | rfl | rfl
  · cases digits with
    | nil => exact absurd rfl all.1
    | cons c tail =>
      have digit := all.2 c (by simp)
      rw [List.nil_append, takeSign, if_neg]
      rintro (rfl | rfl) <;> exact absurd digit (by decide)
  · rfl
  · rfl

theorem numberExponent_sound (s : Bytes) (found : numberExponent s = some []) : ExponentText s := by
  cases s with
  | nil => exact .inl rfl
  | cons c tail =>
    rw [numberExponent] at found
    split at found
    · rename_i mark
      obtain ⟨digits, all, whole, _⟩ := (someDigits_iff _ _).mp found
      obtain ⟨sign, signed, tailWhole⟩ := takeSign_sound tail
      rw [List.append_nil] at whole
      exact .inr ⟨c, sign, digits, mark, signed, all, by rw [← whole, ← tailWhole]⟩
    · simp at found

theorem numberExponent_complete (exponent : Bytes) (text : ExponentText exponent) :
    numberExponent exponent = some [] := by
  rcases text with rfl | ⟨mark, sign, digits, marked, signed, all, rfl⟩
  · rfl
  · rw [numberExponent, if_pos marked, takeSign_complete sign digits signed all]
    exact (someDigits_iff _ _).mpr ⟨digits, all, by simp, by simp⟩

theorem exponent_stops {exponent : Bytes} (text : ExponentText exponent) :
    Stops isDigit exponent ∧ exponent.head? ≠ some (ascii '.') := by
  rcases text with rfl | ⟨mark, sign, digits, marked, _, _, rfl⟩
  · simp
  · rcases marked with rfl | rfl <;> exact ⟨by simp [isDigit, ascii], by simp [ascii]⟩

theorem fraction_stops {fraction : Bytes} (text : FractionText fraction) : Stops isDigit fraction := by
  rcases text with rfl | ⟨digits, _, rfl⟩
  · simp
  · simp [isDigit, ascii]

theorem dropMinus_sound (t : Bytes) :
    ∃ minus, (minus = [] ∨ minus = [ascii '-']) ∧ t = minus ++ dropMinus t := by
  cases t with
  | nil => exact ⟨[], .inl rfl, rfl⟩
  | cons c tail =>
    rw [dropMinus]
    split
    · rename_i minus
      exact ⟨[ascii '-'], .inr rfl, by rw [minus]; rfl⟩
    · exact ⟨[], .inl rfl, rfl⟩

theorem integer_head {integer : Bytes} (text : IntegerText integer) :
    ∃ c rest, integer = c :: rest ∧ isDigit c = true := by
  rcases text with rfl | ⟨⟨some_, all⟩, _⟩
  · exact ⟨ascii '0', [], rfl, by decide⟩
  · cases integer with
    | nil => contradiction
    | cons c rest => exact ⟨c, rest, rfl, all c (by simp)⟩

theorem isJsonNumber_iff (t : Bytes) : isJsonNumber t = true ↔ NumberText t := by
  have accepted : isJsonNumber t = true ↔
      ((numberInteger (dropMinus t)).bind numberFraction).bind numberExponent = some [] := by
    unfold isJsonNumber
    split <;> simp_all
  rw [accepted]
  constructor
  · intro found
    rw [Option.bind_eq_some_iff] at found
    obtain ⟨afterFraction, found, last⟩ := found
    rw [Option.bind_eq_some_iff] at found
    obtain ⟨afterInteger, first, second⟩ := found
    obtain ⟨minus, signed, whole⟩ := dropMinus_sound t
    obtain ⟨integer, integerText, integerWhole⟩ := numberInteger_sound _ _ first
    obtain ⟨fraction, fractionText, fractionWhole⟩ := numberFraction_sound _ _ second
    exact ⟨minus, integer, fraction, afterFraction, signed, integerText, fractionText,
      numberExponent_sound _ last, by rw [← fractionWhole, ← integerWhole, ← whole]⟩
  · rintro ⟨minus, integer, fraction, exponent, signed, integerText, fractionText, exponentText, rfl⟩
    have unsigned : dropMinus (minus ++ (integer ++ (fraction ++ exponent))) =
        integer ++ (fraction ++ exponent) := by
      rcases signed with rfl | rfl
      · obtain ⟨c, rest, rfl, digit⟩ := integer_head integerText
        rw [List.nil_append, List.cons_append, dropMinus, if_neg]
        rintro rfl
        exact absurd digit (by decide)
      · rfl
    obtain ⟨stops, noPoint⟩ := exponent_stops exponentText
    rw [unsigned, numberInteger_complete _ _ integerText ((fraction_stops fractionText).append stops),
      Option.bind_some, numberFraction_complete _ _ fractionText stops noPoint, Option.bind_some,
      numberExponent_complete _ exponentText]

theorem isJsonScalar_iff (t : Bytes) : isJsonScalar t = true ↔ ScalarText t := by
  simp [isJsonScalar, ScalarText, isJsonNumber_iff, or_assoc]

end Numbers

section Scalars

theorem digit_solid (c : UInt8) (digit : isDigit c = true) : isDelimiter c = false := by
  by_contra delimiter
  simp only [isDelimiter, isSpace, Bool.not_eq_false, Bool.or_eq_true, beq_iff_eq] at delimiter
  rcases delimiter with ((rfl | rfl) | rfl) | ((rfl | rfl) | rfl) | rfl <;>
    exact absurd digit (by decide)

theorem digits_solid {t : Bytes} (all : Digits t) : ∀ c ∈ t, isDelimiter c = false :=
  fun c member => digit_solid c (all.2 c member)

theorem number_solid {t : Bytes} (number : NumberText t) : ∀ c ∈ t, isDelimiter c = false := by
  obtain ⟨minus, integer, fraction, exponent, signed, integerText, fractionText, exponentText, rfl⟩ :=
    number
  have ofMinus : ∀ c ∈ minus, isDelimiter c = false := by
    rcases signed with rfl | rfl <;> decide +kernel
  have ofInteger : ∀ c ∈ integer, isDelimiter c = false := by
    rcases integerText with rfl | ⟨all, _⟩
    · decide +kernel
    · exact digits_solid all
  have ofFraction : ∀ c ∈ fraction, isDelimiter c = false := by
    rcases fractionText with rfl | ⟨digits, all, rfl⟩
    · simp
    · exact List.forall_mem_cons.mpr ⟨by decide, digits_solid all⟩
  have ofExponent : ∀ c ∈ exponent, isDelimiter c = false := by
    rcases exponentText with rfl | ⟨mark, sign, digits, marked, signText, all, rfl⟩
    · simp
    · refine List.forall_mem_cons.mpr ⟨by rcases marked with rfl | rfl <;> decide, ?_⟩
      have ofSign : ∀ c ∈ sign, isDelimiter c = false := by
        rcases signText with rfl | rfl | rfl <;> decide +kernel
      exact List.forall_mem_append.mpr ⟨ofSign, digits_solid all⟩
  exact List.forall_mem_append.mpr ⟨ofMinus,
    List.forall_mem_append.mpr ⟨ofInteger, List.forall_mem_append.mpr ⟨ofFraction, ofExponent⟩⟩⟩

theorem scalar_solid {t : Bytes} (scalar : ScalarText t) : ∀ c ∈ t, isDelimiter c = false := by
  rcases scalar with rfl | rfl | rfl | number
  · decide +kernel
  · decide +kernel
  · decide +kernel
  · exact number_solid number

theorem scalar_head {t : Bytes} (scalar : ScalarText t) :
    ∃ c rest, t = c :: rest ∧ c ≠ ascii '"' ∧ c ≠ ascii '{' ∧ c ≠ ascii '[' := by
  have literal : ∀ (c : UInt8) (rest : Bytes), (c = ascii 't' ∨ c = ascii 'f' ∨ c = ascii 'n') →
      ∃ d tail, c :: rest = d :: tail ∧ d ≠ ascii '"' ∧ d ≠ ascii '{' ∧ d ≠ ascii '[' := by
    rintro c rest (rfl | rfl | rfl) <;> exact ⟨_, _, rfl, by decide⟩
  rcases scalar with rfl | rfl | rfl | number
  · exact literal _ _ (.inl rfl)
  · exact literal _ _ (.inr (.inl rfl))
  · exact literal _ _ (.inr (.inr rfl))
  · obtain ⟨minus, integer, fraction, exponent, signed, integerText, _, _, rfl⟩ := number
    obtain ⟨c, rest, rfl, digit⟩ := integer_head integerText
    rcases signed with rfl | rfl
    · refine ⟨c, _, rfl, ?_, ?_, ?_⟩ <;> rintro rfl <;> exact absurd digit (by decide)
    · exact ⟨ascii '-', _, rfl, by decide⟩

def Follow (rest : Bytes) : Prop := Stops (fun c => !isDelimiter c) rest

theorem skipScalar_iff (s rest : Bytes) :
    skipScalar s = some rest ↔ ∃ t, ScalarText t ∧ s = t ++ rest ∧ Follow rest := by
  simp only [skipScalar, Option.ite_none_left_eq_some, Option.some.injEq]
  constructor
  · rintro ⟨accepted, rfl⟩
    simp only [Bool.or_eq_true, Bool.not_eq_true', not_or, Bool.not_eq_false] at accepted
    exact ⟨_, (isJsonScalar_iff _).mp accepted.2, List.takeWhile_append_dropWhile.symm,
      Spans.stops_dropWhile s⟩
  · rintro ⟨t, scalar, rfl, follow⟩
    have solid : ∀ c ∈ t, (!isDelimiter c) = true := by
      intro c member
      simpa using scalar_solid scalar c member
    obtain ⟨c, tail, rfl, _⟩ := scalar_head scalar
    rw [Spans.takeWhile_run solid follow, Spans.dropWhile_run solid follow]
    simpa using (isJsonScalar_iff _).mpr scalar

end Scalars

section Strings

theorem skipStringTail_iff (s rest : Bytes) :
    skipStringTail s = some rest ↔ ∃ items, StringItems items ∧ s = items ++ ascii '"' :: rest := by
  constructor
  · intro found
    fun_induction skipStringTail s with
    | case1 => simp at found
    | case2 => simp at found
    | case3 escaped tail ih =>
      obtain ⟨items, text, rfl⟩ := ih found
      exact ⟨ascii '\\' :: escaped :: items, .escape escaped text, rfl⟩
    | case4 tail =>
      obtain rfl := Option.some.inj found
      exact ⟨[], .nil, rfl⟩
    | case5 c tail plain within ih =>
      obtain ⟨items, text, rfl⟩ := ih found
      exact ⟨c :: items, .plain within plain text, rfl⟩
  · rintro ⟨items, text, rfl⟩
    induction text with
    | nil => rw [List.nil_append, skipStringTail.eq_def]; rfl
    | plain notQuote notEscape later ih =>
      rw [List.cons_append, skipStringTail.eq_def]
      simpa [notQuote, notEscape] using ih
    | escape c later ih => simpa [skipStringTail] using ih

theorem skipString_iff (s rest : Bytes) :
    skipString s = some rest ↔ ∃ t, StringText t ∧ s = t ++ rest := by
  constructor
  · intro found
    cases s with
    | nil => simp [skipString] at found
    | cons c tail =>
      rw [skipString, Option.ite_none_right_eq_some] at found
      obtain ⟨rfl, found⟩ := found
      obtain ⟨items, text, rfl⟩ := (skipStringTail_iff _ _).mp found
      exact ⟨_, ⟨items, text, rfl⟩, by simp⟩
  · rintro ⟨t, ⟨items, text, rfl⟩, rfl⟩
    rw [List.cons_append, skipString, if_pos rfl]
    exact (skipStringTail_iff _ _).mpr ⟨items, text, by simp⟩

end Strings

section Blanks

theorem skipSpace_run {w rest : Bytes} (blank : Blank w) (stops : Stops isSpace rest) :
    skipSpace (w ++ rest) = rest := Spans.dropWhile_run blank stops

theorem exists_blank (s : Bytes) : ∃ w, Blank w ∧ s = w ++ skipSpace s := Spans.exists_run isSpace s

theorem nextByte_iff (s : Bytes) (c : UInt8) (rest : Bytes) :
    nextByte s = some (c, rest) ↔ ∃ w, Blank w ∧ s = w ++ c :: rest ∧ isSpace c = false := by
  constructor
  · intro found
    have stops : Stops isSpace (skipSpace s) := Spans.stops_dropWhile s
    obtain ⟨w, blank, whole⟩ := exists_blank s
    unfold nextByte at found
    split at found
    · simp at found
    · rename_i spaced
      simp only [Option.some.injEq, Prod.mk.injEq] at found
      obtain ⟨rfl, rfl⟩ := found
      rw [spaced] at stops whole
      exact ⟨w, blank, whole, by simpa using stops⟩
  · rintro ⟨w, blank, rfl, solid⟩
    rw [nextByte, skipSpace_run blank (by simpa using solid)]

end Blanks

section Values

structure Scans (scanner : Scanner) (language : Bytes → Prop) : Prop where
  sound : ∀ s rest, scanner.run s = some rest →
    ∃ w t, Blank w ∧ language t ∧ s = w ++ (t ++ rest)
  complete : ∀ w t rest, Blank w → language t → Follow rest →
    scanner.run (w ++ (t ++ rest)) = some rest
  headed : ∀ t, language t → ∃ c tail, t = c :: tail ∧ isDelimiter c = false

theorem solid_of_proper {c : UInt8} (proper : isDelimiter c = false) : isSpace c = false := by
  simp only [isDelimiter, Bool.or_eq_false_iff] at proper
  exact proper.2

theorem follow_cons {c : UInt8} (delimiter : isDelimiter c = true) (rest : Bytes) :
    Follow (c :: rest) := by
  simpa [Follow] using delimiter

theorem follow_blank {v : Bytes} (blank : Blank v) {rest : Bytes} (follow : Follow rest) :
    Follow (v ++ rest) := by
  refine Stops.append ?_ follow
  cases v with
  | nil => simp
  | cons c v => simp [isDelimiter, blank c (by simp)]

variable {inner : Scanner} {language : Bytes → Prop}

theorem skipKey_iff (s rest : Bytes) :
    skipKey s = some rest ↔ ∃ w key v, Blank w ∧ StringText key ∧ Blank v ∧
      s = w ++ (key ++ (v ++ ascii ':' :: rest)) := by
  constructor
  · intro found
    simp only [skipKey, Option.bind_eq_some_iff] at found
    obtain ⟨afterKey, keyed, ⟨c, tail⟩, next, last⟩ := found
    simp only [Option.ite_none_right_eq_some, Option.some.injEq] at last
    obtain ⟨rfl, rfl⟩ := last
    obtain ⟨w, blank, whole⟩ := exists_blank s
    obtain ⟨key, text, keyWhole⟩ := (skipString_iff _ _).mp keyed
    obtain ⟨v, blankAfter, colon, _⟩ := (nextByte_iff _ _ _).mp next
    exact ⟨w, key, v, blank, text, blankAfter, by rw [← colon, ← keyWhole, ← whole]⟩
  · rintro ⟨w, key, v, blank, text, blankAfter, rfl⟩
    have stops : Stops isSpace (key ++ (v ++ ascii ':' :: rest)) := by
      obtain ⟨items, _, rfl⟩ := text
      simp [isSpace, ascii]
    rw [skipKey, skipSpace_run blank stops, (skipString_iff _ _).mpr ⟨key, text, rfl⟩,
      Option.bind_some,
      (nextByte_iff _ _ _).mpr ⟨v, blankAfter, rfl, by decide⟩]
    rfl

theorem scans_element (scans : Scans inner language) : Scans (itemScanner inner false) language :=
  ⟨scans.sound, scans.complete, scans.headed⟩

theorem scans_member (scans : Scans inner language) :
    Scans (itemScanner inner true) (MemberText language) where
  sound s rest found := by
    have found : (skipKey s).bind inner.run = some rest := found
    rw [Option.bind_eq_some_iff] at found
    obtain ⟨middle, keyed, value⟩ := found
    obtain ⟨w, key, v, blank, text, blankAfter, rfl⟩ := (skipKey_iff _ _).mp keyed
    obtain ⟨u, t, blankBefore, inLanguage, rfl⟩ := scans.sound _ _ value
    exact ⟨w, key ++ (v ++ ascii ':' :: (u ++ t)), blank,
      ⟨key, v, u, t, text, blankAfter, blankBefore, inLanguage, rfl⟩, by simp⟩
  complete w t rest blank member follow := by
    obtain ⟨key, v, u, value, text, blankAfter, blankBefore, inLanguage, rfl⟩ := member
    have keyed : skipKey (w ++ (key ++ (v ++ ascii ':' :: (u ++ (value ++ rest))))) =
        some (u ++ (value ++ rest)) :=
      (skipKey_iff _ _).mpr ⟨w, key, v, blank, text, blankAfter, rfl⟩
    have value := scans.complete u value rest blankBefore inLanguage follow
    simp only [List.append_assoc, List.cons_append]
    exact (congrArg (fun after => after.bind inner.run) keyed).trans value
  headed t member := by
    obtain ⟨key, v, u, value, ⟨items, _, rfl⟩, _, _, _, rfl⟩ := member
    exact ⟨ascii '"', _, rfl, by decide⟩

theorem skipItems_sound {item : Scanner} (scans : Scans item language) (close : UInt8)
    (s rest : Bytes) (found : skipItems item close s = some rest) :
    ∃ body, ItemsText language body ∧ s = body ++ close :: rest := by
  fun_induction skipItems item close s with
  | case1 => simp at found
  | case2 => simp at found
  | case3 s middle scanned tail next =>
    obtain rfl := Option.some.inj found
    obtain ⟨w, t, blank, text, rfl⟩ := scans.sound _ _ scanned
    obtain ⟨v, blankAfter, rfl, _⟩ := (nextByte_iff _ _ _).mp next
    exact ⟨_, .last blank text blankAfter, by simp⟩
  | case4 s middle scanned tail next different ih =>
    obtain ⟨w, t, blank, text, rfl⟩ := scans.sound _ _ scanned
    obtain ⟨v, blankAfter, rfl, _⟩ := (nextByte_iff _ _ _).mp next
    obtain ⟨body, items, rfl⟩ := ih found
    exact ⟨_, .more blank text blankAfter items, by simp⟩
  | case5 => simp at found

theorem skipItems_unread {item : Scanner} {close : UInt8} {s : Bytes}
    (unread : item.run s = none) : skipItems item close s = none := by
  rw [skipItems]
  split
  · rfl
  · rename_i found
    rw [unread] at found
    contradiction

theorem skipItems_open {item : Scanner} {close : UInt8} {s rest : Bytes}
    (scanned : item.run s = some rest) (ended : nextByte rest = none) :
    skipItems item close s = none := by
  rw [skipItems]
  split
  · rfl
  · rename_i found
    rw [scanned] at found
    obtain rfl := Option.some.inj found
    split
    · rfl
    · rename_i some_
      rw [ended] at some_
      contradiction

theorem skipItems_some {item : Scanner} {close : UInt8} {s rest : Bytes} {c : UInt8} {tail : Bytes}
    (scanned : item.run s = some rest) (next : nextByte rest = some (c, tail)) :
    skipItems item close s =
      if c = close then some tail
      else if c = ascii ',' then skipItems item close tail else none := by
  rw [skipItems]
  split
  · rename_i found
    rw [scanned] at found
    contradiction
  · rename_i found
    rw [scanned] at found
    obtain rfl := Option.some.inj found
    split
    · rename_i none
      rw [next] at none
      contradiction
    · rename_i some_
      rw [next] at some_
      simp only [Option.some.injEq, Prod.mk.injEq] at some_
      obtain ⟨rfl, rfl⟩ := some_
      rfl

theorem skipItems_complete {item : Scanner} (scans : Scans item language) (close : UInt8)
    (delimiter : isDelimiter close = true) (solid : isSpace close = false)
    (notComma : close ≠ ascii ',') {body : Bytes} (items : ItemsText language body) (rest : Bytes) :
    skipItems item close (body ++ close :: rest) = some rest := by
  induction items with
  | last before text after =>
    rename_i w t v
    have scanned := scans.complete w t (v ++ close :: rest) before text
      (follow_blank after (follow_cons delimiter rest))
    simp only [List.append_assoc]
    rw [skipItems_some scanned ((nextByte_iff _ _ _).mpr ⟨v, after, rfl, solid⟩), if_pos rfl]
  | more before text after later ih =>
    rename_i w t v body
    have scanned := scans.complete w t (v ++ ascii ',' :: (body ++ close :: rest)) before text
      (follow_blank after (follow_cons (by decide) _))
    simp only [List.append_assoc, List.cons_append]
    rw [skipItems_some scanned ((nextByte_iff _ _ _).mpr ⟨v, after, rfl, by decide⟩),
      if_neg notComma.symm, if_pos rfl]
    exact ih

theorem items_start {item : Scanner} (scans : Scans item language) {body : Bytes}
    (items : ItemsText language body) :
    ∃ w c tail, Blank w ∧ body = w ++ c :: tail ∧ isDelimiter c = false ∧
      ItemsText language (c :: tail) := by
  -- Items start, after blanks, with a byte that does not close anything.
  have none : Blank [] := by simp [Blank]
  cases items with
  | last before text after =>
    obtain ⟨c, tail, rfl, proper⟩ := scans.headed _ text
    exact ⟨_, c, _, before, rfl, proper, .last none text after⟩
  | more before text after later =>
    obtain ⟨c, tail, rfl, proper⟩ := scans.headed _ text
    exact ⟨_, c, _, before, rfl, proper, .more none text after later⟩

theorem items_blank {w body : Bytes} (blank : Blank w) (items : ItemsText language body) :
    ItemsText language (w ++ body) := by
  cases items with
  | last before text after =>
    rw [← List.append_assoc]
    exact .last (List.forall_mem_append.mpr ⟨blank, before⟩) text after
  | more before text after later =>
    rw [← List.append_assoc]
    exact .more (List.forall_mem_append.mpr ⟨blank, before⟩) text after later

theorem scans_item (scans : Scans inner language) (opening : UInt8) :
    Scans (itemScanner inner (opening == ascii '{'))
      (if opening = ascii '{' then MemberText language else language) := by
  by_cases object : opening = ascii '{'
  · simpa [object] using scans_member scans
  · have unkeyed : (opening == ascii '{') = false := by simpa using object
    rw [if_neg object, unkeyed]
    exact scans_element scans

theorem valueText_of_items {opening : UInt8} (opens : opening = ascii '{' ∨ opening = ascii '[')
    {body : Bytes}
    (items : ItemsText (if opening = ascii '{' then MemberText language else language) body) :
    ValueText language (opening :: (body ++ [closing opening])) := by
  rcases opens with rfl | rfl
  · exact .object items
  · exact .array items

theorem closing_bytes {opening : UInt8} (opens : opening = ascii '{' ∨ opening = ascii '[') :
    isDelimiter (closing opening) = true ∧ isSpace (closing opening) = false ∧
      closing opening ≠ ascii ',' := by
  rcases opens with rfl | rfl <;> decide

theorem skipContainer_sound (scans : Scans inner language) {opening : UInt8}
    (opens : opening = ascii '{' ∨ opening = ascii '[') (s rest : Bytes)
    (found : skipContainer inner opening s = some rest) :
    ∃ body, ValueText language (opening :: (body ++ [closing opening])) ∧
      s = body ++ closing opening :: rest := by
  unfold skipContainer at found
  split at found
  · simp at found
  · rename_i c tail next
    obtain ⟨w, blank, rfl, _⟩ := (nextByte_iff _ _ _).mp next
    split at found
    · rename_i closes
      obtain rfl := Option.some.inj found
      exact ⟨w, .empty opens blank, by rw [closes]⟩
    · obtain ⟨body, items, whole⟩ := skipItems_sound (scans_item scans opening) _ _ _ found
      refine ⟨w ++ body, valueText_of_items opens (items_blank blank items), ?_⟩
      rw [whole, List.append_assoc]

theorem skipContainer_items (scans : Scans inner language) {opening : UInt8}
    (opens : opening = ascii '{' ∨ opening = ascii '[') {body : Bytes}
    (items : ItemsText (if opening = ascii '{' then MemberText language else language) body)
    (rest : Bytes) : skipContainer inner opening (body ++ closing opening :: rest) = some rest := by
  have scans := scans_item scans opening
  obtain ⟨delimiter, solid, notComma⟩ := closing_bytes opens
  obtain ⟨w, c, tail, blank, rfl, proper, unspaced⟩ := items_start scans items
  have next : nextByte (w ++ c :: tail ++ closing opening :: rest) =
      some (c, tail ++ closing opening :: rest) := by
    refine (nextByte_iff _ _ _).mpr ⟨w, blank, by simp, ?_⟩
    exact solid_of_proper proper
  have notClosing : c ≠ closing opening := by
    rintro rfl
    rw [delimiter] at proper
    contradiction
  rw [skipContainer, next]
  dsimp only
  rw [if_neg notClosing]
  exact skipItems_complete scans _ delimiter solid notComma unspaced rest

theorem skipFrom_sound (scans : Scans inner language) (s rest : Bytes)
    (found : skipFrom inner s = some rest) : ∃ t, ValueText language t ∧ s = t ++ rest := by
  cases s with
  | nil => simp [skipFrom] at found
  | cons c tail =>
    rw [skipFrom] at found
    split at found
    · obtain ⟨t, text, whole⟩ := (skipString_iff _ _).mp found
      exact ⟨t, .string text, whole⟩
    · split at found
      · rename_i opens
        obtain ⟨body, value, rfl⟩ := skipContainer_sound scans opens _ _ found
        exact ⟨_, value, by simp⟩
      · obtain ⟨t, text, whole, _⟩ := (skipScalar_iff _ _).mp found
        exact ⟨t, .scalar text, whole⟩

-- Only a scalar needs something behind it to end it.
theorem skipFrom_complete (scans : Scans inner language) {t : Bytes} (value : ValueText language t)
    (rest : Bytes) (follow : ScalarText t → Follow rest) : skipFrom inner (t ++ rest) = some rest := by
  have container : ∀ (opening : UInt8) (body : Bytes),
      (opening = ascii '{' ∨ opening = ascii '[') →
      skipContainer inner opening (body ++ closing opening :: rest) = some rest →
      skipFrom inner (opening :: (body ++ [closing opening]) ++ rest) = some rest := by
    intro opening body opens found
    have notQuote : opening ≠ ascii '"' := by rcases opens with rfl | rfl <;> decide
    rw [List.cons_append, skipFrom, if_neg notQuote, if_pos opens, List.append_assoc]
    exact found
  cases value with
  | string text =>
    have found := (skipString_iff _ rest).mpr ⟨t, text, rfl⟩
    obtain ⟨items, _, rfl⟩ := text
    rw [List.cons_append, skipFrom, if_pos rfl]
    exact found
  | scalar text =>
    have found := (skipScalar_iff _ rest).mpr ⟨t, text, rfl, follow text⟩
    obtain ⟨c, tail, rfl, notQuote, notBrace, notBracket⟩ := scalar_head text
    rw [List.cons_append, skipFrom, if_neg notQuote, if_neg (not_or.mpr ⟨notBrace, notBracket⟩)]
    exact found
  | empty opens blank =>
    rename_i opening w
    refine container opening w opens ?_
    rw [skipContainer,
      (nextByte_iff _ _ _).mpr ⟨w, blank, rfl, (closing_bytes opens).2.1⟩]
    dsimp only
    rw [if_pos rfl]
  | object members =>
    exact container _ _ (.inl rfl) (skipContainer_items scans (.inl rfl) members rest)
  | array elements =>
    exact container _ _ (.inr rfl) (skipContainer_items scans (.inr rfl) elements rest)

theorem valueText_headed {t : Bytes} (value : ValueText language t) :
    ∃ c tail, t = c :: tail ∧ isDelimiter c = false := by
  cases value with
  | string text =>
    obtain ⟨items, _, rfl⟩ := text
    exact ⟨_, _, rfl, by decide⟩
  | scalar text =>
    obtain ⟨c, tail, rfl, _⟩ := scalar_head text
    exact ⟨c, tail, rfl, scalar_solid text c (by simp)⟩
  | empty opens blank =>
    exact ⟨_, _, rfl, by rcases opens with rfl | rfl <;> decide⟩
  | object members => exact ⟨_, _, rfl, by decide⟩
  | array elements => exact ⟨_, _, rfl, by decide⟩

theorem scans_value {levels : Nat} (scans : Scans (skipValue levels) language) :
    Scans (skipValue (levels + 1)) (ValueText language) where
  sound s rest found := by
    obtain ⟨t, value, whole⟩ := skipFrom_sound scans (skipSpace s) rest found
    obtain ⟨w, blank, spaced⟩ := exists_blank s
    exact ⟨w, t, blank, value, by rw [← whole, ← spaced]⟩
  complete w t rest blank value follow := by
    obtain ⟨c, tail, rfl, proper⟩ := valueText_headed value
    have stops : Stops isSpace (c :: tail ++ rest) := by simpa using solid_of_proper proper
    have spaced := skipSpace_run blank stops
    exact (congrArg (skipFrom (skipValue levels)) spaced).trans
      (skipFrom_complete scans value rest fun _ => follow)
  headed _ value := valueText_headed value

theorem scans_skipValue (levels : Nat) : Scans (skipValue (levels + 1)) (Value levels) := by
  induction levels with
  | zero =>
    refine scans_value ⟨?_, ?_, ?_⟩
    · intro s rest found
      simp [skipValue] at found
    · exact fun _ _ _ _ impossible => impossible.elim
    · exact fun _ impossible => impossible.elim
  | succ levels ih => exact scans_value ih

end Values

theorem scans_valueScanner : Scans valueScanner (Value kMaxDepth) := scans_skipValue kMaxDepth

theorem skipSpace_isEmpty (s : Bytes) : (skipSpace s).isEmpty = true ↔ Blank s := by
  rw [List.isEmpty_iff, skipSpace, List.dropWhile_eq_nil_iff]
  rfl

theorem text_iff {scanner : Scanner} {language : Bytes → Prop} (scans : Scans scanner language)
    (s : Bytes) :
    Text language s ↔ ∃ rest, scanner.run s = some rest ∧ (skipSpace rest).isEmpty = true := by
  constructor
  · rintro ⟨w, t, v, blank, text, after, rfl⟩
    have follow : Follow v := by simpa using follow_blank after Spans.stops_nil
    exact ⟨v, scans.complete w t v blank text follow, (skipSpace_isEmpty v).mpr after⟩
  · rintro ⟨rest, found, empty⟩
    obtain ⟨w, t, blank, text, rfl⟩ := scans.sound _ _ found
    exact ⟨w, t, rest, blank, text, (skipSpace_isEmpty rest).mp empty, rfl⟩

theorem wellFormed_iff (s : Bytes) : wellFormed s = true ↔ Text (Value kMaxDepth) s := by
  rw [text_iff scans_valueScanner, wellFormed]
  split <;> simp_all

end Json

end Crossbook
