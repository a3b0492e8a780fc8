import Crossbook.Json.Listing

set_option autoImplicit false

namespace Crossbook

namespace Json

open Spans (Stops)

def IsMember (value : Bytes → Prop) (t : Bytes) (member : Bytes × Bytes) : Prop :=
  StringItems member.1 ∧ value member.2 ∧ ∃ w v, Blank w ∧ Blank v ∧
    t = ascii '"' :: (member.1 ++ [ascii '"']) ++ (w ++ ascii ':' :: (v ++ member.2))

def IsElement (value : Bytes → Prop) (t element : Bytes) : Prop := value element ∧ t = element

theorem isMember_iff (value : Bytes → Prop) (t : Bytes) :
    (∃ member, IsMember value t member) ↔ MemberText value t := by
  constructor
  · rintro ⟨⟨key, text⟩, items, inner, w, v, before, after, rfl⟩
    exact ⟨_, w, v, text, ⟨key, items, rfl⟩, before, after, inner, rfl⟩
  · rintro ⟨_, w, v, text, ⟨key, items, rfl⟩, before, after, inner, rfl⟩
    exact ⟨(key, text), items, inner, w, v, before, after, rfl⟩

theorem isElement_iff (value : Bytes → Prop) (t : Bytes) :
    (∃ element, IsElement value t element) ↔ value t := by
  constructor
  · rintro ⟨_, inner, rfl⟩
    exact inner
  · exact fun inner => ⟨t, inner, rfl⟩

section Readable

variable {inner : Scanner} {language : Bytes → Prop}

theorem isMember_unique (scans : Scans inner language) (t : Bytes) (a b : Bytes × Bytes)
    (left : IsMember language t a) (right : IsMember language t b) : a = b := by
  obtain ⟨items, value, w, v, before, after, rfl⟩ := left
  obtain ⟨items', value', w', v', before', after', same⟩ := right
  -- A scan ends both keys at the same quote, and what is behind it is the same text.
  have keyed := (skipString_iff _ (w ++ ascii ':' :: (v ++ a.2))).mpr ⟨_, ⟨a.1, items, rfl⟩, rfl⟩
  rw [same, (skipString_iff _ _).mpr ⟨_, ⟨b.1, items', rfl⟩, rfl⟩] at keyed
  have behind := Option.some.inj keyed
  rw [behind] at same
  have quoted := (List.cons_eq_cons.mp (List.append_cancel_right same)).2
  have key : a.1 = b.1 := List.append_cancel_right quoted
  have next := (nextByte_iff _ (ascii ':') (v ++ a.2)).mpr ⟨w, before, rfl, by decide⟩
  rw [← behind, (nextByte_iff _ (ascii ':') _).mpr ⟨w', before', rfl, by decide⟩] at next
  have texts := (Prod.mk.inj (Option.some.inj next)).2
  have solid : ∀ t, language t → Stops isSpace t := by
    intro t text
    obtain ⟨c, tail, rfl, proper⟩ := scans.headed t text
    simpa using solid_of_proper proper
  have value : a.2 = b.2 := by
    rw [← skipSpace_run after (solid _ value), ← skipSpace_run after' (solid _ value'), texts]
  exact Prod.ext key value

theorem readable_member (scans : Scans inner language) :
    Readable (itemScanner inner true) (IsMember language) where
  scans := by
    have same : (fun t => ∃ member, IsMember language t member) = MemberText language :=
      funext fun t => propext (isMember_iff language t)
    rw [same]
    exact scans_member scans
  unique := isMember_unique scans

theorem readable_element (scans : Scans inner language) :
    Readable (itemScanner inner false) (IsElement language) where
  scans := by
    have same : (fun t => ∃ element, IsElement language t element) = language :=
      funext fun t => propext (isElement_iff language t)
    rw [same]
    exact scans_element scans
  unique _ _ _ left right := left.2.symm.trans right.2

end Readable

def AnyValue (t : Bytes) : Prop := ∃ levels, Value levels t

theorem value_mono_le {low high : Nat} (within : low ≤ high) (t : Bytes) (value : Value low t) :
    Value high t := by
  induction within with
  | refl => exact value
  | step _ ih => exact value_mono _ t ih

theorem isMember_mono {P Q : Bytes → Prop} (sub : ∀ t, P t → Q t) (t : Bytes)
    (member : Bytes × Bytes) (isMember : IsMember P t member) : IsMember Q t member :=
  ⟨isMember.1, sub _ isMember.2.1, isMember.2.2⟩

theorem isElement_mono {P Q : Bytes → Prop} (sub : ∀ t, P t → Q t) (t element : Bytes)
    (isElement : IsElement P t element) : IsElement Q t element :=
  ⟨sub _ isElement.1, isElement.2⟩

section Levels

variable {α : Type} {item : (Bytes → Prop) → Bytes → α → Prop}

theorem listed_levels (mono : ∀ {P Q : Bytes → Prop}, (∀ t, P t → Q t) →
      ∀ t a, item P t a → item Q t a)
    (level : ∀ t a, item AnyValue t a → ∃ levels, item (Value levels) t a) {body : Bytes}
    {items : List α} (listed : Listed (item AnyValue) body items) :
    ∃ levels, Listed (item (Value levels)) body items := by
  -- Finitely many items of any depth share a depth.
  induction listed with
  | last before text after =>
    obtain ⟨levels, text⟩ := level _ _ text
    exact ⟨levels, .last before text after⟩
  | more before text after _ ih =>
    obtain ⟨levels, text⟩ := level _ _ text
    obtain ⟨others, later⟩ := ih
    -- The larger of the two depths serves both.
    refine ⟨max levels others, .more before ?_ after ?_⟩
    · exact mono (value_mono_le (le_max_left _ _)) _ _ text
    · exact listed_mono (mono (value_mono_le (le_max_right _ _))) later

theorem holds_levels (mono : ∀ {P Q : Bytes → Prop}, (∀ t, P t → Q t) →
      ∀ t a, item P t a → item Q t a)
    (level : ∀ t a, item AnyValue t a → ∃ levels, item (Value levels) t a) {opening : UInt8}
    {t : Bytes} {items : List α} (holds : Holds opening (item AnyValue) t items) :
    ∃ levels, Holds opening (item (Value levels)) t items := by
  rcases holds with empty | ⟨body, listed, whole⟩
  · exact ⟨0, .inl empty⟩
  · obtain ⟨levels, listed⟩ := listed_levels mono level listed
    exact ⟨levels, .inr ⟨body, listed, whole⟩⟩

theorem holds_any_unique (mono : ∀ {P Q : Bytes → Prop}, (∀ t, P t → Q t) →
      ∀ t a, item P t a → item Q t a)
    (level : ∀ t a, item AnyValue t a → ∃ levels, item (Value levels) t a)
    (readable : ∀ levels, ∃ scanner, Readable scanner (item (Value levels))) {opening : UInt8}
    {t : Bytes} {items items' : List α} (holds : Holds opening (item AnyValue) t items)
    (holds' : Holds opening (item AnyValue) t items') : items = items' := by
  obtain ⟨levels, holds⟩ := holds_levels mono level holds
  obtain ⟨others, holds'⟩ := holds_levels mono level holds'
  -- At a depth that serves both lists one scanner reads them.
  obtain ⟨scanner, readable⟩ := readable (max levels others)
  exact holds_unique readable (holds_mono (mono (value_mono_le (le_max_left _ _))) holds)
    (holds_mono (mono (value_mono_le (le_max_right _ _))) holds')

end Levels

def Members (t : Bytes) (items : List (Bytes × Bytes)) : Prop :=
  Holds (ascii '{') (IsMember AnyValue) t items

def Elements (t : Bytes) (items : List Bytes) : Prop :=
  Holds (ascii '[') (IsElement AnyValue) t items

theorem members_unique {t : Bytes} {items items' : List (Bytes × Bytes)}
    (left : Members t items) (right : Members t items') : items = items' := by
  refine holds_any_unique isMember_mono ?_ ?_ left right
  · rintro t member ⟨key, ⟨levels, value⟩, rest⟩
    exact ⟨levels, key, value, rest⟩
  · exact fun levels => ⟨_, readable_member (scans_skipValue levels)⟩

theorem elements_unique {t : Bytes} {items items' : List Bytes}
    (left : Elements t items) (right : Elements t items') : items = items' := by
  refine holds_any_unique isElement_mono ?_ ?_ left right
  · rintro t element ⟨⟨levels, value⟩, same⟩
    exact ⟨levels, value, same⟩
  · exact fun levels => ⟨_, readable_element (scans_skipValue levels)⟩

inductive Spells : JsonType → Bytes → Prop
  | object {t : Bytes} {items : List (Bytes × Bytes)} (holds : Members t items) : Spells .object t
  | array {t : Bytes} {items : List Bytes} (holds : Elements t items) : Spells .array t
  | string {t : Bytes} (text : StringText t) : Spells .string t
  | number {t : Bytes} (text : NumberText t) : Spells .number t
  | bool {t : Bytes} (text : t = bytes "true" ∨ t = bytes "false") : Spells .bool t
  | null {t : Bytes} (text : t = bytes "null") : Spells .null t

theorem readMember_spelled (s : Bytes) (member : Bytes × JsonValue) (rest : Bytes)
    (read : readMember s = some (member, rest)) :
    ∃ w t, Blank w ∧ IsMember AnyValue t (member.1, member.2.raw) ∧ s = w ++ (t ++ rest) := by
  obtain ⟨afterKey, inside, keyed, next, value, named⟩ := readMember_cases read
  obtain ⟨delivered, v, blankAfter, rfl⟩ := readValue_spelled _ _ _ value
  obtain ⟨w, blank, spaced⟩ := exists_blank s
  obtain ⟨_, ⟨key, items, rfl⟩, whole⟩ := (skipString_iff _ _).mp keyed
  obtain ⟨u, blankBefore, rfl, _⟩ := (nextByte_iff _ _ _).mp next
  rw [whole] at spaced named
  rw [named, span_append, List.tail_cons, List.dropLast_concat]
  exact ⟨w, _, blank, ⟨items, ⟨kMaxDepth, delivered.text⟩, u, v, blankBefore, blankAfter, rfl⟩,
    by simp [spaced]⟩

theorem readElement_spelled (s : Bytes) (value : JsonValue) (rest : Bytes)
    (read : readValue s = some (value, rest)) :
    ∃ w t, Blank w ∧ IsElement AnyValue t value.raw ∧ s = w ++ (t ++ rest) := by
  obtain ⟨delivered, w, blank, whole⟩ := readValue_spelled s value rest read
  exact ⟨w, value.raw, blank, ⟨⟨kMaxDepth, delivered.text⟩, rfl⟩, whole⟩

def spelledMember (member : Bytes × JsonValue) : Bytes × Bytes := (member.1, member.2.raw)

theorem Delivered.members {value : JsonValue} (delivered : Delivered value)
    (object : value.type = .object) :
    Members value.raw ((members value.raw).map spelledMember) := by
  have starts := (classify_object _).mp (delivered.kind.symm.trans object)
  obtain ⟨inside, whole⟩ := delivered.opened starts
  have closed := delivered.closed (.inl rfl) starts memberReader_tracks
  rw [whole] at closed ⊢
  exact contentsOf_holds spelledMember readMember_spelled (ascii '{') inside (by decide) closed

theorem Delivered.elements {value : JsonValue} (delivered : Delivered value)
    (array : value.type = .array) :
    Elements value.raw ((elements value.raw).map JsonValue.raw) := by
  have starts := (classify_array _).mp (delivered.kind.symm.trans array)
  obtain ⟨inside, whole⟩ := delivered.opened starts
  have closed := delivered.closed (.inr rfl) starts elementReader_tracks
  rw [whole] at closed ⊢
  exact contentsOf_holds JsonValue.raw readElement_spelled (ascii '[') inside (by decide) closed

theorem nextByte_solid {c : UInt8} (solid : isSpace c = false) (rest : Bytes) :
    nextByte (c :: rest) = some (c, rest) :=
  (nextByte_iff _ _ _).mpr ⟨[], by simp [Blank], rfl, solid⟩

theorem holds_head {α : Type} {opening : UInt8} {item : Bytes → α → Prop} {t : Bytes}
    {items : List α} (solid : isSpace opening = false) (holds : Holds opening item t items) :
    ∃ rest, nextByte t = some (opening, rest) := by
  rcases holds with ⟨_, _, rfl, _⟩ | ⟨_, _, rfl⟩ <;> exact ⟨_, nextByte_solid solid _⟩

theorem number_classified {t : Bytes} (text : NumberText t) : classify t = .number := by
  obtain ⟨c, tail, rfl, notQuote, notBrace, notBracket⟩ := scalar_head (.inr (.inr (.inr text)))
  have numeric := isJsonNumber_head c tail ((isJsonNumber_iff _).mpr text)
  have proper := number_solid text c (by simp)
  have spaced : skipSpace (c :: tail) = c :: tail := by
    simp [skipSpace, solid_of_proper proper]
  have notLetter : ∀ letter : UInt8, letter ≠ ascii '-' → isDigit letter = false → c ≠ letter := by
    rintro letter notMinus notDigit rfl
    rcases numeric with minus | digit
    · exact notMinus minus
    · rw [notDigit] at digit
      contradiction
  rw [classify_cons spaced, if_neg notBrace, if_neg notBracket, if_neg notQuote,
    if_neg (not_or.mpr ⟨notLetter _ (by decide) (by decide), notLetter _ (by decide) (by decide)⟩),
    if_neg (notLetter _ (by decide) (by decide)), if_pos numeric]

theorem Spells.classified {kind : JsonType} {t : Bytes} (spells : Spells kind t) :
    classify t = kind := by
  cases spells with
  | object holds => exact (classify_object t).mpr (holds_head (by decide) holds)
  | array holds => exact (classify_array t).mpr (holds_head (by decide) holds)
  | string text =>
    obtain ⟨items, _, rfl⟩ := text
    rw [classify_cons (by simp [skipSpace, isSpace, ascii])]
    decide
  | number text => exact number_classified text
  | bool text => rcases text with rfl | rfl <;> decide
  | null text => rw [text]; decide

theorem Delivered.spells {value : JsonValue} (delivered : Delivered value) :
    Spells value.type value.raw := by
  obtain ⟨raw, type⟩ := value
  have text : ValueText (Value (kMaxDepth - 1)) raw := delivered.text
  have byKind : ∀ kind, Spells kind raw → Spells type raw := by
    intro kind spells
    have same : type = classify raw := delivered.kind
    rwa [same, spells.classified]
  -- The first byte decides which of the two containers it is.
  have container : ∀ opening inside, opening = ascii '{' ∨ opening = ascii '[' →
      raw = opening :: inside → Spells type raw := by
    rintro opening inside (rfl | rfl) whole
    · have object : type = .object := delivered.kind.trans
        ((classify_object raw).mpr ⟨inside, whole ▸ nextByte_solid (by decide) inside⟩)
      rw [object]
      exact .object (delivered.members object)
    · have array : type = .array := delivered.kind.trans
        ((classify_array raw).mpr ⟨inside, whole ▸ nextByte_solid (by decide) inside⟩)
      rw [array]
      exact .array (delivered.elements array)
  cases text with
  | string text => exact byKind .string (.string text)
  | scalar text =>
    rcases text with isTrue | isFalse | isNull | number
    · exact byKind .bool (.bool (.inl isTrue))
    · exact byKind .bool (.bool (.inr isFalse))
    · exact byKind .null (.null isNull)
    · exact byKind .number (.number number)
  | empty opens blank => exact container _ _ opens rfl
  | object _ => exact container _ _ (.inl rfl) rfl
  | array _ => exact container _ _ (.inr rfl) rfl

theorem valueText_last {language : Bytes → Prop} {t : Bytes} (value : ValueText language t) :
    ∀ c ∈ t.getLast?, isSpace c = false := by
  have ended : ∀ (front : Bytes) (last : UInt8), isSpace last = false →
      ∀ c ∈ (front ++ [last]).getLast?, isSpace c = false := by
    intro front last solid c isLast
    rw [List.getLast?_concat, Option.mem_some_iff] at isLast
    rwa [← isLast]
  cases value with
  | string text =>
    obtain ⟨items, _, rfl⟩ := text
    exact ended (ascii '"' :: items) _ (by decide)
  | scalar text =>
    intro c isLast
    exact solid_of_proper (scalar_solid text c (List.mem_of_getLast? isLast))
  | empty opens blank => exact ended (_ :: _) _ (closing_bytes opens).2.1
  | object _ => exact ended (_ :: _) _ (by decide)
  | array _ => exact ended (_ :: _) _ (by decide)

/-- A value that a lookup in some bytes or a walk over them hands out. -/
inductive HandedOut (s : Bytes) : JsonValue → Prop
  | found (key : Bytes) (present : (find s key).ok = true) : HandedOut s (find s key)
  | member {σ : Type} (fn : σ → Bytes × JsonValue → σ × Bool) (state : σ) (key : Bytes)
      (value : JsonValue) (visited : (key, value) ∈ visitedMembers s fn state) : HandedOut s value
  | element {σ : Type} (fn : σ → JsonValue → σ × Bool) (state : σ) (value : JsonValue)
      (visited : value ∈ visitedElements s fn state) : HandedOut s value

/-- A value come to by looking into one value after the other. -/
inductive Reached (s : Bytes) : JsonValue → Prop
  | once {value : JsonValue} (handed : HandedOut s value) : Reached s value
  | inside {outer value : JsonValue} (reached : Reached s outer)
      (handed : HandedOut outer.raw value) : Reached s value

/-- What scanning a value's bytes again finds. -/
structure Rescans (value : JsonValue) : Prop where
  wellFormed : wellFormed value.raw = true
  noLeading : ∀ c ∈ value.raw.head?, isSpace c = false
  noTrailing : ∀ c ∈ value.raw.getLast?, isSpace c = false
  valid : value.type ≠ .invalid
  kind : ∀ kind, Spells kind value.raw ↔ kind = value.type
  object : value.type = .object →
    ∀ (σ : Type) (fn : σ → Bytes × JsonValue → σ × Bool) (state : σ),
      (forEachMember value.raw fn state).2 = true
  members : value.type = .object →
    ∀ (σ : Type) (fn : σ → Bytes × JsonValue → σ × Bool) (state : σ),
      (∀ state member, (fn state member).2 = true) →
      ∀ items, Members value.raw items ↔
        items = (visitedMembers value.raw fn state).map spelledMember
  array : value.type = .array →
    ∀ (σ : Type) (fn : σ → JsonValue → σ × Bool) (state : σ), (forEach value.raw fn state).2 = true
  elements : value.type = .array →
    ∀ (σ : Type) (fn : σ → JsonValue → σ × Bool) (state : σ),
      (∀ state element, (fn state element).2 = true) →
      ∀ items, Elements value.raw items ↔
        items = (visitedElements value.raw fn state).map JsonValue.raw

theorem HandedOut.delivered {s : Bytes} {value : JsonValue} (handed : HandedOut s value) :
    Delivered value := by
  cases handed with
  | found key present =>
    rw [find_eq_firstRaw] at present ⊢
    exact firstRaw_delivered key s present
  | member fn state key value visited =>
    exact members_delivered s (key, value) ((visitedMembers_front s fn state).subset visited)
  | element fn state value visited =>
    exact elements_delivered s value ((visitedElements_front s fn state).subset visited)

theorem Reached.delivered {s : Bytes} {value : JsonValue} (reached : Reached s value) :
    Delivered value := by
  cases reached with
  | once handed => exact handed.delivered
  | inside _ handed => exact handed.delivered

theorem Delivered.rescans {value : JsonValue} (delivered : Delivered value) : Rescans value where
  wellFormed := (wellFormed_iff _).mpr
    ⟨[], value.raw, [], by simp [Blank], delivered.text, by simp [Blank], by simp⟩
  noLeading := by
    obtain ⟨c, tail, whole, proper⟩ := scans_valueScanner.headed _ delivered.text
    rw [whole]
    simpa using solid_of_proper proper
  noTrailing := by
    have text : ValueText (Value (kMaxDepth - 1)) value.raw := delivered.text
    exact valueText_last text
  valid := by
    intro invalid
    have spells := delivered.spells
    rw [invalid] at spells
    cases spells
  kind kind := by
    constructor
    · intro spells
      rw [delivered.kind, spells.classified]
    · rintro rfl
      exact delivered.spells
  object object _ fn state := delivered.forEachMember_walked object fn state
  members object _ fn state goes items := by
    rw [visitedMembers_eq _ fn goes]
    constructor
    · exact fun holds => members_unique holds (delivered.members object)
    · rintro rfl
      exact delivered.members object
  array array _ fn state := delivered.forEach_walked array fn state
  elements array _ fn state goes items := by
    rw [visitedElements_eq _ fn goes]
    constructor
    · exact fun holds => elements_unique holds (delivered.elements array)
    · rintro rfl
      exact delivered.elements array

/-- Whatever is read out of a frame can be read again, however far down it stands. -/
theorem reached_rescans (s : Bytes) (value : JsonValue) (reached : Reached s value) :
    Rescans value := reached.delivered.rescans

def nestedFrame : Bytes := bytes "\x7b\"data\":\x7b\"bids\":[[\"1\",\"2\"], []]\x7d\x7d"

theorem reached_rescans_nested :
    Rescans (find (find nestedFrame (bytes "data")).raw (bytes "bids")) :=
  reached_rescans nestedFrame _
    (.inside (.once (.found (bytes "data") (by decide +kernel)))
      (.found (bytes "bids") (by decide +kernel)))

end Json

end Crossbook
