import Crossbook.Json.Rescan
import Crossbook.Lib.Decimal

set_option autoImplicit false

namespace Crossbook

namespace Json

open Spans (Stops)

/-- What a document means. Numbers and strings are kept as they are spelled. -/
inductive Tree where
  | null
  | bool (value : Bool)
  | number (text : Bytes)
  | string (body : Bytes)
  | array (elements : List Tree)
  | object (fields : List (Bytes × Tree))

section Meaning

variable (inner : Bytes → Tree → Prop)

def FieldText (t : Bytes) (field : Bytes × Tree) : Prop :=
  ∃ text, IsMember (fun value => inner value field.2) t (field.1, text)

inductive TreeText : Bytes → Tree → Prop
  | null : TreeText (bytes "null") .null
  | bool (value : Bool) : TreeText (bytes (if value then "true" else "false")) (.bool value)
  | number {t : Bytes} (text : NumberText t) : TreeText t (.number t)
  | string {items : Bytes} (text : StringItems items) :
      TreeText (ascii '"' :: (items ++ [ascii '"'])) (.string items)
  | array {t : Bytes} {elements : List Tree} (holds : Holds (ascii '[') inner t elements) :
      TreeText t (.array elements)
  | object {t : Bytes} {fields : List (Bytes × Tree)}
      (holds : Holds (ascii '{') (FieldText inner) t fields) : TreeText t (.object fields)

end Meaning

def Denotes : Nat → Bytes → Tree → Prop
  | 0 => TreeText fun _ _ => False
  | levels + 1 => TreeText (Denotes levels)

section Reading

variable (inner : JsonValue → Option Tree)

def readField (member : Bytes × JsonValue) : Option (Bytes × Tree) :=
  (inner member.2).map fun tree => (member.1, tree)

def readWith (value : JsonValue) : Option Tree :=
  match value.type with
  | .invalid => none
  | .null => some .null
  | .bool => some (.bool (value.raw == bytes "true"))
  | .number => some (.number value.raw)
  | .string => some (.string value.raw.tail.dropLast)
  | .array => ((elements value.raw).mapM inner).map Tree.array
  | .object => ((members value.raw).mapM (readField inner)).map Tree.object

end Reading

def readTree : Nat → JsonValue → Option Tree
  | 0 => readWith fun _ => none
  | levels + 1 => readWith (readTree levels)

def readDocument (s : Bytes) : Option Tree :=
  match readValue s with
  | none => none
  | some (value, rest) => if (skipSpace rest).isEmpty then readTree kMaxDepth value else none

section Lists

variable {α β : Type} {item : Bytes → β → Prop} {spelled : Bytes → α → Prop} {R : α → β → Prop}

theorem listed_split (split : ∀ t b, item t b → ∃ a, spelled t a ∧ R a b) {body : Bytes}
    {items : List β} (listed : Listed item body items) :
    ∃ texts, Listed spelled body texts ∧ List.Forall₂ R texts items := by
  induction listed with
  | last before text after =>
    obtain ⟨a, here, related⟩ := split _ _ text
    exact ⟨[a], .last before here after, .cons related .nil⟩
  | more before text after _ ih =>
    obtain ⟨a, here, related⟩ := split _ _ text
    obtain ⟨texts, later, others⟩ := ih
    exact ⟨a :: texts, .more before here after later, .cons related others⟩

theorem holds_split (split : ∀ t b, item t b → ∃ a, spelled t a ∧ R a b) {opening : UInt8}
    {t : Bytes} {items : List β} (holds : Holds opening item t items) :
    ∃ texts, Holds opening spelled t texts ∧ List.Forall₂ R texts items := by
  rcases holds with ⟨w, blank, whole, rfl⟩ | ⟨body, listed, whole⟩
  · exact ⟨[], .inl ⟨w, blank, whole, rfl⟩, .nil⟩
  · obtain ⟨texts, listed, related⟩ := listed_split split listed
    exact ⟨texts, .inr ⟨body, listed, whole⟩, related⟩

theorem listed_items {P : Bytes → Prop} (texts : ∀ t b, item t b → P t) {body : Bytes}
    {items : List β} (listed : Listed item body items) : ItemsText P body := by
  induction listed with
  | last before text after => exact .last before (texts _ _ text) after
  | more before text after _ ih => exact .more before (texts _ _ text) after ih

theorem items_listed {P : Bytes → Prop} (means : ∀ t, P t → ∃ b, item t b) {body : Bytes}
    (items : ItemsText P body) : ∃ list, Listed item body list := by
  induction items with
  | last before text after =>
    obtain ⟨b, here⟩ := means _ text
    exact ⟨[b], .last before here after⟩
  | more before text after _ ih =>
    obtain ⟨b, here⟩ := means _ text
    obtain ⟨list, later⟩ := ih
    exact ⟨b :: list, .more before here after later⟩

theorem mapM_forall₂ {f : α → Option β} {xs : List α} {ys : List β}
    (related : List.Forall₂ (fun x y => f x = some y) xs ys) : xs.mapM f = some ys := by
  induction related with
  | nil => rfl
  | cons here _ ih => simp [List.mapM_cons, here, ih]

end Lists

section Values

variable {meaning : Bytes → Tree → Prop} {language : Bytes → Prop}

theorem treeText_value (sub : ∀ t tree, meaning t tree → language t) {t : Bytes} {tree : Tree}
    (text : TreeText meaning t tree) : ValueText language t := by
  cases text with
  | null => exact .scalar (.inr (.inr (.inl rfl)))
  | bool value =>
    cases value with
    | true => exact .scalar (.inl rfl)
    | false => exact .scalar (.inr (.inl rfl))
  | number text => exact .scalar (.inr (.inr (.inr text)))
  | string text => exact .string ⟨_, text, rfl⟩
  | array holds =>
    rcases holds with ⟨w, blank, rfl, -⟩ | ⟨body, listed, rfl⟩
    · exact .empty (.inr rfl) blank
    · exact .array (listed_items sub listed)
  | object holds =>
    rcases holds with ⟨w, blank, rfl, -⟩ | ⟨body, listed, rfl⟩
    · exact .empty (.inl rfl) blank
    · refine .object (listed_items (fun t field text => ?_) listed)
      obtain ⟨value, member⟩ := text
      exact (isMember_iff language t).mp ⟨_, isMember_mono (fun t => sub t field.2) t _ member⟩

theorem valueText_tree (means : ∀ t, language t → ∃ tree, meaning t tree) {t : Bytes}
    (value : ValueText language t) : ∃ tree, TreeText meaning t tree := by
  cases value with
  | string text =>
    obtain ⟨items, text, rfl⟩ := text
    exact ⟨_, .string text⟩
  | scalar text =>
    rcases text with rfl | rfl | rfl | number
    · exact ⟨_, .bool true⟩
    · exact ⟨_, .bool false⟩
    · exact ⟨_, .null⟩
    · exact ⟨_, .number number⟩
  | empty opens blank =>
    rcases opens with rfl | rfl
    · exact ⟨.object [], .object (.inl ⟨_, blank, rfl, rfl⟩)⟩
    · exact ⟨.array [], .array (.inl ⟨_, blank, rfl, rfl⟩)⟩
  | object members =>
    have field (t : Bytes) (text : MemberText language t) : ∃ field, FieldText meaning t field := by
      obtain ⟨⟨key, value⟩, items, inside, spelling⟩ := (isMember_iff language t).mpr text
      obtain ⟨tree, means⟩ := means value inside
      exact ⟨(key, tree), value, items, means, spelling⟩
    obtain ⟨fields, listed⟩ := items_listed field members
    exact ⟨_, .object (.inr ⟨_, listed, rfl⟩)⟩
  | array elements =>
    obtain ⟨trees, listed⟩ := items_listed means elements
    exact ⟨_, .array (.inr ⟨_, listed, rfl⟩)⟩

end Values

theorem denotes_value (levels : Nat) (t : Bytes) (tree : Tree) (text : Denotes levels t tree) :
    Value levels t := by
  induction levels generalizing t tree with
  | zero => exact treeText_value (fun _ _ impossible => impossible) text
  | succ levels ih => exact treeText_value ih text

theorem value_denotes (levels : Nat) (t : Bytes) (value : Value levels t) :
    ∃ tree, Denotes levels t tree := by
  induction levels generalizing t with
  | zero => exact valueText_tree (fun _ impossible => impossible.elim) value
  | succ levels ih => exact valueText_tree ih value

section Agreement

variable {meaning : Bytes → Tree → Prop} {inner : JsonValue → Option Tree}
  (values : ∀ t tree, meaning t tree → AnyValue t)
  (agree : ∀ value tree, Delivered value → meaning value.raw tree → inner value = some tree)

include values agree

theorem elements_trees {raw : Bytes} {trees : List Tree} (delivered : Delivered ⟨raw, .array⟩)
    (holds : Holds (ascii '[') meaning raw trees) : (elements raw).mapM inner = some trees := by
  have split (t : Bytes) (tree : Tree) (text : meaning t tree) :
      ∃ element, IsElement AnyValue t element ∧ meaning element tree :=
    ⟨t, ⟨values t tree text, rfl⟩, text⟩
  obtain ⟨texts, spelled, related⟩ := holds_split split holds
  -- A walk hands out the very texts that the trees are read from.
  have walked := elements_unique (delivered.elements rfl) spelled
  rw [← walked, List.forall₂_map_left_iff] at related
  refine mapM_forall₂ (List.forall₂_iff_get.mpr ⟨related.length_eq, fun i inside inside' => ?_⟩)
  exact agree _ _ (elements_delivered raw _ (List.get_mem _ _)) (related.get inside inside')

theorem members_trees {raw : Bytes} {fields : List (Bytes × Tree)}
    (delivered : Delivered ⟨raw, .object⟩)
    (holds : Holds (ascii '{') (FieldText meaning) raw fields) :
    (members raw).mapM (readField inner) = some fields := by
  have split (t : Bytes) (field : Bytes × Tree) (text : FieldText meaning t field) :
      ∃ member, IsMember AnyValue t member ∧ member.1 = field.1 ∧ meaning member.2 field.2 := by
    obtain ⟨value, member⟩ := text
    exact ⟨_, isMember_mono (fun text => values text field.2) t _ member, rfl, member.2.1⟩
  obtain ⟨texts, spelled, related⟩ := holds_split split holds
  have walked := members_unique (delivered.members rfl) spelled
  rw [← walked, List.forall₂_map_left_iff] at related
  refine mapM_forall₂ (List.forall₂_iff_get.mpr ⟨related.length_eq, fun i inside inside' => ?_⟩)
  obtain ⟨key, means⟩ := related.get inside inside'
  rw [readField, agree _ _ (members_delivered raw _ (List.get_mem _ _)) means]
  exact congrArg some (Prod.ext key rfl)

theorem readWith_tree {raw : Bytes} {tree : Tree} (delivered : Delivered ⟨raw, classify raw⟩)
    (text : TreeText meaning raw tree) : readWith inner ⟨raw, classify raw⟩ = some tree := by
  cases text with
  | null => rw [(Spells.null rfl).classified]; rfl
  | bool value =>
    have kind : classify (bytes (if value then "true" else "false")) = .bool :=
      (Spells.bool (by cases value <;> simp)).classified
    rw [kind]
    cases value <;> rfl
  | number text =>
    rw [number_classified text]
    rfl
  | string text =>
    rw [(Spells.string ⟨_, text, rfl⟩).classified]
    simp [readWith]
  | array holds =>
    have kind := (classify_array raw).mpr (holds_head (by decide) holds)
    rw [kind] at delivered ⊢
    simp only [readWith, elements_trees values agree delivered holds, Option.map_some]
  | object holds =>
    have kind := (classify_object raw).mpr (holds_head (by decide) holds)
    rw [kind] at delivered ⊢
    simp only [readWith, members_trees values agree delivered holds, Option.map_some]

end Agreement

theorem readTree_denotes (levels : Nat) (value : JsonValue) (tree : Tree)
    (delivered : Delivered value) (text : Denotes levels value.raw tree) :
    readTree levels value = some tree := by
  obtain ⟨raw, type⟩ := value
  obtain rfl : type = classify raw := delivered.kind
  induction levels generalizing raw tree with
  | zero => exact readWith_tree (fun _ _ => False.elim) (fun _ _ _ => False.elim) delivered text
  | succ levels ih =>
    refine readWith_tree (fun t tree text => ⟨levels, denotes_value levels t tree text⟩) ?_ delivered
      text
    intro value tree delivered text
    obtain ⟨raw, type⟩ := value
    obtain rfl : type = classify raw := delivered.kind
    exact ih tree raw delivered text

theorem readDocument_text {s : Bytes} {tree : Tree}
    (text : Text (fun t => Denotes kMaxDepth t tree) s) : readDocument s = some tree := by
  obtain ⟨w, t, v, before, means, after, rfl⟩ := text
  obtain ⟨c, tail, headed, proper⟩ :=
    scans_valueScanner.headed t (denotes_value kMaxDepth t tree means)
  have stops : Stops isSpace (t ++ v) := by simpa [headed] using solid_of_proper proper
  have follow : Follow v := by simpa using follow_blank after Spans.stops_nil
  have scanned := scans_valueScanner.complete [] t v (by simp [Blank])
    (denotes_value kMaxDepth t tree means) follow
  rw [List.nil_append] at scanned
  have kind := classify_append ⟨c, tail, headed, proper⟩ v
  have delivered : Delivered ⟨t, classify t⟩ := ⟨denotes_value kMaxDepth t tree means, rfl⟩
  have read : readValue (w ++ (t ++ v)) = some (⟨t, classify t⟩, v) := by
    rw [readValue, skipSpace_run before stops, scanned, Option.map_some, span_append, kind]
  rw [readDocument, read]
  dsimp only
  rw [if_pos ((skipSpace_isEmpty v).mpr after)]
  exact readTree_denotes kMaxDepth _ tree delivered means

theorem readDocument_denoted {t : Bytes} {tree : Tree} (means : Denotes kMaxDepth t tree) :
    readDocument t = some tree :=
  readDocument_text ⟨[], t, [], by simp [Blank], means, by simp [Blank], by simp⟩

/-- A document is read to its end exactly when it is well formed, and what is read is what its text
means: a walk leaves out no member and no element, makes none up and mistakes none for another. -/
theorem readDocument_iff (s : Bytes) :
    (∀ tree, readDocument s = some tree ↔ Text (fun t => Denotes kMaxDepth t tree) s) ∧
      (wellFormed s = true ↔ ∃ tree, readDocument s = some tree) := by
  have whole (tree : Tree) (read : readDocument s = some tree) :
      Text (fun t => Denotes kMaxDepth t tree) s := by
    unfold readDocument at read
    split at read
    · contradiction
    rename_i value rest found
    split at read
    · rename_i ended
      obtain ⟨delivered, w, before, rfl⟩ := readValue_spelled s value rest found
      obtain ⟨meant, means⟩ := value_denotes kMaxDepth value.raw delivered.text
      rw [readTree_denotes kMaxDepth value meant delivered means] at read
      obtain rfl := Option.some.inj read
      exact ⟨w, value.raw, rest, before, means, (skipSpace_isEmpty rest).mp ended, rfl⟩
    · contradiction
  refine ⟨fun tree => ⟨whole tree, readDocument_text⟩, ?_⟩
  rw [wellFormed_iff]
  constructor
  · rintro ⟨w, t, v, before, value, after, rfl⟩
    obtain ⟨tree, means⟩ := value_denotes kMaxDepth t value
    exact ⟨tree, readDocument_text ⟨w, t, v, before, means, after, rfl⟩⟩
  · rintro ⟨tree, read⟩
    obtain ⟨w, t, v, before, means, after, rfl⟩ := whole tree read
    exact ⟨w, t, v, before, denotes_value kMaxDepth t tree means, after, rfl⟩

section Spelling

def fieldText (key value : Bytes) : Bytes :=
  ascii '"' :: (key ++ [ascii '"']) ++ ascii ':' :: value

theorem denotes_string (levels : Nat) {items : Bytes} (text : StringItems items) :
    Denotes levels (ascii '"' :: (items ++ [ascii '"'])) (.string items) := by
  cases levels <;> exact .string text

theorem denotes_number (levels : Nat) {t : Bytes} (text : NumberText t) :
    Denotes levels t (.number t) := by
  cases levels <;> exact .number text

theorem fieldText_means {inner : Bytes → Tree → Prop} {key value : Bytes} {tree : Tree}
    (items : StringItems key) (means : inner value tree) :
    FieldText inner (fieldText key value) (key, tree) :=
  ⟨value, items, means, [], [], by simp [Blank], by simp [Blank], rfl⟩

variable {α : Type} {item : Bytes → α → Prop} {t rest : Bytes} {a : α} {items : List α}

theorem listed_one (text : item t a) : Listed item t [a] := by
  simpa using Listed.last (w := []) (v := []) (by simp [Blank]) text (by simp [Blank])

theorem listed_more (text : item t a) (later : Listed item rest items) :
    Listed item (t ++ ascii ',' :: rest) (a :: items) := by
  simpa using Listed.more (w := []) (v := []) (by simp [Blank]) text (by simp [Blank]) later

theorem denotes_array {levels : Nat} {elements : List Tree}
    (listed : Listed (Denotes levels) t elements) :
    Denotes (levels + 1) (ascii '[' :: (t ++ [ascii ']'])) (.array elements) :=
  .array (.inr ⟨t, listed, rfl⟩)

theorem denotes_object {levels : Nat} {fields : List (Bytes × Tree)}
    (listed : Listed (FieldText (Denotes levels)) t fields) :
    Denotes (levels + 1) (ascii '{' :: (t ++ [ascii '}'])) (.object fields) :=
  .object (.inr ⟨t, listed, rfl⟩)

theorem stringItems_plain {items : Bytes} (plain : ∀ c ∈ items, c ≠ ascii '"' ∧ c ≠ ascii '\\') :
    StringItems items := by
  induction items with
  | nil => exact .nil
  | cons c rest ih =>
    obtain ⟨here, later⟩ := List.forall_mem_cons.mp plain
    exact .plain here.1 here.2 (ih later)

theorem integerText_print (n : Nat) : IntegerText (Decimal.print n) := by
  rcases Nat.eq_zero_or_pos n with rfl | positive
  · exact .inl (by decide +kernel)
  · obtain ⟨c, rest, spelled, other⟩ := Decimal.print_head n positive
    have number := Decimal.print_number n
    refine .inr ⟨⟨number.some_, number.digits⟩, ?_⟩
    have zero : ascii '0' = 48 := by decide
    rw [spelled, zero]
    simpa using other

theorem numberText_integer {minus integer : Bytes} (sign : minus = [] ∨ minus = [ascii '-'])
    (text : IntegerText integer) : NumberText (minus ++ integer) :=
  ⟨minus, integer, [], [], sign, text, .inl rfl, .inl rfl, by simp⟩

end Spelling

end Json

end Crossbook
