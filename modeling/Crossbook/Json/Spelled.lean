import Crossbook.Json.Rescan
import Crossbook.Json.StringValue
import Crossbook.Lib.Decimal

set_option autoImplicit false

namespace Crossbook

namespace Json

open Spans (Stops)

section Objects

def ObjectMembers (s : Bytes) (fields : List (Bytes × Bytes)) : Prop :=
  Text (fun t => Members t fields) s

def firstText (key : String) (fields : List (Bytes × Bytes)) : Option Bytes :=
  (fields.find? fun field => field.1 = bytes key).map Prod.snd

def valueOf : Option Bytes → JsonValue
  | none => .absent
  | some text => ⟨text, classify text⟩

theorem first_eq (key : String) (list : List (Bytes × JsonValue))
    (delivered : ∀ member ∈ list, Delivered member.2) :
    first key list = valueOf (firstText key (list.map spelledMember)) := by
  induction list with
  | nil => rfl
  | cons member rest ih =>
    obtain ⟨here, later⟩ := List.forall_mem_cons.mp delivered
    have others := ih later
    unfold first firstText at others ⊢
    have sameKey : (spelledMember member).1 = member.1 := rfl
    rw [List.map_cons, List.find?_cons, List.find?_cons, sameKey]
    by_cases same : member.1 = bytes key
    · rw [decide_eq_true same]
      exact congrArg (JsonValue.mk member.2.raw) here.kind
    · rw [decide_eq_false same]
      exact others

theorem first_members_eq (key : String) (object : Bytes) :
    first key (members object) = valueOf (firstText key ((members object).map spelledMember)) :=
  first_eq key _ (members_delivered object)

theorem valueOf_ok {text : Option Bytes} (present : (valueOf text).ok = true) :
    text = some (valueOf text).raw := by
  cases text with
  | none => contradiction
  | some text => rfl

theorem valueOf_delivered {key : String} {object text : Bytes}
    (found : firstText key ((members object).map spelledMember) = some text) :
    (valueOf (some text)).ok = true ∧ Delivered (valueOf (some text)) := by
  unfold firstText at found
  rw [List.find?_map, Option.map_map, Option.map_eq_some_iff] at found
  obtain ⟨⟨name, value⟩, held, rfl⟩ := found
  have member := List.mem_of_find?_eq_some held
  have delivered : Delivered value := members_delivered object _ member
  have same : valueOf (some value.raw) = value := by
    rw [valueOf, ← delivered.kind]
  change (valueOf (some value.raw)).ok = true ∧ Delivered (valueOf (some value.raw))
  rw [same]
  exact ⟨members_ok object _ member, delivered⟩

theorem first_spelled {key : String} {object : Bytes} (check : JsonValue → Prop)
    (absent : ¬ check .absent) (held : check (first key (members object))) :
    ∃ text, firstText key ((members object).map spelledMember) = some text ∧
      Delivered (valueOf (some text)) ∧ check (valueOf (some text)) := by
  rw [first_members_eq] at held
  cases found : firstText key ((members object).map spelledMember) with
  | none =>
    rw [found] at held
    exact absurd held absent
  | some text =>
    rw [found] at held
    exact ⟨text, rfl, (valueOf_delivered found).2, held⟩

theorem holds_ends {item : Bytes → Bytes × Bytes → Prop} {t : Bytes}
    {items : List (Bytes × Bytes)} (holds : Holds (ascii '{') item t items) :
    Stops isSpace t ∧ Stops isSpace t.reverse := by
  rcases holds with ⟨w, _, rfl, _⟩ | ⟨body, _, rfl⟩
  · exact ⟨by simp; decide, by simp; decide⟩
  · exact ⟨by simp; decide, by simp; decide⟩

theorem objectMembers_unique {s : Bytes} {fields others : List (Bytes × Bytes)}
    (left : ObjectMembers s fields) (right : ObjectMembers s others) : fields = others := by
  obtain ⟨w, t, v, before, holds, after, rfl⟩ := left
  obtain ⟨w', t', v', before', holds', after', same⟩ := right
  have ends := holds_ends holds
  have ends' := holds_ends holds'
  have front (object blank : Bytes) (stops : Stops isSpace object) (blanks : Blank blank) :
      Stops isSpace (object ++ blank) ∨ object = [] := by
    cases object with
    | nil => exact .inr rfl
    | cons c rest => exact .inl (by simpa using stops)
  have nonempty : ∀ {object items}, Members object items → object ≠ [] := by
    intro object items holds
    obtain ⟨rest, next⟩ := holds_head (by decide) holds
    rintro rfl
    contradiction
  have leading : t ++ v = t' ++ v' := by
    have left := (front t v ends.1 after).resolve_right (nonempty holds)
    have right := (front t' v' ends'.1 after').resolve_right (nonempty holds')
    rw [← skipSpace_run before left, same, skipSpace_run before' right]
  have trailing : t.reverse = t'.reverse := by
    have blank : Blank v.reverse := fun c member => after c (List.mem_reverse.mp member)
    have blank' : Blank v'.reverse := fun c member => after' c (List.mem_reverse.mp member)
    have turned := congrArg List.reverse leading
    rw [List.reverse_append, List.reverse_append] at turned
    rw [← skipSpace_run blank ends.2, turned, skipSpace_run blank' ends'.2]
  obtain rfl := List.reverse_inj.mp trailing
  exact members_unique holds holds'

theorem forEachMember_members {σ : Type} (s : Bytes) (fn : σ → Bytes × JsonValue → σ × Bool)
    (goes : ∀ state member, (fn state member).2 = true) (state : σ)
    (walked : (forEachMember s fn state).2 = true) :
    ObjectMembers s ((members s).map spelledMember) := by
  rw [forEachMember, walkContainer_eq, feed_all fn goes] at walked
  dsimp only at walked
  have ended := contentsOf_end (ascii '{') memberReader_tracks s
  cases closed : (contentsOf memberReader (ascii '{') (ascii '}') s).2 with
  | stopped =>
    have notStopped : ∀ scanned, endOf scanned ≠ .stopped := by
      intro scanned
      cases scanned <;> simp [endOf]
    exact absurd (ended.symm.trans closed) (notStopped _)
  | malformed => simp [closed] at walked
  | closed rest =>
    rw [closed] at walked
    have blank := (skipSpace_isEmpty rest).mp (by simpa using walked)
    obtain ⟨w, t, before, whole, holds⟩ := contentsOf_text spelledMember readMember_spelled
      (ascii '{') s rest closed
    exact ⟨w, t, rest, before, holds, blank, whole⟩

end Objects

section Tokens

inductive TokenText : Bytes → Bytes → Prop
  | number {t : Bytes} (text : NumberText t) : TokenText t t
  | string {token : Bytes} (items : StringItems token) (plain : ascii '\\' ∉ token) :
      TokenText (ascii '"' :: (token ++ [ascii '"'])) token

theorem quoted_body {t items : Bytes} (text : t = ascii '"' :: (items ++ [ascii '"'])) :
    t.tail.dropLast = items ∧ ¬ t.length < 2 := by
  subst text
  simp

theorem Delivered.readString {value : JsonValue} (delivered : Delivered value)
    (string : value.type = .string) :
    ∃ items, StringItems items ∧ value.raw = ascii '"' :: (items ++ [ascii '"']) ∧
      readString value = (if items.contains (ascii '\\') then .escaped else .plain, items) := by
  have spells := delivered.spells
  rw [string] at spells
  cases spells with
  | string text =>
    obtain ⟨items, formed, whole⟩ := text
    obtain ⟨body, long⟩ := quoted_body whole
    refine ⟨items, formed, whole, ?_⟩
    rw [Json.readString, if_neg (by simp [string, long]), body]

theorem numberToken_text {value : JsonValue} (delivered : Delivered value)
    (some_ : numberToken value ≠ []) : TokenText value.raw (numberToken value) := by
  unfold numberToken at some_ ⊢
  by_cases number : value.type = .number
  · rw [if_pos number]
    have spells := delivered.spells
    rw [number] at spells
    cases spells with
    | number text => exact .number text
  · rw [if_neg number] at some_ ⊢
    by_cases string : value.type = .string
    · rw [if_pos string] at some_ ⊢
      obtain ⟨items, formed, whole, read⟩ := delivered.readString string
      unfold stringBody at some_ ⊢
      by_cases escaped : items.contains (ascii '\\') = true
      · rw [read, if_pos escaped] at some_
        contradiction
      · rw [read, if_neg escaped, whole]
        exact .string formed (by simpa using escaped)
    · rw [if_neg string] at some_
      contradiction

def StringDecodes (t text : Bytes) : Prop :=
  ∃ items, StringItems items ∧ t = ascii '"' :: (items ++ [ascii '"']) ∧
    decodedText items = some text

theorem decodedWithin_plain {c : UInt8} (plain : ¬ c = ascii '\\') (fuel : Nat) (rest : Bytes) :
    decodedWithin (fuel + 1) (c :: rest) = (decodedWithin fuel rest).map (List.cons c) := by
  rw [decodedWithin.eq_def]
  dsimp only
  rw [if_neg plain]

theorem decodedWithin_escape {escape decoded : UInt8} (simple : unescape escape = some decoded)
    (fuel : Nat) (rest : Bytes) :
    decodedWithin (fuel + 1) (ascii '\\' :: escape :: rest) =
      (decodedWithin fuel rest).map (List.cons decoded) := by
  have notUnicode : ¬ escape = ascii 'u' := by
    rintro rfl
    have none : unescape (ascii 'u') = none := by decide
    rw [none] at simple
    contradiction
  rw [decodedWithin.eq_def]
  dsimp only
  rw [if_pos rfl, if_neg notUnicode, simple]
  cases decodedWithin fuel rest <;> rfl

theorem equalsEscaped_decoded (body expected : Bytes) (fuel : Nat) (enough : body.length ≤ fuel)
    (same : equalsEscaped body expected = true) : decodedWithin fuel body = some expected := by
  fun_induction equalsEscaped body expected generalizing fuel with
  | case1 expected =>
    rw [List.isEmpty_iff.mp same]
    cases fuel <;> rfl
  | case3 escape rest decoded e expected simple ih =>
    simp only [Bool.and_eq_true, beq_iff_eq] at same
    simp only [List.length_cons] at enough
    obtain ⟨less, rfl⟩ := Nat.exists_eq_add_one.mpr (show 0 < fuel by omega)
    rw [decodedWithin_escape simple, ih less (by omega) same.2, same.1]
    rfl
  | case6 c rest plain e expected ih =>
    simp only [Bool.and_eq_true, beq_iff_eq] at same
    simp only [List.length_cons] at enough
    obtain ⟨less, rfl⟩ := Nat.exists_eq_add_one.mpr (show 0 < fuel by omega)
    rw [decodedWithin_plain plain, ih less (by omega) same.2, same.1]
    rfl
  | case2 => contradiction
  | case4 => contradiction
  | case5 => contradiction

theorem stringEquals_decodes {value : JsonValue} (delivered : Delivered value) {expected : Bytes}
    (same : stringEquals value expected = true) : StringDecodes value.raw expected := by
  have string : value.type = .string := by
    by_contra other
    rw [stringEquals, Json.readString, if_pos (.inl other)] at same
    contradiction
  obtain ⟨items, formed, whole, read⟩ := delivered.readString string
  refine ⟨items, formed, whole, ?_⟩
  rw [stringEquals, read] at same
  by_cases escaped : items.contains (ascii '\\') = true
  · rw [if_pos escaped] at same
    exact equalsEscaped_decoded items expected items.length le_rfl same
  · rw [if_neg escaped] at same
    rw [decodedText_plain items (by simpa using escaped), beq_iff_eq.mp same]

end Tokens

section Numbers

theorem toNat_digit (c : UInt8) : (c - ascii '0').toUInt64.toNat = Decimal.digitValue c :=
  UInt8.toNat_toUInt64 _

theorem parseU64Digits_iff (value : UInt64) (text : Bytes) (id : UInt64) :
    parseU64Digits value text = some id ↔
      (∀ c ∈ text, Decimal.isDigit c = true) ∧
        id.toNat = Decimal.valueFrom value.toNat text := by
  induction text generalizing value with
  | nil =>
    rw [parseU64Digits, Option.some.injEq, ← UInt64.toNat_inj, eq_comm]
    simp [Decimal.valueFrom]
  | cons c rest ih =>
    rw [parseU64Digits]
    by_cases digit : Decimal.isDigit c = true
    · have isDig : isDigit c = true := digit
      have small := Decimal.digitValue_lt digit
      have spelled := toNat_digit c
      have grows := Decimal.le_valueFrom (value.toNat * 10 + Decimal.digitValue c) rest
      have room : (0xFFFFFFFFFFFFFFFF - (c - ascii '0').toUInt64) / 10 < value ↔
          (18446744073709551615 - Decimal.digitValue c) / 10 < value.toNat := by
        rw [UInt64.lt_iff_toNat_lt, UInt64.toNat_div, UInt64.toNat_sub_of_le, spelled]
        · rfl
        · rw [UInt64.le_iff_toNat_le, spelled]
          exact (Nat.le_of_lt small).trans (by decide)
      rw [if_pos isDig]
      dsimp only
      rw [Decimal.valueFrom_cons]
      by_cases overflow : (18446744073709551615 - Decimal.digitValue c) / 10 < value.toNat
      · rw [if_pos (room.mpr overflow)]
        refine iff_of_false (Option.some_ne_none id).symm ?_
        rintro ⟨_, same⟩
        have bound := id.toNat_lt
        omega
      · have next : (value * 10 + (c - ascii '0').toUInt64).toNat =
            value.toNat * 10 + Decimal.digitValue c := by
          rw [UInt64.toNat_add, UInt64.toNat_mul, spelled]
          change (value.toNat * 10 % 2 ^ 64 + _) % 2 ^ 64 = _
          rw [Nat.mod_eq_of_lt (by omega), Nat.mod_eq_of_lt (by omega)]
        rw [if_neg (mt room.mp overflow), ih, next]
        simp only [List.forall_mem_cons, digit, true_and]
    · have notDigit : ¬ isDigit c = true := digit
      rw [if_neg notDigit]
      refine iff_of_false (Option.some_ne_none id).symm ?_
      rintro ⟨all, _⟩
      exact digit (all c (by simp))

theorem parseU64_iff (token : Bytes) (id : UInt64) :
    parseU64 token = some id ↔ Decimal.Number token ∧ id.toNat = Decimal.value token := by
  unfold parseU64
  by_cases empty : token = []
  · subst empty
    exact iff_of_false nofun fun both => both.1.some_ rfl
  · rw [if_neg (by simpa using empty), parseU64Digits_iff]
    constructor
    · rintro ⟨digits, same⟩
      exact ⟨⟨empty, digits⟩, same⟩
    · rintro ⟨number, same⟩
      exact ⟨number.digits, same⟩

def SpellsU64 (t : Bytes) (id : UInt64) : Prop :=
  ∃ token, TokenText t token ∧ Decimal.Number token ∧ id.toNat = Decimal.value token

theorem parseU64_spelled {value : JsonValue} (delivered : Delivered value) {id : UInt64}
    (parsed : parseU64 (numberToken value) = some id) : SpellsU64 value.raw id := by
  obtain ⟨number, same⟩ := (parseU64_iff _ _).mp parsed
  exact ⟨_, numberToken_text delivered number.some_, number, same⟩

end Numbers

end Json

end Crossbook
