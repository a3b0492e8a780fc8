import Crossbook.Json.Language
import Crossbook.Json.Values

set_option autoImplicit false

namespace Crossbook

namespace Json

def ObjectText (levels : Nat) (s : Bytes) : Prop :=
  Text (fun t => Value levels t ∧ t.head? = some (ascii '{')) s

def Tracks {α : Type} (reader : Reader α) (item : Scanner) : Prop :=
  ∀ s, (reader.run s).map Prod.snd = item.run s

def endOf : Option Bytes → WalkEnd
  | some rest => .closed rest
  | none => .malformed

section Walk

variable {α σ : Type}

theorem valueScanner_skipSpace (s : Bytes) : valueScanner.run (skipSpace s) = valueScanner.run s := by
  change skipFrom _ (skipSpace (skipSpace s)) = skipFrom _ (skipSpace s)
  rw [skipSpace_idem]

theorem readValue_snd (s : Bytes) : (readValue s).map Prod.snd = valueScanner.run s := by
  rw [readValue, Option.map_map, ← valueScanner_skipSpace s]
  cases valueScanner.run (skipSpace s) <;> rfl

theorem elementReader_tracks : Tracks elementReader (itemScanner valueScanner false) := readValue_snd

theorem memberReader_tracks : Tracks memberReader (itemScanner valueScanner true) := by
  intro s
  change (readMember s).map Prod.snd = (skipKey s).bind valueScanner.run
  rw [readMember, skipKey]
  cases skipString (skipSpace s) with
  | none => rfl
  | some afterKey =>
    simp only [Option.bind_some]
    cases nextByte afterKey with
    | none => rfl
    | some next =>
      simp only [Option.bind_some]
      split
      · rw [Option.map_map, Option.bind_some, ← readValue_snd next.2]
        rfl
      · rfl

theorem itemsOf_end {reader : Reader α} {item : Scanner} (tracks : Tracks reader item)
    (close : UInt8) (s : Bytes) : (itemsOf reader close s).2 = endOf (skipItems item close s) := by
  fun_induction itemsOf reader close s with
  | case1 s read =>
    have scanned : item.run s = none := by rw [← tracks s, read]; rfl
    rw [skipItems_unread scanned]
    rfl
  | case2 s value rest read next =>
    have scanned : item.run s = some rest := by rw [← tracks s, read]; rfl
    rw [skipItems_open scanned next]
    rfl
  | case3 s value rest read tail next =>
    have scanned : item.run s = some rest := by rw [← tracks s, read]; rfl
    rw [skipItems_some scanned next, if_pos rfl]
    rfl
  | case4 s value rest read tail next different ih =>
    have scanned : item.run s = some rest := by rw [← tracks s, read]; rfl
    rw [skipItems_some scanned next, if_neg different, if_pos rfl]
    exact ih
  | case5 s value rest read c tail next notClose notComma =>
    have scanned : item.run s = some rest := by rw [← tracks s, read]; rfl
    rw [skipItems_some scanned next, if_neg notClose, if_neg notComma]
    rfl

theorem skipItems_skipSpace (keyed : Bool) (close : UInt8) (s : Bytes) :
    skipItems (itemScanner valueScanner keyed) close (skipSpace s) =
      skipItems (itemScanner valueScanner keyed) close s := by
  have same : (itemScanner valueScanner keyed).run (skipSpace s) =
      (itemScanner valueScanner keyed).run s := by
    cases keyed with
    | false => exact valueScanner_skipSpace s
    | true =>
      change (skipKey (skipSpace s)).bind valueScanner.run = (skipKey s).bind valueScanner.run
      rw [skipKey, skipSpace_idem, skipKey]
  cases scanned : (itemScanner valueScanner keyed).run s with
  | none => rw [skipItems_unread scanned, skipItems_unread (same.trans scanned)]
  | some rest =>
    cases next : nextByte rest with
    | none => rw [skipItems_open scanned next, skipItems_open (same.trans scanned) next]
    | some found =>
      obtain ⟨c, tail⟩ := found
      rw [skipItems_some scanned next, skipItems_some (same.trans scanned) next]

theorem contentsOf_end {reader : Reader α} (opening : UInt8)
    (tracks : Tracks reader (itemScanner valueScanner (opening == ascii '{'))) (s : Bytes) :
    (contentsOf reader opening (closing opening) s).2 =
      endOf ((nextByte s).bind fun first =>
        if first.1 = opening then skipContainer valueScanner opening first.2 else none) := by
  unfold contentsOf
  cases next : nextByte s with
  | none => rfl
  | some first =>
    obtain ⟨c, inside⟩ := first
    dsimp only [Option.bind_some]
    split
    · have spaced := skipItems_skipSpace (opening == ascii '{') (closing opening) inside
      rw [skipContainer, nextByte]
      cases start : skipSpace inside with
      | nil =>
        rw [start, skipItems_unread] at spaced
        · dsimp only
          rw [itemsOf_end tracks, ← spaced]
        · by_contra scanned
          obtain ⟨rest, scanned⟩ := Option.ne_none_iff_exists'.mp scanned
          have shorter := ((itemScanner valueScanner _).forward _ _ scanned).2
          simp at shorter
      | cons d tail =>
        dsimp only
        split
        · rfl
        · rw [itemsOf_end tracks, ← spaced, start]
    · rfl

theorem classify_object (s : Bytes) :
    classify s = .object ↔ ∃ rest, nextByte s = some (ascii '{', rest) := by
  unfold classify
  split
  · rename_i ended
    simp [ended]
  · rename_i c rest next
    simp only [next, Option.some.injEq, Prod.mk.injEq]
    by_cases brace : c = ascii '{'
    · simp [brace]
    · rw [if_neg brace]
      constructor
      · intro other
        repeat' split at other
        all_goals contradiction
      · rintro ⟨_, same, _⟩
        exact absurd same brace

theorem forEachMember_closed (object : Bytes) (fn : σ → Bytes × JsonValue → σ × Bool)
    (goes : ∀ state member, (fn state member).2 = true) (state : σ) :
    (forEachMember object fn state).2 = true ↔
      (∃ rest, (skipValue (kMaxDepth + 2)).run object = some rest ∧
        (skipSpace rest).isEmpty = true) ∧ classify object = .object := by
  have ended : (forEachMember object fn state).2 =
      ((nextByte object).bind fun first =>
        if first.1 = ascii '{' then skipContainer valueScanner (ascii '{') first.2 else none).any
          fun rest => (skipSpace rest).isEmpty := by
    have finished : (contentsOf memberReader (ascii '{') (ascii '}') object).2 = _ :=
      contentsOf_end (ascii '{') memberReader_tracks object
    rw [forEachMember, walkContainer_eq, feed_all fn goes]
    dsimp only
    rw [if_neg Bool.false_ne_true, finished]
    generalize (nextByte object).bind _ = scanned
    cases scanned <;> rfl
  rw [ended, classify_object]
  have scanned : (skipValue (kMaxDepth + 2)).run object =
      skipFrom valueScanner (skipSpace object) := rfl
  rw [scanned, nextByte]
  cases skipSpace object with
  | nil => simp
  | cons c tail =>
    dsimp only [Option.bind_some]
    by_cases brace : c = ascii '{'
    · subst brace
      rw [if_pos rfl, skipFrom, if_neg (by decide), if_pos (.inl rfl)]
      cases skipContainer valueScanner (ascii '{') tail <;> simp
    · simp [brace]

theorem objectText_iff (levels : Nat) (s : Bytes) :
    ObjectText levels s ↔ Text (Value levels) s ∧ classify s = .object := by
  have starts : ∀ w t v, Blank w → Value levels t →
      (t.head? = some (ascii '{') ↔ classify (w ++ (t ++ v)) = .object) := by
    intro w t v blank value
    obtain ⟨c, tail, rfl, proper⟩ := (scans_skipValue levels).headed t value
    have next : nextByte (w ++ (c :: tail ++ v)) = some (c, tail ++ v) :=
      (nextByte_iff _ _ _).mpr ⟨w, blank, rfl, solid_of_proper proper⟩
    rw [classify_object, next]
    simp
  constructor
  · rintro ⟨w, t, v, blank, ⟨value, brace⟩, after, rfl⟩
    exact ⟨⟨w, t, v, blank, value, after, rfl⟩, (starts w t v blank value).mp brace⟩
  · rintro ⟨⟨w, t, v, blank, value, after, rfl⟩, object⟩
    exact ⟨w, t, v, blank, ⟨value, (starts w t v blank value).mpr object⟩, after, rfl⟩

theorem forEachMember_iff (s : Bytes) (fn : σ → Bytes × JsonValue → σ × Bool)
    (goes : ∀ state member, (fn state member).2 = true) (state : σ) :
    (forEachMember s fn state).2 = true ↔ ObjectText (kMaxDepth + 1) s := by
  -- The walk reads the values one level down, the validator the object itself.
  rw [forEachMember_closed s fn goes, objectText_iff, text_iff (scans_skipValue (kMaxDepth + 1))]

theorem wellFormed_object_iff (s : Bytes) :
    wellFormed s = true ∧ classify s = .object ↔ ObjectText kMaxDepth s := by
  rw [wellFormed_iff, objectText_iff]

theorem text_mono {P Q : Bytes → Prop} (sub : ∀ t, P t → Q t) {s : Bytes} (text : Text P s) :
    Text Q s := by
  obtain ⟨w, t, v, blank, value, after, rfl⟩ := text
  exact ⟨w, t, v, blank, sub t value, after, rfl⟩

theorem items_mono {P Q : Bytes → Prop} (sub : ∀ t, P t → Q t) {body : Bytes}
    (items : ItemsText P body) : ItemsText Q body := by
  induction items with
  | last before text after => exact .last before (sub _ text) after
  | more before text after _ ih => exact .more before (sub _ text) after ih

theorem valueText_mono {P Q : Bytes → Prop} (sub : ∀ t, P t → Q t) {t : Bytes}
    (value : ValueText P t) : ValueText Q t := by
  cases value with
  | string text => exact .string text
  | scalar text => exact .scalar text
  | empty opens blank => exact .empty opens blank
  | object members =>
    refine .object (items_mono ?_ members)
    rintro _ ⟨key, w, v, text, keyed, blank, after, inner, rfl⟩
    exact ⟨key, w, v, text, keyed, blank, after, sub text inner, rfl⟩
  | array elements => exact .array (items_mono sub elements)

theorem value_mono (levels : Nat) : ∀ t, Value levels t → Value (levels + 1) t := by
  induction levels with
  | zero => exact fun t value => valueText_mono (fun _ impossible => impossible.elim) value
  | succ levels ih => exact fun t value => valueText_mono ih value

/-- The walk and the validator agree but on objects nested one level past the ceiling. -/
theorem forEachMember_agrees_iff (s : Bytes) (fn : σ → Bytes × JsonValue → σ × Bool)
    (goes : ∀ state member, (fn state member).2 = true) (state : σ) :
    ((forEachMember s fn state).2 = true ↔ wellFormed s = true ∧ classify s = .object) ↔
      ¬ (ObjectText (kMaxDepth + 1) s ∧ ¬ ObjectText kMaxDepth s) := by
  have deeper : ObjectText kMaxDepth s → ObjectText (kMaxDepth + 1) s :=
    text_mono fun t ⟨value, brace⟩ => ⟨value_mono kMaxDepth t value, brace⟩
  rw [forEachMember_iff s fn goes state, wellFormed_object_iff]
  tauto

def nestedObject : Bytes :=
  bytes "\x7b\"a\":" ++ List.replicate 33 (ascii '[') ++ List.replicate 33 (ascii ']') ++
    bytes "\x7d"

theorem forEachMember_accepts_deeper :
    ¬ ((forEachMember nestedObject (fun (_ : Unit) _ => ((), true)) ()).2 = true ↔
        wellFormed nestedObject = true ∧ classify nestedObject = .object) := by
  decide +kernel

-- An object in an array in an object, with a string and a number beside it.
def bookObject : Bytes :=
  bytes "\x7b\"asks\":[\x7b\"price\":0.5,\"qty\":1e3\x7d], \"symbol\":\"a\\\"b\" ,\"depth\":10\x7d"

theorem forEachMember_agrees_iff_nested :
    ((forEachMember bookObject (fun (keys : Nat) _ => (keys + 1, true)) 0).2 = true ↔
      wellFormed bookObject = true ∧ classify bookObject = .object) ∧
      forEachMember bookObject (fun (keys : Nat) _ => (keys + 1, true)) 0 = (3, true) := by
  refine ⟨(forEachMember_agrees_iff bookObject (fun (keys : Nat) _ => (keys + 1, true))
    (fun _ _ => rfl) 0).mpr ?_, by decide +kernel⟩
  rintro ⟨_, deeper⟩
  exact deeper ((wellFormed_object_iff _).mp (by decide +kernel))

end Walk

end Json

end Crossbook
