import Crossbook.Json.Cursor

set_option autoImplicit false

namespace Crossbook

namespace Json

namespace Cursor

def offset (s rest : Bytes) : Nat := s.length - rest.length

section Offsets

variable {s rest : Bytes}

theorem suffix_tail {c : UInt8} (suffix : c :: rest <:+ s) : rest <:+ s :=
  (List.suffix_cons c rest).trans suffix

theorem offset_self (s : Bytes) : offset s s = 0 := by simp [offset]

theorem offset_nil (s : Bytes) : offset s [] = s.length := rfl

theorem offset_tail {c : UInt8} (suffix : c :: rest <:+ s) :
    offset s (c :: rest) + 1 = offset s rest := by
  have length := suffix.length_le
  simp only [offset, List.length_cons] at length ⊢
  omega

theorem offset_inside {c : UInt8} (suffix : c :: rest <:+ s) : offset s (c :: rest) < s.length := by
  have next := offset_tail suffix
  have bound : offset s rest ≤ s.length := Nat.sub_le _ _
  omega

theorem drop_offset (suffix : rest <:+ s) : s.drop (offset s rest) = rest :=
  (List.suffix_iff_eq_drop.mp suffix).symm

theorem byteAt_offset {c : UInt8} (suffix : c :: rest <:+ s) :
    byteAt s (offset s (c :: rest)) = .ok c := by
  have read : s[offset s (c :: rest)]? = some c := by
    rw [← Nat.add_zero (offset s _), ← List.getElem?_drop, drop_offset suffix]
    rfl
  rw [byteAt, read]

theorem offset_isEmpty (suffix : rest <:+ s) : (offset s rest == s.length) = rest.isEmpty := by
  cases rest with
  | nil => simp [offset_nil]
  | cons c rest =>
    have inside := offset_inside suffix
    simp
    omega

@[simp] theorem ok_bind {α β : Type} (a : α) (f : α → Checked β) :
    ((Except.ok a : Checked α) >>= f) = f a := rfl

def onFirst {α : Type} (found : UInt8 → α) (other : α) : Bytes → α
  | [] => other
  | c :: _ => found c

@[simp] theorem onFirst_nil {α : Type} (found : UInt8 → α) (other : α) :
    onFirst found other [] = other := rfl

@[simp] theorem onFirst_cons {α : Type} (found : UInt8 → α) (other : α) (c : UInt8) (rest : Bytes) :
    onFirst found other (c :: rest) = found c := rfl

theorem read_inside {α : Type} (suffix : rest <:+ s) (found : UInt8 → Checked α)
    (other : Checked α) :
    (if offset s rest < s.length then byteAt s (offset s rest) >>= found else other) =
      onFirst found other rest := by
  cases rest with
  | nil => exact if_neg (by simp [offset_nil])
  | cons c rest => rw [if_pos (offset_inside suffix), byteAt_offset suffix, ok_bind, onFirst_cons]

theorem read_unless_outside {α : Type} (suffix : rest <:+ s) (found : UInt8 → Checked α)
    (other : Checked α) :
    (if s.length ≤ offset s rest then other else byteAt s (offset s rest) >>= found) =
      onFirst found other rest := by
  rw [← read_inside suffix]
  by_cases inside : offset s rest < s.length
  · rw [if_pos inside, if_neg (by omega)]
  · rw [if_neg inside, if_pos (by omega)]

end Offsets

theorem advanceWhile_eq (p : UInt8 → Bool) (s : Bytes) (rounds : Nat) (rest : Bytes)
    (suffix : rest <:+ s) (enough : rest.length < rounds) :
    advanceWhile p s rounds (offset s rest) = .ok (offset s (rest.dropWhile p)) := by
  induction rest generalizing rounds with
  | nil =>
    obtain ⟨rounds, rfl⟩ := Nat.exists_eq_succ_of_ne_zero (Nat.ne_zero_of_lt enough)
    rw [advanceWhile, if_neg (by simp [offset_nil])]
    rfl
  | cons c rest ih =>
    obtain ⟨rounds, rfl⟩ := Nat.exists_eq_succ_of_ne_zero (Nat.ne_zero_of_lt enough)
    rw [advanceWhile, if_pos (offset_inside suffix), byteAt_offset suffix]
    change (if p c = true then advanceWhile p s rounds (offset s (c :: rest) + 1) else _) = _
    split
    · rename_i continues
      rw [offset_tail suffix, List.dropWhile_cons_of_pos continues]
      exact ih rounds (suffix_tail suffix) (by simpa using enough)
    · rename_i stops
      rw [List.dropWhile_cons_of_neg stops]
      rfl

section Number

variable {rounds : Nat} {t rest : Bytes}

theorem someDigits_eq (suffix : rest <:+ t) (enough : rest.length < rounds) :
    someDigits rounds t (offset t rest) = .ok ((Json.someDigits rest).map (offset t)) := by
  rw [someDigits, advanceWhile_eq _ _ _ _ suffix enough]
  cases rest with
  | nil =>
    change Except.ok (if offset t [] = offset t [] then none else some _) = _
    rw [if_pos rfl]
    rfl
  | cons c rest =>
    rw [Json.someDigits]
    by_cases digit : isDigit c = true
    · have moved : offset t (rest.dropWhile isDigit) ≠ offset t (c :: rest) := by
        have next := offset_tail suffix
        have shorter := (List.dropWhile_suffix (l := rest) isDigit).length_le
        simp only [offset] at next ⊢
        omega
      rw [List.dropWhile_cons_of_pos digit, if_pos digit]
      change Except.ok (if offset t (rest.dropWhile isDigit) = _ then none else some _) = _
      rw [if_neg moved]
      rfl
    · rw [List.dropWhile_cons_of_neg digit, if_neg digit]
      change Except.ok (if offset t (c :: rest) = offset t (c :: rest) then none else some _) = _
      rw [if_pos rfl]
      rfl

theorem skipMinus_eq (t : Bytes) : skipMinus t = .ok (offset t (dropMinus t)) := by
  have read := read_inside (List.suffix_refl t)
    (fun c => (pure (if c = ascii '-' then 1 else 0) : Checked Nat)) (pure 0)
  rw [offset_self] at read
  rw [skipMinus, read]
  cases t with
  | nil => rfl
  | cons c rest =>
    rw [dropMinus]
    rw [onFirst_cons]
    split
    · have next := offset_tail (List.suffix_refl (c :: rest))
      rw [offset_self] at next
      rw [← next]
      rfl
    · rw [offset_self]
      rfl

theorem dropMinus_suffix (t : Bytes) : dropMinus t <:+ t := by
  obtain ⟨minus, _, whole⟩ := dropMinus_sound t
  exact ⟨minus, whole.symm⟩

theorem numberInteger_eq (suffix : rest <:+ t) (enough : rest.length < rounds) :
    numberInteger rounds t (offset t rest) = .ok ((Json.numberInteger rest).map (offset t)) := by
  rw [numberInteger, read_unless_outside suffix]
  cases rest with
  | nil => rfl
  | cons c rest =>
    rw [Json.numberInteger]
    rw [onFirst_cons]
    split
    · rw [offset_tail suffix]
      rfl
    · split
      · rename_i digit
        rw [advanceWhile_eq _ _ _ _ suffix enough, ok_bind, List.dropWhile_cons_of_pos digit]
        rfl
      · rfl

theorem numberFraction_eq (suffix : rest <:+ t) (enough : rest.length < rounds) :
    numberFraction rounds t (offset t rest) = .ok ((Json.numberFraction rest).map (offset t)) := by
  rw [numberFraction, read_inside suffix]
  cases rest with
  | nil => rfl
  | cons c rest =>
    rw [Json.numberFraction]
    rw [onFirst_cons]
    split
    · rw [offset_tail suffix]
      exact someDigits_eq (suffix_tail suffix) (Nat.lt_of_succ_lt enough)
    · rfl

theorem skipSign_eq (suffix : rest <:+ t) :
    skipSign t (offset t rest) = .ok (offset t (takeSign rest).2) := by
  rw [skipSign, read_inside suffix]
  cases rest with
  | nil => rfl
  | cons c rest =>
    rw [takeSign]
    rw [onFirst_cons]
    split
    · rw [offset_tail suffix]
      rfl
    · rfl

theorem takeSign_suffix (s : Bytes) : (takeSign s).2 <:+ s := by
  obtain ⟨sign, _, whole⟩ := takeSign_sound s
  exact ⟨sign, whole.symm⟩

theorem numberExponent_eq (suffix : rest <:+ t) (enough : rest.length < rounds) :
    numberExponent rounds t (offset t rest) = .ok ((Json.numberExponent rest).map (offset t)) := by
  rw [numberExponent, read_inside suffix]
  cases rest with
  | nil => rfl
  | cons c rest =>
    rw [Json.numberExponent]
    rw [onFirst_cons]
    split
    · have signed := takeSign_suffix rest
      have shorter := signed.length_le
      rw [offset_tail suffix, skipSign_eq (suffix_tail suffix), ok_bind]
      exact someDigits_eq (signed.trans (suffix_tail suffix))
        (lt_of_le_of_lt shorter (Nat.lt_of_succ_lt enough))
    · rfl

theorem numberInteger_suffix {s after : Bytes} (found : Json.numberInteger s = some after) :
    after <:+ s := by
  obtain ⟨integer, _, whole⟩ := numberInteger_sound s after found
  exact ⟨integer, whole.symm⟩

theorem numberFraction_suffix {s after : Bytes} (found : Json.numberFraction s = some after) :
    after <:+ s := by
  obtain ⟨fraction, _, whole⟩ := numberFraction_sound s after found
  exact ⟨fraction, whole.symm⟩

theorem numberExponent_suffix {s after : Bytes} (found : Json.numberExponent s = some after) :
    after <:+ s := by
  cases s with
  | nil =>
    obtain rfl := Option.some.inj found
    exact List.suffix_rfl
  | cons c tail =>
    rw [Json.numberExponent] at found
    split at found
    · obtain ⟨digits, _, whole, _⟩ := (someDigits_iff _ _).mp found
      have rest : after <:+ (takeSign tail).2 := ⟨digits, whole.symm⟩
      exact rest.trans ((takeSign_suffix tail).trans (List.suffix_cons c tail))
    · obtain rfl := Option.some.inj found
      exact List.suffix_rfl

theorem isJsonNumber_eq (t : Bytes) (enough : t.length < rounds) :
    isJsonNumber rounds t = .ok (Json.isJsonNumber t) := by
  have minus := dropMinus_suffix t
  rw [isJsonNumber, skipMinus_eq, ok_bind,
    numberInteger_eq minus (lt_of_le_of_lt minus.length_le enough), ok_bind, Json.isJsonNumber]
  cases first : Json.numberInteger (dropMinus t) with
  | none => rfl
  | some afterInteger =>
    have integer := (numberInteger_suffix first).trans minus
    dsimp only [Option.map_some, Option.bind_some]
    rw [numberFraction_eq integer (lt_of_le_of_lt integer.length_le enough), ok_bind]
    cases second : Json.numberFraction afterInteger with
    | none => rfl
    | some afterFraction =>
      have fraction := (numberFraction_suffix second).trans integer
      dsimp only [Option.map_some, Option.bind_some]
      rw [numberExponent_eq fraction (lt_of_le_of_lt fraction.length_le enough), ok_bind]
      cases third : Json.numberExponent afterFraction with
      | none => rfl
      | some after =>
        have last := (numberExponent_suffix third).trans fraction
        dsimp only [Option.map_some]
        rw [offset_isEmpty last]
        cases after <;> rfl

theorem isJsonScalar_eq (t : Bytes) (enough : t.length < rounds) :
    isJsonScalar rounds t = .ok (Json.isJsonScalar t) := by
  rw [isJsonScalar]
  split
  · rename_i literal
    simp only [Json.isJsonScalar]
    rcases literal with rfl | rfl | rfl <;> rfl
  · rename_i other
    simp only [not_or] at other
    rw [isJsonNumber_eq t enough]
    simp [Json.isJsonScalar, other]

end Number

section Value

variable {rounds : Nat} {s rest : Bytes}

theorem skipSpace_eq (suffix : rest <:+ s) (enough : s.length < rounds) :
    skipSpace rounds s (offset s rest) = .ok (offset s (Json.skipSpace rest)) :=
  advanceWhile_eq _ _ _ _ suffix (lt_of_le_of_lt suffix.length_le enough)

theorem skipStringLoop_eq (rounds : Nat) (rest : Bytes) (suffix : rest <:+ s)
    (enough : rest.length < rounds) :
    skipStringLoop s rounds (offset s rest) = .ok ((skipStringTail rest).map (offset s)) := by
  fun_induction skipStringTail rest generalizing rounds with
  | case1 =>
    obtain ⟨rounds, rfl⟩ := Nat.exists_eq_succ_of_ne_zero (Nat.ne_zero_of_lt enough)
    rw [skipStringLoop, if_neg (by simp [offset_nil])]
    rfl
  | case2 =>
    obtain ⟨rounds, rfl⟩ := Nat.exists_eq_add_of_le (show 2 ≤ rounds from enough)
    have past := offset_tail suffix
    rw [offset_nil] at past
    rw [Nat.add_comm, skipStringLoop, read_inside suffix, onFirst_cons, if_pos rfl, skipStringLoop,
      if_neg (by omega)]
    rfl
  | case3 escaped tail ih =>
    obtain ⟨rounds, rfl⟩ := Nat.exists_eq_succ_of_ne_zero (Nat.ne_zero_of_lt enough)
    have first := offset_tail suffix
    have second := offset_tail (suffix_tail suffix)
    rw [skipStringLoop, read_inside suffix]
    have further : tail.length < rounds := by simp at enough; omega
    rw [onFirst_cons, if_pos rfl, ← ih rounds (suffix_tail (suffix_tail suffix)) further, ← second,
      ← first]
  | case4 tail =>
    obtain ⟨rounds, rfl⟩ := Nat.exists_eq_succ_of_ne_zero (Nat.ne_zero_of_lt enough)
    rw [skipStringLoop, read_inside suffix]
    rw [onFirst_cons, if_neg (by decide), if_pos rfl, offset_tail suffix]
    rfl
  | case5 c tail plain within ih =>
    obtain ⟨rounds, rfl⟩ := Nat.exists_eq_succ_of_ne_zero (Nat.ne_zero_of_lt enough)
    rw [skipStringLoop, read_inside suffix]
    rw [onFirst_cons, if_neg plain, if_neg within, offset_tail suffix]
    exact ih rounds (suffix_tail suffix) (by simpa using enough)

theorem skipString_eq (suffix : rest <:+ s) (enough : s.length < rounds) :
    skipString rounds s (offset s rest) = .ok ((Json.skipString rest).map (offset s)) := by
  rw [skipString, read_unless_outside suffix]
  cases rest with
  | nil => rfl
  | cons c rest =>
    have inner := suffix_tail suffix
    rw [Json.skipString]
    rw [onFirst_cons]
    split
    · rw [offset_tail suffix]
      exact skipStringLoop_eq _ _ inner (lt_of_le_of_lt inner.length_le enough)
    · rfl

theorem skipKey_eq (suffix : rest <:+ s) (enough : s.length < rounds) :
    skipKey rounds s (offset s rest) = .ok ((Json.skipKey rest).map (offset s)) := by
  have spaced := (skipSpace_suffix rest).trans suffix
  rw [skipKey, skipSpace_eq suffix enough, ok_bind, skipString_eq spaced enough, ok_bind,
    Json.skipKey]
  cases key : Json.skipString (Json.skipSpace rest) with
  | none => rfl
  | some after =>
    have tail := (skipString_forward _ _ key).1.trans spaced
    have last := (skipSpace_suffix after).trans tail
    dsimp only [Option.map_some, Option.bind_some]
    rw [skipSpace_eq tail enough, ok_bind, read_unless_outside last, nextByte]
    generalize Json.skipSpace after = left at last ⊢
    cases left with
    | nil => rfl
    | cons c rest =>
      rw [onFirst_cons, offset_tail last]
      dsimp only [Option.bind_some]
      split <;> rfl

theorem skipItem_eq {inner : Scanner} {value : Nat → Checked (Option Nat)}
    (tracks : ∀ rest, rest <:+ s → value (offset s rest) = .ok ((inner.run rest).map (offset s)))
    (keyed : Bool) (suffix : rest <:+ s) (enough : s.length < rounds) :
    skipItem rounds s value keyed (offset s rest) =
      .ok (((itemScanner inner keyed).run rest).map (offset s)) := by
  cases keyed with
  | false => exact tracks rest suffix
  | true =>
    rw [skipItem, if_pos rfl, skipKey_eq suffix enough, ok_bind]
    change _ = Except.ok (((Json.skipKey rest).bind inner.run).map (offset s))
    cases key : Json.skipKey rest with
    | none => rfl
    | some start => exact tracks start ((skipKey_forward _ _ key).1.trans suffix)

theorem skipItems_step {inner : Scanner} {value : Nat → Checked (Option Nat)}
    (tracks : ∀ rest, rest <:+ s → value (offset s rest) = .ok ((inner.run rest).map (offset s)))
    {keyed : Bool} (close : UInt8) (left : Nat) (suffix : rest <:+ s) (enough : s.length < rounds)
    {after : Bytes} (scanned : (itemScanner inner keyed).run rest = some after) :
    skipItems rounds s value keyed close (left + 1) (offset s rest) =
      onFirst (fun c =>
        if c = close then pure (some (offset s (Json.skipSpace after) + 1))
        else if c = ascii ',' then
          skipItems rounds s value keyed close left (offset s (Json.skipSpace after) + 1)
        else pure none) (pure none) (Json.skipSpace after) := by
  obtain ⟨within, shorter⟩ := (itemScanner inner keyed).forward rest after scanned
  have inside : offset s rest < s.length := by
    have length := suffix.length_le
    simp only [offset]
    omega
  have tail := within.trans suffix
  rw [skipItems, if_pos inside, skipItem_eq tracks keyed suffix enough, scanned]
  change (skipSpace rounds s (offset s after) >>= _) = _
  rw [skipSpace_eq tail enough, ok_bind]
  exact read_unless_outside ((skipSpace_suffix after).trans tail) _ _

theorem nextByte_some {s : Bytes} {c : UInt8} {tail : Bytes} (next : nextByte s = some (c, tail)) :
    Json.skipSpace s = c :: tail := by
  unfold nextByte at next
  split at next
  · simp at next
  · rename_i spaced
    simp only [Option.some.injEq, Prod.mk.injEq] at next
    rw [spaced, next.1, next.2]

theorem nextByte_none {s : Bytes} (next : nextByte s = none) : Json.skipSpace s = [] := by
  unfold nextByte at next
  split at next
  · assumption
  · simp at next

theorem skipItems_eq {inner : Scanner} {value : Nat → Checked (Option Nat)}
    (tracks : ∀ rest, rest <:+ s → value (offset s rest) = .ok ((inner.run rest).map (offset s)))
    (keyed : Bool) (close : UInt8) (left : Nat) (suffix : rest <:+ s)
    (enough : s.length < rounds) (more : rest.length < left) :
    skipItems rounds s value keyed close left (offset s rest) =
      .ok ((Json.skipItems (itemScanner inner keyed) close rest).map (offset s)) := by
  fun_induction Json.skipItems (itemScanner inner keyed) close rest generalizing left with
  | case1 rest scanned =>
    obtain ⟨left, rfl⟩ := Nat.exists_eq_succ_of_ne_zero (Nat.ne_zero_of_lt more)
    rw [skipItems, skipItem_eq tracks keyed suffix enough, scanned]
    split <;> rfl
  | case2 rest after scanned next =>
    obtain ⟨left, rfl⟩ := Nat.exists_eq_succ_of_ne_zero (Nat.ne_zero_of_lt more)
    rw [skipItems_step tracks close left suffix enough scanned, nextByte_none next]
    rfl
  | case3 rest after scanned tail next =>
    obtain ⟨left, rfl⟩ := Nat.exists_eq_succ_of_ne_zero (Nat.ne_zero_of_lt more)
    have within := ((itemScanner inner keyed).forward rest after scanned).1.trans suffix
    have last : close :: tail <:+ s := nextByte_some next ▸ (skipSpace_suffix after).trans within
    rw [skipItems_step tracks close left suffix enough scanned, nextByte_some next, onFirst_cons,
      if_pos rfl, offset_tail last]
    rfl
  | case4 rest after scanned tail next different ih =>
    obtain ⟨left, rfl⟩ := Nat.exists_eq_succ_of_ne_zero (Nat.ne_zero_of_lt more)
    obtain ⟨within, shorter⟩ := (itemScanner inner keyed).forward rest after scanned
    have last : ascii ',' :: tail <:+ s :=
      nextByte_some next ▸ (skipSpace_suffix after).trans (within.trans suffix)
    have moved := (nextByte_forward after next).2
    rw [skipItems_step tracks close left suffix enough scanned, nextByte_some next, onFirst_cons,
      if_neg different, if_pos rfl, offset_tail last]
    exact ih left (suffix_tail last) (by omega)
  | case5 rest after scanned c tail next notClose notComma =>
    obtain ⟨left, rfl⟩ := Nat.exists_eq_succ_of_ne_zero (Nat.ne_zero_of_lt more)
    rw [skipItems_step tracks close left suffix enough scanned, nextByte_some next, onFirst_cons,
      if_neg notClose, if_neg notComma]
    rfl

theorem skipContainer_eq {inner : Scanner} {value : Nat → Checked (Option Nat)}
    (tracks : ∀ rest, rest <:+ s → value (offset s rest) = .ok ((inner.run rest).map (offset s)))
    (opening : UInt8) (suffix : rest <:+ s) (enough : s.length < rounds) :
    skipContainer rounds s value opening (offset s rest) =
      .ok ((Json.skipContainer inner opening rest).map (offset s)) := by
  have spaced := (skipSpace_suffix rest).trans suffix
  have items := skipItems_eq tracks (opening == ascii '{') (closing opening) rounds spaced enough
    (lt_of_le_of_lt spaced.length_le enough)
  rw [skipContainer, skipSpace_eq suffix enough, ok_bind, read_inside spaced, Json.skipContainer,
    nextByte]
  generalize Json.skipSpace rest = start at spaced items ⊢
  cases start with
  | nil =>
    refine items.trans ?_
    rw [Json.skipItems]
    split
    · rfl
    · rename_i scanned
      have shorter := ((itemScanner inner _).forward _ _ scanned).2
      simp at shorter
  | cons c tail =>
    rw [onFirst_cons]
    change (if (c == closing opening) = true then _ else _) = _
    dsimp only
    by_cases closes : c = closing opening
    · rw [if_pos (by simpa using closes), if_pos closes, offset_tail spaced]
      rfl
    · rw [if_neg (by simpa using closes), if_neg closes]
      exact items

theorem cut_run (p : UInt8 → Bool) (suffix : rest <:+ s) :
    (s.drop (offset s rest)).take (offset s (rest.dropWhile p) - offset s rest) =
      rest.takeWhile p := by
  have whole := List.takeWhile_append_dropWhile (p := p) (l := rest)
  have length := congrArg List.length whole
  have bound := suffix.length_le
  rw [List.length_append] at length
  have width : offset s (rest.dropWhile p) - offset s rest = (rest.takeWhile p).length := by
    simp only [offset]
    omega
  rw [drop_offset suffix, width]
  exact (List.prefix_iff_eq_take.mp (List.takeWhile_prefix p)).symm

theorem skipScalar_eq (suffix : rest <:+ s) (enough : s.length < rounds) :
    skipScalar rounds s (offset s rest) = .ok ((Json.skipScalar rest).map (offset s)) := by
  have shorter := (List.takeWhile_prefix (l := rest) fun c => !isDelimiter c).length_le
  have bound := suffix.length_le
  rw [skipScalar, advanceWhile_eq _ _ _ _ suffix (lt_of_le_of_lt bound enough), ok_bind,
    cut_run _ suffix, Json.skipScalar]
  by_cases empty : rest.takeWhile (fun c => !isDelimiter c) = []
  · have same : rest.dropWhile (fun c => !isDelimiter c) = rest := by
      have whole := List.takeWhile_append_dropWhile (p := fun c => !isDelimiter c) (l := rest)
      rwa [empty, List.nil_append] at whole
    rw [same, if_pos rfl, empty]
    rfl
  · have moved : offset s (rest.dropWhile fun c => !isDelimiter c) ≠ offset s rest := by
      intro same
      have cut := cut_run (fun c => !isDelimiter c) suffix
      rw [same, Nat.sub_self, List.take_zero] at cut
      exact empty cut.symm
    rw [if_neg moved, isJsonScalar_eq _ (by omega), ok_bind]
    cases Json.isJsonScalar (rest.takeWhile fun c => !isDelimiter c) <;> simp [empty] <;> rfl

theorem skipValue_eq (levels : Nat) (suffix : rest <:+ s) (enough : s.length < rounds)
    (depth : Nat) (remaining : depth + levels = kMaxDepth + 1) :
    skipValue rounds s depth (offset s rest) =
      .ok (((Json.skipValue levels).run rest).map (offset s)) := by
  induction levels generalizing rest depth with
  | zero =>
    rw [skipValue, if_pos (by omega)]
    rfl
  | succ levels ih =>
    have spaced := (skipSpace_suffix rest).trans suffix
    change _ = Except.ok ((skipFrom (Json.skipValue levels) (Json.skipSpace rest)).map (offset s))
    rw [skipValue, if_neg (by omega), skipSpace_eq suffix enough, ok_bind,
      read_unless_outside spaced]
    generalize Json.skipSpace rest = start at spaced ⊢
    cases start with
    | nil => rfl
    | cons c tail =>
      rw [onFirst_cons, skipFrom]
      split
      · exact skipString_eq spaced enough
      · split
        · rw [offset_tail spaced]
          exact skipContainer_eq (fun rest within => ih within (depth + 1) (by omega)) c
            (suffix_tail spaced) enough
        · exact skipScalar_eq spaced enough

theorem wellFormed_eq (s : Bytes) (enough : s.length < rounds) :
    wellFormed rounds s = .ok (Json.wellFormed s) := by
  have scanned := skipValue_eq (kMaxDepth + 1) (List.suffix_refl s) enough 0 (by omega)
  rw [offset_self] at scanned
  rw [wellFormed, scanned, ok_bind, Json.wellFormed, valueScanner]
  cases found : (Json.skipValue (kMaxDepth + 1)).run s with
  | none => rfl
  | some rest =>
    have suffix := ((Json.skipValue (kMaxDepth + 1)).forward s rest found).1
    dsimp only [Option.map_some]
    rw [skipSpace_eq suffix enough, ok_bind,
      offset_isEmpty ((skipSpace_suffix rest).trans suffix)]
    rfl

/-- The scan ends after at most one round more than there are bytes in each of its loops, reads
inside the text only, and accepts the language. -/
theorem wellFormed_language (s : Bytes) (spare : Nat) :
    wellFormed (s.length + 1 + spare) s = .ok (Json.wellFormed s) ∧
      (Json.wellFormed s = true ↔ Text (Value kMaxDepth) s) :=
  ⟨wellFormed_eq s (by omega), wellFormed_iff s⟩

end Value

end Cursor

end Json

end Crossbook
