import Crossbook.Json.Delivered
import Crossbook.Venues.Lookup

set_option autoImplicit false

namespace Crossbook

namespace Venues

open Json (first members elements Delivered)

theorem walked_field {F : Type} {fn : F → Bytes × JsonValue → F × Bool} {blank : F} (key : String)
    (field : F → JsonValue) (goes : ∀ fields member, (fn fields member).2 = true)
    (captures : ∀ fields member,
      field (fn fields member).1 = captureAt key (field fields) member)
    (start : field blank = .absent) (object : Bytes) :
    field (Json.forEachMember object fn blank).1 = first key (members object) := by
  -- Each slot of a member walk ends up with the first member of its key.
  rw [walked_find (bytes key) field goes captures start object, Json.find_eq_firstRaw]
  rfl

structure WireLevel where
  side : Side
  price : Bytes
  qty : Bytes
  deriving DecidableEq, Repr

namespace WireLevel

def read (spec : InstrumentSpec) (level : WireLevel) : LevelUpdate :=
  ⟨level.side, ⟨(parseFixed level.price spec.priceScale).mantissa⟩,
    ⟨(parseFixed level.qty spec.qtyScale).mantissa⟩⟩

structure Spelled (spec : InstrumentSpec) (level : WireLevel) : Prop where
  priceParsed : (parseFixed level.price spec.priceScale).ok = true
  qtyParsed : (parseFixed level.qty spec.qtyScale).ok = true
  priceCanonical : isCanonicalMantissa level.price spec.priceScale
    (level.read spec).price.ticks = true
  qtyCanonical : isCanonicalMantissa level.qty spec.qtyScale (level.read spec).qty.units = true

end WireLevel

section Levels

variable {spec : InstrumentSpec}

theorem pushLevel_cases (spec : InstrumentSpec) (message : DecodedMessage) (level : WireLevel) :
    (¬ level.Spelled spec ∧
      (pushLevel spec level.side message level.price level.qty).1.2 = true ∧
      (pushLevel spec level.side message level.price level.qty).2 = false) ∨
    (level.Spelled spec ∧
      pushLevel spec level.side message level.price level.qty =
        (({ message with levels := message.levels ++ [level.read spec] }, false), true)) := by
  unfold pushLevel
  by_cases price : (parseFixed level.price spec.priceScale).ok = false
  · refine .inl ⟨fun spelled => ?_, by simp [price, refuse, failed]⟩
    simp [spelled.priceParsed] at price
  by_cases qty : (parseFixed level.qty spec.qtyScale).ok = false
  · refine .inl ⟨fun spelled => ?_, by simp [price, qty, refuse, failed]⟩
    simp [spelled.qtyParsed] at qty
  by_cases priceSpelled : isCanonicalMantissa level.price spec.priceScale
      (parseFixed level.price spec.priceScale).mantissa = false
  · refine .inl ⟨fun spelled => ?_, by simp [price, qty, priceSpelled, refuse, failed]⟩
    exact absurd (priceSpelled.symm.trans spelled.priceCanonical) Bool.false_ne_true
  by_cases qtySpelled : isCanonicalMantissa level.qty spec.qtyScale
      (parseFixed level.qty spec.qtyScale).mantissa = false
  · refine .inl ⟨fun spelled => ?_, by simp [price, qty, priceSpelled, qtySpelled, refuse, failed]⟩
    exact absurd (qtySpelled.symm.trans spelled.qtyCanonical) Bool.false_ne_true
  refine .inr ⟨?_, ?_⟩
  · exact ⟨by simpa using price, by simpa using qty, by simpa [WireLevel.read] using priceSpelled,
      by simpa [WireLevel.read] using qtySpelled⟩
  · simp [price, qty, priceSpelled, qtySpelled, WireLevel.read]

theorem WireLevel.Spelled.tokens {level : WireLevel} (spelled : level.Spelled spec) :
    level.price.isEmpty = false ∧ level.qty.isEmpty = false := by
  have parsed : ∀ (token : Bytes) (scale : Scale), (parseFixed token scale).ok = true →
      token.isEmpty = false := by
    intro token scale ok
    by_contra empty
    simp only [Bool.not_eq_false] at empty
    unfold parseFixed at ok
    split at ok
    · contradiction
    · contradiction
  exact ⟨parsed _ _ spelled.priceParsed, parsed _ _ spelled.qtyParsed⟩

/-- What every venue's level callback does: a level of the venue's shape is read as `wire` says
and the walk goes on, and any other level, or one too many, fails and stops it. -/
structure ReadsLevels (spec : InstrumentSpec) (decodeLevel : Progress → JsonValue → Progress × Bool)
    (wire : JsonValue → WireLevel) (Shaped : JsonValue → Prop) : Prop where
  pushed : ∀ message level, Shaped level → (wire level).Spelled spec →
    message.levels.length < kMaxLevelsPerMessage →
    decodeLevel (message, false) level =
      (({ message with levels := message.levels ++ [(wire level).read spec] }, false), true)
  stopped : ∀ message level,
    ¬ (Shaped level ∧ (wire level).Spelled spec ∧ message.levels.length < kMaxLevelsPerMessage) →
    (decodeLevel (message, false) level).1.2 = true ∧ (decodeLevel (message, false) level).2 = false

variable {decodeLevel : Progress → JsonValue → Progress × Bool} {wire : JsonValue → WireLevel}
  {Shaped : JsonValue → Prop}

theorem feed_reads (reads : ReadsLevels spec decodeLevel wire Shaped) (message : DecodedMessage)
    (levels : List JsonValue) (shaped : ∀ level ∈ levels, Shaped level ∧ (wire level).Spelled spec)
    (fits : message.levels.length + levels.length ≤ kMaxLevelsPerMessage) :
    Json.feed decodeLevel (message, false) levels =
      (({ message with levels := message.levels ++ (levels.map wire).map (WireLevel.read spec) },
        false), false) := by
  induction levels generalizing message with
  | nil => simp [Json.feed]
  | cons level rest ih =>
    obtain ⟨here, later⟩ := List.forall_mem_cons.mp shaped
    rw [List.length_cons] at fits
    rw [Json.feed, reads.pushed message level here.1 here.2 (by omega)]
    simp only [Bool.true_eq_false, if_false]
    rw [ih _ later (by rw [List.length_append, List.length_singleton]; omega)]
    simp

theorem feed_success (reads : ReadsLevels spec decodeLevel wire Shaped) (message : DecodedMessage)
    (levels : List JsonValue) (room : message.levels.length ≤ kMaxLevelsPerMessage)
    (success : (Json.feed decodeLevel (message, false) levels).1.2 = false) :
    (∀ level ∈ levels, Shaped level ∧ (wire level).Spelled spec) ∧
      message.levels.length + levels.length ≤ kMaxLevelsPerMessage := by
  induction levels generalizing message with
  | nil => exact ⟨by simp, room⟩
  | cons level rest ih =>
    rw [Json.feed] at success
    by_cases pushed : Shaped level ∧ (wire level).Spelled spec ∧
        message.levels.length < kMaxLevelsPerMessage
    · rw [reads.pushed message level pushed.1 pushed.2.1 pushed.2.2] at success
      have length : (message.levels ++ [(wire level).read spec]).length =
          message.levels.length + 1 := by simp
      obtain ⟨others, fits⟩ := ih _ (length.trans_le pushed.2.2) success
      rw [length] at fits
      refine ⟨List.forall_mem_cons.mpr ⟨⟨pushed.1, pushed.2.1⟩, others⟩, ?_⟩
      rw [List.length_cons]
      omega
    · obtain ⟨failed, stopped⟩ := reads.stopped message level pushed
      rw [if_pos stopped] at success
      exact absurd (failed.symm.trans success) (by decide)

def SideShaped (spec : InstrumentSpec) (wire : JsonValue → WireLevel) (Shaped : JsonValue → Prop)
    (array : JsonValue) : Prop :=
  array.ok = false ∨
    array.type = .array ∧ ∀ level ∈ elements array.raw, Shaped level ∧ (wire level).Spelled spec

theorem walkSide_success (reads : ReadsLevels spec decodeLevel wire Shaped)
    (message : DecodedMessage) (array : JsonValue) (missing : array.ok = false → array = .absent)
    (room : message.levels.length ≤ kMaxLevelsPerMessage)
    (success : (walkSide decodeLevel message array).2 = true) :
    (walkSide decodeLevel message array).1 =
        { message with
          levels := message.levels ++ ((elements array.raw).map wire).map (WireLevel.read spec) } ∧
      SideShaped spec wire Shaped array ∧
      message.levels.length + (elements array.raw).length ≤ kMaxLevelsPerMessage := by
  unfold walkSide at success ⊢
  split
  · rename_i none
    have empty : elements array.raw = [] := by
      rw [missing none]
      rfl
    rw [empty]
    exact ⟨by simp, .inl none, room⟩
  · rename_i present
    rw [if_neg present] at success
    split at success
    · simp at success
    · rename_i isArray
      rw [if_neg isArray]
      simp only [Bool.and_eq_true, Bool.not_eq_true', Json.forEach_state] at success ⊢
      obtain ⟨shaped, fits⟩ := feed_success reads message _ room success.2
      refine ⟨?_, .inr ⟨not_not.mp isArray, shaped⟩, fits⟩
      rw [feed_reads reads message _ shaped fits]

theorem walkSide_complete (reads : ReadsLevels spec decodeLevel wire Shaped)
    (message : DecodedMessage) (array : JsonValue) (missing : array.ok = false → array = .absent)
    (delivered : array.ok = true → Delivered array) (shaped : SideShaped spec wire Shaped array)
    (fits : message.levels.length + (elements array.raw).length ≤ kMaxLevelsPerMessage) :
    walkSide decodeLevel message array =
      ({ message with
          levels := message.levels ++ ((elements array.raw).map wire).map (WireLevel.read spec) },
        true) := by
  unfold walkSide
  split
  · rename_i none
    have empty : elements array.raw = [] := by
      rw [missing none]
      rfl
    simp [empty]
  · rename_i present
    rcases shaped with none | ⟨isArray, levels⟩
    · exact absurd none present
    · rw [if_neg (not_not.mpr isArray)]
      have walked := (delivered (by simpa using present)).forEach_walked isArray decodeLevel
        (message, false)
      simp only [walked, Json.forEach_state, feed_reads reads message _ levels fits]
      rfl

end Levels

def Loads (message : DecodedMessage) : Prop :=
  message.ok = true ∧ (message.kind = .snapshot ∨ message.kind = .update)

theorem failDecoded_not_ok (message : DecodedMessage) : (failDecoded message).ok = false := by
  unfold failDecoded fail
  cases held : message.ok with
  | true => rfl
  | false => exact held

instance (message : DecodedMessage) : Decidable (Loads message) :=
  inferInstanceAs (Decidable (message.ok = true ∧ _))

end Venues

end Crossbook
