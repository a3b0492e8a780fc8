import Crossbook.Json.Find
import Crossbook.Venues.Decoding

set_option autoImplicit false

namespace Crossbook

namespace Venues

open Json (find members visitedMembers)

def captureRaw (key : Bytes) (slot : JsonValue) (member : Bytes × JsonValue) : JsonValue :=
  if member.1 = key then capture slot member.2 else slot

theorem captureRaw_fold (key : Bytes) (fields : List (Bytes × JsonValue)) (slot : JsonValue)
    (delivered : ∀ member ∈ fields, member.2.ok = true) :
    fields.foldl (captureRaw key) slot =
      if slot.ok then slot
      else ((fields.find? fun member => member.1 = key).map Prod.snd).getD slot := by
  induction fields generalizing slot with
  | nil => simp
  | cons member rest ih =>
    have value := delivered member (by simp)
    rw [List.foldl_cons, ih _ fun other later => delivered other (List.mem_cons_of_mem member later)]
    cases held : slot.ok with
    | true => simp [captureRaw, capture, held]
    | false => by_cases here : member.1 = key <;> simp [captureRaw, capture, held, here, value]

theorem walked_find {F : Type} {fn : F → Bytes × JsonValue → F × Bool} {blank : F} (key : Bytes)
    (field : F → JsonValue) (goes : ∀ fields member, (fn fields member).2 = true)
    (captures : ∀ fields member,
      field (fn fields member).1 = captureRaw key (field fields) member)
    (start : field blank = .absent) (object : Bytes) :
    field (Json.forEachMember object fn blank).1 = find object key := by
  have folded : ∀ (list : List (Bytes × JsonValue)) (fields : F),
      field (list.foldl (fun fields member => (fn fields member).1) fields) =
        list.foldl (captureRaw key) (field fields) := by
    intro list
    induction list with
    | nil => exact fun _ => rfl
    | cons member rest ih =>
      intro fields
      rw [List.foldl_cons, List.foldl_cons, ih, captures]
  rw [Json.forEachMember_state, Json.feed_all fn goes, folded, start,
    captureRaw_fold key _ _ (Json.members_ok object), Json.find_eq_firstRaw]
  rfl

/-- One walk that fills a slot for every key reads as repeated lookups do. -/
theorem walk_agrees_with_find (object : Bytes) :
    (∀ key, (Json.forEachMember object
        (fun slot member => (captureRaw key slot member, true)) .absent).1 = find object key) ∧
      (Json.forEachMember object
        (fun (slots : Bytes → JsonValue) member =>
          (fun key => captureRaw key (slots key) member, true))
        fun _ => .absent).1 = find object ∧
      ∀ key, (find object key).type = .invalid ↔
        ∀ member ∈ visitedMembers object (fun (_ : Unit) _ => ((), true)) (), member.1 ≠ key := by
  refine ⟨?_, ?_, ?_⟩
  · intro key
    exact walked_find key id (fun _ _ => rfl) (fun _ _ => rfl) rfl object
  · funext key
    exact walked_find key (fun slots : Bytes → JsonValue => slots key) (fun _ _ => rfl)
      (fun _ _ => rfl) rfl object
  · intro key
    rw [Json.visitedMembers_eq object _ fun _ _ => rfl, ← Json.find_missing]
    simp [JsonValue.ok]

end Venues

end Crossbook
