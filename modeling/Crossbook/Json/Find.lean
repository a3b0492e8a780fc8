import Crossbook.Json.Values

set_option autoImplicit false

namespace Crossbook

namespace Json

def findFrom (key s : Bytes) : JsonValue :=
  match nextByte s with
  | none => .absent
  | some (first, _) =>
    if first = ascii '}' then .absent
    else
      match _read : readMember s with
      | none => .absent
      | some (member, rest) =>
        if member.1 = key then member.2
        else
          match _next : nextByte rest with
          | none => .absent
          | some (c, tail) =>
            if c = ascii '}' then .absent
            else if c = ascii ',' then findFrom key tail
            else .absent
termination_by s.length
decreasing_by
  have first := readMember_forward s member rest _read
  have second := (nextByte_forward rest _next).2
  omega

-- Keys are compared as they are spelled, and the first occurrence wins.
def find (object key : Bytes) : JsonValue :=
  match nextByte object with
  | none => .absent
  | some (c, inside) => if c = ascii '{' then findFrom key inside else .absent

def firstRaw (key : Bytes) (members : List (Bytes × JsonValue)) : JsonValue :=
  ((members.find? fun member => member.1 = key).map Prod.snd).getD .absent

@[simp] theorem firstRaw_nil (key : Bytes) : firstRaw key [] = .absent := rfl

theorem firstRaw_cons (key : Bytes) (member : Bytes × JsonValue) (rest : List (Bytes × JsonValue)) :
    firstRaw key (member :: rest) = if member.1 = key then member.2 else firstRaw key rest := by
  by_cases here : member.1 = key <;> simp [firstRaw, here]

theorem firstRaw_missing (key : Bytes) (members : List (Bytes × JsonValue))
    (delivered : ∀ member ∈ members, member.2.ok = true) :
    (firstRaw key members).ok = false ↔ ∀ member ∈ members, member.1 ≠ key := by
  induction members with
  | nil => simp [JsonValue.ok, JsonValue.absent]
  | cons member rest ih =>
    have value := delivered member (by simp)
    have later := ih fun other inRest => delivered other (List.mem_cons_of_mem member inRest)
    rw [firstRaw_cons]
    by_cases here : member.1 = key
    · simp [here, value]
    · simp [here, later]

theorem readMember_head (s : Bytes) (member : Bytes × JsonValue) (rest : Bytes)
    (read : readMember s = some (member, rest)) :
    ∃ tail, nextByte s = some (ascii '"', tail) := by
  -- A member begins with its key's quote, so a lookup that meets a brace would not have read one.
  obtain ⟨afterKey, _, key, _⟩ := readMember_cases read
  unfold nextByte
  cases start : skipSpace s with
  | nil =>
    rw [start] at key
    simp [skipString] at key
  | cons c tail =>
    rw [start, skipString] at key
    split at key
    · rename_i quote
      exact ⟨tail, by rw [quote]⟩
    · simp at key

theorem findFrom_unread {key s : Bytes} (read : readMember s = none) : findFrom key s = .absent := by
  rw [findFrom]
  split
  · rfl
  · split
    · rfl
    · split
      · rfl
      · rename_i found
        rw [read] at found
        contradiction

theorem findFrom_read {key s : Bytes} {member : Bytes × JsonValue} {rest : Bytes}
    (read : readMember s = some (member, rest)) :
    findFrom key s =
      if member.1 = key then member.2
      else
        match nextByte rest with
        | none => .absent
        | some (c, tail) =>
          if c = ascii '}' then .absent
          else if c = ascii ',' then findFrom key tail
          else .absent := by
  obtain ⟨tail, quote⟩ := readMember_head s member rest read
  rw [findFrom, quote]
  dsimp only
  rw [if_neg (by decide)]
  split
  · rename_i found
    rw [read] at found
    contradiction
  · rename_i found
    rw [read] at found
    simp only [Option.some.injEq, Prod.mk.injEq] at found
    obtain ⟨rfl, rfl⟩ := found
    split
    · rfl
    · split <;> rename_i next <;> simp only [next]

theorem findFrom_eq (key s : Bytes) :
    findFrom key s = firstRaw key (itemsOf memberReader (ascii '}') s).1 := by
  fun_induction itemsOf memberReader (ascii '}') s with
  | case1 s read => simpa using findFrom_unread read
  | case2 s member rest read next => simp [findFrom_read read, firstRaw_cons, next]
  | case3 s member rest read tail next => simp [findFrom_read read, firstRaw_cons, next]
  | case4 s member rest read tail next different ih =>
    rw [findFrom_read read, firstRaw_cons, next]
    simp only [if_neg different, if_true, ih]
  | case5 s member rest read c tail next notClose notComma =>
    simp [findFrom_read read, firstRaw_cons, next, notClose, notComma]

theorem find_eq_firstRaw (object key : Bytes) : find object key = firstRaw key (members object) := by
  unfold find members contentsOf
  cases opened : nextByte object with
  | none => rfl
  | some head =>
    obtain ⟨c, inside⟩ := head
    dsimp only
    by_cases brace : c = ascii '{'
    · rw [if_pos brace, if_pos brace]
      cases start : nextByte inside with
      | none => exact findFrom_eq key inside
      | some next =>
        obtain ⟨d, tail⟩ := next
        dsimp only
        by_cases close : d = ascii '}'
        · rw [if_pos close, findFrom, start]
          simp [close]
        · rw [if_neg close]
          exact findFrom_eq key inside
    · rw [if_neg brace, if_neg brace]
      rfl

theorem find_missing (object key : Bytes) :
    (find object key).ok = false ↔ ∀ member ∈ members object, member.1 ≠ key := by
  rw [find_eq_firstRaw]
  exact firstRaw_missing key _ (members_ok object)

end Json

end Crossbook
