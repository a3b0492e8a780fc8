import Crossbook.Json.WalkLanguage

set_option autoImplicit false

namespace Crossbook

namespace Json

open Spans (Stops)

section Truncation

variable {levels : Nat}

theorem skipValue_inner (levels : Nat) :
    ∃ language, Scans (skipValue levels) language ∧ Value levels = ValueText language := by
  cases levels with
  | zero =>
    refine ⟨fun _ => False, ⟨?_, ?_, ?_⟩, rfl⟩
    · intro s rest found
      simp [skipValue] at found
    · exact fun _ _ _ _ impossible => impossible.elim
    · exact fun _ impossible => impossible.elim
  | succ levels => exact ⟨Value levels, scans_skipValue levels, rfl⟩

theorem skipValue_object {w t : Bytes} (blank : Blank w) (value : Value levels t)
    (brace : t.head? = some (ascii '{')) (rest : Bytes) :
    (skipValue (levels + 1)).run (w ++ (t ++ rest)) = some rest := by
  obtain ⟨language, scans, same⟩ := skipValue_inner levels
  rw [same] at value
  have notScalar : ¬ ScalarText t := by
    intro scalar
    obtain ⟨c, tail, rfl, _, notBrace, _⟩ := scalar_head scalar
    exact notBrace (Option.some.inj brace)
  have stops : Stops isSpace (t ++ rest) := by
    obtain ⟨c, tail, rfl, proper⟩ := valueText_headed value
    simpa using solid_of_proper proper
  exact (congrArg (skipFrom (skipValue levels)) (skipSpace_run blank stops)).trans
    (skipFrom_complete scans value rest fun scalar => absurd scalar notScalar)

theorem object_ends {frame : Bytes} (object : ObjectText levels frame)
    (closed : frame.getLast? = some (ascii '}')) :
    (skipValue (levels + 1)).run frame = some [] := by
  obtain ⟨w, t, v, blank, ⟨value, brace⟩, after, rfl⟩ := object
  have none : v = [] := by
    by_contra some_
    have last : v.getLast some_ = ascii '}' := by
      rw [← List.append_assoc, List.getLast?_append_of_ne_nil _ some_,
        List.getLast?_eq_some_getLast some_] at closed
      exact Option.some.inj closed
    have space := after _ (List.getLast_mem some_)
    rw [last] at space
    contradiction
  rw [none]
  exact skipValue_object blank value brace []

theorem object_truncated {frame part : Bytes} (object : ObjectText levels frame)
    (closed : frame.getLast? = some (ascii '}')) (isPrefix : part <+: frame)
    (proper : part ≠ frame) : ¬ Text (Value levels) part := by
  rintro ⟨w, t, v, blank, value, _, rfl⟩
  obtain ⟨rest, rfl⟩ := isPrefix
  simp only [List.append_assoc] at object closed proper
  have brace : t.head? = some (ascii '{') := by
    obtain ⟨first, found⟩ := (classify_object _).mp ((objectText_iff levels _).mp object).2
    obtain ⟨c, tail, rfl, delimits⟩ := (scans_skipValue levels).headed t value
    have start := (nextByte_iff _ c (tail ++ (v ++ rest))).mpr
      ⟨w, blank, rfl, solid_of_proper delimits⟩
    rw [← List.cons_append, found] at start
    exact congrArg (fun next => some next.1) (Option.some.inj start).symm
  have ends := (skipValue_object blank value brace (v ++ rest)).symm.trans (object_ends object closed)
  obtain ⟨rfl, rfl⟩ := List.append_eq_nil_iff.mp (Option.some.inj ends)
  exact proper (by simp)

theorem object_truncated_wellFormed {frame part : Bytes} (object : ObjectText (kMaxDepth + 1) frame)
    (closed : frame.getLast? = some (ascii '}')) (isPrefix : part <+: frame)
    (proper : part ≠ frame) : wellFormed part = false := by
  rw [← Bool.not_eq_true, wellFormed_iff]
  exact fun text =>
    object_truncated object closed isPrefix proper (text_mono (value_mono kMaxDepth) text)

theorem object_truncated_walk {σ : Type} {frame part : Bytes}
    (object : ObjectText (kMaxDepth + 1) frame) (closed : frame.getLast? = some (ascii '}'))
    (isPrefix : part <+: frame) (proper : part ≠ frame) (fn : σ → Bytes × JsonValue → σ × Bool)
    (goes : ∀ state member, (fn state member).2 = true) (state : σ) :
    (forEachMember part fn state).2 = false := by
  rw [← Bool.not_eq_true, forEachMember_iff part fn goes, objectText_iff]
  exact fun text => object_truncated object closed isPrefix proper text.1

end Truncation

end Json

end Crossbook
