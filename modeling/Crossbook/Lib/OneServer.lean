import Mathlib

set_option autoImplicit false

namespace OneServer

/-- A job as one server deals with it: when it is due, when the server turns to it, when it is begun,
when it is done, and when the server takes note of that. -/
structure Visit where
  due : Nat
  reached : Nat
  begun : Nat
  ended : Nat
  noted : Nat
  deriving DecidableEq, Repr

namespace Visit

def service (visit : Visit) : Nat := visit.ended - visit.begun

def sojourn (visit : Visit) : Nat := visit.noted - visit.due

def lateness (visit : Visit) : Nat := visit.reached - visit.due

structure Ordered (free : Nat) (visit : Visit) : Prop where
  free_le : free ≤ visit.reached
  reached_le : visit.reached ≤ visit.begun
  due_le : visit.due ≤ visit.begun
  begun_le : visit.begun ≤ visit.ended
  ended_le : visit.ended ≤ visit.noted

theorem Ordered.begun_add_service {free : Nat} {visit : Visit} (ordered : visit.Ordered free) :
    visit.begun + visit.service = visit.ended :=
  Nat.add_sub_cancel' ordered.begun_le

end Visit

def Served : Nat → List Visit → Prop
  | _, [] => True
  | free, visit :: rest => visit.Ordered free ∧ Served visit.noted rest

def departures : Nat → List (Nat × Nat) → List Nat
  | _, [] => []
  | free, (due, service) :: rest =>
    (max free due + service) :: departures (max free due + service) rest

def sojourns (free : Nat) (jobs : List (Nat × Nat)) : List Nat :=
  List.zipWith (fun job left => left - job.1) jobs (departures free jobs)

def jobs (visits : List Visit) : List (Nat × Nat) := visits.map fun visit => (visit.due, visit.service)

variable {free start : Nat} {visits : List Visit}

theorem departures_le (served : Served free visits) (earlier : start ≤ free) :
    List.Forall₂ (· ≤ ·) (departures start (jobs visits)) (visits.map Visit.noted) := by
  -- By induction on the jobs: no server is free before the ideal one.
  induction visits generalizing free start with
  | nil => exact .nil
  | cons visit rest ih =>
    obtain ⟨ordered, later⟩ := served
    have begins : max start visit.due ≤ visit.begun :=
      max_le (earlier.trans (ordered.free_le.trans ordered.reached_le)) ordered.due_le
    have leaves : max start visit.due + visit.service ≤ visit.noted := by
      refine le_trans ?_ ordered.ended_le
      rw [← ordered.begun_add_service]
      exact Nat.add_le_add_right begins _
    exact .cons leaves (ih later leaves)

theorem sojourns_le (served : Served free visits) (earlier : start ≤ free) :
    List.Forall₂ (· ≤ ·) (sojourns start (jobs visits)) (visits.map Visit.sojourn) := by
  have departs := departures_le served earlier
  rw [sojourns]
  generalize departures start (jobs visits) = left at departs
  clear served
  induction visits generalizing left with
  | nil => exact .nil
  | cons visit rest ih =>
    rw [List.map_cons] at departs
    obtain ⟨first, more, sooner, others, rfl⟩ := List.forall₂_cons_right_iff.mp departs
    exact .cons (Nat.sub_le_sub_right sooner _) (ih more others)

end OneServer
