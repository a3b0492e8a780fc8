import Crossbook.Lib.Visit
import Crossbook.Types

set_option autoImplicit false

namespace Crossbook

structure MapSide where
  side : Side
  levels : Std.ExtTreeMap Int64 Int64

namespace MapSide

def new (side : Side) : MapSide := ⟨side, ∅⟩

def apply (m : MapSide) (price : Price) (qty : Qty) : MapSide :=
  if qty.isZero then { m with levels := m.levels.erase price.ticks }
  else { m with levels := m.levels.insert price.ticks qty.units }

def clear (m : MapSide) : MapSide := { m with levels := ∅ }

def size (m : MapSide) : Nat := m.levels.size

def levelOf (entry : Int64 × Int64) : Level := ⟨⟨entry.1⟩, ⟨entry.2⟩⟩

def best (m : MapSide) : Option Level :=
  match m.side with
  | .ask => m.levels.toList.head?.map levelOf
  | .bid => m.levels.toList.getLast?.map levelOf

def bookLevels (m : MapSide) : List Level :=
  match m.side with
  | .ask => m.levels.toList.map levelOf
  | .bid => m.levels.toList.reverse.map levelOf

def forEach {σ : Type} (m : MapSide) (fn : σ → Level → σ × Bool) (state : σ) : σ :=
  Visit.visit fn state m.bookLevels

theorem ext {m n : MapSide} (side : m.side = n.side)
    (levels : ∀ ticks : Int64, m.levels[ticks]? = n.levels[ticks]?) : m = n := by
  cases m
  cases n
  simp only [mk.injEq] at *
  exact ⟨side, Std.ExtTreeMap.ext_getElem? (fun {k} => levels k)⟩

@[simp] theorem side_new (side : Side) : (new side).side = side := rfl

@[simp] theorem side_apply (m : MapSide) (price : Price) (qty : Qty) :
    (m.apply price qty).side = m.side := by
  unfold apply
  split <;> rfl

@[simp] theorem side_clear (m : MapSide) : m.clear.side = m.side := rfl

theorem getElem?_apply (m : MapSide) (price : Price) (qty : Qty) (ticks : Int64) :
    (m.apply price qty).levels[ticks]? =
      if price.ticks = ticks then (if qty.isZero then none else some qty.units)
      else m.levels[ticks]? := by
  unfold apply
  split <;> simp [Std.ExtTreeMap.getElem?_erase, Std.ExtTreeMap.getElem?_insert]

theorem mem_bookLevels (m : MapSide) (level : Level) :
    level ∈ m.bookLevels ↔ m.levels[level.price.ticks]? = some level.qty.units := by
  have entries : level ∈ m.levels.toList.map levelOf ↔
      m.levels[level.price.ticks]? = some level.qty.units := by
    rw [← Std.ExtTreeMap.mem_toList_iff_getElem?_eq_some, List.mem_map]
    constructor
    · rintro ⟨entry, member, rfl⟩
      exact member
    · exact fun member => ⟨_, member, rfl⟩
  unfold bookLevels
  cases m.side <;> simpa using entries

theorem bookOrder (m : MapSide) : BookOrder m.side m.bookLevels := by
  have ascending := m.levels.ordered_keys_toList
  unfold bookLevels BookOrder
  cases m.side
  · simp only [List.pairwise_map, List.pairwise_reverse]
    exact ascending.imp fun {a b} less => decide_eq_true (compare_lt_iff_lt.mp less)
  · simp only [List.pairwise_map]
    exact ascending.imp fun {a b} less => decide_eq_true (compare_lt_iff_lt.mp less)

theorem size_eq_length (m : MapSide) : m.size = m.bookLevels.length := by
  unfold bookLevels size
  cases m.side <;> simp

theorem best_eq_head (m : MapSide) : m.best = m.bookLevels.head? := by
  unfold best bookLevels
  cases m.side <;> simp [List.head?_reverse]

end MapSide

end Crossbook
