import Crossbook.Checksum

set_option autoImplicit false

namespace Crossbook

inductive SideCall where
  | apply (price : Price) (qty : Qty)
  | clear
  deriving DecidableEq

def MapSide.call (m : MapSide) : SideCall → MapSide
  | .apply price qty => m.apply price qty
  | .clear => m.clear

def MapSide.run (m : MapSide) (calls : List SideCall) : MapSide := calls.foldl MapSide.call m

def ArraySide.call (a : ArraySide) : SideCall → ArraySide
  | .apply price qty => a.apply price qty
  | .clear => a.clear

def ArraySide.run (a : ArraySide) (calls : List SideCall) : ArraySide :=
  calls.foldl ArraySide.call a

theorem ArraySide.call_correct {a : ArraySide} (wf : a.Wf) (call : SideCall) :
    (a.call call).Wf ∧ (a.call call).toMap = a.toMap.call call := by
  cases call with
  | apply price qty => exact ⟨(apply_correct wf price qty).1, toMap_apply wf price qty⟩
  | clear => exact ⟨clear_wf wf, toMap_clear wf⟩

theorem ArraySide.run_correct {a : ArraySide} (wf : a.Wf) (calls : List SideCall) :
    (a.run calls).Wf ∧ (a.run calls).toMap = a.toMap.run calls := by
  induction calls generalizing a with
  | nil => exact ⟨wf, rfl⟩
  | cons call rest ih =>
    have stepped := call_correct wf call
    have tail := ih stepped.1
    rw [stepped.2] at tail
    exact tail

structure SidesAgree (a : ArraySide) (m : MapSide) : Prop where
  size : a.size = m.size
  best : a.best = m.best
  forEach : a.forEach Visit.collect [] = m.forEach Visit.collect []

theorem ArraySide.agree_toMap {a : ArraySide} (wf : a.Wf) : SidesAgree a a.toMap where
  size := size_toMap wf
  best := best_toMap wf
  forEach := forEach_toMap wf _ _

inductive BookCall where
  | apply (s : Side) (price : Price) (qty : Qty)
  | clear
  | setLastUpdate (ts : Timestamp)
  | trimSide (s : Side) (maxLevels : Nat)
  | trim (maxLevels : Nat)
  deriving DecidableEq

section Books

variable {S : Type} [SideImpl S] [LawfulSideImpl S]

def BasicL2Book.call (book : BasicL2Book S) : BookCall → BasicL2Book S
  | .apply s price qty => (book.apply s price qty).1
  | .clear => book.clear
  | .setLastUpdate ts => book.setLastUpdate ts
  | .trimSide s maxLevels => (book.trimSide s maxLevels).1
  | .trim maxLevels => (book.trim maxLevels).1

def BasicL2Book.run (book : BasicL2Book S) (calls : List BookCall) : BasicL2Book S :=
  calls.foldl BasicL2Book.call book

theorem BasicL2Book.call_toMap (book : BasicL2Book S) (call : BookCall) :
    (book.call call).toMap = book.toMap.call call := by
  cases call with
  | apply s price qty => exact (congrArg Prod.fst (book.apply_toMap s price qty)).symm
  | clear => exact book.clear_toMap.symm
  | setLastUpdate ts => rfl
  | trimSide s maxLevels => exact (congrArg Prod.fst (book.trimSide_toMap s maxLevels)).symm
  | trim maxLevels => exact (congrArg Prod.fst (book.trim_toMap maxLevels)).symm

theorem BasicL2Book.run_toMap (book : BasicL2Book S) (calls : List BookCall) :
    (book.run calls).toMap = book.toMap.run calls := by
  induction calls generalizing book with
  | nil => rfl
  | cons call rest ih => exact (ih (book.call call)).trans (by rw [call_toMap]; rfl)

structure BooksAgree (book : BasicL2Book S) (reference : MapBook) : Prop where
  top (s : Side) (n : Nat) : book.top s n = reference.top s n
  stateHash : book.stateHash = reference.stateHash
  krakenChecksum : krakenChecksum book = krakenChecksum reference

theorem BasicL2Book.agree_toMap (book : BasicL2Book S) : BooksAgree book book.toMap where
  top s n := (book.top_toMap s n).symm
  stateHash := book.stateHash_toMap.symm
  krakenChecksum := (krakenChecksum_toMap book).symm

end Books

def ArrayBook.withSlots (spec : InstrumentSpec) (slots : Nat) (bound : slots < 2 ^ 63) : ArrayBook where
  spec := spec
  bids := ValidArraySide.withSlots .bid slots bound
  asks := ValidArraySide.withSlots .ask slots bound
  lastUpdate := 0
  bidsSide := rfl
  asksSide := rfl

theorem ArrayBook.toMap_withSlots (spec : InstrumentSpec) (slots : Nat) (bound : slots < 2 ^ 63) :
    (withSlots spec slots bound).toMap = BasicL2Book.new spec := by
  refine BasicL2Book.ext rfl rfl ?_
  intro s
  cases s <;> exact ArraySide.toMap_new _ slots bound

theorem arraySide_matches_mapSide (slots : Nat) (bound : slots < 2 ^ 63) :
    (∀ (side : Side) (calls : List SideCall),
      SidesAgree ((ArraySide.new side slots).run calls) ((MapSide.new side).run calls)) ∧
    (∀ (spec : InstrumentSpec) (calls : List BookCall),
      BooksAgree ((ArrayBook.withSlots spec slots bound).run calls)
        ((BasicL2Book.new spec : MapBook).run calls)) := by
  constructor
  · intro side calls
    obtain ⟨wf, same⟩ := ArraySide.run_correct (ArraySide.new_wf side slots bound) calls
    rw [ArraySide.toMap_new side slots bound] at same
    exact same ▸ ArraySide.agree_toMap wf
  · intro spec calls
    have same := (ArrayBook.withSlots spec slots bound).run_toMap calls
    rw [ArrayBook.toMap_withSlots] at same
    exact same ▸ BasicL2Book.agree_toMap _

theorem arraySide_matches_mapSide_one_slot :
    SidesAgree
      ((ArraySide.new .bid 1).run [.apply ⟨Int64.minValue⟩ ⟨5⟩, .apply ⟨Int64.maxValue⟩ ⟨-3⟩])
      ((MapSide.new .bid).run [.apply ⟨Int64.minValue⟩ ⟨5⟩, .apply ⟨Int64.maxValue⟩ ⟨-3⟩]) :=
  (arraySide_matches_mapSide 1 (by decide)).1 .bid _

end Crossbook
