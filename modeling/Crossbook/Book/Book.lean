import Crossbook.Book.SideImpl

set_option autoImplicit false

namespace Crossbook

namespace MapSide

def removeAll (m : MapSide) (doomed : List Price) : MapSide :=
  doomed.foldl (fun m price => m.apply price ⟨0⟩) m

@[simp] theorem side_removeAll (m : MapSide) (doomed : List Price) :
    (m.removeAll doomed).side = m.side := by
  induction doomed generalizing m with
  | nil => rfl
  | cons price rest ih => simpa [removeAll] using ih (m.apply price ⟨0⟩)

theorem getElem?_removeAll (m : MapSide) (doomed : List Price) (ticks : Int64) :
    (m.removeAll doomed).levels[ticks]? =
      if (⟨ticks⟩ : Price) ∈ doomed then none else m.levels[ticks]? := by
  induction doomed generalizing m with
  | nil => simp [removeAll]
  | cons price rest ih =>
    have tail := ih (m.apply price ⟨0⟩)
    have unfolded : m.removeAll (price :: rest) = (m.apply price ⟨0⟩).removeAll rest := rfl
    rw [unfolded, tail, getElem?_apply]
    rcases price with ⟨first⟩
    by_cases here : first = ticks
    · simp [here, Qty.isZero]
    · simp [here, Ne.symm here]

theorem mem_removeAll (m : MapSide) (doomed : List Price) (level : Level) :
    level ∈ (m.removeAll doomed).bookLevels ↔ level ∈ m.bookLevels ∧ level.price ∉ doomed := by
  rw [mem_bookLevels, mem_bookLevels, getElem?_removeAll]
  split <;> simp_all

theorem bookLevels_removeAll (m : MapSide) (before doomed after : List Level)
    (split : m.bookLevels = before ++ doomed ++ after) :
    (m.removeAll (doomed.map Level.price)).bookLevels = before ++ after := by
  have ordered := m.bookOrder
  rw [split] at ordered
  have distinct := ordered.imp (fun {a b} first => show a.price ≠ b.price by
    intro same
    rw [same, precedes_irrefl] at first
    simp at first)
  have kept : BookOrder m.side (before ++ after) := by
    apply List.Pairwise.sublist _ ordered
    simp
  apply BookOrder.eq_of_mem_iff (by simpa using (m.removeAll _).bookOrder) kept
  intro level
  rw [mem_removeAll, split]
  simp only [List.pairwise_append, List.mem_append] at distinct
  simp only [List.mem_append, List.mem_map, not_exists, not_and]
  grind

end MapSide

structure BasicL2Book (S : Type) [SideImpl S] where
  spec : InstrumentSpec
  bids : S
  asks : S
  lastUpdate : Timestamp
  bidsSide : SideImpl.side bids = .bid
  asksSide : SideImpl.side asks = .ask

section Sides

variable {S : Type} [SideImpl S] [LawfulSideImpl S]

@[simp] theorem side_new (side : Side) : SideImpl.side (SideImpl.new side : S) = side := by
  rw [← LawfulSideImpl.side_toMap]
  simp only [LawfulSideImpl.toMap_new, MapSide.side_new]

@[simp] theorem side_apply (s : S) (price : Price) (qty : Qty) :
    SideImpl.side (SideImpl.apply s price qty) = SideImpl.side s := by
  rw [← LawfulSideImpl.side_toMap, LawfulSideImpl.toMap_apply, MapSide.side_apply,
    LawfulSideImpl.side_toMap]

@[simp] theorem side_clear (s : S) : SideImpl.side (SideImpl.clear s) = SideImpl.side s := by
  rw [← LawfulSideImpl.side_toMap, LawfulSideImpl.toMap_clear, MapSide.side_clear,
    LawfulSideImpl.side_toMap]

def removeAll (s : S) (doomed : List Price) : S :=
  doomed.foldl (fun s price => SideImpl.apply s price ⟨0⟩) s

omit [LawfulSideImpl S] in
theorem removeAll_cons (s : S) (price : Price) (rest : List Price) :
    removeAll s (price :: rest) = removeAll (SideImpl.apply s price ⟨0⟩) rest := rfl

@[simp] theorem toMap_removeAll (s : S) (doomed : List Price) :
    LawfulSideImpl.toMap (removeAll s doomed) = (LawfulSideImpl.toMap s).removeAll doomed := by
  induction doomed generalizing s with
  | nil => rfl
  | cons price rest ih => rw [removeAll_cons, ih, LawfulSideImpl.toMap_apply]; rfl

def kDoomedBatch : Nat := 64

def doomedStep (maxLevels : Nat) (found : Nat × List Price) (level : Level) :
    (Nat × List Price) × Bool :=
  if found.1 < maxLevels then ((found.1 + 1, found.2), true)
  else
    ((found.1 + 1, found.2 ++ [level.price]), decide (found.2.length + 1 < kDoomedBatch))

def doomed (s : S) (maxLevels : Nat) : List Price :=
  (SideImpl.forEach s (doomedStep maxLevels) (0, [])).2

theorem visit_doomedStep_past (maxLevels seen : Nat) (found : List Price) (levels : List Level)
    (past : maxLevels ≤ seen) (room : found.length < kDoomedBatch) :
    (Visit.visit (doomedStep maxLevels) (seen, found) levels).2 =
      found ++ ((levels.take (kDoomedBatch - found.length)).map Level.price) := by
  induction levels generalizing seen found with
  | nil => simp
  | cons level rest ih =>
    have width : kDoomedBatch - found.length = kDoomedBatch - (found.length + 1) + 1 := by omega
    rw [Visit.visit_cons, width, List.take_succ_cons]
    simp only [doomedStep, Nat.not_lt.mpr past, if_false, decide_eq_true_eq]
    by_cases more : found.length + 1 < kDoomedBatch
    · simp [more, ih (seen + 1) (found ++ [level.price]) (by omega) (by simpa using more)]
    · simp [more, Nat.sub_eq_zero_of_le (Nat.not_lt.mp more)]

theorem visit_doomedStep (maxLevels seen : Nat) (levels : List Level) :
    (Visit.visit (doomedStep maxLevels) (seen, []) levels).2 =
      ((levels.drop (maxLevels - seen)).take kDoomedBatch).map Level.price := by
  induction levels generalizing seen with
  | nil => simp
  | cons level rest ih =>
    by_cases past : maxLevels ≤ seen
    · rw [visit_doomedStep_past maxLevels seen [] _ past (by decide)]
      simp [Nat.sub_eq_zero_of_le past]
    · have width : maxLevels - seen = maxLevels - (seen + 1) + 1 := by omega
      rw [Visit.visit_cons, width, List.drop_succ_cons, ← ih]
      simp [doomedStep, Nat.not_le.mp past]

theorem doomed_eq (s : S) (maxLevels : Nat) :
    doomed s maxLevels =
      (((LawfulSideImpl.toMap s).bookLevels.drop maxLevels).take kDoomedBatch).map Level.price := by
  rw [doomed, ← LawfulSideImpl.forEach_toMap]
  exact visit_doomedStep maxLevels 0 _

theorem bookLevels_removeAll_doomed (s : S) (maxLevels : Nat) :
    (LawfulSideImpl.toMap (removeAll s (doomed s maxLevels))).bookLevels =
      (LawfulSideImpl.toMap s).bookLevels.take maxLevels ++
        (LawfulSideImpl.toMap s).bookLevels.drop (maxLevels + kDoomedBatch) := by
  rw [toMap_removeAll, doomed_eq]
  apply MapSide.bookLevels_removeAll
  rw [List.append_assoc, ← List.drop_drop, List.take_append_drop, List.take_append_drop]

theorem size_removeAll_doomed (s : S) (maxLevels : Nat) (some : doomed s maxLevels ≠ []) :
    SideImpl.size (removeAll s (doomed s maxLevels)) < SideImpl.size s := by
  rw [← LawfulSideImpl.size_toMap, ← LawfulSideImpl.size_toMap, MapSide.size_eq_length,
    MapSide.size_eq_length, bookLevels_removeAll_doomed]
  have deep : maxLevels < (LawfulSideImpl.toMap s).bookLevels.length := by
    by_contra shallow
    apply some
    rw [doomed_eq, List.drop_eq_nil_of_le (Nat.not_lt.mp shallow)]
    rfl
  simp only [List.length_append, List.length_take, List.length_drop, kDoomedBatch]
  omega

end Sides

/-- One side's trim loop: name up to a batch of levels past the limit, remove them, repeat. -/
def trimLoop {S : Type} [SideImpl S] [LawfulSideImpl S] (s : S) (maxLevels removed : Nat) :
    S × Nat :=
  if done : doomed s maxLevels = [] then (s, removed)
  else
    have _smaller := size_removeAll_doomed s maxLevels done
    trimLoop (removeAll s (doomed s maxLevels)) maxLevels (removed + (doomed s maxLevels).length)
termination_by SideImpl.size s

section Trim

variable {S : Type} [SideImpl S] [LawfulSideImpl S]

theorem trimLoop_done (s : S) (maxLevels removed : Nat) (none : doomed s maxLevels = []) :
    trimLoop s maxLevels removed = (s, removed) := by
  rw [trimLoop]
  simp only [none, dite_true]

theorem trimLoop_more (s : S) (maxLevels removed : Nat) (some : doomed s maxLevels ≠ []) :
    trimLoop s maxLevels removed =
      trimLoop (removeAll s (doomed s maxLevels)) maxLevels
        (removed + (doomed s maxLevels).length) := by
  rw [trimLoop]
  simp only [some, dite_false]

theorem trimLoop_levels (s : S) (maxLevels removed : Nat) :
    (LawfulSideImpl.toMap (trimLoop s maxLevels removed).1).bookLevels =
      (LawfulSideImpl.toMap s).bookLevels.take maxLevels := by
  fun_induction trimLoop s maxLevels removed with
  | case1 s removed none =>
    rw [doomed_eq] at none
    have shallow : (LawfulSideImpl.toMap s).bookLevels.length ≤ maxLevels := by
      simpa [kDoomedBatch] using none
    exact (List.take_of_length_le shallow).symm
  | case2 s removed some _ ih =>
    rw [ih, bookLevels_removeAll_doomed]
    by_cases deep : maxLevels ≤ (LawfulSideImpl.toMap s).bookLevels.length
    · rw [List.take_append_of_le_length (by simpa using deep), List.take_take, min_self]
    · have beyond : (LawfulSideImpl.toMap s).bookLevels.length ≤ maxLevels + kDoomedBatch := by
        omega
      rw [List.drop_eq_nil_of_le beyond, List.append_nil, List.take_take, min_self]

@[simp] theorem side_trimLoop (s : S) (maxLevels removed : Nat) :
    SideImpl.side (trimLoop s maxLevels removed).1 = SideImpl.side s := by
  fun_induction trimLoop s maxLevels removed with
  | case1 s removed none => rfl
  | case2 s removed some _ ih =>
    rw [ih, ← LawfulSideImpl.side_toMap, toMap_removeAll,
      MapSide.side_removeAll, LawfulSideImpl.side_toMap]

theorem toMap_trimLoop (s : S) (maxLevels removed : Nat) :
    trimLoop (LawfulSideImpl.toMap s) maxLevels removed =
      (LawfulSideImpl.toMap (trimLoop s maxLevels removed).1, (trimLoop s maxLevels removed).2) := by
  have named : ∀ t : S, doomed (LawfulSideImpl.toMap t) maxLevels = doomed t maxLevels := by
    intro t
    rw [doomed_eq, doomed_eq]
    rfl
  fun_induction trimLoop s maxLevels removed with
  | case1 s removed none =>
    exact trimLoop_done _ _ _ ((named s).trans none)
  | case2 s removed some _ ih =>
    rw [← ih, toMap_removeAll,
      trimLoop_more _ _ _ (fun none => some ((named s).symm.trans none)), named]
    rfl

end Trim

namespace BasicL2Book

variable {S : Type} [SideImpl S] [LawfulSideImpl S]

def new (spec : InstrumentSpec) : BasicL2Book S where
  spec := spec
  bids := SideImpl.new .bid
  asks := SideImpl.new .ask
  lastUpdate := 0
  bidsSide := side_new .bid
  asksSide := side_new .ask

def side (book : BasicL2Book S) : Side → S
  | .bid => book.bids
  | .ask => book.asks

omit [LawfulSideImpl S] in
theorem side_side (book : BasicL2Book S) (s : Side) : SideImpl.side (book.side s) = s := by
  cases s
  · exact book.bidsSide
  · exact book.asksSide

def setSide (book : BasicL2Book S) (s : Side) (content : S) (placed : SideImpl.side content = s) :
    BasicL2Book S :=
  match s with
  | .bid => { book with bids := content, bidsSide := placed }
  | .ask => { book with asks := content, asksSide := placed }

def apply (book : BasicL2Book S) (s : Side) (price : Price) (qty : Qty) : BasicL2Book S × Bool :=
  if price.ticks < 0 ∨ qty.units < 0 then (book, false)
  else
    (book.setSide s (SideImpl.apply (book.side s) price qty) (by simp [book.side_side s]), true)

def clear (book : BasicL2Book S) : BasicL2Book S where
  spec := book.spec
  bids := SideImpl.clear book.bids
  asks := SideImpl.clear book.asks
  lastUpdate := book.lastUpdate
  bidsSide := by simp [book.bidsSide]
  asksSide := by simp [book.asksSide]

def setLastUpdate (book : BasicL2Book S) (ts : Timestamp) : BasicL2Book S :=
  { book with lastUpdate := ts }

def best (book : BasicL2Book S) (s : Side) : Option Level := SideImpl.best (book.side s)

def trimSide (book : BasicL2Book S) (s : Side) (maxLevels : Nat) : BasicL2Book S × Nat :=
  if maxLevels = 0 then (book, 0)
  else
    (book.setSide s (trimLoop (book.side s) maxLevels 0).1 (by simp [book.side_side s]),
      (trimLoop (book.side s) maxLevels 0).2)

def trim (book : BasicL2Book S) (maxLevels : Nat) : BasicL2Book S × Nat :=
  let bids := book.trimSide .bid maxLevels
  let asks := bids.1.trimSide .ask maxLevels
  (asks.1, bids.2 + asks.2)

def topStep (n : Nat) (out : List Level) (level : Level) : List Level × Bool :=
  (out ++ [level], decide ((out ++ [level]).length < n))

def top (book : BasicL2Book S) (s : Side) (n : Nat) : List Level :=
  SideImpl.forEach (book.side s) (topStep n) []

def fnvMixByte (h v : UInt64) (i : Nat) : UInt64 :=
  (h ^^^ ((v >>> UInt64.ofNat (i * 8)) &&& 0xFF)) * 1099511628211

def fnvMix (h v : UInt64) : UInt64 := (List.range 8).foldl (fun h i => fnvMixByte h v i) h

def hashLevel (h : UInt64) (level : Level) : UInt64 :=
  fnvMix (fnvMix h level.price.ticks.toUInt64) level.qty.units.toUInt64

def sideTag : Side → UInt64
  | .bid => 0
  | .ask => 1

def hashSide (book : BasicL2Book S) (h : UInt64) (s : Side) : UInt64 :=
  let tagged := fnvMix h (sideTag s)
  let counted := fnvMix tagged (UInt64.ofNat (SideImpl.size (book.side s)))
  let separated := fnvMix counted 0x5EA50FF5C0DED00D
  SideImpl.forEach (book.side s) (fun h level => (hashLevel h level, true)) separated

def stateHash (book : BasicL2Book S) : UInt64 :=
  [Side.bid, Side.ask].foldl (hashSide book) 1469598103934665603

end BasicL2Book

abbrev MapBook := BasicL2Book MapSide

abbrev ArrayBook := BasicL2Book ValidArraySide

end Crossbook
