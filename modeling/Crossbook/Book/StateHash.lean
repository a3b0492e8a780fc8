import Crossbook.Execution.Resting
import Crossbook.Lib.Absorb

set_option autoImplicit false

namespace Crossbook

def fnvStep (h : UInt64) (byte : UInt8) : UInt64 := (h ^^^ byte.toUInt64) * 1099511628211

def wordBytes (v : UInt64) : List UInt8 :=
  (List.range 8).map fun i => (v >>> UInt64.ofNat (i * 8)).toUInt8

theorem fnvStep_lossless : Absorb.Lossless fnvStep := by
  -- The prime is odd, so it has an inverse modulo 2^64.
  have inverse : (1099511628211 : UInt64) * 0xce965057aff6957b = 1 := by decide
  have cancel (x y : UInt64) (same : x * 1099511628211 = y * 1099511628211) : x = y := by
    have scaled := congrArg (· * (0xce965057aff6957b : UInt64)) same
    simpa only [UInt64.mul_assoc, inverse, UInt64.mul_one] using scaled
  constructor
  · intro byte h k same
    exact (UInt64.xor_left_inj _).mp (cancel _ _ same)
  · intro h a b same
    have bytes := (UInt64.xor_right_inj _).mp (cancel _ _ same)
    simpa using congrArg UInt64.toUInt8 bytes

namespace BasicL2Book

theorem fnvMix_eq (h v : UInt64) : fnvMix h v = (wordBytes v).foldl fnvStep h := by
  have low (x : UInt64) : x &&& 0xFF = x.toUInt8.toUInt64 := by
    rw [UInt64.toUInt64_toUInt8]
    apply UInt64.toNat_inj.mp
    simpa using Nat.and_two_pow_sub_one_eq_mod x.toNat 8
  have steps : (fun h i => fnvMixByte h v i) =
      fun h i => fnvStep h (v >>> UInt64.ofNat (i * 8)).toUInt8 := by
    funext h i
    rw [fnvMixByte, fnvStep, low]
  rw [fnvMix, wordBytes, List.foldl_map, steps]

def levelWords (level : Level) : List UInt64 :=
  [level.price.ticks.toUInt64, level.qty.units.toUInt64]

variable {S T : Type} [SideImpl S] [SideImpl T]

variable [LawfulSideImpl S] [LawfulSideImpl T]

def sideWords (book : BasicL2Book S) (s : Side) : List UInt64 :=
  [sideTag s, UInt64.ofNat (SideImpl.size (book.side s)), 0x5EA50FF5C0DED00D] ++
    (book.levels s).flatMap levelWords

def stateWords (book : BasicL2Book S) : List UInt64 :=
  [Side.bid, Side.ask].flatMap book.sideWords

def stateBytes (book : BasicL2Book S) : List UInt8 := book.stateWords.flatMap wordBytes

theorem forEach_foldl {σ : Type} (book : BasicL2Book S) (s : Side) (step : σ → Level → σ)
    (state : σ) : SideImpl.forEach (book.side s) (fun state level => (step state level, true)) state =
      (book.levels s).foldl step state := by
  rw [forEach_eq]
  induction book.levels s generalizing state with
  | nil => rfl
  | cons level rest ih => simp [Visit.visit_cons, ih]

theorem hashSide_eq (book : BasicL2Book S) (h : UInt64) (s : Side) :
    book.hashSide h s = (book.sideWords s).foldl fnvMix h := by
  have level : hashLevel = fun h level => (levelWords level).foldl fnvMix h := by
    funext h level
    simp only [hashLevel, levelWords, List.foldl_cons, List.foldl_nil]
  rw [hashSide, forEach_foldl, level, sideWords, List.foldl_append, List.foldl_flatMap]
  simp only [List.foldl_cons, List.foldl_nil]

theorem stateHash_eq (book : BasicL2Book S) :
    book.stateHash = book.stateBytes.foldl fnvStep 1469598103934665603 := by
  have mixed : fnvMix = fun h v => (wordBytes v).foldl fnvStep h := by
    funext h v
    exact fnvMix_eq h v
  have sides : book.hashSide = fun h s => (book.sideWords s).foldl fnvMix h := by
    funext h s
    exact book.hashSide_eq h s
  rw [stateHash, sides, stateBytes, stateWords, List.foldl_flatMap, List.foldl_flatMap, mixed]

theorem levelWords_inj {x y : Level} (same : levelWords x = levelWords y) : x = y := by
  obtain ⟨⟨ticks⟩, ⟨units⟩⟩ := x
  obtain ⟨⟨otherTicks⟩, ⟨otherUnits⟩⟩ := y
  simp only [levelWords, List.cons.injEq, and_true] at same
  obtain ⟨price, qty⟩ := same
  have ticksSame : ticks = otherTicks := congrArg UInt64.toInt64 price
  have unitsSame : units = otherUnits := congrArg UInt64.toInt64 qty
  rw [ticksSame, unitsSame]

-- Every level takes two words, so as many levels take as many words.
theorem levels_of_words {xs ys : List Level} {restX restY : List UInt64}
    (length : xs.length = ys.length)
    (same : xs.flatMap levelWords ++ restX = ys.flatMap levelWords ++ restY) :
    xs = ys ∧ restX = restY := by
  induction xs generalizing ys with
  | nil =>
    obtain rfl := List.length_eq_zero_iff.mp length.symm
    exact ⟨rfl, by simpa using same⟩
  | cons x xs ih =>
    cases ys with
    | nil => simp at length
    | cons y ys =>
      rw [List.flatMap_cons, List.flatMap_cons, List.append_assoc, List.append_assoc] at same
      obtain ⟨first, later⟩ := List.append_inj same rfl
      obtain ⟨rfl, rest⟩ := ih (by simpa using length) later
      exact ⟨by rw [levelWords_inj first], rest⟩

theorem Reached.length_levels {book : BasicL2Book S} (reached : book.Reached) (s : Side) :
    (book.levels s).length < 2 ^ 64 := by
  -- Resting prices are distinct and not negative, so their count fits the counter word.
  have resting := reached.resting s
  have distinct : ((book.levels s).map fun level => level.ticks.toNat).Nodup := by
    have prices := (book.levels_bookOrder s).nodup_prices
    have levels := List.Nodup.of_map _ prices
    rw [List.nodup_map_iff_inj_on levels] at prices ⊢
    intro x inside y other same
    apply prices x inside y other
    have ticks : x.ticks = y.ticks := by
      have first := (resting x inside).price
      have second := (resting y other).price
      omega
    exact congrArg Price.mk (Int64.toInt_inj.mp ticks)
  have bounded : ((book.levels s).map fun level => level.ticks.toNat) ⊆ List.range (2 ^ 63) := by
    intro n member
    obtain ⟨level, -, rfl⟩ := List.mem_map.mp member
    have small := level.price.ticks.toInt_lt
    rw [List.mem_range, Level.ticks]
    omega
  have count := (List.subperm_of_subset distinct bounded).length_le
  rw [List.length_map, List.length_range] at count
  omega

theorem side_of_words {a : BasicL2Book S} {b : BasicL2Book T} (reachedA : a.Reached)
    (reachedB : b.Reached) (s : Side) {restA restB : List UInt64}
    (same : a.sideWords s ++ restA = b.sideWords s ++ restB) :
    a.levels s = b.levels s ∧ restA = restB := by
  simp only [sideWords, List.cons_append, List.nil_append, List.cons.injEq, true_and,
    size_eq] at same
  obtain ⟨counts, levels⟩ := same
  have fitsA := reachedA.length_levels s
  have fitsB := reachedB.length_levels s
  have length : (a.levels s).length = (b.levels s).length := by
    have equal := congrArg UInt64.toNat counts
    rwa [UInt64.toNat_ofNat_of_lt' fitsA, UInt64.toNat_ofNat_of_lt' fitsB] at equal
  exact levels_of_words length levels

theorem stateWords_eq_iff {a : BasicL2Book S} {b : BasicL2Book T} (reachedA : a.Reached)
    (reachedB : b.Reached) :
    a.stateWords = b.stateWords ↔ ∀ s, a.levels s = b.levels s := by
  constructor
  · intro same
    simp only [stateWords, List.flatMap_cons, List.flatMap_nil] at same
    obtain ⟨bids, later⟩ := side_of_words reachedA reachedB .bid same
    obtain ⟨asks, -⟩ := side_of_words reachedA reachedB .ask later
    intro s
    cases s
    · exact bids
    · exact asks
  · intro same
    have side (s : Side) : a.sideWords s = b.sideWords s := by
      rw [sideWords, sideWords, size_eq, size_eq, same s]
    simp only [stateWords, List.flatMap_cons, List.flatMap_nil, side]

theorem stateHash_separates (a : BasicL2Book S) (b : BasicL2Book T) (reachedA : a.Reached)
    (reachedB : b.Reached) :
    a.stateHash = a.stateBytes.foldl fnvStep 1469598103934665603 ∧
      b.stateHash = b.stateBytes.foldl fnvStep 1469598103934665603 ∧
      (a.stateWords = b.stateWords ↔ ∀ s, a.levels s = b.levels s) ∧
      (Absorb.DifferOnce a.stateBytes b.stateBytes → a.stateHash ≠ b.stateHash) := by
  refine ⟨a.stateHash_eq, b.stateHash_eq, stateWords_eq_iff reachedA reachedB, ?_⟩
  intro once
  rw [a.stateHash_eq, b.stateHash_eq]
  exact fnvStep_lossless.foldl_ne once _

-- One bid at (1, 1) in one container, one ask at (1, 1) in the other.
theorem stateHash_separates_bid_from_ask :
    let bid : MapBook := (new ⟨[], 0, 0⟩).run [.apply .bid ⟨1⟩ ⟨1⟩]
    let ask : ArrayBook := (ArrayBook.withSlots ⟨[], 0, 0⟩ 4 (by decide)).run [.apply .ask ⟨1⟩ ⟨1⟩]
    bid.stateWords = ask.stateWords ↔ ∀ s, bid.levels s = ask.levels s := by
  intro bid ask
  have empty (s : Side) : (ArrayBook.withSlots ⟨[], 0, 0⟩ 4 (by decide)).levels s = [] := by
    rw [← levels_toMap, ArrayBook.toMap_withSlots, levels_new]
  exact (stateHash_separates bid ask (.after _ (levels_new _) _) (.after _ empty _)).2.2.1

end BasicL2Book

end Crossbook
