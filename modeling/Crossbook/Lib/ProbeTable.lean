import Mathlib

set_option autoImplicit false

/-! Open addressing with linear probing and tombstones, over tables of power-of-two size. -/

namespace ProbeTable

variable {K V : Type}

structure Slot (K V : Type) where
  key : K
  value : V
  occupied : Bool
  tombstone : Bool
  deriving DecidableEq, Repr

def Slot.fresh (slot : Slot K V) : Bool := !slot.occupied && !slot.tombstone

section Probing

variable [DecidableEq K]

/-- The index of the slot holding `key`: probing stops at a slot that was never used. -/
def seek (slots : Nat → Slot K V) (mask : Nat) (key : K) : Nat → Nat → Option Nat
  | 0, _ => none
  | probes + 1, i =>
    if (slots i).fresh then none
    else if (slots i).occupied && decide ((slots i).key = key) then some i
    else seek slots mask key probes ((i + 1) &&& mask)

end Probing

def vacant (slots : Nat → Slot K V) (mask : Nat) : Nat → Nat → Option Nat
  | 0, _ => none
  | probes + 1, i =>
    if (slots i).occupied then vacant slots mask probes ((i + 1) &&& mask) else some i

def Holds (slots : Nat → Slot K V) (size : Nat) (key : K) (value : V) : Prop :=
  ∃ i < size, (slots i).occupied = true ∧ (slots i).key = key ∧ (slots i).value = value

def usedSlots (slots : Nat → Slot K V) (size : Nat) : Finset Nat :=
  (Finset.range size).filter fun i => (slots i).fresh = false

theorem mem_usedSlots (slots : Nat → Slot K V) (size i : Nat) :
    i ∈ usedSlots slots size ↔ i < size ∧ (slots i).fresh = false := by
  rw [usedSlots, Finset.mem_filter, Finset.mem_range]

structure Wf (hash : K → Nat) (slots : Nat → Slot K V) (size : Nat) : Prop where
  power : ∃ k, size = 2 ^ k
  distinct : ∀ i < size, ∀ j < size, (slots i).occupied = true → (slots j).occupied = true →
    (slots i).key = (slots j).key → i = j
  reachable : ∀ i < size, (slots i).occupied = true →
    ∃ d < size, i = (hash (slots i).key + d) % size ∧
      ∀ j < d, (slots ((hash (slots i).key + j) % size)).fresh = false

theorem Wf.size_pos {hash : K → Nat} {slots : Nat → Slot K V} {size : Nat}
    (wf : Wf hash slots size) : 0 < size := by
  obtain ⟨k, rfl⟩ := wf.power
  exact Nat.two_pow_pos k

-- Masking by a power of two less one is the remainder.
theorem and_mask {size : Nat} (power : ∃ k, size = 2 ^ k) (i : Nat) :
    i &&& (size - 1) = i % size := by
  obtain ⟨k, rfl⟩ := power
  exact Nat.and_two_pow_sub_one_eq_mod i k

theorem next_spot {size : Nat} (power : ∃ k, size = 2 ^ k) (start j : Nat) :
    ((start + j) % size + 1) &&& (size - 1) = (start + (j + 1)) % size := by
  rw [and_mask power, Nat.mod_add_mod, Nat.add_assoc]

theorem spot_injective {size start i j : Nat} (left : i < size) (right : j < size)
    (same : (start + i) % size = (start + j) % size) : i = j := by
  have congruent : i % size = j % size := Nat.ModEq.add_left_cancel' start same
  rwa [Nat.mod_eq_of_lt left, Nat.mod_eq_of_lt right] at congruent

theorem spot_surjective {size i : Nat} (start : Nat) (inside : i < size) :
    ∃ d < size, (start + d) % size = i := by
  have positive : 0 < size := Nat.lt_of_le_of_lt (Nat.zero_le i) inside
  have below := Nat.mod_lt start positive
  refine ⟨(i + (size - start % size)) % size, Nat.mod_lt _ positive, ?_⟩
  have whole : start % size + (i + (size - start % size)) = i + size := by omega
  rw [Nat.add_mod_mod, ← Nat.mod_add_mod, whole, Nat.add_mod_right, Nat.mod_eq_of_lt inside]

section Seek

variable [DecidableEq K] {hash : K → Nat} {slots : Nat → Slot K V} {size : Nat}

theorem seek_sound (mask : Nat) (key : K) (probes i found : Nat)
    (inside : ∀ i, i &&& mask < size) (start : i < size)
    (result : seek slots mask key probes i = some found) :
    found < size ∧ (slots found).occupied = true ∧ (slots found).key = key := by
  induction probes generalizing i with
  | zero => simp [seek] at result
  | succ probes ih =>
    rw [seek] at result
    split at result
    · simp at result
    · split at result
      · rename_i hit
        obtain rfl := Option.some.inj result
        simp only [Bool.and_eq_true, decide_eq_true_eq] at hit
        exact ⟨start, hit.1, hit.2⟩
      · exact ih _ (inside _) result

-- Probing on from `start + from_` meets the key `gap` steps later.
theorem seek_from (wf : Wf hash slots size) (key : K) (start from_ gap probes : Nat)
    (enough : gap < probes) (inside : from_ + gap < size)
    (hit : (slots ((start + (from_ + gap)) % size)).occupied = true)
    (same : (slots ((start + (from_ + gap)) % size)).key = key)
    (path : ∀ j < gap, (slots ((start + (from_ + j)) % size)).fresh = false) :
    seek slots (size - 1) key probes ((start + from_) % size) =
      some ((start + (from_ + gap)) % size) := by
  induction gap generalizing probes from_ with
  | zero =>
    obtain ⟨probes, rfl⟩ := Nat.exists_eq_succ_of_ne_zero (Nat.ne_of_gt enough)
    rw [Nat.add_zero] at hit same
    simp [seek, Slot.fresh, hit, same]
  | succ gap ih =>
    obtain ⟨probes, rfl⟩ := Nat.exists_eq_succ_of_ne_zero (Nat.ne_of_gt (Nat.zero_lt_of_lt enough))
    have used := path 0 (Nat.succ_pos gap)
    rw [Nat.add_zero] at used
    have positive := wf.size_pos
    have elsewhere : ¬ ((slots ((start + from_) % size)).occupied = true ∧
        (slots ((start + from_) % size)).key = key) := by
      intro ⟨held, key_eq⟩
      have equal := wf.distinct _ (Nat.mod_lt _ positive) _ (Nat.mod_lt _ positive) held hit
        (key_eq.trans same.symm)
      have offsets := spot_injective (by omega) inside equal
      omega
    have shift : from_ + 1 + gap = from_ + (gap + 1) := by omega
    have later := ih (from_ + 1) probes (by omega) (by omega) (by rwa [shift]) (by rwa [shift])
      (by
        intro j below
        have further := path (j + 1) (by omega)
        rwa [show from_ + (j + 1) = from_ + 1 + j by omega] at further)
    rw [seek, used, next_spot wf.power]
    simpa [elsewhere, shift] using later

theorem seek_complete (wf : Wf hash slots size) {i : Nat} (inside : i < size)
    (held : (slots i).occupied = true) :
    seek slots (size - 1) (slots i).key size (hash (slots i).key % size) = some i := by
  obtain ⟨d, below, here, path⟩ := wf.reachable i inside held
  have found := seek_from wf (slots i).key (hash (slots i).key) 0 d size below (by simpa using below)
    (by rw [Nat.zero_add, ← here]; exact held) (by rw [Nat.zero_add, ← here])
    (by simpa using path)
  simpa [← here] using found

theorem seek_spec (wf : Wf hash slots size) (key : K) :
    (∃ i, seek slots (size - 1) key size (hash key % size) = some i ∧ i < size ∧
      (slots i).occupied = true ∧ (slots i).key = key) ∨
    (seek slots (size - 1) key size (hash key % size) = none ∧
      ∀ i < size, (slots i).occupied = true → (slots i).key ≠ key) := by
  cases result : seek slots (size - 1) key size (hash key % size) with
  | some i =>
    have masked : ∀ i, i &&& (size - 1) < size := by
      intro i
      rw [and_mask wf.power]
      exact Nat.mod_lt _ wf.size_pos
    exact .inl ⟨i, rfl, seek_sound _ _ _ _ _ masked (Nat.mod_lt _ wf.size_pos) result⟩
  | none =>
    refine .inr ⟨rfl, ?_⟩
    intro i inside held same
    subst same
    rw [seek_complete wf inside held] at result
    simp at result

end Seek

section Vacant

variable {slots : Nat → Slot K V} {size : Nat}

theorem vacant_from (power : ∃ k, size = 2 ^ k) (start from_ gap probes : Nat)
    (enough : gap < probes) (free : (slots ((start + (from_ + gap)) % size)).occupied = false)
    (path : ∀ j < gap, (slots ((start + (from_ + j)) % size)).occupied = true) :
    vacant slots (size - 1) probes ((start + from_) % size) =
      some ((start + (from_ + gap)) % size) := by
  induction gap generalizing probes from_ with
  | zero =>
    obtain ⟨probes, rfl⟩ := Nat.exists_eq_succ_of_ne_zero (Nat.ne_of_gt enough)
    rw [Nat.add_zero] at free
    simp [vacant, free]
  | succ gap ih =>
    obtain ⟨probes, rfl⟩ := Nat.exists_eq_succ_of_ne_zero (Nat.ne_of_gt (Nat.zero_lt_of_lt enough))
    have taken := path 0 (Nat.succ_pos gap)
    rw [Nat.add_zero] at taken
    have shift : from_ + 1 + gap = from_ + (gap + 1) := by omega
    have later := ih (from_ + 1) probes (by omega) (by rwa [shift])
      (by
        intro j below
        have further := path (j + 1) (by omega)
        rwa [show from_ + (j + 1) = from_ + 1 + j by omega] at further)
    rw [vacant, taken, next_spot power]
    simpa [shift] using later

theorem vacant_spec (power : ∃ k, size = 2 ^ k) (start : Nat)
    (room : ∃ i < size, (slots i).occupied = false) :
    ∃ d < size, vacant slots (size - 1) size (start % size) = some ((start + d) % size) ∧
      (slots ((start + d) % size)).occupied = false ∧
      ∀ j < d, (slots ((start + j) % size)).occupied = true := by
  have reached : ∃ d, d < size ∧ (slots ((start + d) % size)).occupied = false := by
    obtain ⟨i, inside, free⟩ := room
    obtain ⟨d, below, here⟩ := spot_surjective start inside
    exact ⟨d, below, here ▸ free⟩
  obtain ⟨below, free⟩ := Nat.find_spec reached
  have earlier : ∀ j < Nat.find reached, (slots ((start + j) % size)).occupied = true := by
    intro j before
    have unmet := Nat.find_min reached before
    simpa [before.trans below] using unmet
  refine ⟨Nat.find reached, below, ?_, free, earlier⟩
  have found := vacant_from power start 0 (Nat.find reached) size below (by simpa using free)
    (by simpa using earlier)
  simpa using found

theorem room_of_used (few : (usedSlots slots size).card < size) :
    ∃ i < size, (slots i).fresh = true := by
  by_contra full
  push Not at full
  have everything : usedSlots slots size = Finset.range size := by
    apply Finset.filter_true_of_mem
    intro i inside
    simpa using full i (Finset.mem_range.mp inside)
  rw [everything, Finset.card_range] at few
  exact absurd few (lt_irrefl size)

end Vacant

section Update

variable {hash : K → Nat} {slots : Nat → Slot K V} {size : Nat}

def put (slots : Nat → Slot K V) (i : Nat) (key : K) (value : V) : Nat → Slot K V :=
  Function.update slots i ⟨key, value, true, false⟩

def bury (slots : Nat → Slot K V) (i : Nat) : Nat → Slot K V :=
  Function.update slots i { slots i with occupied := false, tombstone := true }

theorem put_wf (wf : Wf hash slots size) (key : K) (value : V) {d : Nat} (below : d < size)
    (path : ∀ j < d, (slots ((hash key + j) % size)).occupied = true)
    (absent : ∀ i < size, (slots i).occupied = true → (slots i).key ≠ key) :
    Wf hash (put slots ((hash key + d) % size) key value) size := by
  set spot := (hash key + d) % size with spot_eq
  have unchanged : ∀ i, i ≠ spot → put slots spot key value i = slots i :=
    fun i other => Function.update_of_ne other _ _
  have written : put slots spot key value spot = ⟨key, value, true, false⟩ := Function.update_self ..
  have used : ∀ i, (slots i).fresh = false → (put slots spot key value i).fresh = false := by
    intro i used
    by_cases here : i = spot
    · rw [here, written]
      rfl
    · rwa [unchanged i here]
  refine ⟨wf.power, ?_, ?_⟩
  · intro i insideI j insideJ heldI heldJ same
    by_cases hereI : i = spot <;> by_cases hereJ : j = spot
    · exact hereI.trans hereJ.symm
    · rw [hereI, written, unchanged j hereJ] at same
      rw [unchanged j hereJ] at heldJ
      exact absurd same.symm (absent j insideJ heldJ)
    · rw [hereJ, written, unchanged i hereI] at same
      rw [unchanged i hereI] at heldI
      exact absurd same (absent i insideI heldI)
    · rw [unchanged i hereI] at same heldI
      rw [unchanged j hereJ] at same heldJ
      exact wf.distinct i insideI j insideJ heldI heldJ same
  · intro i inside held
    by_cases here : i = spot
    · rw [here, written]
      refine ⟨d, below, spot_eq, ?_⟩
      intro j before
      apply used
      simp [Slot.fresh, path j before]
    · rw [unchanged i here] at held ⊢
      obtain ⟨e, inside, at_, nonfresh⟩ := wf.reachable i inside held
      exact ⟨e, inside, at_, fun j before => used _ (nonfresh j before)⟩

theorem holds_put {spot : Nat} (inside : spot < size) (free : (slots spot).occupied = false) (key : K)
    (value : V) (other : K) (found : V) :
    Holds (put slots spot key value) size other found ↔
      (other = key ∧ found = value) ∨ Holds slots size other found := by
  have unchanged : ∀ i, i ≠ spot → put slots spot key value i = slots i :=
    fun i other => Function.update_of_ne other _ _
  have written : put slots spot key value spot = ⟨key, value, true, false⟩ := Function.update_self ..
  constructor
  · intro ⟨i, insideI, held, same, content⟩
    by_cases here : i = spot
    · rw [here, written] at same content
      exact .inl ⟨same.symm, content.symm⟩
    · rw [unchanged i here] at held same content
      exact .inr ⟨i, insideI, held, same, content⟩
  · intro held
    rcases held with ⟨rfl, rfl⟩ | ⟨i, insideI, held, same, content⟩
    · exact ⟨spot, inside, by rw [written], by rw [written], by rw [written]⟩
    · have here : i ≠ spot := by
        intro here
        rw [here, free] at held
        simp at held
      refine ⟨i, insideI, ?_, ?_, ?_⟩ <;> rw [unchanged i here] <;> assumption

theorem usedSlots_put {spot : Nat} (inside : spot < size) (key : K) (value : V) :
    usedSlots (put slots spot key value) size = insert spot (usedSlots slots size) := by
  ext i
  rw [Finset.mem_insert, mem_usedSlots, mem_usedSlots]
  by_cases here : i = spot
  · simp [put, here, inside, Slot.fresh]
  · simp [put, here]

theorem card_used_put {spot : Nat} (inside : spot < size)
    (free : (slots spot).occupied = false) (key : K) (value : V) :
    (usedSlots (put slots spot key value) size).card =
      if (slots spot).tombstone then (usedSlots slots size).card
      else (usedSlots slots size).card + 1 := by
  rw [usedSlots_put inside]
  cases buried : (slots spot).tombstone
  · have unseen : spot ∉ usedSlots slots size := by
      simp [usedSlots, Slot.fresh, free, buried]
    simp [Finset.card_insert_of_notMem unseen]
  · have seen : spot ∈ usedSlots slots size := by
      simp [usedSlots, Slot.fresh, buried, inside]
    simp [Finset.insert_eq_of_mem seen]

theorem fresh_bury {spot : Nat} (held : (slots spot).occupied = true) (i : Nat) :
    (bury slots spot i).fresh = (slots i).fresh := by
  by_cases here : i = spot
  · simp [bury, here, Slot.fresh, held]
  · simp [bury, here]

theorem bury_wf (wf : Wf hash slots size) {spot : Nat} (held : (slots spot).occupied = true) :
    Wf hash (bury slots spot) size := by
  have unchanged : ∀ i, (bury slots spot i).occupied = true → bury slots spot i = slots i := by
    intro i occupied
    by_cases here : i = spot
    · simp [bury, here] at occupied
    · simp [bury, here]
  refine ⟨wf.power, ?_, ?_⟩
  · intro i insideI j insideJ heldI heldJ same
    have sameI := unchanged i heldI
    have sameJ := unchanged j heldJ
    rw [sameI] at heldI same
    rw [sameJ] at heldJ same
    exact wf.distinct i insideI j insideJ heldI heldJ same
  · intro i inside heldI
    have sameI := unchanged i heldI
    rw [sameI] at heldI ⊢
    obtain ⟨d, below, here, path⟩ := wf.reachable i inside heldI
    exact ⟨d, below, here, fun j before => (fresh_bury held _).trans (path j before)⟩

theorem holds_bury (wf : Wf hash slots size) {spot : Nat} (inside : spot < size)
    (held : (slots spot).occupied = true) (other : K) (found : V) :
    Holds (bury slots spot) size other found ↔
      other ≠ (slots spot).key ∧ Holds slots size other found := by
  constructor
  · intro ⟨i, insideI, occupied, same, content⟩
    have here : i ≠ spot := by
      intro here
      simp [bury, here] at occupied
    rw [show bury slots spot i = slots i from Function.update_of_ne here _ _] at occupied same content
    refine ⟨?_, i, insideI, occupied, same, content⟩
    intro key
    exact here (wf.distinct i insideI spot inside occupied held (same.trans key))
  · intro ⟨different, i, insideI, occupied, same, content⟩
    have here : i ≠ spot := by
      intro here
      rw [here] at same
      exact different same.symm
    refine ⟨i, insideI, ?_, ?_, ?_⟩ <;>
      rw [show bury slots spot i = slots i from Function.update_of_ne here _ _] <;> assumption

theorem card_used_bury {spot : Nat} (held : (slots spot).occupied = true) :
    usedSlots (bury slots spot) size = usedSlots slots size := by
  ext i
  simp [usedSlots, fresh_bury held]

theorem empty_wf (power : ∃ k, size = 2 ^ k) (blank : Slot K V) (free : blank.occupied = false) :
    Wf hash (fun _ => blank) size := by
  refine ⟨power, ?_, ?_⟩
  · intro i _ j _ held
    simp [free] at held
  · intro i _ held
    simp [free] at held

end Update

end ProbeTable
