import Mathlib

set_option autoImplicit false

-- Base64 as RFC 4648 defines it, with padding.
namespace Base64

def alphabet : List UInt8 :=
  "ABCDEFGHIJKLMNOPQRSTUVWXYZabcdefghijklmnopqrstuvwxyz0123456789+/".toList.map fun c =>
    UInt8.ofNat c.toNat

def padding : UInt8 := 61

def symbol (sextet : Nat) : UInt8 := alphabet[sextet]!

def value (c : UInt8) : Option Nat := alphabet.idxOf? c

def group (x y z : UInt8) : Nat := (x.toNat * 256 + y.toNat) * 256 + z.toNat

def sextets (group : Nat) : List Nat :=
  [group / 2 ^ 18 % 64, group / 2 ^ 12 % 64, group / 2 ^ 6 % 64, group % 64]

def octets (group : Nat) : List UInt8 :=
  [UInt8.ofNat (group / 2 ^ 16), UInt8.ofNat (group / 2 ^ 8), UInt8.ofNat group]

-- Zero bits fill up a last group of one or two bytes.
def encode : List UInt8 → List UInt8
  | [] => []
  | [x] => ((sextets (group x 0 0)).take 2).map symbol ++ [padding, padding]
  | [x, y] => ((sextets (group x y 0)).take 3).map symbol ++ [padding]
  | x :: y :: z :: rest => (sextets (group x y z)).map symbol ++ encode rest

/-- The bytes of four symbols; bits that only pad must be zero. -/
def decodeQuad (a b c d : UInt8) : Option (List UInt8) := do
  let u ← value a
  let v ← value b
  if c = padding ∧ d = padding then
    let group := (u * 64 + v) * 2 ^ 12
    if group % 2 ^ 16 = 0 then some ((octets group).take 1) else none
  else
    let w ← value c
    if d = padding then
      let group := ((u * 64 + v) * 64 + w) * 2 ^ 6
      if group % 2 ^ 8 = 0 then some ((octets group).take 2) else none
    else
      let x ← value d
      some (octets (((u * 64 + v) * 64 + w) * 64 + x))

def decode : List UInt8 → Option (List UInt8)
  | [] => some []
  | a :: b :: c :: d :: rest => do
    let front ← decodeQuad a b c d
    if front.length < 3 ∧ rest ≠ [] then none
    else
      let back ← decode rest
      some (front ++ back)
  | _ => none

section Symbols

theorem value_symbol : ∀ sextet < 64, value (symbol sextet) = some sextet := by
  decide +kernel

theorem symbol_mem : ∀ sextet < 64, symbol sextet ∈ alphabet ∧ symbol sextet ≠ padding := by
  decide +kernel

theorem sextets_lt (group : Nat) : ∀ sextet ∈ sextets group, sextet < 64 := by
  have small (n : Nat) : n % 64 < 64 := Nat.mod_lt n (by decide)
  simp [sextets, small]

end Symbols

section Quads

variable {u v w t : Nat}

theorem decodeQuad_symbols (smallU : u < 64) (smallV : v < 64) (smallW : w < 64) (smallT : t < 64) :
    decodeQuad (symbol u) (symbol v) (symbol w) (symbol t) =
      some (octets (((u * 64 + v) * 64 + w) * 64 + t)) := by
  have notPadding := (symbol_mem t smallT).2
  rw [decodeQuad, value_symbol u smallU, value_symbol v smallV]
  simp [notPadding, value_symbol w smallW, value_symbol t smallT]

theorem decodeQuad_padded (smallU : u < 64) (smallV : v < 64) (smallW : w < 64)
    (zeros : (((u * 64 + v) * 64 + w) * 2 ^ 6) % 2 ^ 8 = 0) :
    decodeQuad (symbol u) (symbol v) (symbol w) padding =
      some ((octets (((u * 64 + v) * 64 + w) * 2 ^ 6)).take 2) := by
  have notPadding := (symbol_mem w smallW).2
  rw [decodeQuad, value_symbol u smallU, value_symbol v smallV]
  simp only [Option.bind_eq_bind, Option.bind_some, notPadding, false_and, if_false,
    value_symbol w smallW, if_true, zeros]

theorem decodeQuad_padded_twice (smallU : u < 64) (smallV : v < 64)
    (zeros : ((u * 64 + v) * 2 ^ 12) % 2 ^ 16 = 0) :
    decodeQuad (symbol u) (symbol v) padding padding =
      some ((octets ((u * 64 + v) * 2 ^ 12)).take 1) := by
  rw [decodeQuad, value_symbol u smallU, value_symbol v smallV]
  simp only [Option.bind_eq_bind, Option.bind_some, and_self, if_true, zeros]

variable (x y z : UInt8)

theorem group_lt : group x y z < 2 ^ 24 := by
  have smallX := x.toNat_lt
  have smallY := y.toNat_lt
  have smallZ := z.toNat_lt
  unfold group
  omega

theorem octets_group : octets (group x y z) = [x, y, z] := by
  have smallX := x.toNat_lt
  have smallY := y.toNat_lt
  have smallZ := z.toNat_lt
  have byte (n : Nat) (c : UInt8) (same : n % 256 = c.toNat) : UInt8.ofNat n = c :=
    UInt8.toNat_inj.mp (by rwa [UInt8.toNat_ofNat'])
  unfold octets group
  rw [byte _ x (by omega), byte _ y (by omega), byte _ z (by omega)]

end Quads

section RoundTrip

theorem decodeQuad_last (x : UInt8) :
    decodeQuad (symbol (group x 0 0 / 2 ^ 18 % 64)) (symbol (group x 0 0 / 2 ^ 12 % 64)) padding
      padding = some [x] := by
  have small := x.toNat_lt
  have whole : (group x 0 0 / 2 ^ 18 % 64 * 64 + group x 0 0 / 2 ^ 12 % 64) * 2 ^ 12 =
      group x 0 0 := by
    simp only [group, UInt8.toNat_zero]
    omega
  have zeros : group x 0 0 % 2 ^ 16 = 0 := by
    simp only [group, UInt8.toNat_zero]
    omega
  rw [decodeQuad_padded_twice (Nat.mod_lt _ (by decide)) (Nat.mod_lt _ (by decide)), whole,
    octets_group]
  · rfl
  · rw [whole, zeros]

theorem decodeQuad_lastTwo (x y : UInt8) :
    decodeQuad (symbol (group x y 0 / 2 ^ 18 % 64)) (symbol (group x y 0 / 2 ^ 12 % 64))
      (symbol (group x y 0 / 2 ^ 6 % 64)) padding = some [x, y] := by
  have small := group_lt x y 0
  have zeros : group x y 0 % 2 ^ 8 = 0 := by
    simp only [group, UInt8.toNat_zero]
    omega
  have whole : ((group x y 0 / 2 ^ 18 % 64 * 64 + group x y 0 / 2 ^ 12 % 64) * 64 +
      group x y 0 / 2 ^ 6 % 64) * 2 ^ 6 = group x y 0 := by
    omega
  rw [decodeQuad_padded (Nat.mod_lt _ (by decide)) (Nat.mod_lt _ (by decide))
    (Nat.mod_lt _ (by decide)), whole, octets_group]
  · rfl
  · rw [whole, zeros]

theorem decodeQuad_whole (x y z : UInt8) :
    decodeQuad (symbol (group x y z / 2 ^ 18 % 64)) (symbol (group x y z / 2 ^ 12 % 64))
      (symbol (group x y z / 2 ^ 6 % 64)) (symbol (group x y z % 64)) = some [x, y, z] := by
  have small := group_lt x y z
  have whole : ((group x y z / 2 ^ 18 % 64 * 64 + group x y z / 2 ^ 12 % 64) * 64 +
      group x y z / 2 ^ 6 % 64) * 64 + group x y z % 64 = group x y z := by
    omega
  rw [decodeQuad_symbols (Nat.mod_lt _ (by decide)) (Nat.mod_lt _ (by decide))
    (Nat.mod_lt _ (by decide)) (Nat.mod_lt _ (by decide)), whole, octets_group]

theorem decode_quad {a b c d : UInt8} {front rest : List UInt8}
    (found : decodeQuad a b c d = some front) (whole : front.length = 3 ∨ rest = []) :
    decode (a :: b :: c :: d :: rest) = (decode rest).map (front ++ ·) := by
  have goesOn : ¬ (front.length < 3 ∧ rest ≠ []) := by
    rintro ⟨short, more⟩
    exact whole.elim (fun three => absurd short (by omega)) more
  rw [decode, found, Option.bind_eq_bind, Option.bind_some, if_neg goesOn]
  cases decode rest <;> rfl

theorem decode_encode (data : List UInt8) : decode (encode data) = some data := by
  induction data using encode.induct with
  | case1 => rfl
  | case2 x => exact decode_quad (decodeQuad_last x) (.inr rfl)
  | case3 x y => exact decode_quad (decodeQuad_lastTwo x y) (.inr rfl)
  | case4 x y z rest ih =>
    have step (later : List UInt8) := decode_quad (decodeQuad_whole x y z)
      (.inl rfl : _ ∨ later = [])
    exact (step (encode rest)).trans (by rw [ih]; rfl)

theorem length_encode (data : List UInt8) : (encode data).length = 4 * ((data.length + 2) / 3) := by
  induction data using encode.induct with
  | case1 => rfl
  | case2 x => simp [encode, sextets]
  | case3 x y => simp [encode, sextets]
  | case4 x y z rest ih =>
    rw [encode, List.length_append, ih]
    simp [sextets]
    omega

theorem encode_shape (data : List UInt8) : ∃ body, (∀ c ∈ body, c ∈ alphabet) ∧
    encode data = body ++ List.replicate ((3 - data.length % 3) % 3) padding := by
  have known (group n : Nat) : ∀ c ∈ ((sextets group).take n).map symbol, c ∈ alphabet := by
    intro c member
    obtain ⟨sextet, taken, rfl⟩ := List.mem_map.mp member
    exact (symbol_mem sextet (sextets_lt group sextet (List.mem_of_mem_take taken))).1
  induction data using encode.induct with
  | case1 => exact ⟨[], nofun, rfl⟩
  | case2 x => exact ⟨_, known _ 2, rfl⟩
  | case3 x y => exact ⟨_, known _ 3, rfl⟩
  | case4 x y z rest ih =>
    obtain ⟨body, inside, whole⟩ := ih
    have same : (x :: y :: z :: rest).length % 3 = rest.length % 3 := Nat.add_mod_right _ 3
    refine ⟨(sextets (group x y z)).map symbol ++ body, ?_, ?_⟩
    · exact List.forall_mem_append.mpr ⟨known (group x y z) 4, inside⟩
    · rw [encode, whole, same, List.append_assoc]

end RoundTrip

end Base64
