import Crossbook.Lib.BigEndian

set_option autoImplicit false

-- SHA-1 as FIPS 180-4 defines it, over messages of whole bytes.
namespace Sha1

def rotl (x : UInt32) (n : Nat) : UInt32 := ⟨x.toBitVec.rotateLeft n⟩

def ch (x y z : UInt32) : UInt32 := (x &&& y) ^^^ (~~~x &&& z)

def parity (x y z : UInt32) : UInt32 := x ^^^ y ^^^ z

def maj (x y z : UInt32) : UInt32 := (x &&& y) ^^^ (x &&& z) ^^^ (y &&& z)

def logical (t : Nat) : UInt32 → UInt32 → UInt32 → UInt32 :=
  if t < 20 then ch else if t < 40 then parity else if t < 60 then maj else parity

def constant (t : Nat) : UInt32 :=
  if t < 20 then 0x5a827999 else if t < 40 then 0x6ed9eba1 else if t < 60 then 0x8f1bbcdc
  else 0xca62c1d6

structure State where
  a : UInt32
  b : UInt32
  c : UInt32
  d : UInt32
  e : UInt32
  deriving DecidableEq, Repr

def initial : State := ⟨0x67452301, 0xefcdab89, 0x98badcfe, 0x10325476, 0xc3d2e1f0⟩

def schedule (block : Nat → UInt32) (t : Nat) : UInt32 :=
  if t < 16 then block t
  else rotl (schedule block (t - 3) ^^^ schedule block (t - 8) ^^^ schedule block (t - 14) ^^^
    schedule block (t - 16)) 1
termination_by t

def step (w : Nat → UInt32) (s : State) (t : Nat) : State where
  a := rotl s.a 5 + logical t s.b s.c s.d + s.e + constant t + w t
  b := s.a
  c := rotl s.b 30
  d := s.c
  e := s.d

def word (block : List UInt8) (t : Nat) : UInt32 :=
  UInt32.ofNat (BigEndian.decode ((block.drop (4 * t)).take 4))

def compress (h : State) (block : List UInt8) : State :=
  let s := (List.range 80).foldl (step (schedule (word block))) h
  ⟨h.a + s.a, h.b + s.b, h.c + s.c, h.d + s.d, h.e + s.e⟩

def zeros (length : Nat) : Nat := (119 - length % 64) % 64

def pad (message : List UInt8) : List UInt8 :=
  message ++ 0x80 :: (List.replicate (zeros message.length) 0 ++
    BigEndian.encode 8 (8 * message.length))

def blocks (padded : List UInt8) : List (List UInt8) :=
  (List.range (padded.length / 64)).map fun i => (padded.drop (64 * i)).take 64

def hash (message : List UInt8) : State := (blocks (pad message)).foldl compress initial

def digest (message : List UInt8) : List UInt8 :=
  let h := hash message
  [h.a, h.b, h.c, h.d, h.e].flatMap fun x => BigEndian.encode 4 x.toNat

section Words

variable {block : Nat → UInt32} {t : Nat}

theorem schedule_block (early : t < 16) : schedule block t = block t := by
  rw [schedule, if_pos early]

theorem schedule_late (late : 16 ≤ t) : schedule block t =
    rotl (schedule block (t - 3) ^^^ schedule block (t - 8) ^^^ schedule block (t - 14) ^^^
      schedule block (t - 16)) 1 := by
  rw [schedule, if_neg (not_lt.mpr late)]

theorem word_eq {bytes : List UInt8} {b0 b1 b2 b3 : UInt8} (first : bytes[4 * t]? = some b0)
    (second : bytes[4 * t + 1]? = some b1) (third : bytes[4 * t + 2]? = some b2)
    (fourth : bytes[4 * t + 3]? = some b3) :
    (word bytes t).toNat =
      ((b0.toNat * 256 + b1.toNat) * 256 + b2.toNat) * 256 + b3.toNat := by
  have taken : (bytes.drop (4 * t)).take 4 = [b0, b1, b2, b3] := by
    apply List.ext_getElem?
    intro i
    rw [List.getElem?_take, List.getElem?_drop]
    rcases i with _ | _ | _ | _ | i
    · exact first
    · exact second
    · exact third
    · exact fourth
    · simp
  have small := BigEndian.decode_lt [b0, b1, b2, b3]
  rw [word, taken, UInt32.toNat_ofNat_of_lt' (by simpa using small)]
  simp [BigEndian.decode]

end Words

section Padding

theorem length_pad (message : List UInt8) :
    (pad message).length = ((message.length + 8) / 64 + 1) * 64 := by
  simp only [pad, List.length_append, List.length_cons, List.length_replicate,
    BigEndian.length_encode]
  unfold zeros
  omega

variable {message : List UInt8} {i : Nat}

theorem pad_message (inside : i < message.length) : (pad message)[i]? = message[i]? :=
  List.getElem?_append_left inside

theorem pad_mark : (pad message)[message.length]? = some 0x80 := by
  rw [pad, List.getElem?_append_right le_rfl, Nat.sub_self, List.getElem?_cons_zero]

theorem pad_behind (behind : message.length < i) : (pad message)[i]? =
    (List.replicate (zeros message.length) 0 ++ BigEndian.encode 8 (8 * message.length))[
      i - message.length - 1]? := by
  obtain ⟨k, rfl⟩ := Nat.exists_eq_add_of_lt behind
  rw [pad, List.getElem?_append_right (by omega),
    (by omega : message.length + k + 1 - message.length = k + 1), List.getElem?_cons_succ,
    Nat.add_sub_cancel]

theorem pad_zero (behind : message.length < i) (before : i + 8 < (pad message).length) :
    (pad message)[i]? = some 0 := by
  have total := length_pad message
  have inside : i - message.length - 1 < zeros message.length := by
    unfold zeros
    omega
  rw [pad_behind behind, List.getElem?_append_left (by simpa using inside),
    List.getElem?_replicate_of_lt inside]

theorem pad_length (last : i < (pad message).length) (before : (pad message).length ≤ i + 8) :
    (pad message)[i]? =
      some (UInt8.ofNat (8 * message.length / 256 ^ ((pad message).length - 1 - i) % 256)) := by
  have total := length_pad message
  have behind : message.length < i := by omega
  have past : zeros message.length ≤ i - message.length - 1 := by
    unfold zeros
    omega
  have index : i - message.length - 1 - zeros message.length < 8 := by
    unfold zeros
    omega
  have power : 8 - 1 - (i - message.length - 1 - zeros message.length) =
      (pad message).length - 1 - i := by
    unfold zeros
    omega
  rw [pad_behind behind, List.getElem?_append_right (by simpa using past), List.length_replicate,
    BigEndian.getElem?_encode index, power]

end Padding

end Sha1
