import Crossbook.Fixed
import Crossbook.Lib.Packed
import Crossbook.Lib.Sha1

set_option autoImplicit false

namespace Crossbook

namespace Net

def rotl32 (v bits : UInt32) : UInt32 := (v <<< bits) ||| (v >>> (32 - bits))

section Padding

variable (data : Bytes)

def bitLen : UInt64 := UInt64.ofNat data.length * 8

def paddedLen : Nat := ((data.length + 8) / 64 + 1) * 64

-- The padding is never built; this is what stands at a position of the padded message.
def byteAt (i : Nat) : UInt8 :=
  if inside : i < data.length then data[i]
  else if i = data.length then 0x80
  else if paddedLen data - 8 ≤ i then
    let shift := (paddedLen data - 1 - i) * 8
    (bitLen data >>> UInt64.ofNat shift &&& 0xFF).toUInt8
  else 0

end Padding

def wordAt (data : Bytes) (start : Nat) : UInt32 :=
  (byteAt data start).toUInt32 <<< 24 ||| (byteAt data (start + 1)).toUInt32 <<< 16 |||
    (byteAt data (start + 2)).toUInt32 <<< 8 ||| (byteAt data (start + 3)).toUInt32

def loadWords (data : Bytes) (chunk : Nat) (w : Array UInt32) : Array UInt32 :=
  (List.range 16).foldl (fun w i => w.set! i (wordAt data (chunk + i * 4))) w

def extendWords (w : Array UInt32) : Array UInt32 :=
  (List.range' 16 64).foldl (fun w i =>
    w.set! i (rotl32 (w[i - 3]! ^^^ w[i - 8]! ^^^ w[i - 14]! ^^^ w[i - 16]!) 1)) w

def round (w : Array UInt32) (s : Sha1.State) (i : Nat) : Sha1.State :=
  let ⟨a, b, c, d, e⟩ := s
  let (f, k) : UInt32 × UInt32 :=
    if i < 20 then ((b &&& c) ||| (~~~b &&& d), 0x5A827999)
    else if i < 40 then (b ^^^ c ^^^ d, 0x6ED9EBA1)
    else if i < 60 then ((b &&& c) ||| (b &&& d) ||| (c &&& d), 0x8F1BBCDC)
    else (b ^^^ c ^^^ d, 0xCA62C1D6)
  let temp := rotl32 a 5 + f + e + k + w[i]!
  ⟨temp, a, rotl32 b 30, c, d⟩

-- The schedule is declared outside the loop, so that a chunk starts on the words of the last one.
def hashChunk (data : Bytes) (state : Sha1.State × Array UInt32) (chunk : Nat) :
    Sha1.State × Array UInt32 :=
  let (h, w) := state
  let w := extendWords (loadWords data chunk w)
  let s := (List.range 80).foldl (round w) h
  (⟨h.a + s.a, h.b + s.b, h.c + s.c, h.d + s.d, h.e + s.e⟩, w)

def wordBytes (x : UInt32) : Bytes :=
  [(x >>> 24 &&& 0xFF).toUInt8, (x >>> 16 &&& 0xFF).toUInt8, (x >>> 8 &&& 0xFF).toUInt8,
    (x &&& 0xFF).toUInt8]

def sha1 (data : Bytes) : Bytes :=
  let h : Sha1.State := ⟨0x67452301, 0xEFCDAB89, 0x98BADCFE, 0x10325476, 0xC3D2E1F0⟩
  let chunks := (List.range (paddedLen data / 64)).map (64 * ·)
  let (h, _) := chunks.foldl (hashChunk data) (h, Array.replicate 80 0)
  wordBytes h.a ++ wordBytes h.b ++ wordBytes h.c ++ wordBytes h.d ++ wordBytes h.e

section Words

theorem rotl32_eq (x : UInt32) :
    rotl32 x 1 = Sha1.rotl x 1 ∧ rotl32 x 5 = Sha1.rotl x 5 ∧ rotl32 x 30 = Sha1.rotl x 30 :=
  ⟨rfl, rfl, rfl⟩

theorem choose_eq (b c d : UInt32) : (b &&& c) ||| (~~~b &&& d) = Sha1.ch b c d := by
  apply UInt32.toBitVec_inj.mp
  rw [Sha1.ch, UInt32.toBitVec_or, UInt32.toBitVec_xor]
  ext i inside
  simp only [UInt32.toBitVec_and, UInt32.toBitVec_not, BitVec.getElem_or, BitVec.getElem_xor,
    BitVec.getElem_and, BitVec.getElem_not]
  cases b.toBitVec[i] <;> simp

theorem majority_eq (b c d : UInt32) :
    (b &&& c) ||| (b &&& d) ||| (c &&& d) = Sha1.maj b c d := by
  apply UInt32.toBitVec_inj.mp
  rw [Sha1.maj, UInt32.toBitVec_or, UInt32.toBitVec_or, UInt32.toBitVec_xor, UInt32.toBitVec_xor]
  ext i inside
  simp only [UInt32.toBitVec_and, BitVec.getElem_or, BitVec.getElem_xor, BitVec.getElem_and]
  cases b.toBitVec[i] <;> cases c.toBitVec[i] <;> simp

theorem wordBytes_eq (x : UInt32) : wordBytes x = BigEndian.encode 4 x.toNat := by
  have part (shift : UInt32) (inside : shift.toNat < 32) : (x >>> shift &&& 0xFF).toUInt8 =
      UInt8.ofNat (x.toNat / 2 ^ shift.toNat % 256) := by
    apply UInt8.toNat_inj.mp
    rw [UInt32.toNat_toUInt8, Packed.toNat_field x shift 0xFF 8 inside rfl, BigEndian.toNat_low]
    omega
  have last : (x &&& 0xFF : UInt32) = x >>> (0 : UInt32) &&& 0xFF := by simp
  rw [wordBytes, last, part 24 (by decide), part 16 (by decide), part 8 (by decide),
    part 0 (by decide)]
  simp [BigEndian.encode, Nat.div_div_eq_div_mul]

end Words

section Padded

variable {data : Bytes} {i : Nat}

theorem paddedLen_eq (data : Bytes) : paddedLen data = (Sha1.pad data).length :=
  (Sha1.length_pad data).symm

theorem pad_byteAt (short : data.length < 2 ^ 61) (inside : i < paddedLen data) :
    (Sha1.pad data)[i]? = some (byteAt data i) := by
  have total := paddedLen_eq data
  have room : data.length + 8 < paddedLen data := by
    unfold paddedLen
    omega
  rcases lt_trichotomy i data.length with message | rfl | behind
  · rw [Sha1.pad_message message, List.getElem?_eq_getElem message, byteAt, dif_pos message]
  · rw [Sha1.pad_mark, byteAt, dif_neg (lt_irrefl _), if_pos rfl]
  · rw [byteAt, dif_neg behind.not_gt, if_neg behind.ne']
    by_cases last : paddedLen data - 8 ≤ i
    · have bits : (bitLen data).toNat = 8 * data.length := by
        rw [bitLen, UInt64.toNat_mul, UInt64.toNat_ofNat_of_lt' (by change _ < 2 ^ 64; omega)]
        change data.length * 8 % 2 ^ 64 = _
        omega
      have shift : (UInt64.ofNat ((paddedLen data - 1 - i) * 8)).toNat =
          (paddedLen data - 1 - i) * 8 :=
        UInt64.toNat_ofNat_of_lt' (by change _ < 2 ^ 64; omega)
      have power : 2 ^ ((paddedLen data - 1 - i) * 8) = 256 ^ (paddedLen data - 1 - i) := by
        rw [Nat.mul_comm, Nat.pow_mul]
      rw [if_pos last, Sha1.pad_length (by omega) (by omega), ← total, Option.some.injEq]
      apply UInt8.toNat_inj.mp
      rw [UInt64.toNat_toUInt8, UInt64.toNat_and, UInt64.toNat_shiftRight, shift, bits,
        Nat.mod_eq_of_lt (by omega : (paddedLen data - 1 - i) * 8 < 64), Nat.shiftRight_eq_div_pow,
        power, BigEndian.toNat_low]
      change _ = (_ &&& (2 ^ 8 - 1)) % _
      rw [Nat.and_two_pow_sub_one_eq_mod]
      omega
    · rw [if_neg last, Sha1.pad_zero behind (by omega)]

def blockAt (data : Bytes) (k : Nat) : Bytes := ((Sha1.pad data).drop (64 * k)).take 64

theorem wordAt_eq {k t : Nat} (short : data.length < 2 ^ 61) (chunk : k < paddedLen data / 64)
    (early : t < 16) : wordAt data (64 * k + t * 4) = Sha1.word (blockAt data k) t := by
  have byte (j : Nat) (inside : j < 64) :
      (blockAt data k)[j]? = some (byteAt data (64 * k + j)) := by
    rw [blockAt, List.getElem?_take_of_lt inside, List.getElem?_drop, pad_byteAt short (by omega)]
  have same : 64 * k + t * 4 = 64 * k + 4 * t := by omega
  apply UInt32.toNat_inj.mp
  rw [Sha1.word_eq (byte (4 * t) (by omega)) (byte (4 * t + 1) (by omega))
    (byte (4 * t + 2) (by omega)) (byte (4 * t + 3) (by omega)), wordAt, Packed.toNat_pack, same]
  rfl

end Padded

section Schedule

theorem fill_get (value : Nat → UInt32) (w : Array UInt32) (n : Nat) (room : n ≤ w.size) :
    ((List.range n).foldl (fun w i => w.set! i (value i)) w).size = w.size ∧
      ∀ t < n, ((List.range n).foldl (fun w i => w.set! i (value i)) w)[t]! = value t := by
  induction n with
  | zero => exact ⟨rfl, nofun⟩
  | succ n ih =>
    obtain ⟨size, filled⟩ := ih (by omega)
    rw [List.range_succ, List.foldl_append, List.foldl_cons, List.foldl_nil]
    refine ⟨by simpa using size, fun t inside => ?_⟩
    rcases Nat.lt_succ_iff_lt_or_eq.mp inside with before | rfl
    · rw [Array.getElem!_set!_ne _ _ _ _ before.ne', filled t before]
    · exact Array.getElem!_set!_self _ _ _ (by omega)

theorem extend_get (block : Nat → UInt32) (w : Array UInt32) (size : w.size = 80)
    (first : ∀ t < 16, w[t]! = block t) (n : Nat) (room : 16 + n ≤ 80) :
    let extended := (List.range' 16 n).foldl (fun w i =>
      w.set! i (rotl32 (w[i - 3]! ^^^ w[i - 8]! ^^^ w[i - 14]! ^^^ w[i - 16]!) 1)) w
    extended.size = 80 ∧ ∀ t < 16 + n, extended[t]! = Sha1.schedule block t := by
  induction n with
  | zero => exact ⟨size, fun t early => (first t early).trans (Sha1.schedule_block early).symm⟩
  | succ n ih =>
    obtain ⟨kept, scheduled⟩ := ih (by omega)
    dsimp only
    rw [List.range'_concat, Nat.one_mul, List.foldl_append, List.foldl_cons, List.foldl_nil]
    refine ⟨by simpa using kept, fun t inside => ?_⟩
    rcases (by omega : t < 16 + n ∨ t = 16 + n) with before | rfl
    · rw [Array.getElem!_set!_ne _ _ _ _ before.ne', scheduled t before]
    · rw [Array.getElem!_set!_self _ _ _ (by omega), (rotl32_eq _).1, scheduled _ (by omega),
        scheduled _ (by omega), scheduled _ (by omega), scheduled _ (by omega),
        Sha1.schedule_late (by omega : 16 ≤ 16 + n)]

theorem words_get {data : Bytes} {k : Nat} (short : data.length < 2 ^ 61)
    (chunk : k < paddedLen data / 64) {w : Array UInt32} (size : w.size = 80) :
    (extendWords (loadWords data (64 * k) w)).size = 80 ∧
      ∀ t < 80, (extendWords (loadWords data (64 * k) w))[t]! =
        Sha1.schedule (Sha1.word (blockAt data k)) t := by
  obtain ⟨kept, loaded⟩ := fill_get (fun i => wordAt data (64 * k + i * 4)) w 16 (by omega)
  exact extend_get (Sha1.word (blockAt data k)) _ (kept.trans size)
    (fun t early => (loaded t early).trans (wordAt_eq short chunk early)) 64 le_rfl

end Schedule

section Rounds

theorem round_eq {w : Array UInt32} {words : Nat → UInt32} {i : Nat} (same : w[i]! = words i)
    (s : Sha1.State) : round w s i = Sha1.step words s i := by
  obtain ⟨a, b, c, d, e⟩ := s
  unfold round Sha1.step Sha1.logical Sha1.constant
  dsimp only
  rw [same, (rotl32_eq a).2.1, (rotl32_eq b).2.2, choose_eq, majority_eq]
  split_ifs <;> rfl

variable {data : Bytes} {k : Nat}

theorem hashChunk_eq (short : data.length < 2 ^ 61) (chunk : k < paddedLen data / 64)
    {state : Sha1.State × Array UInt32} (size : state.2.size = 80) :
    (hashChunk data state (64 * k)).1 = Sha1.compress state.1 (blockAt data k) ∧
      (hashChunk data state (64 * k)).2.size = 80 := by
  obtain ⟨h, w⟩ := state
  obtain ⟨kept, words⟩ := words_get short chunk size
  have rounds : (List.range 80).foldl (round (extendWords (loadWords data (64 * k) w))) h =
      (List.range 80).foldl (Sha1.step (Sha1.schedule (Sha1.word (blockAt data k)))) h :=
    List.foldl_ext _ _ _ fun s i inside => round_eq (words i (List.mem_range.mp inside)) s
  unfold hashChunk Sha1.compress
  dsimp only
  rw [rounds]
  exact ⟨rfl, kept⟩

theorem hashChunks_eq (short : data.length < 2 ^ 61) (chunks : List Nat)
    (inside : ∀ k ∈ chunks, k < paddedLen data / 64) {state : Sha1.State × Array UInt32}
    (size : state.2.size = 80) : ((chunks.map (64 * ·)).foldl (hashChunk data) state).1 =
      (chunks.map (blockAt data)).foldl Sha1.compress state.1 := by
  induction chunks generalizing state with
  | nil => rfl
  | cons k rest ih =>
    obtain ⟨here, later⟩ := List.forall_mem_cons.mp inside
    obtain ⟨hashed, kept⟩ := hashChunk_eq short here size
    rw [List.map_cons, List.foldl_cons, List.map_cons, List.foldl_cons, ← hashed]
    exact ih later kept

end Rounds

theorem sha1_eq (data : Bytes) (short : data.length < 2 ^ 61) : sha1 data = Sha1.digest data := by
  have size : (Sha1.initial, Array.replicate 80 (0 : UInt32)).2.size = 80 := Array.size_replicate
  have hashed := hashChunks_eq short (List.range (paddedLen data / 64))
    (fun k inside => List.mem_range.mp inside) size
  have blocks : (List.range (paddedLen data / 64)).map (blockAt data) =
      Sha1.blocks (Sha1.pad data) := by
    rw [paddedLen_eq]
    rfl
  rw [blocks] at hashed
  unfold sha1 Sha1.digest Sha1.hash
  rw [← hashed]
  simp [wordBytes_eq, Sha1.initial]

/-- The digest computed with the padding read lazily is SHA-1 of the message. -/
theorem sha1_digest (data : Bytes) (short : data.length < 2 ^ 61) : sha1 data = Sha1.digest data :=
  sha1_eq data short

theorem sha1_digest_second_block :
    sha1 (List.replicate 56 (ascii 'a')) = Sha1.digest (List.replicate 56 (ascii 'a')) :=
  sha1_digest _ (by simp)

end Net

end Crossbook
