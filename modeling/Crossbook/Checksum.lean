import Crossbook.Book.BookSpec

set_option autoImplicit false

namespace Crossbook

namespace Crc32

def bitRound (c : UInt32) : UInt32 :=
  if c &&& 1 = 0 then c >>> 1 else (0xEDB88320 : UInt32) ^^^ (c >>> 1)

def byteEntry (i : UInt32) : UInt32 := (List.range 8).foldl (fun c _ => bitRound c) i

/-- Table `t` is table 0 advanced by `t` zero bytes. -/
def entries : Nat → UInt32 → UInt32
  | 0, i => byteEntry i
  | t + 1, i => (entries t i >>> 8) ^^^ byteEntry (entries t i &&& 0xFF)

def load32 (b0 b1 b2 b3 : UInt8) : UInt32 :=
  b0.toUInt32 ||| (b1.toUInt32 <<< 8) ||| (b2.toUInt32 <<< 16) ||| (b3.toUInt32 <<< 24)

def slice8 (c lo hi : UInt32) : UInt32 :=
  let one := c ^^^ lo
  entries 7 (one &&& 0xFF) ^^^ entries 6 ((one >>> 8) &&& 0xFF) ^^^
    entries 5 ((one >>> 16) &&& 0xFF) ^^^ entries 4 (one >>> 24) ^^^ entries 3 (hi &&& 0xFF) ^^^
    entries 2 ((hi >>> 8) &&& 0xFF) ^^^ entries 1 ((hi >>> 16) &&& 0xFF) ^^^ entries 0 (hi >>> 24)

def bytewise (c : UInt32) (byte : UInt8) : UInt32 :=
  entries 0 ((c ^^^ byte.toUInt32) &&& 0xFF) ^^^ (c >>> 8)

def update (c : UInt32) : Bytes → UInt32
  | b0 :: b1 :: b2 :: b3 :: b4 :: b5 :: b6 :: b7 :: rest =>
    update (slice8 c (load32 b0 b1 b2 b3) (load32 b4 b5 b6 b7)) rest
  | tail => tail.foldl bytewise c

def value (c : UInt32) : UInt32 := c ^^^ 0xFFFFFFFF

end Crc32

def crc32 (data : Bytes) : UInt32 := Crc32.value (Crc32.update 0xFFFFFFFF data)

def kKrakenChecksumDepth : Nat := 10

def kMaxDigits : Nat := 20

def kMaxChecksumPayload : Nat := kKrakenChecksumDepth * 2 * kMaxDigits * 2

-- Least significant digit first, at least one digit.
def digitsLoop (magnitude : UInt64) : Bytes :=
  (48 + (magnitude % 10).toUInt8) ::
    if magnitude / 10 = 0 then [] else digitsLoop (magnitude / 10)
termination_by magnitude.toNat
decreasing_by
  rename_i more
  exact MachineInt.toNat_div_ten_lt more

def magnitudeOf (value : Int64) : UInt64 :=
  if value < 0 then 0 - value.toUInt64 else value.toUInt64

def writeDigits (value : Int64) : Bytes := (digitsLoop (magnitudeOf value)).reverse

def writeLevel (level : Level) : Bytes :=
  writeDigits level.price.ticks ++ writeDigits level.qty.units

section Payload

variable {S : Type} [SideImpl S]

def payloadStep (written : Bytes × Nat) (level : Level) : (Bytes × Nat) × Bool :=
  ((written.1 ++ writeLevel level, written.2 + 1), decide (written.2 + 1 < kKrakenChecksumDepth))

def payloadSide (book : BasicL2Book S) (buf : Bytes) (s : Side) : Bytes :=
  (SideImpl.forEach (book.side s) payloadStep (buf, 0)).1

def krakenChecksumPayload (book : BasicL2Book S) : Bytes :=
  [Side.ask, Side.bid].foldl (payloadSide book) []

def krakenChecksum (book : BasicL2Book S) : UInt32 := crc32 (krakenChecksumPayload book)

end Payload

section PayloadSpec

variable {S : Type} [SideImpl S] [LawfulSideImpl S]

theorem payloadSide_eq (book : BasicL2Book S) (buf : Bytes) (s : Side) :
    payloadSide book buf s =
      buf ++ ((book.levels s).take kKrakenChecksumDepth).flatMap writeLevel := by
  have folded : ∀ (levels : List Level) (written : Bytes × Nat),
      (levels.foldl (fun written level => (written.1 ++ writeLevel level, written.2 + 1))
        written).1 = written.1 ++ levels.flatMap writeLevel := by
    intro levels
    induction levels with
    | nil => simp
    | cons level rest ih =>
      intro written
      simp [ih]
  have limited := Visit.visit_limit
    (fun (written : Bytes × Nat) level => (written.1 ++ writeLevel level, written.2 + 1))
    Prod.snd kKrakenChecksumDepth (fun _ _ => rfl) (buf, 0) (book.levels s)
  rw [payloadSide, BasicL2Book.forEach_eq]
  exact (congrArg Prod.fst limited).trans (folded _ _)

theorem krakenChecksumPayload_eq (book : BasicL2Book S) :
    krakenChecksumPayload book =
      ((book.levels .ask).take kKrakenChecksumDepth).flatMap writeLevel ++
        ((book.levels .bid).take kKrakenChecksumDepth).flatMap writeLevel := by
  simp only [krakenChecksumPayload, List.foldl_cons, List.foldl_nil, payloadSide_eq, List.nil_append]

@[simp] theorem krakenChecksumPayload_toMap (book : BasicL2Book S) :
    krakenChecksumPayload book.toMap = krakenChecksumPayload book := by
  simp only [krakenChecksumPayload_eq, BasicL2Book.levels_toMap]

@[simp] theorem krakenChecksum_toMap (book : BasicL2Book S) :
    krakenChecksum book.toMap = krakenChecksum book := by
  rw [krakenChecksum, krakenChecksumPayload_toMap, krakenChecksum]

end PayloadSpec

end Crossbook
