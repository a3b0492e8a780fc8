import Crossbook.Lib.Spans
import Crossbook.Net.Chunked

set_option autoImplicit false

namespace Crossbook

namespace Net

structure SizeText where
  digits : Bytes
  extension : Option Bytes
  some_ : digits ≠ []
  isHex : ∀ c ∈ digits, (hexDigit c).isSome
  oneLine : ∀ text ∈ extension, ¬ crlf <:+: text

namespace SizeText

variable (size : SizeText)

def extensionBytes : Bytes :=
  match size.extension with
  | none => []
  | some text => ascii ';' :: text

def bytes : Bytes := size.digits ++ size.extensionBytes

def value : Nat := hexValue size.digits

end SizeText

structure Chunk where
  size : SizeText
  payload : Bytes
  some_ : payload ≠ []
  sized : size.value = payload.length

def Chunk.bytes (chunk : Chunk) : Bytes := chunk.size.bytes ++ crlf ++ chunk.payload ++ crlf

structure ChunkedCoding where
  chunks : List Chunk
  last : SizeText
  terminal : last.value = 0

namespace ChunkedCoding

def bytes (coding : ChunkedCoding) : Bytes :=
  coding.chunks.flatMap Chunk.bytes ++ (coding.last.bytes ++ crlf)

def payload (coding : ChunkedCoding) : Bytes := coding.chunks.flatMap Chunk.payload

end ChunkedCoding

theorem ChunkedCoding.payload_le (coding : ChunkedCoding) {chunk : Chunk}
    (member : chunk ∈ coding.chunks) : chunk.payload.length ≤ coding.bytes.length := by
  have isPart : chunk.bytes.length ≤ (coding.chunks.flatMap Chunk.bytes).length :=
    (List.sublist_flatten_of_mem (List.mem_map_of_mem member)).length_le
  simp only [Chunk.bytes, ChunkedCoding.bytes, List.length_append] at isPart ⊢
  omega

theorem crlf_clear {line : Bytes} (oneLine : ¬ crlf <:+: line) :
    ¬ crlf <:+: line ++ crlf.dropLast := by
  change ¬ crlf <:+: line ++ [ascii '\r']
  rw [List.infix_concat_iff, not_or]
  refine ⟨?_, oneLine⟩
  intro ⟨front, same⟩
  have last := congrArg List.getLast? same
  simp [crlf, ascii] at last

theorem SizeText.oneLine_bytes (size : SizeText) : ¬ crlf <:+: size.bytes := by
  intro occurs
  have noReturn : ascii '\r' ∉ size.digits := by
    intro member
    exact absurd (size.isHex _ member) (by decide)
  have behind := Search.infix_of_absent noReturn occurs
  rw [extensionBytes] at behind
  cases extension : size.extension with
  | none => simp [extension] at behind
  | some text =>
    simp only [extension] at behind
    have atMark : ascii '\r' ∉ [ascii ';'] := by decide
    exact size.oneLine text extension (Search.infix_of_absent atMark behind)

theorem SizeText.takeWhile_bytes (size : SizeText) :
    size.bytes.takeWhile (· ≠ ascii ';') = size.digits := by
  refine Spans.takeWhile_run ?_ ?_
  · intro c member
    have isHex := size.isHex c member
    simp only [ne_eq, decide_eq_true_eq]
    intro same
    rw [same] at isHex
    exact absurd isHex (by decide)
  · cases extension : size.extension with
    | none => simp [extensionBytes, extension]
    | some text => simp [extensionBytes, extension]

theorem sizeLine_written (front : Bytes) (size : SizeText) (small : size.value < 2 ^ 64)
    (rest : Bytes) :
    sizeLine (front ++ (size.bytes ++ crlf ++ rest)) front.length =
      some (size.value, (front ++ size.bytes ++ crlf).length) := by
  have found := Search.dropInfix?_append (crlf_clear size.oneLine_bytes) rest
  have parsed : chunkSize size.digits = some size.value := by
    rw [chunkSize_eq, if_pos size.isHex, ← SizeText.value, Nat.mod_eq_of_lt small]
  have nonempty : size.digits.isEmpty = false := by simpa using size.some_
  rw [sizeLine, List.drop_left]
  simp only [found, size.takeWhile_bytes, nonempty, parsed, Option.map_some]
  simp [crlf, Nat.add_assoc]

theorem sizeLine_cut {front cut : Bytes} (open_ : cut.dropInfix? crlf = none) :
    sizeLine (front ++ cut) front.length = none := by
  rw [sizeLine, List.drop_left]
  simp only [open_]

theorem Chunk.size_pos (chunk : Chunk) : chunk.size.value ≠ 0 := by
  rw [chunk.sized]
  exact fun none_ => chunk.some_ (List.length_eq_zero_iff.mp none_)

theorem decodeChunk_chunk (front out rest : Bytes) (chunk : Chunk)
    (addressable : (front ++ (chunk.size.bytes ++ crlf ++ (chunk.payload ++ rest))).length < 2 ^ 63) :
    decodeChunk (front ++ (chunk.size.bytes ++ crlf ++ (chunk.payload ++ rest)))
        ⟨front.length, out⟩ =
      .inl ⟨(front ++ chunk.bytes).length, out ++ chunk.payload⟩ := by
  have total : (front ++ (chunk.size.bytes ++ crlf ++ (chunk.payload ++ rest))).length =
      (front ++ chunk.size.bytes ++ crlf).length + chunk.payload.length + rest.length := by
    simp only [List.length_append]
    omega
  have line := sizeLine_written front chunk.size (by rw [chunk.sized]; omega) (chunk.payload ++ rest)
  rw [decodeChunk_advance ⟨front.length, out⟩ line chunk.size_pos (by rw [chunk.sized]; omega)]
  have position : ((front ++ chunk.size.bytes ++ crlf).length + chunk.size.value + 2) % 2 ^ 64 =
      (front ++ chunk.bytes).length := by
    rw [chunk.sized, Nat.mod_eq_of_lt (by omega)]
    simp only [Chunk.bytes, List.length_append, crlf, List.length_cons, List.length_nil]
    omega
  have copied : (((front ++ (chunk.size.bytes ++ crlf ++ (chunk.payload ++ rest))).drop
      (front ++ chunk.size.bytes ++ crlf).length).take chunk.size.value) = chunk.payload := by
    have regrouped : front ++ (chunk.size.bytes ++ crlf ++ (chunk.payload ++ rest)) =
        front ++ chunk.size.bytes ++ crlf ++ (chunk.payload ++ rest) := by
      simp only [List.append_assoc]
    rw [regrouped, List.drop_left, chunk.sized, List.take_left]
  rw [position, copied]

theorem decodeChunk_short (front out kept : Bytes) (chunk : Chunk)
    (addressable : (front ++ (chunk.size.bytes ++ crlf ++ kept)).length < 2 ^ 63)
    (representable : chunk.payload.length < 2 ^ 63)
    (short : kept.length < chunk.payload.length) :
    decodeChunk (front ++ (chunk.size.bytes ++ crlf ++ kept)) ⟨front.length, out⟩ =
      .inr (false, out) := by
  have total : (front ++ (chunk.size.bytes ++ crlf ++ kept)).length =
      (front ++ chunk.size.bytes ++ crlf).length + kept.length := by
    simp only [List.length_append]
    omega
  have line := sizeLine_written front chunk.size (by rw [chunk.sized]; omega) kept
  have sized := chunk.sized
  rw [decodeChunk_line line, if_neg chunk.size_pos, if_pos (by omega)]

theorem decodeChunk_last (front out rest : Bytes) (last : SizeText) (terminal : last.value = 0) :
    decodeChunk (front ++ (last.bytes ++ crlf ++ rest)) ⟨front.length, out⟩ = .inr (true, out) := by
  have line := sizeLine_written front last (by rw [terminal]; decide) rest
  rw [decodeChunk_line line, if_pos terminal]

theorem decodeChunk_past {input out : Bytes} {pos : Nat} (past : input.length ≤ pos) :
    decodeChunk input ⟨pos, out⟩ = .inr (false, out) := by
  rw [decodeChunk, if_neg (not_lt.mpr past)]

theorem whole_returns (last : SizeText) (terminal : last.value = 0) (trailer : Bytes)
    (chunks : List Chunk) (front out : Bytes)
    (addressable : (front ++ (chunks.flatMap Chunk.bytes ++ (last.bytes ++ crlf ++ trailer))).length
      < 2 ^ 63) :
    Loop.Returns
      (decodeChunk (front ++ (chunks.flatMap Chunk.bytes ++ (last.bytes ++ crlf ++ trailer))))
      ⟨front.length, out⟩ (true, out ++ chunks.flatMap Chunk.payload) := by
  induction chunks generalizing front out with
  | nil =>
    rw [List.flatMap_nil, List.nil_append, List.flatMap_nil, List.append_nil]
    exact Loop.returns_here (decodeChunk_last front out trailer last terminal)
  | cons chunk rest ih =>
    have shape : front ++ ((chunk :: rest).flatMap Chunk.bytes ++ (last.bytes ++ crlf ++ trailer)) =
        front ++ chunk.bytes ++ (rest.flatMap Chunk.bytes ++ (last.bytes ++ crlf ++ trailer)) := by
      simp only [List.flatMap_cons, List.append_assoc]
    have step := decodeChunk_chunk front out
      (crlf ++ (rest.flatMap Chunk.bytes ++ (last.bytes ++ crlf ++ trailer))) chunk
    have opened : front ++ (chunk.size.bytes ++ crlf ++ (chunk.payload ++
        (crlf ++ (rest.flatMap Chunk.bytes ++ (last.bytes ++ crlf ++ trailer))))) =
        front ++ chunk.bytes ++ (rest.flatMap Chunk.bytes ++ (last.bytes ++ crlf ++ trailer)) := by
      simp only [Chunk.bytes, List.append_assoc]
    rw [shape] at addressable ⊢
    rw [opened] at step
    have later := ih (front ++ chunk.bytes) (out ++ chunk.payload) addressable
    rw [List.append_assoc out] at later
    exact Loop.returns_next (step addressable) later

theorem cut_returns (last : SizeText) (chunks : List Chunk) (front out cut : Bytes)
    (addressable : (front ++ cut).length < 2 ^ 63)
    (representable : ∀ chunk ∈ chunks, chunk.payload.length < 2 ^ 63)
    (isCut : cut <+: chunks.flatMap Chunk.bytes ++ (last.bytes ++ crlf))
    (proper : cut ≠ chunks.flatMap Chunk.bytes ++ (last.bytes ++ crlf)) :
    ∃ acc, Loop.Returns (decodeChunk (front ++ cut)) ⟨front.length, out⟩ (false, acc) := by
  induction chunks generalizing front out cut with
  | nil =>
    rw [List.flatMap_nil, List.nil_append] at isCut proper
    have isCut : cut <+: last.bytes ++ crlf ++ [] := by rwa [List.append_nil]
    rcases Search.cut_cases (by decide) (crlf_clear last.oneLine_bytes) isCut with
      open_ | ⟨kept, none_, same⟩
    · -- The cut falls in the last size line.
      exact ⟨out, Loop.returns_here (decodeChunk_none (sizeLine_cut open_))⟩
    · rw [List.prefix_nil.mp none_, List.append_nil] at same
      contradiction
  | cons chunk rest ih =>
    have shape : (chunk :: rest).flatMap Chunk.bytes ++ (last.bytes ++ crlf) =
        chunk.size.bytes ++ crlf ++
          (chunk.payload ++ (crlf ++ (rest.flatMap Chunk.bytes ++ (last.bytes ++ crlf)))) := by
      simp only [List.flatMap_cons, Chunk.bytes, List.append_assoc]
    rw [shape] at isCut proper
    rcases Search.cut_cases (by decide) (crlf_clear chunk.size.oneLine_bytes) isCut with
      open_ | ⟨kept, isKept, rfl⟩
    · -- The cut falls in a size line.
      exact ⟨out, Loop.returns_here (decodeChunk_none (sizeLine_cut open_))⟩
    · rcases Spans.cut_append isKept with short | ⟨more, rfl, isMore⟩
      · -- The cut falls in a payload.
        have ended := decodeChunk_short front out kept chunk addressable
          (representable chunk (by simp)) short
        exact ⟨out, Loop.returns_here ended⟩
      · have step := decodeChunk_chunk front out more chunk addressable
        rcases Spans.cut_append isMore with open_ | ⟨later, rfl, isLater⟩
        · -- The cut falls in the line break behind the payload.
          have past : (front ++ (chunk.size.bytes ++ crlf ++ (chunk.payload ++ more))).length ≤
              (front ++ chunk.bytes).length := by
            simp only [Chunk.bytes, List.length_append]
            omega
          exact ⟨_, Loop.returns_next step (Loop.returns_here (decodeChunk_past past))⟩
        · have opened : front ++ (chunk.size.bytes ++ crlf ++ (chunk.payload ++ (crlf ++ later))) =
              front ++ chunk.bytes ++ later := by
            simp only [Chunk.bytes, List.append_assoc]
          rw [opened] at step addressable ⊢
          have shorter : later ≠ rest.flatMap Chunk.bytes ++ (last.bytes ++ crlf) := by
            rintro rfl
            exact proper rfl
          have ⟨acc, returns⟩ := ih (front ++ chunk.bytes) (out ++ chunk.payload) later addressable
            (fun other member => representable other (List.mem_cons_of_mem chunk member))
            isLater shorter
          exact ⟨acc, Loop.returns_next step returns⟩

end Net

end Crossbook
