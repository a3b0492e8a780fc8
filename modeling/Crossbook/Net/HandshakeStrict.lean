import Crossbook.Net.Handshake

set_option autoImplicit false

namespace Crossbook

namespace Net

section Lines

def linesOf (text : Bytes) : List Bytes :=
  if text.isEmpty then []
  else
    match _found : text.dropInfix? crlf with
    | none => [text]
    | some (line, rest) => line :: linesOf rest
termination_by text.length
decreasing_by
  have whole := Search.eq_of_dropInfix? _found
  rw [whole, List.length_append, List.length_append, crlf, List.length_cons]
  omega

def header (lines : List Bytes) (name : String) : Option Bytes :=
  lines.findSome? fun line => headerAt line (bytes name)

theorem findHeader_lines (headers : Bytes) (name : String) :
    findHeader headers (bytes name) = (header (linesOf headers) name).getD [] := by
  fun_induction linesOf headers with
  | case1 headers empty =>
    rw [findHeader, if_pos empty]
    rfl
  | case2 headers some_ single =>
    rw [findHeader, if_neg some_]
    split
    · simp [header]
    · rename_i found
      rw [single] at found
      contradiction
  | case3 headers some_ line rest found ih =>
    rw [findHeader, if_neg some_]
    split
    · rename_i single
      rw [single] at found
      contradiction
    · rename_i line' rest' found'
      rw [found, Option.some.injEq, Prod.mk.injEq] at found'
      obtain ⟨rfl, rfl⟩ := found'
      rw [header, List.findSome?_cons]
      split
      · rename_i value here
        rw [here]
        rfl
      · rename_i none
        rw [none]
        exact ih

theorem linesOf_first {text line rest : Bytes} (first : text.dropInfix? crlf = some (line, rest)) :
    linesOf text = line :: linesOf rest := by
  have some_ : ¬ text.isEmpty = true := by
    rw [Search.eq_of_dropInfix? first]
    simp [crlf]
  rw [linesOf, if_neg some_]
  split
  · rename_i none
    rw [first] at none
    contradiction
  · rename_i line' rest' found
    rw [first, Option.some.injEq, Prod.mk.injEq] at found
    rw [found.1, found.2]

theorem linesOf_crlf (text : Bytes) : linesOf (crlf ++ text) = [] :: linesOf text := by
  have clear : ¬ crlf <:+: ([] : Bytes) ++ crlf.dropLast := by decide
  exact linesOf_first (Search.dropInfix?_append clear text)

def continues (line : Bytes) : Bool := line.head?.any isBlank

def joinFolded : List Bytes → Bytes × List Bytes
  | [] => ([], [])
  | line :: rest =>
    let (more, joined) := joinFolded rest
    if continues line then (line ++ more, joined) else ([], (line ++ more) :: joined)

/-- The header fields of a block, folded lines taken together. -/
def fieldLines (lines : List Bytes) : List Bytes := (joinFolded lines).2

theorem joinFolded_plain {lines : List Bytes} (plain : ∀ line ∈ lines, continues line = false) :
    joinFolded lines = ([], lines) := by
  induction lines with
  | nil => rfl
  | cons line rest ih =>
    obtain ⟨here, later⟩ := List.forall_mem_cons.mp plain
    rw [joinFolded, ih later]
    simp [here]

theorem fieldLines_plain {lines : List Bytes} (plain : ∀ line ∈ lines, continues line = false) :
    fieldLines lines = lines := by
  rw [fieldLines, joinFolded_plain plain]

end Lines

section Status

def statusToken (statusLine : Bytes) : Option Bytes :=
  (Spans.splitFirst (ascii ' ') statusLine).map fun parts => parts.2.takeWhile (· ≠ ascii ' ')

def Switches (statusLine : Bytes) : Prop :=
  ∃ token, statusToken statusLine = some token ∧ Decimal.Number token ∧ Decimal.value token = 101

/-- The digits that lead the status token spell more than an `int` holds. -/
def TooLarge (statusLine : Bytes) : Prop :=
  ∃ token, statusToken statusLine = some token ∧
    2 ^ 31 ≤ Decimal.value (token.takeWhile Decimal.isDigit)

theorem pushDigit_eq {code : Int32} {value : Nat} (held : code.toInt = value) (c : UInt8) :
    pushDigit code c = if value * 10 + Decimal.digitValue c < 2 ^ 31 then
      some (Int32.ofInt (value * 10 + Decimal.digitValue c : Nat)) else none := by
  have same : code.toInt * 10 + ((c - ascii '0').toNat : Int) =
      ((value * 10 + Decimal.digitValue c : Nat) : Int) := by
    rw [held]
    push_cast
    rfl
  unfold pushDigit
  dsimp only
  rw [same]
  by_cases fits : value * 10 + Decimal.digitValue c < 2 ^ 31
  · rw [if_pos (by exact_mod_cast fits), if_pos fits]
  · rw [if_neg (by exact_mod_cast fits), if_neg fits]

theorem isDigit_iff (c : UInt8) :
    Decimal.isDigit c = true ↔ ¬ (c < ascii '0' ∨ ascii '9' < c) := by
  rw [not_or, UInt8.not_lt, UInt8.not_lt, Decimal.isDigit, Bool.and_eq_true, decide_eq_true_eq,
    decide_eq_true_eq]
  rfl

theorem scan_start {code : Int32} {value : Nat} (held : code.toInt = value) :
    ¬ 2 ^ 31 ≤ Decimal.valueFrom value [] ∧
      Int32.ofInt (Decimal.valueFrom value [] : Nat) = code := by
  have small := code.toInt_lt
  change ¬ 2 ^ 31 ≤ value ∧ Int32.ofInt value = code
  exact ⟨by omega, by rw [← held, Int32.ofInt_toInt]⟩

theorem scanStatus_eq {code : Int32} {value : Nat} (held : code.toInt = value) (text : Bytes) :
    scanStatus code text =
      let token := text.takeWhile (· ≠ ascii ' ')
      let digits := token.takeWhile Decimal.isDigit
      if 2 ^ 31 ≤ Decimal.valueFrom value digits then .overflow
      else if digits = token then .code (Int32.ofInt (Decimal.valueFrom value digits))
      else .notDigits := by
  dsimp only
  induction text generalizing code value with
  | nil =>
    obtain ⟨below, same⟩ := scan_start held
    rw [List.takeWhile_nil, List.takeWhile_nil, if_neg below, if_pos rfl, same, scanStatus]
  | cons c rest ih =>
    obtain ⟨below, same⟩ := scan_start held
    rw [scanStatus]
    by_cases space : c = ascii ' '
    · rw [if_pos space, List.takeWhile_cons_of_neg (by simpa using space), List.takeWhile_nil,
        if_neg below, if_pos rfl, same]
    rw [if_neg space, List.takeWhile_cons_of_pos (by simpa using space)]
    by_cases digit : Decimal.isDigit c = true
    · have inside := (isDigit_iff c).mp digit
      have grows := Decimal.le_valueFrom (value * 10 + Decimal.digitValue c)
        ((rest.takeWhile (· ≠ ascii ' ')).takeWhile Decimal.isDigit)
      rw [if_neg inside, List.takeWhile_cons_of_pos digit, Decimal.valueFrom_cons,
        pushDigit_eq held]
      by_cases fits : value * 10 + Decimal.digitValue c < 2 ^ 31
      · have next : (Int32.ofInt (value * 10 + Decimal.digitValue c : Nat)).toInt =
            (value * 10 + Decimal.digitValue c : Nat) :=
          Int32.toInt_ofInt_of_le (by omega) (by omega)
        rw [if_pos fits]
        dsimp only
        rw [ih next]
        simp only [List.cons.injEq, true_and]
      · rw [if_neg fits, if_pos (by omega)]
    · have outside := not_not.mp (mt (isDigit_iff c).mpr digit)
      rw [if_pos outside, List.takeWhile_cons_of_neg digit, if_neg below,
        if_neg (List.cons_ne_nil _ _).symm]

theorem scanStatus_overflow (text : Bytes) : scanStatus 0 text = .overflow ↔
    2 ^ 31 ≤ Decimal.value ((text.takeWhile (· ≠ ascii ' ')).takeWhile Decimal.isDigit) := by
  rw [scanStatus_eq (show (0 : Int32).toInt = (0 : Nat) from rfl), Decimal.value]
  dsimp only
  split
  · rename_i large
    exact iff_of_true rfl large
  · rename_i small
    refine iff_of_false ?_ small
    split <;> simp

theorem scanStatus_switching (text : Bytes) : scanStatus 0 text = .code 101 ↔
    Decimal.Number (text.takeWhile (· ≠ ascii ' ')) ∧
      Decimal.value (text.takeWhile (· ≠ ascii ' ')) = 101 := by
  rw [scanStatus_eq (show (0 : Int32).toInt = (0 : Nat) from rfl)]
  dsimp only
  generalize text.takeWhile (· ≠ ascii ' ') = token
  constructor
  · intro scanned
    split at scanned
    · contradiction
    rename_i small
    split at scanned
    · rename_i all
      rw [all] at small scanned
      have same : ((Decimal.value token : Nat) : Int) = 101 := by
        have held := congrArg Int32.toInt (StatusScan.code.inj scanned)
        rwa [Int32.toInt_ofInt_of_le (by omega) (by omega)] at held
      refine ⟨⟨?_, List.takeWhile_eq_self_iff.mp all⟩, by exact_mod_cast same⟩
      rintro rfl
      exact absurd same (by decide)
    · contradiction
  · rintro ⟨number, value⟩
    have all : token.takeWhile Decimal.isDigit = token :=
      List.takeWhile_eq_self_iff.mpr number.digits
    rw [all, if_pos rfl, ← Decimal.value, value]
    rfl

variable (statusLine headers expected : Bytes) (out : HandshakeResponse)

theorem judgeResponse_none :
    judgeResponse statusLine headers expected out = none ↔ TooLarge statusLine := by
  unfold judgeResponse TooLarge statusToken
  cases Spans.splitFirst (ascii ' ') statusLine with
  | none => simp
  | some parts =>
    simp only [Option.map_some, Option.some.injEq, exists_eq_left', ← scanStatus_overflow]
    cases scanStatus 0 parts.2 with
    | overflow => simp
    | notDigits => simp
    | code code =>
      dsimp only
      split <;> simp

theorem judgeResponse_ok :
    (∃ parsed, judgeResponse statusLine headers expected out = some (.ok, parsed)) ↔
      Switches statusLine ∧ judgeHeaders headers expected = .ok := by
  unfold judgeResponse Switches statusToken
  cases Spans.splitFirst (ascii ' ') statusLine with
  | none => simp
  | some parts =>
    simp only [Option.map_some, Option.some.injEq, exists_eq_left', ← scanStatus_switching]
    cases scanStatus 0 parts.2 with
    | overflow => simp
    | notDigits => simp
    | code code =>
      dsimp only
      by_cases switching : code = 101
      · simp [switching]
      · simp [switching]

end Status

section Parts

variable {response head body : Bytes}

/-- What a complete response is judged on: its status line, and the headers behind it or, when
there are none, whatever follows the block. -/
inductive ReadAs (head body : Bytes) : Bytes → Bytes → Prop
  | headless (single : ¬ crlf <:+: head) : ReadAs head body head (crlf ++ body)
  | headers {line block : Bytes} (first : head.dropInfix? crlf = some (line, block)) :
      ReadAs head body line block

theorem parse_read (addressable : response.length < 2 ^ 63)
    (split : response.dropInfix? headerEnd = some (head, body)) {line headers : Bytes}
    (read : ReadAs head body line headers) (expected : Bytes) (out : HandshakeResponse) :
    parseHandshakeResponse response expected out =
      judgeResponse line headers expected { out with headerBytes := head.length + 4 } := by
  have whole := Search.eq_of_dropInfix? split
  have length := congrArg List.length whole
  simp only [List.length_append, headerEnd, crlf, List.length_cons, List.length_nil] at length
  unfold parseHandshakeResponse
  rw [split]
  dsimp only
  cases read with
  | headless single =>
    have found : response.dropInfix? crlf = some (head, crlf ++ body) := by
      have again := Search.dropInfix?_append (crlf_clear single) (crlf ++ body)
      rw [whole]
      rwa [headerEnd, ← List.append_assoc, List.append_assoc (head ++ crlf)]
    rw [found, Option.getD_some, UInt64.sub_self]
    dsimp only
    rw [List.take_of_length_le]
    change (crlf ++ body).length ≤ 18446744073709551614
    simp only [crlf, List.length_append, List.length_cons, List.length_nil]
    omega
  | headers first =>
    have inside := Search.eq_of_dropInfix? first
    have clear := Search.clear_of_dropInfix? (by decide) first
    have found : response.dropInfix? crlf = some (line, headers ++ (headerEnd ++ body)) := by
      have again := Search.dropInfix?_append clear (headers ++ (headerEnd ++ body))
      rw [whole, inside]
      rwa [List.append_assoc (line ++ crlf ++ headers), List.append_assoc (line ++ crlf)]
    have inner := congrArg List.length inside
    simp only [List.length_append, crlf, List.length_cons, List.length_nil] at inner
    have count : (UInt64.ofNat head.length - UInt64.ofNat line.length - 2).toNat =
        headers.length := by
      rw [inner, UInt64.ofNat_add, UInt64.ofNat_add]
      have cancel : UInt64.ofNat line.length + UInt64.ofNat (0 + 1 + 1) +
          UInt64.ofNat headers.length - UInt64.ofNat line.length - 2 =
          UInt64.ofNat headers.length := by
        change UInt64.ofNat line.length + 2 + UInt64.ofNat headers.length -
          UInt64.ofNat line.length - 2 = UInt64.ofNat headers.length
        grind
      rw [cancel, UInt64.toNat_ofNat', Nat.mod_eq_of_lt (by omega)]
    rw [found, Option.getD_some]
    dsimp only
    rw [count, List.take_left']
    rfl

end Parts

section Headers

structure LooksUpgraded (lines : List Bytes) (expected : Bytes) : Prop where
  upgrade : iequals ((header lines "upgrade").getD []) (bytes "websocket") = true
  connection : icontains ((header lines "connection").getD []) (bytes "upgrade") = true
  accept : (header lines "sec-websocket-accept").getD [] = expected

theorem judgeHeaders_ok (headers expected : Bytes) :
    judgeHeaders headers expected = .ok ↔ LooksUpgraded (linesOf headers) expected := by
  unfold judgeHeaders
  rw [findHeader_lines, findHeader_lines, findHeader_lines]
  constructor
  · intro judged
    split at judged
    · contradiction
    rename_i upgrade
    split at judged
    · contradiction
    rename_i connection
    split at judged
    · contradiction
    rename_i accept
    exact ⟨by simpa using upgrade, by simpa using connection, not_not.mp accept⟩
  · rintro ⟨upgrade, connection, accept⟩
    rw [if_neg (by simp [upgrade]), if_neg (by simp [connection]), if_neg (not_not.mpr accept)]

theorem looksUpgraded_crlf (text expected : Bytes) :
    LooksUpgraded (linesOf (crlf ++ text)) expected ↔ LooksUpgraded (linesOf text) expected := by
  rw [linesOf_crlf]
  constructor
  · rintro ⟨upgrade, connection, accept⟩
    exact ⟨upgrade, connection, accept⟩
  · rintro ⟨upgrade, connection, accept⟩
    exact ⟨upgrade, connection, accept⟩

def bare (token : Bytes) : Bytes := (token.dropWhile isBlank).rdropWhile isBlank

/-- One of the tokens between commas is `upgrade`, upper and lower case alike. -/
def ListsUpgrade (value : Bytes) : Prop :=
  ∃ token ∈ value.splitOn (ascii ','), iequals (bare token) (bytes "upgrade") = true

structure Upgrades (fields : List Bytes) (expected : Bytes) : Prop where
  upgrade : ∃ value, header fields "upgrade" = some value ∧
    iequals value (bytes "websocket") = true
  connection : ∃ value, header fields "connection" = some value ∧ ListsUpgrade value
  accept : header fields "sec-websocket-accept" = some expected

theorem iequals_length {a b : Bytes} (same : iequals a b = true) : a.length = b.length := by
  simp only [iequals, Bool.and_eq_true, beq_iff_eq] at same
  exact same.1

theorem icontains_of_infix {haystack found needle : Bytes} (inside : found <:+: haystack)
    (same : iequals found needle = true) : icontains haystack needle = true := by
  obtain ⟨front, back, rfl⟩ := inside
  have length := iequals_length same
  unfold icontains
  by_cases empty : needle.isEmpty = true
  · simp [empty]
  · have long : ¬ (front ++ found ++ back).length < needle.length := by
      simp only [List.length_append]
      omega
    have some_ : ¬ (needle.isEmpty || (front ++ found ++ back).length < needle.length) = true := by
      rw [Bool.or_eq_true, decide_eq_true_eq]
      exact not_or.mpr ⟨empty, long⟩
    rw [if_neg some_, List.any_eq_true]
    refine ⟨front.length, ?_, ?_⟩
    · simp only [List.mem_range, List.length_append]
      omega
    · rw [List.append_assoc, List.drop_left, ← length, List.take_left]
      exact same

theorem infix_intercalate (separator : Bytes) (parts : List Bytes) :
    ∀ part ∈ parts, part <:+: separator.intercalate parts := by
  induction parts with
  | nil => simp
  | cons part rest ih =>
    cases rest with
    | nil => simp
    | cons next rest =>
      rw [List.intercalate_cons_cons]
      refine List.forall_mem_cons.mpr ⟨?_, ?_⟩
      · rw [List.append_assoc]
        exact (List.prefix_append part _).isInfix
      · intro other member
        exact (ih other member).trans (List.suffix_append _ _).isInfix

theorem ListsUpgrade.contains {value : Bytes} (lists : ListsUpgrade value) :
    icontains value (bytes "upgrade") = true := by
  obtain ⟨token, member, same⟩ := lists
  refine icontains_of_infix ?_ same
  have whole := infix_intercalate [ascii ','] _ token member
  rw [List.intercalate_splitOn] at whole
  exact ((List.rdropWhile_prefix _ _).isInfix.trans (List.dropWhile_suffix _).isInfix).trans whole

/-- Why header lines that pass the checks do not upgrade the connection. -/
inductive Flaw (lines : List Bytes) (expected : Bytes) : Prop
  | folded {line : Bytes} (member : line ∈ lines) (folded : continues line = true)
      (unlike : ¬ LooksUpgraded (fieldLines lines) expected)
  | lookalike {value : Bytes} (found : header (fieldLines lines) "connection" = some value)
      (unlisted : ¬ ListsUpgrade value)
  | unproven (missing : header (fieldLines lines) "sec-websocket-accept" = none)

theorem exists_of_getD {found : Option Bytes} {check : Bytes → Prop} (held : check (found.getD []))
    (empty : ¬ check []) : ∃ value, found = some value ∧ check value := by
  cases found with
  | none => exact absurd held empty
  | some value => exact ⟨value, rfl, held⟩

theorem upgrades_iff {lines : List Bytes} {expected : Bytes}
    (looks : LooksUpgraded lines expected) :
    Upgrades (fieldLines lines) expected ↔ ¬ Flaw lines expected := by
  constructor
  · rintro ⟨⟨upgrade, found, same⟩, ⟨connection, found', lists⟩, accept⟩ flaw
    cases flaw with
    | folded member folded unlike =>
      refine unlike ⟨?_, ?_, ?_⟩
      · rwa [found]
      · rw [found']
        exact lists.contains
      · rw [accept]
        rfl
    | lookalike other unlisted =>
      rw [found', Option.some.injEq] at other
      exact unlisted (other ▸ lists)
    | unproven missing =>
      rw [accept] at missing
      contradiction
  · intro sound
    have unfolded : LooksUpgraded (fieldLines lines) expected := by
      by_cases plain : ∀ line ∈ lines, continues line = false
      · rwa [fieldLines_plain plain]
      · simp only [not_forall, Bool.not_eq_false] at plain
        obtain ⟨line, member, folded⟩ := plain
        by_contra unlike
        exact sound (.folded member folded unlike)
    obtain ⟨upgrade, connection, accept⟩ := unfolded
    refine ⟨exists_of_getD upgrade (by decide), ?_, ?_⟩
    · obtain ⟨value, found, _⟩ : ∃ value, header (fieldLines lines) "connection" = some value ∧
          icontains value (bytes "upgrade") = true := exists_of_getD connection (by decide)
      refine ⟨value, found, ?_⟩
      by_contra unlisted
      exact sound (.lookalike found unlisted)
    · cases found : header (fieldLines lines) "sec-websocket-accept" with
      | none => exact absurd (.unproven found) sound
      | some value =>
        rw [found] at accept
        rw [← accept]
        rfl

end Headers

section Strictness

def Strict (response expected : Bytes) : Prop :=
  ∃ head body statusLine lines, response.dropInfix? headerEnd = some (head, body) ∧
    linesOf head = statusLine :: lines ∧ Switches statusLine ∧
    Upgrades (fieldLines lines) expected

def ParsesStrictly (response expected : Bytes) : Prop :=
  ∀ out, ∃ status parsed, parseHandshakeResponse response expected out = some (status, parsed) ∧
    (status = .ok → Strict response expected)

def Overflows (response : Bytes) : Prop :=
  ∃ head body line headers, response.dropInfix? headerEnd = some (head, body) ∧
    ReadAs head body line headers ∧ TooLarge line

/-- A response that passes the checks and accepts no upgrade. -/
inductive Misjudged (response expected : Bytes) : Prop
  | headless {line body : Bytes} (split : response.dropInfix? headerEnd = some (line, body))
      (single : ¬ crlf <:+: line) (switches : Switches line)
      (looks : LooksUpgraded (linesOf body) expected)
  | headers {head body line block : Bytes}
      (split : response.dropInfix? headerEnd = some (head, body))
      (first : head.dropInfix? crlf = some (line, block)) (switches : Switches line)
      (looks : LooksUpgraded (linesOf block) expected) (flaw : Flaw (linesOf block) expected)

theorem exists_readAs (head body : Bytes) : ∃ line headers, ReadAs head body line headers := by
  cases first : head.dropInfix? crlf with
  | none => exact ⟨_, _, .headless ((Search.dropInfix?_eq_none _ _).mp first)⟩
  | some parts => exact ⟨_, _, .headers first⟩

theorem linesOf_single {text : Bytes} (single : ¬ crlf <:+: text) : (linesOf text).tail = [] := by
  rw [linesOf]
  split
  · rfl
  · split
    · rfl
    · rename_i found
      rw [(Search.dropInfix?_eq_none _ _).mpr single] at found
      contradiction

theorem Misjudged.accepted {response expected : Bytes} (misjudged : Misjudged response expected) :
    ∃ head body line headers, response.dropInfix? headerEnd = some (head, body) ∧
      ReadAs head body line headers ∧ Switches line ∧ LooksUpgraded (linesOf headers) expected := by
  cases misjudged with
  | headless split single switches looks =>
    exact ⟨_, _, _, _, split, .headless single, switches, (looksUpgraded_crlf _ _).mpr looks⟩
  | headers split first switches looks flaw =>
    exact ⟨_, _, _, _, split, .headers first, switches, looks⟩

theorem strict_iff {response head body line headers expected : Bytes}
    (split : response.dropInfix? headerEnd = some (head, body))
    (read : ReadAs head body line headers) (switches : Switches line)
    (looks : LooksUpgraded (linesOf headers) expected) :
    Strict response expected ↔ ¬ Misjudged response expected := by
  cases read with
  | headless single =>
    rw [looksUpgraded_crlf] at looks
    refine iff_of_false ?_ (not_not.mpr (.headless split single switches looks))
    rintro ⟨head', body', statusLine, lines, split', listed, _, upgrades⟩
    rw [split, Option.some.injEq, Prod.mk.injEq] at split'
    have none := linesOf_single single
    rw [split'.1, listed, List.tail_cons] at none
    obtain ⟨value, found, _⟩ := upgrades.upgrade
    rw [none] at found
    contradiction
  | headers first =>
    have sound := upgrades_iff looks
    constructor
    · rintro ⟨head', body', statusLine, lines, split', listed, _, upgrades⟩ misjudged
      rw [split, Option.some.injEq, Prod.mk.injEq] at split'
      rw [← split'.1, linesOf_first first, List.cons.injEq] at listed
      rw [← listed.2] at upgrades
      cases misjudged with
      | headless split'' single switches' looks' =>
        rw [split, Option.some.injEq, Prod.mk.injEq] at split''
        rw [split''.1, (Search.dropInfix?_eq_none _ _).mpr single] at first
        contradiction
      | headers split'' first'' switches' looks' flaw =>
        rw [split, Option.some.injEq, Prod.mk.injEq] at split''
        rw [← split''.1, first, Option.some.injEq, Prod.mk.injEq] at first''
        rw [← first''.2] at flaw
        exact sound.mp upgrades flaw
    · intro genuine
      refine ⟨head, body, line, _, split, linesOf_first first, switches, sound.mpr ?_⟩
      exact fun flaw => genuine (.headers split first switches looks flaw)

theorem parse_strict_iff (response : StringView) (expected : Bytes) :
    ParsesStrictly response.bytes expected ↔
      ¬ Overflows response.bytes ∧ ¬ Misjudged response.bytes expected := by
  constructor
  · intro strict
    obtain ⟨status, parsed, result, accepted⟩ := strict ⟨0, 0⟩
    constructor
    · rintro ⟨head, body, line, headers, split, read, large⟩
      rw [parse_read response.addressable split read, (judgeResponse_none _ _ _ _).mpr large] at result
      contradiction
    · intro misjudged
      obtain ⟨head, body, line, headers, split, read, switches, looks⟩ := misjudged.accepted
      obtain ⟨_, judged⟩ := (judgeResponse_ok line headers expected _).mpr
        ⟨switches, (judgeHeaders_ok headers expected).mpr looks⟩
      rw [parse_read response.addressable split read, judged, Option.some.injEq, Prod.mk.injEq] at result
      exact (strict_iff split read switches looks).mp (accepted result.1.symm) misjudged
  · rintro ⟨fits, genuine⟩ out
    cases split : response.bytes.dropInfix? headerEnd with
    | none =>
      refine ⟨.incomplete, out, ?_, nofun⟩
      rw [parseHandshakeResponse, split]
    | some parts =>
      obtain ⟨head, body⟩ := parts
      obtain ⟨line, headers, read⟩ := exists_readAs head body
      rw [parse_read response.addressable split read]
      cases judged : judgeResponse line headers expected
          { out with headerBytes := head.length + 4 } with
      | none =>
        have large := (judgeResponse_none _ _ _ _).mp judged
        exact absurd ⟨head, body, line, headers, split, read, large⟩ fits
      | some result =>
        obtain ⟨status, parsed⟩ := result
        refine ⟨status, parsed, rfl, ?_⟩
        rintro rfl
        obtain ⟨switches, passed⟩ := (judgeResponse_ok _ _ _ _).mp ⟨parsed, judged⟩
        exact (strict_iff split read switches ((judgeHeaders_ok _ _).mp passed)).mpr genuine

def lookalikeHead : Bytes :=
  bytes ("HTTP/1.1 101 Switching Protocols\r\nUpgrade: websocket\r\nConnection: no-upgrade\r\n" ++
    "Sec-WebSocket-Accept: abc")

def lookalikeResponse : Bytes := lookalikeHead ++ headerEnd

def longStatus : Bytes := bytes "HTTP/1.1 99999999999 OK" ++ headerEnd

theorem handshake_not_strict :
    ¬ ParsesStrictly lookalikeResponse (bytes "abc") ∧
      ¬ ParsesStrictly longStatus (bytes "abc") := by
  constructor
  · intro strict
    obtain ⟨status, parsed, result, accepted⟩ := strict ⟨0, 0⟩
    have judged : (parseHandshakeResponse lookalikeResponse (bytes "abc") ⟨0, 0⟩).map Prod.fst =
        some .ok := by decide +kernel
    rw [result, Option.map_some, Option.some.injEq] at judged
    obtain ⟨head, body, statusLine, lines, split, listed, _, upgrades⟩ := accepted judged
    have cut : lookalikeResponse.dropInfix? headerEnd = some (lookalikeHead, []) := by
      decide +kernel
    rw [cut, Option.some.injEq, Prod.mk.injEq] at split
    have behind : (linesOf lookalikeHead).tail = lines := by rw [split.1, listed, List.tail_cons]
    obtain ⟨value, found, lists⟩ := upgrades.connection
    have spelled : header (fieldLines (linesOf lookalikeHead).tail) "connection" =
        some (bytes "no-upgrade") := by decide +kernel
    rw [← behind, spelled, Option.some.injEq] at found
    have unlisted : ¬ ListsUpgrade (bytes "no-upgrade") := by
      unfold ListsUpgrade
      decide +kernel
    exact unlisted (found ▸ lists)
  · intro strict
    obtain ⟨status, parsed, result, _⟩ := strict ⟨0, 0⟩
    have overflow : parseHandshakeResponse longStatus (bytes "abc") ⟨0, 0⟩ = none := by
      decide +kernel
    rw [overflow] at result
    contradiction

end Strictness

end Net

end Crossbook
