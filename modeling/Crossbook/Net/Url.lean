import Crossbook.Lib.Decimal
import Crossbook.Lib.Spans
import Crossbook.Fixed

set_option autoImplicit false

namespace Crossbook

namespace Net

structure Url where
  host : Bytes
  path : Bytes
  port : UInt16
  secure : Bool
  deriving DecidableEq, Repr

inductive UrlError where
  | ok
  | badScheme
  | emptyHost
  | badPort
  deriving DecidableEq, Repr

def UrlError.toString : UrlError → String
  | ok => "ok"
  | badScheme => "bad_scheme"
  | emptyHost => "empty_host"
  | badPort => "bad_port"

def portDigits (value : UInt32) : Bytes → Option UInt32
  | [] => some value
  | c :: rest =>
    if c < ascii '0' ∨ ascii '9' < c then none
    else portDigits (value * 10 + (c - ascii '0').toUInt32) rest

def parsePort (text : Bytes) : Option UInt16 :=
  if text.isEmpty ∨ 5 < text.length then none
  else
    match portDigits 0 text with
    | none => none
    | some value => if value = 0 ∨ 65535 < value then none else some value.toUInt16

def securePrefix : Bytes := bytes "wss://"

def plainPrefix : Bytes := bytes "ws://"

def splitScheme (text : Bytes) : Option (Bool × Bytes) :=
  if text.take securePrefix.length = securePrefix then some (true, text.drop securePrefix.length)
  else if text.take plainPrefix.length = plainPrefix then some (false, text.drop plainPrefix.length)
  else none

def defaultPort (secure : Bool) : UInt16 := if secure then 443 else 80

def splitAuthority (authority : Bytes) (port : UInt16) : Except UrlError (Bytes × UInt16) :=
  if authority.head? = some (ascii '[') then
    -- The colons inside an address literal are not the port's.
    match Spans.splitFirst (ascii ']') authority with
    | none => .error .emptyHost
    | some (inner, []) => .ok (inner ++ [ascii ']'], port)
    | some (inner, c :: digits) =>
      if c ≠ ascii ':' then .error .badPort
      else
        match parsePort digits with
        | none => .error .badPort
        | some port => .ok (inner ++ [ascii ']'], port)
  else
    match Spans.splitLast (ascii ':') authority with
    | none => .ok (authority, port)
    | some (host, digits) =>
      match parsePort digits with
      | none => .error .badPort
      | some port => .ok (host, port)

def splitPath (rest : Bytes) : Bytes × Bytes :=
  match Spans.splitFirst (ascii '/') rest with
  | none => (rest, [ascii '/'])
  | some (authority, path) => (authority, ascii '/' :: path)

/-- The address, once its authority has been read. -/
def finishUrl (secure : Bool) (path : Bytes) (out : Url) :
    Except UrlError (Bytes × UInt16) → UrlError × Url
  | .error error => (error, out)
  | .ok (host, port) =>
    if host.isEmpty then (.emptyHost, out)
    else (.ok, { host := host, path := path, port := port, secure := secure })

def parseUrl (text : Bytes) (out : Url) : UrlError × Url :=
  match splitScheme text with
  | none => (.badScheme, out)
  | some (secure, rest) =>
    let (authority, path) := splitPath rest
    finishUrl secure path out (splitAuthority authority (defaultPort secure))

section Port

structure PortText (text : Bytes) (port : UInt16) : Prop where
  number : Decimal.Number text
  short : text.length ≤ 5
  value : port.toNat = Decimal.value text
  positive : 0 < port.toNat

theorem portDigits_eq (value : UInt32) (text : Bytes) (bound : Nat)
    (small : value.toNat < bound) (room : bound * 10 ^ text.length ≤ 2 ^ 32) (result : UInt32) :
    portDigits value text = some result ↔
      (∀ c ∈ text, Decimal.isDigit c = true) ∧
        result.toNat = Decimal.valueFrom value.toNat text := by
  induction text generalizing value bound with
  | nil =>
    rw [portDigits, Option.some.injEq, ← UInt32.toNat_inj, eq_comm]
    simp [Decimal.valueFrom]
  | cons c rest ih =>
    rw [portDigits]
    have outside : (c < ascii '0' ∨ ascii '9' < c) ↔ ¬ Decimal.isDigit c = true := by
      simp only [Decimal.isDigit, Bool.and_eq_true, decide_eq_true_eq, not_and_or, UInt8.not_le]
      rfl
    by_cases digit : Decimal.isDigit c = true
    · have low := Decimal.digitValue_lt digit
      have spelled : (c - ascii '0').toUInt32.toNat = Decimal.digitValue c := UInt8.toNat_toUInt32 _
      rw [List.length_cons, pow_succ] at room
      have grown : bound * 10 * 10 ^ rest.length ≤ 2 ^ 32 := by
        calc bound * 10 * 10 ^ rest.length = bound * (10 ^ rest.length * 10) := by ring
          _ ≤ 2 ^ 32 := room
      have positive : 1 ≤ 10 ^ rest.length := Nat.one_le_pow _ _ (by decide)
      have fits : bound * 10 ≤ 2 ^ 32 := (Nat.le_mul_of_pos_right _ positive).trans grown
      have next : (value * 10 + (c - ascii '0').toUInt32).toNat =
          value.toNat * 10 + Decimal.digitValue c := by
        have inside : value.toNat * 10 + Decimal.digitValue c < 2 ^ 32 := by omega
        rw [UInt32.toNat_add, UInt32.toNat_mul, spelled]
        change (value.toNat * 10 % 2 ^ 32 + _) % 2 ^ 32 = _
        rw [Nat.mod_eq_of_lt (a := value.toNat * 10) (by omega), Nat.mod_eq_of_lt inside]
      rw [if_neg (by rw [outside]; simpa using digit),
        ih _ (bound * 10) (by rw [next]; omega) grown, next, Decimal.valueFrom_cons]
      simp only [List.forall_mem_cons, digit, true_and]
    · rw [if_pos (outside.mpr digit)]
      refine iff_of_false (Option.some_ne_none result).symm ?_
      rintro ⟨all, -⟩
      exact digit (all c (by simp))

theorem parsePort_iff (text : Bytes) (port : UInt16) :
    parsePort text = some port ↔ PortText text port := by
  unfold parsePort
  by_cases refused : text.isEmpty ∨ 5 < text.length
  · rw [if_pos refused]
    refine iff_of_false (Option.some_ne_none port).symm ?_
    intro spelled
    rcases refused with empty | long
    · exact spelled.number.some_ (by simpa using empty)
    · exact absurd spelled.short (by omega)
  · rw [if_neg refused]
    obtain ⟨some_, short⟩ := not_or.mp refused
    have room : 1 * 10 ^ text.length ≤ 2 ^ 32 := by
      calc 1 * 10 ^ text.length = 10 ^ text.length := one_mul _
        _ ≤ 10 ^ 5 := Nat.pow_le_pow_right (by decide) (by omega)
        _ ≤ 2 ^ 32 := by decide
    have read := portDigits_eq 0 text 1 (by decide) room
    have number (digits : ∀ c ∈ text, Decimal.isDigit c = true) : Decimal.Number text :=
      ⟨by simpa using some_, digits⟩
    cases found : portDigits 0 text with
    | none =>
      refine iff_of_false (Option.some_ne_none port).symm ?_
      intro spelled
      have inside := port.toNat_lt
      have value : (UInt32.ofNat port.toNat).toNat = port.toNat := by
        rw [UInt32.toNat_ofNat']
        exact Nat.mod_eq_of_lt (by omega)
      have same := (read (UInt32.ofNat port.toNat)).mpr
        ⟨spelled.number.digits, value.trans spelled.value⟩
      rw [found] at same
      contradiction
    | some value =>
      obtain ⟨digits, same⟩ := (read value).mp found
      have same : value.toNat = Decimal.value text := same
      have zero : value = 0 ↔ value.toNat = 0 := by rw [← UInt32.toNat_inj]; rfl
      have large : 65535 < value ↔ 65535 < value.toNat := UInt32.lt_iff_toNat_lt
      dsimp only
      by_cases out : value = 0 ∨ 65535 < value
      · rw [if_pos out]
        refine iff_of_false (Option.some_ne_none port).symm ?_
        intro spelled
        have inside := port.toNat_lt
        have spelledValue := spelled.value
        have positive := spelled.positive
        rw [zero, large] at out
        omega
      · rw [if_neg out]
        rw [zero, large] at out
        have kept : value.toUInt16.toNat = value.toNat := by
          rw [UInt32.toNat_toUInt16]
          exact Nat.mod_eq_of_lt (by omega)
        rw [Option.some.injEq]
        constructor
        · rintro rfl
          exact ⟨number digits, by omega, kept.trans same, by omega⟩
        · intro spelled
          have spelledValue := spelled.value
          rw [← UInt16.toNat_inj]
          omega

end Port

section Authority

def Literal (host : Bytes) : Prop :=
  ∃ inner, host = ascii '[' :: inner ++ [ascii ']'] ∧ ascii ']' ∉ inner

def HostText (host : Bytes) : Prop := Literal host ∨ host.head? ≠ some (ascii '[')

inductive AuthorityText (standard : UInt16) : Bytes → Bytes → UInt16 → Prop
  | literal {host : Bytes} (literal : Literal host) : AuthorityText standard host host standard
  | name {host : Bytes} (name : host.head? ≠ some (ascii '[')) (bare : ascii ':' ∉ host) :
    AuthorityText standard host host standard
  | ported {host digits : Bytes} {port : UInt16} (text : HostText host)
    (spelled : PortText digits port) :
    AuthorityText standard (host ++ ascii ':' :: digits) host port

theorem colon_not_digit {digits : Bytes} (number : Decimal.Number digits) :
    ascii ':' ∉ digits :=
  fun member => absurd (number.digits _ member) (by decide)

theorem Literal.opens {host : Bytes} (literal : Literal host) (tail : Bytes) :
    (host ++ tail).head? = some (ascii '[') := by
  obtain ⟨inner, rfl, -⟩ := literal
  rfl

theorem Literal.splits {host : Bytes} (literal : Literal host) (tail : Bytes) :
    ∃ inner, host = inner ++ [ascii ']'] ∧
      Spans.splitFirst (ascii ']') (host ++ tail) = some (inner, tail) := by
  obtain ⟨inner, rfl, absent⟩ := literal
  refine ⟨ascii '[' :: inner, rfl, ?_⟩
  rw [List.append_assoc]
  refine Spans.splitFirst_append ?_ tail
  rw [List.mem_cons, not_or]
  exact ⟨by decide, absent⟩

theorem literal_of_split {authority inner tail : Bytes}
    (opens : authority.head? = some (ascii '['))
    (split : Spans.splitFirst (ascii ']') authority = some (inner, tail)) :
    Literal (inner ++ [ascii ']']) ∧ authority = (inner ++ [ascii ']']) ++ tail := by
  obtain ⟨rfl, absent⟩ := (Spans.splitFirst_eq_some _ _ _ _).mp split
  refine ⟨?_, by rw [List.append_assoc]; rfl⟩
  cases inner with
  | nil => simp [ascii] at opens
  | cons first inner =>
    obtain rfl : first = ascii '[' := by simpa using opens
    exact ⟨inner, rfl, fun member => absent (List.mem_cons_of_mem _ member)⟩

theorem splitAuthority_iff (authority host : Bytes) (standard port : UInt16) :
    splitAuthority authority standard = .ok (host, port) ↔
      AuthorityText standard authority host port := by
  unfold splitAuthority
  by_cases opens : authority.head? = some (ascii '[')
  · rw [if_pos opens]
    constructor
    · intro parsed
      split at parsed
      · contradiction
      · rename_i inner split
        obtain ⟨literal, whole⟩ := literal_of_split opens split
        obtain ⟨rfl, rfl⟩ := Prod.mk.inj (Except.ok.inj parsed)
        rw [List.append_nil] at whole
        rw [whole]
        exact .literal literal
      · rename_i inner c digits split
        obtain ⟨literal, whole⟩ := literal_of_split opens split
        split at parsed
        · contradiction
        rename_i colon
        rw [not_not] at colon
        split at parsed
        · contradiction
        rename_i found
        obtain ⟨rfl, rfl⟩ := Prod.mk.inj (Except.ok.inj parsed)
        rw [whole, colon]
        exact .ported (.inl literal) ((parsePort_iff _ _).mp found)
    · intro text
      cases text with
      | literal literal =>
        obtain ⟨inner, rfl, split⟩ := literal.splits []
        rw [List.append_nil] at split
        rw [split]
      | name name => exact absurd opens name
      | @ported host digits port text spelled =>
        have literal : Literal host := by
          refine text.resolve_right (not_not.mpr ?_)
          cases host with
          | nil => simp [ascii] at opens
          | cons first rest => exact opens
        obtain ⟨inner, rfl, split⟩ := literal.splits (ascii ':' :: digits)
        rw [split]
        simp only [ne_eq, not_true_eq_false, if_false, (parsePort_iff _ _).mpr spelled]
  · rw [if_neg opens]
    constructor
    · intro parsed
      split at parsed
      · rename_i absent
        obtain ⟨rfl, rfl⟩ := Prod.mk.inj (Except.ok.inj parsed)
        exact .name opens ((Spans.splitLast_eq_none _ _).mp absent)
      · rename_i front digits split
        obtain ⟨whole, -⟩ := (Spans.splitLast_eq_some _ _ _ _).mp split
        split at parsed
        · contradiction
        rename_i found
        obtain ⟨rfl, rfl⟩ := Prod.mk.inj (Except.ok.inj parsed)
        rw [whole] at opens ⊢
        refine .ported (.inr ?_) ((parsePort_iff _ _).mp found)
        cases front with
        | nil => simp
        | cons first rest => exact opens
    · intro text
      cases text with
      | literal literal =>
        have opened := literal.opens []
        rw [List.append_nil] at opened
        exact absurd opened opens
      | name name bare => rw [(Spans.splitLast_eq_none _ _).mpr bare]
      | ported text spelled =>
        rw [(Spans.splitLast_eq_some _ _ _ _).mpr ⟨rfl, colon_not_digit spelled.number⟩]
        simp only [(parsePort_iff _ _).mpr spelled]

end Authority

section Text

def PathText (tail path : Bytes) : Prop :=
  tail = [] ∧ path = [ascii '/'] ∨ tail = path ∧ path.head? = some (ascii '/')

def schemePrefix (secure : Bool) : Bytes := if secure then securePrefix else plainPrefix

def UrlText (text : Bytes) (url : Url) : Prop :=
  ∃ authority tail, text = schemePrefix url.secure ++ authority ++ tail ∧
    ascii '/' ∉ authority ∧ PathText tail url.path ∧ url.host ≠ [] ∧
    AuthorityText (defaultPort url.secure) authority url.host url.port

theorem splitScheme_iff (text rest : Bytes) (secure : Bool) :
    splitScheme text = some (secure, rest) ↔ text = schemePrefix secure ++ rest := by
  have front (start : Bytes) : text.take start.length = start ↔ start <+: text :=
    eq_comm.trans List.prefix_iff_eq_take.symm
  unfold splitScheme
  by_cases wss : text.take securePrefix.length = securePrefix
  · rw [if_pos wss]
    obtain ⟨behind, rfl⟩ := (front _).mp wss
    cases secure with
    | true => simp [schemePrefix, eq_comm]
    | false =>
      refine iff_of_false (by simp) ?_
      intro same
      have first := congrArg (List.take 3) same
      simp only [schemePrefix] at first
      revert first
      simp [securePrefix, plainPrefix, bytes]
  · rw [if_neg wss]
    by_cases ws : text.take plainPrefix.length = plainPrefix
    · rw [if_pos ws]
      obtain ⟨behind, rfl⟩ := (front _).mp ws
      cases secure with
      | false => simp [schemePrefix, eq_comm]
      | true =>
        refine iff_of_false (by simp) ?_
        intro same
        exact wss ((front _).mpr ⟨rest, same.symm⟩)
    · rw [if_neg ws]
      refine iff_of_false (by simp) ?_
      intro same
      cases secure with
      | true => exact wss ((front _).mpr ⟨rest, same.symm⟩)
      | false => exact ws ((front _).mpr ⟨rest, same.symm⟩)

theorem splitPath_iff (rest authority path : Bytes) :
    splitPath rest = (authority, path) ↔
      ∃ tail, rest = authority ++ tail ∧ ascii '/' ∉ authority ∧ PathText tail path := by
  unfold splitPath
  cases split : Spans.splitFirst (ascii '/') rest with
  | none =>
    have absent := (Spans.splitFirst_eq_none _ _).mp split
    simp only [Prod.mk.injEq]
    constructor
    · rintro ⟨rfl, rfl⟩
      exact ⟨[], by simp, absent, .inl ⟨rfl, rfl⟩⟩
    · rintro ⟨tail, rfl, -, ⟨rfl, rfl⟩ | ⟨rfl, slash⟩⟩
      · simp
      · cases tail with
        | nil => simp at slash
        | cons first tail =>
          obtain rfl : first = ascii '/' := by simpa using slash
          simp at absent
  | some parts =>
    obtain ⟨front, back⟩ := parts
    obtain ⟨rfl, absent⟩ := (Spans.splitFirst_eq_some _ _ _ _).mp split
    simp only [Prod.mk.injEq]
    constructor
    · rintro ⟨rfl, rfl⟩
      exact ⟨_, rfl, absent, .inr ⟨rfl, rfl⟩⟩
    · rintro ⟨tail, same, bare, ⟨rfl, rfl⟩ | ⟨rfl, slash⟩⟩
      · rw [List.append_nil] at same
        exact absurd (same ▸ List.mem_append_right front List.mem_cons_self) bare
      · cases tail with
        | nil => simp at slash
        | cons first tail =>
          obtain rfl : first = ascii '/' := by simpa using slash
          have again := Spans.splitFirst_append bare tail
          rw [← same, split] at again
          obtain ⟨rfl, rfl⟩ := Prod.mk.inj (Option.some.inj again)
          exact ⟨rfl, rfl⟩

theorem splitAuthority_error {authority : Bytes} {standard : UInt16} {error : UrlError}
    (failed : splitAuthority authority standard = .error error) :
    error = .emptyHost ∧ authority.head? = some (ascii '[') ∧ ascii ']' ∉ authority ∨
      error = .badPort ∧ ¬ (authority.head? = some (ascii '[') ∧ ascii ']' ∉ authority) := by
  -- A literal that is not closed leaves no host; every other failure is the port's.
  unfold splitAuthority at failed
  by_cases opens : authority.head? = some (ascii '[')
  · rw [if_pos opens] at failed
    cases split : Spans.splitFirst (ascii ']') authority with
    | none =>
      rw [split] at failed
      exact .inl ⟨(Except.error.inj failed).symm, opens, (Spans.splitFirst_eq_none _ _).mp split⟩
    | some parts =>
      obtain ⟨inner, tail⟩ := parts
      obtain ⟨whole, -⟩ := (Spans.splitFirst_eq_some _ _ _ _).mp split
      have closed : ¬ (authority.head? = some (ascii '[') ∧ ascii ']' ∉ authority) :=
        fun both => both.2 (whole ▸ List.mem_append_right inner List.mem_cons_self)
      rw [split] at failed
      cases tail with
      | nil => simp at failed
      | cons c digits =>
        simp only at failed
        split at failed
        · exact .inr ⟨(Except.error.inj failed).symm, closed⟩
        · split at failed
          · exact .inr ⟨(Except.error.inj failed).symm, closed⟩
          · contradiction
  · rw [if_neg opens] at failed
    refine .inr ⟨?_, fun both => opens both.1⟩
    split at failed
    · contradiction
    · split at failed
      · exact (Except.error.inj failed).symm
      · contradiction

theorem parseUrl_cut (secure : Bool) {authority tail path : Bytes} (bare : ascii '/' ∉ authority)
    (spells : PathText tail path) (out : Url) :
    parseUrl (schemePrefix secure ++ authority ++ tail) out =
      finishUrl secure path out (splitAuthority authority (defaultPort secure)) := by
  have scheme : splitScheme (schemePrefix secure ++ authority ++ tail) =
      some (secure, authority ++ tail) :=
    (splitScheme_iff _ _ _).mpr (List.append_assoc _ _ _)
  have cut : splitPath (authority ++ tail) = (authority, path) :=
    (splitPath_iff _ _ _).mpr ⟨tail, rfl, bare, spells⟩
  simp only [parseUrl, scheme, cut]

theorem exists_cut {text rest : Bytes} {secure : Bool}
    (scheme : splitScheme text = some (secure, rest)) :
    ∃ authority tail path, text = schemePrefix secure ++ authority ++ tail ∧
      ascii '/' ∉ authority ∧ PathText tail path := by
  obtain ⟨tail, whole, bare, spells⟩ :=
    (splitPath_iff rest (splitPath rest).1 (splitPath rest).2).mp rfl
  refine ⟨(splitPath rest).1, tail, (splitPath rest).2, ?_, bare, spells⟩
  rw [(splitScheme_iff _ _ _).mp scheme, List.append_assoc, ← whole]

theorem parseUrl_iff (text : Bytes) (out url : Url) :
    parseUrl text out = (.ok, url) ↔ UrlText text url := by
  constructor
  · intro parsed
    cases scheme : splitScheme text with
    | none => simp [parseUrl, scheme] at parsed
    | some parts =>
      obtain ⟨authority, tail, path, rfl, bare, spells⟩ := exists_cut scheme
      rw [parseUrl_cut _ bare spells] at parsed
      cases found : splitAuthority authority (defaultPort parts.1) with
      | error error =>
        rw [found] at parsed
        obtain rfl : error = .ok := congrArg Prod.fst parsed
        rcases splitAuthority_error found with ⟨wrong, -⟩ | ⟨wrong, -⟩ <;> contradiction
      | ok named =>
        rw [found] at parsed
        simp only [finishUrl] at parsed
        split at parsed
        · simp at parsed
        · rename_i some_
          obtain ⟨-, rfl⟩ := Prod.mk.inj parsed
          exact ⟨authority, tail, rfl, bare, spells, by simpa using some_,
            (splitAuthority_iff _ _ _ _).mp found⟩
  · rintro ⟨authority, tail, rfl, bare, spells, some_, named⟩
    rw [parseUrl_cut _ bare spells, (splitAuthority_iff _ _ _ _).mpr named]
    simp [finishUrl, some_]

/-- A text whose authority has no host: nothing, a port alone, or a literal that is not closed. -/
def Hostless (text : Bytes) : Prop :=
  ∃ secure authority tail path, text = schemePrefix secure ++ authority ++ tail ∧
    ascii '/' ∉ authority ∧ PathText tail path ∧
    ((∃ port, AuthorityText (defaultPort secure) authority [] port) ∨
      authority.head? = some (ascii '[') ∧ ascii ']' ∉ authority)

theorem parseUrl_emptyHost_iff (text : Bytes) (out : Url) :
    (parseUrl text out).1 = .emptyHost ↔ Hostless text := by
  constructor
  · intro failed
    cases scheme : splitScheme text with
    | none => simp [parseUrl, scheme] at failed
    | some parts =>
      obtain ⟨authority, tail, path, rfl, bare, spells⟩ := exists_cut scheme
      refine ⟨parts.1, authority, tail, path, rfl, bare, spells, ?_⟩
      rw [parseUrl_cut _ bare spells] at failed
      cases found : splitAuthority authority (defaultPort parts.1) with
      | error error =>
        rw [found] at failed
        obtain rfl : error = .emptyHost := failed
        rcases splitAuthority_error found with ⟨-, unclosed⟩ | ⟨wrong, -⟩
        · exact .inr unclosed
        · contradiction
      | ok named =>
        obtain ⟨host, port⟩ := named
        rw [found] at failed
        simp only [finishUrl] at failed
        split at failed
        · rename_i empty
          obtain rfl : host = [] := by simpa using empty
          exact .inl ⟨port, (splitAuthority_iff _ _ _ _).mp found⟩
        · simp at failed
  · rintro ⟨secure, authority, tail, path, rfl, bare, spells, ⟨port, named⟩ | ⟨opens, unclosed⟩⟩
    · rw [parseUrl_cut _ bare spells, (splitAuthority_iff _ _ _ _).mpr named]
      rfl
    · have failed : splitAuthority authority (defaultPort secure) = .error .emptyHost := by
        rw [splitAuthority, if_pos opens, (Spans.splitFirst_eq_none _ _).mpr unclosed]
      rw [parseUrl_cut _ bare spells, failed]
      rfl

theorem parseUrl_badScheme_iff (text : Bytes) (out : Url) :
    (parseUrl text out).1 = .badScheme ↔ ∀ secure, ¬ schemePrefix secure <+: text := by
  cases scheme : splitScheme text with
  | none =>
    refine iff_of_true (by simp [parseUrl, scheme]) ?_
    rintro secure ⟨rest, same⟩
    rw [(splitScheme_iff _ _ _).mpr same.symm] at scheme
    contradiction
  | some parts =>
    obtain ⟨authority, tail, path, rfl, bare, spells⟩ := exists_cut scheme
    refine iff_of_false ?_ ?_
    · rw [parseUrl_cut _ bare spells]
      cases found : splitAuthority authority (defaultPort parts.1) with
      | error error =>
        rcases splitAuthority_error found with ⟨rfl, -⟩ | ⟨rfl, -⟩ <;> simp [finishUrl]
      | ok named =>
        simp only [finishUrl]
        split <;> simp
    · intro none
      exact none parts.1 ⟨authority ++ tail, (List.append_assoc _ _ _).symm⟩

theorem parseUrl_keeps (text : Bytes) (out : Url) (failed : (parseUrl text out).1 ≠ .ok) :
    (parseUrl text out).2 = out := by
  cases scheme : splitScheme text with
  | none => simp [parseUrl, scheme]
  | some parts =>
    obtain ⟨authority, tail, path, rfl, bare, spells⟩ := exists_cut scheme
    rw [parseUrl_cut _ bare spells] at failed ⊢
    cases found : splitAuthority authority (defaultPort parts.1) with
    | error error => rfl
    | ok named =>
      rw [found] at failed
      simp only [finishUrl] at failed ⊢
      split
      · rfl
      · rename_i some_
        rw [if_neg some_] at failed
        simp at failed

end Text

/-- An address is read exactly where the text spells one; a missing scheme and a missing host are
told from each other and from a bad port; and a text that is refused changes nothing. -/
theorem parse_url_exact (text : Bytes) (out : Url) :
    (∀ url, parseUrl text out = (.ok, url) ↔ UrlText text url) ∧
      ((parseUrl text out).1 = .badScheme ↔ ∀ secure, ¬ schemePrefix secure <+: text) ∧
      ((parseUrl text out).1 = .emptyHost ↔ Hostless text) ∧
      ((parseUrl text out).1 ≠ .ok → (parseUrl text out).2 = out) :=
  ⟨parseUrl_iff text out, parseUrl_badScheme_iff text out, parseUrl_emptyHost_iff text out,
    parseUrl_keeps text out⟩

section Render

structure Url.Valid (url : Url) : Prop where
  host : HostText url.host
  named : url.host ≠ []
  bare : ascii '/' ∉ url.host
  path : url.path.head? = some (ascii '/')
  port : 0 < url.port.toNat

def Url.render (url : Url) : Bytes :=
  schemePrefix url.secure ++ (url.host ++ ascii ':' :: Decimal.print url.port.toNat) ++ url.path

theorem length_print {n : Nat} (width : Nat) (small : n < 10 ^ width) (some_ : 0 < width) :
    (Decimal.print n).length ≤ width := by
  fun_induction Decimal.print n generalizing width with
  | case1 n tiny => exact some_
  | case2 n large ih =>
    obtain ⟨shorter, rfl⟩ := Nat.exists_eq_add_of_lt some_
    simp only [Nat.zero_add] at small ⊢
    rw [pow_succ] at small
    have less : n / 10 < 10 ^ shorter := by omega
    have positive : 0 < shorter := by
      rcases Nat.eq_zero_or_pos shorter with rfl | positive
      · omega
      · exact positive
    have step := ih shorter less positive
    rw [List.length_append, List.length_singleton]
    omega

theorem portText_print {port : UInt16} (positive : 0 < port.toNat) :
    PortText (Decimal.print port.toNat) port where
  number := Decimal.print_number _
  short := length_print 5 (port.toNat_lt.trans (by decide)) (by decide)
  value := (Decimal.value_print _).symm
  positive := positive

theorem slash_not_digit {digits : Bytes} (number : Decimal.Number digits) : ascii '/' ∉ digits :=
  fun member => absurd (number.digits _ member) (by decide)

theorem urlText_valid {text : Bytes} {url : Url} (spelled : UrlText text url) : url.Valid := by
  obtain ⟨authority, tail, -, bare, spells, named, text⟩ := spelled
  have path : url.path.head? = some (ascii '/') := by
    rcases spells with ⟨-, root⟩ | ⟨-, slash⟩
    · rw [root]
      rfl
    · exact slash
  have standard : 0 < (defaultPort url.secure).toNat := by
    unfold defaultPort
    split <;> decide
  revert text
  generalize hostIs : url.host = host
  generalize portIs : url.port = port
  intro text
  cases text with
  | literal literal =>
    exact ⟨.inl (hostIs ▸ literal), named, hostIs ▸ bare, path, portIs ▸ standard⟩
  | name name _ => exact ⟨.inr (hostIs ▸ name), named, hostIs ▸ bare, path, portIs ▸ standard⟩
  | ported text spelled =>
    exact ⟨hostIs ▸ text, named, fun member => bare (List.mem_append_left _ (hostIs ▸ member)), path,
      portIs ▸ spelled.positive⟩

end Render

/-- Every valid address is read back from its text, and what is read is valid. -/
theorem url_round_trip (url out : Url) :
    (url.Valid → parseUrl url.render out = (.ok, url)) ∧
      ∀ text, parseUrl text out = (.ok, url) → url.Valid ∧ parseUrl url.render out = (.ok, url) := by
  have back (valid : url.Valid) : parseUrl url.render out = (.ok, url) := by
    have spelled := portText_print valid.port
    refine (parseUrl_iff _ _ _).mpr ⟨_, _, rfl, ?_, .inr ⟨rfl, valid.path⟩, valid.named,
      .ported valid.host spelled⟩
    rw [List.mem_append, List.mem_cons, not_or, not_or]
    exact ⟨valid.bare, by decide, slash_not_digit spelled.number⟩
  refine ⟨back, fun text parsed => ?_⟩
  have valid := urlText_valid ((parseUrl_iff _ _ _).mp parsed)
  exact ⟨valid, back valid⟩

theorem url_round_trip_kraken :
    parseUrl (Url.render ⟨bytes "ws.kraken.com", bytes "/v2", 443, true⟩) ⟨[], [], 0, false⟩ =
      (.ok, ⟨bytes "ws.kraken.com", bytes "/v2", 443, true⟩) :=
  (url_round_trip ⟨bytes "ws.kraken.com", bytes "/v2", 443, true⟩ ⟨[], [], 0, false⟩).1
    { host := .inr (by decide +kernel)
      named := by decide +kernel
      bare := by decide +kernel
      path := by decide +kernel
      port := by decide }

end Net

end Crossbook
