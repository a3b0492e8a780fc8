import Crossbook.Json.Scan

set_option autoImplicit false

namespace Crossbook

namespace Json

def Blank (w : Bytes) : Prop := ∀ c ∈ w, isSpace c = true

inductive StringItems : Bytes → Prop
  | nil : StringItems []
  | plain {c : UInt8} {rest : Bytes} (notQuote : c ≠ ascii '"') (notEscape : c ≠ ascii '\\')
      (later : StringItems rest) : StringItems (c :: rest)
  | escape (c : UInt8) {rest : Bytes} (later : StringItems rest) :
      StringItems (ascii '\\' :: c :: rest)

def StringText (t : Bytes) : Prop :=
  ∃ items, StringItems items ∧ t = ascii '"' :: (items ++ [ascii '"'])

def Digits (t : Bytes) : Prop := t ≠ [] ∧ ∀ c ∈ t, isDigit c = true

def IntegerText (t : Bytes) : Prop := t = [ascii '0'] ∨ Digits t ∧ t.head? ≠ some (ascii '0')

def FractionText (t : Bytes) : Prop := t = [] ∨ ∃ digits, Digits digits ∧ t = ascii '.' :: digits

def SignText (t : Bytes) : Prop := t = [] ∨ t = [ascii '+'] ∨ t = [ascii '-']

def ExponentText (t : Bytes) : Prop :=
  t = [] ∨ ∃ mark sign digits, (mark = ascii 'e' ∨ mark = ascii 'E') ∧ SignText sign ∧
    Digits digits ∧ t = mark :: (sign ++ digits)

def NumberText (t : Bytes) : Prop :=
  ∃ minus integer fraction exponent, (minus = [] ∨ minus = [ascii '-']) ∧ IntegerText integer ∧
    FractionText fraction ∧ ExponentText exponent ∧ t = minus ++ (integer ++ (fraction ++ exponent))

def ScalarText (t : Bytes) : Prop :=
  t = bytes "true" ∨ t = bytes "false" ∨ t = bytes "null" ∨ NumberText t

inductive ItemsText (item : Bytes → Prop) : Bytes → Prop
  | last {w t v : Bytes} (before : Blank w) (text : item t) (after : Blank v) :
      ItemsText item (w ++ (t ++ v))
  | more {w t v rest : Bytes} (before : Blank w) (text : item t) (after : Blank v)
      (later : ItemsText item rest) : ItemsText item (w ++ (t ++ (v ++ ascii ',' :: rest)))

def MemberText (value : Bytes → Prop) (t : Bytes) : Prop :=
  ∃ key w v text, StringText key ∧ Blank w ∧ Blank v ∧ value text ∧
    t = key ++ (w ++ ascii ':' :: (v ++ text))

inductive ValueText (inner : Bytes → Prop) : Bytes → Prop
  | string {t : Bytes} (text : StringText t) : ValueText inner t
  | scalar {t : Bytes} (text : ScalarText t) : ValueText inner t
  | empty {opening : UInt8} {w : Bytes} (opens : opening = ascii '{' ∨ opening = ascii '[')
      (blank : Blank w) : ValueText inner (opening :: (w ++ [closing opening]))
  | object {body : Bytes} (members : ItemsText (MemberText inner) body) :
      ValueText inner (ascii '{' :: (body ++ [ascii '}']))
  | array {body : Bytes} (elements : ItemsText inner body) :
      ValueText inner (ascii '[' :: (body ++ [ascii ']']))

/-- A value all of whose inner values are enclosed in at most so many of its containers. -/
def Value : Nat → Bytes → Prop
  | 0 => ValueText fun _ => False
  | levels + 1 => ValueText (Value levels)

def Text (value : Bytes → Prop) (s : Bytes) : Prop :=
  ∃ w t v, Blank w ∧ value t ∧ Blank v ∧ s = w ++ (t ++ v)

end Json

end Crossbook
