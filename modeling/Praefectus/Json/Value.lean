import Praefectus.Text.Utf8
import Mathlib.Algebra.Ring.Int.Defs
import Mathlib.Algebra.Ring.Nat

/-!
# JSON values and their compact text

Values keep the members of an object in the order they were written. A number is
either an integer or a decimal literal with a fraction or an exponent; the literal
stands for the double it prints.
-/

/-- Reads `.` and its digits, or nothing. -/
def readFraction : List Char → Option (List Char × List Char)
  | '.' :: rest =>
    let (digits, rest) := rest.span Char.isDigit
    if digits = [] then none else some ('.' :: digits, rest)
  | rest => some ([], rest)

/-- Splits off the sign of an exponent. -/
def splitSign : List Char → List Char × List Char
  | '+' :: rest => (['+'], rest)
  | '-' :: rest => (['-'], rest)
  | rest => ([], rest)

/-- Reads an exponent, or nothing. -/
def readExponent : List Char → Option (List Char × List Char)
  | [] => some ([], [])
  | c :: rest =>
    if c = 'e' ∨ c = 'E' then
      let (sign, rest) := splitSign rest
      let (digits, rest) := rest.span Char.isDigit
      if digits = [] then none else some (c :: sign ++ digits, rest)
    else some ([], c :: rest)

/-- The digits of a number before its fraction: no sign, no leading zero. -/
def IsWhole (digits : List Char) : Prop :=
  digits ≠ [] ∧ digits.all Char.isDigit ∧ (digits.head? = some '0' → digits = ['0'])

instance (digits : List Char) : Decidable (IsWhole digits) := by
  unfold IsWhole
  infer_instance

/-- A number literal that is not an integer. -/
structure FloatLiteral where
  negative : Bool
  whole : List Char
  fraction : List Char
  exponent : List Char
  isWhole : IsWhole whole
  isFraction : readFraction fraction = some (fraction, [])
  isExponent : readExponent exponent = some (exponent, [])
  notInteger : fraction ≠ [] ∨ exponent ≠ []
  deriving DecidableEq

/-- An integer that fits a signed or an unsigned 64-bit number. -/
structure JsonInt where
  value : Int
  lower : -2 ^ 63 ≤ value
  upper : value < 2 ^ 64
  deriving DecidableEq

inductive Json where
  | null
  | bool (value : Bool)
  | int (value : JsonInt)
  | float (value : FloatLiteral)
  | str (value : String)
  | arr (items : List Json)
  | obj (members : List (String × Json))

namespace Json

/-- Induction with the hypothesis for every item of an array and every member of an
object. -/
theorem induction {P : Json → Prop} (null : P .null) (bool : ∀ value, P (.bool value))
    (int : ∀ value, P (.int value)) (float : ∀ value, P (.float value))
    (str : ∀ value, P (.str value))
    (arr : ∀ items, (∀ item ∈ items, P item) → P (.arr items))
    (obj : ∀ members, (∀ member ∈ members, P member.2) → P (.obj members)) (j : Json) : P j := by
  revert j
  refine Json.rec
    (motive_2 := fun items => ∀ item ∈ items, P item)
    (motive_3 := fun members => ∀ member ∈ members, P member.2)
    (motive_4 := fun member => P member.2)
    null bool int float str arr obj ?nil ?cons ?none ?more ?member
  case nil => exact fun _ member => absurd member List.not_mem_nil
  case cons => exact fun head tail first rest => List.forall_mem_cons.mpr ⟨first, rest⟩
  case none => exact fun _ member => absurd member List.not_mem_nil
  case more => exact fun head tail first rest => List.forall_mem_cons.mpr ⟨first, rest⟩
  case member => exact fun _ _ holds => holds

end Json

/-! ### Text -/

/-- Control characters without a short escape are written as `\u00XX`. -/
def escapeChar (c : Char) : List Char :=
  if c.toNat = '"'.toNat then ['\\', '"']
  else if c.toNat = '\\'.toNat then ['\\', '\\']
  else if 32 ≤ c.toNat then [c]
  else if c = '\n' then ['\\', 'n']
  else if c = '\r' then ['\\', 'r']
  else if c = '\t' then ['\\', 't']
  else if c = Char.ofNat 8 then ['\\', 'b']
  else if c = Char.ofNat 12 then ['\\', 'f']
  else ['\\', 'u', '0', '0', Nat.digitChar (c.toNat / 16), Nat.digitChar (c.toNat % 16)]

def printString (s : String) : List Char := '"' :: s.characters.flatMap escapeChar ++ ['"']

theorem printString_eq (s : String) :
    printString s = '"' :: s.toList.flatMap escapeChar ++ ['"'] := by
  rw [printString, String.characters_eq]

def printInt : Int → List Char
  | .ofNat n => Nat.toDigits 10 n
  | .negSucc n => '-' :: Nat.toDigits 10 (n + 1)

def FloatLiteral.text (f : FloatLiteral) : List Char :=
  (if f.negative then ['-'] else []) ++ f.whole ++ f.fraction ++ f.exponent

namespace Json

mutual

def print : Json → List Char
  | .null => ['n', 'u', 'l', 'l']
  | .bool true => ['t', 'r', 'u', 'e']
  | .bool false => ['f', 'a', 'l', 's', 'e']
  | .int n => printInt n.value
  | .float value => value.text
  | .str value => printString value
  | .arr items => '[' :: printItems items
  | .obj members => '{' :: printMembers members

/-- The items of an array from the first on, with the closing bracket. -/
def printItems : List Json → List Char
  | [] => [']']
  | item :: items => item.print ++ printRest items

def printRest : List Json → List Char
  | [] => [']']
  | item :: items => ',' :: item.print ++ printRest items

def printMembers : List (String × Json) → List Char
  | [] => ['}']
  | (key, value) :: members => printString key ++ ':' :: value.print ++ printMore members

def printMore : List (String × Json) → List Char
  | [] => ['}']
  | (key, value) :: members =>
    ',' :: printString key ++ ':' :: value.print ++ printMore members

end

mutual

/-- How deeply arrays and objects are nested. -/
def depth : Json → Nat
  | .arr items => depthItems items + 1
  | .obj members => depthMembers members + 1
  | _ => 0

def depthItems : List Json → Nat
  | [] => 0
  | item :: items => max item.depth (depthItems items)

def depthMembers : List (String × Json) → Nat
  | [] => 0
  | (_, value) :: members => max value.depth (depthMembers members)

end

end Json
