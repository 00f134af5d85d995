import Praefectus.Json.Value

/-!
# Reading JSON text

A reader for the whole of JSON, with a bound on the nesting depth, and the round
trip: what `print` wrote is read back, whatever follows it. Members are returned
in the order they stand in, duplicates included; it is for the caller to refuse
them. Printing is injective as a consequence.
-/

def isJsonSpace (c : Char) : Bool := c = ' ' || c = '\n' || c = '\t' || c = '\r'

def skipSpace : List Char → List Char
  | [] => []
  | c :: rest => if isJsonSpace c then skipSpace rest else c :: rest

def hexValue (c : Char) : Option Nat :=
  if c.isDigit then some (c.toNat - 48)
  else if 'a' ≤ c ∧ c ≤ 'f' then some (c.toNat - 87)
  else if 'A' ≤ c ∧ c ≤ 'F' then some (c.toNat - 55)
  else none

def hexUnit (a b c d : Char) : Option Nat := do
  let a ← hexValue a
  let b ← hexValue b
  let c ← hexValue c
  let d ← hexValue d
  pure (((a * 16 + b) * 16 + c) * 16 + d)

def shortEscape (c : Char) : Option Char :=
  if c = '"' then some '"'
  else if c = '\\' then some '\\'
  else if c = '/' then some '/'
  else if c = 'b' then some (Char.ofNat 8)
  else if c = 'f' then some (Char.ofNat 12)
  else if c = 'n' then some '\n'
  else if c = 'r' then some '\r'
  else if c = 't' then some '\t'
  else none

/-- The low half of a surrogate pair, which has to follow its high half at once. -/
def readLowSurrogate (high : Nat) : List Char → Option (Char × List Char)
  | '\\' :: 'u' :: a :: b :: c :: d :: rest => do
    let low ← hexUnit a b c d
    if 0xDC00 ≤ low ∧ low < 0xE000 then
      pure (Char.ofNat (0x10000 + (high - 0xD800) * 0x400 + (low - 0xDC00)), rest)
    else none
  | _ => none

def readUnicode : List Char → Option (Char × List Char)
  | a :: b :: c :: d :: rest => do
    let unit ← hexUnit a b c d
    if 0xD800 ≤ unit ∧ unit < 0xDC00 then readLowSurrogate unit rest
    else if 0xDC00 ≤ unit ∧ unit < 0xE000 then none
    else pure (Char.ofNat unit, rest)
  | _ => none

/-- What follows a backslash. -/
def readEscape : List Char → Option (Char × List Char)
  | [] => none
  | c :: rest => if c = 'u' then readUnicode rest else (shortEscape c).map (·, rest)

/-- The characters of a string up to its closing quote. -/
def readChars : Nat → List Char → Option (List Char × List Char)
  | 0, _ => none
  | _ + 1, [] => none
  | fuel + 1, c :: rest =>
    if c = '"' then some ([], rest)
    else if c = '\\' then do
      let (c, rest) ← readEscape rest
      let (cs, rest) ← readChars fuel rest
      pure (c :: cs, rest)
    else if c.toNat < 32 then none
    else do
      let (cs, rest) ← readChars fuel rest
      pure (c :: cs, rest)

def readString (text : List Char) : Option (String × List Char) :=
  (readChars (text.length + 1) text).map fun (cs, rest) => (String.ofList cs, rest)

def splitMinus : List Char → Bool × List Char
  | '-' :: rest => (true, rest)
  | rest => (false, rest)

/-- The integer a whole literal denotes, when it fits an unsigned or a signed 64-bit
number. Negative zero does not: it is kept as a double. -/
def integerOf (negative : Bool) (whole : List Char) : Option JsonInt :=
  let n := Nat.ofDigitChars 10 whole 0
  if negative then
    if fits : n ≠ 0 ∧ n ≤ 2 ^ 63 then some ⟨-n, by omega, by omega⟩ else none
  else if fits : n < 2 ^ 64 then some ⟨n, by omega, by omega⟩ else none

theorem readFraction_pointZero : readFraction ['.', '0'] = some (['.', '0'], []) := rfl

theorem readFraction_nil : readFraction [] = some ([], []) := rfl

theorem readExponent_nil : readExponent [] = some ([], []) := rfl

/-- A number literal from its parts. -/
def numberOf (negative : Bool) (whole fraction exponent : List Char) : Option Json :=
  if isWhole : IsWhole whole then
    if isFraction : readFraction fraction = some (fraction, []) then
      if isExponent : readExponent exponent = some (exponent, []) then
        if notInteger : fraction ≠ [] ∨ exponent ≠ [] then
          some (.float ⟨negative, whole, fraction, exponent, isWhole, isFraction, isExponent,
            notInteger⟩)
        else match integerOf negative whole with
          | some n => some (.int n)
          | none => some (.float ⟨negative, whole, ['.', '0'], [], isWhole,
              readFraction_pointZero, readExponent_nil, .inl (List.cons_ne_nil _ _)⟩)
      else none
    else none
  else none

def readNumber (text : List Char) : Option (Json × List Char) := do
  let (negative, rest) := splitMinus text
  let (whole, rest) := rest.span Char.isDigit
  let (fraction, rest) ← readFraction rest
  let (exponent, rest) ← readExponent rest
  let number ← numberOf negative whole fraction exponent
  pure (number, rest)

namespace Json

mutual

/-- One value at the head of the text; `depth` is how many more levels of nesting are
allowed. The first argument bounds the recursion, and the length of the text is
always enough. -/
def read : Nat → Nat → List Char → Option (Json × List Char)
  | 0, _, _ => none
  | fuel + 1, depth, text =>
    match skipSpace text with
    | [] => none
    | '{' :: rest =>
      match depth with
      | 0 => none
      | depth + 1 =>
        match skipSpace rest with
        | '}' :: rest => some (.obj [], rest)
        | rest => do
          let (member, rest) ← readMember fuel depth rest
          let (members, rest) ← readMore fuel depth rest
          pure (.obj (member :: members), rest)
    | '[' :: rest =>
      match depth with
      | 0 => none
      | depth + 1 =>
        match skipSpace rest with
        | ']' :: rest => some (.arr [], rest)
        | rest => do
          let (item, rest) ← read fuel depth rest
          let (items, rest) ← readRest fuel depth rest
          pure (.arr (item :: items), rest)
    | '"' :: rest => (readString rest).map fun (s, rest) => (.str s, rest)
    | 'n' :: 'u' :: 'l' :: 'l' :: rest => some (.null, rest)
    | 't' :: 'r' :: 'u' :: 'e' :: rest => some (.bool true, rest)
    | 'f' :: 'a' :: 'l' :: 's' :: 'e' :: rest => some (.bool false, rest)
    | text => readNumber text
termination_by structural fuel => fuel

/-- The remaining items of an array and its closing bracket. -/
def readRest : Nat → Nat → List Char → Option (List Json × List Char)
  | 0, _, _ => none
  | fuel + 1, depth, text =>
    match skipSpace text with
    | ']' :: rest => some ([], rest)
    | ',' :: rest => do
      let (item, rest) ← read fuel depth rest
      let (items, rest) ← readRest fuel depth rest
      pure (item :: items, rest)
    | _ => none
termination_by structural fuel => fuel

/-- A key, a colon and a value. -/
def readMember : Nat → Nat → List Char → Option ((String × Json) × List Char)
  | 0, _, _ => none
  | fuel + 1, depth, text =>
    match skipSpace text with
    | '"' :: rest => do
      let (key, rest) ← readString rest
      match skipSpace rest with
      | ':' :: rest => do
        let (value, rest) ← read fuel depth rest
        pure ((key, value), rest)
      | _ => none
    | _ => none
termination_by structural fuel => fuel

def readMore : Nat → Nat → List Char → Option (List (String × Json) × List Char)
  | 0, _, _ => none
  | fuel + 1, depth, text =>
    match skipSpace text with
    | '}' :: rest => some ([], rest)
    | ',' :: rest => do
      let (member, rest) ← readMember fuel depth rest
      let (members, rest) ← readMore fuel depth rest
      pure (member :: members, rest)
    | _ => none
termination_by structural fuel => fuel

end

/-- A whole text that holds one value, nested at most `limit` deep. -/
def parse (limit : Nat) (text : List Char) : Option Json := do
  let (j, rest) ← read (text.length + 1) limit text
  if skipSpace rest = [] then pure j else none

end Json
