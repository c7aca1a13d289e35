import ReactiveRules.Decimal.Scaled
import ReactiveRules.Json.Basic

/-!
# `Json/Reader.lean` — reading JSON text

`read?` reads a whole text and answers `none` for anything that is not one JSON value between
blanks. A number without point and exponent is whole if it fits 64 bits, signed or unsigned, and is
not a negative zero; every other number is a double, read by one scaling (`Numeral.scaled?`), and
one too large for that is refused. Values nest at most 127 deep. Every reader below consumes at
least one character of what it is given, so the length of the text bounds the recursion.
-/

set_option autoImplicit false

namespace ReactiveRules.Json

/-- The four blanks of JSON. -/
def isBlank (c : Char) : Bool := c == ' ' || c == '\t' || c == '\n' || c == '\r'

def skipBlanks (cs : List Char) : List Char := cs.dropWhile isBlank

/-! ## Strings -/

def hexValue? (c : Char) : Option Nat :=
  if '0' ≤ c && c ≤ '9' then some (c.toNat - '0'.toNat)
  else if 'a' ≤ c && c ≤ 'f' then some (c.toNat - 'a'.toNat + 10)
  else if 'A' ≤ c && c ≤ 'F' then some (c.toNat - 'A'.toNat + 10)
  else none

def hex4? : List Char → Option (Nat × List Char)
  | a :: b :: c :: d :: rest => do
    let a ← hexValue? a
    let b ← hexValue? b
    let c ← hexValue? c
    let d ← hexValue? d
    some (((a * 16 + b) * 16 + c) * 16 + d, rest)
  | _ => none

/-- The character behind `\u`: a code point, or the two halves of a surrogate pair. A lone half is
refused. -/
def unicodeEscape? (cs : List Char) : Option (Char × List Char) := do
  let (high, rest) ← hex4? cs
  if 0xD800 ≤ high && high < 0xDC00 then
    match rest with
    | '\\' :: 'u' :: rest =>
      let (low, rest) ← hex4? rest
      if 0xDC00 ≤ low && low < 0xE000 then
        some (Char.ofNat (0x10000 + (high - 0xD800) * 0x400 + (low - 0xDC00)), rest)
      else none
    | _ => none
  else if 0xDC00 ≤ high && high < 0xE000 then none
  else some (Char.ofNat high, rest)

/-- The character behind a backslash and what follows it. -/
def escape? : List Char → Option (Char × List Char)
  | 'u' :: rest => unicodeEscape? rest
  | '"' :: rest => some ('"', rest)
  | '\\' :: rest => some ('\\', rest)
  | '/' :: rest => some ('/', rest)
  | 'b' :: rest => some (Char.ofNat 8, rest)
  | 'f' :: rest => some (Char.ofNat 12, rest)
  | 'n' :: rest => some ('\n', rest)
  | 'r' :: rest => some ('\r', rest)
  | 't' :: rest => some ('\t', rest)
  | _ => none

/-- The characters up to the closing quote, newest first in `acc`. Raw control characters are
refused. -/
def stringTail? : Nat → List Char → List Char → Option (String × List Char)
  | 0, _, _ => none
  | _ + 1, _, [] => none
  | fuel + 1, acc, c :: rest =>
    if c == '"' then some (String.ofList acc.reverse, rest)
    else if c == '\\' then
      match escape? rest with
      | some (e, rest) => stringTail? fuel (e :: acc) rest
      | none => none
    else if c.toNat < 32 then none
    else stringTail? fuel (c :: acc) rest

/-! ## Numbers -/

/-- A number, whose sign has been read: no leading zero, and digits on both sides of a point. -/
def number? (negative : Bool) (cs : List Char) : Option (Json × List Char) :=
  let (numeral, rest) := Decimal.scan negative cs
  let leadingZero :=
    match numeral.whole with
    | '0' :: _ :: _ => true
    | _ => false
  let danglingPoint := numeral.fraction == some []
  let danglingExponent :=
    match rest with
    | 'e' :: _ => true
    | 'E' :: _ => true
    | _ => false
  if numeral.whole.isEmpty || leadingZero || danglingPoint || danglingExponent then none
  else
    let asFloat : Option (Json × List Char) := numeral.scaled?.map fun x => (.float x, rest)
    match numeral.whole? with
    | some n =>
      let isWhole := Int64.minValue.toInt ≤ n && n < UInt64.size && !(negative && n == 0)
      if isWhole then some (.int n, rest) else asFloat
    | none => asFloat

/-! ## Values -/

mutual

/-- A value, from its first character on. -/
def value? : Nat → Nat → List Char → Option (Json × List Char)
  | 0, _, _ => none
  | fuel + 1, depth, cs =>
    match skipBlanks cs with
    | 'n' :: 'u' :: 'l' :: 'l' :: rest => some (.null, rest)
    | 't' :: 'r' :: 'u' :: 'e' :: rest => some (.bool true, rest)
    | 'f' :: 'a' :: 'l' :: 's' :: 'e' :: rest => some (.bool false, rest)
    | '"' :: rest => (stringTail? (rest.length + 1) [] rest).map fun (s, rest) => (.str s, rest)
    | '[' :: rest =>
      match depth with
      | 0 => none
      | depth + 1 =>
        match skipBlanks rest with
        | ']' :: rest => some (.arr [], rest)
        | rest => (items? fuel depth [] rest).map fun (items, rest) => (.arr items, rest)
    | '\x7b' :: rest =>
      match depth with
      | 0 => none
      | depth + 1 =>
        match skipBlanks rest with
        | '\x7d' :: rest => some (.obj [], rest)
        | rest => (members? fuel depth [] rest).map fun (fields, rest) => (.obj fields, rest)
    | '-' :: rest => number? true rest
    | rest => number? false rest

/-- The items of an array up to its closing bracket, newest first in `acc`. -/
def items? : Nat → Nat → List Json → List Char → Option (List Json × List Char)
  | 0, _, _, _ => none
  | fuel + 1, depth, acc, cs =>
    match value? fuel depth cs with
    | none => none
    | some (item, rest) =>
      match skipBlanks rest with
      | ',' :: rest => items? fuel depth (item :: acc) rest
      | ']' :: rest => some ((item :: acc).reverse, rest)
      | _ => none

/-- The fields of an object up to its closing brace. -/
def members? : Nat → Nat → List (String × Json) → List Char →
    Option (List (String × Json) × List Char)
  | 0, _, _, _ => none
  | fuel + 1, depth, acc, cs =>
    match skipBlanks cs with
    | '"' :: rest =>
      match stringTail? (rest.length + 1) [] rest with
      | none => none
      | some (name, rest) =>
        match skipBlanks rest with
        | ':' :: rest =>
          match value? fuel depth rest with
          | none => none
          | some (item, rest) =>
            match skipBlanks rest with
            | ',' :: rest => members? fuel depth (insertField name item acc) rest
            | '\x7d' :: rest => some (insertField name item acc, rest)
            | _ => none
        | _ => none
    | _ => none

end

/-- The value a text writes, if the text is one JSON value. -/
def read? (text : String) : Option Json :=
  let cs := text.toList
  match value? (cs.length + 1) 127 cs with
  | some (v, rest) => if (skipBlanks rest).isEmpty then some v else none
  | none => none

end ReactiveRules.Json
