import ReactiveRules.Decimal.Layout
import ReactiveRules.Json.Basic

/-!
# `Json/Writer.lean` — the text of a JSON value

Compact: no blanks. Doubles are written with the fewest digits that read back, positionally from
`1e-5` up to below `1e16`, and always so that they read back as doubles.
-/

set_option autoImplicit false

namespace ReactiveRules.Json

/-- Doubles keep their point, and a positive exponent its plus sign. -/
def floatLayout : Decimal.Layout := ⟨some (-5, 16), true, true, .toEven⟩

def hexDigit (n : Nat) : Char := (Nat.toDigits 16 n).getD 0 '0'

/-- A character of a string. Control characters, the quote and the backslash are escaped. -/
def escapeChar (c : Char) : List Char :=
  if c == '"' then ['\\', '"']
  else if c == '\\' then ['\\', '\\']
  else if c == '\n' then ['\\', 'n']
  else if c == '\r' then ['\\', 'r']
  else if c == '\t' then ['\\', 't']
  else if c.toNat == 8 then ['\\', 'b']
  else if c.toNat == 12 then ['\\', 'f']
  else if c.toNat < 32 then
    ['\\', 'u', '0', '0', hexDigit (c.toNat / 16), hexDigit (c.toNat % 16)]
  else [c]

def quote (s : String) : String :=
  String.ofList ('"' :: s.toList.flatMap escapeChar ++ ['"'])

mutual

def write : Json → String
  | .null => "null"
  | .bool b => if b then "true" else "false"
  | .int n => toString n
  | .float x => floatLayout.float x
  | .str s => quote s
  | .arr items => "[" ++ ",".intercalate (writeItems items) ++ "]"
  | .obj fields => "\x7b" ++ ",".intercalate (writeFields fields) ++ "\x7d"

def writeItems : List Json → List String
  | [] => []
  | item :: rest => write item :: writeItems rest

/-- The texts of an object's fields, each with its name in front. -/
def writeFields : List (String × Json) → List String
  | [] => []
  | (name, value) :: rest => (quote name ++ ":" ++ write value) :: writeFields rest

end

end ReactiveRules.Json
