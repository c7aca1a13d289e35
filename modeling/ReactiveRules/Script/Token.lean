import ReactiveRules.Decimal.Numeral
import ReactiveRules.Script.Fault
import ReactiveRules.Text.Blank

/-!
# `Script/Token.lean` — from the text of a script to its tokens

Reading goes in two passes. `pieces` cuts the text into pieces: string literals, words, blanks and
single signs; a comment leaves nothing behind, so the words on its two sides are one word.
`tokens` joins signs into operators and tells what a word is: an integer, a double, a truth value
or a name. A word like `1e` followed by a sign and a word is one double if the three read as one.
-/

set_option autoImplicit false

namespace ReactiveRules.Script

/-! ## Pieces -/

/-- The single characters with a meaning of their own. -/
inductive Sign where
  | plus
  | minus
  | star
  | slash
  | percent
  | hat
  | equals
  | bang
  | greater
  | less
  | ampersand
  | pipe
  | opening
  | closing
  | comma
  | semicolon
  deriving DecidableEq, Repr

def Sign.char : Sign → Char
  | .plus => '+'
  | .minus => '-'
  | .star => '*'
  | .slash => '/'
  | .percent => '%'
  | .hat => '^'
  | .equals => '='
  | .bang => '!'
  | .greater => '>'
  | .less => '<'
  | .ampersand => '&'
  | .pipe => '|'
  | .opening => '('
  | .closing => ')'
  | .comma => ','
  | .semicolon => ';'

def Sign.ofChar? : Char → Option Sign
  | '+' => some .plus
  | '-' => some .minus
  | '*' => some .star
  | '/' => some .slash
  | '%' => some .percent
  | '^' => some .hat
  | '=' => some .equals
  | '!' => some .bang
  | '>' => some .greater
  | '<' => some .less
  | '&' => some .ampersand
  | '|' => some .pipe
  | '(' => some .opening
  | ')' => some .closing
  | ',' => some .comma
  | ';' => some .semicolon
  | _ => none

/-- A piece of a script's text. -/
inductive Piece where
  /-- The content of a string literal. -/
  | string (content : String)
  /-- Characters without a meaning of their own. -/
  | word (cs : List Char)
  | blank
  | sign (s : Sign)
  deriving DecidableEq, Repr

/-- A piece as error messages show it: a blank as one space, a string literal quoted. -/
def Piece.display : Piece → String
  | .string s => Text.quoted s
  | .word cs => String.ofList cs
  | .blank => " "
  | .sign s => String.singleton s.char

/-- What follows a line comment: the text behind the next line break. -/
def afterLine : List Char → List Char
  | [] => []
  | c :: rest => if c == '\n' then rest else afterLine rest

/-- What follows a comment in stars: the text behind the closing `*/`, if there is one. -/
def afterStars? : List Char → Option (List Char)
  | [] => none
  | '*' :: '/' :: rest => some rest
  | _ :: rest => afterStars? rest

/-- The content of a string literal, newest character first in `acc`, and what follows its closing
quote. A backslash stands before a quote or a backslash, nothing else. -/
def literal (acc : List Char) : List Char → Except Fault (String × List Char)
  | [] => .error .unmatchedQuote
  | '"' :: rest => .ok (String.ofList acc.reverse, rest)
  | ['\\'] => .error (.illegalEscape "\\")
  | '\\' :: '"' :: rest => literal ('"' :: acc) rest
  | '\\' :: '\\' :: rest => literal ('\\' :: acc) rest
  | '\\' :: c :: _ => .error (.illegalEscape (String.ofList ['\\', c]))
  | c :: rest => literal (c :: acc) rest

/-- Adds a character to the newest piece if that is a word, else begins a word. -/
def addToWord (c : Char) : List Piece → List Piece
  | .word cs :: before => .word (cs ++ [c]) :: before
  | before => .word [c] :: before

/-- The pieces of a text, newest first in `acc`. Each step shortens the text, so its length bounds
the steps. -/
def piecesFrom : Nat → List Piece → List Char → Except Fault (List Piece)
  | 0, acc, _ => .ok acc.reverse
  | _ + 1, acc, [] => .ok acc.reverse
  | fuel + 1, acc, '"' :: rest =>
    match literal [] rest with
    | .ok (s, rest) => piecesFrom fuel (.string s :: acc) rest
    | .error f => .error f
  | fuel + 1, acc, '/' :: '/' :: rest => piecesFrom fuel acc (afterLine rest)
  | fuel + 1, acc, '/' :: '*' :: rest =>
    match afterStars? rest with
    | some rest => piecesFrom fuel acc rest
    | none => .error (.custom "unmatched inline comment")
  | fuel + 1, acc, c :: rest =>
    match Sign.ofChar? c with
    | some s => piecesFrom fuel (.sign s :: acc) rest
    | none =>
      if Text.isBlank c then piecesFrom fuel (.blank :: acc) rest
      else piecesFrom fuel (addToWord c acc) rest

def pieces (cs : List Char) : Except Fault (List Piece) := piecesFrom (cs.length + 1) [] cs

/-! ## Tokens -/

/-- The operators between two operands that are no assignments. -/
inductive Binary where
  | add
  | subtract
  | multiply
  | divide
  | modulo
  | power
  | equal
  | unequal
  | greater
  | less
  | atLeast
  | atMost
  | and
  | or
  deriving DecidableEq, Repr

/-- A token of a script. -/
inductive Token where
  | constant (v : Value)
  | name (x : String)
  /-- An operator between operands; `subtract` is also the minus in front of one. -/
  | binary (b : Binary)
  | not
  | assign
  /-- An assignment that applies an operator first. -/
  | update (b : Binary)
  | opening
  | closing
  | comma
  | semicolon
  deriving Inhabited

/-- Does a token end an operand, so that a minus behind it subtracts? -/
def Token.endsOperand : Token → Bool
  | .constant _ | .name _ | .closing => true
  | _ => false

/-- Does a token begin an operand, so that a name before it is a function? -/
def Token.beginsOperand : Token → Bool
  | .constant _ | .name _ | .opening => true
  | _ => false

/-- Is the token an assignment, so that a name before it is written? -/
def Token.isAssignment : Token → Bool
  | .assign | .update _ => true
  | _ => false

/-! ## Words -/

def hexDigit? (c : Char) : Option Nat :=
  if '0' ≤ c && c ≤ '9' then some (c.toNat - '0'.toNat)
  else if 'a' ≤ c && c ≤ 'f' then some (c.toNat - 'a'.toNat + 10)
  else if 'A' ≤ c && c ≤ 'F' then some (c.toNat - 'A'.toNat + 10)
  else none

def natOfHex? (cs : List Char) : Option Nat :=
  if cs.isEmpty then none
  else cs.foldl (fun n c => do some (16 * (← n) + (← hexDigit? c))) (some 0)

def natOfDecimal? (cs : List Char) : Option Nat :=
  if !cs.isEmpty && cs.all Decimal.isDigit then some (Decimal.natOfDigits cs) else none

/-- The integer a word writes, in decimal or behind `0x` in hexadecimal digits. -/
def intOfWord? (cs : List Char) : Option Int64 :=
  let n? :=
    match cs with
    | '0' :: 'x' :: ds => natOfHex? ds
    | ds => natOfDecimal? ds
  match n? with
  | some n => if n ≤ Int64.maxValue.toInt then some (Int64.ofNat n) else none
  | none => none

/-- The double a text writes: digits on at least one side of an optional point and an optional
exponent, or a name of infinity or of no number. -/
def floatOfText? (cs : List Char) : Option Float :=
  let name := String.ofList (cs.map Char.toLower)
  if name == "inf" || name == "infinity" then some (1.0 / 0.0)
  else if name == "nan" then some (0.0 / 0.0)
  else
    let (numeral, rest) := Decimal.scan false cs
    if rest.isEmpty && !(numeral.whole.isEmpty && (numeral.fraction.getD []).isEmpty) then
      some numeral.float
    else none

/-- What a word means on its own: a constant, unless it is a name. -/
def constantOfWord? (cs : List Char) : Option Value :=
  match intOfWord? cs with
  | some n => some (.int n)
  | none =>
    match floatOfText? cs with
    | some x => some (.float x)
    | none =>
      if cs == "true".toList then some (.bool true)
      else if cs == "false".toList then some (.bool false)
      else none

/-! ## From pieces to tokens -/

/-- The double that a word, a sign and the text of the next piece write together. -/
def joinedFloat? (cs : List Char) (sign : Char) (next : Piece) : Option Float :=
  floatOfText? (cs ++ sign :: next.display.toList)

/-- The first token of the pieces, if they do not begin with a blank, and the pieces behind it. -/
def nextToken : List Piece → Except Fault (Option Token × List Piece)
  | [] => .ok (none, [])
  | .blank :: rest => .ok (none, rest)
  | .string s :: rest => .ok (some (.constant (.text s)), rest)
  | .word cs :: rest =>
    match constantOfWord? cs with
    | some v => .ok (some (.constant v), rest)
    | none =>
      let name : Token := .name (String.ofList cs)
      match rest with
      | .sign .plus :: next :: after =>
        match joinedFloat? cs '+' next with
        | some x => .ok (some (.constant (.float x)), after)
        | none => .ok (some name, rest)
      | .sign .minus :: next :: after =>
        match joinedFloat? cs '-' next with
        | some x => .ok (some (.constant (.float x)), after)
        | none => .ok (some name, rest)
      | _ => .ok (some name, rest)
  | .sign .equals :: .sign .equals :: rest => .ok (some (.binary .equal), rest)
  | .sign .equals :: rest => .ok (some .assign, rest)
  | .sign .bang :: .sign .equals :: rest => .ok (some (.binary .unequal), rest)
  | .sign .bang :: rest => .ok (some .not, rest)
  | .sign .greater :: .sign .equals :: rest => .ok (some (.binary .atLeast), rest)
  | .sign .greater :: rest => .ok (some (.binary .greater), rest)
  | .sign .less :: .sign .equals :: rest => .ok (some (.binary .atMost), rest)
  | .sign .less :: rest => .ok (some (.binary .less), rest)
  | .sign .plus :: .sign .equals :: rest => .ok (some (.update .add), rest)
  | .sign .plus :: rest => .ok (some (.binary .add), rest)
  | .sign .minus :: .sign .equals :: rest => .ok (some (.update .subtract), rest)
  | .sign .minus :: rest => .ok (some (.binary .subtract), rest)
  | .sign .star :: .sign .equals :: rest => .ok (some (.update .multiply), rest)
  | .sign .star :: rest => .ok (some (.binary .multiply), rest)
  | .sign .slash :: .sign .equals :: rest => .ok (some (.update .divide), rest)
  | .sign .slash :: rest => .ok (some (.binary .divide), rest)
  | .sign .percent :: .sign .equals :: rest => .ok (some (.update .modulo), rest)
  | .sign .percent :: rest => .ok (some (.binary .modulo), rest)
  | .sign .hat :: .sign .equals :: rest => .ok (some (.update .power), rest)
  | .sign .hat :: rest => .ok (some (.binary .power), rest)
  | .sign .ampersand :: .sign .ampersand :: .sign .equals :: rest =>
    .ok (some (.update .and), rest)
  | .sign .ampersand :: .sign .ampersand :: rest => .ok (some (.binary .and), rest)
  | .sign .ampersand :: rest => .error (.lonePart "&" (rest.head?.map Piece.display))
  | .sign .pipe :: .sign .pipe :: .sign .equals :: rest => .ok (some (.update .or), rest)
  | .sign .pipe :: .sign .pipe :: rest => .ok (some (.binary .or), rest)
  | .sign .pipe :: rest => .error (.lonePart "|" (rest.head?.map Piece.display))
  | .sign .opening :: rest => .ok (some .opening, rest)
  | .sign .closing :: rest => .ok (some .closing, rest)
  | .sign .comma :: rest => .ok (some .comma, rest)
  | .sign .semicolon :: rest => .ok (some .semicolon, rest)

/-- The tokens of the pieces. Each token takes at least one piece, so their number bounds the
steps. -/
def tokensFrom : Nat → List Piece → Except Fault (List Token)
  | 0, _ => .ok []
  | _ + 1, [] => .ok []
  | fuel + 1, p :: ps => do
    let (token, rest) ← nextToken (p :: ps)
    let more ← tokensFrom fuel rest
    match token with
    | some t => .ok (t :: more)
    | none => .ok more

def tokens (text : String) : Except Fault (List Token) := do
  let ps ← pieces text.toList
  tokensFrom (ps.length + 1) ps

end ReactiveRules.Script
