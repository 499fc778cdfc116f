/-!
JSON tokens. A text is cut into tokens first; what does not need the structure of values, such
as the form of numbers and strings, is checked here. The white space of JSON is the blank, the
tab, the line feed and the carriage return.
-/

namespace ArmConsole.Json

inductive Token where
  | openObject | closeObject | openArray | closeArray | colon | comma
  | null
  | bool (value : Bool)
  /-- A number without sign, fraction and exponent. -/
  | natural (value : Nat)
  /-- Any other number. -/
  | number
  /-- A string and the text that it stands for. There is none if a surrogate stands alone. -/
  | string (text : Option String)
  deriving DecidableEq, Inhabited

def isBlank (c : Char) : Bool := c = ' ' || c = '\t' || c = '\n' || c = '\r'

def hexValue? (c : Char) : Option Nat :=
  if '0' ≤ c ∧ c ≤ '9' then some (c.toNat - 48)
  else if 'a' ≤ c ∧ c ≤ 'f' then some (c.toNat - 87)
  else if 'A' ≤ c ∧ c ≤ 'F' then some (c.toNat - 55)
  else none

def hex4? (a b c d : Char) : Option Nat := do
  let a ← hexValue? a
  let b ← hexValue? b
  let c ← hexValue? c
  let d ← hexValue? d
  return ((a * 16 + b) * 16 + c) * 16 + d

/-- One character of a string, or a code unit of 16 bits that was written by its number. -/
inductive StringPart where
  | char (c : Char)
  | unit (n : Nat)

def shortEscape? : Char → Option Char
  | '"' => some '"'
  | '\\' => some '\\'
  | '/' => some '/'
  | 'b' => some '\x08'
  | 'f' => some '\x0c'
  | 'n' => some '\n'
  | 'r' => some '\r'
  | 't' => some '\t'
  | _ => none

/-- The parts of a string up to its closing quote, and what follows that. Control characters
must be escaped. -/
def stringParts? : List Char → Option (List StringPart × List Char)
  | [] => none
  | '"' :: rest => some ([], rest)
  | '\\' :: 'u' :: a :: b :: c :: d :: rest => do
    let n ← hex4? a b c d
    let (parts, rest) ← stringParts? rest
    return (.unit n :: parts, rest)
  | '\\' :: c :: rest => do
    let c ← shortEscape? c
    let (parts, rest) ← stringParts? rest
    return (.char c :: parts, rest)
  | c :: rest =>
    if c.toNat < 0x20 then none
    else do
      let (parts, rest) ← stringParts? rest
      return (.char c :: parts, rest)

def isHighSurrogate (n : Nat) : Bool := 0xD800 ≤ n && n ≤ 0xDBFF
def isLowSurrogate (n : Nat) : Bool := 0xDC00 ≤ n && n ≤ 0xDFFF

/-- The text of string parts. Two surrogates are one character, and one alone is none. -/
def textOfParts? : List StringPart → Option (List Char)
  | [] => some []
  | .char c :: parts => (textOfParts? parts).map (c :: ·)
  | .unit n :: .unit m :: parts =>
    if isHighSurrogate n then
      if isLowSurrogate m then
        (textOfParts? parts).map (Char.ofNat (0x10000 + (n - 0xD800) * 0x400 + (m - 0xDC00)) :: ·)
      else none
    else if isLowSurrogate n then none
    else (textOfParts? (.unit m :: parts)).map (Char.ofNat n :: ·)
  | .unit n :: parts =>
    if isHighSurrogate n || isLowSurrogate n then none
    else (textOfParts? parts).map (Char.ofNat n :: ·)

def digits (cs : List Char) : List Char × List Char := cs.span Char.isDigit

/-- One digit or more at the front; what follows them. -/
def skipDigits? (cs : List Char) : Option (List Char) :=
  let (ds, rest) := digits cs
  if ds.isEmpty then none else some rest

/-- A fraction, if there is one; whether there was one and what follows. -/
def skipFraction? : List Char → Option (Bool × List Char)
  | '.' :: rest => (skipDigits? rest).map (true, ·)
  | rest => some (false, rest)

/-- The sign of an exponent, if there is one. -/
def skipSign : List Char → List Char
  | '+' :: rest => rest
  | '-' :: rest => rest
  | rest => rest

/-- An exponent, if there is one; whether there was one and what follows. -/
def skipExponent? : List Char → Option (Bool × List Char)
  | 'e' :: rest => (skipDigits? (skipSign rest)).map (true, ·)
  | 'E' :: rest => (skipDigits? (skipSign rest)).map (true, ·)
  | rest => some (false, rest)

def naturalOfDigits (ds : List Char) : Nat := ds.foldl (fun n c => n * 10 + (c.toNat - 48)) 0

/-- A number without its sign, and what follows it. No digit may follow a leading zero. -/
def unsigned? (cs : List Char) : Option (Token × List Char) := do
  let (ds, rest) := digits cs
  if ds.isEmpty || (ds.head? == some '0' && ds.length != 1) then none
  else
    let (fraction, rest) ← skipFraction? rest
    let (exponent, rest) ← skipExponent? rest
    return (if fraction || exponent then .number else .natural (naturalOfDigits ds), rest)

def number? : List Char → Option (Token × List Char)
  | '-' :: rest => (unsigned? rest).map fun (_, rest) => (.number, rest)
  | cs => unsigned? cs

/-- The token at the front of a text that does not start with white space, and what follows. -/
def token? : List Char → Option (Token × List Char)
  | '\x7b' :: rest => some (.openObject, rest)
  | '\x7d' :: rest => some (.closeObject, rest)
  | '[' :: rest => some (.openArray, rest)
  | ']' :: rest => some (.closeArray, rest)
  | ':' :: rest => some (.colon, rest)
  | ',' :: rest => some (.comma, rest)
  | '"' :: rest => (stringParts? rest).map fun (parts, rest) =>
    (.string ((textOfParts? parts).map String.ofList), rest)
  | 'n' :: 'u' :: 'l' :: 'l' :: rest => some (.null, rest)
  | 't' :: 'r' :: 'u' :: 'e' :: rest => some (.bool true, rest)
  | 'f' :: 'a' :: 'l' :: 's' :: 'e' :: rest => some (.bool false, rest)
  | cs => number? cs

/-- The tokens of a text that has at most `fuel` of them. -/
def tokensFrom? : Nat → List Char → Option (List Token)
  | 0, cs => if cs.all isBlank then some [] else none
  | fuel + 1, cs =>
    match cs.dropWhile isBlank with
    | [] => some []
    | cs => do
      let (token, rest) ← token? cs
      let tokens ← tokensFrom? fuel rest
      return token :: tokens

/-- The tokens of a text; every token takes at least one character. -/
def tokens? (text : String) : Option (List Token) :=
  let cs := text.toList
  tokensFrom? cs.length cs

/-! ### Values that are passed over -/

inductive Bracket where
  | object | array
  deriving DecidableEq

mutual

/-- Passes over a value within the open brackets, and what closes them. -/
def skipValue? (opened : List Bracket) : List Token → Option (List Token)
  | .openArray :: .closeArray :: rest => skipRest? opened rest
  | .openArray :: rest => skipValue? (.array :: opened) rest
  | .openObject :: .closeObject :: rest => skipRest? opened rest
  | .openObject :: .string _ :: .colon :: rest => skipValue? (.object :: opened) rest
  | .null :: rest => skipRest? opened rest
  | .bool _ :: rest => skipRest? opened rest
  | .natural _ :: rest => skipRest? opened rest
  | .number :: rest => skipRest? opened rest
  | .string _ :: rest => skipRest? opened rest
  | _ => none

/-- Passes over what may follow a value until all brackets are closed. -/
def skipRest? (opened : List Bracket) (tokens : List Token) : Option (List Token) :=
  match opened, tokens with
  | [], rest => some rest
  | .array :: opened, .comma :: rest => skipValue? (.array :: opened) rest
  | .array :: opened, .closeArray :: rest => skipRest? opened rest
  | .object :: opened, .comma :: .string _ :: .colon :: rest =>
    skipValue? (.object :: opened) rest
  | .object :: opened, .closeObject :: rest => skipRest? opened rest
  | _, _ => none

end

end ArmConsole.Json
