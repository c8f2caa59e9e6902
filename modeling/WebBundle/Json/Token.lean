import WebBundle.Json.Number

/-!
JSON tokens: marks, words, numbers and strings, with the blanks between them left out. A number beyond the
doubles and a string with half a surrogate pair are tokens without a value.
-/

namespace WebBundle.Json

open WebBundle.Text

/-- A token of a JSON text. -/
inductive Token where
  | openObject
  | closeObject
  | openArray
  | closeArray
  | comma
  | colon
  /-- A word or a number. -/
  | scalar (value : Option Json)
  | string (value : Option String)

def hexValue? (c : Char) : Option Nat :=
  if '0' ≤ c && c ≤ '9' then some (c.toNat - 48)
  else if 'a' ≤ c && c ≤ 'f' then some (c.toNat - 87)
  else if 'A' ≤ c && c ≤ 'F' then some (c.toNat - 55)
  else none

/-- The number that four hexadecimal digits write. -/
def hexUnit? (a b c d : Char) : Option Nat := do
  let a ← hexValue? a
  let b ← hexValue? b
  let c ← hexValue? c
  let d ← hexValue? d
  return ((a * 16 + b) * 16 + c) * 16 + d

/-- The character that a single letter behind a backslash writes. -/
def simpleEscape? (c : Char) : Option Char :=
  if c = '"' ∨ c = '\\' ∨ c = '/' then some c
  else if c = 'b' then some (Char.ofNat 8)
  else if c = 'f' then some (Char.ofNat 12)
  else if c = 'n' then some '\n'
  else if c = 'r' then some '\r'
  else if c = 't' then some '\t'
  else none

def isLeadingSurrogate (n : Nat) : Bool := 0xD800 ≤ n && n ≤ 0xDBFF

def isTrailingSurrogate (n : Nat) : Bool := 0xDC00 ≤ n && n ≤ 0xDFFF

/-- The character that two halves of a surrogate pair write. -/
def paired (leading trailing : Nat) : Char :=
  Char.ofNat ((leading - 0xD800) * 1024 + (trailing - 0xDC00) + 0x10000)

/-- The string behind an opening quote: its characters, last first, and the number of characters up to and
with the closing quote. The string has no value unless the halves of surrogate pairs stand together. -/
def stringBody : (taken : Nat) → (done : Option (List Char)) → List Char →
    Option (Option (List Char) × Nat)
  | _, _, [] => none
  | taken, done, '\\' :: 'u' :: a :: b :: c :: d :: rest =>
    match hexUnit? a b c d with
    | none => none
    | some unit =>
      if isLeadingSurrogate unit then
        match rest with
        | '\\' :: 'u' :: e :: f :: g :: h :: behind =>
          match hexUnit? e f g h with
          | none => none
          | some low =>
            if isTrailingSurrogate low then
              stringBody (taken + 12) (done.map (paired unit low :: ·)) behind
            else stringBody (taken + 12) none behind
        | rest => stringBody (taken + 6) none rest
      else if isTrailingSurrogate unit then stringBody (taken + 6) none rest
      else stringBody (taken + 6) (done.map (Char.ofNat unit :: ·)) rest
  | taken, done, '\\' :: c :: rest =>
    match simpleEscape? c with
    | none => none
    | some x => stringBody (taken + 2) (done.map (x :: ·)) rest
  | taken, done, c :: rest =>
    if c = '"' then some (done, taken + 1)
    else if c = '\\' ∨ c.toNat < 32 then none
    else stringBody (taken + 1) (done.map (c :: ·)) rest

def word? (text : List Char) : Option (Json × Nat) :=
  if "null".toList.isPrefixOf text then some (.null, 4)
  else if "true".toList.isPrefixOf text then some (.bool true, 4)
  else if "false".toList.isPrefixOf text then some (.bool false, 5)
  else none

/-- The token at the start of a text that begins with no blank, and its length. -/
def token? : List Char → Option (Token × Nat)
  | [] => none
  | c :: rest =>
    if c = '{' then some (.openObject, 1)
    else if c = '}' then some (.closeObject, 1)
    else if c = '[' then some (.openArray, 1)
    else if c = ']' then some (.closeArray, 1)
    else if c = ',' then some (.comma, 1)
    else if c = ':' then some (.colon, 1)
    else if c = '"' then
      (stringBody 1 (some []) rest).map fun (done, n) =>
        (.string (done.map fun chars => String.ofList chars.reverse), n)
    else if c = '-' || isDigit c then
      (number (Cursor.start (c :: rest))).map fun (value, behind) => (.scalar value, behind.taken)
    else (word? (c :: rest)).map fun (value, n) => (.scalar (some value), n)

def isBlank (c : Char) : Bool := c == ' ' || c == '\n' || c == '\t' || c == '\r'

/-- The tokens of a text; the next `covered` characters belong to the token before them. -/
def tokensFrom : (covered : Nat) → (done : List Token) → List Char → Option (List Token)
  | _, done, [] => some done.reverse
  | covered + 1, done, _ :: rest => tokensFrom covered done rest
  | 0, done, c :: rest =>
    if isBlank c then tokensFrom 0 done rest
    else
      match token? (c :: rest) with
      | none => none
      | some (token, length) => tokensFrom (length - 1) (token :: done) rest

/-- The tokens of a text, unless some part of it is none. -/
def tokens? (text : List Char) : Option (List Token) := tokensFrom 0 [] text

end WebBundle.Json
