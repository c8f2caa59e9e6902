import WebBundle.Decimal.Shortest
import WebBundle.Json.Quoted
import WebBundle.Json.Value

namespace WebBundle.Json

/-- Doubles are written positionally for exponents from -5 to 15. -/
def floatFormat : Decimal.Format := ⟨-5, 15⟩

/-- A value that is neither array nor object. -/
def scalarChars : Json → List Char
  | .null => "null".toList
  | .bool true => "true".toList
  | .bool false => "false".toList
  | .integer n => (toString n).toList
  | .float bits => floatFormat.text bits
  | .string text => quoteChars text.toList
  | .array _ => ['[', ']']
  | .object _ => ['{', '}']

mutual

def compactChars : Json → List Char
  | .array items => '[' :: (compactItems true items ++ [']'])
  | .object fields => '{' :: (compactFields true fields ++ ['}'])
  | value => scalarChars value

def compactItems : (first : Bool) → List Json → List Char
  | _, [] => []
  | first, item :: rest =>
    (if first then [] else [',']) ++ compactChars item ++ compactItems false rest

def compactFields : (first : Bool) → List (String × Json) → List Char
  | _, [] => []
  | first, (key, value) :: rest =>
    (if first then [] else [',']) ++ quoteChars key.toList ++ ':' :: compactChars value ++
      compactFields false rest

end

def lineAt (level : Nat) : List Char := '\n' :: List.replicate (2 * level) ' '

mutual

/-- A value with one line for each part of an array or object; empty ones stay on one line. -/
def prettyChars (level : Nat) : Json → List Char
  | .array (item :: rest) =>
    '[' :: (prettyItems (level + 1) true (item :: rest) ++ lineAt level ++ [']'])
  | .object (field :: rest) =>
    '{' :: (prettyFields (level + 1) true (field :: rest) ++ lineAt level ++ ['}'])
  | value => scalarChars value

def prettyItems (level : Nat) : (first : Bool) → List Json → List Char
  | _, [] => []
  | first, item :: rest =>
    (if first then [] else [',']) ++ lineAt level ++ prettyChars level item ++
      prettyItems level false rest

def prettyFields (level : Nat) : (first : Bool) → List (String × Json) → List Char
  | _, [] => []
  | first, (key, value) :: rest =>
    (if first then [] else [',']) ++ lineAt level ++ quoteChars key.toList ++
      ':' :: ' ' :: prettyChars level value ++ prettyFields level false rest

end

def compact (value : Json) : String := String.ofList (compactChars value)

/-- A value indented by two blanks for each level. -/
def pretty (value : Json) : String := String.ofList (prettyChars 0 value)

end WebBundle.Json
