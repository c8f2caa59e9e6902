import WebBundle.Text.Classes

/-!
Comment removal in scripts. A line comment disappears up to its line break; a block comment becomes
one blank followed by its line breaks. Strings, templates and regular expression literals are copied,
so comment marks inside them stay. A `/` begins a regular expression literal exactly where an operand
is expected.
-/

namespace WebBundle.Script

open WebBundle.Text

/-- What surrounds a place of a script. -/
inductive Region where
  | code
  | lineComment
  | blockComment
  | quoted (quote : Char)
  /-- A regular expression literal, inside or outside a character class. -/
  | pattern (inClass : Bool)
  | template
  deriving DecidableEq, Repr

/-- What the reader knows about the code before a place. -/
structure Context where
  /-- The letters of the word that ends at this place, the last one first. -/
  word : List Char := []
  /-- Whether a `/` here begins a regular expression literal. -/
  operandExpected : Bool := true
  /-- The number of open braces. -/
  depth : Nat := 0
  /-- The depths at which the open template substitutions close, innermost first. -/
  substitutions : List Nat := []
  deriving DecidableEq, Repr

/-- Words after which a `/` begins a regular expression literal. -/
def operatorWords : List String :=
  ["return", "typeof", "instanceof", "in", "of", "new", "delete", "void", "throw", "case", "do",
    "else", "yield", "await"]

/-- The operator words with their letters from the last to the first. -/
def reversedOperatorWords : List (List Char) := operatorWords.map fun word => word.toList.reverse

def isIdentifierChar (c : Char) : Bool := isAlphanumeric c || c == '_' || c == '$'

namespace Context

/-- Behind a blank or a comment: a word has ended, nothing else changes. -/
def afterBlank (s : Context) : Context := { s with word := [] }

/-- Behind a string, a template or a regular expression literal. -/
def afterOperand (s : Context) : Context := { s with word := [], operandExpected := false }

/-- Behind one more letter of a word. -/
def afterLetter (s : Context) (c : Char) : Context :=
  let word := c :: s.word
  { s with word, operandExpected := reversedOperatorWords.contains word }

/-- Behind a punctuator that opens or closes nothing of a template. -/
def afterPunctuator (s : Context) (c : Char) : Context :=
  { s with
    word := []
    operandExpected := !(c == ')' || c == ']' || c == '}')
    depth := if c == '{' then s.depth + 1 else if c == '}' then s.depth - 1 else s.depth }

/-- Behind the mark that opens a template substitution. -/
def openSubstitution (s : Context) : Context :=
  { word := [], operandExpected := true, depth := s.depth + 1,
    substitutions := (s.depth + 1) :: s.substitutions }

/-- Behind the brace that closes the innermost template substitution. -/
def closeSubstitution (s : Context) : Context :=
  { s with word := [], depth := s.depth - 1, substitutions := s.substitutions.tail }

/-- Whether a closing brace here ends a template substitution. -/
def closesSubstitution (s : Context) : Bool := s.substitutions.head? == some s.depth

end Context

/-- The rest of a script without its comments, read in a region and a context. -/
def withoutComments : Region → Context → List Char → List Char
  | _, _, [] => []
  | .lineComment, s, c :: rest =>
    if c = '\n' then c :: withoutComments .code s rest else withoutComments .lineComment s rest
  | .blockComment, s, '*' :: '/' :: rest => withoutComments .code s rest
  | .blockComment, s, c :: rest =>
    if c = '\n' then c :: withoutComments .blockComment s rest
    else withoutComments .blockComment s rest
  | .quoted quote, s, '\\' :: c :: rest => '\\' :: c :: withoutComments (.quoted quote) s rest
  | .quoted quote, s, c :: rest =>
    if c = '\n' ∨ c = quote then c :: withoutComments .code s rest
    else c :: withoutComments (.quoted quote) s rest
  | .pattern inClass, s, '\\' :: c :: rest => '\\' :: c :: withoutComments (.pattern inClass) s rest
  | .pattern inClass, s, c :: rest =>
    if c = '\n' ∨ (c = '/' ∧ inClass = false) then c :: withoutComments .code s rest
    else
      c :: withoutComments (.pattern (if c = '[' then true else if c = ']' then false else inClass))
        s rest
  | .template, s, '\\' :: c :: rest => '\\' :: c :: withoutComments .template s rest
  | .template, s, '$' :: '{' :: rest =>
    '$' :: '{' :: withoutComments .code s.openSubstitution rest
  | .template, s, c :: rest =>
    if c = '\x60' then c :: withoutComments .code s.afterOperand rest
    else c :: withoutComments .template s rest
  | .code, s, '/' :: '/' :: rest => withoutComments .lineComment s.afterBlank rest
  | .code, s, '/' :: '*' :: rest => ' ' :: withoutComments .blockComment s.afterBlank rest
  | .code, s, c :: rest =>
    if c = '/' ∧ s.operandExpected = true then
      c :: withoutComments (.pattern false) s.afterOperand rest
    else if c = '"' ∨ c = '\'' then c :: withoutComments (.quoted c) s.afterOperand rest
    else if c = '\x60' then c :: withoutComments .template s.afterBlank rest
    else if c = '}' ∧ s.closesSubstitution = true then
      c :: withoutComments .template s.closeSubstitution rest
    else if isIdentifierChar c then c :: withoutComments .code (s.afterLetter c) rest
    else if isSpace c then c :: withoutComments .code s.afterBlank rest
    else c :: withoutComments .code (s.afterPunctuator c) rest

@[simp] theorem withoutComments_nil (region : Region) (s : Context) :
    withoutComments region s [] = [] := by
  rw [withoutComments]

def stripComments (source : String) : String :=
  String.ofList (withoutComments .code {} source.toList)

end WebBundle.Script
