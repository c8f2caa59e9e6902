import WebBundle.Pattern.Property
import WebBundle.Pattern.Tree
import WebBundle.Text.Classes

/-!
Reading of patterns. A pattern is read from left to right against a stack of the groups that are still
open; a character class likewise against a stack of the brackets in it. A text that is no pattern has no
reading. Of the flags only one matters here: whether blanks and comments say nothing.
-/

namespace WebBundle.Pattern

open WebBundle.Text

/-- Passes blanks and comments. -/
def dropComments : (inComment : Bool) → List Char → List Char
  | _, [] => []
  | true, c :: rest => dropComments (c != '\n') rest
  | false, c :: rest =>
    if c = '#' then dropComments true rest
    else if isSpace c then dropComments false rest
    else c :: rest

/-- Passes what says nothing. -/
def blank (verbose : Bool) (text : List Char) : List Char :=
  if verbose then dropComments false text else text

/-- The first character that is neither a blank nor a first `#`. -/
def firstMark : (inComment : Bool) → List Char → Option Char
  | _, [] => none
  | inComment, c :: rest =>
    if isSpace c then firstMark inComment rest
    else if c = '#' ∧ inComment = false then firstMark true rest
    else some c

/-- What a hyphen in a class has behind it. The look ahead does not know where a comment ends; where it
finds nothing it stays at the next character. -/
def behindHyphen (verbose : Bool) (text : List Char) : Option Char :=
  if verbose then (firstMark false text).or text.head? else text.head?

/-- Characters that mean something outside of classes or in them. -/
def isMeta (c : Char) : Bool :=
  ['\\', '.', '+', '*', '?', '(', ')', '|', '[', ']', '{', '}', '^', '$', '#', '&', '-', '~'].contains c

/-- Characters that stand for themselves behind a backslash. -/
def isEscapable (c : Char) : Bool :=
  c.toNat < 128 && !(isAsciiLetter c || isAsciiDigit c || c == '<' || c == '>')

/-- The smallest part of a pattern. -/
inductive Atom where
  | char (l : Literal)
  | letter (kind : LetterClass) (negated : Bool)
  | property (s : CodeSet) (negated : Bool)
  | mark (m : Mark)

def hexValue? (c : Char) : Option Nat :=
  if '0' ≤ c && c ≤ '9' then some (c.toNat - 48)
  else if 'a' ≤ c && c ≤ 'f' then some (c.toNat - 87)
  else if 'A' ≤ c && c ≤ 'F' then some (c.toNat - 55)
  else none

/-- The character with a code point, if there is one. -/
def charOf? (n : Nat) : Option Char :=
  if n.isValidChar then some (Char.ofNat n) else none

/-- Reads a fixed number of hexadecimal digits. -/
def hexNumeral (verbose : Bool) : (count : Nat) → (value : Nat) → List Char → Option (Nat × List Char)
  | 0, value, text => some (value, text)
  | count + 1, value, text =>
    match blank verbose text with
    | [] => none
    | c :: rest => (hexValue? c).bind fun d => hexNumeral verbose count (value * 16 + d) rest

/-- Reads what stands before a closing brace. -/
def braced (verbose : Bool) :
    (fuel : Nat) → (content : List Char) → List Char → Option (List Char × List Char)
  | 0, _, _ => none
  | fuel + 1, content, text =>
    match blank verbose text with
    | [] => none
    | '}' :: rest => some (content.reverse, rest)
    | c :: rest => braced verbose fuel (c :: content) rest

/-- Reads a character by its number: braced, or in as many digits as the letter demands. -/
def numbered (verbose : Bool) (letter : Char) (text : List Char) : Option (Literal × List Char) :=
  match blank verbose text with
  | [] => none
  | '{' :: rest => do
    let (content, rest) ← braced verbose (rest.length + 1) [] rest
    let digits ← content.mapM hexValue?
    if digits = [] then none
    else
      let c ← charOf? (digits.foldl (fun n d => n * 16 + d) 0)
      return (⟨c, false⟩, rest)
  | text => do
    let count := if letter = 'x' then 2 else if letter = 'u' then 4 else 8
    let (n, rest) ← hexNumeral verbose count 0 text
    return (⟨← charOf? n, letter == 'x'⟩, rest)

/-- Splits a text at the first place of a separator. -/
def cutAt? (separator : List Char) : (before : List Char) → List Char → Option (List Char × List Char)
  | _, [] => none
  | before, c :: rest =>
    if separator.isPrefixOf (c :: rest) then some (before.reverse, (c :: rest).drop separator.length)
    else cutAt? separator (c :: before) rest

/-- The class that the text between the braces of a property names, and whether its complement is meant:
a name, or a property and its value between `!=`, `:` or `=`. -/
def propertyClass? (text : List Char) : Option (CodeSet × Bool) :=
  match cutAt? ['!', '='] [] text with
  | some (property, value) => (Property.valued? property value).map (·, true)
  | none =>
    match (cutAt? [':'] [] text).or (cutAt? ['='] [] text) with
    | some (property, value) => (Property.valued? property value).map (·, false)
    | none => (Property.named? text).map (·, false)

/-- Reads a property. -/
def propertyAtom (verbose : Bool) (negated : Bool) (text : List Char) : Option (Atom × List Char) := do
  let (name, rest) ←
    match blank verbose text with
    | [] => none
    | '{' :: rest => braced verbose (rest.length + 1) [] rest
    | '\\' :: _ => none
    | c :: rest => some ([c], rest)
  let (s, complemented) ← propertyClass? name
  return (.property s (negated != complemented), rest)

/-- Reads the letters of a braced kind of word boundary. -/
def boundaryName (verbose : Bool) : (fuel : Nat) → List Char → List Char → List Char × List Char
  | 0, name, text => (name, text)
  | fuel + 1, name, text =>
    match text with
    | [] => (name, [])
    | c :: rest =>
      if isAsciiLetter c || c == '-' then boundaryName verbose fuel (name ++ [c]) (blank verbose rest)
      else (name, text)

/-- Reads what may stand behind the mark of a word boundary: a braced kind. A brace before anything but a
letter opens a repetition. -/
def boundaryAtom (verbose : Bool) (text : List Char) : Option (Atom × List Char) :=
  match text with
  | '{' :: rest =>
    match blank verbose rest with
    | [] => none
    | c :: inner =>
      if isAsciiLetter c || c == '-' then
        let (name, behind) := boundaryName verbose (inner.length + 1) [] (c :: inner)
        match behind with
        | '}' :: rest =>
          match String.ofList name with
          | "start" => some (.mark .wordStart, rest)
          | "end" => some (.mark .wordEnd, rest)
          | "start-half" => some (.mark .wordStartHalf, rest)
          | "end-half" => some (.mark .wordEndHalf, rest)
          | _ => none
        | _ => none
      else some (.mark .boundary, text)
  | _ => some (.mark .boundary, text)

/-- What a letter behind a backslash means on its own. -/
def letterAtom? : Char → Option Atom
  | 'd' => some (.letter .digit false)
  | 's' => some (.letter .space false)
  | 'w' => some (.letter .word false)
  | 'D' => some (.letter .digit true)
  | 'S' => some (.letter .space true)
  | 'W' => some (.letter .word true)
  | 'a' => some (.char ⟨Char.ofNat 7, false⟩)
  | 'f' => some (.char ⟨Char.ofNat 12, false⟩)
  | 't' => some (.char ⟨'\t', false⟩)
  | 'n' => some (.char ⟨'\n', false⟩)
  | 'r' => some (.char ⟨'\r', false⟩)
  | 'v' => some (.char ⟨Char.ofNat 11, false⟩)
  | 'A' => some (.mark .textStart)
  | 'z' => some (.mark .textEnd)
  | 'B' => some (.mark .noBoundary)
  | '<' => some (.mark .wordStart)
  | '>' => some (.mark .wordEnd)
  | _ => none

/-- Reads what stands behind a backslash. -/
def escape (verbose : Bool) : List Char → Option (Atom × List Char)
  | [] => none
  | c :: rest =>
    if c = 'x' ∨ c = 'u' ∨ c = 'U' then
      (numbered verbose c rest).map fun (l, rest) => (.char l, rest)
    else if c = 'p' ∨ c = 'P' then propertyAtom verbose (c == 'P') rest
    else if c = 'b' then boundaryAtom verbose rest
    else if isMeta c || isEscapable c then some (.char ⟨c, false⟩, rest)
    else (letterAtom? c).map (·, rest)

/-- The part of a class that an atom is. -/
def partOf? : Atom → Option ClassTree
  | .char l => some (.char l)
  | .letter kind negated => some (.letter kind negated)
  | .property s negated => some (.property s negated)
  | .mark _ => none

/-- Reads one part of a class. -/
def classPart (verbose : Bool) : List Char → Option (ClassTree × List Char)
  | [] => none
  | '\\' :: rest => do
    let (atom, rest) ← escape verbose rest
    return (← partOf? atom, rest)
  | c :: rest => some (.char ⟨c, false⟩, rest)

/-- Reads a part, or a range from one character to another. A hyphen before a bracket or another hyphen
makes no range. -/
def classRange (verbose : Bool) (text : List Char) : Option (ClassTree × List Char) := do
  let (first, rest) ← classPart verbose text
  match blank verbose rest with
  | [] => none
  | '-' :: behind =>
    let mark := behindHyphen verbose behind
    if mark = some ']' ∨ mark = some '-' then return (first, '-' :: behind)
    else
      let (last, rest) ← classPart verbose (blank verbose behind)
      match first, last with
      | .char a, .char b => if a.char ≤ b.char then return (.range a b, rest) else none
      | _, _ => none
  | rest => return (first, rest)

/-- Reads a class of ASCII characters behind its opening bracket. -/
def asciiPart? (text : List Char) : Option (ClassTree × List Char) :=
  match text with
  | ':' :: rest =>
    let (negated, rest) := match rest with
      | '^' :: rest => (true, rest)
      | _ => (false, rest)
    let name := rest.takeWhile (· != ':')
    match rest.drop name.length with
    | ':' :: ']' :: rest =>
      (asciiClass? (String.ofList name)).map fun s => (.ascii s negated, rest)
    | _ => none
  | _ => none

/-- An open bracket: whether its class is negated, what the operations before the current part made, and
the current part, its last member first. -/
structure Bracket where
  negated : Bool
  before : Option (ClassTree × ClassOp)
  parts : List ClassTree

/-- What the bracket holds so far. -/
def Bracket.content (b : Bracket) : ClassTree :=
  let part := ClassTree.ofParts b.parts.reverse
  match b.before with
  | none => part
  | some (left, op) => .operation op left part

/-- Begins a new part behind an operation. -/
def Bracket.operate (b : Bracket) (op : ClassOp) : Bracket := ⟨b.negated, some (b.content, op), []⟩

def Bracket.push (b : Bracket) (part : ClassTree) : Bracket := { b with parts := part :: b.parts }

/-- Reads the hyphens at the start of a class, which stand for themselves. -/
def openingHyphens (verbose : Bool) :
    (fuel : Nat) → List ClassTree → List Char → Option (List ClassTree × List Char)
  | 0, _, _ => none
  | fuel + 1, parts, text =>
    match text with
    | [] => none
    | '-' :: rest => openingHyphens verbose fuel (.char ⟨'-', false⟩ :: parts) (blank verbose rest)
    | _ => some (parts, text)

/-- Reads the start of a class behind its opening bracket. -/
def openBracket (verbose : Bool) (text : List Char) : Option (Bracket × List Char) := do
  let text := blank verbose text
  let (negated, text) := match text with
    | '^' :: rest => (true, blank verbose rest)
    | _ => (false, text)
  let (parts, text) ← openingHyphens verbose (text.length + 1) [] text
  match parts, text with
  | [], ']' :: rest =>
    match blank verbose rest with
    | [] => none
    | rest => return (⟨negated, none, [.char ⟨']', false⟩]⟩, rest)
  | _, _ => return (⟨negated, none, parts⟩, text)

/-- Reads a class up to its last closing bracket: whether it is negated, and what it holds. -/
def classFrom (verbose : Bool) :
    (fuel : Nat) → Bracket → List Bracket → List Char → Option ((Bool × ClassTree) × List Char)
  | 0, _, _, _ => none
  | fuel + 1, b, outer, text =>
    match blank verbose text with
    | [] => none
    | '[' :: rest =>
      match asciiPart? rest with
      | some (part, rest) => classFrom verbose fuel (b.push part) outer rest
      | none => do
        let (inner, rest) ← openBracket verbose rest
        classFrom verbose fuel inner (b :: outer) rest
    | ']' :: rest =>
      match outer with
      | [] => some ((b.negated, b.content), rest)
      | o :: outer => classFrom verbose fuel (o.push (.bracket b.negated b.content)) outer rest
    | '&' :: '&' :: rest => classFrom verbose fuel (b.operate .inter) outer rest
    | '-' :: '-' :: rest => classFrom verbose fuel (b.operate .difference) outer rest
    | '~' :: '~' :: rest => classFrom verbose fuel (b.operate .symmetricDifference) outer rest
    | text => do
      let (part, rest) ← classRange verbose text
      classFrom verbose fuel (b.push part) outer rest

/-- Reads a class behind its opening bracket. -/
def bracketed (verbose : Bool) (text : List Char) : Option (Tree × List Char) := do
  let (b, rest) ← openBracket verbose text
  let ((negated, body), rest) ← classFrom verbose (rest.length + 1) b [] rest
  return (.bracket negated body, rest)

/-- The numbers in a pattern have 32 bits. -/
def numberLimit : Nat := Nat.pow 2 32

/-- Reads decimal digits, between which nothing may be said. -/
def decimalDigits (verbose : Bool) : (fuel : Nat) → List Char → List Char → List Char × List Char
  | 0, digits, text => (digits, text)
  | fuel + 1, digits, text =>
    match text with
    | [] => (digits, [])
    | c :: rest =>
      if isAsciiDigit c then decimalDigits verbose fuel (digits ++ [c]) (blank verbose rest)
      else (digits, text)

/-- Reads a decimal number with blanks around it. -/
def decimal (verbose : Bool) (text : List Char) : Option (Nat × List Char) :=
  let text := text.dropWhile isSpace
  let (digits, rest) := decimalDigits verbose (text.length + 1) [] text
  let n := digits.foldl (fun n c => min numberLimit (n * 10 + (c.toNat - 48))) 0
  if digits = [] ∨ numberLimit ≤ n then none
  else
    match rest with
    | [] => some (n, [])
    | c :: _ => some (n, if isSpace c then blank verbose (rest.dropWhile isSpace) else rest)

/-- Reads a counted repetition behind its opening brace: the bounds, and the rest behind a question mark
that may follow. -/
def bounds (verbose : Bool) (text : List Char) : Option ((Nat × Option Nat) × List Char) := do
  let (least, rest) ← decimal verbose (blank verbose text)
  let ((least, most), rest) ←
    match rest with
    | ',' :: rest =>
      match blank verbose rest with
      | '}' :: _ => some ((least, none), blank verbose rest)
      | rest => (decimal verbose rest).map fun (most, rest) => ((least, some most), rest)
    | _ => some ((least, some least), rest)
  match rest with
  | '}' :: rest =>
    let rest := match blank verbose rest with
      | '?' :: behind => behind
      | _ => rest
    match most with
    | some most => if least ≤ most then return ((least, some most), rest) else none
    | none => return ((least, none), rest)
  | _ => none

/-- Drops the question mark behind a repetition. -/
def dropLazy : List Char → List Char
  | '?' :: rest => rest
  | rest => rest

/-- The flag that a letter names. -/
def flagOf? : Char → Option Flag
  | 'i' => some .ignoreCase
  | 'm' => some .multiLine
  | 's' => some .dotAll
  | 'U' => some .swapGreed
  | 'u' => some .unicode
  | 'R' => some .carriage
  | 'x' => some .verbose
  | _ => none

/-- The flags that a mark sets, up to its closing character. No letter may stand twice, and a hyphen not
at the end. -/
def settings (on : Bool) (seen : List Char) (flags : List Setting) :
    List Char → Option (List Setting × List Char)
  | [] => none
  | c :: rest =>
    if c = ':' ∨ c = ')' then
      if seen.head? = some '-' then none else some (flags, c :: rest)
    else if seen.contains c then none
    else if c = '-' then settings false (c :: seen) flags rest
    else (flagOf? c).bind fun flag => settings on (c :: seen) (flags ++ [(flag, on)]) rest

/-- Whether blanks say nothing under further settings. -/
def verboseUnder (flags : List Setting) (verbose : Bool) : Bool :=
  match flags.find? fun s => s.1 == .verbose with
  | some (_, on) => on
  | none => verbose

def isNameStart (c : Char) : Bool := c == '_' || isAlphabetic c

def isNamePart (c : Char) : Bool :=
  c == '_' || c == '.' || c == '[' || c == ']' || isAlphanumeric c

/-- Reads the name of a group up to its closing mark. -/
def groupName (text : List Char) : Option (List Char × List Char) :=
  let name := text.takeWhile (· != '>')
  match name, text.drop name.length with
  | first :: others, _ :: rest =>
    if isNameStart first && others.all isNamePart then some (name, rest) else none
  | _, _ => none

/-- A sequence and the alternatives before it, the last part first. -/
structure Branches where
  done : List Tree := []
  parts : List Tree := []

namespace Branches

def push (b : Branches) (t : Tree) : Branches := { b with parts := t :: b.parts }

/-- Begins a new alternative. -/
def alternate (b : Branches) : Branches := ⟨Tree.ofSequence b.parts.reverse :: b.done, []⟩

def tree (b : Branches) : Tree := Tree.ofAlternatives b.alternate.done.reverse

/-- Repeats the last part of the sequence. -/
def repeatLast (b : Branches) (least : Nat) (most : Option Nat) : Option Branches :=
  match b.parts with
  | [] => none
  | .settings _ :: _ => none
  | t :: rest => some { b with parts := .times t least most :: rest }

end Branches

/-- A group that is still open: what stands before it, whether its match is captured, its flags, and
whether blanks say nothing behind it. -/
structure OpenGroup where
  before : Branches
  captured : Bool
  flags : List Setting
  verbose : Bool

/-- What has been read: the innermost sequence, the groups around it, and the names of groups. -/
structure Progress where
  verbose : Bool := false
  branches : Branches := {}
  outer : List OpenGroup := []
  names : List (List Char) := []

namespace Progress

/-- Opens a group. -/
def enter (s : Progress) (captured : Bool) (flags : List Setting) : Progress :=
  { s with
    verbose := verboseUnder flags s.verbose
    branches := {}
    outer := ⟨s.branches, captured, flags, s.verbose⟩ :: s.outer }

/-- Closes the innermost group. -/
def leave (s : Progress) : Option Progress :=
  match s.outer with
  | [] => none
  | g :: outer =>
    some { s with
      verbose := g.verbose
      branches := g.before.push (.group g.captured g.flags s.branches.tree)
      outer }

def push (s : Progress) (t : Tree) : Progress := { s with branches := s.branches.push t }

/-- Opens a group with a name. -/
def enterNamed (s : Progress) (text : List Char) : Option (Progress × List Char) := do
  let (name, rest) ← groupName text
  if s.names.contains name then none
  else return ({ s.enter true [] with names := name :: s.names }, rest)

/-- Reads what stands behind an opening parenthesis. -/
def group (s : Progress) (text : List Char) : Option (Progress × List Char) :=
  match blank s.verbose text with
  | '?' :: '=' :: _ => none
  | '?' :: '!' :: _ => none
  | '?' :: '<' :: '=' :: _ => none
  | '?' :: '<' :: '!' :: _ => none
  | '?' :: 'P' :: '<' :: rest => s.enterNamed rest
  | '?' :: '<' :: rest => s.enterNamed rest
  | '?' :: rest => do
    let (flags, closing) ← settings true [] [] rest
    match closing with
    | ')' :: behind =>
      if rest.head? = some ')' then none
      else return ({ s.push (.settings flags) with verbose := verboseUnder flags s.verbose }, behind)
    | _ :: behind => return (s.enter false flags, behind)
    | [] => none
  | rest => some (s.enter true [], rest)

/-- Repeats the last part. -/
def again (s : Progress) (least : Nat) (most : Option Nat) (rest : List Char) :
    Option (Progress × List Char) :=
  (s.branches.repeatLast least most).map fun branches => ({ s with branches }, rest)

/-- Reads the part of a pattern that a character begins. -/
def step (s : Progress) (c : Char) (rest : List Char) : Option (Progress × List Char) :=
  match c with
  | '(' => s.group rest
  | ')' => s.leave.map (·, rest)
  | '|' => some ({ s with branches := s.branches.alternate }, rest)
  | '[' => (bracketed s.verbose rest).map fun (t, rest) => (s.push t, rest)
  | '?' => s.again 0 (some 1) (dropLazy rest)
  | '*' => s.again 0 none (dropLazy rest)
  | '+' => s.again 1 none (dropLazy rest)
  | '{' => (bounds s.verbose rest).bind fun ((least, most), rest) => s.again least most rest
  | '.' => some (s.push .dot, rest)
  | '^' => some (s.push (.mark .lineStart), rest)
  | '$' => some (s.push (.mark .lineEnd), rest)
  | '\\' => (escape s.verbose rest).map fun (atom, rest) =>
    let t : Tree := match atom with
      | .char l => .char l
      | .letter kind negated => .letter kind negated
      | .property set negated => .property set negated
      | .mark m => .mark m
    (s.push t, rest)
  | c => some (s.push (.char ⟨c, false⟩), rest)

/-- Reads a pattern to its end. Every step passes a character. -/
def run : (fuel : Nat) → Progress → List Char → Option Tree
  | 0, _, _ => none
  | fuel + 1, s, text =>
    match blank s.verbose text with
    | [] => if s.outer.isEmpty then some s.branches.tree else none
    | c :: rest => (s.step c rest).bind fun (s, rest) => run fuel s rest

end Progress

/-- The tree that a text writes. -/
def Tree.ofText? (text : String) : Option Tree :=
  let chars := text.toList
  Progress.run (chars.length + 1) {} chars

end WebBundle.Pattern
