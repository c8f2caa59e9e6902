import WebBundle.Text.CodeSet

namespace WebBundle.Pattern

open WebBundle.Text

/-- A character in a pattern. One that two hexadecimal digits write is a byte where Unicode is switched
off. -/
structure Literal where
  char : Char
  isByte : Bool
  deriving DecidableEq, Repr

/-- The classes that a letter behind a backslash names. -/
inductive LetterClass where
  | digit
  | space
  | word
  deriving DecidableEq, Repr

/-- The operations between the parts of a class. -/
inductive ClassOp where
  | inter
  | difference
  | symmetricDifference
  deriving DecidableEq, Repr

/-- What stands between the brackets of a class. -/
inductive ClassTree where
  | empty
  | char (l : Literal)
  | range (first last : Literal)
  /-- A class of ASCII characters, such as `[:alpha:]`. -/
  | ascii (s : CodeSet) (negated : Bool)
  /-- A class of characters with a property. -/
  | property (s : CodeSet) (negated : Bool)
  | letter (kind : LetterClass) (negated : Bool)
  | bracket (negated : Bool) (body : ClassTree)
  /-- Two or more parts beside each other. -/
  | union (parts : List ClassTree)
  | operation (op : ClassOp) (left right : ClassTree)
  deriving Repr

namespace ClassTree

/-- Parts beside each other. -/
def ofParts : List ClassTree → ClassTree
  | [] => .empty
  | [part] => part
  | parts => .union parts

end ClassTree

/-- What a letter between `(?` and `)` switches on or off. -/
inductive Flag where
  | ignoreCase
  | multiLine
  | dotAll
  | swapGreed
  | unicode
  | carriage
  /-- Whether blanks and comments in the pattern say nothing. -/
  | verbose
  deriving DecidableEq, Repr

/-- A flag and whether it is switched on. -/
abbrev Setting := Flag × Bool

/-- A mark of a place in a text. -/
inductive Mark where
  | lineStart
  | lineEnd
  | textStart
  | textEnd
  | boundary
  | noBoundary
  | wordStart
  | wordEnd
  | wordStartHalf
  | wordEndHalf
  deriving DecidableEq, Repr

/-- A pattern as it is written. -/
inductive Tree where
  | empty
  | settings (flags : List Setting)
  | char (l : Literal)
  | dot
  | mark (m : Mark)
  | property (s : CodeSet) (negated : Bool)
  | letter (kind : LetterClass) (negated : Bool)
  | bracket (negated : Bool) (body : ClassTree)
  /-- At least `least` times, and at most `most` times if there is a bound. -/
  | times (t : Tree) (least : Nat) (most : Option Nat)
  /-- A group under flags of its own, and whether its match is captured. -/
  | group (captured : Bool) (flags : List Setting) (t : Tree)
  /-- One of two or more alternatives. -/
  | alt (ts : List Tree)
  /-- Two or more parts one after another. -/
  | seq (ts : List Tree)
  deriving Repr

namespace Tree

/-- Parts one after another. -/
def ofSequence : List Tree → Tree
  | [] => .empty
  | [t] => t
  | ts => .seq ts

/-- Alternatives. -/
def ofAlternatives : List Tree → Tree
  | [] => .empty
  | [t] => t
  | ts => .alt ts

end Tree

mutual

/-- How deep the parts of a class are nested. -/
def ClassTree.depth : ClassTree → Nat
  | .bracket _ body => body.depth + 1
  | .union parts => ClassTree.depths parts + 1
  | .operation _ left right => max left.depth right.depth + 1
  | _ => 0

def ClassTree.depths : List ClassTree → Nat
  | [] => 0
  | part :: rest => max part.depth (ClassTree.depths rest)

end

mutual

/-- How deep the parts of a pattern are nested. -/
def Tree.depth : Tree → Nat
  | .bracket _ body => body.depth + 1
  | .times t _ _ => t.depth + 1
  | .group _ _ t => t.depth + 1
  | .alt ts => Tree.depths ts + 1
  | .seq ts => Tree.depths ts + 1
  | _ => 0

def Tree.depths : List Tree → Nat
  | [] => 0
  | t :: rest => max t.depth (Tree.depths rest)

end

/-- No part of a pattern may lie deeper. -/
def depthLimit : Nat := 250

end WebBundle.Pattern
