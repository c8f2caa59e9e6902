import WebBundle.Pattern.Basic

/-!
How large the automaton is that reads a text byte by byte and finds a pattern in it, forward or backward.
No automaton is built: its size follows from the pattern. Patterns whose automaton would be too large are
refused.
-/

namespace WebBundle.Pattern

open WebBundle.Text

/-- The direction in which an automaton reads. -/
inductive Direction where
  | forward
  | backward
  deriving DecidableEq, Repr

/-- The bytes of memory of a state. -/
def stateSize : Nat := 32

/-- The bytes that a state needs for each range of bytes on which it goes on. -/
def arrowSize : Nat := 8

/-- The bytes that a state needs for each state among which it chooses. -/
def branchSize : Nat := 4

/-- The bytes that an automaton may have. -/
def sizeLimit : Nat := 10 * 1024 * 1024

/-- The bytes of a state that goes on for some ranges of bytes. -/
def arrowsSize (count : Nat) : Nat := stateSize + count * arrowSize

/-- The bytes of a state that chooses among some others. -/
def branchesSize (count : Nat) : Nat := stateSize + count * branchSize

def total (sizes : List Nat) : Nat := sizes.foldl (· + ·) 0

/-- Inclusive ranges of the bytes of some characters, from the first byte to the last. -/
abbrev ByteRanges := List (Nat × Nat)

/-- The bytes of a character. -/
def bytesOf (code : Nat) : List Nat := (String.utf8EncodeChar (Char.ofNat code)).map UInt8.toNat

/-- The parts of a range of code points that have the same number of bytes. -/
def byLength (r : Nat × Nat) : List (Nat × Nat) :=
  [(0, 0x7F), (0x80, 0x7FF), (0x800, 0xFFFF), (0x10000, 0x10FFFF)].filterMap fun part =>
    let common := (max r.1 part.1, min r.2 part.2)
    if common.1 ≤ common.2 then some common else none

/-- The parts of a range between multiples of a block's size: the rest of the first block, whole blocks, and
the start of the last block. A range in one block stays. -/
def byBlock (size : Nat) (r : Nat × Nat) : List (Nat × Nat) :=
  if r.1 / size = r.2 / size then [r]
  else
    let whole := ((r.1 + size - 1) / size * size, (r.2 + 1) / size * size)
    [(r.1, whole.1 - 1), (whole.1, whole.2 - 1), (whole.2, r.2)].filter fun part =>
      part.1 ≤ part.2 && r.1 ≤ part.2 && part.1 ≤ r.2

/-- The byte ranges of the characters in a range, in which each byte may be chosen freely. -/
def byteRanges (r : Nat × Nat) : List ByteRanges :=
  let parts := (byLength r).flatMap fun part =>
    ((byBlock 0x40 part).flatMap (byBlock 0x1000)).flatMap (byBlock 0x40000)
  parts.map fun part => (bytesOf part.1).zip (bytesOf part.2)

/-- Groups what begins with the same range. -/
def grouped (ways : List ByteRanges) : List (List ByteRanges) :=
  ways.splitBy fun a b => a.head? == b.head?

/-- The states that read the bytes of a class: for each the ways that lead from it to the end. -/
def branching : (depth : Nat) → (ways : List ByteRanges) → List (List ByteRanges)
  | 0, _ => []
  | depth + 1, ways =>
    if ways.all List.isEmpty then []
    else ways :: (grouped ways).flatMap fun group => branching depth (group.map List.tail)

/-- The size of a class. Forward, states with the same ways to the end are one; backward, ways share the
states of the bytes that they have in common at their start. -/
def classSize (direction : Direction) (s : CodeSet) : Nat :=
  if s.isAscii then stateSize + arrowsSize s.ranges.size
  else
    let ways := s.ranges.toList.flatMap byteRanges
    let states := branching 4 ways
    match direction with
    | .forward => stateSize + total (states.eraseDups.map fun ways => arrowsSize (grouped ways).length)
    | .backward =>
      stateSize + branchesSize ways.length +
        total (states.map fun ways => (grouped ways).length * stateSize)

/-- The common starts of several words. The branches of a node are kept in the order in which they came;
where a word ends, those that come later stand apart. -/
inductive Stem where
  | node (closed : List (List (Nat × Stem))) (current : List (Nat × Stem))

namespace Stem

/-- A node without branches. -/
def leaf : Stem := .node [] []

/-- The stem of one word. -/
def ofWord : List Nat → Stem
  | [] => .node [[]] []
  | b :: rest => .node [] [(b, ofWord rest)]

mutual

/-- Adds a word to a stem. -/
def insert (word : List Nat) : Stem → Stem
  | .node closed current =>
    match word with
    | [] =>
      if closed.all List.isEmpty && current.isEmpty && !closed.isEmpty then .node closed current
      else .node (closed ++ [current]) []
    | b :: rest => .node closed (insertBranch b rest current)

/-- Adds a word to the branches of a node. -/
def insertBranch (b : Nat) (rest : List Nat) : List (Nat × Stem) → List (Nat × Stem)
  | [] => [(b, ofWord rest)]
  | (c, s) :: others =>
    if b = c then (c, s.insert rest) :: others else (c, s) :: insertBranch b rest others

end

/-- The number of bytes for one group of branches. -/
def groupSize (count : Nat) : Nat :=
  if count = 0 then 0 else if count = 1 then stateSize else arrowsSize count

mutual

/-- The size of a node and what is behind it. A leaf is the end, which is counted once. -/
def size : Stem → Nat
  | .node closed current =>
    if closed.all List.isEmpty && current.isEmpty then 0
    else
      let groups := closed.map List.length ++ [current.length]
      total (groups.map groupSize) +
        branchesSize ((groups.filter (0 < ·)).length + closed.length) +
        groupsSize closed + branchSizes current

def groupsSize : List (List (Nat × Stem)) → Nat
  | [] => 0
  | branches :: rest => branchSizes branches + groupsSize rest

def branchSizes : List (Nat × Stem) → Nat
  | [] => 0
  | (_, s) :: rest => s.size + branchSizes rest

end

end Stem

/-- The bytes of a literal in the order in which they are read. -/
def literalBytes (direction : Direction) (chars : List Char) : List Nat :=
  let bytes := chars.flatMap fun c => bytesOf c.toNat
  match direction with
  | .forward => bytes
  | .backward => bytes.reverse

/-- The characters of a literal. -/
def literal? : Pattern → Option (List Char)
  | .literal chars => some chars
  | _ => none

/-- Whether a pattern matches no empty text. -/
def consumes (p : Pattern) : Bool := (shortest p).any (0 < ·)

/-- The part of a sequence that is read last. -/
def lastRead (direction : Direction) (ends : List Bool) : Bool :=
  match direction with
  | .forward => ends.getLast?.getD false
  | .backward => ends.head?.getD false

mutual

/-- Whether the automaton of a pattern ends in a state that chooses: to repeat or to go on. -/
def endsInChoice (direction : Direction) : Pattern → Bool
  | .seq ps => lastRead direction (endsInChoices direction ps)
  | .times p least most =>
    match least, most with
    | 0, none => consumes p
    | _ + 1, none => true
    | 0, some _ => false
    | least + 1, some most => least + 1 = most && endsInChoice direction p
  | .group p => direction = .backward && endsInChoice direction p
  | _ => false

def endsInChoices (direction : Direction) : List Pattern → List Bool
  | [] => []
  | p :: rest => endsInChoice direction p :: endsInChoices direction rest

end

/-- The bytes that it takes to go on behind a pattern. -/
def joinSize (direction : Direction) (p : Pattern) : Nat :=
  if endsInChoice direction p then branchSize else 0

/-- The bytes that join the parts of a sequence, of which all but the last read one have a part behind
them. -/
def joinSizes (direction : Direction) (ps : List Pattern) : Nat :=
  let joined := match direction with
    | .forward => ps.dropLast
    | .backward => ps.tail
  total (joined.map (joinSize direction))

/-- The size of a pattern that is repeated, if once it has a size and needs some bytes to go on. -/
def timesSize (size join : Nat) (consumes : Bool) (least : Nat) : (most : Option Nat) → Nat
  | none =>
    if least = 0 then
      if consumes then size + join + branchesSize 1
      else size + join + 2 * branchesSize 2 + stateSize
    else least * (size + join) + branchesSize 1
  | some most =>
    if least = 0 ∧ most = 1 then size + join + branchesSize 2 + stateSize
    else if least = most then least * size + (least - 1) * join
    else
      let start := if least = 0 then stateSize else least * (size + join)
      start + stateSize + (most - least) * (size + join + branchesSize 2)

mutual

/-- The size of the automaton of a pattern. -/
def size (direction : Direction) : Pattern → Nat
  | .empty => stateSize
  | .literal chars => (literalBytes direction chars).length * stateSize
  | .class s => classSize direction s
  | .look _ => stateSize
  | .seq ps => sizes direction ps + joinSizes direction ps
  | .alt ps =>
    match ps.mapM literal? with
    | some words =>
      stateSize +
        (words.foldl (fun stem word => stem.insert (literalBytes direction word)) Stem.leaf).size
    | none =>
      branchesSize ps.length + stateSize + sizes direction ps + total (ps.map (joinSize direction))
  | .times p least most =>
    timesSize (size direction p) (joinSize direction p) (consumes p) least most
  | .group p =>
    match direction with
    | .forward => size direction p + joinSize direction p + 2 * stateSize
    | .backward => size direction p

def sizes (direction : Direction) : List Pattern → Nat
  | [] => 0
  | p :: rest => size direction p + sizes direction rest

end

mutual

/-- Whether every match of a pattern begins with a condition, in the order of reading. -/
def beginsWith (direction : Direction) (l : Look) : Pattern → Bool
  | .look m => m == l
  | .seq ps => sequenceBeginsWith direction l ps
  | .alt ps => allBeginWith direction l ps
  | .times p least _ => 0 < least && beginsWith direction l p
  | .group p => beginsWith direction l p
  | _ => false

/-- Whether a sequence begins with a condition: one of its parts does, and all read before it match the empty
text only. -/
def sequenceBeginsWith (direction : Direction) (l : Look) : List Pattern → Bool
  | [] => false
  | p :: rest =>
    match direction with
    | .forward =>
      beginsWith direction l p || (longest p == some 0 && sequenceBeginsWith direction l rest)
    | .backward =>
      sequenceBeginsWith direction l rest ||
        ((rest.all fun q => longest q == some 0) && beginsWith direction l p)

def allBeginWith (direction : Direction) (l : Look) : List Pattern → Bool
  | [] => true
  | p :: rest => beginsWith direction l p && allBeginWith direction l rest

end

/-- The size of the automaton that finds a pattern. It passes any bytes first, unless the pattern holds at an
end of the text only; forward it notes where the match lies. -/
def searchSize (direction : Direction) (p : Pattern) : Nat :=
  let start := match direction with
    | .forward => Look.textStart
    | .backward => Look.textEnd
  let lead :=
    if beginsWith direction start p then stateSize
    else stateSize + arrowsSize 1 + branchesSize 1 + branchSize
  let noted := match direction with
    | .forward => 2 * stateSize
    | .backward => 0
  lead + noted + size direction p + joinSize direction p + stateSize

/-- Whether a pattern's automata are small enough. -/
def isSmall (p : Pattern) : Bool :=
  searchSize .forward p ≤ sizeLimit && searchSize .backward p ≤ sizeLimit

end WebBundle.Pattern
