import WebBundle.Text.CodeSet

/-!
Patterns that a text can be searched for. They are built by functions that keep them simple: sequences lie
in no sequence, alternatives in no alternative, neighbouring characters form one literal, and a class has
not exactly one character.
-/

namespace WebBundle

open WebBundle.Text

/-- A condition on a place between two characters. -/
inductive Look where
  | textStart
  | textEnd
  /-- Behind a line break or at the start. A carriage return counts as a break on demand. -/
  | lineStart (carriage : Bool)
  | lineEnd (carriage : Bool)
  /-- Conditions on the word characters around the place, those of ASCII on demand. -/
  | boundary (ascii : Bool)
  | noBoundary (ascii : Bool)
  | wordStart (ascii : Bool)
  | wordEnd (ascii : Bool)
  | wordStartHalf (ascii : Bool)
  | wordEndHalf (ascii : Bool)
  deriving DecidableEq, Repr

/-- A pattern. -/
inductive Pattern where
  | empty
  | literal (chars : List Char)
  /-- One character of a class. -/
  | class (s : CodeSet)
  | look (l : Look)
  | seq (ps : List Pattern)
  | alt (ps : List Pattern)
  /-- At least `least` times, and at most `most` times if there is a bound. -/
  | times (p : Pattern) (least : Nat) (most : Option Nat)
  /-- A group whose match is captured. -/
  | group (p : Pattern)
  deriving BEq, Repr

namespace Pattern

/-- The number of bytes of a character. -/
def byteCount (c : Char) : Nat := c.utf8Size

/-- The least of some lengths, if there is one for each. -/
def leastOf : List (Option Nat) → Option Nat
  | [] => none
  | [length] => length
  | length :: rest => do return min (← length) (← leastOf rest)

/-- The greatest of some lengths, if there is one for each. -/
def greatestOf : List (Option Nat) → Option Nat
  | [] => none
  | [length] => length
  | length :: rest => do return max (← length) (← greatestOf rest)

/-- The sum of some lengths, if there is one for each. -/
def sumOf : List (Option Nat) → Option Nat
  | [] => some 0
  | length :: rest => do return (← length) + (← sumOf rest)

mutual

/-- The number of bytes of the shortest match. A pattern that matches nothing has none. -/
def shortest : Pattern → Option Nat
  | .empty => some 0
  | .literal chars => some (chars.foldl (fun n c => n + byteCount c) 0)
  | .class s => s.ranges[0]?.map fun r => byteCount (Char.ofNat r.1)
  | .look _ => some 0
  | .seq ps => sumOf (shortestAll ps)
  | .alt ps => leastOf (shortestAll ps)
  | .times p least _ => (shortest p).map (· * least)
  | .group p => shortest p

def shortestAll : List Pattern → List (Option Nat)
  | [] => []
  | p :: rest => shortest p :: shortestAll rest

end

mutual

/-- The number of bytes of the longest match, if there is a bound. -/
def longest : Pattern → Option Nat
  | .empty => some 0
  | .literal chars => some (chars.foldl (fun n c => n + byteCount c) 0)
  | .class s => s.ranges.back?.map fun r => byteCount (Char.ofNat r.2)
  | .look _ => some 0
  | .seq ps => sumOf (longestAll ps)
  | .alt ps => greatestOf (longestAll ps)
  | .times p _ most => do return (← longest p) * (← most)
  | .group p => longest p

def longestAll : List Pattern → List (Option Nat)
  | [] => []
  | p :: rest => longest p :: longestAll rest

end

/-- One character of a set. -/
def ofSet (s : CodeSet) : Pattern :=
  match s.single? with
  | some c => .literal [c]
  | none => .class s

/-- A pattern in front of a sequence. -/
def inFront (p : Pattern) (rest : List Pattern) : List Pattern :=
  match p, rest with
  | .empty, rest => rest
  | .literal a, .literal b :: rest => .literal (a ++ b) :: rest
  | p, rest => p :: rest

/-- Patterns one after another. -/
def ofSequence (ps : List Pattern) : Pattern :=
  let parts := ps.flatMap fun
    | .seq qs => qs
    | p => [p]
  match parts.foldr inFront [] with
  | [] => .empty
  | [p] => p
  | ps => .seq ps

mutual

/-- Whether a match of a part of a pattern is captured. -/
def captures : Pattern → Bool
  | .seq ps => anyCaptures ps
  | .alt ps => anyCaptures ps
  | .times p _ _ => captures p
  | .group _ => true
  | _ => false

def anyCaptures : List Pattern → Bool
  | [] => false
  | p :: rest => captures p || anyCaptures rest

end

/-- The parts that the first of two sequences has in common with the second at its start. What is captured
is captured once. -/
def commonStart : List Pattern → List Pattern → List Pattern
  | p :: ps, q :: qs => if p == q && !p.captures then p :: commonStart ps qs else []
  | _, _ => []

/-- The parts of a sequence. -/
def sequence? : Pattern → Option (List Pattern)
  | .seq ps => some ps
  | _ => none

/-- The character of a literal with one character. -/
def char? : Pattern → Option Char
  | .literal [c] => some c
  | _ => none

/-- The set of a class. -/
def set? : Pattern → Option CodeSet
  | .class s => some s
  | _ => none

/-- One of several patterns. Single characters make a class, and so do classes; what all alternatives begin
with is written once. -/
def ofAlternativesFrom : (fuel : Nat) → List Pattern → Pattern
  | fuel, ps =>
    let parts := ps.flatMap fun
      | .alt qs => qs
      | p => [p]
    match parts with
    | [] => .class .empty
    | [p] => p
    | first :: others =>
      match parts.mapM char?, parts.mapM set?, fuel, parts.mapM sequence? with
      | some chars, _, _, _ => ofSet (.ofRanges (chars.map fun c => (c.toNat, c.toNat)))
      | _, some sets, _, _ => ofSet (.unions sets)
      | _, _, fuel + 1, some (one :: more) =>
        let common := more.foldl commonStart one
        if common = [] then .alt (first :: others)
        else
          let rests := (one :: more).map fun ps => ofSequence (ps.drop common.length)
          ofSequence (common ++ [ofAlternativesFrom fuel rests])
      | _, _, _, _ => .alt (first :: others)

/-- One of several patterns. -/
def ofAlternatives (ps : List Pattern) : Pattern := ofAlternativesFrom ps.length ps

/-- A pattern a number of times. What matches the empty text only is not repeated. -/
def repeated (p : Pattern) (least : Nat) (most : Option Nat) : Pattern :=
  let (least, most) := match longest p with
    | some 0 => (min least 1, some (match most with
      | some n => min n 1
      | none => 1))
    | _ => (least, most)
  if most = some 0 then .empty
  else if least = 1 ∧ most = some 1 then p
  else .times p least most

end Pattern

end WebBundle
