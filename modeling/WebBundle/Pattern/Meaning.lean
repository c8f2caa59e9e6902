import WebBundle.Pattern.Basic
import WebBundle.Pattern.Property
import WebBundle.Pattern.Tree
import WebBundle.Text.Classes
import WebBundle.Text.Folding

/-!
What a written pattern means under the flags at each of its places. Without Unicode a pattern may name
single bytes, but only as long as every match is text; a part that could match another byte makes the
pattern invalid.
-/

namespace WebBundle.Pattern

open WebBundle.Text

/-- How the following part of a pattern is meant. -/
structure Flags where
  ignoreCase : Bool := false
  multiLine : Bool := false
  dotAll : Bool := false
  unicode : Bool := true
  carriage : Bool := false
  deriving DecidableEq, Repr

namespace Flags

/-- Switches a flag. Which of several matches is preferred does not matter, and blanks have been read. -/
def set (f : Flags) (s : Setting) : Flags :=
  match s.1 with
  | .ignoreCase => { f with ignoreCase := s.2 }
  | .multiLine => { f with multiLine := s.2 }
  | .dotAll => { f with dotAll := s.2 }
  | .unicode => { f with unicode := s.2 }
  | .carriage => { f with carriage := s.2 }
  | .swapGreed => f
  | .verbose => f

def setAll (f : Flags) (settings : List Setting) : Flags := settings.foldl set f

/-- The characters that are meant by those of a set. -/
def meant (f : Flags) (s : CodeSet) : CodeSet :=
  if f.ignoreCase then (if f.unicode then s.folded else s.asciiFolded) else s

/-- The set or its complement. Without Unicode a complement holds bytes that are no text. -/
def complemented? (f : Flags) (negated : Bool) (s : CodeSet) : Option CodeSet :=
  if negated then (if f.unicode then some s.complement else none) else some s

end Flags

/-- The characters of a class with a letter. Without Unicode they are those of ASCII. -/
def LetterClass.characters (unicode : Bool) : LetterClass → CodeSet
  | .digit => if unicode then decimalNumbers else .ofText ["30-39"]
  | .space => if unicode then whiteSpace else .ofText ["9-D 20"]
  | .word => if unicode then wordCodes else .ofText ["30-39 41-5A 5F 61-7A"]

/-- The character of a literal in a class. Without Unicode it has one byte. -/
def Literal.inClass? (f : Flags) (l : Literal) : Option Nat :=
  if f.unicode || l.char.toNat < 128 then some l.char.toNat else none

/-- Joins two parts of a class. -/
def ClassOp.apply (f : Flags) (op : ClassOp) (s t : CodeSet) : CodeSet :=
  match op with
  | .inter => .inter (f.meant s) (f.meant t)
  | .difference => (f.meant s).difference (f.meant t)
  | .symmetricDifference => (f.meant s).symmetricDifference (f.meant t)

/-- The characters with a property, or those without. -/
def propertySet? (f : Flags) (s : CodeSet) (negated : Bool) : Option CodeSet :=
  if f.unicode then f.complemented? negated (f.meant s) else none

mutual

/-- The characters of a class. -/
def ClassTree.characters? (f : Flags) : ClassTree → Option CodeSet
  | .empty => some .empty
  | .char l => (l.inClass? f).map fun n => .range n n
  | .range first last => do return .range (← first.inClass? f) (← last.inClass? f)
  | .ascii s negated => f.complemented? negated (f.meant s)
  | .property s negated => propertySet? f s negated
  | .letter kind negated => f.complemented? negated (kind.characters f.unicode)
  | .bracket negated body => do f.complemented? negated (f.meant (← body.characters? f))
  | .union parts => do return .unions (← ClassTree.allCharacters? f parts)
  | .operation op left right => do
    return op.apply f (← left.characters? f) (← right.characters? f)

def ClassTree.allCharacters? (f : Flags) : List ClassTree → Option (List CodeSet)
  | [] => some []
  | part :: rest => do return (← part.characters? f) :: (← ClassTree.allCharacters? f rest)

end

/-- One character as a pattern. A byte beyond ASCII is no text. -/
def Literal.pattern? (f : Flags) (l : Literal) : Option Pattern :=
  if f.unicode || l.char.toNat < 128 then some (ofSet (f.meant (.single l.char)))
  else if l.isByte then none
  else some (.literal [l.char])

/-- The pattern of a dot: any character, but without the flag for it no line break. -/
def dot? (f : Flags) : Option Pattern :=
  if !f.unicode then none
  else if f.dotAll then some (.class .all)
  else if f.carriage then some (.class (CodeSet.complement (.ofText ["A D"])))
  else some (.class (CodeSet.complement (.ofText ["A"])))

/-- The condition that a mark names. -/
def Mark.look (f : Flags) : Mark → Look
  | .lineStart => if f.multiLine then .lineStart f.carriage else .textStart
  | .lineEnd => if f.multiLine then .lineEnd f.carriage else .textEnd
  | .textStart => .textStart
  | .textEnd => .textEnd
  | .boundary => .boundary (!f.unicode)
  | .noBoundary => .noBoundary (!f.unicode)
  | .wordStart => .wordStart (!f.unicode)
  | .wordEnd => .wordEnd (!f.unicode)
  | .wordStartHalf => .wordStartHalf (!f.unicode)
  | .wordEndHalf => .wordEndHalf (!f.unicode)

mutual

/-- The pattern that a tree means, and the flags behind it. Flags that are set in a group hold up to its
end. -/
def Tree.pattern? (f : Flags) : Tree → Option (Pattern × Flags)
  | .empty => some (.empty, f)
  | .settings flags => some (.empty, f.setAll flags)
  | .char l => (l.pattern? f).map (·, f)
  | .dot => (dot? f).map (·, f)
  | .mark m => some (.look (m.look f), f)
  | .property s negated => (propertySet? f s negated).map fun s => (ofSet s, f)
  | .letter kind negated =>
    (f.complemented? negated (kind.characters f.unicode)).map fun s => (ofSet s, f)
  | .bracket negated body => do
    let s ← f.complemented? negated (f.meant (← body.characters? f))
    return (ofSet s, f)
  | .times t least most => do
    let (p, f) ← t.pattern? f
    return (p.repeated least most, f)
  | .group captured flags t => do
    let (p, _) ← t.pattern? (f.setAll flags)
    return (if captured then .group p else p, f)
  | .alt ts => do
    let (ps, f) ← Tree.patterns? f ts
    return (Pattern.ofAlternatives ps, f)
  | .seq ts => do
    let (ps, f) ← Tree.patterns? f ts
    return (Pattern.ofSequence ps, f)

def Tree.patterns? (f : Flags) : List Tree → Option (List Pattern × Flags)
  | [] => some ([], f)
  | t :: rest => do
    let (p, f) ← t.pattern? f
    let (ps, f) ← Tree.patterns? f rest
    return (p :: ps, f)

end

end WebBundle.Pattern
