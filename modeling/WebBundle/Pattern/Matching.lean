import WebBundle.Pattern.Basic
import WebBundle.Text.Classes

/-!
Search for patterns. A pattern leads from places of a text to places behind them; a text matches if the
pattern leads from some place to some place. Whether one match is preferred to another does not matter.
-/

namespace WebBundle.Pattern

/-- A set of places of a text: place `n` is in the set if bit `n` is set. -/
abbrev Places := Nat

namespace Places

/-- The places, from the first one, of which something holds. -/
def ofList (held : List Bool) : Places := held.foldr (fun held places => 2 * places + held.toNat) 0

/-- The places of a set that are not in another. -/
def without (s t : Places) : Places := s ^^^ (s &&& t)

end Places

def isAsciiWord (c : Char) : Bool := Text.isAsciiLetter c || Text.isAsciiDigit c || c == '_'

/-- Whether a word character, of ASCII on demand, stands at a place. -/
def wordAt (ascii : Bool) (c : Option Char) : Bool :=
  c.any fun c => if ascii then isAsciiWord c else Text.isWord c

/-- Whether a line begins between two characters. A break of two characters is not divided. -/
def isLineStart (carriage : Bool) (before after : Option Char) : Bool :=
  match before with
  | none => true
  | some c => c == '\n' || (carriage && c == '\r' && after != some '\n')

/-- Whether a line ends between two characters. -/
def isLineEnd (carriage : Bool) (before after : Option Char) : Bool :=
  match after with
  | none => true
  | some c =>
    if carriage then c == '\r' || (c == '\n' && before != some '\r') else c == '\n'

/-- Whether a condition is met between two characters. -/
def isMet (before after : Option Char) : Look → Bool
  | .textStart => before.isNone
  | .textEnd => after.isNone
  | .lineStart carriage => isLineStart carriage before after
  | .lineEnd carriage => isLineEnd carriage before after
  | .boundary ascii => wordAt ascii before != wordAt ascii after
  | .noBoundary ascii => wordAt ascii before == wordAt ascii after
  | .wordStart ascii => !wordAt ascii before && wordAt ascii after
  | .wordEnd ascii => wordAt ascii before && !wordAt ascii after
  | .wordStartHalf ascii => !wordAt ascii before
  | .wordEndHalf ascii => !wordAt ascii after

/-- How a pattern leads through one text. -/
inductive Route where
  /-- Goes on from some places without leaving them. -/
  | stay (places : Places)
  /-- Passes the character at some places. -/
  | pass (places : Places)
  | seq (r s : Route)
  | alt (r s : Route)
  /-- At least `least` times, and up to `more` times beyond that if there is a bound. -/
  | times (r : Route) (least : Nat) (more : Option Nat)
  deriving Repr

/-- Goes a number of steps. Places that lead to themselves stay. -/
def steps (step : Places → Places) : (count : Nat) → Places → Places
  | 0, places => places
  | count + 1, places =>
    let next := step places
    if next = places then places else steps step count next

/-- Collects the places on the way of up to a number of steps, of which the last has reached `fresh`. -/
def spread (step : Places → Places) : (count : Nat) → (reached fresh : Places) → Places
  | 0, reached, _ => reached
  | count + 1, reached, fresh =>
    let added := (step fresh).without reached
    if added = 0 then reached else spread step count (reached ||| added) added

namespace Route

/-- The places to which a route leads. Every step that leaves a place comes nearer to the end of the text, so
more steps than the text has places lead nowhere else. -/
def follow (size : Nat) : Route → Places → Places
  | .stay allowed, places => places &&& allowed
  | .pass allowed, places => (places &&& allowed) <<< 1
  | .seq r s, places => s.follow size (r.follow size places)
  | .alt r s, places => r.follow size places ||| s.follow size places
  | .times r least more, places =>
    let first := steps (r.follow size) (min least size) places
    spread (r.follow size) (min (more.getD size) size) first first

end Route

/-- The places in a text at which a condition is met. -/
def placesOf (text : List Char) (l : Look) : Places :=
  let after := text.map some ++ [none]
  .ofList (List.zipWith (fun before after => isMet before after l) (none :: text.map some) after)

/-- The places in a text at which a character of some kind stands. -/
def placesBefore (text : List Char) (isKind : Char → Bool) : Places := .ofList (text.map isKind)

/-- A route that leads nowhere. -/
def Route.nowhere : Route := .stay 0

/-- The route of a pattern that matches the empty text only. -/
def Route.rest (text : List Char) : Route := .stay (.ofList (List.replicate (text.length + 1) true))

mutual

/-- The route of a pattern through a text. A literal that is longer than the text leads nowhere. -/
def route (text : List Char) : Pattern → Route
  | .empty => .rest text
  | .literal chars =>
    if text.length < chars.length then .nowhere
    else
      chars.foldr (fun c rest => .seq (.pass (placesBefore text (· == c))) rest) (.rest text)
  | .class s => .pass (placesBefore text fun c => s.contains c.toNat)
  | .look l => .stay (placesOf text l)
  | .seq ps => (routes text ps).foldr .seq (.rest text)
  | .alt ps => (routes text ps).foldr .alt .nowhere
  | .times p least most => .times (route text p) least (most.map (· - least))
  | .group p => route text p

def routes (text : List Char) : List Pattern → List Route
  | [] => []
  | p :: rest => route text p :: routes text rest

end

/-- Whether a pattern matches somewhere in a text. -/
def isMatch (p : Pattern) (text : String) : Bool :=
  let chars := text.toList
  let size := chars.length + 1
  (route chars p).follow size (.ofList (List.replicate size true)) != 0

end WebBundle.Pattern
