/-!
Non-overlapping search. A recognizer looks at one place of a text, knowing the character before it;
`pieces` walks through the text, cuts out what the recognizer finds at the earliest place, goes on
behind it, and leaves the characters between the finds alone.

Many places may begin like a find and be given up far behind only. An outlook tells beforehand from which
places on a text goes on as finds have to. It is drawn up once, from the end of the text to its start, and
changes no result.
-/

namespace WebBundle.Text

/-- What a recognizer found at its place: a value, and how many characters belong to the find. -/
structure Found (α : Type) where
  value : α
  length : Nat

/-- For each place of a text, from its start or from another place on, whether it goes on from there as finds
have to. -/
abbrev Outlook := List Bool

namespace Outlook

/-- What holds a number of characters further on. Nothing is ruled out beyond the places of an outlook. -/
def allows (outlook : Outlook) (n : Nat) : Bool := (outlook.drop n).headD true

/-- The outlook on a text. What is known before a character follows from the character, the text behind it and
what is known there. -/
def of {σ : Type} (before : Char → List Char → σ → σ) (last : σ) (goesOn : σ → Bool)
    (text : List Char) : Outlook :=
  let (_, _, outlook) := text.foldr
    (fun c (rest, known, outlook) =>
      let known := before c rest known
      (c :: rest, known, goesOn known :: outlook))
    ([], last, [goesOn last])
  outlook

end Outlook

/-- Looks at one place of a text, given the character before it and the outlook from the place on. -/
abbrev Recognizer (α : Type) := Option Char → Outlook → List Char → Option (Found α)

/-- A part of a text that was searched. -/
inductive Piece (α : Type) where
  /-- A character that belongs to no find. -/
  | plain (c : Char)
  /-- A find, with its text. -/
  | found (value : α) (text : List Char)

/-- Walks through a text; the next `covered` characters belong to the find before them. -/
def piecesFrom {α : Type} (recognize : Recognizer α) :
    (previous : Option Char) → (covered : Nat) → Outlook → List Char → List (Piece α)
  | _, _, _, [] => []
  | _, covered + 1, outlook, c :: rest => piecesFrom recognize (some c) covered outlook.tail rest
  | previous, 0, outlook, c :: rest =>
    match recognize previous outlook (c :: rest) with
    | none => .plain c :: piecesFrom recognize (some c) 0 outlook.tail rest
    | some find =>
      .found find.value ((c :: rest).take find.length) ::
        piecesFrom recognize (some c) (find.length - 1) outlook.tail rest

/-- The parts of a text in order. -/
def pieces {α : Type} (recognize : Recognizer α) (outlook : Outlook) (text : List Char) :
    List (Piece α) :=
  piecesFrom recognize none 0 outlook text

/-- The finds with the number of characters before each. -/
def findsFrom {α : Type} : Nat → List (Piece α) → List (Nat × α)
  | _, [] => []
  | n, .plain _ :: rest => findsFrom (n + 1) rest
  | n, .found value text :: rest => (n, value) :: findsFrom (n + text.length) rest

/-- All finds of a recognizer in a text, with their places. -/
def finds {α : Type} (recognize : Recognizer α) (outlook : Outlook) (text : List Char) :
    List (Nat × α) :=
  findsFrom 0 (pieces recognize outlook text)

/-- The text with every find replaced. -/
def replace {α : Type} (recognize : Recognizer α) (outlook : Outlook)
    (substitute : α → List Char → List Char) (text : List Char) : List Char :=
  (pieces recognize outlook text).flatMap fun
    | .plain c => [c]
    | .found value found => substitute value found

end WebBundle.Text
