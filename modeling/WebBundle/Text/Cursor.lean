namespace WebBundle.Text

/-- A place in a text. -/
structure Cursor where
  /-- The number of characters passed since the recognizer began. -/
  taken : Nat
  /-- The characters that follow. -/
  rest : List Char
  deriving DecidableEq, Repr

namespace Cursor

def start (text : List Char) : Cursor := ⟨0, text⟩

/-- Passes every character up to the first that is not in the class. -/
def skip (p : Char → Bool) (c : Cursor) : Cursor :=
  ⟨c.taken + (c.rest.takeWhile p).length, c.rest.dropWhile p⟩

/-- The characters that `skip` would pass. -/
def run (p : Char → Bool) (c : Cursor) : List Char := c.rest.takeWhile p

/-- Passes one character of the class. -/
def one (p : Char → Bool) (c : Cursor) : Option Cursor :=
  match c.rest with
  | [] => none
  | x :: rest => if p x then some ⟨c.taken + 1, rest⟩ else none

/-- Passes one character of the class if there is one. -/
def optional (p : Char → Bool) (c : Cursor) : Cursor := (c.one p).getD c

/-- Passes at least one character of the class, as many as there are. -/
def some1 (p : Char → Bool) (c : Cursor) : Option Cursor := (c.one p).map (skip p)

/-- Passes a word letter by letter. -/
def literal : List Char → Cursor → Option Cursor
  | [], c => some c
  | x :: word, c =>
    match c.rest with
    | [] => none
    | y :: rest => if x = y then literal word ⟨c.taken + 1, rest⟩ else none

end Cursor

end WebBundle.Text
