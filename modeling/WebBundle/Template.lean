import WebBundle.Digest
import WebBundle.Text.Classes
import WebBundle.Text.Cursor
import WebBundle.Text.Search

/-!
Templates of file names. `[name]`, `[id]`, `[contenthash]`, `[hash]` and `[ext]` are replaced; a hash may
be cut to a length, as in `[hash:8]`.
-/

namespace WebBundle.Template

open WebBundle.Text

/-- What a placeholder stands for. -/
inductive Field where
  | name
  | id
  | contentHash
  | hash
  | extension
  deriving DecidableEq, Repr

def Field.word : Field → String
  | .name => "name"
  | .id => "id"
  | .contentHash => "contenthash"
  | .hash => "hash"
  | .extension => "ext"

def Field.all : List Field := [.name, .id, .contentHash, .hash, .extension]

/-- A placeholder: a field and the digits of a length. -/
structure Placeholder where
  field : Field
  digits : Option (List Char)
  deriving DecidableEq, Repr

/-- What stands behind the word of a placeholder: a length or nothing, and the closing bracket. -/
def closing (field : Field) (c : Cursor) : Option (Found Placeholder) :=
  match c.one (· == ']') with
  | some done => some ⟨⟨field, none⟩, done.taken⟩
  | none => do
    let c ← c.one (· == ':')
    let behind ← c.some1 isDigit
    let done ← behind.one (· == ']')
    return ⟨⟨field, some (c.run isDigit)⟩, done.taken⟩

def placeholder : Recognizer Placeholder := fun _ _ text => do
  let c ← (Cursor.start text).one (· == '[')
  Field.all.findSome? fun field => (c.literal field.word.toList).bind (closing field)

/-- The largest length that a placeholder can ask for. -/
def lengthLimit : Nat := Nat.pow 2 64 - 1

/-- The length that digits write; digits beyond ASCII and too large numbers write none. -/
def length? (digits : List Char) : Option Nat :=
  if digits.all isAsciiDigit then
    let n := digits.foldl (fun n c => min (lengthLimit + 1) (n * 10 + (c.toNat - 48))) 0
    if n ≤ lengthLimit then some n else none
  else none

/-- The values that replace placeholders. -/
structure Values where
  name : String := ""
  id : Option Nat := none
  contentHash : String := ""
  hash : String := ""
  /-- The extension with its dot. -/
  extension : String := ""

/-- A hash, cut if the placeholder says so. -/
def cut? (hash : String) (digits : Option (List Char)) : Option String :=
  match digits.bind length? with
  | some length => Digest.shortHash? hash length
  | none => some hash

/-- The text that replaces a placeholder; none if a cut falls inside a character. -/
def Values.text? (values : Values) (p : Placeholder) : Option String :=
  match p.field with
  | .name => some values.name
  | .id => some ((values.id.map toString).getD "")
  | .contentHash => cut? values.contentHash p.digits
  | .hash => cut? values.hash p.digits
  | .extension => some values.extension

def renderPieces (values : Values) : List (Piece Placeholder) → Option (List Char)
  | [] => some []
  | .plain c :: rest => (renderPieces values rest).map (c :: ·)
  | .found p _ :: rest =>
    (values.text? p).bind fun text => (renderPieces values rest).map (text.toList ++ ·)

/-- A template with its placeholders replaced; none if a cut falls inside a character. -/
def render? (template : String) (values : Values) : Option String :=
  (renderPieces values (pieces placeholder [] template.toList)).map String.ofList

/-- A template with its placeholders replaced, for hashes of ASCII characters, which can be cut
everywhere. -/
def render (template : String) (values : Values) : String := (render? template values).getD ""

/-- The words of the placeholders in a template. -/
def wordsIn (template : String) : List String :=
  (finds placeholder [] template.toList).map fun (_, p) => p.field.word

/-- Whether a template has one of the placeholders with the given words. -/
def hasPlaceholder (template : String) (words : List String) : Bool :=
  (wordsIn template).any words.contains

end WebBundle.Template
