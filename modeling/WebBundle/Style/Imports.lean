import WebBundle.Import
import WebBundle.Json.Quoted
import WebBundle.Style.Comments
import WebBundle.Text.Classes
import WebBundle.Text.Cursor
import WebBundle.Text.Search

/-!
The references of a stylesheet: `@import` rules and `url()` values. They are sought in the text
without comments; bundled rules are removed and addresses replaced in the text as it is.
-/

namespace WebBundle.Style

open WebBundle.Text

/-- The written form of a reference and the number of characters before it in the find. -/
structure Reference where
  written : List Char
  offset : Nat
  deriving DecidableEq, Repr

def isQuote (c : Char) : Bool := c == '"' || c == '\''

/-- The characters of the reference of an `@import` rule. -/
def isRuleChar (c : Char) : Bool := !(isQuote c || c == ')' || c == ';' || isSpace c)

/-- The characters of the reference of a `url()` value. -/
def isUrlChar (c : Char) : Bool := !(isQuote c || c == ')')

/-- A reference of an `@import` rule, which a quote may open. -/
def ruleReference (c : Cursor) : Option (Reference × Cursor) :=
  let opened := c.optional isQuote
  let written := opened.run isRuleChar
  if written = [] then none else some (⟨written, opened.taken⟩, opened.skip isRuleChar)

/-- The mark `@import` and the reference behind it; an opening `url(` belongs to the reference only if
nothing else does. -/
def importReference (text : List Char) : Option (Reference × Cursor) := do
  let c ← (Cursor.start text).literal "@import".toList
  let c ← c.some1 isSpace
  match ((c.literal "url(".toList).map (Cursor.skip isSpace)).bind ruleReference with
  | some find => some find
  | none => ruleReference c

/-- An `@import` up to its reference and the marks that close it. -/
def importMark : Recognizer Reference := fun _ _ text => do
  let (reference, c) ← importReference text
  let done := ((c.optional isQuote).skip isSpace).optional (· == ')')
  return ⟨reference, done.taken⟩

def isInlineBlank (c : Char) : Bool := c == ' ' || c == '\t'

/-- An `@import` rule as a whole: up to its semicolon or the end of its line, with the blanks and the
line break behind it. -/
def importRule : Recognizer Reference := fun _ _ text => do
  let (reference, c) ← importReference text
  let closed := ((c.optional isQuote).skip isInlineBlank).optional (· == ')')
  let ended := (closed.skip fun x => !(x == ';' || x == '\n')).optional (· == ';')
  let done := (ended.skip isInlineBlank).optional (· == '\n')
  return ⟨reference, done.taken⟩

/-- Splits off the blanks at the end of a text. -/
def trimRight (text : List Char) : List Char := (text.reverse.dropWhile isSpace).reverse

def trim (text : List Char) : List Char := trimRight (text.dropWhile isSpace)

/-- The reference of a `url()` value from its first character, up to a closing parenthesis or to a
quote, blanks and a closing parenthesis. Blanks before an unquoted end are left out as long as one
character remains. -/
def urlReference (c : Cursor) : Option (Found Reference) := do
  let written := c.run isUrlChar
  let behind := c.skip isUrlChar
  if written = [] then none
  else
    match behind.one (· == ')') with
    | some done =>
      let kept := trimRight written
      return ⟨⟨if kept = [] then written.take 1 else kept, c.taken⟩, done.taken⟩
    | none =>
      let closed ← behind.one isQuote
      let done ← (closed.skip isSpace).one (· == ')')
      return ⟨⟨written, c.taken⟩, done.taken⟩

/-- Where the characters of a `url()` value are followed by its end. -/
def urlOutlook (text : List Char) : Outlook :=
  .of (fun c rest closed =>
      if isUrlChar c then closed else c == ')' || (rest.dropWhile isSpace).head? == some ')')
    false id text

/-- A `url()` value. If nothing but blanks stands before its end, the last of them is the reference. -/
def urlValue : Recognizer Reference := fun _ outlook text => do
  let reference (c : Cursor) := if outlook.allows c.taken then urlReference c else none
  let c ← (Cursor.start text).literal "url(".toList
  let inner := c.skip isSpace
  match reference (inner.optional isQuote) with
  | some find => some find
  | none =>
    let blanks := c.run isSpace
    if blanks = [] then none
    else reference ⟨inner.taken - 1, blanks.drop (blanks.length - 1) ++ inner.rest⟩

/-- The request that a written reference makes: relative unless a `~` names a package. Data, remote
addresses and fragments make none. -/
def requestOf (written : List Char) : Option (List Char) :=
  let name := trim written
  if name = [] || "data:".toList.isPrefixOf name || "http://".toList.isPrefixOf name ||
      "https://".toList.isPrefixOf name || "//".toList.isPrefixOf name ||
      "#".toList.isPrefixOf name then none
  else
    match name with
    | '~' :: rest => some rest
    | '.' :: _ => some name
    | '/' :: _ => some name
    | _ => some ('.' :: '/' :: name)

/-- The finds of one recognizer that make a request, placed by their references. -/
def importsOf (recognize : Recognizer Reference) (outlook : Outlook) (css : List Char) :
    List (Nat × Import) :=
  (finds recognize outlook css).filterMap fun (place, reference) =>
    (requestOf reference.written).map fun request =>
      (place + reference.offset, ⟨String.ofList request, .static⟩)

/-- The imports of a stylesheet in the order of their references, each once. -/
def imports (source : String) : List Import :=
  let css := withoutComments .rules source.toList
  Import.inOrder (importsOf importMark [] css ++ importsOf urlValue (urlOutlook css) css)

/-- The stylesheet without the `@import` rules whose requests are bundled. -/
def removeImports (bundled : String → Bool) (css : String) : String :=
  String.ofList <| replace importRule []
    (fun reference text =>
      match requestOf reference.written with
      | some request => if bundled (String.ofList request) then [] else text
      | none => text)
    css.toList

/-- The stylesheet with its `url()` values replaced where an address is known for the request. -/
def replaceUrls (address : String → Option String) (css : String) : String :=
  let chars := css.toList
  String.ofList <| replace urlValue (urlOutlook chars)
    (fun reference text =>
      match (requestOf reference.written).bind fun request => address (String.ofList request) with
      | some url => "url(".toList ++ Json.quoteChars url.toList ++ [')']
      | none => text)
    chars

end WebBundle.Style
