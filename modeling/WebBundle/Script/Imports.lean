import WebBundle.Import
import WebBundle.Json.Quoted
import WebBundle.Script.Comments
import WebBundle.Text.Cursor
import WebBundle.Text.Search

/-!
The imports of a script: `import` and `export … from` statements, `require` calls and dynamic
`import` calls. They are sought in the text without comments, wherever they stand; dynamic calls are
replaced in the text as it is.
-/

namespace WebBundle.Script

open WebBundle.Text

/-- A specifier and the number of characters before it in the find. -/
structure Request where
  specifier : List Char
  offset : Nat
  deriving DecidableEq, Repr

def isQuote (c : Char) : Bool := c == '"' || c == '\''

def isSpecifierChar (c : Char) : Bool := !(isQuote c || c == '\n')

/-- The letters of names in an export clause. -/
def isNameChar (c : Char) : Bool := isWord c || c == '$'

def isClauseChar (c : Char) : Bool :=
  isWord c || c == '$' || c == '*' || c == '{' || c == '}' || isSpace c || c == ','

/-- Whether a word can begin behind the given character. -/
def atWordStart (previous : Option Char) : Bool := !(previous.any isWord)

/-- A quoted specifier; the closing quote need not be the opening one. -/
def quotedRequest (c : Cursor) : Option (Request × Cursor) := do
  let opened ← c.one isQuote
  let specifier := opened.run isSpecifierChar
  if specifier = [] then none
  else
    let closed ← (opened.skip isSpecifierChar).one isQuote
    return (⟨specifier, opened.taken⟩, closed)

/-- A quoted specifier and the closing parenthesis behind it. -/
def argumentRequest (c : Cursor) : Option (Found Request) := do
  let (request, closed) ← quotedRequest c
  let done ← (closed.skip isSpace).one (· == ')')
  return ⟨request, done.taken⟩

/-- Whether the text between `import` and a quoted specifier is blank, or a clause that ends in the
word `from` between blanks. -/
def isImportClause (between : List Char) : Bool :=
  match between with
  | [] => false
  | first :: _ =>
    isSpace first &&
      (between.all isSpace ||
        match between.reverse with
        | [] => false
        | last :: rest =>
          isSpace last &&
            match rest.dropWhile isSpace with
            | 'm' :: 'o' :: 'r' :: 'f' :: before :: _ :: _ :: _ => isSpace before
            | _ => false)

/-- Whether a text begins with the word `from` and blanks behind it, which end a clause. -/
def endsClause : List Char → Bool
  | 'f' :: 'r' :: 'o' :: 'm' :: c :: rest =>
    isSpace c && !(rest.dropWhile isSpace).head?.any isClauseChar
  | _ => false

/-- What an import clause is from a place on. -/
structure Clause where
  isBlank : Bool
  /-- Whether it ends in the word `from` between blanks. -/
  hasSource : Bool
  /-- Whether a quoted specifier follows it. -/
  hasRequest : Bool

def Clause.before (c : Char) (rest : List Char) (clause : Clause) : Clause :=
  if isClauseChar c then
    { clause with
      isBlank := clause.isBlank && isSpace c
      hasSource := clause.hasSource || (isSpace c && endsClause rest) }
  else ⟨true, false, (quotedRequest (Cursor.start (c :: rest))).isSome⟩

/-- Where an import clause and a quoted specifier may follow. -/
def clauseOutlook (code : List Char) : Outlook :=
  .of Clause.before ⟨true, false, false⟩
    (fun clause => clause.hasRequest && (clause.isBlank || clause.hasSource)) code

def importStatement : Recognizer Request := fun previous outlook text => do
  if !atWordStart previous then none
  else
    let c ← (Cursor.start text).literal "import".toList
    if !(outlook.allows c.taken && c.rest.head?.any isSpace) then none
    else if !isImportClause (c.run isClauseChar) then none
    else
      let (request, done) ← quotedRequest (c.skip isClauseChar)
      return ⟨request, done.taken⟩

/-- The word `from` and the quoted specifier behind it. -/
def fromRequest (c : Cursor) : Option (Found Request) := do
  let c ← c.literal "from".toList
  let c ← c.some1 isSpace
  let (request, done) ← quotedRequest c
  return ⟨request, done.taken⟩

/-- Behind the star of an export clause: an optional name, then `from`. The name ends before a
`from` that is part of the same word. -/
def starExport (c : Cursor) : Option (Found Request) :=
  let named : Option (Found Request) := do
    let c ← c.some1 isSpace
    let c ← c.literal "as".toList
    let c ← c.some1 isSpace
    let name := c.run isNameChar
    if name = [] then none
    else
      let whole := c.skip isNameChar
      match fromRequest (whole.skip isSpace) with
      | some find => some find
      | none =>
        match name.reverse with
        | 'm' :: 'o' :: 'r' :: 'f' :: _ :: _ => do
          let c ← whole.some1 isSpace
          let (request, done) ← quotedRequest c
          return ⟨request, done.taken⟩
        | _ => none
  match named with
  | some find => some find
  | none => fromRequest (c.skip isSpace)

/-- Where the next closing brace is followed by the word `from` and a quoted specifier. -/
def braceOutlook (code : List Char) : Outlook :=
  .of (fun c rest followed =>
      if c = '}' then (fromRequest (Cursor.skip isSpace ⟨1, rest⟩)).isSome else followed)
    false id code

def exportStatement : Recognizer Request := fun previous outlook text => do
  if !atWordStart previous then none
  else
    let c ← (Cursor.start text).literal "export".toList
    let c ← c.some1 isSpace
    match c.one (· == '*') with
    | some c => starExport c
    | none =>
      let c ← c.one (· == '{')
      guard (outlook.allows c.taken)
      let c ← (c.skip (· != '}')).one (· == '}')
      fromRequest (c.skip isSpace)

/-- A call of `require` with one quoted argument. -/
def requireCall : Recognizer Request := fun previous _ text => do
  if !atWordStart previous then none
  else
    let c ← (Cursor.start text).literal "require".toList
    let c ← (c.skip isSpace).one (· == '(')
    argumentRequest (c.skip isSpace)

/-- The argument behind a block comment that ends on its first line. Of the places where the comment
may end the first counts that an argument follows. -/
def argumentAfterComment : (taken : Nat) → List Char → Option (Found Request)
  | _, [] => none
  | taken, '*' :: '/' :: rest =>
    match argumentRequest (Cursor.skip isSpace ⟨taken + 2, rest⟩) with
    | some find => some find
    | none => argumentAfterComment (taken + 1) ('/' :: rest)
  | taken, c :: rest => if c = '\n' then none else argumentAfterComment (taken + 1) rest

/-- Where the end of a block comment and an argument follow on the same line. -/
def commentOutlook (code : List Char) : Outlook :=
  .of (fun c rest followed =>
      match c, rest with
      | '*', '/' :: behind =>
        followed || (argumentRequest (Cursor.skip isSpace ⟨2, behind⟩)).isSome
      | _, _ => c != '\n' && followed)
    false id code

/-- A dynamic `import` call with one quoted argument, which a block comment may precede. -/
def dynamicCall : Recognizer Request := fun previous outlook text => do
  if !atWordStart previous then none
  else
    let c ← (Cursor.start text).literal "import".toList
    let c ← (c.skip isSpace).one (· == '(')
    let c := c.skip isSpace
    match c.rest with
    | '/' :: '*' :: rest =>
      if outlook.allows (c.taken + 2) then argumentAfterComment (c.taken + 2) rest else none
    | _ => argumentRequest c

/-- The finds of one recognizer as imports, placed by their specifiers. -/
def importsOf (recognize : Recognizer Request) (outlook : Outlook) (kind : ImportKind)
    (code : List Char) : List (Nat × Import) :=
  (finds recognize outlook code).map fun (place, request) =>
    (place + request.offset, ⟨String.ofList request.specifier, kind⟩)

/-- The imports of a script in the order of their specifiers, each once. -/
def imports (source : String) : List Import :=
  let code := withoutComments .code {} source.toList
  Import.inOrder
    (importsOf importStatement (clauseOutlook code) .static code ++
      importsOf exportStatement (braceOutlook code) .static code ++
      importsOf requireCall [] .static code ++
      importsOf dynamicCall (commentOutlook code) .dynamic code)

/-- The script with its dynamic imports turned into calls of the bundle's loader. -/
def loadOnDemand (code : String) : String :=
  let chars := code.toList
  String.ofList <| replace dynamicCall (commentOutlook chars)
    (fun request _ => "require.dynamic(".toList ++ Json.quoteChars request.specifier ++ [')'])
    chars

end WebBundle.Script
