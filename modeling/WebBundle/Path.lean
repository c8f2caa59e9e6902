/-!
Paths as texts whose parts are separated by `/`. Empty parts and parts `.` say nothing, except a `.` at
the very start of a relative path. A path keeps the text it was written with; two paths that differ only
in parts that say nothing have the same components.
-/

namespace WebBundle

/-- A path as written. -/
structure Path where
  text : String
  deriving DecidableEq, Repr, Inhabited

/-- A part of a path that says something. -/
inductive Component where
  | root
  /-- The `.` at the start of a relative path. -/
  | current
  | parent
  | name (text : List Char)
  deriving DecidableEq, Repr

namespace Path

/-- The parts between separators, empty ones included. -/
def split : List Char → List (List Char)
  | [] => [[]]
  | c :: rest =>
    if c = '/' then [] :: split rest
    else
      match split rest with
      | [] => [[c]]
      | part :: parts => (c :: part) :: parts

def joinParts : List (List Char) → List Char
  | [] => []
  | [part] => part
  | part :: parts => part ++ '/' :: joinParts parts

/-- Whether a part behind the first one says nothing. -/
def isVoid (part : List Char) : Bool := part == [] || part == ['.']

/-- The component that a part behind the first one stands for. -/
def componentOf? (part : List Char) : Option Component :=
  if isVoid part then none
  else if part = ['.', '.'] then some .parent
  else some (.name part)

/-- The component that the first part stands for. An empty first part is the root if a separator follows. -/
def firstComponent? (part : List Char) (alone : Bool) : Option Component :=
  if part = [] then if alone then none else some .root
  else if part = ['.'] then some .current
  else if part = ['.', '.'] then some .parent
  else some (.name part)

def parts (p : Path) : List (List Char) := split p.text.toList

def componentsOfParts : List (List Char) → List Component
  | [] => []
  | first :: rest => (firstComponent? first rest.isEmpty).toList ++ rest.filterMap componentOf?

def components (p : Path) : List Component := componentsOfParts p.parts

def isAbsolute (p : Path) : Bool := p.text.toList.head? == some '/'

/-- The text of parts that begin a path; a lone empty part is the root. -/
def ofParts : List (List Char) → Path
  | [[]] => ⟨"/"⟩
  | parts => ⟨String.ofList (joinParts parts)⟩

/-- Removes parts at the end that say nothing, given last part first. The first part of the path is
kept. -/
def dropVoid : List (List Char) → List (List Char)
  | [] => []
  | [first] => [first]
  | part :: rest => if isVoid part then dropVoid rest else part :: rest

/-- The path without its last component, if that is not the root. -/
def parent (p : Path) : Option Path :=
  match dropVoid p.parts.reverse with
  | [] => none
  | [first] => if first = [] then none else some ⟨""⟩
  | _ :: rest => some (ofParts (dropVoid rest).reverse)

/-- The last component, if it is a name. -/
def fileName (p : Path) : Option (List Char) :=
  match p.components.getLast? with
  | some (.name name) => some name
  | _ => none

/-- A name before and behind its last dot; a dot at the start divides nothing. -/
def splitName (name : List Char) : List Char × Option (List Char) :=
  let behind := (name.reverse.takeWhile (· != '.')).reverse
  let before := name.take (name.length - behind.length - 1)
  if behind.length = name.length ∨ before = [] then (name, none) else (before, some behind)

/-- The last component without its extension. -/
def fileStem (p : Path) : Option (List Char) := p.fileName.map fun name => (splitName name).1

/-- What follows the last dot of the last component. -/
def extension (p : Path) : Option (List Char) := p.fileName.bind fun name => (splitName name).2

/-- The second path seen from the first; an absolute one stands for itself. -/
def join (base p : Path) : Path :=
  if p.isAbsolute then p
  else if base.text = "" || base.text.toList.getLast? == some '/' then ⟨base.text ++ p.text⟩
  else ⟨base.text ++ "/" ++ p.text⟩

/-- The path and all that `parent` leads to. A parent has fewer characters. -/
def ancestorsFrom : (fuel : Nat) → Path → List Path
  | 0, p => [p]
  | fuel + 1, p =>
    match p.parent with
    | none => [p]
    | some q => p :: ancestorsFrom fuel q

def ancestors (p : Path) : List Path := ancestorsFrom p.text.length p

/-- Whether the components of the first path begin with those of the second. -/
def startsWith (p base : Path) : Bool := base.components.isPrefixOf p.components

/-- Whether the components of the first path end with those of the second. -/
def endsWith (p ending : Path) : Bool := ending.components.isSuffixOf p.components

/-- Removes the parts of the first `count` components. -/
def dropComponents : (count : Nat) → List (List Char) → List (List Char)
  | 0, parts => parts
  | _ + 1, [] => []
  | count + 1, part :: rest =>
    if isVoid part then dropComponents (count + 1) rest else dropComponents count rest

/-- The parts behind the first `count` components of a path. -/
def partsBehind (p : Path) : Nat → List (List Char)
  | 0 => p.parts
  | count + 1 =>
    match p.parts with
    | [] => []
    | [[]] => []
    | _ :: rest => (dropComponents count rest).dropWhile isVoid

def trimmed (p : Path) : Path :=
  if p.text = "" then p else ofParts (dropVoid p.parts.reverse).reverse

/-- The first path seen from the second, which has to begin it. -/
def stripPrefix (p base : Path) : Option Path :=
  if !p.startsWith base then none
  else if base.components = [] then some p.trimmed
  else
    let inner := partsBehind p base.components.length
    some ⟨String.ofList (joinParts (dropVoid inner.reverse).reverse)⟩

/-- The path with its last component, if it is a name, replaced. -/
def withFileName (p : Path) (name : String) : Path :=
  match p.fileName with
  | some _ => (p.parent.getD ⟨""⟩).join ⟨name⟩
  | none => p.join ⟨name⟩

/-- The text with every backslash turned into a separator. -/
def slashed (p : Path) : String :=
  String.ofList (p.text.toList.map fun c => if c = '\\' then '/' else c)

def push (p : Path) : Component → Path
  | .root => ⟨"/"⟩
  | .current => p
  | .parent =>
    match p.parent with
    | some q => q
    | none => p.join ⟨".."⟩
  | .name name => p.join ⟨String.ofList name⟩

/-- The path without `.` and with each `..` resolved against the component before it. A `..` that has
none stands; the `..` behind it removes it again. -/
def normalize (p : Path) : Path := p.components.foldl push ⟨""⟩

/-- The name of a resource inside a project: relative to the context where possible, with its query. -/
def moduleKey (p context : Path) (query : Option String) : String :=
  let base := match p.stripPrefix context with
    | some inner => "./" ++ inner.slashed
    | none => p.slashed
  match query with
  | some query => base ++ "?" ++ query
  | none => base

end Path

end WebBundle
