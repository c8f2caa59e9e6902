import WebBundle.SortedMap
import WebBundle.Store.FileSystem

/-!
A tree of directories and files, as a disk keeps them. Directories exist on their own, a path is walked
part by part, and `..` leads to the directory above the one reached. Names and paths have a greatest
length.
-/

namespace WebBundle

/-- What lies at a place of a tree. -/
inductive Node where
  | directory
  | file (content : ByteArray)

def Node.isDirectory : Node → Bool
  | .directory => true
  | .file _ => false

/-- The nodes of a tree by place, the names from the root down with a separator before each. The root is
always there. -/
structure Tree where
  nodes : SortedMap Node := ∅

namespace Tree

/-- Why a walk or a change failed. -/
inductive Fault where
  | missing
  | notADirectory
  | isADirectory
  | alreadyThere
  | notEmpty
  | busy
  /-- A directory is to be moved into itself, or removed through the dot inside it. -/
  | invalid
  | nameTooLong
  /-- A character that no name may hold. -/
  | nullCharacter
  deriving DecidableEq, Repr

/-- The words of a disk for faults that have no error of their own. -/
def Fault.reason : Fault → String
  | .missing => "No such file or directory (os error 2)"
  | .notADirectory => "Not a directory (os error 20)"
  | .isADirectory => "Is a directory (os error 21)"
  | .alreadyThere => "File exists (os error 17)"
  | .notEmpty => "Directory not empty (os error 39)"
  | .busy => "Device or resource busy (os error 16)"
  | .invalid => "Invalid argument (os error 22)"
  | .nameTooLong => "File name too long (os error 36)"
  | .nullCharacter => "file name contained an unexpected NUL byte"

def Fault.error (p : Path) : Fault → StoreError
  | .missing => .notFound p.text
  | fault => .system p.text fault.reason

/-- A name has at most this many bytes. -/
def nameLimit : Nat := 255

/-- A path has at most this many bytes. -/
def pathLimit : Nat := 4095

/-- Checks what is wrong with a path whatever the tree holds. -/
def checkText (p : Path) : Except Fault Unit :=
  if p.text.contains (Char.ofNat 0) then .error .nullCharacter
  else if pathLimit < p.text.utf8ByteSize then .error .nameTooLong
  else .ok ()

/-- A place: the names that lead to it, the last one first. -/
abbrev Place := List (List Char)

def keyOf (place : Place) : String := String.ofList (place.reverse.flatMap fun name => '/' :: name)

def node? (tree : Tree) (place : Place) : Option Node :=
  match place with
  | [] => some .directory
  | _ => tree.nodes.get? (keyOf place)

def isDirAt (tree : Tree) (place : Place) : Bool := (tree.node? place).any Node.isDirectory

/-- Walks along parts. Every part is looked up in a directory, which has no name that is too long. -/
def walk (tree : Tree) : List (List Char) → Place → Except Fault Place
  | [], place => .ok place
  | part :: rest, place =>
    match tree.node? place with
    | none => .error .missing
    | some (.file _) => .error .notADirectory
    | some .directory =>
      if Path.isVoid part then walk tree rest place
      else if part = ['.', '.'] then walk tree rest place.tail
      else if nameLimit < (String.ofList part).utf8ByteSize then .error .nameTooLong
      else walk tree rest (part :: place)

/-- The parts of a path, last part first, without the empty ones at its end. -/
def partsReversed (p : Path) : List (List Char) := p.parts.reverse.dropWhile (· == [])

/-- The part of a path that is looked up last. -/
def lastPart (p : Path) : List Char := (partsReversed p).headD []

/-- The place that a path leads to; something need not lie there. -/
def place? (tree : Tree) (p : Path) : Except Fault Place := do
  checkText p
  tree.walk p.parts []

def find (tree : Tree) (p : Path) : Except Fault (Place × Node) :=
  match tree.place? p with
  | .error fault => .error fault
  | .ok place =>
    match tree.node? place with
    | none => .error .missing
    | some node => .ok (place, node)

def isFile (tree : Tree) (p : Path) : Bool :=
  match tree.find p with
  | .ok (_, .file _) => true
  | _ => false

def isDir (tree : Tree) (p : Path) : Bool :=
  match tree.find p with
  | .ok (_, .directory) => true
  | _ => false

def read (tree : Tree) (p : Path) : Except StoreError ByteArray :=
  match tree.find p with
  | .ok (_, .file content) => .ok content
  | .ok (_, .directory) => .error (Fault.isADirectory.error p)
  | .error fault => .error (fault.error p)

/-- The nodes below a place, with what follows the place in their keys. -/
def below (tree : Tree) (place : Place) : List (List Char × Node) :=
  let start := (keyOf place).toList ++ ['/']
  tree.nodes.entries.filterMap fun (key, node) =>
    if start.isPrefixOf key.toList then some (key.toList.drop start.length, node) else none

/-- The tree without all that is below a place. -/
def emptied (tree : Tree) (place : Place) : Tree :=
  let start := (keyOf place).toList ++ ['/']
  ⟨tree.nodes.filter fun key _ => !start.isPrefixOf key.toList⟩

/-- The tree without a place and all below it. -/
def without (tree : Tree) (place : Place) : Tree :=
  ⟨(tree.emptied place).nodes.erase (keyOf place)⟩

def put (tree : Tree) (place : Place) (node : Node) : Tree :=
  ⟨tree.nodes.insert (keyOf place) node⟩

def makeDir (tree : Tree) (p : Path) : Except Fault Tree :=
  match tree.place? p with
  | .error fault => .error fault
  | .ok place =>
    match tree.node? place with
    | some _ => .error .alreadyThere
    | none => if tree.isDirAt place.tail then .ok (tree.put place .directory) else .error .missing

def makeDirOrKeep (tree : Tree) (p : Path) : Except Fault Unit × Tree :=
  match tree.makeDir p with
  | .ok made => (.ok (), made)
  | .error fault => if tree.isDir p then (.ok (), tree) else (.error fault, tree)

/-- Makes the directory that a list of paths begins with; each path is followed by the one directly above
it. The directories above are made only if the first cannot be made without them, and a directory that is
there already stays. -/
def makeDirs (tree : Tree) : List Path → Except Fault Unit × Tree
  | [] => (.ok (), tree)
  | p :: above =>
    match tree.makeDir p with
    | .ok made => (.ok (), made)
    | .error .missing =>
      match makeDirs tree above with
      | (.error fault, tree) => (.error fault, tree)
      | (.ok (), tree) => tree.makeDirOrKeep p
    | .error fault => if tree.isDir p then (.ok (), tree) else (.error fault, tree)

/-- Makes the directories above a path; if that fails, the error names the directory directly above. -/
def makeParents (tree : Tree) (p : Path) : Except StoreError Unit × Tree :=
  match p.parent with
  | none => (.ok (), tree)
  | some parent =>
    match tree.makeDirs (parent.ancestors.filter fun dir => dir.text != "") with
    | (.ok (), tree) => (.ok (), tree)
    | (.error fault, tree) => (.error (fault.error parent), tree)

/-- Puts content at a place that holds no directory. A path that ends in a separator names no file. -/
def writeAt (tree : Tree) (p : Path) (content : ByteArray) : Except StoreError Tree :=
  match checkText p with
  | .error fault => .error (fault.error p)
  | .ok () =>
    if p.text.toList.getLast? == some '/' then .error (Fault.isADirectory.error p)
    else
      match tree.place? p with
      | .error fault => .error (fault.error p)
      | .ok place =>
        if tree.isDirAt place then .error (Fault.isADirectory.error p)
        else if tree.isDirAt place.tail then .ok (tree.put place (.file content))
        else .error (Fault.missing.error p)

/-- Keeps the changed tree, or the old one if the change failed. -/
def update (tree : Tree) : Except StoreError Tree → Except StoreError Unit × Tree
  | .ok changed => (.ok (), changed)
  | .error e => (.error e, tree)

def write (tree : Tree) (p : Path) (content : ByteArray) : Except StoreError Unit × Tree :=
  match tree.makeParents p with
  | (.error e, tree) => (.error e, tree)
  | (.ok (), tree) => tree.update (tree.writeAt p content)

/-- The direct children of a directory, in ascending order. -/
def list (tree : Tree) (p : Path) : Except StoreError (List Path) :=
  match tree.find p with
  | .ok (_, .file _) => .error (.notADirectory p.text)
  | .error fault => .error (fault.error p)
  | .ok (place, .directory) =>
    .ok ((tree.below place).filterMap fun (name, _) =>
      if name.contains '/' then none else some (p.join ⟨String.ofList name⟩))

def remove (tree : Tree) (p : Path) : Except StoreError Tree :=
  match tree.find p with
  | .ok (place, .file _) => .ok (tree.without place)
  | .ok (_, .directory) => .error (Fault.isADirectory.error p)
  | .error fault => .error (fault.error p)

/-- Removes a directory and all below it. A dot at the end of the path is not removed with what is below,
and neither is the directory above, which two dots lead to through one that is already gone. -/
def removeDir (tree : Tree) (p : Path) : Except StoreError Unit × Tree :=
  match tree.find p with
  | .ok (place, .directory) =>
    match lastPart p with
    | ['.'] => (.error (Fault.invalid.error p), tree.emptied place)
    | ['.', '.'] => (.ok (), tree.emptied place)
    | _ => (.ok (), tree.without place)
  | .ok (_, .file _) => (.error (Fault.notADirectory.error p), tree)
  | .error .missing => (.ok (), tree)
  | .error fault => (.error (fault.error p), tree)

/-- Moves a place with all below it onto another. -/
def move (tree : Tree) (source target : Place) (node : Node) : Tree :=
  let inside := tree.below source
  let cleared := (tree.without source).without target
  inside.foldl
    (fun moved (behind, inner) =>
      ⟨moved.nodes.insert (keyOf target ++ "/" ++ String.ofList behind) inner⟩)
    (cleared.put target node)

/-- Whether a node may be replaced by another of the given kind. -/
def mayReplace (tree : Tree) (target : Place) (node : Node) : Except Fault Unit :=
  match tree.node? target, node with
  | none, _ => .ok ()
  | some (.file _), .file _ => .ok ()
  | some (.file _), .directory => .error .notADirectory
  | some .directory, .file _ => .error .isADirectory
  | some .directory, .directory =>
    if (tree.below target).isEmpty then .ok () else .error .notEmpty

/-- Checks that the last part of a path is looked up in a directory. -/
def checkParent (tree : Tree) (p : Path) : Except Fault Unit :=
  match tree.walk (partsReversed p).tail.reverse [] with
  | .error fault => .error fault
  | .ok place =>
    match tree.node? place with
    | none => .error .missing
    | some (.file _) => .error .notADirectory
    | some .directory => .ok ()

/-- Whether a path ends in dots, which name what cannot be moved. -/
def endsInDots (p : Path) : Bool := lastPart p == ['.'] || lastPart p == ['.', '.']

/-- The place to which a node may be moved. If nothing lies there, a separator may end the path of a
directory only. -/
def goalOf (tree : Tree) (target : Path) (node : Node) : Except Fault Place :=
  match tree.place? target with
  | .error .missing =>
    if target.text.toList.getLast? != some '/' then .error .missing
    else if node.isDirectory then tree.place? target.trimmed
    else .error .notADirectory
  | result => result

/-- Moves what lies at one path to another, whose directory is there. -/
def moveTo (tree : Tree) (source target : Path) : Except Fault Tree := do
  checkText source
  checkText target
  tree.checkParent source
  tree.checkParent target
  if endsInDots source || endsInDots target then throw .busy
  let (place, node) ← tree.find source
  let goal ← tree.goalOf target node
  if goal = place then return tree
  else if node.isDirectory && place.isSuffixOf goal then .error .invalid
  else
    tree.mayReplace goal node
    return tree.move place goal node

def rename (tree : Tree) (source target : Path) : Except StoreError Unit × Tree :=
  match tree.makeParents target with
  | (.error e, tree) => (.error e, tree)
  | (.ok (), tree) =>
    match tree.moveTo source target with
    | .ok moved => (.ok (), moved)
    | .error fault => (.error (fault.error source), tree)

def view (tree : Tree) : FileView Id where
  read := tree.read
  isFile := tree.isFile
  isDir := tree.isDir

/-- The operations, on the tree as a state. -/
def fileSystem : FileSystem (StateM Tree) where
  read p := fun tree => (tree.read p, tree)
  isFile p := fun tree => (tree.isFile p, tree)
  isDir p := fun tree => (tree.isDir p, tree)
  write p content := fun tree => tree.write p content
  list p := fun tree => (tree.list p, tree)
  remove p := fun tree => tree.update (tree.remove p)
  removeDir p := fun tree => tree.removeDir p
  rename source target := fun tree => tree.rename source target

def files (tree : Tree) : List (Path × ByteArray) :=
  tree.nodes.entries.filterMap fun (key, node) =>
    match node with
    | .file content => some (⟨key⟩, content)
    | .directory => none

end Tree

end WebBundle
