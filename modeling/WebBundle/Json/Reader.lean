import WebBundle.Json.Token

/-!
Reading of JSON texts. The tokens are read one by one against a stack of the arrays and objects that
are still open, so every token is looked at once. What is written has a value unless a part of it has none or
it is nested too deep.
-/

namespace WebBundle.Json

/-- A JSON text's structure. Words, numbers, strings and keys stand with their value if they have one. -/
inductive Written where
  | scalar (value : Option Json)
  | array (items : List Written)
  /-- An object with its fields as written. -/
  | object (fields : List (Option String × Written))

/-- Arrays and objects nest at most this deep. -/
def nestingLimit : Nat := 127

namespace Written

mutual

/-- The value of what is written, if arrays and objects nest at most `depth` deep in it. -/
def value? : (depth : Nat) → Written → Option Json
  | _, .scalar value => value
  | 0, _ => none
  | depth + 1, .array items => (values? depth items).map .array
  | depth + 1, .object fields => (fields? depth fields).map .object

def values? : (depth : Nat) → List Written → Option (List Json)
  | _, [] => some []
  | depth, item :: rest =>
    (value? depth item).bind fun value => (values? depth rest).map (value :: ·)

def fields? : (depth : Nat) → List (Option String × Written) → Option (List (String × Json))
  | _, [] => some []
  | depth, (key, item) :: rest =>
    key.bind fun key =>
      (value? depth item).bind fun value => (fields? depth rest).map ((key, value) :: ·)

end

/-- Changes the values of the fields with a key. -/
def mapField (key : String) (f : Written → Written) : Written → Written
  | .object fields => .object (fields.map fun (k, item) => (k, if k = some key then f item else item))
  | item => item

def mapItems (f : Written → Written) : Written → Written
  | .array items => .array (items.map f)
  | item => item

/-- Leaves out the fields whose key is none of some names. -/
def keepFields (names : List String) : Written → Written
  | .object fields => .object (fields.filter fun field => field.1.all names.contains)
  | item => item

end Written

/-- An array or object whose end has not been read, with its parts so far, the last one first. -/
inductive Open where
  | array (items : List Written)
  /-- An object, between its fields. -/
  | object (fields : List (Option String × Written))
  /-- An object, before the value of the field with the given key. -/
  | field (key : Option String) (fields : List (Option String × Written))

/-- What may come next. -/
inductive Expected where
  | value
  /-- A value, or the end of the array just opened. -/
  | valueOrEnd
  | key
  /-- A key, or the end of the object just opened. -/
  | keyOrEnd
  | colon
  /-- A comma, or the end of the innermost array or object. -/
  | separator
  | nothing

/-- A place in a token list: what is open, what may come, and the whole value once it is read. -/
structure State where
  opened : List Open
  expected : Expected
  whole : Option Written

def State.initial : State := ⟨[], .value, none⟩

/-- Puts a complete value where it belongs. -/
def State.complete (s : State) (value : Written) : Option State :=
  match s.opened with
  | [] => some ⟨[], .nothing, some value⟩
  | .array items :: outer => some ⟨.array (value :: items) :: outer, .separator, none⟩
  | .field key fields :: outer => some ⟨.object ((key, value) :: fields) :: outer, .separator, none⟩
  | .object _ :: _ => none

def State.enter (s : State) (opened : Open) (expected : Expected) : State :=
  ⟨opened :: s.opened, expected, none⟩

def State.readValue (s : State) : Token → Option State
  | .openObject => some (s.enter (.object []) .keyOrEnd)
  | .openArray => some (s.enter (.array []) .valueOrEnd)
  | .scalar value => s.complete (.scalar value)
  | .string value => s.complete (.scalar (value.map .string))
  | _ => none

def State.closeArray (s : State) : Option State :=
  match s.opened with
  | .array items :: outer => State.complete ⟨outer, .nothing, none⟩ (.array items.reverse)
  | _ => none

def State.closeObject (s : State) : Option State :=
  match s.opened with
  | .object fields :: outer => State.complete ⟨outer, .nothing, none⟩ (.object fields.reverse)
  | _ => none

def State.readKey (s : State) : Token → Option State
  | .string key =>
    match s.opened with
    | .object fields :: outer => some ⟨.field key fields :: outer, .colon, none⟩
    | _ => none
  | _ => none

def State.step (s : State) (token : Token) : Option State :=
  match s.expected, token with
  | .value, _ => s.readValue token
  | .valueOrEnd, .closeArray => s.closeArray
  | .valueOrEnd, _ => s.readValue token
  | .key, _ => s.readKey token
  | .keyOrEnd, .closeObject => s.closeObject
  | .keyOrEnd, _ => s.readKey token
  | .colon, .colon => some { s with expected := .value }
  | .separator, .closeArray => s.closeArray
  | .separator, .closeObject => s.closeObject
  | .separator, .comma =>
    match s.opened with
    | .array _ :: _ => some { s with expected := .value }
    | .object _ :: _ => some { s with expected := .key }
    | _ => none
  | _, _ => none

def State.run (s : State) : List Token → Option State
  | [] => some s
  | token :: rest => (s.step token).bind fun next => State.run next rest

def written? (text : String) : Option Written := do
  let tokens ← tokens? text.toList
  let final ← State.initial.run tokens
  final.whole

/-- The value of a JSON text, fields as written. -/
def parse? (text : String) : Option Json := (written? text).bind (Written.value? nestingLimit)

end WebBundle.Json
