namespace WebBundle

/-- When an imported module is evaluated. -/
inductive ImportKind where
  /-- Together with the importer. -/
  | static
  /-- On demand; the target starts an asynchronous boundary. -/
  | dynamic
  deriving DecidableEq, Repr

/-- An import as written: the specifier and the kind. -/
structure Import where
  specifier : String
  kind : ImportKind
  deriving DecidableEq, Repr

namespace Import

/-- The finds in the order of their places; finds at one place keep their order. -/
def sortByPlace {α : Type} (finds : List (Nat × α)) : List (Nat × α) :=
  finds.mergeSort fun first second => first.1 ≤ second.1

/-- The imports of a text in the order of their places, each once. -/
def inOrder (finds : List (Nat × Import)) : List Import :=
  ((sortByPlace finds).map (·.2)).eraseDups

end Import

end WebBundle
