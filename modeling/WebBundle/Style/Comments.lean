namespace WebBundle.Style

/-- What surrounds a place of a stylesheet. -/
inductive Region where
  | rules
  | comment
  | quoted (quote : Char)
  deriving DecidableEq, Repr

/-- The rest of a stylesheet without its comments. -/
def withoutComments : Region → List Char → List Char
  | _, [] => []
  | .rules, '/' :: '*' :: rest => ' ' :: withoutComments .comment rest
  | .rules, c :: rest =>
    c :: withoutComments (if c = '"' ∨ c = '\'' then .quoted c else .rules) rest
  | .comment, '*' :: '/' :: rest => withoutComments .rules rest
  | .comment, c :: rest =>
    if c = '\n' then c :: withoutComments .comment rest else withoutComments .comment rest
  | .quoted quote, '\\' :: c :: rest => '\\' :: c :: withoutComments (.quoted quote) rest
  | .quoted quote, c :: rest =>
    c :: withoutComments (if c = '\n' ∨ c = quote then .rules else .quoted quote) rest

def stripComments (source : String) : String :=
  String.ofList (withoutComments .rules source.toList)

end WebBundle.Style
