import WebBundle.Config.Error
import WebBundle.Path
import WebBundle.Pattern.Automaton
import WebBundle.Pattern.Matching
import WebBundle.Pattern.Meaning
import WebBundle.Pattern.Reader

namespace WebBundle.Pattern

/-- The pattern that a text writes. It may neither be nested too deep nor become too large. -/
def ofText? (text : String) : Option Pattern := do
  let tree ← Tree.ofText? text
  guard (tree.depth ≤ depthLimit)
  let (pattern, _) ← tree.pattern? {}
  guard pattern.isSmall
  return pattern

/-- The pattern that an option writes. -/
def ofOption (option text : String) : Except ConfigError Pattern :=
  match ofText? text with
  | some pattern => .ok pattern
  | none => .error (.invalidPattern option)

/-- Whether a pattern matches in the path as a text with slashes. -/
def matchesPath (pattern : Pattern) (path : Path) : Bool := pattern.isMatch path.slashed

end WebBundle.Pattern
