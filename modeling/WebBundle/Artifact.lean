import WebBundle.Import
import WebBundle.Script.Imports
import WebBundle.Style.Imports
import WebBundle.Text.Utf8

namespace WebBundle

/-- What the bytes of an artifact are. -/
inductive ArtifactKind where
  | script
  | style
  | binary
  deriving DecidableEq, Repr

namespace ArtifactKind

def name : ArtifactKind → String
  | .script => "script"
  | .style => "style"
  | .binary => "binary"

end ArtifactKind

/-- Typed content. -/
structure Artifact where
  kind : ArtifactKind
  content : ByteArray

theorem Artifact.eq_of_data {a b : Artifact} (hkind : a.kind = b.kind)
    (hdata : a.content.data = b.content.data) : a = b := by
  obtain ⟨kind, ⟨data⟩⟩ := a
  obtain ⟨kind', ⟨data'⟩⟩ := b
  simp_all

instance : DecidableEq Artifact := fun a b =>
  if h : a.kind = b.kind ∧ a.content.data = b.content.data then isTrue (Artifact.eq_of_data h.1 h.2)
  else isFalse fun e => h ⟨by rw [e], by rw [e]⟩

namespace Artifact

def ofText (kind : ArtifactKind) (text : String) : Artifact := ⟨kind, text.toUTF8⟩

/-- The text of the content, if it is valid UTF-8. -/
def text? (a : Artifact) : Option String := Text.text? a.content

/-- The imports of an artifact in the order of their places, each once. Binary content has none. -/
def imports (a : Artifact) : List Import :=
  match a.kind with
  | .script => Script.imports (Text.lossyText a.content)
  | .style => Style.imports (Text.lossyText a.content)
  | .binary => []

end Artifact

end WebBundle
