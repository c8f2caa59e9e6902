import WebBundle.Build.Error
import WebBundle.SortedMap

namespace WebBundle

abbrev OutputFiles := SortedMap ByteArray

namespace OutputFiles

/-- Adds a file. A name may be used again for the same content only. -/
def add (files : OutputFiles) (name : String) (content : ByteArray) : Except BuildError OutputFiles :=
  match files.get? name with
  | none => .ok (files.insert name content)
  | some present => if present.data = content.data then .ok files else .error (.outputConflict name)

end OutputFiles

end WebBundle
