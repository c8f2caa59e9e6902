import WebBundle.SortedMap
import WebBundle.Transform.Basic

namespace WebBundle

/-- Transforms by name. -/
structure Registry where
  transforms : SortedMap Transform := ∅

namespace Registry

/-- Adds a transform in the place of one with the same name. -/
def register (r : Registry) (t : Transform) : Registry := ⟨r.transforms.insert t.name t⟩

def remove (r : Registry) (name : String) : Registry := ⟨r.transforms.erase name⟩

def get? (r : Registry) (name : String) : Option Transform := r.transforms.get? name

def contains (r : Registry) (name : String) : Bool := r.transforms.contains name

def names (r : Registry) : List String := r.transforms.keys

def size (r : Registry) : Nat := r.transforms.size

def isEmpty (r : Registry) : Bool := r.transforms.isEmpty

def ofList (transforms : List Transform) : Registry := transforms.foldl register {}

/-- The registry of the built-in transforms. -/
def builtins : Registry := ofList Transform.builtins

theorem get?_register (r : Registry) (t : Transform) (name : String) :
    (r.register t).get? name = if t.name = name then some t else r.get? name :=
  SortedMap.get?_insert ..

theorem get?_remove (r : Registry) (removed name : String) :
    (r.remove removed).get? name = if name = removed then none else r.get? name :=
  SortedMap.get?_erase ..

end Registry

end WebBundle
