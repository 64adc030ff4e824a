import HandlerComplexity.ClassUnit
import HandlerComplexity.Log

/-!
# Classes declared in parts

Units of one name that are all partial declarations are one class. They are put together under a new
root in the place of the first of them, so that the class is scored once over all its parts. Units of
one name that are not all partial are left as they are.
-/

namespace HandlerComplexity

/-- The units of one name, in order. -/
def partsOf (units : List ClassUnit) (name : String) : List ClassUnit :=
  units.filter (·.qualifiedName = name)

/-- Whether the units are several and all partial. -/
def areParts (parts : List ClassUnit) : Bool :=
  parts.length != 1 && parts.all (·.isPartial)

/-- The root of a class declared in parts. -/
def unionRoot (first : ClassUnit) (parts : List ClassUnit) : Node :=
  { id := .union
    kind := .classBody
    children := parts.map (·.root)
    typeName := "partial_class"
    line := first.root.line }

/-- The unit of a class declared in parts: it is generated only if every part is. -/
def unite (first : ClassUnit) (parts : List ClassUnit) : ClassUnit :=
  { first with root := unionRoot first parts, generated := parts.all (·.generated) }

def unitedEntry (name : String) (parts : List ClassUnit) : Log.Entry :=
  ⟨.debug, .building,
    "Merged " ++ toString parts.length ++ " partial declarations of " ++ name⟩

/-- Go through the units; `done` holds the names of the classes already put together. -/
def mergeFrom (all : List ClassUnit) (done : List String) :
    List ClassUnit → List ClassUnit × Log
  | [] => ([], [])
  | u :: us =>
    let parts := partsOf all u.qualifiedName
    if areParts parts then
      if done.contains u.qualifiedName then mergeFrom all done us
      else
        let (merged, log) := mergeFrom all (u.qualifiedName :: done) us
        (unite u parts :: merged, unitedEntry u.qualifiedName parts :: log)
    else
      let (merged, log) := mergeFrom all done us
      (u :: merged, log)

/-- Put the partial declarations of each class together. -/
def mergePartial (units : List ClassUnit) : List ClassUnit × Log :=
  mergeFrom units [] units

end HandlerComplexity
