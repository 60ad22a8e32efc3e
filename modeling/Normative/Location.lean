/-!
# Places in a file system

A path leads from the working directory, or from the root of the file system if it begins with a
slash. Two dots lead to the directory above, also from the working directory, so that a place is
known by the directory it lies under and the names that lead to it from there. Where the working
directory itself lies is not known: the directories above it are told apart only by the number of
steps.

## Main definitions

* `Location` : a place.
* `Location.descend` : the place one step further.
* `Path.names`, `Path.start`, `Path.location` : what a path says.

## Main results

* `Location.parent_descend` : the step back undoes a step to a name.
-/

namespace Normative

/-- A directory that is known without a name. -/
inductive Anchor where
  /-- The directory a number of steps above the working directory, which is itself at zero. -/
  | above (steps : Nat)
  /-- The root of the file system. -/
  | root
  deriving DecidableEq

/-- The directory above an anchor; the root has none but itself. -/
def Anchor.parent : Anchor → Anchor
  | above steps => above (steps + 1)
  | root => root

/-- A place: an anchor, and the names that lead from it to the place. -/
structure Location where
  anchor : Anchor
  names : List String
  deriving DecidableEq

namespace Location

/-- The working directory. -/
def working : Location := ⟨.above 0, []⟩

/-- The root of the file system. -/
def root : Location := ⟨.root, []⟩

/-- The place one step back. -/
def parent (location : Location) : Location :=
  if location.names.isEmpty then ⟨location.anchor.parent, []⟩
  else ⟨location.anchor, location.names.dropLast⟩

/-- The place one step further: two dots lead back, and one dot leads nowhere else. -/
def descend (location : Location) (name : String) : Location :=
  if name = ".." then location.parent
  else if name = "." then location
  else ⟨location.anchor, location.names ++ [name]⟩

/-- Whether a place is, or lies below, another. -/
def isWithin (location outer : Location) : Bool :=
  location.anchor = outer.anchor && outer.names.isPrefixOf location.names

theorem parent_descend {location : Location} {name : String} (hback : name ≠ "..")
    (hstay : name ≠ ".") : (location.descend name).parent = location := by
  simp [descend, parent, hback, hstay]

theorem isWithin_descend {location : Location} {name : String} (hback : name ≠ "..") :
    (location.descend name).isWithin location = true := by
  by_cases hstay : name = "." <;> simp [descend, isWithin, hback, hstay]

end Location

namespace Path

/-- The names in a path. Slashes in a row count as one. -/
def names (path : String) : List String := (path.splitOn "/").filter (· != "")

/-- The place from which a path leads. -/
def start (path : String) : Location :=
  if path.toList.head? = some '/' then .root else .working

/-- The place to which a path leads, if all directories on the way exist. -/
def location (path : String) : Location := (names path).foldl Location.descend (start path)

/-- Whether a path ends in a slash, so that it can only name a directory. -/
def endsInSlash (path : String) : Bool := path.toList.getLast? == some '/'

/-- The paths to the places on the way of a path, the path itself included. -/
def stages (path : String) : List String :=
  let lead := if start path = .root then "/" else ""
  (List.range (names path).length).map (fun n ↦
    lead ++ "/".intercalate ((names path).take (n + 1)))

end Path

end Normative
