/-!
# Paths

A path is a text whose parts stand between slashes. Empty parts do not count, and a single dot
counts only where it begins a relative path.
-/

namespace Crossing.Host.Path

/-- The texts between the slashes, empty ones included. -/
def segments : List Char → List (List Char)
  | [] => [[]]
  | c :: cs =>
    match segments cs with
    | [] => [[c]]
    | s :: ss => if c == '/' then [] :: s :: ss else (c :: s) :: ss

/-- The parts of a path that are not empty. -/
def names (path : String) : List String :=
  ((segments path.toList).filter fun s ↦ !s.isEmpty).map String.ofList

/-- Whether a path starts at the root. -/
def isAbsolute (path : String) : Bool := path.toList.head? == some '/'

/-- Whether a path ends in a slash. -/
def endsInSlash (path : String) : Bool := path.toList.getLast? == some '/'

/-- The parts that a path is made of. -/
def components (path : String) : List String :=
  match names path with
  | [] => []
  | n :: ns =>
    let rest := ns.filter (· != ".")
    if n == "." && isAbsolute path then rest else n :: rest

/-- Whether a part has more octets than a name in a directory may have. -/
def isLongName (name : String) : Bool := 255 < name.utf8ByteSize

/-- Whether a path has more octets than a file operation takes. -/
def isLong (path : String) : Bool := 4095 < path.utf8ByteSize

/-- Puts parts together again. -/
def join (absolute : Bool) (parts : List String) : String :=
  (if absolute then "/" else "") ++ String.intercalate "/" parts

/-- The path without its last part, if it has one. -/
def parent? (path : String) : Option String :=
  match components path with
  | [] => none
  | ps => some (join (isAbsolute path) ps.dropLast)

/-- A path seen from a directory. -/
def within (directory path : String) : String :=
  if isAbsolute path then path else directory ++ "/" ++ path

end Crossing.Host.Path
