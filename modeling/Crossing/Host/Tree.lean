import Crossing.Host.FileSystem
import Crossing.Host.Path

/-!
# Files in memory

A tree of directories and files, each known by the parts that lead to it from the root. Paths that
are not absolute start at the base directory. A name that is too long is refused where it is looked
for, so a missing directory before it is reported first.
-/

namespace Crossing.Host

/-- Directories and files by their place below the root. -/
structure Tree where
  base : List String := []
  directories : List (List String) := []
  files : List (List String × List UInt8) := []
  deriving DecidableEq, Repr

namespace Tree

/-- What stands at a place. -/
inductive Found
  | directory
  | file (octets : List UInt8)

/-- Whether a place is a directory; the root is one. -/
def isDirectory (t : Tree) (place : List String) : Bool :=
  place.isEmpty || t.directories.contains place

/-- The octets of the file at a place. -/
def octets? (t : Tree) (place : List String) : Option (List UInt8) := t.files.lookup place

/-- Follows parts that must lead through directories. -/
def walk (t : Tree) : List String → List String → Except FileError (List String)
  | place, [] => .ok place
  | place, "." :: ns => t.walk place ns
  | place, ".." :: ns => t.walk place.dropLast ns
  | place, n :: ns =>
    if Path.isLongName n then .error .nameTooLong
    else if t.isDirectory (place ++ [n]) then t.walk (place ++ [n]) ns
    else if (t.octets? (place ++ [n])).isSome then .error .notDirectory
    else .error .notFound

/-- Why a path is refused before anything is looked for. -/
def refusal? (path : String) : Option FileError :=
  if path.toList.contains '\x00' then some .nulInPath
  else if Path.isLong path then some .nameTooLong
  else if path.isEmpty then some .notFound
  else none

/-- The place that a path starts at. -/
def start (t : Tree) (path : String) : List String := if Path.isAbsolute path then [] else t.base

/-- The directory that parts lead to, and the name in it unless they end in the directory itself. -/
def follow (t : Tree) (place names : List String) :
    Except FileError (List String × Option String) :=
  match names.getLast? with
  | none => .ok (place, none)
  | some n =>
    if n == "." || n == ".." then (t.walk place names).map fun dir ↦ (dir, none)
    else (t.walk place names.dropLast).map fun dir ↦ (dir, some n)

/-- The directory that a path leads to, and the name in it unless the path ends in the directory
itself. -/
def locate (t : Tree) (path : String) : Except FileError (List String × Option String) :=
  match refusal? path with
  | some e => .error e
  | none => t.follow (t.start path) (Path.names path)

/-- What is found where a path was located. -/
def lookAt (t : Tree) (path : String) : List String × Option String → Except FileError Found
  | (_, none) => .ok .directory
  | (dir, some n) =>
    if Path.isLongName n then .error .nameTooLong
    else if t.isDirectory (dir ++ [n]) then .ok .directory
    else
      match t.octets? (dir ++ [n]) with
      | none => .error .notFound
      | some bs => if Path.endsInSlash path then .error .notDirectory else .ok (.file bs)

/-- What a path leads to. -/
def find (t : Tree) (path : String) : Except FileError Found := (t.locate path).bind (t.lookAt path)

/-- Whether a path leads to a directory. -/
def leadsToDirectory (t : Tree) (path : String) : Bool :=
  match t.find path with
  | .ok .directory => true
  | _ => false

/-- The octets of the file that a path leads to. -/
def read (t : Tree) (path : String) : Except FileError (List UInt8) :=
  match t.find path with
  | .error e => .error e
  | .ok .directory => .error .isDirectory
  | .ok (.file bs) => .ok bs

/-- Puts octets at a place. -/
def put (t : Tree) (place : List String) (bs : List UInt8) : Tree :=
  { t with files := (place, bs) :: t.files.filter fun f ↦ f.1 != place }

/-- Gives the file at a path new contents. -/
def write (path : String) (bs : List UInt8) (t : Tree) : Except FileError Unit × Tree :=
  match t.locate path with
  | .error e => (.error e, t)
  | .ok (_, none) => (.error .isDirectory, t)
  | .ok (dir, some n) =>
    if Path.endsInSlash path then (.error .isDirectory, t)
    else if Path.isLongName n then (.error .nameTooLong, t)
    else if t.isDirectory (dir ++ [n]) then (.error .isDirectory, t)
    else (.ok (), t.put (dir ++ [n]) bs)

/-- Makes one directory. -/
def createDir (path : String) (t : Tree) : Except FileError Unit × Tree :=
  match t.locate path with
  | .error e => (.error e, t)
  | .ok (_, none) => (.error .alreadyExists, t)
  | .ok (dir, some n) =>
    let place := dir ++ [n]
    if Path.isLongName n then (.error .nameTooLong, t)
    else if t.isDirectory place || (t.octets? place).isSome then (.error .alreadyExists, t)
    else (.ok (), { t with directories := place :: t.directories })

/-- A directory that is there already is as good as one that was made. -/
def orPresent (path : String) : Except FileError Unit × Tree → Except FileError Unit × Tree
  | (.error e, t) => (if t.leadsToDirectory path then .ok () else .error e, t)
  | r => r

/-- Makes the directory with the given parts, last part first. Those above are made only if it is
missing. -/
def createBelow (absolute : Bool) : List String → Tree → Except FileError Unit × Tree
  | [], t => (.ok (), t)
  | n :: ns, t =>
    let path := Path.join absolute (n :: ns).reverse
    match createDir path t with
    | (.error .notFound, t) =>
      match createBelow absolute ns t with
      | (.ok (), t) => orPresent path (createDir path t)
      | r => r
    | r => orPresent path r

/-- Makes a directory and those above it. -/
def createDirs (path : String) (t : Tree) : Except FileError Unit × Tree :=
  createBelow (Path.isAbsolute path) (Path.components path).reverse t

/-- The tree as a file system. -/
def fileSystem : FileSystem (StateM Tree) where
  isPresent path := return ((← get).find path).toOption.isSome
  read path := return (← get).read path
  write path bs := modifyGet (write path bs)
  createDirs path := modifyGet (createDirs path)

end Tree

end Crossing.Host
