/-!
# File systems

The operations on files that a run of the benchmarks needs, and why they may fail, with the number
and wording of the operating system. What operations do is left to the file system: a tree in
memory, or the files of the machine.
-/

namespace Crossing.Host

/-- Why a file operation failed. -/
inductive FileError
  | notFound
  | alreadyExists
  | notDirectory
  | isDirectory
  | nameTooLong
  | notUtf8
  | nulInPath
  | other (message : String)
  deriving DecidableEq, Repr

/-- A failure in words. -/
def FileError.message : FileError → String
  | notFound => "No such file or directory (os error 2)"
  | alreadyExists => "File exists (os error 17)"
  | notDirectory => "Not a directory (os error 20)"
  | isDirectory => "Is a directory (os error 21)"
  | nameTooLong => "File name too long (os error 36)"
  | notUtf8 => "stream did not contain valid UTF-8"
  | nulInPath => "file name contained an unexpected NUL byte"
  | other m => m

/-- Operations on files, with their effects in `m`. -/
structure FileSystem (m : Type → Type) where
  /-- Whether there is a file or a directory at a path. -/
  isPresent : String → m Bool
  /-- The octets of a file. -/
  read : String → m (Except FileError (List UInt8))
  /-- Gives a file new contents; the file is made if it is missing. -/
  write : String → List UInt8 → m (Except FileError Unit)
  /-- Makes a directory and those above it. -/
  createDirs : String → m (Except FileError Unit)

end Crossing.Host
