import Crossing.Error
import Crossing.Host.FileSystem
import Crossing.Host.Path
import Crossing.Report.Summary
import Crossing.Report.Text

/-!
# Reports in files

A text report replaces the file it is written to. A summary also makes the directory that its file
is in.
-/

namespace Crossing.Report

open Host (FileError FileSystem)

variable {m : Type → Type} [Monad m]

/-- A failure to write a report. -/
def writeError (path : String) : Except FileError Unit → Except Error Unit
  | .ok () => .ok ()
  | .error e => .error (.reportWrite path e)

/-- Writes a text to a file. -/
def writeText (files : FileSystem m) (path text : String) : m (Except Error Unit) := do
  return writeError path (← files.write path (Text.Utf8.encode text.toList))

/-- Writes a text report to a file. -/
def TextReport.writeTo (r : TextReport) (files : FileSystem m) (path : String) :
    m (Except Error Unit) :=
  writeText files path r.contents

/-- The directory that has to be there before a file can be made. -/
def directoryFor? (path : String) : Option String :=
  (Host.Path.parent? path).filter fun p ↦ !p.isEmpty

/-- Writes a summary to a file. -/
def Summary.save (s : Summary) (files : FileSystem m) (path : String) : m (Except Error Unit) := do
  match directoryFor? path with
  | none => writeText files path s.toText
  | some dir =>
    match ← files.createDirs dir with
    | .error e => return .error (.reportWrite path e)
    | .ok () => writeText files path s.toText

/-- Reads the summary in a file. A directory can be opened, but not read. -/
def Summary.load (files : FileSystem m) (path : String) : m (Except Error Summary) := do
  match ← files.read path with
  | .error .isDirectory => return .error (.io "parsing JSON summary" (.file .isDirectory))
  | .error e => return .error (.io "opening JSON summary" (.file e))
  | .ok bs =>
    match Summary.ofOctets bs with
    | .ok s => return .ok s
    | .error issue => return .error (.io "parsing JSON summary" (.json issue))

end Crossing.Report
