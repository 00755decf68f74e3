import Crossing.Command.Run

/-!
# The command

Runs the suite on the machine at hand: its files, its clock and its description of itself. Readings
of the clock are nanoseconds.
-/

namespace Crossing.Command.Live

open Host (FileError FileSystem)

/-! ### Files -/

/-- Why a file operation failed, as far as it is known here. -/
def fileError (e : IO.Error) : FileError :=
  match e with
  | .noFileOrDirectory .. => .notFound
  | .alreadyExists .. => .alreadyExists
  | .inappropriateType _ code _ => if code == 21 then .isDirectory else .notDirectory
  | .invalidArgument _ code _ => if code == 36 then .nameTooLong else .other (toString e)
  | e => .other (toString e)

/-- An action on files with its failure as a value. -/
def attempt {α : Type} (act : IO α) : IO (Except FileError α) := do
  try
    return .ok (← act)
  catch e =>
    return .error (fileError e)

/-- The files of the machine. -/
def files : FileSystem IO where
  isPresent path := do
    match ← attempt (IO.FS.Handle.mk path .read) with
    | .ok _ => return true
    | .error _ => return false
  read path := do
    return (← attempt (IO.FS.readBinFile path)).map fun bytes ↦ bytes.toList
  write path bs := attempt (IO.FS.writeBinFile path ⟨bs.toArray⟩)
  createDirs path := attempt (IO.FS.createDirAll path)

/-! ### The machine's description of itself -/

/-- The lines of a file, none if it cannot be read. -/
def linesOf (path : String) : IO (List String) := do
  match ← attempt (IO.FS.readFile path) with
  | .ok text => return text.splitOn "\n"
  | .error _ => return []

/-- A text without blanks around it. -/
def trimmed (s : String) : String := String.ofList (Text.trim s.toList)

/-- The first line of a file. -/
def firstLine? (path : String) : IO (Option String) := do
  return ((← linesOf path).head?.map trimmed).filter fun s ↦ !s.isEmpty

/-- What stands after a key and a mark on the first line that has the key. -/
def valueAfter? (key mark : String) (lines : List String) : Option String :=
  lines.findSome? fun line ↦
    match line.splitOn mark with
    | k :: v :: vs => if trimmed k == key then some (trimmed (mark.intercalate (v :: vs))) else none
    | _ => none

/-- A value without quotes around it. -/
def unquoted (s : String) : String := String.ofList (s.toList.filter (· != '"'))

/-- The first number in a text. -/
def firstNumber (s : String) : Nat :=
  ((s.toList.dropWhile fun c ↦ !c.isDigit).takeWhile Char.isDigit).foldl
    (fun n c ↦ 10 * n + (c.toNat - 48)) 0

/-- What the system says about the machine. -/
def systemInfo : IO Report.SystemInfo := do
  let release ← linesOf "/etc/os-release"
  let cpus ← linesOf "/proc/cpuinfo"
  let memory ← linesOf "/proc/meminfo"
  let cores := cpus.countP fun line ↦ (line.splitOn ":").head?.map trimmed == some "processor"
  return {
    os := ((valueAfter? "NAME" "=" release).map unquoted).getD "Unknown"
    osVersion := ((valueAfter? "VERSION_ID" "=" release).map unquoted).getD "Unknown"
    kernelVersion := ← firstLine? "/proc/sys/kernel/osrelease"
    cpuModel := (valueAfter? "model name" ":" cpus).getD "Unknown"
    cpuCores := cores.toUInt64
    memoryBytes := (1024 * firstNumber ((valueAfter? "MemTotal" ":" memory).getD "")).toUInt64
    hostname := (← firstLine? "/proc/sys/kernel/hostname").getD "Unknown"
    arch := (← firstLine? "/proc/sys/kernel/arch").getD "Unknown"
    hardwareCounter := false }

/-- The time: when the system started, and how long it has been up since. -/
def timestamp : IO Timestamp := do
  let start := (valueAfter? "btime" " " (← linesOf "/proc/stat")).getD ""
  let up := (← firstLine? "/proc/uptime").getD ""
  return .ofUnix (firstNumber start + firstNumber up)

/-! ### Running -/

/-- The machine at hand. -/
def machine {M : Type} (state : IO.Ref M) : Machine IO M where
  files := files
  bench :=
    { now := return (← IO.monoNanosNow).toUInt64
      enter := fun f ↦ state.modifyGet f }
  print := IO.print
  pin cpu :=
    match checkCpu cpu with
    | .ok () => IO.eprintln "Running unpinned"
    | .error e => IO.eprintln ("Running unpinned: " ++ e.message)
  timestamp := timestamp
  systemInfo := systemInfo

/-- How the command is used. -/
def usage : String :=
  "Usage: crossing [OPTIONS]\n\n" ++
  "  -c, --config <FILE>    YAML configuration file\n" ++
  "  -r, --rounds <N>       Number of outer rounds\n" ++
  "  -o, --output <FILE>    Text result file\n" ++
  "      --json <FILE>      Also write a JSON summary\n" ++
  "      --quick            Few rounds, short inner loops\n" ++
  "      --pin-cpu <N>      Pin the runner thread to this CPU\n" ++
  "      --list             List benchmarks and exit\n" ++
  "  -v, --verbose          Enable verbose logging\n" ++
  "  -h, --help             Print help\n"

/-- Runs a command line and returns its exit code. -/
def execute (words : List String) : IO UInt32 := do
  match Options.ofWords words with
  | .error .help =>
    IO.print usage
    return 0
  | .error .wrong =>
    IO.eprint usage
    return 2
  | .ok options =>
    let state ← IO.mkRef ({ world := {} } : Store Empty Empty Empty)
    let := Platform.signed
    let exit := Exit.of (← run (machine state) options)
    match exit.words with
    | some words => IO.eprintln words
    | none => pure ()
    return exit.code

end Crossing.Command.Live

/-- The entry point of the command. -/
def main (words : List String) : IO UInt32 := Crossing.Command.Live.execute words
