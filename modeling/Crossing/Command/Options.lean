/-!
# Options of the command line

Options have long names, and some have short ones. Flags stand alone. Settings take a value: the
next word, what follows an equals sign, or for a short name what follows at once. Short names may
share one word. No option may be given twice, and there are no words besides options and values.
-/

namespace Crossing.Command

/-- Options that stand alone. -/
inductive Flag
  | quick
  | list
  | verbose
  | help
  deriving DecidableEq, Repr

/-- Options that take a value. -/
inductive Setting
  | config
  | rounds
  | output
  | json
  | pinCpu
  deriving DecidableEq, Repr

/-- What an option's name stands for. -/
abbrev Named := Flag ⊕ Setting

/-- What a command line asks for. -/
structure Options where
  config : Option String := none
  rounds : Option UInt64 := none
  output : Option String := none
  json : Option String := none
  quick : Bool := false
  pinCpu : Option UInt64 := none
  list : Bool := false
  verbose : Bool := false
  deriving DecidableEq, Repr

/-- Why a command line does not lead to a run: it asks for help, or it is wrong. -/
inductive Detour
  | help
  | wrong
  deriving DecidableEq, Repr

/-! ### Names and values -/

/-- The long names. -/
def longNames : List (String × Named) :=
  [ ("config", .inr .config), ("rounds", .inr .rounds), ("output", .inr .output),
    ("json", .inr .json), ("quick", .inl .quick), ("pin-cpu", .inr .pinCpu),
    ("list", .inl .list), ("verbose", .inl .verbose), ("help", .inl .help) ]

/-- The short names. -/
def shortNames : List (Char × Named) :=
  [ ('c', .inr .config), ('r', .inr .rounds), ('o', .inr .output), ('v', .inl .verbose),
    ('h', .inl .help) ]

/-- A number of 64 bits in decimal digits, after a plus sign if there is one. -/
def number? (s : String) : Option UInt64 :=
  let digits := match s.toList with
    | '+' :: r => r
    | r => r
  if !digits.isEmpty && digits.all Char.isDigit then
    let n : Nat := digits.foldl (fun n c ↦ 10 * n + (c.toNat - 48)) 0
    if n < UInt64.size then some n.toUInt64 else none
  else none

/-- A path, which may not be empty. -/
def path? (s : String) : Option String := if s.isEmpty then none else some s

/-! ### Reading -/

/-- The state of reading: what was set, by which options, and which setting waits for its value. -/
structure Reading where
  options : Options := {}
  given : List Named := []
  waiting : Option Setting := none

namespace Reading

/-- Notes that an option was given, which must be for the first time. -/
def note (r : Reading) (n : Named) : Except Detour Reading :=
  if r.given.contains n then .error .wrong else .ok { r with given := n :: r.given }

/-- Raises a flag. -/
def raise (r : Reading) (f : Flag) : Except Detour Reading := do
  let r ← r.note (.inl f)
  match f with
  | .quick => return { r with options := { r.options with quick := true } }
  | .list => return { r with options := { r.options with list := true } }
  | .verbose => return { r with options := { r.options with verbose := true } }
  | .help => throw .help

/-- A value that a setting takes. -/
def demand {α : Type} : Option α → Except Detour α
  | some a => .ok a
  | none => .error .wrong

/-- Gives a setting its value. -/
def give (r : Reading) (s : Setting) (value : String) : Except Detour Reading := do
  let r ← { r with waiting := none }.note (.inr s)
  let o := r.options
  let o ← match s with
    | .config => do pure { o with config := some (← demand (path? value)) }
    | .rounds => do pure { o with rounds := some (← demand (number? value)) }
    | .output => do pure { o with output := some (← demand (path? value)) }
    | .json => do pure { o with json := some (← demand (path? value)) }
    | .pinCpu => do pure { o with pinCpu := some (← demand (number? value)) }
  return { r with options := o }

/-- Takes a long name and what stood after an equals sign. -/
def takeLong (r : Reading) (name : String) (value : Option String) : Except Detour Reading :=
  match longNames.lookup name, value with
  | some (.inl f), none => r.raise f
  | some (.inr s), some v => r.give s v
  | some (.inr s), none => .ok { r with waiting := some s }
  | _, _ => .error .wrong

/-- What follows a short name at once, without an equals sign before it. -/
def attached : List Char → String
  | '=' :: cs => String.ofList cs
  | cs => String.ofList cs

/-- Takes short names from one word. -/
def takeShort (r : Reading) : List Char → Except Detour Reading
  | [] => .ok r
  | c :: cs =>
    match shortNames.lookup c with
    | none => .error .wrong
    | some (.inl f) => do (← r.raise f).takeShort cs
    | some (.inr s) =>
      if cs.isEmpty then .ok { r with waiting := some s } else r.give s (attached cs)

/-- Whether a word looks like an option; a single dash does not. -/
def looksLikeOption (word : String) : Bool :=
  match word.toList with
  | '-' :: _ :: _ => true
  | _ => false

/-- Takes a word: the value that is waited for, or options. -/
def take (r : Reading) (word : String) : Except Detour Reading :=
  match r.waiting with
  | some s => if looksLikeOption word then .error .wrong else r.give s word
  | none =>
    match word.toList with
    | '-' :: '-' :: cs =>
      let name := cs.takeWhile (· != '=')
      match cs.drop name.length with
      | [] => r.takeLong (String.ofList name) none
      | _ :: value => r.takeLong (String.ofList name) (some (String.ofList value))
    | '-' :: c :: cs => r.takeShort (c :: cs)
    | _ => .error .wrong

end Reading

namespace Options

/-- Reads a command line. Two dashes alone may end it. -/
def ofWords (words : List String) : Except Detour Options := do
  let options := words.takeWhile (· != "--")
  if options.length + 1 < words.length then throw .wrong
  let r ← options.foldlM Reading.take {}
  if r.waiting.isSome then throw .wrong
  return r.options

end Options

end Crossing.Command
