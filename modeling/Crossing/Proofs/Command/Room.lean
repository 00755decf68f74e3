import Crossing.Command.Run
import Crossing.Proofs.Runner.Sweep

/-!
# A room to run in

A room has whatever a run can see or change: the state that benchmarks work on, a clock and files,
each of which may be any machine at all. Nothing is assumed about them: operations on files may fail
or succeed as they like, and may answer differently each time. What the run does to files, and what
it prints, is noted in order (`Deed`), together with the answers it got.

A bench that is carried into a room stays what it was (`run_onBench`), since running a catalogue
knows of nothing but its bench.
-/

namespace Crossing.Command

open Host (FileError FileSystem)
open Report (SystemInfo)

/-- Something that a run does to files, or prints. -/
inductive Deed
  | looked (path : String)
  | read (path : String)
  | wrote (path : String) (octets : List UInt8) (answer : Except FileError Unit)
  | madeDirs (path : String) (answer : Except FileError Unit)
  | printed (text : String)

namespace Deed

/-- Whether a deed may change files. -/
def isChange : Deed → Bool
  | wrote .. | madeDirs .. => true
  | _ => false

/-- Whether a deed was not refused. -/
def succeeded : Deed → Bool
  | wrote _ _ answer | madeDirs _ answer => answer.isOk
  | _ => true

/-- The text that is printed. -/
def text? : Deed → Option String
  | printed text => some text
  | _ => none

/-- Whether a deed only asks something about files. -/
def isInquiry : Deed → Bool
  | looked _ | read _ => true
  | _ => false

/-- An inquiry changes no file. -/
theorem isChange_of_isInquiry {d : Deed} (h : d.isInquiry) : d.isChange = false := by
  cases d with
  | looked path => rfl
  | read path => rfl
  | wrote path octets answer => cases h
  | madeDirs path answer => cases h
  | printed text => cases h

/-- An inquiry prints nothing. -/
theorem text?_of_isInquiry {d : Deed} (h : d.isInquiry) : d.text? = none := by
  cases d with
  | looked path => rfl
  | read path => rfl
  | wrote path octets answer => cases h
  | madeDirs path answer => cases h
  | printed text => cases h

/-- What changes a file prints nothing. -/
theorem text?_of_isChange {d : Deed} (h : d.isChange) : d.text? = none := by
  cases d with
  | looked path => cases h
  | read path => cases h
  | wrote path octets answer => rfl
  | madeDirs path answer => rfl
  | printed text => cases h

/-- Inquiries change nothing and print nothing. -/
theorem of_inquiries {ds : List Deed} (h : ∀ d ∈ ds, d.isInquiry) :
    ds.filter isChange = [] ∧ ds.filterMap text? = [] :=
  ⟨List.filter_eq_nil_iff.2 fun d hd ↦ by simp [isChange_of_isInquiry (h d hd)],
    List.filterMap_eq_nil_iff.2 fun d hd ↦ text?_of_isInquiry (h d hd)⟩

end Deed

/-- All that a run can see or change, and what it did. -/
structure Room (M T F : Type) where
  state : M
  clock : T
  files : F
  deeds : List Deed := []

namespace Room

variable {M T F α β : Type}

/-- Works with the clock and what benchmarks work on. -/
def onBench (f : StateM (M × T) α) : StateM (Room M T F) α := fun room ↦
  let (a, (state, clock)) := f (room.state, room.clock)
  (a, { room with state, clock })

/-- Works with the files, and notes what was done. -/
def onFiles (f : StateM F α) (deed : α → Deed) : StateM (Room M T F) α := fun room ↦
  let (a, files) := f room.files
  (a, { room with files, deeds := room.deeds ++ [deed a] })

/-- A bench in a room. -/
def bench (b : Bench (StateM (M × T)) M) : Bench (StateM (Room M T F)) M where
  now := onBench b.now
  enter f := onBench (b.enter f)

/-- Files in a room. -/
def fileSystem (files : FileSystem (StateM F)) : FileSystem (StateM (Room M T F)) where
  isPresent path := onFiles (files.isPresent path) fun _ ↦ .looked path
  read path := onFiles (files.read path) fun _ ↦ .read path
  write path octets := onFiles (files.write path octets) (.wrote path octets)
  createDirs path := onFiles (files.createDirs path) (.madeDirs path)

/-- A room as the machine to run on, at a given time and with a given description of itself. -/
def machine (b : Bench (StateM (M × T)) M) (files : FileSystem (StateM F)) (timestamp : Timestamp)
    (systemInfo : SystemInfo) : Machine (StateM (Room M T F)) M where
  files := fileSystem files
  bench := bench b
  print text := modify fun room ↦ { room with deeds := room.deeds ++ [.printed text] }
  pin _ := pure ()
  timestamp := pure timestamp
  systemInfo := pure systemInfo

/-! ### Running in a room -/

theorem onBench_of_eq {f : StateM (M × T) α} {n : M} {t : T} {a : α} {s : M × T}
    (h : f (n, t) = (a, s)) (files : F) (ds : List Deed) :
    onBench f ⟨n, t, files, ds⟩ = (a, ⟨s.1, s.2, files, ds⟩) := by
  rw [onBench, h]

theorem onBench_bind (f : StateM (M × T) α) (g : α → StateM (M × T) β) :
    (onBench (f >>= g) : StateM (Room M T F) β) = onBench f >>= fun a ↦ onBench (g a) := rfl

section

variable (F)

/-- Visits at the bench, one after the other, are one visit to the bench. -/
theorem visitEach_onBench {A : Type} (visit : Benchmark A → StateM (M × T) (Except Error α))
    (bs : List (Benchmark A)) :
    Runner.visitEach (fun c ↦ (onBench (visit c) : StateM (Room M T F) _)) bs =
      onBench (Runner.visitEach visit bs) := by
  induction bs with
  | nil => rfl
  | cons c bs ih =>
    rw [Runner.visitEach, Runner.visitEach, onBench_bind]
    refine bind_congr ?_
    rintro (e | a)
    · rfl
    · exact congrArg (· >>= _) ih

variable {A : Type} [Invocable A M] (b : Bench (StateM (M × T)) M) (bs : List (Benchmark A))

/-- Warm-up rounds touch neither the files nor the deeds. -/
theorem warmRounds_onBench (k : Nat) :
    Runner.warmRounds (bench b : Bench (StateM (Room M T F)) M) bs k =
      onBench (Runner.warmRounds b bs k) := by
  induction k with
  | zero => rfl
  | succ k ih =>
    rw [Runner.warmRounds, Runner.warmRounds, onBench_bind]
    show Runner.visitEach (fun c ↦ onBench (Runner.warm b c)) bs >>= _ = _
    rw [visitEach_onBench]
    refine bind_congr ?_
    rintro (e | -)
    · rfl
    · exact ih

/-- Timed rounds touch neither the files nor the deeds. -/
theorem timedRounds_onBench (k : Nat) (records : List Record) :
    Runner.timedRounds (bench b : Bench (StateM (Room M T F)) M) bs k records =
      onBench (Runner.timedRounds b bs k records) := by
  induction k generalizing records with
  | zero => rfl
  | succ k ih =>
    rw [Runner.timedRounds, Runner.timedRounds, onBench_bind]
    show Runner.visitEach (fun c ↦ onBench (Runner.timed b c)) bs >>= _ = _
    rw [visitEach_onBench]
    refine bind_congr ?_
    rintro (e | timings)
    · rfl
    · exact ih _

/-- **A run in a room is the run of its bench.** -/
theorem run_onBench (runner : Runner) (c : Catalog A) :
    runner.run (bench b : Bench (StateM (Room M T F)) M) c = onBench (runner.run b c) := by
  have hmeasure : runner.measure (bench b : Bench (StateM (Room M T F)) M) c =
      onBench (runner.measure b c) := by
    rw [Runner.measure, Runner.measure, onBench_bind, warmRounds_onBench]
    refine bind_congr ?_
    rintro (e | -)
    · rfl
    · exact timedRounds_onBench F b _ _ _
  rw [Runner.run, Runner.run, onBench_bind, hmeasure]
  rfl

end

section

variable (b : Bench (StateM (M × T)) M) (files : FileSystem (StateM F)) (timestamp : Timestamp)
  (systemInfo : SystemInfo)

/-- Entering what benchmarks work on from a room. -/
theorem machine_enter {g : M → α × M} {n : M} {t : T} {a : α} {s : M × T}
    (h : b.enter g (n, t) = (a, s)) (f : F) (ds : List Deed) :
    (machine b files timestamp systemInfo).bench.enter g ⟨n, t, f, ds⟩ =
      (a, ⟨s.1, s.2, f, ds⟩) :=
  onBench_of_eq h f ds

/-- Running a catalogue in a room. -/
theorem machine_run {A : Type} [Invocable A M] {runner : Runner} {c : Catalog A}
    {r : Except Error (List Record)} {s s' : M × T} (h : runner.run b c s = (r, s')) (f : F)
    (ds : List Deed) :
    runner.run (machine b files timestamp systemInfo).bench c ⟨s.1, s.2, f, ds⟩ =
      (r, ⟨s'.1, s'.2, f, ds⟩) := by
  show runner.run (bench b) c _ = _
  rw [run_onBench]
  exact onBench_of_eq h f ds

/-- In a room, nothing is to be seen of the processor that a thread is tied to. -/
theorem pinAsked_machine (o : Options) (room : Room M T F) :
    pinAsked (machine b files timestamp systemInfo) o room = ((), room) := by
  rw [pinAsked]
  cases o.pinCpu with
  | none => rfl
  | some cpu => rfl

end

/-! ### Loading a configuration in a room -/

/-- What is done with the files is done in a room as well, and only inquiries are made. -/
def Asks (f : StateM F α) (g : StateM (Room M T F) α) : Prop :=
  ∀ room, ∃ ds : List Deed, (∀ d ∈ ds, d.isInquiry) ∧
    g room = ((f room.files).1,
      { room with files := (f room.files).2, deeds := room.deeds ++ ds })

namespace Asks

theorem pure (a : α) : Asks (pure a : StateM F α) (pure a : StateM (Room M T F) α) := fun room ↦
  ⟨[], by simp, Prod.ext rfl (by rw [List.append_nil]; rfl)⟩

/-- One inquiry after the other asks no more than inquiries. -/
theorem bind {f : StateM F α} {g : StateM (Room M T F) α} {f' : α → StateM F β}
    {g' : α → StateM (Room M T F) β} (h : Asks f g) (h' : ∀ a, Asks (f' a) (g' a)) :
    Asks (f >>= f') (g >>= g') := fun room ↦ by
  obtain ⟨ds, hds, heq⟩ := h room
  obtain ⟨ds', hds', heq'⟩ := h' (f room.files).1
    { room with files := (f room.files).2, deeds := room.deeds ++ ds }
  refine ⟨ds ++ ds', fun d hd ↦ (List.mem_append.1 hd).elim (hds d) (hds' d), ?_⟩
  rw [bind_apply, heq, heq', bind_apply, ← List.append_assoc]

/-- What is noted as an inquiry is one. -/
theorem onFiles {f : StateM F α} {deed : α → Deed} (h : ∀ a, (deed a).isInquiry) :
    Asks f (onFiles f deed : StateM (Room M T F) α) := fun room ↦
  ⟨[deed (f room.files).1], by simpa using h _, rfl⟩

variable (files : FileSystem (StateM F)) (path : String)

theorem isPresent : Asks (files.isPresent path)
    ((fileSystem files).isPresent path : StateM (Room M T F) Bool) := by
  show Asks _ (Room.onFiles (files.isPresent path) fun _ ↦ .looked path)
  exact onFiles fun _ ↦ rfl

theorem read : Asks (files.read path)
    ((fileSystem files).read path : StateM (Room M T F) _) := by
  show Asks _ (Room.onFiles (files.read path) fun _ ↦ .read path)
  exact onFiles fun _ ↦ rfl

/-- A configuration file is looked for and read. -/
theorem ofFile : Asks (Config.ofFile files path)
    (Config.ofFile (fileSystem files) path : StateM (Room M T F) _) := by
  unfold Config.ofFile
  refine bind (isPresent files path) fun present ↦ ?_
  cases present with
  | false => exact pure _
  | true =>
    refine bind (read files path) fun answer ↦ ?_
    cases answer with
    | error e => exact pure _
    | ok octets => exact pure _

/-- Loading a configuration makes inquiries only. -/
theorem loadConfig (o : Options) : Asks (loadConfig files o)
    (loadConfig (fileSystem files) o : StateM (Room M T F) _) := by
  unfold Command.loadConfig
  cases o.config with
  | none => exact pure _
  | some path => exact bind (ofFile files path) fun loaded ↦ pure _

end Asks

end Room

end Crossing.Command
