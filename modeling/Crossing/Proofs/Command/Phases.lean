import Crossing.Proofs.Command.Room
import Crossing.Proofs.Report.File
import Crossing.Proofs.Runner.Measurement
import Crossing.Proofs.Sample

/-!
# The phases of a run from the command line

A run loads its configuration, builds the catalogue, and lists or measures it. Only then does it
report, and how far it got by then is its *prospect*. What it does to files and what it prints
follows from the prospect alone:

* before the report, a run only makes inquiries, so a run that is stopped has changed no file and
  printed nothing;
* the report is printed once, and then written to the result file and, if there is a path for it,
  as a summary, whatever became of the result file.

Main statement: `run_reports_last`.
-/

namespace Crossing.Command

open Boundary (Machines)
open Host (FileError FileSystem)
open Report (Summary SystemInfo octets isOk_writeError)

variable {A M T F : Type}

/-- What a run has come to before it reports anything. -/
inductive Prospect
  | stopped (failure : Failure)
  | listed (entries : List Entry)
  | measured (config : RunnerConfig) (records : List Record)

section

variable [Invocable A M] (build : StrategyConfig → StateM M (Except Error (Catalog A)))
  (b : Bench (StateM (M × T)) M) (files : FileSystem (StateM F)) (o : Options)

/-- How far a run gets from `(n, t)` and files `f`, and what the benchmarks have left and what the
clock is then. A run is stopped in one of three phases. -/
inductive Reaches (n : M) (t : T) (f : F) : Prospect → M × T → Prop
  | notLoaded {failure : Failure} (hload : (loadConfig files o f).1 = .error failure) :
    Reaches n t f (.stopped failure) (n, t)
  | notBuilt {config : Config} {e : Error} {s : M × T}
    (hload : (loadConfig files o f).1 = .ok config)
    (hbuild : b.enter (build config.strategies) (n, t) = (.error e, s)) :
    Reaches n t f (.stopped (.failed e)) s
  | notMeasured {config : Config} {catalog : Catalog A} {e : Error} {s s' : M × T}
    (hload : (loadConfig files o f).1 = .ok config)
    (hbuild : b.enter (build config.strategies) (n, t) = (.ok catalog, s)) (hlist : ¬o.list)
    (hrun : (Runner.ofConfig config.runner).run b catalog s = (.error e, s')) :
    Reaches n t f (.stopped (.failed e)) s'
  | listed {config : Config} {catalog : Catalog A} {s : M × T}
    (hload : (loadConfig files o f).1 = .ok config)
    (hbuild : b.enter (build config.strategies) (n, t) = (.ok catalog, s)) (hlist : o.list) :
    Reaches n t f (.listed catalog.entries) (b.enter (fun n ↦ ((), catalog.drop n)) s).2
  | measured {config : Config} {catalog : Catalog A} {records : List Record} {s s' : M × T}
    (hload : (loadConfig files o f).1 = .ok config)
    (hbuild : b.enter (build config.strategies) (n, t) = (.ok catalog, s)) (hlist : ¬o.list)
    (hrun : (Runner.ofConfig config.runner).run b catalog s = (.ok records, s')) :
    Reaches n t f (.measured config.runner records) s'

variable {build b files o}

/-- Each run gets somewhere. -/
theorem exists_reaches (n : M) (t : T) (f : F) : ∃ p s, Reaches build b files o n t f p s := by
  cases hload : (loadConfig files o f).1 with
  | error failure => exact ⟨_, _, .notLoaded hload⟩
  | ok config =>
    rcases hbuild : b.enter (build config.strategies) (n, t) with ⟨e | catalog, s⟩
    · exact ⟨_, _, .notBuilt hload hbuild⟩
    · by_cases hlist : o.list
      · exact ⟨_, _, .listed hload hbuild hlist⟩
      · rcases hrun : (Runner.ofConfig config.runner).run b catalog s with ⟨e | records, s'⟩
        · exact ⟨_, _, .notMeasured hload hbuild hlist hrun⟩
        · exact ⟨_, _, .measured hload hbuild hlist hrun⟩

/-- A run that is to list gets no records. -/
theorem Reaches.not_list {n : M} {t : T} {f : F} {s : M × T} {config : RunnerConfig}
    {records : List Record} (h : Reaches build b files o n t f (.measured config records) s) :
    ¬o.list := by
  cases h with
  | measured hload hbuild hlist hrun => exact hlist

/-- Nothing is listed unless that is asked for. -/
theorem Reaches.list {n : M} {t : T} {f : F} {s : M × T} {entries : List Entry}
    (h : Reaches build b files o n t f (.listed entries) s) : o.list := by
  cases h with
  | listed hload hbuild hlist => exact hlist

variable (timestamp : Timestamp) (systemInfo : SystemInfo)

/-- What is left to do from a prospect on. -/
def Prospect.finish [Platform] (p : Prospect) (machine : Machine (StateM (Room M T F)) M) :
    StateM (Room M T F) (Except Failure Unit) :=
  match p with
  | stopped failure => pure (.error failure)
  | listed entries => do
    machine.print (listing entries)
    return .ok ()
  | measured config records => reportRun machine config records

/-- Up to its prospect, a run only makes inquiries. -/
theorem runWith_of_reaches [Platform] (room : Room M T F) {p : Prospect} {s : M × T}
    (h : Reaches build b files o room.state room.clock room.files p s) :
    ∃ ds : List Deed, (∀ d ∈ ds, d.isInquiry) ∧
      runWith build (Room.machine b files timestamp systemInfo) o room =
        p.finish (Room.machine b files timestamp systemInfo)
          ⟨s.1, s.2, (loadConfig files o room.files).2, room.deeds ++ ds⟩ := by
  obtain ⟨ds, hds, hasks⟩ := Room.Asks.loadConfig files o room
  refine ⟨ds, hds, ?_⟩
  have hloaded : loadConfig (Room.machine b files timestamp systemInfo).files o room = _ := hasks
  rw [runWith, bind_apply, hloaded]
  cases h with
  | notLoaded hload =>
    rw [hload]
    rfl
  | notBuilt hload hbuild =>
    rw [hload]
    dsimp only
    rw [bind_apply, Room.machine_enter _ _ _ _ hbuild]
    rfl
  | notMeasured hload hbuild hlist hrun =>
    rw [hload]
    dsimp only
    rw [bind_apply, Room.machine_enter _ _ _ _ hbuild]
    dsimp only
    rw [use, if_neg hlist, bind_apply, Room.pinAsked_machine, bind_apply,
      Room.machine_run _ _ _ _ hrun]
    rfl
  | listed hload hbuild hlist =>
    rw [hload]
    dsimp only
    rw [bind_apply, Room.machine_enter _ _ _ _ hbuild]
    dsimp only
    rw [use, if_pos hlist]
    rfl
  | measured hload hbuild hlist hrun =>
    rw [hload]
    dsimp only
    rw [bind_apply, Room.machine_enter _ _ _ _ hbuild]
    dsimp only
    rw [use, if_neg hlist, bind_apply, Room.pinAsked_machine, bind_apply,
      Room.machine_run _ _ _ _ hrun]
    rfl

/-! ### Reporting in a room -/

/-- What is done to write a summary to a path: the directory is made first, if it has to be there,
and then the file is written, unless there is no directory. -/
inductive Attempt (path : String) (octets : List UInt8) : List Deed → Prop
  | direct {answer : Except FileError Unit} (hdir : Report.directoryFor? path = none) :
    Attempt path octets [.wrote path octets answer]
  | within {dir : String} {answer : Except FileError Unit}
    (hdir : Report.directoryFor? path = some dir) :
    Attempt path octets [.madeDirs dir (.ok ()), .wrote path octets answer]
  | blocked {dir : String} {e : FileError} (hdir : Report.directoryFor? path = some dir) :
    Attempt path octets [.madeDirs dir (.error e)]

/-- To write a summary is to change files. -/
theorem Attempt.isChange {path : String} {octets : List UInt8} {attempt : List Deed}
    (h : Attempt path octets attempt) {d : Deed} (hd : d ∈ attempt) : d.isChange := by
  cases h with
  | direct => simp_all [Deed.isChange]
  | within => rcases hd with - | ⟨_, - | ⟨_, ⟨⟩⟩⟩ <;> rfl
  | blocked => simp_all [Deed.isChange]

/-- A report that is written goes to the files, with a note of what was written. -/
theorem writeText_room (path text : String) (room : Room M T F) :
    Report.writeText (Room.fileSystem files) path text room =
      (Report.writeError path (files.write path (octets text) room.files).1,
        { room with
          files := (files.write path (octets text) room.files).2
          deeds := room.deeds ++
            [.wrote path (octets text) (files.write path (octets text) room.files).1] }) :=
  rfl

theorem createDirs_room {dir : String} {room : Room M T F} {answer : Except FileError Unit} {f : F}
    (h : files.createDirs dir room.files = (answer, f)) :
    (Room.fileSystem files).createDirs dir room =
      (answer, { room with files := f, deeds := room.deeds ++ [.madeDirs dir answer] }) := by
  show Room.onFiles (files.createDirs dir) (.madeDirs dir) room = _
  rw [Room.onFiles, h]

/-- Saving a summary in a room does with the files what it does anyway, and is an attempt which
succeeds if all its deeds do. -/
theorem save_room (summary : Summary) (path : String) (room : Room M T F) :
    ∃ attempt : List Deed, Attempt path (octets summary.toText) attempt ∧
      summary.save (Room.fileSystem files) path room =
        ((summary.save files path room.files).1,
          { room with
            files := (summary.save files path room.files).2
            deeds := room.deeds ++ attempt }) ∧
      ((summary.save files path room.files).1.isOk ↔ ∀ d ∈ attempt, d.succeeded) := by
  cases hdir : Report.directoryFor? path with
  | none =>
    refine ⟨[.wrote path _ (files.write path (octets summary.toText) room.files).1], .direct hdir,
      ?_, ?_⟩
    · rw [Summary.save_of_direct hdir, Summary.save_of_direct hdir, writeText_room]
      rfl
    · rw [Summary.save_of_direct hdir, List.forall_mem_singleton]
      exact iff_of_eq (congrArg (· = true) (isOk_writeError _ _))
  | some dir =>
    rcases hmade : files.createDirs dir room.files with ⟨e | ⟨⟩, f⟩
    · refine ⟨[.madeDirs dir (.error e)], .blocked hdir, ?_, ?_⟩
      · rw [Summary.save_of_blocked hdir hmade,
          Summary.save_of_blocked hdir (createDirs_room hmade)]
      · rw [Summary.save_of_blocked hdir hmade, List.forall_mem_singleton]
        rfl
    · refine ⟨[.madeDirs dir (.ok ()),
        .wrote path _ (files.write path (octets summary.toText) f).1], .within hdir, ?_, ?_⟩
      · rw [Summary.save_of_within hdir hmade,
          Summary.save_of_within hdir (createDirs_room hmade), writeText_room]
        dsimp only
        rw [List.append_assoc]
        rfl
      · rw [Summary.save_of_within hdir hmade, List.forall_mem_cons, List.forall_mem_singleton]
        exact (iff_of_eq (congrArg (· = true) (isOk_writeError _ _))).trans
          ⟨fun h ↦ ⟨rfl, h⟩, And.right⟩

section

variable (files) (config : RunnerConfig) (summary : Summary)

/-- Saves a summary if there is a path for it. -/
def saveAsked : StateM F (Except Error Unit) :=
  match config.jsonSummary with
  | none => pure (.ok ())
  | some path => summary.save files path

/-- What is done to write a summary if there is a path for it: nothing if there is none. -/
def AttemptAsked (octets : List UInt8) (attempt : List Deed) : Prop :=
  match config.jsonSummary with
  | none => attempt = []
  | some path => Attempt path octets attempt

/-- All that is done to save a report changes files. -/
theorem AttemptAsked.isChange {config : RunnerConfig} {octets : List UInt8} {attempt : List Deed}
    (h : AttemptAsked config octets attempt) {d : Deed} (hd : d ∈ attempt) : d.isChange := by
  rw [AttemptAsked] at h
  cases hpath : config.jsonSummary with
  | none =>
    rw [hpath] at h
    subst h
    cases hd
  | some path =>
    rw [hpath] at h
    exact Attempt.isChange h hd

/-- What is noted of a report that is saved is one attempt, as the configuration asks for it. -/
theorem saveAsked_room (room : Room M T F) :
    ∃ attempt : List Deed, AttemptAsked config (octets summary.toText) attempt ∧
      saveAsked (Room.fileSystem files) config summary room =
        ((saveAsked files config summary room.files).1,
          { room with
            files := (saveAsked files config summary room.files).2
            deeds := room.deeds ++ attempt }) ∧
      ((saveAsked files config summary room.files).1.isOk ↔ ∀ d ∈ attempt, d.succeeded) := by
  simp only [saveAsked, AttemptAsked]
  cases hpath : config.jsonSummary with
  | none =>
    refine ⟨[], rfl, ?_, iff_of_true rfl (List.forall_mem_nil _)⟩
    rw [List.append_nil]
    rfl
  | some path => exact save_room summary path room

end

/-- The summary of a run is that of its records, though they have been sorted by then. -/
theorem writeSummary_machine [Platform] (config : RunnerConfig) (records : List Record) :
    writeSummary (Room.machine b files timestamp systemInfo) config (records.map Record.sort) =
      saveAsked (Room.fileSystem files) config
        (Summary.ofRecords records config.outerRounds.count timestamp systemInfo).1 := by
  rw [writeSummary, saveAsked, ← Summary.ofRecords_sort]
  cases config.jsonSummary with
  | none => rfl
  | some path => rfl

/-- A run fails if one of the two reports was not written. -/
theorem bothWritten_writeError (path : String) (answer : Except FileError Unit)
    (saved : Except Error Unit) :
    bothWritten (Report.writeError path answer) saved =
      if answer.isOk ∧ saved.isOk then .ok () else .error .unwritten := by
  cases answer <;> cases saved <;> rfl

/-- A run reports on the console, then in the result file, and then in the summary. -/
theorem reportRun_room [Platform] (config : RunnerConfig) (records : List Record)
    (room : Room M T F) :
    let report := (Report.render records).1
    let summary := (Summary.ofRecords records config.outerRounds.count timestamp systemInfo).1
    let written := files.write config.resultFile (octets report.contents) room.files
    let saved := saveAsked files config summary written.2
    ∃ attempt : List Deed, AttemptAsked config (octets summary.toText) attempt ∧
      (saved.1.isOk ↔ ∀ d ∈ attempt, d.succeeded) ∧
      reportRun (Room.machine b files timestamp systemInfo) config records room =
        (if written.1.isOk ∧ saved.1.isOk then .ok () else .error .unwritten,
          { room with
            files := saved.2
            deeds := room.deeds ++ [.printed (announcement report config.resultFile)] ++
              [.wrote config.resultFile (octets report.contents) written.1] ++ attempt }) := by
  intro report summary written saved
  obtain ⟨attempt, hattempt, hsaved, hok⟩ := saveAsked_room files config summary
    { room with
      files := written.2
      deeds := room.deeds ++ [.printed (announcement report config.resultFile)] ++
        [.wrote config.resultFile (octets report.contents) written.1] }
  refine ⟨attempt, hattempt, hok, ?_⟩
  -- up to the summary, everything is what it says
  show (writeSummary (Room.machine b files timestamp systemInfo) config (records.map Record.sort)
    >>= fun saved ↦ pure (bothWritten (Report.writeError config.resultFile written.1) saved)) _ = _
  rw [writeSummary_machine, bind_apply]
  refine (congrArg (fun x ↦ (pure (bothWritten _ x.1) : StateM (Room M T F) _) x.2) hsaved).trans ?_
  rw [bothWritten_writeError]
  rfl

/-! ### What becomes of each prospect -/

section

variable {n : M} {t : T} {f : F} {s : M × T}

/-- A run that is stopped has done nothing that can be seen. -/
theorem runWith_of_stopped [Platform] {failure : Failure}
    (h : Reaches build b files o n t f (.stopped failure) s) :
    let out := runWith build (Room.machine b files timestamp systemInfo) o ⟨n, t, f, []⟩
    out.1 = .error failure ∧ out.2.deeds.filterMap Deed.text? = [] ∧
      out.2.deeds.filter Deed.isChange = [] := by
  obtain ⟨ds, hds, hrun⟩ := runWith_of_reaches timestamp systemInfo ⟨n, t, f, []⟩ h
  intro out
  have hdeeds : out.2.deeds = ds := by rw [show out = _ from hrun]; rfl
  obtain ⟨hchanges, htexts⟩ := Deed.of_inquiries hds
  exact ⟨by rw [show out = _ from hrun]; rfl, hdeeds ▸ htexts, hdeeds ▸ hchanges⟩

/-- A run that lists prints the listing. -/
theorem runWith_of_listed [Platform] {entries : List Entry}
    (h : Reaches build b files o n t f (.listed entries) s) :
    let out := runWith build (Room.machine b files timestamp systemInfo) o ⟨n, t, f, []⟩
    out.1 = .ok () ∧ out.2.deeds.filterMap Deed.text? = [listing entries] ∧
      out.2.deeds.filter Deed.isChange = [] := by
  obtain ⟨ds, hds, hrun⟩ := runWith_of_reaches timestamp systemInfo ⟨n, t, f, []⟩ h
  intro out
  have hdeeds : out.2.deeds = ds ++ [.printed (listing entries)] := by
    rw [show out = _ from hrun]
    rfl
  obtain ⟨hchanges, htexts⟩ := Deed.of_inquiries hds
  refine ⟨by rw [show out = _ from hrun]; rfl, ?_, ?_⟩
  · rw [hdeeds, List.filterMap_append, htexts]
    rfl
  · rw [hdeeds, List.filter_append, hchanges]
    rfl

/-- A run that has measured prints one text, tries to write the result file, and then the summary if
there is a path for it. It succeeds if all that it tried did. -/
theorem runWith_of_measured [Platform] {config : RunnerConfig} {records : List Record}
    (h : Reaches build b files o n t f (.measured config records) s) :
    let out := runWith build (Room.machine b files timestamp systemInfo) o ⟨n, t, f, []⟩
    let report := (Report.render records).1
    let summary := (Summary.ofRecords records config.outerRounds.count timestamp systemInfo).1
    let written := files.write config.resultFile (octets report.contents) (loadConfig files o f).2
    out.1 = (if written.1.isOk ∧ (saveAsked files config summary written.2).1.isOk then .ok ()
      else .error .unwritten) ∧
    out.2.files = (saveAsked files config summary written.2).2 ∧
    out.2.deeds.filterMap Deed.text? = [announcement report config.resultFile] ∧
    (∃ attempt : List Deed, AttemptAsked config (octets summary.toText) attempt ∧
      out.2.deeds.filter Deed.isChange =
        .wrote config.resultFile (octets report.contents) written.1 :: attempt) ∧
    (out.1 = .ok () ↔ ∀ d ∈ out.2.deeds, d.isChange → d.succeeded) := by
  obtain ⟨ds, hds, hrun⟩ := runWith_of_reaches timestamp systemInfo ⟨n, t, f, []⟩ h
  intro out report summary written
  obtain ⟨attempt, hattempt, hok, hreport⟩ := @reportRun_room _ _ _ b files timestamp systemInfo _
    config records ⟨s.1, s.2, (loadConfig files o f).2, ds⟩
  have hout : out = (if written.1.isOk ∧ (saveAsked files config summary written.2).1.isOk then
      .ok () else .error .unwritten,
      ⟨s.1, s.2, (saveAsked files config summary written.2).2,
        ds ++ [.printed (announcement report config.resultFile)] ++
          [.wrote config.resultFile (octets report.contents) written.1] ++ attempt⟩) :=
    hrun.trans hreport
  obtain ⟨hchanges, htexts⟩ := Deed.of_inquiries hds
  have hattempted : ∀ d ∈ attempt, d.isChange := fun d ↦ hattempt.isChange
  have hsucceeded : out.1 = .ok () ↔
      written.1.isOk ∧ (saveAsked files config summary written.2).1.isOk := by
    rw [hout]
    dsimp only
    split <;> simp_all
  refine ⟨by rw [hout], by rw [hout], ?_, ⟨attempt, hattempt, ?_⟩, ?_⟩
  · have hsilent : attempt.filterMap Deed.text? = [] :=
      List.filterMap_eq_nil_iff.2 fun d hd ↦ Deed.text?_of_isChange (hattempted d hd)
    rw [hout, List.filterMap_append, List.filterMap_append, List.filterMap_append, htexts, hsilent]
    rfl
  · rw [hout, List.filter_append, List.filter_append, List.filter_append, hchanges,
      List.filter_eq_self.2 hattempted]
    rfl
  · rw [hsucceeded, show (saveAsked files config summary written.2).1.isOk ↔ _ from hok, hout]
    simp only [List.forall_mem_append, List.forall_mem_singleton]
    refine ⟨fun ⟨hwritten, hsaved⟩ ↦ ⟨⟨⟨fun d hd hchange ↦ ?_, fun h ↦ rfl⟩, fun _ ↦ hwritten⟩,
      fun d hd _ ↦ hsaved d hd⟩, fun ⟨⟨_, hwritten⟩, hsaved⟩ ↦
        ⟨hwritten rfl, fun d hd ↦ hsaved d hd (hattempted d hd)⟩⟩
    exact absurd hchange (by simp [Deed.isChange_of_isInquiry (hds d hd)])

end

/-! ### Invocations -/

/-- The catalogue that `build` makes, with all its benchmarks traced. -/
def traced (build : StrategyConfig → StateM M (Except Error (Catalog A)))
    (c : StrategyConfig) :
    StateM (M × List Event) (Except Error (Catalog (Traced A))) := fun s ↦
  let (r, n) := build c s.1
  (r.map Catalog.traced, (n, s.2))

section

variable {tick : T → UInt64 × T} {n n' : M} {t t' : T}

omit [Invocable A M] in
/-- Notes are taken while a suite is built, and nothing else is different. -/
theorem enter_traced {c : StrategyConfig} {r : Except Error (Catalog A)}
    (h : (Bench.ofClock tick).enter (build c) (n, t) = (r, (n', t'))) :
    (Bench.noting tick).enter (traced build c) ((n, []), t) =
      (r.map Catalog.traced, ((n', []), t')) := by
  have hparts : ((build c n).1, ((build c n).2, t)) = (r, (n', t')) := h
  obtain ⟨rfl, rfl, rfl⟩ : (build c n).1 = r ∧ (build c n).2 = n' ∧ t = t' := by
    simpa only [Prod.mk.injEq] using hparts
  rfl

theorem run_traced {runner : Runner} {catalog : Catalog A} {s s' : M × T}
    {r : Except Error (List Record)} (h : runner.run (Bench.ofClock tick) catalog s = (r, s')) :
    ∃ log, runner.run (Bench.noting tick) catalog.traced ((s.1, []), s.2) =
      (r, ((s'.1, log), s'.2)) := by
  obtain ⟨hresult, hstate, hclock⟩ := Stage.run_noting ⟨catalog, s.1⟩ tick s.2 runner
  have hplain : runner.run (Bench.ofClock tick) catalog (s.1, s.2) = (r, s') := h
  rw [hplain] at hresult hstate hclock
  exact ⟨_, Prod.ext hresult (Prod.ext (Prod.ext hstate rfl) hclock)⟩

/-- A run whose events are noted gets as far, and notes nothing if it only lists. -/
theorem Reaches.traced {f : F} {p : Prospect} {s : M × T}
    (h : Reaches build (Bench.ofClock tick) files o n t f p s) :
    ∃ log : List Event, (o.list → log = []) ∧
      Reaches (traced build) (Bench.noting tick) files o (n, []) t f p ((s.1, log), s.2) := by
  cases h with
  | notLoaded hload => exact ⟨[], fun _ ↦ rfl, .notLoaded hload⟩
  | notBuilt hload hbuild => exact ⟨[], fun _ ↦ rfl, .notBuilt hload (enter_traced hbuild)⟩
  | notMeasured hload hbuild hlist hrun =>
    obtain ⟨log, hrun'⟩ := run_traced hrun
    exact ⟨log, fun h ↦ absurd h hlist, .notMeasured hload (enter_traced hbuild) hlist hrun'⟩
  | @listed config catalog s hload hbuild hlist =>
    have hreaches := Reaches.listed hload (enter_traced hbuild) hlist
    rw [Catalog.entries_traced] at hreaches
    refine ⟨[], fun _ ↦ rfl, ?_⟩
    have hleft : ((Bench.noting tick).enter (fun n ↦ ((), catalog.traced.drop n))
        ((s.1, []), s.2)).2 = ((catalog.drop s.1, []), s.2) := by
      show (catalog.traced.drop (s.1, []), s.2) = _
      rw [Catalog.drop_traced]
    rw [hleft] at hreaches
    exact hreaches
  | measured hload hbuild hlist hrun =>
    obtain ⟨log, hrun'⟩ := run_traced hrun
    exact ⟨log, fun h ↦ absurd h hlist, .measured hload (enter_traced hbuild) hlist hrun'⟩

end

end

/-- The exit code tells success from failure. -/
theorem code_of_eq_zero_iff {r : Except Failure Unit} : (Exit.of r).code = 0 ↔ r = .ok () := by
  cases r with
  | error failure => exact iff_of_false (by decide : (1 : UInt32) ≠ 0) (by simp)
  | ok u => exact iff_of_true rfl rfl

/-! ### Runs of the suite -/

/-- **A run reports last, and reports all it can.** Whatever the files and the clock do, a run is
stopped while it loads, builds or measures, or it lists, or it has records.

* If it is stopped, its exit code is not zero, it has printed nothing and changed no file.
* If it is to list, it invokes nothing and changes no file.
* If it has records, it prints the primary section and the line that names the result file, and
  nothing else. It tries to write the result file first, and then the summary exactly if there is a
  path for it. Its exit code is zero exactly if all that it tried to write was written.

The events of a run are noted by a run with a traced catalogue, which comes to the same. -/
theorem run_reports_last [Platform] {S C P : Type} [Machines S C] (tick : T → UInt64 × T)
    (files : FileSystem (StateM F)) (timestamp : Timestamp) (systemInfo : SystemInfo) (o : Options)
    (m : Store S C P) (t : T) (f : F) :
    let out := run (Room.machine (Bench.ofClock tick) files timestamp systemInfo) o ⟨m, t, f, []⟩
    let noted := runWith (traced buildSuite)
      (Room.machine (Bench.noting tick) files timestamp systemInfo) o ⟨(m, []), t, f, []⟩
    let reaches := Reaches buildSuite (Bench.ofClock tick) files o m t f
    let code := (Exit.of out.1).code
    let deeds := out.2.deeds
    ((∃ p s, reaches p s) ∧ noted.1 = out.1) ∧
    (∀ failure s, reaches (.stopped failure) s →
      code ≠ 0 ∧ deeds.filterMap Deed.text? = [] ∧ deeds.filter Deed.isChange = []) ∧
    (o.list → noted.2.state.2 = [] ∧ deeds.filter Deed.isChange = [] ∧
      ∀ config records s, ¬reaches (.measured config records) s) ∧
    (∀ entries s, reaches (.listed entries) s →
      o.list ∧ code = 0 ∧ deeds.filterMap Deed.text? = [listing entries]) ∧
    ∀ config records s, reaches (.measured config records) s →
      let report := (Report.render records).1
      let summary := (Summary.ofRecords records config.outerRounds.count timestamp systemInfo).1
      deeds.filterMap Deed.text? = [report.primary ++
        "Writing more performance test results to: " ++ config.resultFile ++ "\n"] ∧
      (∃ answer attempt, deeds.filter Deed.isChange =
          .wrote config.resultFile (octets report.contents) answer :: attempt ∧
        AttemptAsked config (octets summary.toText) attempt) ∧
      (code = 0 ↔ ∀ d ∈ deeds, d.isChange → d.succeeded) := by
  intro out noted reaches code deeds
  obtain ⟨p, s, h⟩ : ∃ p s, reaches p s := exists_reaches m t f
  obtain ⟨log, hlog, h'⟩ := Reaches.traced h
  refine ⟨⟨⟨p, s, h⟩, ?_⟩, ?_, ?_, ?_, ?_⟩
  · cases p with
    | stopped failure =>
      rw [show noted.1 = _ from (runWith_of_stopped timestamp systemInfo h').1,
        show out.1 = _ from (runWith_of_stopped timestamp systemInfo h).1]
    | listed entries =>
      rw [show noted.1 = _ from (runWith_of_listed timestamp systemInfo h').1,
        show out.1 = _ from (runWith_of_listed timestamp systemInfo h).1]
    | measured config records =>
      rw [show noted.1 = _ from (runWith_of_measured timestamp systemInfo h').1,
        show out.1 = _ from (runWith_of_measured timestamp systemInfo h).1]
  · intro failure s hstopped
    obtain ⟨hresult, htexts, hchanges⟩ := runWith_of_stopped timestamp systemInfo hstopped
    refine ⟨fun hzero ↦ ?_, htexts, hchanges⟩
    cases hresult.symm.trans (code_of_eq_zero_iff.1 hzero)
  · intro hlist
    refine ⟨?_, ?_, fun config records s hmeasured ↦ hmeasured.not_list hlist⟩
    · obtain ⟨ds, -, hnoted⟩ := runWith_of_reaches timestamp systemInfo ⟨(m, []), t, f, []⟩ h'
      rw [show noted = _ from hnoted]
      cases p with
      | stopped failure => exact hlog hlist
      | listed entries => exact hlog hlist
      | measured config records => exact absurd hlist h.not_list
    · cases p with
      | stopped failure => exact (runWith_of_stopped timestamp systemInfo h).2.2
      | listed entries => exact (runWith_of_listed timestamp systemInfo h).2.2
      | measured config records => exact absurd hlist h.not_list
  · intro entries s hlisted
    obtain ⟨hresult, htexts, -⟩ := runWith_of_listed timestamp systemInfo hlisted
    exact ⟨hlisted.list, code_of_eq_zero_iff.2 hresult, htexts⟩
  · intro config records s hmeasured report summary
    obtain ⟨-, -, htexts, ⟨attempt, hattempt, hchanges⟩, hok⟩ :=
      runWith_of_measured timestamp systemInfo hmeasured
    exact ⟨htexts, ⟨_, attempt, hchanges, hattempt⟩, code_of_eq_zero_iff.trans hok⟩

end Crossing.Command
