import Crossing.Proofs.Command.Phases
import Crossing.Proofs.Report.Sections
import Crossing.Proofs.Suite.Invocations
import Crossing.Proofs.Text.Encoding

/-!
# What a run leaves in its files

A run that succeeds leaves its text report in the result file and its summary at the path for it, in
any lawful file system. The summary is written last, so the text report is only there if the two
paths do not lead to one file.

Main statement: `run_leaves_reports`. A run whose two paths are the same one succeeds, but leaves no
text report: `run_overwrites_report`.
-/

namespace Crossing

open Boundary (Machines)
open Host (FileSystem Tree)
open Report (Summary SystemInfo octets write_tree leads_jsonPath)
open Text (nul)

/-! ### Reports of both kinds differ -/

namespace Report

/-- A text can be told from its octets. -/
theorem octets_injective {s s' : String} (h : octets s = octets s') : s = s' := by
  have hdecoded := congrArg Text.Utf8.decode? h
  rw [octets, octets, Text.Utf8.decode?_encode, Text.Utf8.decode?_encode] at hdecoded
  exact String.toList_inj.1 (Option.some.inj hdecoded)

/-- More records only make a section longer. -/
theorem Builder.exists_primary_foldl [Platform] (records : List Record) (b : Builder) :
    ∃ more, (records.foldl push b).primary = b.primary ++ more := by
  induction records generalizing b with
  | nil => exact ⟨"", String.append_empty.symm⟩
  | cons r records ih =>
    obtain ⟨more, hmore⟩ := ih (b.push r)
    rw [List.foldl_cons, hmore, push_eq_extend]
    cases r.tier with
    | primary => exact ⟨_, String.append_assoc⟩
    | secondary => exact ⟨more, rfl⟩

/-- No text report is a summary: one starts with its title, the other with a brace. -/
theorem contents_ne_toText [Platform] (records : List Record) (summary : Summary) :
    octets (render records).1.contents ≠ octets summary.toText := by
  intro h
  obtain ⟨more, hmore⟩ := Builder.exists_primary_foldl records {}
  have htext : summary.toText.toList.head? = some '{' := by
    simp [Summary.toText, Summary.toValue, Json.Value.pretty, String.toList_append]
  have hreport : (render records).1.contents.toList.head? = some 'P' := by
    rw [TextReport.contents, render, Builder.build, hmore, String.append_assoc]
    simp [title, String.toList_append]
  rw [octets_injective h, htext] at hreport
  exact absurd hreport (by decide)

end Report

namespace Command

variable {S C P T F : Type} [Machines S C]

/-! ### Runs that have records -/

section

variable {files : FileSystem (StateM F)} {o : Options} {tick : T → UInt64 × T}

/-- Whoever gets to measure has loaded a configuration. -/
theorem Reaches.loaded {m : Store S C P} {t : T} {f : F} {config : RunnerConfig}
    {records : List Record} {s : Store S C P × T}
    (h : Reaches buildSuite (Bench.ofClock tick) files o m t f (.measured config records) s) :
    ∃ loaded, (loadConfig files o f).1 = .ok loaded ∧ loaded.runner = config := by
  cases h with
  | measured hload => exact ⟨_, hload, rfl⟩

/-- A run of the suite has records if its texts have no zero in them. -/
theorem exists_measured (tick : T → UInt64 × T) {f : F} {config : Config}
    (hload : (loadConfig files o f).1 = .ok config) (hsound : config.strategies.Sound)
    (hnul : nul ∉ config.strategies.stringBase.toList) (hlist : ¬o.list) (m : Store S C P) (t : T) :
    ∃ records s, Reaches buildSuite (Bench.ofClock tick) files o m t f
      (.measured config.runner records) s := by
  obtain ⟨objects, m', hbuild, hrounds, hprepared⟩ := Suite.build_eq config.strategies m
  have hsteady : Catalog.Steady _ (Suite.Prepared config.strategies objects m.families.length :
      Store S C P → Prop) _ := Suite.steady_parts hsound hrounds _
  have hentered := Bench.enter_ofClock (f := buildSuite config.strategies) tick t hbuild
  obtain ⟨records, hrecords⟩ := (hsteady.exists_records_iff hprepared
    (Runner.ofConfig config.runner) tick t).2 ((Suite.forall_reply_iff hsound _).2 hnul)
  exact ⟨records, _, .measured hload hentered hlist (Prod.ext hrecords rfl)⟩

/-- A run that has records succeeds, and leaves some files, if both reports are written to the
files, one after the other. -/
theorem code_of_measured [Platform] (timestamp : Timestamp) (systemInfo : SystemInfo)
    {m : Store S C P} {t : T} {f : F} {config : RunnerConfig} {records : List Record}
    {s : Store S C P × T}
    (h : Reaches buildSuite (Bench.ofClock tick) files o m t f (.measured config records) s)
    (final : F) :
    let out := run (Room.machine (Bench.ofClock tick) files timestamp systemInfo) o ⟨m, t, f, []⟩
    let summary := (Summary.ofRecords records config.outerRounds.count timestamp systemInfo).1
    (Exit.of out.1).code = 0 ∧ out.2.files = final ↔
      ∃ f', files.write config.resultFile (octets (Report.render records).1.contents)
          (loadConfig files o f).2 = (.ok (), f') ∧
        saveAsked files config summary f' = (.ok (), final) := by
  intro out summary
  obtain ⟨hresult, hfinal, -⟩ := runWith_of_measured timestamp systemInfo h
  rw [code_of_eq_zero_iff, show out.1 = _ from hresult, show out.2.files = _ from hfinal]
  constructor
  · rintro ⟨hok, rfl⟩
    split_ifs at hok with hwritten
    exact ⟨_, eq_ok_of_isOk hwritten.1, eq_ok_of_isOk hwritten.2⟩
  · rintro ⟨f', hwrite, hsave⟩
    rw [hwrite]
    dsimp only
    rw [hsave]
    exact ⟨rfl, rfl⟩

end

/-! ### What is left -/

section

variable (tick : T → UInt64 × T) {files : FileSystem (StateM F)} (timestamp : Timestamp)
  (systemInfo : SystemInfo) (o : Options) (m : Store S C P) (t : T) (f : F)

/-- **A run that succeeds leaves its reports.** Unless it lists, it has loaded a configuration and
has records by it. At the path for the summary, if there is one, is their summary. The result file
holds the primary section and then the secondary one exactly if that path does not lead to the same
file. -/
theorem run_leaves_reports [Platform] {Same : F → String → String → Prop}
    (hfiles : files.Lawful Same) (hlist : ¬o.list) :
    let out := run (Room.machine (Bench.ofClock tick) files timestamp systemInfo) o ⟨m, t, f, []⟩
    (Exit.of out.1).code = 0 →
    ∃ config records s, (loadConfig files o f).1 = .ok config ∧
      Reaches buildSuite (Bench.ofClock tick) files o m t f (.measured config.runner records) s ∧
      let report := (Report.render records).1
      let summary := (Summary.ofRecords records config.runner.outerRounds.count timestamp
        systemInfo).1
      ((files.read config.runner.resultFile out.2.files).1 =
          .ok (octets (report.primary ++ report.secondary)) ↔
        ∀ path, config.runner.jsonSummary = some path →
          ¬Same out.2.files path config.runner.resultFile) ∧
      ∀ path, config.runner.jsonSummary = some path →
        (files.read path out.2.files).1 = .ok (octets summary.toText) := by
  intro out hzero
  obtain ⟨p, s, h⟩ : ∃ p s, Reaches buildSuite (Bench.ofClock tick) files o m t f p s :=
    exists_reaches m t f
  cases p with
  | stopped failure =>
    cases (runWith_of_stopped timestamp systemInfo h).1.symm.trans (code_of_eq_zero_iff.1 hzero)
  | listed entries => exact absurd h.list hlist
  | measured runner records =>
    obtain ⟨config, hload, rfl⟩ := h.loaded
    obtain ⟨f', hwrite, hsave⟩ := (code_of_measured timestamp systemInfo h _).1 ⟨hzero, rfl⟩
    refine ⟨config, records, s, hload, h, ?_⟩
    have hwritten := hfiles.read_same hwrite (hfiles.same_self hwrite)
    rw [saveAsked] at hsave
    cases hpath : config.runner.jsonSummary with
    | none =>
      rw [hpath] at hsave
      obtain rfl : f' = out.2.files := congrArg Prod.snd hsave
      exact ⟨iff_of_true hwritten fun path h ↦ absurd h (Option.some_ne_none path).symm,
        fun path h ↦ absurd h (Option.some_ne_none path).symm⟩
    | some path =>
      rw [hpath] at hsave
      refine ⟨⟨fun hread path' hpath' hsame ↦ ?_, fun hother ↦ ?_⟩, fun path' hpath' ↦ ?_⟩
      · cases hpath'
        have hsummary := Summary.read_same_of_save hfiles hsave hsame
        exact Report.contents_ne_toText _ _ (Except.ok.inj (hread.symm.trans hsummary))
      · exact Summary.read_other_of_save hfiles hsave (hother path rfl) hwritten
      · cases hpath'
        exact Summary.read_of_save hfiles hsave

end

/-! ### Runs in a small tree -/

/-- A configuration with few rounds. -/
def small : String :=
  "runner: \x7bouter_rounds: 2\x7d\n" ++
    "strategies: \x7bprimary_inner_rounds: 20, boundary_inner_rounds: 3, string_repeats: [1]\x7d\n"

/-- A tree with a configuration in it and nothing else. -/
def smallTree : Tree := { files := [(["c.yaml"], octets small)] }

/-- Options that ask for both reports. -/
def bothReports (output json : String) : Options :=
  { config := some "c.yaml", output := some output, json := some json }

/-- A file that can be read is taken as its text. -/
theorem ofFile_tree {tree : Tree} {path text : String} (h : tree.read path = .ok (octets text)) :
    Config.ofFile Tree.fileSystem path tree = (Config.ofText text, tree) := by
  have hpresent : (Tree.fileSystem.isPresent path tree).1 := by
    show (tree.find path).toOption.isSome
    rw [Tree.read] at h
    split at h
    · cases h
    · cases h
    · next hfind =>
      rw [hfind]
      rfl
  have hdecoded : Config.textOfOctets (octets text) = .ok text := by
    rw [Config.textOfOctets, octets, Text.Utf8.decode?_encode]
    exact congrArg Except.ok String.ofList_toList
  have hread : (Tree.fileSystem.read path (Tree.fileSystem.isPresent path tree).2).1 =
      .ok (octets text) := h
  rw [Config.ofFile, bind_apply, if_pos hpresent, bind_apply, hread]
  dsimp only
  rw [hdecoded]
  rfl

theorem read_smallTree : smallTree.read "c.yaml" = .ok (octets small) :=
  Tree.read_eq_ok_iff.2 ⟨["c.yaml"], ⟨⟨[], "c.yaml", rfl, rfl, by decide⟩, by decide⟩, by decide,
    by simp [Tree.octets?, smallTree]⟩

/-- A configuration with other paths. -/
def withPaths (config : Config) (output json : String) : Config :=
  { config with runner := { config.runner with
    resultFile := output, jsonSummary := some json } }

/-- The paths on the command line go on top of what the file says. -/
theorem loadConfig_smallTree {config : Config} (h : Config.ofText small = .ok config)
    (output json : String) :
    loadConfig Tree.fileSystem (bothReports output json) smallTree =
      (.ok (withPaths config output json), smallTree) := by
  have hfile := ofFile_tree read_smallTree
  rw [loadConfig, show (bothReports output json).config = some "c.yaml" from rfl]
  dsimp only
  rw [bind_apply, hfile, h]
  rfl

section

variable (tick : Unit → UInt64 × Unit) (timestamp : Timestamp) (systemInfo : SystemInfo)

/-- A run in the small tree that is asked for both reports. -/
def smallRun [Platform] (output json : String) :
    Except Failure Unit × Room (Store Empty Empty Empty) Unit Tree :=
  run (Room.machine (Bench.ofClock tick) Tree.fileSystem timestamp systemInfo)
    (bothReports output json) ⟨{ world := {} }, (), smallTree, []⟩

/-- It succeeds and puts the reports where the paths lead to. -/
theorem exists_smallRun [Platform] {output json : String}
    (houtput : ∀ tree : Tree, tree.base = [] → tree.Leads output [output])
    (hjson : ∀ tree : Tree, tree.base = [] → tree.Leads json [json])
    (hdirect : Report.directoryFor? json = none) :
    ∃ config records s,
      (loadConfig Tree.fileSystem (bothReports output json) smallTree).1 = .ok config ∧
      config.runner.resultFile = output ∧ config.runner.jsonSummary = some json ∧
      Reaches buildSuite (Bench.ofClock tick) Tree.fileSystem (bothReports output json)
        ({ world := {} } : Store Empty Empty Empty) () smallTree
        (.measured config.runner records) s ∧
      (Exit.of (smallRun tick timestamp systemInfo output json).1).code = 0 ∧
      (smallRun tick timestamp systemInfo output json).2.files =
        (smallTree.put [output] (octets (Report.render records).1.contents)).put [json]
          (octets (Summary.ofRecords records config.runner.outerRounds.count timestamp
            systemInfo).1.toText) := by
  obtain ⟨config, hconfig, hbase⟩ :=
    Suite.exists_config_of_base small "abcde12345" (by decide +kernel)
  have hload := loadConfig_smallTree hconfig output json
  have hsound : config.strategies.Sound := Config.sound_of_ofText hconfig
  have hnul : nul ∉ config.strategies.stringBase.toList := by
    rw [hbase]
    decide
  obtain ⟨records, s, h⟩ := exists_measured tick (congrArg Prod.fst hload) hsound hnul nofun
    ({ world := {} } : Store Empty Empty Empty) ()
  have hwrite : Tree.fileSystem.write (withPaths config output json).runner.resultFile
      (octets (Report.render records).1.contents)
      (loadConfig Tree.fileSystem (bothReports output json) smallTree).2 =
        (.ok (), smallTree.put [output] (octets (Report.render records).1.contents)) := by
    rw [hload]
    exact write_tree (houtput smallTree rfl) rfl
  have hsave := @Summary.save_tree
    (Summary.ofRecords records config.runner.outerRounds.count timestamp systemInfo).1 json
    (smallTree.put [output] (octets (Report.render records).1.contents)) [json] hdirect
    (hjson _ rfl) rfl
  have hcode := (code_of_measured timestamp systemInfo h _).2 ⟨_, hwrite, hsave⟩
  refine ⟨_, records, s, congrArg Prod.fst hload, rfl, rfl, h, ?_⟩
  rw [smallRun]
  exact hcode

end

theorem leads_textPath {tree : Tree} (h : tree.base = []) : tree.Leads "r.txt" ["r.txt"] :=
  ⟨⟨[], "r.txt", by rw [Tree.locate, Tree.start, h]; rfl, rfl, by decide⟩, by decide⟩

/-- A run that is asked for the two reports in two files leaves both. -/
theorem run_leaves_both_reports :
    let _ := Platform.signed
    Tree.fileSystem.Lawful Tree.Same ∧ ¬(bothReports "r.txt" "r.json").list ∧
    ∀ (tick : Unit → UInt64 × Unit) (timestamp : Timestamp) (systemInfo : SystemInfo),
      let out := smallRun tick timestamp systemInfo "r.txt" "r.json"
      (Exit.of out.1).code = 0 ∧
      ∃ (records : List Record) (rounds : UInt64),
        (Tree.fileSystem.read "r.txt" out.2.files).1 = .ok (octets
          ((Report.render records).1.primary ++ (Report.render records).1.secondary)) ∧
        (Tree.fileSystem.read "r.json" out.2.files).1 =
          .ok (octets (Summary.ofRecords records rounds timestamp systemInfo).1.toText) := by
  intro _
  refine ⟨Tree.lawful_fileSystem, nofun, fun tick timestamp systemInfo ↦ ?_⟩
  obtain ⟨config, _, _, hload, houtput, hjson, -, hcode, hfinal⟩ :=
    exists_smallRun tick timestamp systemInfo (fun _ ↦ leads_textPath) (fun _ ↦ leads_jsonPath)
      (by decide)
  simp only [smallRun] at hcode hfinal ⊢
  obtain ⟨config', records, s, hload', -, htext, hsummary⟩ :=
    run_leaves_reports tick timestamp systemInfo (bothReports "r.txt" "r.json")
      ({ world := {} } : Store Empty Empty Empty) () smallTree Tree.lawful_fileSystem nofun hcode
  obtain rfl : config = config' := Except.ok.inj (hload.symm.trans hload')
  have hbase := congrArg Tree.base hfinal
  have hread := htext.2 fun path hpath hsame ↦ by
    obtain ⟨place, hp, hq⟩ := hsame
    rw [Option.some.inj (hpath.symm.trans hjson)] at hp
    rw [houtput] at hq
    exact absurd (((leads_jsonPath hbase).eq hp).trans (hq.eq (leads_textPath hbase))) (by decide)
  rw [houtput] at hread
  exact ⟨hcode, records, _, hread, hsummary "r.json" hjson⟩

/-- A run that is asked for the two reports in one file succeeds, and there is no text report in the
end. -/
theorem run_overwrites_report :
    let _ := Platform.signed
    ¬(bothReports "r.json" "r.json").list ∧
    ∀ (tick : Unit → UInt64 × Unit) (timestamp : Timestamp) (systemInfo : SystemInfo),
      let out := smallRun tick timestamp systemInfo "r.json" "r.json"
      (Exit.of out.1).code = 0 ∧
      ∃ config records s, config.resultFile = "r.json" ∧
        Reaches buildSuite (Bench.ofClock tick) Tree.fileSystem (bothReports "r.json" "r.json")
          ({ world := {} } : Store Empty Empty Empty) () smallTree (.measured config records) s ∧
        (Tree.fileSystem.read config.resultFile out.2.files).1 ≠ .ok (octets
          ((Report.render records).1.primary ++ (Report.render records).1.secondary)) := by
  intro _
  refine ⟨nofun, fun tick timestamp systemInfo ↦ ?_⟩
  obtain ⟨config, records, s, -, houtput, -, h, hcode, hfinal⟩ :=
    exists_smallRun tick timestamp systemInfo (fun _ ↦ leads_jsonPath) (fun _ ↦ leads_jsonPath)
      (by decide)
  refine ⟨hcode, config.runner, records, s, houtput, h, fun hread ↦ ?_⟩
  rw [houtput, hfinal] at hread
  have hsummary := Tree.read_eq_ok_iff.2 ⟨["r.json"], leads_jsonPath rfl, rfl,
    Tree.octets?_put_self (smallTree.put ["r.json"] (octets (Report.render records).1.contents))
      ["r.json"] (octets (Summary.ofRecords records config.runner.outerRounds.count timestamp
        systemInfo).1.toText)⟩
  exact Report.contents_ne_toText _ _ (Except.ok.inj (hread.symm.trans hsummary))

end Command

end Crossing
