import Crossing.Command.Run
import Crossing.Host.Tree
import Crossing.Proofs.Config.Rules
import Crossing.Proofs.Runner.Sweep

/-!
# Options and the rules for configurations

A configuration is checked when it is read, and options change it afterwards. A quick run and a
number of rounds keep to the rules that were checked, the paths need not: they are taken as they are
given, and what the command line takes for a path is not empty but may be blank.

Main statement: `loadConfig_keeps_rules_iff`. The configuration in effect passes the check that
documents pass exactly if no path among the options is blank.
-/

namespace Crossing

open Host (FileSystem Tree)
open Text (isBlankText)

namespace Config

/-- The standard configuration is as the rules ask. -/
theorem sound_standard : ({} : Config).Sound :=
  (Draft.check_eq_ok_iff.1 (show ({} : Config).draft.check = .ok {} by decide +kernel)).2

/-- What was read from a file has passed its checks. -/
theorem Sound.of_ofFile {F : Type} {files : FileSystem (StateM F)} {path : String} {f : F}
    {config : Config} (h : (ofFile files path f).1 = .ok config) : config.Sound := by
  rw [ofFile, bind_apply] at h
  cases hpresent : (files.isPresent path f).1 with
  | false =>
    rw [hpresent] at h
    cases (show Except.error _ = Except.ok config from h)
  | true =>
    rw [hpresent, if_pos rfl, bind_apply] at h
    cases hread : (files.read path (files.isPresent path f).2).1 with
    | error e =>
      rw [hread] at h
      cases (show Except.error _ = Except.ok config from h)
    | ok octets =>
      rw [hread] at h
      obtain ⟨text, -, htext⟩ := bind_eq_ok_iff.1 h
      exact .of_ofText htext

end Config

namespace Command

/-- The quick settings pass all checks. -/
theorem sound_quicken {c : Config} (hc : c.Sound) : (quicken c).Sound :=
  ⟨⟨hc.runner.warmupRounds, hc.runner.resultFile, hc.runner.jsonSummary⟩,
    hc.strategies.scaledDown quickDivisor⟩

/-- What options leave of a configuration as it was, and the paths that they replace. -/
theorem Options.of_applyTo {o : Options} {c config : Config} (h : o.applyTo c = .ok config) :
    config.strategies = (if o.quick then quicken c else c).strategies ∧
      config.runner.warmupRounds = c.runner.warmupRounds ∧
      config.runner.resultFile = o.output.getD c.runner.resultFile ∧
      config.runner.jsonSummary = o.json.or c.runner.jsonSummary := by
  rw [applyTo] at h
  -- Rounds that are given and rounds that are kept end in the same record.
  split at h
  all_goals
    obtain ⟨rounds, -, hrest⟩ := bind_eq_ok_iff.1 h
    obtain rfl := Except.ok.inj hrest
    cases o.quick with
    | false => exact ⟨rfl, rfl, rfl, rfl⟩
    | true => exact ⟨rfl, rfl, rfl, rfl⟩

/-- What is settled is what was loaded, with the options on top. -/
theorem Options.settle_eq_ok_iff {o : Options} {loaded : Except Error Config} {config : Config} :
    o.settle loaded = .ok config ↔ ∃ c, loaded = .ok c ∧ o.applyTo c = .ok config := by
  cases loaded with
  | error e => exact iff_of_false nofun fun ⟨_, h, _⟩ ↦ nomatch h
  | ok c =>
    rw [settle]
    cases happly : o.applyTo c with
    | error e => simp [happly]
    | ok c' => simp [happly]

/-- The configuration in effect is made by the options of one that is as the rules ask. -/
theorem exists_sound_of_loadConfig {F : Type} {files : FileSystem (StateM F)} {o : Options} {f : F}
    {config : Config} (h : (loadConfig files o f).1 = .ok config) :
    ∃ loaded : Config, loaded.Sound ∧ o.applyTo loaded = .ok config := by
  rw [loadConfig] at h
  cases hpath : o.config with
  | none =>
    rw [hpath] at h
    have hsettle : o.settle (.ok {}) = .ok config := h
    obtain ⟨c, ⟨⟩, happly⟩ := Options.settle_eq_ok_iff.1 hsettle
    exact ⟨_, Config.sound_standard, happly⟩
  | some path =>
    rw [hpath] at h
    obtain ⟨c, hc, happly⟩ := Options.settle_eq_ok_iff.1 h
    exact ⟨c, .of_ofFile hc, happly⟩

/-- A path that is replaced is blank exactly if the one in its place is, where what was there was
not blank. -/
theorem isBlankText_getD_iff {given : Option String} {kept : String}
    (hkept : isBlankText kept = false) :
    isBlankText (given.getD kept) ↔ ∃ path ∈ given, isBlankText path := by
  cases given with
  | none => simp [hkept]
  | some path => simp

/-- Where no path that is kept is blank, a blank one was given. -/
theorem exists_isBlankText_or_iff {given kept : Option String}
    (hkept : ∀ path ∈ kept, isBlankText path = false) :
    (∃ path ∈ given.or kept, isBlankText path) ↔ ∃ path ∈ given, isBlankText path := by
  cases given with
  | none =>
    refine iff_of_false ?_ (by simp)
    rintro ⟨path, hpath, hblank⟩
    rw [hkept path hpath] at hblank
    cases hblank
  | some path => rfl

/-- **The rules for the configuration in effect.** Whatever file it was read from and whichever
options there are, its rounds, its warm-up rounds and its strategies are as the rules ask. Its paths
are blank exactly if blank ones were given as options, so it passes the check that documents pass
exactly if none was. -/
theorem loadConfig_keeps_rules_iff {F : Type} {files : FileSystem (StateM F)} {o : Options} {f : F}
    {config : Config} (hload : (loadConfig files o f).1 = .ok config) :
    (1 ≤ config.runner.outerRounds.count ∧ config.runner.outerRounds.count ≤ 100000) ∧
    config.runner.warmupRounds ≤ 10000 ∧
    config.strategies.Sound ∧
    (isBlankText config.runner.resultFile ↔ ∃ path ∈ o.output, isBlankText path) ∧
    ((∃ path ∈ config.runner.jsonSummary, isBlankText path) ↔ ∃ path ∈ o.json, isBlankText path) ∧
    (config.draft.check = .ok config ↔
      ∀ path, path ∈ o.output ∨ path ∈ o.json → ¬isBlankText path) := by
  obtain ⟨loaded, hloaded, happly⟩ := exists_sound_of_loadConfig hload
  obtain ⟨hstrategies, hwarmup, hresult, hsummary⟩ := Options.of_applyTo happly
  have hrounds := And.intro config.runner.outerRounds.least config.runner.outerRounds.most
  have hwarmup : config.runner.warmupRounds ≤ 10000 := hwarmup ▸ hloaded.runner.warmupRounds
  have hsound : config.strategies.Sound := by
    rw [hstrategies]
    split
    · exact (sound_quicken hloaded).strategies
    · exact hloaded.strategies
  have hresult : isBlankText config.runner.resultFile ↔ ∃ path ∈ o.output, isBlankText path := by
    rw [hresult]
    exact isBlankText_getD_iff hloaded.runner.resultFile
  have hsummary : (∃ path ∈ config.runner.jsonSummary, isBlankText path) ↔
      ∃ path ∈ o.json, isBlankText path := by
    rw [hsummary]
    exact exists_isBlankText_or_iff hloaded.runner.jsonSummary
  refine ⟨hrounds, hwarmup, hsound, hresult, hsummary, ?_⟩
  rw [Draft.check_eq_ok_iff]
  constructor
  · rintro ⟨-, hrunner, -⟩ path (hpath | hpath) hblank
    · exact Bool.eq_false_iff.1 hrunner.resultFile (hresult.2 ⟨path, hpath, hblank⟩)
    · obtain ⟨path', hpath', hblank'⟩ := hsummary.2 ⟨path, hpath, hblank⟩
      exact Bool.eq_false_iff.1 (hrunner.jsonSummary path' hpath') hblank'
  · intro hgiven
    refine ⟨rfl, ⟨hwarmup, Bool.eq_false_iff.2 fun hblank ↦ ?_, fun path hpath ↦
      Bool.eq_false_iff.2 fun hblank ↦ ?_⟩, hsound⟩
    · obtain ⟨path, hpath, hblank⟩ := hresult.1 hblank
      exact hgiven path (.inl hpath) hblank
    · obtain ⟨path, hpath, hblank⟩ := hsummary.1 ⟨path, hpath, hblank⟩
      exact hgiven path (.inr hpath) hblank

/-- The options of a quick run with rounds and paths of its own. -/
def quickOptions : Options :=
  { rounds := some 7, output := some "a b", json := some "s", quick := true }

/-- A quick run with rounds and paths of its own passes the check: it has seven rounds, and its
loops are a tenth as long. -/
theorem loadConfig_quickOptions :
    Options.ofWords ["--quick", "-r7", "-o", "a b", "--json=s"] = .ok quickOptions ∧
    ∃ config, (loadConfig Tree.fileSystem quickOptions {}).1 = .ok config ∧
      config.runner.outerRounds.count = 7 ∧ config.strategies.primaryInnerRounds = 1000 ∧
      config.draft.check = .ok config := by
  have hload : ∃ config, (loadConfig Tree.fileSystem quickOptions {}).1 = .ok config ∧
      config.runner.outerRounds.count = 7 ∧ config.strategies.primaryInnerRounds = 1000 :=
    ⟨_, rfl, rfl, rfl⟩
  refine ⟨by decide +kernel, ?_⟩
  obtain ⟨config, hload, hrounds, hloops⟩ := hload
  refine ⟨config, hload, hrounds, hloops, (loadConfig_keeps_rules_iff hload).2.2.2.2.2.2 ?_⟩
  rintro path (hpath | hpath)
  · obtain rfl : "a b" = path := Option.some.inj hpath
    decide
  · obtain rfl : "s" = path := Option.some.inj hpath
    decide

/-- A blank path is taken for the result file, though no document may have it there. -/
theorem loadConfig_blankOutput :
    Options.ofWords ["-o", " "] = .ok { output := some " " } ∧
    ∃ config, (loadConfig Tree.fileSystem { output := some " " } {}).1 = .ok config ∧
      config.runner.resultFile = " " ∧
      config.draft.check = .error (.invalidValue "result_file" " " .blankResultFile) :=
  ⟨by decide +kernel, _, rfl, rfl, by decide +kernel⟩

end Command

end Crossing
