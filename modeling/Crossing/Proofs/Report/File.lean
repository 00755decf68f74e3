import Crossing.Proofs.Host.Tree
import Crossing.Proofs.Outcome
import Crossing.Proofs.Runner.Sweep
import Crossing.Report.File

/-!
# What saving a report does to files

A summary is saved in up to two steps: the directory is made if it has to be there, and then the
file is written. In a lawful file system a summary that was saved is what its file holds, and other
files hold what they held before.

The three ways that saving can go are three equations (`Summary.save_of_direct`,
`Summary.save_of_within`, `Summary.save_of_blocked`). In the end there is at most one write, and if
saving succeeds, there is exactly one (`Summary.exists_write_of_save`), so the laws of writing carry
over to saving.
-/

namespace Crossing.Report

open Host (FileError FileSystem Tree)

variable {F : Type} {files : FileSystem (StateM F)} {summary : Summary} {path dir : String}

/-- The octets of a text in a file. -/
def octets (text : String) : List UInt8 := Text.Utf8.encode text.toList

theorem isOk_writeError (path : String) (answer : Except FileError Unit) :
    (writeError path answer).isOk = answer.isOk := by
  cases answer <;> rfl

/-- Without a directory to make, the summary is just written. -/
theorem Summary.save_of_direct (hdir : directoryFor? path = none) (f : F) :
    summary.save files path f = writeText files path summary.toText f := by
  rw [save, hdir]

/-- Where the directory can be made, the summary is written after it. -/
theorem Summary.save_of_within {f f' : F} (hdir : directoryFor? path = some dir)
    (hmade : files.createDirs dir f = (.ok (), f')) :
    summary.save files path f = writeText files path summary.toText f' := by
  rw [save, hdir]
  dsimp only
  rw [bind_apply, hmade]

/-- Where the directory cannot be made, nothing is written. -/
theorem Summary.save_of_blocked {f f' : F} {e : FileError} (hdir : directoryFor? path = some dir)
    (hmade : files.createDirs dir f = (.error e, f')) :
    summary.save files path f = (.error (.reportWrite path e), f') := by
  rw [save, hdir]
  dsimp only
  rw [bind_apply, hmade]
  rfl

/-- A text that was written without an error is in the file. -/
theorem write_of_writeText {text : String} {f : F} (h : (writeText files path text f).1.isOk) :
    files.write path (octets text) f = (.ok (), (writeText files path text f).2) := by
  have hanswer : (files.write path (octets text) f).1.isOk := by
    rw [← isOk_writeError path]
    exact h
  exact eq_ok_of_isOk hanswer

section

variable {Same : F → String → String → Prop} (hfiles : files.Lawful Same) {f f' : F}

include hfiles

/-- A summary is written to files from which everything can be read that could be read before. -/
theorem Summary.exists_write_of_save (h : summary.save files path f = (.ok (), f')) :
    ∃ f₁, files.write path (octets summary.toText) f₁ = (.ok (), f') ∧
      ∀ (q : String) (bs : List UInt8),
        (files.read q f).1 = .ok bs → (files.read q f₁).1 = .ok bs := by
  cases hdir : directoryFor? path with
  | none =>
    rw [save_of_direct hdir] at h
    have hwrite := write_of_writeText (h ▸ rfl : (writeText files path summary.toText f).1.isOk)
    exact ⟨f, by rw [hwrite, h], fun q bs ↦ id⟩
  | some dir =>
    rcases hmade : files.createDirs dir f with ⟨e | ⟨⟩, f₁⟩
    · rw [save_of_blocked hdir hmade] at h
      cases h
    · rw [save_of_within hdir hmade] at h
      have hwrite := write_of_writeText (h ▸ rfl : (writeText files path summary.toText f₁).1.isOk)
      refine ⟨f₁, by rw [hwrite, h], fun q bs hread ↦ ?_⟩
      have hkept : (files.read q (files.createDirs dir f).2).1 = .ok bs :=
        hfiles.read_createDirs hread
      rwa [hmade] at hkept

/-- What was saved is in the file, by whichever path it is read. -/
theorem Summary.read_same_of_save (h : summary.save files path f = (.ok (), f')) {q : String}
    (hsame : Same f' path q) : (files.read q f').1 = .ok (octets summary.toText) := by
  obtain ⟨f₁, hwrite, -⟩ := exists_write_of_save hfiles h
  exact hfiles.read_same hwrite hsame

theorem Summary.read_of_save (h : summary.save files path f = (.ok (), f')) :
    (files.read path f').1 = .ok (octets summary.toText) := by
  obtain ⟨f₁, hwrite, -⟩ := exists_write_of_save hfiles h
  exact hfiles.read_same hwrite (hfiles.same_self hwrite)

/-- What was in another file is there still. -/
theorem Summary.read_other_of_save (h : summary.save files path f = (.ok (), f')) {q : String}
    {bs : List UInt8} (hother : ¬Same f' path q) (hread : (files.read q f).1 = .ok bs) :
    (files.read q f').1 = .ok bs := by
  obtain ⟨f₁, hwrite, hkept⟩ := exists_write_of_save hfiles h
  exact hfiles.read_other hwrite hother (hkept q bs hread)

end

/-! ### Trees -/

section

variable {tree : Tree} {place : List String}

/-- A path that leads to a place without a directory can be written to. -/
theorem write_tree {bs : List UInt8} (hleads : tree.Leads path place)
    (hplace : tree.isDirectory place = false) :
    Tree.fileSystem.write path bs tree = (.ok (), tree.put place bs) :=
  Tree.write_eq_ok_iff.2 ⟨place, hleads, hplace, rfl⟩

/-- Summaries can be saved where there is nothing but files. -/
theorem Summary.save_tree (hdirect : directoryFor? path = none) (hleads : tree.Leads path place)
    (hplace : tree.isDirectory place = false) :
    summary.save Tree.fileSystem path tree = (.ok (), tree.put place (octets summary.toText)) := by
  rw [Summary.save_of_direct hdirect, writeText, bind_apply]
  exact congrArg (fun r ↦ (writeError path r.1, r.2)) (write_tree hleads hplace)

theorem leads_jsonPath (h : tree.base = []) : tree.Leads "r.json" ["r.json"] :=
  ⟨⟨[], "r.json", by rw [Tree.locate, Tree.start, h]; rfl, rfl, by decide⟩, by decide⟩

end

end Crossing.Report
