import Crossing.Command.Run
import Crossing.Host.Tree

/-!
# A machine on the desk

A machine that is all data: its clock follows a script, its files are a tree in memory, and what is
printed is kept. On it a run is a function of the command line, the files and the clock.
-/

namespace Crossing

/-- A bench that is the state that benchmarks work on and a scripted clock. -/
def Bench.scripted {M : Type} : Bench (StateM (M × ScriptedClock)) M where
  now s :=
    let (reading, clock) := s.2.now
    (reading, (s.1, clock))
  enter f s :=
    let (a, state) := f s.1
    (a, (state, s.2))

namespace Command

/-- All that a run can see or change. -/
structure Desk (M : Type) where
  state : M
  clock : ScriptedClock := {}
  tree : Host.Tree := {}
  output : String := ""

namespace Desk

variable {M α : Type}

/-- Works with the clock and the state that benchmarks work on. -/
def onBench (f : StateM (M × ScriptedClock) α) : StateM (Desk M) α := fun d ↦
  let (a, (state, clock)) := f (d.state, d.clock)
  (a, { d with state, clock })

/-- Works with the files. -/
def onFiles (f : StateM Host.Tree α) : StateM (Desk M) α := fun d ↦
  let (a, tree) := f d.tree
  (a, { d with tree })

/-- A machine on the desk, at a given time and with a given description of itself. -/
def machine (timestamp : Timestamp) (systemInfo : Report.SystemInfo) :
    Machine (StateM (Desk M)) M where
  files :=
    { isPresent := fun path ↦ onFiles (Host.Tree.fileSystem.isPresent path)
      read := fun path ↦ onFiles (Host.Tree.fileSystem.read path)
      write := fun path bs ↦ onFiles (Host.Tree.fileSystem.write path bs)
      createDirs := fun path ↦ onFiles (Host.Tree.fileSystem.createDirs path) }
  bench := { now := onBench Bench.scripted.now, enter := fun f ↦ onBench (Bench.scripted.enter f) }
  print text := modify fun d ↦ { d with output := d.output ++ text }
  pin _ := pure ()
  timestamp := pure timestamp
  systemInfo := pure systemInfo

end Desk

end Command

end Crossing
