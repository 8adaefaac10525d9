import Workbench.Settings.Store

/-!
# The setup

A setup is a machine with the settings that are in force on it.

* `Setup.onMachine` : work on the machine alone;
* `Setup.set` : a setting changed, in memory and then in the file.
-/

namespace Workbench

structure Setup where
  machine : Machine
  settings : Settings.Store

namespace Setup

def onMachine {α : Type} (a : Action Machine α) : Action Setup α :=
  Action.on Setup.machine (fun m s => { s with machine := m }) a

/-- Writes the settings to their file. -/
def save : Action Setup Unit := do
  let s ← get
  onMachine s.settings.save

/-- Changes a setting in memory and then in the file. -/
def set (name : String) (v : Settings.Value) : Action Setup Unit := do
  modify fun s => { s with settings := s.settings.put name v }
  save

end Setup

end Workbench
