import Workbench.Proofs.Compiler.Launch
import Workbench.Proofs.Engine.Compile
import Workbench.Proofs.Machine.Disk

/-!
# The log file

* `logPlace` : where the log file is;
* `LogOpen m` : lines can be written to it;
* `Noted s t` : the setups differ at most by what is in the log file. What exists on the first one
  exists on the second one;
* `noteOn_of_logOpen` : if the log file can be opened, a line is written to it, and after that it can
  be opened again.
-/

namespace Workbench

open Machine

/-- The setup with another disk. -/
def Setup.withDisk (s : Setup) (d : Disk) : Setup := { s with machine := s.machine.withDisk d }

namespace Engine

/-- The place of the log file. -/
def logPlace : Place := ["tmp", "cplebolt_engine.log"]

/-- Lines can be written to the log file. -/
structure LogOpen (m : Machine) : Prop where
  directory : m.disk.get? ["tmp"] = some .directory
  granted : m.refusal? .openFile logPlace = none
  noDirectory : m.disk.get? logPlace ≠ some .directory

theorem placeOf_logFile (m : Machine) : m.placeOf logFile = walk m.disk [] logPlace := by
  have hnames : Path.partsOf logFile.toList = logPlace := by decide
  have hrooted : logFile.startsWith "/" = true := by decide +kernel
  unfold placeOf
  rw [if_neg (by decide), if_neg (by decide), hnames]
  simp only [if_pos hrooted]

theorem walk_logPlace {d : Disk} :
    walk d [] logPlace = match d.get? ["tmp"] with
      | none => .error .missing
      | some (.file _) => .error .notDirectory
      | some .directory => .ok logPlace := by
  show walk d ["tmp"] ["cplebolt_engine.log"] = _
  unfold walk
  rfl

theorem lookUp_logFile (m : Machine) (call : Call) :
    m.lookUp call logFile = match m.lookUpNode call logFile with
      | .ok r => .ok r
      | .error f => failAt logFile f := by
  unfold lookUp
  exact if_neg (by decide)

theorem arrival_logFile (place : Place) (node : Option Node) :
    arrival logFile place node = .ok (place, node) := by
  cases node with
  | none => rfl
  | some n =>
    cases n with
    | directory => rfl
    | file c =>
      have hfile : logFile.endsWith "/" = false := by decide +kernel
      rw [arrival_file, hfile]
      rfl

theorem exists_openForWriting {m : Machine} (h : LogOpen m) :
    ∃ old, m.openForWriting logFile = .ok (logPlace, old) := by
  have hplace : m.placeOf logFile = .ok logPlace := by
    rw [placeOf_logFile, walk_logPlace, h.directory]
  unfold openForWriting
  rw [lookUp_logFile, lookUpNode_of_ok hplace h.granted, arrival_logFile]
  have hparent : m.disk.get? logPlace.dropLast = some .directory := h.directory
  cases hnode : m.disk.get? logPlace with
  | none =>
    simp only [hparent]
    exact ⟨none, rfl⟩
  | some n =>
    cases n with
    | directory => exact absurd hnode h.noDirectory
    | file c => exact ⟨some c, rfl⟩

theorem logOpen_of_openForWriting {m : Machine} {place : Place} {old : Option Content}
    (h : m.openForWriting logFile = .ok (place, old)) : place = logPlace ∧ LogOpen m := by
  unfold openForWriting at h
  rw [lookUp_logFile] at h
  cases hplace : m.placeOf logFile with
  | error f =>
    rw [lookUpNode_of_error hplace] at h
    exact nomatch h
  | ok q =>
    cases hrefusal : m.refusal? .openFile q with
    | some f =>
      rw [lookUpNode_of_refusal hplace hrefusal] at h
      exact nomatch h
    | none =>
      rw [lookUpNode_of_ok hplace hrefusal, arrival_logFile] at h
      rw [placeOf_logFile, walk_logPlace] at hplace
      -- The path leads through one directory only, and so to no other place.
      have hdirectory : m.disk.get? ["tmp"] = some .directory ∧ q = logPlace := by
        split at hplace
        · exact nomatch hplace
        · exact nomatch hplace
        · next hget => exact ⟨hget, (Except.ok.inj hplace).symm⟩
      obtain ⟨hdirectory, rfl⟩ := hdirectory
      have hparent : m.disk.get? logPlace.dropLast = some .directory := hdirectory
      cases hnode : m.disk.get? logPlace with
      | none =>
        rw [hnode] at h
        simp only [hparent] at h
        obtain ⟨rfl, -⟩ := Prod.mk.inj (Except.ok.inj h)
        exact ⟨rfl, hdirectory, hrefusal, by simp [hnode]⟩
      | some n =>
        rw [hnode] at h
        cases n with
        | directory => exact nomatch h
        | file c =>
          obtain ⟨rfl, -⟩ := Prod.mk.inj (Except.ok.inj h)
          exact ⟨rfl, hdirectory, hrefusal, by simp [hnode]⟩

theorem LogOpen.of_withFile {m m' : Machine} (h : LogOpen m)
    (hd : Disk.WithFile logPlace m.disk m'.disk) (hr : m'.refusals = m.refusals) : LogOpen m' where
  directory := (hd.others ["tmp"] (by decide)).trans h.directory
  granted := by
    unfold refusal?
    rw [hr]
    exact h.granted
  noDirectory := by
    rcases hd.there with hsame | ⟨c, hc⟩
    · rw [hsame]
      exact h.noDirectory
    · simp [hc]

/-! ## Setups with more in the log -/

/-- The second setup differs from the first one at most by what is in the log file. -/
def Noted (s t : Setup) : Prop :=
  ∃ d, Disk.WithFile logPlace s.machine.disk d ∧ t = s.withDisk d

theorem Noted.refl (s : Setup) : Noted s s := ⟨s.machine.disk, .refl logPlace _, rfl⟩

theorem Noted.trans {s t u : Setup} (h : Noted s t) (h' : Noted t u) : Noted s u := by
  obtain ⟨d, hd, rfl⟩ := h
  obtain ⟨d', hd', rfl⟩ := h'
  exact ⟨d', hd.trans hd', rfl⟩

theorem Noted.settings {s t : Setup} (h : Noted s t) : t.settings = s.settings := by
  obtain ⟨d, -, rfl⟩ := h
  rfl

theorem Noted.launches {s t : Setup} (h : Noted s t) :
    t.machine.launches = s.machine.launches := by
  obtain ⟨d, -, rfl⟩ := h
  rfl

theorem Noted.nextEnding {s t : Setup} (h : Noted s t) :
    t.machine.nextEnding = s.machine.nextEnding := by
  obtain ⟨d, -, rfl⟩ := h
  rfl

theorem Noted.logOpen {s t : Setup} (h : Noted s t) (hlog : LogOpen s.machine) :
    LogOpen t.machine := by
  obtain ⟨d, hd, rfl⟩ := h
  exact hlog.of_withFile hd rfl

theorem noted_noteOn (text : String) (s : Setup) : Noted s (noteOn text s).2 := by
  show Noted s { s with machine := (appendText logFile (logLine s.machine.clock text) s.machine).2 }
  unfold appendText
  cases hopen : s.machine.openForWriting logFile with
  | error failure => exact Noted.refl s
  | ok r =>
    obtain ⟨place, old⟩ := r
    obtain ⟨rfl, -⟩ := logOpen_of_openForWriting hopen
    exact ⟨_, Disk.withFile_put (by decide) s.machine.disk _, rfl⟩

theorem noted_of_noteOn {text : String} {s t : Setup} {u : Unit} (h : noteOn text s = (.ok u, t)) :
    Noted s t := by
  have hnoted := noted_noteOn text s
  rw [h] at hnoted
  exact hnoted

/-- A line that was written has opened the log file, and is in it. -/
theorem withDisk_of_noteOn {text : String} {s t : Setup} {u : Unit}
    (h : noteOn text s = (.ok u, t)) :
    LogOpen s.machine ∧ ∃ c, t = s.withDisk (s.machine.disk.put logPlace (.file c)) := by
  have hnote : noteOn text s =
      ((Machine.appendText logFile (logLine s.machine.clock text) s.machine).1,
        { s with machine :=
          (Machine.appendText logFile (logLine s.machine.clock text) s.machine).2 }) := rfl
  rw [hnote] at h
  obtain ⟨hok, rfl⟩ := Prod.mk.inj h
  unfold Machine.appendText at hok ⊢
  cases hopen : s.machine.openForWriting logFile with
  | error failure =>
    rw [hopen] at hok
    exact nomatch hok
  | ok r =>
    obtain ⟨place, old⟩ := r
    obtain ⟨rfl, hlog⟩ := logOpen_of_openForWriting hopen
    exact ⟨hlog, _, rfl⟩

/-- A line is written if the log file can be opened. -/
theorem noteOn_of_logOpen (text : String) {s : Setup} (h : LogOpen s.machine) :
    ∃ t, noteOn text s = (.ok (), t) ∧ LogOpen t.machine := by
  obtain ⟨old, hold⟩ := exists_openForWriting h
  have hnote : (noteOn text s).1 = .ok () := by
    show (appendText logFile (logLine s.machine.clock text) s.machine).1 = .ok ()
    unfold appendText
    rw [hold]
  exact ⟨(noteOn text s).2, Prod.ext hnote rfl, (noted_noteOn text s).logOpen h⟩

theorem noted_of_reread {path : String} {s t : Setup} {code : Option String}
    (h : reread path s = (.ok code, t)) : Noted s t := by
  unfold reread at h
  split at h
  · obtain ⟨-, rfl⟩ := Prod.mk.inj h
    exact Noted.refl s
  · obtain ⟨_, u, hnote, hpure⟩ := Action.bind_eq_ok.1 h
    obtain ⟨-, rfl⟩ := Prod.mk.inj hpure
    exact noted_of_noteOn hnote
  · exact absurd (congrArg Prod.fst h) (by simp)

end Engine

end Workbench
