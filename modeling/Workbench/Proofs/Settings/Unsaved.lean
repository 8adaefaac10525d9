import Workbench.Proofs.Json.Beginning
import Workbench.Proofs.Settings.Save

/-!
# Settings that cannot be saved

A setting that is changed is changed in memory first. What is left on the machine when it cannot be
saved depends on how far saving came.

* `Unsaved s m e m'`, `save_eq_error` : the three ways in which saving fails;
* `Spared directory e m m'` : the file was not opened. No file is different, and settings are loaded
  as they were;
* `CutShort s e m m'` : the file was opened. It holds the beginning of the new settings;
* `set_not_undone` : a setting stays changed in memory, and a file that was opened has lost what it
  held;
* `left_of_failed_set` : what is left in every case.
-/

namespace Workbench.Settings

open Json (Obstacle Obstructs StopsBefore depthLimit filled render)
open Machine (AddsDirectories Stands)
open Number (digitBound)
open Text (CodePoints)

namespace Store

/-- How settings are not saved, with the failure and the machine after it. -/
inductive Unsaved (s : Store) (m : Machine) : Failure → Machine → Prop
  | noDirectory {e : Failure} {m' : Machine}
      (h : Machine.makeDirectories s.directory m = (.error e, m')) : Unsaved s m e m'
  | notOpened {e : Failure} {m' : Machine}
      (hmade : Machine.makeDirectories s.directory m = (.ok (), m'))
      (h : m'.openForWriting (fileIn s.directory).text = .error e) : Unsaved s m e m'
  | cut {m₁ : Machine} {place : Machine.Place} {old : Option Machine.Content}
      (hmade : Machine.makeDirectories s.directory m = (.ok (), m₁))
      (hopen : m₁.openForWriting (fileIn s.directory).text = .ok (place, old))
      {o : Obstacle} (h : (render (.object s.values)).obstacle? = some o) :
      Unsaved s m (.ofObstacle o) (m₁.put place (.file (.ofText (String.ofList s.written))))

theorem save_of_not_opened {s : Store} {m m₁ : Machine} {e : Failure}
    (hmade : Machine.makeDirectories s.directory m = (.ok (), m₁))
    (h : m₁.openForWriting (fileIn s.directory).text = .error e) : s.save m = (.error e, m₁) := by
  refine (Action.bind_eq_of_ok hmade).trans (Action.bind_eq_of_error ?_)
  rw [Machine.writeText, h]

/-- Whether everything could be written is known only when the file is. -/
theorem save_of_opened {s : Store} {m m₁ : Machine} {place : Machine.Place}
    {old : Option Machine.Content} (hmade : Machine.makeDirectories s.directory m = (.ok (), m₁))
    (hopen : m₁.openForWriting (fileIn s.directory).text = .ok (place, old)) :
    s.save m = ((match (render (.object s.values)).obstacle? with
        | none => .ok ()
        | some o => .error (.ofObstacle o)),
      m₁.put place (.file (.ofText (String.ofList s.written)))) := by
  have hwrite : Machine.writeText (fileIn s.directory).text (String.ofList s.written) m₁ =
      (.ok (), m₁.put place (.file (.ofText (String.ofList s.written)))) := by
    rw [Machine.writeText, hopen]
  refine (Action.bind_eq_of_ok hmade).trans ((Action.bind_eq_of_ok hwrite).trans ?_)
  cases (render (.object s.values)).obstacle? <;> rfl

theorem save_eq_error {s : Store} {m m' : Machine} {e : Failure} :
    s.save m = (.error e, m') ↔ Unsaved s m e m' := by
  constructor
  · intro h
    cases hmade : Machine.makeDirectories s.directory m with
    | mk r m₁ =>
    cases r with
    | error e₁ =>
      obtain ⟨he, rfl⟩ := Prod.mk.inj ((Action.bind_eq_of_error hmade).symm.trans h)
      obtain rfl := Except.error.inj he
      exact .noDirectory hmade
    | ok =>
      cases hopen : m₁.openForWriting (fileIn s.directory).text with
      | error e₁ =>
        obtain ⟨he, rfl⟩ := Prod.mk.inj ((save_of_not_opened hmade hopen).symm.trans h)
        obtain rfl := Except.error.inj he
        exact .notOpened hmade hopen
      | ok r =>
        obtain ⟨hresult, rfl⟩ := Prod.mk.inj ((save_of_opened hmade hopen).symm.trans h)
        split at hresult
        · exact nomatch hresult
        · next o ho =>
          obtain rfl := Except.error.inj hresult
          exact .cut hmade hopen ho
  · intro h
    cases h with
    | noDirectory h => exact Action.bind_eq_of_error h
    | notOpened hmade h => exact save_of_not_opened hmade h
    | cut hmade hopen h =>
      rw [save_of_opened hmade hopen, h]

/-! ## What is left -/

/-- The system does not refuse to look at the place where a path leads. -/
def LooksAt (m : Machine) (path : String) : Prop :=
  ∀ place, m.placeOf path = .ok place → m.refusal? .stat place = none

/-- The file was not opened: no file on the machine is different. Settings are loaded as they were,
unless their directory could not have been made for that either, or was made only now and cannot be
looked at. -/
structure Spared (directory : Path) (e : Failure) (m m' : Machine) : Prop where
  cause : Machine.makeDirectories directory m = (.error e, m') ∨
    Machine.makeDirectories directory m = (.ok (), m') ∧
      m'.openForWriting (fileIn directory).text = .error e
  files : AddsDirectories m m'
  reload : load directory m = (.error e, m') ∨
    ((m' ≠ m → LooksAt m' directory.text) → load directory m' = load directory m)

/-- The file was opened: it holds the beginning of the settings, up to something that cannot be
written, and no other file is different. The obstacle is a number with too many digits, something that
has no JSON, or a list or an object that lies too deep. -/
structure CutShort (s : Store) (e : Failure) (m m' : Machine) : Prop where
  cause : ∃ o, e = .ofObstacle o ∧ Obstructs o 0 (.object s.values)
  file : ∃ m₁ place old, AddsDirectories m m₁ ∧
    m₁.openForWriting (fileIn s.directory).text = .ok (place, old) ∧
    m' = m₁.put place (.file (.ofText (String.ofList s.written)))
  stops : StopsBefore s.written fun fill => render (filled fill 0 (.object s.values))

theorem load_of_made {directory : Path} {m m' : Machine}
    (hmade : Machine.makeDirectories directory m = (.ok (), m'))
    (hlooks : m' ≠ m → LooksAt m' directory.text) : load directory m' = load directory m := by
  by_cases hsame : m' = m
  · rw [hsame]
  · obtain ⟨place, hstands⟩ := Machine.exists_stands hmade
    have hagain := Machine.makeDirectories_of_stands hstands (hlooks hsame place hstands.leads)
    unfold load
    rw [Action.bind_eq_of_ok hagain, Action.bind_eq_of_ok hmade]

theorem Unsaved.spared_or_cutShort {s : Store} {m m' : Machine} {e : Failure}
    (h : Unsaved s m e m') : Spared s.directory e m m' ∨ CutShort s e m m' := by
  have hadds := Machine.addsDirectories_makeDirectories s.directory m
  cases h with
  | noDirectory h =>
    rw [h] at hadds
    exact .inl ⟨.inl h, hadds, .inl (Action.bind_eq_of_error h)⟩
  | notOpened hmade h =>
    rw [hmade] at hadds
    exact .inl ⟨.inr ⟨hmade, h⟩, hadds, .inr (load_of_made hmade)⟩
  | cut hmade hopen h =>
    rw [hmade] at hadds
    exact .inr ⟨⟨_, rfl, Json.obstructs_of_write h⟩, ⟨_, _, _, hadds, hopen, rfl⟩,
      Json.stopsBefore_render h⟩

/-! ## Changing a setting -/

theorem save_of_set {t t' : Setup} {name : String} {v : Value} {r : Except Failure Unit}
    (h : Setup.set name v t = (r, t')) :
    (t.settings.put name v).save t.machine = (r, t'.machine) := by
  have hresult : ((t.settings.put name v).save t.machine).1 = r := congrArg Prod.fst h
  have hmachine : ((t.settings.put name v).save t.machine).2 = t'.machine :=
    congrArg (fun r => r.2.machine) h
  exact Prod.ext hresult hmachine

theorem directory_of_put {s t : Store} {name : String} {v : Value} (h : t = s.put name v) :
    t.directory = s.directory := by
  rw [h]
  rfl

theorem get?_put_self (s : Store) (name : String) (v : Value) :
    (s.put name v).get? name = some v := by
  rw [get?, put, Record.get?_put, if_pos rfl]

theorem get?_put_of_ne (s : Store) (name : String) (v : Value) {other : CodePoints}
    (h : other ≠ CodePoints.ofString name) :
    Record.get? (s.put name v).values other = Record.get? s.values other := by
  rw [put, Record.get?_put, if_neg (Ne.symm h)]

/-- A number with one digit too many. -/
def longNumber : Int := digitBound

def userFile : Machine.Place := ["home", "user", ".cplebolt", "config.json"]

/-- The settings of a user who has saved one of them. -/
def savedSetup : Setup := (Setup.set "timeout" (.int 5) freshSetup).2

/-- The same, but the file can no longer be opened. -/
def lockedSetup : Setup :=
  { savedSetup with
    machine := { savedSetup.machine with refusals := [((.openFile, userFile), .denied)] } }

theorem reached_savedSetup : Reached userDirectory savedSetup := .set _ _ reached_freshSetup

theorem reached_lockedSetup : Reached userDirectory lockedSetup := .elsewhere _ reached_savedSetup

/-- The failure of opening that file. -/
def denied : Failure := .os { fault := .denied, path := "/home/user/.cplebolt/config.json" }

theorem set_lockedSetup :
    ∃ t', Setup.set "timeout" (.int 9) lockedSetup = (.error denied, t') := by
  refine ⟨_, Prod.ext (Action.eq_error_of_failure? ?_) rfl⟩
  decide +kernel

theorem set_savedSetup :
    ∃ t', Setup.set "timeout" (.int longNumber) savedSetup = (.error .numberTooLong, t') ∧
      t'.machine.disk.get? userFile ≠ savedSetup.machine.disk.get? userFile := by
  refine ⟨_, Prod.ext (Action.eq_error_of_failure? ?_) rfl, fun hsame => ?_⟩
  · decide +kernel
  · have hsize := congrArg (Option.map Machine.Node.size) hsame
    revert hsize
    decide +kernel

/-- A setting whose file cannot be opened stays changed in memory, and one that cannot be written
takes from the file what was in it. -/
theorem set_not_undone :
    (Reached userDirectory lockedSetup ∧
      ∃ t', Setup.set "timeout" (.int 9) lockedSetup = (.error denied, t') ∧
        lockedSetup.settings.get? "timeout" = some (.int 5) ∧
        t'.settings.get? "timeout" = some (.int 9)) ∧
    Reached userDirectory savedSetup ∧
      ∃ t', Setup.set "timeout" (.int longNumber) savedSetup = (.error .numberTooLong, t') ∧
        t'.machine.disk.get? userFile ≠ savedSetup.machine.disk.get? userFile := by
  refine ⟨⟨reached_lockedSetup, ?_⟩, reached_savedSetup, ?_⟩
  · obtain ⟨t', h⟩ := set_lockedSetup
    refine ⟨t', h, get?_put_self _ _ _, ?_⟩
    rw [← congrArg (fun r => r.2.settings) h]
    exact get?_put_self _ _ _
  · exact set_savedSetup

/-- A setting that could not be saved is changed in memory, and no other is. Either no file is
different and the settings are loaded as they were, or the file was opened and holds the beginning
of the new settings. -/
theorem left_of_failed_set {t t' : Setup} {name : String} {v : Value} {e : Failure}
    (h : Setup.set name v t = (.error e, t')) :
    t'.settings.get? name = some v ∧
    (∀ other : CodePoints, other ≠ CodePoints.ofString name →
      Record.get? t'.settings.values other = Record.get? t.settings.values other) ∧
    t'.settings = t.settings.put name v ∧
    (Spared t.settings.directory e t.machine t'.machine ∨
      CutShort t'.settings e t.machine t'.machine) := by
  have hsettings : t'.settings = t.settings.put name v := by rw [← settings_set name v t, h]
  rw [hsettings]
  exact ⟨get?_put_self _ _ _, fun other hother => get?_put_of_ne _ _ _ hother, rfl,
    (save_eq_error.1 (save_of_set h)).spared_or_cutShort⟩

theorem ofObstacle_ne_os (o : Obstacle) (e : Machine.OsError) : Failure.ofObstacle o ≠ .os e := by
  cases o with
  | longNumber => simp [Failure.ofObstacle]
  | depth => simp [Failure.ofObstacle]
  | foreign f =>
    unfold Failure.ofObstacle
    dsimp only
    split <;> simp

/-- A value without JSON, inside a list. -/
def strayPath : Value := .list [.int 1, .foreign { kind := "PosixPath", shown := "PosixPath('/w')" }]

theorem set_strayPath :
    ∃ t', Setup.set "timeout" strayPath savedSetup =
        (.error (.notSerializable "PosixPath"), t') :=
  ⟨_, Prod.ext (Action.eq_error_of_failure? (by decide +kernel)) rfl⟩

/-- The file of the settings can be opened. -/
def Opens (directory : Path) (m : Machine) : Bool :=
  match Machine.makeDirectories directory m with
  | (.ok _, m') => (m'.openForWriting (fileIn directory).text).toOption.isSome
  | (.error _, _) => false

/-- Saving that failed with a file that can be opened was cut short. -/
theorem cutShort_of_opens {s : Store} {e : Failure} {m m' : Machine}
    (h : Spared s.directory e m m' ∨ CutShort s e m m') (hopens : Opens s.directory m = true) :
    CutShort s e m m' := by
  refine h.resolve_left fun hspared => ?_
  unfold Opens at hopens
  rcases hspared.cause with hmade | ⟨hmade, hopen⟩
  · rw [hmade] at hopens
    exact nomatch hopens
  · rw [hmade] at hopens
    dsimp only at hopens
    rw [hopen] at hopens
    exact nomatch hopens

theorem left_of_failed_set_timeout :
    (∃ t', Setup.set "timeout" (.int 9) lockedSetup = (.error denied, t') ∧
      t'.settings.get? "timeout" = some (.int 9) ∧
      Spared userDirectory denied lockedSetup.machine t'.machine) ∧
    (∃ t', Setup.set "timeout" (.int longNumber) savedSetup = (.error .numberTooLong, t') ∧
      t'.settings.get? "timeout" = some (.int longNumber) ∧
      CutShort t'.settings .numberTooLong savedSetup.machine t'.machine) ∧
    ∃ t', Setup.set "timeout" strayPath savedSetup = (.error (.notSerializable "PosixPath"), t') ∧
      t'.settings.get? "timeout" = some strayPath ∧
      CutShort t'.settings (.notSerializable "PosixPath") savedSetup.machine t'.machine := by
  have hopens : Opens savedSetup.settings.directory savedSetup.machine = true := by decide +kernel
  refine ⟨?_, ?_, ?_⟩
  · obtain ⟨t', h⟩ := set_lockedSetup
    obtain ⟨hnew, -, -, hspared | hcut⟩ := left_of_failed_set h
    · exact ⟨t', h, hnew, hspared⟩
    · obtain ⟨o, ho, -⟩ := hcut.cause
      exact absurd ho.symm (ofObstacle_ne_os o _)
  · obtain ⟨t', h, -⟩ := set_savedSetup
    obtain ⟨hnew, -, hsettings, hleft⟩ := left_of_failed_set h
    have hdirectory := directory_of_put hsettings
    rw [← hdirectory] at hleft
    exact ⟨t', h, hnew, cutShort_of_opens hleft (hdirectory ▸ hopens)⟩
  · obtain ⟨t', h⟩ := set_strayPath
    obtain ⟨hnew, -, hsettings, hleft⟩ := left_of_failed_set h
    have hdirectory := directory_of_put hsettings
    rw [← hdirectory] at hleft
    exact ⟨t', h, hnew, cutShort_of_opens hleft (hdirectory ▸ hopens)⟩

end Store

end Workbench.Settings
