import Workbench.Proofs.Machine.Directories
import Workbench.Proofs.Path
import Workbench.Proofs.Settings.Load
import Workbench.Setup

/-!
# Settings that are saved are loaded again

* `Reached directory t` : what can come of loading the settings of a directory and of changing and
  saving them, on a machine on which other things happen too;
* `Reached.orderly` : the defaults come first among the settings, and no name comes twice;
* `Visible m directory` : the directory and its file are seen where they are;
* `holds_of_save` : what was saved is what the file holds;
* `load_of_save` : it is loaded as it was;
* `loaded_after_saving` : so it is after any change of a setting.
-/

namespace Workbench.Settings

open Json (Kept depthLimit render)
open Machine (Reaches Stands)
open Number (digitLimit)
open Text (CodePoints)

namespace Store

/-- Nothing keeps the directory of settings and its file from being seen where they are. -/
structure Visible (m : Machine) (directory : Path) : Prop where
  itself : ∀ place, m.placeOf directory.text = .ok place → m.refusal? .stat place = none
  file : ∀ place, m.placeOf (fileIn directory).text = .ok place → m.refusal? .stat place = none

theorem fileIn_noSlash (directory : Path) : (fileIn directory).text.endsWith "/" = false := by
  have hlast : (Path.ofText fileName).parts.getLast? = some fileName := by decide
  exact Path.endsWith_slash_text (Path.getLast?_join hlast) (by constructor <;> decide)

/-- The text of the settings in their file. -/
def written (s : Store) : List Char := (render (.object s.values)).text

/-! ## Saving -/

theorem writeText_eq_ok {m m' : Machine} {path text : String}
    (h : Machine.writeText path text m = (.ok (), m')) :
    ∃ place old, m.openForWriting path = .ok (place, old) ∧
      m' = m.put place (.file (.ofText text)) := by
  unfold Machine.writeText at h
  cases hopen : m.openForWriting path with
  | error e =>
    rw [hopen] at h
    exact nomatch (Prod.mk.inj h).1
  | ok r =>
    rw [hopen] at h
    exact ⟨r.1, r.2, rfl, (Prod.mk.inj h).2.symm⟩

/-- Settings are saved in a directory that is made, and the whole of them. -/
theorem save_eq_ok {s : Store} {m m' : Machine} (h : s.save m = (.ok (), m')) :
    ∃ m₁ place old, Machine.makeDirectories s.directory m = (.ok (), m₁) ∧
      m₁.openForWriting (fileIn s.directory).text = .ok (place, old) ∧
      m' = m₁.put place (.file (.ofText (String.ofList s.written))) := by
  obtain ⟨_, m₁, hmade, h⟩ := Action.bind_eq_ok.1 h
  obtain ⟨_, m₂, hwritten, h⟩ := Action.bind_eq_ok.1 h
  obtain ⟨place, old, hopen, rfl⟩ := writeText_eq_ok hwritten
  refine ⟨m₁, place, old, hmade, hopen, ?_⟩
  cases ho : (render (.object s.values)).obstacle? with
  | none =>
    rw [ho] at h
    exact (Prod.mk.inj h).2.symm
  | some o =>
    rw [ho] at h
    exact absurd (Prod.mk.inj h).1 (by simp)

/-- What was saved is what the file holds. -/
theorem holds_of_save {s : Store} {m m' : Machine} (h : s.save m = (.ok (), m'))
    (hvisible : Visible m' s.directory) :
    Holds s.directory m' m' (Utf8.encode (String.ofList s.written)) := by
  obtain ⟨m₁, place, old, hmade, hopen, rfl⟩ := save_eq_ok h
  obtain ⟨place', hstands⟩ := Machine.exists_stands hmade
  obtain ⟨node, hreaches, hnode⟩ := Machine.reaches_of_openForWriting hopen
  have hplace : m₁.disk.get? place ≠ some .directory := hreaches.there ▸ hnode
  have hne : place ≠ [] := fun hnil => hplace (hnil ▸ Machine.Disk.get?_nil m₁.disk)
  have hleads := Machine.placeOf_put (n := .file (.ofText (String.ofList s.written))) hplace
    hreaches.leads
  have hstands := hstands.put hplace (.file (.ofText (String.ofList s.written)))
  have hfile : ∀ call, m₁.refusal? call place = none →
      Reaches (m₁.put place (.file (.ofText (String.ofList s.written)))) call
        (fileIn s.directory).text place (some (.file (.ofText (String.ofList s.written)))) := by
    refine fun call hgranted => ⟨hreaches.noNull, hleads, hgranted, ?_,
      fun _ _ => fileIn_noSlash s.directory⟩
    show (m₁.disk.put place _).get? place = _
    rw [Machine.Disk.get?_put, if_pos ⟨rfl, hne⟩]
  exact ⟨Machine.makeDirectories_of_stands hstands (hvisible.itself place' hstands.leads),
    Machine.pathExists_of_reaches (hfile .stat (hvisible.file place hleads)), place, _,
    Machine.lookUp_eq_ok.2 (hfile .openFile hreaches.granted), rfl⟩

/-- What is read from the text of the settings is loaded, without a warning. -/
theorem load_of_prints {s : Store} {m m' : Machine} {v : Value} (h : s.save m = (.ok (), m'))
    (hvisible : Visible m' s.directory)
    (hprints : Json.Prints (render (.object s.values)) depthLimit v) :
    load s.directory m' = (.ok { directory := s.directory, values := override v }, m') := by
  have hwritten : (String.ofList s.written).toList = s.written := String.toList_ofList
  have htext : IsText (Utf8.encode (String.ofList s.written)) s.written := by
    refine ⟨_, rfl, ?_⟩
    rw [hwritten]
    exact (Text.unixNewlines_of_not_mem hprints.noReturn).symm
  have hdocument : Json.Document digitLimit depthLimit s.written v := by
    have hmk := Json.Document.mk Json.gap_nil Json.gap_nil hprints.writes
    rwa [List.nil_append, List.append_nil] at hmk
  exact load_of_document (holds_of_save h hvisible) htext (Json.document_eq_ok.2 hdocument)

/-- Settings that are kept as they are written are loaded as they were, without a warning. -/
theorem load_of_save {s : Store} {m m' : Machine} (h : s.save m = (.ok (), m'))
    (hvisible : Visible m' s.directory) (hkept : Kept depthLimit (.object s.values))
    (hfirst : defaults.keys <+: s.values.keys) : load s.directory m' = (.ok s, m') := by
  have hnodup : s.values.keys.Nodup := by
    cases hkept with
    | object hnodup hnames hvalues => exact hnodup
  have hvalues : override (.object s.values) = s.values :=
    Record.merge_of_isPrefix hfirst hnodup
  rw [load_of_prints h hvisible (Json.prints_write hkept (Nat.le_of_eq (Nat.zero_add _))), hvalues]

/-- The defaults are written and read again as they are. -/
theorem kept_defaults : Kept depthLimit (.object defaults) := by
  refine .object nodup_keys_defaults (by unfold Json.Separate; decide) ?_
  have hempty : Json.Separate "" := Json.separate_ofString ""
  have htimeout : (30 : Int).natAbs < Number.digitBound :=
    Number.lt_digitBound (k := 2) (by decide) (by decide)
  simp only [defaults, Record.values, List.map_cons, List.map_nil, List.forall_mem_cons]
  exact ⟨.text hempty, .text hempty, .bool, .bool, .int htimeout,
    .list fun v hv => absurd hv List.not_mem_nil, fun v hv => absurd hv List.not_mem_nil⟩

/-! ## Settings that are reached -/

/-- What can come of loading the settings of a directory and of changing and saving them. Saving may
fail. Between any two steps the machine may change as it will, and the settings may be loaded again,
on any machine. -/
inductive Reached (directory : Path) : Setup → Prop
  | load {m m' : Machine} {s : Store} (h : Store.load directory m = (.ok s, m')) :
      Reached directory { machine := m', settings := s }
  | set {t : Setup} (name : String) (v : Value) (h : Reached directory t) :
      Reached directory (Setup.set name v t).2
  | save {t : Setup} (h : Reached directory t) : Reached directory (Setup.save t).2
  | elsewhere {t : Setup} (m : Machine) (h : Reached directory t) :
      Reached directory { t with machine := m }

/-- What holds of the settings in every case. -/
structure Orderly (directory : Path) (s : Store) : Prop where
  directory_eq : s.directory = directory
  first : defaults.keys <+: s.values.keys
  nodup : s.values.keys.Nodup

theorem orderly_defaults (directory : Path) : Orderly directory { directory, values := defaults } :=
  ⟨rfl, List.prefix_rfl, nodup_keys_defaults⟩

theorem orderly_override (directory : Path) (v : Value) :
    Orderly directory { directory, values := override v } := by
  cases v with
  | object fields =>
    refine ⟨rfl, ?_, Record.nodup_keys_merge nodup_keys_defaults fields⟩
    show _ <+: (Record.merge defaults fields).keys
    rw [Record.keys_merge]
    exact List.prefix_append defaults.keys _
  | null | bool | int | float | text | list | foreign => exact orderly_defaults directory

/-- What a file says was read from a text. -/
theorem exists_document {m : Machine} {directory : Path} {values : Record CodePoints Value}
    (h : contents m directory = .ok (.ok values)) :
    ∃ t v, Json.Document digitLimit depthLimit t v ∧ values = override v := by
  unfold contents at h
  split at h
  · exact nomatch h
  · exact nomatch h
  · next text htext =>
    unfold Json.read at h
    cases hread : Json.document text.toList with
    | ok v =>
      rw [hread] at h
      exact ⟨_, v, Json.document_eq_ok.1 hread, (Except.ok.inj (Except.ok.inj h)).symm⟩
    | error e =>
      rw [hread] at h
      cases e <;> exact nomatch h

/-- The settings that are loaded are the defaults, or what a text says put over them. -/
theorem eq_of_load {directory : Path} {m m' : Machine} {s : Store}
    (h : Store.load directory m = (.ok s, m')) :
    s = { directory, values := defaults } ∨
      ∃ t v, Json.Document digitLimit depthLimit t v ∧ s = { directory, values := override v } := by
  obtain ⟨_, m₁, -, h⟩ := Action.bind_eq_ok.1 h
  obtain ⟨present, m₂, -, h⟩ := Action.bind_eq_ok.1 h
  split at h
  · obtain ⟨r, m₃, hr, h⟩ := Action.bind_eq_ok.1 h
    obtain ⟨hcontents, rfl⟩ := Prod.mk.inj hr
    cases r with
    | ok values =>
      obtain ⟨hs, -⟩ := Prod.mk.inj h
      obtain ⟨t, v, hdocument, rfl⟩ := exists_document hcontents
      exact .inr ⟨t, v, hdocument, (Except.ok.inj hs).symm⟩
    | error reason =>
      obtain ⟨hs, -⟩ := Prod.mk.inj h
      exact .inl (Except.ok.inj hs).symm
  · obtain ⟨hs, -⟩ := Prod.mk.inj h
    exact .inl (Except.ok.inj hs).symm

theorem orderly_load {directory : Path} {m m' : Machine} {s : Store}
    (h : Store.load directory m = (.ok s, m')) : Orderly directory s := by
  rcases eq_of_load h with rfl | ⟨t, v, -, rfl⟩
  · exact orderly_defaults directory
  · exact orderly_override directory v

theorem Orderly.put {directory : Path} {s : Store} (h : Orderly directory s) (name : String)
    (v : Value) : Orderly directory (s.put name v) where
  directory_eq := h.directory_eq
  first := h.first.trans (Record.keys_isPrefix_put _ _ _)
  nodup := Record.nodup_keys_put h.nodup _ _

/-- Saving leaves the settings as they are, whether or not it succeeds. -/
theorem settings_save (t : Setup) : (Setup.save t).2.settings = t.settings := rfl

theorem settings_set (name : String) (v : Value) (t : Setup) :
    (Setup.set name v t).2.settings = t.settings.put name v := rfl

/-- The defaults come first among the settings, and no name comes twice. One case for each step. -/
theorem Reached.orderly {directory : Path} {t : Setup} (h : Reached directory t) :
    Orderly directory t.settings := by
  induction h with
  | load h => exact orderly_load h
  | set name v h ih => exact ih.put name v
  | save h ih => exact ih
  | elsewhere m h ih => exact ih

theorem save_of_setup {t t' : Setup} (h : Setup.save t = (.ok (), t')) :
    t.settings.save t.machine = (.ok (), t'.machine) := by
  have hresult : (t.settings.save t.machine).1 = .ok () := congrArg Prod.fst h
  have hmachine : (t.settings.save t.machine).2 = t'.machine :=
    congrArg (fun r => r.2.machine) h
  exact Prod.ext hresult hmachine

/-- What was set or saved is loaded again as it was, and without a warning: the defaults come first,
the order of the names is the same, and the setting that was changed has its new value. -/
theorem loaded_after_saving {directory : Path} {t t' : Setup} (hreached : Reached directory t)
    (hdone : Setup.save t = (.ok (), t') ∨ ∃ name v, Setup.set name v t = (.ok (), t'))
    (hkept : Kept depthLimit (.object t'.settings.values)) (hvisible : Visible t'.machine directory) :
    load directory t'.machine = (.ok t'.settings, t'.machine) ∧
      defaults.keys <+: t'.settings.values.keys ∧
      ∀ name v, Setup.set name v t = (.ok (), t') → t'.settings.get? name = some v := by
  have horderly : Orderly directory t'.settings := by
    rcases hdone with h | ⟨name, v, h⟩
    · exact (congrArg Prod.snd h ▸ hreached.save).orderly
    · exact (congrArg Prod.snd h ▸ hreached.set name v).orderly
  have hsaved : ∃ m, t'.settings.save m = (.ok (), t'.machine) := by
    rcases hdone with h | ⟨name, v, h⟩
    · have hsame : t'.settings = t.settings := by rw [← settings_save t, h]
      exact ⟨t.machine, hsame ▸ save_of_setup h⟩
    · have hsame : t'.settings = t.settings.put name v := by rw [← settings_set name v t, h]
      exact ⟨t.machine, hsame ▸ save_of_setup (t := { t with settings := t.settings.put name v }) h⟩
  refine ⟨?_, horderly.first, fun name v h => ?_⟩
  · obtain ⟨m, hm⟩ := hsaved
    have hload := load_of_save hm (horderly.directory_eq.symm ▸ hvisible) hkept horderly.first
    rwa [horderly.directory_eq] at hload
  · have hsame : t'.settings = t.settings.put name v := by rw [← settings_set name v t, h]
    rw [hsame]
    show Record.get? (Record.put _ _ _) _ = _
    rw [Record.get?_put, if_pos rfl]

/-- A list of a text with a quote, a backslash and a character beyond U+FFFF, of nothing and of a
number. -/
def mixedList : Value := .list [.text (CodePoints.ofString "\"\\𝄞"), .null, .int (-5)]

/-- The settings of a user who has none, on a machine that keeps nothing yet. -/
def freshSetup : Setup where
  machine := (Machine.makeDirectories userDirectory {}).2
  settings := { directory := userDirectory, values := defaults }

theorem reached_freshSetup : Reached userDirectory freshSetup := by
  refine .load (m := {}) (load_of_lacks ⟨Action.eq_of_toOption ?_, Action.eq_ok_of_toOption ?_⟩)
  · decide +kernel
  · decide +kernel

theorem kept_mixedList : Kept 986 mixedList := by
  refine .list (List.forall_mem_cons.2 ⟨.text (Json.separate_ofString _), List.forall_mem_cons.2
    ⟨.null, List.forall_mem_singleton.2 (.int ?_)⟩⟩)
  exact Number.lt_digitBound (k := 1) (by decide) (by decide)

theorem loaded_after_setting_mixedList :
    ∃ t', Setup.set "candidates" mixedList freshSetup = (.ok (), t') ∧
      load userDirectory t'.machine = (.ok t'.settings, t'.machine) ∧
      t'.settings.get? "candidates" = some mixedList := by
  have hset : Setup.set "candidates" mixedList freshSetup =
      (.ok (), (Setup.set "candidates" mixedList freshSetup).2) :=
    Action.eq_of_toOption (by decide +kernel)
  have hnone : (Setup.set "candidates" mixedList freshSetup).2.machine.refusals = [] := by
    decide +kernel
  have hvisible : Visible (Setup.set "candidates" mixedList freshSetup).2.machine userDirectory := by
    constructor <;>
    · intro place _
      rw [Machine.refusal?, hnone]
      rfl
  have hkept : Kept depthLimit
      (.object (Setup.set "candidates" mixedList freshSetup).2.settings.values) :=
    kept_defaults.put (Json.separate_ofString "candidates") kept_mixedList
  obtain ⟨hload, -, hget⟩ := loaded_after_saving reached_freshSetup (.inr ⟨_, _, hset⟩) hkept hvisible
  exact ⟨_, hset, hload, hget _ _ hset⟩

end Store

end Workbench.Settings
