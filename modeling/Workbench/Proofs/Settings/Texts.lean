import Workbench.Proofs.Json.Rewriting
import Workbench.Proofs.Settings.Unsaved

/-!
# Texts among the settings

A file of settings may hold any value of JSON, among them numbers that are written in another way
than they were read. A text is loaded as it was saved, whatever the other settings are.

* `Legible r` : the settings are values that some text writes, under names that some text writes;
* `Legible.put`, `legible_load` : so they are when they were loaded, and when such a value is put into
  them;
* `Entered directory s` : what comes of loading settings and of entering arguments;
* `exists_load_of_save` : what is loaded after that was saved.
-/

namespace Workbench.Settings.Store

open Json (Document Kept Prints Separate Writes depthLimit render)
open Number (digitLimit)
open Text (CodePoints)

/-- How deep the settings may be nested themselves. -/
def valueDepth : Nat := depthLimit - 1

/-- The settings are values that some text writes, under names in which no halves make a pair. -/
structure Legible (r : Record CodePoints Value) : Prop where
  names : ∀ name ∈ r.keys, Separate name
  values : ∀ v ∈ r.values, ∃ t, Writes digitLimit valueDepth t v

theorem legible_defaults : Legible defaults := by
  cases kept_defaults with
  | object hnodup hnames hvalues =>
    have hroom : 0 + valueDepth ≤ depthLimit := by decide
    exact ⟨hnames, fun v hv => ⟨_, (Json.prints_write (hvalues v hv) hroom).writes⟩⟩

theorem legible_of_writes {t : List Char} {fields : Record CodePoints Value}
    (h : Writes digitLimit depthLimit t (.object fields)) : Legible fields := by
  cases h with
  | word h => simp [Json.words] at h
  | number h => cases h
  | emptyObject hb => exact ⟨by simp [Record.keys], by simp [Record.values]⟩
  | @object room s members hs hformed h =>
    refine ⟨List.forall_mem_map.2 fun e he => ?_, ?_⟩
    · obtain ⟨m, hm, rfl⟩ := List.mem_map.1 (Record.mem_of_mem_ofList he)
      exact Json.separate_of_quoted (hformed m hm).name
    · exact Record.forall_values_ofList (List.forall_mem_map.2 fun m hm => ⟨_, h m hm⟩)

theorem Legible.merge {r fields : Record CodePoints Value} (h : Legible r) (h' : Legible fields) :
    Legible (Record.merge r fields) := by
  constructor
  · refine List.forall_mem_map.2 fun e he => ?_
    rcases Record.mem_merge he with he | he
    · exact h'.names e.1 (List.mem_map_of_mem he)
    · exact h.names e.1 (List.mem_map_of_mem he)
  · exact Record.forall_values_merge h.values fun e he => h'.values e.2 (List.mem_map_of_mem he)

theorem Legible.put {r : Record CodePoints Value} (h : Legible r) {name : CodePoints} {v : Value}
    (hname : Separate name) (hv : ∃ t, Writes digitLimit valueDepth t v) :
    Legible (r.put name v) := by
  show Legible (Record.merge r [(name, v)])
  exact h.merge ⟨List.forall_mem_singleton.2 hname, List.forall_mem_singleton.2 hv⟩

theorem legible_load {directory : Path} {m m' : Machine} {s : Store}
    (h : Store.load directory m = (.ok s, m')) : Legible s.values := by
  rcases eq_of_load h with rfl | ⟨t, v, hdocument, rfl⟩
  · exact legible_defaults
  · cases v with
    | object fields =>
      cases hdocument with
      | mk ha hb hwrites => exact legible_defaults.merge (legible_of_writes hwrites)
    | null | bool | int | float | text | list | foreign => exact legible_defaults

/-! ## Settings that were entered -/

/-- What comes of loading the settings of a directory and of entering arguments for the compiler. -/
inductive Entered (directory : Path) : Store → Prop
  | load {m m' : Machine} {s : Store} (h : Store.load directory m = (.ok s, m')) :
      Entered directory s
  | enter {s : Store} (text : String) (h : Entered directory s) :
      Entered directory (s.put "compiler_args" (.text text))

theorem Entered.orderly {directory : Path} {s : Store} (h : Entered directory s) :
    Orderly directory s := by
  induction h with
  | load h => exact orderly_load h
  | enter text h ih => exact ih.put _ _

theorem Entered.legible {directory : Path} {s : Store} (h : Entered directory s) :
    Legible s.values := by
  induction h with
  | load h => exact legible_load h
  | enter text h ih =>
    have hquoted := Json.quoted_writeText (Json.separate_ofString text)
    exact ih.put (Json.separate_ofString _) ⟨_, .text hquoted⟩

/-! ## Saving and loading -/

/-- Settings that were saved can be loaded, without a warning, and the texts among them are as they
were. -/
theorem exists_load_of_save {directory : Path} {s : Store} {m m' : Machine}
    (hs : Entered directory s) (h : s.save m = (.ok (), m')) (hvisible : Visible m' directory) :
    ∃ reloaded, Store.load directory m' = (.ok reloaded, m') ∧
      ∀ name t, s.get? name = some (.text t) → reloaded.get? name = some (.text t) := by
  obtain ⟨hdirectory, hfirst, hnodup⟩ := hs.orderly
  obtain ⟨hnames, hvalues⟩ := hs.legible
  have hreread : ∀ v ∈ s.values.values, ∃ v', Prints (Json.write 1 v) valueDepth v' ∧
      ∀ t, v = .text t → v' = .text t := by
    intro v hv
    obtain ⟨t, ht⟩ := hvalues v hv
    exact Json.reread_of_writes ht (by decide)
  choose! g hg htexts using hreread
  have hprints : Prints (render (.object s.values)) depthLimit
      (.object (s.values.map (Prod.map id g))) := Json.prints_object (by decide) hnodup hnames hg
  have hload := load_of_prints h (hdirectory ▸ hvisible) hprints
  have hkept : override (.object (s.values.map (Prod.map id g))) =
      s.values.map (Prod.map id g) := by
    have hkeys := Record.keys_map_values g s.values
    exact Record.merge_of_isPrefix (by rwa [hkeys]) (by rwa [hkeys])
  rw [hdirectory, hkept] at hload
  refine ⟨_, hload, fun name t ht => ?_⟩
  rw [get?, Record.get?_map_values, ← get?, ht]
  exact congrArg some (htexts (.text t) (Record.mem_values_of_get? ht) t rfl)

end Workbench.Settings.Store
