import Mathlib.Data.List.Sort
import Mathlib.Data.String.Basic
import Workbench.Proofs.Machine.Names

/-!
# What a listing shows

* `Path.child directory name` : the path of what has a name in a directory;
* `placeOf_child` : the place it leads to is directly below that of the directory;
* `Gone m directory name` : the name is listed, but nothing is there any more;
* `entriesFor_eq_ok` : all that is not gone has an entry;
* `Shows m directory place l`, `shows_of_ok` : a listing has one entry for each child that is not
  gone, in the order of the names;
* `Refuses m directory`, `error_of_refuses` : the system refuses to list a directory or to say what
  one of its children is;
* `mem_created`, `ordered_created` : the new entries, in the order of the names.
-/

namespace Workbench

/-! ## Children -/

/-- The path of what has a name in a directory. -/
def Path.child (directory : Path) (name : String) : Path :=
  ⟨directory.root, directory.parts ++ [name]⟩

theorem Path.not_mem_text_child {directory : Path} {name : String} {c : Char} (hslash : c ≠ '/')
    (hpoint : c ≠ '.') (hdirectory : c ∉ directory.text.toList) (hname : c ∉ name.toList) :
    c ∉ (directory.child name).text.toList := by
  rw [Path.mem_text hslash hpoint] at hdirectory ⊢
  rintro ⟨part, hpart, hc⟩
  rcases List.mem_append.1 hpart with hpart | hpart
  · exact hdirectory ⟨part, hpart, hc⟩
  · obtain rfl := List.mem_singleton.1 hpart
    exact hname hc

namespace Machine

theorem startsWith_text {p : Path} (h : ∀ part ∈ p.parts, Path.IsName part) :
    p.text.startsWith "/" = true ↔ p.root ≠ .here := by
  rw [String.startsWith_string_iff]
  constructor
  · rintro ⟨s, hs⟩ hhere
    have hslash : p.text.toList = '/' :: s := hs.symm
    by_cases hnil : p.parts = []
    · have htext : p.text = "." := if_pos ⟨hhere, hnil⟩
      rw [htext] at hslash
      exact absurd hslash (by simp)
    · have hroot := Path.rootOf_text_append h hnil []
      rw [List.append_nil, hslash, hhere] at hroot
      exact Path.rootOf_cons_slash s hroot
  · intro hrooted
    obtain ⟨s, hs⟩ := Path.toList_text_of_rooted hrooted
    rw [hs]
    exact ⟨s, rfl⟩

/-- Looking up the text of a path is to follow its names. -/
theorem walk_of_placeOf {m : Machine} {p : Path} (hp : ∀ part ∈ p.parts, Path.IsName part)
    {place : Place} (h : m.placeOf p.text = .ok place) :
    walk m.disk (if p.root = .here then m.directory else []) p.parts = .ok place := by
  unfold placeOf at h
  split at h
  · exact nomatch h
  · split at h
    · exact nomatch h
    · dsimp only at h
      rw [Path.partsOf_text hp] at h
      by_cases hroot : p.root = .here
      · rw [if_neg fun hs => (startsWith_text hp).1 hs hroot] at h
        rw [if_pos hroot]
        exact h
      · rw [if_pos ((startsWith_text hp).2 hroot)] at h
        rw [if_neg hroot]
        exact h

theorem placeOf_child {m : Machine} {directory : Path} {name : String} {place place' : Place}
    (hdirectory : ∀ part ∈ directory.parts, Path.IsName part) (hname : IsFileName name)
    (h : m.placeOf directory.text = .ok place)
    (h' : m.placeOf (directory.child name).text = .ok place') : place' = place ++ [name] := by
  have hnames : ∀ part ∈ (directory.child name).parts, Path.IsName part := by
    intro part hpart
    rcases List.mem_append.1 hpart with hpart | hpart
    · exact hdirectory part hpart
    · obtain rfl := List.mem_singleton.1 hpart
      exact hname.1
  have hwalk := walk_of_placeOf hnames h'
  have happend : walk m.disk (if directory.root = .here then m.directory else [])
      (directory.parts ++ [name]) = .ok place' := hwalk
  rw [walk_append (walk_of_placeOf hdirectory h)] at happend
  exact walk_eq_ok happend fun hup => hname.2 (List.mem_singleton.1 hup).symm

end Machine

namespace Listing

variable {m : Machine} {directory : Path} {name : String} {names : List String}

/-- The entry for a node under a name. -/
def entryOf (name : String) (node : Machine.Node) : Entry where
  name
  isDirectory := node.isDirectory
  size := node.size

/-- A name that was listed, but there is nothing under it any more. -/
def Gone (m : Machine) (directory : Path) (name : String) : Prop :=
  ∃ x : Machine.OsError, m.stat (directory.child name).text = .error (.os x) ∧ x.fault = .missing

/-- The entry for a name in a directory, if what is there can be looked at. -/
def entryAt? (m : Machine) (directory : Path) (name : String) : Option Entry :=
  (m.stat (directory.child name).text).toOption.map (entryOf name)

/-! ## Entries -/

theorem entryAt?_eq_some {e : Entry} : entryAt? m directory name = some e ↔
    ∃ node, m.stat (directory.child name).text = .ok node ∧ e = entryOf name node := by
  unfold entryAt?
  cases m.stat (directory.child name).text with
  | error failure => simp [Except.toOption]
  | ok node => simp [Except.toOption, eq_comm]

theorem name_of_entryAt? {e : Entry} (h : entryAt? m directory name = some e) : e.name = name := by
  obtain ⟨node, -, rfl⟩ := entryAt?_eq_some.1 h
  rfl

theorem entryAt?_of_gone (h : Gone m directory name) : entryAt? m directory name = none := by
  obtain ⟨x, hstat, -⟩ := h
  unfold entryAt?
  rw [hstat]
  rfl

theorem entriesFor_of_gone (h : Gone m directory name) (rest : List String) :
    entriesFor m directory (name :: rest) = entriesFor m directory rest := by
  obtain ⟨x, hstat, hmissing⟩ := h
  unfold Path.child at hstat
  rw [entriesFor, hstat]
  exact if_pos hmissing

theorem entriesFor_of_stat {node : Machine.Node}
    (h : m.stat (directory.child name).text = .ok node) (rest : List String) :
    entriesFor m directory (name :: rest) =
      (entriesFor m directory rest).map (entryOf name node :: ·) := by
  unfold Path.child at h
  rw [entriesFor, h]
  dsimp only
  cases entriesFor m directory rest <;> rfl

/-- A child that is not gone and cannot be looked at ends the listing. -/
theorem entriesFor_of_error {failure : Failure}
    (h : m.stat (directory.child name).text = .error failure) (hgone : ¬ Gone m directory name)
    (rest : List String) : entriesFor m directory (name :: rest) = .error failure := by
  have hstat := h
  unfold Path.child at hstat
  rw [entriesFor, hstat]
  cases failure with
  | os x => exact if_neg fun hmissing => hgone ⟨x, h, hmissing⟩
  | _ => rfl

theorem entriesFor_eq_ok {es : List Entry} (h : entriesFor m directory names = .ok es) :
    (∀ name ∈ names, (entryAt? m directory name).isSome ↔ ¬ Gone m directory name) ∧
      es = names.filterMap (entryAt? m directory) := by
  induction names generalizing es with
  | nil =>
    obtain rfl := Except.ok.inj h
    exact ⟨fun _ hname => absurd hname List.not_mem_nil, rfl⟩
  | cons name rest ih =>
    by_cases hgone : Gone m directory name
    · rw [entriesFor_of_gone hgone] at h
      obtain ⟨hrest, rfl⟩ := ih h
      have hnone := entryAt?_of_gone hgone
      refine ⟨List.forall_mem_cons.2 ⟨?_, hrest⟩, (List.filterMap_cons_none hnone).symm⟩
      simp [hnone, hgone]
    · cases hstat : m.stat (directory.child name).text with
      | error failure =>
        rw [entriesFor_of_error hstat hgone] at h
        exact nomatch h
      | ok node =>
        rw [entriesFor_of_stat hstat] at h
        have hsome : entryAt? m directory name = some (entryOf name node) :=
          entryAt?_eq_some.2 ⟨node, hstat, rfl⟩
        cases hentries : entriesFor m directory rest with
        | error failure =>
          rw [hentries] at h
          exact nomatch h
        | ok es' =>
          rw [hentries] at h
          obtain rfl := Except.ok.inj h
          obtain ⟨hrest, rfl⟩ := ih hentries
          refine ⟨List.forall_mem_cons.2 ⟨?_, hrest⟩, (List.filterMap_cons_some hsome).symm⟩
          simp [hsome, hgone]

/-- The entries are named after what was listed, in that order. -/
theorem map_name_filterMap (m : Machine) (directory : Path) (names : List String) :
    (names.filterMap (entryAt? m directory)).map Entry.name =
      names.filter fun name => (entryAt? m directory name).isSome := by
  induction names with
  | nil => rfl
  | cons name rest ih =>
    cases hentry : entryAt? m directory name with
    | none =>
      rw [List.filterMap_cons_none hentry, List.filter_cons_of_neg (by simp [hentry]), ih]
    | some e =>
      rw [List.filterMap_cons_some hentry, List.filter_cons_of_pos (by simp [hentry]),
        List.map_cons, ih, name_of_entryAt? hentry]

/-! ## Listings -/

theorem named_ofEntries (es : List Entry) :
    (ofEntries es).keys = (ofEntries es).values.map Entry.name := by
  unfold Record.keys Record.values
  rw [List.map_map]
  exact List.map_congr_left fun p hp => (mem_ofEntries hp).1

theorem mem_keys_ofEntries {es : List Entry} :
    name ∈ (ofEntries es).keys ↔ name ∈ es.map Entry.name := by
  unfold ofEntries
  rw [Record.keys_ofList, Record.mem_firstNames]
  unfold Record.keys
  rw [List.map_map]
  rfl

/-- Entries in the order of their names are listed in that order, each name once. -/
theorem ordered_ofEntries {es : List Entry} (h : (es.map Entry.name).Pairwise (· ≤ ·)) :
    (ofEntries es).keys.Pairwise (· < ·) := by
  have hnames : Record.keys (es.map fun e => (e.name, e)) = es.map Entry.name := by
    unfold Record.keys
    rw [List.map_map]
    rfl
  have hsorted : (ofEntries es).keys.Pairwise (· ≤ ·) := by
    unfold ofEntries
    rw [Record.keys_ofList]
    exact (hnames ▸ h).sublist (Record.firstNames_sublist _)
  have hnodup : (ofEntries es).keys.Nodup := Record.nodup_keys_ofList _
  exact hsorted.imp₂ (fun _ _ hle hne => lt_of_le_of_ne hle hne) hnodup

/-- What a listing says about the directory at a place: there is one entry for each child that is
not gone, in the order of the names and with what is there. -/
structure Shows (m : Machine) (directory : Path) (place : Machine.Place) (l : Listing) : Prop where
  named : l.keys = l.values.map Entry.name
  ordered : l.keys.Pairwise (· < ·)
  children : ∀ name, name ∈ l.keys ↔
    (m.disk.get? (place ++ [name])).isSome ∧ ¬ Gone m directory name
  entries : ∀ e ∈ l.values, ∃ node, m.stat (directory.child e.name).text = .ok node ∧
    e = entryOf e.name node ∧
    (IsFileName e.name → m.disk.get? (place ++ [e.name]) = some node)

theorem shows_of_ok {directory : String} {l : Listing} (h : Listing.of m directory = .ok l) :
    ∃ place, Machine.Reaches m .listDirectory (Path.ofText directory).text place
        (some .directory) ∧ Shows m (Path.ofText directory) place l := by
  obtain ⟨names, es, hnames, hentries, rfl⟩ := of_eq_ok h
  obtain ⟨place, hreaches, rfl⟩ := listDirectory_eq_ok hnames
  obtain ⟨hsome, rfl⟩ := entriesFor_eq_ok hentries
  refine ⟨place, hreaches, named_ofEntries _, ?_, fun name => ?_, fun e he => ?_⟩
  · apply ordered_ofEntries
    rw [map_name_filterMap]
    have hsorted := List.pairwise_mergeSort' (· ≤ ·) (m.disk.children place)
    exact hsorted.sublist List.filter_sublist
  · rw [mem_keys_ofEntries, map_name_filterMap, List.mem_filter, List.mem_mergeSort,
      ← Machine.Disk.mem_children_iff_get?]
    exact and_congr_right fun hname => hsome name (List.mem_mergeSort.2 hname)
  · obtain ⟨⟨key, e⟩, hmem, rfl⟩ := List.mem_map.1 he
    obtain ⟨name, -, hentry⟩ := List.mem_filterMap.1 (mem_ofEntries hmem).2
    obtain ⟨node, hstat, rfl⟩ := entryAt?_eq_some.1 hentry
    refine ⟨node, hstat, rfl, fun hname => ?_⟩
    obtain ⟨place', hplace⟩ := Machine.stat_eq_ok hstat
    have hdirectory := Path.isName_ofText directory
    obtain rfl := Machine.placeOf_child hdirectory hname hreaches.leads hplace.leads
    exact hplace.there

/-! ## Refusals -/

/-- The system refuses to list a directory, or it says of a child that was listed neither what it is
nor that it is gone. No name that the system lists has a null in it. -/
inductive Refuses (m : Machine) (directory : Path) : Prop
  | directory {x : Machine.OsError} (h : m.listDirectory directory.text = .error (.os x))
  | child {names : List String} {name : String} {x : Machine.OsError}
      (hnames : m.listDirectory directory.text = .ok names)
      (hnull : ∀ name ∈ names, '\x00' ∉ name.toList) (hname : name ∈ names)
      (hstat : m.stat (directory.child name).text = .error (.os x)) (hfault : x.fault ≠ .missing)

/-- Where the system answers all questions, one of the refused children ends the listing. -/
theorem exists_entriesFor_error
    (hos : ∀ name ∈ names, (∃ node, m.stat (directory.child name).text = .ok node) ∨
      ∃ x, m.stat (directory.child name).text = .error (.os x))
    {x : Machine.OsError} (hname : name ∈ names)
    (hstat : m.stat (directory.child name).text = .error (.os x)) (hfault : x.fault ≠ .missing) :
    ∃ x, entriesFor m directory names = .error (.os x) := by
  induction names with
  | nil => exact absurd hname List.not_mem_nil
  | cons first rest ih =>
    obtain ⟨hfirst, hrest⟩ := List.forall_mem_cons.1 hos
    -- Either the first child ends the listing, or the refused one is among the others.
    have hlater : first ≠ name → ∃ x, entriesFor m directory rest = .error (.os x) := fun hne =>
      ih hrest ((List.mem_cons.1 hname).resolve_left (Ne.symm hne))
    rcases hfirst with ⟨node, hnode⟩ | ⟨y, hy⟩
    · obtain ⟨z, hz⟩ := hlater fun he => nomatch (he ▸ hnode).symm.trans hstat
      rw [entriesFor_of_stat hnode, hz]
      exact ⟨z, rfl⟩
    · by_cases hgone : Gone m directory first
      · rw [entriesFor_of_gone hgone]
        refine hlater ?_
        rintro rfl
        obtain ⟨z, hz, hmissing⟩ := hgone
        obtain rfl := Failure.os.inj (Except.error.inj (hz.symm.trans hstat))
        exact hfault hmissing
      · exact ⟨y, entriesFor_of_error hy hgone rest⟩

theorem error_of_refuses {directory : String} (h : Refuses m (Path.ofText directory)) :
    ∃ x, Listing.of m directory = .error (.os x) := by
  unfold Listing.of
  dsimp only
  cases h with
  | @directory x hlist =>
    rw [hlist]
    exact ⟨x, rfl⟩
  | @child names name x hnames hnull hname hstat hfault =>
    obtain ⟨place, hreaches, -⟩ := listDirectory_eq_ok hnames
    have hos : ∀ name ∈ names.mergeSort (· ≤ ·),
        (∃ node, m.stat ((Path.ofText directory).child name).text = .ok node) ∨
          ∃ x, m.stat ((Path.ofText directory).child name).text = .error (.os x) := by
      intro name hname
      refine Machine.stat_cases ?_
      exact Path.not_mem_text_child (by decide) (by decide) hreaches.noNull
        (hnull name (List.mem_mergeSort.1 hname))
    obtain ⟨y, hy⟩ := exists_entriesFor_error hos (List.mem_mergeSort.2 hname) hstat hfault
    rw [hnames]
    dsimp only
    rw [hy]
    exact ⟨y, rfl⟩

/-! ## New entries -/

theorem mem_created {before after : Listing} {e : Entry} :
    e ∈ created before after ↔ e ∈ after.values ∧ e.name ∉ before.keys := by
  unfold created
  rw [List.mem_filter, decide_eq_true_eq]

theorem ordered_created {after : Listing} (hnamed : after.keys = after.values.map Entry.name)
    (hordered : after.keys.Pairwise (· < ·)) (before : Listing) :
    ((created before after).map Entry.name).Pairwise (· < ·) := by
  rw [hnamed] at hordered
  exact hordered.sublist (List.filter_sublist.map Entry.name)

end Listing

end Workbench
