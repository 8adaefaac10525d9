import Workbench.Listing
import Workbench.Proofs.Machine.LookUp
import Workbench.Proofs.Path
import Workbench.Proofs.Record

/-!
# Names on a disk

Nothing on a disk is called `.` or `..`, and no name is empty or holds a slash.

* `IsFileName` : what a file or directory can be called;
* `Machine.IsNamed m` : only such names are on the disk of a machine, and only such are made by its
  processes;
* `IsNamed.started` : this stays so when a process does its work;
* `Disk.mem_children`, `Disk.mem_children_iff_get?` : what is directly below a place;
* `of_eq_ok`, `listDirectory_eq_ok` : what it takes to list a directory;
* `isFileName_of_listed`, `isFileName_of_created` : then the entries of a listing have such names.
-/

namespace Workbench

/-- What a file or directory can be called. -/
def IsFileName (name : String) : Prop := Path.IsName name ∧ name ≠ ".."

instance (name : String) : Decidable (Path.IsName name) :=
  decidable_of_iff (name ≠ "" ∧ name ≠ "." ∧ '/' ∉ name.toList)
    ⟨fun h => ⟨h.1, h.2.1, h.2.2⟩, fun h => ⟨h.ne_empty, h.ne_point, h.no_slash⟩⟩

instance (name : String) : Decidable (IsFileName name) :=
  inferInstanceAs (Decidable (Path.IsName name ∧ name ≠ ".."))

namespace Machine

/-- The names that lead to a place are such as files and directories have. -/
def Place.IsNamed (place : Place) : Prop := ∀ name ∈ place, IsFileName name

instance (place : Place) : Decidable (Place.IsNamed place) :=
  inferInstanceAs (Decidable (∀ name ∈ place, IsFileName name))

theorem Place.IsNamed.dropLast {place : Place} (h : Place.IsNamed place) :
    Place.IsNamed place.dropLast :=
  fun name hname => h name (List.dropLast_subset place hname)

/-! ## Disks -/

namespace Disk

/-- All places of a disk have names such as files and directories have. -/
def IsNamed (d : Disk) : Prop := ∀ e ∈ d, Place.IsNamed e.1

instance (d : Disk) : Decidable d.IsNamed :=
  inferInstanceAs (Decidable (∀ e ∈ d, Place.IsNamed e.1))

variable {d : Disk} {p : Place}

theorem IsNamed.put (h : IsNamed d) (hp : Place.IsNamed p) (n : Node) : IsNamed (d.put p n) := by
  unfold Disk.put
  split
  · exact h
  · intro e he
    rcases List.mem_cons.1 he with rfl | he
    · exact hp
    · exact h e (List.mem_of_mem_filter he)

theorem IsNamed.remove (h : IsNamed d) (p : Place) : IsNamed (d.remove p) :=
  fun e he => h e (List.mem_of_mem_filter he)

theorem IsNamed.addDirectory (h : IsNamed d) (hp : Place.IsNamed p) :
    IsNamed (d.addDirectory p) := by
  unfold Disk.addDirectory
  split
  · exact h
  · exact h.put hp .directory

theorem IsNamed.addDirectories {names : List String} {start : Place} (h : IsNamed d)
    (hp : Place.IsNamed (start ++ names)) : IsNamed (d.addDirectories start names) := by
  have hstart : Place.IsNamed start := fun name hname => hp name (List.mem_append_left _ hname)
  induction names generalizing d start with
  | nil => exact h.addDirectory hstart
  | cons name rest ih =>
    have hlonger : Place.IsNamed (start ++ [name] ++ rest) := by
      rw [List.append_assoc]
      exact hp
    exact ih (h.addDirectory hstart) hlonger
      fun part hpart => hlonger part (List.mem_append_left _ hpart)

theorem IsNamed.buildDirectory (h : IsNamed d) (hp : Place.IsNamed p) :
    IsNamed (d.buildDirectory p) :=
  h.addDirectories hp

theorem IsNamed.build (h : IsNamed d) (hp : Place.IsNamed p) (n : Node) :
    IsNamed (d.build p n) :=
  (h.addDirectories hp.dropLast).put hp n

theorem IsNamed.foldl {α : Type} (change : Disk → α → Disk) {as : List α} (h : IsNamed d)
    (hchange : ∀ a ∈ as, ∀ {d : Disk}, IsNamed d → IsNamed (change d a)) :
    IsNamed (as.foldl change d) := by
  induction as generalizing d with
  | nil => exact h
  | cons a as ih =>
    exact ih (hchange a List.mem_cons_self h) fun b hb => hchange b (List.mem_cons_of_mem a hb)

theorem mem_children {name : String} : name ∈ d.children p ↔ ∃ n, (p ++ [name], n) ∈ d := by
  unfold children
  rw [List.mem_filterMap]
  constructor
  · rintro ⟨⟨q, n⟩, he, hchild⟩
    cases hlast : q.getLast? with
    | none =>
      simp only [hlast] at hchild
      exact nomatch hchild
    | some last =>
      simp only [hlast] at hchild
      split at hchild
      · next hparent =>
        obtain rfl := Option.some.inj hchild
        have hq : p ++ [last] = q := by
          rw [← hparent]
          exact List.dropLast_append_getLast? last hlast
        exact ⟨n, hq ▸ he⟩
      · exact nomatch hchild
  · rintro ⟨n, he⟩
    refine ⟨_, he, ?_⟩
    simp

theorem isSome_find? {q : Place} : (d.find? q).isSome ↔ ∃ n, (q, n) ∈ d := by
  induction d with
  | nil => simp [find?]
  | cons e d ih =>
    obtain ⟨q', n⟩ := e
    unfold find?
    split
    · next hq => simp [hq]
    · next hq => simp [ih, Ne.symm hq]

/-- The children of a place are the names under which there is something. -/
theorem mem_children_iff_get? {name : String} :
    name ∈ d.children p ↔ (d.get? (p ++ [name])).isSome := by
  unfold get?
  rw [if_neg (by simp), isSome_find?]
  exact mem_children

/-- What is directly below a place has such a name. -/
theorem IsNamed.child (h : IsNamed d) {name : String} (hname : name ∈ d.children p) :
    IsFileName name := by
  obtain ⟨n, he⟩ := mem_children.1 hname
  exact h _ he name (List.mem_append_right p (List.mem_singleton.2 rfl))

end Disk

/-! ## Machines -/

/-- A process makes files and directories only under names that they can have. -/
structure Outcome.IsNamed (o : Outcome) : Prop where
  files : ∀ f ∈ o.files, Place.IsNamed f.1
  directories : ∀ place ∈ o.directories, Place.IsNamed place

/-- All names on the disk of a machine and all that its processes make are such as files and
directories have. -/
structure IsNamed (m : Machine) : Prop where
  disk : m.disk.IsNamed
  outcomes : ∀ o ∈ m.outcomes, o.IsNamed

theorem Outcome.IsNamed.apply {o : Outcome} (h : o.IsNamed) {m : Machine} (hm : m.IsNamed) :
    (o.apply m).IsNamed where
  disk := by
    have hfiles := hm.disk.foldl (fun d f => d.build f.1 (.file f.2))
      fun f hf _ hd => hd.build (h.files f hf) (.file f.2)
    have hdirectories := hfiles.foldl Disk.buildDirectory
      fun place hplace _ hd => hd.buildDirectory (h.directories place hplace)
    exact hdirectories.foldl Disk.remove fun place _ _ hd => hd.remove place
  outcomes := hm.outcomes

theorem IsNamed.started {m : Machine} (h : m.IsNamed) (l : Launch) : (m.started l).IsNamed := by
  have hnext : (m.outcomes.headD {}).IsNamed := by
    cases ho : m.outcomes with
    | nil => exact ⟨fun f hf => absurd hf List.not_mem_nil, fun p hp => absurd hp List.not_mem_nil⟩
    | cons o os => exact h.outcomes o (by rw [ho]; exact List.mem_cons_self)
  exact hnext.apply ⟨h.disk, fun o ho => h.outcomes o (List.mem_of_mem_tail ho)⟩

end Machine

/-! ## Listings -/

namespace Listing

theorem name_of_mem_entriesFor {m : Machine} {directory : Path} {names : List String}
    {es : List Entry} {e : Entry} (h : entriesFor m directory names = .ok es) (he : e ∈ es) :
    e.name ∈ names := by
  induction names generalizing es with
  | nil =>
    obtain rfl := Except.ok.inj h
    exact absurd he List.not_mem_nil
  | cons name rest ih =>
    rw [entriesFor] at h
    split at h
    · split at h
      · exact List.mem_cons_of_mem name (ih h he)
      · exact nomatch h
    · exact nomatch h
    · split at h
      · next es' hes =>
        obtain rfl := Except.ok.inj h
        rcases List.mem_cons.1 he with rfl | he
        · exact List.mem_cons_self
        · exact List.mem_cons_of_mem name (ih hes he)
      · exact nomatch h

/-- The entries of a listing are those that were looked at, under their names. -/
theorem mem_ofEntries {es : List Entry} {key : String} {e : Entry} (h : (key, e) ∈ ofEntries es) :
    key = e.name ∧ e ∈ es := by
  obtain ⟨e', he', heq⟩ := List.mem_map.1 (Record.mem_of_mem_ofList h)
  obtain ⟨rfl, rfl⟩ := Prod.mk.inj heq
  exact ⟨rfl, he'⟩

theorem of_eq_ok {m : Machine} {directory : String} {l : Listing}
    (h : Listing.of m directory = .ok l) :
    ∃ names es, m.listDirectory (Path.ofText directory).text = .ok names ∧
      entriesFor m (Path.ofText directory) (names.mergeSort (· ≤ ·)) = .ok es ∧
      l = ofEntries es := by
  unfold Listing.of at h
  dsimp only at h
  split at h
  · exact nomatch h
  · next names hnames =>
    cases hentries : entriesFor m (Path.ofText directory) (names.mergeSort (· ≤ ·)) with
    | error failure => simp [hentries, Except.map] at h
    | ok es =>
      rw [hentries] at h
      exact ⟨names, es, hnames, hentries, (Except.ok.inj h).symm⟩

/-- What is listed is directly below a place. -/
theorem listDirectory_eq_ok {m : Machine} {path : String} {names : List String}
    (h : m.listDirectory path = .ok names) :
    ∃ place, Machine.Reaches m .listDirectory path place (some .directory) ∧
      names = m.disk.children place := by
  unfold Machine.listDirectory at h
  split at h
  · exact nomatch h
  · exact nomatch h
  · exact nomatch h
  · next place hlook => exact ⟨place, Machine.lookUp_eq_ok.1 hlook, (Except.ok.inj h).symm⟩

/-- Only what is in a directory is listed. -/
theorem isFileName_of_listed {m : Machine} (hm : m.IsNamed) {directory : String} {l : Listing}
    (h : Listing.of m directory = .ok l) {e : Entry} (he : e ∈ l.values) : IsFileName e.name := by
  obtain ⟨names, es, hnames, hentries, rfl⟩ := of_eq_ok h
  obtain ⟨place, -, rfl⟩ := listDirectory_eq_ok hnames
  obtain ⟨⟨key, e⟩, hmem, rfl⟩ := List.mem_map.1 he
  have hname := name_of_mem_entriesFor hentries (mem_ofEntries hmem).2
  exact hm.disk.child (List.mem_mergeSort.1 hname)

theorem isFileName_of_created {m : Machine} (hm : m.IsNamed) {directory : String}
    {before after : Listing} (h : Listing.of m directory = .ok after) {e : Entry}
    (he : e ∈ created before after) : IsFileName e.name :=
  isFileName_of_listed hm h (List.mem_of_mem_filter he)

end Listing

end Workbench
