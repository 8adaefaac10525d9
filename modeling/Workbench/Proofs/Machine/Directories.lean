import Workbench.Proofs.Action
import Workbench.Proofs.Machine.LookUp

/-!
# Directories that are there

Making a directory that is there changes nothing.

* `walk_mono` : a path that leads somewhere still does when there are more directories;
* `Stands m path place` : there is a directory at a path, and it can be asked to be made;
* `exists_stands` : a directory stands after it was made;
* `makeDirectories_of_stands` : where it stands it can be made again;
* `Stands.put` : it stands when a file is written;
* `AddsDirectories m m'`, `addsDirectories_makeDirectories` : however the making of directories ends,
  nothing else is different on the machine.
-/

namespace Workbench.Machine

/-! ## Paths and directories -/

/-- A path that leads somewhere leads there on every disk that has the same directories. -/
theorem walk_mono {d d' : Disk} {start place : Place} {names : List String}
    (hsame : ∀ q, d.get? q = some .directory → d'.get? q = some .directory)
    (h : walk d start names = .ok place) : walk d' start names = .ok place := by
  induction names generalizing start with
  | nil => exact h
  | cons name rest ih =>
    unfold walk at h ⊢
    cases hnode : d.get? start with
    | none =>
      rw [hnode] at h
      cases h
    | some node =>
      rw [hnode] at h
      cases node with
      | file c => cases h
      | directory =>
        rw [hsame start hnode]
        dsimp only at h ⊢
        split
        · next hlong =>
          rw [if_pos hlong] at h
          cases h
        · next hlong =>
          rw [if_neg hlong] at h
          exact ih h

theorem placeOf_mono {m m' : Machine} {path : String} {place : Place}
    (hdirectory : m'.directory = m.directory)
    (hsame : ∀ q, m.disk.get? q = some .directory → m'.disk.get? q = some .directory)
    (h : m.placeOf path = .ok place) : m'.placeOf path = .ok place := by
  unfold placeOf at h ⊢
  split
  · next hempty =>
    rw [if_pos hempty] at h
    exact nomatch h
  · next hempty =>
    rw [if_neg hempty] at h
    split
    · next hlong =>
      rw [if_pos hlong] at h
      exact nomatch h
    · next hlong =>
      rw [if_neg hlong] at h
      rw [hdirectory]
      exact walk_mono hsame h

/-- What is put where no directory is leaves the directories as they are. -/
theorem directory_put {m : Machine} {place q : Place} {n : Node}
    (hplace : m.disk.get? place ≠ some .directory) (h : m.disk.get? q = some .directory) :
    (m.put place n).disk.get? q = some .directory := by
  show (m.disk.put place n).get? q = _
  have hne : place ≠ q := fun he => hplace (he ▸ h)
  rw [Disk.get?_put, if_neg fun he => hne he.1, h]

theorem placeOf_put {m : Machine} {place r : Place} {n : Node} {path : String}
    (hplace : m.disk.get? place ≠ some .directory) (h : m.placeOf path = .ok r) :
    (m.put place n).placeOf path = .ok r :=
  placeOf_mono (m := m) rfl (fun _ hq => directory_put hplace hq) h

theorem refusal?_put (m : Machine) (place : Place) (n : Node) (call : Call) (q : Place) :
    (m.put place n).refusal? call q = m.refusal? call q := rfl

/-! ## Directories that stand -/

/-- There is a directory at a path, and asking for it to be made does not fail as it does where
something on the way is missing. -/
structure Stands (m : Machine) (path : String) (place : Place) : Prop where
  leads : m.placeOf path = .ok place
  there : m.disk.get? place = some .directory
  noNull : '\x00' ∉ path.toList
  notMissing : m.refusal? .makeDirectory place ≠ some .missing

theorem Stands.put {m : Machine} {path : String} {place q : Place} (h : Stands m path place)
    (hq : m.disk.get? q ≠ some .directory) (n : Node) : Stands (m.put q n) path place where
  leads := placeOf_put hq h.leads
  there := directory_put hq h.there
  noNull := h.noNull
  notMissing := h.notMissing

theorem isDirectory_of_stands {m : Machine} {path : String} {place : Place}
    (h : Stands m path place) (hstat : m.refusal? .stat place = none) :
    m.isDirectory path = .ok true := by
  unfold isDirectory existing? stat
  rw [lookUp_of_noNull h.noNull, lookUpNode_of_ok h.leads hstat, h.there]
  rfl

/-- Making a directory that stands fails, but not because something is missing. -/
theorem makeDirectory_of_stands {m : Machine} {path : String} {place : Place}
    (h : Stands m path place) :
    ∃ fault, fault ≠ .missing ∧ makeDirectory path m = (failAt path fault, m) := by
  unfold makeDirectory
  rw [lookUp_of_noNull h.noNull]
  cases hrefused : m.refusal? .makeDirectory place with
  | some f =>
    refine ⟨f, fun hf => h.notMissing (hf ▸ hrefused), ?_⟩
    rw [lookUpNode_of_refusal h.leads hrefused]
    rfl
  | none =>
    refine ⟨.alreadyThere, by decide, ?_⟩
    rw [lookUpNode_of_ok h.leads hrefused, h.there]
    rfl

theorem ensureDirectory_of_stands {m : Machine} {path : String} {place : Place}
    (h : Stands m path place) (hstat : m.refusal? .stat place = none) :
    ensureDirectory path m = (.ok (), m) := by
  obtain ⟨fault, hfault, hmade⟩ := makeDirectory_of_stands h
  unfold ensureDirectory
  rw [hmade]
  show (if fault = .missing then _ else _) = _
  rw [if_neg hfault, isDirectory_of_stands h hstat]

/-- Where a directory stands it can be made again. -/
theorem makeDirectories_of_stands {m : Machine} {p : Path} {place : Place}
    (h : Stands m p.text place) (hstat : m.refusal? .stat place = none) :
    makeDirectories p m = (.ok (), m) := by
  have hensured := ensureDirectory_of_stands h hstat
  have hpath : Path.mk p.root p.parts = p := rfl
  unfold makeDirectories
  cases hparts : p.parts.reverse with
  | nil =>
    have hnil : p.parts = [] := List.reverse_eq_nil_iff.1 hparts
    rw [ensureDirectoriesTo, ← hnil, hpath, hensured]
  | cons name above =>
    unfold ensureDirectoriesTo
    rw [← hparts, List.reverse_reverse, hpath]
    dsimp only
    rw [hensured]

/-! ## Directories that were made -/

theorem exists_reaches_of_isDirectory {m : Machine} {path : String}
    (h : m.isDirectory path = .ok true) :
    ∃ place, Reaches m .stat path place (some .directory) := by
  cases hlook : m.lookUp .stat path with
  | error e =>
    unfold isDirectory existing? stat at h
    rw [hlook] at h
    cases e with
    | os e =>
      dsimp only at h
      split at h <;> exact nomatch h
    | _ => exact nomatch h
  | ok r =>
    obtain ⟨place, node⟩ := r
    unfold isDirectory existing? stat at h
    rw [hlook] at h
    refine ⟨place, ?_⟩
    have hreaches := lookUp_eq_ok.1 hlook
    cases node with
    | none => exact nomatch h
    | some node =>
      cases node with
      | file c => exact nomatch h
      | directory => exact hreaches

theorem stands_of_isDirectory {m : Machine} {path : String} (h : m.isDirectory path = .ok true)
    {e : OsError} (he : e.fault ≠ .missing) (hmade : makeDirectory path m = (.error (.os e), m)) :
    ∃ place, Stands m path place := by
  obtain ⟨place, hreaches⟩ := exists_reaches_of_isDirectory h
  refine ⟨place, hreaches.leads, hreaches.there, hreaches.noNull, fun hmissing => he ?_⟩
  unfold makeDirectory at hmade
  rw [lookUp_of_noNull hreaches.noNull, lookUpNode_of_refusal hreaches.leads hmissing] at hmade
  obtain rfl := Failure.os.inj (Except.error.inj (Prod.mk.inj hmade).1)
  rfl

/-- A directory is made where nothing was, or nothing happens. -/
theorem makeDirectory_cases (m : Machine) (path : String) :
    (∃ place, Reaches m .makeDirectory path place none ∧
      makeDirectory path m = (.ok (), m.put place .directory)) ∨
    ∃ e, makeDirectory path m = (.error e, m) := by
  unfold makeDirectory
  cases hlook : m.lookUp .makeDirectory path with
  | error e => exact Or.inr ⟨e, rfl⟩
  | ok r =>
    obtain ⟨place, node⟩ := r
    cases node with
    | some node => exact Or.inr ⟨_, rfl⟩
    | none =>
      dsimp only
      cases m.disk.get? place.dropLast with
      | none => exact Or.inr ⟨_, rfl⟩
      | some above => exact Or.inl ⟨place, lookUp_eq_ok.1 hlook, rfl⟩

theorem exists_stands_of_ensureDirectory {m m' : Machine} {path : String}
    (h : ensureDirectory path m = (.ok (), m')) : ∃ place, Stands m' path place := by
  rcases makeDirectory_cases m path with ⟨place, hreaches, hmade⟩ | ⟨e, hmade⟩
  · have hplace : m.disk.get? place ≠ some .directory := by
      rw [hreaches.there]
      exact nofun
    have hne : place ≠ [] := fun hnil => hplace (hnil ▸ Disk.get?_nil m.disk)
    unfold ensureDirectory at h
    rw [hmade] at h
    obtain ⟨-, rfl⟩ := Prod.mk.inj h
    refine ⟨place, placeOf_put hplace hreaches.leads, ?_, hreaches.noNull, ?_⟩
    · show (m.disk.put place .directory).get? place = _
      rw [Disk.get?_put, if_pos ⟨rfl, hne⟩]
    · rw [refusal?_put, hreaches.granted]
      exact nofun
  · unfold ensureDirectory at h
    rw [hmade] at h
    cases e with
    | os e =>
      dsimp only at h
      split at h
      · exact nomatch (Prod.mk.inj h).1
      · next hmissing =>
        split at h
        · exact nomatch (Prod.mk.inj h).1
        · next hdirectory =>
          obtain ⟨-, rfl⟩ := Prod.mk.inj h
          exact stands_of_isDirectory hdirectory hmissing hmade
        · exact nomatch (Prod.mk.inj h).1
    | _ => exact nomatch (Prod.mk.inj h).1

/-- A directory stands after it was made. -/
theorem exists_stands {m m' : Machine} {p : Path} (h : makeDirectories p m = (.ok (), m')) :
    ∃ place, Stands m' p.text place := by
  -- The last thing that is done is to make the directory itself.
  suffices hlast : ∃ m₀, ensureDirectory p.text m₀ = (.ok (), m') by
    obtain ⟨m₀, hm₀⟩ := hlast
    exact exists_stands_of_ensureDirectory hm₀
  have hpath : Path.mk p.root p.parts = p := rfl
  unfold makeDirectories at h
  cases hparts : p.parts.reverse with
  | nil =>
    have hnil : p.parts = [] := List.reverse_eq_nil_iff.1 hparts
    rw [hparts, ensureDirectoriesTo, ← hnil, hpath] at h
    exact ⟨m, h⟩
  | cons name above =>
    rw [hparts] at h
    unfold ensureDirectoriesTo at h
    rw [← hparts, List.reverse_reverse, hpath] at h
    dsimp only at h
    split at h
    · next e m₁ hfirst =>
      split at h
      · split at h
        · next u m₂ habove => exact ⟨m₂, h⟩
        · next habove => exact absurd h (habove () m')
      · exact nomatch (Prod.mk.inj h).1
    · exact ⟨m, h⟩

/-! ## What else is different -/

/-- Nothing is different on the machine but directories where nothing was. -/
structure AddsDirectories (m m' : Machine) : Prop where
  disk_only : m' = { m with disk := m'.disk }
  get? : ∀ q, m'.disk.get? q = m.disk.get? q ∨
    m.disk.get? q = none ∧ m'.disk.get? q = some .directory

theorem AddsDirectories.refl (m : Machine) : AddsDirectories m m := ⟨rfl, fun _ => .inl rfl⟩

theorem AddsDirectories.trans {m m' m'' : Machine} (h : AddsDirectories m m')
    (h' : AddsDirectories m' m'') : AddsDirectories m m'' where
  disk_only := by rw [h'.disk_only, h.disk_only]
  get? q := by
    rcases h'.get? q with hsame | ⟨hnone, hadded⟩
    · rw [hsame]
      exact h.get? q
    · rcases h.get? q with hsame | ⟨_, hadded'⟩
      · exact .inr ⟨hsame ▸ hnone, hadded⟩
      · exact nomatch hnone.symm.trans hadded'

theorem addsDirectories_put {m : Machine} {place : Place} (h : m.disk.get? place = none) :
    AddsDirectories m (m.put place .directory) where
  disk_only := rfl
  get? q := by
    have hput := Disk.get?_put m.disk place q .directory
    by_cases hq : place = q ∧ place ≠ []
    · exact .inr ⟨hq.1 ▸ h, hput.trans (if_pos hq)⟩
    · exact .inl (hput.trans (if_neg hq))

theorem addsDirectories_makeDirectory (path : String) :
    Action.Ensures AddsDirectories (makeDirectory path) := by
  intro m
  rcases makeDirectory_cases m path with ⟨place, hreaches, hmade⟩ | ⟨e, hmade⟩
  · rw [hmade]
    exact addsDirectories_put hreaches.there
  · rw [hmade]
    exact .refl m

theorem addsDirectories_ensureDirectory (path : String) :
    Action.Ensures AddsDirectories (ensureDirectory path) := by
  intro m
  have hmade := addsDirectories_makeDirectory path m
  unfold ensureDirectory
  split
  · next e m' heq =>
    rw [heq] at hmade
    split
    · exact hmade
    · split <;> exact hmade
  · exact hmade

/-- Induction on the names, of which the last is tried first. -/
theorem addsDirectories_ensureDirectoriesTo (root : Root) (names : List String) :
    Action.Ensures AddsDirectories (ensureDirectoriesTo root names) := by
  induction names with
  | nil => exact addsDirectories_ensureDirectory _
  | cons name above ih =>
    intro m
    have hfirst := addsDirectories_ensureDirectory
      (Path.mk root (name :: above).reverse).text m
    unfold ensureDirectoriesTo
    dsimp only
    split
    · next e m₁ heq =>
      rw [heq] at hfirst
      split
      · have habove := hfirst.trans (ih m₁)
        split
        · next u m₂ heq =>
          rw [heq] at habove
          exact habove.trans (addsDirectories_ensureDirectory _ m₂)
        · exact habove
      · exact hfirst
    · exact hfirst

/-- However the making of directories ends, nothing else is different on the machine. -/
theorem addsDirectories_makeDirectories (p : Path) :
    Action.Ensures AddsDirectories (makeDirectories p) :=
  addsDirectories_ensureDirectoriesTo p.root p.parts.reverse

end Workbench.Machine
