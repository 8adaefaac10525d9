import Workbench.Proofs.Machine.LookUp

/-!
# Disks that differ at one file

Writing a file changes a disk at one place. What else happens on the disk goes on as it would have
without the file.

* `Disk.WithFile p d d'` : the disk `d'` is like `d`, but there may be a file at the place `p`;
* `withFile_apply` : a process leaves such disks such;
* `walk_withFile` : paths lead to the same places, as long as `p` is no directory;
* `pathExists_withDisk` : what exists goes on existing, and what can be asked for still can;
* `strayFault_withFile` : names that are no texts lead nowhere on either disk;
* `pathExists_put_iff` : what comes to exist when a file is made.
-/

namespace Workbench.Machine

namespace Disk

/-- The second disk is like the first one, but there may be a file at a place. -/
structure WithFile (p : Place) (d d' : Disk) : Prop where
  others : ∀ q, q ≠ p → d'.get? q = d.get? q
  there : d'.get? p = d.get? p ∨ ∃ c, d'.get? p = some (.file c)

variable {p : Place} {d d' d'' : Disk}

theorem WithFile.refl (p : Place) (d : Disk) : WithFile p d d := ⟨fun _ _ => rfl, Or.inl rfl⟩

theorem WithFile.trans (h : WithFile p d d') (h' : WithFile p d' d'') : WithFile p d d'' where
  others := fun q hq => (h'.others q hq).trans (h.others q hq)
  there := by
    rcases h'.there with h' | h'
    · rw [h']
      exact h.there
    · exact Or.inr h'

theorem withFile_put (hp : p ≠ []) (d : Disk) (c : Content) : WithFile p d (d.put p (.file c)) where
  others := fun q hq => by rw [get?_put, if_neg fun h => hq h.1.symm]
  there := Or.inr ⟨c, by rw [get?_put, if_pos ⟨rfl, hp⟩]⟩

/-! ## Changes of both disks -/

theorem WithFile.put (h : WithFile p d d') (q : Place) (n : Node) :
    WithFile p (d.put q n) (d'.put q n) where
  others := fun r hr => by rw [get?_put, get?_put, h.others r hr]
  there := by
    rw [get?_put, get?_put]
    split
    · exact Or.inl rfl
    · exact h.there

theorem WithFile.remove (h : WithFile p d d') (q : Place) :
    WithFile p (d.remove q) (d'.remove q) := by
  have hget : ∀ {e : Disk} (r : Place), (e.remove q).get? r =
      if r = [] then some .directory else if q.isPrefixOf r then none else e.get? r := by
    intro e r
    by_cases hr : r = []
    · rw [if_pos hr, hr]
      rfl
    · rw [if_neg hr, get?_remove e q r hr]
  constructor
  · intro r hr
    rw [hget, hget, h.others r hr]
  · rw [hget, hget]
    split
    · exact Or.inl rfl
    · split
      · exact Or.inl rfl
      · exact h.there

theorem WithFile.addDirectory (h : WithFile p d d') (q : Place) :
    WithFile p (d.addDirectory q) (d'.addDirectory q) := by
  unfold Disk.addDirectory
  by_cases hsame : d'.get? q = d.get? q
  · rw [hsame]
    split
    · exact h
    · exact h.put q .directory
  · -- Only the first disk may lack something at `q`, which then is the place of the file.
    have hq : q = p := Classical.byContradiction fun hq => hsame (h.others q hq)
    subst hq
    obtain ⟨c, hc⟩ := h.there.resolve_left hsame
    have hsome : (d'.get? q).isSome = true := by rw [hc]; rfl
    rw [if_pos hsome]
    split
    · exact h
    · constructor
      · intro r hr
        rw [get?_put, if_neg fun he => hr he.1.symm, h.others r hr]
      · exact Or.inr ⟨c, hc⟩

theorem WithFile.addDirectories (h : WithFile p d d') (start : Place) (names : List String) :
    WithFile p (d.addDirectories start names) (d'.addDirectories start names) := by
  induction names generalizing d d' start with
  | nil => exact h.addDirectory start
  | cons name rest ih => exact ih (h.addDirectory start) (start ++ [name])

theorem WithFile.foldl {α : Type} {change : Disk → α → Disk}
    (hchange : ∀ {d d' : Disk} (a : α), WithFile p d d' → WithFile p (change d a) (change d' a))
    (as : List α) (h : WithFile p d d') : WithFile p (as.foldl change d) (as.foldl change d') := by
  induction as generalizing d d' with
  | nil => exact h
  | cons a as ih => exact ih (hchange a h)

end Disk

open Disk (WithFile)

/-- A process does the same to both disks. -/
theorem withFile_apply {p : Place} {m m' : Machine} (h : WithFile p m.disk m'.disk) (o : Outcome) :
    WithFile p (o.apply m).disk (o.apply m').disk := by
  have hfiles := h.foldl (fun (a : Place × Content) h =>
    (h.addDirectories [] a.1.dropLast).put a.1 (.file a.2)) o.files
  have hdirectories := hfiles.foldl (fun (a : Place) h => h.addDirectories [] a) o.directories
  exact hdirectories.foldl (fun (a : Place) h => h.remove a) o.removals

/-! ## Looking up paths -/

section Walk
variable {p : Place} {d d' : Disk}

/-- A path leads to the same place on both disks. If it would lead through the file, it leads
nowhere on either. -/
theorem walk_withFile (h : WithFile p d d') (hp : d.get? p ≠ some .directory) (place : Place)
    (names : List String) :
    walk d' place names = walk d place names ∨
      walk d place names = .error .missing ∧ walk d' place names = .error .notDirectory := by
  induction names generalizing place with
  | nil => exact Or.inl rfl
  | cons name rest ih =>
    by_cases hsame : d'.get? place = d.get? place
    · simp only [walk, hsame]
      cases hget : d.get? place with
      | none => exact Or.inl rfl
      | some n =>
        cases n with
        | file c => exact Or.inl rfl
        | directory =>
          dsimp only
          split
          · exact Or.inl rfl
          · exact ih _
    · have hplace : place = p := Classical.byContradiction fun hne => hsame (h.others place hne)
      subst hplace
      obtain ⟨c, hc⟩ := h.there.resolve_left hsame
      simp only [walk, hc]
      cases hget : d.get? place with
      | none => exact Or.inr ⟨rfl, trivial⟩
      | some n =>
        cases n with
        | file c' => exact Or.inl rfl
        | directory => exact absurd hget hp

theorem answer_withFile (h : WithFile p d d') (hp : d.get? p ≠ some .directory) {path : String}
    {place : Place} {found : Bool}
    (hfound : answer path (arrival path place (d.get? place)) = .ok found) :
    ∃ found', answer path (arrival path place (d'.get? place)) = .ok found' ∧
      (found = true → found' = true) := by
  by_cases hsame : d'.get? place = d.get? place
  · rw [hsame]
    exact ⟨found, hfound, id⟩
  · -- The second disk has a file here. The first one has none or another one, with the same answer.
    have hplace : place = p := Classical.byContradiction fun hne => hsame (h.others place hne)
    subst hplace
    obtain ⟨c, hc⟩ := h.there.resolve_left hsame
    rw [hc, answer_arrival_file]
    cases hget : d.get? place with
    | none =>
      rw [hget] at hfound
      obtain rfl := Except.ok.inj hfound
      exact ⟨_, rfl, fun h => nomatch h⟩
    | some n =>
      cases n with
      | file c' =>
        rw [hget, answer_arrival_file] at hfound
        exact ⟨found, hfound, id⟩
      | directory => exact absurd hget hp

/-- Names that are no texts lead nowhere on either disk. -/
theorem strayFault_withFile (h : WithFile p d d') (hp : d.get? p ≠ some .directory) (place : Place)
    (names : List String) :
    strayFault d' place names = strayFault d place names ∨
      strayFault d place names = .missing ∧ strayFault d' place names = .notDirectory := by
  induction names generalizing place with
  | nil => exact Or.inl rfl
  | cons name rest ih =>
    by_cases hsame : d'.get? place = d.get? place
    · simp only [strayFault, hsame]
      cases hget : d.get? place with
      | none => exact Or.inl rfl
      | some n =>
        cases n with
        | file c => exact Or.inl rfl
        | directory =>
          dsimp only
          split
          · exact Or.inl rfl
          · cases textOfBytes? name with
            | none => exact Or.inl rfl
            | some t => exact ih _
    · have hplace : place = p := Classical.byContradiction fun hne => hsame (h.others place hne)
      subst hplace
      obtain ⟨c, hc⟩ := h.there.resolve_left hsame
      simp only [strayFault, hc]
      cases hget : d.get? place with
      | none => exact Or.inr ⟨rfl, trivial⟩
      | some n =>
        cases n with
        | file c' => exact Or.inl rfl
        | directory => exact absurd hget hp

end Walk

/-- The machine with another disk. -/
def withDisk (m : Machine) (d : Disk) : Machine := { m with disk := d }

variable {p : Place} {m : Machine} {d : Disk}

theorem placeOf_withDisk (h : WithFile p m.disk d) (hp : m.disk.get? p ≠ some .directory)
    (path : String) :
    (m.withDisk d).placeOf path = m.placeOf path ∨
      m.placeOf path = .error .missing ∧ (m.withDisk d).placeOf path = .error .notDirectory := by
  unfold placeOf
  split
  · exact Or.inl rfl
  · split
    · exact Or.inl rfl
    · exact walk_withFile h hp _ _

/-- What exists goes on existing, and what can be asked for still can. -/
theorem pathExists_withDisk (h : WithFile p m.disk d) (hp : m.disk.get? p ≠ some .directory)
    {path : String} {found : Bool} (hfound : m.pathExists path = .ok found) :
    ∃ found', (m.withDisk d).pathExists path = .ok found' ∧ (found = true → found' = true) := by
  by_cases hnull : '\x00' ∈ path.toList
  · rw [pathExists_of_null hnull] at hfound
    obtain rfl := Except.ok.inj hfound
    exact ⟨false, pathExists_of_null hnull, id⟩
  rw [pathExists_of_lookUpNode hnull] at hfound ⊢
  rcases placeOf_withDisk h hp path with hplace | ⟨hmissing, hnotDirectory⟩
  · cases hm : m.placeOf path with
    | error f =>
      rw [hm] at hplace
      rw [lookUpNode_of_error hm] at hfound
      rw [lookUpNode_of_error hplace]
      exact ⟨found, hfound, id⟩
    | ok place =>
      rw [hm] at hplace
      cases hf : m.refusal? .stat place with
      | some f =>
        rw [lookUpNode_of_refusal hm hf] at hfound
        rw [lookUpNode_of_refusal hplace hf]
        exact ⟨found, hfound, id⟩
      | none =>
        rw [lookUpNode_of_ok hm hf] at hfound
        rw [lookUpNode_of_ok hplace hf]
        exact answer_withFile h hp hfound
  · rw [lookUpNode_of_error hmissing] at hfound
    rw [lookUpNode_of_error hnotDirectory]
    obtain rfl := Except.ok.inj hfound
    exact ⟨false, rfl, id⟩

/-! ## A file that is made -/

/-- A path leads to where a file can be, and there is nothing yet. -/
structure LeadsToNothing (m : Machine) (path : String) (place : Place) : Prop where
  leads : m.placeOf path = .ok place
  noNull : '\x00' ∉ path.toList
  noSlash : path.endsWith "/" = false
  granted : m.refusal? .stat place = none
  absent : m.disk.get? place = none

theorem LeadsToNothing.pathExists {m : Machine} {path : String} {place : Place}
    (h : LeadsToNothing m path place) : m.pathExists path = .ok false := by
  rw [pathExists_of_lookUpNode h.noNull, lookUpNode_of_ok h.leads h.granted, h.absent]
  rfl

/-- With a file there, nothing comes to exist but what led to its place. -/
theorem pathExists_put_iff {m : Machine} {place : Place} {c : Content} {path : String}
    (hplace : place ≠ []) (hdirectory : m.disk.get? place ≠ some .directory)
    (hbefore : m.pathExists path = .ok false) :
    (m.withDisk (m.disk.put place (.file c))).pathExists path = .ok true ↔
      LeadsToNothing m path place := by
  have hput : Disk.WithFile place m.disk (m.disk.put place (.file c)) :=
    Disk.withFile_put hplace m.disk c
  have hfile : (m.disk.put place (.file c)).get? place = some (.file c) := by
    rw [Disk.get?_put, if_pos ⟨rfl, hplace⟩]
  by_cases hnull : '\x00' ∈ path.toList
  · rw [pathExists_of_null hnull]
    exact ⟨fun h => (nomatch h), fun h => absurd hnull h.noNull⟩
  rw [pathExists_of_lookUpNode hnull] at hbefore ⊢
  rcases placeOf_withDisk hput hdirectory path with hsame | ⟨hmissing, hnotDirectory⟩
  · cases hm : m.placeOf path with
    | error f =>
      rw [lookUpNode_of_error hm] at hbefore
      rw [lookUpNode_of_error (hsame.trans hm), hbefore]
      exact ⟨fun h => (nomatch h), fun h => (nomatch h.leads.symm.trans hm)⟩
    | ok q =>
      cases hf : m.refusal? .stat q with
      | some f =>
        rw [lookUpNode_of_refusal hm hf] at hbefore
        rw [lookUpNode_of_refusal (hsame.trans hm) hf, hbefore]
        refine ⟨fun h => (nomatch h), fun h => ?_⟩
        obtain rfl := Except.ok.inj (hm.symm.trans h.leads)
        exact nomatch hf.symm.trans h.granted
      | none =>
        rw [lookUpNode_of_ok hm hf] at hbefore
        rw [lookUpNode_of_ok (hsame.trans hm) hf]
        show answer path (arrival path q ((m.disk.put place (.file c)).get? q)) = _ ↔ _
        by_cases hq : q = place
        · subst hq
          rw [hfile, answer_arrival_file]
          constructor
          · intro hslash
            have hslash : path.endsWith "/" = false := by simpa using Except.ok.inj hslash
            refine ⟨hm, hnull, hslash, hf, ?_⟩
            cases hget : m.disk.get? q with
            | none => rfl
            | some n =>
              cases n with
              | directory => exact absurd hget hdirectory
              | file c' =>
                rw [hget, answer_arrival_file, hslash] at hbefore
                exact nomatch hbefore
          · intro h
            rw [h.noSlash]
            rfl
        · rw [hput.others q hq, hbefore]
          refine ⟨fun h => (nomatch h), fun h => ?_⟩
          exact absurd (Except.ok.inj (hm.symm.trans h.leads)) hq
  · rw [lookUpNode_of_error hnotDirectory]
    exact ⟨fun h => (nomatch h), fun h => (nomatch h.leads.symm.trans hmissing)⟩

end Workbench.Machine
