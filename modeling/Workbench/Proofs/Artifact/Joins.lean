import Workbench.Proofs.Artifact.Defaults

/-!
# The default candidates as joins

The default templates put a slash between a directory and a name. The text of a root ends with a
slash already, and with one more slash it begins another root.

* `defaultJoins p` : what is taken from the directories of a source, name by name;
* `defaultJoins_eq` : the joins are at the places of the default templates, in their order;
* `path_under` : a candidate is the join or, behind a root, the join at the other root;
* `joined_defaults` : how the default candidates differ from the joins, and when they do not.
-/

namespace Workbench.Artifact

/-- The paths beside a source and in the directories above it, each taken from its directory. -/
def defaultJoins (p : Path) : List Path :=
  let base := p.stem
  let directory := p.parent
  [directory / Path.ofText (base ++ ".exe"), directory / Path.ofText base,
    directory / Path.ofText (base ++ ".out"), directory / Path.ofText "a.out",
    directory / Path.ofText "a.exe", directory / Path.ofText "output.exe",
    directory / Path.ofText "out.exe", directory.parent / Path.ofText (base ++ ".exe"),
    directory.parent / Path.ofText "output" / Path.ofText (base ++ ".exe"),
    directory.parent / Path.ofText base, directory.parent.parent / Path.ofText (base ++ ".exe")]

/-- The join `q` as it is read behind the text of its directory. -/
def behind (directory q : Path) : Path :=
  if directory.parts = [] then { q with root := Path.slashed q.root } else q

theorem path_under {d : Path} (hd : d.Descends) {rest : String}
    (hrest : (Path.ofText rest).root = .here) :
    under d rest = { path := behind d (d / Path.ofText rest) } := by
  have hroot : (d / Path.ofText rest).root = d.root := by rw [Path.div_of_here d hrest]
  unfold under behind
  rw [Path.ofText_behind hd hrest, hroot]
  split
  · rfl
  · rw [← hroot]

theorem behind_eq_iff {d q : Path} (hq : q.root ≠ .here) : behind d q = q ↔ d.parts ≠ [] := by
  unfold behind
  split
  · next hnil =>
    refine ⟨fun h => absurd (congrArg Path.root h) (Path.slashed_ne hq), fun hne => absurd hnil hne⟩
  · next hne => exact ⟨fun _ => hne, fun _ => rfl⟩

section Places
variable {p : Path}

theorem root_of_not_slash (rest : String) (h : '/' ∉ rest.toList) :
    (Path.ofText rest).root = .here := by
  show Path.rootOf rest.toList = .here
  cases hrest : rest.toList with
  | nil => rfl
  | cons c s =>
    refine Path.rootOf_of_not_slash .here (fun hc => h ?_) s
    rw [hrest, hc]
    exact List.mem_cons_self

theorem not_mem_name (hp : p.Descends) : '/' ∉ p.name.toList := by
  unfold Path.name
  rw [List.getLastD_eq_getLast?]
  cases hlast : p.parts.getLast? with
  | none => decide
  | some name => exact (hp.names name (List.mem_of_getLast? hlast)).no_slash

theorem root_stem_append (hp : p.Descends) {suffix : String} (h : '/' ∉ suffix.toList) :
    (Path.ofText (p.stem ++ suffix)).root = .here := by
  apply root_of_not_slash
  rw [String.toList_append]
  exact fun hc => (List.mem_append.1 hc).elim (Path.not_mem_stem (not_mem_name hp)) h

theorem ofText_output {rest : String} (hrest : (Path.ofText rest).root = .here) :
    Path.ofText ("output/" ++ rest) = Path.ofText "output" / Path.ofText rest := by
  have hname : Path.IsName "output" := ⟨by decide, by decide, by decide⟩
  have htext : "output/" ++ rest = "output" ++ "/" ++ rest := rfl
  rw [htext]
  exact Path.ofText_behind_name hname hrest

/-- No text of a default template begins with a slash. -/
theorem root_of_mem_defaultPlaces (hp : p.Descends) :
    ∀ place ∈ defaultPlaces p, place.1.Descends ∧ (Path.ofText place.2).root = .here := by
  have hbase : (Path.ofText p.stem).root = .here :=
    root_of_not_slash p.stem (Path.not_mem_stem (not_mem_name hp))
  have hexe : (Path.ofText (p.stem ++ ".exe")).root = .here := root_stem_append hp (by decide)
  have hout : (Path.ofText (p.stem ++ ".out")).root = .here := root_stem_append hp (by decide)
  have hdeep : (Path.ofText ("output/" ++ (p.stem ++ ".exe"))).root = .here := by
    rw [ofText_output hexe, Path.div_of_here _ hexe]
    exact root_of_not_slash "output" (by decide)
  have hd := hp.parent
  simp only [defaultPlaces, List.forall_mem_cons]
  exact ⟨⟨hd, hexe⟩, ⟨hd, hbase⟩, ⟨hd, hout⟩, ⟨hd, root_of_not_slash _ (by decide)⟩,
    ⟨hd, root_of_not_slash _ (by decide)⟩, ⟨hd, root_of_not_slash _ (by decide)⟩,
    ⟨hd, root_of_not_slash _ (by decide)⟩, ⟨hd.parent, hexe⟩, ⟨hd.parent, hdeep⟩,
    ⟨hd.parent, hbase⟩, ⟨hd.parent.parent, hexe⟩, List.forall_mem_nil _⟩

theorem defaultJoins_eq (hp : p.Descends) :
    defaultJoins p = (defaultPlaces p).map fun place => place.1 / Path.ofText place.2 := by
  have hexe : (Path.ofText (p.stem ++ ".exe")).root = .here := root_stem_append hp (by decide)
  unfold defaultJoins defaultPlaces
  simp only [List.map_cons, List.map_nil, ofText_output hexe, Path.div_assoc]

/-- The highest directory has names only if the others have. -/
theorem forall_parts_ne_nil :
    (∀ place ∈ defaultPlaces p, place.1.parts ≠ []) ↔ p.parent.parent.parent.parts ≠ [] := by
  have hparent : ∀ q : Path, q.parent.parts ≠ [] → q.parts ≠ [] := by
    intro q h hnil
    apply h
    show q.parts.dropLast = []
    rw [hnil]
    rfl
  simp only [defaultPlaces, List.forall_mem_cons]
  constructor
  · rintro ⟨-, -, -, -, -, -, -, -, -, -, h, -⟩
    exact h
  · intro h
    have habove := hparent _ h
    have hbeside := hparent _ habove
    exact ⟨hbeside, hbeside, hbeside, hbeside, hbeside, hbeside, hbeside, habove, habove, habove, h,
      List.forall_mem_nil _⟩

end Places

/-- Every default candidate is the join of its directory and its names, except that a join from a
root is read at the other root. So the default candidates are the joins if and only if the highest
of the three directories is no root. -/
theorem joined_defaults (m : Machine) (source : String) :
    let p := Path.absolute m.directoryText source
    let directories := (defaultPlaces p).map Prod.fst
    candidates m.directoryText source defaultValues =
        .ok (directories.zipWith (fun d q => { path := behind d q }) (defaultJoins p)) ∧
      (candidates m.directoryText source defaultValues =
          .ok ((defaultJoins p).map fun q => { path := q }) ↔
        p.parent.parent.parent.parts ≠ []) := by
  intro p directories
  have hp : p.Descends := Path.descends_absolute (root_directoryText m) source
  have hplaces := root_of_mem_defaultPlaces hp
  have hcandidates : defaultCandidates m source =
      (defaultPlaces p).map fun place =>
        { path := behind place.1 (place.1 / Path.ofText place.2) } := by
    apply List.map_congr_left
    intro place hplace
    obtain ⟨hd, hrest⟩ := hplaces place hplace
    exact path_under hd hrest
  rw [candidates_default, hcandidates, defaultJoins_eq hp]
  constructor
  · rw [List.zipWith_map, List.zipWith_self]
  · rw [Except.ok.injEq, List.map_map, List.map_inj_left, ← forall_parts_ne_nil]
    apply forall₂_congr
    intro place hplace
    obtain ⟨hd, hrest⟩ := hplaces place hplace
    have hrooted : (place.1 / Path.ofText place.2).root ≠ .here := by
      rw [Path.div_of_here _ hrest]
      exact hd.rooted
    show Candidate.mk _ _ = Candidate.mk _ _ ↔ _
    rw [Candidate.mk.injEq, behind_eq_iff hrooted]
    exact and_iff_left rfl

/-- Beside a source in the root, the candidates are at the other root. -/
theorem joined_in_root :
    let p := Path.absolute (Machine.directoryText {}) "/hello.cple"
    p.root = .single ∧ p.stem = "hello" ∧
      (candidates (Machine.directoryText {}) "/hello.cple" defaultValues).toOption =
        some ((defaultJoins p).map fun q => { path := { q with root := .double } }) ∧
      candidates (Machine.directoryText {}) "/hello.cple" defaultValues ≠
        .ok ((defaultJoins p).map fun q => { path := q }) := by
  intro p
  rw [candidates_default]
  exact ⟨by decide +kernel, by decide +kernel, by decide +kernel, by
    rw [ne_eq, Except.ok.injEq]
    decide +kernel⟩

end Workbench.Artifact
