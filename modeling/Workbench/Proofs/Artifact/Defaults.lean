import Mathlib.Data.List.TakeWhile
import Workbench.Language
import Workbench.Proofs.Artifact.Locate
import Workbench.Proofs.Machine.LookUp
import Workbench.Proofs.Path

/-!
# What is found at the default places

A search takes the first thing that it finds for the program, whatever that is.

* `under d rest` : the candidate with this text after that of a directory;
* `candidates_default` : the candidates of the default templates, for any source;
* `search_eq_found` : what is found is the first candidate that is not absent;
* `place_under` : where a candidate leads, if it leads anywhere;
* `Coincides p` : the names with which a candidate can lead to the directory of a source or above;
* `located_directories` : when a directory is found, and when it is one of those.
-/

namespace Workbench.Artifact

open Settings (Value)
open Text (CodePoints)

/-- The default templates, as settings would give them. -/
def defaultValues : List Value := defaultTemplates.map fun (t : String) => .text t

theorem ofString_append (s t : String) :
    CodePoints.ofString (s ++ t) = CodePoints.ofString s ++ CodePoints.ofString t := by
  simp [CodePoints.ofString]

theorem ofText_ofString (s : String) :
    Candidate.ofText (CodePoints.ofString s) = { path := Path.ofText s } := by
  unfold Candidate.ofText
  rw [CodePoints.passed_ofString]

/-- The candidate that follows from a directory and a text. -/
def under (directory : Path) (rest : String) : Candidate where
  path := Path.ofText (directory.text ++ "/" ++ rest)

theorem under_eq (directory : Path) (rest : String) :
    under directory rest = .ofText (CodePoints.ofString directory.text ++
      (CodePoints.ofString "/" ++ CodePoints.ofString rest)) := by
  rw [← ofString_append, ← ofString_append, ← String.append_assoc, ofText_ofString]
  rfl

/-- The directories of the default templates for a source, and what is added to them. -/
def defaultPlaces (p : Path) : List (Path × String) :=
  let base := p.stem
  let directory := p.parent
  [(directory, base ++ ".exe"), (directory, base), (directory, base ++ ".out"),
    (directory, "a.out"), (directory, "a.exe"), (directory, "output.exe"), (directory, "out.exe"),
    (directory.parent, base ++ ".exe"), (directory.parent, "output/" ++ (base ++ ".exe")),
    (directory.parent, base), (directory.parent.parent, base ++ ".exe")]

/-- The candidates of the default templates. -/
def defaultCandidates (m : Machine) (source : String) : List Candidate :=
  (defaultPlaces (Path.absolute m.directoryText source)).map fun place => under place.1 place.2

section Expansion
variable (directory parent grandparent base : String)

/-- Fields for any values, so that an expansion need not look into them. -/
def fields : Record String String :=
  [("dir", directory), ("parent", parent), ("grandparent", grandparent), ("base", base)]

/-- The texts that the default templates have. -/
def defaultTexts : List CodePoints :=
  let exe := CodePoints.ofString base ++ CodePoints.ofString ".exe"
  let out := CodePoints.ofString base ++ CodePoints.ofString ".out"
  let plain := CodePoints.ofString base ++ []
  [exe, plain, out, "a.out", "a.exe", "output.exe", "out.exe"].map (fun rest =>
      CodePoints.ofString directory ++ (CodePoints.ofString "/" ++ rest)) ++
    [exe, CodePoints.ofString "output/" ++ exe, plain].map (fun rest =>
      CodePoints.ofString parent ++ (CodePoints.ofString "/" ++ rest)) ++
    [CodePoints.ofString grandparent ++ (CodePoints.ofString "/" ++ exe)]

theorem candidatesFor_default :
    candidatesFor (fields directory parent grandparent base) defaultValues =
      .ok ((defaultTexts directory parent grandparent base).map Candidate.ofText) := by
  rfl

end Expansion

theorem candidates_default (m : Machine) (source : String) :
    candidates m.directoryText source defaultValues = .ok (defaultCandidates m source) := by
  let p := Path.absolute m.directoryText source
  have htexts : (defaultTexts p.parent.text p.parent.parent.text p.parent.parent.parent.text
      p.stem).map Candidate.ofText = defaultCandidates m source := by
    simp only [defaultTexts, defaultCandidates, defaultPlaces, List.map, List.cons_append,
      List.nil_append, under_eq, ofString_append, List.append_nil, p]
  rw [← htexts]
  exact candidatesFor_default _ _ _ _

theorem locate_default (m : Machine) (source : String) :
    locate m source defaultValues = search m (defaultCandidates m source) := by
  unfold locate
  rw [candidates_default]

/-! ## What is found -/

theorem exists_node_of_present {m : Machine} {c : Candidate} (h : present m c = .ok true) :
    ∃ node, c.status m = .ok node := by
  unfold present at h
  split at h
  · next node hnode => exact ⟨node, hnode⟩
  · split at h <;> exact nomatch h
  · exact nomatch h

theorem absent_of_present {m : Machine} {c : Candidate} (h : present m c = .ok false) :
    Absent m c := by
  unfold present at h
  split at h
  · exact nomatch h
  · next e he =>
    split at h
    · next habsent => exact ⟨e, he, habsent⟩
    · exact nomatch h
  · exact nomatch h

theorem exists_search_cons {m : Machine} {c : Candidate} {cs : List Candidate} {p : Path} :
    (∃ l, search m (c :: cs) = .ok l ∧ l.path = some p) ↔
      present m c = .ok true ∧ c.path = p ∨
        present m c = .ok false ∧ ∃ l, search m cs = .ok l ∧ l.path = some p := by
  rw [search]
  cases present m c with
  | error failure => simp
  | ok there =>
    cases there with
    | true => simp
    | false => cases search m cs <;> simp

/-- What is found is the first candidate that is not absent. -/
theorem search_eq_found {m : Machine} {cs : List Candidate} {p : Path} :
    (∃ l, search m cs = .ok l ∧ l.path = some p) ↔
      ∃ before c rest node, cs = before ++ c :: rest ∧ (∀ b ∈ before, Absent m b) ∧
        c.path = p ∧ c.status m = .ok node := by
  constructor
  · -- Induction on the candidates: an absent one joins those before the one that is found.
    intro h
    induction cs with
    | nil =>
      obtain ⟨l, hl, hp⟩ := h
      obtain rfl := Except.ok.inj hl
      exact nomatch hp
    | cons c cs ih =>
      rcases exists_search_cons.1 h with ⟨hpresent, rfl⟩ | ⟨habsent, hrest⟩
      · obtain ⟨node, hnode⟩ := exists_node_of_present hpresent
        exact ⟨[], c, cs, node, rfl, fun b hb => absurd hb List.not_mem_nil, rfl, hnode⟩
      · obtain ⟨before, d, rest, node, rfl, hbefore, hd⟩ := ih hrest
        refine ⟨c :: before, d, rest, node, rfl, ?_, hd⟩
        exact List.forall_mem_cons.2 ⟨absent_of_present habsent, hbefore⟩
  · rintro ⟨before, c, rest, node, rfl, hbefore, rfl, hnode⟩
    have hends : Ends m (before ++ [c]) rest _ := .found hbefore hnode
    refine ⟨{ path := some c.path, candidates := (before ++ [c]).map Candidate.path }, ?_, rfl⟩
    rw [← hends.search_eq, List.append_assoc, List.singleton_append]

/-! ## Where the default candidates are -/

theorem root_directoryText (m : Machine) : (Path.ofText m.directoryText).root ≠ .here := by
  have hrooted : (Path.mk .single m.directory).root ≠ .here := nofun
  obtain ⟨s, hs⟩ := Path.toList_text_of_rooted hrooted
  show Path.rootOf (Path.mk .single m.directory).text.toList ≠ .here
  rw [hs]
  exact Path.rootOf_cons_slash s

/-- A candidate leads to the names of its directory and then to those of its text. -/
theorem place_under {m : Machine} {d : Path} {rest : String} {place : Machine.Place}
    (hd : d.Descends) (hrest : ".." ∉ Path.partsOf rest.toList)
    (h : m.placeOf (under d rest).path.text = .ok place) :
    place = d.parts ++ Path.partsOf rest.toList := by
  have htext : (d.text ++ "/" ++ rest).toList = d.text.toList ++ '/' :: rest.toList := by simp
  have hparts : (under d rest).path.parts = d.parts ++ Path.partsOf rest.toList := by
    show Path.partsOf (d.text ++ "/" ++ rest).toList = _
    rw [htext, Path.partsOf_append, Path.partsOf_text hd.names]
  have hread : Path.partsOf (under d rest).path.text.toList = d.parts ++ Path.partsOf rest.toList :=
    (Path.partsOf_text (Path.isName_ofText _)).trans hparts
  have hroot : (under d rest).path.root ≠ .here := by
    obtain ⟨s, hs⟩ := Path.toList_text_of_rooted hd.rooted
    show Path.rootOf (d.text ++ "/" ++ rest).toList ≠ .here
    rw [htext, hs]
    exact Path.rootOf_cons_slash _
  have hstarts : (under d rest).path.text.startsWith "/" = true := by
    obtain ⟨s, hs⟩ := Path.toList_text_of_rooted hroot
    rw [String.startsWith_string_iff, hs]
    exact ⟨s, rfl⟩
  rw [← hread]
  refine Machine.placeOf_eq_ok h hstarts ?_
  rw [hread]
  exact fun hmem => (List.mem_append.1 hmem).elim hd.down hrest

theorem not_prefix_of_longer {above names : List String} {place : Machine.Place}
    (h : place.length < above.length + names.length) : ¬ above ++ names <+: place := by
  intro hp
  have hlength := hp.length_le
  rw [List.length_append] at hlength
  omega

theorem getLastD_of_leads {place : Machine.Place} {name : String}
    (h : place.dropLast ++ [name] <+: place) : place.getLastD "" = name := by
  rcases List.eq_nil_or_concat place with rfl | ⟨above, last, rfl⟩
  · exact absurd h (by simp)
  · rw [List.concat_eq_append] at h ⊢
    rw [List.dropLast_concat, List.prefix_append_right_inj, List.cons_prefix_cons] at h
    rw [List.getLastD_concat, h.1]

theorem getLastD_of_leads_above {place : Machine.Place} {name : String}
    (h : place.dropLast.dropLast ++ [name] <+: place) :
    place.getLastD "" = name ∨ place.dropLast.getLastD "" = name := by
  rcases List.eq_nil_or_concat place with rfl | ⟨above, last, rfl⟩
  · exact absurd h (by simp)
  · rw [List.concat_eq_append, List.dropLast_concat] at h ⊢
    rcases List.eq_nil_or_concat above with rfl | ⟨top, next, rfl⟩
    · have hsingle : [name] <+: [last] := h
      rw [List.cons_prefix_cons] at hsingle
      exact Or.inl hsingle.1.symm
    · rw [List.concat_eq_append] at h ⊢
      rw [List.dropLast_concat, List.append_assoc, List.prefix_append_right_inj, List.cons_append,
        List.cons_prefix_cons] at h
      rw [List.getLastD_concat, List.getLastD_concat]
      exact Or.inr h.1.symm

/-! ## The directory of the source and those above it -/

/-- The directory of a source or the one above it is called like the program, or the name of the
source leads back to a directory. -/
def Coincides (p : Path) : Prop :=
  p.stem = "." ∨ p.stem = ".." ∨ p.parent.name = p.stem ∨ p.parent.name = p.stem ++ ".exe" ∨
    p.parent.parent.name = p.stem ++ ".exe"

theorem isName_append {base : String} (suffix : String) (hbase : '/' ∉ base.toList)
    (hsuffix : '/' ∉ suffix.toList) (hlong : 2 < suffix.toList.length) :
    Path.IsName (base ++ suffix) ∧ base ++ suffix ≠ ".." := by
  have hlength : ∀ s : String, s.toList.length ≤ 2 → base ++ suffix ≠ s := by
    intro s hs he
    have hlist := congrArg (fun t : String => t.toList.length) he
    simp only [String.toList_append, List.length_append] at hlist
    omega
  refine ⟨⟨hlength "" (by decide), hlength "." (by decide), ?_⟩, hlength ".." (by decide)⟩
  rw [String.toList_append]
  exact fun hc => (List.mem_append.1 hc).elim hbase hsuffix

/-- A supported source has a name, and so it has one without the suffix. -/
theorem exists_name_of_isSource {source : String} (h : isSource source = true) :
    ∃ name, (Path.ofText source).parts.getLast? = some name ∧ name ≠ ".." := by
  have hsuffix : (Path.ofText source).suffix ≠ "" := by
    intro hempty
    have hnone : ¬ ("".toList.map Char.toLower = Language.sourceSuffix.toList) := by decide
    unfold isSource Language.ofPath at h
    rw [hempty, if_neg hnone] at h
    exact absurd h (by decide)
  have hname : ∀ name, (Path.ofText source).name = name → (Path.splitName name.toList).2 = [] →
      False := by
    rintro name rfl hnone
    refine hsuffix ?_
    rw [Path.suffix, hnone]
  cases hlast : (Path.ofText source).parts.getLast? with
  | none =>
    refine (hname "" ?_ rfl).elim
    rw [Path.name, List.getLastD_eq_getLast?, hlast, Option.getD_none]
  | some name =>
    refine ⟨name, rfl, ?_⟩
    rintro rfl
    refine hname ".." ?_ rfl
    rw [Path.name, List.getLastD_eq_getLast?, hlast]
    rfl

section Coincidence
variable {m : Machine} {p : Path} {place : Machine.Place} {rest : String}

theorem place_under_name {d : Path} (hd : d.Descends) (hrest : Path.IsName rest ∧ rest ≠ "..")
    (h : m.placeOf (under d rest).path.text = .ok place) : place = d.parts ++ [rest] := by
  have hparts : Path.partsOf rest.toList = [rest] := Path.partsOf_name hrest.1
  rw [← hparts]
  refine place_under hd ?_ h
  rw [hparts]
  exact fun hup => hrest.2 (List.mem_singleton.1 hup).symm

theorem not_leads_beside (hp : p.Descends) (hrest : Path.IsName rest ∧ rest ≠ "..")
    (h : m.placeOf (under p.parent rest).path.text = .ok place) : ¬ place <+: p.parent.parts := by
  rw [place_under_name hp.parent hrest h]
  exact not_prefix_of_longer (by simp)

theorem name_of_leads_above (hp : p.Descends) (hrest : Path.IsName rest ∧ rest ≠ "..")
    (h : m.placeOf (under p.parent.parent rest).path.text = .ok place)
    (hleads : place <+: p.parent.parts) : p.parent.name = rest := by
  rw [place_under_name hp.parent.parent hrest h] at hleads
  exact getLastD_of_leads hleads

theorem name_of_leads_higher (hp : p.Descends) (hrest : Path.IsName rest ∧ rest ≠ "..")
    (h : m.placeOf (under p.parent.parent.parent rest).path.text = .ok place)
    (hleads : place <+: p.parent.parts) : p.parent.name = rest ∨ p.parent.parent.name = rest := by
  rw [place_under_name hp.parent.parent.parent hrest h] at hleads
  exact getLastD_of_leads_above hleads

/-- The directory `output` is beside that of the source, and what is in it is no directory above. -/
theorem not_leads_output (hp : p.Descends) (hrest : Path.IsName rest ∧ rest ≠ "..")
    (h : m.placeOf (under p.parent.parent ("output/" ++ rest)).path.text = .ok place) :
    ¬ place <+: p.parent.parts := by
  have hparts : Path.partsOf ("output/" ++ rest).toList = ["output", rest] := by
    have htext : ("output/" ++ rest).toList = "output".toList ++ '/' :: rest.toList := by simp
    rw [htext, Path.partsOf_append, Path.partsOf_name hrest.1]
    rfl
  have hup : ".." ∉ Path.partsOf ("output/" ++ rest).toList := by
    rw [hparts]
    simpa using hrest.2.symm
  rw [place_under hp.parent.parent hup h, hparts]
  have hlength : p.parent.parent.parts.length = p.parent.parts.length - 1 := List.length_dropLast
  refine not_prefix_of_longer ?_
  rw [hlength, List.length_cons, List.length_singleton]
  omega

/-- Only by a coincidence of names does a default candidate lead to the directory of the source or
to one above it. -/
theorem coincides_of_leads (hp : p.Descends) (hname : p.name ≠ "") (hslash : '/' ∉ p.name.toList)
    {d : Path} (hd : (d, rest) ∈ defaultPlaces p)
    (hplace : m.placeOf (under d rest).path.text = .ok place)
    (hleads : place <+: p.parent.parts) : Coincides p := by
  by_cases hpoint : p.stem = "."
  · exact Or.inl hpoint
  by_cases hpoints : p.stem = ".."
  · exact Or.inr (Or.inl hpoints)
  have hstem : '/' ∉ p.stem.toList := Path.not_mem_stem hslash
  have hbase : Path.IsName p.stem ∧ p.stem ≠ ".." :=
    ⟨⟨Path.stem_ne_empty hname, hpoint, hstem⟩, hpoints⟩
  have hexe := isName_append ".exe" hstem (by decide) (by decide)
  have hout := isName_append ".out" hstem (by decide) (by decide)
  have hfixed : ∀ fixed ∈ ["a.out", "a.exe", "output.exe", "out.exe"],
      Path.IsName fixed ∧ fixed ≠ ".." := by
    intro fixed hmem
    simp only [List.mem_cons, List.not_mem_nil, or_false] at hmem
    rcases hmem with rfl | rfl | rfl | rfl <;> exact ⟨⟨by decide, by decide, by decide⟩, by decide⟩
  have hbeside : Path.IsName rest ∧ rest ≠ ".." → d = p.parent → Coincides p := by
    rintro hrest rfl
    exact absurd hleads (not_leads_beside hp hrest hplace)
  -- One case for each default template, in their order. What is beside the source is longer than the
  -- place of its directory, and so is what is in `output`.
  simp only [defaultPlaces, List.mem_cons, List.not_mem_nil, or_false, Prod.mk.injEq] at hd
  rcases hd with ⟨hd, rfl⟩ | ⟨hd, rfl⟩ | ⟨hd, rfl⟩ | ⟨hd, rfl⟩ | ⟨hd, rfl⟩ | ⟨hd, rfl⟩ | ⟨hd, rfl⟩ |
    ⟨rfl, rfl⟩ | ⟨rfl, rfl⟩ | ⟨rfl, rfl⟩ | ⟨rfl, rfl⟩
  · exact hbeside hexe hd
  · exact hbeside hbase hd
  · exact hbeside hout hd
  · exact hbeside (hfixed _ (by simp)) hd
  · exact hbeside (hfixed _ (by simp)) hd
  · exact hbeside (hfixed _ (by simp)) hd
  · exact hbeside (hfixed _ (by simp)) hd
  · exact Or.inr (Or.inr (Or.inr (Or.inl (name_of_leads_above hp hexe hplace hleads))))
  · exact absurd hleads (not_leads_output hp hexe hplace)
  · exact Or.inr (Or.inr (Or.inl (name_of_leads_above hp hbase hplace hleads)))
  · rcases name_of_leads_higher hp hexe hplace hleads with h | h
    · exact Or.inr (Or.inr (Or.inr (Or.inl h)))
    · exact Or.inr (Or.inr (Or.inr (Or.inr h)))

end Coincidence

/-- What a search at the default places finds is a directory if and only if the first candidate that
is not absent is one: the search does not ask what kind of thing is there. It is the directory of the
source or one above it only by a coincidence of names. -/
theorem located_directories (m : Machine) (source : String) :
    (∀ p : Path,
      (∃ l, locate m source defaultValues = .ok l ∧ l.path = some p ∧
          m.stat p.text = .ok .directory) ↔
        ∃ before c rest, defaultCandidates m source = before ++ c :: rest ∧
          (∀ b ∈ before, Absent m b) ∧ c.path = p ∧ m.stat p.text = .ok .directory) ∧
    (isSource source = true → ∀ (l : Lookup) (p : Path) (place : Machine.Place),
      locate m source defaultValues = .ok l → l.path = some p →
      m.placeOf p.text = .ok place →
      place <+: (Path.absolute m.directoryText source).parent.parts →
      Coincides (Path.absolute m.directoryText source)) := by
  have hunder : ∀ c ∈ defaultCandidates m source, ∃ d rest,
      (d, rest) ∈ defaultPlaces (Path.absolute m.directoryText source) ∧ c = under d rest := by
    intro c hc
    obtain ⟨⟨d, rest⟩, hmem, rfl⟩ := List.mem_map.1 hc
    exact ⟨d, rest, hmem, rfl⟩
  rw [locate_default]
  constructor
  · intro p
    constructor
    · rintro ⟨l, hl, hp, hdirectory⟩
      obtain ⟨before, c, rest, -, hcs, hbefore, hpath, -⟩ := search_eq_found.1 ⟨l, hl, hp⟩
      exact ⟨before, c, rest, hcs, hbefore, hpath, hdirectory⟩
    · rintro ⟨before, c, rest, hcs, hbefore, rfl, hdirectory⟩
      obtain ⟨d, text, -, rfl⟩ := hunder c (by simp [hcs])
      obtain ⟨l, hl, hp⟩ := search_eq_found.2
        ⟨before, _, rest, .directory, hcs, hbefore, rfl, hdirectory⟩
      exact ⟨l, hl, hp, hdirectory⟩
  · intro hsource l p place hl hp hplace hleads
    obtain ⟨before, c, rest, node, hcs, -, rfl, -⟩ := search_eq_found.1 ⟨l, hl, hp⟩
    obtain ⟨d, text, hmem, rfl⟩ := hunder c (by simp [hcs])
    have hdescends := Path.descends_absolute (root_directoryText m) source
    obtain ⟨name, hname, hup⟩ := exists_name_of_isSource hsource
    have hlast := Path.getLast?_absolute (root_directoryText m) hname hup
    have hisName := hdescends.names name (List.mem_of_getLast? hlast)
    have heq : (Path.absolute m.directoryText source).name = name := by
      rw [Path.name, List.getLastD_eq_getLast?, hlast, Option.getD_some]
    rw [← heq] at hisName
    exact coincides_of_leads hdescends hisName.ne_empty hisName.no_slash hmem hplace hleads

/-- A machine with a source in a directory of its own name, and nothing that was compiled. -/
def namesakeMachine : Machine where
  disk := [(["w"], .directory), (["w", "hello"], .directory),
    (["w", "hello", "hello.cple"], .file (.bytes []))]

theorem locate_namesakeMachine :
    locate namesakeMachine "/w/hello/hello.cple" defaultValues =
      .ok { path := some (Path.ofText "/w/hello"),
            candidates := ["/w/hello/hello.exe", "/w/hello/hello", "/w/hello/hello.out",
              "/w/hello/a.out", "/w/hello/a.exe", "/w/hello/output.exe", "/w/hello/out.exe",
              "/w/hello.exe", "/w/output/hello.exe", "/w/hello"].map Path.ofText } := by
  rw [locate_default]
  decide +kernel

/-- The directory above a source of its name is the first candidate that is not absent. -/
theorem located_namesake :
    (∃ before c rest, defaultCandidates namesakeMachine "/w/hello/hello.cple" =
        before ++ c :: rest ∧ (∀ b ∈ before, Absent namesakeMachine b) ∧
        c.path = Path.ofText "/w/hello" ∧
        namesakeMachine.stat (Path.ofText "/w/hello").text = .ok .directory) ∧
      Coincides (Path.absolute namesakeMachine.directoryText "/w/hello/hello.cple") := by
  have hsource : isSource "/w/hello/hello.cple" = true := by decide +kernel
  have hdirectory : namesakeMachine.stat (Path.ofText "/w/hello").text = .ok .directory := by
    decide +kernel
  have hplace : namesakeMachine.placeOf (Path.ofText "/w/hello").text = .ok ["w", "hello"] := by
    decide +kernel
  have hparent : (Path.absolute namesakeMachine.directoryText "/w/hello/hello.cple").parent.parts =
      ["w", "hello"] := by decide +kernel
  obtain ⟨hfirst, hcoincides⟩ := located_directories namesakeMachine "/w/hello/hello.cple"
  refine ⟨(hfirst _).1 ⟨_, locate_namesakeMachine, rfl, hdirectory⟩, ?_⟩
  exact hcoincides hsource _ _ _ locate_namesakeMachine rfl hplace (hparent ▸ List.prefix_rfl)

/-- The directory of the source is taken for its program. -/
theorem located_own_directory :
    isSource "/w/hello/hello.cple" = true ∧
      (∃ l, locate namesakeMachine "/w/hello/hello.cple" defaultValues = .ok l ∧
        l.path = some (Path.absolute namesakeMachine.directoryText "/w/hello/hello.cple").parent) ∧
      namesakeMachine.stat
          (Path.absolute namesakeMachine.directoryText "/w/hello/hello.cple").parent.text =
        .ok .directory := by
  have hparent : (Path.absolute namesakeMachine.directoryText "/w/hello/hello.cple").parent =
      Path.ofText "/w/hello" := by decide +kernel
  rw [hparent]
  exact ⟨by decide +kernel, ⟨_, locate_namesakeMachine, rfl⟩, by decide +kernel⟩

end Workbench.Artifact
