import Workbench.Proofs.Artifact.Defaults
import Workbench.Proofs.Compiler.Launch
import Workbench.Proofs.Engine.Probe
import Workbench.Proofs.Machine.Names
import Workbench.Proofs.Template

/-!
# What a probe advises

When a probe finds new entries, the log proposes a template for the first of them. A template is not
read as a name is, and a path not as its directory and its name are:

* `Creates e entries` : a probe of this engine compiles between two listings and finds these
  entries new;
* `Creates.advised` : then the log proposes a template for the first one;
* `candidates_beside` : the candidate of a template that begins with the directory;
* `advised_candidate` : when the candidate is the new entry. A name with braces is read as a
  template itself, and what follows a root begins another root.
-/

namespace Workbench.Engine

open Artifact (under candidates)
open Text (CodePoints)

/-! ## New entries -/

/-- A probe compiles between two listings and finds these entries new. -/
inductive Creates (e : Engine) : List Entry → Prop
  | compared {compiler : Path} {before after : Listing} {c : Compilation} {t : Setup}
      (h : Opens e.setup e.session.path compiler true)
      (hbefore : Listing.of e.setup.machine (directoryOf e.session.path) = .ok before)
      (hcompile : Compiler.compile e.session.path e.setup = (.ok c, t))
      (hafter : Listing.of t.machine (directoryOf e.session.path) = .ok after) :
      Creates e (Listing.created before after)

theorem isNamed_of_compile {source : String} {s t : Setup} {c : Compilation}
    (hs : s.machine.IsNamed) (h : Compiler.compile source s = (.ok c, t)) : t.machine.IsNamed := by
  cases Compiler.compile_eq_ok.1 h with
  | missing => exact hs
  | launched => exact hs.started _

theorem Creates.isFileName {e : Engine} {entries : List Entry} (h : Creates e entries)
    (hm : e.setup.machine.IsNamed) {entry : Entry} (hentry : entry ∈ entries) :
    IsFileName entry.name := by
  cases h with
  | compared _ _ hcompile hafter =>
    exact Listing.isFileName_of_created (isNamed_of_compile hm hcompile) hafter hentry

/-- The last line of the log about new entries. -/
def advice (first : Entry) : String :=
  "   Add \"" ++ proposal first ++ "\" to artifact_candidates in your config."

theorem conclusion_cons (directory : Path) (first : Entry) (rest : List Entry) :
    ∃ texts, conclusion directory (first :: rest) = texts ++ [advice first] :=
  ⟨"\n✨ NEW FILES CREATED:" :: (first :: rest).flatMap (createdLines directory) ++
    ["\n💡 SOLUTION:", "   Your compiler creates: " ++ first.name], by
      simp [conclusion, advice]⟩

theorem exists_comparedTexts (directory : String) (before after : Listing) :
    ∃ texts more, comparedTexts directory before after =
      texts ++ conclusion (Path.ofText directory) (Listing.created before after) ++ more :=
  ⟨_, _, rfl⟩

/-- The listings and the compilation of a probe have one result only. -/
theorem Creates.concludes {e e' : Engine} {entries : List Entry} {good : Bool}
    (h : Creates e entries) (hprobe : probe e = (.ok good, e')) :
    ∃ texts more, e'.session.output = OutputLog.linesOf
      (texts ++ conclusion (Path.ofText (directoryOf e.session.path)) entries ++ more) := by
  cases h with
  | @compared compiler before after c t hopens hbefore hcompile hafter =>
    cases probe_eq_ok.1 hprobe with
    | refused hsource => exact absurd (hsource.symm.trans hopens.isSource) (by decide)
    | missing hopens' =>
      obtain rfl := Except.ok.inj (hopens.resolved.symm.trans hopens'.resolved)
      exact nomatch hopens.exists_eq.symm.trans hopens'.exists_eq
    | unlisted _ hlist => exact nomatch hbefore.symm.trans hlist
    | @compared compiler' before' _ _ _ hlist hcompare =>
      obtain rfl := Except.ok.inj (hbefore.symm.trans hlist)
      cases hcompare with
      | unlisted _ hcompile' hlist' =>
        obtain ⟨-, rfl⟩ := Prod.mk.inj (hcompile.symm.trans hcompile')
        exact nomatch hafter.symm.trans hlist'
      | @listed words c' t' s after' _ hcompile' hlist' =>
        obtain ⟨hc, rfl⟩ := Prod.mk.inj (hcompile.symm.trans hcompile')
        obtain rfl := Except.ok.inj hc
        obtain rfl := Except.ok.inj (hafter.symm.trans hlist')
        obtain ⟨texts, more, htexts⟩ :=
          exists_comparedTexts (directoryOf e.session.path) before after
        refine ⟨probeHeading compiler' e.session.path (directoryOf e.session.path) ++ foundTexts ++
          compilingTexts before words c ++ texts, more, ?_⟩
        rw [output_ended, output_logged, output_remember, output_logged, output_headed, htexts]
        simp only [linesOf_append, List.append_assoc]

theorem Creates.advised {e e' : Engine} {first : Entry} {rest : List Entry} {good : Bool}
    (h : Creates e (first :: rest)) (hprobe : probe e = (.ok good, e')) :
    ∃ before after, e'.session.output = before ++ OutputLog.linesOf [advice first] ++ after := by
  obtain ⟨texts, more, hlines⟩ := h.concludes hprobe
  obtain ⟨others, hconclusion⟩ :=
    conclusion_cons (Path.ofText (directoryOf e.session.path)) first rest
  refine ⟨OutputLog.linesOf texts ++ OutputLog.linesOf others, OutputLog.linesOf more, ?_⟩
  rw [hlines, hconclusion]
  simp only [linesOf_append, List.append_assoc]

/-! ## Candidates -/

theorem expand_beside (cwd source : String) (rest : CodePoints) :
    Template.expand (Artifact.values cwd source).get?
        (CodePoints.ofString "\x7bdir\x7d/" ++ rest) =
      (Template.expand (Artifact.values cwd source).get? rest).map
        (CodePoints.ofString ((Path.absolute cwd source).parent.text ++ "/") ++ ·) := by
  have hplain : Template.IsPlain "dir" := ⟨by decide, rfl, by decide⟩
  have hvalue : (Artifact.values cwd source).get? "dir" =
      some (Path.absolute cwd source).parent.text := rfl
  have htext : CodePoints.ofString "\x7bdir\x7d/" ++ rest =
      Template.fieldOf "dir" ++ (CodePoints.ofString "/" ++ rest) := rfl
  have hslash : Template.IsLiteral (CodePoints.ofString "/") := by decide
  rw [htext, Template.expand_append_of_plain hplain hvalue,
    Template.expand_append_of_literal _ hslash, Artifact.ofString_append]
  cases Template.expand (Artifact.values cwd source).get? rest with
  | error fault => simp only [Except.map]
  | ok t => simp only [Except.map, List.append_assoc]

/-- A candidate that can be looked at is one of a text. -/
theorem ofText_eq_iff {s : CodePoints} {path : Path} :
    Artifact.Candidate.ofText s = { path } ↔
      ∃ t : String, s = CodePoints.ofString t ∧ Path.ofText t = path := by
  constructor
  · intro h
    unfold Artifact.Candidate.ofText at h
    split at h
    · next t hpassed =>
      exact ⟨t, CodePoints.passed_eq_text.1 hpassed, congrArg Artifact.Candidate.path h⟩
    · exact absurd (congrArg Artifact.Candidate.passing h) (by simp)
    · exact absurd (congrArg Artifact.Candidate.passing h) (by simp)
  · rintro ⟨t, rfl, rfl⟩
    exact Artifact.ofText_ofString t

theorem ofString_append_eq_iff {a t : String} {s : CodePoints} :
    CodePoints.ofString a ++ s = CodePoints.ofString t ↔
      ∃ u : String, s = CodePoints.ofString u ∧ a ++ u = t := by
  constructor
  · intro h
    obtain ⟨before, after, hsplit, hbefore, rfl⟩ := List.map_eq_append_iff.1 h.symm
    obtain rfl : a.toList = before :=
      (List.map_injective_iff.2 fun _ _ => Text.CodePoint.char.inj) hbefore.symm
    refine ⟨String.ofList after, by simp [CodePoints.ofString], ?_⟩
    rw [← String.toList_inj, hsplit]
    simp
  · rintro ⟨u, rfl, rfl⟩
    exact (Artifact.ofString_append a u).symm

/-- The candidate of a template for what is beside the source. -/
theorem candidates_beside {cwd source : String} {rest : CodePoints} {path : Path} :
    candidates cwd source [.text (CodePoints.ofString "\x7bdir\x7d/" ++ rest)] = .ok [{ path }] ↔
      ∃ t : String, Template.expand (Artifact.values cwd source).get? rest =
          .ok (CodePoints.ofString t) ∧
        Path.ofText ((Path.absolute cwd source).parent.text ++ "/" ++ t) = path := by
  unfold candidates Artifact.candidatesFor Artifact.candidate
  dsimp only
  rw [expand_beside]
  cases hrest : Template.expand (Artifact.values cwd source).get? rest with
  | error fault => simp [Except.map]
  | ok s =>
    simp only [Except.map, Artifact.candidatesFor, Except.ok.injEq, List.cons.injEq, and_true,
      ofText_eq_iff, ofString_append_eq_iff]
    constructor
    · rintro ⟨_, ⟨t, rfl, rfl⟩, hpath⟩
      exact ⟨t, rfl, hpath⟩
    · rintro ⟨t, rfl, hpath⟩
      exact ⟨_, ⟨t, rfl, rfl⟩, hpath⟩

/-- Following a name from a directory is to write it after a slash, except from a root: two slashes
are another root, and three of them are the usual one. -/
theorem ofText_beside {d : Path} (hd : d.Descends) {name : String} (hname : Path.IsName name) :
    Path.ofText (d.text ++ "/" ++ name) = d / Path.ofText name ↔ d.parts ≠ [] :=
  Path.ofText_behind_eq_iff hd (congrArg Path.root (Path.ofText_name hname))

/-- The entry with a name beside a source. -/
def entryBeside (cwd source name : String) : Artifact.Candidate where
  path := (Path.absolute cwd source).parent / Path.ofText name

/-- The candidates of the template that the log proposes for an entry. -/
def proposedCandidates (cwd source : String) (entry : Entry) :
    Except Failure (List Artifact.Candidate) :=
  candidates cwd source [.text (CodePoints.ofString (proposal entry))]

theorem proposedCandidates_eq_ok {cwd source : String} {entry : Entry} {path : Path} :
    proposedCandidates cwd source entry = .ok [{ path }] ↔
      ∃ t : String, Template.expand (Artifact.values cwd source).get?
          (CodePoints.ofString entry.name) = .ok (CodePoints.ofString t) ∧
        Path.ofText ((Path.absolute cwd source).parent.text ++ "/" ++ t) = path := by
  unfold proposedCandidates proposal
  rw [Artifact.ofString_append]
  exact candidates_beside

/-- If the name, read as a template, has a text, it is that text which is followed. -/
theorem proposedCandidates_of_expand {cwd source : String} {entry : Entry} {path : Path}
    {t : String} (h : Template.expand (Artifact.values cwd source).get?
      (CodePoints.ofString entry.name) = .ok (CodePoints.ofString t)) :
    proposedCandidates cwd source entry = .ok [{ path }] ↔
      Path.ofText ((Path.absolute cwd source).parent.text ++ "/" ++ t) = path := by
  rw [proposedCandidates_eq_ok, h]
  constructor
  · rintro ⟨u, hu, hpath⟩
    rwa [Text.CodePoints.ofString_inj.1 (Except.ok.inj hu)]
  · exact fun hpath => ⟨t, rfl, hpath⟩

/-- When a probe finds new entries, the log proposes a template for the first one. Its candidate is
this entry if and only if the name, read as a template, has a text that leads from the directory of
the source to where the name leads. For a name without braces, and for the template with the braces
of the name written twice, this is so if and only if the directory is no root. -/
theorem advised_candidate {e : Engine} {first : Entry} {rest : List Entry}
    (hm : e.setup.machine.IsNamed) (h : Creates e (first :: rest)) :
    let cwd := e.setup.machine.directoryText
    let source := e.session.path
    let directory := (Path.absolute cwd source).parent
    let entry := entryBeside cwd source first.name
    (∀ good e', probe e = (.ok good, e') →
      ∃ before after, e'.session.output = before ++ OutputLog.linesOf [advice first] ++ after) ∧
    (proposedCandidates cwd source first = .ok [entry] ↔
      ∃ t : String, Template.expand (Artifact.values cwd source).get?
          (CodePoints.ofString first.name) = .ok (CodePoints.ofString t) ∧
        Path.ofText (directory.text ++ "/" ++ t) = entry.path) ∧
    (Template.IsLiteral (CodePoints.ofString first.name) →
      (proposedCandidates cwd source first = .ok [entry] ↔ directory.parts ≠ [])) ∧
    (proposedCandidates cwd source { first with name := Template.escape first.name } =
      .ok [entry] ↔ directory.parts ≠ []) := by
  intro cwd source directory entry
  have hname : IsFileName first.name := h.isFileName hm List.mem_cons_self
  have hdescends : directory.Descends :=
    (Path.descends_absolute (Artifact.root_directoryText e.setup.machine) source).parent
  have hbeside := ofText_beside hdescends hname.1
  refine ⟨fun good e' hprobe => h.advised hprobe, proposedCandidates_eq_ok, fun hliteral => ?_, ?_⟩
  · rw [← hbeside]
    exact proposedCandidates_of_expand (Template.expand_of_literal _ hliteral)
  · rw [← hbeside]
    exact proposedCandidates_of_expand (Template.expand_escape _ first.name)

/-- The engine for a source beside which the compiler makes a file. -/
def makingEngine (source : String) (file : Machine.Place) : Engine where
  setup :=
    { machine :=
        { disk := [(["tmp"], .directory), (["tmp", "cple"], .file (.bytes [])), (["w"], .directory)]
          outcomes := [{ files := [(file, .bytes [])] }] }
      settings :=
        { directory := Path.ofText "/home/user"
          values := [("compiler_path", .text "/tmp/cple")] } }
  session := { path := source }

theorem isNamed_makingEngine {source : String} {file : Machine.Place}
    (h : Machine.Place.IsNamed file) : (makingEngine source file).setup.machine.IsNamed where
  disk := by
    show Machine.Disk.IsNamed [_, _, _]
    decide
  outcomes := by
    intro o ho
    obtain rfl := List.mem_singleton.1 ho
    exact ⟨fun f hf => List.mem_singleton.1 hf ▸ h, fun p hp => absurd hp List.not_mem_nil⟩

/-- A listing that is evaluated with the names in their order. -/
theorem listing_of_evaluation {m : Machine} {directory : String} (names : List String)
    (entries : List Entry)
    (hnames : (m.listDirectory (Path.ofText directory).text).toOption = some names)
    (hsorted : names.Pairwise fun a b => decide (a ≤ b) = true)
    (hentries : (Listing.entriesFor m (Path.ofText directory) names).toOption = some entries) :
    Listing.of m directory = .ok (Listing.ofEntries entries) := by
  unfold Listing.of
  dsimp only
  rw [Action.eq_ok_of_toOption hnames]
  dsimp only
  rw [List.mergeSort_of_pairwise hsorted, Action.eq_ok_of_toOption hentries]
  rfl

/-- A probe that is evaluated up to its second listing. -/
theorem creates_of_evaluation {source : String} {file : Machine.Place} {before after : Listing}
    (hopens : isSource source = true ∧
      (Compiler.resolve (makingEngine source file).setup).toOption =
        some (Path.ofText "/tmp/cple") ∧
      ((makingEngine source file).setup.machine.pathExists
        (Path.ofText "/tmp/cple").text).toOption = some true)
    (hbefore : Listing.of (makingEngine source file).setup.machine (directoryOf source) =
      .ok before)
    (hcompile : (Compiler.compile source (makingEngine source file).setup).1.toOption.isSome = true)
    (hafter : Listing.of (Compiler.compile source (makingEngine source file).setup).2.machine
      (directoryOf source) = .ok after) :
    Creates (makingEngine source file) (Listing.created before after) := by
  obtain ⟨hsource, hcompiler, hexists⟩ := hopens
  obtain ⟨c, hc⟩ := Option.isSome_iff_exists.1 hcompile
  exact .compared
    ⟨hsource, Action.eq_ok_of_toOption hcompiler, Action.eq_ok_of_toOption hexists⟩ hbefore
    (Action.eq_of_toOption hc) hafter

/-- A file of no size. -/
def emptyFile (name : String) : Entry := { name := name, isDirectory := false, size := 0 }

/-- A directory. -/
def plainDirectory (name : String) : Entry :=
  { name := name, isDirectory := true, size := Machine.Node.directorySize }

theorem creates_out : Creates (makingEngine "/w/a.cple" ["w", "a.out"]) [emptyFile "a.out"] :=
  creates_of_evaluation (by decide +kernel)
    (listing_of_evaluation [] [] (by decide +kernel) .nil rfl) (by decide +kernel)
    (listing_of_evaluation ["a.out"] [emptyFile "a.out"] (by decide +kernel) (by decide)
      (by decide +kernel))

/-- The template for a file that the compiler made has the path of the file. -/
theorem advised_out :
    proposedCandidates "/" "/w/a.cple" (emptyFile "a.out") =
      .ok [entryBeside "/" "/w/a.cple" "a.out"] :=
  ((advised_candidate (isNamed_makingEngine (by decide)) creates_out).2.2.1
    (by decide +kernel)).2 (by decide +kernel)

/-- A name with braces is no template, and a file in a root is looked for in the other one. -/
theorem misleading_advice :
    Creates (makingEngine "/w/a.cple" ["w", "a\x7bb\x7d.out"]) [emptyFile "a\x7bb\x7d.out"] ∧
      (∃ e, probe (makingEngine "/w/a.cple" ["w", "a\x7bb\x7d.out"]) = (.ok true, e)) ∧
      proposedCandidates "/" "/w/a.cple" (emptyFile "a\x7bb\x7d.out") =
        .error (.badTemplate "'\x7bdir\x7d/a\x7bb\x7d.out'" (.unknownField "b")) ∧
      Creates (makingEngine "/a.cple" ["out"]) [emptyFile "out"] ∧
      proposedCandidates "/" "/a.cple" (emptyFile "out") = .ok [{ path := ⟨.double, ["out"]⟩ }] ∧
      entryBeside "/" "/a.cple" "out" = { path := ⟨.single, ["out"]⟩ } := by
  have hbraces : Creates (makingEngine "/w/a.cple" ["w", "a\x7bb\x7d.out"])
      [emptyFile "a\x7bb\x7d.out"] :=
    creates_of_evaluation (by decide +kernel)
      (listing_of_evaluation [] [] (by decide +kernel) .nil rfl) (by decide +kernel)
      (listing_of_evaluation ["a\x7bb\x7d.out"] [emptyFile "a\x7bb\x7d.out"] (by decide +kernel)
        (by decide) (by decide +kernel))
  have hroot : Creates (makingEngine "/a.cple" ["out"]) [emptyFile "out"] :=
    creates_of_evaluation (by decide +kernel)
      (listing_of_evaluation ["tmp", "w"] [plainDirectory "tmp", plainDirectory "w"]
        (by decide +kernel) (by decide) (by decide +kernel)) (by decide +kernel)
      (listing_of_evaluation ["out", "tmp", "w"]
        [emptyFile "out", plainDirectory "tmp", plainDirectory "w"] (by decide +kernel) (by decide)
        (by decide +kernel))
  exact ⟨hbraces, ⟨_, Action.eq_of_toOption (by decide +kernel)⟩,
    Action.eq_error_of_failure? (by decide +kernel), hroot,
    Action.eq_ok_of_toOption (by decide +kernel), by decide +kernel⟩

end Workbench.Engine
