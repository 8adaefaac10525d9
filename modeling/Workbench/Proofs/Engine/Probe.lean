import Workbench.Engine.Probe
import Workbench.Proofs.Action
import Workbench.Proofs.Engine.Compile

/-!
# What a probe does to an engine

A probe that comes to an end is described without the order of its steps, with all that it says:

* `list_eq_ok`, `Listed` : a directory is listed, or the system refuses that and it is noted;
* `compare_eq_ok`, `Compares` : the compilation between two listings;
* `probe_eq_ok`, `Probes` : the engine after a probe, for a file that is no source, for a compiler
  that is missing, for a directory that cannot be listed and for the comparison of two listings.

Apart from the log, the status and the last compilation, what the session held before stays.
-/

namespace Workbench.Engine

/-! ## Texts in the log -/

/-- The engine with more texts in its log. -/
def logged (e : Engine) (texts : List String) : Engine :=
  { e with session := { e.session with output := e.session.output ++ OutputLog.linesOf texts } }

/-- The engine with another last compilation. -/
def remember (c : Compilation) (e : Engine) : Engine :=
  { e with session := { e.session with lastCompilation := some c } }

/-- The engine after a last line in the log file and a status, shown. -/
def ended (e : Engine) (s : Setup) (status : String) : Engine :=
  shown { e with setup := s, session := { e.session with status } }

theorem linesOf_append (texts more : List String) :
    OutputLog.linesOf (texts ++ more) = OutputLog.linesOf texts ++ OutputLog.linesOf more :=
  List.flatMap_append

@[simp] theorem output_logged (e : Engine) (texts : List String) :
    (e.logged texts).session.output = e.session.output ++ OutputLog.linesOf texts := rfl

@[simp] theorem output_remember (e : Engine) (c : Compilation) :
    (e.remember c).session.output = e.session.output := rfl

@[simp] theorem output_ended (e : Engine) (s : Setup) (status : String) :
    (e.ended s status).session.output = e.session.output := rfl

theorem logged_logged (e : Engine) (texts more : List String) :
    (e.logged texts).logged more = e.logged (texts ++ more) := by
  unfold logged
  rw [linesOf_append, List.append_assoc]

theorem sayAll_eq (texts : List String) (e : Engine) : sayAll texts e = (.ok (), e.logged texts) := by
  rw [sayAll_apply, Session.foldl_say]
  rfl

theorem say_eq (text : String) (e : Engine) : say text e = (.ok (), e.logged [text]) :=
  sayAll_eq [text] e

section Bind
variable {β : Type} (f : Unit → Action Engine β) (e : Engine)

theorem sayAll_bind (texts : List String) : (sayAll texts >>= f) e = f () (e.logged texts) :=
  Action.bind_eq_of_ok (sayAll_eq texts e)

theorem say_bind (text : String) : (say text >>= f) e = f () (e.logged [text]) :=
  Action.bind_eq_of_ok (say_eq text e)

theorem change_bind (g : Session → Session) :
    (change g >>= f) e = f () { e with session := g e.session } :=
  Action.bind_eq_of_ok (change_apply g e)

end Bind

/-- A line in the log file, a status and an answer end the work. -/
theorem note_finish_answer_eq_ok {α : Type} {text status : String} {x y : α} {e e' : Engine} :
    (note text >>= fun _ => finish status >>= fun _ => pure x : Action Engine α) e = (.ok y, e') ↔
      y = x ∧ ∃ s, noteOn text e.setup = (.ok (), s) ∧ e' = e.ended s status := by
  rw [Action.bind_eq_ok]
  constructor
  · rintro ⟨_, t, hnote, h⟩
    obtain ⟨s, hs, rfl⟩ := note_eq_ok.1 hnote
    rw [Action.bind_eq_of_ok (finish_apply status _)] at h
    obtain ⟨hy, rfl⟩ := Prod.mk.inj h
    exact ⟨(Except.ok.inj hy).symm, s, hs, rfl⟩
  · rintro ⟨rfl, s, hs, rfl⟩
    exact ⟨(), _, note_eq_ok.2 ⟨s, hs, rfl⟩, rfl⟩

/-! ## Listings -/

/-- What the log says about a directory that cannot be listed. -/
def cannotList (directory : String) (x : Machine.OsError) : String :=
  "❌ Could not list " ++ directory ++ ": " ++ x.message

/-- What is noted about it. -/
def cannotListNote (x : Machine.OsError) : String := "Directory listing failed: " ++ x.message

/-- How the listing of a directory can end. -/
inductive Listed (directory : String) (e : Engine) : Option Listing → Engine → Prop
  | listed {l : Listing} (h : Listing.of e.setup.machine directory = .ok l) :
      Listed directory e (some l) e
  | refused {x : Machine.OsError} {s : Setup}
      (h : Listing.of e.setup.machine directory = .error (.os x))
      (hnote : noteOn (cannotListNote x) e.setup = (.ok (), s)) :
      Listed directory e none ((e.logged [cannotList directory x]).ended s "debug failed")

theorem list_eq_ok {directory : String} {e e' : Engine} {l : Option Listing} :
    list directory e = (.ok l, e') ↔ Listed directory e l e' := by
  unfold list
  rw [Action.bind_eq_of_ok (Action.get_apply e)]
  constructor
  · intro h
    cases hl : Listing.of e.setup.machine directory with
    | ok l' =>
      rw [hl] at h
      obtain ⟨hsome, rfl⟩ := Prod.mk.inj h
      obtain rfl := Except.ok.inj hsome
      exact .listed hl
    | error failure =>
      rw [hl] at h
      cases failure with
      | os x =>
        dsimp only at h
        rw [say_bind] at h
        obtain ⟨rfl, s, hs, rfl⟩ := note_finish_answer_eq_ok.1 h
        exact .refused hl hs
      | _ => exact nomatch (congrArg Prod.fst h : (Except.error _ : Except Failure _) = .ok l)
  · intro h
    cases h with
    | listed h =>
      rw [h]
      rfl
    | refused h hnote =>
      rw [h]
      dsimp only
      rw [say_bind]
      exact note_finish_answer_eq_ok.2 ⟨rfl, _, hnote, rfl⟩

/-! ## The compilation between two listings -/

/-- What the log says up to the second listing. -/
def compilingTexts (before : Listing) (words : List Text.CodePoints) (c : Compilation) : List String :=
  ("\n📁 Files in directory BEFORE compilation:" :: before.values.map entryLine) ++
    ["\n" ++ rule, "\n▶️  Compiling to detect output...\n"] ++
    ["Command: " ++ Shell.line words ++ "\n"] ++ compilationLines c

/-- What the log says from the second listing on. -/
def comparedTexts (directory : String) (before after : Listing) : List String :=
  ["\n" ++ rule, "\n📁 Files in directory AFTER compilation:"] ++
    after.values.map (entryLineAfter before) ++ ["\n" ++ rule] ++
    conclusion (Path.ofText directory) (Listing.created before after) ++
    ["\n" ++ doubleRule, "Debug complete! Check the output above for details."]

def comparedNote (before after : Listing) : String :=
  "Debug run: " ++ toString (Listing.created before after).length ++ " new files"

/-- How the comparison with an earlier listing can end. -/
inductive Compares (source directory : String) (before : Listing) (e : Engine) :
    Bool → Engine → Prop
  | unlisted {words : List Text.CodePoints} {c : Compilation} {t s : Setup} {x : Machine.OsError}
      (hwords : Compiler.command e.setup source = .ok words)
      (hcompile : Compiler.compile source e.setup = (.ok c, t))
      (hlist : Listing.of t.machine directory = .error (.os x))
      (hnote : noteOn (cannotListNote x) t = (.ok (), s)) :
      Compares source directory before e false
        (((e.remember c).logged (compilingTexts before words c ++ [cannotList directory x])).ended s
          "debug failed")
  | listed {words : List Text.CodePoints} {c : Compilation} {t s : Setup} {after : Listing}
      (hwords : Compiler.command e.setup source = .ok words)
      (hcompile : Compiler.compile source e.setup = (.ok c, t))
      (hlist : Listing.of t.machine directory = .ok after)
      (hnote : noteOn (comparedNote before after) t = (.ok (), s)) :
      Compares source directory before e c.succeeded
        (((e.remember c).logged
          (compilingTexts before words c ++ comparedTexts directory before after)).ended s
          "debug complete")

/-- The engine when the compilation is over. -/
def compiledEngine (e : Engine) (before : Listing) (words : List Text.CodePoints) (c : Compilation)
    (t : Setup) : Engine :=
  { (e.remember c).logged (compilingTexts before words c) with setup := t }

/-- The steps up to there, one after the other. -/
theorem compiledEngine_eq (e : Engine) (before : Listing) (words : List Text.CodePoints) (c : Compilation)
    (t : Setup) :
    (({ ((e.logged ("\n📁 Files in directory BEFORE compilation:" ::
          before.values.map entryLine)).logged
        ["\n" ++ rule, "\n▶️  Compiling to detect output...\n"]).logged
        ["Command: " ++ Shell.line words ++ "\n"] with setup := t } : Engine).remember c).logged
      (compilationLines c) = e.compiledEngine before words c t := by
  unfold compiledEngine logged remember compilingTexts
  simp only [linesOf_append, List.append_assoc]

theorem ended_compiledEngine (e : Engine) (before : Listing) (words : List Text.CodePoints) (c : Compilation)
    (t s : Setup) (texts : List String) (status : String) :
    ((e.compiledEngine before words c t).logged texts).ended s status =
      ((e.remember c).logged (compilingTexts before words c ++ texts)).ended s status := by
  rw [← logged_logged]
  rfl

/-- What comes after the second listing. -/
theorem afterwards_eq_ok {directory : String} {before after : Listing} {c : Compilation} {r : Bool}
    {e e' : Engine} :
    (do
      sayAll ["\n" ++ rule, "\n📁 Files in directory AFTER compilation:"]
      sayAll (after.values.map (entryLineAfter before))
      say ("\n" ++ rule)
      sayAll (conclusion (Path.ofText directory) (Listing.created before after))
      sayAll ["\n" ++ doubleRule, "Debug complete! Check the output above for details."]
      note (comparedNote before after)
      finish "debug complete"
      return c.succeeded : Action Engine Bool) e = (.ok r, e') ↔
    r = c.succeeded ∧ ∃ s, noteOn (comparedNote before after) e.setup = (.ok (), s) ∧
      e' = (e.logged (comparedTexts directory before after)).ended s "debug complete" := by
  rw [sayAll_bind, sayAll_bind, say_bind, sayAll_bind, sayAll_bind, note_finish_answer_eq_ok]
  simp only [logged_logged, comparedTexts]
  rfl

/-- What comes after the compilation. -/
def compareAfter (directory : String) (before : Listing) (c : Compilation) : Action Engine Bool := do
  match ← list directory with
  | none => return false
  | some after =>
    let created := Listing.created before after
    sayAll ["\n" ++ rule, "\n📁 Files in directory AFTER compilation:"]
    sayAll (after.values.map (entryLineAfter before))
    say ("\n" ++ rule)
    sayAll (conclusion (Path.ofText directory) created)
    sayAll ["\n" ++ doubleRule, "Debug complete! Check the output above for details."]
    note ("Debug run: " ++ toString created.length ++ " new files")
    finish "debug complete"
    return c.succeeded

theorem compareAfter_eq_ok {directory : String} {before : Listing} {c : Compilation}
    {e e' : Engine} {r : Bool} :
    compareAfter directory before c e = (.ok r, e') ↔
      (∃ x s, Listing.of e.setup.machine directory = .error (.os x) ∧
        noteOn (cannotListNote x) e.setup = (.ok (), s) ∧ r = false ∧
        e' = (e.logged [cannotList directory x]).ended s "debug failed") ∨
      ∃ after s, Listing.of e.setup.machine directory = .ok after ∧
        noteOn (comparedNote before after) e.setup = (.ok (), s) ∧ r = c.succeeded ∧
        e' = (e.logged (comparedTexts directory before after)).ended s "debug complete" := by
  unfold compareAfter
  rw [Action.bind_eq_ok]
  constructor
  · rintro ⟨listing, e₁, hlist, h⟩
    cases list_eq_ok.1 hlist with
    | refused hl hnote =>
      obtain ⟨hr, rfl⟩ := Prod.mk.inj h
      exact .inl ⟨_, _, hl, hnote, (Except.ok.inj hr).symm, rfl⟩
    | listed hl =>
      obtain ⟨rfl, s, hs, rfl⟩ := afterwards_eq_ok.1 h
      exact .inr ⟨_, s, hl, hs, rfl, rfl⟩
  · rintro (⟨x, s, hl, hnote, rfl, rfl⟩ | ⟨after, s, hl, hnote, rfl, rfl⟩)
    · exact ⟨none, _, list_eq_ok.2 (.refused hl hnote), rfl⟩
    · exact ⟨some after, e, list_eq_ok.2 (.listed hl),
        afterwards_eq_ok.2 ⟨rfl, s, hnote, rfl⟩⟩

/-- The steps before it come down to the words of the command and the compilation. -/
theorem compare_eq_compareAfter {source directory : String} {before : Listing} {e e' : Engine}
    {r : Bool} :
    compare source directory before e = (.ok r, e') ↔
      ∃ words c t, Compiler.command e.setup source = .ok words ∧
        Compiler.compile source e.setup = (.ok c, t) ∧
        compareAfter directory before c (e.compiledEngine before words c t) = (.ok r, e') := by
  unfold compare
  rw [sayAll_bind, sayAll_bind, Action.bind_eq_ok]
  constructor
  · rintro ⟨words, e₁, hask, h⟩
    obtain ⟨hwords, rfl⟩ := Prod.mk.inj hask
    rw [say_bind] at h
    obtain ⟨c, e₂, hcompile, h⟩ := Action.bind_eq_ok.1 h
    obtain ⟨t, ht, rfl⟩ := onSetup_eq_ok.1 hcompile
    rw [change_bind, sayAll_bind] at h
    refine ⟨words, c, t, hwords, ht, ?_⟩
    rw [← compiledEngine_eq]
    exact h
  · rintro ⟨words, c, t, hwords, ht, h⟩
    refine ⟨words, _, Prod.ext hwords rfl, ?_⟩
    rw [say_bind]
    refine Action.bind_eq_ok.2 ⟨c, _, onSetup_eq_ok.2 ⟨t, ht, rfl⟩, ?_⟩
    rw [change_bind, sayAll_bind]
    rw [← compiledEngine_eq] at h
    exact h

theorem compare_eq_ok {source directory : String} {before : Listing} {e e' : Engine} {r : Bool} :
    compare source directory before e = (.ok r, e') ↔ Compares source directory before e r e' := by
  rw [compare_eq_compareAfter]
  constructor
  · rintro ⟨words, c, t, hwords, ht, h⟩
    rcases compareAfter_eq_ok.1 h with ⟨x, s, hl, hnote, rfl, rfl⟩ | ⟨after, s, hl, hnote, rfl, rfl⟩
    · rw [ended_compiledEngine]
      exact .unlisted hwords ht hl hnote
    · rw [ended_compiledEngine]
      exact .listed hwords ht hl hnote
  · intro h
    cases h with
    | @unlisted words c t s x hwords ht hl hnote =>
      refine ⟨words, c, t, hwords, ht, compareAfter_eq_ok.2 (.inl ⟨x, s, hl, hnote, rfl, ?_⟩)⟩
      rw [ended_compiledEngine]
    | @listed words c t s after hwords ht hl hnote =>
      refine ⟨words, c, t, hwords, ht, compareAfter_eq_ok.2 (.inr ⟨after, s, hl, hnote, rfl, ?_⟩)⟩
      rw [ended_compiledEngine]

/-! ## A whole probe -/

/-- The directory of a source. -/
def directoryOf (source : String) : String := (Path.ofText source).parent.text

/-- The source can be compiled, and whether there is a compiler is known. -/
structure Opens (s : Setup) (source : String) (compiler : Path) (found : Bool) : Prop where
  isSource : isSource source = true
  resolved : Compiler.resolve s = .ok compiler
  exists_eq : s.machine.pathExists compiler.text = .ok found

/-- The engine whose log has begun anew. -/
def headed (e : Engine) (compiler : Path) : Engine :=
  ({ e with session := { e.session with output := [] } } : Engine).logged
    (probeHeading compiler e.session.path (directoryOf e.session.path))

@[simp] theorem output_headed (e : Engine) (compiler : Path) :
    (e.headed compiler).session.output =
      OutputLog.linesOf (probeHeading compiler e.session.path (directoryOf e.session.path)) := rfl

/-- What the log says about a compiler that is there. -/
def foundTexts : List String := ["✅ Compiler found\n", rule]

/-- How a probe can end with an answer. -/
inductive Probes (e : Engine) : Bool → Engine → Prop
  | refused (h : isSource e.session.path = false) : Probes e false e.refused
  | missing {compiler : Path} (h : Opens e.setup e.session.path compiler false) :
      Probes e false
        (((e.headed compiler).logged ["❌ Compiler not found!\n"]).ended e.setup "compiler missing")
  | unlisted {compiler : Path} {x : Machine.OsError} {s : Setup}
      (h : Opens e.setup e.session.path compiler true)
      (hlist : Listing.of e.setup.machine (directoryOf e.session.path) = .error (.os x))
      (hnote : noteOn (cannotListNote x) e.setup = (.ok (), s)) :
      Probes e false ((((e.headed compiler).logged foundTexts).logged
        [cannotList (directoryOf e.session.path) x]).ended s "debug failed")
  | compared {compiler : Path} {before : Listing} {r : Bool} {e' : Engine}
      (h : Opens e.setup e.session.path compiler true)
      (hlist : Listing.of e.setup.machine (directoryOf e.session.path) = .ok before)
      (hcompare : Compares e.session.path (directoryOf e.session.path) before
        ((e.headed compiler).logged foundTexts) r e') :
      Probes e r e'

theorem listAndCompare_eq_ok {source directory : String} {e e' : Engine} {r : Bool} :
    (do
      match ← list directory with
      | none => return false
      | some before => compare source directory before : Action Engine Bool) e = (.ok r, e') ↔
    (∃ x s, Listing.of e.setup.machine directory = .error (.os x) ∧
      noteOn (cannotListNote x) e.setup = (.ok (), s) ∧ r = false ∧
      e' = (e.logged [cannotList directory x]).ended s "debug failed") ∨
    ∃ before, Listing.of e.setup.machine directory = .ok before ∧
      Compares source directory before e r e' := by
  rw [Action.bind_eq_ok]
  constructor
  · rintro ⟨listing, e₁, hlist, h⟩
    cases list_eq_ok.1 hlist with
    | refused hl hnote =>
      obtain ⟨hr, rfl⟩ := Prod.mk.inj h
      exact .inl ⟨_, _, hl, hnote, (Except.ok.inj hr).symm, rfl⟩
    | listed hl => exact .inr ⟨_, hl, compare_eq_ok.1 h⟩
  · rintro (⟨x, s, hl, hnote, rfl, rfl⟩ | ⟨before, hl, hcompare⟩)
    · exact ⟨none, _, list_eq_ok.2 (.refused hl hnote), rfl⟩
    · exact ⟨some before, e, list_eq_ok.2 (.listed hl), compare_eq_ok.2 hcompare⟩

/-- After it was looked for, a probe only depends on whether the compiler was found. -/
theorem probe_of_opens {e : Engine} {compiler : Path} {found : Bool}
    (h : Opens e.setup e.session.path compiler found) :
    probe e = if found then
        (do
          match ← list (directoryOf e.session.path) with
          | none => return false
          | some before => compare e.session.path (directoryOf e.session.path) before :
            Action Engine Bool) ((e.headed compiler).logged foundTexts)
      else (.ok false,
        ((e.headed compiler).logged ["❌ Compiler not found!\n"]).ended e.setup "compiler missing") := by
  have hresolve : askSetup Compiler.resolve e = (.ok compiler, e) := Prod.ext h.resolved rfl
  unfold probe
  rw [Action.bind_eq_of_ok (Action.get_apply e), if_pos h.isSource, Action.bind_eq_of_ok hresolve,
    change_bind, sayAll_bind]
  have hexists : askSetup (fun s => s.machine.pathExists compiler.text) (e.headed compiler) =
      (.ok found, e.headed compiler) := Prod.ext h.exists_eq rfl
  refine (Action.bind_eq_of_ok hexists).trans ?_
  cases found with
  | false =>
    rw [if_neg Bool.false_ne_true, if_neg Bool.false_ne_true, say_bind]
    rfl
  | true =>
    rw [if_pos rfl, if_pos rfl, sayAll_bind]
    rfl

theorem exists_opens {e e' : Engine} {r : Bool} (hsource : isSource e.session.path = true)
    (h : probe e = (.ok r, e')) : ∃ compiler found, Opens e.setup e.session.path compiler found := by
  unfold probe at h
  rw [Action.bind_eq_of_ok (Action.get_apply e), if_pos hsource] at h
  obtain ⟨compiler, e₁, hresolve, h⟩ := Action.bind_eq_ok.1 h
  obtain ⟨hcompiler, rfl⟩ := Prod.mk.inj hresolve
  rw [change_bind, sayAll_bind] at h
  obtain ⟨found, e₂, hexists, -⟩ := Action.bind_eq_ok.1 h
  obtain ⟨hfound, -⟩ := Prod.mk.inj hexists
  exact ⟨compiler, found, hsource, hcompiler, hfound⟩

/-- A probe that comes to an end does what `Probes` says, and nothing else. -/
theorem probe_eq_ok {e e' : Engine} {r : Bool} : probe e = (.ok r, e') ↔ Probes e r e' := by
  constructor
  · intro h
    by_cases hsource : isSource e.session.path = true
    · obtain ⟨compiler, found, hopens⟩ := exists_opens hsource h
      rw [probe_of_opens hopens] at h
      cases found with
      | false =>
        obtain ⟨hr, rfl⟩ := Prod.mk.inj h
        obtain rfl := Except.ok.inj hr
        exact .missing hopens
      | true =>
        rcases listAndCompare_eq_ok.1 h with ⟨x, s, hl, hnote, rfl, rfl⟩ | ⟨before, hl, hcompare⟩
        · exact .unlisted hopens hl hnote
        · exact .compared hopens hl hcompare
    · unfold probe at h
      rw [Action.bind_eq_of_ok (Action.get_apply e), if_neg hsource,
        Action.bind_eq_of_ok (refuse_apply e)] at h
      obtain ⟨hr, rfl⟩ := Prod.mk.inj h
      obtain rfl := Except.ok.inj hr
      exact .refused (Bool.eq_false_iff.2 hsource)
  · intro h
    cases h with
    | refused hsource =>
      unfold probe
      rw [Action.bind_eq_of_ok (Action.get_apply e), if_neg (Bool.eq_false_iff.1 hsource),
        Action.bind_eq_of_ok (refuse_apply e)]
      rfl
    | missing hopens => exact (probe_of_opens hopens).trans rfl
    | unlisted hopens hl hnote =>
      rw [probe_of_opens hopens]
      exact listAndCompare_eq_ok.2 (.inl ⟨_, _, hl, hnote, rfl, rfl⟩)
    | compared hopens hl hcompare =>
      rw [probe_of_opens hopens]
      exact listAndCompare_eq_ok.2 (.inr ⟨_, hl, hcompare⟩)

end Workbench.Engine
