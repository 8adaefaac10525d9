import Workbench.Proofs.Engine.Advice
import Workbench.Proofs.Engine.Log
import Workbench.Proofs.Listing

/-!
# What a probe reports

A probe lists the directory of the source before and after a compilation. The log marks the new
entries in the later listing and names them once more after it.

* `ReportsNew directory before after log` : a log lists what is there, with marks at what is new, and
  names that once more (`laterTexts`, `newTexts`);
* `reportsNew_of_complete` : a probe that completes reports the listings before and after;
* `refused_before`, `refused_after` : a probe for which a listing is refused;
* `listings_of_probe` : the listings, their difference, and what a probe makes of them.
-/

namespace Workbench.Engine

open Machine (Reaches)

/-! ## Reports -/

/-- How a listing names an entry: by its kind and its name. -/
def named (x : Entry) : String :=
  "   " ++ (if x.isDirectory then "[DIR]" else "[FILE]") ++ " " ++ x.name

/-- The entries of the later listing whose names were not there before. -/
def newcomers (before after : Listing) : List Entry :=
  after.values.filter fun x => x.name ∉ before.keys

/-- What the log says about an entry that is new: its name, its size in units of 1024 bytes to two
places, and its path. -/
def presented (directory : String) (x : Entry) : List String :=
  ["   ✅ " ++ x.name ++ " (" ++ Number.fixed2 (Number.ofRatio false x.size 1024) ++ " KB)",
    "      Full path: " ++ (Path.ofText directory / Path.ofText x.name).text]

/-- The later listing in the log, with a mark behind the names that are new. -/
def laterTexts (before after : Listing) : List String :=
  "\n📁 Files in directory AFTER compilation:" ::
    after.values.map fun x => named x ++ if x ∈ newcomers before after then " ⭐ NEW" else ""

/-- What the log says about the new entries. -/
def newTexts (directory : String) (before after : Listing) : List String :=
  if newcomers before after = [] then ["\n⚠️  NO NEW FILES CREATED!"]
  else "\n✨ NEW FILES CREATED:" :: (newcomers before after).flatMap (presented directory)

/-- A log lists what is there after a compilation, each entry with its kind and its name. The entries
with a mark are those that it then lists as created, in the same order. -/
def ReportsNew (directory : String) (before after : Listing) (log : OutputLog) : Prop :=
  ∃ texts more, log = OutputLog.linesOf
    (texts ++ laterTexts before after ++ ["\n" ++ rule] ++ newTexts directory before after ++ more)

theorem entryLine_eq (x : Entry) : entryLine x = named x := rfl

theorem created_eq (before after : Listing) :
    Listing.created before after = newcomers before after := rfl

/-- An entry of the later listing has a mark if it is new. -/
theorem entryLineAfter_eq {before after : Listing} {x : Entry} (hx : x ∈ after.values) :
    entryLineAfter before x =
      named x ++ if x ∈ newcomers before after then " ⭐ NEW" else "" := by
  have hnew : x ∈ newcomers before after ↔ x.name ∉ before.keys := by
    unfold newcomers
    simp [hx]
  unfold entryLineAfter
  rw [entryLine_eq]
  by_cases hold : x.name ∈ before.keys
  · rw [if_pos hold, if_neg fun h => hnew.1 h hold]
  · rw [if_neg hold, if_pos (hnew.2 hold)]

theorem exists_newTexts (directory : String) (before after : Listing) :
    ∃ advice, conclusion (Path.ofText directory) (Listing.created before after) =
      newTexts directory before after ++ advice := by
  rw [created_eq]
  unfold newTexts
  cases newcomers before after with
  | nil => exact ⟨_, rfl⟩
  | cons first rest => exact ⟨_, rfl⟩

theorem reportsNew_of_lines {directory : String} {before after : Listing} {log : OutputLog}
    (texts : List String)
    (h : log = OutputLog.linesOf (texts ++ comparedTexts directory before after)) :
    ReportsNew directory before after log := by
  obtain ⟨advice, hadvice⟩ := exists_newTexts directory before after
  have hlater : "\n📁 Files in directory AFTER compilation:" ::
      after.values.map (entryLineAfter before) = laterTexts before after :=
    congrArg _ (List.map_congr_left fun x hx => entryLineAfter_eq hx)
  refine ⟨texts ++ ["\n" ++ rule], advice ++
    ["\n" ++ doubleRule, "Debug complete! Check the output above for details."], ?_⟩
  rw [h, comparedTexts, hadvice, ← hlater]
  simp only [List.cons_append, List.nil_append, List.append_assoc]

/-- A probe that completes has listed the directory before and after a compilation. -/
theorem reportsNew_of_complete {e e' : Engine} {good : Bool} (h : probe e = (.ok good, e'))
    (hstatus : e'.session.status = "debug complete") :
    ∃ before after c t, Listing.of e.setup.machine (directoryOf e.session.path) = .ok before ∧
      Compiler.compile e.session.path e.setup = (.ok c, t) ∧
      Listing.of t.machine (directoryOf e.session.path) = .ok after ∧
      ReportsNew (directoryOf e.session.path) before after e'.session.output := by
  cases probe_eq_ok.1 h with
  | refused => exact absurd (show "not a CPLE file" = _ from hstatus) (by decide)
  | missing => exact absurd (show "compiler missing" = _ from hstatus) (by decide)
  | unlisted => exact absurd (show "debug failed" = _ from hstatus) (by decide)
  | @compared compiler before _ _ _ hbefore hcompare =>
    cases hcompare with
    | unlisted => exact absurd (show "debug failed" = _ from hstatus) (by decide)
    | @listed words c t s after _ hcompile hafter =>
      refine ⟨before, after, c, t, hbefore, hcompile, hafter, ?_⟩
      apply reportsNew_of_lines (probeHeading compiler e.session.path
        (directoryOf e.session.path) ++ foundTexts ++ compilingTexts before words c)
      rw [output_ended, output_logged, output_remember, output_logged, output_headed]
      simp only [linesOf_append, List.append_assoc]

/-! ## Refused listings -/

/-- If the first listing is refused, the probe ends before anything is launched. -/
theorem refused_before {e : Engine} {compiler : Path}
    (hopens : Opens e.setup e.session.path compiler true) (hlog : LogOpen e.setup.machine)
    (h : Listing.Refuses e.setup.machine (Path.ofText (directoryOf e.session.path))) :
    ∃ e', probe e = (.ok false, e') ∧ e'.session.status = "debug failed" ∧
      e'.setup.machine.launches = e.setup.machine.launches := by
  obtain ⟨x, hlist⟩ := Listing.error_of_refuses h
  obtain ⟨s, hnote, -⟩ := noteOn_of_logOpen (cannotListNote x) hlog
  have hprobe := probe_eq_ok.2 (.unlisted hopens hlist hnote)
  exact ⟨_, hprobe, rfl, (noted_of_noteOn hnote).launches⟩

theorem exists_command {source : String} {s t : Setup} {compiler : Path} {c : Compilation}
    (hopens : Opens s source compiler true) (h : Compiler.compile source s = (.ok c, t)) :
    ∃ words, Compiler.command s source = .ok words := by
  cases Compiler.compile_eq_ok.1 h with
  | missing hcompiler hfound =>
    obtain rfl := Except.ok.inj (hopens.resolved.symm.trans hcompiler)
    exact nomatch hopens.exists_eq.symm.trans hfound
  | launched _ _ hwords => exact ⟨_, hwords⟩

/-- If only the second listing is refused, the probe fails after the compilation. -/
theorem refused_after {e : Engine} {compiler : Path} {before : Listing} {c : Compilation}
    {t : Setup} (hopens : Opens e.setup e.session.path compiler true)
    (hbefore : Listing.of e.setup.machine (directoryOf e.session.path) = .ok before)
    (hcompile : Compiler.compile e.session.path e.setup = (.ok c, t)) (hlog : LogOpen t.machine)
    (h : Listing.Refuses t.machine (Path.ofText (directoryOf e.session.path))) :
    ∃ e', probe e = (.ok false, e') ∧ e'.session.status = "debug failed" := by
  obtain ⟨x, hlist⟩ := Listing.error_of_refuses h
  obtain ⟨s, hnote, -⟩ := noteOn_of_logOpen (cannotListNote x) hlog
  obtain ⟨words, hwords⟩ := exists_command hopens hcompile
  have hcompare : Compares e.session.path (directoryOf e.session.path) before
      ((e.headed compiler).logged foundTexts) false _ := .unlisted hwords hcompile hlist hnote
  exact ⟨_, probe_eq_ok.2 (.compared hopens hbefore hcompare), rfl⟩

/-! ## Listings and probes -/

/-- A listing has one entry for each child that is not gone, in the order of the names and with what
is there. The difference of two listings has the entries with new names, in that order. A probe that
completes marks these entries in the later listing and names them again after it. If the system
refuses a listing, or to say what one of the children is, the probe fails, and before the
compilation it has launched nothing. -/
theorem listings_of_probe (e : Engine) :
    (∀ (m : Machine) (directory : String) (l : Listing), Listing.of m directory = .ok l →
      ∃ place, Reaches m .listDirectory (Path.ofText directory).text place (some .directory) ∧
        Listing.Shows m (Path.ofText directory) place l) ∧
    (∀ (m : Machine) (directory : String) (before after : Listing),
      Listing.of m directory = .ok after →
        (∀ x, x ∈ Listing.created before after ↔ x ∈ after.values ∧ x.name ∉ before.keys) ∧
        ((Listing.created before after).map Entry.name).Pairwise (· < ·)) ∧
    (∀ good e', probe e = (.ok good, e') → e'.session.status = "debug complete" →
      ∃ before after c t, Listing.of e.setup.machine (directoryOf e.session.path) = .ok before ∧
        Compiler.compile e.session.path e.setup = (.ok c, t) ∧
        Listing.of t.machine (directoryOf e.session.path) = .ok after ∧
        ReportsNew (directoryOf e.session.path) before after e'.session.output) ∧
    (∀ compiler, Opens e.setup e.session.path compiler true → LogOpen e.setup.machine →
      Listing.Refuses e.setup.machine (Path.ofText (directoryOf e.session.path)) →
        ∃ e', probe e = (.ok false, e') ∧ e'.session.status = "debug failed" ∧
          e'.setup.machine.launches = e.setup.machine.launches) ∧
    (∀ compiler before c t, Opens e.setup e.session.path compiler true →
      Listing.of e.setup.machine (directoryOf e.session.path) = .ok before →
      Compiler.compile e.session.path e.setup = (.ok c, t) → LogOpen t.machine →
      Listing.Refuses t.machine (Path.ofText (directoryOf e.session.path)) →
        ∃ e', probe e = (.ok false, e') ∧ e'.session.status = "debug failed") := by
  refine ⟨fun m directory l h => Listing.shows_of_ok h, fun m directory before after h => ?_,
    fun good e' h hstatus => reportsNew_of_complete h hstatus,
    fun compiler hopens hlog h => refused_before hopens hlog h,
    fun compiler before c t hopens hbefore hcompile hlog h =>
      refused_after hopens hbefore hcompile hlog h⟩
  obtain ⟨place, -, hshows⟩ := Listing.shows_of_ok h
  refine ⟨fun x => Listing.mem_created, ?_⟩
  exact Listing.ordered_created hshows.named hshows.ordered before

/-! ## Three probes -/

/-- The new entries are those between the two listings that there are. -/
theorem Creates.eq_created {e : Engine} {entries : List Entry} {before after : Listing}
    {c : Compilation} {t : Setup} (h : Creates e entries)
    (hbefore : Listing.of e.setup.machine (directoryOf e.session.path) = .ok before)
    (hcompile : Compiler.compile e.session.path e.setup = (.ok c, t))
    (hafter : Listing.of t.machine (directoryOf e.session.path) = .ok after) :
    entries = Listing.created before after := by
  cases h with
  | compared _ hbefore' hcompile' hafter' =>
    obtain rfl := Except.ok.inj (hbefore.symm.trans hbefore')
    obtain ⟨-, rfl⟩ := Prod.mk.inj (hcompile.symm.trans hcompile')
    obtain rfl := Except.ok.inj (hafter.symm.trans hafter')
    rfl

/-- A disk with a compiler and a directory for a source. -/
def toolDisk : Machine.Disk :=
  [(["tmp"], .directory), (["tmp", "cple"], .file (.bytes [])), (["w"], .directory)]

/-- The engine for the source on a machine. -/
def engineOn (machine : Machine) : Engine where
  setup :=
    { machine
      settings :=
        { directory := Path.ofText "/home/user"
          values := [("compiler_path", .text "/tmp/cple")] } }
  session := { path := "/w/a.cple" }

/-- Beside the source there is a file that cannot be looked at. -/
def deniedMachine : Machine where
  disk := (["w", "b"], .file (.bytes [])) :: toolDisk
  refusals := [((.stat, ["w", "b"]), .denied)]

/-- The compiler takes the directory of the source away. -/
def vanishingMachine : Machine where
  disk := toolDisk
  outcomes := [{ removals := [["w"]] }]

theorem logOpen_of_evaluation {m : Machine}
    (h : m.disk.get? ["tmp"] = some .directory ∧ m.refusal? .openFile logPlace = none ∧
      m.disk.get? logPlace ≠ some .directory) : LogOpen m := ⟨h.1, h.2.1, h.2.2⟩

theorem opens_of_evaluation {s : Setup}
    (h : (Compiler.resolve s).toOption = some (Path.ofText "/tmp/cple") ∧
      (s.machine.pathExists (Path.ofText "/tmp/cple").text).toOption = some true) :
    Opens s "/w/a.cple" (Path.ofText "/tmp/cple") true :=
  ⟨by decide, Action.eq_ok_of_toOption h.1, Action.eq_ok_of_toOption h.2⟩

theorem directoryOf_source : directoryOf "/w/a.cple" = "/w" := by decide

theorem refuses_deniedMachine : Listing.Refuses deniedMachine (Path.ofText "/w") := by
  have hnames : deniedMachine.listDirectory (Path.ofText "/w").text = .ok ["b"] :=
    Action.eq_ok_of_toOption (by decide +kernel)
  have hstat : deniedMachine.stat ((Path.ofText "/w").child "b").text =
      .error (.os { fault := .denied, path := "/w/b" }) :=
    Action.eq_error_of_failure? (by decide +kernel)
  exact .child hnames (by decide) (List.mem_singleton.2 rfl) hstat (by decide)

/-- The setup after the directory was taken away. -/
def vanishedSetup : Setup := (Compiler.compile "/w/a.cple" (engineOn vanishingMachine).setup).2

theorem refuses_vanishedSetup : Listing.Refuses vanishedSetup.machine (Path.ofText "/w") :=
  .directory (x := { fault := .missing, path := "/w" })
    (Action.eq_error_of_failure? (by decide +kernel))

theorem exists_compile_vanishing : ∃ c,
    Compiler.compile "/w/a.cple" (engineOn vanishingMachine).setup = (.ok c, vanishedSetup) := by
  have hcompile : (Compiler.compile "/w/a.cple"
      (engineOn vanishingMachine).setup).1.toOption.isSome = true := by decide +kernel
  obtain ⟨c, hc⟩ := Option.isSome_iff_exists.1 hcompile
  exact ⟨c, Action.eq_of_toOption hc⟩

/-- A probe that completes, one that cannot look at a file, and one whose directory is gone after
the compilation. -/
theorem listings_of_three_probes :
    (∃ e' before after place, probe (makingEngine "/w/a.cple" ["w", "a.out"]) = (.ok true, e') ∧
      Listing.Shows (makingEngine "/w/a.cple" ["w", "a.out"]).setup.machine (Path.ofText "/w") place
        before ∧
      Listing.created before after = [emptyFile "a.out"] ∧
      ((Listing.created before after).map Entry.name).Pairwise (· < ·) ∧
      ReportsNew "/w" before after e'.session.output) ∧
    (∃ e', probe (engineOn deniedMachine) = (.ok false, e') ∧
      e'.session.status = "debug failed" ∧ e'.setup.machine.launches = []) ∧
    ∃ e', probe (engineOn vanishingMachine) = (.ok false, e') ∧
      e'.session.status = "debug failed" := by
  refine ⟨?_, ?_, ?_⟩
  · obtain ⟨hlisted, hordered, hcomplete, -⟩ :=
      listings_of_probe (makingEngine "/w/a.cple" ["w", "a.out"])
    have hprobe : probe (makingEngine "/w/a.cple" ["w", "a.out"]) = (.ok true, _) :=
      Action.eq_of_toOption (by decide +kernel)
    obtain ⟨before, after, c, t, hbefore, hcompile, hafter, hreports⟩ :=
      hcomplete true _ hprobe (by decide +kernel)
    have hcreated := creates_out.eq_created hbefore hcompile hafter
    obtain ⟨-, hpairwise⟩ := hordered _ _ before after hafter
    obtain ⟨place, -, hshows⟩ := hlisted _ _ before hbefore
    exact ⟨_, before, after, place, hprobe, directoryOf_source ▸ hshows, hcreated.symm, hpairwise,
      directoryOf_source ▸ hreports⟩
  · obtain ⟨-, -, -, hdenied, -⟩ := listings_of_probe (engineOn deniedMachine)
    exact hdenied _ (opens_of_evaluation (by decide +kernel))
      (logOpen_of_evaluation (by decide +kernel)) (directoryOf_source ▸ refuses_deniedMachine)
  · obtain ⟨-, -, -, -, hvanished⟩ := listings_of_probe (engineOn vanishingMachine)
    have hbefore : Listing.of vanishingMachine "/w" = .ok (Listing.ofEntries []) :=
      listing_of_evaluation [] [] (by decide +kernel) .nil rfl
    obtain ⟨c, hcompile⟩ := exists_compile_vanishing
    exact hvanished _ _ c _ (opens_of_evaluation (by decide +kernel)) (directoryOf_source ▸ hbefore)
      hcompile (logOpen_of_evaluation (by decide +kernel))
      (directoryOf_source ▸ refuses_vanishedSetup)

end Workbench.Engine
