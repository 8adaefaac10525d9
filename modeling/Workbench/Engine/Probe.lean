import Workbench.Engine.Command
import Workbench.Listing

/-!
# Finding out what the compiler makes

`Engine.probe` compiles the source and lists its directory before and after, so that the user sees
which files are new and can name them among the candidates for the program.
-/

namespace Workbench.Engine

/-- A double line across the log. -/
def doubleRule : String := String.ofList (List.replicate 60 '═')

/-- Lists a directory. If the system refuses that, it is said and there is no listing. -/
def list (directory : String) : Action Engine (Option Listing) := do
  match Listing.of (← get).setup.machine directory with
  | .ok l => return some l
  | .error (.os x) =>
    say ("❌ Could not list " ++ directory ++ ": " ++ x.message)
    note ("Directory listing failed: " ++ x.message)
    finish "debug failed"
    return none
  | .error failure => throw failure

/-- What the log says at the beginning. -/
def probeHeading (compiler : Path) (source directory : String) : List String :=
  ["🔧 CPLE COMPILER DEBUG INFORMATION", doubleRule ++ "\n", "📍 Paths:",
    "   Compiler: " ++ compiler.text, "   File: " ++ source, "   Directory: " ++ directory,
    "   Platform: " ++ Compiler.platform ++ "\n"]

/-- A line about an entry that was there before. -/
def entryLine (e : Entry) : String := "   " ++ e.kind ++ " " ++ e.name

/-- A line about an entry that is there after; a new one is marked. -/
def entryLineAfter (before : Listing) (e : Entry) : String :=
  entryLine e ++ if e.name ∈ before.keys then "" else " ⭐ NEW"

/-- What the log says about the compilation itself. -/
def compilationLines (c : Compilation) : List String :=
  if c.succeeded then
    ["✅ Compilation output:", if c.output = "" then "(no output)" else c.output]
  else ["❌ Compilation failed:", c.diagnosticText]

/-- The candidate that the log proposes for an entry beside the source. -/
def proposal (e : Entry) : String := "\x7bdir\x7d/" ++ e.name

/-- What the log says about a new entry. -/
def createdLines (directory : Path) (e : Entry) : List String :=
  ["   ✅ " ++ e.name ++ " (" ++ e.kilobytes ++ " KB)",
    "      Full path: " ++ (directory / Path.ofText e.name).text]

/-- What the log says about the new entries. -/
def conclusion (directory : Path) : List Entry → List String
  | [] =>
    ["\n⚠️  NO NEW FILES CREATED!", "\n💡 Possible reasons:",
      "   1. Compiler outputs to a different directory",
      "   2. Compiler needs additional flags (like -o output.exe)",
      "   3. Compilation failed but didn't report error",
      "   4. Output file has same name as an existing file",
      "\n💡 Try adding to compiler_args in your config:", "   -o output.exe"]
  | first :: rest =>
    "\n✨ NEW FILES CREATED:" :: (first :: rest).flatMap (createdLines directory) ++
      ["\n💡 SOLUTION:", "   Your compiler creates: " ++ first.name,
        "   Add \"" ++ proposal first ++ "\" to artifact_candidates in your config."]

/-- Compiles between two listings and says what is new. -/
def compare (source directory : String) (before : Listing) : Action Engine Bool := do
  sayAll ("\n📁 Files in directory BEFORE compilation:" :: before.values.map entryLine)
  sayAll ["\n" ++ rule, "\n▶️  Compiling to detect output...\n"]
  let words ← askSetup fun s => Compiler.command s source
  say ("Command: " ++ Shell.line words ++ "\n")
  let c ← onSetup (Compiler.compile source)
  change fun s => { s with lastCompilation := some c }
  sayAll (compilationLines c)
  match ← list directory with
  | none => return false
  | some after =>
    let created := Listing.created before after
    sayAll ["\n" ++ rule, "\n📁 Files in directory AFTER compilation:"]
    sayAll (after.values.map (entryLineAfter before))
    say ("\n" ++ rule)
    sayAll (conclusion (Path.ofText directory) created)
    sayAll ["\n" ++ doubleRule, "Debug complete! Check the output above for details."]
    note ("Debug run: " ++ toString created.length ++ " new files")
    finish "debug complete"
    return c.succeeded

/-- Shows which files the compiler makes for the source. The log begins anew. -/
def probe : Action Engine Bool := do
  let source := (← get).session.path
  if isSource source then
    let directory := (Path.ofText source).parent.text
    let compiler ← askSetup Compiler.resolve
    change fun s => { s with output := [] }
    sayAll (probeHeading compiler source directory)
    let found ← askSetup fun s => s.machine.pathExists compiler.text
    if found then
      sayAll ["✅ Compiler found\n", rule]
      match ← list directory with
      | none => return false
      | some before => compare source directory before
    else
      say "❌ Compiler not found!\n"
      finish "compiler missing"
      return false
  else
    refuse
    return false

end Workbench.Engine
