import Workbench.Proofs.Compiler.Launch
import Workbench.Proofs.Shell

/-!
# The arguments of the compiler

The setting `compiler_args` is a typed text, and its words stand at the end of every command.

* `arguments_of_text` : the arguments are the words of the text;
* `command_eq_ok` : a command is the compiler, the source and the arguments;
* `PassesOn s source words` : whichever compiler it is, it is launched for the source with these words
  at the end, as it is when they are the arguments (`passesOn_of_arguments`);
* `Withholds s source words` : it never is, as when they are not (`withholds_of_arguments`).
-/

namespace Workbench.Compiler

open Text (CodePoints)

/-- The arguments are the words of the text that the setting is. An empty text has none. -/
theorem arguments_of_text {s : Settings.Store} {text : CodePoints}
    (h : s.value "compiler_args" = .text text) :
    arguments s = (Shell.split text).mapError .badArguments := by
  unfold arguments
  rw [h]
  cases text with
  | nil => rfl
  | cons c rest =>
    have hholds : (Settings.Value.text (c :: rest)).holds = true := rfl
    simp only [hholds, if_true]
    cases Shell.split (c :: rest) <;> rfl

theorem arguments_eq_ok_of_text {s : Settings.Store} {text : CodePoints} {words : List CodePoints}
    (h : s.value "compiler_args" = .text text) :
    arguments s = .ok words ↔ Shell.split text = .ok words := by
  rw [arguments_of_text h]
  cases Shell.split text with
  | error e => exact iff_of_false (fun hno => nomatch hno) (fun hno => nomatch hno)
  | ok words' =>
    show Except.ok words' = .ok words ↔ Except.ok words' = _
    rw [Except.ok.injEq, Except.ok.injEq]

theorem command_eq_ok {s : Setup} {source : String} {words : List CodePoints} :
    command s source = .ok words ↔ ∃ compiler arguments, resolve s = .ok compiler ∧
      Compiler.arguments s.settings = .ok arguments ∧
      words = CodePoints.ofString compiler.text :: CodePoints.ofString source :: arguments := by
  unfold command
  cases resolve s with
  | error e => simp
  | ok compiler => cases Compiler.arguments s.settings <;> simp [Except.map, eq_comm]

/-- Whichever compiler it is, its command for the source ends with these words, and if it is there, it
is launched with them, unless one of the words cannot be passed to a process. -/
structure PassesOn (s : Setup) (source : String) (words : List CodePoints) : Prop where
  command : ∀ compiler, resolve s = .ok compiler →
    Compiler.command s source = .ok (compiler.text :: source :: words)
  launches : ∀ compiler, resolve s = .ok compiler →
    s.machine.pathExists compiler.text = .ok true →
    let l := compilerLaunch s.settings source (compiler.text :: source :: words)
    (∀ e, s.machine.objection? l ≠ some (.beforeStart e)) →
      (compile source s).2.machine.launches = s.machine.launches ++ [l]

theorem passesOn_of_arguments {s : Setup} {words : List CodePoints}
    (h : arguments s.settings = .ok words) (source : String) : PassesOn s source words := by
  have hcommand : ∀ compiler, resolve s = .ok compiler →
      Compiler.command s source = .ok (compiler.text :: source :: words) :=
    fun compiler hcompiler => command_eq_ok.2 ⟨compiler, words, hcompiler, h, rfl⟩
  refine ⟨hcommand, ?_⟩
  intro compiler hcompiler hfound l hpassed
  rw [setup_compile hcompiler hfound (hcommand compiler hcompiler), Machine.launch_started hpassed]
  rfl

/-- No compiler gets just these words. -/
def Withholds (s : Setup) (source : String) (words : List CodePoints) : Prop :=
  ∀ compiler : Path, command s source ≠ .ok (compiler.text :: source :: words)

theorem withholds_of_arguments {s : Setup} {words : List CodePoints}
    (h : arguments s.settings ≠ .ok words) (source : String) : Withholds s source words := by
  intro compiler hcommand
  obtain ⟨_, arguments, -, harguments, hwords⟩ := command_eq_ok.1 hcommand
  obtain ⟨-, hrest⟩ := List.cons.inj hwords
  refine h ?_
  rw [harguments, (List.cons.inj hrest).2]

end Workbench.Compiler
