import Workbench.Proofs.Action
import Workbench.Proofs.Json.Printer
import Workbench.Proofs.Json.Reader
import Workbench.Proofs.Record
import Workbench.Proofs.Text.Utf8
import Workbench.Settings.Store

/-!
# Settings that are loaded

* `IsText bytes s`, `IsObject bytes fields` : what the bytes of a file write;
* `Overrides fields r` : the defaults with fields put over them;
* `Fatal bytes e` : what a file can hold so that nothing can be loaded;
* `Lacks`, `Holds` : a directory that is there or can be made, without the file of settings or with
  it;
* `load_of_document`, `load_of_wrong`, `load_of_fatal` : what is loaded from a file, by what it
  holds;
* `loaded_values` : what is loaded from any file.
-/

namespace Workbench.Settings.Store

open Json (Document ObjectDocument Stop depthLimit)
open Number (digitLimit)
open Text (CodePoints)

/-- The bytes write a text. The lines of a text file are read as ended by line feeds. -/
def IsText (bytes : List UInt8) (s : List Char) : Prop :=
  ∃ t : String, bytes = Utf8.encode t ∧ s = Text.unixNewlines t.toList

/-- The bytes write an object in JSON with these fields, one after the other. -/
def IsObject (bytes : List UInt8) (fields : List (CodePoints × Value)) : Prop :=
  ∃ s limit room, IsText bytes s ∧ ObjectDocument limit room s fields

/-- The defaults overridden name by name. Of the fields with one name the last one counts, and new
names come in the order in which they are first named. -/
structure Overrides (fields : List (CodePoints × Value)) (r : Record CodePoints Value) : Prop where
  names : r.keys = defaults.keys ++ Record.newNames defaults fields
  values : ∀ name, r.get? name = (Record.get? fields.reverse name).or (defaults.get? name)

/-- What a file can hold so that nothing can be loaded: bytes that write no text, a whole number
with too many digits, or lists and objects that are nested too deep. -/
inductive Fatal (bytes : List UInt8) : Failure → Prop
  | notText {e : Utf8.Error} (h : Utf8.decode bytes = .error e) : Fatal bytes (.notText e)
  | digits {s : List Char} {count : Nat} (hs : IsText bytes s)
      (h : Json.document s = .error (.tooManyDigits count)) : Fatal bytes (.digitsTooMany count)
  | depth {s : List Char} {bracket : Json.Bracket} (hs : IsText bytes s)
      (h : Json.document s = .error (.tooDeep bracket)) : Fatal bytes (.nestedTooDeep bracket)

/-- The directory is there after it was made, and its file is not. -/
structure Lacks (directory : Path) (m m' : Machine) : Prop where
  made : Machine.makeDirectories directory m = (.ok (), m')
  unseen : m'.pathExists (fileIn directory).text = .ok false

/-- The directory is there after it was made, and its file can be seen and read. -/
structure Holds (directory : Path) (m m' : Machine) (bytes : List UInt8) : Prop where
  made : Machine.makeDirectories directory m = (.ok (), m')
  seen : m'.pathExists (fileIn directory).text = .ok true
  opened : ∃ place c, m'.lookUp .openFile (fileIn directory).text = .ok (place, some (.file c)) ∧
    c.toBytes = bytes

/-! ## Defaults that are overridden -/

theorem nodup_keys_defaults : defaults.keys.Nodup := by decide

theorem overrides_merge (fields : List (CodePoints × Value)) :
    Overrides fields (Record.merge defaults (Record.ofList fields)) where
  names := Record.keys_merge_ofList defaults fields
  values := Record.get?_merge_ofList defaults fields

/-- The names and the values under them say all. -/
theorem Overrides.unique {fields : List (CodePoints × Value)} {r r' : Record CodePoints Value}
    (h : Overrides fields r) (h' : Overrides fields r') : r = r' := by
  have hmerged := overrides_merge fields
  have heq : ∀ {s : Record CodePoints Value}, Overrides fields s →
      s = Record.merge defaults (Record.ofList fields) := by
    intro s hs
    have hkeys := hs.names.trans hmerged.names.symm
    refine Record.ext_of_keys hkeys ?_ fun name _ => ?_
    · rw [hkeys]
      exact Record.nodup_keys_merge nodup_keys_defaults _
    · rw [hs.values, hmerged.values]
  rw [heq h, heq h']

/-! ## Loading -/

/-- What is said about a text that is wrong where `rest` characters are left. -/
def complaint (s : List Char) (reason : Json.Reason) (rest : Nat) : String :=
  let before := s.take (s.length - rest)
  errorText reason before.length (before.count '\n' + 1)
    ((before.reverse.takeWhile (· ≠ '\n')).length + 1)

section Load
variable {directory : Path} {m m' : Machine} {bytes : List UInt8} {s : List Char}

theorem load_of_lacks (h : Lacks directory m m') :
    load directory m = (.ok { directory, values := defaults }, m') := by
  unfold load
  rw [Action.bind_eq_of_ok h.made, Action.bind_apply, Action.ask_apply, h.unseen]
  rfl

/-- What is loaded depends on what the file says. -/
theorem load_of_holds (h : Holds directory m m' bytes) :
    load directory m = match contents m' directory with
      | .error e => (.error e, m')
      | .ok (.ok values) => (.ok { directory, values }, m')
      | .ok (.error reason) =>
        (.ok { directory, values := defaults }, m'.printLine (warning directory reason)) := by
  unfold load
  rw [Action.bind_eq_of_ok h.made, Action.bind_apply, Action.ask_apply, h.seen]
  dsimp only
  rw [if_pos rfl, Action.bind_apply, Action.ask_apply]
  cases contents m' directory with
  | error e => rfl
  | ok r =>
    cases r with
    | ok values => rfl
    | error reason => rfl

theorem contents_of_notText (h : Holds directory m m' bytes) {e : Utf8.Error}
    (he : Utf8.decode bytes = .error e) : contents m' directory = .error (.notText e) := by
  obtain ⟨place, c, hc, rfl⟩ := h.opened
  unfold contents Machine.readText
  rw [hc]
  dsimp only
  rw [he]

theorem contents_of_isText (h : Holds directory m m' bytes) (hs : IsText bytes s) :
    contents m' directory = match Json.document s with
      | .ok v => .ok (.ok (override v))
      | .error (.tooManyDigits count) => .error (.digitsTooMany count)
      | .error (.tooDeep bracket) => .error (.nestedTooDeep bracket)
      | .error (.wrong reason rest) => .ok (.error (complaint s reason rest)) := by
  obtain ⟨place, c, hc, rfl⟩ := h.opened
  obtain ⟨t, ht, rfl⟩ := hs
  unfold contents Machine.readText
  rw [hc]
  dsimp only
  rw [Utf8.decode_eq_ok.2 ht]
  dsimp only
  unfold Json.read
  rw [String.toList_ofList]
  cases Json.document (Text.unixNewlines t.toList) with
  | ok v => rfl
  | error stop => cases stop <;> rfl

theorem load_of_document (h : Holds directory m m' bytes) (hs : IsText bytes s) {v : Value}
    (hv : Json.document s = .ok v) :
    load directory m = (.ok { directory, values := override v }, m') := by
  rw [load_of_holds h, contents_of_isText h hs, hv]

/-- A file that is no JSON is passed over, with a warning. -/
theorem load_of_wrong (h : Holds directory m m' bytes) (hs : IsText bytes s) {reason : Json.Reason}
    {rest : Nat} (hv : Json.document s = .error (.wrong reason rest)) :
    load directory m = (.ok { directory, values := defaults },
      m'.printLine (warning directory (complaint s reason rest))) := by
  rw [load_of_holds h, contents_of_isText h hs, hv]

theorem load_of_fatal (h : Holds directory m m' bytes) {e : Failure} (he : Fatal bytes e) :
    load directory m = (.error e, m') := by
  cases he with
  | notText he => rw [load_of_holds h, contents_of_notText h he]
  | digits hs hv => rw [load_of_holds h, contents_of_isText h hs, hv]
  | depth hs hv => rw [load_of_holds h, contents_of_isText h hs, hv]

/-- A file holds no text, or one that is read, that is no JSON, or that reaches a limit. -/
theorem fatal_or_isText (bytes : List UInt8) :
    (∃ e, Fatal bytes e) ∨ ∃ s, IsText bytes s ∧
      ((∃ v, Json.document s = .ok v) ∨
        ∃ reason rest, Json.document s = .error (.wrong reason rest)) := by
  cases ht : Utf8.decode bytes with
  | error e => exact Or.inl ⟨_, .notText ht⟩
  | ok t =>
    have hs : IsText bytes (Text.unixNewlines t.toList) := ⟨t, Utf8.decode_eq_ok.1 ht, rfl⟩
    cases hv : Json.document (Text.unixNewlines t.toList) with
    | ok v => exact Or.inr ⟨_, hs, Or.inl ⟨v, hv⟩⟩
    | error stop =>
      cases stop with
      | wrong reason rest => exact Or.inr ⟨_, hs, Or.inr ⟨reason, rest, hv⟩⟩
      | tooManyDigits count => exact Or.inl ⟨_, .digits hs hv⟩
      | tooDeep bracket => exact Or.inl ⟨_, .depth hs hv⟩

end Load

/-! ## What a file says -/

theorem IsText.unique {bytes : List UInt8} {s s' : List Char} (h : IsText bytes s)
    (h' : IsText bytes s') : s = s' := by
  obtain ⟨t, ht, rfl⟩ := h
  obtain ⟨t', ht', rfl⟩ := h'
  have heq := (Utf8.decode_eq_ok.2 ht).symm.trans (Utf8.decode_eq_ok.2 ht')
  rw [Except.ok.inj heq]

theorem not_fatal_of_ok {bytes : List UInt8} {s : List Char} {v : Value} (hs : IsText bytes s)
    (hv : Json.document s = .ok v) (e : Failure) : ¬ Fatal bytes e := by
  rintro (he | ⟨hs', he⟩ | ⟨hs', he⟩)
  · obtain ⟨t, ht, -⟩ := hs
    exact nomatch he.symm.trans (Utf8.decode_eq_ok.2 ht)
  · exact nomatch (hs.unique hs' ▸ he).symm.trans hv
  · exact nomatch (hs.unique hs' ▸ he).symm.trans hv

/-- JSON is fatal beyond the limits of the reader, and only there. -/
theorem fatal_iff_of_document {bytes : List UInt8} {s : List Char} {limit room : Nat} {v : Value}
    (hs : IsText bytes s) (h : Document limit room s v) :
    (∃ e, Fatal bytes e) ↔ ¬ Document digitLimit depthLimit s v := by
  constructor
  · rintro ⟨e, he⟩ hv
    exact not_fatal_of_ok hs (Json.document_eq_ok.2 hv) e he
  · intro hnot
    rcases h.reads with hv | ⟨-, stop, hstop, hlimit⟩
    · exact absurd (Json.document_eq_ok.1 hv) hnot
    · cases stop with
      | wrong reason rest => exact absurd hlimit id
      | tooManyDigits count => exact ⟨_, .digits hs hstop⟩
      | tooDeep bracket => exact ⟨_, .depth hs hstop⟩
/-- A value that was read as an object was written as one. -/
theorem exists_objectDocument {limit room : Nat} {s : List Char}
    {r : Record CodePoints Value} (h : Document limit room s (.object r)) :
    ∃ fields, ObjectDocument limit room s fields ∧ r = Record.ofList fields := by
  obtain @⟨a, u, b, v, ha, hb, h⟩ := h
  generalize hv : Value.object r = v at h
  cases h with
  | word hw =>
    subst hv
    exact absurd hw (by simp [Json.words])
  | number hn =>
    subst hv
    cases hn
  | text ht => cases hv
  | emptyList hb => cases hv
  | list hs hparts => cases hv
  | emptyObject hgap =>
    obtain rfl := Value.object.inj hv
    exact ⟨[], ⟨ha, hb, .none hgap⟩, rfl⟩
  | object hs hformed hwrites =>
    obtain rfl := Value.object.inj hv
    exact ⟨_, ⟨ha, hb, .some hs hformed hwrites⟩, rfl⟩

/-- An object that is not fatal is read, with all its fields. -/
theorem document_of_isObject {bytes : List UInt8} {fields : List (CodePoints × Value)}
    (h : IsObject bytes fields) (hnot : ∀ e, ¬ Fatal bytes e) :
    ∃ s, IsText bytes s ∧ Json.document s = .ok (.object (Record.ofList fields)) := by
  obtain ⟨s, limit, room, hs, h⟩ := h
  refine ⟨s, hs, ?_⟩
  have hread : Document digitLimit depthLimit s (.object (Record.ofList fields)) :=
    Classical.byContradiction fun hno =>
      absurd ((fatal_iff_of_document hs h.document).2 hno) (not_exists.2 hnot)
  exact Json.document_eq_ok.2 hread

/-- What is loaded from a file that is not fatal. -/
theorem values_of_ok {directory : Path} {m m' : Machine} {bytes : List UInt8}
    (h : Holds directory m m' bytes) {t : Store} (ht : (load directory m).1 = .ok t) :
    t.directory = directory ∧ (∀ fields, IsObject bytes fields → Overrides fields t.values) ∧
      ((∀ fields, ¬ IsObject bytes fields) → t.values = defaults) := by
  have hnot : ∀ e, ¬ Fatal bytes e := by
    intro e he
    rw [load_of_fatal h he] at ht
    exact nomatch ht
  obtain ⟨s, hs, ⟨v, hv⟩ | ⟨reason, rest, hv⟩⟩ := (fatal_or_isText bytes).resolve_left
    (not_exists.2 hnot)
  · rw [load_of_document h hs hv] at ht
    obtain rfl := Except.ok.inj ht
    refine ⟨rfl, fun fields hfields => ?_, fun hnone => ?_⟩
    · obtain ⟨s', hs', hv'⟩ := document_of_isObject hfields hnot
      obtain rfl := hs.unique hs'
      rw [Except.ok.inj (hv.symm.trans hv')]
      exact overrides_merge fields
    · cases v with
      | object r =>
        obtain ⟨fields, hfields, -⟩ := exists_objectDocument (Json.document_eq_ok.1 hv)
        exact absurd ⟨s, _, _, hs, hfields⟩ (hnone fields)
      | null | bool | int | float | text | list | foreign => rfl
  · rw [load_of_wrong h hs hv] at ht
    obtain rfl := Except.ok.inj ht
    refine ⟨rfl, fun fields hfields => ?_, fun _ => rfl⟩
    obtain ⟨s', hs', hv'⟩ := document_of_isObject hfields hnot
    obtain rfl := hs.unique hs'
    exact nomatch hv.symm.trans hv'

/-- Where the file is missing the defaults are loaded. Where there is one, loading fails just if
what it holds is fatal, which JSON is only beyond the limits of the reader. Otherwise an object
overrides the defaults name by name, and with anything else in the file they are loaded as they
are. -/
theorem loaded_values (directory : Path) (m m' : Machine) :
    (Lacks directory m m' → load directory m = (.ok { directory, values := defaults }, m')) ∧
    ∀ bytes, Holds directory m m' bytes →
      (∀ e, (load directory m).1 = .error e ↔ Fatal bytes e) ∧
      (∀ s v limit room, IsText bytes s → Document limit room s v →
        ((∃ e, Fatal bytes e) ↔ ¬ Document digitLimit depthLimit s v)) ∧
      ∀ t, (load directory m).1 = .ok t →
        t.directory = directory ∧ (∀ fields, IsObject bytes fields → Overrides fields t.values) ∧
        ((∀ fields, ¬ IsObject bytes fields) → t.values = defaults) := by
  refine ⟨load_of_lacks, fun bytes h => ⟨fun e => ⟨fun he => ?_, fun he => ?_⟩,
    fun s v limit room hs hv => fatal_iff_of_document hs hv, fun t ht => values_of_ok h ht⟩⟩
  · rcases fatal_or_isText bytes with ⟨e', he'⟩ | ⟨s, hs, ⟨v, hv⟩ | ⟨reason, rest, hv⟩⟩
    · rw [load_of_fatal h he'] at he
      exact Except.error.inj he ▸ he'
    · rw [load_of_document h hs hv] at he
      exact nomatch he
    · rw [load_of_wrong h hs hv] at he
      exact nomatch he
  · rw [load_of_fatal h he]

/-! ## Two files -/

/-- The directory for the settings of a user. -/
def userDirectory : Path := Path.ofText "/home/user/.cplebolt"

/-- A machine with a file of settings. -/
def machineHolding (bytes : List UInt8) : Machine where
  disk := [(["home"], .directory), (["home", "user"], .directory),
    (["home", "user", ".cplebolt"], .directory),
    (["home", "user", ".cplebolt", "config.json"], .file (.bytes bytes))]

/-- An object with one name that is given twice. -/
def repeatedName : List UInt8 := Utf8.encode "\x7b\"a\":1,\"a\":2\x7d"

/-- A field of that object. -/
def digitMember (digit : Char) (n : Nat) : Json.Member where
  name := Text.CodePoints.ofString "a"
  value := .int n
  quoted := ['"', 'a', '"']
  before := []
  after := []
  written := [digit]

theorem formed_digitMember (digit : Char) (n : Nat) : (digitMember digit n).Formed where
  name := .mk (.cons (.plain (by decide) (by decide) (by decide)) .nil)
  before := Json.gap_nil
  after := Json.gap_nil

theorem objectDocument_repeatedName :
    ObjectDocument digitLimit depthLimit "\x7b\"a\":1,\"a\":2\x7d".toList
      [("a", .int 1), ("a", .int 2)] := by
  have hnone : Json.Gap [] := Json.gap_nil
  have hrow : Json.Row ([digitMember '1' 1, digitMember '2' 2].map Json.Member.text)
      "\"a\":1,\"a\":2".toList := .more hnone hnone (.one hnone hnone)
  have hdigit : ∀ n : Nat, n < 10 → Json.Numeral digitLimit (Number.text n).toList (.int n) :=
    fun n hn => Json.numeral_text (Number.lt_digitBound (k := 1) (by decide) hn)
  have hone : Json.Numeral digitLimit ['1'] (.int 1) := hdigit 1 (by decide)
  have htwo : Json.Numeral digitLimit ['2'] (.int 2) := hdigit 2 (by decide)
  have hwrites : Json.WritesFields digitLimit depthLimit "\x7b\"a\":1,\"a\":2\x7d".toList
      [("a", .int 1), ("a", .int 2)] := by
    refine .some hrow ?_ ?_
    · exact List.forall_mem_cons.2
        ⟨formed_digitMember '1' 1, List.forall_mem_singleton.2 (formed_digitMember '2' 2)⟩
    · exact List.forall_mem_cons.2 ⟨.number hone, List.forall_mem_singleton.2 (.number htwo)⟩
  exact .mk hnone hnone hwrites

/-- The file is read if it is looked up as it lies there. -/
theorem holds_of_evaluation {m : Machine} {bytes : List UInt8}
    (hmade : (Machine.makeDirectories userDirectory m).1.toOption = some ())
    (hseen : ((Machine.makeDirectories userDirectory m).2.pathExists
      (fileIn userDirectory).text).toOption = some true)
    (hopened : ((Machine.makeDirectories userDirectory m).2.lookUp .openFile
      (fileIn userDirectory).text).toOption =
        some (["home", "user", ".cplebolt", "config.json"], some (.file (.bytes bytes)))) :
    Holds userDirectory m (Machine.makeDirectories userDirectory m).2 bytes :=
  ⟨Action.eq_of_toOption hmade, Action.eq_ok_of_toOption hseen, _, _,
    Action.eq_ok_of_toOption hopened, rfl⟩

theorem loaded_values_of_repeatedName :
    ∃ t, (load userDirectory (machineHolding repeatedName)).1 = .ok t ∧
      t.get? "a" = some (.int 2) ∧
      t.values.keys = defaults.keys ++ [Text.CodePoints.ofString "a"] := by
  have hholds : Holds userDirectory (machineHolding repeatedName)
      (Machine.makeDirectories userDirectory (machineHolding repeatedName)).2 repeatedName :=
    holds_of_evaluation (by decide +kernel) (by decide +kernel) (by decide +kernel)
  have hs : IsText repeatedName "\x7b\"a\":1,\"a\":2\x7d".toList := ⟨_, rfl, by decide⟩
  obtain ⟨-, hfile⟩ := loaded_values userDirectory (machineHolding repeatedName)
    (Machine.makeDirectories userDirectory (machineHolding repeatedName)).2
  obtain ⟨hfails, hbeyond, hloads⟩ := hfile repeatedName hholds
  cases hload : (load userDirectory (machineHolding repeatedName)).1 with
  | error e =>
    have hfatal := (hbeyond _ _ _ _ hs objectDocument_repeatedName.document).1
      ⟨e, (hfails e).1 hload⟩
    exact absurd objectDocument_repeatedName.document hfatal
  | ok t =>
    obtain ⟨-, hobject, -⟩ := hloads t hload
    have hover := hobject _ ⟨_, _, _, hs, objectDocument_repeatedName⟩
    refine ⟨t, rfl, (hover.values _).trans rfl, hover.names.trans ?_⟩
    decide

/-- Bytes that are no text are not passed over. -/
theorem load_of_strayByte :
    Holds userDirectory (machineHolding [255])
      (Machine.makeDirectories userDirectory (machineHolding [255])).2 [255] ∧
    (load userDirectory (machineHolding [255])).1 =
      .error (.notText { offset := 0, length := 1, first := 255, reason := .invalidStart }) := by
  have hholds : Holds userDirectory (machineHolding [255])
      (Machine.makeDirectories userDirectory (machineHolding [255])).2 [255] :=
    holds_of_evaluation (by decide +kernel) (by decide +kernel) (by decide +kernel)
  refine ⟨hholds, ?_⟩
  rw [load_of_fatal hholds (.notText rfl)]

end Workbench.Settings.Store
