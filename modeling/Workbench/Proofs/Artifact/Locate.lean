import Mathlib.Data.List.Forall2
import Workbench.Artifact
import Workbench.Proofs.Machine.LookUp
import Workbench.Proofs.Text.Passed

/-!
# Where a search ends

A search expands all templates before it looks at anything, and then it stops at the first
candidate that is not absent.

* `Expands m source t c`, `Malformed m source t shown fault` : what becomes of a template;
* `Absent m c` : the system says that there is nothing at a candidate;
* `Candidate.exists_never_iff` : the texts with which the system cannot be asked;
* `Ends m looked rest answer` : candidates were looked at, others were left, and this is the answer;
* `locate_ends` : the answer of a search in every case.

A candidate with halves of surrogate pairs that stand for no bytes cannot be looked at. It is not
absent, and a search that comes to it fails in a way of its own. The other halves are passed as bytes.
-/

namespace Workbench.Artifact
open Settings (Value)

/-! ## Templates -/

/-- The text of a template leads to a candidate, whose path has no null character. -/
def Expands (m : Machine) (source : String) (t : Value) (c : Candidate) : Prop :=
  ∃ s text, t = .text s ∧ Template.expand (values m.directoryText source).get? s = .ok text ∧
    c = .ofText text ∧ '\x00' ∉ c.path.text.toList

/-- A template has a fault of its own. A value that is no text has no way to be expanded. -/
inductive Malformed (m : Machine) (source : String) : Value → String → Template.Fault → Prop
  | text {s : Text.CodePoints} {fault : Template.Fault}
      (h : Template.expand (values m.directoryText source).get? s = .error fault)
      (hfault : fault.isInTemplate = true) : Malformed m source (.text s) s.quoted fault
  | other {v : Value} {shown : String} (h : ∀ s, v ≠ .text s) (hshown : v.quoted? = some shown) :
      Malformed m source v shown (.noAttribute v.kind "format")

theorem Expands.candidate_eq {m : Machine} {source : String} {t : Value} {c : Candidate}
    (h : Expands m source t c) : candidate (values m.directoryText source) t = .ok c := by
  obtain ⟨s, text, rfl, htext, rfl, -⟩ := h
  unfold candidate
  dsimp only
  rw [htext]

theorem templateFailure_of_quoted {t : Value} {shown : String} (h : t.quoted? = some shown)
    (fault : Template.Fault) : templateFailure t fault = .badTemplate shown fault := by
  unfold templateFailure
  rw [h]

theorem Malformed.candidate_eq {m : Machine} {source : String} {t : Value} {shown : String}
    {fault : Template.Fault} (h : Malformed m source t shown fault) :
    candidate (values m.directoryText source) t = .error (.badTemplate shown fault) := by
  cases h with
  | @text s fault h hfault =>
    unfold candidate
    dsimp only
    rw [h]
    dsimp only
    rw [if_pos hfault]
    exact congrArg Except.error (templateFailure_of_quoted rfl fault)
  | other h hshown =>
    unfold candidate
    split
    next s => exact absurd rfl (h s)
    next => exact congrArg Except.error (templateFailure_of_quoted hshown _)

theorem candidatesFor_append (fields : Record String String) (ts more : List Value) :
    candidatesFor fields (ts ++ more) =
      match candidatesFor fields ts with
      | .ok cs => (candidatesFor fields more).map (cs ++ ·)
      | .error e => .error e := by
  induction ts with
  | nil =>
    show candidatesFor fields more = (candidatesFor fields more).map ([] ++ ·)
    cases candidatesFor fields more <;> rfl
  | cons t ts ih =>
    rw [List.cons_append, candidatesFor, candidatesFor, ih]
    cases candidate fields t with
    | error e => rfl
    | ok c =>
      cases candidatesFor fields ts with
      | error e => rfl
      | ok cs => cases candidatesFor fields more <;> rfl

theorem candidatesFor_eq_ok {fields : Record String String} {ts : List Value}
    {cs : List Candidate} (h : List.Forall₂ (fun t c => candidate fields t = .ok c) ts cs) :
    candidatesFor fields ts = .ok cs := by
  induction h with
  | nil => rfl
  | cons ht _ ih => rw [candidatesFor, ht, ih]

/-- The first template that fails decides, whatever comes after it. -/
theorem candidatesFor_eq_error {fields : Record String String} {before after : List Value}
    {cs : List Candidate} {t : Value} {failure : Failure}
    (hbefore : List.Forall₂ (fun t c => candidate fields t = .ok c) before cs)
    (ht : candidate fields t = .error failure) :
    candidatesFor fields (before ++ t :: after) = .error failure := by
  rw [candidatesFor_append, candidatesFor_eq_ok hbefore, candidatesFor, ht]
  rfl

theorem candidatesFor_of_expands {m : Machine} {source : String} {ts : List Value}
    {cs : List Candidate} (h : List.Forall₂ (Expands m source) ts cs) :
    candidatesFor (values m.directoryText source) ts = .ok cs :=
  candidatesFor_eq_ok (h.imp fun _ _ => Expands.candidate_eq)

theorem candidatesFor_of_malformed {m : Machine} {source : String} {before after : List Value}
    {cs : List Candidate} {t : Value} {shown : String} {fault : Template.Fault}
    (hbefore : List.Forall₂ (Expands m source) before cs) (ht : Malformed m source t shown fault) :
    candidatesFor (values m.directoryText source) (before ++ t :: after) =
      .error (.badTemplate shown fault) :=
  candidatesFor_eq_error (hbefore.imp fun _ _ => Expands.candidate_eq) ht.candidate_eq

/-- Where each template leads to a candidate or is of another kind, all of them lead to one, or there
is a first one of the other kind. -/
theorem forall₂_or_first {α β : Type} {leads : α → β → Prop} {other : α → Prop} {ts : List α}
    (h : ∀ t ∈ ts, (∃ c, leads t c) ∨ other t) :
    (∃ cs, List.Forall₂ leads ts cs) ∨
      ∃ before t after cs, ts = before ++ t :: after ∧ List.Forall₂ leads before cs ∧ other t := by
  induction ts with
  | nil => exact .inl ⟨[], .nil⟩
  | cons t ts ih =>
    obtain ⟨ht, hts⟩ := List.forall_mem_cons.1 h
    rcases ht with ⟨c, hc⟩ | ht
    · rcases ih hts with ⟨cs, hcs⟩ | ⟨before, u, after, cs, rfl, hbefore, hu⟩
      · exact .inl ⟨c :: cs, .cons hc hcs⟩
      · exact .inr ⟨t :: before, u, after, c :: cs, rfl, .cons hc hbefore, hu⟩
    · exact .inr ⟨[], t, ts, [], rfl, .nil, ht⟩

/-- All templates expand, or there is a first one that is malformed. -/
theorem expands_or_malformed {m : Machine} {source : String} {ts : List Value}
    (h : ∀ t ∈ ts, (∃ c, Expands m source t c) ∨ ∃ shown fault, Malformed m source t shown fault) :
    (∃ cs, List.Forall₂ (Expands m source) ts cs) ∨
      ∃ before t after cs shown fault, ts = before ++ t :: after ∧
        List.Forall₂ (Expands m source) before cs ∧ Malformed m source t shown fault := by
  refine (forall₂_or_first h).imp_right ?_
  rintro ⟨before, t, after, cs, hts, hbefore, shown, fault, ht⟩
  exact ⟨before, t, after, cs, shown, fault, hts, hbefore, ht⟩

theorem exists_candidates {m : Machine} {source : String} {ts : List Value}
    (h : ∀ t ∈ ts, ∃ c, Expands m source t c) :
    ∃ cs, List.Forall₂ (Expands m source) ts cs := by
  induction ts with
  | nil => exact ⟨[], .nil⟩
  | cons t ts ih =>
    obtain ⟨c, hc⟩ := h t List.mem_cons_self
    obtain ⟨cs, hcs⟩ := ih fun u hu => h u (List.mem_cons_of_mem t hu)
    exact ⟨c :: cs, .cons hc hcs⟩

theorem no_null_of_expands {m : Machine} {source : String} {ts : List Value} {cs : List Candidate}
    (h : List.Forall₂ (Expands m source) ts cs) : ∀ c ∈ cs, '\x00' ∉ c.path.text.toList := by
  induction h with
  | nil => exact fun c hc => absurd hc List.not_mem_nil
  | cons ht _ ih =>
    intro c hc
    rcases List.mem_cons.1 hc with rfl | hc
    · obtain ⟨_, _, _, _, _, hnull⟩ := ht
      exact hnull
    · exact ih c hc

/-! ## Looking at a candidate -/

/-- The system says that there is nothing at the candidate. -/
def Absent (m : Machine) (c : Candidate) : Prop :=
  ∃ e, c.status m = .error (.os e) ∧ e.fault.isAbsence = true

theorem Candidate.status_of_text {c : Candidate} (h : c.passing = .text) (m : Machine) :
    c.status m = m.stat c.path.text := by
  unfold status
  rw [h]

theorem Candidate.status_of_never {c : Candidate} {halves : Text.Halves}
    (h : c.passing = .never halves) (m : Machine) : c.status m = .error (.unwritable halves) := by
  unfold status
  rw [h]

/-- A text is not passed to the system if and only if one of its halves stands for no byte. -/
theorem Candidate.exists_never_iff {s : Text.CodePoints} :
    (∃ halves, (ofText s).passing = .never halves) ↔ ∃ c ∈ s, c.isLost = true := by
  rw [← Text.CodePoints.exists_passed_never_iff]
  unfold ofText
  cases s.passed <;> simp

/-- The system has an answer for every path that can be passed to it. -/
theorem Candidate.status_cases {m : Machine} {c : Candidate}
    (hnull : '\x00' ∉ c.path.text.toList) :
    (∃ node, c.status m = .ok node) ∨ (∃ e, c.status m = .error (.os e)) ∨
      ∃ halves, c.passing = .never halves := by
  cases h : c.passing with
  | text =>
    rw [status_of_text h]
    exact (Machine.stat_cases hnull).imp_right .inl
  | bytes p =>
    unfold status Machine.statBytes
    rw [h]
    dsimp only
    rw [if_neg hnull]
    split
    · exact (Machine.stat_cases hnull).imp_right .inl
    · split <;> exact .inr (.inl ⟨_, rfl⟩)
  | never halves => exact .inr (.inr ⟨halves, rfl⟩)

theorem Absent.present_eq {m : Machine} {c : Candidate} (h : Absent m c) :
    present m c = .ok false := by
  obtain ⟨e, he, ha⟩ := h
  unfold present
  rw [he]
  exact if_pos ha

theorem present_of_status {m : Machine} {c : Candidate} {node : Machine.Node}
    (h : c.status m = .ok node) : present m c = .ok true := by
  unfold present
  rw [h]

theorem present_of_refusal {m : Machine} {c : Candidate} {e : Machine.OsError}
    (h : c.status m = .error (.os e)) (ha : e.fault.isAbsence = false) :
    present m c = .error (.cannotCheck c.path.text e) := by
  unfold present
  rw [h]
  exact if_neg (Bool.eq_false_iff.1 ha)

theorem present_of_never {m : Machine} {c : Candidate} {halves : Text.Halves}
    (hc : c.passing = .never halves) : present m c = .error (.unwritable halves) := by
  unfold present
  rw [Candidate.status_of_never hc]

/-! ## Looking at candidates in a row -/

/-- How looking at candidates in a row ends. All of them are absent, or there is something at the
last one that was looked at, or the system refuses to look there, or it cannot be asked to. -/
inductive Ends (m : Machine) :
    List Candidate → List Candidate → Except Failure Lookup → Prop
  | missing {looked : List Candidate} (h : ∀ c ∈ looked, Absent m c) :
      Ends m looked [] (.ok { path := none, candidates := looked.map Candidate.path })
  | found {before rest : List Candidate} {c : Candidate} {node : Machine.Node}
      (h : ∀ b ∈ before, Absent m b) (hstatus : c.status m = .ok node) :
      Ends m (before ++ [c]) rest
        (.ok { path := some c.path, candidates := (before ++ [c]).map Candidate.path })
  | refused {before rest : List Candidate} {c : Candidate} {e : Machine.OsError}
      (h : ∀ b ∈ before, Absent m b) (hstatus : c.status m = .error (.os e))
      (he : e.fault.isAbsence = false) :
      Ends m (before ++ [c]) rest (.error (.cannotCheck c.path.text e))
  | unwritable {before rest : List Candidate} {c : Candidate} {halves : Text.Halves}
      (h : ∀ b ∈ before, Absent m b) (hc : c.passing = .never halves) :
      Ends m (before ++ [c]) rest (.error (.unwritable halves))

/-- The lookup with paths that were looked at before. -/
def Lookup.after (before : List Candidate) (l : Lookup) : Lookup :=
  { l with candidates := before.map Candidate.path ++ l.candidates }

/-- Absent candidates are passed. -/
theorem search_append {m : Machine} {before : List Candidate} (h : ∀ b ∈ before, Absent m b)
    (rest : List Candidate) :
    search m (before ++ rest) = (search m rest).map (Lookup.after before) := by
  induction before with
  | nil =>
    show search m rest = (search m rest).map (Lookup.after [])
    cases search m rest <;> rfl
  | cons b before ih =>
    have hb : present m b = .ok false := (h b List.mem_cons_self).present_eq
    rw [List.cons_append, search, hb]
    dsimp only
    rw [ih fun c hc => h c (List.mem_cons_of_mem b hc)]
    cases search m rest <;> rfl

/-- A failure to look at a candidate ends the search, as far as all before it are absent. -/
theorem search_of_error {m : Machine} {before rest : List Candidate} {c : Candidate}
    {failure : Failure} (h : ∀ b ∈ before, Absent m b) (hc : present m c = .error failure) :
    search m (before ++ [c] ++ rest) = .error failure := by
  rw [List.append_assoc, search_append h, List.singleton_append, search, hc]
  rfl

theorem Ends.search_eq {m : Machine} {looked rest : List Candidate}
    {answer : Except Failure Lookup} (h : Ends m looked rest answer) :
    search m (looked ++ rest) = answer := by
  cases h with
  | missing h =>
    rw [search_append h]
    show Except.ok _ = _
    rw [Lookup.after, List.append_nil]
  | @found before rest c node h hstatus =>
    rw [List.append_assoc, search_append h, List.singleton_append, search,
      present_of_status hstatus, List.map_append]
    rfl
  | refused h hstatus he => exact search_of_error h (present_of_refusal hstatus he)
  | unwritable h hc => exact search_of_error h (present_of_never hc)

theorem absent_congr {m m' : Machine} {cs : List Candidate} (h : ∀ c ∈ cs, Absent m c)
    (hstatus : ∀ c ∈ cs, c.status m' = c.status m) : ∀ c ∈ cs, Absent m' c := by
  intro c hc
  obtain ⟨e, he, ha⟩ := h c hc
  exact ⟨e, (hstatus c hc).trans he, ha⟩

/-- Only what the system says about the candidates that were looked at matters to the end. -/
theorem Ends.congr {m m' : Machine} {looked rest : List Candidate}
    {answer : Except Failure Lookup} (h : Ends m looked rest answer)
    (hstatus : ∀ c ∈ looked, c.status m' = c.status m) : Ends m' looked rest answer := by
  cases h with
  | missing h => exact .missing (absent_congr h hstatus)
  | @found before rest c node h hnode =>
    obtain ⟨hbefore, hlast⟩ := List.forall_mem_append.1 hstatus
    exact .found (absent_congr h hbefore) ((hlast c List.mem_cons_self).trans hnode)
  | @refused before rest c e h herror he =>
    obtain ⟨hbefore, hlast⟩ := List.forall_mem_append.1 hstatus
    exact .refused (absent_congr h hbefore) ((hlast c List.mem_cons_self).trans herror) he
  | unwritable h hc =>
    obtain ⟨hbefore, -⟩ := List.forall_mem_append.1 hstatus
    exact .unwritable (absent_congr h hbefore) hc

/-- A search that found something or failed does not come to candidates that are added. -/
theorem Ends.append {m : Machine} {looked rest : List Candidate}
    {answer : Except Failure Lookup} (h : Ends m looked rest answer)
    (hanswer : ∀ l, answer = .ok l → l.found = true) (more : List Candidate) :
    Ends m looked (rest ++ more) answer := by
  cases h with
  | missing h => exact absurd (hanswer _ rfl) Bool.false_ne_true
  | found h hstatus => exact .found h hstatus
  | refused h hstatus he => exact .refused h hstatus he
  | unwritable h hc => exact .unwritable h hc

/-- An absent candidate before those that were looked at. -/
theorem Ends.cons {m : Machine} {looked rest : List Candidate} {answer : Except Failure Lookup}
    {b : Candidate} (hb : Absent m b) (h : Ends m looked rest answer) :
    Ends m (b :: looked) rest (answer.map (Lookup.after [b])) := by
  have hcons : ∀ {before : List Candidate}, (∀ c ∈ before, Absent m c) →
      ∀ c ∈ b :: before, Absent m c := fun h => List.forall_mem_cons.2 ⟨hb, h⟩
  cases h with
  | missing h => exact .missing (hcons h)
  | found h hstatus => exact .found (hcons h) hstatus
  | refused h hstatus he => exact .refused (hcons h) hstatus he
  | unwritable h hc => exact .unwritable (hcons h) hc

/-- A search ends in one of the four ways. -/
theorem ends_search (m : Machine) {cs : List Candidate}
    (hnull : ∀ c ∈ cs, '\x00' ∉ c.path.text.toList) :
    ∃ looked rest answer, cs = looked ++ rest ∧ Ends m looked rest answer := by
  induction cs with
  | nil => exact ⟨[], [], _, rfl, .missing fun c hc => absurd hc List.not_mem_nil⟩
  | cons c cs ih =>
    have hnone : ∀ b ∈ ([] : List Candidate), Absent m b := fun b hb => absurd hb List.not_mem_nil
    rcases Candidate.status_cases (m := m) (hnull c List.mem_cons_self) with
      ⟨node, hs⟩ | ⟨e, hs⟩ | ⟨halves, hc⟩
    · exact ⟨[c], cs, _, rfl, .found hnone hs⟩
    · cases he : e.fault.isAbsence with
      | false => exact ⟨[c], cs, _, rfl, .refused hnone hs he⟩
      | true =>
        obtain ⟨looked, rest, answer, rfl, h⟩ := ih fun b hb => hnull b (List.mem_cons_of_mem c hb)
        exact ⟨c :: looked, rest, _, rfl, h.cons ⟨e, hs, he⟩⟩
    · exact ⟨[c], cs, _, rfl, .unwritable hnone hc⟩

/-! ## The search for a program -/

/-- Of the machine, only the directory matters to what becomes of the templates. -/
theorem candidates_congr {m m' : Machine} (h : m'.directory = m.directory) (source : String)
    (ts : List Value) :
    candidates m'.directoryText source ts = candidatesFor (values m.directoryText source) ts := by
  unfold candidates Machine.directoryText
  rw [h]

theorem locate_of_expands {m m' : Machine} {source : String} {ts : List Value}
    {cs : List Candidate} (hm : m'.directory = m.directory)
    (h : List.Forall₂ (Expands m source) ts cs) : locate m' source ts = search m' cs := by
  unfold locate
  rw [candidates_congr hm, candidatesFor_of_expands h]

theorem locate_of_malformed {m m' : Machine} {source : String} {before after : List Value}
    {cs : List Candidate} {t : Value} {shown : String} {fault : Template.Fault}
    (hm : m'.directory = m.directory) (hbefore : List.Forall₂ (Expands m source) before cs)
    (ht : Malformed m source t shown fault) :
    locate m' source (before ++ t :: after) = .error (.badTemplate shown fault) := by
  unfold locate
  rw [candidates_congr hm, candidatesFor_of_malformed hbefore ht]

/-- The first malformed template is reported, and nothing was looked at for that: what is on the
disk and which calls are refused does not matter. If all templates expand, the candidates are looked
at in order until one is not absent, and the others do not matter. So templates that are added
change the answer only of a search that found nothing. -/
theorem locate_ends (m : Machine) (source : String) (templates extras : List Value)
    (h : ∀ t ∈ templates ++ extras,
      (∃ c, Expands m source t c) ∨ ∃ shown fault, Malformed m source t shown fault) :
    ((∃ before t after cs shown fault, templates ++ extras = before ++ t :: after ∧
        List.Forall₂ (Expands m source) before cs ∧ Malformed m source t shown fault ∧
        ∀ m' : Machine, m'.directory = m.directory →
          locate m' source (templates ++ extras) = .error (.badTemplate shown fault)) ∨
      ∃ looked rest, List.Forall₂ (Expands m source) (templates ++ extras) (looked ++ rest) ∧
        Ends m looked rest (locate m source (templates ++ extras)) ∧
        ∀ m' : Machine, m'.directory = m.directory →
          (∀ c ∈ looked, c.status m' = c.status m) →
          locate m' source (templates ++ extras) = locate m source (templates ++ extras)) ∧
    ((∀ t ∈ extras, ∃ c, Expands m source t c) →
      (∀ l, locate m source templates = .ok l → l.found = true) →
      locate m source (templates ++ extras) = locate m source templates) := by
  constructor
  · rcases expands_or_malformed h with
      ⟨cs, hcs⟩ | ⟨before, t, after, cs, shown, fault, hts, hbefore, ht⟩
    · obtain ⟨looked, rest, answer, rfl, hends⟩ := ends_search m (no_null_of_expands hcs)
      have hlocate : locate m source (templates ++ extras) = answer :=
        (locate_of_expands rfl hcs).trans hends.search_eq
      refine Or.inr ⟨looked, rest, hcs, ?_, fun m' hm hstatus => ?_⟩
      · rw [hlocate]
        exact hends
      · rw [hlocate, locate_of_expands hm hcs]
        exact (hends.congr hstatus).search_eq
    · refine Or.inl ⟨before, t, after, cs, shown, fault, hts, hbefore, ht, fun m' hm => ?_⟩
      rw [hts]
      exact locate_of_malformed hm hbefore ht
  · intro hextras hfound
    obtain ⟨ds, hds⟩ := exists_candidates hextras
    rcases expands_or_malformed fun t ht => h t (List.mem_append_left extras ht) with
      ⟨cs, hcs⟩ | ⟨before, t, after, cs, shown, fault, rfl, hbefore, ht⟩
    · obtain ⟨looked, rest, answer, rfl, hends⟩ := ends_search m (no_null_of_expands hcs)
      have hlocate : locate m source templates = answer :=
        (locate_of_expands rfl hcs).trans hends.search_eq
      have hall : List.Forall₂ (Expands m source) (templates ++ extras) (looked ++ rest ++ ds) :=
        List.rel_append hcs hds
      rw [hlocate] at hfound ⊢
      rw [locate_of_expands rfl hall, List.append_assoc]
      exact (hends.append hfound ds).search_eq
    · rw [List.append_assoc, List.cons_append, locate_of_malformed rfl hbefore ht,
        locate_of_malformed rfl hbefore ht]

theorem expands_of_expand {m : Machine} {source : String} {s text : Text.CodePoints}
    (h : (Template.expand (values m.directoryText source).get? s).toOption = some text)
    (hnull : '\x00' ∉ (Candidate.ofText text).path.text.toList) :
    Expands m source (.text s) (.ofText text) := by
  refine ⟨s, text, rfl, ?_, rfl, hnull⟩
  cases hs : Template.expand (values m.directoryText source).get? s with
  | ok t =>
    rw [hs] at h
    exact congrArg Except.ok (Option.some.inj h)
  | error fault =>
    rw [hs] at h
    exact absurd h.symm (Option.some_ne_none text)

/-- A machine on which a program stands beside its source. -/
def builtMachine : Machine where
  disk := [(["w"], .directory), (["w", "hello.cple"], .file (.bytes [])),
    (["w", "hello"], .file (.bytes []))]

/-- The program was found at the second place already. -/
theorem locate_builtMachine :
    (∃ c, Expands builtMachine "/w/hello.cple" (.text "\x7bdir\x7d/\x7bbase\x7d.out") c) ∧
      locate builtMachine "/w/hello.cple"
          ([.text "\x7bdir\x7d/\x7bbase\x7d.exe", .text "\x7bdir\x7d/\x7bbase\x7d"] ++
            [.text "\x7bdir\x7d/\x7bbase\x7d.out"]) =
        .ok { path := some (Path.ofText "/w/hello"),
              candidates := [Path.ofText "/w/hello.exe", Path.ofText "/w/hello"] } := by
  have hexe : Expands builtMachine "/w/hello.cple" (.text "\x7bdir\x7d/\x7bbase\x7d.exe")
      (.ofText "/w/hello.exe") := expands_of_expand (by decide +kernel) (by decide +kernel)
  have hbase : Expands builtMachine "/w/hello.cple" (.text "\x7bdir\x7d/\x7bbase\x7d")
      (.ofText "/w/hello") := expands_of_expand (by decide +kernel) (by decide +kernel)
  have hout : Expands builtMachine "/w/hello.cple" (.text "\x7bdir\x7d/\x7bbase\x7d.out")
      (.ofText "/w/hello.out") := expands_of_expand (by decide +kernel) (by decide +kernel)
  have hfirst : locate builtMachine "/w/hello.cple"
      [.text "\x7bdir\x7d/\x7bbase\x7d.exe", .text "\x7bdir\x7d/\x7bbase\x7d"] =
        .ok { path := some (Path.ofText "/w/hello"),
              candidates := [Path.ofText "/w/hello.exe", Path.ofText "/w/hello"] } := by
    decide +kernel
  refine ⟨⟨_, hout⟩, ?_⟩
  rw [(locate_ends builtMachine "/w/hello.cple" _ _ ?_).2 ?_ ?_]
  · exact hfirst
  · intro t ht
    simp only [List.cons_append, List.nil_append, List.mem_cons, List.not_mem_nil, or_false] at ht
    rcases ht with rfl | rfl | rfl
    · exact Or.inl ⟨_, hexe⟩
    · exact Or.inl ⟨_, hbase⟩
    · exact Or.inl ⟨_, hout⟩
  · intro t ht
    obtain rfl := List.mem_singleton.1 ht
    exact ⟨_, hout⟩
  · intro l hl
    rw [hfirst] at hl
    obtain rfl := Except.ok.inj hl
    rfl

/-- A half that stands for a byte is passed to the system, and no name is this byte alone. -/
example : locate {} "/w/hello.cple" [.text [.half 0x480]] =
    .ok { path := none, candidates := [Path.ofText "\uFFFD"] } := by decide +kernel

/-- A candidate with half of a surrogate pair is no path that could not be checked: the search fails
as a file does that should be written with such a text. -/
theorem locate_half :
    Expands {} "/w/hello.cple" (.text [.half 0]) (.ofText [.half 0]) ∧
      locate {} "/w/hello.cple" [.text [.half 0]] =
        .error (.unwritable { offset := 0, length := 1, first := .half 0 }) ∧
      ∀ path cause,
        locate {} "/w/hello.cple" [.text [.half 0]] ≠ .error (.cannotCheck path cause) := by
  have hlocate : locate {} "/w/hello.cple" [.text [.half 0]] =
      .error (.unwritable { offset := 0, length := 1, first := .half 0 }) := by
    decide +kernel
  refine ⟨expands_of_expand (by decide +kernel) (by decide +kernel), hlocate, ?_⟩
  intro path cause h
  rw [hlocate] at h
  exact nomatch Except.error.inj h

end Workbench.Artifact
