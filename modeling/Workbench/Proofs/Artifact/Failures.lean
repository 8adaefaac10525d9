import Workbench.Proofs.Artifact.Defaults
import Workbench.Proofs.Template.Faults

/-!
# How a search fails

A search for a program that fails says so in one of two ways, that a template is bad or that a
candidate cannot be checked, unless it breaks off before it can tell.

* `Fails m source ts failure` : the first thing that is wrong with the templates or, if nothing is,
  with the first candidate that is not absent (`locate_eq_error_iff`);
* `Failure.IsReport` : the two ways in which a search says what is wrong;
* `Breaks m source ts failure` : a template asks for what its things do not have, or a path cannot be
  passed to the system (`answers_or_reports_iff`);
* `withDefaults extras` : the templates of a search to which some are added
  (`exists_fails_of_faulty`).
-/

namespace Workbench

/-- A template is bad, or a candidate cannot be checked. -/
def Failure.IsReport : Failure → Prop
  | .badTemplate _ _ | .cannotCheck _ _ => True
  | _ => False

namespace Artifact

open Text (CodePoints)
open Template (Fault)

variable {m : Machine} {source : String} {ts : List CodePoints} {failure : Failure}

/-! ## Templates -/

/-- A template has a text, and the text leads to a candidate. -/
def Names (m : Machine) (source : String) (t : CodePoints) (c : Candidate) : Prop :=
  ∃ text, Template.expand (values m.directoryText source).get? t = .ok text ∧ c = .ofText text

/-- A template has no text. -/
def Faulty (m : Machine) (source : String) (t : CodePoints) (fault : Fault) : Prop :=
  Template.expand (values m.directoryText source).get? t = .error fault

/-- The failure of a template: that of a template, unless the fault is in the things it reaches. -/
def failureOf (t : CodePoints) (fault : Fault) : Failure :=
  if fault.isInTemplate then .badTemplate t.quoted fault else .misuse fault

theorem names_or_faulty (m : Machine) (source : String) (t : CodePoints) :
    (∃ c, Names m source t c) ∨ ∃ fault, Faulty m source t fault := by
  unfold Names Faulty
  cases Template.expand (values m.directoryText source).get? t with
  | ok text => exact .inl ⟨_, text, rfl, rfl⟩
  | error fault => exact .inr ⟨fault, rfl⟩

theorem Names.candidate_eq {t : CodePoints} {c : Candidate} (h : Names m source t c) :
    candidate (values m.directoryText source) (.text t) = .ok c := by
  obtain ⟨text, htext, rfl⟩ := h
  unfold candidate
  dsimp only
  rw [htext]

theorem Faulty.candidate_eq {t : CodePoints} {fault : Fault} (h : Faulty m source t fault) :
    candidate (values m.directoryText source) (.text t) = .error (failureOf t fault) := by
  unfold candidate
  dsimp only
  rw [h]
  rfl

theorem forall₂_candidate {cs : List Candidate} (h : List.Forall₂ (Names m source) ts cs) :
    List.Forall₂ (fun t c => candidate (values m.directoryText source) t = .ok c)
      (ts.map .text) cs :=
  List.forall₂_map_left_iff.2 (h.imp fun _ _ => Names.candidate_eq)

/-- All templates have texts, or there is a first one that has none. -/
theorem names_or_first_faulty (m : Machine) (source : String) (ts : List CodePoints) :
    (∃ cs, List.Forall₂ (Names m source) ts cs) ∨
      ∃ before t after cs, ts = before ++ t :: after ∧
        List.Forall₂ (Names m source) before cs ∧ ∃ fault, Faulty m source t fault :=
  forall₂_or_first fun t _ => names_or_faulty m source t

/-- Templates that lead to candidates have texts. -/
theorem not_faulty_of_names {cs : List Candidate} (h : List.Forall₂ (Names m source) ts cs) :
    ∀ t ∈ ts, ∀ fault, ¬ Faulty m source t fault := by
  have hboth : List.Forall₂ (fun t c => (∀ fault, ¬ Faulty m source t fault) ∧ Names m source t c)
      ts cs := by
    refine h.imp fun t c hc => ⟨fun fault ht => ?_, hc⟩
    obtain ⟨text, htext, -⟩ := hc
    exact nomatch htext.symm.trans ht
  exact ((List.forall₂_and_left ts cs).1 hboth).1

/-! ## Candidates -/

/-- It cannot be found out whether there is something at a candidate. The system refuses to look
there, or its path cannot be passed to the system. -/
inductive Unknown (m : Machine) (c : Candidate) : Failure → Prop
  | refused {e : Machine.OsError} (hstatus : c.status m = .error (.os e))
      (he : e.fault.isAbsence = false) : Unknown m c (.cannotCheck c.path.text e)
  | unwritable {halves : Text.Halves} (hc : c.passing = .never halves) :
      Unknown m c (.unwritable halves)
  | nullInPath (hc : ∀ halves, c.passing ≠ .never halves) (hnull : '\x00' ∈ c.path.text.toList) :
      Unknown m c .nullInPath

theorem Candidate.status_of_null {c : Candidate} (hc : ∀ halves, c.passing ≠ .never halves)
    (h : '\x00' ∈ c.path.text.toList) : c.status m = .error .nullInPath := by
  have hstat : m.stat c.path.text = .error .nullInPath := by
    unfold Machine.stat Machine.lookUp
    rw [if_pos h]
  unfold status Machine.statBytes
  split
  · exact hstat
  · rw [if_pos h, hstat, ite_self]
  · next halves hnever => exact absurd hnever (hc halves)

theorem Unknown.present_eq {c : Candidate} (h : Unknown m c failure) :
    present m c = .error failure := by
  cases h with
  | refused hstatus he => exact present_of_refusal hstatus he
  | unwritable hc => exact present_of_never hc
  | nullInPath hc hnull =>
    unfold present
    rw [Candidate.status_of_null hc hnull]

theorem present_cases (m : Machine) (c : Candidate) :
    present m c = .ok true ∨ Absent m c ∨ ∃ failure, Unknown m c failure := by
  by_cases hnever : ∃ halves, c.passing = .never halves
  · obtain ⟨halves, hc⟩ := hnever
    exact .inr (.inr ⟨_, .unwritable hc⟩)
  · by_cases hnull : '\x00' ∈ c.path.text.toList
    · exact .inr (.inr ⟨_, .nullInPath (not_exists.1 hnever) hnull⟩)
    · rcases Candidate.status_cases hnull with ⟨node, hs⟩ | ⟨e, hs⟩ | hc
      · exact .inl (present_of_status hs)
      · cases he : e.fault.isAbsence with
        | false => exact .inr (.inr ⟨_, .refused hs he⟩)
        | true => exact .inr (.inl ⟨e, hs, he⟩)
      · exact absurd hc hnever

theorem search_of_unknown {before rest : List Candidate} {c : Candidate}
    (h : ∀ b ∈ before, Absent m b) (hc : Unknown m c failure) :
    search m (before ++ c :: rest) = .error failure := by
  rw [← List.singleton_append, ← List.append_assoc]
  exact search_of_error h hc.present_eq

/-- A search among candidates comes to an answer, unless it is unknown whether there is something at
the first one that is not absent. -/
theorem search_cases (m : Machine) (cs : List Candidate) :
    (∃ l, search m cs = .ok l) ∨ ∃ before c rest failure, cs = before ++ c :: rest ∧
      (∀ b ∈ before, Absent m b) ∧ Unknown m c failure := by
  -- Induction on the candidates: a search goes on after an absent one and nowhere else.
  induction cs with
  | nil => exact .inl ⟨_, rfl⟩
  | cons c cs ih =>
    rcases present_cases m c with hthere | habsent | ⟨failure, hc⟩
    · refine .inl ⟨{ path := some c.path, candidates := [c.path] }, ?_⟩
      rw [search, hthere]
    · rcases ih with ⟨l, hl⟩ | ⟨before, d, rest, failure, rfl, hbefore, hd⟩
      · refine .inl ⟨{ l with candidates := c.path :: l.candidates }, ?_⟩
        rw [search, habsent.present_eq, hl]
      · exact .inr ⟨c :: before, d, rest, failure, rfl,
          List.forall_mem_cons.2 ⟨habsent, hbefore⟩, hd⟩
    · exact .inr ⟨[], c, cs, failure, rfl, fun b hb => absurd hb List.not_mem_nil, hc⟩

/-! ## The search -/

/-- What is wrong first: with the templates or, if all of them have texts, with the first candidate
that is not absent. -/
inductive Fails (m : Machine) (source : String) : List CodePoints → Failure → Prop
  | template {before after : List CodePoints} {cs : List Candidate} {t : CodePoints} {fault : Fault}
      (hbefore : List.Forall₂ (Names m source) before cs) (ht : Faulty m source t fault) :
      Fails m source (before ++ t :: after) (failureOf t fault)
  | candidate {ts : List CodePoints} {before rest : List Candidate} {c : Candidate}
      {failure : Failure} (h : List.Forall₂ (Names m source) ts (before ++ c :: rest))
      (hbefore : ∀ b ∈ before, Absent m b) (hc : Unknown m c failure) : Fails m source ts failure

theorem Fails.locate_eq (h : Fails m source ts failure) :
    locate m source (ts.map .text) = .error failure := by
  unfold locate candidates
  cases h with
  | template hbefore ht =>
    rw [List.map_append, List.map_cons,
      candidatesFor_eq_error (forall₂_candidate hbefore) ht.candidate_eq]
  | candidate h hbefore hc =>
    rw [candidatesFor_eq_ok (forall₂_candidate h)]
    exact search_of_unknown hbefore hc

theorem ok_or_fails (m : Machine) (source : String) (ts : List CodePoints) :
    (∃ l, locate m source (ts.map .text) = .ok l) ∨ ∃ failure, Fails m source ts failure := by
  rcases names_or_first_faulty m source ts with
    ⟨cs, hcs⟩ | ⟨before, t, after, cs, rfl, hbefore, fault, ht⟩
  · rcases search_cases m cs with ⟨l, hl⟩ | ⟨before, c, rest, failure, rfl, hbefore, hc⟩
    · refine .inl ⟨l, ?_⟩
      unfold locate candidates
      rw [candidatesFor_eq_ok (forall₂_candidate hcs)]
      exact hl
    · exact .inr ⟨failure, .candidate hcs hbefore hc⟩
  · exact .inr ⟨_, .template hbefore ht⟩

theorem locate_eq_error_iff (m : Machine) (source : String) (ts : List CodePoints)
    (failure : Failure) :
    locate m source (ts.map .text) = .error failure ↔ Fails m source ts failure := by
  refine ⟨fun h => ?_, Fails.locate_eq⟩
  rcases ok_or_fails m source ts with ⟨l, hl⟩ | ⟨other, hother⟩
  · exact nomatch hl.symm.trans h
  · obtain rfl := Except.error.inj (hother.locate_eq.symm.trans h)
    exact hother

/-- A search breaks off without saying what is wrong: a template asks for what cannot be had from
the things that it reaches, or the path of the first candidate that is not absent has a half of a
surrogate pair that stands for no byte, or a null character. -/
inductive Breaks (m : Machine) (source : String) : List CodePoints → Failure → Prop
  | misuse {before after : List CodePoints} {cs : List Candidate} {t : CodePoints} {fault : Fault}
      (hbefore : List.Forall₂ (Names m source) before cs) (ht : Faulty m source t fault)
      (hfault : fault.isInTemplate = false) : Breaks m source (before ++ t :: after) (.misuse fault)
  | unwritable {ts : List CodePoints} {before rest : List Candidate} {c : Candidate}
      {halves : Text.Halves} (h : List.Forall₂ (Names m source) ts (before ++ c :: rest))
      (hbefore : ∀ b ∈ before, Absent m b) (hc : c.passing = .never halves) :
      Breaks m source ts (.unwritable halves)
  | nullInPath {ts : List CodePoints} {before rest : List Candidate} {c : Candidate}
      (h : List.Forall₂ (Names m source) ts (before ++ c :: rest))
      (hbefore : ∀ b ∈ before, Absent m b) (hc : ∀ halves, c.passing ≠ .never halves)
      (hnull : '\x00' ∈ c.path.text.toList) : Breaks m source ts .nullInPath

theorem Breaks.fails (h : Breaks m source ts failure) : Fails m source ts failure := by
  cases h with
  | @misuse before after cs t fault hbefore ht hfault =>
    have hfails : Fails m source (before ++ t :: after) (failureOf t fault) :=
      .template hbefore ht
    rwa [failureOf, hfault, if_neg Bool.false_ne_true] at hfails
  | unwritable h hbefore hc => exact .candidate h hbefore (.unwritable hc)
  | nullInPath h hbefore hc hnull => exact .candidate h hbefore (.nullInPath hc hnull)

theorem Breaks.not_isReport (h : Breaks m source ts failure) : ¬ failure.IsReport := by
  cases h <;> exact id

theorem Fails.isReport_or_breaks (h : Fails m source ts failure) :
    failure.IsReport ∨ Breaks m source ts failure := by
  cases h with
  | @template before after cs t fault hbefore ht =>
    cases hfault : fault.isInTemplate with
    | true =>
      rw [failureOf, if_pos hfault]
      exact .inl trivial
    | false =>
      rw [failureOf, hfault, if_neg Bool.false_ne_true]
      exact .inr (.misuse hbefore ht hfault)
  | candidate h hbefore hc =>
    cases hc with
    | refused => exact .inl trivial
    | unwritable hc => exact .inr (.unwritable h hbefore hc)
    | nullInPath hc hnull => exact .inr (.nullInPath h hbefore hc hnull)

/-- A search comes to an answer or says what is wrong, unless it breaks off. -/
theorem answers_or_reports_iff (m : Machine) (source : String) (ts : List CodePoints) :
    ((∃ l, locate m source (ts.map .text) = .ok l) ∨
        ∃ failure : Failure, failure.IsReport ∧
          locate m source (ts.map .text) = .error failure) ↔
      ∀ failure, ¬ Breaks m source ts failure := by
  constructor
  · intro h failure hbreaks
    have hlocate := hbreaks.fails.locate_eq
    rcases h with ⟨l, hl⟩ | ⟨other, hreport, hother⟩
    · exact nomatch hl.symm.trans hlocate
    · obtain rfl := Except.error.inj (hother.symm.trans hlocate)
      exact hbreaks.not_isReport hreport
  · intro h
    rcases ok_or_fails m source ts with hl | ⟨failure, hfails⟩
    · exact .inl hl
    · have hreport := hfails.isReport_or_breaks.resolve_right (h failure)
      exact .inr ⟨failure, hreport, hfails.locate_eq⟩

/-- Without places and layouts, nothing is asked of things that they do not have. -/
theorem not_breaks_misuse (h : ∀ t ∈ ts, Template.IsSimple t) (fault : Fault) :
    ¬ Breaks m source ts (.misuse fault) := by
  intro hbreaks
  cases hbreaks with
  | @misuse before after cs t _ hbefore ht hfault =>
    have hsimple : Template.IsSimple t := h t (List.mem_append_right _ List.mem_cons_self)
    exact Bool.noConfusion (hfault.symm.trans (Template.isInTemplate_of_expand hsimple ht))

/-! ## Configured templates -/

/-- The templates of a search: the default ones, and then those that are added. -/
def withDefaults (extras : List CodePoints) : List CodePoints :=
  defaultTemplates.map CodePoints.ofString ++ extras

theorem locateWith_eq {setting : Settings.Value} {extras : List CodePoints}
    (h : templatesOf setting = .ok (extras.map .text)) (m : Machine) (source : String) :
    locateWith m source setting = locate m source ((withDefaults extras).map .text) := by
  unfold locateWith withDefaults
  rw [h, List.map_append, List.map_map]
  rfl

/-- All default templates have texts. -/
theorem exists_names_default (m : Machine) (source : String) :
    ∃ cs, List.Forall₂ (Names m source) (defaultTemplates.map CodePoints.ofString) cs := by
  rcases names_or_first_faulty m source (defaultTemplates.map CodePoints.ofString) with
    h | ⟨before, t, after, cs, heq, hbefore, fault, ht⟩
  · exact h
  · -- Their candidates are known for any source, so none of them can be faulty.
    have hvalues : defaultValues = before.map .text ++ .text t :: after.map .text := by
      rw [← List.map_cons, ← List.map_append, ← heq, List.map_map]
      rfl
    have hok := candidates_default m source
    unfold candidates at hok
    rw [hvalues, candidatesFor_eq_error (forall₂_candidate hbefore) ht.candidate_eq] at hok
    exact nomatch hok

/-- If one of the templates that are added has no text, then a search fails for the first such. -/
theorem exists_fails_of_faulty {extras : List CodePoints} {t : CodePoints} {fault : Fault}
    (hmem : t ∈ extras) (ht : Faulty m source t fault) :
    ∃ t' ∈ extras, ∃ fault', Faulty m source t' fault' ∧
      Fails m source (withDefaults extras) (failureOf t' fault') := by
  rcases names_or_first_faulty m source extras with
    ⟨cs, hcs⟩ | ⟨before, t', after, cs, rfl, hbefore, fault', ht'⟩
  · exact absurd ht (not_faulty_of_names hcs t hmem fault)
  · obtain ⟨ds, hds⟩ := exists_names_default m source
    refine ⟨t', List.mem_append_right _ List.mem_cons_self, fault', ht', ?_⟩
    unfold withDefaults
    rw [← List.append_assoc]
    exact .template (List.rel_append hds hbefore) ht'

end Artifact

end Workbench
