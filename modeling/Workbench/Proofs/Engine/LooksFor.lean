import Workbench.Proofs.Artifact.Locate
import Workbench.Proofs.Engine.Log

/-!
# The search for the compiler

The configured compiler is asked for as a candidate of a search, and if it is not there, then the
compiler that comes with the program is used.

* `Candidate.Asks c` : the system is asked for the text of a candidate. At other candidates there is
  nothing;
* `Candidate.exists?_withDisk` : what exists goes on existing;
* `LooksFor s compiler found` : the search for the compiler comes to an answer, which more lines in
  the log file do not take back (`LooksFor.noted`);
* `Setup.withLog s` : the setup once the log file is there. The search comes to the same answer on
  all setups with a log file, whatever is in it (`resolve_of_noteOn`).
-/

namespace Workbench

open Machine (Launch)

namespace Artifact.Candidate

/-- The system is asked for the text of a candidate, and for nothing else. -/
def Asks (c : Candidate) : Prop :=
  match c.passing with
  | .text => True
  | .bytes p => (Machine.textOfBytes? p.text).isSome = true
  | .never _ => False

theorem exists?_of_asks {c : Candidate} (h : c.Asks) (m : Machine) :
    c.exists? m = m.pathExists c.path.text := by
  have hstatus : c.status m = m.stat c.path.text := by
    unfold Asks at h
    unfold status Machine.statBytes
    cases hpassing : c.passing with
    | text => rfl
    | bytes p =>
      rw [hpassing] at h
      exact if_pos h
    | never halves =>
      rw [hpassing] at h
      exact h.elim
  unfold exists? Machine.pathExists Machine.existing?
  rw [hstatus]
  by_cases hnull : '\x00' ∈ c.path.text.toList
  · have hstat : m.stat c.path.text = .error .nullInPath := by
      unfold Machine.stat Machine.lookUp
      rw [if_pos hnull]
    rw [hstat]
    rfl
  · rcases Machine.stat_cases hnull with ⟨node, hstat⟩ | ⟨e, hstat⟩
    · rw [hstat]
      rfl
    · rw [hstat]
      dsimp only
      split <;> rfl

theorem exists?_of_never {c : Candidate} {halves : Text.Halves} (h : c.passing = .never halves)
    (m : Machine) : c.exists? m = .ok false := by
  unfold exists? status
  rw [h]

/-- Bytes that are no text are on no disk. -/
theorem exists?_of_stray {c : Candidate} {q : Path} (h : c.passing = .bytes q)
    (hstray : ¬ (Machine.textOfBytes? q.text).isSome) (m : Machine) :
    c.exists? m =
      if '\x00' ∈ c.path.text.toList then .ok false
      else if Machine.pathLimit < q.text.length then Machine.failAt c.path.text .nameTooLong
      else
        let fault := Machine.strayFault m.disk (if q.root = .here then m.directory else []) q.parts
        if fault.meansNo then .ok false else Machine.failAt c.path.text fault := by
  unfold exists? status Machine.statBytes
  rw [h]
  dsimp only
  rw [if_neg hstray]
  by_cases hnull : '\x00' ∈ c.path.text.toList
  · rw [if_pos hnull, if_pos hnull]
  · rw [if_neg hnull, if_neg hnull]
    by_cases hlong : Machine.pathLimit < q.text.length
    · rw [if_pos hlong, if_pos hlong]
      rfl
    · rw [if_neg hlong, if_neg hlong]
      rfl

/-- What exists has been asked for. -/
theorem asks_of_exists? {c : Candidate} {m : Machine} (h : c.exists? m = .ok true) : c.Asks := by
  unfold Asks
  cases hpassing : c.passing with
  | text => trivial
  | never halves =>
    rw [exists?_of_never hpassing] at h
    exact nomatch h
  | bytes q =>
    refine Classical.byContradiction fun hstray => ?_
    rw [exists?_of_stray hpassing hstray] at h
    dsimp only at h
    by_cases hnull : '\x00' ∈ c.path.text.toList
    · rw [if_pos hnull] at h
      exact nomatch h
    · rw [if_neg hnull] at h
      by_cases hlong : Machine.pathLimit < q.text.length
      · rw [if_pos hlong] at h
        exact nomatch h
      · rw [if_neg hlong] at h
        generalize Machine.strayFault m.disk (if q.root = .here then m.directory else [])
          q.parts = fault at h
        cases hno : fault.meansNo with
        | true =>
          rw [hno] at h
          exact nomatch h
        | false =>
          rw [hno] at h
          exact nomatch h

theorem exists?_withDisk_of_not_asks {c : Candidate} (h : ¬ c.Asks) {m : Machine}
    {d : Machine.Disk} {p : Machine.Place} (hd : Machine.Disk.WithFile p m.disk d)
    (hp : m.disk.get? p ≠ some .directory) : c.exists? (m.withDisk d) = c.exists? m := by
  unfold Asks at h
  cases hpassing : c.passing with
  | text =>
    rw [hpassing] at h
    exact absurd trivial h
  | never halves => rw [exists?_of_never hpassing, exists?_of_never hpassing]
  | bytes q =>
    rw [hpassing] at h
    rw [exists?_of_stray hpassing h, exists?_of_stray hpassing h]
    have hdisk : (m.withDisk d).disk = d := rfl
    have hdirectory : (m.withDisk d).directory = m.directory := rfl
    rw [hdisk, hdirectory]
    rcases Machine.strayFault_withFile hd hp (if q.root = .here then m.directory else [])
      q.parts with hsame | ⟨hmissing, hnotDirectory⟩
    · rw [hsame]
    · rw [hmissing, hnotDirectory]
      rfl

/-- What exists goes on existing, and what can be asked for still can. -/
theorem exists?_withDisk {c : Candidate} {m : Machine} {d : Machine.Disk} {p : Machine.Place}
    (hd : Machine.Disk.WithFile p m.disk d) (hp : m.disk.get? p ≠ some .directory) {found : Bool}
    (hfound : c.exists? m = .ok found) :
    ∃ found', c.exists? (m.withDisk d) = .ok found' ∧ (found = true → found' = true) := by
  by_cases hasks : c.Asks
  · rw [exists?_of_asks hasks] at hfound ⊢
    exact Machine.pathExists_withDisk hd hp hfound
  · exact ⟨found, (exists?_withDisk_of_not_asks hasks hd hp).trans hfound, id⟩

end Artifact.Candidate

open Artifact (Candidate)

/-- The setup once there is a log file. -/
def Setup.withLog (s : Setup) : Setup :=
  s.withDisk (s.machine.disk.put Engine.logPlace (.file (.bytes [])))

namespace Engine

/-- The compiler to use, and whether there is something at its path. -/
structure LooksFor (s : Setup) (compiler : Path) (found : Bool) : Prop where
  resolved : Compiler.resolve s = .ok compiler
  asked : s.machine.pathExists compiler.text = .ok found

theorem resolve_of_configured {s : Setup} {c : Candidate} {found : Bool}
    (hc : Compiler.configured? s.settings = .ok (some c))
    (hfound : c.exists? s.machine = .ok found) :
    Compiler.resolve s = .ok (if found then c.path else Compiler.bundled) := by
  unfold Compiler.resolve Compiler.present?
  rw [hc]
  dsimp only
  rw [hfound]
  cases found <;> rfl

theorem resolve_of_unconfigured {s : Setup} (hc : Compiler.configured? s.settings = .ok none) :
    Compiler.resolve s = .ok Compiler.bundled := by
  unfold Compiler.resolve Compiler.present?
  rw [hc]
  rfl

theorem resolve_of_failure {s : Setup} {failure : Failure}
    (hc : Compiler.configured? s.settings = .error failure) :
    Compiler.resolve s = .error failure := by
  unfold Compiler.resolve Compiler.present?
  rw [hc]
  rfl

theorem exists_of_resolve {s : Setup} {c : Candidate} {compiler : Path}
    (hc : Compiler.configured? s.settings = .ok (some c)) (h : Compiler.resolve s = .ok compiler) :
    ∃ found, c.exists? s.machine = .ok found := by
  cases hexists : c.exists? s.machine with
  | ok found => exact ⟨found, rfl⟩
  | error failure =>
    unfold Compiler.resolve Compiler.present? at h
    rw [hc] at h
    dsimp only at h
    rw [hexists] at h
    exact nomatch h

theorem LooksFor.withDisk {s : Setup} {compiler : Path} {found : Bool} {d : Machine.Disk}
    (h : LooksFor s compiler found) (hlog : LogOpen s.machine)
    (hd : Machine.Disk.WithFile logPlace s.machine.disk d)
    (hresolve : Compiler.resolve (s.withDisk d) = .ok compiler) :
    ∃ found', LooksFor (s.withDisk d) compiler found' ∧ (found = true → found' = true) := by
  obtain ⟨found', hfound', hmore⟩ := Machine.pathExists_withDisk hd hlog.noDirectory h.asked
  exact ⟨found', ⟨hresolve, hfound'⟩, hmore⟩

/-- More lines in the log file take nothing away, but the log file itself may be the configured
compiler. -/
theorem LooksFor.noted {s t : Setup} {compiler : Path} {found : Bool} (h : LooksFor s compiler found)
    (hlog : LogOpen s.machine) (hnoted : Noted s t) :
    ∃ compiler' found', LooksFor t compiler' found' ∧ (found = true → found' = true) := by
  obtain ⟨d, hd, rfl⟩ := hnoted
  have hcompiler := h.resolved
  cases hconfigured : Compiler.configured? s.settings with
  | error failure =>
    rw [resolve_of_failure hconfigured] at hcompiler
    exact nomatch hcompiler
  | ok configured =>
    cases configured with
    | none =>
      rw [resolve_of_unconfigured hconfigured] at hcompiler
      obtain rfl := Except.ok.inj hcompiler
      exact ⟨Compiler.bundled, h.withDisk hlog hd (resolve_of_unconfigured hconfigured)⟩
    | some c =>
      obtain ⟨there, hthere⟩ := exists_of_resolve hconfigured h.resolved
      obtain ⟨there', hthere', hmore⟩ := Candidate.exists?_withDisk hd hlog.noDirectory hthere
      have hresolve : Compiler.resolve (s.withDisk d) =
          .ok (if there' then c.path else Compiler.bundled) :=
        resolve_of_configured hconfigured hthere'
      -- The configured compiler may only be there since the line was written. If it is still not
      -- there, it was not there before, and both searches come to the bundled one.
      cases there' with
      | true =>
        have hasked : (s.machine.withDisk d).pathExists c.path.text = .ok true :=
          (Candidate.exists?_of_asks (Candidate.asks_of_exists? hthere') _).symm.trans hthere'
        exact ⟨c.path, true, ⟨hresolve, hasked⟩, fun _ => rfl⟩
      | false =>
        have hnot : there = false := by
          cases there with
          | false => rfl
          | true => exact (hmore rfl).symm
        rw [resolve_of_configured hconfigured hthere, hnot] at hcompiler
        obtain rfl := Except.ok.inj hcompiler
        exact ⟨Compiler.bundled, h.withDisk hlog hd hresolve⟩

/-! ## Once there is a log file -/

/-- Setups that differ at most by what is in their log files find the same compiler. -/
theorem resolve_of_noted {s t : Setup} {compiler : Path} (hst : Noted s t) (hts : Noted t s)
    (hs : LogOpen s.machine) (h : Compiler.resolve s = .ok compiler) :
    Compiler.resolve t = .ok compiler := by
  have ht : LogOpen t.machine := hst.logOpen hs
  cases hconfigured : Compiler.configured? s.settings with
  | error failure =>
    rw [resolve_of_failure hconfigured] at h
    exact nomatch h
  | ok configured =>
    have hconfigured' : Compiler.configured? t.settings = .ok configured := by
      rw [hst.settings, hconfigured]
    cases configured with
    | none =>
      rw [resolve_of_unconfigured hconfigured] at h
      exact (resolve_of_unconfigured hconfigured').trans h
    | some c =>
      obtain ⟨there, hthere⟩ := exists_of_resolve hconfigured h
      obtain ⟨there', hthere', hmore⟩ : ∃ there', c.exists? t.machine = .ok there' ∧
          (there = true → there' = true) := by
        obtain ⟨d, hd, rfl⟩ := hst
        exact Candidate.exists?_withDisk hd hs.noDirectory hthere
      obtain ⟨there'', hthere'', hless⟩ : ∃ there'', c.exists? s.machine = .ok there'' ∧
          (there' = true → there'' = true) := by
        obtain ⟨d, hd, rfl⟩ := hts
        exact Candidate.exists?_withDisk hd ht.noDirectory hthere'
      obtain rfl := Except.ok.inj (hthere.symm.trans hthere'')
      have hsame : there = there' := Bool.eq_iff_iff.2 ⟨hmore, hless⟩
      rw [resolve_of_configured hconfigured hthere, hsame] at h
      exact (resolve_of_configured hconfigured' hthere').trans h

/-- The compiler that is found after a line was written is the one that is found once there is a log
file, whatever it holds. -/
theorem resolve_of_noteOn {s p t : Setup} {text : String} {u : Unit} {compiler : Path}
    (hp : Noted s p) (ht : noteOn text p = (.ok u, t)) (h : Compiler.resolve t = .ok compiler) :
    Compiler.resolve s.withLog = .ok compiler := by
  have hopen : LogOpen t.machine := (noted_of_noteOn ht).logOpen (withDisk_of_noteOn ht).1
  obtain ⟨d, hd, rfl⟩ := hp
  obtain ⟨-, c, rfl⟩ := withDisk_of_noteOn ht
  have hfile : ∀ (d : Machine.Disk) (c : Machine.Content),
      (d.put logPlace (.file c)).get? logPlace = some (.file c) := by
    intro d c
    rw [Machine.Disk.get?_put, if_pos ⟨rfl, by decide⟩]
  have hothers : ∀ (d : Machine.Disk) (c : Machine.Content) (q : Machine.Place), q ≠ logPlace →
      (d.put logPlace (.file c)).get? q = d.get? q := by
    intro d c q hq
    rw [Machine.Disk.get?_put, if_neg fun h => hq h.1.symm]
  have hto : Noted ((s.withDisk d).withDisk (d.put logPlace (.file c))) s.withLog := by
    refine ⟨_, ⟨fun q hq => ?_, .inr ⟨.bytes [], hfile _ _⟩⟩, rfl⟩
    exact (hothers _ _ q hq).trans ((hd.others q hq).symm.trans (hothers d c q hq).symm)
  have hback : Noted s.withLog ((s.withDisk d).withDisk (d.put logPlace (.file c))) := by
    refine ⟨_, ⟨fun q hq => ?_, .inr ⟨c, hfile _ _⟩⟩, rfl⟩
    exact (hothers d c q hq).trans ((hd.others q hq).trans (hothers _ _ q hq).symm)
  exact resolve_of_noted hto hback hopen h

/-! ## The words of a launch -/

theorem command_of_resolve {s : Setup} {compiler : Path} (h : Compiler.resolve s = .ok compiler)
    (source : String) : Compiler.command s source =
      (Compiler.arguments s.settings).map fun words =>
        Text.CodePoints.ofString compiler.text :: Text.CodePoints.ofString source :: words := by
  unfold Compiler.command
  rw [h]

theorem Noted.balks_iff {s t : Setup} (h : Noted s t) {l : Launch} {failure : Failure} :
    t.machine.Balks l failure ↔ s.machine.Balks l failure := by
  obtain ⟨d, -, rfl⟩ := h
  constructor
  · rintro (hobjection | ⟨hobjection, hending⟩)
    · exact .beforeStart hobjection
    · exact .afterStart hobjection hending
  · rintro (hobjection | ⟨hobjection, hending⟩)
    · exact .beforeStart hobjection
    · exact .afterStart hobjection hending

end Engine

end Workbench
