import Workbench.Machine.Basic

/-!
# Looking up paths

* `walk_append` : names are followed one after the other;
* `walk_eq_ok`, `placeOf_eq_ok` : a path without `..` leads to the place that its names say;
* `lookUpNode_of_error`, `lookUpNode_of_refusal`, `lookUpNode_of_ok` : what a call comes to, by where
  the path leads;
* `Reaches`, `lookUp_eq_ok` : what it takes to reach a place;
* `stat_eq_ok`, `stat_cases` : what a path is found to be;
* `pathExists_of_reaches`, `reaches_of_openForWriting` : what exists and what is opened is reached;
* `answer`, `pathExists_of_lookUpNode` : what is said about whether something exists.
-/

namespace Workbench.Machine

/-! ## Places -/

theorem walk_eq_ok {d : Disk} {start place : Place} {names : List String}
    (h : walk d start names = .ok place) (hup : ".." ∉ names) : place = start ++ names := by
  induction names generalizing start with
  | nil =>
    obtain rfl := Except.ok.inj h
    exact (List.append_nil start).symm
  | cons name rest ih =>
    obtain ⟨hname, hrest⟩ := List.ne_and_not_mem_of_not_mem_cons hup
    unfold walk at h
    cases hnode : d.get? start with
    | none =>
      rw [hnode] at h
      exact nomatch h
    | some node =>
      rw [hnode] at h
      cases node with
      | file c => exact nomatch h
      | directory =>
        dsimp only at h
        split at h
        · exact nomatch h
        · rw [if_neg (Ne.symm hname)] at h
          rw [ih h hrest, List.append_assoc]
          rfl

theorem walk_append {d : Disk} {start place : Place} {names : List String}
    (h : walk d start names = .ok place) (more : List String) :
    walk d start (names ++ more) = walk d place more := by
  induction names generalizing start with
  | nil =>
    obtain rfl := Except.ok.inj h
    rfl
  | cons name rest ih =>
    rw [List.cons_append, walk]
    rw [walk] at h
    cases hnode : d.get? start with
    | none =>
      rw [hnode] at h
      exact nomatch h
    | some node =>
      rw [hnode] at h
      cases node with
      | file c => exact nomatch h
      | directory =>
        dsimp only at h ⊢
        by_cases hlength : nameLimit < name.utf8ByteSize
        · rw [if_pos hlength] at h
          exact nomatch h
        · rw [if_neg hlength] at h ⊢
          exact ih h

theorem placeOf_eq_ok {m : Machine} {path : String} {place : Place} (h : m.placeOf path = .ok place)
    (hrooted : path.startsWith "/" = true) (hup : ".." ∉ Path.partsOf path.toList) :
    place = Path.partsOf path.toList := by
  unfold placeOf at h
  split at h
  · exact nomatch h
  · split at h
    · exact nomatch h
    · exact walk_eq_ok h hup

/-! ## Calls -/

theorem pathExists_of_null {m : Machine} {path : String} (h : '\x00' ∈ path.toList) :
    m.pathExists path = .ok false := by
  unfold pathExists existing? stat lookUp
  rw [if_pos h]
  rfl

/-- The answer to the question whether something exists, by what the path leads to. -/
def answer (path : String) : Except Fault (Place × Option Node) → Except Failure Bool
  | .error f => if f.meansNo then .ok false else failAt path f
  | .ok (_, node) => .ok node.isSome

theorem pathExists_of_lookUpNode {m : Machine} {path : String} (h : '\x00' ∉ path.toList) :
    m.pathExists path = answer path (m.lookUpNode .stat path) := by
  unfold pathExists existing? stat lookUp
  rw [if_neg h]
  cases m.lookUpNode .stat path with
  | error f =>
    show Except.map _ (if f.meansNo then _ else _) = if f.meansNo then _ else _
    split <;> rfl
  | ok r =>
    obtain ⟨place, node⟩ := r
    cases node <;> rfl

theorem lookUpNode_of_error {m : Machine} {call : Call} {path : String} {f : Fault}
    (h : m.placeOf path = .error f) : m.lookUpNode call path = .error f := by
  unfold lookUpNode
  rw [h]

theorem lookUpNode_of_refusal {m : Machine} {call : Call} {path : String} {place : Place}
    {f : Fault} (h : m.placeOf path = .ok place) (hf : m.refusal? call place = some f) :
    m.lookUpNode call path = .error f := by
  unfold lookUpNode
  simp only [h, hf]

/-- What a path that leads to a place comes to. A slash after the name of a file asks for a
directory. -/
def arrival (path : String) (place : Place) : Option Node → Except Fault (Place × Option Node)
  | some (.file c) =>
    if path.endsWith "/" then .error .notDirectory else .ok (place, some (.file c))
  | node => .ok (place, node)

theorem arrival_file (path : String) (place : Place) (c : Content) :
    arrival path place (some (.file c)) =
      if path.endsWith "/" then .error .notDirectory else .ok (place, some (.file c)) := rfl

/-- What a file holds does not matter to whether it exists. -/
theorem answer_arrival_file (path : String) (place : Place) (c : Content) :
    answer path (arrival path place (some (.file c))) = .ok !path.endsWith "/" := by
  rw [arrival_file]
  cases path.endsWith "/" <;> rfl

theorem lookUpNode_of_ok {m : Machine} {call : Call} {path : String} {place : Place}
    (h : m.placeOf path = .ok place) (hf : m.refusal? call place = none) :
    m.lookUpNode call path = arrival path place (m.disk.get? place) := by
  unfold lookUpNode
  simp only [h, hf]
  cases m.disk.get? place with
  | none => rfl
  | some n => cases n <;> rfl

/-- A call reaches a place, with what is there. -/
structure Reaches (m : Machine) (call : Call) (path : String) (place : Place)
    (node : Option Node) : Prop where
  noNull : '\x00' ∉ path.toList
  leads : m.placeOf path = .ok place
  granted : m.refusal? call place = none
  there : m.disk.get? place = node
  noSlash : ∀ c, node = some (.file c) → path.endsWith "/" = false

theorem lookUp_of_noNull {m : Machine} {call : Call} {path : String} (h : '\x00' ∉ path.toList) :
    m.lookUp call path = match m.lookUpNode call path with
      | .ok r => .ok r
      | .error f => failAt path f := if_neg h

theorem arrival_eq_ok {path : String} {place place' : Place} {node node' : Option Node}
    (h : arrival path place node = .ok (place', node')) :
    place' = place ∧ node' = node ∧ ∀ c, node = some (.file c) → path.endsWith "/" = false := by
  unfold arrival at h
  split at h
  · split at h
    · exact nomatch h
    · next hslash =>
      obtain ⟨rfl, rfl⟩ := Prod.mk.inj (Except.ok.inj h)
      exact ⟨rfl, rfl, fun _ _ => Bool.not_eq_true _ ▸ hslash⟩
  · next hnot =>
    obtain ⟨rfl, rfl⟩ := Prod.mk.inj (Except.ok.inj h)
    exact ⟨rfl, rfl, fun c hc => absurd hc (hnot c)⟩

theorem lookUp_eq_ok {m : Machine} {call : Call} {path : String} {place : Place}
    {node : Option Node} :
    m.lookUp call path = .ok (place, node) ↔ Reaches m call path place node := by
  constructor
  · intro h
    by_cases hnull : '\x00' ∈ path.toList
    · rw [lookUp, if_pos hnull] at h
      exact nomatch h
    rw [lookUp_of_noNull hnull] at h
    cases hplace : m.placeOf path with
    | error f =>
      rw [lookUpNode_of_error hplace] at h
      exact nomatch h
    | ok q =>
      cases hf : m.refusal? call q with
      | some f =>
        rw [lookUpNode_of_refusal hplace hf] at h
        exact nomatch h
      | none =>
        rw [lookUpNode_of_ok hplace hf] at h
        split at h
        · next r hr =>
          obtain rfl := Except.ok.inj h
          obtain ⟨rfl, rfl, hslash⟩ := arrival_eq_ok hr
          exact ⟨hnull, hplace, hf, rfl, hslash⟩
        · exact nomatch h
  · intro h
    rw [lookUp_of_noNull h.noNull, lookUpNode_of_ok h.leads h.granted, h.there]
    have harrival : arrival path place node = .ok (place, node) := by
      unfold arrival
      split
      · next c => rw [h.noSlash c rfl, if_neg Bool.false_ne_true]
      · rfl
    rw [harrival]

theorem stat_eq_ok {m : Machine} {path : String} {node : Node} (h : m.stat path = .ok node) :
    ∃ place, Reaches m .stat path place (some node) := by
  unfold stat at h
  split at h
  · exact nomatch h
  · exact nomatch h
  · next place node' hlook =>
    obtain rfl := Except.ok.inj h
    exact ⟨place, lookUp_eq_ok.1 hlook⟩

/-- A path without a null is looked at, or the system says why not. -/
theorem stat_cases {m : Machine} {path : String} (h : '\x00' ∉ path.toList) :
    (∃ node, m.stat path = .ok node) ∨ ∃ e, m.stat path = .error (.os e) := by
  unfold stat lookUp
  rw [if_neg h]
  cases m.lookUpNode .stat path with
  | error f => exact Or.inr ⟨_, rfl⟩
  | ok r =>
    obtain ⟨place, node⟩ := r
    cases node with
    | none => exact Or.inr ⟨_, rfl⟩
    | some node => exact Or.inl ⟨node, rfl⟩

theorem pathExists_of_reaches {m : Machine} {path : String} {place : Place} {n : Node}
    (h : Reaches m .stat path place (some n)) : m.pathExists path = .ok true := by
  unfold pathExists existing? stat
  rw [lookUp_eq_ok.2 h]
  rfl

/-- What is opened for writing is a file, or nothing yet. -/
theorem reaches_of_openForWriting {m : Machine} {path : String} {place : Place}
    {old : Option Content} (h : m.openForWriting path = .ok (place, old)) :
    ∃ node, Reaches m .openFile path place node ∧ node ≠ some .directory := by
  unfold openForWriting at h
  cases hlook : m.lookUp .openFile path with
  | error e =>
    rw [hlook] at h
    exact nomatch h
  | ok r =>
    obtain ⟨q, node⟩ := r
    rw [hlook] at h
    have hreaches := lookUp_eq_ok.1 hlook
    cases node with
    | none =>
      dsimp only at h
      split at h
      · obtain ⟨rfl, -⟩ := Prod.mk.inj (Except.ok.inj h)
        exact ⟨none, hreaches, nofun⟩
      · exact nomatch h
    | some node =>
      cases node with
      | directory => exact nomatch h
      | file c =>
        obtain ⟨rfl, -⟩ := Prod.mk.inj (Except.ok.inj h)
        exact ⟨some (.file c), hreaches, nofun⟩

end Workbench.Machine
