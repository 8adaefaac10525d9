import Workbench.Proofs.Settings.Save

/-!
# Settings that can be shown

A value has no text only if a whole number in it has too many digits. No such number gets into the
settings from a file, and the settings with such a number cannot be saved.

* `isSome_quotedItems?_iff`, `isSome_quotedFields?_iff` : a list or an object has a text if all of
  its values have one;
* `Json.Writes.isSome_quoted?` : what is read from JSON has a text;
* `Configured s` : the settings that come of loading and of changes to values that have a text;
* `Configured.isSome_quoted?` : all of them have a text.
-/

namespace Workbench

open Number (digitLimit)
open Settings (Value)
open Text (CodePoints)

namespace Settings.Value

theorem isSome_quotedItems?_iff (vs : List Value) :
    (quotedItems? vs).isSome ↔ ∀ v ∈ vs, v.quoted?.isSome := by
  induction vs with
  | nil => simp [quotedItems?]
  | cons v vs ih =>
    rw [List.forall_mem_cons, ← ih, quotedItems?]
    cases v.quoted? <;> cases quotedItems? vs <;> simp

theorem isSome_quotedFields?_iff (fields : List (CodePoints × Value)) :
    (quotedFields? fields).isSome ↔ ∀ f ∈ fields, f.2.quoted?.isSome := by
  induction fields with
  | nil => simp [quotedFields?]
  | cons f fields ih =>
    obtain ⟨name, v⟩ := f
    rw [List.forall_mem_cons, ← ih, quotedFields?]
    cases v.quoted? <;> cases quotedFields? fields <;> simp

theorem isSome_quoted?_list (vs : List Value) :
    (quoted? (.list vs)).isSome ↔ ∀ v ∈ vs, v.quoted?.isSome := by
  rw [quoted?, Option.isSome_map, isSome_quotedItems?_iff]

theorem isSome_quoted?_object (fields : List (CodePoints × Value)) :
    (quoted? (.object fields)).isSome ↔ ∀ f ∈ fields, f.2.quoted?.isSome := by
  rw [quoted?, Option.isSome_map, isSome_quotedFields?_iff]

/-- Without quotes there is a text as well. -/
theorem isSome_display? {v : Value} (h : v.quoted?.isSome) : v.display?.isSome := by
  cases v with
  | text s => rfl
  | null | bool | int | float | list | object | foreign => exact h

end Settings.Value

namespace Json

theorem Numeral.isSome_quoted? {s : List Char} {v : Value} (h : Numeral digitLimit s v) :
    v.quoted?.isSome := by
  cases h with
  | @int negative ds h hlimit =>
    have hbound : (signed negative (Text.value ds)).natAbs < Number.digitBound := by
      have hvalue : Text.value ds < Number.digitBound :=
        Number.lt_of_read? (Number.read?_eq_some hlimit)
      cases negative <;> simpa [signed] using hvalue
    rw [Value.quoted?, Number.text?_eq_some hbound]
    rfl
  | float => rfl

/-- What is written in JSON within the limits of the reader has a text. One case for each form of a
value. -/
theorem Writes.isSome_quoted? {room : Nat} {s : List Char} {v : Value}
    (h : Writes digitLimit room s v) : v.quoted?.isSome := by
  induction h with
  | word h =>
    simp only [words, List.mem_cons, Prod.mk.injEq, List.not_mem_nil, or_false] at h
    rcases h with ⟨-, rfl⟩ | ⟨-, rfl⟩ | ⟨-, rfl⟩ | ⟨-, rfl⟩ | ⟨-, rfl⟩ | ⟨-, rfl⟩ <;> rfl
  | number h => exact h.isSome_quoted?
  | text h => rfl
  | emptyList hb => rfl
  | list hs h ih =>
    rw [Value.isSome_quoted?_list, List.forall_mem_map]
    exact ih
  | emptyObject hb => rfl
  | @object room s members hs hformed h ih =>
    have hfields : ∀ f ∈ members.map Member.field, f.2.quoted?.isSome :=
      List.forall_mem_map.2 ih
    rw [Value.isSome_quoted?_object]
    exact List.forall_mem_map.1
      (Record.forall_values_ofList (P := fun v : Value => v.quoted?.isSome = true) hfields)

theorem isSome_quoted?_of_document {s : List Char} {v : Value} (h : document s = .ok v) :
    v.quoted?.isSome := by
  obtain ⟨ha, hb, h⟩ := document_eq_ok.1 h
  exact h.isSome_quoted?

end Json

namespace Settings.Store

/-- Settings as a user comes by them: those of a directory, changed name by name. A change to a value
that has no text is not among them: it cannot be saved. -/
inductive Configured : Store → Prop
  | loaded {directory : Path} {m m' : Machine} {s : Store}
      (h : Store.load directory m = (.ok s, m')) : Configured s
  | changed {s : Store} (h : Configured s) (name : String) {v : Value} (hv : v.quoted?.isSome) :
      Configured (s.put name v)

theorem isSome_quoted?_defaults : ∀ v ∈ defaults.values, v.quoted?.isSome := by
  have htimeout : (30 : Int).natAbs < Number.digitBound :=
    Number.lt_digitBound (k := 2) (by decide) (by decide)
  simp only [defaults, Record.values, List.map_cons, List.map_nil, List.forall_mem_cons]
  refine ⟨rfl, rfl, rfl, rfl, ?_, rfl, fun v hv => (List.not_mem_nil hv).elim⟩
  rw [Value.quoted?, Number.text?_eq_some htimeout]
  rfl

theorem isSome_quoted?_override {v : Value} (h : v.quoted?.isSome) :
    ∀ w ∈ (override v).values, w.quoted?.isSome := by
  cases v with
  | object fields =>
    exact Record.forall_values_merge isSome_quoted?_defaults
      ((Value.isSome_quoted?_object fields).1 h)
  | null | bool | int | float | text | list | foreign => exact isSome_quoted?_defaults

theorem exists_document_of_contents {m : Machine} {directory : Path}
    {values : Record CodePoints Value} (h : contents m directory = .ok (.ok values)) :
    ∃ s v, Json.document s = .ok v ∧ values = override v := by
  unfold contents at h
  split at h
  · exact nomatch h
  · exact nomatch h
  · next text htext =>
    unfold Json.read at h
    cases hv : Json.document text.toList with
    | ok v =>
      rw [hv] at h
      exact ⟨_, v, hv, (Except.ok.inj (Except.ok.inj h)).symm⟩
    | error stop =>
      rw [hv] at h
      cases stop <;> exact nomatch h

/-- Settings that were loaded are the defaults, or come from a file in JSON. -/
theorem values_of_load {directory : Path} {m m' : Machine} {s : Store}
    (h : Store.load directory m = (.ok s, m')) :
    s.values = defaults ∨ ∃ text v, Json.document text = .ok v ∧ s.values = override v := by
  obtain ⟨_, m₁, -, h⟩ := Action.bind_eq_ok.1 h
  obtain ⟨present, m₂, -, h⟩ := Action.bind_eq_ok.1 h
  split at h
  · obtain ⟨r, m₃, hr, h⟩ := Action.bind_eq_ok.1 h
    obtain ⟨hcontents, rfl⟩ := Prod.mk.inj hr
    cases r with
    | ok values =>
      obtain ⟨hs, -⟩ := Prod.mk.inj h
      obtain rfl := Except.ok.inj hs
      exact Or.inr (exists_document_of_contents hcontents)
    | error reason =>
      obtain ⟨hs, -⟩ := Prod.mk.inj h
      obtain rfl := Except.ok.inj hs
      exact Or.inl rfl
  · obtain ⟨hs, -⟩ := Prod.mk.inj h
    obtain rfl := Except.ok.inj hs
    exact Or.inl rfl

theorem isSome_quoted?_load {directory : Path} {m m' : Machine} {s : Store}
    (h : Store.load directory m = (.ok s, m')) : ∀ v ∈ s.values.values, v.quoted?.isSome := by
  rcases values_of_load h with hs | ⟨text, v, hv, hs⟩
  · rw [hs]
    exact isSome_quoted?_defaults
  · rw [hs]
    exact isSome_quoted?_override (Json.isSome_quoted?_of_document hv)

/-- All settings have a text. One case for each way to come by them. -/
theorem Configured.isSome_quoted? {s : Store} (h : Configured s) :
    ∀ v ∈ s.values.values, v.quoted?.isSome := by
  induction h with
  | loaded h => exact isSome_quoted?_load h
  | changed h name hv ih =>
    intro w hw
    rcases Record.mem_values_put hw with rfl | hw
    · exact hv
    · exact ih w hw

end Settings.Store

end Workbench
