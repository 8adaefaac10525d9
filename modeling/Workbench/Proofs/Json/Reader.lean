import Workbench.Proofs.Json.Leaf

/-!
# Reading JSON

The reader takes what the grammar allows and nothing else. If a text keeps to wider limits than the
reader does, reading it stops at a limit or comes to its value; it never stops because something is
wrong.

* `exists_writes_of_value` : what was read is written there;
* `Reads within r x` : the reader comes to `x`, or to a limit that `within` excludes;
* `Writes.reads` : what is written is read;
* `document_eq_ok`, `Document.reads` : the same for whole texts.
-/

namespace Workbench.Json

open Settings (Value)
open Text (CodePoints Stops)
open Number (digitLimit)

/-! ## Blanks -/

theorem exists_gap (s : List Char) : ∃ b, Gap b ∧ s = b ++ skipSpace s :=
  ⟨s.takeWhile isSpace, fun _ hc => List.mem_takeWhile_imp hc,
    List.takeWhile_append_dropWhile.symm⟩

theorem skipSpace_append {b s : List Char} (hb : Gap b) (hs : Stops isSpace s) :
    skipSpace (b ++ s) = s := Text.dropWhile_append_of_stops hb hs

theorem Gap.append {a b : List Char} (ha : Gap a) (hb : Gap b) : Gap (a ++ b) := by
  intro c hc
  rcases List.mem_append.1 hc with hc | hc
  · exact ha c hc
  · exact hb c hc

theorem Row.gap {a s : List Char} {ts : List (List Char)} (ha : Gap a) (h : Row ts s) :
    Row ts (a ++ s) := by
  cases h with
  | one hb hc =>
    rw [← List.append_assoc]
    exact .one (ha.append hb) hc
  | more hb hc h =>
    rw [← List.append_assoc]
    exact .more (ha.append hb) hc h

/-! ## What was read is written -/

/-- The items of a list, with commas between them. -/
def WritesItems (limit room : Nat) (s : List Char) (vs : List Value) : Prop :=
  ∃ parts : List (List Char × Value), Row (parts.map Prod.fst) s ∧
    (∀ p ∈ parts, Writes limit room p.1 p.2) ∧ parts.map Prod.snd = vs

/-- The fields of an object, with commas between them. -/
def WritesMembers (limit room : Nat) (s : List Char) (fields : List (CodePoints × Value)) : Prop :=
  ∃ members : List Member, Row (members.map Member.text) s ∧ (∀ m ∈ members, m.Formed) ∧
    (∀ m ∈ members, Writes limit room m.written m.value) ∧ members.map Member.field = fields

section Sound
variable {fuel room limit : Nat}

theorem WritesItems.one {t b : List Char} {v : Value} (h : Writes limit room t v) (hb : Gap b) :
    WritesItems limit room (t ++ b) [v] :=
  ⟨[(t, v)], .one (a := []) gap_nil hb, by simpa using h, rfl⟩

theorem WritesItems.more {t b s : List Char} {v : Value} {vs : List Value}
    (h : Writes limit room t v) (hb : Gap b) (hs : WritesItems limit room s vs) :
    WritesItems limit room (t ++ (b ++ ',' :: s)) (v :: vs) := by
  obtain ⟨parts, hrow, hparts, rfl⟩ := hs
  refine ⟨(t, v) :: parts, .more (a := []) gap_nil hb hrow, ?_, rfl⟩
  exact List.forall_mem_cons.2 ⟨h, hparts⟩

theorem WritesMembers.one {m : Member} {b : List Char} (hm : m.Formed)
    (h : Writes limit room m.written m.value) (hb : Gap b) :
    WritesMembers limit room (m.text ++ b) [m.field] :=
  ⟨[m], .one (a := []) gap_nil hb, by simpa using hm, by simpa using h, rfl⟩

theorem WritesMembers.more {m : Member} {b s : List Char} {fields : List (CodePoints × Value)}
    (hm : m.Formed) (h : Writes limit room m.written m.value) (hb : Gap b)
    (hs : WritesMembers limit room s fields) :
    WritesMembers limit room (m.text ++ (b ++ ',' :: s)) (m.field :: fields) := by
  obtain ⟨members, hrow, hformed, hwrites, rfl⟩ := hs
  exact ⟨m :: members, .more (a := []) gap_nil hb hrow, List.forall_mem_cons.2 ⟨hm, hformed⟩,
    List.forall_mem_cons.2 ⟨h, hwrites⟩, rfl⟩

/-- A comma and what follows it, with the blanks after it. -/
theorem WritesItems.gap {a s : List Char} {vs : List Value} (ha : Gap a)
    (h : WritesItems limit room s vs) : WritesItems limit room (a ++ s) vs := by
  obtain ⟨parts, hrow, hparts, hvs⟩ := h
  exact ⟨parts, hrow.gap ha, hparts, hvs⟩

theorem WritesMembers.gap {a s : List Char} {fields : List (CodePoints × Value)} (ha : Gap a)
    (h : WritesMembers limit room s fields) : WritesMembers limit room (a ++ s) fields := by
  obtain ⟨members, hrow, hformed, hwrites, hfields⟩ := h
  exact ⟨members, hrow.gap ha, hformed, hwrites, hfields⟩

/-- What `value` reads with this fuel is written there. -/
def ValueSound (fuel : Nat) : Prop :=
  ∀ {room : Nat} {s rest : List Char} {v : Value}, value fuel room s = .ok (v, rest) →
    ∃ t, Writes digitLimit room t v ∧ s = t ++ rest

def ItemsSound (fuel : Nat) : Prop :=
  ∀ {room : Nat} {s rest : List Char} {vs : List Value}, items fuel room s = .ok (vs, rest) →
    ∃ t, WritesItems digitLimit room t vs ∧ s = t ++ ']' :: rest

def FieldsSound (fuel : Nat) : Prop :=
  ∀ {room : Nat} {s rest : List Char} {fs : List (CodePoints × Value)},
    fields fuel room s = .ok (fs, rest) →
    ∃ t, WritesMembers digitLimit room t fs ∧ s = t ++ '\x7d' :: rest

theorem itemsSound_succ (hvalue : ValueSound fuel) (hitems : ItemsSound fuel) :
    ItemsSound (fuel + 1) := by
  intro room s rest vs h
  unfold items at h
  cases hv : value fuel room s with
  | error e =>
    rw [hv] at h
    exact nomatch h
  | ok r =>
    obtain ⟨v, s₁⟩ := r
    rw [hv] at h
    obtain ⟨t, ht, rfl⟩ := hvalue hv
    obtain ⟨b, hb, hs₁⟩ := exists_gap s₁
    dsimp only at h
    split at h
    · next rest' hskip =>
      obtain ⟨rfl, rfl⟩ := Prod.mk.inj (Except.ok.inj h)
      exact ⟨t ++ b, .one ht hb, by rw [hs₁, hskip]; simp⟩
    · next s₂ hskip =>
      cases hvs : items fuel room (skipSpace s₂) with
      | error e =>
        rw [hvs] at h
        exact nomatch h
      | ok r =>
        obtain ⟨vs', rest'⟩ := r
        rw [hvs] at h
        obtain ⟨rfl, rfl⟩ := Prod.mk.inj (Except.ok.inj h)
        obtain ⟨t', ht', hs₂⟩ := hitems hvs
        obtain ⟨a, ha, hs₂'⟩ := exists_gap s₂
        refine ⟨_, .more ht hb (ht'.gap ha), ?_⟩
        rw [hs₁, hskip, hs₂', hs₂]
        simp
    · exact nomatch h

theorem fieldsSound_succ (hvalue : ValueSound fuel) (hfields : FieldsSound fuel) :
    FieldsSound (fuel + 1) := by
  intro room s rest fs h
  unfold fields at h
  split at h
  · next r =>
    cases hname : text r with
    | error e =>
      rw [hname] at h
      exact nomatch h
    | ok x =>
      obtain ⟨name, s₁⟩ := x
      rw [hname] at h
      obtain ⟨q, hq, hqr⟩ := text_eq_ok.1 hname
      obtain ⟨before, hbefore, hs₁⟩ := exists_gap s₁
      dsimp only at h
      split at h
      · next s₂ hcolon =>
        obtain ⟨after, hafter, hs₂⟩ := exists_gap s₂
        cases hv : value fuel room (skipSpace s₂) with
        | error e =>
          rw [hv] at h
          exact nomatch h
        | ok x =>
          obtain ⟨v, s₃⟩ := x
          rw [hv] at h
          obtain ⟨t, ht, hs₂'⟩ := hvalue hv
          obtain ⟨b, hb, hs₃⟩ := exists_gap s₃
          let m : Member := ⟨name, v, q, before, after, t⟩
          have hm : m.Formed := ⟨hq, hbefore, hafter⟩
          have hs : '"' :: r = m.text ++ s₃ := by
            rw [hqr, hs₁, hcolon, hs₂, hs₂']
            simp [m, Member.text]
          dsimp only at h
          split at h
          · next rest' hskip =>
            obtain ⟨rfl, rfl⟩ := Prod.mk.inj (Except.ok.inj h)
            exact ⟨m.text ++ b, .one hm ht hb, by rw [hs, hs₃, hskip]; simp⟩
          · next s₄ hskip =>
            cases hfs : fields fuel room (skipSpace s₄) with
            | error e =>
              rw [hfs] at h
              exact nomatch h
            | ok x =>
              obtain ⟨fs', rest'⟩ := x
              rw [hfs] at h
              obtain ⟨rfl, rfl⟩ := Prod.mk.inj (Except.ok.inj h)
              obtain ⟨t', ht', hs₄⟩ := hfields hfs
              obtain ⟨a, ha, hs₄'⟩ := exists_gap s₄
              refine ⟨_, .more hm ht hb (ht'.gap ha), ?_⟩
              rw [hs, hs₃, hskip, hs₄', hs₄]
              simp
          · exact nomatch h
      · exact nomatch h
  · exact nomatch h

theorem valueSound_succ (hitems : ItemsSound fuel) (hfields : FieldsSound fuel) :
    ValueSound (fuel + 1) := by
  intro room s rest v h
  unfold value at h
  split at h
  · next r =>
    cases ht : text r with
    | error e =>
      rw [ht] at h
      exact nomatch h
    | ok x =>
      obtain ⟨t, rest'⟩ := x
      rw [ht] at h
      obtain ⟨rfl, rfl⟩ := Prod.mk.inj (Except.ok.inj h)
      obtain ⟨q, hq, hqr⟩ := text_eq_ok.1 ht
      exact ⟨q, .text hq, hqr⟩
  · next r =>
    obtain ⟨a, ha, hr⟩ := exists_gap r
    cases room with
    | zero => exact nomatch h
    | succ room =>
      dsimp only at h
      split at h
      · next rest' hskip =>
        obtain ⟨rfl, rfl⟩ := Prod.mk.inj (Except.ok.inj h)
        exact ⟨_, .emptyList ha, by rw [hr, hskip]; simp⟩
      · cases hvs : items fuel room (skipSpace r) with
        | error e =>
          rw [hvs] at h
          exact nomatch h
        | ok x =>
          obtain ⟨vs, rest'⟩ := x
          rw [hvs] at h
          obtain ⟨rfl, rfl⟩ := Prod.mk.inj (Except.ok.inj h)
          obtain ⟨t, ht, hskip⟩ := hitems hvs
          obtain ⟨parts, hrow, hparts, rfl⟩ := ht.gap ha
          exact ⟨_, .list hrow hparts, by rw [hr, hskip]; simp⟩
  · next r =>
    obtain ⟨a, ha, hr⟩ := exists_gap r
    cases room with
    | zero => exact nomatch h
    | succ room =>
      dsimp only at h
      split at h
      · next rest' hskip =>
        obtain ⟨rfl, rfl⟩ := Prod.mk.inj (Except.ok.inj h)
        exact ⟨_, .emptyObject ha, by rw [hr, hskip]; simp⟩
      · cases hfs : fields fuel room (skipSpace r) with
        | error e =>
          rw [hfs] at h
          exact nomatch h
        | ok x =>
          obtain ⟨fs, rest'⟩ := x
          rw [hfs] at h
          obtain ⟨rfl, rfl⟩ := Prod.mk.inj (Except.ok.inj h)
          obtain ⟨t, ht, hskip⟩ := hfields hfs
          obtain ⟨members, hrow, hformed, hwrites, rfl⟩ := ht.gap ha
          exact ⟨_, .object hrow hformed hwrites, by rw [hr, hskip]; simp⟩
  · obtain ⟨t, ht, rfl⟩ := literal_of_scalar h
    exact ⟨t, ht.writes room, rfl⟩

/-- Induction on the fuel: each reader uses the others with less of it. -/
theorem sound (fuel : Nat) : ValueSound fuel ∧ ItemsSound fuel ∧ FieldsSound fuel := by
  induction fuel with
  | zero => exact ⟨fun h => (nomatch h), fun h => (nomatch h), fun h => (nomatch h)⟩
  | succ fuel ih =>
    obtain ⟨hvalue, hitems, hfields⟩ := ih
    exact ⟨valueSound_succ hitems hfields, itemsSound_succ hvalue hitems,
      fieldsSound_succ hvalue hfields⟩

theorem exists_writes_of_value {s rest : List Char} {v : Value}
    (h : value fuel room s = .ok (v, rest)) :
    ∃ t, Writes digitLimit room t v ∧ s = t ++ rest := (sound fuel).1 h

end Sound

/-! ## What is written is read -/

/-- The characters with which a value can begin. -/
def begins (c : Char) : Bool :=
  isDecimal c || c ∈ ['"', '[', '\x7b', '-', 'n', 't', 'f', 'N', 'I']

theorem ne_of_begins {c d : Char} (h : begins c = true) (hd : begins d = false) : c ≠ d := by
  rintro rfl
  rw [h] at hd
  exact Bool.noConfusion hd

theorem isSpace_of_begins {c : Char} (h : begins c = true) : isSpace c = false := by
  have hspace : c ≠ ' ' := ne_of_begins h (by decide)
  have htab : c ≠ '\t' := ne_of_begins h (by decide)
  have hfeed : c ≠ '\n' := ne_of_begins h (by decide)
  have hreturn : c ≠ '\r' := ne_of_begins h (by decide)
  simp [isSpace, hspace, htab, hfeed, hreturn]

/-- What is true of the first character of every word. -/
theorem exists_head_of_word {w : String} {v : Value} (h : (w, v) ∈ words) (p : Char → Bool)
    (hp : (words.all fun e => e.1.toList.head?.any p) = true) :
    ∃ c r, w.toList = c :: r ∧ p c = true := by
  obtain ⟨c, hc, hpc⟩ := (Option.any_eq_true p _).1 (List.all_eq_true.1 hp _ h)
  obtain ⟨r, hr⟩ := List.head?_eq_some_iff.1 hc
  exact ⟨c, r, hr, hpc⟩

theorem Writes.head {limit room : Nat} {s : List Char} {v : Value} (h : Writes limit room s v)
    (rest : List Char) : ∃ c r, s ++ rest = c :: r ∧ begins c = true := by
  cases h with
  | @word _ w v h =>
    obtain ⟨c, r, hr, hbegins⟩ := exists_head_of_word h begins (by decide)
    exact ⟨c, r ++ rest, by rw [hr]; rfl, hbegins⟩
  | number h =>
    obtain ⟨c, r, hc, hhead⟩ := h.head rest
    refine ⟨c, r, hc, ?_⟩
    rcases hhead with rfl | hdecimal
    · rfl
    · simp [begins, hdecimal]
  | text h =>
    obtain ⟨h⟩ := h
    exact ⟨'"', _, rfl, rfl⟩
  | emptyList hb => exact ⟨'[', _, rfl, rfl⟩
  | list hs h => exact ⟨'[', _, rfl, rfl⟩
  | emptyObject hb => exact ⟨'\x7b', _, rfl, rfl⟩
  | object hs hformed h => exact ⟨'\x7b', _, rfl, rfl⟩

theorem Writes.stops {limit room : Nat} {s : List Char} {v : Value} (h : Writes limit room s v)
    (rest : List Char) : Stops isSpace (s ++ rest) := by
  obtain ⟨c, r, hc, hbegins⟩ := h.head rest
  rw [hc]
  exact Text.stops_cons.2 (isSpace_of_begins hbegins)

/-- A limit of the reader was passed. -/
def Stop.IsLimit : Stop → Prop
  | .wrong _ _ => False
  | .tooManyDigits _ => True
  | .tooDeep _ => True

/-- The reader comes to a result, or to a limit that `within` excludes. -/
def Reads {α : Type} (within : Prop) (r : Reading α) (x : α × List Char) : Prop :=
  r = .ok x ∨ ¬ within ∧ ∃ stop, r = .error stop ∧ stop.IsLimit

/-- A reader that stops where another one does, and goes on from its result. -/
theorem Reads.step {α β : Type} {within : Prop} {r : Reading α} {r' : Reading β}
    {x : α × List Char} {y : β × List Char} (h : Reads within r x)
    (hstop : ∀ stop, r = .error stop → r' = .error stop) (hok : r = .ok x → Reads within r' y) :
    Reads within r' y := by
  rcases h with h | ⟨hnot, stop, h, hlimit⟩
  · exact hok h
  · exact Or.inr ⟨hnot, stop, hstop stop h, hlimit⟩

/-- What the reader keeps to, seen from a text that keeps to these limits. -/
def Within (limit room room' : Nat) : Prop := limit ≤ digitLimit ∧ room ≤ room'

theorem not_within_zero {limit room : Nat} : ¬ Within limit (room + 1) 0 :=
  fun h => absurd h.2 (Nat.not_succ_le_zero room)

/-- What is read within a list or an object is read with less room. -/
theorem Reads.inside {α : Type} {limit room room' : Nat} {r : Reading α} {x : α × List Char}
    (h : Reads (Within limit room room') r x) : Reads (Within limit (room + 1) (room' + 1)) r x := by
  rcases h with h | ⟨hnot, hstop⟩
  · exact Or.inl h
  · exact Or.inr ⟨fun hwithin => hnot ⟨hwithin.1, Nat.le_of_succ_le_succ hwithin.2⟩, hstop⟩

/-- The value is read by a reader with enough fuel, whatever room it has. -/
def ReadsValue (limit room : Nat) (s : List Char) (v : Value) : Prop :=
  ∀ {fuel room' : Nat} {rest : List Char}, 2 * s.length ≤ fuel → Ends rest →
    Reads (Within limit room room') (value fuel room' (s ++ rest)) (v, rest)

theorem exists_fuel {limit room fuel : Nat} {s : List Char} {v : Value}
    (h : Writes limit room s v) (hfuel : 2 * s.length ≤ fuel) : ∃ fuel', fuel = fuel' + 1 := by
  obtain ⟨c, r, hs, -⟩ := h.head []
  rw [List.append_nil] at hs
  rw [hs, List.length_cons] at hfuel
  exact ⟨fuel - 1, by omega⟩

theorem value_of_scalar {c : Char} (hquote : c ≠ '"') (hlist : c ≠ '[') (hobject : c ≠ '\x7b')
    (fuel room : Nat) (r : List Char) : value (fuel + 1) room (c :: r) = scalar (c :: r) := by
  unfold value
  split
  · next h => exact absurd (List.cons.inj h).1 hquote
  · next h => exact absurd (List.cons.inj h).1 hlist
  · next h => exact absurd (List.cons.inj h).1 hobject
  · rfl

theorem readsValue_word {limit room : Nat} {w : String} {v : Value} (h : (w, v) ∈ words) :
    ReadsValue limit room w.toList v := by
  intro fuel room' rest hfuel hends
  have hwrites : Writes limit room w.toList v := .word h
  obtain ⟨fuel, rfl⟩ := exists_fuel hwrites hfuel
  obtain ⟨c, r, hr, hc⟩ :=
    exists_head_of_word h (fun c => c ≠ '"' && c ≠ '[' && c ≠ '\x7b') (by decide)
  obtain ⟨⟨hquote, hlist⟩, hobject⟩ : (c ≠ '"' ∧ c ≠ '[') ∧ c ≠ '\x7b' := by simpa using hc
  have hscalar : scalar (w.toList ++ rest) = .ok (v, rest) := by
    unfold scalar
    rw [word?_append h]
  have hcons : w.toList ++ rest = c :: (r ++ rest) := congrArg (· ++ rest) hr
  refine Or.inl ?_
  rw [← hscalar, hcons]
  exact value_of_scalar hquote hlist hobject fuel room' _

theorem readsValue_number {limit room : Nat} {s : List Char} {v : Value} (h : Numeral limit s v) :
    ReadsValue limit room s v := by
  intro fuel room' rest hfuel hends
  have hwrites : Writes limit room s v := .number h
  obtain ⟨fuel, rfl⟩ := exists_fuel hwrites hfuel
  obtain ⟨c, r, hc, hhead⟩ := h.head rest
  have hne : ∀ d, isDecimal d = false → d ≠ '-' → c ≠ d := by
    rintro d hd hminus rfl
    rcases hhead with rfl | hdecimal
    · exact hminus rfl
    · rw [hd] at hdecimal
      exact Bool.noConfusion hdecimal
  have hvalue : value (fuel + 1) room' (s ++ rest) = scalar (s ++ rest) := by
    rw [hc]
    exact value_of_scalar (hne '"' (by decide) (by decide)) (hne '[' (by decide) (by decide))
      (hne '\x7b' (by decide) (by decide)) fuel room' r
  rw [hvalue]
  rcases scalar_append h hends.cut with hscalar | ⟨hlimit, count, hscalar⟩
  · exact Or.inl hscalar
  · exact Or.inr ⟨fun hwithin => absurd hwithin.1 (by omega), _, hscalar, trivial⟩

theorem value_of_text {r rest : List Char} {t : CodePoints} (h : text r = .ok (t, rest))
    (fuel room : Nat) : value (fuel + 1) room ('"' :: r) = .ok (.text t, rest) := by
  rw [value, h]

theorem readsValue_text {limit room : Nat} {s : List Char} {t : CodePoints} (h : Quoted s t) :
    ReadsValue limit room s (.text t) := by
  intro fuel room' rest hfuel hends
  have hwrites : Writes limit room s (.text t) := .text h
  obtain ⟨fuel, rfl⟩ := exists_fuel hwrites hfuel
  obtain @⟨inner, ns, hinner⟩ := h
  have htext : text (inner ++ ['"'] ++ rest) = .ok (paired ns, rest) :=
    text_eq_ok.2 ⟨_, .mk hinner, rfl⟩
  exact Or.inl (value_of_text htext fuel room')

/-- What follows an item or a field: blanks, and a comma or a bracket. -/
theorem ends_of_gap {b s : List Char} {c : Char} (hb : Gap b) (hc : c = ',' ∨ c = ']' ∨ c = '\x7d') :
    Ends (b ++ c :: s) := by
  intro d hd
  cases b with
  | nil =>
    obtain rfl := Option.some.inj hd
    exact Or.inr hc
  | cons e b =>
    obtain rfl := Option.some.inj hd
    exact Or.inl (hb e List.mem_cons_self)

/-- Blanks before a comma or a bracket are passed over. -/
theorem skipSpace_gap {b s : List Char} {c : Char} (hb : Gap b) (hc : isSpace c = false) :
    skipSpace (b ++ c :: s) = c :: s := skipSpace_append hb (Text.stops_cons.2 hc)

theorem items_of_error {fuel room : Nat} {s : List Char} {e : Stop}
    (h : value fuel room s = .error e) : items (fuel + 1) room s = .error e := by
  unfold items
  rw [h]

theorem items_last {fuel room : Nat} {s b rest : List Char} {v : Value} (hb : Gap b)
    (h : value fuel room s = .ok (v, b ++ ']' :: rest)) :
    items (fuel + 1) room s = .ok ([v], rest) := by
  unfold items
  rw [h]
  dsimp only
  rw [skipSpace_gap hb (by decide)]
  rfl

theorem items_next {fuel room : Nat} {s b r : List Char} {v : Value} (hb : Gap b)
    (h : value fuel room s = .ok (v, b ++ ',' :: r)) :
    items (fuel + 1) room s =
      match items fuel room (skipSpace r) with
      | .ok (vs, rest) => .ok (v :: vs, rest)
      | .error e => .error e := by
  conv => lhs; unfold items
  rw [h]
  dsimp only
  rw [skipSpace_gap hb (by decide)]
  rfl

theorem reads_items {limit room : Nat} {s : List Char} {ts : List (List Char)} (hrow : Row ts s)
    {parts : List (List Char × Value)} (hts : parts.map Prod.fst = ts)
    (hparts : ∀ p ∈ parts, Writes limit room p.1 p.2)
    (hreads : ∀ p ∈ parts, ReadsValue limit room p.1 p.2) {fuel room' : Nat} (rest : List Char)
    (hfuel : 2 * s.length < fuel) :
    Reads (Within limit room room') (items fuel room' (skipSpace (s ++ ']' :: rest)))
      (parts.map Prod.snd, rest) := by
  induction hrow generalizing parts fuel with
  | @one a t b ha hb =>
    obtain ⟨⟨t', v⟩, rfl, rfl⟩ := List.map_eq_singleton_iff.1 hts
    obtain ⟨fuel, rfl⟩ := Nat.exists_eq_add_one_of_ne_zero (by omega : fuel ≠ 0)
    have hwrites : Writes limit room t' v := hparts _ List.mem_cons_self
    have hvalue : ReadsValue limit room t' v := hreads _ List.mem_cons_self
    have hskip : skipSpace (a ++ (t' ++ b) ++ ']' :: rest) = t' ++ (b ++ ']' :: rest) := by
      rw [List.append_assoc, List.append_assoc]
      exact skipSpace_append ha (hwrites.stops _)
    simp only [List.length_append] at hfuel
    rw [hskip]
    exact (hvalue (by omega) (ends_of_gap hb (Or.inr (Or.inl rfl)))).step
      (fun _ => items_of_error) fun hv => Or.inl (items_last hb hv)
  | @more a t b s ts ha hb hrow ih =>
    obtain ⟨⟨t', v⟩, parts, rfl, rfl, hrest⟩ := List.map_eq_cons_iff.1 hts
    obtain ⟨fuel, rfl⟩ := Nat.exists_eq_add_one_of_ne_zero (by omega : fuel ≠ 0)
    have hwrites : Writes limit room t' v := hparts _ List.mem_cons_self
    have hvalue : ReadsValue limit room t' v := hreads _ List.mem_cons_self
    have hskip : skipSpace (a ++ (t' ++ (b ++ ',' :: s)) ++ ']' :: rest) =
        t' ++ (b ++ ',' :: (s ++ ']' :: rest)) := by
      simp only [List.append_assoc, List.cons_append]
      exact skipSpace_append ha (hwrites.stops _)
    simp only [List.length_append, List.length_cons] at hfuel
    rw [hskip]
    have hitems := ih hrest (fun p hp => hparts p (List.mem_cons_of_mem _ hp))
      (fun p hp => hreads p (List.mem_cons_of_mem _ hp)) (by omega : 2 * s.length < fuel)
    refine (hvalue (by omega) (ends_of_gap hb (Or.inl rfl))).step (fun _ => items_of_error)
      fun hv => ?_
    rw [items_next hb hv]
    refine hitems.step (fun stop hstop => ?_) fun hvs => ?_
    · rw [hstop]
    · rw [hvs]
      exact Or.inl rfl

/-- After the name of a field and its colon, its value is read. -/
theorem fields_member {m : Member} (hm : m.Formed) {r : List Char}
    (hr : Stops isSpace (m.written ++ r)) (fuel room : Nat) :
    fields (fuel + 1) room (m.text ++ r) =
      match value fuel room (m.written ++ r) with
      | .error e => .error e
      | .ok (v, rest) =>
        match skipSpace rest with
        | '\x7d' :: rest => .ok ([(m.name, v)], rest)
        | ',' :: rest =>
          match fields fuel room (skipSpace rest) with
          | .ok (fs, rest) => .ok ((m.name, v) :: fs, rest)
          | .error e => .error e
        | rest => .error (.wrong .expectedComma rest.length) := by
  obtain ⟨hname, hbefore, hafter⟩ := hm
  obtain ⟨name, v, q, before, after, written⟩ := m
  obtain @⟨inner, ns, hinner⟩ := hname
  have htext : text (inner ++ ['"'] ++ (before ++ ':' :: (after ++ (written ++ r)))) =
      .ok (paired ns, before ++ ':' :: (after ++ (written ++ r))) :=
    text_eq_ok.2 ⟨_, .mk hinner, rfl⟩
  have hcons : Member.text ⟨paired ns, v, '"' :: (inner ++ ['"']), before, after, written⟩ ++ r =
      '"' :: (inner ++ ['"'] ++ (before ++ ':' :: (after ++ (written ++ r)))) := by
    simp [Member.text]
  have hcolon : skipSpace (before ++ ':' :: (after ++ (written ++ r))) =
      ':' :: (after ++ (written ++ r)) := skipSpace_gap hbefore (by decide)
  have hvalue : skipSpace (after ++ (written ++ r)) = written ++ r := skipSpace_append hafter hr
  rw [hcons, fields, htext]
  dsimp only
  rw [hcolon]
  conv => rhs; rw [← hvalue]
  rfl

theorem fields_of_error {m : Member} (hm : m.Formed) {r : List Char}
    (hr : Stops isSpace (m.written ++ r)) {fuel room : Nat} {e : Stop}
    (h : value fuel room (m.written ++ r) = .error e) :
    fields (fuel + 1) room (m.text ++ r) = .error e := by
  rw [fields_member hm hr, h]

theorem fields_last {m : Member} (hm : m.Formed) {b rest : List Char} (hb : Gap b)
    (hr : Stops isSpace (m.written ++ (b ++ '\x7d' :: rest))) {fuel room : Nat}
    (h : value fuel room (m.written ++ (b ++ '\x7d' :: rest)) =
      .ok (m.value, b ++ '\x7d' :: rest)) :
    fields (fuel + 1) room (m.text ++ (b ++ '\x7d' :: rest)) = .ok ([m.field], rest) := by
  rw [fields_member hm hr, h]
  dsimp only
  rw [skipSpace_gap hb (by decide)]
  rfl

theorem fields_next {m : Member} (hm : m.Formed) {b r : List Char} (hb : Gap b)
    (hr : Stops isSpace (m.written ++ (b ++ ',' :: r))) {fuel room : Nat}
    (h : value fuel room (m.written ++ (b ++ ',' :: r)) = .ok (m.value, b ++ ',' :: r)) :
    fields (fuel + 1) room (m.text ++ (b ++ ',' :: r)) =
      match fields fuel room (skipSpace r) with
      | .ok (fs, rest) => .ok (m.field :: fs, rest)
      | .error e => .error e := by
  rw [fields_member hm hr, h]
  dsimp only
  rw [skipSpace_gap hb (by decide)]
  rfl

/-- A field begins with a quote. -/
theorem Member.Formed.head {m : Member} (hm : m.Formed) (s : List Char) :
    ∃ r, m.text ++ s = '"' :: r := by
  obtain ⟨name, v, q, before, after, written⟩ := m
  obtain @⟨inner, ns, hinner⟩ := hm.name
  exact ⟨_, rfl⟩

theorem Member.Formed.stops {m : Member} (hm : m.Formed) (s : List Char) :
    Stops isSpace (m.text ++ s) := by
  obtain ⟨r, hr⟩ := hm.head s
  rw [hr]
  exact Text.stops_cons.2 (by decide)

theorem reads_fields {limit room : Nat} {s : List Char} {ts : List (List Char)} (hrow : Row ts s)
    {members : List Member} (hts : members.map Member.text = ts)
    (hformed : ∀ m ∈ members, m.Formed)
    (hwrites : ∀ m ∈ members, Writes limit room m.written m.value)
    (hreads : ∀ m ∈ members, ReadsValue limit room m.written m.value) {fuel room' : Nat}
    (rest : List Char) (hfuel : 2 * s.length < fuel) :
    Reads (Within limit room room') (fields fuel room' (skipSpace (s ++ '\x7d' :: rest)))
      (members.map Member.field, rest) := by
  have hlength : ∀ m : Member, m.written.length ≤ m.text.length := by
    intro m
    simp only [Member.text, List.length_append, List.length_cons]
    omega
  induction hrow generalizing members fuel with
  | @one a t b ha hb =>
    obtain ⟨m, rfl, rfl⟩ := List.map_eq_singleton_iff.1 hts
    obtain ⟨fuel, rfl⟩ := Nat.exists_eq_add_one_of_ne_zero (by omega : fuel ≠ 0)
    have hm : m.Formed := hformed m List.mem_cons_self
    have hvalue : ReadsValue limit room m.written m.value := hreads m List.mem_cons_self
    have hstops := (hwrites m List.mem_cons_self).stops (b ++ '\x7d' :: rest)
    have hskip : skipSpace (a ++ (m.text ++ b) ++ '\x7d' :: rest) =
        m.text ++ (b ++ '\x7d' :: rest) := by
      rw [List.append_assoc, List.append_assoc]
      exact skipSpace_append ha (hm.stops _)
    have hm' := hlength m
    simp only [List.length_append] at hfuel
    rw [hskip]
    exact (hvalue (by omega) (ends_of_gap hb (Or.inr (Or.inr rfl)))).step
      (fun _ => fields_of_error hm hstops) fun hv => Or.inl (fields_last hm hb hstops hv)
  | @more a t b s ts ha hb hrow ih =>
    obtain ⟨m, members, rfl, rfl, hrest⟩ := List.map_eq_cons_iff.1 hts
    obtain ⟨fuel, rfl⟩ := Nat.exists_eq_add_one_of_ne_zero (by omega : fuel ≠ 0)
    have hm : m.Formed := hformed m List.mem_cons_self
    have hvalue : ReadsValue limit room m.written m.value := hreads m List.mem_cons_self
    have hstops := (hwrites m List.mem_cons_self).stops (b ++ ',' :: (s ++ '\x7d' :: rest))
    have hskip : skipSpace (a ++ (m.text ++ (b ++ ',' :: s)) ++ '\x7d' :: rest) =
        m.text ++ (b ++ ',' :: (s ++ '\x7d' :: rest)) := by
      simp only [List.append_assoc, List.cons_append]
      exact skipSpace_append ha (hm.stops _)
    have hm' := hlength m
    simp only [List.length_append, List.length_cons] at hfuel
    rw [hskip]
    have hfields := ih hrest (fun n hn => hformed n (List.mem_cons_of_mem _ hn))
      (fun n hn => hwrites n (List.mem_cons_of_mem _ hn))
      (fun n hn => hreads n (List.mem_cons_of_mem _ hn)) (by omega : 2 * s.length < fuel)
    refine (hvalue (by omega) (ends_of_gap hb (Or.inl rfl))).step
      (fun _ => fields_of_error hm hstops) fun hv => ?_
    rw [fields_next hm hb hstops hv]
    refine hfields.step (fun stop hstop => ?_) fun hfs => ?_
    · rw [hstop]
    · rw [hfs]
      exact Or.inl rfl

/-- A list that is not empty is read item by item. -/
theorem value_of_items {r t : List Char} {c : Char} (h : skipSpace r = c :: t) (hc : c ≠ ']')
    (fuel room : Nat) : value (fuel + 1) (room + 1) ('[' :: r) =
      match items fuel room (skipSpace r) with
      | .ok (vs, rest) => .ok (.list vs, rest)
      | .error e => .error e := by
  rw [value, h]
  split
  · next heq => exact absurd (List.cons.inj heq).1 hc
  · rfl

/-- An object that is not empty is read field by field. -/
theorem value_of_fields {r t : List Char} {c : Char} (h : skipSpace r = c :: t) (hc : c ≠ '\x7d')
    (fuel room : Nat) : value (fuel + 1) (room + 1) ('\x7b' :: r) =
      match fields fuel room (skipSpace r) with
      | .ok (fs, rest) => .ok (.object (Record.ofList fs), rest)
      | .error e => .error e := by
  rw [value, h]
  split
  · next heq => exact absurd (List.cons.inj heq).1 hc
  · rfl

/-- The first item of a list. -/
theorem Row.exists_head {ts : List (List Char)} {s : List Char} (h : Row ts s)
    {p : Char → Prop} (hts : ∀ t ∈ ts, ∀ rest, ∃ c r, t ++ rest = c :: r ∧ isSpace c = false ∧ p c)
    (rest : List Char) : ∃ c r, skipSpace (s ++ rest) = c :: r ∧ p c := by
  cases h with
  | @one a t b ha hb =>
    obtain ⟨c, r, hc, hspace, hp⟩ := hts t List.mem_cons_self (b ++ rest)
    refine ⟨c, r, ?_, hp⟩
    rw [List.append_assoc, List.append_assoc, ← hc]
    exact skipSpace_append ha (hc ▸ Text.stops_cons.2 hspace)
  | @more a t b s ts ha hb h =>
    obtain ⟨c, r, hc, hspace, hp⟩ := hts t List.mem_cons_self (b ++ ',' :: (s ++ rest))
    refine ⟨c, r, ?_, hp⟩
    rw [← hc]
    simp only [List.append_assoc, List.cons_append]
    exact skipSpace_append ha (hc ▸ Text.stops_cons.2 hspace)

theorem readsValue_list {limit room : Nat} {s : List Char} {parts : List (List Char × Value)}
    (hs : Row (parts.map Prod.fst) s) (hparts : ∀ p ∈ parts, Writes limit room p.1 p.2)
    (hreads : ∀ p ∈ parts, ReadsValue limit room p.1 p.2) :
    ReadsValue limit (room + 1) ('[' :: (s ++ [']'])) (.list (parts.map Prod.snd)) := by
  intro fuel room' rest hfuel hends
  obtain ⟨fuel, rfl⟩ := exists_fuel (.list hs hparts) hfuel
  simp only [List.length_cons, List.length_append, List.length_nil] at hfuel
  cases room' with
  | zero => exact Or.inr ⟨not_within_zero, _, rfl, trivial⟩
  | succ room' =>
    have hheads : ∀ t ∈ parts.map Prod.fst, ∀ rest, ∃ c r, t ++ rest = c :: r ∧
        isSpace c = false ∧ c ≠ ']' := by
      intro t ht rest
      obtain ⟨p, hp, rfl⟩ := List.mem_map.1 ht
      obtain ⟨c, r, hcons, hbegins⟩ := (hparts p hp).head rest
      exact ⟨c, r, hcons, isSpace_of_begins hbegins, ne_of_begins hbegins (by decide)⟩
    obtain ⟨c, t, hc, hclose⟩ := hs.exists_head hheads (']' :: rest)
    have hitems : Reads (Within limit room room')
        (items fuel room' (skipSpace (s ++ ']' :: rest))) (parts.map Prod.snd, rest) :=
      reads_items hs rfl hparts hreads rest (by omega)
    rw [List.cons_append, List.append_assoc, List.singleton_append, value_of_items hc hclose]
    refine hitems.inside.step (fun stop hstop => ?_) fun hvs => ?_
    · rw [hstop]
    · rw [hvs]
      exact Or.inl rfl

theorem readsValue_object {limit room : Nat} {s : List Char} {members : List Member}
    (hs : Row (members.map Member.text) s) (hformed : ∀ m ∈ members, m.Formed)
    (hwrites : ∀ m ∈ members, Writes limit room m.written m.value)
    (hreads : ∀ m ∈ members, ReadsValue limit room m.written m.value) :
    ReadsValue limit (room + 1) ('\x7b' :: (s ++ ['\x7d']))
      (.object (Record.ofList (members.map Member.field))) := by
  intro fuel room' rest hfuel hends
  obtain ⟨fuel, rfl⟩ := exists_fuel (.object hs hformed hwrites) hfuel
  simp only [List.length_cons, List.length_append, List.length_nil] at hfuel
  cases room' with
  | zero => exact Or.inr ⟨not_within_zero, _, rfl, trivial⟩
  | succ room' =>
    have hheads : ∀ t ∈ members.map Member.text, ∀ rest, ∃ c r, t ++ rest = c :: r ∧
        isSpace c = false ∧ c ≠ '\x7d' := by
      intro t ht rest
      obtain ⟨m, hm, rfl⟩ := List.mem_map.1 ht
      obtain ⟨r, hr⟩ := (hformed m hm).head rest
      exact ⟨'"', r, hr, by decide, by decide⟩
    obtain ⟨c, t, hc, hclose⟩ := hs.exists_head hheads ('\x7d' :: rest)
    have hfields : Reads (Within limit room room')
        (fields fuel room' (skipSpace (s ++ '\x7d' :: rest))) (members.map Member.field, rest) :=
      reads_fields hs rfl hformed hwrites hreads rest (by omega)
    rw [List.cons_append, List.append_assoc, List.singleton_append, value_of_fields hc hclose]
    refine hfields.inside.step (fun stop hstop => ?_) fun hfs => ?_
    · rw [hstop]
    · rw [hfs]
      exact Or.inl rfl

/-- Nothing is read of empty lists and objects but blanks. -/
theorem reads_empty {limit room fuel room' : Nat} {b rest : List Char} (hb : Gap b) :
    Reads (Within limit (room + 1) room') (value (fuel + 1) room' ('[' :: (b ++ ']' :: rest)))
      (.list [], rest) ∧
    Reads (Within limit (room + 1) room')
      (value (fuel + 1) room' ('\x7b' :: (b ++ '\x7d' :: rest))) (.object [], rest) := by
  cases room' with
  | zero =>
    exact ⟨Or.inr ⟨not_within_zero, _, rfl, trivial⟩, Or.inr ⟨not_within_zero, _, rfl, trivial⟩⟩
  | succ room' =>
    constructor
    · rw [value, skipSpace_gap hb (by decide)]
      exact Or.inl rfl
    · rw [value, skipSpace_gap hb (by decide)]
      exact Or.inl rfl

/-- What is written is read, with the limits that it keeps to. Induction on how it is written: the
items and fields are read by the induction hypothesis, whatever follows them. -/
theorem Writes.reads {limit room : Nat} {s : List Char} {v : Value} (h : Writes limit room s v) :
    ReadsValue limit room s v := by
  induction h with
  | word h => exact readsValue_word h
  | number h => exact readsValue_number h
  | text h => exact readsValue_text h
  | @emptyList room b hb =>
    intro fuel room' rest hfuel hends
    have hwrites : Writes limit (room + 1) ('[' :: (b ++ [']'])) (.list []) := .emptyList hb
    obtain ⟨fuel, rfl⟩ := exists_fuel hwrites hfuel
    rw [List.cons_append, List.append_assoc]
    exact (reads_empty hb).1
  | list hs hparts ih => exact readsValue_list hs hparts ih
  | @emptyObject room b hb =>
    intro fuel room' rest hfuel hends
    have hwrites : Writes limit (room + 1) ('\x7b' :: (b ++ ['\x7d'])) (.object []) :=
      .emptyObject hb
    obtain ⟨fuel, rfl⟩ := exists_fuel hwrites hfuel
    rw [List.cons_append, List.append_assoc]
    exact (reads_empty hb).2
  | object hs hformed hwrites ih => exact readsValue_object hs hformed hwrites ih

/-! ## Whole texts -/

theorem ends_of_whole {b : List Char} (hb : Gap b) : Ends b := by
  intro c hc
  obtain ⟨r, rfl⟩ := List.head?_eq_some_iff.1 hc
  exact Or.inl (hb c List.mem_cons_self)

theorem skipSpace_of_gap {b : List Char} (hb : Gap b) : skipSpace b = [] := by
  have h := skipSpace_append hb Text.stops_nil
  rwa [List.append_nil] at h

/-- A whole text begins with a blank or a value, and not with a byte order mark. -/
theorem Document.noMark {limit room : Nat} {s : List Char} {v : Value}
    (h : Document limit room s v) (t : List Char) : s ≠ '\uFEFF' :: t := by
  obtain @⟨a, u, b, _, ha, hb, h⟩ := h
  intro hs
  cases a with
  | nil =>
    obtain ⟨c, r, hc, hbegins⟩ := h.head b
    rw [List.nil_append, hc] at hs
    exact ne_of_begins hbegins (by decide) (List.cons.inj hs).1
  | cons c a =>
    have hspace := ha c List.mem_cons_self
    rw [(List.cons.inj hs).1] at hspace
    exact absurd hspace (by decide)

theorem document_of_noMark {s : List Char} (h : ∀ t, s ≠ '\uFEFF' :: t) :
    document s =
      match value (2 * s.length + 2) depthLimit (skipSpace s) with
      | .error e => .error e
      | .ok (v, rest) =>
        match skipSpace rest with
        | [] => .ok v
        | rest => .error (.wrong .extraData rest.length) := by
  unfold document
  split
  · next t => exact absurd rfl (h t)
  · rfl

theorem document_of_bom (t : List Char) :
    document ('\uFEFF' :: t) = .error (.wrong .byteOrderMark (t.length + 1)) := rfl

/-- A text that keeps to some limits is read, or reading it stops at a limit of the reader, which
is narrower then. -/
theorem Document.reads {limit room : Nat} {s : List Char} {v : Value}
    (h : Document limit room s v) :
    document s = .ok v ∨ ¬ Within limit room depthLimit ∧
      ∃ stop, document s = .error stop ∧ stop.IsLimit := by
  rw [document_of_noMark h.noMark]
  obtain @⟨a, u, b, _, ha, hb, h⟩ := h
  have hskip : skipSpace (a ++ (u ++ b)) = u ++ b := skipSpace_append ha (h.stops b)
  have hfuel : 2 * u.length ≤ 2 * (a ++ (u ++ b)).length + 2 := by
    simp only [List.length_append]
    omega
  rw [hskip]
  rcases h.reads hfuel (ends_of_whole hb) with hv | ⟨hnot, stop, hstop, hlimit⟩
  · rw [hv]
    dsimp only
    rw [skipSpace_of_gap hb]
    exact Or.inl rfl
  · rw [hstop]
    exact Or.inr ⟨hnot, stop, rfl, hlimit⟩

/-- The reader takes the texts that keep to its limits, and no others. -/
theorem document_eq_ok {s : List Char} {v : Value} :
    document s = .ok v ↔ Document digitLimit depthLimit s v := by
  constructor
  · intro h
    by_cases hmark : ∃ t, s = '\uFEFF' :: t
    · obtain ⟨t, rfl⟩ := hmark
      exact nomatch (document_of_bom t).symm.trans h
    · rw [document_of_noMark fun t ht => hmark ⟨t, ht⟩] at h
      cases hv : value (2 * s.length + 2) depthLimit (skipSpace s) with
      | error e =>
        rw [hv] at h
        exact nomatch h
      | ok r =>
        obtain ⟨v', rest⟩ := r
        rw [hv] at h
        obtain ⟨a, ha, hs⟩ := exists_gap s
        obtain ⟨b, hb, hrest⟩ := exists_gap rest
        obtain ⟨t, ht, hskip⟩ := exists_writes_of_value hv
        dsimp only at h
        split at h
        · next hnil =>
          obtain rfl := Except.ok.inj h
          rw [hnil, List.append_nil] at hrest
          rw [hs, hskip, hrest]
          exact ⟨ha, hb, ht⟩
        · exact nomatch h
  · intro h
    rcases h.reads with h | ⟨hnot, -⟩
    · exact h
    · exact absurd ⟨Nat.le_refl _, Nat.le_refl _⟩ hnot

end Workbench.Json
