import Workbench.Path
import Workbench.Proofs.Text.Lines

/-!
# Reading and writing paths

* `IsName` : what can stand between the slashes of a path, apart from what says nothing;
* `partsOf_append` : the names of two texts with a slash between them are those of both;
* `partsOf_text`, `rootOf_text_append` : the names of a path are read from its text again, and what
  follows the text does not change where it starts;
* `ofText_name`, `ofText_text`, `text_inj` : a name as a path, and a path read from its text again, so
  the text tells paths apart;
* `descends_absolute` : an absolute path starts at a root, and no `..` is left in it;
* `getLast?_absolute` : it has the last name of the text that was read;
* `ofText_behind` : a text behind a slash is taken from the directory before it, except behind a
  root;
* `stem_ne_empty`, `not_mem_stem` : what is left of a name without its suffix.
-/

namespace Workbench.Path

open Text (splitOn splitOn_append splitOn_of_not_mem not_mem_of_mem_splitOn)

/-! ## Names -/

/-- What can be read as a name: not nothing, not a point, and without a slash. -/
structure IsName (part : String) : Prop where
  ne_empty : part ≠ ""
  ne_point : part ≠ "."
  no_slash : '/' ∉ part.toList

theorem isName_of_mem_partsOf {s : List Char} {part : String} (h : part ∈ partsOf s) :
    IsName part := by
  obtain ⟨piece, hpiece, rfl⟩ := List.mem_map.1 h
  obtain ⟨hsplit, hkept⟩ := List.mem_filter.1 hpiece
  have hkept : piece ≠ [] ∧ piece ≠ ['.'] := by simpa using hkept
  constructor
  · intro he
    have := congrArg String.toList he
    exact hkept.1 (by simpa using this)
  · intro he
    have := congrArg String.toList he
    exact hkept.2 (by simpa using this)
  · rw [String.toList_ofList]
    exact not_mem_of_mem_splitOn hsplit

theorem partsOf_append (s t : List Char) : partsOf (s ++ '/' :: t) = partsOf s ++ partsOf t := by
  simp only [partsOf, splitOn_append, List.filter_append, List.map_append]

theorem partsOf_cons_slash (s : List Char) : partsOf ('/' :: s) = partsOf s := partsOf_append [] s

theorem partsOf_name {part : String} (h : IsName part) : partsOf part.toList = [part] := by
  have hempty : part.toList ≠ [] := by simpa using h.ne_empty
  have hpoint : part.toList ≠ ['.'] := by
    intro he
    have := congrArg String.ofList he
    exact h.ne_point (by simpa using this)
  simp [partsOf, splitOn_of_not_mem h.no_slash, hempty, hpoint]

theorem toList_interleave_cons (part next : String) (rest : List String) :
    (Text.interleave "/" (part :: next :: rest)).toList =
      part.toList ++ '/' :: (Text.interleave "/" (next :: rest)).toList := by
  have hunfold : Text.interleave "/" (part :: next :: rest) =
      part ++ "/" ++ Text.interleave "/" (next :: rest) := rfl
  simp [hunfold]

theorem partsOf_interleave {parts : List String} (h : ∀ part ∈ parts, IsName part) :
    partsOf (Text.interleave "/" parts).toList = parts := by
  induction parts with
  | nil => rfl
  | cons part rest ih =>
    have hpart : partsOf part.toList = [part] := partsOf_name (h part List.mem_cons_self)
    cases rest with
    | nil => exact hpart
    | cons next rest =>
      rw [toList_interleave_cons, partsOf_append, hpart,
        ih fun p hp => h p (List.mem_cons_of_mem part hp)]
      rfl

/-- The names of a path are read from its text again. -/
theorem partsOf_text {p : Path} (h : ∀ part ∈ p.parts, IsName part) :
    partsOf p.text.toList = p.parts := by
  have hparts := partsOf_interleave h
  unfold text
  split
  · next he =>
    rw [he.2]
    rfl
  · rw [String.toList_append]
    cases p.root with
    | here => simpa [Root.text] using hparts
    | single => exact (partsOf_cons_slash _).trans hparts
    | double => exact ((partsOf_cons_slash _).trans (partsOf_cons_slash _)).trans hparts

theorem text_ne_empty {p : Path} (h : ∀ part ∈ p.parts, IsName part) : p.text ≠ "" := by
  unfold text
  split
  · decide
  · next hroot =>
    intro he
    have hlist := congrArg String.toList he
    rw [String.toList_append] at hlist
    obtain ⟨hrooted, hnames⟩ := List.append_eq_nil_iff.1 hlist
    have hparts : p.parts = [] := by rw [← partsOf_interleave h, hnames]; rfl
    have hhere : p.root = .here := by
      cases hr : p.root with
      | here => rfl
      | single => rw [hr] at hrooted; exact absurd hrooted (by decide)
      | double => rw [hr] at hrooted; exact absurd hrooted (by decide)
    exact hroot ⟨hhere, hparts⟩

theorem mem_interleave {parts : List String} {c : Char} (hc : c ≠ '/') :
    c ∈ (Text.interleave "/" parts).toList ↔ ∃ part ∈ parts, c ∈ part.toList := by
  induction parts with
  | nil => simp [Text.interleave]
  | cons part rest ih =>
    cases rest with
    | nil => simp [Text.interleave]
    | cons next rest =>
      rw [toList_interleave_cons, List.mem_append, List.mem_cons, ih, or_iff_right hc]
      simp only [List.mem_cons, or_and_right, exists_or, exists_eq_left]

/-- The text of a path holds the characters of its names, and slashes and points. -/
theorem mem_text {p : Path} {c : Char} (hslash : c ≠ '/') (hpoint : c ≠ '.') :
    c ∈ p.text.toList ↔ ∃ part ∈ p.parts, c ∈ part.toList := by
  unfold text
  split
  · next hp => simp [hp.2, hpoint]
  · have hroot : c ∉ p.root.text.toList := by
      cases p.root with
      | here => exact List.not_mem_nil
      | single => simpa [Root.text] using hslash
      | double => simpa [Root.text] using hslash
    rw [String.toList_append, List.mem_append, mem_interleave hslash]
    exact or_iff_right hroot

/-- The names of a path end with the last character of the last one. -/
theorem last_interleave_ne {parts : List String} {last : String} (h : parts.getLast? = some last)
    (hlast : IsName last) :
    ∃ c, (Text.interleave "/" parts).toList.getLast? = some c ∧ c ≠ '/' := by
  induction parts with
  | nil => exact nomatch h
  | cons part rest ih =>
    cases rest with
    | nil =>
      obtain rfl := Option.some.inj h
      have hempty : part.toList ≠ [] := by simpa using hlast.ne_empty
      refine ⟨_, List.getLast?_eq_some_getLast hempty, fun hslash => hlast.no_slash ?_⟩
      rw [← hslash]
      exact List.getLast_mem hempty
    | cons next rest =>
      obtain ⟨c, hc, hslash⟩ := ih h
      refine ⟨c, ?_, hslash⟩
      rw [toList_interleave_cons, List.getLast?_append, List.getLast?_cons, hc]
      rfl

/-- The text of a path that leads to a name does not end with a slash. -/
theorem endsWith_slash_text {p : Path} {last : String} (h : p.parts.getLast? = some last)
    (hname : IsName last) : p.text.endsWith "/" = false := by
  obtain ⟨c, hc, hslash⟩ := last_interleave_ne h hname
  have hne : p.parts ≠ [] := fun hnil => by
    rw [hnil] at h
    exact nomatch h
  have hlast : p.text.toList.getLast? = some c := by
    unfold text
    rw [if_neg fun hp => hne hp.2, String.toList_append, List.getLast?_append, hc]
    rfl
  rw [← Bool.not_eq_true, String.endsWith_eq_endsWith_toSlice, String.Slice.endsWith_string_iff]
  rintro ⟨before, hbefore⟩
  have hcopy : p.text.toSlice.copy = p.text := by simp
  rw [hcopy] at hbefore
  rw [← hbefore] at hlast
  simp at hlast
  exact hslash hlast.symm

theorem isName_ofText (s : String) : ∀ part ∈ (ofText s).parts, IsName part :=
  fun _ h => isName_of_mem_partsOf h

theorem isName_parent {p : Path} (h : ∀ part ∈ p.parts, IsName part) :
    ∀ part ∈ p.parent.parts, IsName part :=
  fun part hpart => h part (List.dropLast_subset p.parts hpart)

/-! ## Absolute paths -/

theorem rootOf_cons_slash (s : List Char) : rootOf ('/' :: s) ≠ .here := by
  unfold rootOf
  split
  · decide
  · decide
  · decide
  · next hthree => exact absurd rfl (hthree s)

theorem toList_text_of_rooted {p : Path} (h : p.root ≠ .here) :
    ∃ s, p.text.toList = '/' :: s := by
  unfold text
  rw [if_neg fun hp => h hp.1, String.toList_append]
  cases hr : p.root with
  | here => exact absurd hr h
  | single => exact ⟨_, rfl⟩
  | double => exact ⟨_, rfl⟩

theorem IsName.exists_cons {part : String} (h : IsName part) :
    ∃ c s, part.toList = c :: s ∧ c ≠ '/' := by
  cases hpart : part.toList with
  | nil => exact absurd (by simpa using hpart) h.ne_empty
  | cons c s =>
    refine ⟨c, s, rfl, ?_⟩
    rintro rfl
    exact h.no_slash (by simp [hpart])

theorem rootOf_of_not_slash (root : Root) {c : Char} (h : c ≠ '/') (s : List Char) :
    rootOf (root.text.toList ++ c :: s) = root := by
  cases root with
  | here => exact rootOf.eq_4 (c :: s) (by simp [h]) (by simp [h]) (by simp [h])
  | single => exact rootOf.eq_3 (c :: s) (by simp [h]) (by simp [h])
  | double => exact rootOf.eq_2 (c :: s) (by simp [h])

/-- What follows the names of a path does not change where it starts. -/
theorem rootOf_text_append {p : Path} (h : ∀ part ∈ p.parts, IsName part) (hne : p.parts ≠ [])
    (s : List Char) : rootOf (p.text.toList ++ s) = p.root := by
  obtain ⟨part, rest, hparts⟩ := List.exists_cons_of_ne_nil hne
  obtain ⟨c, t, hpart, hc⟩ := (h part (by rw [hparts]; exact List.mem_cons_self)).exists_cons
  obtain ⟨u, hu⟩ : ∃ u, (Text.interleave "/" p.parts).toList = c :: u := by
    rw [hparts]
    cases rest with
    | nil => exact ⟨t, hpart⟩
    | cons next rest =>
      rw [toList_interleave_cons, hpart]
      exact ⟨_, rfl⟩
  unfold text
  rw [if_neg fun hp => hne hp.2, String.toList_append, hu, List.append_assoc]
  exact rootOf_of_not_slash p.root hc (u ++ s)

theorem ofText_name {name : String} (h : IsName name) : ofText name = ⟨.here, [name]⟩ := by
  obtain ⟨c, s, hname, hc⟩ := h.exists_cons
  unfold ofText
  rw [partsOf_name h, hname]
  exact congrArg (Path.mk · [name]) (rootOf_of_not_slash .here hc s)

/-- A path is read from its text again. -/
theorem ofText_text {p : Path} (h : ∀ part ∈ p.parts, IsName part) : ofText p.text = p := by
  have hroot : rootOf p.text.toList = p.root := by
    by_cases hne : p.parts = []
    · unfold text
      rw [hne]
      cases p.root <;> rfl
    · have happend := rootOf_text_append h hne []
      rwa [List.append_nil] at happend
  unfold ofText
  rw [hroot, partsOf_text h]

/-- Paths are known from their texts. -/
theorem text_inj {p q : Path} (hp : ∀ part ∈ p.parts, IsName part)
    (hq : ∀ part ∈ q.parts, IsName part) : p.text = q.text ↔ p = q := by
  constructor
  · intro h
    rw [← ofText_text hp, ← ofText_text hq, h]
  · exact congrArg text

theorem absolute_rooted {cwd : String} (h : (ofText cwd).root ≠ .here) (s : String) :
    (absolute cwd s).root ≠ .here := by
  show (join (ofText cwd) (ofText s)).root ≠ .here
  unfold join
  split
  · exact h
  · next hs => exact hs

theorem isName_join {p q : Path} (hp : ∀ part ∈ p.parts, IsName part)
    (hq : ∀ part ∈ q.parts, IsName part) : ∀ part ∈ (p / q).parts, IsName part := by
  show ∀ part ∈ (join p q).parts, IsName part
  unfold join
  split
  · intro part hpart
    rcases List.mem_append.1 hpart with hpart | hpart
    · exact hp part hpart
    · exact hq part hpart
  · exact hq

theorem getLast?_join {p q : Path} {part : String} (h : q.parts.getLast? = some part) :
    (p / q).parts.getLast? = some part := by
  show (join p q).parts.getLast? = some part
  unfold join
  split
  · simp [h]
  · exact h

/-- The names on the stack after one more was followed. -/
def pushed (rooted : Bool) (stack : List String) (part : String) : List String :=
  if part = ".." then
    match stack with
    | [] => if rooted then [] else [".."]
    | top :: below => if top = ".." then ".." :: stack else below
  else part :: stack

theorem follow_cons (rooted : Bool) (stack : List String) (part : String) (rest : List String) :
    follow rooted stack (part :: rest) = follow rooted (pushed rooted stack part) rest := by
  by_cases hpart : part = ".."
  · cases stack <;> simp [pushed, follow, hpart]
  · cases stack <;> simp [pushed, follow, hpart]

theorem mem_pushed {rooted : Bool} {stack : List String} {part p : String}
    (h : p ∈ pushed rooted stack part) : p ∈ stack ∨ p = part ∨ p = ".." := by
  unfold pushed at h
  split at h
  · split at h
    · split at h <;> simp_all
    · split at h
      · simp_all
      · exact Or.inl (List.mem_cons_of_mem _ h)
  · rcases List.mem_cons.1 h with h | h
    · exact Or.inr (Or.inl h)
    · exact Or.inl h

/-- At a root, `..` takes back a name or nothing. -/
theorem not_mem_pushed {stack : List String} (h : ".." ∉ stack) (part : String) :
    ".." ∉ pushed true stack part := by
  unfold pushed
  split
  · split
    · simp
    · next top below =>
      obtain ⟨htop, hbelow⟩ := List.ne_and_not_mem_of_not_mem_cons h
      rw [if_neg (Ne.symm htop)]
      exact hbelow
  · next hpart => exact List.not_mem_cons_of_ne_of_not_mem (Ne.symm hpart) h

theorem mem_follow {rooted : Bool} {stack parts : List String} {p : String}
    (h : p ∈ follow rooted stack parts) : p ∈ stack ∨ p ∈ parts ∨ p = ".." := by
  induction parts generalizing stack with
  | nil => exact Or.inl (List.mem_reverse.1 h)
  | cons part rest ih =>
    rw [follow_cons] at h
    rcases ih h with hstack | hrest | hup
    · rcases mem_pushed hstack with hstack | rfl | hup
      · exact Or.inl hstack
      · exact Or.inr (Or.inl List.mem_cons_self)
      · exact Or.inr (Or.inr hup)
    · exact Or.inr (Or.inl (List.mem_cons_of_mem part hrest))
    · exact Or.inr (Or.inr hup)

theorem not_mem_follow {stack parts : List String} (h : ".." ∉ stack) :
    ".." ∉ follow true stack parts := by
  induction parts generalizing stack with
  | nil => exact fun hup => h (List.mem_reverse.1 hup)
  | cons part rest ih =>
    rw [follow_cons]
    exact ih (not_mem_pushed h part)

theorem getLast?_follow {rooted : Bool} {stack parts : List String} {p : String}
    (h : parts.getLast? = some p) (hup : p ≠ "..") :
    (follow rooted stack parts).getLast? = some p := by
  -- The stack does not matter: nothing comes after the last name that could take it back.
  induction parts generalizing stack with
  | nil => exact nomatch h
  | cons part rest ih =>
    rw [follow_cons]
    cases rest with
    | nil =>
      obtain rfl := Option.some.inj h
      have hpushed : pushed rooted stack part = part :: stack := if_neg hup
      rw [hpushed]
      simp [follow]
    | cons next rest => exact ih h

theorem parts_absolute {cwd : String} (h : (ofText cwd).root ≠ .here) (s : String) :
    (absolute cwd s).parts = follow true [] (ofText cwd / ofText s).parts := by
  have hrooted := absolute_rooted h s
  show follow _ [] _ = _
  have hkept : decide ((ofText cwd / ofText s).root ≠ .here) = true := decide_eq_true hrooted
  rw [hkept]

/-- A path that starts at a root and leads down only. -/
structure Descends (p : Path) : Prop where
  rooted : p.root ≠ .here
  names : ∀ part ∈ p.parts, IsName part
  down : ".." ∉ p.parts

theorem Descends.parent {p : Path} (h : Descends p) : Descends p.parent where
  rooted := h.rooted
  names := isName_parent h.names
  down := fun hup => h.down (List.dropLast_subset p.parts hup)

theorem isName_absolute {cwd : String} (h : (ofText cwd).root ≠ .here) (s : String) :
    ∀ part ∈ (absolute cwd s).parts, IsName part := by
  intro part hpart
  rw [parts_absolute h] at hpart
  rcases mem_follow hpart with hnone | hjoined | rfl
  · exact absurd hnone List.not_mem_nil
  · exact isName_join (isName_ofText cwd) (isName_ofText s) part hjoined
  · constructor <;> decide

theorem not_mem_absolute {cwd : String} (h : (ofText cwd).root ≠ .here) (s : String) :
    ".." ∉ (absolute cwd s).parts := by
  rw [parts_absolute h]
  exact not_mem_follow List.not_mem_nil

theorem descends_absolute {cwd : String} (h : (ofText cwd).root ≠ .here) (s : String) :
    Descends (absolute cwd s) :=
  ⟨absolute_rooted h s, isName_absolute h s, not_mem_absolute h s⟩

/-- An absolute path ends as the text does that was read. -/
theorem getLast?_absolute {cwd s part : String} (h : (ofText cwd).root ≠ .here)
    (hlast : (ofText s).parts.getLast? = some part) (hup : part ≠ "..") :
    (absolute cwd s).parts.getLast? = some part := by
  rw [parts_absolute h]
  exact getLast?_follow (getLast?_join hlast) hup

/-! ## Texts behind a directory -/

/-- The root of a text with one more slash after a root: two slashes are a root of their own, and
three of them are the usual one. -/
def slashed : Root → Root
  | .single => .double
  | _ => .single

theorem slashed_ne {root : Root} (h : root ≠ .here) : slashed root ≠ root := by
  cases root with
  | here => exact absurd rfl h
  | single => nofun
  | double => nofun

theorem rootOf_slashed (root : Root) {s : List Char} (h : rootOf s = .here) :
    rootOf (root.text.toList ++ '/' :: s) = slashed root := by
  have hslash : ∀ t, s ≠ '/' :: t := by
    rintro t rfl
    exact rootOf_cons_slash t h
  cases root with
  | here => exact rootOf.eq_3 s (by simp [hslash]) (by simp [hslash])
  | single => exact rootOf.eq_2 s (by simp [hslash])
  | double => rfl

theorem div_of_here (d : Path) {q : Path} (h : q.root = .here) :
    d / q = ⟨d.root, d.parts ++ q.parts⟩ := if_pos h

theorem div_of_rooted (d : Path) {q : Path} (h : q.root ≠ .here) : d / q = q := if_neg h

theorem div_assoc (d q r : Path) : d / q / r = d / (q / r) := by
  by_cases hr : r.root = .here
  · by_cases hq : q.root = .here
    · have hqr : (q / r).root = .here := by rwa [div_of_here q hr]
      rw [div_of_here _ hr, div_of_here _ hqr, div_of_here d hq, div_of_here q hr,
        List.append_assoc]
    · have hqr : (q / r).root ≠ .here := by rwa [div_of_here q hr]
      rw [div_of_rooted d hq, div_of_rooted d hqr]
  · rw [div_of_rooted _ hr, div_of_rooted q hr, div_of_rooted d hr]

theorem ofText_behind_name {name rest : String} (hname : IsName name)
    (hrest : (ofText rest).root = .here) :
    ofText (name ++ "/" ++ rest) = ofText name / ofText rest := by
  obtain ⟨c, s, hcons, hc⟩ := hname.exists_cons
  have htext : (name ++ "/" ++ rest).toList = name.toList ++ '/' :: rest.toList := by simp
  have hroot : rootOf (name.toList ++ '/' :: rest.toList) = .here := by
    rw [hcons]
    exact rootOf_of_not_slash .here hc (s ++ '/' :: rest.toList)
  rw [div_of_here _ hrest, ofText_name hname]
  unfold ofText
  rw [htext, partsOf_append, partsOf_name hname, hroot]

/-- A text behind a slash leads on from the directory before it, but a root is read as the other
one. -/
theorem ofText_behind {d : Path} (hd : d.Descends) {rest : String}
    (hrest : (ofText rest).root = .here) :
    ofText (d.text ++ "/" ++ rest) =
      { d / ofText rest with root := if d.parts = [] then slashed d.root else d.root } := by
  have htext : (d.text ++ "/" ++ rest).toList = d.text.toList ++ '/' :: rest.toList := by simp
  have hparts : partsOf (d.text ++ "/" ++ rest).toList = d.parts ++ partsOf rest.toList := by
    rw [htext, partsOf_append, partsOf_text hd.names]
  have hroot : rootOf (d.text ++ "/" ++ rest).toList =
      if d.parts = [] then slashed d.root else d.root := by
    rw [htext]
    split
    · next hnil =>
      have hwhole : d.text = d.root.text := by
        unfold text
        rw [if_neg fun hp => hd.rooted hp.1, hnil]
        exact String.append_empty
      rw [hwhole]
      exact rootOf_slashed d.root hrest
    · next hne => exact rootOf_text_append hd.names hne _
  rw [div_of_here d hrest]
  show Path.mk _ _ = Path.mk _ _
  rw [hroot, hparts]
  rfl

/-- Only behind a root is a text not what is taken from the directory. -/
theorem ofText_behind_eq_iff {d : Path} (hd : d.Descends) {rest : String}
    (hrest : (ofText rest).root = .here) :
    ofText (d.text ++ "/" ++ rest) = d / ofText rest ↔ d.parts ≠ [] := by
  rw [ofText_behind hd hrest, div_of_here d hrest, Path.mk.injEq]
  constructor
  · rintro ⟨hroot, -⟩ hnil
    rw [if_pos hnil] at hroot
    exact slashed_ne hd.rooted hroot
  · exact fun hne => ⟨if_neg hne, rfl⟩

/-! ## Names without their suffix -/

/-- A name is cut behind its first character at the earliest. -/
theorem splitName_eq_take (name : List Char) :
    ∃ n, (splitName name).1 = name.take n ∧ (name ≠ [] → 0 < n) := by
  unfold splitName
  split
  · refine ⟨name.length, (List.take_length).symm, fun h => List.length_pos_iff.2 h⟩
  · next i hi =>
    split
    · next hcut => exact ⟨i, rfl, fun _ => hcut.1⟩
    · exact ⟨name.length, (List.take_length).symm, fun h => List.length_pos_iff.2 h⟩

theorem stem_ne_empty {p : Path} (h : p.name ≠ "") : p.stem ≠ "" := by
  obtain ⟨n, hn, hpos⟩ := splitName_eq_take p.name.toList
  have hname : p.name.toList ≠ [] := by simpa using h
  intro hstem
  have hempty : (splitName p.name.toList).1 = [] := by
    have hlist := congrArg String.toList hstem
    simpa [stem] using hlist
  rw [hn, List.take_eq_nil_iff] at hempty
  have := hpos hname
  rcases hempty with h0 | hnil
  · omega
  · exact hname hnil

theorem not_mem_stem {p : Path} {c : Char} (h : c ∉ p.name.toList) : c ∉ p.stem.toList := by
  obtain ⟨n, hn, -⟩ := splitName_eq_take p.name.toList
  rw [stem, String.toList_ofList, hn]
  exact fun hc => h (List.mem_of_mem_take hc)

end Workbench.Path
