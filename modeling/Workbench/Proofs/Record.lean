import Mathlib.Data.List.Nodup
import Workbench.Record

/-!
# Records put over one another

* `get?_eq_none_iff` : which names a record lacks;
* `keys_map_values`, `get?_map_values` : a record with other values under the same names;
* `ext_of_keys` : a record is known from its names, in order, and the values under them;
* `firstNames s`, `newNames r s` : the names of entries, each where it comes first, and those among
  them that a record lacks;
* `get?_merge_ofList`, `keys_merge_ofList` : of entries with one name the last one counts, and new
  names come in that order;
* `mem_merge`, `mem_of_mem_ofList` : nothing is in a record that was not put into it;
* `forall_values_merge`, `forall_values_ofList` : what holds of every value;
* `ofList_of_nodup`, `merge_of_isPrefix` : entries that are a record stay as they are, also over
  another record with the names that come first among theirs.
-/

namespace Workbench.Record

variable {κ α β : Type}

theorem keys_cons (k : κ) (v : α) (r : Record κ α) : keys ((k, v) :: r) = k :: keys r := rfl

theorem keys_map_values (g : α → β) (r : Record κ α) : keys (r.map (Prod.map id g)) = r.keys := by
  rw [keys, List.map_map]
  rfl

variable [DecidableEq κ]

theorem get?_cons (k k' : κ) (v : α) (r : Record κ α) :
    get? ((k', v) :: r) k = if k' = k then some v else get? r k := rfl

theorem merge_cons (r : Record κ α) (k : κ) (v : α) (s : List (κ × α)) :
    merge r ((k, v) :: s) = merge (r.put k v) s := rfl

theorem get?_eq_none_iff {r : Record κ α} {k : κ} : r.get? k = none ↔ k ∉ r.keys := by
  induction r with
  | nil => exact ⟨fun _ => List.not_mem_nil, fun _ => rfl⟩
  | cons e r ih =>
    obtain ⟨k', v⟩ := e
    rw [get?_cons, keys_cons, List.mem_cons, not_or, ← ih]
    by_cases h : k' = k
    · simp [h]
    · simp [h, Ne.symm h]

theorem get?_map_values (g : α → β) (r : Record κ α) (k : κ) :
    get? (r.map (Prod.map id g)) k = (r.get? k).map g := by
  induction r with
  | nil => rfl
  | cons e r ih =>
    obtain ⟨k', v⟩ := e
    rw [List.map_cons, Prod.map_apply, id, get?_cons, get?_cons, ih]
    split <;> rfl

theorem get?_append (r s : Record κ α) (k : κ) : get? (r ++ s) k = (get? r k).or (get? s k) := by
  induction r with
  | nil => rfl
  | cons e r ih =>
    obtain ⟨k', v⟩ := e
    rw [List.cons_append, get?_cons, get?_cons]
    split
    · rfl
    · exact ih

/-- A record is known from its names, in order, and the values under them. -/
theorem ext_of_keys {r s : Record κ α} (hkeys : r.keys = s.keys) (hnodup : r.keys.Nodup)
    (hvalues : ∀ k ∈ r.keys, r.get? k = s.get? k) : r = s := by
  induction r generalizing s with
  | nil => exact (List.map_eq_nil_iff.1 hkeys.symm).symm
  | cons e r ih =>
    obtain ⟨k, v⟩ := e
    obtain _ | ⟨⟨k', v'⟩, s⟩ := s
    · exact nomatch hkeys
    obtain ⟨rfl, hrest⟩ := List.cons.inj hkeys
    obtain ⟨hk, hnodup⟩ := List.nodup_cons.1 hnodup
    have hv := hvalues k List.mem_cons_self
    rw [get?_cons, get?_cons, if_pos rfl, if_pos rfl] at hv
    rw [Option.some.inj hv, ih hrest hnodup]
    intro k' hk'
    have h := hvalues k' (List.mem_cons_of_mem k hk')
    have hne : k ≠ k' := fun he => hk (he ▸ hk')
    rwa [get?_cons, get?_cons, if_neg hne, if_neg hne] at h

theorem nodup_keys_put {r : Record κ α} (h : r.keys.Nodup) (k : κ) (v : α) :
    (r.put k v).keys.Nodup := by
  rw [keys_put]
  split
  · exact h
  · next hk => exact List.nodup_append_comm.1 (List.nodup_cons.2 ⟨hk, h⟩)

/-- Names stay where they are, and a new one comes after them. -/
theorem keys_isPrefix_put (r : Record κ α) (k : κ) (v : α) : r.keys <+: (r.put k v).keys := by
  rw [keys_put]
  split
  · exact List.prefix_rfl
  · exact List.prefix_append r.keys [k]

theorem mem_put {r : Record κ α} {k : κ} {v : α} {e : κ × α} (h : e ∈ r.put k v) :
    e = (k, v) ∨ e ∈ r := by
  induction r with
  | nil => exact Or.inl (List.eq_of_mem_singleton h)
  | cons e' r ih =>
    unfold put at h
    split at h
    · next hk =>
      rcases List.mem_cons.1 h with rfl | h
      · exact Or.inl (congrArg (·, v) hk)
      · exact Or.inr (List.mem_cons_of_mem e' h)
    · rcases List.mem_cons.1 h with rfl | h
      · exact Or.inr List.mem_cons_self
      · exact (ih h).imp_right (List.mem_cons_of_mem e')

theorem mem_values_put {r : Record κ α} {k : κ} {v w : α} (h : w ∈ (r.put k v).values) :
    w = v ∨ w ∈ r.values := by
  obtain ⟨e, he, rfl⟩ := List.mem_map.1 h
  rcases mem_put he with rfl | he
  · exact Or.inl rfl
  · exact Or.inr (List.mem_map_of_mem he)

theorem mem_values_of_get? {r : Record κ α} {k : κ} {v : α} (h : r.get? k = some v) :
    v ∈ r.values := by
  induction r with
  | nil => exact nomatch h
  | cons e r ih =>
    obtain ⟨k', v'⟩ := e
    rw [get?_cons] at h
    split at h
    · obtain rfl := Option.some.inj h
      exact List.mem_cons_self
    · exact List.mem_cons_of_mem v' (ih h)

/-! ## Many entries -/

/-- The names of entries, each where it comes first. -/
def firstNames (s : List (κ × α)) : List κ := (keys s).eraseDups

/-- The names of entries that a record lacks, each where it comes first. -/
def newNames (r : Record κ α) (s : List (κ × α)) : List κ := (firstNames s).filter (· ∉ r.keys)

theorem nodup_keys_merge {r : Record κ α} (h : r.keys.Nodup) (s : List (κ × α)) :
    (merge r s).keys.Nodup := by
  induction s generalizing r with
  | nil => exact h
  | cons e s ih => exact ih (nodup_keys_put h e.1 e.2)

/-- Of the entries with one name the last one counts. -/
theorem get?_merge (r : Record κ α) (s : List (κ × α)) (k : κ) :
    (merge r s).get? k = (get? s.reverse k).or (r.get? k) := by
  induction s generalizing r with
  | nil => rfl
  | cons e s ih =>
    obtain ⟨k', v⟩ := e
    rw [merge_cons, ih, get?_put, List.reverse_cons, get?_append, Option.or_assoc]
    congr 1
    rw [get?_cons]
    split <;> rfl

theorem keys_merge (r : Record κ α) (s : List (κ × α)) :
    (merge r s).keys = r.keys ++ ((keys s).filter (· ∉ r.keys)).eraseDups := by
  induction s generalizing r with
  | nil => exact (List.append_nil r.keys).symm
  | cons e s ih =>
    obtain ⟨k, v⟩ := e
    rw [merge_cons, ih, keys_put, keys_cons]
    by_cases hk : k ∈ r.keys
    · rw [if_pos hk, List.filter_cons_of_neg (by simpa using hk)]
    · rw [if_neg hk, List.filter_cons_of_pos (by simpa using hk), List.eraseDups_cons,
        List.filter_filter, List.append_assoc, List.singleton_append]
      have hnew : ∀ k' : κ, (!k' == k && decide (k' ∉ r.keys)) = decide (k' ∉ r.keys ++ [k]) := by
        intro k'
        rw [Bool.eq_iff_iff]
        simp [and_comm]
      simp only [hnew]

/-- What is in a record that was put into another one comes from one of the two. -/
theorem mem_merge {r : Record κ α} {s : List (κ × α)} {e : κ × α} (h : e ∈ merge r s) :
    e ∈ s ∨ e ∈ r := by
  induction s generalizing r with
  | nil => exact Or.inr h
  | cons e' s ih =>
    rcases ih h with h | h
    · exact Or.inl (List.mem_cons_of_mem e' h)
    · rcases mem_put h with rfl | h
      · exact Or.inl List.mem_cons_self
      · exact Or.inr h

theorem mem_of_mem_ofList {s : List (κ × α)} {e : κ × α} (h : e ∈ ofList s) : e ∈ s :=
  (mem_merge h).resolve_right List.not_mem_nil

/-- What holds of all values of a record and of entries holds of those of the one put into the
other. -/
theorem forall_values_merge {P : α → Prop} {r : Record κ α} {s : List (κ × α)}
    (hr : ∀ v ∈ r.values, P v) (hs : ∀ e ∈ s, P e.2) : ∀ v ∈ (merge r s).values, P v := by
  intro v hv
  obtain ⟨e, he, rfl⟩ := List.mem_map.1 hv
  rcases mem_merge he with he | he
  · exact hs e he
  · exact hr e.2 (List.mem_map_of_mem he)

theorem forall_values_ofList {P : α → Prop} {s : List (κ × α)} (hs : ∀ e ∈ s, P e.2) :
    ∀ v ∈ (ofList s).values, P v :=
  forall_values_merge (fun _ hv => nomatch hv) hs

/-! ## Names that are not repeated -/

theorem eraseDups_of_nodup {ks : List κ} (h : ks.Nodup) : ks.eraseDups = ks := by
  induction ks with
  | nil => exact List.eraseDups_nil
  | cons k ks ih =>
    obtain ⟨hk, hks⟩ := List.nodup_cons.1 h
    have hfilter : ks.filter (fun k' => !k' == k) = ks := by
      refine List.filter_eq_self.2 fun k' hk' => ?_
      have hne : k' ≠ k := fun he => hk (he ▸ hk')
      simpa using hne
    rw [List.eraseDups_cons, hfilter, ih hks]

theorem eraseDups_sublist (ks : List κ) : ks.eraseDups.Sublist ks := by
  match ks with
  | [] => exact List.Sublist.refl []
  | k :: ks =>
    rw [List.eraseDups_cons]
    exact ((eraseDups_sublist _).trans List.filter_sublist).cons_cons k
termination_by ks.length
decreasing_by exact Nat.lt_succ_of_le (List.length_filter_le _ ks)

theorem firstNames_sublist (s : List (κ × α)) : (firstNames s).Sublist (keys s) :=
  eraseDups_sublist (keys s)

theorem mem_firstNames {s : List (κ × α)} {k : κ} : k ∈ firstNames s ↔ k ∈ keys s :=
  List.mem_eraseDups

theorem get?_reverse {r : Record κ α} (h : r.keys.Nodup) (k : κ) :
    get? r.reverse k = r.get? k := by
  induction r with
  | nil => rfl
  | cons e r ih =>
    obtain ⟨k', v⟩ := e
    obtain ⟨hk', hr⟩ := List.nodup_cons.1 h
    rw [List.reverse_cons, get?_append, ih hr, get?_cons, get?_cons]
    split
    · next he =>
      subst he
      rw [get?_eq_none_iff.2 hk']
      rfl
    · exact Option.or_none

theorem get?_ofList (s : List (κ × α)) (k : κ) : (ofList s).get? k = get? s.reverse k := by
  rw [ofList, get?_merge]
  exact Option.or_none

theorem keys_ofList (s : List (κ × α)) : (ofList s).keys = firstNames s := by
  rw [ofList, keys_merge, firstNames]
  simp [keys]

theorem nodup_keys_ofList (s : List (κ × α)) : (ofList s).keys.Nodup :=
  nodup_keys_merge (r := []) List.nodup_nil s

theorem ofList_of_nodup {r : Record κ α} (h : r.keys.Nodup) : ofList r = r := by
  refine ext_of_keys ?_ (nodup_keys_ofList r) fun k _ => ?_
  · rw [keys_ofList, firstNames, eraseDups_of_nodup h]
  · rw [get?_ofList, get?_reverse h]

/-- New names come in the order in which they are first named. -/
theorem keys_merge_ofList (r : Record κ α) (s : List (κ × α)) :
    (merge r (ofList s)).keys = r.keys ++ newNames r s := by
  have hnodup : (ofList s).keys.Nodup := nodup_keys_ofList s
  rw [keys_merge, eraseDups_of_nodup (hnodup.filter _), keys_ofList, newNames]

theorem get?_merge_ofList (r : Record κ α) (s : List (κ × α)) (k : κ) :
    (merge r (ofList s)).get? k = (get? s.reverse k).or (r.get? k) := by
  rw [get?_merge, get?_reverse (nodup_keys_ofList s), get?_ofList]

/-- Nothing is left of a record under one whose names begin with its own. -/
theorem merge_of_isPrefix {r s : Record κ α} (hkeys : r.keys <+: s.keys) (h : s.keys.Nodup) :
    merge r s = s := by
  obtain ⟨new, hnew⟩ := hkeys
  have happend : (r.keys ++ new).Nodup := hnew.symm ▸ h
  have hkeys : (merge r s).keys = s.keys := by
    have hold : r.keys.filter (· ∉ r.keys) = [] := by
      refine List.filter_eq_nil_iff.2 fun k hk => ?_
      simpa using hk
    have hkept : new.filter (· ∉ r.keys) = new := by
      refine List.filter_eq_self.2 fun k hk => ?_
      simpa using fun hr => List.disjoint_of_nodup_append happend hr hk
    rw [keys_merge, ← hnew, List.filter_append, hold, hkept, List.nil_append,
      eraseDups_of_nodup (List.Nodup.of_append_right happend)]
  refine ext_of_keys hkeys (hkeys.symm ▸ h) fun k hk => ?_
  obtain ⟨v, hv⟩ := Option.ne_none_iff_exists'.1 (mt get?_eq_none_iff.1 (not_not.2 (hkeys ▸ hk)))
  rw [get?_merge, get?_reverse h, hv]
  rfl

end Workbench.Record
