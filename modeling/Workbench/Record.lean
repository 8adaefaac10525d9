/-!
# Records

A record holds values under names, in the order in which the names first came. The names may be of
any type whose members can be told apart.

* `get? r k` : the value under a name;
* `put r k v` : the record with `v` under `k`, in the place of an older value or else at the end
  (`get?_put`, `keys_put`);
* `erase r k` : the record without the name;
* `merge r s` : the record `r` with all that `s` holds put into it, in the order of `s`.
-/

namespace Workbench

/-- Values under names, in order. -/
abbrev Record (κ α : Type) := List (κ × α)

namespace Record

variable {κ α : Type}

def keys (r : Record κ α) : List κ := r.map Prod.fst

def values (r : Record κ α) : List α := r.map Prod.snd

variable [DecidableEq κ]

/-- The value under a name. -/
def get? (r : Record κ α) (k : κ) : Option α :=
  match r with
  | [] => none
  | (k', v) :: rest => if k' = k then some v else get? rest k

/-- The record with a value under a name. -/
def put (r : Record κ α) (k : κ) (v : α) : Record κ α :=
  match r with
  | [] => [(k, v)]
  | (k', v') :: rest => if k' = k then (k', v) :: rest else (k', v') :: put rest k v

/-- The record without a name. -/
def erase (r : Record κ α) (k : κ) : Record κ α := r.filter fun e => e.1 ≠ k

/-- The record with the values of another one put into it. -/
def merge (r s : Record κ α) : Record κ α := s.foldl (fun r e => r.put e.1 e.2) r

/-- The record of entries that may repeat a name; the last value counts, at the first place. -/
def ofList (entries : List (κ × α)) : Record κ α := merge [] entries

theorem get?_put (r : Record κ α) (k k' : κ) (v : α) :
    (r.put k v).get? k' = if k = k' then some v else r.get? k' := by
  induction r with
  | nil => simp [put, get?]
  | cons e rest ih =>
    obtain ⟨name, value⟩ := e
    by_cases h : name = k
    · subst h
      by_cases h' : name = k' <;> simp [put, get?, h']
    · by_cases h' : name = k'
      · subst h'
        simp [put, get?, h, Ne.symm h]
      · simp [put, get?, h, h', ih]

theorem keys_put (r : Record κ α) (k : κ) (v : α) :
    (r.put k v).keys = if k ∈ r.keys then r.keys else r.keys ++ [k] := by
  induction r with
  | nil => simp [put, keys]
  | cons e rest ih =>
    obtain ⟨name, value⟩ := e
    by_cases h : name = k
    · subst h
      simp [put, keys]
    · have e : keys (put ((name, value) :: rest) k v) = name :: keys (put rest k v) := by
        simp [put, h, keys]
      have e' : keys ((name, value) :: rest) = name :: keys rest := rfl
      rw [e, e', ih]
      by_cases h' : k ∈ keys rest <;> simp [h', Ne.symm h]

theorem get?_erase (r : Record κ α) (k k' : κ) :
    (r.erase k).get? k' = if k = k' then none else r.get? k' := by
  induction r with
  | nil => simp [erase, get?]
  | cons e rest ih =>
    obtain ⟨name, value⟩ := e
    have ih : get? (List.filter _ rest) k' = _ := ih
    by_cases h : name = k
    · subst h
      by_cases h' : name = k' <;> simp_all [erase, get?]
    · by_cases h' : name = k'
      · subst h'
        simp_all [erase, get?, Ne.symm h]
      · simp_all [erase, get?]

end Record

end Workbench
