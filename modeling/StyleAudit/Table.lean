/-!
Tables from names to values, as lists of pairs.

A table keeps the order in which its names came. `insert` changes a value in its place and adds a
new name at the end; `insertSorted` keeps a table in increasing order of its names.
-/

namespace StyleAudit

abbrev Table (α : Type) := List (String × α)

namespace Table

variable {α : Type}

def find? (key : String) : Table α → Option α
  | [] => none
  | (k, v) :: rest => if k = key then some v else find? key rest

def contains (key : String) (t : Table α) : Bool :=
  (t.find? key).isSome

/-- Sets a name: in its place if it is there, else at the end. -/
def insert (key : String) (value : α) : Table α → Table α
  | [] => [(key, value)]
  | (k, v) :: rest =>
    if k = key then (k, value) :: rest else (k, v) :: insert key value rest

/-- Sets a name in a table whose names increase. -/
def insertSorted (key : String) (value : α) : Table α → Table α
  | [] => [(key, value)]
  | (k, v) :: rest =>
    if k = key then (k, value) :: rest
    else if key < k then (key, value) :: (k, v) :: rest
    else (k, v) :: insertSorted key value rest

def erase (key : String) (t : Table α) : Table α :=
  t.filter fun (k, _) => k != key

def keys (t : Table α) : List String :=
  t.map Prod.fst

/-- Sets every name of the second table in the first; new names come last. -/
def insertAll (t other : Table α) : Table α :=
  (t.map fun (k, v) => (k, (other.find? k).getD v)) ++ other.filter fun (k, _) => !t.contains k

theorem find?_insert (t : Table α) (key other : String) (value : α) :
    (t.insert key value).find? other = if key = other then some value else t.find? other := by
  induction t with
  | nil => rfl
  | cons p t ih =>
    obtain ⟨k, v⟩ := p
    by_cases hk : k = key
    · subst hk
      by_cases ho : k = other <;> simp [insert, find?, ho]
    · by_cases ho : k = other
      · subst ho
        simp [insert, find?, hk, Ne.symm hk]
      · simp [insert, find?, hk, ho, ih]

theorem find?_insertSorted (t : Table α) (key other : String) (value : α) :
    (t.insertSorted key value).find? other =
      if key = other then some value else t.find? other := by
  induction t with
  | nil => rfl
  | cons p t ih =>
    obtain ⟨k, v⟩ := p
    rw [insertSorted]
    split
    · rename_i hk
      subst hk
      by_cases ho : k = other <;> simp [find?, ho]
    · rename_i hk
      split
      · rfl
      · by_cases ho : k = other
        · subst ho
          simp [find?, Ne.symm hk]
        · simp [find?, ho, ih]

/-- What is found under a name stands there. -/
theorem mem_of_find? {t : Table α} {key : String} {value : α} (h : t.find? key = some value) :
    (key, value) ∈ t := by
  induction t with
  | nil => cases h
  | cons p t ih =>
    obtain ⟨k, v⟩ := p
    rw [find?] at h
    split at h
    · rename_i hk
      subst hk
      exact Option.some.inj h ▸ List.mem_cons_self
    · exact List.mem_cons_of_mem _ (ih h)

theorem find?_append (t other : Table α) (key : String) :
    find? key (t ++ other) = (t.find? key <|> other.find? key) := by
  induction t with
  | nil => rfl
  | cons p t ih =>
    obtain ⟨k, v⟩ := p
    by_cases hk : k = key
    · simp [find?, hk]
    · simpa [find?, hk] using ih

theorem find?_map (t : Table α) (f : String → α → α) (key : String) :
    find? key (t.map fun (k, v) => (k, f k v)) = (t.find? key).map (f key) := by
  induction t with
  | nil => rfl
  | cons p t ih =>
    obtain ⟨k, v⟩ := p
    by_cases hk : k = key
    · simp [find?, hk]
    · simpa [find?, hk] using ih

theorem find?_filter (t : Table α) (keep : String → Bool) (key : String) :
    find? key (t.filter fun (k, _) => keep k) = if keep key then t.find? key else none := by
  induction t with
  | nil => simp [find?]
  | cons p t ih =>
    obtain ⟨k, v⟩ := p
    by_cases hk : k = key
    · subst hk
      by_cases hkeep : keep k
      · simp [find?, hkeep]
      · simpa [find?, hkeep] using ih
    · by_cases hkeep : keep k
      · simpa [find?, hk, hkeep] using ih
      · simpa [find?, hk, hkeep] using ih

theorem find?_erase (t : Table α) (key other : String) :
    (t.erase key).find? other = if key = other then none else t.find? other := by
  rw [erase, find?_filter t (fun k => k != key)]
  by_cases ho : key = other
  · simp [ho]
  · simp [ho, Ne.symm ho]

/-- The names of the second table win. -/
theorem find?_insertAll (t other : Table α) (key : String) :
    (t.insertAll other).find? key = (other.find? key <|> t.find? key) := by
  rw [insertAll, find?_append, find?_map t (fun k v => (other.find? k).getD v),
    find?_filter other (fun k => !t.contains k)]
  cases ht : t.find? key with
  | none => cases other.find? key <;> simp [contains, ht]
  | some v => cases other.find? key <;> simp

end Table

/-! ### The first of two values that is there -/

section Option

variable {α : Type}

theorem orElse_assoc (a b c : Option α) : ((a <|> b) <|> c) = (a <|> b <|> c) := by
  cases a <;> rfl

theorem orElse_none (a : Option α) : (a <|> none) = a := by
  cases a <;> rfl

theorem orElse_eq_none {a b : Option α} (ha : a = none) (hb : b = none) : (a <|> b) = none := by
  rw [ha, hb]
  rfl

end Option

end StyleAudit
