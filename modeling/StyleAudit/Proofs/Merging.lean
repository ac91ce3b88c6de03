import Mathlib.Data.List.Induction
import StyleAudit.Config.Merge
import StyleAudit.Proofs.Sameness

/-!
The laws of laying one configuration over another.

Merging is associative, the configuration that sets nothing is neutral up to repeated entries, and
a configuration merged with itself only loses its repeated entries. What is repeated is decided by
an equality that is no identity, so the two ways of uniting lists are studied for any transitive
equality: each may be done on a part of a row before it is done on the whole row.
-/

namespace StyleAudit

section Unite

variable {α : Type} [BEq α]

/-- The entries of a row that equal no earlier one. -/
def firstPlaces (row : List α) : List α :=
  (row.zipIdx.filter fun (x, i) => !(row.take i).contains x).map Prod.fst

/-- The entries of a row that equal no later one. -/
def lastPlaces (row : List α) : List α :=
  (row.zipIdx.filter fun (x, i) => !(row.drop (i + 1)).contains x).map Prod.fst

/-- The entries of a row, with no two that are equal. -/
structure Unites (row united : List α) : Prop where
  distinct : united.Pairwise fun x y => (x == y) = false ∧ (y == x) = false
  member : ∀ x ∈ united, x ∈ row
  covers : ∀ x, united.contains x = row.contains x

theorem keepFirst_append (seen xs ys : List α) :
    keepFirst seen (xs ++ ys) = keepFirst seen xs ++ keepFirst (seen ++ keepFirst seen xs) ys := by
  induction xs generalizing seen with
  | nil => simp [keepFirst]
  | cons x xs ih =>
      rw [List.cons_append, keepFirst, keepFirst]
      split
      case isTrue => exact ih seen
      case isFalse => simp [ih]

/-- What is listed already adds nothing. -/
theorem keepFirst_eq_nil {seen xs : List α} (h : ∀ x ∈ xs, seen.contains x = true) :
    keepFirst seen xs = [] := by
  induction xs with
  | nil => rfl
  | cons x xs ih =>
      obtain ⟨hx, hxs⟩ := List.forall_mem_cons.1 h
      rw [keepFirst, if_pos hx]
      exact ih hxs

theorem keepFirst_congr {seen seen' : List α} (h : ∀ x, seen.contains x = seen'.contains x)
    (xs : List α) : keepFirst seen xs = keepFirst seen' xs := by
  induction xs generalizing seen seen' with
  | nil => rfl
  | cons x xs ih =>
      have happend : ∀ y, (seen ++ [x]).contains y = (seen' ++ [x]).contains y := by
        intro y
        rw [List.contains_append, List.contains_append, h y]
      rw [keepFirst, keepFirst, h x, ih h, ih happend]

/-- Entries of which none is repeated all stay. -/
theorem keepFirst_eq_self {seen xs : List α} (hnew : ∀ x ∈ xs, seen.contains x = false)
    (h : xs.Pairwise fun x y => (y == x) = false) : keepFirst seen xs = xs := by
  induction xs generalizing seen with
  | nil => rfl
  | cons x xs ih =>
      obtain ⟨hx, hxs⟩ := List.forall_mem_cons.1 hnew
      obtain ⟨hhead, htail⟩ := List.pairwise_cons.1 h
      have happend : ∀ y ∈ xs, (seen ++ [x]).contains y = false := by
        intro y hy
        rw [List.contains_append, hxs y hy]
        simpa using hhead y hy
      rw [keepFirst, if_neg (by simpa using hx), ih happend htail]

theorem contains_eq_false_of_mem_keepFirst {seen xs : List α} {x : α}
    (h : x ∈ keepFirst seen xs) : seen.contains x = false := by
  induction xs generalizing seen with
  | nil => cases h
  | cons y xs ih =>
      rw [keepFirst] at h
      split at h
      case isTrue => exact ih h
      case isFalse hy =>
          rcases List.mem_cons.1 h with rfl | h
          · simpa using hy
          · have hseen := ih h
            rw [List.contains_append, Bool.or_eq_false_iff] at hseen
            exact hseen.1

theorem keepFirst_pairwise (seen xs : List α) :
    (keepFirst seen xs).Pairwise fun x y => (y == x) = false := by
  induction xs generalizing seen with
  | nil => exact .nil
  | cons x xs ih =>
      rw [keepFirst]
      split
      case isTrue => exact ih seen
      case isFalse =>
          apply List.pairwise_cons.2
          refine ⟨?_, ih _⟩
          intro y hy
          have hseen := contains_eq_false_of_mem_keepFirst hy
          rw [List.contains_append, Bool.or_eq_false_iff] at hseen
          simpa using hseen.2

theorem keepLast_append (xs ys : List α) :
    keepLast (xs ++ ys) = (keepLast xs).filter (fun x => !ys.contains x) ++ keepLast ys := by
  induction xs with
  | nil => rfl
  | cons x xs ih =>
      rw [List.cons_append, keepLast, keepLast, List.contains_append]
      by_cases hxs : xs.contains x
      · simp only [hxs, Bool.true_or, if_true]
        exact ih
      · by_cases hys : ys.contains x
        · simp [hxs, hys, ih]
        · simp [hxs, hys, ih]

theorem keepLast_pairwise (xs : List α) :
    (keepLast xs).Pairwise fun x y => (x == y) = false := by
  induction xs with
  | nil => exact .nil
  | cons x xs ih =>
      rw [keepLast]
      split
      case isTrue => exact ih
      case isFalse hx =>
          apply List.pairwise_cons.2
          refine ⟨?_, ih⟩
          intro y hy
          simpa using fun heq => hx (List.contains_iff_exists_mem_beq.2
            ⟨y, mem_of_mem_keepLast hy, heq⟩)

/-- A row whose entries all come again adds nothing. -/
theorem keepLast_append_of_contains {xs ys : List α} (h : ∀ x ∈ xs, ys.contains x = true) :
    keepLast (xs ++ ys) = keepLast ys := by
  have hnil : (keepLast xs).filter (fun x => !ys.contains x) = [] := by
    apply List.filter_eq_nil_iff.2
    intro x hx
    simp [h x (mem_of_mem_keepLast hx)]
  rw [keepLast_append, hnil, List.nil_append]

theorem keepLast_keepLast (xs : List α) : keepLast (keepLast xs) = keepLast xs := by
  induction xs with
  | nil => rfl
  | cons x xs ih =>
      rw [keepLast]
      split
      case isTrue => exact ih
      case isFalse hx =>
          have hkept : ¬ (keepLast xs).contains x = true := by
            intro hcontains
            obtain ⟨y, hy, heq⟩ := List.contains_iff_exists_mem_beq.1 hcontains
            exact hx (List.contains_iff_exists_mem_beq.2 ⟨y, mem_of_mem_keepLast hy, heq⟩)
          rw [keepLast, if_neg hkept, ih]

theorem firstPlaces_append_singleton (xs : List α) (x : α) :
    firstPlaces (xs ++ [x]) = firstPlaces xs ++ if xs.contains x then [] else [x] := by
  have hbefore : xs.zipIdx.filter (fun (y, i) => !((xs ++ [x]).take i).contains y) =
      xs.zipIdx.filter fun (y, i) => !(xs.take i).contains y := by
    apply List.filter_congr
    rintro ⟨y, i⟩ hy
    have hlt := (List.mem_zipIdx' hy).1
    have htake : (xs ++ [x]).take i = xs.take i :=
      List.take_append_of_le_length (Nat.le_of_lt hlt)
    simp only [htake]
  rw [firstPlaces, List.zipIdx_append, List.filter_append, hbefore, List.map_append]
  by_cases hx : xs.contains x <;> simp [firstPlaces, hx]

theorem lastPlaces_cons (x : α) (xs : List α) :
    lastPlaces (x :: xs) = (if xs.contains x then [] else [x]) ++ lastPlaces xs := by
  have hshift : ((x :: xs).zipIdx.filter fun (y, i) => !((x :: xs).drop (i + 1)).contains y) =
      (if xs.contains x then [] else [(x, 0)]) ++
        (xs.zipIdx.filter fun (y, i) => !(xs.drop (i + 1)).contains y).map
          fun (y, i) => (y, i + 1) := by
    rw [List.zipIdx_cons, List.filter_cons, Nat.zero_add, List.zipIdx_succ, List.filter_map]
    by_cases hx : xs.contains x <;> simp [hx, Function.comp_def]
  rw [lastPlaces, hshift, List.map_append, List.map_map]
  by_cases hx : xs.contains x <;> simp [lastPlaces, hx, Function.comp_def]

/-- The last of equal entries is kept, at its place. -/
theorem keepLast_eq_lastPlaces (row : List α) : keepLast row = lastPlaces row := by
  induction row with
  | nil => rfl
  | cons x row ih =>
      rw [lastPlaces_cons, keepLast, ih]
      split <;> rfl

section Transitive

variable (htrans : ∀ x y z : α, (x == y) = true → (y == z) = true → (x == z) = true)

include htrans

theorem contains_of_beq {xs : List α} {x y : α} (h : (x == y) = true)
    (hy : xs.contains y = true) : xs.contains x = true := by
  obtain ⟨z, hz, heq⟩ := List.contains_iff_exists_mem_beq.1 hy
  exact List.contains_iff_exists_mem_beq.2 ⟨z, hz, htrans x y z h heq⟩

/-- Repeated entries may be dropped from what comes later before they are dropped from all. -/
theorem keepFirst_keepFirst {seen inner : List α}
    (hcovers : ∀ x, inner.contains x = true → seen.contains x = true) (xs : List α) :
    keepFirst seen (keepFirst inner xs) = keepFirst seen xs := by
  induction xs generalizing seen inner with
  | nil => rfl
  | cons x xs ih =>
      rw [keepFirst.eq_2 inner, keepFirst.eq_2 seen]
      by_cases hinner : inner.contains x = true
      · rw [if_pos hinner, if_pos (hcovers x hinner)]
        exact ih hcovers
      · rw [if_neg hinner, keepFirst]
        by_cases hseen : seen.contains x = true
        · rw [if_pos hseen, if_pos hseen]
          apply ih
          intro y hy
          rw [List.contains_append, Bool.or_eq_true] at hy
          rcases hy with hy | hy
          · exact hcovers y hy
          · exact contains_of_beq htrans (by simpa using hy) hseen
        · rw [if_neg hseen, if_neg hseen, ih]
          intro y hy
          rw [List.contains_append, Bool.or_eq_true] at hy ⊢
          exact hy.imp_left (hcovers y)

theorem keepFirst_append_keepFirst (xs ys : List α) :
    keepFirst [] (xs ++ keepFirst [] ys) = keepFirst [] (xs ++ ys) := by
  rw [keepFirst_append, keepFirst_append, keepFirst_keepFirst htrans]
  simp

theorem keepFirst_keepFirst_append (xs ys : List α) :
    keepFirst [] (keepFirst [] xs ++ ys) = keepFirst [] (xs ++ ys) := by
  rw [keepFirst_append, keepFirst_append, keepFirst_keepFirst htrans]
  simp

theorem contains_append_keepFirst (seen xs : List α) (x : α) :
    (seen ++ keepFirst seen xs).contains x = (seen ++ xs).contains x := by
  induction xs generalizing seen with
  | nil => rfl
  | cons y xs ih =>
      rw [keepFirst]
      split
      case isTrue hy =>
          rw [ih, Bool.eq_iff_iff]
          simp only [List.contains_append, List.contains_cons, Bool.or_eq_true]
          constructor
          · exact Or.imp_right .inr
          · rintro (h | h | h)
            · exact .inl h
            · exact .inl (contains_of_beq htrans h hy)
            · exact .inr h
      case isFalse =>
          have happend := ih (seen ++ [y])
          simpa using happend

theorem contains_keepFirst (xs : List α) (x : α) :
    (keepFirst [] xs).contains x = xs.contains x :=
  contains_append_keepFirst htrans [] xs x

/-- What comes later is compared with all that came before. -/
theorem keepFirst_nil_append (xs ys : List α) :
    keepFirst [] (xs ++ ys) = keepFirst [] xs ++ keepFirst xs ys := by
  rw [keepFirst_append, List.nil_append, keepFirst_congr (contains_keepFirst htrans xs)]

theorem contains_keepLast (xs : List α) (x : α) :
    (keepLast xs).contains x = xs.contains x := by
  induction xs with
  | nil => rfl
  | cons y xs ih =>
      rw [keepLast]
      split
      case isTrue hy =>
          rw [ih, Bool.eq_iff_iff, List.contains_cons, Bool.or_eq_true]
          constructor
          · exact .inr
          · rintro (h | h)
            · exact contains_of_beq htrans h hy
            · exact h
      case isFalse => rw [List.contains_cons, List.contains_cons, ih]

/-- The first of equal entries is kept, at its place. -/
theorem keepFirst_eq_firstPlaces (row : List α) : keepFirst [] row = firstPlaces row := by
  induction row using List.reverseRecOn with
  | nil => rfl
  | append_singleton row x ih =>
      rw [firstPlaces_append_singleton, keepFirst_append, ← ih, List.nil_append, keepFirst,
        contains_keepFirst htrans]
      rfl

theorem keepFirst_append_assoc (xs ys zs : List α) :
    keepFirst [] (keepFirst [] (xs ++ ys) ++ zs) =
      keepFirst [] (xs ++ keepFirst [] (ys ++ zs)) := by
  rw [keepFirst_keepFirst_append htrans, keepFirst_append_keepFirst htrans, List.append_assoc]

theorem keepLast_append_assoc (xs ys zs : List α) :
    keepLast (keepLast (xs ++ ys) ++ zs) = keepLast (xs ++ keepLast (ys ++ zs)) := by
  have hleft : keepLast (keepLast (xs ++ ys) ++ zs) = keepLast (xs ++ ys ++ zs) := by
    rw [keepLast_append, keepLast_keepLast, keepLast_append (xs ++ ys)]
  have hright : keepLast (xs ++ keepLast (ys ++ zs)) = keepLast (xs ++ (ys ++ zs)) := by
    rw [keepLast_append, keepLast_append xs, keepLast_keepLast]
    simp only [contains_keepLast htrans]
  rw [hleft, hright, List.append_assoc]

theorem unites_keepFirst {row : List α}
    (hsymm : ∀ x ∈ row, ∀ y ∈ row, (x == y) = true → (y == x) = true) :
    Unites row (keepFirst [] row) where
  distinct := by
    apply (keepFirst_pairwise [] row).imp_of_mem
    intro x y hx hy hne
    refine ⟨?_, hne⟩
    rw [Bool.eq_false_iff] at hne ⊢
    exact fun heq => hne (hsymm x (mem_of_mem_keepFirst hx) y (mem_of_mem_keepFirst hy) heq)
  member _ hx := mem_of_mem_keepFirst hx
  covers := contains_keepFirst htrans row

theorem unites_keepLast {row : List α}
    (hsymm : ∀ x ∈ row, ∀ y ∈ row, (x == y) = true → (y == x) = true) :
    Unites row (keepLast row) where
  distinct := by
    apply (keepLast_pairwise row).imp_of_mem
    intro x y hx hy hne
    refine ⟨hne, ?_⟩
    rw [Bool.eq_false_iff] at hne ⊢
    exact fun heq => hne (hsymm y (mem_of_mem_keepLast hy) x (mem_of_mem_keepLast hx) heq)
  member _ hx := mem_of_mem_keepLast hx
  covers := contains_keepLast htrans row

/-- A row united with itself is the row without its repeated entries. -/
theorem keepFirst_append_self {xs : List α} (hrefl : ∀ x ∈ xs, (x == x) = true) :
    keepFirst [] (xs ++ xs) = keepFirst [] xs := by
  have hseen : ∀ x ∈ xs, ([] ++ keepFirst [] xs).contains x = true := by
    intro x hx
    rw [List.nil_append, contains_keepFirst htrans]
    exact List.contains_iff_exists_mem_beq.2 ⟨x, hx, hrefl x hx⟩
  rw [keepFirst_append, keepFirst_eq_nil hseen, List.append_nil]

end Transitive

end Unite

namespace Table

variable {α : Type}

theorem contains_insertAll (t u : Table α) (key : String) :
    contains key (insertAll t u) = (contains key t || contains key u) := by
  rw [contains, find?_insertAll, contains, contains]
  cases find? key t <;> cases find? key u <;> rfl

theorem keys_insertAll (t u : Table α) :
    keys (insertAll t u) = keys t ++ (keys u).filter fun key => !contains key t := by
  simp [keys, insertAll, List.filter_map, Function.comp_def]

theorem insertAll_eq (t u : Table α) :
    insertAll t u = (t.map fun field => (field.1, (find? field.1 u).getD field.2)) ++
      u.filter fun field => !contains field.1 t :=
  rfl

theorem insertAll_assoc (t u v : Table α) :
    insertAll (insertAll t u) v = insertAll t (insertAll u v) := by
  have hvalue : ∀ key value, (find? key v).getD ((find? key u).getD value) =
      (find? key (insertAll u v)).getD value := by
    intro key value
    rw [find?_insertAll]
    cases find? key v <;> rfl
  have hnew : v.filter (fun field => !contains field.1 (insertAll t u)) =
      (v.filter fun field => !contains field.1 u).filter fun field => !contains field.1 t := by
    simp only [contains_insertAll, List.filter_filter, Bool.not_or]
  have hold : (insertAll t u).map (fun field => (field.1, (find? field.1 v).getD field.2)) =
      (t.map fun field => (field.1, (find? field.1 (insertAll u v)).getD field.2)) ++
        (u.map fun field => (field.1, (find? field.1 v).getD field.2)).filter
          fun field => !contains field.1 t := by
    simp only [← hvalue]
    simp [insertAll_eq, List.filter_map, Function.comp_def]
  calc insertAll (insertAll t u) v
      = (insertAll t u).map (fun field => (field.1, (find? field.1 v).getD field.2)) ++
          v.filter fun field => !contains field.1 (insertAll t u) := insertAll_eq ..
    _ = (t.map fun field => (field.1, (find? field.1 (insertAll u v)).getD field.2)) ++
          (insertAll u v).filter fun field => !contains field.1 t := by
        rw [hold, hnew, List.append_assoc, ← List.filter_append, ← insertAll_eq u v]
    _ = insertAll t (insertAll u v) := (insertAll_eq ..).symm

theorem insertAll_self {t : Table α} (h : (keys t).Nodup) : insertAll t t = t := by
  have hold : (t.map fun field => (field.1, (find? field.1 t).getD field.2)) = t.map id := by
    apply List.map_congr_left
    rintro ⟨key, value⟩ hmem
    simp [find?_eq_some_of_nodup h hmem]
  have hnew : (t.filter fun field => !contains field.1 t) = [] := by
    apply List.filter_eq_nil_iff.2
    rintro ⟨key, value⟩ hmem
    simp [mem_keys_iff.1 (List.mem_map_of_mem hmem)]
  rw [insertAll_eq, hold, hnew, List.append_nil, List.map_id]

end Table

/-! ## Rules -/

/-- What becomes of the rules of two sides. -/
structure RulesOver (base incoming merged : Option (Table Json)) : Prop where
  present : merged.isSome = (base.isSome || incoming.isSome)
  /-- The incoming setting if there is one, else that of the base. -/
  value : ∀ name, Table.find? name (merged.getD []) =
    (Table.find? name (incoming.getD []) <|> Table.find? name (base.getD []))
  /-- The names of the base, in their order, and then the new ones. -/
  names : Table.keys (merged.getD []) =
    Table.keys (base.getD []) ++
      (Table.keys (incoming.getD [])).filter fun name => !Table.contains name (base.getD [])

theorem rulesOver_mergeRules (base incoming : Option (Table Json)) :
    RulesOver base incoming (mergeRules base incoming) := by
  match base, incoming with
  | none, none => exact ⟨rfl, fun _ => rfl, rfl⟩
  | some base, none =>
      refine ⟨rfl, fun _ => rfl, ?_⟩
      simp [mergeRules, Table.keys]
  | none, some incoming =>
      constructor
      · rfl
      · intro name
        simp [mergeRules, Table.find?]
      · simp [mergeRules, Table.keys, Table.contains, Table.find?]
  | some base, some incoming =>
      exact ⟨rfl, fun name => Table.find?_insertAll base incoming name,
        Table.keys_insertAll base incoming⟩

theorem mergeRules_assoc (a b c : Option (Table Json)) :
    mergeRules (mergeRules a b) c = mergeRules a (mergeRules b c) := by
  match a, b, c with
  | some a, some b, some c => exact congrArg some (Table.insertAll_assoc a b c)
  | none, none, none => rfl
  | none, none, some _ => rfl
  | none, some _, none => rfl
  | none, some _, some _ => rfl
  | some _, none, none => rfl
  | some _, none, some _ => rfl
  | some _, some _, none => rfl

/-! ## Configurations -/

theorem Settings.merge_assoc (s t u : Settings) : (s.merge t).merge u = s.merge (t.merge u) := by
  have hplugins := keepFirst_append_assoc (fun _ _ _ => PluginEntry.same_trans)
    s.plugins t.plugins u.plugins
  simp only [merge, mergeRules_assoc, hplugins, orElse_assoc]

theorem Settings.merge_self {s : Settings} (h : s.Distinct) : s.merge s = s.merge {} := by
  have hplugins : keepFirst [] (s.plugins ++ s.plugins) = keepFirst [] s.plugins :=
    keepFirst_append_self (fun _ _ _ => PluginEntry.same_trans) fun p _ => p.same_refl
  have hrules : mergeRules s.rules s.rules = s.rules := by
    cases hrules : s.rules with
    | none => rfl
    | some rules => exact congrArg some (Table.insertAll_self (h.rules rules hrules).nodup_keys)
  have hnone : mergeRules s.rules none = s.rules := by
    cases s.rules <;> rfl
  simp [merge, hplugins, hrules, hnone]

theorem Settings.merge_empty (s : Settings) : s.merge {} = Settings.merge {} s := by
  have hrules : mergeRules s.rules none = mergeRules none s.rules := by
    cases s.rules <;> rfl
  simp [merge, hrules]

theorem Config.merge_assoc (a b c : Config) : (a.merge b).merge c = a.merge (b.merge c) := by
  have hbases := keepLast_append_assoc (fun _ _ _ => Base.same_trans) a.bases b.bases c.bases
  have hoverrides := keepFirst_append_assoc (fun _ _ _ => Override.same_trans)
    a.overrides b.overrides c.overrides
  simp only [merge, Settings.merge_assoc, hbases, hoverrides]

theorem Config.unites_plugins (a b : Config) :
    Unites (a.plugins ++ b.plugins) (a.merge b).plugins :=
  unites_keepFirst (fun _ _ _ => PluginEntry.same_trans) fun _ _ _ _ => PluginEntry.same_symm

section Distinct

variable {a b : Config} (ha : a.Distinct) (hb : b.Distinct)

include ha hb

theorem Config.Distinct.inner_append {c : Config} (h : .inline c ∈ a.bases ++ b.bases) :
    c.Distinct := by
  rcases List.mem_append.1 h with h | h
  · exact ha.inner h
  · exact hb.inner h

theorem Config.Distinct.override_append {o : Override} (h : o ∈ a.overrides ++ b.overrides) :
    o.config.Distinct := by
  rcases List.mem_append.1 h with h | h
  · exact ha.override h
  · exact hb.override h

theorem Config.unites_bases : Unites (a.bases ++ b.bases) (a.merge b).bases := by
  apply unites_keepLast fun _ _ _ => Base.same_trans
  intro x hx y hy
  apply Base.same_symm_of
  intro c d hc hd
  exact same_symm (ha.inner_append hb (hc ▸ hx)) (ha.inner_append hb (hd ▸ hy))

theorem Config.unites_overrides : Unites (a.overrides ++ b.overrides) (a.merge b).overrides := by
  apply unites_keepFirst fun _ _ _ => Override.same_trans
  intro o ho p hp hsame
  obtain ⟨hfiles, hconfig⟩ := Override.same_iff.1 hsame
  apply Override.same_iff.2
  exact ⟨hfiles.symm, same_symm (ha.override_append hb ho) (ha.override_append hb hp) hconfig⟩

end Distinct

theorem Config.merge_self {a : Config} (h : a.Distinct) : a.merge a = a.merge .empty := by
  have hbases : keepLast (a.bases ++ a.bases) = keepLast a.bases := by
    apply keepLast_append_of_contains
    intro b hb
    apply List.contains_iff_exists_mem_beq.2
    exact ⟨b, hb, Base.same_refl_of fun c hc => same_refl (h.inner (hc ▸ hb))⟩
  have hoverrides : keepFirst [] (a.overrides ++ a.overrides) = keepFirst [] a.overrides := by
    apply keepFirst_append_self fun _ _ _ => Override.same_trans
    intro o ho
    exact Override.same_iff.2 ⟨rfl, same_refl (h.override ho)⟩
  simp [merge, empty, Settings.merge_self h.settings, hbases, hoverrides]

theorem Config.merge_empty (a : Config) : a.merge .empty = Config.empty.merge a := by
  simp [merge, empty, Settings.merge_empty]

/--
Merging is associative; a configuration merged with itself, or on either side with the one that
sets nothing, is that configuration without its repeated entries. Plugins and overrides are those
of both sides, each at its first place, and bases each at its last. A rule has the incoming setting
or else that of the base.
-/
theorem Config.merge_laws {a b : Config} (ha : a.Distinct) (hb : b.Distinct) (c : Config) :
    (a.merge b).merge c = a.merge (b.merge c) ∧
      (a.merge a = a.merge .empty ∧ a.merge .empty = Config.empty.merge a) ∧
      ((a.merge b).plugins = firstPlaces (a.plugins ++ b.plugins) ∧
        Unites (a.plugins ++ b.plugins) (a.merge b).plugins) ∧
      ((a.merge b).overrides = firstPlaces (a.overrides ++ b.overrides) ∧
        Unites (a.overrides ++ b.overrides) (a.merge b).overrides) ∧
      ((a.merge b).bases = lastPlaces (a.bases ++ b.bases) ∧
        Unites (a.bases ++ b.bases) (a.merge b).bases) ∧
      RulesOver a.rules b.rules (a.merge b).rules := by
  refine ⟨merge_assoc a b c, ⟨merge_self ha, merge_empty a⟩, ⟨?_, ?_⟩, ⟨?_, ?_⟩, ⟨?_, ?_⟩, ?_⟩
  · exact keepFirst_eq_firstPlaces (fun _ _ _ => PluginEntry.same_trans) _
  · exact unites_plugins a b
  · exact keepFirst_eq_firstPlaces (fun _ _ _ => Override.same_trans) _
  · exact unites_overrides ha hb
  · exact keepLast_eq_lastPlaces _
  · exact unites_bases ha hb
  · exact rulesOver_mergeRules a.rules b.rules

def repeatedBase : String :=
  "\x7b\"extends\":[\"x\",\x7b\"rules\":\x7b\"r\":[\x7b\"a\":1,\"b\":-0.0\x7d]\x7d\x7d]," ++
  "\"plugins\":[\"p\",\"q\",\"p\"]\x7d"

/-- A configuration whose inline base is that of `repeatedBase`, but for the order of fields and the
sign of a zero. -/
def repeatedIncoming : String :=
  "\x7b\"extends\":[\x7b\"rules\":\x7b\"r\":[\x7b\"b\":0.0,\"a\":1\x7d]\x7d\x7d,\"x\"]," ++
  "\"plugins\":\"s\"\x7d"

theorem Config.merge_laws_repeated :
    ∃ a b, ofText repeatedBase = .ok a ∧ ofText repeatedIncoming = .ok b ∧
      (a.merge b).plugins.map PluginEntry.text = ["p", "q", "s"] ∧ (a.merge b).bases.length = 2 ∧
      (a.merge b).bases = lastPlaces (a.bases ++ b.bases) ∧
      (a.merge b).merge a = a.merge (b.merge a) := by
  have hmerged : ((ofText repeatedBase).toOption.bind fun a =>
      (ofText repeatedIncoming).toOption.map fun b =>
        ((a.merge b).plugins.map PluginEntry.text, (a.merge b).bases.length)) =
      some (["p", "q", "s"], 2) := by decide +kernel
  cases ha : ofText repeatedBase with
  | error e =>
      rw [ha] at hmerged
      cases hmerged
  | ok a =>
      cases hb : ofText repeatedIncoming with
      | error e =>
          rw [ha, hb] at hmerged
          cases hmerged
      | ok b =>
          rw [ha, hb] at hmerged
          have hlaws := merge_laws (distinct_of_ofText ha) (distinct_of_ofText hb) a
          have hshape := Prod.mk.inj (Option.some.inj hmerged)
          exact ⟨a, b, rfl, rfl, hshape.1, hshape.2, hlaws.2.2.2.2.1.1, hlaws.1⟩

end StyleAudit
