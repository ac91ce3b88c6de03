import StyleAudit.Config.Basic
import StyleAudit.Json.Numeral
import StyleAudit.Proofs.Numerals

/-!
The compact text of a value tells the value, and that of a configuration tells the configuration.

Texts are compared from the left. A value ends where its text does, except that a number goes on
as long as there are numerals; so what follows a value has to stop it.
-/

namespace StyleAudit

open Binary64 (isNumeral isNumeral_text isNumeral_toString)

/-! ### Numbers -/

namespace Number

theorem toString_injective {m n : Int} (h : toString m = toString n) : m = n := by
  rw [← Binary64.readWhole_toString m, h, Binary64.readWhole_toString]

/-- Whole numbers are written without a mark. -/
theorem not_mem_toString (n : Int) : '.' ∉ (toString n).toList ∧ 'e' ∉ (toString n).toList := by
  rw [Int.toString_eq_repr, Int.repr_eq_if]
  have hdigits (n : Nat) : '.' ∉ Nat.toDigits 10 n ∧ 'e' ∉ Nat.toDigits 10 n :=
    ⟨fun h => absurd (Binary64.digits_toDigits n _ h) (by decide),
      fun h => absurd (Binary64.digits_toDigits n _ h) (by decide)⟩
  split
  · rw [Nat.toList_repr]
    exact hdigits _
  · rw [String.toList_append, Nat.toList_repr]
    simpa using hdigits _

theorem whole_text_ne (n : Int) (x : Binary64) : toString n ≠ x.text := by
  intro h
  have hmarks := not_mem_toString n
  rw [h] at hmarks
  rcases x.mem_text with hmem | hmem
  · exact hmarks.1 hmem
  · exact hmarks.2 hmem

theorem text_inj {m n : Number} (h : m.text = n.text) : m = n := by
  cases m with
  | whole m =>
      cases n with
      | whole n => rw [toString_injective h]
      | float y => exact absurd h (whole_text_ne m y)
  | float x =>
      cases n with
      | whole n => exact absurd h.symm (whole_text_ne n x)
      | float y => rw [Binary64.text_injective h]

theorem numerals_text (n : Number) : ∀ c ∈ n.text.toList, isNumeral c = true := by
  cases n with
  | whole n => exact isNumeral_toString n
  | float x => exact x.isNumeral_text

end Number

namespace Json

/-! ### Texts in quotes -/

def unescapeMark : List Char → Option (Char × List Char)
  | 'u' :: '0' :: '0' :: a :: b :: cs =>
    some (Char.ofNat (16 * (Numeral.hexValue? a).getD 0 + (Numeral.hexValue? b).getD 0), cs)
  | 'n' :: cs => some ('\n', cs)
  | 'r' :: cs => some ('\r', cs)
  | 't' :: cs => some ('\t', cs)
  | 'b' :: cs => some ('\x08', cs)
  | 'f' :: cs => some ('\x0c', cs)
  | c :: cs => some (c, cs)
  | [] => none

def unescape : List Char → Option (Char × List Char)
  | [] => none
  | c :: cs =>
    if c = '"' then none
    else if c = '\\' then unescapeMark cs
    else some (c, cs)

theorem hexValue?_hexDigit (n : Nat) : (Numeral.hexValue? (hexDigit n)).getD 0 = n % 16 := by
  have hall : ∀ d < 16, (Numeral.hexValue? (Nat.digitChar d)).getD 0 = d := by decide
  exact hall _ (Nat.mod_lt _ (by decide))

theorem unescape_escapeChar (c : Char) (cs : List Char) :
    unescape (escapeChar c ++ cs) = some (c, cs) := by
  unfold escapeChar
  split
  case isTrue h => subst h; rfl
  case isFalse hquote =>
  split
  case isTrue h => subst h; rfl
  case isFalse hslash =>
  split
  case isTrue h => subst h; rfl
  split
  case isTrue h => subst h; rfl
  split
  case isTrue h => subst h; rfl
  split
  case isTrue h => subst h; rfl
  split
  case isTrue h => subst h; rfl
  split
  case isTrue hcontrol =>
      have hc : Char.ofNat (16 * (c.toNat / 16 % 16) + c.toNat % 16) = c := by
        rw [show 16 * (c.toNat / 16 % 16) + c.toNat % 16 = c.toNat by omega]
        exact Char.ofNat_toNat c
      show some (Char.ofNat _, cs) = some (c, cs)
      rw [hexValue?_hexDigit, hexValue?_hexDigit, hc]
  case isFalse => rw [List.singleton_append, unescape, if_neg hquote, if_neg hslash]

/-- What stands between quotes tells the text. -/
theorem escaped_inj {cs ds s t : List Char}
    (h : cs.flatMap escapeChar ++ '"' :: s = ds.flatMap escapeChar ++ '"' :: t) :
    cs = ds ∧ s = t := by
  have hclose (u : List Char) : unescape ('"' :: u) = none := rfl
  induction cs generalizing ds with
  | nil =>
      cases ds with
      | nil => exact ⟨rfl, (List.cons.inj h).2⟩
      | cons d ds =>
          have := congrArg unescape h
          rw [List.flatMap_cons, List.append_assoc, unescape_escapeChar] at this
          cases (hclose s).symm.trans this
  | cons c cs ih =>
      cases ds with
      | nil =>
          have := congrArg unescape h
          rw [List.flatMap_cons, List.append_assoc, unescape_escapeChar] at this
          cases this.trans (hclose t)
      | cons d ds =>
          have := congrArg unescape h
          rw [List.flatMap_cons, List.append_assoc, List.flatMap_cons, List.append_assoc,
            unescape_escapeChar, unescape_escapeChar] at this
          obtain ⟨rfl, hrest⟩ := Prod.mk.inj (Option.some.inj this)
          obtain ⟨rfl, hst⟩ := ih hrest
          exact ⟨rfl, hst⟩

theorem toList_quote (s : String) :
    (quote s).toList = '"' :: s.toList.flatMap escapeChar ++ ['"'] := by
  rw [quote, String.toList_ofList]

theorem quote_append_inj {a b : String} {s t : List Char}
    (h : (quote a).toList ++ s = (quote b).toList ++ t) : a = b ∧ s = t := by
  rw [toList_quote, toList_quote, List.append_assoc, List.append_assoc] at h
  obtain ⟨hab, hst⟩ := escaped_inj (List.cons.inj h).2
  exact ⟨String.toList_inj.1 hab, hst⟩

/-! ### Values -/

/-- The kinds of values, in the order of the constructors. -/
def kind : Json → Nat
  | .null => 0
  | .bool _ => 1
  | .number _ => 2
  | .string _ => 3
  | .array _ => 4
  | .object _ => 5

def kindOf (c : Char) : Nat :=
  if c = 'n' then 0
  else if c = 't' ∨ c = 'f' then 1
  else if c = '"' then 3
  else if c = '[' then 4
  else if c = '\x7b' then 5
  else if isNumeral c then 2
  else 6

theorem kindOf_numeral {c : Char} (h : isNumeral c = true) : kindOf c = 2 := by
  have hne (d : Char) (hd : isNumeral d = false) : c ≠ d := fun hcd => by
    rw [hcd, hd] at h
    cases h
  simp [kindOf, h, hne 'n' rfl, hne 't' rfl, hne 'f' rfl, hne '"' rfl, hne '[' rfl,
    hne '\x7b' rfl]

theorem toList_number_ne_nil (n : Number) : n.text.toList ≠ [] := by
  cases n with
  | whole n =>
      show (toString n).toList ≠ []
      rw [Int.toString_eq_repr, Int.repr_eq_if]
      split
      · rw [Nat.toList_repr]
        exact Nat.toDigits_ne_nil
      · rw [String.toList_append]
        exact List.cons_ne_nil _ _
  | float x =>
      intro h
      have := x.mem_text
      rw [show x.text.toList = [] from h] at this
      simp at this

/-- The first character of a value tells its kind. -/
theorem head_compact (v : Json) :
    ∃ c cs, v.compact.toList = c :: cs ∧ kindOf c = v.kind := by
  cases v with
  | null => exact ⟨'n', _, rfl, rfl⟩
  | bool b => cases b <;> exact ⟨_, _, rfl, rfl⟩
  | number n =>
      obtain ⟨c, cs, htext⟩ := List.exists_cons_of_ne_nil (toList_number_ne_nil n)
      refine ⟨c, cs, htext, kindOf_numeral (n.numerals_text c ?_)⟩
      rw [htext]
      exact List.mem_cons_self
  | string s => exact ⟨'"', _, by rw [compact, toList_quote]; rfl, rfl⟩
  | array items =>
      exact ⟨'[', _, by rw [compact, String.append_assoc, String.toList_append]; rfl, rfl⟩
  | object fields =>
      exact ⟨'\x7b', _, by rw [compact, String.append_assoc, String.toList_append]; rfl, rfl⟩

theorem kind_eq_of_append {a b : Json} {s t : List Char}
    (h : a.compact.toList ++ s = b.compact.toList ++ t) : a.kind = b.kind := by
  obtain ⟨c, cs, hc, hkindA⟩ := head_compact a
  obtain ⟨d, ds, hd, hkindB⟩ := head_compact b
  rw [hc, hd, List.cons_append, List.cons_append, List.cons.injEq] at h
  rw [← hkindA, ← hkindB, h.1]

/-- What follows a value goes on with no numeral. -/
def Stops (s : List Char) : Prop :=
  ∀ c ∈ s.head?, isNumeral c = false

theorem takeWhile_numerals {cs s : List Char} (hcs : ∀ c ∈ cs, isNumeral c = true)
    (hs : Stops s) : (cs ++ s).takeWhile isNumeral = cs := by
  rw [List.takeWhile_append_of_pos hcs]
  cases s with
  | nil => simp
  | cons c s => rw [List.takeWhile_cons_of_neg (by simp [hs c rfl]), List.append_nil]

theorem number_append_inj {m n : Number} {s t : List Char}
    (h : m.text.toList ++ s = n.text.toList ++ t) (hs : Stops s) (ht : Stops t) :
    m = n ∧ s = t := by
  have htake := congrArg (List.takeWhile isNumeral) h
  rw [takeWhile_numerals m.numerals_text hs, takeWhile_numerals n.numerals_text ht] at htake
  rw [htake] at h
  exact ⟨Number.text_inj (String.toList_inj.1 htake), List.append_cancel_left h⟩

def itemsTail (items : List Json) (s : List Char) : List Char :=
  match items with
  | [] => ']' :: s
  | _ :: _ => ',' :: (compactItems items).toList ++ ']' :: s

def fieldsTail (fields : List (String × Json)) (s : List Char) : List Char :=
  match fields with
  | [] => '\x7d' :: s
  | _ :: _ => ',' :: (compactFields fields).toList ++ '\x7d' :: s

theorem stops_itemsTail (items : List Json) (s : List Char) : Stops (itemsTail items s) := by
  cases items <;> simp [Stops, itemsTail] <;> rfl

theorem stops_fieldsTail (fields : List (String × Json)) (s : List Char) :
    Stops (fieldsTail fields s) := by
  cases fields <;> simp [Stops, fieldsTail] <;> rfl

theorem compactItems_cons (a : Json) (as : List Json) (s : List Char) :
    (compactItems (a :: as)).toList ++ ']' :: s = a.compact.toList ++ itemsTail as s := by
  cases as with
  | nil => rfl
  | cons b bs => simp [compactItems, itemsTail, String.toList_append]

theorem compactFields_cons (key : String) (a : Json) (as : List (String × Json))
    (s : List Char) :
    (compactFields ((key, a) :: as)).toList ++ '\x7d' :: s =
      (quote key).toList ++ (':' :: (a.compact.toList ++ fieldsTail as s)) := by
  cases as with
  | nil => simp [compactFields, fieldsTail, String.toList_append]
  | cons b bs => simp [compactFields, fieldsTail, String.toList_append]

theorem bool_append_inj {x y : Bool} {s t : List Char}
    (h : (bool x).compact.toList ++ s = (bool y).compact.toList ++ t) : x = y ∧ s = t := by
  have hfirst := congrArg List.head? h
  cases x with
  | false =>
      cases y with
      | false => exact ⟨rfl, List.append_cancel_left h⟩
      | true => cases hfirst
  | true =>
      cases y with
      | false => cases hfirst
      | true => exact ⟨rfl, List.append_cancel_left h⟩

theorem compact_number (n : Number) : (number n).compact = n.text := by
  rw [compact]

theorem compact_string (s : String) : (string s).compact = quote s := by
  rw [compact]

theorem toList_array (items : List Json) (s : List Char) :
    (array items).compact.toList ++ s = '[' :: ((compactItems items).toList ++ ']' :: s) := by
  simp [compact, String.toList_append]

theorem toList_object (fields : List (String × Json)) (s : List Char) :
    (object fields).compact.toList ++ s =
      '\x7b' :: ((compactFields fields).toList ++ '\x7d' :: s) := by
  simp [compact, String.toList_append]

/-- A list of items that begins with one does not begin with what closes it. -/
theorem compactItems_ne_close (a : Json) (as : List Json) (s t : List Char) :
    (compactItems (a :: as)).toList ++ ']' :: s ≠ ']' :: t := by
  obtain ⟨c, cs, hc, hkind⟩ := head_compact a
  rw [compactItems_cons, hc, List.cons_append]
  intro h
  rw [(List.cons.inj h).1] at hkind
  cases a <;> cases hkind

theorem compactFields_ne_close (a : String × Json) (as : List (String × Json)) (s t : List Char) :
    (compactFields (a :: as)).toList ++ '\x7d' :: s ≠ '\x7d' :: t := by
  obtain ⟨key, v⟩ := a
  rw [compactFields_cons, toList_quote, List.cons_append, List.cons_append]
  intro h
  cases (List.cons.inj h).1

theorem itemsTail_cons (a : Json) (as : List Json) (s : List Char) :
    itemsTail (a :: as) s = ',' :: ((compactItems (a :: as)).toList ++ ']' :: s) := rfl

theorem fieldsTail_cons (a : String × Json) (as : List (String × Json)) (s : List Char) :
    fieldsTail (a :: as) s = ',' :: ((compactFields (a :: as)).toList ++ '\x7d' :: s) := rfl

/-- Equal rests are both closed at once, or both go on. -/
theorem itemsTail_eq {as bs : List Json} {s t : List Char} (h : itemsTail as s = itemsTail bs t) :
    (as = bs ∧ s = t) ∨
      (compactItems as).toList ++ ']' :: s = (compactItems bs).toList ++ ']' :: t := by
  cases as with
  | nil =>
      cases bs with
      | nil => exact .inl ⟨rfl, (List.cons.inj h).2⟩
      | cons b bs =>
          rw [itemsTail_cons] at h
          cases (List.cons.inj h).1
  | cons a as =>
      rw [itemsTail_cons] at h
      cases bs with
      | nil => cases (List.cons.inj h).1
      | cons b bs =>
          rw [itemsTail_cons] at h
          exact .inr (List.cons.inj h).2

theorem fieldsTail_eq {as bs : List (String × Json)} {s t : List Char}
    (h : fieldsTail as s = fieldsTail bs t) :
    (as = bs ∧ s = t) ∨
      (compactFields as).toList ++ '\x7d' :: s = (compactFields bs).toList ++ '\x7d' :: t := by
  cases as with
  | nil =>
      cases bs with
      | nil => exact .inl ⟨rfl, (List.cons.inj h).2⟩
      | cons b bs =>
          rw [fieldsTail_cons] at h
          cases (List.cons.inj h).1
  | cons a as =>
      rw [fieldsTail_cons] at h
      cases bs with
      | nil => cases (List.cons.inj h).1
      | cons b bs =>
          rw [fieldsTail_cons] at h
          exact .inr (List.cons.inj h).2

def ItemsTold (as : List Json) : Prop :=
  ∀ (bs : List Json) {s t : List Char},
    (compactItems as).toList ++ ']' :: s = (compactItems bs).toList ++ ']' :: t → as = bs ∧ s = t

def FieldsTold (as : List (String × Json)) : Prop :=
  ∀ (bs : List (String × Json)) {s t : List Char},
    (compactFields as).toList ++ '\x7d' :: s = (compactFields bs).toList ++ '\x7d' :: t →
      as = bs ∧ s = t

/-- A value is told by a text that begins with it, if its parts are. -/
theorem compact_append_inj_of_parts {a b : Json} {s t : List Char}
    (hitems : ∀ as, a = .array as → ItemsTold as) (hfields : ∀ as, a = .object as → FieldsTold as)
    (hs : Stops s) (ht : Stops t) (h : a.compact.toList ++ s = b.compact.toList ++ t) :
    a = b ∧ s = t := by
  have hkind := kind_eq_of_append h
  cases a with
  | null =>
      cases b with
      | null => exact ⟨rfl, List.append_cancel_left h⟩
      | _ => cases hkind
  | bool x =>
      cases b with
      | bool y =>
          obtain ⟨rfl, hst⟩ := bool_append_inj h
          exact ⟨rfl, hst⟩
      | _ => cases hkind
  | number m =>
      cases b with
      | number n =>
          rw [compact_number, compact_number] at h
          obtain ⟨rfl, hst⟩ := number_append_inj h hs ht
          exact ⟨rfl, hst⟩
      | _ => cases hkind
  | string x =>
      cases b with
      | string y =>
          rw [compact_string, compact_string] at h
          obtain ⟨rfl, hst⟩ := quote_append_inj h
          exact ⟨rfl, hst⟩
      | _ => cases hkind
  | array as =>
      cases b with
      | array bs =>
          rw [toList_array, toList_array] at h
          obtain ⟨rfl, hst⟩ := hitems as rfl bs (List.cons.inj h).2
          exact ⟨rfl, hst⟩
      | _ => cases hkind
  | object as =>
      cases b with
      | object bs =>
          rw [toList_object, toList_object] at h
          obtain ⟨rfl, hst⟩ := hfields as rfl bs (List.cons.inj h).2
          exact ⟨rfl, hst⟩
      | _ => cases hkind

theorem sizeOf_items_lt {a : Json} {as : List Json} (h : a = .array as) :
    sizeOf as < sizeOf a := by
  rw [h, array.sizeOf_spec]
  omega

theorem sizeOf_fields_lt {a : Json} {as : List (String × Json)} (h : a = .object as) :
    sizeOf as < sizeOf a := by
  rw [h, object.sizeOf_spec]
  omega

mutual

/-- A value is told by a text that begins with it. -/
theorem compact_append_inj (a b : Json) {s t : List Char} (hs : Stops s) (ht : Stops t)
    (h : a.compact.toList ++ s = b.compact.toList ++ t) : a = b ∧ s = t :=
  compact_append_inj_of_parts
    (fun as ha => have := sizeOf_items_lt ha; itemsTold as)
    (fun as ha => have := sizeOf_fields_lt ha; fieldsTold as) hs ht h
termination_by sizeOf a
decreasing_by all_goals assumption

theorem itemsTold (as : List Json) : ItemsTold as := by
  intro bs s t h
  match as with
  | [] =>
      cases bs with
      | nil => exact ⟨rfl, (List.cons.inj h).2⟩
      | cons b bs => exact absurd h.symm (compactItems_ne_close b bs t s)
  | a :: as =>
      cases bs with
      | nil => exact absurd h (compactItems_ne_close a as s t)
      | cons b bs =>
          rw [compactItems_cons, compactItems_cons] at h
          obtain ⟨rfl, htail⟩ := compact_append_inj a b (stops_itemsTail as s)
            (stops_itemsTail bs t) h
          rcases itemsTail_eq htail with ⟨rfl, hst⟩ | hrest
          · exact ⟨rfl, hst⟩
          · obtain ⟨rfl, hst⟩ := itemsTold as bs hrest
            exact ⟨rfl, hst⟩
termination_by sizeOf as

theorem fieldsTold (as : List (String × Json)) : FieldsTold as := by
  intro bs s t h
  match as with
  | [] =>
      cases bs with
      | nil => exact ⟨rfl, (List.cons.inj h).2⟩
      | cons b bs => exact absurd h.symm (compactFields_ne_close b bs t s)
  | (key, a) :: as =>
      cases bs with
      | nil => exact absurd h (compactFields_ne_close (key, a) as s t)
      | cons b bs =>
          obtain ⟨key', b⟩ := b
          rw [compactFields_cons, compactFields_cons] at h
          obtain ⟨rfl, hvalue⟩ := quote_append_inj h
          obtain ⟨rfl, htail⟩ := compact_append_inj a b (stops_fieldsTail as s)
            (stops_fieldsTail bs t) (List.cons.inj hvalue).2
          rcases fieldsTail_eq htail with ⟨rfl, hst⟩ | hrest
          · exact ⟨rfl, hst⟩
          · obtain ⟨rfl, hst⟩ := fieldsTold as bs hrest
            exact ⟨rfl, hst⟩
termination_by sizeOf as

end

/-- The compact text of a value tells the value. -/
theorem compact_injective {a b : Json} (h : a.compact = b.compact) : a = b := by
  have hstops : Stops [] := fun c hc => nomatch hc
  exact (compact_append_inj a b hstops hstops (by rw [h])).1

end Json

/-! ### Configurations -/

def Settings.NamesPlugins (s : Settings) : Prop :=
  ∀ p ∈ s.plugins, ∃ specifier, p = .lookup specifier

namespace Settings

theorem find?_field {α : Type} (key other : String) (encode : α → Json) (v : Option α) :
    Table.find? other (field key encode v) = if key = other then v.map encode else none := by
  cases v <;> simp [field, Table.find?]

theorem find?_listField (key other : String) (items : List Json) :
    Table.find? other (listField key items) =
      if key = other ∧ items ≠ [] then some (.array items) else none := by
  cases items <;> simp [listField, Table.find?]

def fields (s : Settings) : Table Json :=
  listField "plugins" (s.plugins.map fun p => .string p.text) ++ s.fieldsFromRules

theorem texts_injective {xs ys : List String} (h : texts xs = texts ys) : xs = ys :=
  List.map_injective_iff.2 (fun _ _ => Json.string.inj) (Json.array.inj h)

theorem severity_injective {a b : Severity} (h : a.toJson = b.toJson) : a = b := by
  cases a <;> cases b <;> first | rfl | exact absurd (Json.string.inj h) (by decide)

/-- Plugins that are named are told by their texts. -/
theorem plugins_injective {ps qs : List PluginEntry}
    (hp : ∀ p ∈ ps, ∃ specifier, p = .lookup specifier)
    (hq : ∀ q ∈ qs, ∃ specifier, q = .lookup specifier)
    (h : ps.map PluginEntry.text = qs.map PluginEntry.text) : ps = qs := by
  induction ps generalizing qs with
  | nil =>
      cases qs with
      | nil => rfl
      | cons q qs => cases h
  | cons p ps ih =>
      cases qs with
      | nil => cases h
      | cons q qs =>
          obtain ⟨a, rfl⟩ := hp p List.mem_cons_self
          obtain ⟨b, rfl⟩ := hq q List.mem_cons_self
          obtain ⟨hab, hrest⟩ := List.cons.inj h
          rw [show a = b from hab, ih (fun p hp' => hp p (List.mem_cons_of_mem _ hp'))
            (fun q hq' => hq q (List.mem_cons_of_mem _ hq')) hrest]

/-- An entry for a list that is left out when it is empty tells the list. -/
theorem names_injective {xs ys : List String}
    (h : (if xs = [] then none else some (Json.array (xs.map Json.string))) =
      if ys = [] then none else some (Json.array (ys.map Json.string))) : xs = ys := by
  by_cases hx : xs = [] <;> by_cases hy : ys = [] <;> simp only [hx, hy, if_true, if_false] at h
  · exact hx.trans hy.symm
  · cases h
  · cases h
  · exact texts_injective (Option.some.inj h)

/-- Settings that name their plugins are told by their written form. -/
theorem fields_injective {s t : Settings} (hs : s.NamesPlugins) (ht : t.NamesPlugins)
    (h : s.fields = t.fields) : s = t := by
  have hfind (key : String) := congrArg (Table.find? key) h
  simp only [fields, fieldsFromRules, Table.find?_append, find?_field, find?_listField] at hfind
  have hplugins : s.plugins.map PluginEntry.text = t.plugins.map PluginEntry.text :=
    names_injective (by simpa [Function.comp_def] using hfind "plugins")
  have hrules : s.rules = t.rules :=
    Option.map_injective (fun _ _ => Json.object.inj) (by simpa using hfind "rules")
  have hignoreFiles : s.ignoreFiles = t.ignoreFiles :=
    Option.map_injective (fun _ _ => texts_injective) (by simpa using hfind "ignoreFiles")
  have hignoreDisables : s.ignoreDisables = t.ignoreDisables :=
    Option.map_injective (fun _ _ => Json.bool.inj) (by simpa using hfind "ignoreDisables")
  have hquiet : s.quiet = t.quiet :=
    Option.map_injective (fun _ _ => Json.bool.inj) (by simpa using hfind "quiet")
  have hneedless : s.reportNeedlessDisables = t.reportNeedlessDisables := by
    simpa using hfind "reportNeedlessDisables"
  have hscope : s.reportInvalidScopeDisables = t.reportInvalidScopeDisables := by
    simpa using hfind "reportInvalidScopeDisables"
  have hdescription : s.reportDescriptionlessDisables = t.reportDescriptionlessDisables := by
    simpa using hfind "reportDescriptionlessDisables"
  have hsyntax : s.customSyntax = t.customSyntax :=
    Option.map_injective (fun _ _ => Json.string.inj) (by simpa using hfind "customSyntax")
  have hfix : s.fix = t.fix :=
    Option.map_injective (fun _ _ => Json.bool.inj) (by simpa using hfind "fix")
  have hseverity : s.defaultSeverity = t.defaultSeverity :=
    Option.map_injective (fun _ _ => severity_injective) (by simpa using hfind "defaultSeverity")
  have hempty : s.allowEmptyInput = t.allowEmptyInput :=
    Option.map_injective (fun _ _ => Json.bool.inj) (by simpa using hfind "allowEmptyInput")
  have hcache : s.cache = t.cache :=
    Option.map_injective (fun _ _ => Json.bool.inj) (by simpa using hfind "cache")
  have hentries := plugins_injective hs ht hplugins
  cases s
  cases t
  simp_all

end Settings

/-- A configuration that stands alone: it has no bases, no overrides and names its plugins. -/
structure Config.StandsAlone (c : Config) : Prop where
  bases : c.bases = []
  overrides : c.overrides = []
  plugins : c.toSettings.NamesPlugins

namespace Config

theorem StandsAlone.toJson_eq {c : Config} (h : c.StandsAlone) :
    c.toJson = .object c.toSettings.fields := by
  obtain ⟨settings, bases, overrides⟩ := c
  obtain rfl : bases = [] := h.bases
  obtain rfl : overrides = [] := h.overrides
  simp [toJson, fields, Settings.fields, Settings.listField, Base.toJsonAll, Override.toJsonAll]

/-- The text that is hashed for a configuration tells the configuration. -/
theorem StandsAlone.eq_of_compact {c d : Config} (hc : c.StandsAlone) (hd : d.StandsAlone)
    (h : c.toJson.compact = d.toJson.compact) : c = d := by
  have hfields := Json.compact_injective h
  rw [hc.toJson_eq, hd.toJson_eq] at hfields
  have hsettings := Settings.fields_injective hc.plugins hd.plugins (Json.object.inj hfields)
  obtain ⟨hcb, hco, -⟩ := hc
  obtain ⟨hdb, hdo, -⟩ := hd
  cases c
  cases d
  simp_all

end Config

end StyleAudit
