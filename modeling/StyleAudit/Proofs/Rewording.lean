import Mathlib.Data.List.Forall2
import StyleAudit.Proofs.Pieces
import StyleAudit.Proofs.Scanning

/-!
A sheet whose values are reworded prints a text that is read as the reworded sheet.

The reader is followed from the end of the source to its head: every item is read as before, with
its value reworded if it has one, provided that what follows it begins alike. A word may stand in
the place of another because the scanner takes both without leaving the phase that it is in.
-/

namespace StyleAudit

theorem isWordChar_ne {c d : Char} (hc : isWordChar c) (hd : isWordChar d = false) : c ≠ d := by
  rintro rfl
  rw [hc] at hd
  cases hd

theorem Word.toList_ne_nil (word : Word) : word.text.toList ≠ [] := by
  simpa using word.nonempty

namespace Reader

theorem isOrdinary_of_isWordChar {c : Char} (hc : isWordChar c) : isOrdinary c := by
  have hne {d : Char} (hd : isWordChar d = false) : c ≠ d := isWordChar_ne hc hd
  simp only [isOrdinary, isQuote, isTerminator]
  simp [hne (d := '"') (by decide), hne (d := '\'') (by decide), hne (d := ';') (by decide),
    hne (d := '\x7b') (by decide), hne (d := '\x7d') (by decide), hne (d := '\\') (by decide),
    hne (d := '/') (by decide), hne (d := '*') (by decide), hne (d := '(') (by decide),
    hne (d := ')') (by decide)]

theorem isOrdinary_of_isBlankChar {c : Char} (hc : isBlankChar c) : isOrdinary c := by
  simp only [isBlankChar, Bool.or_eq_true, beq_iff_eq] at hc
  rcases hc with (((rfl | rfl) | rfl) | rfl) | rfl <;> decide

theorem not_isBlankChar_of_isWordChar {c : Char} (hc : isWordChar c) : ¬isBlankChar c := by
  intro hblank
  simp only [isBlankChar, Bool.or_eq_true, beq_iff_eq] at hblank
  rcases hblank with (((rfl | rfl) | rfl) | rfl) | rfl <;> revert hc <;> decide

/-- A text without an exclamation mark has no important mark. -/
theorem cutImportantMark_of_not_mem {value : List Char} (h : '!' ∉ value) :
    cutImportantMark value = (value, none) := by
  have hnone : splitLast (· == '!') value = none := by
    apply splitLast_eq_none_iff.2
    intro c hc heq
    exact h (by rwa [← eq_of_beq heq])
  rw [cutImportantMark, hnone]

/-- A mark that is cut off is cut off in the same way after any value that ends visibly. -/
theorem cutImportantMark_exchange {value value' trimmed mark : List Char}
    (hlast : ∀ c ∈ value'.getLast?, ¬isBlankChar c)
    (h : cutImportantMark trimmed = (value, some mark)) :
    cutImportantMark (value' ++ mark) = (value', some mark) := by
  unfold cutImportantMark at h
  split at h
  · cases h
  · rename_i head tail hsplit
    split at h
    · rename_i hspelled
      obtain ⟨rfl, hmark⟩ := Prod.mk.inj h
      obtain rfl := Option.some.inj hmark
      obtain ⟨-, -, -, htail⟩ := splitLast_eq_some_iff.1 hsplit
      obtain ⟨-, hspace, -⟩ := Text.splitTail_eq_iff.1 (rfl : Text.splitTail isBlankChar head = _)
      have hsplit' : splitLast (· == '!')
          (value' ++ ((Text.splitTail isBlankChar head).2 ++ '!' :: tail)) =
            some (value' ++ (Text.splitTail isBlankChar head).2, tail) :=
        splitLast_eq_some_iff.2 ⟨'!', rfl, by simp, htail⟩
      have hkept : Text.splitTail isBlankChar (value' ++ (Text.splitTail isBlankChar head).2) =
          (value', (Text.splitTail isBlankChar head).2) :=
        Text.splitTail_eq_iff.2 ⟨rfl, hspace, hlast⟩
      simp only [cutImportantMark, hsplit', hspelled, if_true, hkept]
    · cases h

theorem ne_nil_of_cutImportantMark {value trimmed mark : List Char}
    (h : cutImportantMark trimmed = (value, some mark)) : mark ≠ [] := by
  unfold cutImportantMark at h
  split at h
  · cases h
  · split at h
    · obtain ⟨-, hmark⟩ := Prod.mk.inj h
      rw [← Option.some.inj hmark]
      simp
    · cases h

theorem take_append_cons {lead : List Char} {n : Nat} (hn : lead.length = n) (c : Char)
    (cs : List Char) : (lead ++ c :: cs).take (n + 1) = lead ++ [c] := by
  subst hn
  rw [List.take_length_add_append, List.take_succ_cons, List.take_zero]

theorem drop_append_cons {lead : List Char} {n : Nat} (hn : lead.length = n) (c : Char)
    (cs : List Char) : (lead ++ c :: cs).drop (n + 1) = cs := by
  subst hn
  rw [List.drop_length_add_append, List.drop_succ_cons, List.drop_zero]

/-- What a statement that is a declaration consists of. -/
structure Parts where
  prop : List Char
  propSpace : List Char
  valueSpace : List Char
  value : List Char
  mark : Option (List Char)
  afterValue : List Char

namespace Parts

def lead (p : Parts) : List Char :=
  p.prop ++ p.propSpace

def marked (p : Parts) : List Char :=
  p.value ++ p.mark.getD []

def text (p : Parts) : List Char :=
  p.lead ++ ':' :: (p.valueSpace ++ (p.marked ++ p.afterValue))

/-- Whether the text of the parts is split into them, once its colon is found. -/
structure Split (p : Parts) : Prop where
  nonempty : p.prop ≠ []
  lead : Text.splitTail isBlankChar p.lead = (p.prop, p.propSpace)
  space : Text.splitHead isBlankChar (p.valueSpace ++ (p.marked ++ p.afterValue)) =
    (p.valueSpace, p.marked ++ p.afterValue)
  after : Text.splitTail isBlankChar (p.marked ++ p.afterValue) = (p.marked, p.afterValue)
  mark : cutImportantMark p.marked = (p.value, p.mark)

def declaration (p : Parts) (before : List Char) (first : Cursor) (semicolon : Bool) :
    Declaration where
  prop := String.ofList p.prop
  value := String.ofList p.value
  important := p.mark.isSome
  raws := {
    before := String.ofList before
    between := String.ofList (p.propSpace ++ ':' :: p.valueSpace)
    important := if p.mark.map String.ofList = some importantMark then none
      else p.mark.map String.ofList
    afterValue := String.ofList p.afterValue
    semicolon := semicolon }
  source := some (first.rangeTo (first.advanceAll (p.lead ++ ':' :: (p.valueSpace ++ p.marked))))

/-- The colon and what stands before it begin the text. -/
theorem take_text (p : Parts) : p.text.take (p.lead.length + 1) = p.lead ++ [':'] :=
  take_append_cons rfl _ _

theorem lead_lt_text (p : Parts) : p.lead.length < p.text.length := by
  rw [text, List.length_append, List.length_cons]
  omega

theorem Split.lead_pos {p : Parts} (h : p.Split) : 0 < p.lead.length := by
  rw [Parts.lead, List.length_append]
  exact Nat.add_pos_left (List.length_pos_iff.2 h.nonempty) _

/-- A word in the place of the value leaves the other parts as they are. -/
theorem Split.exchange {p : Parts} (h : p.Split) (word : Word) :
    { p with value := word.text.toList }.Split := by
  have hlast : ∀ c ∈ word.text.toList.getLast?, ¬isBlankChar c := fun c hc =>
    not_isBlankChar_of_isWordChar (word.plain c (List.mem_of_getLast? hc))
  obtain ⟨c, cs, hcs⟩ := List.exists_cons_of_ne_nil word.toList_ne_nil
  have hfirst : ¬isBlankChar c := not_isBlankChar_of_isWordChar (word.plain c (by simp [hcs]))
  obtain ⟨-, hspace, -⟩ := Text.splitHead_eq_iff.1 h.space
  obtain ⟨-, hafter, hmarked⟩ := Text.splitTail_eq_iff.1 h.after
  refine ⟨h.nonempty, h.lead, Text.splitHead_eq_iff.2 ⟨rfl, hspace, ?_⟩,
    Text.splitTail_eq_iff.2 ⟨rfl, hafter, ?_⟩, ?_⟩
  · simpa [marked, hcs] using hfirst
  · -- The text ends as the word does, or as the mark did before.
    cases hmark : p.mark with
    | none => simpa [marked, hmark] using hlast
    | some mark =>
        have hne : mark ≠ [] := ne_nil_of_cutImportantMark (h.mark.trans (by rw [hmark]))
        simp only [marked, hmark, Option.getD_some,
          List.getLast?_append_of_ne_nil _ hne] at hmarked ⊢
        exact hmarked
  · cases hmark : p.mark with
    | none =>
        simp only [marked, Option.getD_none, List.append_nil]
        exact cutImportantMark_of_not_mem fun hmem =>
          isWordChar_ne (word.plain '!' hmem) (by decide) rfl
    | some mark =>
        simp only [marked, Option.getD_some]
        exact cutImportantMark_exchange hlast (h.mark.trans (by rw [hmark]))

end Parts

/-- A declaration is read where the text splits into parts at the colon that is found. -/
theorem readDeclaration_eq_ok_iff {before : List Char} {first : Cursor} {text rest : List Char}
    {semicolon : Bool} {d : Declaration} :
    readDeclaration before first (text ++ rest) text semicolon = .ok d ↔
      ∃ p : Parts, p.Split ∧ p.text = text ∧
        colonOffset .plain text.length first (text ++ rest) = .ok (some p.lead.length) ∧
        d = p.declaration before first semicolon := by
  constructor
  · intro h
    obtain ⟨n, prop, propSpace, valueSpace, tail, trimmed, afterValue, value, mark, hcolon, hprop,
      hne, hspace, htrim, hmark, rfl⟩ := readDeclaration_cases h
    obtain ⟨htake, rfl, htext⟩ := declaration_parts rfl hcolon hprop hspace htrim hmark
    have hlength : (prop ++ propSpace).length = n := by
      rw [← htake, List.length_take]
      have := (colonOffset_spec hcolon).1
      omega
    obtain ⟨rfl, -, -⟩ := Text.splitTail_eq_iff.1 htrim
    rw [← (Text.splitHead_eq_iff.1 hspace).1] at hspace
    rw [htake] at hprop htext
    exact ⟨⟨prop, propSpace, valueSpace, value, mark, afterValue⟩,
      ⟨hne, hprop, hspace, htrim, hmark⟩, htext.symm, by rw [hcolon, Parts.lead, hlength],
      by rw [htake]; rfl⟩
  · rintro ⟨p, hsplit, rfl, hcolon, rfl⟩
    have htake : p.text.take p.lead.length = p.lead := List.take_left' rfl
    have hdrop := drop_append_cons (rfl : p.lead.length = _) ':'
      (p.valueSpace ++ (p.marked ++ p.afterValue))
    rw [← Parts.text] at hdrop
    simp [readDeclaration, hcolon, htake, hdrop, hsplit.lead, hsplit.space, hsplit.after,
      hsplit.mark, hsplit.nonempty, Parts.declaration]

def Parts.reword (f : Word → Option Word) (p : Parts) : Parts :=
  { p with value := (reworded f (String.ofList p.value)).toList }

namespace Parts

theorem reword_cases (f : Word → Option Word) (p : Parts) : p.reword f = p ∨
    ∃ word word' : Word, p.value = word.text.toList ∧
      p.reword f = { p with value := word'.text.toList } := by
  rcases reworded_cases f (String.ofList p.value) with hsame | ⟨word, word', hword, hword'⟩
  · left
    rw [reword, hsame, String.toList_ofList]
  · right
    exact ⟨word, word', by rw [← hword, String.toList_ofList], by rw [reword, hword']⟩

theorem Split.reword {p : Parts} (h : p.Split) (f : Word → Option Word) : (p.reword f).Split := by
  rcases p.reword_cases f with hsame | ⟨-, word', -, hword'⟩
  · rwa [hsame]
  · rw [hword']
    exact h.exchange word'

theorem text_eq (p : Parts) : p.text =
    p.lead ++ ':' :: ((p.valueSpace ++ p.value) ++ (p.mark.getD [] ++ p.afterValue)) := by
  simp [text, marked]

/-- Rewording the value of a statement leaves its end where it was. -/
theorem scan_reword {p : Parts} (h : p.Split) (f : Word → Option Word) {first first' : Cursor}
    {rest rest' : List Char} (hrest : rest'.head? = rest.head?)
    (hscan : scan .plain 0 first (p.text ++ rest) = .ok (p.text, rest)) :
    scan .plain 0 first' ((p.reword f).text ++ rest') = .ok ((p.reword f).text, rest') := by
  rcases p.reword_cases f with hsame | ⟨word, word', hword, hword'⟩
  · rw [hsame]
    exact scan_congr hrest hscan
  · obtain ⟨-, hspace, -⟩ := Text.splitHead_eq_iff.1 h.space
    have hordinary (w : Word) : ∀ c ∈ p.valueSpace ++ w.text.toList, isOrdinary c := by
      intro c hc
      rcases List.mem_append.1 hc with hc | hc
      · exact isOrdinary_of_isBlankChar (hspace c hc)
      · exact isOrdinary_of_isWordChar (w.plain c hc)
    rw [text_eq, hword] at hscan
    rw [hword', text_eq]
    exact scan_exchange (by decide) (hordinary word) (hordinary word') hrest hscan

/-- A reworded text begins as the text does, up to the colon. -/
theorem take_reword_append (f : Word → Option Word) (p : Parts) (rest rest' : List Char) :
    ((p.reword f).text ++ rest').take (p.lead.length + 1) =
      (p.text ++ rest).take (p.lead.length + 1) := by
  have hlt : p.lead.length + 1 ≤ (p.reword f).text.length := (p.reword f).lead_lt_text
  rw [List.take_append_of_le_length hlt, List.take_append_of_le_length p.lead_lt_text, p.take_text]
  exact (p.reword f).take_text

end Parts

/-- A statement that is a declaration is read with its value reworded. -/
theorem readDeclaration_reword (f : Word → Option Word) {before : List Char} {first : Cursor}
    {text rest rest' : List Char} {semicolon : Bool} {d : Declaration}
    (hrest : rest'.head? = rest.head?)
    (hscan : scan .plain 0 first (text ++ rest) = .ok (text, rest))
    (h : readDeclaration before first (text ++ rest) text semicolon = .ok d) :
    ∃ text', (text' ++ rest').take 2 = (text ++ rest).take 2 ∧ ∀ first',
      scan .plain 0 first' (text' ++ rest') = .ok (text', rest') ∧
        ∃ d', readDeclaration before first' (text' ++ rest') text' semicolon = .ok d' ∧
          (Node.decl d).Rewords f (.decl d') := by
  obtain ⟨p, hsplit, rfl, hcolon, rfl⟩ := readDeclaration_eq_ok_iff.1 h
  have hfront := p.take_reword_append f rest rest'
  have htwo : ((p.reword f).text ++ rest').take 2 = (p.text ++ rest).take 2 := by
    have hpos := hsplit.lead_pos
    have h2 := congrArg (List.take 2) hfront
    rwa [List.take_take, List.take_take, Nat.min_eq_left (by omega)] at h2
  refine ⟨(p.reword f).text, htwo, fun first' => ⟨Parts.scan_reword hsplit f hrest hscan, _,
    readDeclaration_eq_ok_iff.2 ⟨_, hsplit.reword f, rfl,
      colonOffset_congr rfl (p.reword f).lead_lt_text hfront hcolon, rfl⟩, ?_⟩⟩
  simp [Node.Rewords, Node.edit, Node.mapDeclaration, Declaration.reword, Node.withoutSource,
    Parts.declaration, Parts.reword]

inductive Item.Rewords (f : Word → Option Word) : Item → Item → Prop where
  | leaf {node node' : Node} (h : node.Rewords f node') : Item.Rewords f (.leaf node) (.leaf node')
  | opening {heading : Heading} {brace brace' : Cursor} :
      Item.Rewords f (.opening heading brace) (.opening heading brace')

theorem commentBody_append_marks {cs body rest : List Char} (h : commentBody cs = some (body, rest))
    (rest' : List Char) : commentBody (body ++ '*' :: '/' :: rest') = some (body, rest') := by
  fun_induction commentBody cs generalizing body with
  | case1 => cases h
  | case2 => cases h
  | case3 c d ds hmark =>
      obtain ⟨rfl, rfl⟩ := Prod.mk.inj (Option.some.inj h)
      simp [commentBody]
  | case4 c d ds hmark ih =>
      obtain ⟨⟨front, back⟩, hfront, hsplit⟩ := Option.map_eq_some_iff.1 h
      obtain ⟨rfl, rfl⟩ := Prod.mk.inj hsplit
      have hhead : (front ++ '*' :: '/' :: rest').head? = some d := by
        rw [← List.head?_cons (l := ds), ← commentBody_append hfront]
        cases front <;> rfl
      obtain ⟨es, hes⟩ := List.head?_eq_some_iff.1 hhead
      rw [List.cons_append, hes, commentBody, if_neg hmark, ← hes, ih hfront]
      rfl

theorem readComment_of_parts {before : List Char} {first : Cursor}
    {inside rest body left trimmed text right : List Char}
    (hbody : commentBody inside = some (body, rest))
    (hleft : Text.splitHead isBlankChar body = (left, trimmed))
    (hright : Text.splitTail isBlankChar trimmed = (text, right)) :
    readComment before first inside = .ok (.leaf (.comment ⟨String.ofList text,
      ⟨String.ofList before, String.ofList left, String.ofList right⟩,
      some (first.rangeTo (first.advanceAll ('/' :: '*' :: body ++ ['*', '/'])))⟩),
      first.advanceAll ('/' :: '*' :: body ++ ['*', '/']), rest) := by
  simp only [readComment, hbody, hleft, hright]

/-- A comment is read whatever follows it. -/
theorem readComment_reword (f : Word → Option Word) {before : List Char} {first last : Cursor}
    {inside rest : List Char} {item : Item} (rest' : List Char)
    (h : readComment before first inside = .ok (item, last, rest)) :
    ∃ inside', ∀ first', ∃ item' last',
      readComment before first' inside' = .ok (item', last', rest') ∧ item.Rewords f item' := by
  obtain ⟨body, left, trimmed, text, right, hbody, hleft, hright, -, rfl⟩ := readComment_cases h
  exact ⟨body ++ '*' :: '/' :: rest', fun first' => ⟨_, _, readComment_of_parts
    (commentBody_append_marks hbody rest') hleft hright, .leaf rfl⟩⟩

/-- What ends an at-rule is followed by something that begins alike. -/
theorem AtRuleTail.reword (f : Word → Option Word) {before : List Char} {first here last : Cursor}
    {name afterName params between left rest rest' : List Char} {item : Item}
    (hrest : rest'.head? = rest.head?)
    (h : AtRuleTail before first here name afterName params between left item last rest) :
    ∃ left', left'.head? = left.head? ∧ ∀ first' here', ∃ item' last',
      AtRuleTail before first' here' name afterName params between left' item' last' rest' ∧
        item.Rewords f item' := by
  cases h with
  | block => exact ⟨'\x7b' :: rest', rfl, fun _ _ => ⟨_, _, .block, .opening⟩⟩
  | terminated => exact ⟨';' :: rest', rfl, fun _ _ => ⟨_, _, .terminated, .leaf rfl⟩⟩
  | bare hbare =>
      exact ⟨rest', hrest, fun _ _ => ⟨_, _, .bare (by rwa [hrest]), .leaf rfl⟩⟩

theorem readAtRule_reword (f : Word → Option Word) {before : List Char} {first last : Cursor}
    {inside rest rest' : List Char} {item : Item} (hrest : rest'.head? = rest.head?)
    (h : readAtRule before first inside = .ok (item, last, rest)) :
    ∃ inside', ∀ first', ∃ item' last',
      readAtRule before first' inside' = .ok (item', last', rest') ∧ item.Rewords f item' := by
  obtain ⟨name, tail, text, left, afterName, trimmed, params, between, hname, hne, hscan, hspace,
    hparams, htail⟩ := readAtRule_cases h
  obtain ⟨left', hleft', hends⟩ := htail.reword f hrest
  obtain ⟨-, hchars, hstop⟩ := Text.splitHead_eq_iff.1 hname
  rw [← scan_append hscan] at hstop
  have hname' : Text.splitHead isNameChar (name ++ (text ++ left')) = (name, text ++ left') := by
    apply Text.splitHead_eq_iff.2
    refine ⟨rfl, hchars, ?_⟩
    rwa [List.head?_append, hleft', ← List.head?_append]
  refine ⟨name ++ (text ++ left'), fun first' => ?_⟩
  obtain ⟨item', last', htail', hrewords⟩ := hends first'
    (((first'.advance '@').advanceAll name).advanceAll text)
  have hread := readAtRule_of_parts hname' hne (scan_congr hleft' hscan) hspace hparams htail'
  exact ⟨item', last', hread, hrewords⟩

/-- A heading is read as before, and a declaration with its value reworded. -/
theorem readStatement_reword (f : Word → Option Word) {before : List Char} {first last : Cursor}
    {source rest rest' : List Char} {item : Item} (hrest : rest'.head? = rest.head?)
    (h : readStatement before first source = .ok (item, last, rest)) :
    ∃ source', source'.take 2 = source.take 2 ∧ ∀ first', ∃ item' last',
      readStatement before first' source' = .ok (item', last', rest') ∧ item.Rewords f item' := by
  obtain ⟨text, left, hscan, htail⟩ := readStatement_cases h
  obtain rfl := scan_append hscan
  cases htail with
  | block hsplit =>
      have hscan' (first' : Cursor) : scan .plain 0 first' (text ++ '\x7b' :: rest') =
          .ok (text, '\x7b' :: rest') := scan_congr (by rfl) hscan
      refine ⟨text ++ '\x7b' :: rest', ?_, fun first' =>
        ⟨_, _, readStatement_of_tail (hscan' first') (.block hsplit), .opening⟩⟩
      cases text with
      | nil => rw [List.nil_append, List.nil_append, List.take_succ_cons, List.take_succ_cons,
          List.take_one, List.take_one, hrest]
      | cons c cs => cases cs <;> rfl
  | terminated hdecl =>
      have hsemi : (';' :: rest').head? = (';' :: rest).head? := rfl
      obtain ⟨text', htwo, hread⟩ := readDeclaration_reword f hsemi hscan hdecl
      refine ⟨text' ++ ';' :: rest', htwo, fun first' => ?_⟩
      obtain ⟨hscan', d', hdecl', hrewords⟩ := hread first'
      exact ⟨_, _, readStatement_of_tail hscan' (.terminated hdecl'), .leaf hrewords⟩
  | bare hbare hdecl =>
      obtain ⟨text', htwo, hread⟩ := readDeclaration_reword f hrest hscan hdecl
      refine ⟨text' ++ rest', htwo, fun first' => ?_⟩
      obtain ⟨hscan', d', hdecl', hrewords⟩ := hread first'
      exact ⟨_, _, readStatement_of_tail hscan' (.bare (by rwa [hrest]) hdecl'), .leaf hrewords⟩

theorem readItem_of_readStatement {before : List Char} {first : Cursor} {c : Char} {cs : List Char}
    (hat : c ≠ '@') (hmark : (c :: cs).take 2 ≠ ['/', '*']) :
    readItem before first c cs = readStatement before first (c :: cs) := by
  unfold readItem
  rw [if_neg hat]
  cases cs with
  | nil => rfl
  | cons d ds =>
      refine if_neg fun h => hmark ?_
      obtain ⟨rfl, rfl⟩ := h
      rfl

theorem readItem_of_readAtRule (before : List Char) (first : Cursor) (cs : List Char) :
    readItem before first '@' cs = readAtRule before first cs := by
  unfold readItem
  exact if_pos rfl

/-- An item is read with its value reworded if it has one, provided that what follows it begins
alike. -/
theorem readItem_reword (f : Word → Option Word) {before : List Char} {first last : Cursor}
    {c : Char} {cs rest rest' : List Char} {item : Item} (hrest : rest'.head? = rest.head?)
    (h : readItem before first c cs = .ok (item, last, rest)) :
    ∃ cs', ∀ first', ∃ item' last',
      readItem before first' c cs' = .ok (item', last', rest') ∧ item.Rewords f item' := by
  by_cases hat : c = '@'
  · subst hat
    rw [readItem_of_readAtRule] at h
    obtain ⟨cs', hread⟩ := readAtRule_reword f hrest h
    refine ⟨cs', fun first' => ?_⟩
    rw [readItem_of_readAtRule]
    exact hread first'
  · by_cases hmark : (c :: cs).take 2 = ['/', '*']
    · obtain ⟨rfl, hcs⟩ := List.cons.inj hmark
      have hstar : cs.take 1 = ['*'].take 1 := hcs
      obtain ⟨ds, rfl, -⟩ := cons_of_take_succ hstar
      obtain ⟨inside', hread⟩ := readComment_reword f rest' h
      exact ⟨'*' :: inside', hread⟩
    · rw [readItem_of_readStatement hat hmark] at h
      obtain ⟨source', htwo, hread⟩ := readStatement_reword f hrest h
      obtain ⟨cs', rfl, -⟩ := cons_of_take_succ htwo
      refine ⟨cs', fun first' => ?_⟩
      rw [readItem_of_readStatement hat (by rwa [htwo])]
      exact hread first'

/-- Whether an open block is another one with the nodes before it reworded, up to places. -/
structure Frame.Rewords (f : Word → Option Word) (frame frame' : Frame) : Prop where
  before : frame'.before = frame.before
  heading : frame'.heading = frame.heading
  preceding : List.Forall₂ (Node.Rewords f) frame.preceding frame'.preceding

theorem editAll_of_forall₂ {f : Word → Option Word} {nodes nodes' : List Node}
    (h : List.Forall₂ (Node.Rewords f) nodes nodes') :
    Node.editAll Node.withoutSource nodes' = Node.editAll Node.withoutSource
      (Node.editAll (Node.mapDeclaration (Declaration.reword f)) nodes) := by
  induction h with
  | nil => rfl
  | cons hnode _ ih =>
      rw [Node.editAll, Node.editAll, Node.editAll, ih]
      rw [hnode]

theorem Frame.Rewords.close {f : Word → Option Word} {frame frame' : Frame}
    (h : frame.Rewords f frame') {nodes nodes' : List Node}
    (hnodes : List.Forall₂ (Node.Rewords f) nodes nodes') (after : List Char)
    (last last' : Cursor) :
    (frame.close nodes after last).Rewords f (frame'.close nodes' after last') := by
  have hedit := editAll_of_forall₂ hnodes
  rw [Node.Rewords, Frame.close, Frame.close, h.heading, h.before]
  cases frame.heading with
  | rule selector between =>
      simp only [Node.edit, Node.mapDeclaration, Node.withoutSource, hedit]
  | atRule name afterName params between =>
      simp only [Node.edit, Node.mapDeclaration, Node.withoutSource, hedit]

theorem readNodes_nil {before source : List Char}
    (hsplit : Text.splitHead isSeparator source = (before, [])) (nodes : List Node)
    (cur : Cursor) :
    readNodes [] nodes cur source = .ok ⟨nodes.reverse, String.ofList before⟩ := by
  rw [readNodes]
  split
  · rename_i h
    rw [hsplit] at h
    rw [(Prod.mk.inj h).1]
  · rename_i h
    rw [hsplit] at h
    cases (Prod.mk.inj h).2

theorem readNodes_close {before cs source : List Char}
    (hsplit : Text.splitHead isSeparator source = (before, '\x7d' :: cs)) (frame : Frame)
    (outer : List Frame) (nodes : List Node) (cur : Cursor) :
    readNodes (frame :: outer) nodes cur source =
      readNodes outer
        (frame.close nodes.reverse before ((cur.advanceAll before).advance '\x7d') ::
          frame.preceding) ((cur.advanceAll before).advance '\x7d') cs := by
  rw [readNodes]
  split
  · rename_i h
    rw [hsplit] at h
    cases (Prod.mk.inj h).2
  · rename_i h
    rw [hsplit] at h
    obtain ⟨rfl, htail⟩ := Prod.mk.inj h
    obtain ⟨rfl, rfl⟩ := List.cons.inj htail
    rfl

/-- After an item the reader goes on in the same block or in the block that the item opens. -/
theorem readNodes_item {before cs rest source : List Char} {c : Char} {item : Item}
    {next cur : Cursor} (hsplit : Text.splitHead isSeparator source = (before, c :: cs))
    (hc : c ≠ '\x7d')
    (hitem : readItem before (cur.advanceAll before) c cs = .ok (item, next, rest))
    (frames : List Frame) (nodes : List Node) :
    readNodes frames nodes cur source =
      match item with
      | .leaf node => readNodes frames (node :: nodes) next rest
      | .opening heading brace =>
        readNodes (⟨before, heading, cur.advanceAll before, brace, nodes⟩ :: frames) [] next
          rest := by
  rw [readNodes]
  split
  · rename_i h
    rw [hsplit] at h
    cases (Prod.mk.inj h).2
  · rename_i h
    rw [hsplit] at h
    obtain ⟨rfl, htail⟩ := Prod.mk.inj h
    obtain ⟨rfl, rfl⟩ := List.cons.inj htail
    rw [dif_neg hc]
    split
    all_goals
      rename_i h
      rw [hitem] at h
      cases h
      try rfl

/-- The head of a source is kept where an item begins with the same character. -/
theorem head?_append_cons (before : List Char) (c : Char) (cs cs' : List Char) :
    (before ++ c :: cs').head? = (before ++ c :: cs).head? := by
  cases before <;> rfl

theorem splitHead_same {before cs source : List Char} {c : Char}
    (hsplit : Text.splitHead isSeparator source = (before, c :: cs)) (cs' : List Char) :
    Text.splitHead isSeparator (before ++ c :: cs') = (before, c :: cs') := by
  obtain ⟨-, hall, hstop⟩ := Text.splitHead_eq_iff.1 hsplit
  exact Text.splitHead_eq_iff.2 ⟨rfl, hall, hstop⟩

/-- What is left of a source has a reworded form that begins alike and that is read to the reworded
sheet, whatever was read before it. -/
theorem readNodes_reword (f : Word → Option Word) {frames : List Frame} {nodes : List Node}
    {cur : Cursor} {source : List Char} {sheet : Sheet}
    (h : readNodes frames nodes cur source = .ok sheet) :
    ∃ source', source'.head? = source.head? ∧ ∀ frames' nodes' cur',
      List.Forall₂ (Frame.Rewords f) frames frames' →
      List.Forall₂ (Node.Rewords f) nodes nodes' →
      ∃ sheet', readNodes frames' nodes' cur' source' = .ok sheet' ∧ sheet.Rewords f sheet' := by
  fun_induction readNodes frames nodes cur source with
  | case1 nodes cur source after hsplit =>
      obtain rfl := Except.ok.inj h
      refine ⟨source, rfl, fun frames' nodes' cur' hframes hnodes => ?_⟩
      cases hframes
      refine ⟨_, readNodes_nil hsplit nodes' cur', ?_⟩
      simp only [Sheet.Rewords, Sheet.withoutSources, Sheet.reword, Sheet.mapDeclarations,
        Sheet.edit, editAll_of_forall₂ (List.rel_reverse hnodes)]
  | case2 => cases h
  | case3 => cases h
  | case4 nodes cur source before cs first frame outer hsplit last ih =>
      rw [List.unattach_reverse, List.unattach_attach] at ih
      obtain ⟨cs', hhead, hread⟩ := ih h
      have hsource := (Text.splitHead_eq_iff.1 hsplit).1
      refine ⟨before ++ '\x7d' :: cs', ?_, fun frames' nodes' cur' hframes hnodes => ?_⟩
      · rw [← hsource]
        exact head?_append_cons before '\x7d' cs cs'
      · cases hframes with
        | cons hframe houter =>
            rw [readNodes_close (splitHead_same hsplit cs')]
            exact hread _ _ _ houter
              (.cons (hframe.close (List.rel_reverse hnodes) before last _) hframe.preceding)
  | case5 => cases h
  | case6 frames nodes cur source before c cs hsplit first hc node next rest hitem ih =>
      obtain ⟨rest', hhead, hread⟩ := ih h
      obtain ⟨cs', hreadItem⟩ := readItem_reword f hhead hitem
      have hsource := (Text.splitHead_eq_iff.1 hsplit).1
      refine ⟨before ++ c :: cs', ?_, fun frames' nodes' cur' hframes hnodes => ?_⟩
      · rw [← hsource]
        exact head?_append_cons before c cs cs'
      · obtain ⟨item', next', hitem', hrewords⟩ := hreadItem (cur'.advanceAll before)
        rw [readNodes_item (splitHead_same hsplit cs') hc hitem']
        cases hrewords with
        | leaf hnode => exact hread frames' _ next' hframes (.cons hnode hnodes)
  | case7 frames nodes cur source before c cs hsplit first hc heading brace next rest hitem ih =>
      obtain ⟨rest', hhead, hread⟩ := ih h
      obtain ⟨cs', hreadItem⟩ := readItem_reword f hhead hitem
      have hsource := (Text.splitHead_eq_iff.1 hsplit).1
      refine ⟨before ++ c :: cs', ?_, fun frames' nodes' cur' hframes hnodes => ?_⟩
      · rw [← hsource]
        exact head?_append_cons before c cs cs'
      · obtain ⟨item', next', hitem', hrewords⟩ := hreadItem (cur'.advanceAll before)
        rw [readNodes_item (splitHead_same hsplit cs') hc hitem']
        cases hrewords with
        | opening => exact hread _ [] next' (.cons ⟨rfl, rfl, hnodes⟩ hframes) .nil

end Reader

/-- The text of a reworded sheet is read as that sheet again. -/
theorem Sheet.exists_parse_reword (f : Word → Option Word) {file : Option String} {source : String}
    {sheet : Sheet} (h : Sheet.parse file source = .ok sheet) :
    ∃ again, Sheet.parse file (sheet.reword f).render = .ok again ∧
      again.withoutSources = (sheet.reword f).withoutSources := by
  obtain ⟨source', -, hagain⟩ := Reader.readNodes_reword f (Reader.parse_eq_ok_iff.1 h)
  obtain ⟨again, hread, hsame⟩ := hagain [] [] Cursor.start .nil .nil
  have hsource : (sheet.reword f).render.toList = source' := by
    rw [← Sheet.render_withoutSources, ← hsame, Sheet.render_withoutSources,
      Reader.toList_render_readNodes hread]
    rfl
  exact ⟨again, Reader.parse_eq_ok_iff.2 (hsource ▸ hread), hsame⟩

/--
Words that are put in the place of words among the values of a sheet change those values in its text
and nothing else, and the new text is read as the changed sheet, up to sources.
-/
theorem Sheet.parse_reword (f : Word → Option Word) {file : Option String} {source : String}
    {sheet : Sheet} (h : Sheet.parse file source = .ok sheet) :
    Piece.join sheet.pieces = source ∧
      sheet.pieces.filterMap Piece.value? = sheet.declarations.map Declaration.value ∧
      (sheet.reword f).render = Piece.join (sheet.pieces.map (Piece.reword f)) ∧
      ∃ again, Sheet.parse file (sheet.reword f).render = .ok again ∧
        again.withoutSources = (sheet.reword f).withoutSources := by
  refine ⟨?_, sheet.values_pieces, ?_, Sheet.exists_parse_reword f h⟩
  · rw [sheet.join_pieces, Sheet.render_parse h]
  · rw [← Sheet.pieces_reword, Sheet.join_pieces]

/-- Red and blue are exchanged, and every other word stays. -/
def swapColors (word : Word) : Option Word :=
  if word.text = "red" then Word.ofText? "deep-blue"
  else if word.text = "blue" then Word.ofText? "red"
  else none

/-- Values after an escape, a comment and a string, with a mark and without, in nested blocks. -/
def coloredSource : String :=
  "@media (a;b) \x7b\na\\:b\x7bp\\:red !IMPORTANT ;;" ++
    "/* : */q: blue\x7dr/*;*/:\"red\"\x7d t:red"

theorem Sheet.parse_reword_colored :
    ∃ sheet again, Sheet.parse none coloredSource = .ok sheet ∧
      (sheet.reword swapColors).render =
        "@media (a;b) \x7b\na\\:b\x7bp\\:deep-blue !IMPORTANT ;;" ++
          "/* : */q: red\x7dr/*;*/:\"red\"\x7d t:deep-blue" ∧
      Sheet.parse none (sheet.reword swapColors).render = .ok again ∧
      again.withoutSources = (sheet.reword swapColors).withoutSources := by
  have htext : (Sheet.parse none coloredSource).toOption.map
      (fun sheet => (sheet.reword swapColors).render) =
      some ("@media (a;b) \x7b\na\\:b\x7bp\\:deep-blue !IMPORTANT ;;" ++
        "/* : */q: red\x7dr/*;*/:\"red\"\x7d t:deep-blue") := by
    decide +kernel
  cases h : Sheet.parse none coloredSource with
  | ok sheet =>
      rw [h] at htext
      obtain ⟨-, -, -, again, hagain, hsame⟩ := Sheet.parse_reword swapColors h
      exact ⟨sheet, again, rfl, Option.some.inj htext, hagain, hsame⟩
  | error e =>
      rw [h] at htext
      cases htext

end StyleAudit
