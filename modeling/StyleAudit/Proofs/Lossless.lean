import StyleAudit.Sheet.Reader

/-!
A sheet that was read prints back to its source.

The reader keeps open blocks as frames. `taken` is the text that frames and nodes account for, and
the invariant of the reader is that this text, followed by what is left of the source, is what
the finished sheet prints.
-/

namespace StyleAudit

def Declaration.mark (d : Declaration) : String :=
  if d.important then d.raws.important.getD importantMark else ""

namespace Reader

/-- What a heading prints, without the brace that follows it. -/
def Heading.text : Heading → List Char
  | .rule selector between => selector ++ between
  | .atRule name afterName params between => '@' :: name ++ afterName ++ params ++ between

/-- What an item prints, the text before it included. -/
def Item.text (before : List Char) : Item → List Char
  | .leaf node => node.render.toList
  | .opening heading _ => before ++ heading.text ++ ['\x7b']

/-- The text that open blocks and the nodes of the innermost one have taken. -/
def taken : List Frame → List Node → List Char
  | [], nodes => (Node.renderAll nodes.reverse).toList
  | frame :: outer, nodes =>
      taken outer frame.preceding ++ frame.before ++ frame.heading.text ++
        '\x7b' :: (Node.renderAll nodes.reverse).toList

theorem renderAll_append (xs ys : List Node) :
    Node.renderAll (xs ++ ys) = Node.renderAll xs ++ Node.renderAll ys := by
  induction xs with
  | nil => simp [Node.renderAll]
  | cons node nodes ih => simp [Node.renderAll, ih, String.append_assoc]

theorem toList_renderAll_reverse_cons (node : Node) (nodes : List Node) :
    (Node.renderAll (node :: nodes).reverse).toList =
      (Node.renderAll nodes.reverse).toList ++ node.render.toList := by
  rw [List.reverse_cons, renderAll_append]
  simp [Node.renderAll]

/-- A node that is read in the innermost block adds its own text to what is taken. -/
theorem taken_cons (frames : List Frame) (node : Node) (nodes : List Node) :
    taken frames (node :: nodes) = taken frames nodes ++ node.render.toList := by
  cases frames with
  | nil => exact toList_renderAll_reverse_cons node nodes
  | cons frame outer =>
      simp only [taken, toList_renderAll_reverse_cons]
      simp

/-- A frame that is closed prints its heading, its children and what stood before the brace. -/
theorem Frame.toList_render_close (f : Frame) (nodes : List Node) (after : List Char)
    (last : Cursor) :
    (f.close nodes after last).render.toList =
      f.before ++ f.heading.text ++ '\x7b' :: (Node.renderAll nodes).toList ++ after ++
        ['\x7d'] := by
  unfold Frame.close
  cases f.heading with
  | rule selector between => simp [Node.render, Heading.text]
  | atRule name afterName params between => simp [Node.render, Heading.text]

/-- The last character that satisfies `p` stands between the two parts. -/
theorem splitLast_append {p : Char → Bool} {cs head tail : List Char}
    (h : splitLast p cs = some (head, tail)) : ∃ c, p c = true ∧ head ++ c :: tail = cs := by
  induction cs generalizing head with
  | nil => simp [splitLast] at h
  | cons c cs ih =>
      rw [splitLast] at h
      split at h
      · rename_i front back hfound
        simp only [Option.some.injEq, Prod.mk.injEq] at h
        obtain ⟨rfl, rfl⟩ := h
        obtain ⟨d, hd, happ⟩ := ih hfound
        exact ⟨d, hd, by rw [List.cons_append, happ]⟩
      · split at h
        · rename_i hc
          simp only [Option.some.injEq, Prod.mk.injEq] at h
          obtain ⟨rfl, rfl⟩ := h
          exact ⟨c, hc, rfl⟩
        · simp at h

/-- A value is what is kept of it followed by its important mark. -/
theorem cutImportantMark_append (value : List Char) :
    (cutImportantMark value).1 ++ (cutImportantMark value).2.getD [] = value := by
  unfold cutImportantMark
  split
  · simp
  · rename_i head tail hsplit
    split
    · obtain ⟨c, hc, happ⟩ := splitLast_append hsplit
      have hbang : c = '!' := by simpa using hc
      have hhead := Text.splitTail_append isBlankChar head
      subst hbang
      simp only [Option.getD_some]
      rw [← List.append_assoc, hhead, happ]
    · simp

theorem colonOffset_after {n k : Nat} {r : Except FaultAt (Option Nat)}
    (h : colonOffset.after n r = .ok (some k)) : ∃ j, r = .ok (some j) ∧ k = n + j := by
  match r, h with
  | .ok (some j), h =>
      simp only [colonOffset.after, Except.ok.injEq, Option.some.injEq] at h
      exact ⟨j, rfl, h.symm⟩
  | .ok none, h => simp [colonOffset.after] at h
  | .error e, h => simp [colonOffset.after] at h

/-- A colon that was found in what follows some characters. -/
theorem colonOffset_after_spec {k limit n : Nat} {cs ds : List Char}
    {r : Except FaultAt (Option Nat)} (hds : cs.drop k = ds)
    (hr : ∀ {j}, r = .ok (some j) → j < limit - k ∧ ds[j]? = some ':')
    (h : colonOffset.after k r = .ok (some n)) : n < limit ∧ cs[n]? = some ':' := by
  obtain ⟨j, hj, rfl⟩ := colonOffset_after h
  obtain ⟨hlt, hget⟩ := hr hj
  refine ⟨by omega, ?_⟩
  rw [← hget, ← hds, List.getElem?_drop]

/-- The offset that is found lies before the limit and has a colon. -/
theorem colonOffset_spec {mode : Mode} {limit : Nat} {cur : Cursor} {cs : List Char} {n : Nat}
    (h : colonOffset mode limit cur cs = .ok (some n)) : n < limit ∧ cs[n]? = some ':' := by
  fun_induction colonOffset mode limit cur cs generalizing n
  case case5 hlimit =>
      obtain rfl := Option.some.inj (Except.ok.inj h)
      exact ⟨Nat.pos_of_ne_zero hlimit, rfl⟩
  -- Elsewhere the reading has ended without a colon, or it goes on.
  all_goals first
    | cases h
    | exact colonOffset_after_spec rfl (by assumption) h

/-- A text is what comes before the place of a character, the character, and what follows it. -/
theorem take_append_cons_drop {text : List Char} {n : Nat} {c : Char}
    (h : text[n]? = some c) : text.take n ++ c :: text.drop (n + 1) = text := by
  obtain ⟨hn, hc⟩ := List.getElem?_eq_some_iff.1 h
  rw [← hc, List.getElem_cons_drop, List.take_append_drop]

/-- The printed form of a declaration puts its parts one after the other. -/
theorem toList_render_decl (d : Declaration) :
    d.render.toList = d.raws.before.toList ++ d.prop.toList ++ d.raws.between.toList ++
      d.value.toList ++ d.mark.toList ++ d.raws.afterValue.toList ++
      (if d.raws.semicolon then [';'] else []) := by
  rw [Declaration.render, ← Declaration.mark]
  cases d.raws.semicolon <;> simp

/-- The mark that is kept or left out is the one that was cut off. -/
theorem toList_mark_of_cut (d : Declaration) (mark : Option (List Char))
    (himportant : d.important = mark.isSome)
    (hraw : d.raws.important =
      if mark.map String.ofList = some importantMark then none else mark.map String.ofList) :
    d.mark.toList = mark.getD [] := by
  rw [Declaration.mark, himportant, hraw]
  cases mark with
  | none => rfl
  | some m =>
      by_cases hm : String.ofList m = importantMark
      · simp [← hm]
      · simp [hm]

/-- A declaration is read from a statement by splitting it at a colon and trimming both sides. -/
theorem readDeclaration_cases {before : List Char} {first : Cursor} {source text : List Char}
    {semicolon : Bool} {d : Declaration}
    (h : readDeclaration before first source text semicolon = .ok d) :
    ∃ n prop propSpace valueSpace rest trimmed afterValue value mark,
      colonOffset .plain text.length first source = .ok (some n) ∧
      Text.splitTail isBlankChar (text.take n) = (prop, propSpace) ∧ prop ≠ [] ∧
      Text.splitHead isBlankChar (text.drop (n + 1)) = (valueSpace, rest) ∧
      Text.splitTail isBlankChar rest = (trimmed, afterValue) ∧
      cutImportantMark trimmed = (value, mark) ∧
      d = {
        prop := String.ofList prop
        value := String.ofList value
        important := mark.isSome
        raws := {
          before := String.ofList before
          between := String.ofList (propSpace ++ ':' :: valueSpace)
          important := if mark.map String.ofList = some importantMark then none
            else mark.map String.ofList
          afterValue := String.ofList afterValue
          semicolon := semicolon }
        source := some (first.rangeTo
          (first.advanceAll (text.take n ++ ':' :: (valueSpace ++ trimmed)))) } := by
  unfold readDeclaration at h
  split at h
  · simp at h
  · simp at h
  · rename_i n hn
    dsimp only at h
    split at h
    · simp at h
    · rename_i hprop
      simp only [Except.ok.injEq] at h
      refine ⟨n, _, _, _, _, _, _, _, _, hn, rfl, ?_, rfl, rfl, rfl, h.symm⟩
      simpa using hprop

/-- The parts of a declaration are the text of its statement. -/
theorem declaration_parts {source text rest : List Char} {first : Cursor} {n : Nat}
    {prop propSpace valueSpace tail trimmed afterValue value : List Char}
    {mark : Option (List Char)} (hsource : text ++ rest = source)
    (hcolon : colonOffset .plain text.length first source = .ok (some n))
    (hprop : Text.splitTail isBlankChar (text.take n) = (prop, propSpace))
    (hspace : Text.splitHead isBlankChar (text.drop (n + 1)) = (valueSpace, tail))
    (htrim : Text.splitTail isBlankChar tail = (trimmed, afterValue))
    (hmark : cutImportantMark trimmed = (value, mark)) :
    text.take n = prop ++ propSpace ∧ trimmed = value ++ mark.getD [] ∧
      text = text.take n ++ ':' :: (valueSpace ++ (trimmed ++ afterValue)) := by
  obtain ⟨hlt, hat⟩ := colonOffset_spec hcolon
  rw [← hsource, List.getElem?_append_left hlt] at hat
  have hsplit := take_append_cons_drop hat
  have htake := Text.splitTail_append isBlankChar (text.take n)
  have hdrop := Text.splitHead_append isBlankChar (text.drop (n + 1))
  have htail := Text.splitTail_append isBlankChar tail
  have hvalue := cutImportantMark_append trimmed
  rw [hprop] at htake
  rw [hspace] at hdrop
  rw [htrim] at htail
  rw [hmark] at hvalue
  refine ⟨htake.symm, hvalue.symm, ?_⟩
  rw [htail, hdrop, hsplit]

/-- A declaration prints the text that was before it and the statement it was read from. -/
theorem toList_render_readDeclaration {before : List Char} {first : Cursor}
    {source text rest : List Char} {semicolon : Bool} {d : Declaration}
    (hsource : text ++ rest = source)
    (h : readDeclaration before first source text semicolon = .ok d) :
    d.render.toList = before ++ text ++ (if semicolon then [';'] else []) := by
  obtain ⟨n, prop, propSpace, valueSpace, tail, trimmed, afterValue, value, mark, hcolon, hprop, -,
    hspace, htrim, hmark, hd⟩ := readDeclaration_cases h
  obtain ⟨htake, hvalue, htext⟩ := declaration_parts hsource hcolon hprop hspace htrim hmark
  rw [toList_render_decl, toList_mark_of_cut d mark (by rw [hd]) (by rw [hd]), htext, htake,
    hvalue, hd]
  simp

/-- A comment is read by trimming what stands between its marks. -/
theorem readComment_cases {before : List Char} {first last : Cursor} {inside rest : List Char}
    {item : Item} (h : readComment before first inside = .ok (item, last, rest)) :
    ∃ body left trimmed text right,
      commentBody inside = some (body, rest) ∧
      Text.splitHead isBlankChar body = (left, trimmed) ∧
      Text.splitTail isBlankChar trimmed = (text, right) ∧
      last = first.advanceAll ('/' :: '*' :: body ++ ['*', '/']) ∧
      item = .leaf (.comment ⟨String.ofList text,
        ⟨String.ofList before, String.ofList left, String.ofList right⟩,
        some (first.rangeTo last)⟩) := by
  unfold readComment at h
  split at h
  · simp at h
  · rename_i body tail hbody
    simp only [Except.ok.injEq, Prod.mk.injEq] at h
    obtain ⟨rfl, rfl, rfl⟩ := h
    exact ⟨body, _, _, _, _, hbody, rfl, rfl, rfl, rfl⟩

/-- The parts of a comment are what stands between its marks. -/
theorem comment_parts {inside rest body left trimmed text right : List Char}
    (hbody : commentBody inside = some (body, rest))
    (hleft : Text.splitHead isBlankChar body = (left, trimmed))
    (hright : Text.splitTail isBlankChar trimmed = (text, right)) :
    body = left ++ (text ++ right) ∧ inside = body ++ '*' :: '/' :: rest := by
  have hhead := Text.splitHead_append isBlankChar body
  have htail := Text.splitTail_append isBlankChar trimmed
  rw [hleft] at hhead
  rw [hright] at htail
  refine ⟨?_, (commentBody_append hbody).symm⟩
  rw [htail, hhead]

theorem text_readComment {before : List Char} {first last : Cursor} {inside rest : List Char}
    {item : Item} (h : readComment before first inside = .ok (item, last, rest)) :
    item.text before ++ rest = before ++ '/' :: '*' :: inside := by
  obtain ⟨body, left, trimmed, text, right, hbody, hleft, hright, -, rfl⟩ := readComment_cases h
  obtain ⟨hparts, hinside⟩ := comment_parts hbody hleft hright
  rw [hinside, hparts]
  simp [Item.text, Node.render, Comment.render]

/-- What follows a statement or a heading: its block, its semicolon, or neither. -/
inductive Ending : List Char → Prop where
  | block (rest : List Char) : Ending ('\x7b' :: rest)
  | semicolon (rest : List Char) : Ending (';' :: rest)
  | bare {rest : List Char} (hrest : ∀ c ∈ rest.head?, c ≠ '\x7b' ∧ c ≠ ';') : Ending rest

theorem Ending.of (rest : List Char) : Ending rest := by
  cases rest with
  | nil => exact .bare nofun
  | cons c cs =>
      by_cases hopen : c = '\x7b'
      · exact hopen ▸ .block cs
      by_cases hsemi : c = ';'
      · exact hsemi ▸ .semicolon cs
      · exact .bare fun d hd => Option.some.inj hd ▸ ⟨hopen, hsemi⟩

/-- The statement or heading that an at-rule is read as, by what follows its parameters. -/
inductive AtRuleTail (before : List Char) (first here : Cursor)
    (name afterName params between : List Char) :
    List Char → Item → Cursor → List Char → Prop where
  | block {rest : List Char} :
      AtRuleTail before first here name afterName params between ('\x7b' :: rest)
        (.opening (.atRule name afterName params between) here) (here.advance '\x7b') rest
  | terminated {rest : List Char} :
      AtRuleTail before first here name afterName params between (';' :: rest)
        (.leaf (.statement (String.ofList name) (String.ofList params)
          ⟨String.ofList before, String.ofList afterName, String.ofList between, "", true⟩
          (some (first.rangeTo (here.advance ';'))))) (here.advance ';') rest
  | bare {rest : List Char} (hrest : ∀ c ∈ rest.head?, c ≠ '\x7b' ∧ c ≠ ';') :
      AtRuleTail before first here name afterName params between rest
        (.leaf (.statement (String.ofList name) (String.ofList params)
          ⟨String.ofList before, String.ofList afterName, String.ofList between, "", false⟩
          (some (first.rangeTo here)))) here rest

/-- An at-rule ends in some way, whatever follows its parameters. -/
theorem AtRuleTail.exists_of (before : List Char) (first here : Cursor)
    (name afterName params between left : List Char) : ∃ item last rest,
      AtRuleTail before first here name afterName params between left item last rest := by
  cases Ending.of left with
  | block rest => exact ⟨_, _, rest, .block⟩
  | semicolon rest => exact ⟨_, _, rest, .terminated⟩
  | bare hrest => exact ⟨_, _, left, .bare hrest⟩

/-- An at-rule is read from its name, its parameters and what ends it. -/
theorem readAtRule_of_parts {before : List Char} {first last : Cursor}
    {inside name tail text left afterName trimmed params between rest : List Char} {item : Item}
    (hname : Text.splitHead isNameChar inside = (name, tail)) (hne : name ≠ [])
    (hscan : scan .plain 0 ((first.advance '@').advanceAll name) tail = .ok (text, left))
    (hspace : Text.splitHead isBlankChar text = (afterName, trimmed))
    (hparams : Text.splitTail isBlankChar trimmed = (params, between))
    (htail : AtRuleTail before first (((first.advance '@').advanceAll name).advanceAll text)
      name afterName params between left item last rest) :
    readAtRule before first inside = .ok (item, last, rest) := by
  unfold readAtRule
  simp only [hname, hscan, hspace, hparams, List.isEmpty_iff, hne, if_false]
  cases htail with
  | block => rfl
  | terminated => rfl
  | bare hbare =>
      cases left with
      | nil => rfl
      | cons c cs =>
          obtain ⟨hopen, hsemi⟩ := hbare c rfl
          simp only [hopen, hsemi, if_false]

/-- An at-rule is read as its name, its trimmed parameters, and what ends them. -/
theorem readAtRule_cases {before : List Char} {first last : Cursor} {inside rest : List Char}
    {item : Item} (h : readAtRule before first inside = .ok (item, last, rest)) :
    ∃ name tail text left afterName trimmed params between,
      Text.splitHead isNameChar inside = (name, tail) ∧ name ≠ [] ∧
      scan .plain 0 ((first.advance '@').advanceAll name) tail = .ok (text, left) ∧
      Text.splitHead isBlankChar text = (afterName, trimmed) ∧
      Text.splitTail isBlankChar trimmed = (params, between) ∧
      AtRuleTail before first (((first.advance '@').advanceAll name).advanceAll text)
        name afterName params between left item last rest := by
  obtain ⟨name, tail, hname⟩ : ∃ name tail,
      Text.splitHead isNameChar inside = (name, tail) := ⟨_, _, rfl⟩
  by_cases hne : name = []
  · simp [readAtRule, hname, hne] at h
  cases hscan : scan .plain 0 ((first.advance '@').advanceAll name) tail with
  | error e => simp [readAtRule, hname, hne, hscan] at h
  | ok parts =>
      obtain ⟨text, left⟩ := parts
      obtain ⟨afterName, trimmed, hspace⟩ : ∃ afterName trimmed,
          Text.splitHead isBlankChar text = (afterName, trimmed) := ⟨_, _, rfl⟩
      obtain ⟨params, between, hparams⟩ : ∃ params between,
          Text.splitTail isBlankChar trimmed = (params, between) := ⟨_, _, rfl⟩
      obtain ⟨_, _, _, htail⟩ := AtRuleTail.exists_of before first
        (((first.advance '@').advanceAll name).advanceAll text) name afterName params between left
      rw [readAtRule_of_parts hname hne hscan hspace hparams htail] at h
      cases h
      exact ⟨name, tail, text, left, afterName, trimmed, params, between, hname, hne, hscan,
        hspace, hparams, htail⟩

/-- The parts of an at-rule are the text after its mark. -/
theorem atRule_parts {inside name tail text left afterName trimmed params between : List Char}
    {cur : Cursor} (hname : Text.splitHead isNameChar inside = (name, tail))
    (hscan : scan .plain 0 cur tail = .ok (text, left))
    (hspace : Text.splitHead isBlankChar text = (afterName, trimmed))
    (hparams : Text.splitTail isBlankChar trimmed = (params, between)) :
    text = afterName ++ (params ++ between) ∧ inside = name ++ (text ++ left) := by
  have hhead := Text.splitHead_append isNameChar inside
  have hblank := Text.splitHead_append isBlankChar text
  have htail := Text.splitTail_append isBlankChar trimmed
  rw [hname] at hhead
  rw [hspace] at hblank
  rw [hparams] at htail
  refine ⟨?_, ?_⟩
  · rw [htail, hblank]
  · rw [scan_append hscan, hhead]

theorem text_readAtRule {before : List Char} {first last : Cursor} {inside rest : List Char}
    {item : Item} (h : readAtRule before first inside = .ok (item, last, rest)) :
    item.text before ++ rest = before ++ '@' :: inside := by
  obtain ⟨name, tail, text, left, afterName, trimmed, params, between, hname, -, hscan, hspace,
    hparams, htail⟩ := readAtRule_cases h
  obtain ⟨htext, hinside⟩ := atRule_parts hname hscan hspace hparams
  rw [hinside, htext]
  cases htail with
  | block => simp [Item.text, Heading.text]
  | terminated => simp [Item.text, Node.render]
  | bare => simp [Item.text, Node.render]

/-- The declaration or heading that a statement is read as, by what follows it. -/
inductive StatementTail (before : List Char) (first : Cursor) (source text : List Char) :
    List Char → Item → Cursor → List Char → Prop where
  | block {rest selector between : List Char}
      (hsplit : Text.splitTail isBlankChar text = (selector, between)) :
      StatementTail before first source text ('\x7b' :: rest)
        (.opening (.rule selector between) (first.advanceAll text))
        ((first.advanceAll text).advance '\x7b') rest
  | terminated {rest : List Char} {d : Declaration}
      (hdecl : readDeclaration before first source text true = .ok d) :
      StatementTail before first source text (';' :: rest) (.leaf (.decl d))
        ((first.advanceAll text).advance ';') rest
  | bare {rest : List Char} {d : Declaration}
      (hrest : ∀ c ∈ rest.head?, c ≠ '\x7b' ∧ c ≠ ';')
      (hdecl : readDeclaration before first source text false = .ok d) :
      StatementTail before first source text rest (.leaf (.decl d)) (first.advanceAll text) rest

/-- A statement that ends with a semicolon is read as its declaration is. -/
theorem readStatement_semicolon {before : List Char} {first : Cursor}
    {source text rest : List Char} (hscan : scan .plain 0 first source = .ok (text, ';' :: rest)) :
    readStatement before first source =
      (readDeclaration before first source text true).map fun d =>
        (.leaf (.decl d), (first.advanceAll text).advance ';', rest) := by
  simp only [readStatement, hscan]
  cases readDeclaration before first source text true <;> rfl

/-- A statement that nothing ends is read as its declaration is. -/
theorem readStatement_bare {before : List Char} {first : Cursor} {source text left : List Char}
    (hscan : scan .plain 0 first source = .ok (text, left))
    (hleft : ∀ c ∈ left.head?, c ≠ '\x7b' ∧ c ≠ ';') :
    readStatement before first source =
      (readDeclaration before first source text false).map fun d =>
        (.leaf (.decl d), first.advanceAll text, left) := by
  simp only [readStatement, hscan]
  cases left with
  | nil => cases readDeclaration before first source text false <;> rfl
  | cons c cs =>
      obtain ⟨hopen, hsemi⟩ := hleft c rfl
      simp only [hopen, hsemi, if_false]
      cases readDeclaration before first source text false <;> rfl

/-- A statement is read from its text and what ends it. -/
theorem readStatement_of_tail {before : List Char} {first last : Cursor}
    {source text left rest : List Char} {item : Item}
    (hscan : scan .plain 0 first source = .ok (text, left))
    (htail : StatementTail before first source text left item last rest) :
    readStatement before first source = .ok (item, last, rest) := by
  cases htail with
  | block hsplit =>
      simp only [readStatement, hscan, hsplit]
      rfl
  | terminated hdecl =>
      rw [readStatement_semicolon hscan, hdecl]
      rfl
  | bare hbare hdecl =>
      rw [readStatement_bare hscan hbare, hdecl]
      rfl

/-- A statement is scanned to its end and then read as a heading or as a declaration. -/
theorem readStatement_cases {before : List Char} {first last : Cursor} {source rest : List Char}
    {item : Item} (h : readStatement before first source = .ok (item, last, rest)) :
    ∃ text left, scan .plain 0 first source = .ok (text, left) ∧
      StatementTail before first source text left item last rest := by
  cases hscan : scan .plain 0 first source with
  | error e => simp [readStatement, hscan] at h
  | ok parts =>
      obtain ⟨text, left⟩ := parts
      refine ⟨text, left, rfl, ?_⟩
      cases Ending.of left with
      | block back =>
          obtain ⟨selector, between, hsplit⟩ : ∃ selector between,
              Text.splitTail isBlankChar text = (selector, between) := ⟨_, _, rfl⟩
          rw [readStatement_of_tail hscan (.block hsplit)] at h
          cases h
          exact .block hsplit
      | semicolon back =>
          rw [readStatement_semicolon hscan] at h
          cases hdecl : readDeclaration before first source text true with
          | error e =>
              rw [hdecl] at h
              cases h
          | ok d =>
              rw [hdecl] at h
              cases h
              exact .terminated hdecl
      | bare hleft =>
          rw [readStatement_bare hscan hleft] at h
          cases hdecl : readDeclaration before first source text false with
          | error e =>
              rw [hdecl] at h
              cases h
          | ok d =>
              rw [hdecl] at h
              cases h
              exact .bare hleft hdecl

theorem text_readStatement {before : List Char} {first last : Cursor} {source rest : List Char}
    {item : Item} (h : readStatement before first source = .ok (item, last, rest)) :
    item.text before ++ rest = before ++ source := by
  obtain ⟨text, left, hscan, htail⟩ := readStatement_cases h
  have hsource := scan_append hscan
  cases htail with
  | block hsplit =>
      have htext := Text.splitTail_append isBlankChar text
      rw [hsplit] at htext
      rw [← hsource, ← htext]
      simp [Item.text, Heading.text]
  | terminated hdecl =>
      rw [← hsource, Item.text, Node.render, toList_render_readDeclaration hsource hdecl]
      simp
  | bare hrest hdecl =>
      rw [← hsource, Item.text, Node.render, toList_render_readDeclaration hsource hdecl]
      simp

/-- Reading one item splits the source: the item prints what it took. -/
theorem text_readItem {before : List Char} {first last : Cursor} {c : Char}
    {cs rest : List Char} {item : Item}
    (h : readItem before first c cs = .ok (item, last, rest)) :
    item.text before ++ rest = before ++ c :: cs := by
  unfold readItem at h
  split at h
  · rename_i hat
    rw [text_readAtRule h, hat]
  · split at h
    · exact text_readStatement h
    · rename_i d ds
      split at h
      · rename_i hmark
        rw [text_readComment h, hmark.1, hmark.2]
      · exact text_readStatement h

/-- Where the reader stands between two items. -/
structure State where
  frames : List Frame
  /-- The nodes of the innermost block, last first. -/
  nodes : List Node
  cur : Cursor
  source : List Char

/-- One turn of the reader: it closes a block, reads a whole node, or opens a block. -/
inductive Step : State → State → Prop where
  | close {frame : Frame} {outer : List Frame} {nodes : List Node} {cur last : Cursor}
      {source before cs : List Char}
      (hsplit : Text.splitHead isSeparator source = (before, '\x7d' :: cs))
      (hlast : last = (cur.advanceAll before).advance '\x7d') :
      Step ⟨frame :: outer, nodes, cur, source⟩
        ⟨outer, frame.close nodes.reverse before last :: frame.preceding, last, cs⟩
  | leaf {frames : List Frame} {nodes : List Node} {cur next : Cursor}
      {source before cs rest : List Char} {c : Char} {node : Node}
      (hsplit : Text.splitHead isSeparator source = (before, c :: cs))
      (hitem : readItem before (cur.advanceAll before) c cs = .ok (.leaf node, next, rest)) :
      Step ⟨frames, nodes, cur, source⟩ ⟨frames, node :: nodes, next, rest⟩
  | opening {frames : List Frame} {nodes : List Node} {cur brace next : Cursor}
      {source before cs rest : List Char} {c : Char} {heading : Heading}
      (hsplit : Text.splitHead isSeparator source = (before, c :: cs))
      (hitem : readItem before (cur.advanceAll before) c cs =
        .ok (.opening heading brace, next, rest)) :
      Step ⟨frames, nodes, cur, source⟩
        ⟨⟨before, heading, cur.advanceAll before, brace, nodes⟩ :: frames, [], next, rest⟩

/-- Whether only separators are left and no block is open, so that `sheet` is the answer. -/
def State.Ends (s : State) (sheet : Sheet) : Prop :=
  s.frames = [] ∧ ∃ after, Text.splitHead isSeparator s.source = (after, []) ∧
    sheet = ⟨s.nodes.reverse, String.ofList after⟩

/-- What every turn preserves holds in the state in which the reader ends. -/
theorem readNodes_preserves (Inv : State → Prop)
    (hstep : ∀ {a b : State}, Step a b → Inv a → Inv b)
    {frames : List Frame} {nodes : List Node} {cur : Cursor} {source : List Char} {sheet : Sheet}
    (hinv : Inv ⟨frames, nodes, cur, source⟩)
    (h : readNodes frames nodes cur source = .ok sheet) : ∃ s, Inv s ∧ s.Ends sheet := by
  fun_induction readNodes frames nodes cur source with
  | case1 nodes cur source after hsplit =>
      simp only [Except.ok.injEq] at h
      exact ⟨_, hinv, rfl, after, hsplit, h.symm⟩
  | case2 => simp at h
  | case3 => simp at h
  | case4 nodes cur source before cs first frame outer hsplit last ih =>
      rw [List.unattach_reverse, List.unattach_attach] at ih
      exact ih (hstep (.close hsplit rfl) hinv) h
  | case5 => simp at h
  | case6 frames nodes cur source before c cs hsplit first hc node next rest hitem ih =>
      exact ih (hstep (.leaf hsplit hitem) hinv) h
  | case7 frames nodes cur source before c cs hsplit first hc heading brace next rest hitem ih =>
      exact ih (hstep (.opening hsplit hitem) hinv) h

/-- One turn moves text from the source to what is taken. -/
theorem Step.taken_append {a b : State} (h : Step a b) :
    taken b.frames b.nodes ++ b.source = taken a.frames a.nodes ++ a.source := by
  cases h with
  | close hsplit hlast =>
      rename_i frame outer nodes cur last source before cs
      have hsource := Text.splitHead_append isSeparator source
      rw [hsplit] at hsource
      rw [taken_cons, Frame.toList_render_close, ← hsource]
      simp [taken]
  | leaf hsplit hitem =>
      rename_i frames nodes cur next source before cs rest c node
      have hsource := Text.splitHead_append isSeparator source
      have htext := text_readItem hitem
      rw [hsplit] at hsource
      rw [Item.text] at htext
      rw [taken_cons, List.append_assoc, htext, ← hsource]
  | opening hsplit hitem =>
      rename_i frames nodes cur brace next source before cs rest c heading
      have hsource := Text.splitHead_append isSeparator source
      have htext := text_readItem hitem
      rw [hsplit] at hsource
      rw [← hsource, ← htext]
      simp [taken, Item.text, Node.renderAll]

/-- The sheet prints what was taken already, followed by what is left of the source. -/
theorem toList_render_readNodes {frames : List Frame} {nodes : List Node} {cur : Cursor}
    {source : List Char} {sheet : Sheet} (h : readNodes frames nodes cur source = .ok sheet) :
    sheet.render.toList = taken frames nodes ++ source := by
  obtain ⟨s, hinv, hframes, after, hsplit, rfl⟩ := readNodes_preserves
    (fun s => taken s.frames s.nodes ++ s.source = taken frames nodes ++ source)
    (fun hstep hinv => (hstep.taken_append).trans hinv) rfl h
  have hsource := Text.splitHead_append isSeparator s.source
  rw [hsplit] at hsource
  rw [← hinv, hframes, ← hsource]
  simp [Sheet.render, taken]

/-- A source is read if the reader gets to its end, as the sheet that it has by then. -/
theorem parse_eq_ok_iff {file : Option String} {source : String} {sheet : Sheet} :
    Sheet.parse file source = .ok sheet ↔
      readNodes [] [] Cursor.start source.toList = .ok sheet := by
  unfold Sheet.parse
  cases readNodes [] [] Cursor.start source.toList with
  | ok read => rw [Except.ok.injEq, Except.ok.injEq]
  | error f => exact iff_of_false nofun nofun

theorem toList_render_parse {file : Option String} {source : String} {sheet : Sheet}
    (h : Sheet.parse file source = .ok sheet) : sheet.render.toList = source.toList := by
  rw [toList_render_readNodes (parse_eq_ok_iff.1 h)]
  simp [taken, Node.renderAll]

end Reader

/-- A sheet that was read prints back to its source. -/
theorem Sheet.render_parse {file : Option String} {source : String} {sheet : Sheet}
    (h : Sheet.parse file source = .ok sheet) : sheet.render = source := by
  rw [← String.toList_inj]
  exact Reader.toList_render_parse h

/-- Nested blocks, an escape, strings, stray semicolons and marks in two spellings. -/
def layeredSource : String :=
  "@media (a;b) \x7b\n a\\\x7b,b \x7b;p : red !IMPORTANT ;;q:\";\\\"\" !important\x7d/* é */\x7d @x"

theorem Sheet.render_parse_layered :
    ∃ sheet, Sheet.parse none layeredSource = .ok sheet ∧ sheet.render = layeredSource := by
  have hok : (Sheet.parse none layeredSource).isOk = true := by decide +kernel
  cases h : Sheet.parse none layeredSource with
  | ok sheet => exact ⟨sheet, rfl, Sheet.render_parse h⟩
  | error e => simp [h, Except.isOk, Except.toBool] at hok

end StyleAudit
