import StyleAudit.Proofs.CanonicalForm
import StyleAudit.Proofs.Items

/-!
Reading a source that goes on.

Text that is put behind a source is not looked at before the source has been read to its end, unless
the last node still waits for its semicolon. So a source that is read to a sheet whose last node is
complete is read alike with any text behind it, and the reader comes to that text with the nodes of
the sheet.
-/

namespace StyleAudit.Reader

/-- Whether the item could take more text in. -/
def Item.lacksSemicolon : Item → Bool
  | .leaf node => node.lacksSemicolon
  | .opening _ _ => false

variable {before : List Char} {first last : Cursor}

/-! ### Items -/

theorem readComment_append {inside rest : List Char} {item : Item} (text : List Char)
    (h : readComment before first inside = .ok (item, last, rest)) :
    readComment before first (inside ++ text) = .ok (item, last, rest ++ text) := by
  obtain ⟨body, left, trimmed, shown, right, hbody, hleft, hright, rfl, rfl⟩ := readComment_cases h
  have hmarks := commentBody_append_marks hbody (rest ++ text)
  rw [← List.cons_append, ← List.cons_append, ← List.append_assoc, commentBody_append hbody]
    at hmarks
  exact readComment_of_parts hmarks hleft hright

/-- What ends an at-rule stays when text is put behind it. -/
theorem AtRuleTail.append {here : Cursor} {name afterName params between left rest : List Char}
    {item : Item} (text : List Char)
    (h : AtRuleTail before first here name afterName params between left item last rest)
    (hended : item.lacksSemicolon → rest ≠ []) :
    left ≠ [] ∧ AtRuleTail before first here name afterName params between (left ++ text) item last
      (rest ++ text) := by
  cases h with
  | block => exact ⟨List.cons_ne_nil _ _, .block⟩
  | terminated => exact ⟨List.cons_ne_nil _ _, .terminated⟩
  | bare hbare =>
      have hne := hended rfl
      exact ⟨hne, .bare (by rwa [List.head?_append_of_ne_nil _ hne])⟩

theorem scan_append_right {cur : Cursor} {cs text left : List Char} (more : List Char)
    (hne : left ≠ []) (h : scan .plain 0 cur cs = .ok (text, left)) :
    scan .plain 0 cur (cs ++ more) = .ok (text, left ++ more) := by
  rw [← scan_append h, List.append_assoc]
  exact scan_congr (List.head?_append_of_ne_nil _ hne) h

theorem readAtRule_append {inside rest : List Char} {item : Item} (text : List Char)
    (h : readAtRule before first inside = .ok (item, last, rest))
    (hended : item.lacksSemicolon → rest ≠ []) :
    readAtRule before first (inside ++ text) = .ok (item, last, rest ++ text) := by
  obtain ⟨name, tail, inner, left, afterName, trimmed, params, between, hname, hempty, hscan,
    hspace, hparams, htail⟩ := readAtRule_cases h
  obtain ⟨hne, hmore⟩ := htail.append text hended
  refine readAtRule_of_parts ?_ hempty (scan_append_right text hne hscan) hspace hparams hmore
  obtain ⟨rfl, hall, hstop⟩ := Text.splitHead_eq_iff.1 hname
  have htailNe : tail ≠ [] := by
    rw [← scan_append hscan]
    exact fun h => hne (List.append_eq_nil_iff.1 h).2
  refine Text.splitHead_eq_iff.2 ⟨(List.append_assoc ..).symm, hall, ?_⟩
  rwa [List.head?_append_of_ne_nil _ htailNe]

/-- A declaration depends on its own statement only. -/
theorem readDeclaration_congr {text rest : List Char} {semicolon : Bool} {d : Declaration}
    (rest' : List Char)
    (h : readDeclaration before first (text ++ rest) text semicolon = .ok d) :
    d.raws.semicolon = semicolon ∧
      readDeclaration before first (text ++ rest') text semicolon = .ok d := by
  obtain ⟨p, hsplit, rfl, hcolon, rfl⟩ := readDeclaration_eq_ok_iff.1 h
  refine ⟨rfl, readDeclaration_eq_ok_iff.2 ⟨p, hsplit, rfl, ?_, rfl⟩⟩
  refine colonOffset_congr rfl p.lead_lt_text ?_ hcolon
  rw [List.take_append_of_le_length p.lead_lt_text, List.take_append_of_le_length p.lead_lt_text]

theorem StatementTail.append {text left rest : List Char} {item : Item} (more : List Char)
    (h : StatementTail before first (text ++ left) text left item last rest)
    (hended : item.lacksSemicolon → rest ≠ []) :
    left ≠ [] ∧ StatementTail before first (text ++ (left ++ more)) text (left ++ more) item last
      (rest ++ more) := by
  cases h with
  | block hsplit => exact ⟨List.cons_ne_nil _ _, .block hsplit⟩
  | terminated hdecl =>
      exact ⟨List.cons_ne_nil _ _, .terminated (readDeclaration_congr _ hdecl).2⟩
  | bare hbare hdecl =>
      obtain ⟨hsemi, hmore⟩ := readDeclaration_congr (left ++ more) hdecl
      have hne := hended (by simp [Item.lacksSemicolon, Node.lacksSemicolon, hsemi])
      exact ⟨hne, .bare (by rwa [List.head?_append_of_ne_nil _ hne]) hmore⟩

/-- Text behind a statement leaves the mark of a comment out at its beginning. -/
theorem take_two_append {c : Char} {cs text left : List Char} (more : List Char)
    (hscan : scan .plain 0 first (c :: cs) = .ok (text, left)) (hne : left ≠ [])
    (hmark : (c :: cs).take 2 ≠ ['/', '*']) : (c :: cs ++ more).take 2 ≠ ['/', '*'] := by
  cases cs with
  | cons d ds => exact hmark
  | nil =>
      have hsource := scan_append hscan
      cases text with
      | cons d ds => simp_all
      | nil =>
          have hterm := isTerminator_of_scan_nil hscan
          rintro hcomment
          obtain rfl : c = '/' := (List.cons.inj hcomment).1
          cases hterm

/-- An item is read alike with text behind the source, if it is complete or the source goes on
anyway. -/
theorem readItem_append {c : Char} {cs rest : List Char} {item : Item} (text : List Char)
    (h : readItem before first c cs = .ok (item, last, rest))
    (hended : item.lacksSemicolon → rest ≠ []) :
    readItem before first c (cs ++ text) = .ok (item, last, rest ++ text) := by
  by_cases hat : c = '@'
  · subst hat
    rw [readItem_of_readAtRule] at h ⊢
    exact readAtRule_append text h hended
  by_cases hmark : (c :: cs).take 2 = ['/', '*']
  · obtain ⟨rfl, hcs⟩ := List.cons.inj hmark
    have hstar : cs.take 1 = ['*'].take 1 := hcs
    obtain ⟨ds, rfl, -⟩ := cons_of_take_succ hstar
    exact readComment_append text h
  · rw [readItem_of_readStatement hat hmark] at h
    obtain ⟨inner, left, hscan, htail⟩ := readStatement_cases h
    rw [← scan_append hscan] at htail
    obtain ⟨hne, hmore⟩ := htail.append text hended
    have hmark' : (c :: (cs ++ text)).take 2 ≠ ['/', '*'] := take_two_append text hscan hne hmark
    rw [readItem_of_readStatement hat hmark']
    refine readStatement_of_tail (scan_append_right text hne hscan) ?_
    rwa [← List.append_assoc, scan_append hscan] at hmore

/-! ### The whole source -/

/-- A node that the source ends with is the last node of the sheet. -/
theorem getLast?_of_readNodes {frames : List Frame} {node : Node} {nodes : List Node}
    {cur : Cursor} {sheet : Sheet} (h : readNodes frames (node :: nodes) cur [] = .ok sheet) :
    sheet.nodes.getLast? = some node := by
  cases frames with
  | nil =>
      rw [readNodes_nil rfl] at h
      obtain rfl := Except.ok.inj h
      rw [List.reverse_cons, List.getLast?_concat]
  | cons frame outer =>
      rw [readNodes_unclosed rfl] at h
      cases h

/-- The reader comes to text behind a source with the nodes of the source and what is left after
them, if the last node is complete. -/
theorem readNodes_append {frames : List Frame} {nodes : List Node} {cur : Cursor}
    {source : List Char} {sheet : Sheet} (text : List Char)
    (h : readNodes frames nodes cur source = .ok sheet)
    (hended : ∀ node ∈ sheet.nodes.getLast?, ¬node.lacksSemicolon) :
    ∃ front after, source = front ++ after ∧ sheet.after = String.ofList after ∧
      (∀ c ∈ after, isSeparator c) ∧
      readNodes frames nodes cur (source ++ text) =
        readNodes [] sheet.nodes.reverse (cur.advanceAll front) (after ++ text) := by
  fun_induction readNodes frames nodes cur source with
  | case1 nodes cur source after hsplit =>
      obtain rfl := Except.ok.inj h
      obtain ⟨happ, hall, -⟩ := Text.splitHead_eq_iff.1 hsplit
      rw [List.append_nil] at happ
      exact ⟨[], after, happ.symm, rfl, hall, by rw [happ, List.reverse_reverse]; rfl⟩
  | case2 => cases h
  | case3 => cases h
  | case4 nodes cur source before cs first frame outer hsplit last ih =>
      rw [List.unattach_reverse, List.unattach_attach] at ih
      obtain ⟨front, after, rfl, hafter, hall, hread⟩ := ih h
      have hsource := (Text.splitHead_eq_iff.1 hsplit).1
      refine ⟨before ++ '\x7d' :: front, after, by rw [← hsource]; simp, hafter, hall, ?_⟩
      rw [← hsource, List.append_assoc, List.cons_append, readNodes_close (splitHead_same hsplit _)]
      rw [Cursor.advanceAll_append]
      exact hread
  | case5 => cases h
  | case6 frames nodes cur source before c cs hsplit first hc node next rest hitem ih =>
      have hlast (hlacks : node.lacksSemicolon) : rest ≠ [] := by
        rintro rfl
        exact hended node (getLast?_of_readNodes h) hlacks
      obtain ⟨front, after, rfl, hafter, hall, hread⟩ := ih h
      have hsource := (Text.splitHead_eq_iff.1 hsplit).1
      obtain ⟨-, hcs, rfl⟩ := readItem_leaf hitem
      refine ⟨before ++ (node.shown ++ node.trail) ++ front, after, ?_, hafter, hall, ?_⟩
      · rw [← hsource, hcs]
        simp
      · have hmore := readItem_append text hitem hlast
        have hturn := readNodes_item (splitHead_same hsplit (cs ++ text)) hc hmore frames nodes
        rw [← hsource, List.append_assoc, List.cons_append, hturn]
        simp only [Cursor.advanceAll_append]
        simpa using hread
  | case7 frames nodes cur source before c cs hsplit first hc heading brace next rest hitem ih =>
      have hclosed (hlacks : (Item.opening heading brace).lacksSemicolon) : rest ≠ [] :=
        absurd hlacks Bool.false_ne_true
      obtain ⟨front, after, rfl, hafter, hall, hread⟩ := ih h
      have hsource := (Text.splitHead_eq_iff.1 hsplit).1
      obtain ⟨hcs, -, rfl⟩ := readItem_opening hitem
      refine ⟨before ++ (heading.text ++ ['\x7b']) ++ front, after, ?_, hafter, hall, ?_⟩
      · rw [← hsource, hcs]
        simp
      · have hmore := readItem_append text hitem hclosed
        have hturn := readNodes_item (splitHead_same hsplit (cs ++ text)) hc hmore frames nodes
        rw [← hsource, List.append_assoc, List.cons_append, hturn]
        simp only [Cursor.advanceAll_append]
        simpa using hread

end StyleAudit.Reader
