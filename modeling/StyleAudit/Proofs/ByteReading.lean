import StyleAudit.Proofs.ByteScanning
import StyleAudit.Proofs.CanonicalForm
import StyleAudit.Proofs.Items

/-!
Reading bytes and reading characters.

At a place of the source, each function of the reader of bytes comes to what the function of the
reader of characters comes to there. So none of them asks in vain, and no turn of the block loop
stays where it is: the two readers come to the same sheet or to the same fault.
-/

namespace StyleAudit.ByteReader

open Reader

variable {s : IndexedText} {pre cs rest : List Char} {c : Char}

theorem isEmpty_ofList (cs : List Char) : (String.ofList cs).isEmpty = cs.isEmpty := by
  rw [Bool.eq_iff_iff, String.isEmpty_iff, List.isEmpty_iff, ← String.toList_eq_nil_iff,
    String.toList_ofList]

/-- The search over bytes finds the colon of a declaration. -/
theorem findColon_text {text : List Char} (h : s.text.toList = pre ++ text ++ rest) :
    findColon s (byteLength (pre ++ text)) (byteLength pre) =
      told (colonAt pre (text ++ rest))
        (colonOffset .plain text.length (Cursor.start.advanceAll pre) (text ++ rest)) :=
  findColon_append (by rw [h, List.append_assoc]) _
    (.inl ⟨by rw [List.length_append]; omega, by rw [List.take_left]⟩)

/-- A declaration is read over bytes from its parts, where its colon is found. -/
theorem declaration_of_parts {p : Parts} (before : List Char) (semicolon : Bool)
    (h : s.text.toList = pre ++ p.text ++ rest) (hsplit : p.Split)
    (hcolon : colonOffset .plain p.text.length (Cursor.start.advanceAll pre) (p.text ++ rest) =
      .ok (some p.lead.length)) :
    declaration s (String.ofList before) (byteLength pre) (byteLength (pre ++ p.text)) semicolon =
      .ok (p.declaration before (Cursor.start.advanceAll pre) semicolon) := by
  have hraw : (String.ofList p.text).toList =
      p.lead ++ ':' :: (p.valueSpace ++ (p.marked ++ p.afterValue)) := String.toList_ofList
  have hafter := sliceOf_back (toList_next hraw)
  rw [byteLength_ascii _ (by decide : ':'.toNat < 0x80), utf8ByteSize_ofList] at hafter
  have htake : (p.text ++ rest).take p.lead.length = p.lead := by
    rw [List.take_append_of_le_length (Nat.le_of_lt p.lead_lt_text)]
    exact List.take_left' rfl
  have hshown : p.text = (p.lead ++ ':' :: (p.valueSpace ++ p.marked)) ++ p.afterValue := by
    simp [Parts.text]
  have hwidth := difference_back (p.lead ++ ':' :: (p.valueSpace ++ p.marked)) p.afterValue
  have hbehind : s.text.toList =
      pre ++ (p.lead ++ ':' :: (p.valueSpace ++ p.marked)) ++ (p.afterValue ++ rest) := by
    rw [h, hshown]
    simp
  have hrange := IndexedText.range_of_prefix hbehind (List.prefix_append pre _)
  rw [byteLength_append] at hrange
  rw [← hshown] at hwidth
  simp only [declaration, IndexedText.slice_append h, findColon_text h, hcolon, told, colonAt,
    Option.map_some, htake, difference_front, sliceOf_front hraw, splitTrailing_eq hsplit.lead,
    isEmpty_ofList, List.isEmpty_iff, hsplit.nonempty, if_false, hafter,
    splitLeading_eq hsplit.space, splitTrailing_eq hsplit.after, splitImportant_eq hsplit.mark,
    utf8ByteSize_ofList, hwidth, hrange, bind, Except.bind, pure, Except.pure]
  simp [Parts.declaration, String.append_assoc, Cursor.advanceAll_append]

/-- A declaration is read from the slices that the reader of characters splits off. -/
theorem declaration_append {text : List Char} (before : List Char) (semicolon : Bool)
    (h : s.text.toList = pre ++ text ++ rest) :
    declaration s (String.ofList before) (byteLength pre) (byteLength (pre ++ text)) semicolon =
      told id (readDeclaration before (Cursor.start.advanceAll pre) (text ++ rest) text
        semicolon) := by
  have hplace : s.text.toList = pre ++ (text ++ rest) := by rw [h, List.append_assoc]
  cases hcolon : colonOffset .plain text.length (Cursor.start.advanceAll pre) (text ++ rest) with
  | error e =>
      simp only [declaration, readDeclaration, IndexedText.slice_append h, findColon_text h, hcolon,
        bind, Except.bind]
      rfl
  | ok found =>
    cases found with
    | none =>
        simp only [declaration, readDeclaration, IndexedText.slice_append h, findColon_text h,
          hcolon, bind, Except.bind]
        exact fail_eq hplace _
    | some n =>
      by_cases hempty : (Text.splitTail isBlankChar (text.take n)).1 = []
      · have hraw : (String.ofList text).toList = text.take n ++ text.drop n := by
          rw [String.toList_ofList, List.take_append_drop]
        have htake : (text ++ rest).take n = text.take n :=
          List.take_append_of_le_length (Nat.le_of_lt (colonOffset_spec hcolon).1)
        simp only [declaration, readDeclaration, IndexedText.slice_append h, findColon_text h,
          hcolon, told, colonAt, Option.map_some, htake, difference_front, sliceOf_front hraw,
          splitTrailing_eq rfl, isEmpty_ofList, List.isEmpty_iff, hempty, if_true, bind,
          Except.bind]
        exact fail_eq hplace _
      · obtain ⟨d, hd⟩ : ∃ d, readDeclaration before (Cursor.start.advanceAll pre) (text ++ rest)
            text semicolon = .ok d := by
          simp [readDeclaration, hcolon, hempty]
        obtain ⟨p, hsplit, rfl, hcolon, rfl⟩ := readDeclaration_eq_ok_iff.1 hd
        rw [hd]
        exact declaration_of_parts before semicolon h hsplit hcolon

/-- The node that a heading becomes once its block has been read. -/
def finish (before : List Char) : Heading → List Node → String → SourceRange → Node
  | .rule selector between, nodes, after, source =>
      .rule (String.ofList selector) nodes
        ⟨String.ofList before, String.ofList between, after⟩ (some source)
  | .atRule name afterName params between, nodes, after, source =>
      .block (String.ofList name) (String.ofList params) nodes
        ⟨String.ofList before, String.ofList afterName, String.ofList between, after, false⟩
        (some source)

/-- An item that was read over characters, as the reader of bytes gives it. -/
def itemOf (before : List Char) : Reader.Item × Cursor × List Char → Item
  | (.leaf node, next, _) => .leaf node next.offset
  | (.opening heading brace, _, _) => .opening brace.offset (finish before heading)

theorem offset_advanceAll (pre : List Char) :
    (Cursor.start.advanceAll pre).offset = byteLength pre := by
  rw [Cursor.offset_advanceAll]
  exact Nat.zero_add _

theorem advance_start (pre : List Char) (c : Char) :
    (Cursor.start.advanceAll pre).advance c = Cursor.start.advanceAll (pre ++ [c]) := by
  rw [Cursor.advanceAll_append]
  rfl

theorem comment_append (before : List Char) (h : s.text.toList = pre ++ '/' :: '*' :: cs) :
    comment s (String.ofList before) (byteLength pre) =
      told (itemOf before) (readComment before (Cursor.start.advanceAll pre) cs) := by
  simp only [comment, slice_comment h, bind, Except.bind, String.toList_ofList]
  unfold readComment
  cases hbody : commentBody cs with
  | none => exact fail_eq h _
  | some p =>
    obtain ⟨body, back⟩ := p
    have hcs := commentBody_append hbody
    have hinside : s.text.toList = pre ++ ['/', '*'] ++ body ++ '*' :: '/' :: back := by
      rw [h, ← hcs]
      simp
    have hbehind : s.text.toList = pre ++ ('/' :: '*' :: body ++ ['*', '/']) ++ back := by
      rw [h, ← hcs]
      simp
    have hinner := IndexedText.slice_append hinside
    have hrange := IndexedText.range_of_prefix hbehind (List.prefix_append pre _)
    have hmark : byteLength (pre ++ ['/', '*']) = byteLength pre + 2 := byteLength_mark pre []
    have hnext : byteLength (pre ++ ('/' :: '*' :: body ++ ['*', '/'])) =
        byteLength pre + 2 + byteLength body + 2 := by
      rw [List.cons_append, List.cons_append, byteLength_mark, byteLength_append]
      rfl
    rw [byteLength_append (pre ++ ['/', '*']), hmark] at hinner
    rw [hnext] at hrange
    obtain ⟨left, trimmed, hleft⟩ : ∃ left trimmed,
        Text.splitHead isBlankChar body = (left, trimmed) := ⟨_, _, rfl⟩
    obtain ⟨text, right, hright⟩ : ∃ text right,
        Text.splitTail isBlankChar trimmed = (text, right) := ⟨_, _, rfl⟩
    simp only [hinner, splitLeading_eq hleft, splitTrailing_eq hright, hrange, hleft, hright, told,
      itemOf, ← Cursor.advanceAll_append, offset_advanceAll, hnext]
    rfl

/-- Whether a scan has ended at the byte of `d`. -/
theorem any_isByte_eq {cur : Cursor} {text left : List Char} {d : Char}
    (hd : d.toNat < 0x80) (hscan : scan .plain 0 cur cs = .ok (text, left)) :
    (left.head?.map Char.toUInt8).any (isByte d) = decide (left.head? = some d) := by
  cases left with
  | nil => rfl
  | cons c rest =>
      have hc := isTerminator_ascii (isTerminator_of_scan hscan c rfl)
      simp only [List.head?_cons, Option.map_some, Option.any_some, Option.some.injEq]
      exact isByte_eq hd (by rw [utf8EncodeChar_of_ascii hc]; exact List.mem_singleton_self _)

/-- Where the name of an at-rule ends. -/
theorem advanceAll_named (pre name : List Char) :
    ((Cursor.start.advanceAll pre).advance '@').advanceAll name =
      Cursor.start.advanceAll (pre ++ ['@'] ++ name) := by
  rw [advance_start, ← Cursor.advanceAll_append]

/-- The name of an at-rule, over bytes: it stands behind the mark, and it is empty if no byte is
skipped. -/
theorem name_append {name tail : List Char} (h : s.text.toList = pre ++ '@' :: cs)
    (hname : Text.splitHead isNameChar cs = (name, tail)) :
    s.text.toList = pre ++ ['@'] ++ name ++ tail ∧
      byteLength pre + 1 = byteLength (pre ++ ['@']) ∧
      skipWhile s.text.toUTF8 isNameByte (byteLength (pre ++ ['@'])) =
        byteLength (pre ++ ['@'] ++ name) ∧
      (byteLength (pre ++ ['@'] ++ name) = byteLength (pre ++ ['@']) ↔ name = []) := by
  have hat := toList_next h
  have hskip := skipWhile_append agrees_isName hat
  rw [hname] at hskip
  refine ⟨?_, (byteLength_ascii pre (by decide)).symm, hskip, ?_, ?_⟩
  · rw [hat, ← (Text.splitHead_eq_iff.1 hname).1, List.append_assoc _ name]
  · intro hsame
    by_contra hne
    have := byteLength_pos hne
    rw [byteLength_append _ name] at hsame
    omega
  · rintro rfl
    rw [List.append_nil]

/-- An at-rule is read over bytes from its name, its parameters and what ends it. -/
theorem atRule_of_parts {before name tail text left afterName trimmed params between : List Char}
    {item : Reader.Item} {last : Cursor} (h : s.text.toList = pre ++ '@' :: cs)
    (hname : Text.splitHead isNameChar cs = (name, tail)) (hne : name ≠ [])
    (hscan : scan .plain 0 (Cursor.start.advanceAll (pre ++ ['@'] ++ name)) tail =
      .ok (text, left))
    (hspace : Text.splitHead isBlankChar text = (afterName, trimmed))
    (hparams : Text.splitTail isBlankChar trimmed = (params, between))
    (htail : AtRuleTail before (Cursor.start.advanceAll pre)
      (Cursor.start.advanceAll (pre ++ ['@'] ++ name ++ text)) name afterName params between left
      item last rest) :
    atRule s (String.ofList before) (byteLength pre) = .ok (itemOf before (item, last, rest)) := by
  obtain ⟨hnamed, hstart, hskip, hempty⟩ := name_append h hname
  have hbehind : s.text.toList = pre ++ ['@'] ++ name ++ text ++ left := by
    rw [hnamed, ← scan_append hscan, List.append_assoc _ text]
  have hstarts : pre <+: pre ++ ['@'] ++ name ++ text := ⟨['@'] ++ name ++ text, by simp⟩
  simp only [atRule, hstart, IndexedText.bytes, hskip, hempty, hne, if_false,
    IndexedText.slice_append hnamed, bind, Except.bind, scanFrom_append hnamed 0, hscan, told,
    ends, IndexedText.slice_append hbehind, splitLeading_eq hspace, splitTrailing_eq hparams,
    any_isByte_eq (by decide : '\x7b'.toNat < 0x80) hscan,
    any_isByte_eq (by decide : ';'.toNat < 0x80) hscan, decide_eq_true_eq]
  cases htail with
  | block =>
      simp only [List.head?_cons, if_true, itemOf, offset_advanceAll]
      rfl
  | terminated =>
      have hrange := IndexedText.range_of_prefix (toList_next hbehind)
        (hstarts.trans (List.prefix_append _ [';']))
      rw [byteLength_ascii _ (by decide : ';'.toNat < 0x80)] at hrange
      simp only [List.head?_cons, Option.some.injEq, decide_true, if_true, hrange, itemOf,
        advance_start, offset_advanceAll, byteLength_ascii _ (by decide : ';'.toNat < 0x80)]
      rfl
  | bare hbare =>
      have hopen : rest.head? ≠ some '\x7b' := fun h => (hbare _ h).1 rfl
      have hsemi : rest.head? ≠ some ';' := fun h => (hbare _ h).2 rfl
      simp only [hopen, hsemi, decide_false, if_false,
        IndexedText.range_of_prefix hbehind hstarts, itemOf, offset_advanceAll]
      rfl

theorem atRule_append (before : List Char) (h : s.text.toList = pre ++ '@' :: cs) :
    atRule s (String.ofList before) (byteLength pre) =
      told (itemOf before) (readAtRule before (Cursor.start.advanceAll pre) cs) := by
  obtain ⟨name, tail, hname⟩ : ∃ name tail,
      Text.splitHead isNameChar cs = (name, tail) := ⟨_, _, rfl⟩
  obtain ⟨hnamed, hstart, hskip, hempty⟩ := name_append h hname
  by_cases hne : name = []
  · simp only [atRule, readAtRule, hstart, IndexedText.bytes, hskip, hname]
    rw [if_pos (hempty.2 hne), if_pos (List.isEmpty_iff.2 hne)]
    exact fail_eq h _
  cases hscan : scan .plain 0 (Cursor.start.advanceAll (pre ++ ['@'] ++ name)) tail with
  | error e =>
      simp only [atRule, readAtRule, hstart, IndexedText.bytes, hskip, hempty, hname, hne,
        List.isEmpty_iff, if_false, IndexedText.slice_append hnamed, bind, Except.bind,
        scanFrom_append hnamed 0, advanceAll_named, hscan]
      rfl
  | ok parts =>
    obtain ⟨text, left⟩ := parts
    obtain ⟨afterName, trimmed, hspace⟩ : ∃ afterName trimmed,
        Text.splitHead isBlankChar text = (afterName, trimmed) := ⟨_, _, rfl⟩
    obtain ⟨params, between, hparams⟩ : ∃ params between,
        Text.splitTail isBlankChar trimmed = (params, between) := ⟨_, _, rfl⟩
    obtain ⟨_, _, _, htail⟩ := AtRuleTail.exists_of before (Cursor.start.advanceAll pre)
      (Cursor.start.advanceAll (pre ++ ['@'] ++ name ++ text)) name afterName params between left
    rw [atRule_of_parts h hname hne hscan hspace hparams htail,
      readAtRule_of_parts hname hne (by rw [advanceAll_named, hscan]) hspace hparams
        (by rwa [advanceAll_named, ← Cursor.advanceAll_append])]
    rfl

/-- A declaration that was read is an item, with the offset behind it. -/
theorem told_declaration (before : List Char) {last : Cursor} {next : Nat} (rest : List Char)
    (r : Except FaultAt Declaration) (hnext : last.offset = next) :
    ((told id r).bind fun d => .ok (Item.leaf (.decl d) next)) =
      told (itemOf before) (r.map fun d => (.leaf (.decl d), last, rest)) := by
  subst hnext
  cases r <;> rfl

theorem statement_append (before : List Char) (h : s.text.toList = pre ++ cs) :
    statement s (String.ofList before) (byteLength pre) =
      told (itemOf before) (readStatement before (Cursor.start.advanceAll pre) cs) := by
  simp only [statement, bind, Except.bind, scanFrom_append h 0]
  cases hscan : scan .plain 0 (Cursor.start.advanceAll pre) cs with
  | error e =>
      rw [readStatement, hscan]
      rfl
  | ok parts =>
    obtain ⟨text, left⟩ := parts
    have hbehind : s.text.toList = pre ++ text ++ left := by
      rw [h, ← scan_append hscan, List.append_assoc]
    have hdecl (semicolon : Bool) := declaration_append before semicolon hbehind
    rw [scan_append hscan] at hdecl
    simp only [told, ends, hdecl, any_isByte_eq (by decide : '\x7b'.toNat < 0x80) hscan,
      any_isByte_eq (by decide : ';'.toNat < 0x80) hscan, decide_eq_true_eq]
    cases Ending.of left with
    | block rest =>
        obtain ⟨selector, between, hsplit⟩ : ∃ selector between,
            Text.splitTail isBlankChar text = (selector, between) := ⟨_, _, rfl⟩
        rw [readStatement_of_tail hscan (.block hsplit)]
        simp only [List.head?_cons, if_true, IndexedText.slice_append hbehind,
          splitTrailing_eq hsplit, itemOf, ← Cursor.advanceAll_append, offset_advanceAll]
        rfl
    | semicolon rest =>
        rw [readStatement_semicolon hscan, ← Cursor.advanceAll_append, advance_start]
        simp only [List.head?_cons, Option.some.injEq, decide_true, if_true,
          ← byteLength_ascii (pre ++ text) (by decide : ';'.toNat < 0x80)]
        exact told_declaration before _ _ (offset_advanceAll _)
    | bare hleft =>
        have hopen : left.head? ≠ some '\x7b' := fun h => (hleft _ h).1 rfl
        have hsemi : left.head? ≠ some ';' := fun h => (hleft _ h).2 rfl
        rw [readStatement_bare hscan hleft, ← Cursor.advanceAll_append]
        simp only [hopen, hsemi, decide_false, if_false]
        exact told_declaration before _ _ (offset_advanceAll _)

/-- An item is read over bytes as it is read over characters. -/
theorem item_append (before : List Char) (h : s.text.toList = pre ++ c :: cs) {b : UInt8}
    (hb : b ∈ String.utf8EncodeChar c) :
    item s (String.ofList before) (byteLength pre) b =
      told (itemOf before) (readItem before (Cursor.start.advanceAll pre) c cs) := by
  simp only [item, isByte_eq (by decide : '@'.toNat < 0x80) hb,
    isByte_eq (by decide : '/'.toNat < 0x80) hb, decide_eq_true_eq, IndexedText.slice_back h,
    bind, Except.bind, String.toList_ofList]
  by_cases hat : c = '@'
  · subst hat
    rw [if_pos rfl, readItem_of_readAtRule]
    exact atRule_append before h
  · by_cases hmark : (c :: cs).take 2 = ['/', '*']
    · obtain ⟨rfl, hcs⟩ := List.cons.inj hmark
      have hstar : cs.take 1 = ['*'].take 1 := hcs
      obtain ⟨ds, rfl, -⟩ := cons_of_take_succ hstar
      have hstarts : List.isPrefixOf ['/', '*'] ('/' :: '*' :: ds) = true := rfl
      rw [if_neg hat, if_pos rfl, hstarts, if_pos rfl, comment_append before h]
      rfl
    · have hstarts : ¬List.isPrefixOf ['/', '*'] (c :: cs) = true := by
        rw [List.isPrefixOf_iff_prefix, List.prefix_iff_eq_take]
        exact fun h => hmark h.symm
      rw [if_neg hat, readItem_of_readStatement hat hmark, if_neg hstarts,
        statement_append before h, ite_self]

/-! ### Blocks -/

/-- What the block loop of the bytes comes to, by what the reader of characters goes on with. -/
inductive BlockAgrees (frames : List Frame) (nodes : List Node) (pre rest : List Char) :
    Except Halt (List Node × String × Nat) → Prop where
  /-- The source has ended. -/
  | whole {sheet : Sheet} {last : Nat} (hframes : frames = [])
      (hread : readNodes frames nodes (Cursor.start.advanceAll pre) rest = .ok sheet) :
      BlockAgrees frames nodes pre rest (.ok (sheet.nodes, sheet.after, last))
  /-- The block of the innermost frame has been closed. -/
  | closed {frame : Frame} {outer : List Frame} {children : List Node}
      {front back after : List Char} (hframes : frames = frame :: outer) (hne : front ≠ [])
      (hrest : rest = front ++ back)
      (hread : readNodes frames nodes (Cursor.start.advanceAll pre) rest =
        readNodes outer
          (frame.close children after (Cursor.start.advanceAll (pre ++ front)) :: frame.preceding)
          (Cursor.start.advanceAll (pre ++ front)) back) :
      BlockAgrees frames nodes pre rest
        (.ok (children, String.ofList after, byteLength (pre ++ front)))
  | failed {f : FaultAt}
      (hread : readNodes frames nodes (Cursor.start.advanceAll pre) rest = .error f) :
      BlockAgrees frames nodes pre rest
        (.error (.malformed f.fault f.place.offset f.place.position))

/-- What is agreed on from a later place is agreed on from here. -/
theorem BlockAgrees.of_later {frames : List Frame} {nodes nodes' : List Node}
    {front back : List Char} {r : Except Halt (List Node × String × Nat)}
    (h : BlockAgrees frames nodes' (pre ++ front) back r)
    (hread : readNodes frames nodes (Cursor.start.advanceAll pre) (front ++ back) =
      readNodes frames nodes' (Cursor.start.advanceAll (pre ++ front)) back) :
    BlockAgrees frames nodes pre (front ++ back) r := by
  cases h with
  | whole hframes hlater => exact .whole hframes (hread.trans hlater)
  | closed hframes hne hrest hlater =>
      subst hrest
      rw [List.append_assoc] at hlater ⊢
      exact .closed hframes (by simp [hne]) (List.append_assoc ..).symm (hread.trans hlater)
  | failed hlater => exact .failed (hread.trans hlater)

/-- The braces of open blocks stand at places of the source. -/
def Braced (s : IndexedText) (frames : List Frame) : Prop :=
  ∀ frame ∈ frames, ∃ front back, s.text.toList = front ++ back ∧
    frame.brace = Cursor.start.advanceAll front

theorem Braced.push {frames : List Frame} (hframes : Braced s frames) {frame : Frame}
    {front back : List Char} (h : s.text.toList = front ++ back)
    (hbrace : frame.brace = Cursor.start.advanceAll front) : Braced s (frame :: frames) := by
  intro other hother
  rcases List.mem_cons.1 hother with rfl | hother
  · exact ⟨front, back, h, hbrace⟩
  · exact hframes other hother

theorem finish_eq_close (frame : Frame) (children : List Node) (after : List Char)
    (last : Cursor) :
    finish frame.before frame.heading children (String.ofList after) (frame.first.rangeTo last) =
      frame.close children after last := by
  unfold finish Frame.close
  cases frame.heading <;> rfl

/-- The offset of the brace of the innermost open block. -/
def openedAt (frames : List Frame) : Option Nat :=
  frames.head?.map fun frame => frame.brace.offset

/-- A place with text before it is further on, and it is not past the end. -/
theorem moves_on {front back : List Char} (h : s.text.toList = pre ++ front ++ back)
    (hne : front ≠ []) :
    byteLength pre < byteLength (pre ++ front) ∧ byteLength (pre ++ front) ≤ s.size := by
  have hpos := byteLength_pos hne
  rw [IndexedText.size_eq, h]
  simp only [byteLength_append]
  omega

/-- A turn of the block loop that meets no item ends the block or the source, or is a fault. -/
theorem block_agrees_of_end {frames : List Frame} (nodes : List Node) {before tail : List Char}
    (h : s.text.toList = pre ++ rest) (hframes : Braced s frames)
    (hsplit : Text.splitHead isSeparator rest = (before, tail))
    (htail : ∀ c ∈ tail.head?, c = '\x7d') :
    BlockAgrees frames nodes pre rest (block s (openedAt frames) nodes (byteLength pre)) := by
  have hrest := (Text.splitHead_eq_iff.1 hsplit).1
  have hplace : s.text.toList = pre ++ before ++ tail := by rw [h, ← hrest, List.append_assoc]
  have hskip := skipWhile_append agrees_isSeparator h
  rw [hsplit] at hskip
  rw [block]
  simp only [IndexedText.bytes, hskip, IndexedText.slice_append hplace, bind, Except.bind]
  cases tail with
  | nil =>
      rw [byte_of_end (hplace.trans (List.append_nil _))]
      cases frames with
      | nil => exact .whole rfl (readNodes_nil hsplit nodes _)
      | cons frame outer =>
          obtain ⟨front, back, hfront, hbrace⟩ := hframes frame List.mem_cons_self
          have hfail := fail_eq (α := List Node × String × Nat) hfront .unclosedBlock
          simp only [openedAt, List.head?_cons, Option.map_some, hbrace, offset_advanceAll, hfail]
          rw [← hbrace]
          exact .failed (readNodes_unclosed hsplit frame outer nodes _)
  | cons c cs =>
      obtain rfl := htail c rfl
      rw [byte_of_ascii hplace (by decide)]
      cases frames with
      | nil =>
          have hfail := fail_eq (α := List Node × String × Nat) hplace .unexpectedBrace
          change BlockAgrees [] nodes pre rest
            (s.fail .unexpectedBrace (byteLength (pre ++ before)))
          rw [hfail]
          refine .failed ?_
          rw [Cursor.advanceAll_append]
          exact readNodes_unexpected hsplit nodes _
      | cons frame outer =>
          change BlockAgrees (frame :: outer) nodes pre rest
            (.ok (nodes.reverse, String.ofList before, byteLength (pre ++ before) + 1))
          rw [← byteLength_ascii _ (by decide : '\x7d'.toNat < 0x80), List.append_assoc]
          have hback : rest = before ++ ['\x7d'] ++ cs := by
            rw [← hrest]
            simp
          refine .closed rfl (by simp) hback ?_
          rw [readNodes_close hsplit, ← List.append_assoc, Cursor.advanceAll_append,
            Cursor.advanceAll_append]
          rfl

/-- A turn of the block loop that meets an item reads it, and goes on if it has moved. -/
theorem block_item {before : List Char} (h : s.text.toList = pre ++ rest)
    (hsplit : Text.splitHead isSeparator rest = (before, c :: cs)) (hc : c ≠ '\x7d')
    (opened : Option Nat) (nodes : List Node) :
    block s opened nodes (byteLength pre) =
      (told (itemOf before)
        (readItem before ((Cursor.start.advanceAll pre).advanceAll before) c cs)).bind fun
        | .leaf node next =>
          if byteLength pre < next ∧ next ≤ s.size then block s opened (node :: nodes) next
          else .error (.stuck (byteLength pre) next)
        | .opening brace finish =>
          if byteLength pre < brace + 1 ∧ brace + 1 ≤ s.size then
            (block s (some brace) [] (brace + 1)).bind fun (children, after, last) =>
              (s.range (byteLength (pre ++ before)) last).bind fun source =>
                if byteLength pre < last ∧ last ≤ s.size then
                  block s opened (finish children after source :: nodes) last
                else .error (.stuck (byteLength pre) last)
          else .error (.stuck (byteLength pre) (brace + 1)) := by
  have hrest := (Text.splitHead_eq_iff.1 hsplit).1
  have hplace : s.text.toList = pre ++ before ++ c :: cs := by
    rw [h, ← hrest, List.append_assoc]
  have hskip := skipWhile_append agrees_isSeparator h
  obtain ⟨b, hb, hbyte⟩ := byte_of_cons hplace
  rw [hsplit] at hskip
  rw [block, ← Cursor.advanceAll_append]
  simp only [IndexedText.bytes, hskip, IndexedText.slice_append hplace, bind, Except.bind, hbyte,
    isByte_eq (by decide : '\x7d'.toNat < 0x80) hb, hc, decide_false, Bool.false_eq_true,
    if_false, item_append before hplace hb]
  rfl

/-- The two readers agree on every source part that is shorter than `n`. -/
def AgreesBelow (s : IndexedText) (n : Nat) : Prop :=
  ∀ {frames : List Frame} (nodes : List Node) {pre rest : List Char}, rest.length < n →
    s.text.toList = pre ++ rest → Braced s frames →
      BlockAgrees frames nodes pre rest (block s (openedAt frames) nodes (byteLength pre))

/-- A turn of the block loop that has read a node has moved, and it goes on behind the node. -/
theorem block_agrees_behind {frames : List Frame} {nodes : List Node} {node : Node}
    {front back : List Char} (hbelow : AgreesBelow s (front ++ back).length)
    (h : s.text.toList = pre ++ (front ++ back)) (hframes : Braced s frames) (hne : front ≠ [])
    (hread : readNodes frames nodes (Cursor.start.advanceAll pre) (front ++ back) =
      readNodes frames (node :: nodes) (Cursor.start.advanceAll (pre ++ front)) back) :
    BlockAgrees frames nodes pre (front ++ back)
      (if byteLength pre < byteLength (pre ++ front) ∧ byteLength (pre ++ front) ≤ s.size then
        block s (openedAt frames) (node :: nodes) (byteLength (pre ++ front))
      else .error (.stuck (byteLength pre) (byteLength (pre ++ front)))) := by
  have hplace : s.text.toList = pre ++ front ++ back := by rw [h, List.append_assoc]
  have hshorter : back.length < (front ++ back).length := by
    have := List.length_pos_iff.2 hne
    rw [List.length_append]
    omega
  rw [if_pos (moves_on hplace hne)]
  exact (hbelow (node :: nodes) hshorter hplace hframes).of_later hread

theorem block_agrees_of_leaf {frames : List Frame} {nodes : List Node} {node : Node}
    {next : Cursor} {before back : List Char} (hbelow : AgreesBelow s rest.length)
    (h : s.text.toList = pre ++ rest) (hframes : Braced s frames)
    (hsplit : Text.splitHead isSeparator rest = (before, c :: cs)) (hc : c ≠ '\x7d')
    (hitem : readItem before ((Cursor.start.advanceAll pre).advanceAll before) c cs =
      .ok (.leaf node, next, back)) :
    BlockAgrees frames nodes pre rest (block s (openedAt frames) nodes (byteLength pre)) := by
  have hturn := readNodes_item hsplit hc hitem frames nodes
  have hrest := (Text.splitHead_eq_iff.1 hsplit).1
  obtain ⟨hne, hcs, hnext⟩ := readItem_leaf hitem
  generalize node.shown ++ node.trail = front at hne hcs hnext
  rw [← Cursor.advanceAll_append, ← Cursor.advanceAll_append] at hnext
  obtain rfl : before ++ front ++ back = rest := by rw [← hrest, hcs, List.append_assoc]
  subst hnext
  rw [block_item h hsplit hc, hitem]
  simp only [told, itemOf, Except.bind, offset_advanceAll]
  exact block_agrees_behind hbelow h hframes (by simp [hne]) hturn

/-- A block is read to its brace first, and then the block around it is gone on with. -/
theorem block_agrees_of_opening {frames : List Frame} {nodes : List Node} {heading : Heading}
    {brace next : Cursor} {before back : List Char} (hbelow : AgreesBelow s rest.length)
    (h : s.text.toList = pre ++ rest) (hframes : Braced s frames)
    (hsplit : Text.splitHead isSeparator rest = (before, c :: cs)) (hc : c ≠ '\x7d')
    (hitem : readItem before ((Cursor.start.advanceAll pre).advanceAll before) c cs =
      .ok (.opening heading brace, next, back)) :
    BlockAgrees frames nodes pre rest (block s (openedAt frames) nodes (byteLength pre)) := by
  obtain ⟨first, hfirst⟩ : ∃ first, (Cursor.start.advanceAll pre).advanceAll before = first :=
    ⟨_, rfl⟩
  have hturn : readNodes frames nodes (Cursor.start.advanceAll pre) rest =
      readNodes (⟨before, heading, first, brace, nodes⟩ :: frames) [] next back :=
    hfirst ▸ readNodes_item hsplit hc hitem frames nodes
  have hrest := (Text.splitHead_eq_iff.1 hsplit).1
  obtain ⟨hcs, hbrace, hnext⟩ := readItem_opening hitem
  rw [← Cursor.advanceAll_append, ← Cursor.advanceAll_append] at hbrace hnext
  rw [← Cursor.advanceAll_append] at hfirst
  obtain ⟨lead, hlead⟩ : ∃ lead, before ++ (heading.text ++ ['\x7b']) = lead := ⟨_, rfl⟩
  obtain rfl : lead ++ back = rest := by
    rw [← hrest, hcs, ← hlead]
    simp
  rw [hlead] at hnext
  have hinside : s.text.toList = pre ++ lead ++ back := by rw [h, List.append_assoc]
  have hoffset : brace.offset + 1 = byteLength (pre ++ lead) := by
    rw [hbrace, offset_advanceAll, ← byteLength_ascii _ (by decide : '\x7b'.toNat < 0x80), ← hlead]
    simp
  have hbefore : s.text.toList = pre ++ (before ++ heading.text) ++ '\x7b' :: back := by
    rw [h, ← hlead]
    simp
  have hshorter : back.length < (lead ++ back).length := by
    rw [← hlead]
    simp only [List.length_append, List.length_cons]
    omega
  have hbraced : Braced s (⟨before, heading, first, brace, nodes⟩ :: frames) :=
    hframes.push hbefore hbrace
  have hinner := hbelow [] hshorter hinside hbraced
  rw [openedAt, List.head?_cons, Option.map_some] at hinner
  rw [block_item h hsplit hc, hitem]
  simp only [told, itemOf, Except.bind, hoffset, if_pos (moves_on hinside (by simp [← hlead]))]
  subst hnext
  generalize block s (some brace.offset) [] _ = r at hinner ⊢
  cases hinner with
  | whole hframes => cases hframes
  | failed hread => exact .failed (hturn.trans hread)
  | @closed frame outer children front rest after hopen hne hback hread =>
      obtain ⟨rfl, rfl⟩ := List.cons.inj hopen
      subst hback
      have hplace : s.text.toList = pre ++ (lead ++ front) ++ rest := by
        rw [hinside]
        simp
      have hstarts : pre ++ before <+: pre ++ (lead ++ front) :=
        ⟨heading.text ++ ['\x7b'] ++ front, by rw [← hlead]; simp⟩
      have hrange := IndexedText.range_of_prefix hplace hstarts
      have hclose := finish_eq_close ⟨before, heading, first, brace, nodes⟩ children after
        (Cursor.start.advanceAll (pre ++ (lead ++ front)))
      rw [List.append_assoc pre] at hread ⊢
      rw [← List.append_assoc lead] at hbelow h hturn ⊢
      simp only [hrange, hfirst, hclose]
      exact block_agrees_behind hbelow h hframes (by simp [hne]) (hturn.trans hread)

/-- The block loop over bytes reads what the reader of characters reads, and it never stays. -/
theorem block_agrees {frames : List Frame} (nodes : List Node)
    (h : s.text.toList = pre ++ rest) (hframes : Braced s frames) :
    BlockAgrees frames nodes pre rest (block s (openedAt frames) nodes (byteLength pre)) := by
  induction hn : rest.length using Nat.strongRecOn generalizing frames nodes pre rest with
  | ind n ih =>
    subst hn
    have hbelow : AgreesBelow s rest.length := fun nodes _ _ hshorter hplace hbraced =>
      ih _ hshorter nodes hplace hbraced rfl
    obtain ⟨before, tail, hsplit⟩ : ∃ before tail,
        Text.splitHead isSeparator rest = (before, tail) := ⟨_, _, rfl⟩
    by_cases hend : ∀ c ∈ tail.head?, c = '\x7d'
    · exact block_agrees_of_end nodes h hframes hsplit hend
    obtain ⟨c, cs, rfl, hc⟩ : ∃ c cs, tail = c :: cs ∧ c ≠ '\x7d' := by
      cases tail with
      | nil => simp at hend
      | cons c cs => exact ⟨c, cs, rfl, by simpa using hend⟩
    cases hitem : readItem before ((Cursor.start.advanceAll pre).advanceAll before) c cs with
    | error f =>
        rw [block_item h hsplit hc, hitem]
        exact .failed (readNodes_failed hsplit hc hitem frames nodes)
    | ok read =>
        obtain ⟨item, next, back⟩ := read
        cases item with
        | leaf node => exact block_agrees_of_leaf hbelow h hframes hsplit hc hitem
        | opening heading brace => exact block_agrees_of_opening hbelow h hframes hsplit hc hitem

theorem read_eq (source : String) :
    read source = told id (readNodes [] [] Cursor.start source.toList) := by
  have hbraces : Braced (.ofString source) [] := nofun
  have hagrees : BlockAgrees [] [] [] source.toList (block (.ofString source) none [] 0) :=
    block_agrees [] rfl hbraces
  rw [read]
  generalize block (.ofString source) none [] 0 = r at hagrees ⊢
  cases hagrees with
  | whole _ hread =>
      rw [Cursor.advanceAll_nil] at hread
      rw [hread]
      rfl
  | closed hframes => cases hframes
  | failed hread =>
      rw [Cursor.advanceAll_nil] at hread
      rw [hread]
      rfl

/--
The reader of bytes comes to a sheet or to a syntax error, the one that `Sheet.parse` comes to. It
never slices outside the source, backwards or through a character, never looks up an entry that
is not there, and never makes a turn that does not move on or that ends past the end.
-/
theorem read_eq_parse (file : Option String) (source : String) :
    (∃ sheet, read source = .ok sheet ∧ Sheet.parse file source = .ok sheet) ∨
      ∃ fault offset position, read source = .error (.malformed fault offset position) ∧
        Sheet.parse file source =
          .error ⟨fault.reason, file, position.line, position.column⟩ := by
  rw [read_eq, Sheet.parse]
  cases readNodes [] [] Cursor.start source.toList with
  | ok sheet => exact .inl ⟨sheet, rfl, rfl⟩
  | error f => exact .inr ⟨f.fault, f.place.offset, f.place.position, rfl, rfl⟩

end StyleAudit.ByteReader
