import StyleAudit.Proofs.CanonicalForm
import StyleAudit.Proofs.Placement
import StyleAudit.Proofs.Rewording
import StyleAudit.Proofs.Skipping

/-!
What an item is read as, wherever it stands.

The text before an item and the place at which it begins enter a node only as its first raw and its
range, and a fault only as its place. So what is read from a source is given once, for all texts
before it and all places.
-/

namespace StyleAudit

/-- The node as it is read behind a text, from a range of the source. -/
def Node.standing (before : List Char) (range : SourceRange) : Node → Node
  | .rule selector nodes raws _ =>
      .rule selector nodes { raws with before := String.ofList before } (some range)
  | .block name params nodes raws _ =>
      .block name params nodes { raws with before := String.ofList before } (some range)
  | .statement name params raws _ =>
      .statement name params { raws with before := String.ofList before } (some range)
  | .decl d =>
      .decl { d with raws := { d.raws with before := String.ofList before }, source := some range }
  | .comment c =>
      .comment
        { c with raws := { c.raws with before := String.ofList before }, source := some range }

@[simp] theorem Node.shown_standing (node : Node) (before : List Char) (range : SourceRange) :
    (node.standing before range).shown = node.shown := by
  cases node <;> rfl

@[simp] theorem Node.trail_standing (node : Node) (before : List Char) (range : SourceRange) :
    (node.standing before range).trail = node.trail := by
  cases node <;> rfl

@[simp] theorem Node.standing_standing (node : Node) (before before' : List Char)
    (range range' : SourceRange) :
    (node.standing before range).standing before' range' = node.standing before' range' := by
  cases node <;> rfl

namespace Reader

/-- Where a declaration or a rule is read: no at-rule and no comment begins there. -/
structure StatementStart (source : List Char) : Prop where
  atRule : source.head? ≠ some '@'
  comment : source.take 2 ≠ ['/', '*']

/-- What a fault is reported at in an item that begins with `front ++ back`: at what begins with
`back`. -/
inductive Blames : Fault → List Char → List Char → Prop where
  | unclosed {fault : Fault} {front back : List Char} (hopen : Unclosed fault back) :
      Blames fault front back
  | nameless {cs : List Char} (hname : ∀ c ∈ cs.head?, ¬isNameChar c) :
      Blames .namelessAtRule [] ('@' :: cs)
  | unknownWord {source : List Char} (hstart : StatementStart source) :
      Blames .unknownWord [] source
  | missingProperty {source : List Char} (hstart : StatementStart source) :
      Blames .missingProperty [] source

/-- What is read from a source, for every text before it and every place at which it begins. -/
inductive Outcome (source : List Char)
    (read : List Char → Cursor → Except FaultAt (Item × Cursor × List Char)) : Prop where
  | leaf (node : Node) (front rest : List Char) (hsource : source = front ++ rest)
      (hread : ∀ before first, read before first =
        .ok (.leaf (node.standing before (first.rangeTo (first.advanceAll node.shown))),
          first.advanceAll front, rest))
  | opening (heading : Heading) (rest : List Char)
      (hsource : source = heading.text ++ '\x7b' :: rest)
      (hread : ∀ before first, read before first =
        .ok (.opening heading (first.advanceAll heading.text),
          first.advanceAll (heading.text ++ ['\x7b']), rest))
  | fault {fault : Fault} {back : List Char} (front : List Char) (hsource : source = front ++ back)
      (hblames : Blames fault front back)
      (hread : ∀ before first, read before first = .error ⟨fault, first.advanceAll front⟩)

theorem outcome_readComment (cs : List Char) :
    Outcome ('/' :: '*' :: cs) fun before first => readComment before first cs := by
  cases hbody : commentBody cs with
  | none =>
      refine .fault [] rfl (.unclosed (.comment hbody)) fun before first => ?_
      rw [readComment, hbody]
      rfl
  | some p =>
      obtain ⟨body, rest⟩ := p
      obtain ⟨left, trimmed, hleft⟩ : ∃ left trimmed,
          Text.splitHead isBlankChar body = (left, trimmed) := ⟨_, _, rfl⟩
      obtain ⟨text, right, hright⟩ : ∃ text right,
          Text.splitTail isBlankChar trimmed = (text, right) := ⟨_, _, rfl⟩
      obtain ⟨hparts, hcs⟩ := comment_parts hbody hleft hright
      refine .leaf
        (.comment ⟨String.ofList text, ⟨"", String.ofList left, String.ofList right⟩, none⟩)
        ('/' :: '*' :: (body ++ ['*', '/'])) rest (by rw [hcs]; exact mark_append)
        fun before first => ?_
      simp only [readComment, hbody, hleft, hright]
      simp [Node.standing, Node.shown, hparts]

theorem outcome_readAtRule (cs : List Char) :
    Outcome ('@' :: cs) fun before first => readAtRule before first cs := by
  obtain ⟨name, tail, hname⟩ : ∃ name tail,
      Text.splitHead isNameChar cs = (name, tail) := ⟨_, _, rfl⟩
  obtain ⟨hcs, -, hstop⟩ := Text.splitHead_eq_iff.1 hname
  subst hcs
  by_cases hempty : name = []
  · subst hempty
    refine .fault [] rfl (.nameless hstop) fun before first => ?_
    simp only [readAtRule, hname]
    rfl
  have hnamed (first : Cursor) :
      (first.advance '@').advanceAll name = first.advanceAll ('@' :: name) := rfl
  cases scan_anywhere 0 tail with
  | fault front hsource hopen hscan =>
      refine .fault ('@' :: (name ++ front)) (by rw [hsource]; simp) (.unclosed hopen)
        fun before first => ?_
      simp only [readAtRule, hname, List.isEmpty_iff, hempty, if_false, hscan, hnamed,
        ← Cursor.advanceAll_append]
      rfl
  | found parts hscan =>
      obtain ⟨text, left⟩ := parts
      have htail := scan_append (hscan Cursor.start)
      obtain ⟨afterName, trimmed, hspace⟩ : ∃ afterName trimmed,
          Text.splitHead isBlankChar text = (afterName, trimmed) := ⟨_, _, rfl⟩
      obtain ⟨params, between, hparams⟩ : ∃ params between,
          Text.splitTail isBlankChar trimmed = (params, between) := ⟨_, _, rfl⟩
      obtain ⟨htext, -⟩ := atRule_parts hname (hscan Cursor.start) hspace hparams
      subst htail
      have hread (before : List Char) (first : Cursor) {last : Cursor} (rest : List Char)
          {item : Item} (hends : AtRuleTail before first
            (first.advanceAll ('@' :: (name ++ text))) name afterName params between left item last
            rest) :
          readAtRule before first (name ++ (text ++ left)) = .ok (item, last, rest) := by
        refine readAtRule_of_parts hname hempty (hscan _) hspace hparams ?_
        rwa [hnamed, ← Cursor.advanceAll_append]
      cases Ending.of left with
      | block rest =>
          refine .opening (.atRule name afterName params between) rest
            (by simp [Heading.text, htext]) fun before first => ?_
          have h := hread before first rest .block
          simpa [Heading.text, htext] using h
      | semicolon rest =>
          refine .leaf (.statement (String.ofList name) (String.ofList params)
            ⟨"", String.ofList afterName, String.ofList between, "", true⟩ none)
            ('@' :: (name ++ text) ++ [';']) rest (by simp) fun before first => ?_
          have h := hread before first rest .terminated
          simpa [Node.standing, Node.shown, htext] using h
      | bare hleft =>
          refine .leaf (.statement (String.ofList name) (String.ofList params)
            ⟨"", String.ofList afterName, String.ofList between, "", false⟩ none)
            ('@' :: (name ++ text)) left (by simp) fun before first => ?_
          have h := hread before first left (.bare hleft)
          simpa [Node.standing, Node.shown, htext] using h

/-- What a declaration shows is its parts up to the mark. -/
theorem shown_declaration (p : Parts) (before : List Char) (first : Cursor) (semicolon : Bool) :
    (Node.decl (p.declaration before first semicolon)).shown =
      p.lead ++ ':' :: (p.valueSpace ++ p.marked) := by
  have hmark := toList_mark_of_cut (p.declaration before first semicolon) p.mark rfl rfl
  simp only [Node.shown, hmark]
  simp [Parts.declaration, Parts.lead, Parts.marked]

/-- What the statement `text` at the head of a source is read as, if it is no heading. -/
inductive DeclarationOutcome (source text : List Char) (semicolon : Bool) : Prop where
  | decl (d : Declaration)
      (hread : ∀ before first, ∃ d', readDeclaration before first source text semicolon = .ok d' ∧
        .decl d' =
          (Node.decl d).standing before (first.rangeTo (first.advanceAll (Node.decl d).shown)))
  | fault {fault : Fault} {back : List Char} (front : List Char) (hsource : source = front ++ back)
      (hblames : Blames fault front back)
      (hread : ∀ before first, readDeclaration before first source text semicolon =
        .error ⟨fault, first.advanceAll front⟩)

theorem outcome_readDeclaration {text left : List Char} (semicolon : Bool)
    (hstart : StatementStart (text ++ left)) :
    DeclarationOutcome (text ++ left) text semicolon := by
  cases colonOffset_anywhere text.length (text ++ left) with
  | fault front hfront hopen hcolon =>
      refine .fault front hfront (.unclosed hopen) fun before first => ?_
      rw [readDeclaration, hcolon]
  | found r hcolon =>
      cases r with
      | none =>
          refine .fault [] rfl (.unknownWord hstart) fun before first => ?_
          rw [readDeclaration, hcolon]
          rfl
      | some n =>
          by_cases hempty : (Text.splitTail isBlankChar (text.take n)).1 = []
          · refine .fault [] rfl (.missingProperty hstart) fun before first => ?_
            simp [readDeclaration, hcolon, hempty]
          · obtain ⟨d, hd⟩ : ∃ d,
                readDeclaration [] Cursor.start (text ++ left) text semicolon = .ok d := by
              simp [readDeclaration, hcolon, hempty]
            obtain ⟨p, hsplit, htext, hlead, -⟩ := readDeclaration_eq_ok_iff.1 hd
            refine .decl (p.declaration [] Cursor.start semicolon) fun before first =>
              ⟨p.declaration before first semicolon, readDeclaration_eq_ok_iff.2
                ⟨p, hsplit, htext, ?_, rfl⟩, ?_⟩
            · rw [hcolon, ← hlead, hcolon]
            · rw [shown_declaration]
              rfl

/-- A statement that is read as its declaration is comes to what the declaration comes to. -/
theorem DeclarationOutcome.readStatement {source text front rest : List Char} {semicolon : Bool}
    (h : DeclarationOutcome source text semicolon) (hsource : source = front ++ rest)
    (hread : ∀ before first, readStatement before first source =
      (readDeclaration before first source text semicolon).map fun d =>
        (.leaf (.decl d), first.advanceAll front, rest)) :
    Outcome source fun before first => readStatement before first source := by
  cases h with
  | fault lead hlead hblames hdecl =>
      refine .fault lead hlead hblames fun before first => ?_
      rw [hread, hdecl]
      rfl
  | decl d hdecl =>
      refine .leaf (.decl d) front rest hsource fun before first => ?_
      obtain ⟨d', hd', hstanding⟩ := hdecl before first
      rw [hread, hd', ← hstanding]
      rfl

theorem outcome_readStatement {source : List Char} (hstart : StatementStart source) :
    Outcome source fun before first => readStatement before first source := by
  cases scan_anywhere 0 source with
  | fault front hfront hopen hscan =>
      refine .fault front hfront (.unclosed hopen) fun before first => ?_
      simp only [readStatement, hscan]
  | found parts hscan =>
      obtain ⟨text, left⟩ := parts
      obtain rfl := scan_append (hscan Cursor.start)
      cases Ending.of left with
      | block rest =>
          obtain ⟨selector, between, hsplit⟩ : ∃ selector between,
              Text.splitTail isBlankChar text = (selector, between) := ⟨_, _, rfl⟩
          have htext := (Text.splitTail_eq_iff.1 hsplit).1
          refine .opening (.rule selector between) rest
            (by rw [Heading.text, htext]) fun before first => ?_
          have htail : StatementTail before first (text ++ '\x7b' :: rest) text ('\x7b' :: rest)
              _ _ _ := .block hsplit
          have h := readStatement_of_tail (hscan first) htail
          simpa [Heading.text, htext] using h
      | semicolon rest =>
          have hsource : text ++ ';' :: rest = (text ++ [';']) ++ rest := by simp
          refine (outcome_readDeclaration true hstart).readStatement hsource fun before first => ?_
          rw [readStatement_semicolon (hscan first), Cursor.advanceAll_append]
          rfl
      | bare hleft =>
          exact (outcome_readDeclaration false hstart).readStatement rfl fun before first =>
            readStatement_bare (hscan first) hleft

/-- What an item is read as does not depend on what stands before it. -/
theorem outcome_readItem (c : Char) (cs : List Char) :
    Outcome (c :: cs) fun before first => readItem before first c cs := by
  by_cases hat : c = '@'
  · subst hat
    simpa only [readItem_of_readAtRule] using outcome_readAtRule cs
  · by_cases hmark : (c :: cs).take 2 = ['/', '*']
    · obtain ⟨rfl, hcs⟩ := List.cons.inj hmark
      have hstar : cs.take 1 = ['*'].take 1 := hcs
      obtain ⟨ds, rfl, -⟩ := cons_of_take_succ hstar
      exact outcome_readComment ds
    · have hstart : StatementStart (c :: cs) := ⟨by simpa using hat, hmark⟩
      simpa only [readItem_of_readStatement hat hmark] using outcome_readStatement hstart

/-! ### Turns of the reader -/

section Turns

variable {c : Char} {cs : List Char}

theorem readItem_leaf {before rest : List Char} {first last : Cursor} {node : Node}
    (h : readItem before first c cs = .ok (.leaf node, last, rest)) :
    node.shown ++ node.trail ≠ [] ∧ c :: cs = (node.shown ++ node.trail) ++ rest ∧
      last = first.advanceAll (node.shown ++ node.trail) := by
  obtain ⟨-, hbefore, hshown, -, hlast⟩ := fits_readItem h
  have htext := text_readItem h
  rw [Item.text, Node.toList_render, hbefore, List.append_assoc, List.append_assoc,
    List.append_cancel_left_eq] at htext
  refine ⟨?_, ?_, hlast⟩
  · exact fun h => hshown (List.append_eq_nil_iff.1 h).1
  · rw [List.append_assoc, htext]

/-- A node that is read behind one text is read behind every text. -/
theorem readItem_leaf_anywhere {before rest : List Char} {first last : Cursor} {node : Node}
    (h : readItem before first c cs = .ok (.leaf node, last, rest)) :
    node = node.standing before (first.rangeTo (first.advanceAll node.shown)) ∧
      ∀ before' first', readItem before' first' c cs =
        .ok (.leaf (node.standing before' (first'.rangeTo (first'.advanceAll node.shown))),
          first'.advanceAll (node.shown ++ node.trail), rest) := by
  obtain ⟨-, hcs, -⟩ := readItem_leaf h
  cases outcome_readItem c cs with
  | opening _ _ _ hread =>
      rw [hread] at h
      cases h
  | fault _ _ _ hread =>
      rw [hread] at h
      cases h
  | leaf plain front back hsource hread =>
      rw [hread] at h
      cases h
      rw [hsource, List.append_cancel_right_eq] at hcs
      simp only [Node.shown_standing, Node.trail_standing, Node.standing_standing] at hcs ⊢
      exact ⟨trivial, fun before' first' => by rw [hread, hcs]⟩

theorem readItem_opening {before rest : List Char} {first last brace : Cursor}
    {heading : Heading}
    (h : readItem before first c cs = .ok (.opening heading brace, last, rest)) :
    c :: cs = heading.text ++ '\x7b' :: rest ∧ brace = first.advanceAll heading.text ∧
      last = first.advanceAll (heading.text ++ ['\x7b']) := by
  obtain ⟨hbrace, hlast⟩ := fits_readItem h
  have htext := text_readItem h
  rw [Item.text, List.append_assoc, List.append_assoc, List.append_cancel_left_eq] at htext
  refine ⟨htext.symm, hbrace, ?_⟩
  rw [hlast, hbrace, Cursor.advanceAll_append]
  rfl

/-- A heading that is read at one place is read at every place. -/
theorem readItem_opening_anywhere {before rest : List Char} {first last brace : Cursor}
    {heading : Heading}
    (h : readItem before first c cs = .ok (.opening heading brace, last, rest))
    (before' : List Char) (first' : Cursor) :
    readItem before' first' c cs =
      .ok (.opening heading (first'.advanceAll heading.text),
        first'.advanceAll (heading.text ++ ['\x7b']), rest) := by
  cases outcome_readItem c cs with
  | leaf _ _ _ _ hread =>
      rw [hread] at h
      cases h
  | fault _ _ _ hread =>
      rw [hread] at h
      cases h
  | opening _ _ _ hread =>
      rw [hread] at h
      cases h
      exact hread before' first'

/-- A fault that is met at one place is met at every place, equally far behind it. -/
theorem readItem_fault_anywhere {before : List Char} {first : Cursor} {f : FaultAt}
    (h : readItem before first c cs = .error f) :
    ∃ front back, c :: cs = front ++ back ∧ Blames f.fault front back ∧
      f.place = first.advanceAll front ∧
      ∀ before' first', readItem before' first' c cs =
        .error ⟨f.fault, first'.advanceAll front⟩ := by
  cases outcome_readItem c cs with
  | leaf _ _ _ _ hread =>
      rw [hread] at h
      cases h
  | opening _ _ _ hread =>
      rw [hread] at h
      cases h
  | fault front hsource hblames hread =>
      rw [hread] at h
      cases h
      exact ⟨front, _, hsource, hblames, rfl, hread⟩

theorem readNodes_unclosed {before source : List Char}
    (hsplit : Text.splitHead isSeparator source = (before, [])) (frame : Frame)
    (outer : List Frame) (nodes : List Node) (cur : Cursor) :
    readNodes (frame :: outer) nodes cur source = .error ⟨.unclosedBlock, frame.brace⟩ := by
  rw [readNodes]
  split
  · rfl
  · rename_i h
    rw [hsplit] at h
    cases (Prod.mk.inj h).2

theorem readNodes_unexpected {before source : List Char}
    (hsplit : Text.splitHead isSeparator source = (before, '\x7d' :: cs)) (nodes : List Node)
    (cur : Cursor) :
    readNodes [] nodes cur source = .error ⟨.unexpectedBrace, cur.advanceAll before⟩ := by
  rw [readNodes]
  split
  · rename_i h
    rw [hsplit] at h
    cases (Prod.mk.inj h).2
  · rename_i h
    rw [hsplit] at h
    obtain ⟨rfl, htail⟩ := Prod.mk.inj h
    obtain ⟨rfl, rfl⟩ := List.cons.inj htail
    rfl

theorem readNodes_failed {before source : List Char} {cur : Cursor} {f : FaultAt}
    (hsplit : Text.splitHead isSeparator source = (before, c :: cs)) (hc : c ≠ '\x7d')
    (hitem : readItem before (cur.advanceAll before) c cs = .error f) (frames : List Frame)
    (nodes : List Node) : readNodes frames nodes cur source = .error f := by
  rw [readNodes]
  split
  · rename_i h
    rw [hsplit] at h
    cases (Prod.mk.inj h).2
  · rename_i h
    rw [hsplit] at h
    obtain ⟨rfl, htail⟩ := Prod.mk.inj h
    obtain ⟨rfl, rfl⟩ := List.cons.inj htail
    rw [dif_neg hc]
    split
    all_goals
      rename_i h
      rw [hitem] at h
      cases h
    rfl

end Turns

/-! ### Runs of the reader -/

/-- How a turn of the reader ends in a fault. -/
inductive State.Fails : State → FaultAt → Prop where
  | unclosed {frame : Frame} {outer : List Frame} {nodes : List Node} {cur : Cursor}
      {source before : List Char} (hsplit : Text.splitHead isSeparator source = (before, [])) :
      State.Fails ⟨frame :: outer, nodes, cur, source⟩ ⟨.unclosedBlock, frame.brace⟩
  | unexpected {nodes : List Node} {cur : Cursor} {source before cs : List Char}
      (hsplit : Text.splitHead isSeparator source = (before, '\x7d' :: cs)) :
      State.Fails ⟨[], nodes, cur, source⟩ ⟨.unexpectedBrace, cur.advanceAll before⟩
  | item {frames : List Frame} {nodes : List Node} {cur : Cursor} {source before cs : List Char}
      {c : Char} {f : FaultAt} (hsplit : Text.splitHead isSeparator source = (before, c :: cs))
      (hc : c ≠ '\x7d') (hitem : readItem before (cur.advanceAll before) c cs = .error f) :
      State.Fails ⟨frames, nodes, cur, source⟩ f

/-- What every turn preserves holds in the state in which a turn fails. -/
theorem readNodes_fails (Inv : State → Prop)
    (hstep : ∀ {a b : State}, Step a b → Inv a → Inv b)
    {frames : List Frame} {nodes : List Node} {cur : Cursor} {source : List Char} {f : FaultAt}
    (hinv : Inv ⟨frames, nodes, cur, source⟩)
    (h : readNodes frames nodes cur source = .error f) : ∃ s, Inv s ∧ s.Fails f := by
  fun_induction readNodes frames nodes cur source with
  | case1 => cases h
  | case2 nodes cur source before hsplit frame outer =>
      obtain rfl := Except.error.inj h
      exact ⟨_, hinv, .unclosed hsplit⟩
  | case3 nodes cur source before cs first hsplit =>
      obtain rfl := Except.error.inj h
      exact ⟨_, hinv, .unexpected hsplit⟩
  | case4 nodes cur source before cs first frame outer hsplit last ih =>
      rw [List.unattach_reverse, List.unattach_attach] at ih
      exact ih (hstep (.close hsplit rfl) hinv) h
  | case5 frames nodes cur source before c cs hsplit first hc e hitem =>
      obtain rfl := Except.error.inj h
      exact ⟨_, hinv, .item hsplit hc hitem⟩
  | case6 frames nodes cur source before c cs hsplit first hc node next rest hitem ih =>
      exact ih (hstep (.leaf hsplit hitem) hinv) h
  | case7 frames nodes cur source before c cs hsplit first hc heading brace next rest hitem ih =>
      exact ih (hstep (.opening hsplit hitem) hinv) h

def State.read (s : State) : Except FaultAt Sheet :=
  readNodes s.frames s.nodes s.cur s.source

theorem Step.read_eq {a b : State} (h : Step a b) : a.read = b.read := by
  cases h with
  | close hsplit hlast =>
      rw [hlast]
      exact readNodes_close hsplit _ _ _ _
  | leaf hsplit hitem =>
      exact readNodes_item hsplit (fun hc => readItem_brace (hc ▸ hitem)) hitem _ _
  | opening hsplit hitem =>
      exact readNodes_item hsplit (fun hc => readItem_brace (hc ▸ hitem)) hitem _ _

theorem State.Ends.read_eq {s : State} {sheet : Sheet} (h : s.Ends sheet) :
    s.read = .ok sheet := by
  obtain ⟨frames, nodes, cur, source⟩ := s
  obtain ⟨hframes, after, hsplit, rfl⟩ := h
  obtain rfl : frames = [] := hframes
  exact readNodes_nil hsplit nodes cur

theorem State.Fails.read_eq {s : State} {f : FaultAt} (h : s.Fails f) : s.read = .error f := by
  cases h with
  | unclosed hsplit => exact readNodes_unclosed hsplit _ _ _ _
  | unexpected hsplit => exact readNodes_unexpected hsplit _ _
  | item hsplit hc hitem => exact readNodes_failed hsplit hc hitem _ _

end Reader

end StyleAudit
