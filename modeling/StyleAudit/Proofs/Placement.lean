import StyleAudit.Proofs.Lossless
import StyleAudit.Sheet.Walk

/-!
Where the nodes of a sheet that was read stand in its source.

A node that is read at a cursor has the range that the cursor passes over when it walks the text
of the node. `Node.Placed` says so for a node and all nodes below it, and every sheet that was read
is placed from the start of its source.
-/

namespace StyleAudit

/-- The line after a text: one more for each line feed, counted up to the limit. -/
theorem Position.line_advanceAll {p : Position} (h : p.line < Position.limit) (cs : List Char) :
    (p.advanceAll cs).line = (p.line + cs.count '\n') % Position.limit := by
  induction cs generalizing p with
  | nil => exact (Nat.mod_eq_of_lt h).symm
  | cons c cs ih =>
      by_cases hc : c = '\n'
      · have hnext : (p.advance c).line = (p.line + 1) % Position.limit := by
          simp [Position.advance, hc, Position.following]
        have hlt : (p.advance c).line < Position.limit := by
          rw [hnext]
          exact Nat.mod_lt _ (by decide)
        have hrest := ih hlt
        rw [hnext, Nat.mod_add_mod] at hrest
        rw [show p.advanceAll (c :: cs) = (p.advance c).advanceAll cs from rfl, hrest, hc,
          List.count_cons_self]
        congr 1
        omega
      · have hsame : (p.advance c).line = p.line := by simp [Position.advance, hc]
        have hrest := ih (p := p.advance c) (hsame ▸ h)
        rw [hsame] at hrest
        rw [show p.advanceAll (c :: cs) = (p.advance c).advanceAll cs from rfl, hrest,
          List.count_cons_of_ne hc]

namespace Node

def before : Node → List Char
  | .rule _ _ raws _ => raws.before.toList
  | .block _ _ _ raws _ => raws.before.toList
  | .statement _ _ raws _ => raws.before.toList
  | .decl d => d.raws.before.toList
  | .comment c => c.raws.before.toList

def lead : Node → List Char
  | .rule selector _ raws _ => selector.toList ++ raws.between.toList ++ ['\x7b']
  | .block name params _ raws _ =>
      '@' :: name.toList ++ raws.afterName.toList ++ params.toList ++ raws.between.toList ++
        ['\x7b']
  | _ => []

def shown : Node → List Char
  | .rule selector nodes raws source =>
      (Node.rule selector nodes raws source).lead ++ (renderAll nodes).toList ++
        raws.after.toList ++ ['\x7d']
  | .block name params nodes raws source =>
      (Node.block name params nodes raws source).lead ++ (renderAll nodes).toList ++
        raws.after.toList ++ ['\x7d']
  | .statement name params raws _ =>
      '@' :: name.toList ++ raws.afterName.toList ++ params.toList ++ raws.between.toList ++
        (if raws.semicolon then [';'] else [])
  | .decl d => d.prop.toList ++ d.raws.between.toList ++ d.value.toList ++ d.mark.toList
  | .comment c =>
      '/' :: '*' :: c.raws.left.toList ++ c.text.toList ++ c.raws.right.toList ++ ['*', '/']

/-- What ends a declaration is not in its range. -/
def trail : Node → List Char
  | .decl d => d.raws.afterValue.toList ++ (if d.raws.semicolon then [';'] else [])
  | _ => []

theorem toList_render (node : Node) :
    node.render.toList = node.before ++ node.shown ++ node.trail := by
  cases node with
  | rule selector nodes raws source => simp [render, before, shown, lead, trail]
  | block name params nodes raws source => simp [render, before, shown, lead, trail]
  | statement name params raws source =>
      cases h : raws.semicolon <;> simp [render, before, shown, trail, h]
  | decl d =>
      rw [render, Reader.toList_render_decl]
      simp [before, shown, trail]
  | comment c => simp [render, Comment.render, before, shown, trail]

/-- The node stands after the text `pre` that follows a cursor, and its range is not empty. -/
def StandsAfter (cur : Cursor) (pre : List Char) (node : Node) : Prop :=
  node.shown ≠ [] ∧
    node.source = some ((cur.advanceAll pre).rangeTo (cur.advanceAll (pre ++ node.shown)))

end Node

mutual

/-- The node and all nodes below it stand where a reader at the cursor meets them. -/
def Node.Placed (cur : Cursor) : Node → Prop
  | .rule selector nodes raws source =>
      (Node.rule selector nodes raws source).StandsAfter cur raws.before.toList ∧
        Node.PlacedAll
          (cur.advanceAll (raws.before.toList ++ (Node.rule selector nodes raws source).lead)) nodes
  | .block name params nodes raws source =>
      (Node.block name params nodes raws source).StandsAfter cur raws.before.toList ∧
        Node.PlacedAll
          (cur.advanceAll
            (raws.before.toList ++ (Node.block name params nodes raws source).lead)) nodes
  | .statement name params raws source =>
      (Node.statement name params raws source).StandsAfter cur raws.before.toList
  | .decl d => (Node.decl d).StandsAfter cur d.raws.before.toList
  | .comment c => (Node.comment c).StandsAfter cur c.raws.before.toList

/-- The nodes stand one after the other from the cursor on. -/
def Node.PlacedAll (cur : Cursor) : List Node → Prop
  | [] => True
  | node :: nodes =>
      node.Placed cur ∧ Node.PlacedAll (cur.advanceAll node.render.toList) nodes

end

namespace Node

theorem placedAll_append (cur : Cursor) (xs ys : List Node) :
    PlacedAll cur (xs ++ ys) ↔
      PlacedAll cur xs ∧ PlacedAll (cur.advanceAll (renderAll xs).toList) ys := by
  induction xs generalizing cur with
  | nil => simp [PlacedAll, renderAll]
  | cons node nodes ih => simp [PlacedAll, renderAll, ih, and_assoc]

/-- A node without children is placed as soon as it stands where it should. -/
theorem placed_of_standsAfter {cur : Cursor} {node : Node} (hchildren : node.children? = none)
    (h : node.StandsAfter cur node.before) : node.Placed cur := by
  cases node with
  | rule selector nodes raws source => simp [children?] at hchildren
  | block name params nodes raws source => simp [children?] at hchildren
  | statement name params raws source => simpa [Placed, before] using h
  | decl d => simpa [Placed, before] using h
  | comment c => simpa [Placed, before] using h

end Node

namespace Reader

/-- An item that begins at `first` ends at `last`, and a whole node has the range it should. -/
def Item.Fits (before : List Char) (first last : Cursor) : Item → Prop
  | .leaf node =>
      node.children? = none ∧ node.before = before ∧ node.shown ≠ [] ∧
        node.source = some (first.rangeTo (first.advanceAll node.shown)) ∧
        last = first.advanceAll (node.shown ++ node.trail)
  | .opening heading brace =>
      brace = first.advanceAll heading.text ∧ last = brace.advance '\x7b'

theorem fits_readComment {before : List Char} {first last : Cursor} {inside rest : List Char}
    {item : Item} (h : readComment before first inside = .ok (item, last, rest)) :
    item.Fits before first last := by
  obtain ⟨body, left, trimmed, text, right, hbody, hleft, hright, rfl, rfl⟩ := readComment_cases h
  obtain ⟨hparts, -⟩ := comment_parts hbody hleft hright
  rw [hparts]
  simp [Item.Fits, Node.children?, Node.before, Node.source, Node.shown, Node.trail]

theorem fits_readAtRule {before : List Char} {first last : Cursor} {inside rest : List Char}
    {item : Item} (h : readAtRule before first inside = .ok (item, last, rest)) :
    item.Fits before first last := by
  obtain ⟨name, tail, text, left, afterName, trimmed, params, between, hname, -, hscan, hspace,
    hparams, htail⟩ := readAtRule_cases h
  obtain ⟨htext, -⟩ := atRule_parts hname hscan hspace hparams
  rw [htext] at htail
  cases htail with
  | block => simp [Item.Fits, Heading.text]
  | terminated =>
      simp [Item.Fits, Node.children?, Node.before, Node.source, Node.shown, Node.trail]
  | bare => simp [Item.Fits, Node.children?, Node.before, Node.source, Node.shown, Node.trail]

/-- A declaration has the range of its statement without the blanks at the end. -/
theorem fits_readDeclaration {before : List Char} {first : Cursor}
    {source text rest : List Char} {semicolon : Bool} {d : Declaration}
    (hsource : text ++ rest = source)
    (h : readDeclaration before first source text semicolon = .ok d) :
    (Item.leaf (.decl d)).Fits before first
      (first.advanceAll (text ++ if semicolon then [';'] else [])) := by
  have hrender := toList_render_readDeclaration hsource h
  obtain ⟨n, prop, propSpace, valueSpace, tail, trimmed, afterValue, value, mark, hcolon, hprop, -,
    hspace, htrim, hmark, hd⟩ := readDeclaration_cases h
  obtain ⟨htake, hvalue, -⟩ := declaration_parts hsource hcolon hprop hspace htrim hmark
  have hmarkText := toList_mark_of_cut d mark (by rw [hd]) (by rw [hd])
  have hbefore : (Node.decl d).before = before := by simp [Node.before, hd]
  have hshown : (Node.decl d).shown = text.take n ++ ':' :: (valueSpace ++ trimmed) := by
    rw [Node.shown, hmarkText, htake, hvalue, hd]
    simp
  refine ⟨rfl, hbefore, by simp [hshown], ?_, ?_⟩
  · rw [hshown, Node.source, hd]
  · have hwhole := Node.toList_render (.decl d)
    rw [Node.render, hrender, hbefore, List.append_assoc, List.append_assoc] at hwhole
    rw [List.append_cancel_left hwhole]

theorem fits_readStatement {before : List Char} {first last : Cursor} {source rest : List Char}
    {item : Item} (h : readStatement before first source = .ok (item, last, rest)) :
    item.Fits before first last := by
  obtain ⟨text, left, hscan, htail⟩ := readStatement_cases h
  have hsource := scan_append hscan
  cases htail with
  | block hsplit =>
      have htext := Text.splitTail_append isBlankChar text
      rw [hsplit] at htext
      exact ⟨by rw [Heading.text, htext], rfl⟩
  | terminated hdecl => simpa using fits_readDeclaration hsource hdecl
  | bare hrest hdecl => simpa using fits_readDeclaration hsource hdecl

theorem fits_readItem {before : List Char} {first last : Cursor} {c : Char}
    {cs rest : List Char} {item : Item}
    (h : readItem before first c cs = .ok (item, last, rest)) : item.Fits before first last := by
  unfold readItem at h
  split at h
  · exact fits_readAtRule h
  · split at h
    · exact fits_readStatement h
    · split at h
      · exact fits_readComment h
      · exact fits_readStatement h

/-- The nodes that are read so far stand where they should, in every block that is open. -/
def TakenPlaced : List Frame → List Node → Prop
  | [], nodes => Node.PlacedAll Cursor.start nodes.reverse
  | frame :: outer, nodes =>
      TakenPlaced outer frame.preceding ∧
        frame.first = Cursor.start.advanceAll (taken outer frame.preceding ++ frame.before) ∧
        Node.PlacedAll (frame.first.advanceAll (frame.heading.text ++ ['\x7b'])) nodes.reverse

/-- The cursor has passed what is taken, and what is taken is placed. -/
def State.Tracks (s : State) : Prop :=
  s.cur = Cursor.start.advanceAll (taken s.frames s.nodes) ∧ TakenPlaced s.frames s.nodes

/-- A node that stands at the end of what is taken can be taken too. -/
theorem takenPlaced_cons {frames : List Frame} {nodes : List Node} {node : Node}
    (h : TakenPlaced frames nodes)
    (hnode : node.Placed (Cursor.start.advanceAll (taken frames nodes))) :
    TakenPlaced frames (node :: nodes) := by
  cases frames with
  | nil =>
      rw [TakenPlaced, List.reverse_cons, Node.placedAll_append]
      exact ⟨h, by simpa [Node.PlacedAll, taken] using hnode⟩
  | cons frame outer =>
      obtain ⟨houter, hfirst, hnodes⟩ := h
      refine ⟨houter, hfirst, ?_⟩
      rw [List.reverse_cons, Node.placedAll_append]
      refine ⟨hnodes, ?_⟩
      rw [hfirst]
      simpa [Node.PlacedAll, taken] using hnode

/-- The node of a block that is closed stands where its frame began. -/
theorem Frame.placed_close {f : Frame} {nodes : List Node} {after : List Char} {cur last : Cursor}
    (hfirst : f.first = cur.advanceAll f.before)
    (hnodes : Node.PlacedAll (f.first.advanceAll (f.heading.text ++ ['\x7b'])) nodes)
    (hlast : last = f.first.advanceAll (f.heading.text ++ '\x7b' ::
      (Node.renderAll nodes).toList ++ after ++ ['\x7d'])) :
    (f.close nodes after last).Placed cur := by
  unfold Frame.close
  cases hheading : f.heading with
  | rule selector between =>
      rw [hheading] at hnodes hlast
      simp_all [Node.Placed, Node.StandsAfter, Node.source, Node.shown, Node.lead, Heading.text]
  | atRule name afterName params between =>
      rw [hheading] at hnodes hlast
      simp_all [Node.Placed, Node.StandsAfter, Node.source, Node.shown, Node.lead, Heading.text]

/-- One turn of the reader keeps everything in its place. -/
theorem Step.tracks {a b : State} (h : Step a b) (ha : a.Tracks) : b.Tracks := by
  cases h with
  | close hsplit hlast =>
      rename_i frame outer nodes cur last source before cs
      obtain ⟨hcur, houter, hfirst, hnodes⟩ := ha
      dsimp only at hcur hnodes
      have hclosed := taken_cons outer (frame.close nodes.reverse before last) frame.preceding
      rw [Frame.toList_render_close] at hclosed
      have hat : last = Cursor.start.advanceAll
          (taken outer (frame.close nodes.reverse before last :: frame.preceding)) := by
        rw [hclosed, hlast, hcur]
        simp [taken]
      refine ⟨hat, takenPlaced_cons houter (Frame.placed_close ?_ hnodes ?_)⟩
      · rw [hfirst, Cursor.advanceAll_append]
      · rw [hat, hclosed, hfirst]
        simp
  | leaf hsplit hitem =>
      rename_i frames nodes cur next source before cs rest c node
      obtain ⟨hcur, htaken⟩ := ha
      dsimp only at hcur
      obtain ⟨hchildren, hbefore, hshown, hsource, hnext⟩ := fits_readItem hitem
      have hplaced : node.Placed cur := by
        apply Node.placed_of_standsAfter hchildren
        refine ⟨hshown, ?_⟩
        rw [hsource, hbefore, Cursor.advanceAll_append]
      refine ⟨?_, takenPlaced_cons htaken (hcur ▸ hplaced)⟩
      rw [taken_cons, Node.toList_render, Cursor.advanceAll_append, ← hcur, hnext, hbefore]
      simp
  | opening hsplit hitem =>
      rename_i frames nodes cur brace next source before cs rest c heading
      obtain ⟨hcur, htaken⟩ := ha
      obtain ⟨hbrace, hnext⟩ := fits_readItem hitem
      dsimp only at hcur
      refine ⟨?_, htaken, ?_, trivial⟩
      · dsimp only
        rw [hnext, hbrace, hcur]
        simp [taken, Node.renderAll]
      · dsimp only
        rw [hcur, Cursor.advanceAll_append]

end Reader

/-- Every node of a sheet that was read stands where a walk over the source meets it. -/
theorem Sheet.placedAll_of_parse {file : Option String} {source : String} {sheet : Sheet}
    (h : Sheet.parse file source = .ok sheet) : Node.PlacedAll Cursor.start sheet.nodes := by
  have hstart : Reader.State.Tracks ⟨[], [], Cursor.start, source.toList⟩ := by
    simp [Reader.State.Tracks, Reader.taken, Reader.TakenPlaced, Node.renderAll, Node.PlacedAll]
  obtain ⟨s, hs, hframes, after, -, rfl⟩ := Reader.readNodes_preserves Reader.State.Tracks
    Reader.Step.tracks hstart (Reader.parse_eq_ok_iff.1 h)
  have htaken := hs.2
  rw [hframes] at htaken
  exact htaken

namespace Node

/-- The nodes stand in the text that follows a cursor, each beginning after the one before it. -/
def InOrder (cur : Cursor) (text : List Char) (nodes : List Node) : Prop :=
  ∃ ps : List (List Char × Node), ps.map Prod.snd = nodes ∧
    (∀ p ∈ ps, p.2.StandsAfter cur p.1 ∧ p.1 <+: text ∧ p.1.length < text.length) ∧
    ps.Pairwise fun p q => p.1.length < q.1.length

theorem inOrder_nil (cur : Cursor) (text : List Char) : InOrder cur text [] :=
  ⟨[], rfl, by simp, .nil⟩

/-- Standing after a text that is longer at its front. -/
theorem standsAfter_append {cur : Cursor} {front pre : List Char} {node : Node} :
    node.StandsAfter (cur.advanceAll front) pre ↔ node.StandsAfter cur (front ++ pre) := by
  simp [StandsAfter]

theorem inOrder_append {cur : Cursor} {front back : List Char} {xs ys : List Node}
    (hxs : InOrder cur front xs) (hys : InOrder (cur.advanceAll front) back ys) :
    InOrder cur (front ++ back) (xs ++ ys) := by
  obtain ⟨ps, rfl, hps, hpsOrder⟩ := hxs
  obtain ⟨qs, rfl, hqs, hqsOrder⟩ := hys
  refine ⟨ps ++ qs.map fun q => (front ++ q.1, q.2), by simp, ?_, ?_⟩
  · intro p hp
    rcases List.mem_append.1 hp with hp | hp
    · obtain ⟨hstands, hpre, hlt⟩ := hps p hp
      refine ⟨hstands, hpre.trans (List.prefix_append front back), ?_⟩
      simp only [List.length_append]
      omega
    · obtain ⟨q, hq, rfl⟩ := List.mem_map.1 hp
      obtain ⟨hstands, hpre, hlt⟩ := hqs q hq
      refine ⟨standsAfter_append.1 hstands, (List.prefix_append_right_inj front).2 hpre, ?_⟩
      simp only [List.length_append]
      omega
  · rw [List.pairwise_append]
    refine ⟨hpsOrder, ?_, ?_⟩
    · rw [List.pairwise_map]
      refine hqsOrder.imp ?_
      intro p q hpq
      simp only [List.length_append]
      omega
    · intro p hp q hq
      obtain ⟨q, -, rfl⟩ := List.mem_map.1 hq
      have hlt := (hps p hp).2.2
      simp only [List.length_append]
      omega

/-- A node stands before everything that stands behind the first text of its own. -/
theorem inOrder_cons {cur : Cursor} {pre lead text : List Char} {node : Node}
    {nodes : List Node} (hnode : node.StandsAfter cur pre) (hlead : lead ≠ [])
    (hnodes : InOrder (cur.advanceAll (pre ++ lead)) text nodes) :
    InOrder cur (pre ++ lead ++ text) (node :: nodes) := by
  have hone : InOrder cur (pre ++ lead) [node] := by
    refine ⟨[(pre, node)], rfl, ?_, List.pairwise_singleton _ _⟩
    intro p hp
    obtain rfl := List.mem_singleton.1 hp
    refine ⟨hnode, List.prefix_append pre lead, ?_⟩
    have hpos := List.length_pos_iff.2 hlead
    simp only [List.length_append]
    omega
  exact inOrder_append hone hnodes

theorem InOrder.mono {cur : Cursor} {text : List Char} {nodes : List Node}
    (h : InOrder cur text nodes) (rest : List Char) : InOrder cur (text ++ rest) nodes := by
  simpa using inOrder_append h (inOrder_nil (cur.advanceAll text) rest)

/-- A node without children stands in its own text. -/
theorem inOrder_leaf {cur : Cursor} {node : Node} (h : node.StandsAfter cur node.before) :
    InOrder cur node.render.toList [node] := by
  have hone := inOrder_cons h h.1 (inOrder_nil (cur.advanceAll (node.before ++ node.shown)) [])
  rw [toList_render]
  simpa using hone.mono node.trail

/-- A node with children stands before them, and they stand in its text. -/
theorem inOrder_block {cur : Cursor} {node : Node} {nodes : List Node} (rest : List Char)
    (h : node.StandsAfter cur node.before) (hlead : node.lead ≠ [])
    (hshown : node.shown = node.lead ++ (renderAll nodes).toList ++ rest)
    (hnodes : InOrder (cur.advanceAll (node.before ++ node.lead)) (renderAll nodes).toList
      (walkAll nodes)) : InOrder cur node.render.toList (node :: walkAll nodes) := by
  have hall := inOrder_cons h hlead hnodes
  rw [toList_render, hshown]
  simpa using hall.mono (rest ++ node.trail)

end Node

mutual

/-- The nodes of a placed tree stand in the order in which they are walked. -/
theorem Node.inOrder_walk (cur : Cursor) :
    (node : Node) → node.Placed cur → Node.InOrder cur node.render.toList node.walk
  | .rule selector nodes raws source, h => by
      have hinner := Node.inOrder_walkAll _ nodes h.2
      refine Node.inOrder_block (raws.after.toList ++ ['\x7d']) h.1 (by simp [Node.lead]) ?_ hinner
      rw [Node.shown, List.append_assoc]
  | .block name params nodes raws source, h => by
      have hinner := Node.inOrder_walkAll _ nodes h.2
      refine Node.inOrder_block (raws.after.toList ++ ['\x7d']) h.1 (by simp [Node.lead]) ?_ hinner
      rw [Node.shown, List.append_assoc]
  | .statement name params raws source, h => Node.inOrder_leaf h
  | .decl d, h => Node.inOrder_leaf h
  | .comment c, h => Node.inOrder_leaf h

theorem Node.inOrder_walkAll (cur : Cursor) :
    (nodes : List Node) → Node.PlacedAll cur nodes →
      Node.InOrder cur (Node.renderAll nodes).toList (Node.walkAll nodes)
  | [], _ => Node.inOrder_nil cur _
  | node :: nodes, h => by
      have hhead := Node.inOrder_walk cur node h.1
      have htail := Node.inOrder_walkAll _ nodes h.2
      rw [Node.renderAll, String.toList_append, Node.walkAll]
      exact Node.inOrder_append hhead htail

end

/-- The nodes of a sheet that was read stand in its source in the order of a walk. -/
theorem Sheet.inOrder_walk_of_parse {file : Option String} {source : String} {sheet : Sheet}
    (h : Sheet.parse file source = .ok sheet) :
    Node.InOrder Cursor.start source.toList sheet.walk := by
  have hall := Node.inOrder_walkAll Cursor.start sheet.nodes (Sheet.placedAll_of_parse h)
  have hrender := Reader.toList_render_parse h
  rw [← hrender, Sheet.render, String.toList_append]
  exact hall.mono sheet.after.toList

end StyleAudit
