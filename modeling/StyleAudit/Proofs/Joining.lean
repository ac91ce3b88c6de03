import StyleAudit.Proofs.Appending
import StyleAudit.Proofs.LineIndex

/-!
Reading two sources as one.

A source behind another one is read to what it is read to alone, if the last node of the first is
complete: nothing that the reader remembers of the first source matters to the second. Only the
ranges are those of the same stretches of text further on, and the separators that the first source
ends with go to the first node of the second.
-/

namespace StyleAudit

/-! ### Places behind a text -/

/-- The `b`-th number from the `a`-th one on, both counted from one. -/
def Position.counted (a b : Nat) : Nat :=
  (a + b + (limit - 1)) % limit

/-- The position `p` of a text that does not begin at the start but at `origin`. -/
def Position.behind (origin p : Position) : Position :=
  ⟨counted origin.line p.line,
    if p.line = 1 then counted origin.column p.column else p.column⟩

def SourceRange.behind (front : List Char) (range : SourceRange) : SourceRange :=
  let origin := Position.start.advanceAll front
  ⟨⟨(byteLength front + range.span.start) % Position.limit,
      (byteLength front + range.span.stop) % Position.limit⟩,
    ⟨origin.behind range.location.start, origin.behind range.location.stop⟩⟩

/-- A place of a text of its own before its last part `rest`, and the same place where the text
stands behind another one. -/
def Cursor.BehindBefore (front back rest : List Char) (cur moved : Cursor) : Prop :=
  ∃ text, back = text ++ rest ∧ cur = Cursor.start.advanceAll text ∧
    moved = Cursor.start.advanceAll (front ++ text)

/-- A place of a text of its own, and the same place where the text stands behind another one. -/
def Cursor.Behind (front back : List Char) (cur moved : Cursor) : Prop :=
  ∃ rest, Cursor.BehindBefore front back rest cur moved

structure SourceRange.Behind (front back : List Char) (range moved : SourceRange) : Prop where
  stretch : ∃ first first' last last', Cursor.Behind front back first first' ∧
    Cursor.Behind front back last last' ∧ range = first.rangeTo last ∧
    moved = first'.rangeTo last'
  counted : byteLength back < Position.limit → moved = range.behind front

structure SyntaxError.Behind (front back : List Char) (e moved : SyntaxError) : Prop where
  reason : moved.reason = e.reason
  file : moved.file = e.file
  place : ∃ place place', Cursor.Behind front back place place' ∧
    place.position = ⟨e.line, e.column⟩ ∧ place'.position = ⟨moved.line, moved.column⟩
  counted : byteLength back < Position.limit →
    (⟨moved.line, moved.column⟩ : Position) =
      (Position.start.advanceAll front).behind ⟨e.line, e.column⟩

namespace Position

theorem counted_one {n : Nat} (hn : n < limit) : counted n 1 = n := by
  simp only [counted, limit] at hn ⊢
  omega

/-- The start of a text is where the text begins. -/
theorem behind_start {origin : Position} (hline : origin.line < limit)
    (hcolumn : origin.column < limit) : origin.behind start = origin := by
  rw [behind, if_pos (show start.line = 1 from rfl), start, counted_one hline, counted_one hcolumn]

theorem behind_advance {origin p : Position} (c : Char) (hpos : 1 ≤ p.line)
    (hlimit : p.line < limit) : (origin.behind p).advance c = origin.behind (p.advance c) := by
  unfold Position.advance
  by_cases hc : c = '\n'
  · rw [if_pos hc, if_pos hc]
    have hline : following (counted origin.line p.line) =
        counted origin.line (following p.line) := by
      simp only [following, counted, limit]
      omega
    have hone : following p.line ≠ 1 := by
      simp only [following, limit] at hlimit ⊢
      omega
    simp only [behind, hline, if_neg hone]
  · rw [if_neg hc, if_neg hc]
    have hcolumn : following (counted origin.column p.column) =
        counted origin.column (following p.column) := by
      simp only [following, counted, limit]
      omega
    by_cases hone : p.line = 1
    · simp only [behind, if_pos hone, hcolumn]
    · simp only [behind, if_neg hone]

theorem behind_advanceAll {origin p : Position} (cs : List Char) (hpos : 1 ≤ p.line)
    (hlimit : p.line + cs.length ≤ limit) :
    (origin.behind p).advanceAll cs = origin.behind (p.advanceAll cs) := by
  induction cs generalizing p with
  | nil => rfl
  | cons c cs ih =>
      rw [List.length_cons] at hlimit
      rw [advanceAll_cons, advanceAll_cons, behind_advance c hpos (by omega)]
      cases cs with
      | nil => rfl
      | cons d ds =>
          rw [List.length_cons] at hlimit ih
          have hline : (p.advance c).line = p.line ∨ (p.advance c).line = p.line + 1 := by
            unfold Position.advance
            split
            · exact .inr (following_of_lt (by omega))
            · exact .inl rfl
          exact ih (by omega) (by omega)

/-- Behind a text the walk over a short text comes to the positions of the text, counted on. -/
theorem advanceAll_behind (front : List Char) {cs : List Char} (h : byteLength cs < limit) :
    start.advanceAll (front ++ cs) = (start.advanceAll front).behind (start.advanceAll cs) := by
  have hlength := length_le_byteLength cs
  obtain ⟨_, _, hends⟩ := exists_endsIn front
  have hstart : (start.advanceAll front).behind start = start.advanceAll front := by
    refine behind_start ?_ ?_
    all_goals
      rw [hends.position]
      exact Nat.mod_lt _ (by decide)
  rw [advanceAll_append, ← behind_advanceAll cs (Nat.le_refl 1) (by dsimp only [start]; omega),
    hstart]

end Position

namespace Cursor

theorem Behind.position {front back : List Char} {cur moved : Cursor}
    (h : Cursor.Behind front back cur moved) (hsmall : byteLength back < Position.limit) :
    moved.position = (Position.start.advanceAll front).behind cur.position := by
  obtain ⟨rest, text, rfl, rfl, rfl⟩ := h
  rw [byteLength_append] at hsmall
  rw [position_advanceAll, position_advanceAll]
  exact Position.advanceAll_behind front (by omega)

theorem Behind.offset {front back : List Char} {cur moved : Cursor}
    (h : Cursor.Behind front back cur moved) :
    moved.offset = byteLength front + cur.offset := by
  obtain ⟨rest, text, -, rfl, rfl⟩ := h
  rw [offset_advanceAll, offset_advanceAll, byteLength_append]
  dsimp only [Cursor.start]
  omega

/-- Both places move on over the same text. -/
theorem BehindBefore.advanceAll {front back whole rest : List Char} {cur moved : Cursor}
    (h : Cursor.BehindBefore front back whole cur moved) (piece : List Char)
    (hwhole : whole = piece ++ rest) :
    Cursor.BehindBefore front back rest (cur.advanceAll piece) (moved.advanceAll piece) := by
  obtain ⟨text, rfl, rfl, rfl⟩ := h
  subst hwhole
  refine ⟨text ++ piece, (List.append_assoc ..).symm, (advanceAll_append ..).symm, ?_⟩
  rw [← advanceAll_append, List.append_assoc]

/-- The range between two places moves with them. -/
theorem Behind.rangeTo {front back : List Char} {first first' last last' : Cursor}
    (hfirst : Cursor.Behind front back first first')
    (hlast : Cursor.Behind front back last last') :
    SourceRange.Behind front back (first.rangeTo last) (first'.rangeTo last') := by
  refine ⟨⟨first, first', last, last', hfirst, hlast, rfl, rfl⟩, fun hsmall => ?_⟩
  simp only [Cursor.rangeTo, SourceRange.behind, hfirst.offset, hlast.offset,
    hfirst.position hsmall, hlast.position hsmall, Nat.add_mod_mod]

end Cursor

/-! ### Nodes behind a text -/

/-- The node with text put before what stands before it. -/
def Node.leadBy (lead : String) : Node → Node
  | .rule selector nodes raws source =>
      .rule selector nodes { raws with before := lead ++ raws.before } source
  | .block name params nodes raws source =>
      .block name params nodes { raws with before := lead ++ raws.before } source
  | .statement name params raws source =>
      .statement name params { raws with before := lead ++ raws.before } source
  | .decl d => .decl { d with raws := { d.raws with before := lead ++ d.raws.before } }
  | .comment c => .comment { c with raws := { c.raws with before := lead ++ c.raws.before } }

def Node.leadFirst (lead : String) : List Node → List Node
  | [] => []
  | node :: nodes => node.leadBy lead :: nodes

/-- The sheet with text put before its first node, or before the text after it if it has none. -/
def Sheet.leadBy (lead : String) (sheet : Sheet) : Sheet :=
  ⟨Node.leadFirst lead sheet.nodes,
    if sheet.nodes.isEmpty then lead ++ sheet.after else sheet.after⟩

def Node.RangeBehind (front back : List Char) (node moved : Node) : Prop :=
  ∃ range range', node.source = some range ∧ moved.source = some range' ∧
    SourceRange.Behind front back range range'

structure Node.Behind (front back : List Char) (node moved : Node) : Prop where
  same : moved.edit Node.withoutSource = node.edit Node.withoutSource
  ranges : List.Forall₂ (Node.RangeBehind front back) node.walk moved.walk

structure Sheet.Behind (front back : List Char) (sheet moved : Sheet) : Prop where
  same : moved.withoutSources = sheet.withoutSources
  ranges : List.Forall₂ (Node.RangeBehind front back) sheet.walk moved.walk

namespace Node

variable {front back : List Char}

theorem leadBy_empty (node : Node) : node.leadBy "" = node := by
  cases node <;> simp [leadBy]

theorem standing_leadBy (node : Node) (lead before : List Char) (range : SourceRange) :
    (node.standing before range).leadBy (String.ofList lead) =
      node.standing (lead ++ before) range := by
  cases node <;> simp [standing, leadBy]

theorem behind_of_forall₂ {nodes moved : List Node}
    (h : List.Forall₂ (Node.Behind front back) nodes moved) :
    editAll withoutSource moved = editAll withoutSource nodes ∧
      List.Forall₂ (RangeBehind front back) (walkAll nodes) (walkAll moved) := by
  induction h with
  | nil => exact ⟨rfl, .nil⟩
  | cons hnode _ ih =>
      obtain ⟨hsame, hranges⟩ := ih
      exact ⟨by rw [editAll, editAll, hnode.same, hsame], List.rel_append hnode.ranges hranges⟩

/-- A node without children is the same behind a text if its range is. -/
theorem behind_standing {node : Node} (before : List Char) {range range' : SourceRange}
    (hchildren : node.children? = none)
    (hrange : SourceRange.Behind front back range range') :
    Node.Behind front back (node.standing before range) (node.standing before range') := by
  cases node with
  | rule selector nodes raws source => cases hchildren
  | block name params nodes raws source => cases hchildren
  | statement name params raws source =>
      exact ⟨rfl, .cons ⟨range, range', rfl, rfl, hrange⟩ .nil⟩
  | decl d => exact ⟨rfl, .cons ⟨range, range', rfl, rfl, hrange⟩ .nil⟩
  | comment c => exact ⟨rfl, .cons ⟨range, range', rfl, rfl, hrange⟩ .nil⟩

end Node

namespace Reader

variable {front back : List Char} {extra : List Node} {lead : List Char}

/-- A block that is closed is the same behind a text if its children are. -/
theorem Frame.behind_close {f f' : Frame} {nodes moved : List Node} {last last' : Cursor}
    (pending after : List Char) (hheading : f'.heading = f.heading)
    (hbefore : f'.before = pending ++ f.before)
    (hfirst : Cursor.Behind front back f.first f'.first)
    (hnodes : List.Forall₂ (Node.Behind front back) nodes moved)
    (hlast : Cursor.Behind front back last last') :
    Node.Behind front back ((f.close nodes after last).leadBy (String.ofList pending))
      (f'.close moved after last') := by
  obtain ⟨hsame, hranges⟩ := Node.behind_of_forall₂ hnodes
  have hrange := hfirst.rangeTo hlast
  rw [Frame.close, Frame.close, hheading, hbefore]
  cases f.heading with
  | rule selector between =>
      refine ⟨?_, .cons ⟨_, _, rfl, rfl, hrange⟩ hranges⟩
      simp [Node.leadBy, Node.edit, Node.withoutSource, hsame]
  | atRule name afterName params between =>
      refine ⟨?_, .cons ⟨_, _, rfl, rfl, hrange⟩ hranges⟩
      simp [Node.leadBy, Node.edit, Node.withoutSource, hsame]

/-- The text that the next node still has to take in: what the first source ends with, as long as
nothing of the second has been read. -/
def pending (lead : List Char) : List Frame → List Node → List Char
  | [], [] => lead
  | _, _ => []

@[simp] theorem pending_cons (lead : List Char) (frames : List Frame) (node : Node)
    (nodes : List Node) : pending lead frames (node :: nodes) = [] := by
  cases frames <;> rfl

@[simp] theorem pending_frame (lead : List Char) (frame : Frame) (outer : List Frame)
    (nodes : List Node) : pending lead (frame :: outer) nodes = [] :=
  rfl

theorem pending_outermost (lead : List Char) (nodes : List Node) :
    pending lead [] nodes = if nodes.isEmpty then lead else [] := by
  cases nodes <;> rfl

theorem isSeparator_of_mem_pending (hlead : ∀ c ∈ lead, isSeparator c) (frames : List Frame)
    (nodes : List Node) : ∀ c ∈ pending lead frames nodes, isSeparator c := by
  match frames, nodes with
  | [], [] => exact hlead
  | [], _ :: _ => exact nofun
  | _ :: _, _ => exact nofun

/-- The nodes of a block, last first, and those of the same block where the text stands behind
another one. The outermost block has the nodes of the first source already. -/
inductive NodesFollow (front back : List Char) (extra : List Node) (lead : List Char)
    (frames : List Frame) : List Node → List Node → Prop where
  | nil : NodesFollow front back extra lead frames [] (if frames.isEmpty then extra else [])
  | cons {node node' : Node} {nodes nodes' : List Node}
      (hnode : Node.Behind front back (node.leadBy (String.ofList (pending lead frames nodes)))
        node')
      (hnodes : NodesFollow front back extra lead frames nodes nodes') :
      NodesFollow front back extra lead frames (node :: nodes) (node' :: nodes')

inductive FramesFollow (front back : List Char) (extra : List Node) (lead : List Char) :
    List Frame → List Frame → Prop where
  | nil : FramesFollow front back extra lead [] []
  | cons {f f' : Frame} {outer outer' : List Frame} (hheading : f'.heading = f.heading)
      (hbefore : f'.before = pending lead outer f.preceding ++ f.before)
      (hfirst : Cursor.Behind front back f.first f'.first)
      (hbrace : Cursor.Behind front back f.brace f'.brace)
      (hpreceding : NodesFollow front back extra lead outer f.preceding f'.preceding)
      (houter : FramesFollow front back extra lead outer outer') :
      FramesFollow front back extra lead (f :: outer) (f' :: outer')

/-- What a text is read to, and what it is read to behind another one. -/
inductive ResultFollows (front back : List Char) (extra : List Node) (lead : List Char) :
    Except FaultAt Sheet → Except FaultAt Sheet → Prop where
  | ok {sheet sheet' : Sheet}
      (hnodes : NodesFollow front back extra lead [] sheet.nodes.reverse sheet'.nodes.reverse)
      (hafter : sheet'.after =
        String.ofList (pending lead [] sheet.nodes.reverse) ++ sheet.after) :
      ResultFollows front back extra lead (.ok sheet) (.ok sheet')
  | error {f f' : FaultAt} (hfault : f'.fault = f.fault)
      (hplace : Cursor.Behind front back f.place f'.place) :
      ResultFollows front back extra lead (.error f) (.error f')

/-- In an inner block every node is the same. -/
theorem NodesFollow.forall₂ {frame : Frame} {outer : List Frame} {nodes nodes' : List Node}
    (h : NodesFollow front back extra lead (frame :: outer) nodes nodes') :
    List.Forall₂ (Node.Behind front back) nodes nodes' := by
  induction h with
  | nil => exact .nil
  | cons hnode _ ih =>
      rw [pending_frame, String.ofList_nil, Node.leadBy_empty] at hnode
      exact .cons hnode ih

/-- Separators before a source go to the separators that it begins with. -/
theorem splitHead_pending {frames : List Frame} {nodes : List Node}
    {source before rest : List Char} (hlead : ∀ c ∈ lead, isSeparator c)
    (h : Text.splitHead isSeparator source = (before, rest)) :
    Text.splitHead isSeparator (pending lead frames nodes ++ source) =
      (pending lead frames nodes ++ before, rest) := by
  obtain ⟨rfl, hall, hstop⟩ := Text.splitHead_eq_iff.1 h
  refine Text.splitHead_eq_iff.2 ⟨List.append_assoc .., fun c hc => ?_, hstop⟩
  rcases List.mem_append.1 hc with hc | hc
  · exact isSeparator_of_mem_pending hlead frames nodes c hc
  · exact hall c hc

/-- A state in the reading of a text of its own, and the state at the same place where the text
stands behind another one. -/
structure State.Follows (front back : List Char) (extra : List Node) (lead : List Char)
    (s s' : State) : Prop where
  source : s'.source = pending lead s.frames s.nodes ++ s.source
  place : Cursor.BehindBefore front back s.source s.cur
    (s'.cur.advanceAll (pending lead s.frames s.nodes))
  frames : FramesFollow front back extra lead s.frames s'.frames
  nodes : NodesFollow front back extra lead s.frames s.nodes s'.nodes

/-- Where a turn begins, separators are passed on both sides. -/
theorem State.Follows.first {s s' : State} {before rest : List Char}
    (h : s.Follows front back extra lead s')
    (hsplit : Text.splitHead isSeparator s.source = (before, rest)) :
    Cursor.BehindBefore front back rest (s.cur.advanceAll before)
      (s'.cur.advanceAll (pending lead s.frames s.nodes ++ before)) := by
  rw [Cursor.advanceAll_append]
  exact h.place.advanceAll before (Text.splitHead_eq_iff.1 hsplit).1.symm

/-- The state that a state follows is at a turn with the same item, where the separators are split
off. -/
theorem State.Follows.splitHead {s s' : State} {before rest : List Char}
    (hlead : ∀ c ∈ lead, isSeparator c) (h : s.Follows front back extra lead s')
    (hsplit : Text.splitHead isSeparator s.source = (before, rest)) :
    Text.splitHead isSeparator s'.source =
      (pending lead s.frames s.nodes ++ before, rest) := by
  rw [h.source]
  exact splitHead_pending hlead hsplit

variable {frames frames' outer : List Frame} {nodes nodes' : List Node} {cur cur' : Cursor}
  {source source' before cs rest : List Char} {c : Char}

theorem follows_close {frame : Frame} (hlead : ∀ c ∈ lead, isSeparator c)
    (h : State.Follows front back extra lead ⟨frame :: outer, nodes, cur, source⟩
      ⟨frames', nodes', cur', source'⟩)
    (hsplit : Text.splitHead isSeparator source = (before, '\x7d' :: cs)) :
    ∃ t', Step ⟨frames', nodes', cur', source'⟩ t' ∧ State.Follows front back extra lead
      ⟨outer, frame.close nodes.reverse before ((cur.advanceAll before).advance '\x7d') ::
        frame.preceding, (cur.advanceAll before).advance '\x7d', cs⟩ t' := by
  have hlast := (h.first hsplit).advanceAll ['\x7d'] rfl
  have hsplit' := h.splitHead hlead hsplit
  obtain ⟨-, -, hframes, hnodes⟩ := h
  dsimp only at hlast hsplit' hframes hnodes
  cases hframes with
  | @cons _ frame' _ outer' hheading hbefore hfirst hbrace hpreceding houter =>
      refine ⟨_, .close hsplit' rfl, ?_, ?_, houter, .cons ?_ hpreceding⟩
      · rw [pending_cons]
        rfl
      · rw [pending_cons]
        exact hlast
      · exact Frame.behind_close _ before hheading hbefore hfirst
          (List.rel_reverse hnodes.forall₂) ⟨cs, hlast⟩

theorem follows_leaf {next : Cursor} {node : Node} (hlead : ∀ c ∈ lead, isSeparator c)
    (h : State.Follows front back extra lead ⟨frames, nodes, cur, source⟩
      ⟨frames', nodes', cur', source'⟩)
    (hsplit : Text.splitHead isSeparator source = (before, c :: cs))
    (hitem : readItem before (cur.advanceAll before) c cs = .ok (.leaf node, next, rest)) :
    ∃ t', Step ⟨frames', nodes', cur', source'⟩ t' ∧
      State.Follows front back extra lead ⟨frames, node :: nodes, next, rest⟩ t' := by
  have hfirst := h.first hsplit
  have hsplit' := h.splitHead hlead hsplit
  obtain ⟨-, -, hframes, hnodes⟩ := h
  dsimp only at hfirst hsplit' hframes hnodes
  obtain ⟨hchildren, -⟩ := fits_readItem hitem
  obtain ⟨-, hcs, rfl⟩ := readItem_leaf hitem
  obtain ⟨hnode, hread⟩ := readItem_leaf_anywhere hitem
  have hshown := hfirst.advanceAll node.shown (hcs.trans (List.append_assoc ..))
  have hlast := hfirst.advanceAll (node.shown ++ node.trail) hcs
  refine ⟨_, .leaf hsplit' (hread _ _), ?_, ?_, hframes, .cons ?_ hnodes⟩
  · rw [pending_cons]
    rfl
  · rw [pending_cons]
    exact hlast
  · rw [hnode, Node.standing_leadBy, Node.standing_standing, Node.shown_standing]
    exact Node.behind_standing _ hchildren (Cursor.Behind.rangeTo ⟨_, hfirst⟩ ⟨_, hshown⟩)

theorem follows_opening {next brace : Cursor} {heading : Heading}
    (hlead : ∀ c ∈ lead, isSeparator c)
    (h : State.Follows front back extra lead ⟨frames, nodes, cur, source⟩
      ⟨frames', nodes', cur', source'⟩)
    (hsplit : Text.splitHead isSeparator source = (before, c :: cs))
    (hitem : readItem before (cur.advanceAll before) c cs =
      .ok (.opening heading brace, next, rest)) :
    ∃ t', Step ⟨frames', nodes', cur', source'⟩ t' ∧ State.Follows front back extra lead
      ⟨⟨before, heading, cur.advanceAll before, brace, nodes⟩ :: frames, [], next, rest⟩ t' := by
  have hfirst := h.first hsplit
  have hsplit' := h.splitHead hlead hsplit
  obtain ⟨-, -, hframes, hnodes⟩ := h
  dsimp only at hfirst hsplit' hframes hnodes
  obtain ⟨hsource, rfl, rfl⟩ := readItem_opening hitem
  have hbrace := hfirst.advanceAll heading.text hsource
  have hnext := hfirst.advanceAll (heading.text ++ ['\x7b'])
    (hsource.trans (List.append_assoc _ ['\x7b'] rest).symm)
  exact ⟨_, .opening hsplit' (readItem_opening_anywhere hitem _ _), rfl, hnext,
    .cons rfl rfl ⟨_, hfirst⟩ ⟨_, hbrace⟩ hnodes hframes, .nil⟩

/-- Every turn of the reader is taken behind another text, too. -/
theorem State.Follows.step {s t s' : State} (hlead : ∀ c ∈ lead, isSeparator c)
    (h : s.Follows front back extra lead s') (hstep : Step s t) :
    ∃ t', Step s' t' ∧ t.Follows front back extra lead t' := by
  obtain ⟨frames', nodes', cur', source'⟩ := s'
  cases hstep with
  | close hsplit hlast =>
      rw [hlast]
      exact follows_close hlead h hsplit
  | leaf hsplit hitem => exact follows_leaf hlead h hsplit hitem
  | opening hsplit hitem => exact follows_opening hlead h hsplit hitem

/-- The reader ends behind another text where it ends alone. -/
theorem State.Follows.ends {s s' : State} {sheet : Sheet} (hlead : ∀ c ∈ lead, isSeparator c)
    (h : s.Follows front back extra lead s') (hends : s.Ends sheet) :
    ∃ sheet', s'.Ends sheet' ∧ ResultFollows front back extra lead (.ok sheet) (.ok sheet') := by
  obtain ⟨frames, nodes, cur, source⟩ := s
  obtain ⟨frames', nodes', cur', source'⟩ := s'
  obtain ⟨hframes, after, hsplit, rfl⟩ := hends
  obtain rfl : frames = [] := hframes
  have hsplit' := h.splitHead hlead hsplit
  obtain ⟨-, -, hframes, hnodes⟩ := h
  cases hframes
  refine ⟨_, ⟨rfl, _, hsplit', rfl⟩, .ok ?_ ?_⟩
  · simpa using hnodes
  · simp

/-- The reader fails behind another text as it fails alone. -/
theorem State.Follows.fails {s s' : State} {f : FaultAt} (hlead : ∀ c ∈ lead, isSeparator c)
    (h : s.Follows front back extra lead s') (hfails : s.Fails f) :
    ∃ f', s'.Fails f' ∧ ResultFollows front back extra lead (.error f) (.error f') := by
  obtain ⟨frames', nodes', cur', source'⟩ := s'
  cases hfails with
  | unclosed hsplit =>
      have hsplit' := h.splitHead hlead hsplit
      obtain ⟨-, -, hframes, -⟩ := h
      cases hframes with
      | cons _ _ _ hbrace => exact ⟨_, .unclosed hsplit', .error rfl hbrace⟩
  | unexpected hsplit =>
      have hfirst := h.first hsplit
      have hsplit' := h.splitHead hlead hsplit
      obtain ⟨-, -, hframes, -⟩ := h
      cases hframes
      exact ⟨_, .unexpected hsplit', .error rfl ⟨_, hfirst⟩⟩
  | @item frames nodes cur source before cs c f hsplit hc hitem =>
      have hfirst := h.first hsplit
      have hsplit' := h.splitHead hlead hsplit
      obtain ⟨front', back', hsource, -, hplace, hread⟩ := readItem_fault_anywhere hitem
      refine ⟨_, .item hsplit' hc (hread _ _), .error rfl ?_⟩
      rw [hplace]
      exact ⟨_, hfirst.advanceAll front' hsource⟩

/-- What a text is read to behind another one follows what it is read to alone. -/
theorem State.Follows.read {s s' : State} (hlead : ∀ c ∈ lead, isSeparator c)
    (h : s.Follows front back extra lead s') :
    ResultFollows front back extra lead s.read s'.read := by
  have hstep {a b : State} (hab : Step a b)
      (ha : ∃ a', s'.read = a'.read ∧ a.Follows front back extra lead a') :
      ∃ b', s'.read = b'.read ∧ b.Follows front back extra lead b' := by
    obtain ⟨a', hread, hfollows⟩ := ha
    obtain ⟨b', hab', hfollows'⟩ := hfollows.step hlead hab
    exact ⟨b', hread.trans hab'.read_eq, hfollows'⟩
  cases hread : s.read with
  | ok sheet =>
      obtain ⟨t, ⟨t', hread', hfollows⟩, hends⟩ := readNodes_preserves _ hstep ⟨s', rfl, h⟩ hread
      obtain ⟨sheet', hends', hresult⟩ := hfollows.ends hlead hends
      rwa [hread', hends'.read_eq]
  | error f =>
      obtain ⟨t, ⟨t', hread', hfollows⟩, hfails⟩ := readNodes_fails _ hstep ⟨s', rfl, h⟩ hread
      obtain ⟨f', hfails', hresult⟩ := hfollows.fails hlead hfails
      rwa [hread', hfails'.read_eq]

/-- The outermost nodes are those of the first source and behind them those of the second, the
first of which takes in what the first source ends with. -/
theorem NodesFollow.outermost (h : NodesFollow front back extra lead [] nodes nodes') :
    ∃ moved, nodes'.reverse = extra.reverse ++ moved ∧
      List.Forall₂ (Node.Behind front back)
        (Node.leadFirst (String.ofList lead) nodes.reverse) moved := by
  induction h with
  | nil => exact ⟨[], by simp, .nil⟩
  | @cons node node' nodes nodes' hnode _ ih =>
      obtain ⟨moved, hmoved, hbehind⟩ := ih
      refine ⟨moved ++ [node'], by simp [hmoved], ?_⟩
      rw [List.reverse_cons]
      cases hnodes : nodes.reverse with
      | nil =>
          obtain rfl := List.reverse_eq_nil_iff.1 hnodes
          rw [hnodes] at hbehind
          cases hbehind
          exact .cons hnode .nil
      | cons other others =>
          have hne : nodes.isEmpty = false := by
            rw [← List.isEmpty_reverse, hnodes]
            rfl
          rw [pending_outermost, hne, if_neg Bool.false_ne_true, String.ofList_nil,
            Node.leadBy_empty] at hnode
          rw [hnodes] at hbehind
          exact List.rel_append hbehind (.cons hnode .nil)

/-- The sheet of two sources has the nodes of both, those of the second as the nodes of its own
sheet, moved. -/
theorem ResultFollows.sheet {sheet sheet' : Sheet}
    (h : ResultFollows front back extra lead (.ok sheet) (.ok sheet')) :
    ∃ moved : Sheet, sheet' = ⟨extra.reverse ++ moved.nodes, moved.after⟩ ∧
      (sheet.leadBy (String.ofList lead)).Behind front back moved := by
  obtain ⟨nodes, after⟩ := sheet
  obtain ⟨nodes', after'⟩ := sheet'
  cases h with
  | ok hnodes hafter =>
      obtain ⟨moved, hmoved, hbehind⟩ := hnodes.outermost
      obtain ⟨hsame, hranges⟩ := Node.behind_of_forall₂ hbehind
      simp only [List.reverse_reverse] at hmoved hsame hranges
      dsimp only at hafter
      refine ⟨⟨moved, after'⟩, by rw [hmoved], ?_, hranges⟩
      have hlead : after' = if nodes.isEmpty then String.ofList lead ++ after else after := by
        rw [hafter, pending_outermost, List.isEmpty_reverse]
        cases nodes <;> simp
      simp only [Sheet.withoutSources, Sheet.edit, Sheet.leadBy, hsame, hlead]

/-- Two sources are read as one by going on from the end of the first. -/
theorem resultFollows_append {file : Option String} {source : String} {first : Sheet}
    (h : Sheet.parse file source = .ok first)
    (hended : ∀ node ∈ first.nodes.getLast?, ¬node.lacksSemicolon) (more : String) :
    ResultFollows source.toList more.toList first.nodes.reverse first.after.toList
      (readNodes [] [] Cursor.start more.toList)
      (readNodes [] [] Cursor.start (source ++ more).toList) := by
  have hread := parse_eq_ok_iff.1 h
  obtain ⟨front, after, hsource, hafter, hall, hmore⟩ := readNodes_append more.toList hread hended
  rw [String.toList_append, hmore, hafter, String.toList_ofList]
  have hfollows : State.Follows source.toList more.toList first.nodes.reverse after
      ⟨[], [], Cursor.start, more.toList⟩
      ⟨[], first.nodes.reverse, Cursor.start.advanceAll front, after ++ more.toList⟩ := by
    refine ⟨rfl, ⟨[], rfl, rfl, ?_⟩, .nil, .nil⟩
    rw [List.append_nil, hsource, Cursor.advanceAll_append]
    rfl
  exact hfollows.read hall

end Reader

/-- An error behind another source is the same error, moved. -/
theorem SyntaxError.behind_ofFault {front back : List Char} {f f' : FaultAt}
    (file : Option String) (hfault : f'.fault = f.fault)
    (hplace : Cursor.Behind front back f.place f'.place) :
    SyntaxError.Behind front back (ofFault file f) (ofFault file f') :=
  ⟨congrArg Fault.reason hfault, rfl, ⟨f.place, f'.place, hplace, rfl, rfl⟩, hplace.position⟩

/--
Behind a source whose last node is complete, a second source is read to what it is read to alone.
The nodes of both follow each other, with the text after the first nodes put before the second ones,
and the ranges and the places of errors are those of the same stretches of the second source.
-/
theorem Sheet.parse_append {file : Option String} {front : String} {first : Sheet}
    (h : Sheet.parse file front = .ok first)
    (hended : ∀ node ∈ first.nodes.getLast?, ¬node.lacksSemicolon) (back : String) :
    ((∃ sheet, Sheet.parse file (front ++ back) = .ok sheet) ↔
      ∃ second, Sheet.parse file back = .ok second) ∧
    (∀ second, Sheet.parse file back = .ok second → ∃ moved : Sheet,
      Sheet.parse file (front ++ back) = .ok ⟨first.nodes ++ moved.nodes, moved.after⟩ ∧
        (second.leadBy first.after).Behind front.toList back.toList moved) ∧
    ∀ e, Sheet.parse file back = .error e → ∃ moved,
      Sheet.parse file (front ++ back) = .error moved ∧
        e.Behind front.toList back.toList moved := by
  have hfollows : Reader.ResultFollows front.toList back.toList first.nodes.reverse
      first.after.toList (Reader.readNodes [] [] Cursor.start back.toList)
      (Reader.readNodes [] [] Cursor.start (front ++ back).toList) :=
    Reader.resultFollows_append h hended back
  unfold Sheet.parse
  cases hback : Reader.readNodes [] [] Cursor.start back.toList with
  | ok second =>
      rw [hback] at hfollows
      cases hboth : Reader.readNodes [] [] Cursor.start (front ++ back).toList with
      | error f =>
          rw [hboth] at hfollows
          cases hfollows
      | ok sheet =>
          rw [hboth] at hfollows
          obtain ⟨moved, rfl, hmoved⟩ := hfollows.sheet
          rw [List.reverse_reverse, String.ofList_toList] at *
          refine ⟨iff_of_true ⟨_, rfl⟩ ⟨_, rfl⟩, fun other hother => ⟨moved, rfl, ?_⟩, nofun⟩
          obtain rfl := Except.ok.inj hother
          exact hmoved
  | error f =>
      rw [hback] at hfollows
      cases hboth : Reader.readNodes [] [] Cursor.start (front ++ back).toList with
      | ok sheet =>
          rw [hboth] at hfollows
          cases hfollows
      | error f' =>
          rw [hboth] at hfollows
          refine ⟨iff_of_false nofun nofun, nofun, fun e he => ⟨_, rfl, ?_⟩⟩
          obtain rfl := Except.error.inj he
          cases hfollows with
          | error hfault hplace => exact SyntaxError.behind_ofFault file hfault hplace

/-- A rule, a comment, and separators behind them. -/
def headSource : String :=
  "a \x7bp:q\x7d\n/* \u00e9 */ ;"

/-- Two declarations, the second without its semicolon. -/
def tailSource : String :=
  " b: c;\nd:e !important"

theorem Sheet.parse_append_sources :
    ∃ first second moved : Sheet, Sheet.parse none headSource = .ok first ∧
      (∀ node ∈ first.nodes.getLast?, ¬node.lacksSemicolon) ∧
      Sheet.parse none tailSource = .ok second ∧
      Sheet.parse none (headSource ++ tailSource) =
        .ok ⟨first.nodes ++ moved.nodes, moved.after⟩ ∧
      (second.leadBy first.after).Behind headSource.toList tailSource.toList moved := by
  have hhead : (match Sheet.parse none headSource with
      | .ok sheet => sheet.nodes.getLast?.all fun node => !node.lacksSemicolon
      | .error _ => false) = true := by decide +kernel
  have htail : (Sheet.parse none tailSource).isOk = true := by decide +kernel
  cases hfirst : Sheet.parse none headSource with
  | error e => simp [hfirst] at hhead
  | ok first =>
      cases hsecond : Sheet.parse none tailSource with
      | error e => simp [hsecond, Except.isOk, Except.toBool] at htail
      | ok second =>
          have hended : ∀ node ∈ first.nodes.getLast?, ¬node.lacksSemicolon := by
            simpa [hfirst, Option.all_eq_true] using hhead
          obtain ⟨moved, hmoved⟩ := (Sheet.parse_append hfirst hended tailSource).2.1 second hsecond
          exact ⟨first, second, moved, rfl, hended, rfl, hmoved⟩

end StyleAudit
