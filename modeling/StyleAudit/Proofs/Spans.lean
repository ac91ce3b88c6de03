import StyleAudit.Proofs.Placement

/-!
What the spans of a sheet cover.

A node of a sheet that was read has a span that slices its own text out of the source: the text that
the node prints, without what stands before it and without what ends a declaration. The spans of the
children lie between the braces of their parent, and the spans of siblings follow each other.
-/

namespace StyleAudit

theorem byteLength_append (a b : List Char) :
    byteLength (a ++ b) = byteLength a + byteLength b := by
  induction a with
  | nil => simp [byteLength]
  | cons c cs ih =>
      rw [List.cons_append, byteLength, byteLength, ih]
      omega

theorem byteLength_pos {cs : List Char} (h : cs ≠ []) : 0 < byteLength cs := by
  cases cs with
  | nil => exact absurd rfl h
  | cons c cs =>
      have hc := c.utf8Size_pos
      rw [byteLength]
      omega

theorem utf8ByteSize_ofList (cs : List Char) :
    (String.ofList cs).utf8ByteSize = byteLength cs := by
  induction cs with
  | nil => rfl
  | cons c cs ih =>
      rw [String.ofList_cons]
      simp [byteLength, ih]

/-- Dropping the bytes of a text that stands in front leaves the rest. -/
theorem dropBytes?_append (a b : List Char) : dropBytes? (byteLength a) (a ++ b) = some b := by
  induction a with
  | nil => cases b <;> rfl
  | cons c cs ih =>
      obtain ⟨n, hn⟩ : ∃ n, c.utf8Size + byteLength cs = n + 1 :=
        ⟨c.utf8Size + byteLength cs - 1, by have := c.utf8Size_pos; omega⟩
      have hle : c.utf8Size ≤ n + 1 := by omega
      have hrest : n + 1 - c.utf8Size = byteLength cs := by omega
      rw [byteLength, hn, List.cons_append, dropBytes?, if_pos hle, hrest, ih]

theorem takeBytes?_append (a b : List Char) : takeBytes? (byteLength a) (a ++ b) = some a := by
  induction a with
  | nil => cases b <;> rfl
  | cons c cs ih =>
      obtain ⟨n, hn⟩ : ∃ n, c.utf8Size + byteLength cs = n + 1 :=
        ⟨c.utf8Size + byteLength cs - 1, by have := c.utf8Size_pos; omega⟩
      have hle : c.utf8Size ≤ n + 1 := by omega
      have hrest : n + 1 - c.utf8Size = byteLength cs := by omega
      rw [byteLength, hn, List.cons_append, takeBytes?, if_pos hle, hrest, ih, Option.map_some]

/-- A span from the bytes before a text to the bytes after it slices that text. -/
theorem Span.slice?_of_append {source : String} {front text back : List Char}
    (h : source.toList = front ++ text ++ back) :
    (Span.mk (byteLength front) (byteLength (front ++ text))).slice? source =
      some (String.ofList text) := by
  have hle : byteLength front ≤ byteLength (front ++ text) := by
    rw [byteLength_append]
    omega
  have hlength : byteLength (front ++ text) - byteLength front = byteLength text := by
    rw [byteLength_append]
    omega
  have hdrop := dropBytes?_append front (text ++ back)
  rw [← List.append_assoc, ← h] at hdrop
  simp only [Span.slice?, if_pos hle, hdrop, hlength]
  simp [takeBytes?_append]

namespace Node

def span? (node : Node) : Option Span :=
  node.source.map SourceRange.span

/-- The span slices out of the source what the node prints between the text before it and the text
that ends it. -/
structure Covers (source : String) (node : Node) (span : Span) : Prop where
  spanned : node.span? = some span
  nonempty : span.start < span.stop
  /-- Both ends are words. -/
  bounded : span.stop < Position.limit
  sliced : ∃ text, span.slice? source = some text ∧
    node.render = String.ofList node.before ++ text ++ String.ofList node.trail

/-- The children have spans between the braces of their parent: behind the brace that ends the lead
of the parent, and before the brace that ends the parent. -/
structure Encloses (source : String) (parent : Node) (nodes : List Node) (span : Span)
    (opening : Nat) : Prop where
  spanned : parent.span? = some span
  opens : (Span.mk span.start opening).slice? source = some (String.ofList parent.lead)
  brace : parent.lead.getLast? = some '\x7b'
  closes : (Span.mk (span.stop - 1) span.stop).slice? source = some "\x7d"
  inside : ∀ child ∈ nodes, ∃ inner, child.span? = some inner ∧
    opening ≤ inner.start ∧ inner.stop ≤ span.stop - 1

def Follow (nodes : List Node) : Prop :=
  nodes.Pairwise fun a b => ∀ s ∈ a.span?, ∀ t ∈ b.span?, s.stop ≤ t.start

/-- A node that stands behind a text of the source covers the bytes behind that text. -/
theorem StandsAfter.span?_eq {front pre : List Char} {node : Node}
    (h : node.StandsAfter (Cursor.start.advanceAll front) pre)
    (hsmall : byteLength (front ++ pre ++ node.shown) < Position.limit) :
    node.span? = some ⟨byteLength (front ++ pre), byteLength (front ++ pre ++ node.shown)⟩ := by
  have hstart : byteLength (front ++ pre) < Position.limit := by
    rw [byteLength_append] at hsmall
    omega
  have hoffset (cs : List Char) : (Cursor.start.advanceAll cs).offset = byteLength cs := by
    rw [Cursor.offset_advanceAll]
    exact Nat.zero_add _
  rw [span?, h.2, Option.map_some, ← Cursor.advanceAll_append, ← Cursor.advanceAll_append,
    ← List.append_assoc, Cursor.rangeTo, hoffset, hoffset, Nat.mod_eq_of_lt hstart,
    Nat.mod_eq_of_lt hsmall]

/-- A placed node stands behind the text before it. -/
theorem Placed.standsAfter {cur : Cursor} {node : Node} (h : node.Placed cur) :
    node.StandsAfter cur node.before := by
  cases node with
  | rule selector nodes raws source => exact h.1
  | block name params nodes raws source => exact h.1
  | statement name params raws source => exact h
  | decl d => exact h
  | comment c => exact h

/-- A node with children shows its lead, which ends in a brace, the children, and a closing
brace. -/
theorem shown_of_children? {node : Node} {nodes : List Node}
    (hnodes : node.children? = some nodes) :
    node.lead.getLast? = some '\x7b' ∧
      ∃ after, node.shown = node.lead ++ (renderAll nodes).toList ++ after ++ ['\x7d'] := by
  cases node with
  | rule selector inner raws source =>
      obtain rfl : inner = nodes := by simpa [children?] using hnodes
      exact ⟨List.getLast?_concat .., raws.after.toList, rfl⟩
  | block name params inner raws source =>
      obtain rfl : inner = nodes := by simpa [children?] using hnodes
      exact ⟨List.getLast?_concat .., raws.after.toList, rfl⟩
  | statement name params raws source => simp [children?] at hnodes
  | decl d => simp [children?] at hnodes
  | comment c => simp [children?] at hnodes

/-- The children of a placed node are placed behind its lead. -/
theorem Placed.children {cur : Cursor} {node : Node} {nodes : List Node} (h : node.Placed cur)
    (hnodes : node.children? = some nodes) :
    PlacedAll (cur.advanceAll (node.before ++ node.lead)) nodes := by
  cases node with
  | rule selector inner raws source =>
      obtain rfl : inner = nodes := by simpa [children?] using hnodes
      exact h.2
  | block name params inner raws source =>
      obtain rfl : inner = nodes := by simpa [children?] using hnodes
      exact h.2
  | statement name params raws source => simp [children?] at hnodes
  | decl d => simp [children?] at hnodes
  | comment c => simp [children?] at hnodes

/-- The node is printed somewhere in the source, and placed there. -/
def StandsIn (source : List Char) (node : Node) : Prop :=
  ∃ front back, source = front ++ node.render.toList ++ back ∧
    node.Placed (Cursor.start.advanceAll front)

def StandIn (source : List Char) (nodes : List Node) : Prop :=
  ∃ front back, source = front ++ (renderAll nodes).toList ++ back ∧
    PlacedAll (Cursor.start.advanceAll front) nodes

theorem standIn_cons {source : List Char} {node : Node} {nodes : List Node}
    (h : StandIn source (node :: nodes)) : node.StandsIn source ∧ StandIn source nodes := by
  obtain ⟨front, back, hsource, hnode, hnodes⟩ := h
  rw [renderAll, String.toList_append] at hsource
  constructor
  · exact ⟨front, (renderAll nodes).toList ++ back, by simp [hsource], hnode⟩
  · refine ⟨front ++ node.render.toList, back, by simp [hsource], ?_⟩
    rwa [Cursor.advanceAll_append]

/-- What stands in the source takes its children there with it. -/
theorem StandsIn.children {source : List Char} {node : Node} {nodes : List Node}
    (h : node.StandsIn source) (hnodes : node.children? = some nodes) : StandIn source nodes := by
  obtain ⟨front, back, hsource, hplaced⟩ := h
  obtain ⟨-, after, hshown⟩ := shown_of_children? hnodes
  have hinner := hplaced.children hnodes
  refine ⟨front ++ (node.before ++ node.lead), after ++ '\x7d' :: (node.trail ++ back), ?_, ?_⟩
  · rw [hsource, toList_render, hshown]
    simp
  · rwa [Cursor.advanceAll_append]

end Node

mutual

theorem Node.standsIn_walk {source : List Char} :
    (node : Node) → node.StandsIn source → ∀ below ∈ node.walk, below.StandsIn source
  | .rule selector nodes raws range => by
      intro h below hbelow
      rcases List.mem_cons.1 hbelow with rfl | hbelow
      · exact h
      · exact Node.standIn_walkAll nodes (h.children rfl) below hbelow
  | .block name params nodes raws range => by
      intro h below hbelow
      rcases List.mem_cons.1 hbelow with rfl | hbelow
      · exact h
      · exact Node.standIn_walkAll nodes (h.children rfl) below hbelow
  | .statement name params raws range => by
      intro h below hbelow
      rwa [List.mem_singleton.1 hbelow]
  | .decl d => by
      intro h below hbelow
      rwa [List.mem_singleton.1 hbelow]
  | .comment c => by
      intro h below hbelow
      rwa [List.mem_singleton.1 hbelow]

/-- Everything below nodes that stand in the source stands in it. -/
theorem Node.standIn_walkAll {source : List Char} :
    (nodes : List Node) → Node.StandIn source nodes →
      ∀ below ∈ Node.walkAll nodes, below.StandsIn source
  | [] => by simp [Node.walkAll]
  | node :: nodes => by
      intro h below hbelow
      obtain ⟨hnode, hnodes⟩ := Node.standIn_cons h
      rcases List.mem_append.1 hbelow with hbelow | hbelow
      · exact Node.standsIn_walk node hnode below hbelow
      · exact Node.standIn_walkAll nodes hnodes below hbelow

end

namespace Node

variable {source : String}

/-- A node that stands in a short source has the bytes of what it shows there for its span. -/
theorem StandsIn.shows {node : Node} (hsmall : source.utf8ByteSize < Position.limit)
    (h : node.StandsIn source.toList) :
    ∃ front back, source.toList = front ++ node.shown ++ back ∧ node.shown ≠ [] ∧
      byteLength (front ++ node.shown) < Position.limit ∧
      node.span? = some ⟨byteLength front, byteLength (front ++ node.shown)⟩ ∧
      ∀ nodes, node.children? = some nodes →
        PlacedAll (Cursor.start.advanceAll (front ++ node.lead)) nodes := by
  obtain ⟨front, back, hsource, hplaced⟩ := h
  have hstands := hplaced.standsAfter
  rw [toList_render] at hsource
  have hsplit : source.toList = front ++ node.before ++ node.shown ++ (node.trail ++ back) := by
    simp [hsource]
  have hbound : byteLength (front ++ node.before ++ node.shown) < Position.limit := by
    have hsize := utf8ByteSize_ofList source.toList
    rw [String.ofList_toList, hsplit, byteLength_append] at hsize
    omega
  refine ⟨front ++ node.before, node.trail ++ back, hsplit, hstands.1, hbound,
    hstands.span?_eq hbound, ?_⟩
  intro nodes hnodes
  have hinner := hplaced.children hnodes
  rwa [← Cursor.advanceAll_append, ← List.append_assoc] at hinner

/-- A node that stands in a short source covers what it shows there. -/
theorem StandsIn.covers {node : Node} (hsmall : source.utf8ByteSize < Position.limit)
    (h : node.StandsIn source.toList) : ∃ span, node.Covers source span := by
  obtain ⟨front, back, hsplit, hshown, hbound, hspan, -⟩ := h.shows hsmall
  have hpos := byteLength_pos hshown
  refine ⟨_, hspan, ?_, hbound, _, Span.slice?_of_append hsplit, ?_⟩
  · dsimp only
    rw [byteLength_append]
    omega
  · rw [← String.toList_inj, toList_render]
    simp

/-- The spans of nodes in a row lie in their text, each behind the one before it. -/
theorem spans_of_placedAll {front : List Char} {nodes : List Node}
    (h : PlacedAll (Cursor.start.advanceAll front) nodes)
    (hsmall : byteLength (front ++ (renderAll nodes).toList) < Position.limit) :
    (∀ node ∈ nodes, ∃ span, node.span? = some span ∧ byteLength front ≤ span.start ∧
      span.stop ≤ byteLength (front ++ (renderAll nodes).toList)) ∧ Follow nodes := by
  induction nodes generalizing front with
  | nil => simp [Follow]
  | cons node nodes ih =>
      obtain ⟨hnode, hnodes⟩ := h
      rw [renderAll, String.toList_append, ← List.append_assoc] at hsmall ⊢
      rw [← Cursor.advanceAll_append] at hnodes
      obtain ⟨hrest, hfollow⟩ := ih hnodes hsmall
      have htext : byteLength (front ++ node.render.toList) =
          byteLength front + byteLength node.before + byteLength node.shown +
            byteLength node.trail := by
        simp only [toList_render, byteLength_append]
        omega
      have hspan := hnode.standsAfter.span?_eq (by
        simp only [byteLength_append] at hsmall htext ⊢
        omega)
      constructor
      · intro other hother
        rcases List.mem_cons.1 hother with rfl | hother
        · refine ⟨_, hspan, ?_, ?_⟩
          · simp only [byteLength_append]
            omega
          · rw [byteLength_append _ (renderAll nodes).toList, htext]
            simp only [byteLength_append]
            omega
        · obtain ⟨span, hother, hstart, hstop⟩ := hrest other hother
          refine ⟨span, hother, ?_, hstop⟩
          omega
      · refine List.pairwise_cons.2 ⟨?_, hfollow⟩
        intro other hother s hs t ht
        obtain ⟨span, hspanOther, hstart, -⟩ := hrest other hother
        obtain rfl : span = t := by simpa [hspanOther] using ht
        rw [hspan, Option.mem_some_iff] at hs
        subst hs
        simp only [byteLength_append] at htext hstart ⊢
        omega

/-- A parent that stands in a short source has its children between its braces. -/
theorem StandsIn.encloses {parent : Node} {nodes : List Node}
    (hsmall : source.utf8ByteSize < Position.limit) (h : parent.StandsIn source.toList)
    (hnodes : parent.children? = some nodes) :
    (∃ span opening, parent.Encloses source nodes span opening) ∧ Follow nodes := by
  obtain ⟨hbrace, after, hshown⟩ := shown_of_children? hnodes
  obtain ⟨front, back, hsplit, -, hbound, hspan, hinner⟩ := h.shows hsmall
  rw [hshown, ← List.append_assoc front] at hsplit hbound hspan
  have hopens : source.toList = front ++ parent.lead ++
      ((renderAll nodes).toList ++ after ++ ['\x7d'] ++ back) := by
    simp [hsplit]
  have hlast := byteLength_append (front ++ (parent.lead ++ (renderAll nodes).toList ++ after))
    ['\x7d']
  rw [show byteLength ['\x7d'] = 1 from rfl] at hlast
  have hrow : byteLength (front ++ parent.lead ++ (renderAll nodes).toList) ≤
      byteLength (front ++ (parent.lead ++ (renderAll nodes).toList ++ after)) := by
    simp only [byteLength_append]
    omega
  obtain ⟨hinside, hfollow⟩ := spans_of_placedAll (hinner nodes hnodes) (by omega)
  refine ⟨⟨_, byteLength (front ++ parent.lead), hspan, Span.slice?_of_append hopens, hbrace, ?_,
    ?_⟩, hfollow⟩
  · have hslice := Span.slice?_of_append hsplit
    rw [hlast] at hslice ⊢
    exact hslice
  · intro child hchild
    obtain ⟨inner, hspan, hstart, hstop⟩ := hinside child hchild
    refine ⟨inner, hspan, hstart, ?_⟩
    dsimp only
    omega

end Node

theorem Sheet.standIn_of_parse {file : Option String} {source : String} {sheet : Sheet}
    (h : Sheet.parse file source = .ok sheet) : Node.StandIn source.toList sheet.nodes := by
  refine ⟨[], sheet.after.toList, ?_, Sheet.placedAll_of_parse h⟩
  rw [← Reader.toList_render_parse h, Sheet.render, String.toList_append, List.nil_append]

/-- Every node of a sheet that was read from a short source covers exactly what it prints, children
lie between the braces of their parents, and the spans of siblings follow each other. -/
theorem Sheet.spans_of_parse {file : Option String} {source : String} {sheet : Sheet}
    (h : Sheet.parse file source = .ok sheet) (hsmall : source.utf8ByteSize < Position.limit) :
    (∀ node ∈ sheet.walk, ∃ span, node.Covers source span) ∧
      (∀ parent ∈ sheet.walk, ∀ nodes, parent.children? = some nodes →
        (∃ span opening, parent.Encloses source nodes span opening) ∧ Node.Follow nodes) ∧
      Node.Follow sheet.nodes := by
  have hstand := Sheet.standIn_of_parse h
  refine ⟨?_, ?_, ?_⟩
  · intro node hnode
    exact (Node.standIn_walkAll sheet.nodes hstand node hnode).covers hsmall
  · intro parent hparent nodes hnodes
    exact (Node.standIn_walkAll sheet.nodes hstand parent hparent).encloses hsmall hnodes
  · have hsize := utf8ByteSize_ofList source.toList
    rw [String.ofList_toList, ← Reader.toList_render_parse h, Sheet.render, String.toList_append,
      byteLength_append] at hsize
    have hplaced : Node.PlacedAll (Cursor.start.advanceAll []) sheet.nodes :=
      Sheet.placedAll_of_parse h
    have hrow : byteLength ([] ++ (Node.renderAll sheet.nodes).toList) < Position.limit := by
      rw [List.nil_append]
      omega
    exact (Node.spans_of_placedAll hplaced hrow).2

theorem Sheet.spans_of_parse_layered :
    ∃ sheet, Sheet.parse none layeredSource = .ok sheet ∧
      layeredSource.utf8ByteSize < Position.limit ∧
      (∀ node ∈ sheet.walk, ∃ span, node.Covers layeredSource span) ∧
      (∀ parent ∈ sheet.walk, ∀ nodes, parent.children? = some nodes →
        (∃ span opening, parent.Encloses layeredSource nodes span opening) ∧ Node.Follow nodes) ∧
      Node.Follow sheet.nodes := by
  have hok : (Sheet.parse none layeredSource).isOk = true := by decide +kernel
  have hsmall : layeredSource.utf8ByteSize < Position.limit := by decide +kernel
  cases h : Sheet.parse none layeredSource with
  | ok sheet => exact ⟨sheet, rfl, hsmall, Sheet.spans_of_parse h hsmall⟩
  | error e => simp [h, Except.isOk, Except.toBool] at hok

end StyleAudit
