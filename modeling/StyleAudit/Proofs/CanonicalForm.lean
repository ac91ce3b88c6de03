import StyleAudit.Proofs.Scanning
import StyleAudit.Sheet.Walk

/-!
The form of a sheet that was read.

A tree can be built in which a value begins with a blank, or in which two declarations have no
semicolon between them. The reader builds none of these: every blank of the source goes to a field
for blanks, and what can only end a block does. `Sheet.Canonical` is that form, and every turn of
the reader keeps it.
-/

namespace StyleAudit

namespace Reader

def Blanks (cs : List Char) : Prop := ∀ c ∈ cs, isBlankChar c

def Separators (cs : List Char) : Prop := ∀ c ∈ cs, isSeparator c

structure Trimmed (cs : List Char) : Prop where
  head : ∀ c ∈ cs.head?, ¬isBlankChar c
  last : ∀ c ∈ cs.getLast?, ¬isBlankChar c

end Reader

open Reader (Blanks Separators Trimmed isBlankChar isSeparator)

structure Declaration.Canonical (d : Declaration) : Prop where
  before : Separators d.raws.before.toList
  named : d.prop ≠ ""
  prop : Trimmed d.prop.toList
  between : ∃ left right, Blanks left ∧ Blanks right ∧
    d.raws.between.toList = left ++ ':' :: right
  value : Trimmed d.value.toList
  /-- Only a mark that is there has a spelling, and the usual one is not kept. -/
  marked : d.raws.important.isSome → d.important
  unusual : d.raws.important ≠ some importantMark
  afterValue : Blanks d.raws.afterValue.toList

structure Comment.Canonical (c : Comment) : Prop where
  before : Separators c.raws.before.toList
  left : Blanks c.raws.left.toList
  text : Trimmed c.text.toList
  right : Blanks c.raws.right.toList
  /-- The comment does not end before its end mark. -/
  unclosed : ¬['*', '/'] <:+: c.raws.left.toList ++ c.text.toList ++ c.raws.right.toList

/-- The parts of an at-rule, up to its block or its end. -/
structure AtRuleRaws.Canonical (name params : String) (raws : AtRuleRaws) : Prop where
  before : Separators raws.before.toList
  named : name ≠ ""
  afterName : Blanks raws.afterName.toList
  params : Trimmed params.toList
  between : Blanks raws.between.toList

namespace Node

/-- Whether the node could go on where it ends: a declaration or an at-rule without a block that
has no semicolon. -/
def lacksSemicolon : Node → Bool
  | .decl d => !d.raws.semicolon
  | .statement _ _ raws _ => !raws.semicolon
  | _ => false

/-- The nodes of a block, or of a whole sheet, and the text after them. A node without its semicolon
can only be the last, with nothing after it. -/
structure CanonicalRow (nodes : List Node) (after : String) : Prop where
  separators : Separators after.toList
  ended : ∀ node ∈ nodes.dropLast, ¬node.lacksSemicolon
  last : ∀ node ∈ nodes.getLast?, node.lacksSemicolon → after = ""

/-- The form of a node of its own. -/
def Canonical : Node → Prop
  | .rule selector nodes raws _ =>
    Separators raws.before.toList ∧ Trimmed selector.toList ∧ Blanks raws.between.toList ∧
      CanonicalRow nodes raws.after
  | .block name params nodes raws _ =>
    raws.Canonical name params ∧ raws.semicolon = false ∧ CanonicalRow nodes raws.after
  | .statement name params raws _ => raws.Canonical name params ∧ raws.after = ""
  | .decl d => d.Canonical
  | .comment c => c.Canonical

end Node

/-- Every node of the sheet has its form, at every depth, and so has the row of the outermost
nodes. -/
structure Sheet.Canonical (s : Sheet) : Prop where
  nodes : ∀ node ∈ s.walk, node.Canonical
  row : Node.CanonicalRow s.nodes s.after

namespace Reader

/-! ### Texts that are split -/

theorem mem_head?_of_append {cs ds : List Char} {c : Char} (h : c ∈ cs.head?) :
    c ∈ (cs ++ ds).head? := by
  rw [List.head?_append, Option.mem_def.1 h]
  rfl

/-- A text that does not begin with a blank is trimmed by cutting off the blanks at its end. -/
theorem trimmed_of_splitTail {cs kept tail : List Char} (hhead : ∀ c ∈ cs.head?, ¬isBlankChar c)
    (h : Text.splitTail isBlankChar cs = (kept, tail)) : Trimmed kept ∧ Blanks tail := by
  obtain ⟨rfl, hblanks, hlast⟩ := Text.splitTail_eq_iff.1 h
  exact ⟨⟨fun c hc => hhead c (mem_head?_of_append hc), hlast⟩, hblanks⟩

/-- A text is trimmed by cutting off the blanks on both sides. -/
theorem trimmed_of_split {cs left trimmed text right : List Char}
    (hleft : Text.splitHead isBlankChar cs = (left, trimmed))
    (hright : Text.splitTail isBlankChar trimmed = (text, right)) :
    Blanks left ∧ Trimmed text ∧ Blanks right := by
  obtain ⟨-, hblanks, hhead⟩ := Text.splitHead_eq_iff.1 hleft
  exact ⟨hblanks, trimmed_of_splitTail hhead hright⟩

/-- What is kept of a trimmed value is trimmed. -/
theorem Trimmed.cutImportantMark {trimmed value : List Char} {mark : Option (List Char)}
    (h : Trimmed trimmed) (hcut : cutImportantMark trimmed = (value, mark)) : Trimmed value := by
  have happ := cutImportantMark_append trimmed
  rw [hcut] at happ
  dsimp only at happ
  refine ⟨fun c hc => h.head c (happ ▸ mem_head?_of_append hc), ?_⟩
  unfold Reader.cutImportantMark at hcut
  split at hcut
  · rw [← (Prod.mk.inj hcut).1]
    exact h.last
  · split at hcut
    · rw [← (Prod.mk.inj hcut).1]
      exact (Text.splitTail_eq_iff.1 rfl).2.2
    · rw [← (Prod.mk.inj hcut).1]
      exact h.last

/-! ### What a statement ends before -/

theorem isTerminator_of_feed {s : Phase × Nat} {c : Char} (h : feed s c = none) :
    isTerminator c := by
  obtain ⟨phase, depth⟩ := s
  cases phase <;> simp only [feed, feedPlain] at h <;> grind

theorem isTerminator_of_scan {cur : Cursor} {cs text rest : List Char}
    (h : scan .plain 0 cur cs = .ok (text, rest)) : ∀ c ∈ rest.head?, isTerminator c := by
  obtain ⟨-, s, -, hstop⟩ := scan_eq_ok_iff.1 h
  cases rest with
  | nil => simp
  | cons c cs =>
      intro d hd
      obtain rfl : c = d := by simpa using hd
      exact isTerminator_of_feed hstop

/-- Where nothing can follow in the block: before its closing brace, or at the end. -/
def AtBlockEnd (source : List Char) : Prop := ∀ c ∈ source.head?, c = '\x7d'

theorem atBlockEnd_of_scan {cur : Cursor} {cs text rest : List Char}
    (h : scan .plain 0 cur cs = .ok (text, rest))
    (hrest : ∀ c ∈ rest.head?, c ≠ '\x7b' ∧ c ≠ ';') : AtBlockEnd rest := by
  intro c hc
  have hterm := isTerminator_of_scan h c hc
  obtain ⟨hopen, hsemi⟩ := hrest c hc
  simpa [isTerminator, hopen, hsemi] using hterm

/-- No separators stand before the end of a block, and what begins there closes it. -/
theorem eq_nil_of_atBlockEnd {source before rest : List Char} (hend : AtBlockEnd source)
    (h : Text.splitHead isSeparator source = (before, rest)) : before = [] ∧ source = rest := by
  obtain ⟨rfl, hall, -⟩ := Text.splitHead_eq_iff.1 h
  cases before with
  | nil => exact ⟨rfl, rfl⟩
  | cons c cs =>
      obtain rfl := hend c rfl
      exact absurd (hall _ List.mem_cons_self) (by decide)

/-! ### Items -/

def Heading.Canonical : Heading → Prop
  | .rule selector between => Trimmed selector ∧ Blanks between
  | .atRule name afterName params between =>
    name ≠ [] ∧ Blanks afterName ∧ Trimmed params ∧ Blanks between

def Item.Canonical (rest : List Char) : Item → Prop
  | .leaf node =>
    node.children? = none ∧ node.Canonical ∧ (node.lacksSemicolon → AtBlockEnd rest)
  | .opening heading _ => heading.Canonical

/-- The body of a comment does not contain its end mark. -/
theorem not_infix_of_commentBody {cs body rest : List Char}
    (h : commentBody cs = some (body, rest)) : ¬['*', '/'] <:+: body := by
  fun_induction commentBody cs generalizing body with
  | case1 => cases h
  | case2 => cases h
  | case3 c d ds hmark =>
      obtain ⟨rfl, -⟩ := Prod.mk.inj (Option.some.inj h)
      simp
  | case4 c d ds hmark ih =>
      obtain ⟨⟨inner, tail⟩, hinner, hbody⟩ := Option.map_eq_some_iff.1 h
      obtain ⟨rfl, rfl⟩ := Prod.mk.inj hbody
      rw [List.infix_cons_iff]
      rintro (hfirst | hlater)
      · obtain ⟨rfl, hnext⟩ := List.cons_prefix_cons.1 hfirst
        obtain ⟨more, rfl⟩ := hnext
        obtain ⟨rfl, -⟩ := List.cons.inj (commentBody_append hinner)
        exact hmark ⟨rfl, rfl⟩
      · exact ih hinner hlater

section Items

variable {before : List Char} {first last : Cursor}

theorem canonical_readComment {inside rest : List Char} {item : Item}
    (hbefore : Separators before)
    (h : readComment before first inside = .ok (item, last, rest)) : item.Canonical rest := by
  obtain ⟨body, left, trimmed, text, right, hbody, hleft, hright, -, rfl⟩ := readComment_cases h
  obtain ⟨hblanks, htext, htail⟩ := trimmed_of_split hleft hright
  obtain ⟨hparts, -⟩ := comment_parts hbody hleft hright
  have hmark := not_infix_of_commentBody hbody
  rw [hparts, ← List.append_assoc] at hmark
  refine ⟨rfl, ⟨?_, ?_, ?_, ?_, ?_⟩, nofun⟩ <;> simpa only [String.toList_ofList]

theorem canonical_readAtRule {inside rest : List Char} {item : Item}
    (hbefore : Separators before)
    (h : readAtRule before first inside = .ok (item, last, rest)) : item.Canonical rest := by
  obtain ⟨name, tail, text, left, afterName, trimmed, params, between, -, hname, hscan, hspace,
    hparams, htail⟩ := readAtRule_cases h
  obtain ⟨hblanks, htrimmed, hend⟩ := trimmed_of_split hspace hparams
  have hraws (semicolon : Bool) : AtRuleRaws.Canonical (String.ofList name) (String.ofList params)
      ⟨String.ofList before, String.ofList afterName, String.ofList between, "", semicolon⟩ := by
    refine ⟨?_, mt String.ofList_eq_empty_iff.1 hname, ?_, ?_, ?_⟩ <;>
      simpa only [String.toList_ofList]
  cases htail with
  | block => exact ⟨hname, hblanks, htrimmed, hend⟩
  | terminated => exact ⟨rfl, ⟨hraws true, rfl⟩, nofun⟩
  | bare hrest => exact ⟨rfl, ⟨hraws false, rfl⟩, fun _ => atBlockEnd_of_scan hscan hrest⟩

theorem canonical_readDeclaration {source text : List Char} {semicolon : Bool}
    {d : Declaration} (hbefore : Separators before)
    (hhead : ∀ c ∈ text.head?, ¬isBlankChar c)
    (h : readDeclaration before first source text semicolon = .ok d) :
    d.Canonical ∧ d.raws.semicolon = semicolon := by
  obtain ⟨n, prop, propSpace, valueSpace, tail, trimmed, afterValue, value, mark, hcolon, hprop,
    hnamed, hspace, htrim, hmark, rfl⟩ := readDeclaration_cases h
  have hlead : ∀ c ∈ (text.take n).head?, ¬isBlankChar c := by
    intro c hc
    apply hhead c
    rw [← List.take_append_drop n text]
    exact mem_head?_of_append hc
  obtain ⟨hpropTrimmed, hpropSpace⟩ := trimmed_of_splitTail hlead hprop
  obtain ⟨hvalueSpace, htrimmed, hafterValue⟩ := trimmed_of_split hspace htrim
  have hvalue := htrimmed.cutImportantMark hmark
  refine ⟨⟨?_, mt String.ofList_eq_empty_iff.1 hnamed, ?_, 
    ⟨propSpace, valueSpace, hpropSpace, hvalueSpace, String.toList_ofList⟩, ?_, ?_, ?_, ?_⟩, rfl⟩
  case refine_4 => cases mark <;> simp
  case refine_5 =>
    dsimp only
    split
    · simp
    · assumption
  all_goals simpa only [String.toList_ofList]

theorem canonical_readStatement {source rest : List Char} {item : Item}
    (hbefore : Separators before) (hhead : ∀ c ∈ source.head?, ¬isBlankChar c)
    (h : readStatement before first source = .ok (item, last, rest)) : item.Canonical rest := by
  obtain ⟨text, left, hscan, htail⟩ := readStatement_cases h
  have hsource := scan_append hscan
  have htext : ∀ c ∈ text.head?, ¬isBlankChar c :=
    fun c hc => hhead c (hsource ▸ mem_head?_of_append hc)
  cases htail with
  | block hsplit => exact trimmed_of_splitTail htext hsplit
  | terminated hdecl =>
      obtain ⟨hd, hsemi⟩ := canonical_readDeclaration hbefore htext hdecl
      exact ⟨rfl, hd, by simp [Node.lacksSemicolon, hsemi]⟩
  | bare hrest hdecl =>
      obtain ⟨hd, -⟩ := canonical_readDeclaration hbefore htext hdecl
      exact ⟨rfl, hd, fun _ => atBlockEnd_of_scan hscan hrest⟩

/-- An item has its form if separators stand before it and it begins with none. -/
theorem canonical_readItem {c : Char} {cs rest : List Char} {item : Item}
    (hbefore : Separators before) (hc : ¬isSeparator c)
    (h : readItem before first c cs = .ok (item, last, rest)) : item.Canonical rest := by
  have hhead : ∀ d ∈ (c :: cs).head?, ¬isBlankChar d := by
    intro d hd
    obtain rfl : c = d := by simpa using hd
    exact fun hblank => hc (by simp [isSeparator, hblank])
  unfold readItem at h
  split at h
  · exact canonical_readAtRule hbefore h
  · split at h
    · exact canonical_readStatement hbefore hhead h
    · split at h
      · exact canonical_readComment hbefore h
      · exact canonical_readStatement hbefore hhead h

/-- No item begins with a closing brace. -/
theorem readItem_brace {cs rest : List Char} {item : Item} :
    readItem before first '\x7d' cs ≠ .ok (item, last, rest) := by
  intro h
  have hstatement : readStatement before first ('\x7d' :: cs) = .ok (item, last, rest) := by
    cases cs <;> exact h
  obtain ⟨text, left, hscan, htail⟩ := readStatement_cases hstatement
  have hscanned : scan .plain 0 first ('\x7d' :: cs) = .ok ([], '\x7d' :: cs) :=
    scan_eq_ok_iff.2 ⟨rfl, _, rfl, rfl⟩
  obtain ⟨rfl, rfl⟩ := Prod.mk.inj (Except.ok.inj (hscanned.symm.trans hscan))
  cases htail with
  | bare _ hdecl =>
      obtain ⟨n, -, -, -, -, -, -, -, -, hcolon, -⟩ := readDeclaration_cases hdecl
      exact absurd (colonOffset_spec hcolon).1 (Nat.not_lt_zero n)

end Items

/-! ### Turns of the reader -/

/-- A block that is open. The nodes before it have all ended, since it was opened after them. -/
structure Frame.Canonical (f : Frame) : Prop where
  before : Separators f.before
  heading : f.heading.Canonical
  preceding : ∀ node ∈ Node.walkAll f.preceding, node.Canonical
  ended : ∀ node ∈ f.preceding, ¬node.lacksSemicolon

/-- What is read so far has its form, and a node without its semicolon stands at the end of its
block. -/
structure State.Canonical (s : State) : Prop where
  frames : ∀ frame ∈ s.frames, frame.Canonical
  nodes : ∀ node ∈ Node.walkAll s.nodes, node.Canonical
  ended : ∀ node ∈ s.nodes.tail, ¬node.lacksSemicolon
  last : ∀ node ∈ s.nodes.head?, node.lacksSemicolon → AtBlockEnd s.source

theorem mem_walkAll_iff {below : Node} {nodes : List Node} :
    below ∈ Node.walkAll nodes ↔ ∃ node ∈ nodes, below ∈ node.walk := by
  induction nodes with
  | nil => simp [Node.walkAll]
  | cons node nodes ih => simp [Node.walkAll, ih]

theorem walk_of_children? {node : Node} (h : node.children? = none) : node.walk = [node] := by
  cases node with
  | rule selector nodes raws source => cases h
  | block name params nodes raws source => cases h
  | statement name params raws source => rfl
  | decl d => rfl
  | comment c => rfl

/-- If there is anything but the end of the block to read, all nodes so far have ended. -/
theorem State.Canonical.all_ended {s : State} (h : s.Canonical) {before cs : List Char} {c : Char}
    (hsplit : Text.splitHead isSeparator s.source = (before, c :: cs)) (hc : c ≠ '\x7d') :
    ∀ node ∈ s.nodes, ¬node.lacksSemicolon := by
  obtain ⟨frames, nodes, cur, source⟩ := s
  cases nodes with
  | nil => simp
  | cons node nodes =>
      intro other hother
      rcases List.mem_cons.1 hother with rfl | hother
      · intro hlacks
        have hend := h.last other rfl hlacks
        obtain ⟨-, hsource⟩ := eq_nil_of_atBlockEnd hend hsplit
        exact hc (hend c (hsource ▸ rfl))
      · exact h.ended other hother

/-- The nodes of a block are in a row that ends where the block is closed. -/
theorem State.Canonical.row {s : State} (h : s.Canonical) {before rest : List Char}
    (hsplit : Text.splitHead isSeparator s.source = (before, rest)) :
    Node.CanonicalRow s.nodes.reverse (String.ofList before) := by
  obtain ⟨-, hbefore, -⟩ := Text.splitHead_eq_iff.1 hsplit
  refine ⟨by simpa only [String.toList_ofList], ?_, ?_⟩
  · intro node hnode
    rw [List.dropLast_reverse, List.mem_reverse] at hnode
    exact h.ended node hnode
  · intro node hnode hlacks
    rw [List.getLast?_reverse] at hnode
    obtain ⟨rfl, -⟩ := eq_nil_of_atBlockEnd (h.last node hnode hlacks) hsplit
    rfl

theorem canonical_walkAll_reverse {nodes : List Node}
    (h : ∀ node ∈ Node.walkAll nodes, node.Canonical) :
    ∀ node ∈ Node.walkAll nodes.reverse, node.Canonical := by
  intro below hbelow
  obtain ⟨node, hnode, hbelow⟩ := mem_walkAll_iff.1 hbelow
  exact h below (mem_walkAll_iff.2 ⟨node, List.mem_reverse.1 hnode, hbelow⟩)

/-- A block that is closed has its form, and so has all that is in it. -/
theorem Frame.Canonical.close {f : Frame} (hf : f.Canonical) {nodes : List Node}
    {after : List Char} (hnodes : ∀ node ∈ Node.walkAll nodes, node.Canonical)
    (hrow : Node.CanonicalRow nodes (String.ofList after)) (last : Cursor) :
    (∀ node ∈ (f.close nodes after last).walk, node.Canonical) ∧
      ¬(f.close nodes after last).lacksSemicolon := by
  obtain ⟨before, heading, first, brace, preceding⟩ := f
  have hbefore : Separators (String.ofList before).toList := by
    simpa only [String.toList_ofList] using hf.before
  have hheading := hf.heading
  cases heading with
  | rule selector between =>
      refine ⟨fun node hnode => ?_, nofun⟩
      rcases List.mem_cons.1 hnode with rfl | hnode
      · refine ⟨hbefore, ?_, ?_, hrow⟩ <;> simp only [String.toList_ofList]
        · exact hheading.1
        · exact hheading.2
      · exact hnodes node hnode
  | atRule name afterName params between =>
      obtain ⟨hname, hafterName, hparams, hbetween⟩ := hheading
      refine ⟨fun node hnode => ?_, nofun⟩
      rcases List.mem_cons.1 hnode with rfl | hnode
      · refine ⟨⟨hbefore, mt String.ofList_eq_empty_iff.1 hname, ?_, ?_, ?_⟩, rfl, hrow⟩ <;>
          simpa only [String.toList_ofList]
      · exact hnodes node hnode

/-- One turn of the reader keeps the form. -/
theorem Step.canonical {a b : State} (h : Step a b) (ha : a.Canonical) : b.Canonical := by
  cases h with
  | @close frame outer nodes cur last source before cs hsplit hlast =>
      have hframe := ha.frames frame List.mem_cons_self
      obtain ⟨hclosed, hended⟩ := hframe.close (canonical_walkAll_reverse ha.nodes)
        (ha.row hsplit) last
      refine ⟨fun f hf => ha.frames f (List.mem_cons_of_mem _ hf), ?_, hframe.ended, ?_⟩
      · intro node hnode
        rcases List.mem_append.1 hnode with hnode | hnode
        · exact hclosed node hnode
        · exact hframe.preceding node hnode
      · intro node hnode hlacks
        obtain rfl := Option.some.inj hnode
        exact absurd hlacks hended
  | @leaf frames nodes cur next source before cs rest c node hsplit hitem =>
      obtain ⟨-, hbefore, hc⟩ := Text.splitHead_eq_iff.1 hsplit
      obtain ⟨hchildren, hnode, hend⟩ := canonical_readItem hbefore (hc c rfl) hitem
      have hbrace : c ≠ '\x7d' := fun hc => readItem_brace (hc ▸ hitem)
      refine ⟨ha.frames, ?_, ha.all_ended hsplit hbrace, ?_⟩
      · intro below hbelow
        rcases List.mem_append.1 hbelow with hbelow | hbelow
        · rw [walk_of_children? hchildren, List.mem_singleton] at hbelow
          exact hbelow ▸ hnode
        · exact ha.nodes below hbelow
      · intro other hother hlacks
        obtain rfl := Option.some.inj hother
        exact hend hlacks
  | @opening frames nodes cur brace next source before cs rest c heading hsplit hitem =>
      obtain ⟨-, hbefore, hc⟩ := Text.splitHead_eq_iff.1 hsplit
      have hheading := canonical_readItem hbefore (hc c rfl) hitem
      have hbrace : c ≠ '\x7d' := fun hc => readItem_brace (hc ▸ hitem)
      refine ⟨fun f hf => ?_, by simp [Node.walkAll], nofun, nofun⟩
      rcases List.mem_cons.1 hf with rfl | hf
      · exact ⟨hbefore, hheading, ha.nodes, ha.all_ended hsplit hbrace⟩
      · exact ha.frames f hf

end Reader

/-- A sheet that was read has the canonical form. -/
theorem Sheet.canonical_of_parse {file : Option String} {source : String} {sheet : Sheet}
    (h : Sheet.parse file source = .ok sheet) : sheet.Canonical := by
  unfold Sheet.parse at h
  split at h
  · rename_i read hread
    obtain rfl := Except.ok.inj h
    have hstart : Reader.State.Canonical ⟨[], [], Cursor.start, source.toList⟩ :=
      ⟨nofun, by simp [Node.walkAll], nofun, nofun⟩
    obtain ⟨s, hs, -, after, hsplit, rfl⟩ := Reader.readNodes_preserves Reader.State.Canonical
      Reader.Step.canonical hstart hread
    exact ⟨Reader.canonical_walkAll_reverse hs.nodes, hs.row hsplit⟩
  · cases h

theorem Sheet.canonical_of_parse_layered :
    ∃ sheet, Sheet.parse none layeredSource = .ok sheet ∧ sheet.Canonical := by
  have hok : (Sheet.parse none layeredSource).isOk = true := by decide +kernel
  cases h : Sheet.parse none layeredSource with
  | ok sheet => exact ⟨sheet, rfl, Sheet.canonical_of_parse h⟩
  | error e => simp [h, Except.isOk, Except.toBool] at hok

end StyleAudit
