import StyleAudit.Proofs.Lossless
import StyleAudit.Sheet.Walk

/-!
The pieces that a sheet prints as, and words that are exchanged in its values.

A sheet prints as the values of its declarations and the text between them. An edit of some values
changes those pieces of the text and no others.
-/

namespace StyleAudit

def isWordChar (c : Char) : Bool :=
  c.isAlphanum || c == '-'

structure Word where
  text : String
  nonempty : text ≠ ""
  plain : ∀ c ∈ text.toList, isWordChar c
deriving DecidableEq, Repr

def Word.ofText? (text : String) : Option Word :=
  if h : text ≠ "" ∧ text.toList.all isWordChar then
    some ⟨text, h.1, List.all_eq_true.1 h.2⟩
  else none

/-- The text that a map of words gives for a text; texts that it does not map stay. -/
def reworded (f : Word → Option Word) (text : String) : String :=
  match (Word.ofText? text).bind f with
  | some word => word.text
  | none => text

def Declaration.reword (f : Word → Option Word) (d : Declaration) : Declaration :=
  { d with value := reworded f d.value }

def Sheet.reword (f : Word → Option Word) (s : Sheet) : Sheet :=
  s.mapDeclarations (Declaration.reword f)

/-- A stretch of the text that a sheet prints as. -/
inductive Piece where
  | verbatim (text : String)
  /-- The value of a declaration. -/
  | value (text : String)
deriving DecidableEq, Repr

namespace Piece

def text : Piece → String
  | .verbatim text => text
  | .value text => text

def value? : Piece → Option String
  | .verbatim _ => none
  | .value text => some text

def reword (f : Word → Option Word) : Piece → Piece
  | .verbatim text => .verbatim text
  | .value text => .value (reworded f text)

def join : List Piece → String
  | [] => ""
  | piece :: pieces => piece.text ++ join pieces

end Piece

def Declaration.pieces (d : Declaration) : List Piece :=
  [.verbatim (d.raws.before ++ d.prop ++ d.raws.between), .value d.value,
    .verbatim (d.mark ++ d.raws.afterValue ++ if d.raws.semicolon then ";" else "")]

mutual

def Node.pieces : Node → List Piece
  | .rule selector nodes raws _ =>
    .verbatim (raws.before ++ selector ++ raws.between ++ "\x7b") :: Node.piecesAll nodes ++
      [.verbatim (raws.after ++ "\x7d")]
  | .block name params nodes raws _ =>
    .verbatim (raws.before ++ "@" ++ name ++ raws.afterName ++ params ++ raws.between ++ "\x7b") ::
      Node.piecesAll nodes ++ [.verbatim (raws.after ++ "\x7d")]
  | .decl d => d.pieces
  | node => [.verbatim node.render]

def Node.piecesAll : List Node → List Piece
  | [] => []
  | node :: nodes => node.pieces ++ Node.piecesAll nodes

end

def Sheet.pieces (s : Sheet) : List Piece :=
  Node.piecesAll s.nodes ++ [.verbatim s.after]

namespace Piece

theorem join_append (a b : List Piece) : join (a ++ b) = join a ++ join b := by
  induction a with
  | nil => simp [join]
  | cons piece pieces ih => simp [join, ih, String.append_assoc]

end Piece

theorem Declaration.join_pieces (d : Declaration) : Piece.join d.pieces = d.render := by
  simp [Declaration.pieces, Piece.join, Piece.text, Declaration.render, Declaration.mark,
    String.append_assoc]

mutual

theorem Node.join_pieces (node : Node) : Piece.join node.pieces = node.render := by
  cases node with
  | rule selector nodes raws source =>
      rw [Node.pieces, Node.render, List.cons_append, Piece.join, Piece.join_append,
        Node.join_piecesAll nodes]
      simp [Piece.join, Piece.text, String.append_assoc]
  | block name params nodes raws source =>
      rw [Node.pieces, Node.render, List.cons_append, Piece.join, Piece.join_append,
        Node.join_piecesAll nodes]
      simp [Piece.join, Piece.text, String.append_assoc]
  | statement name params raws source => simp [Node.pieces, Piece.join, Piece.text]
  | decl d => rw [Node.pieces, Node.render, d.join_pieces]
  | comment c => simp [Node.pieces, Piece.join, Piece.text]

theorem Node.join_piecesAll (nodes : List Node) :
    Piece.join (Node.piecesAll nodes) = Node.renderAll nodes := by
  cases nodes with
  | nil => rfl
  | cons node nodes =>
      rw [Node.piecesAll, Piece.join_append, node.join_pieces, Node.join_piecesAll nodes,
        Node.renderAll]

end

/-- The pieces of a sheet are its text. -/
theorem Sheet.join_pieces (s : Sheet) : Piece.join s.pieces = s.render := by
  rw [Sheet.pieces, Piece.join_append, Node.join_piecesAll, Sheet.render]
  simp [Piece.join, Piece.text]

mutual

theorem Node.pieces_reword (f : Word → Option Word) (node : Node) :
    (node.edit (Node.mapDeclaration (Declaration.reword f))).pieces =
      node.pieces.map (Piece.reword f) := by
  cases node with
  | rule selector nodes raws source =>
      simp [Node.edit, Node.mapDeclaration, Node.pieces, Piece.reword,
        Node.piecesAll_reword f nodes]
  | block name params nodes raws source =>
      simp [Node.edit, Node.mapDeclaration, Node.pieces, Piece.reword,
        Node.piecesAll_reword f nodes]
  | statement name params raws source => rfl
  | decl d => rfl
  | comment c => rfl

theorem Node.piecesAll_reword (f : Word → Option Word) (nodes : List Node) :
    Node.piecesAll (Node.editAll (Node.mapDeclaration (Declaration.reword f)) nodes) =
      (Node.piecesAll nodes).map (Piece.reword f) := by
  cases nodes with
  | nil => rfl
  | cons node nodes =>
      rw [Node.editAll, Node.piecesAll, Node.piecesAll, List.map_append,
        node.pieces_reword f, Node.piecesAll_reword f nodes]

end

/-- Rewording a sheet rewords its pieces. -/
theorem Sheet.pieces_reword (f : Word → Option Word) (s : Sheet) :
    (s.reword f).pieces = s.pieces.map (Piece.reword f) := by
  rw [Sheet.pieces, Sheet.pieces, List.map_append, ← Node.piecesAll_reword]
  rfl

mutual

theorem Node.values_pieces (node : Node) : node.pieces.filterMap Piece.value? =
    (node.walk.filterMap Node.declaration?).map Declaration.value := by
  cases node with
  | rule selector nodes raws source =>
      rw [Node.pieces, Node.walk, List.filterMap_cons_none rfl, List.cons_append,
        List.filterMap_cons_none rfl, List.filterMap_append, Node.values_piecesAll nodes]
      simp [Piece.value?]
  | block name params nodes raws source =>
      rw [Node.pieces, Node.walk, List.filterMap_cons_none rfl, List.cons_append,
        List.filterMap_cons_none rfl, List.filterMap_append, Node.values_piecesAll nodes]
      simp [Piece.value?]
  | statement name params raws source => rfl
  | decl d => rfl
  | comment c => rfl

theorem Node.values_piecesAll (nodes : List Node) :
    (Node.piecesAll nodes).filterMap Piece.value? =
      ((Node.walkAll nodes).filterMap Node.declaration?).map Declaration.value := by
  cases nodes with
  | nil => rfl
  | cons node nodes =>
      rw [Node.piecesAll, Node.walkAll, List.filterMap_append, List.filterMap_append,
        List.map_append, node.values_pieces, Node.values_piecesAll nodes]

end

/-- The value pieces of a sheet are the values of its declarations, in the order of the text. -/
theorem Sheet.values_pieces (s : Sheet) :
    s.pieces.filterMap Piece.value? = s.declarations.map Declaration.value := by
  rw [Sheet.pieces, List.filterMap_append, Node.values_piecesAll]
  simp [Piece.value?, Sheet.declarations, Sheet.walk]

def Node.withoutSource : Node → Node
  | .rule selector nodes raws _ => .rule selector nodes raws none
  | .block name params nodes raws _ => .block name params nodes raws none
  | .statement name params raws _ => .statement name params raws none
  | .decl d => .decl { d with source := none }
  | .comment c => .comment { c with source := none }

def Sheet.withoutSources (s : Sheet) : Sheet :=
  s.edit Node.withoutSource

mutual

theorem Node.render_withoutSource (node : Node) :
    (node.edit Node.withoutSource).render = node.render := by
  cases node with
  | rule selector nodes raws source =>
      simp only [Node.edit, Node.withoutSource, Node.render, Node.renderAll_withoutSource nodes]
  | block name params nodes raws source =>
      simp only [Node.edit, Node.withoutSource, Node.render, Node.renderAll_withoutSource nodes]
  | statement name params raws source => rfl
  | decl d => rfl
  | comment c => rfl

theorem Node.renderAll_withoutSource (nodes : List Node) :
    Node.renderAll (Node.editAll Node.withoutSource nodes) = Node.renderAll nodes := by
  cases nodes with
  | nil => rfl
  | cons node nodes =>
      rw [Node.editAll, Node.renderAll, Node.renderAll, node.render_withoutSource,
        Node.renderAll_withoutSource nodes]

end

/-- A sheet without its sources prints the same text. -/
theorem Sheet.render_withoutSources (s : Sheet) : s.withoutSources.render = s.render := by
  rw [Sheet.render, Sheet.render, Sheet.withoutSources, Sheet.edit, Node.renderAll_withoutSource]

/-- Whether a node is another one reworded, up to sources. -/
def Node.Rewords (f : Word → Option Word) (node node' : Node) : Prop :=
  node'.edit Node.withoutSource =
    (node.edit (Node.mapDeclaration (Declaration.reword f))).edit Node.withoutSource

/-- Whether a sheet is another one reworded, up to sources. -/
def Sheet.Rewords (f : Word → Option Word) (s s' : Sheet) : Prop :=
  s'.withoutSources = (s.reword f).withoutSources

/-- Words are exchanged for words, and other values stay. -/
theorem reworded_cases (f : Word → Option Word) (text : String) :
    reworded f text = text ∨
      ∃ word word' : Word, text = word.text ∧ reworded f text = word'.text := by
  rw [reworded]
  split
  · rename_i word' h
    obtain ⟨word, hword, -⟩ := Option.bind_eq_some_iff.1 h
    rw [Word.ofText?] at hword
    split at hword
    · exact .inr ⟨word, word', by rw [← Option.some.inj hword], rfl⟩
    · cases hword
  · exact .inl rfl

end StyleAudit
