import StyleAudit.Sheet.Position

/-!
The stylesheet tree.

A node keeps the blanks and separators around its parts beside the parts themselves, so a tree that
nobody changed prints back to the text it was read from. `Sheet.render` is that printer.
-/

namespace StyleAudit

/-- Text around the parts of a qualified rule. -/
structure RuleRaws where
  before : String
  /-- Between the selector and the opening brace. -/
  between : String
  /-- Between the last child and the closing brace. -/
  after : String
deriving DecidableEq, Repr, Inhabited

/-- Text around the parts of an at-rule. -/
structure AtRuleRaws where
  before : String
  /-- Between the name and the parameters. -/
  afterName : String
  /-- Between the parameters and what ends them. -/
  between : String
  /-- Between the last child and the closing brace. -/
  after : String
  /-- Whether an at-rule without a block ends in a semicolon. -/
  semicolon : Bool
deriving DecidableEq, Repr, Inhabited

/-- Text around the parts of a declaration. -/
structure DeclRaws where
  before : String
  /-- Between the property and the value, colon included. -/
  between : String
  /-- How the important mark is spelled, when not in the usual way. -/
  important : Option String
  /-- Between the value and what ends it. -/
  afterValue : String
  semicolon : Bool
deriving DecidableEq, Repr, Inhabited

/-- Text around the parts of a comment. -/
structure CommentRaws where
  before : String
  left : String
  right : String
deriving DecidableEq, Repr, Inhabited

/-- A declaration `prop: value`. -/
structure Declaration where
  prop : String
  value : String
  important : Bool
  raws : DeclRaws
  source : Option SourceRange
deriving DecidableEq, Repr, Inhabited

/-- A block comment, its text without the blanks at its ends. -/
structure Comment where
  text : String
  raws : CommentRaws
  source : Option SourceRange
deriving DecidableEq, Repr, Inhabited

/-- A node of the tree. Nodes made by a fix have no source. -/
inductive Node where
  /-- A qualified rule `selector { … }`. -/
  | rule (selector : String) (nodes : List Node) (raws : RuleRaws) (source : Option SourceRange)
  /-- An at-rule with its block. -/
  | block (name params : String) (nodes : List Node) (raws : AtRuleRaws)
      (source : Option SourceRange)
  /-- An at-rule that is a statement. -/
  | statement (name params : String) (raws : AtRuleRaws) (source : Option SourceRange)
  | decl (declaration : Declaration)
  | comment (comment : Comment)
deriving Repr, Inhabited

/-- A whole stylesheet. -/
structure Sheet where
  nodes : List Node
  /-- Blanks and stray semicolons after the last node. -/
  after : String
deriving Repr, Inhabited

/-- The sheet without nodes and without text. -/
def Sheet.empty : Sheet := ⟨[], ""⟩

/-- The usual spelling of the important mark. -/
def importantMark : String := " !important"

def Declaration.render (d : Declaration) : String :=
  d.raws.before ++ d.prop ++ d.raws.between ++ d.value ++
    (if d.important then d.raws.important.getD importantMark else "") ++
    d.raws.afterValue ++ (if d.raws.semicolon then ";" else "")

def Comment.render (c : Comment) : String :=
  c.raws.before ++ "/*" ++ c.raws.left ++ c.text ++ c.raws.right ++ "*/"

mutual

/-- The text of a node, the text before it included. -/
def Node.render : Node → String
  | .rule selector nodes raws _ =>
    raws.before ++ selector ++ raws.between ++ "\x7b" ++ Node.renderAll nodes ++
      raws.after ++ "\x7d"
  | .block name params nodes raws _ =>
    raws.before ++ "@" ++ name ++ raws.afterName ++ params ++ raws.between ++ "\x7b" ++
      Node.renderAll nodes ++ raws.after ++ "\x7d"
  | .statement name params raws _ =>
    raws.before ++ "@" ++ name ++ raws.afterName ++ params ++ raws.between ++
      (if raws.semicolon then ";" else "")
  | .decl d => d.render
  | .comment c => c.render

def Node.renderAll : List Node → String
  | [] => ""
  | node :: nodes => node.render ++ Node.renderAll nodes

end

/-- The text of a sheet. -/
def Sheet.render (s : Sheet) : String :=
  Node.renderAll s.nodes ++ s.after

namespace Node

def source : Node → Option SourceRange
  | .rule _ _ _ source => source
  | .block _ _ _ _ source => source
  | .statement _ _ _ source => source
  | .decl d => d.source
  | .comment c => c.source

/-- The child list, if the node has one. -/
def children? : Node → Option (List Node)
  | .rule _ nodes _ _ => some nodes
  | .block _ _ nodes _ _ => some nodes
  | _ => none

/-- Replaces the child list of a node that has one. -/
def withChildren (nodes : List Node) : Node → Node
  | .rule selector _ raws source => .rule selector nodes raws source
  | .block name params _ raws source => .block name params nodes raws source
  | node => node

/-- A rule with a given selector and children, laid out in the default way. -/
def freshRule (selector : String) (nodes : List Node) : Node :=
  .rule selector nodes ⟨"", " ", "\n"⟩ none

/-- An at-rule, with a block if children are given. -/
def freshAtRule (name params : String) (nodes : Option (List Node)) : Node :=
  let raws : AtRuleRaws := ⟨"", if params = "" then "" else " ", "", "", true⟩
  match nodes with
  | some nodes => .block name params nodes raws none
  | none => .statement name params raws none

/-- A declaration on a line of its own. -/
def freshDecl (prop value : String) (important : Bool) : Node :=
  .decl ⟨prop, value, important, ⟨"\n    ", ": ", none, "", true⟩, none⟩

def freshComment (text : String) : Node :=
  .comment ⟨text, ⟨"", " ", " "⟩, none⟩

end Node

end StyleAudit
