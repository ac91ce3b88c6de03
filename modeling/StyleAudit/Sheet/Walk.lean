import StyleAudit.Sheet.Node

/-!
Walking and editing a tree.

`Node.walk` lists the nodes of a tree with parents before their children, and `Node.visit` is the
same walk with the freedom to stop or to leave out children. `Node.edit` changes nodes in place.
-/

namespace StyleAudit

mutual

/-- A node and all nodes below it, parents first. -/
def Node.walk : Node → List Node
  | .rule selector nodes raws source =>
    .rule selector nodes raws source :: Node.walkAll nodes
  | .block name params nodes raws source =>
    .block name params nodes raws source :: Node.walkAll nodes
  | node => [node]

/-- All nodes of a list of trees, parents first. -/
def Node.walkAll : List Node → List Node
  | [] => []
  | node :: nodes => node.walk ++ Node.walkAll nodes

end

/-- What a visitor does after it has seen a node. -/
inductive Visit (σ : Type) where
  /-- Goes on with the node's children, if it has any. -/
  | descend (state : σ)
  /-- Goes on after the node. -/
  | skip (state : σ)
  /-- Ends the walk. -/
  | stop (state : σ)

mutual

/-- Walks a tree until the visitor stops it; tells whether it did. -/
def Node.visit {σ : Type} (f : σ → Node → Visit σ) (state : σ) : Node → σ × Bool
  | .rule selector nodes raws source =>
    match f state (.rule selector nodes raws source) with
    | .descend state => Node.visitAll f state nodes
    | .skip state => (state, false)
    | .stop state => (state, true)
  | .block name params nodes raws source =>
    match f state (.block name params nodes raws source) with
    | .descend state => Node.visitAll f state nodes
    | .skip state => (state, false)
    | .stop state => (state, true)
  | node =>
    match f state node with
    | .descend state => (state, false)
    | .skip state => (state, false)
    | .stop state => (state, true)

def Node.visitAll {σ : Type} (f : σ → Node → Visit σ) (state : σ) : List Node → σ × Bool
  | [] => (state, false)
  | node :: nodes =>
    match node.visit f state with
    | (state, true) => (state, true)
    | (state, false) => Node.visitAll f state nodes

end

mutual

/-- Changes every node of a tree, children before their parents. -/
def Node.edit (f : Node → Node) : Node → Node
  | .rule selector nodes raws source => f (.rule selector (Node.editAll f nodes) raws source)
  | .block name params nodes raws source =>
    f (.block name params (Node.editAll f nodes) raws source)
  | node => f node

def Node.editAll (f : Node → Node) : List Node → List Node
  | [] => []
  | node :: nodes => node.edit f :: Node.editAll f nodes

end

namespace Node

def declaration? : Node → Option Declaration
  | .decl d => some d
  | _ => none

def comment? : Node → Option Comment
  | .comment c => some c
  | _ => none

/-- The selector of a qualified rule. -/
def selector? : Node → Option String
  | .rule selector _ _ _ => some selector
  | _ => none

/-- Whether the node is a qualified rule without children. -/
def isEmptyRule : Node → Bool
  | .rule _ nodes _ _ => nodes.isEmpty
  | _ => false

/-- The kind of a node as it is called in messages. -/
def kind : Node → String
  | .rule .. => "rule"
  | .block .. => "atrule"
  | .statement .. => "atrule"
  | .decl _ => "decl"
  | .comment _ => "comment"

/-- The text that a node is known by: selector, name, property or comment text. -/
def label : Node → String
  | .rule selector _ _ _ => selector
  | .block name _ _ _ _ => name
  | .statement name _ _ _ => name
  | .decl d => d.prop
  | .comment c => c.text

def withLabel (label : String) : Node → Node
  | .rule _ nodes raws source => .rule label nodes raws source
  | .block _ params nodes raws source => .block label params nodes raws source
  | .statement _ params raws source => .statement label params raws source
  | .decl d => .decl { d with prop := label }
  | .comment c => .comment { c with text := label }

/-- Changes a declaration and leaves other nodes alone. -/
def mapDeclaration (f : Declaration → Declaration) : Node → Node
  | .decl d => .decl (f d)
  | node => node

/-- Changes the child list that a path of indices leads to; `none` if it leads to none. -/
def updateAt (f : List Node → Option (List Node)) : List Nat → List Node → Option (List Node)
  | [], nodes => f nodes
  | i :: path, nodes => do
    let node ← nodes[i]?
    let children ← node.children?
    let changed ← updateAt f path children
    return nodes.set i (node.withChildren changed)

/-- Removes the node at an index. -/
def removeAt (i : Nat) (nodes : List Node) : Option (List Node) :=
  if i < nodes.length then some (nodes.eraseIdx i) else none

end Node

namespace Sheet

def walk (s : Sheet) : List Node :=
  Node.walkAll s.nodes

def declarations (s : Sheet) : List Declaration :=
  s.walk.filterMap Node.declaration?

def comments (s : Sheet) : List Comment :=
  s.walk.filterMap Node.comment?

/-- The selectors of the qualified rules. -/
def selectors (s : Sheet) : List String :=
  s.walk.filterMap Node.selector?

def edit (f : Node → Node) (s : Sheet) : Sheet :=
  { s with nodes := Node.editAll f s.nodes }

/-- Changes every declaration. -/
def mapDeclarations (f : Declaration → Declaration) (s : Sheet) : Sheet :=
  s.edit (Node.mapDeclaration f)

/-- Gives a value to each declaration of a property, and sets the important mark if asked to. -/
def setValue (prop value : String) (important : Option Bool) (s : Sheet) : Sheet :=
  s.mapDeclarations fun d =>
    if d.prop = prop then { d with value := value, important := important.getD d.important }
    else d

/-- Renames every node that is known by `old`. -/
def rename (old new : String) (s : Sheet) : Sheet :=
  s.edit fun node => if node.label = old then node.withLabel new else node

/-- Puts a text before every declaration value and comment text. -/
def prependText (text : String) (s : Sheet) : Sheet :=
  s.edit fun
    | .decl d => .decl { d with value := text ++ d.value }
    | .comment c => .comment { c with text := text ++ c.text }
    | node => node

/-- Appends a node to the child list at a path. -/
def push (path : List Nat) (node : Node) (s : Sheet) : Option Sheet := do
  let nodes ← Node.updateAt (fun nodes => some (nodes ++ [node])) path s.nodes
  return { s with nodes := nodes }

/-- Removes the node at a path. -/
def remove (path : List Nat) (s : Sheet) : Option Sheet := do
  let i ← path.getLast?
  let nodes ← Node.updateAt (Node.removeAt i) path.dropLast s.nodes
  return { s with nodes := nodes }

end Sheet

end StyleAudit
