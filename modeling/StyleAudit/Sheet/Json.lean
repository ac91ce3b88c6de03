import StyleAudit.Json.Record
import StyleAudit.Sheet.Node

/-!
The JSON form of a tree.

Nodes carry their kind in the field `type`. Reading wants every field except sources, the nodes of
an at-rule and the spelling of an important mark. Inside another node a kind may be given by its
number.
-/

namespace StyleAudit

open Json (optional? recordField? isRecord)

namespace Position

def toJson (p : Position) : Json :=
  .object [("line", Json.nat p.line), ("column", Json.nat p.column)]

def ofJson? (v : Json) : Option Position := do
  let names := ["line", "column"]
  guard (isRecord names v)
  let line ← (← recordField? names "line" v).natBelow? Json.word32
  let column ← (← recordField? names "column" v).natBelow? Json.word32
  return ⟨line, column⟩

end Position

namespace SourceRange

def toJson (r : SourceRange) : Json :=
  .object [
    ("span", .object [("start", Json.nat r.span.start), ("end", Json.nat r.span.stop)]),
    ("loc", .object [("start", r.location.start.toJson), ("end", r.location.stop.toJson)])]

def ofJson? (v : Json) : Option SourceRange := do
  let names := ["span", "loc"]
  let ends := ["start", "end"]
  guard (isRecord names v)
  let span ← recordField? names "span" v
  let location ← recordField? names "loc" v
  guard (isRecord ends span && isRecord ends location)
  let start ← (← recordField? ends "start" span).natBelow? Json.word32
  let stop ← (← recordField? ends "end" span).natBelow? Json.word32
  let first ← Position.ofJson? (← recordField? ends "start" location)
  let last ← Position.ofJson? (← recordField? ends "end" location)
  return ⟨⟨start, stop⟩, ⟨first, last⟩⟩

end SourceRange

def sourceToJson (source : Option SourceRange) : Json :=
  (source.map SourceRange.toJson).getD .null

def RuleRaws.toJson (r : RuleRaws) : Json :=
  .object [("before", .string r.before), ("between", .string r.between),
    ("after", .string r.after)]

def RuleRaws.ofJson? (v : Json) : Option RuleRaws := do
  let names := ["before", "between", "after"]
  guard (isRecord names v)
  let text (key : String) : Option String := do (← recordField? names key v).text?
  return ⟨← text "before", ← text "between", ← text "after"⟩

def AtRuleRaws.toJson (r : AtRuleRaws) : Json :=
  .object [("before", .string r.before), ("after_name", .string r.afterName),
    ("between", .string r.between), ("after", .string r.after),
    ("semicolon", .bool r.semicolon)]

def AtRuleRaws.ofJson? (v : Json) : Option AtRuleRaws := do
  let names := ["before", "after_name", "between", "after", "semicolon"]
  guard (isRecord names v)
  let text (key : String) : Option String := do (← recordField? names key v).text?
  let semicolon ← (← recordField? names "semicolon" v).bool?
  return ⟨← text "before", ← text "after_name", ← text "between", ← text "after", semicolon⟩

def DeclRaws.toJson (r : DeclRaws) : Json :=
  .object [("before", .string r.before), ("between", .string r.between),
    ("important", (r.important.map Json.string).getD .null),
    ("after_value", .string r.afterValue), ("semicolon", .bool r.semicolon)]

def DeclRaws.ofJson? (v : Json) : Option DeclRaws := do
  let names := ["before", "between", "important", "after_value", "semicolon"]
  guard (isRecord names v)
  let text (key : String) : Option String := do (← recordField? names key v).text?
  let important ← optional? Json.text? (recordField? names "important" v)
  let semicolon ← (← recordField? names "semicolon" v).bool?
  return ⟨← text "before", ← text "between", important, ← text "after_value", semicolon⟩

def CommentRaws.toJson (r : CommentRaws) : Json :=
  .object [("before", .string r.before), ("left", .string r.left), ("right", .string r.right)]

def CommentRaws.ofJson? (v : Json) : Option CommentRaws := do
  let names := ["before", "left", "right"]
  guard (isRecord names v)
  let text (key : String) : Option String := do (← recordField? names key v).text?
  return ⟨← text "before", ← text "left", ← text "right"⟩

def Declaration.toJson (d : Declaration) : Json :=
  .object [("type", .string "decl"), ("prop", .string d.prop), ("value", .string d.value),
    ("important", .bool d.important), ("raws", d.raws.toJson), ("source", sourceToJson d.source)]

def Comment.toJson (c : Comment) : Json :=
  .object [("type", .string "comment"), ("text", .string c.text), ("raws", c.raws.toJson),
    ("source", sourceToJson c.source)]

def atRuleToJson (name params : String) (nodes : Json) (raws : AtRuleRaws)
    (source : Option SourceRange) : Json :=
  .object [("type", .string "atrule"), ("name", .string name), ("params", .string params),
    ("nodes", nodes), ("raws", raws.toJson), ("source", sourceToJson source)]

mutual

def Node.toJson : Node → Json
  | .rule selector nodes raws source =>
    .object [("type", .string "rule"), ("selector", .string selector),
      ("nodes", .array (Node.toJsonAll nodes)), ("raws", raws.toJson),
      ("source", sourceToJson source)]
  | .block name params nodes raws source =>
    atRuleToJson name params (.array (Node.toJsonAll nodes)) raws source
  | .statement name params raws source => atRuleToJson name params .null raws source
  | .decl d => d.toJson
  | .comment c => c.toJson

def Node.toJsonAll : List Node → List Json
  | [] => []
  | node :: nodes => node.toJson :: Node.toJsonAll nodes

end

def Sheet.toJson (s : Sheet) : Json :=
  .object [("nodes", .array (Node.toJsonAll s.nodes)), ("after", .string s.after)]

def Declaration.ofJson? (v : Json) : Option Declaration := do
  let names := ["type", "prop", "value", "important", "raws", "source"]
  guard (isRecord names v)
  let prop ← (← recordField? names "prop" v).text?
  let value ← (← recordField? names "value" v).text?
  let important ← (← recordField? names "important" v).bool?
  let raws ← DeclRaws.ofJson? (← recordField? names "raws" v)
  let source ← optional? SourceRange.ofJson? (recordField? names "source" v)
  return ⟨prop, value, important, raws, source⟩

def Comment.ofJson? (v : Json) : Option Comment := do
  let names := ["type", "text", "raws", "source"]
  guard (isRecord names v)
  let text ← (← recordField? names "text" v).text?
  let raws ← CommentRaws.ofJson? (← recordField? names "raws" v)
  let source ← optional? SourceRange.ofJson? (recordField? names "source" v)
  return ⟨text, raws, source⟩

/-- The declared fields of a rule. -/
def ruleFields : List String := ["type", "selector", "nodes", "raws", "source"]

/-- The declared fields of an at-rule. -/
def atRuleFields : List String := ["type", "name", "params", "nodes", "raws", "source"]

/-- Reads a rule whose children are already read. -/
def ruleOfJson? (v : Json) (nodes : List Node) : Option Node := do
  guard (isRecord ruleFields v)
  let selector ← (← recordField? ruleFields "selector" v).text?
  let raws ← RuleRaws.ofJson? (← recordField? ruleFields "raws" v)
  let source ← optional? SourceRange.ofJson? (recordField? ruleFields "source" v)
  return .rule selector nodes raws source

/-- Reads an at-rule whose children, if it has a block, are already read. -/
def atRuleOfJson? (v : Json) (nodes : Option (List Node)) : Option Node := do
  guard (isRecord atRuleFields v)
  let name ← (← recordField? atRuleFields "name" v).text?
  let params ← (← recordField? atRuleFields "params" v).text?
  let raws ← AtRuleRaws.ofJson? (← recordField? atRuleFields "raws" v)
  let source ← optional? SourceRange.ofJson? (recordField? atRuleFields "source" v)
  match nodes with
  | some nodes => return .block name params nodes raws source
  | none => return .statement name params raws source

/-- The kinds of nodes. -/
inductive NodeKind where
  | rule
  | atRule
  | decl
  | comment
deriving DecidableEq, Repr

namespace NodeKind

/-- The kinds in the order of their numbers. -/
def all : List NodeKind := [rule, atRule, decl, comment]

def name : NodeKind → String
  | rule => "rule"
  | atRule => "atrule"
  | decl => "decl"
  | comment => "comment"

/-- The kind of a node that may stand inside another one. -/
def ofJson? (inside : Bool) : Json → Option NodeKind
  | .string s => all.find? fun kind => kind.name == s
  | .number (.whole n) => if inside ∧ 0 ≤ n then all[n.toNat]? else none
  | _ => none

end NodeKind

mutual

/-- Reads a node, which stands inside another one or not. -/
def Node.ofJson? (inside : Bool) (v : Json) : Option Node :=
  match (recordField? ["type"] "type" v).bind (NodeKind.ofJson? inside) with
  | some .rule =>
    match _h : recordField? ruleFields "nodes" v with
    | some (.array items) => (Node.ofJsonAll? true items).bind (ruleOfJson? v)
    | _ => none
  | some .atRule =>
    match _h : recordField? atRuleFields "nodes" v with
    | some (.array items) =>
      (Node.ofJsonAll? true items).bind fun nodes => atRuleOfJson? v (some nodes)
    | some .null => atRuleOfJson? v none
    | none => atRuleOfJson? v none
    | _ => none
  | some .decl => (Declaration.ofJson? v).map .decl
  | some .comment => (Comment.ofJson? v).map .comment
  | none => none
termination_by sizeOf v
decreasing_by
  all_goals
    have := Json.sizeOf_recordField? _h
    simp only [Json.array.sizeOf_spec] at this
    omega

def Node.ofJsonAll? (inside : Bool) (items : List Json) : Option (List Node) :=
  match items with
  | [] => some []
  | item :: items =>
    match Node.ofJson? inside item, Node.ofJsonAll? inside items with
    | some node, some nodes => some (node :: nodes)
    | _, _ => none
termination_by sizeOf items

end

def Sheet.ofJson? (v : Json) : Option Sheet := do
  let names := ["nodes", "after"]
  guard (isRecord names v)
  let nodes ← Node.ofJsonAll? false (← (← recordField? names "nodes" v).items?)
  let after ← (← recordField? names "after" v).text?
  return ⟨nodes, after⟩

end StyleAudit
