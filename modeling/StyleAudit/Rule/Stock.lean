import StyleAudit.Json.Printer
import StyleAudit.Rule.Basic
import StyleAudit.Sheet.Walk

/-!
A stock of small rules.

Each is made from a few parameters, so that a registry can hold several variants of one check
under different names.
-/

namespace StyleAudit.Rule

/-- Finds nothing. -/
def noop (info : RuleMeta) : Rule where
  info := info
  check _ sheet := (sheet, Findings.none)

/-- Objects to declarations with a certain value, or gives them another one when fixing. -/
def forbidValue (info : RuleMeta) (value : String) (replacement : Option String) : Rule where
  info := info
  check ctx sheet :=
    match ctx.fix, replacement with
    | true, some new =>
      (sheet.mapDeclarations fun d => if d.value = value then { d with value := new } else d,
        Findings.none)
    | _, _ =>
      let found := sheet.declarations.filter fun d => d.value == value
      (sheet, found.foldl (fun f d => f.report ctx ("Unexpected " ++ value) d.source)
        Findings.none)

/-- Reports every qualified rule without children. -/
def reportEmpty (ctx : RuleContext) (sheet : Sheet) (f : Findings) : Findings :=
  (sheet.walk.filter Node.isEmptyRule).foldl
    (fun f node => f.report ctx "Unexpected empty block" node.source) f

def forbidEmpty (info : RuleMeta) : Rule where
  info := info
  check ctx sheet := (sheet, reportEmpty ctx sheet Findings.none)

/-- As `forbidEmpty`, with a check of its own options first. -/
def strictEmpty (info : RuleMeta) : Rule where
  info := info
  check ctx sheet :=
    let f := match ctx.primary with
      | .bool true => Findings.none
      | primary => Findings.none.invalidOption
          ("Invalid option value \"" ++ primary.compact ++ "\" for rule \"" ++ ctx.name ++ "\"")
    let f := match ctx.secondary.find? "extra" with
      | some extra => f.invalidOption ("Invalid option \"extra\": " ++ extra.compact)
      | none => f
    (sheet, if f.hasInvalidOptions then f else reportEmpty ctx sheet f)

/-- Reports its own settings. -/
def echo (info : RuleMeta) : Rule where
  info := info
  check ctx sheet :=
    let text := ctx.primary.compact ++ " " ++ (Json.object ctx.secondary).compact ++ " " ++
      ctx.severity.name ++ " " ++ (if ctx.fix then "true" else "false") ++ " " ++
      ctx.file.getD "-"
    (sheet, Findings.none.report ctx text none)

/-- Reports every comment. -/
def listComments (info : RuleMeta) : Rule where
  info := info
  check ctx sheet :=
    (sheet, sheet.comments.foldl (fun f c => f.report ctx ("Comment " ++ c.text) c.source)
      Findings.none)

/-- Reports every declaration, the last one first. -/
def listDeclarations (info : RuleMeta) : Rule where
  info := info
  check ctx sheet :=
    (sheet, sheet.declarations.reverse.foldl
      (fun f d => f.report ctx ("Declaration " ++ d.prop) d.source) Findings.none)

/-- Wants a comment at the end, and adds it when fixing. -/
def appendComment (info : RuleMeta) : Rule where
  info := info
  check ctx sheet :=
    if ctx.fix then
      ({ sheet with nodes := sheet.nodes ++ [Node.freshComment "fixed"] }, Findings.none)
    else (sheet, Findings.none.report ctx "Missing comment" none)

/-- Objects to the selectors listed in the primary option. -/
def forbidSelectors (info : RuleMeta) : Rule where
  info := info
  check ctx sheet :=
    let listed := (ctx.primary.items?.getD []).filterMap Json.text?
    let found := sheet.walk.filter fun node =>
      match node.selector? with
      | some selector => listed.contains selector
      | none => false
    (sheet, found.foldl
      (fun f node => f.report ctx ("Unexpected selector " ++ node.label) node.source)
      Findings.none)

/-- A stock rule by the name of its check; the fields give its parameters. -/
def ofName (check : String) (info : RuleMeta) (value : Option String)
    (replacement : Option String) : Rule :=
  match check with
  | "value" => forbidValue info (value.getD "") replacement
  | "empty" => forbidEmpty info
  | "bare" => forbidEmpty {}
  | "strict" => strictEmpty info
  | "echo" => echo info
  | "comments" => listComments info
  | "reverse" => listDeclarations info
  | "append" => appendComment info
  | "selectors" => forbidSelectors info
  | _ => noop info

end StyleAudit.Rule
