import StyleAudit.Config.Basic
import StyleAudit.Path
import StyleAudit.Sheet.Reader
import StyleAudit.Text.Blank

/-!
Everything that a configuration can refer to by name: rules, plugins, shared configurations and
parsers.
-/

namespace StyleAudit

/-- A parser of stylesheets. Unless it says otherwise it takes the files with its extensions, in
whatever case they are written, and writes sheets as they are. -/
structure Parser where
  name : String
  extensions : List String
  /-- Reads a source that comes from a file, if it does. -/
  parse : Option String → String → Except ParseError Sheet
  /-- Writes a sheet, which rules may have edited. -/
  print : Sheet → String := Sheet.render
  /-- Whether it takes files with an extension. -/
  takes : String → Bool := fun extension =>
    extensions.any fun e => Text.eqIgnoreCase e.toList extension.toList

namespace Parser

/-- Reads sources as CSS. -/
def parseCss (file : Option String) (source : String) : Except ParseError Sheet :=
  match Sheet.parse file source with
  | .ok sheet => .ok sheet
  | .error e => .error (.malformed e)

def css : Parser where
  name := "css"
  extensions := ["css"]
  parse := parseCss

/-- A parser for other extensions that reads CSS, or does one of a few fixed things. -/
def ofMode (mode name : String) (extensions : List String) : Parser where
  name := name
  extensions := extensions
  parse := match mode with
    | "blank" => fun _ _ => .ok Sheet.empty
    | "unsupported" => fun _ _ => .error (.unsupported name)
    | "internal" => fun _ _ => .error (.internal name)
    | _ => parseCss

end Parser

structure Registry where
  rules : Table Rule
  plugins : Table Plugin
  configs : Table Config
  /-- The parsers in increasing order of their names. -/
  parsers : Table Parser

namespace Registry

/-- The name of the parser that is used when nothing else is asked for. -/
def defaultSyntax : String := "css"

def empty : Registry := ⟨[], [], [], [(defaultSyntax, Parser.css)]⟩

def addRule (r : Registry) (name : String) (rule : Rule) : Registry :=
  { r with rules := r.rules.insert name rule }

def addPlugin (r : Registry) (specifier : String) (plugin : Plugin) : Registry :=
  { r with plugins := r.plugins.insert specifier plugin }

def addConfig (r : Registry) (name : String) (config : Config) : Registry :=
  { r with configs := r.configs.insert name config }

def addParser (r : Registry) (name : String) (parser : Parser) : Registry :=
  { r with parsers := r.parsers.insertSorted name parser }

/-- The first parser that takes the extension of a path. -/
def parserByExtension? (r : Registry) (path : String) : Option Parser := do
  let extension ← Path.extension? path
  r.parsers.findSome? fun (_, parser) => if parser.takes extension then some parser else none

/-- The parser for an input: the one asked for by name, else by extension, else the default. -/
def chooseParser (r : Registry) (syntaxName : Option String) (path : Option String) :
    Except LintError Parser :=
  match syntaxName with
  | some name =>
    match r.parsers.find? name with
    | some parser => .ok parser
    | none => .error (.config (.unknownParser name))
  | none =>
    match path.bind r.parserByExtension? <|> r.parsers.find? defaultSyntax with
    | some parser => .ok parser
    | none => .error (.internal "No default parser registered")

end Registry

end StyleAudit
