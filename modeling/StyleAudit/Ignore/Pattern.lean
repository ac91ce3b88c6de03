import StyleAudit.Glob.Match
import StyleAudit.Path
import StyleAudit.Text.Blank

/-!
Patterns of ignore files.

A pattern without `/` applies at any depth; others are taken from the directory of the ignore
file. A pattern that ends in `/` is about directories, and one that begins with `!` takes back
what earlier patterns ignored. Of several patterns that match, the last one decides.
-/

namespace StyleAudit

structure IgnorePattern where
  glob : Glob
  /-- Whether the pattern takes paths back. -/
  restores : Bool
  directoryOnly : Bool

namespace IgnorePattern

/-- A line without the blanks at its end; a blank behind a backslash stays. -/
def trimLine (line : List Char) : List Char :=
  if ['\\', ' '].isSuffixOf line then line else Text.trimRight line

/-- What the marks at the ends of a line say, and the line without them. -/
structure Marks where
  restores : Bool
  anchored : Bool
  directoryOnly : Bool
  body : List Char

/-- Takes the marks off the head of a line: `!`, and `/` for an anchored pattern. -/
def headMarks (line : List Char) : Marks :=
  match line with
  | '\\' :: '!' :: rest => ⟨false, false, false, '!' :: rest⟩
  | '\\' :: '#' :: rest => ⟨false, false, false, '#' :: rest⟩
  | line =>
    let (restores, line) := match line with
      | '!' :: rest => (true, rest)
      | line => (false, line)
    match line with
    | '/' :: rest => ⟨restores, true, false, rest⟩
    | line => ⟨restores, false, false, line⟩

/-- Takes the mark off the end of a line: `/`, or `/` behind a backslash. -/
def tailMark (m : Marks) : Marks :=
  match m.body.reverse with
  | '/' :: '\\' :: rest => { m with directoryOnly := true, body := rest.reverse }
  | '/' :: rest => { m with directoryOnly := true, body := rest.reverse }
  | _ => m

def anyDepth : List Char := "**/".toList

/-- Lets a pattern without `/` apply at any depth. -/
def spread (m : Marks) : List Char :=
  if m.anchored || m.body.contains '/' || m.body == ['*', '*'] then m.body
  else anyDepth ++ m.body

/-- A pattern for everything below a directory does not match the directory itself. -/
def belowOnly (glob : List Char) : List Char :=
  if "/**".toList.isSuffixOf glob then glob ++ ['/', '*'] else glob

/-- Reads a line; a comment or an empty line holds no pattern. -/
def parse (line : String) : Except GlobError (Option IgnorePattern) :=
  if line.toList.head? = some '#' then .ok none
  else
    let trimmed := trimLine line.toList
    if trimmed.isEmpty then .ok none
    else
      let m := tailMark (headMarks trimmed)
      match Glob.parse Glob.loose (String.ofList (belowOnly (spread m))) with
      | .ok glob => .ok (some ⟨glob, m.restores, m.directoryOnly⟩)
      | .error e => .error ⟨String.ofList trimmed, e.fault⟩

def matchesPath (p : IgnorePattern) (path : String) (isDirectory : Bool) : Bool :=
  (isDirectory || !p.directoryOnly) && p.glob.picks path

end IgnorePattern

/-- What a list of patterns says about a path itself: the last pattern that matches decides. -/
def ignoreVerdict (patterns : List IgnorePattern) (path : String) (isDirectory : Bool) :
    Option Bool :=
  (patterns.reverse.find? fun p => p.matchesPath path isDirectory).map fun p => !p.restores

/-- The first verdict on a row of directories. -/
def ignoreVerdictAbove (patterns : List IgnorePattern) : List String → Option Bool
  | [] => none
  | dir :: dirs => ignoreVerdict patterns dir true <|> ignoreVerdictAbove patterns dirs

/-- Whether a file is ignored, by itself or with a directory that holds it. -/
def isIgnored (patterns : List IgnorePattern) (path : String) : Bool :=
  (ignoreVerdict patterns path false <|> ignoreVerdictAbove patterns (Path.parents path)).getD false

end StyleAudit
