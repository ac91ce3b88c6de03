import StyleAudit.FileSystem
import StyleAudit.Ignore.Pattern

/-!
The inputs that a run leaves out.

Patterns come from ignore files and from the options of the run, in this order. They apply to
paths from the working directory or from another base; what lies outside is never left out.
-/

namespace StyleAudit

structure Ignorer where
  cwd : String
  patterns : List IgnorePattern

namespace Ignorer

/-- The ignore file that is read from the working directory when no other is named. -/
def defaultFile : String := ".sheetlintignore"

/-- Reads the lines of an ignore file from line `n` on; a line that is no text ends it. -/
def readLines : Nat → List (Option String) → List IgnorePattern × List (Nat × IgnoreLineFault)
  | _, [] => ([], [])
  | n, none :: _ => ([], [(n, .notText)])
  | n, some line :: lines =>
    let (patterns, faults) := readLines (n + 1) lines
    match IgnorePattern.parse line with
    | .ok (some p) => (p :: patterns, faults)
    | .ok none => (patterns, faults)
    | .error e => (patterns, (n, .glob e) :: faults)

def byteOrderMark : Char := '\ufeff'

/-- The lines of a file without the byte order marks at its head. -/
def dropMarks : List (Option String) → List (Option String)
  | some line :: lines =>
    some (String.ofList (line.toList.dropWhile (· == byteOrderMark))) :: lines
  | lines => lines

/-- The patterns of an ignore file. -/
def readFile (fs : FileSystem) (path : String) : Except ConfigError (List IgnorePattern) :=
  match fs.read path with
  | .error fault => .error (.unreadableIgnoreFile path fault)
  | .ok content =>
    match readLines 1 (dropMarks content.lines) with
    | (patterns, []) => .ok patterns
    | (_, faults) => .error (.badIgnoreFile path faults)

/-- The patterns of ignore files that are named, all of which have to be there. -/
def readFiles (fs : FileSystem) (cwd : String) :
    List String → Except LintError (List IgnorePattern)
  | [] => .ok []
  | name :: names =>
    let path := Path.absolutize name cwd
    if fs.isFile path then
      match readFile fs path with
      | .error e => .error (.config e)
      | .ok patterns => (readFiles fs cwd names).map (patterns ++ ·)
    else .error (.missingIgnoreFile path)

/-- The patterns of the default ignore file, if it is there. -/
def readDefault (fs : FileSystem) (cwd : String) : Except LintError (List IgnorePattern) :=
  let path := Path.join cwd defaultFile
  if fs.isFile path then
    match readFile fs path with
    | .error e => .error (.config e)
    | .ok patterns => .ok patterns
  else .ok []

/-- The patterns given one by one. -/
def readPatterns : List String → Except LintError (List IgnorePattern)
  | [] => .ok []
  | line :: lines =>
    match IgnorePattern.parse line with
    | .error e => .error (.config (.invalidIgnorePattern e))
    | .ok p => (readPatterns lines).map (p.toList ++ ·)

/-- The ignorer of a run. -/
def make (fs : FileSystem) (cwd : String) (files patterns : List String) :
    Except LintError Ignorer := do
  let fromFiles ← if files.isEmpty then readDefault fs cwd else readFiles fs cwd files
  let own ← readPatterns patterns
  return ⟨cwd, fromFiles ++ own⟩

/-- Whether a path is left out when the patterns are taken from `base`. -/
def ignoresUnder (i : Ignorer) (path base : String) : Bool :=
  match Path.stripPrefix? path base with
  | none => false
  | some relative => relative != "" && isIgnored i.patterns relative

/-- Whether a path is left out. -/
def ignores (i : Ignorer) (path : String) : Bool :=
  i.ignoresUnder path i.cwd

end Ignorer

end StyleAudit
