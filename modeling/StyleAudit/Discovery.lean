import StyleAudit.FileSystem
import StyleAudit.Glob.PatternSet

/-!
Finding the inputs of a run.

An entry that names a file stands for that file, one that names a directory for everything below
it, and any other entry is a glob. Entries that begin with `!` take files out again. Only the
directories that the literal heads of the globs lead to are searched.
-/

namespace StyleAudit

/-- What a list of entries comes to. -/
structure Discovery where
  /-- The files found, in order and without repetitions. -/
  files : List String
  /-- The patterns that were matched. -/
  patterns : List String
deriving DecidableEq, Repr

namespace Discovery

/-- The directories that are left out unless the run says otherwise. -/
def excludedDirectory : String := "node_modules"

def defaultExclusion : String := "!**/node_modules/**"

/-- The pattern that an entry stands for. -/
def patternOf (fs : FileSystem) (base entry : String) : String :=
  if entry.toList.head? = some '!' then entry
  else
    let path := Path.absolutize entry base
    if fs.isFile path then Glob.escape (Path.withSlashes entry)
    else if fs.isDirectory path then
      Glob.escape (Glob.trimSlashes (Path.withSlashes entry)) ++ "/**"
    else entry

def parseGlobs : List String → Except LintError (List Glob)
  | [] => .ok []
  | pattern :: patterns =>
    match Glob.parse Glob.strict pattern with
    | .error e => .error (.config (.invalidInput pattern e))
    | .ok glob => (parseGlobs patterns).map (glob :: ·)

/-- Characters that a literal component holds only inside brackets. -/
def isMeta (c : Char) : Bool :=
  Glob.isSpecial c || c == '!'

/-- The text that a component of a glob stands for, if it is literal. -/
def literal? : List Char → Option (List Char)
  | [] => some []
  | '[' :: c :: ']' :: rest => if isMeta c then (literal? rest).map (c :: ·) else none
  | c :: rest => if isMeta c || c == '\\' then none else (literal? rest).map (c :: ·)

/-- The literal components at the head of a glob; its last component is not among them. -/
def literalHead : List (List Char) → List (List Char)
  | [] => []
  | [_] => []
  | s :: rest =>
    match literal? s with
    | some text => text :: literalHead rest
    | none => []

/-- The directory that the literal head of a glob leads to; its components are joined one by one. -/
def searchRoot (pattern : String) : String :=
  match literalHead (Path.segments pattern.toList) with
  | [] :: parts => (parts.map String.ofList).foldl Path.join "/"
  | parts => (parts.map String.ofList).foldl Path.join ""

/-- Puts a path in its place in a sorted row, unless one with the same components is there. -/
def insertPath (p : String) : List String → List String
  | [] => [p]
  | q :: row =>
    if Path.components q = Path.components p then q :: row
    else if Path.le p q then p :: q :: row
    else q :: insertPath p row

/-- Sorts paths and keeps the first of those with the same components. -/
def sortPaths (paths : List String) : List String :=
  paths.foldl (fun row p => insertPath p row) []

/-- The directories to search: none of them lies below another. -/
def searchRoots (patterns : List String) : List String :=
  let roots := sortPaths (patterns.map searchRoot)
  roots.filter fun root => !roots.any fun other =>
    Path.components other != Path.components root && Path.startsWith root other

/-- The files at or below a directory, without those in excluded directories. -/
def filesUnder (fs : FileSystem) (skipExcluded : Bool) (root : String) : List String :=
  match fs.locate root with
  | .error _ => []
  | .ok names =>
    let found := (fs.filesBelow names).filter fun n =>
      !(skipExcluded && (n.drop names.length).dropLast.contains excludedDirectory)
    found.map fun n => "/" ++ String.intercalate "/" n

/-- Whether a file is picked by a glob of the first list and by none of the second. -/
def selects (includes excludes : List Glob) (path : String) : Bool :=
  includes.any (·.picks (Path.withSlashes path)) &&
    !excludes.any (·.picks (Path.withSlashes path))

/-- Finds the files that some wanted pattern matches and no unwanted one does. -/
def discover (fs : FileSystem) (skipExcluded : Bool) (wanted unwanted : List String) :
    Except LintError (List String) := do
  let includes ← parseGlobs wanted
  let excludes ← parseGlobs unwanted
  let candidates := (searchRoots wanted).flatMap (filesUnder fs skipExcluded)
  return sortPaths (candidates.filter (selects includes excludes))

/-- The patterns that a list of entries stands for. -/
def patternsOf (fs : FileSystem) (base : String) (keepExcluded : Bool) (entries : List String) :
    List String :=
  entries.map (patternOf fs base) ++ if keepExcluded then [] else [defaultExclusion]

/-- The absolute globs of the patterns that are negated, or of those that are not. -/
def globsOf (negated : Bool) (base : String) (patterns : List String) : List String :=
  let globs := patterns.map fun p => splitNegation (Glob.absolutize p base)
  (globs.filter fun g => g.1 == negated).map Prod.snd

/-- Finds the files of a list of entries that are taken from a directory. -/
def run (fs : FileSystem) (entries : List String) (base : String)
    (keepExcluded : Bool) : Except LintError Discovery := do
  let patterns := patternsOf fs base keepExcluded entries
  let wanted := globsOf false base patterns
  let files ← discover fs (!keepExcluded) wanted (globsOf true base patterns)
  return ⟨files, patterns⟩

end Discovery

end StyleAudit
