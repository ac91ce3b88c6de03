import StyleAudit.Lint.Linter

/-!
Linting one input.

The work goes in two steps. The first finds the configuration and the text, the second looks at
the cache, checks the sheet and brings the cache up to date.
-/

namespace StyleAudit

/-- One input: a file, a text or a sheet. -/
structure LintInput where
  /-- The path of the input, or the one under which a text is linted. -/
  path : Option String := none
  code : Option String := none
  /-- A sheet that has been read already. -/
  sheet : Option Sheet := none
  /-- Whether the cache is looked at; only files are cached. -/
  cache : Bool := false

namespace LintInput

def ofFile (path : String) (cache : Bool) : LintInput :=
  { path := some path, cache := cache }

/-- The path under which the input is cached, if it is. -/
def cachePath? (i : LintInput) : Option String :=
  if i.cache && i.code.isNone && i.sheet.isNone then i.path else none

end LintInput

/-- What came of one input. -/
structure InputOutcome where
  result : LintResult
  /-- The text to write back. -/
  output : Option String
  /-- The text that was linted. -/
  linted : Option String
  sheet : Option Sheet

def InputOutcome.skipped (result : LintResult) (sheet : Option Sheet) : InputOutcome :=
  ⟨result, none, none, sheet⟩

/-- An input after the first step. -/
inductive PreparedInput where
  /-- Nothing is left to do. -/
  | skipped (outcome : InputOutcome)
  /-- To be checked under a configuration; a sheet may come without a text. -/
  | ready (config : EffectiveConfig) (text : Option String)

namespace Linter

/-- Whether the configuration leaves a path out. -/
def ignoredByConfig (r : EffectiveConfig) (path : String) : Except LintError Bool :=
  match r.config.ignoreFiles with
  | none => .ok false
  | some globs =>
    match PatternSet.parse false globs with
    | .error e => .error (.config (.invalidGlob e))
    | .ok patterns => .ok (patterns.isMatch (Path.withSlashes path))

/-- The text of an input. A sheet that was read already needs none. -/
def textOf (fs : FileSystem) (i : LintInput) : Except LintError (Option String) :=
  match i.code, i.sheet, i.path with
  | some code, _, _ => .ok (some code)
  | none, none, some path =>
    match fs.readText path with
    | .ok text => .ok (some text)
    | .error fault => .error (.unreadable path fault)
  | none, _, _ => .ok none

/-- What is wrong with an input before anything is looked up. -/
def inputFault? (i : LintInput) : Option LintError :=
  match i.path with
  | none => if i.code.isNone && i.sheet.isNone then some .missingSource else none
  | some path =>
    if Path.isAbsolute path then none
    else some (.relativePath (if i.code.isSome then .codeFilename else .filePath))

/-- Whether the patterns of the run leave an input out. -/
def leavesOut (l : Linter) (i : LintInput) : Bool :=
  match i.path with
  | some path => l.ignorer.ignores path
  | none => false

/-- Finds the text of an input that has a configuration, unless that leaves it out. -/
def fetch (fs : FileSystem) (i : LintInput) (r : EffectiveConfig) :
    Except LintError PreparedInput := do
  let ignored ← match i.path with
    | some path => ignoredByConfig r path
    | none => .ok false
  if ignored then return .skipped (.skipped (LintResult.skipped i.path) i.sheet)
  else return .ready r (← textOf fs i)

/-- The first step: finds the configuration and the text of an input. -/
def prepare (l : Linter) (i : LintInput) (s : Session) :
    Except LintError PreparedInput × Session :=
  match inputFault? i with
  | some e => (.error e, s)
  | none =>
    if l.leavesOut i then (.ok (.skipped (.skipped (LintResult.skipped i.path) i.sheet)), s)
    else
      match l.configFor i.path s with
      | (.error e, s) => (.error e, s)
      | (.ok r, s) => (fetch s.files i r, s)

/-- The sheet to check and the text that it comes from. -/
def sheetOf (parser : Parser) (i : LintInput) (text : Option String) :
    Except LintError (Sheet × String) :=
  match i.sheet, text with
  | some sheet, text => .ok (sheet, text.getD (parser.print sheet))
  | none, some text =>
    match parser.parse i.path text with
    | .ok sheet => .ok (sheet, text)
    | .error e => .error (.ofParseError e)
  | none, none => .error .missingSource

/-- Reads and checks an input under a configuration. -/
def checkInput (registry : Registry) (i : LintInput) (r : EffectiveConfig)
    (text : Option String) : Except LintError InputOutcome := do
  let parser ← registry.chooseParser r.config.customSyntax i.path
  let (sheet, linted) ← sheetOf parser i text
  let checked := CheckedSheet.make r registry parser.print i.path sheet
  return ⟨checked.result, checked.output, some linted, some checked.sheet⟩

/-- Records a clean input and forgets any other. -/
def updateCache (c : Cache) (path : String) (entry : CacheEntry) (result : LintResult) : Cache :=
  if result.warnings.isEmpty && !result.errored then c.record path entry else c.evict path

/-- What the cache is asked for an input, if it is cached. -/
def cacheQuery (s : Session) (i : LintInput) (r : EffectiveConfig) (text : Option String) :
    Except LintError (Option (String × CacheEntry)) :=
  match i.cachePath?, text with
  | some path, some text =>
    match s.cache.fingerprintOf s.files path text with
    | .error e => .error (.cache e)
    | .ok f => .ok (some (path, ⟨f, r.hash⟩))
  | _, _ => .ok none

/-- Checks an input that is cached under a path, unless it is known to be clean. -/
def examineCached (l : Linter) (i : LintInput) (r : EffectiveConfig) (text : Option String)
    (path : String) (entry : CacheEntry) (s : Session) :
    Except LintError InputOutcome × Session :=
  let (clean, cache) := s.cache.check path entry
  let s := { s with cache := cache }
  if clean then (.ok (.skipped (LintResult.cached i.path) none), s)
  else
    match checkInput l.registry i r text with
    | .error e => (.error e, s)
    | .ok outcome =>
      (.ok outcome, { s with cache := updateCache s.cache path entry outcome.result })

/-- The second step: looks at the cache, checks the sheet and brings the cache up to date. -/
def examine (l : Linter) (i : LintInput) (p : PreparedInput) (s : Session) :
    Except LintError InputOutcome × Session :=
  match p with
  | .skipped outcome => (.ok outcome, s)
  | .ready r text =>
    match cacheQuery s i r text with
    | .error e => (.error e, s)
    | .ok none => (checkInput l.registry i r text, s)
    | .ok (some (path, entry)) => l.examineCached i r text path entry s

/-- Lints one input. -/
def lintInput (l : Linter) (i : LintInput) (s : Session) :
    Except LintError InputOutcome × Session :=
  match l.prepare i s with
  | (.error e, s) => (.error e, s)
  | (.ok p, s) => l.examine i p s

end Linter

end StyleAudit
