import StyleAudit.Lint.Source

/-!
Linting all inputs of a run.

Each path goes through three stages: it is prepared, examined, and finished. Finishing writes a
fixed text back and forgets the path in the cache if something went wrong. The results come in the
order of the paths.
-/

namespace StyleAudit

/-- Writes a fixed text in the place of a file, if it differs from the text that was linted. -/
def replaceText (fs : FileSystem) (path linted fixed : String) :
    Except LintError (Bool × FileSystem) :=
  if linted = fixed then .ok (false, fs)
  else
    match fs.replace path (.text fixed) with
    | .error fault => .error (.unwritable path fault)
    | .ok fs => .ok (true, fs)

/-- How far one path of a run has come. -/
inductive PathStage where
  | waiting
  | prepared (p : Except LintError PreparedInput)
  | examined (o : Except LintError InputOutcome)
  | done (r : Except LintError LintResult)

namespace Linter

/-- The result that stands for an error of an input. An error that is fatal ends the run. -/
def resultOfError (source : Option String) (e : LintError) (s : Session) :
    Except LintError LintResult × Session :=
  match e with
  | .malformed error => (.ok (LintResult.ofSyntaxError source error), s)
  | e =>
    if e.isFatal then (.error e, s)
    else
      (.ok (LintResult.ofError source e),
        s.tell ("Failed to lint " ++ source.getD unnamedSource ++ ": " ++ e.message))

/-- Writes back what was fixed in a file. -/
def writeBack (path : String) (o : InputOutcome) (s : Session) :
    Except LintError LintResult × Session :=
  match o.result.ignored, o.output, o.linted with
  | false, some output, some linted =>
    match replaceText s.files path linted output with
    | .error e => (.error e, s)
    | .ok (_, fs) => (.ok o.result, { s with files := fs })
  | _, _, _ => (.ok o.result, s)

/-- Forgets a path that failed. -/
def fail (path : String) (e : LintError) (s : Session) :
    Except LintError LintResult × Session :=
  resultOfError (some path) e { s with cache := s.cache.evict path }

/-- The last step for a path: writes back, or forgets it if something went wrong. -/
def finish (path : String) (o : Except LintError InputOutcome) (s : Session) :
    Except LintError LintResult × Session :=
  match o with
  | .error e => fail path e s
  | .ok o =>
    match writeBack path o s with
    | (.error e, s) => fail path e s
    | (.ok r, s) => (.ok r, s)

/-- Takes one path of a run to its next stage. -/
def advance (l : Linter) (path : String) (stage : PathStage) (s : Session) :
    PathStage × Session :=
  let input := LintInput.ofFile path l.usesCache
  match stage with
  | .waiting =>
    let (p, s) := l.prepare input s
    (.prepared p, s)
  | .prepared (.error e) => (.examined (.error e), s)
  | .prepared (.ok p) =>
    let (o, s) := l.examine input p s
    (.examined o, s)
  | .examined o =>
    let (r, s) := finish path o s
    (.done r, s)
  | .done r => (.done r, s)

/-- Lints one path of a run: all its stages one after the other. -/
def lintFile (l : Linter) (path : String) (s : Session) :
    Except LintError LintResult × Session :=
  match l.lintInput (LintInput.ofFile path l.usesCache) s with
  | (o, s) => finish path o s

/-- Three steps take a path from the start to its result. -/
theorem advance_advance_advance (l : Linter) (path : String) (s : Session) :
    let first := l.advance path .waiting s
    let second := l.advance path first.1 first.2
    l.advance path second.1 second.2 =
      (.done (l.lintFile path s).1, (l.lintFile path s).2) := by
  rcases h : l.prepare (LintInput.ofFile path l.usesCache) s with ⟨p, s'⟩
  cases p <;> simp [advance, lintFile, lintInput, h]

/-- Lints paths one after the other; all of them, whatever comes of each. -/
def lintEach (l : Linter) : List String → Session →
    List (Except LintError LintResult) × Session
  | [], s => ([], s)
  | path :: paths, s =>
    let (r, s) := l.lintFile path s
    let (rs, s) := lintEach l paths s
    (r :: rs, s)

/-- Linting a row of paths is linting its parts one after the other. -/
theorem lintEach_append (l : Linter) (xs ys : List String) (s : Session) :
    l.lintEach (xs ++ ys) s =
      let first := l.lintEach xs s
      let second := l.lintEach ys first.2
      (first.1 ++ second.1, second.2) := by
  induction xs generalizing s with
  | nil => rfl
  | cons path paths ih => simp [lintEach, ih]

theorem length_lintEach (l : Linter) (paths : List String) (s : Session) :
    (l.lintEach paths s).1.length = paths.length := by
  induction paths generalizing s with
  | nil => rfl
  | cons path paths ih => simp [lintEach, ih]

/-- The results of all paths, or the first error in their order. -/
def collect : List (Except LintError LintResult) → Except LintError (List LintResult)
  | [] => .ok []
  | .error e :: _ => .error e
  | .ok r :: rs => (collect rs).map (r :: ·)

def lintAll (l : Linter) (paths : List String) (s : Session) :
    Except LintError (List LintResult) × Session :=
  let (rs, s) := l.lintEach paths s
  (collect rs, s)

def aggregate (l : Linter) (results : List LintResult) : Aggregate :=
  Aggregate.ofResults results l.options.maxWarnings l.formatter l.cwd

/-- Whether the options ask for fixes. -/
def wantsFix (l : Linter) : Bool :=
  (l.options.fix <|> l.options.config.bind fun c => c.fix).getD false

/-- The code that a run gives back: the output, or the code itself if fixes were asked for. -/
def codeAfter (l : Linter) (code : String) (o : InputOutcome) : Option String :=
  if o.result.ignored then none
  else o.output <|> (if l.wantsFix then some code else none)

/-- Lints code. -/
def lintText (l : Linter) (code : String) (s : Session) : Except LintError Aggregate × Session :=
  let path := l.options.codeFilename.map fun p => Path.absolutize p l.cwd
  let input : LintInput := { path := path, code := some code }
  if l.leavesOut input then (.ok (l.aggregate []), s)
  else
    match l.lintInput input s with
    | (.ok o, s) => (.ok { l.aggregate [o.result] with code := l.codeAfter code o }, s)
    | (.error e, s) =>
      match resultOfError path e s with
      | (.error e, s) => (.error e, s)
      | (.ok r, s) => (.ok (l.aggregate [r]), s)

/-- Whether a run may find nothing to lint: as the options or the configuration say. -/
def allowsEmptyInput (l : Linter) (s : Session) : Except LintError Bool × Session :=
  match l.options.allowEmptyInput <|> l.options.config.bind fun c => c.allowEmptyInput with
  | some allowed => (.ok allowed, s)
  | none =>
    match l.startingConfig none s with
    | (.error .configNotFound, s) => (.ok false, s)
    | (.error e, s) => (.error e, s)
    | (.ok loaded, s) =>
      let x := l.configContext s
      let (c, t) := x.augment loaded none
      let s := { s with memo := x.remembered t }
      match c with
      | .error e => (.error e, s)
      | .ok c => (.ok (c.allowEmptyInput.getD false), s)

/-- The results of a run for which there is nothing to lint, or why it fails. -/
def lintNothing (l : Linter) (found : Discovery) (s : Session) :
    Except LintError (List LintResult) × Session :=
  match l.allowsEmptyInput s with
  | (.error e, s) => (.error e, s)
  | (.ok true, s) => (.ok [], s)
  | (.ok false, s) =>
    (.error (if found.files.isEmpty then .noFilesFound found.patterns else .allFilesIgnored), s)

/-- Removes the cache of earlier runs when the cache is not used. -/
def discardCache (l : Linter) (s : Session) : Session :=
  if l.usesCache then s
  else
    let (cache, fs, r) := s.cache.destroy s.files
    { s with cache := cache, files := fs }.tellFailure "delete" r

/-- Saves the cache at the end of a run, if it is used. -/
def saveCache (l : Linter) (s : Session) : Session :=
  if l.usesCache then
    let (cache, fs, r) := s.cache.reconcile s.files
    { s with cache := cache, files := fs }.tellFailure "save" r
  else s

/-- The directory that globs are taken from. -/
def globDir (l : Linter) : String :=
  match l.options.globCwd with
  | some dir => Path.absolutize dir l.cwd
  | none => l.cwd

/-- Ends a run of files with their results, or with what rejects it. -/
def close (l : Linter) : Except LintError (List LintResult) × Session →
    Except LintError Aggregate × Session
  | (.error e, s) => (.error e, s)
  | (.ok results, s) => (.ok (l.aggregate results), l.saveCache s)

/-- Lints the files of a list of entries. -/
def lintEntries (l : Linter) (entries : List String) (s : Session) :
    Except LintError Aggregate × Session :=
  let s := l.discardCache s
  match Discovery.run s.files entries l.globDir l.options.keepExcluded with
  | .error e => (.error e, s)
  | .ok found =>
    let paths := found.files.filter fun path => !l.ignorer.ignoresUnder path l.globDir
    l.close (if paths.isEmpty then l.lintNothing found s else l.lintAll paths s)

/-- Lets time pass, then lints what the options name: files or code, and not both. -/
def lint (l : Linter) (s : Session) : Except LintError Aggregate × Session :=
  let s := { s with files := s.files.tick }
  match l.options.files, l.options.code with
  | some files, none => l.lintEntries files s
  | none, some code => l.lintText code s
  | _, _ => (.error .noInput, s)

end Linter

end StyleAudit
