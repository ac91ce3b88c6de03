import StyleAudit.Cache.Store
import StyleAudit.Discovery
import StyleAudit.Ignore.Ignorer
import StyleAudit.Lint.Check

/-!
A linter, and what changes while it works.

The linter itself stays the same during a run. Files, the cache, the memory of configurations and
the notices make up a session, which every step of the run takes and gives back.
-/

namespace StyleAudit

/-- What changes in the course of a run. -/
structure Session where
  files : FileSystem
  cache : Cache
  memo : ConfigMemo
  /-- What the user is told besides the results, in order. -/
  notices : List String

namespace Session

def tell (s : Session) (text : String) : Session :=
  { s with notices := s.notices ++ [text] }

def tellAll (s : Session) (texts : List String) : Session :=
  { s with notices := s.notices ++ texts }

/-- Passes a failure of the cache on as a notice. -/
def tellFailure (s : Session) (what : String) : Except CacheError Unit → Session
  | .ok () => s
  | .error e => s.tell ("Failed to " ++ what ++ " cache: " ++ e.message)

end Session

structure Linter where
  options : Options
  cwd : String
  registry : Registry
  ignorer : Ignorer
  formatter : Formatter
  usesCache : Bool

namespace Linter

/-- Whether a run with these options uses the cache. -/
def wantsCache (o : Options) : Bool :=
  (o.cache <|> o.config.bind fun c => c.cache).getD false

/-- The working directory of a run. -/
def cwdOf (o : Options) (fs : FileSystem) : String :=
  match o.cwd with
  | some dir => Path.absolutize dir fs.homePath
  | none => fs.homePath

/-- The cache of a run: loaded if it is used, else off. -/
def openCache (o : Options) (fs : FileSystem) (cwd : String) : Cache × List String :=
  let cache := Cache.fresh (Cache.locationIn fs cwd o.cacheLocation) o.cacheStrategy
  if wantsCache o then
    match cache.load fs with
    | .ok cache => (cache, [])
    | .error e => (cache, ["Failed to load cache: " ++ e.message])
  else (cache.disable, [])

/-- Makes a linter and the session in which it starts. -/
def make (o : Options) (registry : Registry) (fs : FileSystem) :
    Except LintError (Linter × Session) := do
  let cwd := cwdOf o fs
  let formatter ← Formatter.choose o.formatter
  let ignorer ← Ignorer.make fs cwd o.ignoreFiles o.ignorePatterns
  let (cache, notices) := openCache o fs cwd
  return (⟨o, cwd, registry, ignorer, formatter, wantsCache o⟩,
    ⟨fs, cache, ConfigMemo.empty, notices⟩)

/-- What configurations are worked out with in a session. -/
def configContext (l : Linter) (s : Session) : ConfigContext :=
  ⟨l.registry, s.memo, s.files, l.options, l.cwd⟩

/--
The configuration to begin with: the one among the options, the file that they name, or the one
found by a search from the input. Code under a path without one takes that of the working
directory.
-/
def startingConfig (l : Linter) (path : Option String) (s : Session) :
    Except LintError SourcedConfig × Session :=
  match l.options.config, l.options.configFile with
  | some config, _ => (.ok (SourcedConfig.inline config), s)
  | none, some file =>
    let path := Path.absolutize file l.cwd
    (s.memo.load s.files path, { s with memo := s.memo.remember s.files path })
  | none, none =>
    match s.memo.search s.files (path.getD l.cwd) with
    | (.error e, memo) => (.error e, { s with memo := memo })
    | (.ok (some loaded), memo) => (.ok loaded, { s with memo := memo })
    | (.ok none, memo) =>
      if l.options.code.isSome && path.isSome then
        match memo.search s.files l.cwd with
        | (.error e, memo) => (.error e, { s with memo := memo })
        | (.ok (some loaded), memo) => (.ok loaded, { s with memo := memo })
        | (.ok none, memo) => (.error .configNotFound, { s with memo := memo })
      else (.error .configNotFound, { s with memo := memo })

/-- The configuration in force for an input, or for the working directory without one. -/
def configFor (l : Linter) (path : Option String) (s : Session) :
    Except LintError EffectiveConfig × Session :=
  match l.startingConfig path s with
  | (.error e, s) => (.error e, s)
  | (.ok loaded, s) =>
    let x := l.configContext s
    let (notices, r, t) := x.resolve loaded path
    (r, { s with memo := x.remembered t }.tellAll notices)

end Linter

end StyleAudit
