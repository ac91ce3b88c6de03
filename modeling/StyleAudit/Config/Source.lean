import StyleAudit.Config.Decode
import StyleAudit.FileSystem

/-!
Configurations in files.

A search goes from a directory upwards and takes the first configuration file that it meets. What
was found is remembered: a search by its directory, and a file that was named by its path. So a
change of a file shows only where nothing was remembered.
-/

namespace StyleAudit

/-- A configuration with the file that it came from, if it did. -/
structure SourcedConfig where
  config : Config
  file : Option String

namespace SourcedConfig

def inline (config : Config) : SourcedConfig := ⟨config, none⟩

/-- The directory that the paths in the configuration are taken from. -/
def dir? (l : SourcedConfig) : Option String := l.file.bind Path.parent?

/-- An error of a configuration tells the file; one of its overrides does not. -/
def inFile (path : String) : LintError → LintError
  | .config e => .config (.inFile path e)
  | e => e

/-- Reads one configuration file. -/
def read (fs : FileSystem) (path : String) : Except LintError SourcedConfig :=
  match fs.readText path with
  | .error fault => .error (.config (.unreadable path fault))
  | .ok text =>
    match Config.ofText text with
    | .error e => .error (inFile path e)
    | .ok config => .ok ⟨config, some path⟩

/-- The names of configuration files, in the order in which a directory is searched for them. -/
def fileNames : List String := [".sheetlintrc", ".sheetlintrc.json", "sheetlint.config.json"]

/-- The configuration file that a search from a directory upwards meets first. -/
def nearestFile? (fs : FileSystem) (dir : String) : Option String :=
  (dir :: Path.parents dir).findSome? fun place =>
    (fileNames.map (Path.join place)).find? fs.isFile

def search (fs : FileSystem) (dir : String) : Except LintError (Option SourcedConfig) :=
  match nearestFile? fs dir with
  | none => .ok none
  | some file => (read fs file).map some

end SourcedConfig

/-- What is remembered of earlier searches and reads. -/
structure ConfigMemo where
  searches : Table (Option SourcedConfig)
  files : Table SourcedConfig

namespace ConfigMemo

def empty : ConfigMemo := ⟨[], []⟩

/-- Spellings of a path with the same components are one. -/
def key (path : String) : String := Path.render (Path.components path)

/-- The directory in which the search for an input begins. -/
def startDir (fs : FileSystem) (path : String) : String :=
  if fs.isDirectory path then path else (Path.parent? path).getD path

/-- The configuration for a path, as remembered or by a search. -/
def search (m : ConfigMemo) (fs : FileSystem) (path : String) :
    Except LintError (Option SourcedConfig) × ConfigMemo :=
  let dir := startDir fs path
  match m.searches.find? (key dir) with
  | some found => (.ok found, m)
  | none =>
    match SourcedConfig.search fs dir with
    | .error e => (.error e, m)
    | .ok found => (.ok found, { m with searches := m.searches.insert (key dir) found })

/-- The configuration in a file, as remembered or as read. -/
def load (m : ConfigMemo) (fs : FileSystem) (path : String) : Except LintError SourcedConfig :=
  match m.files.find? (key path) with
  | some loaded => .ok loaded
  | none => SourcedConfig.read fs path

/-- Remembers a file that could be read. -/
def remember (fs : FileSystem) (m : ConfigMemo) (path : String) : ConfigMemo :=
  match m.files.find? (key path), SourcedConfig.read fs path with
  | none, .ok loaded => { m with files := m.files.insert (key path) loaded }
  | _, _ => m

/-- Remembers files in the order in which they were read. -/
def rememberAll (fs : FileSystem) (m : ConfigMemo) (paths : List String) : ConfigMemo :=
  paths.foldl (remember fs) m

end ConfigMemo

end StyleAudit
