import StyleAudit.Sheet.Fault

/-!
Everything that can go wrong outside a stylesheet, by its cause, and how each cause is worded.
-/

namespace StyleAudit

/-- Why an operation on the file system failed. -/
inductive FileFault where
  | missing
  | isDirectory
  | notDirectory
  | alreadyExists
  /-- What is to be replaced is a directory by its position, such as `..`. -/
  | busy
  | nameTooLong
  /-- The directory takes nothing new and lets nothing go. -/
  | denied
  /-- A path with a zero byte, which no file can have. -/
  | zeroByte
  /-- A path that the system refuses as such. -/
  | invalidPath
  | notText
  /-- A failure that is known only by its text. -/
  | other (text : String)
deriving DecidableEq, Repr

def FileFault.message : FileFault → String
  | .missing => "No such file or directory (os error 2)"
  | .isDirectory => "Is a directory (os error 21)"
  | .notDirectory => "Not a directory (os error 20)"
  | .alreadyExists => "File exists (os error 17)"
  | .busy => "Device or resource busy (os error 16)"
  | .nameTooLong => "File name too long (os error 36)"
  | .denied => "Permission denied (os error 13)"
  | .zeroByte => "file name contained an unexpected NUL byte"
  | .invalidPath => "Invalid argument (os error 22)"
  | .notText => "stream did not contain valid UTF-8"
  | .other text => text

/-- Why a plugin is of no use. -/
inductive PluginError where
  | missingRuleName (plugin : String)
  | missingNamespace (rule : String)
  | notFound (specifier : String)
  | invalidSeverity (text : String)
deriving DecidableEq, Repr

def PluginError.message : PluginError → String
  | .missingRuleName plugin =>
    "sheetlint requires plugins to expose a ruleName. The plugin \"" ++ plugin ++
      "\" is not doing this, so will not work with sheetlint. Please file an issue with the " ++
      "plugin."
  | .missingNamespace rule =>
    "sheetlint requires plugin rules to be namespaced, i.e. only " ++
      "`plugin-namespace/plugin-rule-name` plugin rule names are supported. The plugin rule \"" ++
      rule ++ "\" does not do this, so will not work. Please file an issue with the plugin."
  | .notFound specifier => "Could not find plugin \"" ++ specifier ++ "\""
  | .invalidSeverity text => "Unknown severity \"" ++ text ++ "\""

/-- Why the cache could not be used. -/
inductive CacheError where
  | unreadable (text : String)
  | corrupted
  /-- Corrupt contents with a reason. -/
  | corruptedBy (text : String)
  | storage (text : String)
  | invalidStrategy (name : String)
  | file (fault : FileFault)
deriving DecidableEq, Repr

def CacheError.message : CacheError → String
  | .unreadable text => "Failed to read cache: " ++ text
  | .corrupted => "Corrupted cache"
  | .corruptedBy text => "Corrupted cache: " ++ text
  | .storage text => "Serialization error: " ++ text
  | .invalidStrategy name =>
    "Invalid cache strategy \"" ++ name ++ "\". Valid strategies are \"content\" and \"metadata\""
  | .file fault => "I/O error: " ++ fault.message

/-- Why a glob is malformed. -/
inductive GlobFault where
  | unclosedClass
  | invalidRange (first last : Char)
  | unopenedGroup
  | unclosedGroup
  | danglingEscape
deriving DecidableEq, Repr

def GlobFault.message : GlobFault → String
  | .unclosedClass => "unclosed character class; missing ']'"
  | .invalidRange first last =>
    "invalid range; '" ++ String.singleton first ++ "' > '" ++ String.singleton last ++ "'"
  | .unopenedGroup =>
    "unopened alternate group; missing '\x7b' (maybe escape '\x7d' with '[\x7d]'?)"
  | .unclosedGroup =>
    "unclosed alternate group; missing '\x7d' (maybe escape '\x7b' with '[\x7b]'?)"
  | .danglingEscape => "dangling '\\'"

/-- A malformed glob and what is wrong with it. -/
structure GlobError where
  glob : String
  fault : GlobFault
deriving DecidableEq, Repr

def GlobError.message (e : GlobError) : String :=
  "error parsing glob '" ++ e.glob ++ "': " ++ e.fault.message

/-- A line of an ignore file that could not be taken. -/
inductive IgnoreLineFault where
  | glob (error : GlobError)
  | notText
deriving DecidableEq, Repr

def IgnoreLineFault.message : IgnoreLineFault → String
  | .glob error => error.message
  | .notText => FileFault.notText.message

/-- Why a configuration is of no use. -/
inductive ConfigError where
  /-- The text is no JSON. -/
  | notJson
  /-- The JSON is no configuration. -/
  | malformed
  | unreadable (path : String) (fault : FileFault)
  /-- An error inside a configuration file. -/
  | inFile (path : String) (cause : ConfigError)
  | circularExtends (chain : List String)
  | extendsTooDeep (limit : Nat) (lookup : String)
  | unknownExtends (lookup : String)
  | noRules
  | unknownParser (name : String)
  | invalidGlob (error : GlobError)
  | invalidInput (pattern : String) (error : GlobError)
  | invalidIgnorePattern (error : GlobError)
  | badIgnoreFile (path : String) (lines : List (Nat × IgnoreLineFault))
  | unreadableIgnoreFile (path : String) (fault : FileFault)
  /-- An error that is known only by its text. -/
  | other (text : String)
deriving DecidableEq, Repr

def ConfigError.message : ConfigError → String
  | .notJson => "Failed to parse config"
  | .malformed => "Invalid configuration"
  | .unreadable path fault => "Failed to read config " ++ path ++ ": " ++ fault.message
  | .inFile path cause => path ++ ": " ++ cause.message
  | .circularExtends chain => "Circular extends detected: " ++ String.intercalate " -> " chain
  | .extendsTooDeep limit lookup =>
    "Extends chain exceeds maximum depth of " ++ toString limit ++ " at \"" ++ lookup ++ "\""
  | .unknownExtends lookup =>
    "Could not find \"" ++ lookup ++ "\". Do you need the `configBasedir`?"
  | .noRules => "No rules found within configuration. Have you provided a \"rules\" property?"
  | .unknownParser name =>
    "Cannot resolve custom syntax module \"" ++ name ++ "\". Check that module \"" ++ name ++
      "\" is available and spelled correctly."
  | .invalidGlob error => "Invalid glob pattern: " ++ error.message
  | .invalidInput pattern error => "Invalid pattern '" ++ pattern ++ "': " ++ error.message
  | .invalidIgnorePattern error => "Invalid ignore pattern: " ++ error.message
  | .badIgnoreFile path lines =>
    "Failed to read ignore file " ++ path ++ ": " ++ String.intercalate "\n" (lines.map
      fun (n, fault) => path ++ ": line " ++ toString n ++ ": " ++ fault.message)
  | .unreadableIgnoreFile path fault =>
    "Failed to read ignore file " ++ path ++ ": " ++ path ++ ": " ++ fault.message
  | .other text => text

/-- What is wrong with the overrides of a configuration. -/
inductive OverrideFault where
  | notArray
  | withoutFiles
  /-- A fault that is known only by its text. -/
  | other (text : String)
deriving DecidableEq, Repr

def OverrideFault.message : OverrideFault → String
  | .notArray =>
    "The `overrides` configuration property should be an array, e.g. \x7b \"overrides\": [\x7b " ++
      "\"files\": \"*.css\", \"rules\": \x7b\x7d \x7d] \x7d."
  | .withoutFiles =>
    "Every object in the `overrides` configuration property should have a `files` property " ++
      "with globs, e.g. \x7b \"overrides\": [\x7b \"files\": \"*.css\", \"rules\": \x7b\x7d " ++
      "\x7d] \x7d."
  | .other text => text

/-- The options that name one input. -/
inductive InputOption where
  | filePath
  | codeFilename
deriving DecidableEq, Repr

def InputOption.name : InputOption → String
  | .filePath => "filePath"
  | .codeFilename => "codeFilename"

/-- Why a run, or the lint of one input, failed. -/
inductive LintError where
  | noInput
  | missingSource
  | relativePath (option : InputOption)
  | configNotFound
  | config (error : ConfigError)
  | overrides (fault : OverrideFault)
  | allFilesIgnored
  | noFilesFound (patterns : List String)
  | invalidFormatter (name : String)
  | malformed (error : SyntaxError)
  | unparsed (text : String)
  | plugin (error : PluginError)
  | cache (error : CacheError)
  | unreadable (path : String) (fault : FileFault)
  | unwritable (path : String) (fault : FileFault)
  | missingIgnoreFile (path : String)
  /-- A file error that is known only by its text. -/
  | file (text : String)
  | storage (fault : FileFault)
  | internal (text : String)
deriving DecidableEq, Repr

namespace LintError

def message : LintError → String
  | .noInput => "You must pass sheetlint a `files` glob or a `code` string, though not both"
  | .missingSource => "You must provide filePath, code, or an existing root"
  | .relativePath option => option.name ++ " must be an absolute path"
  | .configNotFound => "Config file not found"
  | .config error => error.message
  | .overrides fault => fault.message
  | .allFilesIgnored =>
    "All input files were ignored because of the ignore pattern. Either change your input, " ++
      "ignore pattern or use \"--allow-empty-input\" to allow no inputs"
  | .noFilesFound patterns =>
    "No files matching the pattern \"" ++ String.intercalate " " patterns ++ "\" were found."
  | .invalidFormatter _ =>
    "You must use a valid formatter option: \"compact\", \"json\", \"string\", \"unix\" or a " ++
      "function"
  | .malformed error => error.message
  | .unparsed text => "Parse error: " ++ text
  | .plugin error => error.message
  | .cache error => "Cache error: " ++ error.message
  | .unreadable path fault => "File error: Failed to read " ++ path ++ ": " ++ fault.message
  | .unwritable path fault => "File error: Failed to write " ++ path ++ ": " ++ fault.message
  | .missingIgnoreFile path => "File error: No such ignore file: " ++ path
  | .file text => "File error: " ++ text
  | .storage fault => "I/O error: " ++ fault.message
  | .internal text => "Internal error: " ++ text

/-- Whether the error ends the whole run rather than the lint of one input. -/
def isFatal : LintError → Bool
  | .malformed _ => false
  | .unparsed _ => false
  | .cache _ => false
  | .unreadable _ _ => false
  | .unwritable _ _ => false
  | .missingIgnoreFile _ => false
  | .file _ => false
  | .storage _ => false
  | _ => true

def ofParseError : ParseError → LintError
  | .malformed e => .malformed e
  | e => .unparsed e.message

end LintError

end StyleAudit
