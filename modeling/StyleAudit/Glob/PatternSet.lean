import StyleAudit.Glob.Match
import StyleAudit.Path

/-!
Lists of globs, and globs taken from a directory.

A pattern that begins with `!` holds of the paths that the rest of it does not match, and a list
holds of a path when one of its patterns does.
-/

namespace StyleAudit

/-- Splits off a leading exclamation mark. -/
def splitNegation (pattern : String) : Bool × String :=
  match pattern.toList with
  | '!' :: rest => (true, String.ofList rest)
  | _ => (false, pattern)

def withNegation (negated : Bool) (pattern : String) : String :=
  if negated then "!" ++ pattern else pattern

namespace Glob

/-- Drops every `/` at the end. -/
def trimSlashes (s : String) : String :=
  String.ofList ((s.toList.reverse.dropWhile (· == '/')).reverse)

/-- Leaves a directory once for each leading `..`; the rest are the components of the glob. -/
def climb (base : String) : List Path.Component → String × List Path.Component
  | .parent :: cs => climb ((Path.parent? base).getD base) cs
  | .current :: cs => climb base cs
  | cs => (base, cs)

/-- An absolute form of a glob without negation; the directory itself is taken literally. -/
def absolutizePlain (pattern base : String) : String :=
  if Path.isAbsolute pattern then Path.withSlashes (Path.normalize pattern)
  else
    let (base, rest) := climb (Path.normalize base) (Path.components (Path.normalize pattern))
    let base := trimSlashes (escape (Path.withSlashes base))
    if rest.isEmpty then base
    else base ++ "/" ++ String.intercalate "/" (rest.map Path.Component.text)

/-- The glob that means from everywhere what `pattern` means in the directory `base`. -/
def absolutize (pattern base : String) : String :=
  let (negated, pattern) := splitNegation pattern
  withNegation negated (absolutizePlain pattern base)

end Glob

/-- One pattern of a set. -/
structure Pattern where
  glob : Glob
  negated : Bool
  /-- Whether only the file name is looked at. -/
  baseName : Bool

/-- What follows the last `/`. -/
def lastSegment (path : String) : String :=
  match (Path.segments path.toList).getLast? with
  | some s => String.ofList s
  | none => path

namespace Pattern

/-- Reads a pattern; with `matchBase` one without `/` looks at file names only. -/
def parse (matchBase : Bool) (text : String) : Except GlobError Pattern :=
  let (negated, pattern) := splitNegation text
  match Glob.parse Glob.strict pattern with
  | .ok glob => .ok ⟨glob, negated, matchBase && !pattern.toList.contains '/'⟩
  | .error e => .error e

def isMatch (p : Pattern) (path : String) : Bool :=
  p.glob.isMatch (if p.baseName then lastSegment path else path) != p.negated

end Pattern

/-- A list of patterns that matches when one of them does. -/
abbrev PatternSet := List Pattern

namespace PatternSet

def parse (matchBase : Bool) : List String → Except GlobError PatternSet
  | [] => .ok []
  | text :: texts =>
    match Pattern.parse matchBase text with
    | .error e => .error e
    | .ok pattern =>
      match parse matchBase texts with
      | .error e => .error e
      | .ok patterns => .ok (pattern :: patterns)

def isMatch (s : PatternSet) (path : String) : Bool :=
  s.any fun p => p.isMatch path

end PatternSet

end StyleAudit
