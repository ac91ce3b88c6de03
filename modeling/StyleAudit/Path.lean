/-!
File paths as text, taken apart into components.

Paths use `/`. Repeated separators and `.` components inside a path do not count; `..` is only
resolved by `normalize`, which never looks at files.
-/

namespace StyleAudit.Path

inductive Component where
  | root
  | current
  | parent
  | normal (name : String)
deriving DecidableEq, Repr

/-- Splits a text at every `/`. -/
def segments : List Char → List (List Char)
  | [] => [[]]
  | c :: cs =>
    if c = '/' then [] :: segments cs
    else
      match segments cs with
      | [] => [[c]]
      | s :: ss => (c :: s) :: ss

/-- Whether a segment counts for nothing inside a path. -/
def isVoid (s : List Char) : Bool :=
  s == [] || s == ['.']

def Component.ofSegment (s : List Char) : Component :=
  if s = ['.', '.'] then .parent else .normal (String.ofList s)

def isAbsolute (p : String) : Bool :=
  p.toList.head? == some '/'

/-- The components of a path. A `.` counts only at the head of a relative path. -/
def components (p : String) : List Component :=
  let parts := segments p.toList
  let body := (parts.filter fun s => !isVoid s).map Component.ofSegment
  if isAbsolute p then .root :: body
  else if parts.head? = some ['.'] then .current :: body
  else body

def Component.text : Component → String
  | .root => "/"
  | .current => "."
  | .parent => ".."
  | .normal name => name

/-- Joins components to a path. -/
def render : List Component → String
  | .root :: cs => "/" ++ String.intercalate "/" (cs.map Component.text)
  | cs => String.intercalate "/" (cs.map Component.text)

/-- Resolves `.` and `..` on a stack of components, whose top comes first. -/
def resolve (stack : List Component) : List Component → List Component
  | [] => stack.reverse
  | .current :: cs => resolve stack cs
  | .parent :: cs =>
    match stack with
    | .normal _ :: rest => resolve rest cs
    | .root :: rest => resolve (.root :: rest) cs
    | stack => resolve (.parent :: stack) cs
  | c :: cs => resolve (c :: stack) cs

/-- The components of the normal form. -/
def normalized (p : String) : List Component :=
  resolve [] (components p)

/-- The normal form of a path; a path that comes down to nothing is `.`. -/
def normalize (p : String) : String :=
  match normalized p with
  | [] => "."
  | cs => render cs

/-- Appends a path to a directory; an absolute one replaces it. -/
def join (base p : String) : String :=
  if isAbsolute p || base = "" then p
  else if base.toList.getLast? = some '/' then base ++ p
  else base ++ "/" ++ p

/-- The normal form of a path taken from a directory. -/
def absolutize (p base : String) : String :=
  normalize (if isAbsolute p then p else join base p)

/-- Drops segments that do not count from the end. -/
def trimEnd (parts : List (List Char)) : List (List Char) :=
  (parts.reverse.dropWhile isVoid).reverse

/-- Joins segments with `/`. -/
def joinSegments : List (List Char) → List Char
  | [] => []
  | [s] => s
  | s :: parts => s ++ '/' :: joinSegments parts

/-- The path without its last component, as it is written; nothing is above the root. -/
def parent? (p : String) : Option String :=
  match (components p).reverse with
  | [] => none
  | .root :: _ => none
  | [_] => some ""
  | [_, .root] => some "/"
  | [_, .current] => some "."
  | _ => some (String.ofList (joinSegments (trimEnd (trimEnd (segments p.toList)).dropLast)))

/-- The paths above a path, the nearest one first, at most `n` of them. -/
def parentsUpTo : Nat → String → List String
  | 0, _ => []
  | n + 1, p =>
    match parent? p with
    | some dir => dir :: parentsUpTo n dir
    | none => []

/-- All paths above a path, the nearest one first. There are no more than components. -/
def parents (p : String) : List String :=
  parentsUpTo (components p).length p

/-- The last component, if it is a name. -/
def fileName? (p : String) : Option String :=
  match (components p).getLast? with
  | some (.normal name) => some name
  | _ => none

/-- The part before the last dot of a name and the part after it. -/
def splitLastDot : List Char → Option (List Char × List Char)
  | [] => none
  | c :: cs =>
    match splitLastDot cs with
    | some (stem, ext) => some (c :: stem, ext)
    | none => if c = '.' then some ([], cs) else none

/-- What follows the last dot of the file name, unless only that dot begins the name. -/
def extension? (p : String) : Option String := do
  let name ← fileName? p
  match splitLastDot name.toList with
  | some ([], _) => none
  | some (_, ext) => some (String.ofList ext)
  | none => none

/-- The path with another extension on its file name. -/
def withExtension (p ext : String) : String :=
  match fileName? p, parent? p with
  | some name, some dir =>
    let stem := match splitLastDot name.toList with
      | some ([], _) => name
      | some (stem, _) => String.ofList stem
      | none => name
    join dir (stem ++ "." ++ ext)
  | _, _ => p

/-- Whether the components of `base` begin those of `p`. -/
def startsWith (p base : String) : Bool :=
  (components base).isPrefixOf (components p)

/-- Drops the first `n` segments that count. -/
def dropSegments : Nat → List (List Char) → List (List Char)
  | 0, parts => parts
  | _ + 1, [] => []
  | n + 1, s :: parts => if isVoid s then dropSegments (n + 1) parts else dropSegments n parts

/-- What follows the components of `base` in `p`, as it is written there. -/
def stripPrefix? (p base : String) : Option String :=
  if startsWith p base then
    let parts := segments p.toList
    let count := ((components base).filter fun c => c != .root && c != .current).length
    if (components base).isEmpty then
      let kept := trimEnd parts
      some (if kept.isEmpty then render (components p) else String.ofList (joinSegments kept))
    else
      let rest := trimEnd ((dropSegments count parts).dropWhile isVoid)
      some (String.ofList (joinSegments rest))
  else none

/-- Writes every backslash as `/`. -/
def withSlashes (p : String) : String :=
  String.ofList (p.toList.map fun c => if c = '\\' then '/' else c)

/-- Whether a name is meant as a path: it is absolute or begins with a dot component. -/
def namesPath (name : String) : Bool :=
  let cs := name.toList
  name == "." || name == ".." || isAbsolute name ||
    ["./", "../", ".\\", "..\\"].any fun head => head.toList.isPrefixOf cs

/-- The order of two components. -/
def Component.rank : Component → Nat
  | .root => 0
  | .current => 1
  | .parent => 2
  | .normal _ => 3

def Component.le (a b : Component) : Bool :=
  match a, b with
  | .normal x, .normal y => x ≤ y
  | a, b => a.rank ≤ b.rank

def componentsLe : List Component → List Component → Bool
  | [], _ => true
  | _ :: _, [] => false
  | a :: as, b :: bs => if a = b then componentsLe as bs else a.le b

/-- The order of paths, component by component. -/
def le (p q : String) : Bool :=
  componentsLe (components p) (components q)

end StyleAudit.Path
