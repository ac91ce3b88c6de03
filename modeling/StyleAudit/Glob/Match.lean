import StyleAudit.Glob.Basic

/-!
Matching globs against paths.

A path is matched as its UTF-8 bytes. A token turns the places that have been reached into those
that can be reached from them, so a glob is one scan of the path for each of its tokens.
-/

namespace StyleAudit.Glob

abbrev Bytes := List UInt8

def separator : UInt8 := 47

def isSeparator (b : UInt8) : Bool := b == separator

/-- Which places of a path have been reached: the one before each byte, and the end. -/
abbrev Places := List Bool

namespace Places

/-- Only the place before the first byte. -/
def start (s : Bytes) : Places :=
  true :: s.map fun _ => false

def none (s : Bytes) : Places :=
  false :: s.map fun _ => false

def union (p q : Places) : Places := List.zipWith or p q

/-- The places behind one byte that `f` holds of. -/
def step (f : UInt8 → Bool) (s : Bytes) (p : Places) : Places :=
  false :: List.zipWith (fun b here => here && f b) s p

/-- The places behind a run of bytes that `f` holds of; `running` says that one goes on here. -/
def stepsFrom (f : UInt8 → Bool) (running : Bool) : Bytes → Places → Places
  | b :: s, here :: p => (here || running) :: stepsFrom f ((here || running) && f b) s p
  | _, p => p.map (· || running)

/-- The places behind any number of bytes that `f` holds of. -/
def steps (f : UInt8 → Bool) (s : Bytes) (p : Places) : Places :=
  stepsFrom f false s p

/-- The places behind a fixed text. -/
def text (bs : Bytes) (s : Bytes) (p : Places) : Places :=
  bs.foldl (fun p b => p.step (· == b) s) p

/-- The places behind nothing, or behind everything up to some separator and the separator. -/
def components (s : Bytes) (p : Places) : Places :=
  p.union ((p.steps (fun _ => true) s).step isSeparator s)

/-- Whether the end has been reached. -/
def atEnd (p : Places) : Bool := p.getLastD false

end Places

def bytesOf (cs : List Char) : Bytes :=
  cs.flatMap String.utf8EncodeChar

/-- The byte ranges of a range of characters: only the bytes where they meet form a range. -/
def byteRanges (range : Char × Char) : List (UInt8 × UInt8) :=
  let (first, last) := range
  let singles (bs : Bytes) : List (UInt8 × UInt8) := bs.map fun b => (b, b)
  let a := String.utf8EncodeChar first
  if first = last then singles a
  else
    let b := String.utf8EncodeChar last
    match a.getLast?, b.head? with
    | some x, some y => singles a.dropLast ++ (x, y) :: singles b.tail
    | _, _ => []

def inRanges (ranges : List (Char × Char)) (b : UInt8) : Bool :=
  (ranges.flatMap byteRanges).any fun (x, y) => x ≤ b && b ≤ y

mutual

/-- Whether a token stands for nothing at all: a group in which every branch is empty. -/
def Token.isHollow : Token → Bool
  | .alternatives branches => Token.hollowBranches branches
  | _ => false

def Token.hollowTokens : List Token → Bool
  | [] => true
  | t :: ts => t.isHollow && Token.hollowTokens ts

def Token.hollowBranches : List (List Token) → Bool
  | [] => true
  | b :: bs => Token.hollowTokens b && Token.hollowBranches bs

end

mutual

/-- The places behind a token. -/
def Token.reach (s : Bytes) : Token → Places → Places
  | .literal c, p => p.text (String.utf8EncodeChar c) s
  | .any, p => p.step (fun b => !isSeparator b) s
  | .star, p => p.steps (fun b => !isSeparator b) s
  | .leading, p => p.components s
  | .trailing, p => (p.step isSeparator s).steps (fun _ => true) s
  | .between, p => (p.step isSeparator s).components s
  | .oneOf negated ranges, p => p.step (fun b => inRanges ranges b != negated) s
  | .alternatives branches, p =>
    if Token.hollowBranches branches then p else Token.reachBranches s branches p

/-- The places behind tokens in a row. -/
def Token.reachAll (s : Bytes) : List Token → Places → Places
  | [], p => p
  | t :: ts, p => Token.reachAll s ts (t.reach s p)

/-- The places behind some branch that is not hollow. -/
def Token.reachBranches (s : Bytes) : List (List Token) → Places → Places
  | [], _ => Places.none s
  | b :: bs, p =>
    let others := Token.reachBranches s bs p
    if Token.hollowTokens b then others else (Token.reachAll s b p).union others

end

/-- Whether a glob matches a whole path. A glob that is just `**` matches every path. -/
def isMatch (g : Glob) (path : String) : Bool :=
  match g.tokens with
  | [.leading] => true
  | tokens =>
    let s := bytesOf path.toList
    (Token.reachAll s tokens (Places.start s)).atEnd

def Token.isLiteral : Token → Bool
  | .literal _ => true
  | _ => false

def Token.isChar (c : Char) : Token → Bool
  | .literal d => c == d
  | _ => false

/-- Whether tokens are a fixed path, or the fixed end of a path that has several components. -/
def isFixedPath : List Token → Bool
  | .leading :: ts => ts.all Token.isLiteral && ts.any (Token.isChar '/')
  | ts => ts.all Token.isLiteral

/-- Whether the last component of a path is `..`. -/
def endsInParent (path : List Char) : Bool :=
  path == ['.', '.'] || ['/', '.', '.'].isSuffixOf path

/--
Whether a glob picks a file. It has to match the path. A path that ends in `..` has no file name,
and a glob that ends in a dot picks it only if the glob is a fixed path.
-/
def picks (g : Glob) (path : String) : Bool :=
  g.isMatch path &&
    (!endsInParent path.toList || !g.tokens.getLast?.any (Token.isChar '.') ||
      isFixedPath g.tokens)

end StyleAudit.Glob
