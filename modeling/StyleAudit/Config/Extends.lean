import StyleAudit.Config.Overrides
import StyleAudit.Config.Source
import StyleAudit.Registry.Basic

/-!
Building a configuration on its bases.

A configuration wins over its bases, and a later base over an earlier one. Each base is worked out
in the same way first. The keys of the bases that are being worked out form a chain; a base whose
key is already on it would never come to an end, and is an error.
-/

namespace StyleAudit

/-- Where the bases of a configuration come from. -/
structure BaseSources where
  /-- Configurations that are known by name. -/
  shared : String → Option Config
  isFile : String → Bool
  /-- The configuration in a file. -/
  load : String → Except LintError SourcedConfig
  /-- The directory in which bases are looked for in the second place. -/
  cwd : String

/-- A base that was found, with the key under which it stands on the chain. -/
structure FoundBase where
  loaded : SourcedConfig
  key : String

namespace BaseSources

def ofFiles (registry : Registry) (memo : ConfigMemo) (fs : FileSystem) (cwd : String) :
    BaseSources where
  shared name := registry.configs.find? name
  isFile := fs.isFile
  load := memo.load fs
  cwd := cwd

/-- The paths at which a base may be, in order. -/
def candidates (s : BaseSources) (name dir : String) : List String :=
  [Path.join dir name, Path.join dir (name ++ ".json"), Path.join s.cwd name,
    Path.join s.cwd (name ++ ".json")]

/-- Finds a base: by its name, or else as a file. -/
def find (s : BaseSources) (name dir : String) : Except LintError FoundBase :=
  match s.shared name with
  | some config => .ok ⟨SourcedConfig.inline config, "config:" ++ name⟩
  | none =>
    match (s.candidates name dir).find? s.isFile with
    | none => .error (.config (.unknownExtends name))
    | some candidate =>
      let path := Path.absolutize candidate s.cwd
      match s.load path with
      | .error e => .error e
      | .ok loaded => .ok ⟨loaded, Path.withSlashes path⟩

end BaseSources

/-- What is kept while bases are worked out. -/
structure Trail where
  /-- The keys of the bases that are being worked out, the outermost first. -/
  chain : List String
  /-- The files that were read, in order. -/
  reads : List String
deriving DecidableEq, Repr

namespace Trail

def enter (t : Trail) (key : String) : Trail := { t with chain := t.chain ++ [key] }

def leave (t : Trail) : Trail := { t with chain := t.chain.dropLast }

/-- Notes the file of a base that was found. -/
def note (t : Trail) (found : FoundBase) : Trail :=
  { t with reads := t.reads ++ found.loaded.file.toList }

end Trail

namespace Config

/-- How many bases may stand on the chain before another one is entered. -/
def maxDepth : Nat := 10

/-- What stays the same while the bases of one configuration are worked out. -/
structure Scope where
  sources : BaseSources
  /-- The directory that the globs of overrides are taken from. -/
  rootDir : String
  /-- The input that the configuration is for, if it is known. -/
  input : Option String

/-- Applies the overrides for the input; without one they stay. -/
def Scope.forInput (s : Scope) (c : Config) : Except LintError Config :=
  match s.input with
  | some path => c.forInput s.rootDir path
  | none => .ok c

theorem Scope.mem_bases_forInput {s : Scope} {c own : Config}
    (h : s.forInput c = .ok own) {b : Base} (hb : b ∈ own.bases) :
    b ∈ c.bases ∨ ∃ o ∈ c.overrides, b ∈ o.config.bases := by
  unfold Scope.forInput at h
  split at h
  · exact Config.mem_bases_forInput h hb
  · simp only [Except.ok.injEq] at h
    exact .inl (h ▸ hb)

theorem sizeOf_lt_of_mem_bases {c : Config} {b : Base} (h : b ∈ c.bases) :
    sizeOf b < sizeOf c := by
  have hb := List.sizeOf_lt_of_mem h
  obtain ⟨settings, bases, overrides⟩ := c
  simp only [Config.mk.sizeOf_spec] at hb ⊢
  omega

theorem sizeOf_lt_of_mem_overrides {c : Config} {o : Override} (h : o ∈ c.overrides) :
    sizeOf o.config < sizeOf c := by
  have ho := List.sizeOf_lt_of_mem h
  obtain ⟨settings, bases, overrides⟩ := c
  obtain ⟨files, config⟩ := o
  simp only [Override.mk.sizeOf_spec, Config.mk.sizeOf_spec] at ho ⊢
  omega

/-- A base that a configuration has for an input is smaller than the configuration. -/
theorem Scope.sizeOf_lt {s : Scope} {c own : Config} {b : Base} (h : s.forInput c = .ok own)
    (hb : b ∈ own.bases) : sizeOf b < sizeOf c := by
  rcases Scope.mem_bases_forInput h hb with hb | ⟨o, ho, hb⟩
  · exact sizeOf_lt_of_mem_bases hb
  · exact Nat.lt_trans (sizeOf_lt_of_mem_bases hb) (sizeOf_lt_of_mem_overrides ho)

/-- Lays bases over a configuration one by one; each is worked out by `work`. -/
def foldBases (result : Config) (t : Trail) : (bases : List Base) →
    (work : (b : Base) → b ∈ bases → Trail → Except LintError Config × Trail) →
    Except LintError Config × Trail
  | [], _ => (.ok result, t)
  | b :: bases, work =>
    match work b List.mem_cons_self t with
    | (.error e, t) => (.error e, t)
    | (.ok base, t) =>
      foldBases (result.merge base) t bases fun b h => work b (List.mem_cons_of_mem _ h)

/-- How a base is worked out that was looked up from a directory and stands on no chain yet. -/
abbrev Entering := (name dir : String) → FoundBase → Trail → Except LintError Config × Trail

mutual

/--
Works out a configuration that lies in the directory `dir`: its overrides for the input, then its
bases, then its paths.
-/
def extendWith (s : Scope) (enter : Entering) (dir : String) (c : Config) (t : Trail) :
    Except LintError Config × Trail :=
  match _h : s.forInput c with
  | .error e => (.error e, t)
  | .ok own =>
    let bare := { own with bases := [] }
    match foldBases bare t own.bases fun b _hb t => extendBase s enter dir b t with
    | (.error e, t) => (.error e, t)
    | (.ok result, t) =>
      let whole := if own.bases.isEmpty then own else result.merge bare
      (.ok (whole.anchorPaths dir), t)
termination_by sizeOf c
decreasing_by exact Scope.sizeOf_lt _h _hb

/-- Works out a base of a configuration that lies in the directory `dir`. -/
def extendBase (s : Scope) (enter : Entering) (dir : String) (b : Base) (t : Trail) :
    Except LintError Config × Trail :=
  match b with
  | .inline inner => extendWith s enter dir inner t
  | .lookup name =>
    match s.sources.find name dir with
    | .error e => (.error e, t)
    | .ok found =>
      let t := t.note found
      if t.chain.contains found.key then
        (.error (.config (.circularExtends (t.chain ++ [found.key]))), t)
      else if maxDepth < t.chain.length then
        (.error (.config (.extendsTooDeep maxDepth name)), t)
      else enter name dir found t
termination_by sizeOf b

end

/-- Works out a configuration; at most `budget` more bases may be entered one inside the other. -/
def extend (s : Scope) : Nat → String → Config → Trail → Except LintError Config × Trail
  | 0 => extendWith s fun name _ _ t => (.error (.config (.extendsTooDeep maxDepth name)), t)
  | budget + 1 => extendWith s fun _ dir found t =>
    let (base, t) := extend s budget (found.loaded.dir?.getD dir) found.loaded.config
      (t.enter found.key)
    (base, t.leave)

/-- The budget that a chain leaves. -/
def depthLeft (chain : List String) : Nat := maxDepth + 1 - chain.length

/-- Works out a configuration below the bases of a chain. -/
def extendFrom (s : Scope) (dir : String) (c : Config) (chain : List String) :
    Except LintError Config × Trail :=
  extend s (depthLeft chain) dir c ⟨chain, []⟩

end Config

end StyleAudit
