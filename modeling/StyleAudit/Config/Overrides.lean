import StyleAudit.Config.Merge
import StyleAudit.Glob.PatternSet

/-!
Choosing the overrides that apply to an input, and making the paths of a configuration absolute.
-/

namespace StyleAudit

namespace Override

/--
Whether an override applies to an input. Its globs are taken from `rootDir`; failing that, globs
without `/` are tried on the file name.
-/
def applies (o : Override) (rootDir input : String) : Except LintError Bool :=
  if o.files.isEmpty then .error (.overrides .withoutFiles)
  else
    let path := Path.withSlashes input
    match PatternSet.parse false (o.files.map fun glob => Glob.absolutize glob rootDir) with
    | .error e => .error (.config (.invalidGlob e))
    | .ok absolute =>
      if absolute.isMatch path then .ok true
      else
        match PatternSet.parse true o.files with
        | .error e => .error (.config (.invalidGlob e))
        | .ok own => .ok (own.isMatch path)

end Override

namespace Config

/-- Lays those overrides over a configuration that apply to an input, in order. -/
def foldOverrides (rootDir input : String) (c : Config) :
    List Override → Except LintError Config
  | [] => .ok c
  | o :: os =>
    match o.applies rootDir input with
    | .error e => .error e
    | .ok true => foldOverrides rootDir input (c.merge o.config) os
    | .ok false => foldOverrides rootDir input c os

/-- The configuration for one input: overrides that apply are merged in and none are left. -/
def forInput (c : Config) (rootDir input : String) : Except LintError Config :=
  match foldOverrides rootDir input { c with overrides := [] } c.overrides with
  | .error e => .error e
  | .ok result => .ok { result with overrides := [] }

theorem mem_bases_foldOverrides {rootDir input : String} {os : List Override}
    {c result : Config} (h : foldOverrides rootDir input c os = .ok result) {b : Base}
    (hb : b ∈ result.bases) : b ∈ c.bases ∨ ∃ o ∈ os, b ∈ o.config.bases := by
  induction os generalizing c with
  | nil =>
    simp only [foldOverrides, Except.ok.injEq] at h
    exact .inl (h ▸ hb)
  | cons o os ih =>
    rw [foldOverrides] at h
    split at h
    · simp at h
    · rcases ih h with hc | ⟨p, hp, hbp⟩
      · rcases mem_bases_merge hc with hc | ho
        · exact .inl hc
        · exact .inr ⟨o, List.mem_cons_self, ho⟩
      · exact .inr ⟨p, List.mem_cons_of_mem _ hp, hbp⟩
    · rcases ih h with hc | ⟨p, hp, hbp⟩
      · exact .inl hc
      · exact .inr ⟨p, List.mem_cons_of_mem _ hp, hbp⟩

/-- Every base that a configuration has for an input is a part of the configuration. -/
theorem mem_bases_forInput {c result : Config} {rootDir input : String}
    (h : c.forInput rootDir input = .ok result) {b : Base} (hb : b ∈ result.bases) :
    b ∈ c.bases ∨ ∃ o ∈ c.overrides, b ∈ o.config.bases := by
  unfold forInput at h
  split at h
  · simp at h
  · rename_i r hr
    simp only [Except.ok.injEq] at h
    subst h
    exact mem_bases_foldOverrides hr hb

/-- Makes the paths that a configuration names absolute from its directory. -/
def anchorPaths (c : Config) (dir : String) : Config :=
  { c with
    ignoreFiles := c.ignoreFiles.map fun globs => globs.map fun glob => Glob.absolutize glob dir
    plugins := c.plugins.map fun
      | .lookup specifier =>
        if Path.namesPath specifier then .lookup (Path.withSlashes (Path.absolutize specifier dir))
        else .lookup specifier
      | entry => entry }

end Config

end StyleAudit
