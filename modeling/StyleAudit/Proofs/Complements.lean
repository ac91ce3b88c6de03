import StyleAudit.Proofs.Settling

/-!
Overrides for the inputs that a glob does not match.

An override tries its globs twice, taken from the root directory and as they are written. A mark
in front turns both answers round, and either of them is enough. So it turns the whole round
exactly where the two answers are the same.
-/

namespace StyleAudit

open Glob (strict)

theorem Pattern.parse_withNegation (matchBase negated : Bool) {text : String}
    (h : text.toList.head? ≠ some '!') :
    Pattern.parse matchBase (withNegation negated text) =
      match Glob.parse strict text with
      | .ok glob => .ok ⟨glob, negated, matchBase && !text.toList.contains '/'⟩
      | .error e => .error e := by
  have hsplit := Glob.splitNegation_withNegation negated h
  cases hparse : Glob.parse strict text <;> simp [Pattern.parse, hsplit, hparse]

theorem PatternSet.parse_singleton (matchBase : Bool) (text : String) :
    PatternSet.parse matchBase [text] = (Pattern.parse matchBase text).map ([·]) := by
  rw [PatternSet.parse, PatternSet.parse]
  cases Pattern.parse matchBase text <;> rfl

theorem PatternSet.isMatch_singleton (p : Pattern) (path : String) :
    PatternSet.isMatch [p] path = p.isMatch path := by
  rw [PatternSet.isMatch, List.any_cons, List.any_nil, Bool.or_false]

namespace Override

variable {root glob : String}

/-- The part of a path that a glob is tried on as it is written. -/
def tried (glob path : String) : String :=
  if glob.toList.contains '/' then path else lastSegment path

/-- What an override with one glob does, with or without a mark in front of the glob. -/
theorem applies_single (hroot : Path.isAbsolute root = true) (hmark : glob.toList.head? ≠ some '!')
    {own : Glob} (hown : Glob.parse strict glob = .ok own) (negated : Bool) (config : Config)
    (input : String) :
    (Override.mk [withNegation negated glob] config).applies root input =
      match Glob.parse strict (Glob.absolutize glob root) with
      | .error e => .error (.config (.invalidGlob e))
      | .ok full =>
        .ok ((full.isMatch (Path.withSlashes input) != negated) ||
          (own.isMatch (tried glob (Path.withSlashes input)) != negated)) := by
  have habsolute : Glob.absolutize glob root = Glob.absolutizePlain glob root := by
    rw [Glob.absolutize, Glob.splitNegation_of_head hmark]
    rfl
  have hnegated : Glob.absolutize (withNegation negated glob) root =
      withNegation negated (Glob.absolutizePlain glob root) := by
    rw [Glob.absolutize, Glob.splitNegation_withNegation negated hmark]
  rw [habsolute, applies, if_neg (by simp)]
  dsimp only
  rw [List.map_cons, List.map_nil, hnegated, PatternSet.parse_singleton, PatternSet.parse_singleton,
    Pattern.parse_withNegation false negated (Glob.head?_absolutizePlain hroot glob),
    Pattern.parse_withNegation true negated hmark, hown]
  cases Glob.parse strict (Glob.absolutizePlain glob root) with
  | error e => rfl
  | ok full =>
      have htried : (if (true && !glob.toList.contains '/') = true
          then lastSegment (Path.withSlashes input) else Path.withSlashes input) =
            tried glob (Path.withSlashes input) := by
        rw [tried]
        cases glob.toList.contains '/' <;> rfl
      simp only [Except.map, PatternSet.isMatch_singleton, Pattern.isMatch, htried, Bool.false_and,
        Bool.false_eq_true, if_false]
      cases full.isMatch (Path.withSlashes input) != negated <;> rfl

/-- Whether a mark in front of its glob turns round if an override applies to an input. -/
def Complemented (root input glob : String) (config : Config) : Prop :=
  ∃ applied, (Override.mk [glob] config).applies root input = .ok applied ∧
    (Override.mk ["!" ++ glob] config).applies root input = .ok !applied

/-- A mark turns the whole round exactly where both answers are the same. -/
theorem complemented_iff (hroot : Path.isAbsolute root = true)
    (hmark : glob.toList.head? ≠ some '!') {own full : Glob}
    (hown : Glob.parse strict glob = .ok own)
    (hfull : Glob.parse strict (Glob.absolutize glob root) = .ok full) (config : Config)
    (input : String) :
    Complemented root input glob config ↔
      full.isMatch (Path.withSlashes input) =
        own.isMatch (tried glob (Path.withSlashes input)) := by
  have happlies (negated : Bool) := applies_single hroot hmark hown negated config input
  rw [hfull] at happlies
  dsimp only at happlies
  generalize full.isMatch (Path.withSlashes input) = far at happlies
  generalize own.isMatch (tried glob (Path.withSlashes input)) = near at happlies
  have hplain : (Override.mk [glob] config).applies root input = _ := happlies false
  have hturned : (Override.mk ["!" ++ glob] config).applies root input = _ := happlies true
  rw [Complemented, hplain, hturned]
  cases far <;> cases near <;> simp

/-- A relative glob in normal form that leads down from its directory. -/
structure Downward (glob : String) : Prop where
  normal : Path.normalize glob = glob
  relative : Path.isAbsolute glob = false
  noClimb : (Path.components glob).head? ≠ some .parent
  noDot : glob ≠ "."

theorem withSlashes_append (s t : String) :
    Path.withSlashes (s ++ t) = Path.withSlashes s ++ Path.withSlashes t := by
  rw [← String.toList_inj, String.toList_append, Glob.toList_withSlashes, String.toList_append,
    List.map_append, ← Glob.toList_withSlashes, ← Glob.toList_withSlashes]

/-- Taken from its directory a glob matches what it matches of the rest of the path. -/
theorem isMatch_join (hroot : Path.isAbsolute root = true) (hnormal : Path.normalize root = root)
    (hslash : '\\' ∉ root.toList) (hmark : glob.toList.head? ≠ some '!') (hglob : Downward glob)
    {own full : Glob} (hown : Glob.parse strict glob = .ok own)
    (hfull : Glob.parse strict (Glob.absolutize glob root) = .ok full) {rest : String}
    (hrest : Path.isAbsolute rest = false) :
    full.isMatch (Path.withSlashes (Path.join root rest)) =
      own.isMatch (Path.withSlashes rest) := by
  obtain ⟨names, hnames, hthrough, hspelled, habsolute, hlastSlash⟩ := Glob.absolutize_normal hroot
    hnormal hslash hglob.normal hglob.relative hmark hglob.noClimb hglob.noDot
  rw [habsolute] at hfull
  have hread := Glob.parse_anchored strict hspelled glob
  rw [hown] at hread
  obtain ⟨_, hparse, hanchors⟩ := hread
  obtain rfl := Except.ok.inj (hparse.symm.trans hfull)
  have hlast : own.source.toList.getLast? ≠ some '/' := by rwa [Glob.source_of_parse hown]
  have hseparator : Path.withSlashes "/" = "/" := rfl
  rw [hthrough, Path.join_through hnames hrest, withSlashes_append, withSlashes_append,
    Glob.withSlashes_of_not_mem hspelled, hseparator, hanchors.rest hlast]

/-- Negation is complement where a glob gives one answer, taken from the root directory or not. -/
theorem applies_negated (hroot : Path.isAbsolute root = true)
    (hmark : glob.toList.head? ≠ some '!') {own : Glob} (hown : Glob.parse strict glob = .ok own)
    (config : Config) :
    match Glob.parse strict (Glob.absolutize glob root) with
    | .error e => ∀ input, ∀ text ∈ [glob, "!" ++ glob],
      (Override.mk [text] config).applies root input = .error (.config (.invalidGlob e))
    | .ok full =>
      (∀ input, Complemented root input glob config ↔
        full.isMatch (Path.withSlashes input) =
          own.isMatch (tried glob (Path.withSlashes input))) ∧
      (Path.isAbsolute glob = true → '\\' ∉ glob.toList → Path.Settled glob →
        ∀ input, Complemented root input glob config) ∧
      (Path.normalize root = root → '\\' ∉ root.toList → Downward glob →
        ∀ rest, Path.isAbsolute rest = false →
          (Complemented root (Path.join root rest) glob config ↔
            own.isMatch (Path.withSlashes rest) =
              own.isMatch (tried glob (Path.withSlashes (Path.join root rest))))) := by
  cases hfull : Glob.parse strict (Glob.absolutize glob root) with
  | error e =>
      intro input text htext
      have happlies (negated : Bool) := applies_single hroot hmark hown negated config input
      rw [hfull] at happlies
      rcases List.mem_cons.1 htext with rfl | htext
      · exact happlies false
      · rw [List.mem_singleton.1 htext]
        exact happlies true
  | ok full =>
      have hiff := complemented_iff hroot hmark hown hfull config
      refine ⟨hiff, fun habsolute hslash hsettled input => ?_, ?_⟩
      · have hsame : Glob.absolutize glob root = glob := by
          rw [Glob.absolutize, Glob.splitNegation_of_head hmark]
          exact (Glob.absolutizePlain_absolute_iff habsolute).2 ⟨hslash, hsettled⟩
        rw [hsame, hown] at hfull
        obtain rfl := Except.ok.inj hfull
        have hwhole : glob.toList.contains '/' = true :=
          List.contains_iff_mem.2 (List.mem_of_mem_head? (Path.isAbsolute_iff.1 habsolute))
        rw [hiff, tried, if_pos hwhole]
      · intro hnormal hslash hglob rest hrest
        rw [hiff, isMatch_join hroot hnormal hslash hmark hglob hown hfull hrest]

theorem applies_negated_name :
    Complemented "/p" (Path.join "/p" "a.css") "*.css" Config.empty ∧
      ¬Complemented "/p" (Path.join "/p" "sub/a.css") "*.css" Config.empty := by
  have hnames : (Glob.parse strict "*.css").toOption.any (fun own =>
      own.isMatch "a.css" && !own.isMatch "sub/a.css") = true := by decide +kernel
  have habsolute : (Glob.parse strict (Glob.absolutize "*.css" "/p")).toOption.isSome = true := by
    decide +kernel
  cases hown : Glob.parse strict "*.css" with
  | error e =>
      rw [hown] at hnames
      cases hnames
  | ok own =>
      have hnegated := @applies_negated "/p" "*.css" (by decide) (by decide) own hown Config.empty
      cases hfull : Glob.parse strict (Glob.absolutize "*.css" "/p") with
      | error e =>
          rw [hfull] at habsolute
          cases habsolute
      | ok full =>
          rw [hfull] at hnegated
          rw [hown] at hnames
          obtain ⟨hfile, hbelow⟩ :
              own.isMatch "a.css" = true ∧ own.isMatch "sub/a.css" = false := by
            simpa [Except.toOption] using hnames
          have hdown : Downward "*.css" :=
            ⟨by decide +kernel, by decide, by decide, by decide⟩
          have hiff := hnegated.2.2 (by decide +kernel) (by decide) hdown
          refine ⟨(hiff "a.css" (by decide)).2 rfl, fun h => ?_⟩
          have hsame : own.isMatch "sub/a.css" = own.isMatch "a.css" :=
            (hiff "sub/a.css" (by decide)).1 h
          rw [hfile, hbelow] at hsame
          cases hsame

/-- Both the glob and its negation apply to a file below a directory below the root. -/
theorem applies_negated_both :
    (Override.mk ["*.css"] Config.empty).applies "/p" "/p/sub/a.css" = .ok true ∧
      (Override.mk ["!*.css"] Config.empty).applies "/p" "/p/sub/a.css" = .ok true ∧
      (Override.mk ["legacy/**"] Config.empty).applies "/p" "/p/legacy/a.css" = .ok true ∧
      (Override.mk ["!legacy/**"] Config.empty).applies "/p" "/p/legacy/a.css" = .ok true := by
  decide +kernel

end Override

end StyleAudit
