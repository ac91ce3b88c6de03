import StyleAudit.Lint.Source
import StyleAudit.Proofs.Naming

/-!
What the configuration for an input is determined by.

The configuration and the registry determine everything that the check of an input depends on.
Working out a configuration reads files and what is remembered of them; the outcome stays the same
as long as the files that were read do.
-/

namespace StyleAudit

/-- What plugins bring does not depend on whether their notices are wanted. -/
theorem Plugin.load_quiet (catalog : Table Plugin) (quiet quiet' : Bool) (functions : Table Rule)
    (entries : List PluginEntry) :
    (load catalog quiet functions entries).2 = (load catalog quiet' functions entries).2 := by
  induction entries generalizing functions with
  | nil => rfl
  | cons entry entries ih =>
      rw [load, load]
      cases resolve catalog entry with
      | error e => rfl
      | ok plugin =>
          dsimp only
          cases addRules plugin.name functions plugin.rules with
          | error e => rfl
          | ok functions => exact ih functions

/-- A configuration that was completed with what a registry holds. -/
structure EffectiveConfig.CompletedBy (registry : Registry) (r : EffectiveConfig) : Prop where
  functions : (Plugin.load registry.plugins false [] r.config.plugins).2 = .ok r.functions
  rules : r.rules = (r.config.ruleSettings fun name =>
    (r.functions.find? name <|> registry.rules.find? name).map Rule.info).1
  hash : r.hash = r.config.hash

theorem ConfigContext.completedBy_of_complete {x : ConfigContext} {file : Option String}
    {c : Config} {r : EffectiveConfig} (h : (x.complete file c).2 = .ok r) :
    r.config = c ∧ r.CompletedBy x.registry := by
  rw [complete] at h
  split at h
  case h_1 => cases h
  case h_2 notices functions hload =>
      split at h
      case isFalse => cases h
      case isTrue =>
          obtain rfl := Except.ok.inj h
          refine ⟨rfl, ?_, rfl, rfl⟩
          rw [Plugin.load_quiet _ _ x.options.quietDeprecations, hload]

/-- The check of an input depends on the configuration and the registry alone. -/
theorem Linter.checkInput_congr {registry : Registry} {r r' : EffectiveConfig}
    (hr : r.CompletedBy registry) (hr' : r'.CompletedBy registry) (h : r.config = r'.config)
    (i : LintInput) (text : Option String) :
    checkInput registry i r text = checkInput registry i r' text := by
  obtain ⟨config, file, functions, rules, hash⟩ := r
  obtain ⟨config', file', functions', rules', hash'⟩ := r'
  obtain rfl : config = config' := h
  obtain rfl : functions = functions' :=
    Except.ok.inj (hr.functions.symm.trans hr'.functions)
  obtain rfl : rules = rules' := hr.rules.trans hr'.rules.symm
  rfl

namespace Config

/--
Where `work` succeeds it only adds to the files that were read, and `work'` comes to the same if
all these files are in `R`.
-/
def Follows (R : String → Prop) (work work' : Trail → Except LintError Config × Trail) : Prop :=
  ∀ (t t' : Trail) (result : Config), work t = (.ok result, t') →
    t.reads ⊆ t'.reads ∧ ((∀ file ∈ t'.reads, R file) → work' t = (.ok result, t'))

section Reads

variable {R : String → Prop}

theorem follows_foldBases {bases : List Base} {start : Config}
    {work work' : (b : Base) → b ∈ bases → Trail → Except LintError Config × Trail}
    (h : ∀ b hb, Follows R (work b hb) (work' b hb)) :
    Follows R (fun t => foldBases start t bases work) fun t => foldBases start t bases work' := by
  intro t t' result hfold
  induction bases generalizing start t with
  | nil =>
      obtain ⟨-, rfl⟩ := Prod.mk.inj hfold
      exact ⟨fun _ hfile => hfile, fun _ => hfold⟩
  | cons b bases ih =>
      dsimp only at hfold
      rw [foldBases] at hfold
      split at hfold
      case h_1 => cases hfold
      case h_2 base t₁ hbase =>
          obtain ⟨hfirst, hsame⟩ := h b _ _ _ _ hbase
          obtain ⟨hrest, hsames⟩ := ih (fun b hb => h b (List.mem_cons_of_mem _ hb)) _ hfold
          refine ⟨fun _ hfile => hrest (hfirst hfile), fun hreads => ?_⟩
          dsimp only
          rw [foldBases, hsame fun file hfile => hreads file (hrest hfile)]
          exact hsames hreads

variable {s s' : BaseSources} {rootDir : String} {input : Option String}
  {enter enter' : Entering}

/-- What is found in `s` is found in `s'` too if its file is in `R`. -/
def FindsAlso (R : String → Prop) (s s' : BaseSources) : Prop :=
  ∀ {name dir : String} {found : FoundBase}, s.find name dir = .ok found →
    (∀ file ∈ found.loaded.file.toList, R file) → s'.find name dir = .ok found

mutual

theorem follows_extendWith (hfind : FindsAlso R s s')
    (henter : ∀ name dir found, Follows R (enter name dir found) (enter' name dir found))
    (dir : String) (c : Config) :
    Follows R (extendWith ⟨s, rootDir, input⟩ enter dir c)
      (extendWith ⟨s', rootDir, input⟩ enter' dir c) := by
  intro t t' result h
  rw [extendWith] at h
  split at h
  case h_1 => cases h
  case h_2 own hown =>
      dsimp only at h
      split at h
      case h_1 => cases h
      case h_2 folded t₁ hfold =>
          obtain ⟨-, rfl⟩ := Prod.mk.inj h
          have hbase (b : Base) (hb : b ∈ own.bases) :
              Follows R (extendBase ⟨s, rootDir, input⟩ enter dir b)
                (extendBase ⟨s', rootDir, input⟩ enter' dir b) := by
            have := Scope.sizeOf_lt hown hb
            exact follows_extendBase hfind henter dir b
          obtain ⟨hmono, hsame⟩ := follows_foldBases hbase _ _ _ hfold
          refine ⟨hmono, fun hreads => ?_⟩
          have hagain := hsame hreads
          dsimp only at hagain
          rw [extendWith]
          split
          case h_1 e he => exact absurd (hown.symm.trans he) nofun
          case h_2 own' hown' =>
              obtain rfl : own = own' := Except.ok.inj (hown.symm.trans hown')
              dsimp only
              rw [hagain]
              exact h
termination_by sizeOf c

theorem follows_extendBase (hfind : FindsAlso R s s')
    (henter : ∀ name dir found, Follows R (enter name dir found) (enter' name dir found))
    (dir : String) (b : Base) :
    Follows R (extendBase ⟨s, rootDir, input⟩ enter dir b)
      (extendBase ⟨s', rootDir, input⟩ enter' dir b) := by
  intro t t' result h
  match b, h with
  | .inline inner, h =>
      rw [extendBase] at h ⊢
      exact follows_extendWith hfind henter dir inner t t' result h
  | .lookup name, h =>
      rw [extendBase] at h
      dsimp only at h
      split at h
      case h_1 => cases h
      case h_2 found hfound =>
          split at h
          case isTrue => cases h
          case isFalse hchain =>
              split at h
              case isTrue => cases h
              case isFalse hdepth =>
                  obtain ⟨hmono, hsame⟩ := henter name dir found _ _ _ h
                  have hnoted : (t.note found).reads ⊆ t'.reads := hmono
                  refine ⟨fun _ hfile => hnoted (List.mem_append_left _ hfile),
                    fun hreads => ?_⟩
                  have hagain := hfind hfound fun file hfile =>
                    hreads file (hnoted (List.mem_append_right _ hfile))
                  rw [extendBase, hagain]
                  dsimp only
                  rw [if_neg hchain, if_neg hdepth]
                  exact hsame hreads
termination_by sizeOf b

end

/-- A configuration comes to the same where the files that it was worked out from do. -/
theorem follows_extend (hfind : FindsAlso R s s') (budget : Nat) (dir : String) (c : Config) :
    Follows R (extend ⟨s, rootDir, input⟩ budget dir c)
      (extend ⟨s', rootDir, input⟩ budget dir c) := by
  induction budget generalizing dir c with
  | zero => exact follows_extendWith hfind (fun _ _ _ _ _ _ h => by cases h) dir c
  | succ budget ih =>
      refine follows_extendWith hfind (fun name dir found => ?_) dir c
      intro t t' result h
      obtain ⟨hresult, rfl⟩ := Prod.mk.inj h
      obtain ⟨hmono, hsame⟩ := ih (found.loaded.dir?.getD dir) found.loaded.config
        _ _ _ (Prod.ext hresult rfl)
      refine ⟨hmono, fun hreads => ?_⟩
      dsimp only
      rw [hsame hreads]

end Reads

end Config

end StyleAudit
