import StyleAudit.Config.Resolved

/-!
Which value of a setting is in force for an input.

A value can come from the overrides that match the input, from the options of the run, from the
configuration itself and from the configurations that it builds on. `Effective` says in which
order these are asked, and `ConfigContext.effective_iff_of_augment` that merging, overrides, bases
and options together give just that value.
-/

namespace StyleAudit

inductive Setting : Type → Type
  | rule (name : String) : Setting Json
  | ignoreDisables : Setting Bool
  | quiet : Setting Bool
  | reportNeedlessDisables : Setting Json
  | reportInvalidScopeDisables : Setting Json
  | reportDescriptionlessDisables : Setting Json
  | customSyntax : Setting String
  | fix : Setting Bool
  | defaultSeverity : Setting Severity
  | allowEmptyInput : Setting Bool
  | cache : Setting Bool

variable {α : Type}

namespace Setting

/-- The value that some settings have of their own. A rule that is set to null has one. -/
def get : Setting α → Settings → Option α
  | rule name, s => s.rules.bind (Table.find? name)
  | ignoreDisables, s => s.ignoreDisables
  | quiet, s => s.quiet
  | reportNeedlessDisables, s => s.reportNeedlessDisables
  | reportInvalidScopeDisables, s => s.reportInvalidScopeDisables
  | reportDescriptionlessDisables, s => s.reportDescriptionlessDisables
  | customSyntax, s => s.customSyntax
  | fix, s => s.fix
  | defaultSeverity, s => s.defaultSeverity
  | allowEmptyInput, s => s.allowEmptyInput
  | cache, s => s.cache

/-- The value that the options of a run give, if it is truthy. -/
def option : Setting α → Options → Option α
  | ignoreDisables, o => (some o.ignoreDisables).filter id
  | quiet, o => (some o.quiet).filter id
  | reportNeedlessDisables, o => o.reportNeedlessDisables.filter Json.isTruthy
  | reportInvalidScopeDisables, o => o.reportInvalidScopeDisables.filter Json.isTruthy
  | reportDescriptionlessDisables, o => o.reportDescriptionlessDisables.filter Json.isTruthy
  | customSyntax, o => o.customSyntax.filter (· ≠ "")
  | fix, o => o.fix.filter id
  | rule _, _ => none
  | defaultSeverity, _ => none
  -- These two options steer the run and never become part of a configuration.
  | allowEmptyInput, _ => none
  | cache, _ => none

theorem get_merge (f : Setting α) (base incoming : Settings) :
    f.get (base.merge incoming) = (f.get incoming <|> f.get base) := by
  cases f with
  | rule name =>
      cases hb : base.rules with
      | none => cases hi : incoming.rules <;> simp [get, Settings.merge, mergeRules, hb, hi]
      | some rules =>
          cases hi : incoming.rules with
          | none => simp [get, Settings.merge, mergeRules, hb, hi]
          | some more =>
              simp only [get, Settings.merge, mergeRules, hb, hi, Option.bind_some]
              exact Table.find?_insertAll rules more name
  | _ => rfl

theorem get_anchorPaths (f : Setting α) (c : Config) (dir : String) :
    f.get (c.anchorPaths dir).toSettings = f.get c.toSettings := by
  cases f <;> rfl

theorem get_applyTo (f : Setting α) (o : Options) (c : Config) :
    f.get (o.applyTo c).toSettings = (f.option o <|> f.get c.toSettings) := by
  have truthy (value before : Option Json) :
      Options.truthyOr value before = (value.filter Json.isTruthy <|> before) := by
    cases value with
    | none => rfl
    | some value => by_cases hv : value.isTruthy <;> simp [Options.truthyOr, Option.filter, hv]
  cases f with
  | ignoreDisables =>
      cases ho : o.ignoreDisables <;> simp [get, option, Options.applyTo, Option.filter, ho]
  | quiet => cases ho : o.quiet <;> simp [get, option, Options.applyTo, Option.filter, ho]
  | reportNeedlessDisables => exact truthy _ _
  | reportInvalidScopeDisables => exact truthy _ _
  | reportDescriptionlessDisables => exact truthy _ _
  | customSyntax =>
      cases ho : o.customSyntax with
      | none => simp [get, option, Options.applyTo, ho]
      | some name =>
          by_cases hn : name = "" <;>
            simp [get, option, Options.applyTo, Option.filter, ho, hn]
  | fix =>
      cases ho : o.fix with
      | none => simp [get, option, Options.applyTo, ho]
      | some b => cases b <;> simp [get, option, Options.applyTo, Option.filter, ho]
  | _ => rfl

end Setting

namespace Override

def isFor (o : Override) (rootDir path : String) : Bool :=
  match o.applies rootDir path with
  | .ok applies => applies
  | .error _ => false

end Override

namespace Config

def overridesFor (c : Config) (rootDir path : String) : List Override :=
  c.overrides.filter fun o => o.isFor rootDir path

/-- The bases of a configuration united with those of its overrides that match an input. -/
def basesFor (c : Config) (rootDir path : String) : List Base :=
  (c.overridesFor rootDir path).foldl (fun bases o => keepLast (bases ++ o.config.bases)) c.bases

def lastSet (f : Setting α) : List Override → Option α
  | [] => none
  | o :: os => lastSet f os <|> f.get o.config.toSettings

/--
The first value that is there: that of the last matching override with one, that of the options,
the configuration's own, and that of its bases.
-/
def layered (f : Setting α) (rootDir path : String) (option inherited : Option α) (c : Config) :
    Option α :=
  lastSet f (c.overridesFor rootDir path) <|> option <|> f.get c.toSettings <|> inherited

end Config

/--
The value that a list of bases hands on: that of the last base which has one. A base is asked as
any configuration is, with no options and with the bases that it has for the input itself.
-/
inductive Inherits (s : BaseSources) (rootDir path : String) (f : Setting α) :
    String → List Base → Option α → Prop
  | nil {dir : String} : Inherits s rootDir path f dir [] none
  | inline {dir : String} {c : Config} {bases : List Base} {own later : Option α}
      (howOwn : Inherits s rootDir path f dir (c.basesFor rootDir path) own)
      (howLater : Inherits s rootDir path f dir bases later) :
      Inherits s rootDir path f dir (.inline c :: bases)
        (later <|> c.layered f rootDir path none own)
  | lookup {dir name : String} {found : FoundBase} {bases : List Base} {own later : Option α}
      (hfound : s.find name dir = .ok found)
      (howOwn : Inherits s rootDir path f (found.loaded.dir?.getD dir)
        (found.loaded.config.basesFor rootDir path) own)
      (howLater : Inherits s rootDir path f dir bases later) :
      Inherits s rootDir path f dir (.lookup name :: bases)
        (later <|> found.loaded.config.layered f rootDir path none own)

/-- The value in force of a setting, for a configuration that lies in the directory `dir`. -/
def Effective (s : BaseSources) (rootDir path : String) (f : Setting α) (dir : String)
    (option : Option α) (c : Config) (v : Option α) : Prop :=
  ∃ inherited, Inherits s rootDir path f dir (c.basesFor rootDir path) inherited ∧
    v = c.layered f rootDir path option inherited

section Law

variable {s : BaseSources} {rootDir path : String}

theorem Inherits.unique {f : Setting α} {dir : String} {bases : List Base} {v w : Option α}
    (hv : Inherits s rootDir path f dir bases v) (hw : Inherits s rootDir path f dir bases w) :
    v = w := by
  induction hv generalizing w with
  | nil =>
      cases hw
      rfl
  | inline _ _ ihOwn ihLater =>
      cases hw with
      | inline hown hlater => rw [ihOwn hown, ihLater hlater]
  | lookup hfound _ _ ihOwn ihLater =>
      cases hw with
      | lookup hfound' hown hlater =>
          obtain rfl := Except.ok.inj (hfound.symm.trans hfound')
          rw [ihOwn hown, ihLater hlater]

theorem Effective.unique {f : Setting α} {dir : String} {option : Option α} {c : Config}
    {v w : Option α} (hv : Effective s rootDir path f dir option c v)
    (hw : Effective s rootDir path f dir option c w) : v = w := by
  obtain ⟨a, ha, rfl⟩ := hv
  obtain ⟨b, hb, rfl⟩ := hw
  rw [ha.unique hb]

end Law

/-- Laying a value over something that already lies over it changes nothing. -/
theorem orElse_orElse_self (a b : Option α) : (a <|> b <|> a) = (a <|> b) := by
  cases a <;> cases b <;> rfl

namespace Config

/-- Overrides are laid over a configuration in order, and only those that match. -/
theorem foldOverrides_eq {rootDir path : String} {os : List Override} {c own : Config}
    (h : foldOverrides rootDir path c os = .ok own) :
    own = (os.filter fun o => o.isFor rootDir path).foldl (fun c o => c.merge o.config) c := by
  induction os generalizing c with
  | nil => exact (Except.ok.inj h).symm
  | cons o os ih =>
      rw [foldOverrides] at h
      split at h
      case h_1 => cases h
      case h_2 happlies =>
          have hfor : o.isFor rootDir path = true := by simp [Override.isFor, happlies]
          simpa [List.filter_cons, hfor] using ih h
      case h_3 happlies =>
          have hfor : o.isFor rootDir path = false := by simp [Override.isFor, happlies]
          simpa [List.filter_cons, hfor] using ih h

theorem toSettings_merge (base incoming : Config) :
    (base.merge incoming).toSettings = base.toSettings.merge incoming.toSettings := rfl

theorem get_foldl_merge (f : Setting α) (os : List Override) (c : Config) :
    f.get (os.foldl (fun c o => c.merge o.config) c).toSettings =
      (lastSet f os <|> f.get c.toSettings) := by
  induction os generalizing c with
  | nil => rfl
  | cons o os ih =>
      rw [List.foldl_cons, ih, toSettings_merge, f.get_merge, lastSet, orElse_assoc]

theorem bases_foldl_merge (os : List Override) (c : Config) :
    (os.foldl (fun c o => c.merge o.config) c).bases =
      os.foldl (fun bases o => keepLast (bases ++ o.config.bases)) c.bases := by
  induction os generalizing c with
  | nil => rfl
  | cons o os ih =>
      rw [List.foldl_cons, List.foldl_cons, ih]
      rfl

/-- What a configuration comes to when its overrides for an input are laid over it. -/
theorem forInput_spec {c own : Config} {rootDir path : String}
    (h : c.forInput rootDir path = .ok own) :
    own.overrides = [] ∧ own.bases = c.basesFor rootDir path ∧
      ∀ {α : Type} (f : Setting α), f.get own.toSettings =
        (lastSet f (c.overridesFor rootDir path) <|> f.get c.toSettings) := by
  rw [forInput] at h
  split at h
  case h_1 => cases h
  case h_2 result hfold =>
      obtain rfl := Except.ok.inj h
      have hresult := foldOverrides_eq hfold
      refine ⟨rfl, ?_, ?_⟩
      · rw [hresult, bases_foldl_merge]
        rfl
      · intro α f
        rw [hresult, get_foldl_merge]
        rfl

end Config

/-- A configuration for an input in which nothing is left to work out, with the values in force. -/
structure Config.Settles (s : BaseSources) (rootDir path dir : String) (c result : Config) :
    Prop where
  bases : result.bases = []
  overrides : result.overrides = []
  values {α : Type} (f : Setting α) :
    Effective s rootDir path f dir none c (f.get result.toSettings)

inductive Base.StandsFor (s : BaseSources) (dir : String) : Base → String → Config → Prop
  | inline (c : Config) : StandsFor s dir (.inline c) dir c
  | lookup {name : String} {found : FoundBase} (hfound : s.find name dir = .ok found) :
      StandsFor s dir (.lookup name) (found.loaded.dir?.getD dir) found.loaded.config

section Run

variable {s : BaseSources} {rootDir path : String}

/-- One more base in front gives its value only where no later one has a value. -/
theorem Inherits.cons {f : Setting α} {b : Base} {dir place : String} {c : Config}
    (hb : b.StandsFor s dir place c) {v later : Option α} {bases : List Base}
    (hv : Effective s rootDir path f place none c v)
    (hlater : Inherits s rootDir path f dir bases later) :
    Inherits s rootDir path f dir (b :: bases) (later <|> v) := by
  obtain ⟨own, hown, rfl⟩ := hv
  cases hb with
  | inline => exact .inline hown hlater
  | lookup hfound => exact .lookup hfound hown hlater

namespace Config

theorem bases_merge_eq_nil {base incoming : Config} (hb : base.bases = [])
    (hi : incoming.bases = []) : (base.merge incoming).bases = [] := by
  simp [merge, hb, hi, keepLast]

theorem overrides_merge_eq_nil {base incoming : Config} (hb : base.overrides = [])
    (hi : incoming.overrides = []) : (base.merge incoming).overrides = [] := by
  simp [merge, hb, hi, keepFirst]

/-- Bases that are laid over a configuration one by one hand on the last value that they have. -/
theorem foldBases_spec {dir : String} {bases : List Base} {start result : Config} {t t' : Trail}
    {work : (b : Base) → b ∈ bases → Trail → Except LintError Config × Trail}
    (h : foldBases start t bases work = (.ok result, t'))
    (hbases : start.bases = []) (hoverrides : start.overrides = [])
    (hwork : ∀ b hb t base t', work b hb t = (.ok base, t') →
      ∃ place c, b.StandsFor s dir place c ∧ c.Settles s rootDir path place base) :
    result.bases = [] ∧ result.overrides = [] ∧
      ∀ {α : Type} (f : Setting α), ∃ v, Inherits s rootDir path f dir bases v ∧
        f.get result.toSettings = (v <|> f.get start.toSettings) := by
  induction bases generalizing start t with
  | nil =>
      obtain ⟨hresult, -⟩ := Prod.mk.inj h
      obtain rfl := Except.ok.inj hresult
      exact ⟨hbases, hoverrides, fun f => ⟨none, .nil, rfl⟩⟩
  | cons b bases ih =>
      rw [foldBases] at h
      split at h
      case h_1 => cases h
      case h_2 base t₁ hbase =>
          obtain ⟨place, c, hstands, hsettles⟩ := hwork b _ t base t₁ hbase
          obtain ⟨hb, ho, hvalues⟩ := ih h
            (bases_merge_eq_nil hbases hsettles.bases)
            (overrides_merge_eq_nil hoverrides hsettles.overrides)
            (fun b hb => hwork b (List.mem_cons_of_mem _ hb))
          refine ⟨hb, ho, fun f => ?_⟩
          obtain ⟨later, hlater, hget⟩ := hvalues f
          refine ⟨_, Inherits.cons hstands (hsettles.values f) hlater, ?_⟩
          rw [hget, toSettings_merge, f.get_merge, orElse_assoc]

/--
A configuration whose bases were laid over its bare form, and the bare form over them again, is
settled.
-/
theorem settles_of_folded {dir : String} {c own folded : Config}
    (hown : c.forInput rootDir path = .ok own)
    (hbases : folded.bases = []) (hoverrides : folded.overrides = [])
    (hvalues : ∀ {α : Type} (f : Setting α), ∃ v, Inherits s rootDir path f dir own.bases v ∧
      f.get folded.toSettings = (v <|> f.get own.toSettings)) :
    c.Settles s rootDir path dir
      ((if own.bases.isEmpty then own else folded.merge { own with bases := [] }).anchorPaths
        dir) := by
  obtain ⟨hnone, hfor, hget⟩ := forInput_spec hown
  have hwhole {α : Type} (f : Setting α) {v : Option α}
      (hv : Inherits s rootDir path f dir (c.basesFor rootDir path) v) :
      Effective s rootDir path f dir none c (f.get own.toSettings <|> v) := by
    refine ⟨v, hv, ?_⟩
    rw [hget, orElse_assoc]
    rfl
  split
  case isTrue hempty =>
      have hnil : own.bases = [] := List.isEmpty_iff.1 hempty
      refine ⟨hnil, hnone, fun f => ?_⟩
      rw [f.get_anchorPaths, ← orElse_none (f.get own.toSettings)]
      refine hwhole f ?_
      rw [← hfor, hnil]
      exact .nil
  case isFalse =>
      refine ⟨bases_merge_eq_nil hbases rfl, overrides_merge_eq_nil hoverrides hnone,
        fun f => ?_⟩
      obtain ⟨v, hv, hfolded⟩ := hvalues f
      rw [f.get_anchorPaths, toSettings_merge, f.get_merge, hfolded, orElse_orElse_self]
      refine hwhole f ?_
      rw [← hfor]
      exact hv

variable {enter : Entering}

/-- Entering a base that was looked up settles the configuration that was found. -/
def EnterSettles (s : BaseSources) (rootDir path : String) (enter : Entering) : Prop :=
  ∀ {name dir : String} {found : FoundBase} {t t' : Trail} {result : Config},
    enter name dir found t = (.ok result, t') →
      found.loaded.config.Settles s rootDir path (found.loaded.dir?.getD dir) result

mutual

theorem settles_of_extendWith (henter : EnterSettles s rootDir path enter) {dir : String}
    {c result : Config} {t t' : Trail}
    (h : extendWith ⟨s, rootDir, some path⟩ enter dir c t = (.ok result, t')) :
    c.Settles s rootDir path dir result := by
  rw [extendWith] at h
  split at h
  case h_1 => cases h
  case h_2 own hown =>
      dsimp only at h
      split at h
      case h_1 => cases h
      case h_2 folded t₁ hfold =>
          obtain ⟨hresult, -⟩ := Prod.mk.inj h
          obtain rfl := Except.ok.inj hresult
          obtain ⟨hbases, hoverrides, hvalues⟩ := foldBases_spec hfold rfl (forInput_spec hown).1
            fun b hb t base t' hbase =>
              have := Scope.sizeOf_lt hown hb
              standsFor_of_extendBase henter hbase
          exact settles_of_folded hown hbases hoverrides hvalues
termination_by sizeOf c

/-- Working out a base settles the configuration that it stands for. -/
theorem standsFor_of_extendBase (henter : EnterSettles s rootDir path enter) {dir : String}
    {b : Base} {result : Config} {t t' : Trail}
    (h : extendBase ⟨s, rootDir, some path⟩ enter dir b t = (.ok result, t')) :
    ∃ place c, b.StandsFor s dir place c ∧ c.Settles s rootDir path place result := by
  match b, h with
  | .inline inner, h =>
      rw [extendBase] at h
      exact ⟨dir, inner, .inline inner, settles_of_extendWith henter h⟩
  | .lookup name, h =>
      rw [extendBase] at h
      dsimp only at h
      split at h
      case h_1 => cases h
      case h_2 found hfound =>
          split at h
          case isTrue => cases h
          case isFalse =>
              split at h
              case isTrue => cases h
              case isFalse => exact ⟨_, _, .lookup hfound, henter h⟩
termination_by sizeOf b

end

/-- Working out a configuration for a known input settles it. -/
theorem settles_of_extend {budget : Nat} {dir : String} {c result : Config} {t t' : Trail}
    (h : extend ⟨s, rootDir, some path⟩ budget dir c t = (.ok result, t')) :
    c.Settles s rootDir path dir result := by
  induction budget generalizing dir c result t t' with
  | zero => exact settles_of_extendWith (fun henter => by cases henter) h
  | succ budget ih =>
      refine settles_of_extendWith (fun henter => ?_) h
      obtain ⟨hresult, -⟩ := Prod.mk.inj henter
      exact ih (Prod.ext hresult rfl)

end Config

end Run

/--
Precedence: when a configuration could be worked out for an input, no bases and no overrides are
left in it, and the value of every setting is the one in force by law, with the options of the run
for the configuration that the run began with.
-/
theorem ConfigContext.effective_iff_of_augment {x : ConfigContext} {l : SourcedConfig}
    {path : String} {c : Config} {t : Trail} (h : x.augment l (some path) = (.ok c, t)) :
    c.bases = [] ∧ c.overrides = [] ∧
      ∀ {α : Type} (f : Setting α) (v : Option α),
        Effective x.sources (x.baseDir l) path f (x.baseDir l) (f.option x.options) l.config v ↔
          v = f.get c.toSettings := by
  obtain ⟨hbases, hoverrides, hvalues⟩ := Config.settles_of_extend h
  refine ⟨hbases, hoverrides, fun f v => ?_⟩
  obtain ⟨inherited, hinherited, hget⟩ := hvalues f
  have heffective : Effective x.sources (x.baseDir l) path f (x.baseDir l) (f.option x.options)
      l.config (f.get c.toSettings) := by
    refine ⟨inherited, hinherited, hget.trans ?_⟩
    rw [Config.layered, if_pos rfl, f.get_applyTo]
    simp only [Config.layered, orElse_assoc]
    rfl
  exact ⟨fun hv => hv.unique heffective, fun hv => hv ▸ heffective⟩

/-- A quiet run over a directory with one configuration file; another is known by name. -/
def studio : ConfigContext where
  registry := Registry.empty.addConfig "shared" {
    fix := some true, rules := some [("a", .bool true), ("c", .bool true)]
    bases := [], overrides := [] }
  memo := .empty
  files := ⟨[(["w"], .directory), (["w", "base.json"], .file (.text "\x7b\"fix\": false\x7d") 0)],
    ["w"], 0, []⟩
  options := { quiet := true, cache := some true }
  cwd := "/w"

/-- Its override turns off a rule and adds a base after the one that is there already. -/
def studioConfig : Config where
  rules := some [("a", .nat 1), ("b", .nat 2)]
  quiet := some false
  bases := [.lookup "base.json"]
  overrides := [{
    files := ["*.css"]
    config := { rules := some [("a", .null)], bases := [.lookup "shared"], overrides := [] } }]

theorem effective_iff_of_augment_studio :
    ∃ c t, studio.augment (.inline studioConfig) (some "/w/a.css") = (.ok c, t) ∧
      ∀ v, Effective studio.sources "/w" "/w/a.css" .fix "/w" none studioConfig v ↔
        v = some true := by
  have hfix : (studio.augment (.inline studioConfig) (some "/w/a.css")).1.toOption.map
      (fun c => c.fix) = some (some true) := by decide +kernel
  match hr : studio.augment (.inline studioConfig) (some "/w/a.css") with
  | (.error e, t) =>
      rw [hr] at hfix
      cases hfix
  | (.ok c, t) =>
      rw [hr] at hfix
      refine ⟨c, t, rfl, fun v => ?_⟩
      rw [← Option.some.inj hfix]
      exact (ConfigContext.effective_iff_of_augment hr).2.2 .fix v

/--
An option that only steers the run is not in force as a setting: were `cache` asked for after the
overrides, as `quiet` is, this run would have it on.
-/
theorem cache_option_not_in_force :
    ∃ c t, studio.augment (.inline Config.empty) (some "/w/a.css") = (.ok c, t) ∧
      Effective studio.sources "/w" "/w/a.css" .cache "/w" (studio.options.cache.filter id)
        Config.empty (some true) ∧
      Setting.cache.get c.toSettings = none := by
  have hcache : (studio.augment (.inline Config.empty) (some "/w/a.css")).1.toOption.map
      (fun c => c.cache) = some none := by decide +kernel
  match hr : studio.augment (.inline Config.empty) (some "/w/a.css") with
  | (.error e, t) =>
      rw [hr] at hcache
      cases hcache
  | (.ok c, t) =>
      rw [hr] at hcache
      exact ⟨c, t, rfl, ⟨none, .nil, rfl⟩, Option.some.inj hcache⟩

end StyleAudit
