import StyleAudit.Proofs.Extending
import StyleAudit.Proofs.Merging
import StyleAudit.Proofs.Resolution
import StyleAudit.Registry.Stock

/-!
Which plugin a rule comes from.

Of two plugins with a rule of one name the later one wins. A configuration lists its own plugins
first and those of its bases after them, each at its first place. So a plugin that only a base
lists wins over the plugins of the configuration itself, which is not how rules and other settings
behave.
-/

namespace StyleAudit

/-! ## Rules by name -/

/-- The rule that an entry brings under a name: the last one that its plugin has. -/
def PluginEntry.rule? (catalog : Table Plugin) (name : String) (p : PluginEntry) : Option Rule :=
  match Plugin.resolve catalog p with
  | .ok plugin => Table.find? name plugin.rules.reverse
  | .error _ => none

/-- The rule that the last of some entries brings under a name. -/
def Plugin.lastRule? (catalog : Table Plugin) (name : String) : List PluginEntry → Option Rule
  | [] => none
  | p :: ps => lastRule? catalog name ps <|> p.rule? catalog name

namespace Plugin

variable {catalog : Table Plugin} {name : String}

theorem lastRule?_append (ps qs : List PluginEntry) :
    lastRule? catalog name (ps ++ qs) =
      (lastRule? catalog name qs <|> lastRule? catalog name ps) := by
  induction ps with
  | nil => rw [List.nil_append, lastRule?, orElse_none]
  | cons p ps ih => rw [List.cons_append, lastRule?, lastRule?, ih, orElse_assoc]

theorem lastRule?_eq_none {ps : List PluginEntry} (h : ∀ p ∈ ps, p.rule? catalog name = none) :
    lastRule? catalog name ps = none := by
  induction ps with
  | nil => rfl
  | cons p ps ih =>
      obtain ⟨hp, hps⟩ := List.forall_mem_cons.1 h
      rw [lastRule?, ih hps, hp]
      rfl

/-- A later rule of a plugin replaces an earlier one of its name. -/
theorem find?_addRules {plugin : String} {rules : List (String × Rule)}
    {functions result : Table Rule} (h : addRules plugin functions rules = .ok result) :
    Table.find? name result =
      (Table.find? name rules.reverse <|> Table.find? name functions) := by
  induction rules generalizing functions with
  | nil =>
      obtain rfl := Except.ok.inj h
      rfl
  | cons rule rules ih =>
      obtain ⟨key, rule⟩ := rule
      rw [addRules] at h
      split at h
      case isTrue => cases h
      case isFalse =>
          split at h
          case isTrue => cases h
          case isFalse =>
              rw [ih h, Table.find?_insert, List.reverse_cons, Table.find?_append, orElse_assoc]
              by_cases hkey : key = name
              · simp [Table.find?, hkey]
              · simp [Table.find?, hkey]

/-- A later plugin replaces the rules of an earlier one. -/
theorem find?_load {quiet : Bool} {entries : List PluginEntry} {functions result : Table Rule}
    (h : (load catalog quiet functions entries).2 = .ok result) :
    Table.find? name result =
      (lastRule? catalog name entries <|> Table.find? name functions) := by
  induction entries generalizing functions with
  | nil =>
      obtain rfl := Except.ok.inj h
      rfl
  | cons entry entries ih =>
      rw [load] at h
      split at h
      case h_1 => cases h
      case h_2 plugin hplugin =>
          dsimp only at h
          split at h
          case h_1 => cases h
          case h_2 added hadded =>
              have hrule : entry.rule? catalog name = Table.find? name plugin.rules.reverse := by
                rw [PluginEntry.rule?, hplugin]
              rw [ih h, find?_addRules hadded, lastRule?, hrule, orElse_assoc]

end Plugin

/-! ## Plugins of a configuration and of its bases -/

def PluginEntry.anchored (dir : String) : PluginEntry → PluginEntry
  | .lookup specifier =>
    if Path.namesPath specifier then .lookup (Path.withSlashes (Path.absolutize specifier dir))
    else .lookup specifier
  | entry => entry

theorem Config.plugins_anchorPaths (c : Config) (dir : String) :
    (c.anchorPaths dir).plugins = c.plugins.map (PluginEntry.anchored dir) := by
  apply List.map_congr_left
  rintro (specifier | ⟨handle, plugin⟩) _ <;> rfl

namespace Config

/-- The plugins that a configuration lists itself. If it has bases, each stands at its first
place. -/
def ownPlugins (own : Config) : List PluginEntry :=
  if own.bases = [] then own.plugins else keepFirst [] own.plugins

/-- The plugins that only the bases of a configuration list, each at its first place. -/
def freshPlugins (own : Config) (bases : List Config) : List PluginEntry :=
  keepFirst own.plugins (bases.flatMap fun base => base.plugins)

/-- What the bases of a configuration come to, one after the other. -/
inductive BasesYield (s : Scope) (dir : String) : Trail → List Base → List Config → Trail → Prop
  | nil {t : Trail} : BasesYield s dir t [] [] t
  | cons {b : Base} {rest : List Base} {base : Config} {bases : List Config} {t t₁ t' : Trail}
      (hbase : Yields s (.base dir b) t (.ok base) t₁) (h : BasesYield s dir t₁ rest bases t') :
      BasesYield s dir t (b :: rest) (base :: bases) t'

variable {s : Scope} {dir : String} {t t' : Trail}

/-- Bases are laid over a configuration in order. -/
theorem Yields.basesYield {acc result : Config} {rest : List Base}
    (h : Yields s (.bases dir acc rest) t (.ok result) t') :
    ∃ bases, BasesYield s dir t rest bases t' ∧ result = bases.foldl Config.merge acc := by
  induction rest generalizing acc t with
  | nil =>
      cases h with
      | done => exact ⟨[], .nil, rfl⟩
  | cons b rest ih =>
      cases h with
      | laid hbase h =>
          obtain ⟨bases, hbases, rfl⟩ := ih h
          exact ⟨_ :: bases, .cons hbase hbases, rfl⟩

theorem plugins_foldl_merge (acc last : Config) (bases : List Config) :
    ((bases.foldl Config.merge acc).merge last).plugins =
      keepFirst [] (acc.plugins ++ (bases.flatMap fun base => base.plugins) ++ last.plugins) := by
  induction bases generalizing acc with
  | nil => simp [merge, Settings.merge]
  | cons base bases ih =>
      have hmerge : (acc.merge base).plugins = keepFirst [] (acc.plugins ++ base.plugins) := rfl
      rw [List.foldl_cons, ih, hmerge, List.append_assoc (keepFirst _ _),
        keepFirst_keepFirst_append fun _ _ _ => PluginEntry.same_trans]
      simp

/-- A configuration lists its own plugins and then those that only its bases list. -/
theorem plugins_foldl_merge_self {own : Config} (hbases : own.bases ≠ []) (bases : List Config) :
    ((bases.foldl Config.merge { own with bases := [] }).merge { own with bases := [] }).plugins =
      own.ownPlugins ++ own.freshPlugins bases := by
  have htrans : ∀ p q r : PluginEntry, (p == q) = true → (q == r) = true → (p == r) = true :=
    fun _ _ _ => PluginEntry.same_trans
  have hagain : keepFirst (own.plugins ++ own.freshPlugins bases) own.plugins = [] := by
    apply keepFirst_eq_nil
    intro p hp
    rw [List.contains_append, List.contains_iff_exists_mem_beq.2 ⟨p, hp, p.same_refl⟩]
    rfl
  rw [plugins_foldl_merge, ownPlugins, if_neg hbases, List.append_assoc,
    keepFirst_nil_append htrans, keepFirst_append]
  change keepFirst [] own.plugins ++ (own.freshPlugins bases ++
    keepFirst (own.plugins ++ own.freshPlugins bases) own.plugins) = _
  rw [hagain, List.append_nil]

theorem map_eq_ok {α β : Type} {f : α → β} {r : Except LintError α} {b : β}
    (h : .ok b = r.map f) : ∃ a, r = .ok a ∧ b = f a := by
  cases r with
  | error e => cases h
  | ok a => exact ⟨a, rfl, Except.ok.inj h⟩

theorem Yields.plugins_of_extending {own result : Config}
    (h : Yields s (.extending dir own) t (.ok result) t') :
    ∃ bases, BasesYield s dir t own.bases bases t' ∧
      result.plugins = own.ownPlugins ++ own.freshPlugins bases := by
  generalize hr : Except.ok result = r at h
  cases h with
  | alone hbases =>
      obtain rfl := Except.ok.inj hr
      refine ⟨[], ?_, ?_⟩
      · rw [hbases]
        exact .nil
      · rw [ownPlugins, if_pos hbases]
        exact (List.append_nil _).symm
  | extending hbases h =>
      obtain ⟨folded, rfl, rfl⟩ := map_eq_ok hr
      obtain ⟨bases, hyield, rfl⟩ := h.basesYield
      exact ⟨bases, hyield, plugins_foldl_merge_self hbases bases⟩

/-- The plugins of a configuration that was worked out, from those that it lists itself and those
of what its bases come to. -/
theorem Yields.plugins_eq {c whole : Config}
    (h : Yields s (.config dir c) t (.ok whole) t') :
    ∃ own bases, s.forInput c = .ok own ∧ BasesYield s dir t own.bases bases t' ∧
      whole.plugins =
        (own.ownPlugins ++ own.freshPlugins bases).map (PluginEntry.anchored dir) := by
  generalize hr : Except.ok whole = r at h
  cases h with
  | refused => cases hr
  | config hown h =>
      obtain ⟨result, rfl, rfl⟩ := map_eq_ok hr
      obtain ⟨bases, hyield, hplugins⟩ := h.plugins_of_extending
      refine ⟨_, bases, hown, hyield, ?_⟩
      rw [plugins_anchorPaths, hplugins]

/-- No plugin is listed twice, neither in a configuration nor among those of its bases. -/
def ListsApart (own : Config) (bases : List Config) : Prop :=
  (own.plugins ++ bases.flatMap fun base => base.plugins).Pairwise fun p q => (q == p) = false

theorem ownPlugins_of_pairwise {own : Config}
    (h : own.plugins.Pairwise fun p q => (q == p) = false) : own.ownPlugins = own.plugins := by
  rw [ownPlugins, keepFirst_eq_self (by simp) h, ite_self]

theorem ListsApart.freshPlugins_eq {own : Config} {bases : List Config}
    (h : own.ListsApart bases) :
    own.freshPlugins bases = bases.flatMap fun base => base.plugins := by
  obtain ⟨-, hbases, hacross⟩ := List.pairwise_append.1 h
  apply keepFirst_eq_self _ hbases
  intro q hq
  rw [Bool.eq_false_iff]
  intro hcontains
  obtain ⟨p, hp, heq⟩ := List.contains_iff_exists_mem_beq.1 hcontains
  rw [hacross p hp q hq] at heq
  cases heq

end Config

theorem Plugin.lastRule?_flatMap {catalog : Table Plugin} {name : String} (dir : String)
    (bases : List Config) :
    lastRule? catalog name
        ((bases.flatMap fun base => base.plugins).map (PluginEntry.anchored dir)) =
      bases.reverse.findSome? fun base =>
        lastRule? catalog name (base.plugins.map (PluginEntry.anchored dir)) := by
  induction bases with
  | nil => rfl
  | cons base bases ih =>
      rw [List.flatMap_cons, List.map_append, lastRule?_append, ih, List.reverse_cons,
        List.findSome?_append, List.findSome?_singleton]
      cases bases.reverse.findSome? fun base =>
        lastRule? catalog name (base.plugins.map (PluginEntry.anchored dir)) <;> rfl

/--
The rule that plugins bring under a name to the configuration for an input. Those plugins that only
its bases list win over those that it lists itself. So its own plugins are sure to win only if it
lists all plugins of its bases that bring the name. Where no plugin is listed twice, a later base
wins over an earlier one, and each of them over the configuration itself.
-/
theorem ConfigContext.functions_of_resolve {x : ConfigContext} {l : SourcedConfig}
    {input : Option String} {notices : List String} {r : EffectiveConfig} {t : Trail}
    (h : x.resolve l input = (notices, .ok r, t)) :
    let dir := x.baseDir l
    let scope : Config.Scope := ⟨x.sources, dir, input⟩
    let ruleOf (name : String) (plugins : List PluginEntry) : Option Rule :=
      Plugin.lastRule? x.registry.plugins name (plugins.map (PluginEntry.anchored dir))
    ∃ own bases, scope.forInput (x.options.applyTo l.config) = .ok own ∧
      Config.BasesYield scope dir ⟨(l.file.map Path.withSlashes).toList, []⟩ own.bases bases t ∧
      (own.plugins.Pairwise (fun p q => (q == p) = false) → own.ownPlugins = own.plugins) ∧
      ∀ name,
        Table.find? name r.functions =
            (ruleOf name (own.freshPlugins bases) <|> ruleOf name own.ownPlugins) ∧
          ((∀ base ∈ bases, ∀ p ∈ base.plugins,
              ruleOf name [p] = none ∨ own.plugins.contains p = true) →
            Table.find? name r.functions = ruleOf name own.ownPlugins) ∧
          (own.ListsApart bases →
            Table.find? name r.functions =
              ((bases.reverse.findSome? fun base => ruleOf name base.plugins) <|>
                ruleOf name own.plugins)) := by
  intro dir scope ruleOf
  rw [resolve] at h
  split at h
  case h_1 => cases h
  case h_2 c t₁ haugment =>
      obtain ⟨-, hresult⟩ := Prod.mk.inj h
      obtain ⟨hcomplete, rfl⟩ := Prod.mk.inj hresult
      obtain ⟨hconfig, hcompleted⟩ := completedBy_of_complete hcomplete
      have hyields := Config.yields_extendFrom scope dir (x.options.applyTo l.config)
        (l.file.map Path.withSlashes).toList
      have haugmented : Config.extendFrom scope dir (x.options.applyTo l.config)
        (l.file.map Path.withSlashes).toList = (.ok c, t₁) := haugment
      rw [haugmented] at hyields
      obtain ⟨own, bases, hown, hbases, hplugins⟩ := hyields.plugins_eq
      have hlaw : ∀ name, Table.find? name r.functions =
          (ruleOf name (own.freshPlugins bases) <|> ruleOf name own.ownPlugins) := by
        intro name
        rw [Plugin.find?_load hcompleted.functions, hconfig, hplugins, List.map_append,
          Plugin.lastRule?_append]
        exact orElse_none _
      refine ⟨own, bases, hown, hbases, Config.ownPlugins_of_pairwise, ?_⟩
      intro name
      refine ⟨hlaw name, ?_, ?_⟩
      · intro hlisted
        have hfresh : ruleOf name (own.freshPlugins bases) = none := by
          apply Plugin.lastRule?_eq_none
          intro q hq
          obtain ⟨p, hp, rfl⟩ := List.mem_map.1 hq
          obtain ⟨base, hbase, hmem⟩ := List.mem_flatMap.1 (mem_of_mem_keepFirst hp)
          rcases hlisted base hbase p hmem with hnone | hcontains
          · exact hnone
          · rw [contains_eq_false_of_mem_keepFirst hp] at hcontains
            cases hcontains
        rw [hlaw name, hfresh]
        rfl
      · intro hapart
        have hown := Config.ownPlugins_of_pairwise (List.pairwise_append.1 hapart).1
        rw [hlaw name, hown, hapart.freshPlugins_eq]
        exact congrArg (· <|> ruleOf name own.plugins) (Plugin.lastRule?_flatMap dir bases)

def stockContext : ConfigContext where
  registry := Registry.stock
  memo := .empty
  files := .empty "w" 0
  options := {}
  cwd := "/w"

/-- A configuration that lists plugins itself, and whose bases list others. -/
def acmeConfig (own : List String) (bases : List (List String)) : Config where
  plugins := own.map PluginEntry.lookup
  rules := some [("acme/no-empty", .bool true)]
  bases := bases.map fun names =>
    .inline { plugins := names.map PluginEntry.lookup, bases := [], overrides := [] }
  overrides := []

/-- Whether the rule that is in force under a name is one that edits. -/
def ConfigContext.fixableRule? (x : ConfigContext) (c : Config) (name : String) : Option Bool :=
  (x.resolve (.inline c) none).2.1.toOption.bind fun r =>
    (Table.find? name r.functions).map fun rule => rule.info.fixable

theorem ConfigContext.functions_of_resolve_acme :
    ∃ notices r t, stockContext.resolve
        (.inline (acmeConfig ["sheetlint-plugin-acme"] [["acme-two"], ["legacy-plugin"]])) none =
          (notices, .ok r, t) ∧
      (∃ rule, Table.find? "acme/no-empty" r.functions = some rule ∧ rule.info.fixable = true) ∧
      ∃ (own : Config) (bases : List Config),
        Config.BasesYield ⟨stockContext.sources, "/w", none⟩ "/w" ⟨[], []⟩ own.bases bases t ∧
        Table.find? "acme/no-empty" r.functions =
          (Plugin.lastRule? Registry.stock.plugins "acme/no-empty"
              ((own.freshPlugins bases).map (PluginEntry.anchored "/w")) <|>
            Plugin.lastRule? Registry.stock.plugins "acme/no-empty"
              (own.ownPlugins.map (PluginEntry.anchored "/w"))) := by
  have hfixable : stockContext.fixableRule?
      (acmeConfig ["sheetlint-plugin-acme"] [["acme-two"], ["legacy-plugin"]]) "acme/no-empty" =
        some true := by decide +kernel
  rw [fixableRule?] at hfixable
  match hr : stockContext.resolve
      (.inline (acmeConfig ["sheetlint-plugin-acme"] [["acme-two"], ["legacy-plugin"]])) none with
  | (notices, .error e, t) =>
      rw [hr] at hfixable
      cases hfixable
  | (notices, .ok r, t) =>
      rw [hr] at hfixable
      obtain ⟨own, bases, -, hbases, -, hlaw⟩ := functions_of_resolve hr
      exact ⟨notices, r, t, rfl, Option.map_eq_some_iff.1 hfixable, own, bases, hbases,
        (hlaw "acme/no-empty").1⟩

/--
A plugin of a base wins over the one that the configuration lists itself, and so does a plugin of
an earlier base over that of a later one, which was listed before: were they not to win, the rule
would be the one that edits nothing.
-/
theorem base_plugin_wins :
    let included := acmeConfig ["sheetlint-plugin-acme"] [["acme-two"]]
    let later := acmeConfig [] [["sheetlint-plugin-acme", "acme-two"], ["sheetlint-plugin-acme"]]
    (Plugin.lastRule? Registry.stock.plugins "acme/no-empty" included.plugins).map
        (fun rule => rule.info.fixable) = some false ∧
      stockContext.fixableRule? included "acme/no-empty" = some true ∧
      stockContext.fixableRule? later "acme/no-empty" = some true := by
  decide +kernel

end StyleAudit
