import StyleAudit.Proofs.Everywhere
import StyleAudit.Proofs.Precedence
import StyleAudit.Proofs.Written

/-!
Plugins that are named.

A configuration that comes from a file names its plugins by specifiers, and so does whatever is
worked out of such configurations. `ConfigContext.standsAlone_of_augment` takes this to the merged
configuration for an input, which is then told by its written form.
-/

namespace StyleAudit

theorem Settings.NamesPlugins.merge {base incoming : Settings} (hb : base.NamesPlugins)
    (hi : incoming.NamesPlugins) : (base.merge incoming).NamesPlugins := by
  intro p hp
  rcases List.mem_append.1 (mem_of_mem_keepFirst hp) with hp | hp
  · exact hb p hp
  · exact hi p hp

/-- A configuration that names its plugins, as do all configurations within it. -/
inductive Config.Named : Config → Prop
  | intro {c : Config} (hplugins : c.toSettings.NamesPlugins)
      (hbases : ∀ inner, Base.inline inner ∈ c.bases → Named inner)
      (hoverrides : ∀ o ∈ c.overrides, Named o.config) : Named c

namespace Config

namespace Named

variable {c : Config}

theorem plugins (h : c.Named) : c.toSettings.NamesPlugins := by
  cases h with
  | intro hplugins _ _ => exact hplugins

theorem base (h : c.Named) {inner : Config} (hb : .inline inner ∈ c.bases) : inner.Named := by
  cases h with
  | intro _ hbases _ => exact hbases inner hb

theorem override (h : c.Named) {o : Override} (ho : o ∈ c.overrides) : o.config.Named := by
  cases h with
  | intro _ _ hoverrides => exact hoverrides o ho

theorem merge {base incoming : Config} (hb : base.Named) (hi : incoming.Named) :
    (base.merge incoming).Named := by
  refine .intro (hb.plugins.merge hi.plugins) (fun inner hinner => ?_) (fun o ho => ?_)
  · rcases mem_bases_merge hinner with h | h
    · exact hb.base h
    · exact hi.base h
  · rcases List.mem_append.1 (mem_of_mem_keepFirst ho) with h | h
    · exact hb.override h
    · exact hi.override h

theorem withoutBases (h : c.Named) : { c with bases := [] : Config }.Named :=
  .intro h.plugins (fun _ hb => nomatch hb) fun _ ho => h.override ho

theorem withoutOverrides (h : c.Named) : { c with overrides := [] : Config }.Named :=
  .intro h.plugins (fun _ hb => h.base hb) fun _ ho => nomatch ho

/-- Paths of plugins are made absolute, and stay specifiers. -/
theorem anchorPaths (h : c.Named) (dir : String) : (c.anchorPaths dir).Named := by
  refine .intro (fun p hp => ?_) (fun _ hb => h.base hb) fun _ ho => h.override ho
  obtain ⟨q, hq, rfl⟩ := List.mem_map.1 hp
  obtain ⟨specifier, rfl⟩ := h.plugins q hq
  by_cases hpath : Path.namesPath specifier
  · exact ⟨_, if_pos hpath⟩
  · exact ⟨_, if_neg hpath⟩

theorem applyTo (h : c.Named) (o : Options) : (o.applyTo c).Named :=
  .intro h.plugins (fun _ hb => h.base hb) fun _ ho => h.override ho

theorem foldOverrides {rootDir path : String} {os : List Override} {own : Config}
    (hc : c.Named) (hos : ∀ o ∈ os, o.config.Named)
    (h : Config.foldOverrides rootDir path c os = .ok own) : own.Named := by
  rw [foldOverrides_eq h]
  clear h
  induction os generalizing c with
  | nil => exact hc
  | cons o os ih =>
      have hrest : ∀ o ∈ os, o.config.Named := fun o ho => hos o (List.mem_cons_of_mem _ ho)
      rw [List.filter_cons]
      split
      · exact ih (hc.merge (hos o List.mem_cons_self)) hrest
      · exact ih hc hrest

theorem forInput {s : Scope} {own : Config} (hc : c.Named) (h : s.forInput c = .ok own) :
    own.Named := by
  unfold Scope.forInput at h
  split at h
  case h_1 path _ =>
      rw [Config.forInput] at h
      split at h
      case h_1 => cases h
      case h_2 result hfold =>
          obtain rfl := Except.ok.inj h
          exact (hc.withoutOverrides.foldOverrides (fun o ho => hc.override ho)
            hfold).withoutOverrides
  case h_2 =>
      obtain rfl := Except.ok.inj h
      exact hc

end Named

end Config

def BaseSources.Named (s : BaseSources) : Prop :=
  ∀ {name dir : String} {found : FoundBase}, s.find name dir = .ok found →
    found.loaded.config.Named

namespace Config

section Extends

variable {s : Scope} {enter : Entering}

theorem Named.foldBases {bases : List Base} {start result : Config} {t t' : Trail}
    {work : (b : Base) → b ∈ bases → Trail → Except LintError Config × Trail}
    (hstart : start.Named)
    (hwork : ∀ b hb t base t', work b hb t = (.ok base, t') → base.Named)
    (h : Config.foldBases start t bases work = (.ok result, t')) : result.Named := by
  induction bases generalizing start t with
  | nil =>
      obtain ⟨hresult, -⟩ := Prod.mk.inj h
      exact Except.ok.inj hresult ▸ hstart
  | cons b bases ih =>
      rw [Config.foldBases] at h
      split at h
      case h_1 => cases h
      case h_2 base t₁ hbase =>
          exact ih (hstart.merge (hwork b _ t base t₁ hbase))
            (fun b hb => hwork b (List.mem_cons_of_mem _ hb)) h

/-- Entering a base that was looked up gives a configuration that names its plugins. -/
def EnterNamed (enter : Entering) : Prop :=
  ∀ {name dir : String} {found : FoundBase} {t t' : Trail} {result : Config},
    found.loaded.config.Named → enter name dir found t = (.ok result, t') → result.Named

mutual

theorem Named.extendWith (hs : s.sources.Named) (henter : EnterNamed enter) {dir : String}
    {c result : Config} {t t' : Trail} (hc : c.Named)
    (h : Config.extendWith s enter dir c t = (.ok result, t')) : result.Named := by
  rw [Config.extendWith] at h
  split at h
  case h_1 => cases h
  case h_2 own hown =>
      dsimp only at h
      have hnamed := hc.forInput hown
      split at h
      case h_1 => cases h
      case h_2 folded t₁ hfold =>
          obtain ⟨hresult, -⟩ := Prod.mk.inj h
          obtain rfl := Except.ok.inj hresult
          refine Named.anchorPaths ?_ dir
          split
          case isTrue => exact hnamed
          case isFalse =>
              refine Named.merge (Named.foldBases hnamed.withoutBases ?_ hfold) hnamed.withoutBases
              intro b hb t base t' hbase
              have := Scope.sizeOf_lt hown hb
              exact Named.extendBase hs henter (fun inner hinner => hnamed.base (hinner ▸ hb))
                hbase
termination_by sizeOf c

theorem Named.extendBase (hs : s.sources.Named) (henter : EnterNamed enter) {dir : String}
    {b : Base} {result : Config} {t t' : Trail} (hb : ∀ inner, b = .inline inner → inner.Named)
    (h : Config.extendBase s enter dir b t = (.ok result, t')) : result.Named := by
  match b, hb, h with
  | .inline inner, hb, h =>
      rw [Config.extendBase] at h
      exact Named.extendWith hs henter (hb inner rfl) h
  | .lookup name, hb, h =>
      rw [Config.extendBase] at h
      dsimp only at h
      split at h
      case h_1 => cases h
      case h_2 found hfound =>
          split at h
          case isTrue => cases h
          case isFalse =>
              split at h
              case isTrue => cases h
              case isFalse => exact henter (hs hfound) h
termination_by sizeOf b

end

theorem Named.extend {budget : Nat} (hs : s.sources.Named) {dir : String} {c result : Config}
    {t t' : Trail} (hc : c.Named) (h : Config.extend s budget dir c t = (.ok result, t')) :
    result.Named := by
  induction budget generalizing dir c result t t' with
  | zero => exact hc.extendWith hs (fun _ henter => by cases henter) h
  | succ budget ih =>
      refine hc.extendWith hs (fun hfound henter => ?_) h
      obtain ⟨hresult, -⟩ := Prod.mk.inj henter
      exact ih hfound (Prod.ext hresult rfl)

end Extends

end Config

theorem Config.named_of_everywhere {c : Config} (h : c.Everywhere Settings.NamesPlugins) :
    c.Named := by
  induction h with
  | intro own _ _ ihbases ihoverrides => exact .intro own ihbases ihoverrides

/-- A configuration that is read from a text can name its plugins only. -/
theorem Config.named_of_ofText {text : String} {c : Config} (h : Config.ofText text = .ok c) :
    c.Named := by
  obtain ⟨v, hv, -⟩ := ofText_eq_ok h
  apply named_of_everywhere
  exact everywhere_of_ofJson Json.inherited_true (fun _ hs => hs.plugins) trivial hv

namespace SourcedConfig

variable {fs : FileSystem} {path dir : String} {l : SourcedConfig}

theorem named_of_read (h : read fs path = .ok l) : l.config.Named := by
  rw [read] at h
  split at h
  case h_1 => cases h
  case h_2 =>
      split at h
      case h_1 => cases h
      case h_2 config hconfig =>
          obtain rfl := Except.ok.inj h
          exact Config.named_of_ofText hconfig

theorem named_of_search (h : search fs dir = .ok (some l)) : l.config.Named := by
  rw [search] at h
  split at h
  case h_1 => cases h
  case h_2 file _ =>
      cases hread : read fs file with
      | error e =>
          rw [hread] at h
          cases h
      | ok found =>
          rw [hread] at h
          obtain rfl := Option.some.inj (Except.ok.inj h)
          exact named_of_read hread

end SourcedConfig

structure ConfigMemo.Named (m : ConfigMemo) : Prop where
  searches {key : String} {l : SourcedConfig} (h : m.searches.find? key = some (some l)) :
    l.config.Named
  files {key : String} {l : SourcedConfig} (h : m.files.find? key = some l) : l.config.Named

namespace ConfigMemo

variable {m : ConfigMemo} {fs : FileSystem}

theorem named_empty : empty.Named :=
  ⟨nofun, nofun⟩

theorem Named.load (hm : m.Named) {path : String} {l : SourcedConfig}
    (h : m.load fs path = .ok l) : l.config.Named := by
  rw [ConfigMemo.load] at h
  split at h
  case h_1 found hfound => exact Except.ok.inj h ▸ hm.files hfound
  case h_2 => exact SourcedConfig.named_of_read h

theorem Named.remember (hm : m.Named) (path : String) : (remember fs m path).Named := by
  rw [ConfigMemo.remember]
  split
  case h_1 found _ hread =>
      refine ⟨hm.searches, fun {key l} h => ?_⟩
      rw [Table.find?_insert] at h
      split at h
      · exact Option.some.inj h ▸ SourcedConfig.named_of_read hread
      · exact hm.files h
  case h_2 => exact hm

theorem Named.rememberAll (hm : m.Named) (paths : List String) :
    (rememberAll fs m paths).Named := by
  rw [ConfigMemo.rememberAll]
  induction paths generalizing m with
  | nil => exact hm
  | cons path paths ih => exact ih (hm.remember path)

/-- A search finds what names its plugins and remembers nothing else. -/
theorem Named.search (hm : m.Named) (path : String) :
    (m.search fs path).2.Named ∧
      ∀ l, (m.search fs path).1 = .ok (some l) → l.config.Named := by
  rw [ConfigMemo.search]
  split
  case h_1 found hfound =>
      refine ⟨hm, fun l h => ?_⟩
      obtain rfl := Except.ok.inj h
      exact hm.searches hfound
  case h_2 =>
      split
      case h_1 => exact ⟨hm, fun _ h => by cases h⟩
      case h_2 found hsearch =>
          have hfound (l : SourcedConfig) (h : found = some l) : l.config.Named :=
            SourcedConfig.named_of_search (h ▸ hsearch)
          refine ⟨⟨fun {key l} h => ?_, hm.files⟩, fun l h => hfound l (Except.ok.inj h)⟩
          rw [Table.find?_insert] at h
          split at h
          · exact hfound l (Option.some.inj h)
          · exact hm.searches h

end ConfigMemo

def Registry.Named (r : Registry) : Prop :=
  ∀ (name : String) (c : Config), r.configs.find? name = some c → c.Named

theorem BaseSources.named_ofFiles {registry : Registry} {m : ConfigMemo} (hr : registry.Named)
    (hm : m.Named) (fs : FileSystem) (cwd : String) : (ofFiles registry m fs cwd).Named := by
  intro name dir found h
  rw [find] at h
  split at h
  case h_1 config hconfig =>
      obtain rfl := Except.ok.inj h
      exact hr name config hconfig
  case h_2 =>
      split at h
      case h_1 => cases h
      case h_2 =>
          dsimp only at h
          split at h
          case h_1 => cases h
          case h_2 l hload =>
              obtain rfl := Except.ok.inj h
              exact hm.load hload

/-- The merged configuration for an input stands alone. -/
theorem ConfigContext.standsAlone_of_augment {x : ConfigContext} {l : SourcedConfig}
    {path : String} {c : Config} {t : Trail} (hregistry : x.registry.Named) (hmemo : x.memo.Named)
    (hl : l.config.Named) (h : x.augment l (some path) = (.ok c, t)) : c.StandsAlone := by
  have hsettles := Config.settles_of_extend h
  have hnamed : c.Named :=
    Config.Named.extend (BaseSources.named_ofFiles hregistry hmemo x.files x.cwd)
      (hl.applyTo x.options) h
  exact ⟨hsettles.bases, hsettles.overrides, hnamed.plugins⟩

end StyleAudit
