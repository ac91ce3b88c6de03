import StyleAudit.Config.Resolved
import StyleAudit.Proofs.Extending

/-!
How deep bases may be nested.

Where the look-ups of a configuration form one chain, only their number decides whether the chain
can be followed to its end; inline configurations on the way count for nothing. The file of the
configuration that the work began with stands on the chain and uses up one of its places, so a
configuration without a file may have one look-up more than the limit that the error names.
-/

namespace StyleAudit

namespace Config

structure Link where
  name : String
  key : String

/-- The look-ups that are met in a row of bases, if they form one chain: each of them in the
configuration that the one before it found, behind any number of inline configurations, and none
beside another. -/
inductive Chained (s : Scope) : (dir : String) → List Base → List Link → Prop
  | nil {dir : String} : Chained s dir [] []
  | inline {dir : String} {inner own : Config} {rest : List Base} {inside behind : List Link}
      (hown : s.forInput inner = .ok own) (hinside : Chained s dir own.bases inside)
      (hbehind : Chained s dir rest behind) (hone : inside = [] ∨ behind = []) :
      Chained s dir (.inline inner :: rest) (inside ++ behind)
  | lookup {dir name : String} {found : FoundBase} {own : Config} {rest : List Base}
      {links : List Link} (hfound : s.sources.find name dir = .ok found)
      (hown : s.forInput found.loaded.config = .ok own)
      (hlinks : Chained s (found.loaded.dir?.getD dir) own.bases links)
      (hrest : Chained s dir rest []) :
      Chained s dir (.lookup name :: rest) (⟨name, found.key⟩ :: links)

variable {s : Scope}

/-- A configuration is worked out where its bases are. -/
theorem yields_config_of_bases {dir : String} {c own : Config} {t : Trail}
    (hown : s.forInput c = .ok own)
    (h : ∃ result t', Yields s (.bases dir { own with bases := [] } own.bases) t (.ok result) t') :
    ∃ result t', Yields s (.config dir c) t (.ok result) t' := by
  by_cases hbases : own.bases = []
  · exact ⟨_, _, .config hown (.alone hbases)⟩
  · obtain ⟨result, t', h⟩ := h
    exact ⟨_, _, .config hown (.extending hbases h)⟩

/-- An error in the bases of a configuration is the error of the configuration. -/
theorem yields_config_error {dir : String} {c own : Config} {t : Trail} {e : LintError}
    (hown : s.forInput c = .ok own)
    (h : ∃ t', Yields s (.bases dir { own with bases := [] } own.bases) t (.error e) t') :
    ∃ t', Yields s (.config dir c) t (.error e) t' := by
  obtain ⟨t', h⟩ := h
  have hbases : own.bases ≠ [] := by
    intro hnil
    rw [hnil] at h
    cases h
  exact ⟨t', .config hown (.extending hbases h)⟩

/-- What stands before a row of keys on a chain, and the row itself, split between two links. -/
theorem not_mem_of_nodup_cons {chain keys : List String} {key : String}
    (h : (chain ++ key :: keys).Nodup) : key ∉ chain ∧ (chain ++ [key] ++ keys).Nodup := by
  refine ⟨fun hmem => ?_, by simpa using h⟩
  exact (List.nodup_append.1 h).2.2 key hmem key List.mem_cons_self rfl

/-- A chain of look-ups that fits below the keys of a trail is followed to its end. -/
theorem Chained.yields_ok {dir : String} {bases : List Base} {links : List Link}
    (h : Chained s dir bases links) (acc : Config) (t : Trail)
    (hnodup : (t.chain ++ links.map Link.key).Nodup)
    (hfits : links[maxDepth + 1 - t.chain.length]? = none) :
    ∃ result t', Yields s (.bases dir acc bases) t (.ok result) t' := by
  induction h generalizing acc t with
  | nil => exact ⟨acc, t, .done⟩
  | @inline dir inner own rest inside behind hown _ _ hone ihinside ihbehind =>
      -- One of the two rows of look-ups is empty, so each of them is a part of the whole one.
      have hparts (part : List Link) (hpart : part = inside ∨ part = behind) :
          (t.chain ++ part.map Link.key).Nodup ∧
            part[maxDepth + 1 - t.chain.length]? = none := by
        rcases hone with rfl | rfl <;> rcases hpart with rfl | rfl <;>
          simp_all [List.nodup_append]
      obtain ⟨hinside, hinsideFits⟩ := hparts inside (.inl rfl)
      obtain ⟨hbehind, hbehindFits⟩ := hparts behind (.inr rfl)
      obtain ⟨base, t₁, hbase⟩ := yields_config_of_bases hown (ihinside _ t hinside hinsideFits)
      have hchain : t₁.chain = t.chain := hbase.chain_eq
      obtain ⟨result, t₂, hrest⟩ := ihbehind (acc.merge base) t₁ (by rwa [hchain])
        (by rwa [hchain])
      exact ⟨result, t₂, .laid (.inline hbase) hrest⟩
  | @lookup dir name found own rest links hfound hown _ _ ihlinks ihrest =>
      obtain ⟨hkey, hinside⟩ := not_mem_of_nodup_cons hnodup
      have hlength : t.chain.length ≤ maxDepth := by
        rw [List.getElem?_eq_none_iff, List.length_cons] at hfits
        omega
      obtain ⟨base, t₁, hbase⟩ := yields_config_of_bases hown
        (ihlinks _ ((t.note found).enter found.key) hinside (by
          rw [List.getElem?_eq_none_iff, List.length_cons] at hfits
          rw [List.getElem?_eq_none_iff]
          simp only [Trail.enter, Trail.note, List.length_append, List.length_singleton]
          omega))
      have hentered := Yields.entered hfound hkey hlength hbase
      have hchain := hentered.chain_eq
      obtain ⟨result, t₂, hrest⟩ := ihrest (acc.merge base) t₁.leave
        (by
          rw [hchain]
          simpa using (List.nodup_append.1 hnodup).1)
        (by simp)
      exact ⟨result, t₂, .laid hentered hrest⟩

/-- A chain of look-ups that is too long for the keys of a trail ends in the error that names the
first look-up for which there is no place. -/
theorem Chained.yields_tooDeep {dir : String} {bases : List Base} {links : List Link}
    (h : Chained s dir bases links) (acc : Config) (t : Trail)
    (hnodup : (t.chain ++ links.map Link.key).Nodup) {link : Link}
    (hlink : links[maxDepth + 1 - t.chain.length]? = some link) :
    ∃ t', Yields s (.bases dir acc bases) t
      (.error (.config (.extendsTooDeep maxDepth link.name))) t' := by
  induction h generalizing acc t with
  | nil => simp at hlink
  | @inline dir inner own rest inside behind hown hinside _ hone ihinside ihbehind =>
      rcases hone with rfl | rfl
      · obtain ⟨base, t₁, hbase⟩ := yields_config_of_bases hown
          (hinside.yields_ok _ t (by simpa using (List.nodup_append.1 hnodup).1) (by simp))
        have hchain : t₁.chain = t.chain := hbase.chain_eq
        obtain ⟨t₂, hrest⟩ := ihbehind (acc.merge base) t₁ (by rwa [hchain]) (by rwa [hchain])
        exact ⟨t₂, .laid (.inline hbase) hrest⟩
      · rw [List.append_nil] at hnodup hlink
        obtain ⟨t₁, hbase⟩ := yields_config_error hown (ihinside _ t hnodup hlink)
        exact ⟨t₁, .failed (.inline hbase)⟩
  | @lookup dir name found own rest links hfound hown _ _ ihlinks _ =>
      obtain ⟨hkey, hinside⟩ := not_mem_of_nodup_cons hnodup
      by_cases hlength : t.chain.length ≤ maxDepth
      · have hnext : maxDepth + 1 - t.chain.length =
            maxDepth + 1 - ((t.note found).enter found.key).chain.length + 1 := by
          simp only [Trail.enter, Trail.note, List.length_append, List.length_singleton]
          omega
        rw [hnext, List.getElem?_cons_succ] at hlink
        obtain ⟨t₁, hbase⟩ := yields_config_error hown
          (ihlinks _ ((t.note found).enter found.key) hinside hlink)
        exact ⟨_, .failed (.entered hfound hkey hlength hbase)⟩
      · have hfirst : maxDepth + 1 - t.chain.length = 0 := by omega
        rw [hfirst] at hlink
        obtain rfl := Option.some.inj hlink
        exact ⟨_, .failed (.tooDeep hfound hkey (Nat.lt_of_not_le hlength))⟩

end Config

/-- How many look-ups may be nested below a configuration: one more if it has no file, since no key
stands on the chain before the first of them. -/
def SourcedConfig.maxNesting (l : SourcedConfig) : Nat :=
  if l.file.isSome then Config.maxDepth else Config.maxDepth + 1

/-- The key of the file that the work on a configuration begins with. -/
def SourcedConfig.rootKeys (l : SourcedConfig) : List String :=
  (l.file.map Path.withSlashes).toList

theorem SourcedConfig.maxNesting_eq (l : SourcedConfig) :
    l.maxNesting = Config.maxDepth + 1 - l.rootKeys.length := by
  rw [maxNesting, rootKeys]
  cases l.file <;> rfl

/--
A configuration whose look-ups form a chain without a circle is worked out exactly if there are not
more of them than may be nested below it. If there are more, the first one too many is the one that
the error names.
-/
theorem ConfigContext.augment_of_chained {x : ConfigContext} {l : SourcedConfig}
    {input : Option String} {own : Config} {links : List Config.Link}
    (hown : Config.Scope.forInput ⟨x.sources, x.baseDir l, input⟩ (x.options.applyTo l.config) =
      .ok own)
    (hchain : Config.Chained ⟨x.sources, x.baseDir l, input⟩ (x.baseDir l) own.bases links)
    (hacyclic : (l.rootKeys ++ links.map Config.Link.key).Nodup) :
    ((∃ result, (x.augment l input).1 = .ok result) ↔ links.length ≤ l.maxNesting) ∧
      ∀ link, links[l.maxNesting]? = some link →
        (x.augment l input).1 =
          .error (.config (.extendsTooDeep Config.maxDepth link.name)) := by
  let s : Config.Scope := ⟨x.sources, x.baseDir l, input⟩
  have hyields : Config.Yields s (.config (x.baseDir l) (x.options.applyTo l.config))
      ⟨l.rootKeys, []⟩ (x.augment l input).1 (x.augment l input).2 :=
    Config.yields_extendFrom s _ _ _
  have hdeep (link : Config.Link) (hlink : links[l.maxNesting]? = some link) :
      (x.augment l input).1 = .error (.config (.extendsTooDeep Config.maxDepth link.name)) := by
    rw [l.maxNesting_eq] at hlink
    obtain ⟨t', herror⟩ := Config.yields_config_error hown
      (hchain.yields_tooDeep _ ⟨l.rootKeys, []⟩ hacyclic hlink)
    exact (hyields.unique herror).1
  refine ⟨⟨?_, ?_⟩, hdeep⟩
  · rintro ⟨result, hresult⟩
    refine Nat.le_of_not_lt fun hlong => ?_
    have hlink := List.getElem?_eq_getElem hlong
    exact absurd (hresult.symm.trans (hdeep _ hlink)) nofun
  · intro hshort
    have hfits : links[Config.maxDepth + 1 - l.rootKeys.length]? = none := by
      rw [← l.maxNesting_eq]
      exact List.getElem?_eq_none hshort
    obtain ⟨result, t', hok⟩ := Config.yields_config_of_bases hown
      (hchain.yields_ok _ ⟨l.rootKeys, []⟩ hacyclic hfits)
    exact ⟨result, (hyields.unique hok).1⟩

/-- A look-up of a configuration that is known by name stays in its directory. -/
theorem Config.Chained.shared {s : Config.Scope} {dir name : String} {c own : Config}
    {links : List Config.Link} (hshared : s.sources.shared name = some c)
    (hown : s.forInput c = .ok own) (hlinks : Config.Chained s dir own.bases links) :
    Config.Chained s dir [.lookup name] (⟨name, "config:" ++ name⟩ :: links) := by
  have hfound : s.sources.find name dir = .ok ⟨.inline c, "config:" ++ name⟩ := by
    rw [BaseSources.find, hshared]
  exact .lookup hfound hown hlinks .nil

def rung (name : String) : Config := { Config.empty with bases := [.lookup name] }

/-- Eleven configurations that are known by letters, each but the last built on the next. -/
def ladder : ConfigContext where
  registry := { Registry.empty with
    configs := [("a", rung "b"), ("b", rung "c"), ("c", rung "d"), ("d", rung "e"),
      ("e", rung "f"), ("f", rung "g"), ("g", rung "h"), ("h", rung "i"), ("i", rung "j"),
      ("j", rung "k"), ("k", Config.empty)] }
  memo := .empty
  files := ⟨[], ["w"], 0, []⟩
  options := {}
  cwd := "/w"

/-- Builds on the first letter, behind a configuration of its own. -/
def ladderTop : Config := { Config.empty with bases := [.inline (rung "a")] }

def ladderLinks : List Config.Link :=
  ["a", "b", "c", "d", "e", "f", "g", "h", "i", "j", "k"].map fun name =>
    ⟨name, "config:" ++ name⟩

theorem chained_ladder :
    Config.Chained ⟨ladder.sources, "/w", none⟩ "/w" ladderTop.bases ladderLinks := by
  have hstep (name next : String) (links : List Config.Link)
      (hshared : ladder.sources.shared name = some (rung next))
      (h : Config.Chained ⟨ladder.sources, "/w", none⟩ "/w" [.lookup next] links) :
      Config.Chained ⟨ladder.sources, "/w", none⟩ "/w" [.lookup name]
        (⟨name, "config:" ++ name⟩ :: links) :=
    .shared hshared rfl h
  have hlast : Config.Chained ⟨ladder.sources, "/w", none⟩ "/w" [.lookup "k"]
      [⟨"k", "config:" ++ "k"⟩] :=
    .shared (c := Config.empty) rfl rfl .nil
  have hinside : Config.Chained ⟨ladder.sources, "/w", none⟩ "/w" (rung "a").bases ladderLinks :=
    hstep "a" "b" _ rfl <| hstep "b" "c" _ rfl <| hstep "c" "d" _ rfl <| hstep "d" "e" _ rfl <|
      hstep "e" "f" _ rfl <| hstep "f" "g" _ rfl <| hstep "g" "h" _ rfl <| hstep "h" "i" _ rfl <|
      hstep "i" "j" _ rfl <| hstep "j" "k" _ rfl hlast
  have hown : Config.Scope.forInput ⟨ladder.sources, "/w", none⟩ (rung "a") = .ok (rung "a") := rfl
  exact .inline hown hinside .nil (.inr rfl)

def ladderFile : SourcedConfig := ⟨ladderTop, some "/w/.sheetlintrc"⟩

/-- Eleven look-ups may be nested below a configuration without a file; below one with a file the
last of them is one too many. -/
theorem ConfigContext.augment_of_chained_ladder :
    (ladderFile.rootKeys ++ ladderLinks.map Config.Link.key).Nodup ∧
      ladderLinks.length = Config.maxDepth + 1 ∧
      (∃ result, (ladder.augment (.inline ladderTop) none).1 = .ok result) ∧
      (ladder.augment ladderFile none).1 =
        .error (.config (.extendsTooDeep Config.maxDepth "k")) := by
  have hacyclic : (ladderFile.rootKeys ++ ladderLinks.map Config.Link.key).Nodup := by
    decide +kernel
  have hdir : ladder.baseDir ladderFile = "/w" := by decide +kernel
  have hchain : Config.Chained ⟨ladder.sources, ladder.baseDir ladderFile, none⟩
      (ladder.baseDir ladderFile) ladderTop.bases ladderLinks := by
    rw [hdir]
    exact chained_ladder
  have hinline := augment_of_chained (x := ladder) (l := .inline ladderTop) rfl chained_ladder
    (List.nodup_append.1 hacyclic).2.1
  have hfile := augment_of_chained (x := ladder) (l := ladderFile) rfl hchain hacyclic
  exact ⟨hacyclic, rfl, hinline.1.2 (by decide), hfile.2 ⟨"k", "config:k"⟩ rfl⟩

/-- A chain is followed to its end though its look-ups are nested deeper than the limit, and it is
refused where the same configuration has a file. -/
theorem nested_past_maxDepth :
    Config.Chained ⟨ladder.sources, "/w", none⟩ "/w" ladderTop.bases ladderLinks ∧
      (ladderLinks.map Config.Link.key).Nodup ∧ Config.maxDepth < ladderLinks.length ∧
      (ladder.augment (.inline ladderTop) none).1.isOk = true ∧
      (ladder.augment ladderFile none).1.isOk = false := by
  refine ⟨chained_ladder, ?_⟩
  decide +kernel

end StyleAudit
