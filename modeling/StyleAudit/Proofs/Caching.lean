import StyleAudit.Proofs.Outcomes
import StyleAudit.Proofs.Resolution
import StyleAudit.Proofs.Saving

/-!
What the cache can be trusted with.

Every entry, in memory or saved, stands for a clean lint: there is a text and a configuration that
it holds the fingerprints of, and the text is clean under the configuration. Each step of a run
keeps this, and so does every history of runs and edits. As long as no two of the texts that were
hashed have the same fingerprint, an input that the cache answers for is therefore clean.
-/

namespace StyleAudit

/-- The text that the hash of a configuration is the fingerprint of. -/
def Config.written (c : Config) : String :=
  c.toJson.compact ++ Config.version

theorem Config.StandsAlone.eq_of_written {c d : Config} (hc : c.StandsAlone) (hd : d.StandsAlone)
    (h : c.written = d.written) : c = d :=
  hc.eq_of_compact hd (String.append_left_inj Config.version |>.1 h)

/-- Whether fingerprints tell some texts apart. -/
def CollisionFree (texts : List String) : Prop :=
  ∀ a ∈ texts, ∀ b ∈ texts, fingerprint a = fingerprint b → a = b

instance (texts : List String) : Decidable (CollisionFree texts) :=
  inferInstanceAs (Decidable (∀ a ∈ texts, ∀ b ∈ texts, fingerprint a = fingerprint b → a = b))

namespace LintResult

def Clean (r : LintResult) : Prop :=
  r.warnings = [] ∧ r.errored = false

/-- A result of a lint that was carried out on a sheet. -/
structure Checked (r : LintResult) : Prop where
  fromCache : r.fromCache = false
  parseErrors : r.parseErrors = []
  ignored : r.ignored = false

/-- A result stays one of a lint that was carried out as it grows. -/
theorem Checked.of_growsTo {r t : LintResult} (hr : r.Checked) (h : r.GrowsTo t) : t.Checked := by
  induction h with
  | refl => exact hr
  | push _ w ih => exact ⟨ih.fromCache, ih.parseErrors, ih.ignored⟩
  | invalidOption _ text ih => exact ⟨ih.fromCache, ih.parseErrors, ih.ignored⟩
  | note _ _ _ _ _ _ ih => exact ⟨ih.fromCache, ih.parseErrors, ih.ignored⟩

end LintResult

theorem CheckedSheet.checked_make (r : EffectiveConfig) (registry : Registry)
    (print : Sheet → String) (file : Option String) (sheet : Sheet) :
    (make r registry print file sheet).result.Checked :=
  .of_growsTo ⟨rfl, rfl, rfl⟩ (growsTo_make r registry print file sheet)

/-- The sheet of a file is read from its text. -/
theorem Linter.sheetOf_eq_ok {parser : Parser} {path text linted : String} {cache : Bool}
    {sheet : Sheet} (h : sheetOf parser (.ofFile path cache) (some text) = .ok (sheet, linted)) :
    parser.parse (some path) text = .ok sheet ∧ linted = text := by
  simp only [sheetOf, LintInput.ofFile] at h
  split at h
  case h_1 hsheet =>
      obtain ⟨rfl, rfl⟩ := Prod.mk.inj (Except.ok.inj h)
      exact ⟨hsheet, rfl⟩
  case h_2 => cases h

theorem Linter.checked_of_checkInput {registry : Registry} {i : LintInput} {r : EffectiveConfig}
    {text : Option String} {o : InputOutcome} (h : checkInput registry i r text = .ok o) :
    o.result.Checked := by
  obtain ⟨parser, _, _, -, -, rfl⟩ := checkInput_eq_ok h
  exact CheckedSheet.checked_make _ _ parser.print _ _

def CleanUnder (registry : Registry) (path text : String) (c : Config) : Prop :=
  ∀ {r : EffectiveConfig}, r.CompletedBy registry → r.config = c →
    ∃ o, Linter.checkInput registry (.ofFile path true) r (some text) = .ok o ∧ o.result.Clean

/--
Whether an entry stands for a clean lint: it holds the fingerprints of a text and of a
configuration, both hashed before, under which the text is clean.
-/
def CacheEntry.Sound (registry : Registry) (hashed : List String) (path : String)
    (e : CacheEntry) : Prop :=
  ∃ text c, text ∈ hashed ∧ c.written ∈ hashed ∧ c.StandsAlone ∧
    e = ⟨StyleAudit.fingerprint text, c.hash⟩ ∧ CleanUnder registry path text c

def SoundEntries (registry : Registry) (hashed : List String) (t : Table CacheEntry) : Prop :=
  ∀ (path : String) (e : CacheEntry), t.find? path = some e → e.Sound registry hashed path

section Entries

variable {registry : Registry} {hashed more : List String} {path text : String} {e : CacheEntry}
  {t : Table CacheEntry}

theorem CacheEntry.Sound.mono (h : e.Sound registry hashed path) (hmore : hashed ⊆ more) :
    e.Sound registry more path := by
  obtain ⟨text, c, htext, hc, halone, he, hclean⟩ := h
  exact ⟨text, c, hmore htext, hmore hc, halone, he, hclean⟩

/-- An entry that is sound can be trusted, as long as fingerprints tell apart what was hashed. -/
theorem CacheEntry.Sound.cleanUnder {c : Config}
    (h : CacheEntry.Sound registry hashed path ⟨StyleAudit.fingerprint text, c.hash⟩)
    (hfree : CollisionFree hashed) (htext : text ∈ hashed) (hc : c.written ∈ hashed)
    (halone : c.StandsAlone) : CleanUnder registry path text c := by
  obtain ⟨text', c', htext', hc', halone', he, hclean⟩ := h
  obtain ⟨hprint, hhash⟩ := CacheEntry.mk.inj he
  obtain rfl := hfree text htext text' htext' hprint
  obtain rfl := halone.eq_of_written halone' (hfree c.written hc c'.written hc' hhash)
  exact hclean

namespace SoundEntries

theorem empty : SoundEntries registry hashed [] :=
  fun _ _ h => nomatch h

theorem mono (h : SoundEntries registry hashed t) (hmore : hashed ⊆ more) :
    SoundEntries registry more t :=
  fun path e hfind => (h path e hfind).mono hmore

theorem insertSorted (h : SoundEntries registry hashed t) (he : e.Sound registry hashed path) :
    SoundEntries registry hashed (t.insertSorted path e) := by
  intro other x hfind
  rw [Table.find?_insertSorted] at hfind
  split at hfind
  case isTrue heq =>
      subst heq
      exact Option.some.inj hfind ▸ he
  case isFalse => exact h other x hfind

theorem filter (h : SoundEntries registry hashed t) (keep : String → Bool) :
    SoundEntries registry hashed (t.filter fun (path, _) => keep path) := by
  intro other x hfind
  rw [Table.find?_filter] at hfind
  split at hfind
  case isTrue => exact h other x hfind
  case isFalse => cases hfind

theorem erase (h : SoundEntries registry hashed t) (path : String) :
    SoundEntries registry hashed (t.erase path) :=
  h.filter fun k => k != path

end SoundEntries

end Entries

/-- A session whose caches, in memory and saved, can be trusted. -/
structure Session.Sound (registry : Registry) (hashed : List String) (s : Session) : Prop where
  entries : SoundEntries registry hashed s.cache.entries
  stored {t : Table CacheEntry} (h : s.files.Stores t) : SoundEntries registry hashed t
  enabled : s.cache.enabled = true
  strategy : s.cache.strategy = .content
  memo : s.memo.Named

namespace Session.Sound

variable {registry : Registry} {hashed more : List String} {s : Session} {path : String}
  {e : CacheEntry}

theorem mono (h : s.Sound registry hashed) (hmore : hashed ⊆ more) : s.Sound registry more :=
  ⟨h.entries.mono hmore, fun ht => (h.stored ht).mono hmore, h.enabled, h.strategy, h.memo⟩

theorem tellAll (h : s.Sound registry hashed) (texts : List String) :
    (s.tellAll texts).Sound registry hashed :=
  ⟨h.entries, h.stored, h.enabled, h.strategy, h.memo⟩

theorem tell (h : s.Sound registry hashed) (text : String) :
    (s.tell text).Sound registry hashed :=
  h.tellAll [text]

theorem withFiles (h : s.Sound registry hashed) {fs : FileSystem}
    (hfs : ∀ {t}, fs.Stores t → s.files.Stores t) :
    Session.Sound registry hashed { s with files := fs } :=
  ⟨h.entries, fun ht => h.stored (hfs ht), h.enabled, h.strategy, h.memo⟩

theorem visit (h : s.Sound registry hashed) (path : String) :
    Session.Sound registry hashed { s with cache := s.cache.visit path } := by
  refine ⟨?_, h.stored, ?_, ?_, h.memo⟩
  · rw [Cache.entries_visit]
    exact h.entries
  · rw [Cache.enabled_visit]
    exact h.enabled
  · have hstrategy : (s.cache.visit path).strategy = s.cache.strategy := by
      rw [Cache.visit]
      split <;> rfl
    exact hstrategy.trans h.strategy

theorem evict (h : s.Sound registry hashed) (path : String) :
    Session.Sound registry hashed { s with cache := s.cache.evict path } :=
  ⟨h.entries.erase path, h.stored, h.enabled, h.strategy, h.memo⟩

theorem record (h : s.Sound registry hashed) (he : e.Sound registry hashed path) :
    Session.Sound registry hashed { s with cache := s.cache.record path e } := by
  rw [Cache.record, if_pos h.enabled]
  have hset : Session.Sound registry hashed
      { s with cache := { s.cache with entries := s.cache.entries.insertSorted path e } } :=
    ⟨h.entries.insertSorted he, h.stored, h.enabled, h.strategy, h.memo⟩
  exact hset.visit path

theorem prune (h : s.Sound registry hashed) :
    Session.Sound registry hashed { s with cache := s.cache.prune } :=
  ⟨h.entries.filter s.cache.visited.contains, h.stored, h.enabled, h.strategy, h.memo⟩

end Session.Sound

/-- The session in which the inputs of a run are linted: time has passed. -/
def Session.started (s : Session) : Session :=
  { s with files := s.files.tick }

/-- What looking up configurations changes in a session. -/
structure Session.Learns (s s' : Session) : Prop where
  files : s'.files = s.files
  cache : s'.cache = s.cache
  memo : s'.memo.Named

theorem Session.Sound.learns {registry : Registry} {hashed : List String} {s s' : Session}
    (h : s.Sound registry hashed) (hlearns : s.Learns s') : s'.Sound registry hashed := by
  refine ⟨?_, fun ht => ?_, ?_, ?_, hlearns.memo⟩
  · exact hlearns.cache ▸ h.entries
  · exact h.stored (hlearns.files ▸ ht)
  · exact hlearns.cache ▸ h.enabled
  · exact hlearns.cache ▸ h.strategy

namespace Linter

/-- A linter of files that uses its cache, over plugins that are named. -/
structure Caching (registry : Registry) (l : Linter) : Prop where
  registry_eq : l.registry = registry
  shared : registry.Named
  files : l.options.files.isSome
  code : l.options.code = none
  config (c : Config) (h : l.options.config = some c) : c.Named
  usesCache : l.usesCache = true

section Steps

variable {registry : Registry} {l : Linter} {s s' : Session}

theorem startingConfig_spec (hl : l.Caching registry) (hs : s.memo.Named)
    {path : Option String} {r : Except LintError SourcedConfig}
    (h : l.startingConfig path s = (r, s')) :
    s.Learns s' ∧ ∀ loaded, r = .ok loaded → loaded.config.Named := by
  rw [startingConfig] at h
  split at h
  case h_1 _ _ config hconfig =>
      obtain ⟨rfl, rfl⟩ := Prod.mk.inj h
      refine ⟨⟨rfl, rfl, hs⟩, fun loaded hloaded => ?_⟩
      obtain rfl := Except.ok.inj hloaded
      exact hl.config config hconfig
  case h_2 file _ _ =>
      obtain ⟨rfl, rfl⟩ := Prod.mk.inj h
      exact ⟨⟨rfl, rfl, hs.remember _⟩, fun _ hloaded => hs.load hloaded⟩
  case h_3 =>
      have hsearch : (s.memo.search s.files (path.getD l.cwd)).2.Named ∧
          ∀ found, (s.memo.search s.files (path.getD l.cwd)).1 = .ok (some found) →
            found.config.Named := hs.search _
      split at h
      case h_1 e m heq =>
          rw [heq] at hsearch
          obtain ⟨rfl, rfl⟩ := Prod.mk.inj h
          exact ⟨⟨rfl, rfl, hsearch.1⟩, nofun⟩
      case h_2 loaded m heq =>
          rw [heq] at hsearch
          obtain ⟨rfl, rfl⟩ := Prod.mk.inj h
          refine ⟨⟨rfl, rfl, hsearch.1⟩, fun other hother => ?_⟩
          exact hsearch.2 other (by rw [Except.ok.inj hother])
      case h_3 m heq =>
          rw [heq] at hsearch
          -- Without code there is no second search.
          rw [hl.code] at h
          obtain ⟨rfl, rfl⟩ := Prod.mk.inj h
          exact ⟨⟨rfl, rfl, hsearch.1⟩, nofun⟩

theorem configFor_spec (hl : l.Caching registry) (hs : s.memo.Named) {path : String}
    {r : Except LintError EffectiveConfig} (h : l.configFor (some path) s = (r, s')) :
    s.Learns s' ∧ ∀ c, r = .ok c → c.CompletedBy registry ∧ c.config.StandsAlone := by
  rw [configFor] at h
  split at h
  case h_1 e s₁ hstart =>
      obtain ⟨rfl, rfl⟩ := Prod.mk.inj h
      exact ⟨(startingConfig_spec hl hs hstart).1, nofun⟩
  case h_2 loaded s₁ hstart =>
      obtain ⟨hlearns, hloaded⟩ := startingConfig_spec hl hs hstart
      obtain ⟨rfl, rfl⟩ := Prod.mk.inj h
      refine ⟨⟨hlearns.files, hlearns.cache, hlearns.memo.rememberAll _⟩, fun c hc => ?_⟩
      split at hc
      case h_1 => cases hc
      case h_2 merged t hmerged =>
          obtain ⟨rfl, hcompleted⟩ := ConfigContext.completedBy_of_complete hc
          have hregistry : (l.configContext s₁).registry = registry := hl.registry_eq
          refine ⟨hregistry ▸ hcompleted, ?_⟩
          exact ConfigContext.standsAlone_of_augment (hregistry ▸ hl.shared) hlearns.memo
            (hloaded loaded rfl) hmerged

theorem learns_prepare (cache : Bool) (hl : l.Caching registry) (hs : s.memo.Named)
    (path : String) : s.Learns (l.prepare (.ofFile path cache) s).2 := by
  rw [prepare]
  split
  case h_1 => exact ⟨rfl, rfl, hs⟩
  case h_2 =>
      split
      case isTrue => exact ⟨rfl, rfl, hs⟩
      case isFalse =>
          split
          case h_1 heq => exact (configFor_spec hl hs heq).1
          case h_2 heq => exact (configFor_spec hl hs heq).1

/-- What is ready to be checked is the text of the file, under a configuration that is complete. -/
theorem ready_of_prepare (hl : l.Caching registry) (hs : s.memo.Named) {path : String}
    {cache : Bool} {r : EffectiveConfig} {text : Option String}
    (h : (l.prepare (.ofFile path cache) s).1 = .ok (.ready r text)) :
    r.CompletedBy registry ∧ r.config.StandsAlone ∧
      ∃ t, text = some t ∧ s.files.readText path = .ok t := by
  rcases prepare_eq_ok h with hskipped | ⟨own, s₁, found, hconfig, hready, htext⟩
  · cases hskipped
  · obtain ⟨rfl, rfl⟩ := PreparedInput.ready.inj hready
    obtain ⟨hlearns, hc⟩ := configFor_spec hl hs hconfig
    obtain ⟨t, ht, hread⟩ := textOf_file htext
    obtain ⟨hcompleted, halone⟩ := hc _ rfl
    exact ⟨hcompleted, halone, t, ht, hlearns.files ▸ hread⟩

/-- The entry under which a text is looked up and recorded. -/
def entryFor (r : EffectiveConfig) (text : String) : CacheEntry :=
  ⟨fingerprint text, r.hash⟩

/--
What the second step can do with a file: answer from the cache, report an error of its check, or
check it and bring the cache up to date.
-/
theorem examine_cases (hl : l.Caching registry) {hashed : List String}
    (hs : s.Sound registry hashed) (path : String) (r : EffectiveConfig) (text : String) :
    (s.cache.entries.find? path = some (entryFor r text) ∧
      l.examine (.ofFile path l.usesCache) (.ready r (some text)) s =
        (.ok (.skipped (LintResult.cached path) none), { s with cache := s.cache.visit path })) ∨
    (s.cache.entries.find? path ≠ some (entryFor r text) ∧
      ((∃ e, checkInput registry (.ofFile path true) r (some text) = .error e ∧
        l.examine (.ofFile path l.usesCache) (.ready r (some text)) s =
          (.error e, { s with cache := s.cache.visit path })) ∨
      ∃ o, checkInput registry (.ofFile path true) r (some text) = .ok o ∧
        l.examine (.ofFile path l.usesCache) (.ready r (some text)) s =
          (.ok o, { s with
            cache := updateCache (s.cache.visit path) path (entryFor r text) o.result }))) := by
  have hexamine : l.examine (.ofFile path l.usesCache) (.ready r (some text)) s =
      l.examineCached (.ofFile path true) r (some text) path (entryFor r text) s := by
    have hquery : cacheQuery s (.ofFile path true) r (some text) =
        .ok (some (path, entryFor r text)) := by
      unfold cacheQuery
      simp [LintInput.ofFile, LintInput.cachePath?, Cache.fingerprintOf, hs.strategy, entryFor]
    rw [examine, hl.usesCache, hquery]
  have hcheck : s.cache.check path (entryFor r text) =
      (s.cache.entries.find? path == some (entryFor r text), s.cache.visit path) := by
    rw [Cache.check, if_pos hs.enabled, Cache.isClean, Cache.get?, if_pos hs.enabled]
  rw [hexamine, examineCached, hcheck, hl.registry_eq]
  by_cases hfind : s.cache.entries.find? path = some (entryFor r text)
  · left
    simp [hfind, LintInput.ofFile]
  · right
    refine ⟨hfind, ?_⟩
    cases hresult : checkInput registry (.ofFile path true) r (some text) with
    | error e => exact .inl ⟨e, rfl, by simp [hfind]⟩
    | ok o => exact .inr ⟨o, rfl, by simp [hfind]⟩

/-- Whether a prepared input may be looked up: what its entry stands for was hashed. -/
def Hashes (registry : Registry) (hashed : List String) : PreparedInput → Prop
  | .skipped _ => True
  | .ready r text => r.CompletedBy registry ∧ r.config.StandsAlone ∧
      ∃ t, text = some t ∧ t ∈ hashed ∧ r.config.written ∈ hashed

def hashedFor (l : Linter) (path : String) (s : Session) : List String :=
  match (l.prepare (.ofFile path l.usesCache) s).1 with
  | .ok (.ready r (some text)) => [text, r.config.written]
  | _ => []

theorem hashes_of_prepare (hl : l.Caching registry) (hs : s.memo.Named) {hashed : List String}
    {path : String} {p : PreparedInput} (hhashed : l.hashedFor path s ⊆ hashed)
    (h : (l.prepare (.ofFile path l.usesCache) s).1 = .ok p) : Hashes registry hashed p := by
  cases p with
  | skipped o => trivial
  | ready r text =>
      obtain ⟨hcompleted, halone, t, rfl, -⟩ := ready_of_prepare hl hs h
      rw [hashedFor, h] at hhashed
      exact ⟨hcompleted, halone, t, rfl, hhashed (by simp), hhashed (by simp)⟩

/-- A check that found nothing makes the text clean under the configuration. -/
theorem cleanUnder_of_checkInput {path text : String} {r : EffectiveConfig} {o : InputOutcome}
    (hr : r.CompletedBy registry)
    (h : checkInput registry (.ofFile path true) r (some text) = .ok o) (ho : o.result.Clean) :
    CleanUnder registry path text r.config := by
  intro r' hr' heq
  exact ⟨o, (checkInput_congr hr' hr heq _ _).trans h, ho⟩

theorem sound_updateCache {hashed : List String} (hs : s.Sound registry hashed) {path : String}
    {e : CacheEntry} {result : LintResult}
    (he : result.Clean → e.Sound registry hashed path) :
    Session.Sound registry hashed { s with cache := updateCache s.cache path e result } := by
  rw [updateCache]
  split
  case isTrue hclean =>
      refine hs.record (he ?_)
      simpa [LintResult.Clean] using hclean
  case isFalse => exact hs.evict path

theorem sound_examine (hl : l.Caching registry) {hashed : List String}
    (hs : s.Sound registry hashed) {path : String} {p : PreparedInput}
    (hp : Hashes registry hashed p) :
    (l.examine (.ofFile path l.usesCache) p s).2.Sound registry hashed := by
  match p, hp with
  | .skipped o, _ => exact hs
  | .ready r _, ⟨hcompleted, halone, text, rfl, htext, hconfig⟩ =>
      rcases examine_cases hl hs path r text with
        ⟨-, heq⟩ | ⟨-, ⟨e, -, heq⟩ | ⟨o, hcheck, heq⟩⟩
      · rw [heq]
        exact hs.visit path
      · rw [heq]
        exact hs.visit path
      · rw [heq]
        refine sound_updateCache (hs.visit path) fun hclean => ?_
        refine ⟨text, r.config, htext, hconfig, halone, ?_, ?_⟩
        · rw [entryFor, hcompleted.hash]
        · exact cleanUnder_of_checkInput hcompleted hcheck hclean

theorem sound_resultOfError {hashed : List String} (hs : s.Sound registry hashed)
    (source : Option String) (e : LintError) :
    (resultOfError source e s).2.Sound registry hashed := by
  rw [resultOfError.eq_def]
  split
  · exact hs
  · split
    · exact hs
    · exact hs.tell _

theorem sound_fail {hashed : List String} (hs : s.Sound registry hashed) (path : String)
    (e : LintError) : (fail path e s).2.Sound registry hashed :=
  sound_resultOfError (hs.evict path) _ _

theorem sound_writeBack {hashed : List String} (hs : s.Sound registry hashed) (path : String)
    (o : InputOutcome) : (writeBack path o s).2.Sound registry hashed := by
  rw [writeBack]
  split
  case h_1 =>
      split
      case h_1 => exact hs
      case h_2 changed fs hreplace => exact hs.withFiles (stores_of_replaceText hreplace)
  case h_2 => exact hs

theorem sound_finish {hashed : List String} (hs : s.Sound registry hashed) (path : String)
    (o : Except LintError InputOutcome) : (finish path o s).2.Sound registry hashed := by
  cases o with
  | error e => exact sound_fail hs path e
  | ok o =>
      have hwritten := sound_writeBack hs path o
      rw [finish]
      split
      case h_1 e s₁ heq =>
          rw [heq] at hwritten
          exact sound_fail hwritten path e
      case h_2 r s₁ heq =>
          rw [heq] at hwritten
          exact hwritten

theorem sound_lintFile (hl : l.Caching registry) {hashed : List String}
    (hs : s.Sound registry hashed) {path : String} (hhashed : l.hashedFor path s ⊆ hashed) :
    (l.lintFile path s).2.Sound registry hashed := by
  have hprepared := hs.learns (learns_prepare l.usesCache hl hs.memo path)
  refine sound_finish (s := (l.lintInput (.ofFile path l.usesCache) s).2) ?_ path _
  unfold lintInput
  split
  case h_1 e s₁ heq =>
      rw [heq] at hprepared
      exact hprepared
  case h_2 p s₁ heq =>
      rw [heq] at hprepared
      exact sound_examine hl hprepared (hashes_of_prepare hl hs.memo hhashed (by rw [heq]))

/-- What comes together on the way when a row of paths is linted. -/
def gather (l : Linter) (of : String → Session → List String) :
    List String → Session → List String
  | [], _ => []
  | path :: paths, s => of path s ++ gather l of paths (l.lintFile path s).2

theorem gather_append (l : Linter) (of : String → Session → List String) (xs ys : List String)
    (s : Session) :
    l.gather of (xs ++ ys) s = l.gather of xs s ++ l.gather of ys (l.lintEach xs s).2 := by
  induction xs generalizing s with
  | nil => rfl
  | cons path paths ih => simp [gather, lintEach, ih]

theorem sound_lintEach (hl : l.Caching registry) {hashed : List String}
    (hs : s.Sound registry hashed) {paths : List String}
    (hhashed : l.gather l.hashedFor paths s ⊆ hashed) :
    (l.lintEach paths s).2.Sound registry hashed := by
  induction paths generalizing s with
  | nil => exact hs
  | cons path paths ih =>
      rw [gather, List.append_subset] at hhashed
      exact ih (sound_lintFile hl hs hhashed.1) hhashed.2

theorem learns_lintNothing (hl : l.Caching registry) (hs : s.memo.Named) (found : Discovery) :
    s.Learns (l.lintNothing found s).2 := by
  have hallowed : s.Learns (l.allowsEmptyInput s).2 := by
    rw [allowsEmptyInput]
    split
    case h_1 => exact ⟨rfl, rfl, hs⟩
    case h_2 =>
        split
        case h_1 heq => exact (startingConfig_spec hl hs heq).1
        case h_2 heq => exact (startingConfig_spec hl hs heq).1
        case h_3 loaded s₁ heq =>
            have hlearns := (startingConfig_spec hl hs heq).1
            have hmore (t : Trail) : s.Learns
                { s₁ with memo := (l.configContext s₁).remembered t } :=
              ⟨hlearns.files, hlearns.cache, hlearns.memo.rememberAll _⟩
            dsimp only
            split
            · exact hmore _
            · exact hmore _
  rw [lintNothing]
  split
  case h_1 heq => rwa [heq] at hallowed
  case h_2 heq => rwa [heq] at hallowed
  case h_3 heq => rwa [heq] at hallowed

/-- A save leaves no cache that was not there but its own. -/
theorem stores_save {c : Cache} {fs : FileSystem} {t : Table CacheEntry}
    (h : (c.save fs).1.Stores t) : t = c.entries ∨ fs.Stores t := by
  have hmade {made : FileSystem} (hmade : fs.AddsDirectories made) (ht : made.Stores t) :
      fs.Stores t := by
    obtain ⟨names, modified, hget⟩ := ht
    exact ⟨names, modified, (hmade.stays names).get?_of_file hget⟩
  have hdraft {made drafted : FileSystem} (hmakes : fs.AddsDirectories made)
      (hwrite : made.write c.draftFile (.ofEntries c.entries) = .ok drafted)
      (ht : drafted.Stores t) : t = c.entries ∨ fs.Stores t := by
    rcases FileSystem.Stores.of_write hwrite ht with hnew | hold
    · exact .inl (Content.ofEntries_eq_cache hnew)
    · exact .inr (hmade hmakes hold)
  have hsaves := c.saves_save fs
  generalize (c.save fs).1 = fs' at hsaves h
  generalize (c.save fs).2 = r at hsaves
  cases hsaves with
  | off _ => exact .inr h
  | failed hmakes => exact .inr (hmade hmakes h)
  | stuck hmakes hwrite _ => exact hdraft hmakes hwrite h
  | saved _ hmakes hwrite hrename =>
      exact hdraft hmakes hwrite (FileSystem.Stores.of_rename hrename h)

theorem sound_saveCache {hashed : List String} (hs : s.Sound registry hashed) :
    (l.saveCache s).Sound registry hashed := by
  rw [saveCache]
  split
  case isFalse => exact hs
  case isTrue =>
      rw [Cache.reconcile, if_pos hs.enabled]
      have hsaved : Session.Sound registry hashed
          { s with cache := s.cache.prune, files := (s.cache.prune.save s.files).1 } := by
        refine ⟨hs.prune.entries, fun ht => ?_, hs.enabled, hs.strategy, hs.memo⟩
        rcases stores_save ht with rfl | hold
        · exact hs.prune.entries
        · exact hs.stored hold
      dsimp only
      cases (s.cache.prune.save s.files).2 with
      | ok u => exact hsaved
      | error e => exact hsaved.tell _

def inputs (l : Linter) (s : Session) : List String :=
  match Discovery.run s.files (l.options.files.getD []) l.globDir l.options.keepExcluded with
  | .ok found => found.files.filter fun path => !l.ignorer.ignoresUnder path l.globDir
  | .error _ => []

theorem inputs_of_run {found : Discovery} (h : Discovery.run s.files
    (l.options.files.getD []) l.globDir l.options.keepExcluded = .ok found) :
    l.inputs s = found.files.filter fun path => !l.ignorer.ignoresUnder path l.globDir := by
  rw [inputs, h]

def hashed (l : Linter) (s : Session) : List String :=
  l.gather l.hashedFor (l.inputs s.started) s.started

/-- The results of a run of files with what was found for it, in its session. -/
def lintFound (l : Linter) (found : Discovery) (s : Session) :
    Except LintError (List LintResult) × Session :=
  if (l.inputs s).isEmpty then l.lintNothing found s else l.lintAll (l.inputs s) s

/-- The session in which a run of files looks for them. -/
def opened (l : Linter) (s : Session) : Session :=
  l.discardCache s.started

/-- A run that uses its cache opens it as it is. -/
theorem opened_of_usesCache (h : l.usesCache = true) (s : Session) : l.opened s = s.started := by
  rw [opened, discardCache, if_pos h]

/-- A run of files looks for them, lints them, and saves the cache if that ends well. -/
theorem lint_of_files (hfiles : l.options.files.isSome) (hcode : l.options.code = none)
    (s : Session) :
    l.lint s =
      match Discovery.run (l.opened s).files (l.options.files.getD []) l.globDir
        l.options.keepExcluded with
      | .error e => (.error e, l.opened s)
      | .ok found => l.close (l.lintFound found (l.opened s)) := by
  obtain ⟨entries, hentries⟩ := Option.isSome_iff_exists.1 hfiles
  rw [lint, hentries, hcode]
  change l.lintEntries entries s.started = _
  rw [lintEntries, ← opened, Option.getD_some]
  dsimp only
  cases hfound : Discovery.run (l.opened s).files entries l.globDir l.options.keepExcluded with
  | error e => rfl
  | ok found =>
      have hrun : Discovery.run (l.opened s).files (l.options.files.getD []) l.globDir
          l.options.keepExcluded = .ok found := by
        rw [hentries]
        exact hfound
      dsimp only
      rw [← inputs_of_run hrun, ← lintFound]

theorem lint_eq (hl : l.Caching registry) (s : Session) :
    l.lint s =
      match Discovery.run s.started.files (l.options.files.getD []) l.globDir
        l.options.keepExcluded with
      | .error e => (.error e, s.started)
      | .ok found => l.close (l.lintFound found s.started) := by
  rw [lint_of_files hl.files hl.code, opened_of_usesCache hl.usesCache]

theorem sound_lint (hl : l.Caching registry) {hashed : List String}
    (hs : s.Sound registry hashed) (hhashed : l.hashed s ⊆ hashed) :
    (l.lint s).2.Sound registry hashed := by
  have hstarted : Session.Sound registry hashed s.started := hs.withFiles fun ht => ht
  rw [lint_eq hl]
  split
  case h_1 => exact hstarted
  case h_2 found _ =>
      have hfound : (l.lintFound found s.started).2.Sound registry hashed := by
        rw [lintFound]
        split
        case isTrue => exact hstarted.learns (learns_lintNothing hl hstarted.memo found)
        case isFalse => exact sound_lintEach hl hstarted hhashed
      generalize l.lintFound found s.started = ended at hfound ⊢
      obtain ⟨outcome, t⟩ := ended
      cases outcome with
      | error e => exact hfound
      | ok results => exact sound_saveCache hfound

end Steps

end Linter

end StyleAudit
