import StyleAudit.Lint.Batch
import StyleAudit.Proofs.Remembering

/-!
What a step of one path has to do with another path.

A step reads and changes the file of its path and the entry of its path in the cache. It reads
configuration files besides, and remembers them. So it leaves alone what other paths read, and it
comes to the same in all sessions in which its own path finds the same.
-/

namespace StyleAudit

open FileSystem (AgreeOutside)

/-- Two caches that are kept in the same way and have the same under some paths. -/
structure Cache.AgreeOn (K : Set String) (a b : Cache) : Prop where
  file : a.file = b.file
  strategy : a.strategy = b.strategy
  enabled : a.enabled = b.enabled
  entry {path : String} (h : path ∈ K) : a.entries.find? path = b.entries.find? path
  visited {path : String} (h : path ∈ K) : path ∈ a.visited ↔ path ∈ b.visited

namespace Cache

theorem mem_visited_visit {c : Cache} {path other : String} :
    other ∈ (c.visit path).visited ↔ other = path ∨ other ∈ c.visited := by
  rw [visit]
  split
  case isTrue h =>
      have hmem : path ∈ c.visited := by simpa using h
      constructor
      · exact .inr
      · rintro (rfl | hother)
        · exact hmem
        · exact hother
  case isFalse => simp [or_comm]

@[simp] theorem file_visit (c : Cache) (path : String) : (c.visit path).file = c.file := by
  rw [visit]
  split <;> rfl

theorem file_record (c : Cache) (path : String) (now : CacheEntry) :
    (c.record path now).file = c.file := by
  rw [record]
  split
  · exact file_visit _ _
  · rfl

theorem file_check (c : Cache) (path : String) (now : CacheEntry) :
    (c.check path now).2.file = c.file := by
  rw [check]
  split
  · exact file_visit _ _
  · rfl

@[simp] theorem strategy_visit (c : Cache) (path : String) :
    (c.visit path).strategy = c.strategy := by
  rw [visit]
  split <;> rfl

namespace AgreeOn

variable {K L : Set String} {a b c : Cache}

theorem refl (K : Set String) (a : Cache) : AgreeOn K a a :=
  ⟨rfl, rfl, rfl, fun _ => rfl, fun _ => .rfl⟩

theorem symm (h : AgreeOn K a b) : AgreeOn K b a :=
  ⟨h.file.symm, h.strategy.symm, h.enabled.symm, fun hpath => (h.entry hpath).symm,
    fun hpath => (h.visited hpath).symm⟩

theorem trans (hab : AgreeOn K a b) (hbc : AgreeOn K b c) : AgreeOn K a c :=
  ⟨hab.file.trans hbc.file, hab.strategy.trans hbc.strategy, hab.enabled.trans hbc.enabled,
    fun hpath => (hab.entry hpath).trans (hbc.entry hpath),
    fun hpath => (hab.visited hpath).trans (hbc.visited hpath)⟩

theorem mono (h : AgreeOn K a b) (hLK : L ⊆ K) : AgreeOn L a b :=
  ⟨h.file, h.strategy, h.enabled, fun hpath => h.entry (hLK hpath),
    fun hpath => h.visited (hLK hpath)⟩

theorem visit (h : AgreeOn K a b) (path : String) : AgreeOn K (a.visit path) (b.visit path) := by
  refine ⟨by simpa using h.file, by simpa using h.strategy, by simpa using h.enabled, ?_, ?_⟩
  · intro other hother
    rw [entries_visit, entries_visit]
    exact h.entry hother
  · intro other hother
    rw [mem_visited_visit, mem_visited_visit, h.visited hother]

theorem visit_self (a : Cache) (path : String) : AgreeOn {path}ᶜ a (a.visit path) := by
  refine ⟨by simp, by simp, by simp, fun _ => by simp, fun {other} hother => ?_⟩
  have hne : other ≠ path := hother
  rw [mem_visited_visit, or_iff_right hne]

/-- The same entry under a path of both. -/
theorem entries_both (h : AgreeOn K a b) {t u : Table CacheEntry} {path : String}
    {e : Option CacheEntry}
    (ht : ∀ other, t.find? other = if path = other then e else a.entries.find? other)
    (hu : ∀ other, u.find? other = if path = other then e else b.entries.find? other) :
    AgreeOn K { a with entries := t } { b with entries := u } := by
  refine ⟨h.file, h.strategy, h.enabled, fun {other} hother => ?_, h.visited⟩
  rw [ht, hu, h.entry hother]

theorem entries_self {t : Table CacheEntry} {path : String} {e : Option CacheEntry}
    (ht : ∀ other, t.find? other = if path = other then e else a.entries.find? other) :
    AgreeOn {path}ᶜ a { a with entries := t } := by
  refine ⟨rfl, rfl, rfl, fun {other} hother => ?_, fun _ => .rfl⟩
  rw [ht, if_neg fun heq => hother heq.symm]

theorem evict (h : AgreeOn K a b) (path : String) : AgreeOn K (a.evict path) (b.evict path) :=
  h.entries_both (Table.find?_erase _ _) (Table.find?_erase _ _)

theorem evict_self (a : Cache) (path : String) : AgreeOn {path}ᶜ a (a.evict path) :=
  entries_self (Table.find?_erase _ _)

theorem record (h : AgreeOn K a b) (path : String) (e : CacheEntry) :
    AgreeOn K (a.record path e) (b.record path e) := by
  rw [Cache.record, Cache.record]
  by_cases ha : a.enabled
  · rw [if_pos ha, if_pos (h.enabled ▸ ha)]
    exact (h.entries_both (Table.find?_insertSorted _ _ · _)
      (Table.find?_insertSorted _ _ · _)).visit path
  · rw [if_neg ha, if_neg (h.enabled ▸ ha)]
    exact h

theorem record_self (a : Cache) (path : String) (e : CacheEntry) :
    AgreeOn {path}ᶜ a (a.record path e) := by
  rw [Cache.record]
  split
  case isTrue =>
      exact (entries_self (Table.find?_insertSorted _ _ · _)).trans (visit_self _ path)
  case isFalse => exact .refl _ _

theorem check (h : AgreeOn K a b) (path : String) (e : CacheEntry) :
    AgreeOn K (a.check path e).2 (b.check path e).2 := by
  rw [Cache.check, Cache.check, ← h.enabled]
  split
  case isTrue => exact h.visit path
  case isFalse => exact h

theorem check_self (a : Cache) (path : String) (e : CacheEntry) :
    AgreeOn {path}ᶜ a (a.check path e).2 := by
  rw [Cache.check]
  split
  case isTrue => exact visit_self a path
  case isFalse => exact .refl _ _

theorem clean_check (h : AgreeOn K a b) {path : String} (hpath : path ∈ K) (e : CacheEntry) :
    (a.check path e).1 = (b.check path e).1 := by
  have hget : a.get? path = b.get? path := by rw [get?, get?, h.enabled, h.entry hpath]
  rw [Cache.check, Cache.check, isClean, isClean, hget, ← h.enabled]
  split <;> rfl

theorem updateCache (h : AgreeOn K a b) (path : String) (e : CacheEntry) (r : LintResult) :
    AgreeOn K (Linter.updateCache a path e r) (Linter.updateCache b path e r) := by
  rw [Linter.updateCache, Linter.updateCache]
  split
  case isTrue => exact h.record path e
  case isFalse => exact h.evict path

theorem updateCache_self (a : Cache) (path : String) (e : CacheEntry) (r : LintResult) :
    AgreeOn {path}ᶜ a (Linter.updateCache a path e r) := by
  rw [Linter.updateCache]
  split
  case isTrue => exact record_self a path e
  case isFalse => exact evict_self a path

end AgreeOn

end Cache

/-- What is left of an entry when the cache is pruned. -/
theorem Cache.find?_prune (c : Cache) (path : String) :
    c.prune.entries.find? path = if path ∈ c.visited then c.entries.find? path else none := by
  rw [prune, Table.find?_filter]
  simp only [List.contains_iff_mem]

/-- Pruning leaves no entry that was not there. -/
theorem Cache.find?_of_prune {c : Cache} {path : String} {e : CacheEntry}
    (h : c.prune.entries.find? path = some e) : c.entries.find? path = some e := by
  rw [find?_prune] at h
  split at h
  case isTrue => exact h
  case isFalse => cases h

/-- Caches that agree on a path agree on what is left of its entry. -/
theorem Cache.AgreeOn.find?_prune {K : Set String} {a b : Cache} (h : AgreeOn K a b)
    {path : String} (hpath : path ∈ K) :
    a.prune.entries.find? path = b.prune.entries.find? path := by
  rw [Cache.find?_prune, Cache.find?_prune, h.entry hpath]
  simp only [h.visited hpath]

/-- Two sessions with the same files outside some places and the same caches under some paths. -/
structure Session.AgreeOn (D : Set (List String)) (K : Set String) (s t : Session) : Prop where
  files : s.files.AgreeOutside D t.files
  now : s.files.now = t.files.now
  cache : s.cache.AgreeOn K t.cache

namespace Session.AgreeOn

variable {D E : Set (List String)} {K L : Set String} {s t u : Session}

theorem refl (D : Set (List String)) (K : Set String) (s : Session) : AgreeOn D K s s :=
  ⟨.refl _ _, rfl, .refl _ _⟩

theorem symm (h : AgreeOn D K s t) : AgreeOn D K t s :=
  ⟨h.files.symm, h.now.symm, h.cache.symm⟩

theorem trans (hst : AgreeOn D K s t) (htu : AgreeOn D K t u) : AgreeOn D K s u :=
  ⟨hst.files.trans htu.files, hst.now.trans htu.now, hst.cache.trans htu.cache⟩

theorem mono (h : AgreeOn D K s t) (hDE : D ⊆ E) (hLK : L ⊆ K) : AgreeOn E L s t :=
  ⟨h.files.mono hDE, h.now, h.cache.mono hLK⟩

end Session.AgreeOn

namespace Linter

variable {l : Linter} {D : Set (List String)} {K : Set String} {s t : Session} {path : String}

section Examine

theorem cacheQuery_congr (h : s.AgreeOn D K t) (hpath : s.files.Spares D path)
    (r : EffectiveConfig) (text : Option String) :
    cacheQuery s (.ofFile path l.usesCache) r text =
      cacheQuery t (.ofFile path l.usesCache) r text := by
  have hfingerprint (text : String) : s.cache.fingerprintOf s.files path text =
      t.cache.fingerprintOf t.files path text := by
    rw [Cache.fingerprintOf, Cache.fingerprintOf, h.cache.strategy, h.files.stat hpath]
  unfold cacheQuery
  split
  case h_1 own text hown =>
      obtain rfl : path = own := by
        rw [LintInput.cachePath?] at hown
        split at hown
        · exact Option.some.inj hown
        · cases hown
      rw [hfingerprint]
  case h_2 => rfl

theorem path_of_cacheQuery {r : EffectiveConfig} {text : Option String} {own : String}
    {e : CacheEntry} (h : cacheQuery s (.ofFile path l.usesCache) r text = .ok (some (own, e))) :
    own = path := by
  unfold cacheQuery at h
  split at h
  case h_1 found text hfound =>
      rw [LintInput.cachePath?] at hfound
      split at hfound
      case isTrue =>
          obtain rfl := Option.some.inj hfound
          split at h
          · cases h
          · exact (Prod.mk.inj (Option.some.inj (Except.ok.inj h))).1.symm
      case isFalse => cases hfound
  case h_2 => cases h

/-- An input is examined in the same way wherever its path finds the same. -/
theorem examine_congr (h : s.AgreeOn D K t) (hpath : s.files.Spares D path) (hK : path ∈ K)
    (p : PreparedInput) :
    (l.examine (.ofFile path l.usesCache) p s).1 = (l.examine (.ofFile path l.usesCache) p t).1 ∧
      (l.examine (.ofFile path l.usesCache) p s).2.AgreeOn D K
        (l.examine (.ofFile path l.usesCache) p t).2 := by
  cases p with
  | skipped o => exact ⟨rfl, h⟩
  | ready r text =>
      rw [examine, examine, ← cacheQuery_congr h hpath]
      split
      case h_1 => exact ⟨rfl, h⟩
      case h_2 => exact ⟨rfl, h⟩
      case h_3 own e hquery =>
          obtain rfl := path_of_cacheQuery hquery
          rw [examineCached, examineCached]
          have hclean := h.cache.clean_check hK e
          have hcache := h.cache.check own e
          rcases hs : s.cache.check own e with ⟨clean, c⟩
          rcases ht : t.cache.check own e with ⟨clean', c'⟩
          rw [hs, ht] at hclean hcache
          obtain rfl : clean = clean' := hclean
          dsimp only
          cases clean with
          | true => exact ⟨rfl, h.files, h.now, hcache⟩
          | false =>
              cases checkInput l.registry (.ofFile own l.usesCache) r text with
              | error e => exact ⟨rfl, h.files, h.now, hcache⟩
              | ok o => exact ⟨rfl, h.files, h.now, hcache.updateCache own e o.result⟩

/-- Examining an input changes at most its own entry in the cache. -/
theorem examine_frame (l : Linter) (path : String) (p : PreparedInput) (s : Session) :
    ∃ c, (l.examine (.ofFile path l.usesCache) p s).2 = { s with cache := c } ∧
      s.cache.AgreeOn {path}ᶜ c := by
  cases p with
  | skipped o => exact ⟨s.cache, rfl, .refl _ _⟩
  | ready r text =>
      rw [examine]
      split
      case h_1 => exact ⟨s.cache, rfl, .refl _ _⟩
      case h_2 => exact ⟨s.cache, rfl, .refl _ _⟩
      case h_3 own e hquery =>
          obtain rfl := path_of_cacheQuery hquery
          rw [examineCached]
          have hcache := Cache.AgreeOn.check_self s.cache own e
          rcases hs : s.cache.check own e with ⟨clean, c⟩
          rw [hs] at hcache
          cases clean with
          | true => exact ⟨c, rfl, hcache⟩
          | false =>
              cases checkInput l.registry (.ofFile own l.usesCache) r text with
              | error e => exact ⟨c, rfl, hcache⟩
              | ok o => exact ⟨_, rfl, hcache.trans (.updateCache_self c own e o.result)⟩

end Examine

section Finish

theorem fail_congr (h : s.AgreeOn D K t) (path : String) (e : LintError) :
    (fail path e s).1 = (fail path e t).1 ∧ (fail path e s).2.AgreeOn D K (fail path e t).2 := by
  obtain ⟨notices, hs⟩ := session_fail path e s
  obtain ⟨notices', ht⟩ := session_fail path e t
  rw [hs, ht]
  exact ⟨resultOfError_congr _ _ _ _, h.files, h.now, h.cache.evict path⟩

/-- A path that fails changes at most its own entry in the cache. -/
theorem fail_frame (path : String) (e : LintError) (s : Session) :
    s.AgreeOn D {path}ᶜ (fail path e s).2 ∧ (fail path e s).2.memo = s.memo := by
  obtain ⟨notices, hs⟩ := session_fail path e s
  rw [hs]
  exact ⟨⟨.refl _ _, rfl, .evict_self _ _⟩, rfl⟩

/-- A path is finished in the same way wherever it finds the same. -/
theorem finish_congr (h : s.AgreeOn D K t) (hpath : Discovery.Spelled path)
    (hspares : s.files.Spares D path) {o : Except LintError InputOutcome}
    (hread : ∀ out fixed, o = .ok out → rewritten? out = some fixed →
      ∃ text, s.files.readText path = .ok text) :
    (finish path o s).1 = (finish path o t).1 ∧
      (finish path o s).2.AgreeOn D K (finish path o t).2 := by
  cases o with
  | error e => exact fail_congr h path e
  | ok o =>
      cases hfixed : rewritten? o with
      | none =>
          rw [finish_of_kept hfixed, finish_of_kept hfixed]
          exact ⟨rfl, h⟩
      | some fixed =>
          obtain ⟨text, hs⟩ := hread o fixed rfl hfixed
          have ht : t.files.readText path = .ok text := (h.files.readText hspares).symm.trans hs
          obtain ⟨names, hnames, hfile, hfinish⟩ := finish_of_rewritten hpath hs
          obtain ⟨place, hplace, -, hfinish'⟩ := finish_of_rewritten hpath ht
          obtain rfl : names = place :=
            Except.ok.inj (hnames.symm.trans ((h.files.locate path).trans hplace))
          have hne : names ≠ [] := by
            rintro rfl
            cases hfile
          rw [hfinish o fixed hfixed, hfinish' o fixed hfixed, ← h.files.draftFault?, ← h.now]
          cases s.files.draftFault? path with
          | some fault => exact fail_congr h path _
          | none => exact ⟨rfl, h.files.set_both hne _, h.now, h.cache⟩

/-- Finishing a path changes at most its own file and its own entry in the cache. -/
theorem finish_frame (hpath : Discovery.Spelled path) {o : Except LintError InputOutcome}
    (hread : ∀ out fixed, o = .ok out → rewritten? out = some fixed →
      ∃ text, s.files.readText path = .ok text) :
    s.AgreeOn (s.files.placesOf [path]) {path}ᶜ (finish path o s).2 ∧
      (finish path o s).2.memo = s.memo := by
  cases o with
  | error e => exact fail_frame path e s
  | ok o =>
      cases hfixed : rewritten? o with
      | none =>
          rw [finish_of_kept hfixed]
          exact ⟨.refl _ _ _, rfl⟩
      | some fixed =>
          obtain ⟨text, hs⟩ := hread o fixed rfl hfixed
          obtain ⟨names, hnames, hfile, hfinish⟩ := finish_of_rewritten hpath hs
          rw [hfinish o fixed hfixed]
          cases s.files.draftFault? path with
          | some fault => exact fail_frame path _ s
          | none =>
              refine ⟨⟨(AgreeOutside.set hfile _ _).mono ?_, rfl, .refl _ _⟩, rfl⟩
              rintro _ rfl
              exact ⟨path, List.mem_singleton_self _, hnames⟩

end Finish

/--
How far a path can have come on its own from the start of a run, and the session that this leaves.
-/
inductive Reaches (l : Linter) (path : String) (s : Session) : PathStage → Session → Prop
  | waiting : Reaches l path s .waiting s
  | prepared {p : Except LintError PreparedInput} {t : Session}
      (hprepare : l.prepare (.ofFile path l.usesCache) s = (p, t)) :
      Reaches l path s (.prepared p) t
  | examined {p : Except LintError PreparedInput} {t : Session}
      {o : Except LintError InputOutcome} {u : Session}
      (hprepare : l.prepare (.ofFile path l.usesCache) s = (p, t))
      (hexamine : l.advance path (.prepared p) t = (.examined o, u)) :
      Reaches l path s (.examined o) u
  | done : Reaches l path s (.done (l.lintFile path s).1) (l.lintFile path s).2

theorem advance_prepared (l : Linter) (path : String) (p : Except LintError PreparedInput)
    (s : Session) : ∃ o t, l.advance path (.prepared p) s = (.examined o, t) := by
  cases p with
  | error e => exact ⟨_, _, rfl⟩
  | ok p => exact ⟨_, _, rfl⟩

/-- A step of a path on its own gets it further on its own. -/
theorem Reaches.advance {stage : PathStage} (h : Reaches l path s stage t)
    (hopen : stage.isDone = false) :
    Reaches l path s (l.advance path stage t).1 (l.advance path stage t).2 := by
  cases h with
  | waiting => exact .prepared rfl
  | prepared hprepare =>
      obtain ⟨o, u, hexamine⟩ := l.advance_prepared path _ t
      rw [hexamine]
      exact .examined hprepare hexamine
  | examined hprepare hexamine =>
      have hall := advance_advance_advance l path s
      have hfirst : l.advance path .waiting s = (.prepared _, _) :=
        congrArg (fun x : Except LintError PreparedInput × Session => (PathStage.prepared x.1, x.2))
          hprepare
      rw [hfirst] at hall
      dsimp only at hall
      rw [hexamine] at hall
      rw [hall]
      exact .done
  | done => cases hopen

/--
Paths that do not get into each other's way: they are spelled as a search for files spells them,
no two are the same, and none of them is a configuration file that is looked into for one of them.
-/
structure Separate (l : Linter) (paths : List String) (s : Session) : Prop where
  /-- The run is one of files. -/
  code : l.options.code = none
  memo : s.memo.Faithful
  spelled {path : String} (h : path ∈ paths) : Discovery.Spelled path
  nodup : paths.Nodup
  configs {path : String} (h : path ∈ paths) {file : String} (hfile : l.LooksInto path s file) :
    ∀ other ∈ paths, ¬s.files.SamePlace file other

namespace Separate

variable {paths : List String}

def others (paths : List String) (path : String) (fs : FileSystem) : Set (List String) :=
  fs.placesOf (paths.filter (· ≠ path))

theorem spares_others (h : l.Separate paths s) (hpath : path ∈ paths) :
    s.files.Spares (others paths path s.files) path := by
  refine FileSystem.spares_of_not_mem (fun p hp => ?_) (h.spelled hpath) ?_
  · exact h.spelled (List.mem_filter.1 hp).1
  · simp

/-- What changes at the place of a path only does not concern another one. -/
theorem frame_others {fs : FileSystem} (hpath : path ∈ paths) {other : String} (hne : path ≠ other)
    (h : s.AgreeOn (fs.placesOf [path]) {path}ᶜ t) :
    s.AgreeOn (others paths other fs) {other} t := by
  refine h.mono (FileSystem.placesOf_mono _ ?_) ?_
  · simpa [hne] using hpath
  · rintro _ rfl
    exact hne.symm

/-- What a path is prepared to does not depend on what other paths did. -/
theorem prepare (h : l.Separate paths s) (hpath : path ∈ paths)
    (hagree : s.AgreeOn (others paths path s.files) {path} t)
    (hgrown : Session.GrownFrom (s.files.placesOf paths) s t) :
    ∃ m notices, l.prepare (.ofFile path l.usesCache) t =
        (l.preparedFrom path s s.files, { t with memo := m, notices := notices }) ∧
      ConfigMemo.Grown s.files s.memo m := by
  obtain ⟨m, notices, hprepare, hm⟩ := prepare_grown h.code h.memo hgrown (h.spelled hpath)
    fun file hfile => FileSystem.spares_placesOf (h.configs hpath hfile)
  have htext := hagree.files.readText (h.spares_others hpath)
  rw [← preparedFrom_congr l s htext] at hprepare
  exact ⟨m, notices, hprepare, hm⟩

/-- On its own a path changes no file until it is finished. -/
theorem prepare_self (h : l.Separate paths s) (hpath : path ∈ paths) :
    ∃ m notices, l.prepare (.ofFile path l.usesCache) s =
      (l.preparedFrom path s s.files, { s with memo := m, notices := notices }) := by
  obtain ⟨m, notices, hprepare, -⟩ := h.prepare hpath (.refl _ _ s) (.refl _ s)
  exact ⟨m, notices, hprepare⟩

end Separate

/-- What is to be checked is the text of the file. -/
theorem readText_of_preparedFrom {fs : FileSystem} {r : EffectiveConfig} {text : Option String}
    (h : l.preparedFrom path s fs = .ok (.ready r text)) :
    ∃ t, text = some t ∧ fs.readText path = .ok t := by
  rw [preparedFrom] at h
  split at h
  case h_1 => cases h
  case h_2 =>
      split at h
      case isTrue => cases h
      case isFalse =>
          split at h
          case h_1 => cases h
          case h_2 => exact (ready_of_fetch h).2

namespace Separate

variable {paths : List String}

/-- Only a file that was read is rewritten. -/
theorem readText_of_rewritten (h : l.Separate paths s) (hpath : path ∈ paths)
    {o : Except LintError InputOutcome} (hreaches : Reaches l path s (.examined o) t) :
    ∀ out fixed, o = .ok out → rewritten? out = some fixed →
      ∃ text, s.files.readText path = .ok text := by
  rintro out fixed rfl hfixed
  cases hreaches with
  | examined hprepare hexamine =>
      rename_i p u
      obtain ⟨m, notices, hself⟩ := h.prepare_self hpath
      have hp : l.preparedFrom path s s.files = p :=
        congrArg Prod.fst (hself.symm.trans hprepare)
      rcases p with e | skipped | ⟨r, text⟩
      · cases hexamine
      · obtain rfl := skipped_of_prepare (congrArg Prod.fst hprepare)
        obtain ⟨hsame, -⟩ := Prod.mk.inj hexamine
        obtain rfl := Except.ok.inj (PathStage.examined.inj hsame)
        simp [rewritten?, InputOutcome.skipped] at hfixed
      · obtain ⟨t, -, hread⟩ := readText_of_preparedFrom hp
        exact ⟨t, hread⟩

theorem files_of_reaches (h : l.Separate paths s) (hpath : path ∈ paths) {stage : PathStage}
    (hreaches : Reaches l path s stage t) (hopen : stage.isDone = false) : t.files = s.files := by
  obtain ⟨m, notices, hself⟩ := h.prepare_self hpath
  cases hreaches with
  | waiting => rfl
  | prepared hprepare =>
      obtain ⟨-, rfl⟩ := Prod.mk.inj (hself.symm.trans hprepare)
      rfl
  | examined hprepare hexamine =>
      obtain ⟨rfl, rfl⟩ := Prod.mk.inj (hself.symm.trans hprepare)
      cases hp : l.preparedFrom path s s.files with
      | error e =>
          rw [hp] at hexamine
          obtain ⟨-, rfl⟩ := Prod.mk.inj hexamine
          rfl
      | ok p =>
          rw [hp] at hexamine
          obtain ⟨c, hc, -⟩ := examine_frame l path p { s with memo := m, notices := notices }
          have ht : (l.examine (.ofFile path l.usesCache) p
              { s with memo := m, notices := notices }).2 = t := congrArg Prod.snd hexamine
          rw [← ht, hc]
  | done => cases hopen

/--
A step of a path among others: it comes to the same as on its own, and it leaves the session as it
was for the other paths.
-/
theorem advance (h : l.Separate paths s) (hpath : path ∈ paths) {stage : PathStage} {a : Session}
    (hreaches : Reaches l path s stage a) (hopen : stage.isDone = false)
    (hagree : a.AgreeOn (others paths path s.files) {path} t)
    (hgrown : Session.GrownFrom (s.files.placesOf paths) s t) :
    (l.advance path stage t).1 = (l.advance path stage a).1 ∧
      (l.advance path stage a).2.AgreeOn (others paths path s.files) {path}
        (l.advance path stage t).2 ∧
      t.AgreeOn (s.files.placesOf [path]) {path}ᶜ (l.advance path stage t).2 ∧
      ConfigMemo.Grown s.files s.memo (l.advance path stage t).2.memo := by
  have hfiles := h.files_of_reaches hpath hreaches hopen
  have hspares : a.files.Spares (others paths path s.files) path := by
    rw [hfiles]
    exact h.spares_others hpath
  cases stage with
  | waiting =>
      cases hreaches
      obtain ⟨m, notices, hthere, hm⟩ := h.prepare hpath hagree hgrown
      obtain ⟨m', notices', hhere⟩ := h.prepare_self hpath
      rw [Linter.advance, Linter.advance, hthere, hhere]
      exact ⟨rfl, ⟨hagree.files, hagree.now, hagree.cache⟩, ⟨.refl _ _, rfl, .refl _ _⟩, hm⟩
  | prepared p =>
      cases p with
      | error e => exact ⟨rfl, hagree, .refl _ _ _, hgrown.memo⟩
      | ok p =>
          obtain ⟨houtcome, hsame⟩ := examine_congr (l := l) hagree hspares rfl p
          obtain ⟨c, hc, hcache⟩ := examine_frame l path p t
          simp only [Linter.advance]
          refine ⟨congrArg PathStage.examined houtcome.symm, hsame, ?_, ?_⟩
          · rw [hc]
            exact ⟨.refl _ _, rfl, hcache⟩
          · rw [hc]
            exact hgrown.memo
  | examined o =>
      have hread := h.readText_of_rewritten hpath hreaches
      have hread' : ∀ out fixed, o = .ok out → rewritten? out = some fixed →
          ∃ text, t.files.readText path = .ok text := by
        intro out fixed hout hfixed
        obtain ⟨text, htext⟩ := hread out fixed hout hfixed
        rw [← hfiles] at htext
        exact ⟨text, (hagree.files.readText hspares).symm.trans htext⟩
      have hplaces : t.files.placesOf [path] = s.files.placesOf [path] :=
        (FileSystem.placesOf_congr hgrown.files _).symm
      rw [← hfiles] at hread
      obtain ⟨hresult, hsame⟩ := finish_congr hagree (h.spelled hpath) hspares hread
      obtain ⟨hframe, hmemo⟩ := finish_frame (h.spelled hpath) hread'
      rw [hplaces] at hframe
      simp only [Linter.advance]
      refine ⟨congrArg PathStage.done hresult.symm, hsame, hframe, ?_⟩
      rw [hmemo]
      exact hgrown.memo
  | done r => cases hopen

end Separate

end Linter

end StyleAudit
