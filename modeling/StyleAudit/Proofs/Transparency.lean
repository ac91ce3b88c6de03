import StyleAudit.Proofs.Lockstep
import StyleAudit.Rule.Stock

/-!
Runs with a cache against runs without one.

A history is any sequence of runs, of edits between them, and of linters that are made anew over
the files that are there. Whatever came before, the cache answers for clean inputs only; and a run
counts what it would count with no entry in its cache, unless it writes back to a configuration
file that it consults or would fail to write back without the cache.
-/

namespace StyleAudit

/-- Options for files, with a cache by content and with plugins that are named. -/
structure Options.CachesByContent (o : Options) : Prop where
  files : o.files.isSome
  code : o.code = none
  cache : Linter.wantsCache o = true
  strategy : o.cacheStrategy = .content
  config (c : Config) (h : o.config = some c) : c.Named

/--
A linter and its session after a history, with everything that was hashed in it. An edit may leave
caches alone, move or remove them, but it makes none up.
-/
inductive History (registry : Registry) : List String → Linter → Session → Prop
  | start {o : Options} {fs : FileSystem} {l : Linter} {s : Session} (ho : o.CachesByContent)
      (hnew : ∀ t, ¬fs.Stores t) (hmade : Linter.make o registry fs = .ok (l, s)) :
      History registry [] l s
  | reopen {hashed : List String} {l l' : Linter} {s s' : Session} {o : Options}
      (h : History registry hashed l s) (ho : o.CachesByContent)
      (hmade : Linter.make o registry s.files = .ok (l', s')) : History registry hashed l' s'
  | edit {hashed : List String} {l : Linter} {s : Session} {fs : FileSystem}
      (h : History registry hashed l s) (hfs : ∀ t, fs.Stores t → s.files.Stores t) :
      History registry hashed l { s with files := fs }
  | run {hashed : List String} {l : Linter} {s : Session} (h : History registry hashed l s) :
      History registry (hashed ++ l.hashed s) l (l.lint s).2

namespace Linter

variable {registry : Registry} {hashed : List String} {l : Linter} {s : Session}

/-- A cache that is loaded holds what was saved, or nothing. -/
theorem entries_of_load {c c' : Cache} {fs : FileSystem} (h : c.load fs = .ok c') :
    c'.enabled = c.enabled ∧ c'.strategy = c.strategy ∧
      (c'.entries = c.entries ∨ c'.entries = [] ∨ fs.Stores c'.entries) := by
  rcases Cache.load_eq_ok h with ⟨-, rfl⟩ | ⟨-, content, entries, hread, hentries, rfl⟩
  · exact ⟨rfl, rfl, .inl rfl⟩
  · obtain ⟨names, modified, -, hget⟩ := FileSystem.read_eq_ok hread
    refine ⟨rfl, rfl, .inr ?_⟩
    rw [Cache.entriesIn?.eq_def] at hentries
    split at hentries
    case h_1 =>
        obtain rfl := Option.some.inj hentries
        exact .inr ⟨names, modified, hget⟩
    all_goals
      split at hentries
      case isTrue => exact .inl (Option.some.inj hentries).symm
      case isFalse => cases hentries

theorem make_spec {o : Options} {fs : FileSystem} (h : make o registry fs = .ok (l, s)) :
    l.options = o ∧ l.registry = registry ∧ l.usesCache = wantsCache o ∧ s.files = fs ∧
      s.memo = ConfigMemo.empty ∧ s.cache = (openCache o fs (cwdOf o fs)).1 := by
  rw [make] at h
  simp only [bind, Except.bind, pure, Except.pure] at h
  split at h
  case h_1 => cases h
  case h_2 =>
      split at h
      case h_1 => cases h
      case h_2 =>
          obtain ⟨rfl, rfl⟩ := Prod.mk.inj (Except.ok.inj h)
          exact ⟨rfl, rfl, rfl, rfl, rfl, rfl⟩

/-- A linter that caches begins with the entries that were saved, or with none. -/
theorem cache_of_make {o : Options} {fs : FileSystem} (ho : o.CachesByContent)
    (h : make o registry fs = .ok (l, s)) : s.cache.enabled = true ∧
      s.cache.strategy = .content ∧ (s.cache.entries = [] ∨ fs.Stores s.cache.entries) := by
  obtain ⟨-, -, -, -, -, hcache⟩ := make_spec h
  rw [hcache, openCache, if_pos ho.cache]
  split
  case h_1 loaded hload =>
      obtain ⟨henabled, hstrategy, hentries⟩ := entries_of_load hload
      refine ⟨henabled, hstrategy.trans ho.strategy, ?_⟩
      rcases hentries with heq | heq | hstored
      · exact .inl heq
      · exact .inl heq
      · exact .inr hstored
  case h_2 => exact ⟨rfl, ho.strategy, .inl rfl⟩

/-- A linter that is made over files whose caches can be trusted begins with such a cache. -/
theorem sound_of_make {o : Options} {fs : FileSystem} (ho : o.CachesByContent)
    (hfs : ∀ {t}, fs.Stores t → SoundEntries registry hashed t)
    (h : make o registry fs = .ok (l, s)) : s.Sound registry hashed := by
  obtain ⟨-, -, -, hfiles, hmemo, -⟩ := make_spec h
  obtain ⟨henabled, hstrategy, hentries⟩ := cache_of_make ho h
  refine ⟨?_, fun ht => hfs (hfiles ▸ ht), henabled, hstrategy, hmemo ▸ ConfigMemo.named_empty⟩
  rcases hentries with hnone | hstored
  · exact hnone ▸ .empty
  · exact hfs hstored

theorem caching_of_make {o : Options} {fs : FileSystem} (hregistry : registry.Named)
    (ho : o.CachesByContent) (h : make o registry fs = .ok (l, s)) : l.Caching registry := by
  obtain ⟨rfl, hregistry', huses, -⟩ := make_spec h
  exact ⟨hregistry', hregistry, ho.files, ho.code, ho.config, huses.trans ho.cache⟩

end Linter

/-- After any history the caches, in memory and saved, can be trusted. -/
theorem History.sound {registry : Registry} (hregistry : registry.Named) {hashed : List String}
    {l : Linter} {s : Session} (h : History registry hashed l s) :
    l.Caching registry ∧ s.Sound registry hashed := by
  induction h with
  | start ho hnew hmade =>
      exact ⟨Linter.caching_of_make hregistry ho hmade,
        Linter.sound_of_make ho (fun ht => absurd ht (hnew _)) hmade⟩
  | reopen h ho hmade ih =>
      exact ⟨Linter.caching_of_make hregistry ho hmade, Linter.sound_of_make ho ih.2.stored hmade⟩
  | edit h hfs ih => exact ⟨ih.1, ih.2.withFiles fun {t} => hfs t⟩
  | run h ih =>
      exact ⟨ih.1, Linter.sound_lint ih.1 (ih.2.mono (List.subset_append_left _ _))
        (List.subset_append_right _ _)⟩

namespace Linter

variable {registry : Registry} {hashed : List String} {l : Linter} {s : Session} {path : String}

/-- The result of an error is not an answer of the cache. -/
theorem fromCache_resultOfError {source : Option String} {e : LintError} {r : LintResult}
    (h : (resultOfError source e s).1 = .ok r) : r.fromCache = false := by
  rw [resultOfError.eq_def] at h
  split at h
  · exact Except.ok.inj h ▸ rfl
  · split at h
    · cases h
    · exact Except.ok.inj h ▸ rfl

theorem outcome_of_finish {o : Except LintError InputOutcome} {r : LintResult}
    (h : (finish path o s).1 = .ok r) (hcache : r.fromCache = true) :
    ∃ outcome, o = .ok outcome ∧ outcome.result = r := by
  have hfail {e : LintError} {s : Session} (h : (fail path e s).1 = .ok r) : False := by
    rw [fromCache_resultOfError h] at hcache
    cases hcache
  cases o with
  | error e => exact (hfail h).elim
  | ok outcome =>
      refine ⟨outcome, rfl, ?_⟩
      rw [finish] at h
      split at h
      case h_1 => exact (hfail h).elim
      case h_2 r' s₁ heq =>
          obtain rfl := Except.ok.inj h
          rw [writeBack] at heq
          split at heq
          · split at heq
            · cases heq
            · exact Except.ok.inj (Prod.mk.inj heq).1
          · exact Except.ok.inj (Prod.mk.inj heq).1

/-- A path that the cache answers for is clean when it is linted without the cache. -/
theorem clean_of_fromCache (hl : l.Caching registry) (hs : s.Sound registry hashed)
    (hfree : CollisionFree hashed) (hhashed : l.hashedFor path s ⊆ hashed) {r : LintResult}
    (h : (l.lintFile path s).1 = .ok r) (hcache : r.fromCache = true) :
    ∃ o, (l.lintInput (.ofFile path false) s).1 = .ok o ∧ o.result.Clean := by
  obtain ⟨outcome, houtcome, rfl⟩ : ∃ outcome,
      (l.lintInput (.ofFile path l.usesCache) s).1 = .ok outcome ∧ outcome.result = r :=
    outcome_of_finish h hcache
  have hsame : l.prepare (.ofFile path false) s = l.prepare (.ofFile path l.usesCache) s := rfl
  have hlearns := learns_prepare l.usesCache hl hs.memo path
  rw [lintInput] at houtcome ⊢
  rw [hsame]
  rcases hprepare : l.prepare (.ofFile path l.usesCache) s with ⟨p, t⟩
  rw [hprepare] at houtcome hlearns
  have ht := hs.learns hlearns
  cases p with
  | error e => cases houtcome
  | ok p =>
      cases p with
      | skipped o =>
          obtain rfl := skipped_of_prepare (congrArg Prod.fst hprepare)
          obtain rfl := Except.ok.inj houtcome
          cases hcache
      | ready r text =>
          obtain ⟨hr, halone, text, rfl, -⟩ :=
            ready_of_prepare hl hs.memo (congrArg Prod.fst hprepare)
          rw [hashedFor, hprepare] at hhashed
          have hplain : l.examine (.ofFile path false) (.ready r (some text)) t =
              (checkInput registry (.ofFile path true) r (some text), t) := by
            rw [← hl.registry_eq]
            rfl
          dsimp only at houtcome ⊢
          rw [hplain]
          rcases examine_cases hl ht path r text with
            ⟨hhit, -⟩ | ⟨-, ⟨e, -, heq⟩ | ⟨o, hcheck, heq⟩⟩
          · exact clean_of_hit ht hfree hr halone (hhashed (by simp)) (hhashed (by simp)) hhit
          · rw [heq] at houtcome
            cases houtcome
          · -- A check is no answer of the cache.
            rw [heq] at houtcome
            obtain rfl := Except.ok.inj houtcome
            rw [(checked_of_checkInput hcheck).fromCache] at hcache
            cases hcache

end Linter

/--
Transparency: after any history in which no two hashed texts have the same fingerprint, an input
that a run takes from the cache has no warnings and no errors when it is linted as it is without
the cache; and a run that ends well counts the same when it starts with no entry in its cache, as
long as none of the inputs that it may write back is a configuration file that it consults, and the
run that starts with no entry fails to write back none of its inputs.
-/
theorem History.transparent {registry : Registry} (hregistry : registry.Named)
    {hashed : List String} {l : Linter} {s : Session} (h : History registry hashed l s)
    (hfree : CollisionFree (hashed ++ l.hashed s)) :
    (∀ before p after, l.inputs s.started = before ++ p :: after →
      ∀ r, (l.lintFile p (l.lintEach before s.started).2).1 = .ok r → r.fromCache = true →
        ∃ o, (l.lintInput (.ofFile p false) (l.lintEach before s.started).2).1 = .ok o ∧
          o.result.warnings = [] ∧ o.result.errored = false) ∧
    (s.files.Proper →
      (∀ file ∈ l.configFiles s, ∀ p ∈ l.fixedInputs s, ¬s.files.SamePlace file p) →
      l.unwrittenInputs { s with cache := s.cache.clear } = [] →
      ∀ a, (l.lint s).1 = .ok a →
        ∃ b, (l.lint { s with cache := s.cache.clear }).1 = .ok b ∧ a.errored = b.errored ∧
          a.errorCount = b.errorCount ∧ a.warningCount = b.warningCount) := by
  obtain ⟨hl, hs⟩ := h.sound hregistry
  have hall := hs.mono (List.subset_append_left hashed (l.hashed s))
  have hnow := List.subset_append_right hashed (l.hashed s)
  generalize hashed ++ l.hashed s = more at hfree hall hnow
  refine ⟨fun before p after hinputs r hr hcache => ?_, fun hproper hconfigs hwritten a ha => ?_⟩
  · have hstarted : Session.Sound registry more s.started := hall.withFiles fun ht => ht
    rw [Linter.hashed, hinputs, Linter.gather_append, Linter.gather, List.append_subset,
      List.append_subset] at hnow
    exact Linter.clean_of_fromCache hl (Linter.sound_lintEach hl hstarted hnow.1) hfree hnow.2.1
      hr hcache
  · exact Linter.counts_lint_clear hl hall hfree hnow hproper hconfigs hwritten ha

/-- A file system none of whose entries is a cache. -/
theorem FileSystem.not_stores {fs : FileSystem}
    (h : ∀ entry ∈ fs.entries, ∀ t modified, entry.2 ≠ .file (.cache t) modified)
    (t : Table CacheEntry) : ¬fs.Stores t := by
  rintro ⟨names, modified, hget⟩
  rw [get?] at hget
  split at hget
  case isTrue => cases hget
  case isFalse =>
      obtain ⟨entries, home, now⟩ := fs
      dsimp only at h hget
      induction entries with
      | nil => cases hget
      | cons entry entries ih =>
          obtain ⟨own, e⟩ := entry
          rw [find?] at hget
          split at hget
          · exact h _ List.mem_cons_self t modified (Option.some.inj hget)
          · exact ih (fun entry hentry => h entry (List.mem_cons_of_mem _ hentry)) hget

/-- A linter that is made after a run of another one and an edit, with all that was hashed. -/
def Linter.makeAfter (registry : Registry) (first second : Options) (fs : FileSystem)
    (edit : FileSystem → FileSystem) : Option (List String × Linter × Session) :=
  match make first registry fs with
  | .error _ => none
  | .ok (l, s) =>
    match make second registry (edit (l.lint s).2.files) with
    | .error _ => none
    | .ok (l', s') => some (l.hashed s, l', s')

theorem History.of_makeAfter {registry : Registry} {first second : Options} {fs : FileSystem}
    {edit : FileSystem → FileSystem} (hfirst : first.CachesByContent)
    (hsecond : second.CachesByContent) (hnew : ∀ t, ¬fs.Stores t)
    (hedit : ∀ fs t, (edit fs).Stores t → fs.Stores t) {hashed : List String} {l : Linter}
    {s : Session} (h : Linter.makeAfter registry first second fs edit = some (hashed, l, s)) :
    History registry hashed l s := by
  rw [Linter.makeAfter] at h
  split at h
  case h_1 => cases h
  case h_2 hmade =>
      split at h
      case h_1 => cases h
      case h_2 hagain =>
          obtain ⟨rfl, hrest⟩ := Prod.mk.inj (Option.some.inj h)
          obtain ⟨rfl, rfl⟩ := Prod.mk.inj hrest
          exact .reopen (.edit (.run (.start hfirst hnew hmade)) (hedit _)) hsecond hagain

/-- A linter that goes on after a run of its own and an edit. -/
def Linter.afterRun (registry : Registry) (o : Options) (fs : FileSystem)
    (edit : FileSystem → FileSystem) : Option (Linter × Session) :=
  match make o registry fs with
  | .error _ => none
  | .ok (l, s) => some (l, { (l.lint s).2 with files := edit (l.lint s).2.files })

/-- A rule that forbids blue, one that puts green for red, and one that rewrites the configuration
which turns the first on. -/
def deskRegistry : Registry :=
  ((Registry.empty.addRule "no-blue" (Rule.forbidValue {} "blue" none)).addRule "no-red"
    (Rule.forbidValue { fixable := true } "red" (some "green"))).addRule "swap"
      (Rule.forbidValue { fixable := true } "true,\"no-blue\":true" (some "true"))

def deskConfig : Content :=
  .text "\x7b\"rules\":\x7b\"swap\":true,\"no-blue\":true\x7d\x7d"

/-- A configuration file that a rule of its own rewrites, and a blue sheet below it. -/
def deskFiles : FileSystem :=
  ⟨[(["w"], .directory), (["w", ".sheetlintrc"], .file deskConfig 0), (["w", "sub"], .directory),
    (["w", "sub", "blue.css"], .file (.text "a \x7bcolor: blue\x7d") 0)], ["w"], 0, []⟩

def redContent : Content :=
  .text "a \x7bcolor: red\x7d"

def redFiles : FileSystem :=
  ⟨[(["w"], .directory),
    (["w", ".sheetlintrc"], .file (.text "\x7b\"rules\":\x7b\"no-red\":true\x7d\x7d") 0),
    (["w", "red.css"], .file redContent 0)], ["w"], 0, []⟩

def deskOptions (files : List String) : Options :=
  { files := some files, cache := some true, cacheStrategy := .content, fix := some true }

/-- A linter of the blue sheet after a run over the configuration, which is put back. -/
def revisit : Option (List String × Linter × Session) :=
  Linter.makeAfter deskRegistry (deskOptions [".sheetlintrc"])
    (deskOptions [".sheetlintrc", "sub/blue.css"]) deskFiles fun fs =>
      fs.set ["w", ".sheetlintrc"] (.file deskConfig fs.now)

/-- A linter of the red sheet after a run over it. The sheet is put back, and some directories are
locked. -/
def redo (locked : List (List String)) : Option (List String × Linter × Session) :=
  Linter.makeAfter deskRegistry (deskOptions ["red.css"]) (deskOptions ["red.css"]) redFiles
    fun fs => { fs.set ["w", "red.css"] (.file redContent fs.now) with locked := locked }

theorem cachesByContent_deskOptions (files : List String) :
    (deskOptions files).CachesByContent :=
  ⟨rfl, rfl, rfl, rfl, fun _ h => nomatch h⟩

theorem named_deskRegistry : deskRegistry.Named :=
  fun _ _ h => nomatch h

theorem history_revisit {hashed : List String} {l : Linter} {s : Session}
    (h : revisit = some (hashed, l, s)) : History deskRegistry hashed l s := by
  refine .of_makeAfter (cachesByContent_deskOptions _) (cachesByContent_deskOptions _)
    (FileSystem.not_stores fun entry hentry t modified => ?_)
    (fun _ _ ht => ht.of_set.resolve_left fun ⟨_, heq⟩ => by cases heq) h
  simp only [deskFiles, deskConfig, List.mem_cons, List.not_mem_nil, or_false] at hentry
  rcases hentry with rfl | rfl | rfl | rfl <;> simp

theorem history_redo {locked : List (List String)} {hashed : List String} {l : Linter}
    {s : Session} (h : redo locked = some (hashed, l, s)) : History deskRegistry hashed l s := by
  refine .of_makeAfter (cachesByContent_deskOptions _) (cachesByContent_deskOptions _)
    (FileSystem.not_stores fun entry hentry t modified => ?_) (fun fs t ht => ?_) h
  · simp only [redFiles, redContent, List.mem_cons, List.not_mem_nil, or_false] at hentry
    rcases hentry with rfl | rfl | rfl <;> simp
  · have hset : (fs.set ["w", "red.css"] (.file redContent fs.now)).Stores t := ht
    exact hset.of_set.resolve_left fun ⟨_, heq⟩ => by cases heq

theorem exists_ok_of_isSome {ε α : Type} {x : Except ε α} (h : x.toOption.isSome = true) :
    ∃ a, x = .ok a := by
  cases x with
  | error e => cases h
  | ok a => exact ⟨a, rfl⟩

theorem exists_error_of_toOption {ε α : Type} {x : Except ε α} (h : x.toOption = none) :
    ∃ e, x = .error e := by
  cases x with
  | error e => exact ⟨e, rfl⟩
  | ok a => cases h

theorem eq_ok_of_toOption {ε α : Type} {x : Except ε α} {a : α} (h : x.toOption = some a) :
    x = .ok a := by
  cases x with
  | error e => cases h
  | ok b => exact congrArg Except.ok (Option.some.inj h)

/-- The second of two runs over a red sheet takes it from the saved cache, and leaves it red; one
with no entry in its cache puts green for red, and counts the same. -/
theorem History.transparent_redo :
    ∃ hashed l s, History deskRegistry hashed l s ∧ CollisionFree (hashed ++ l.hashed s) ∧
      l.inputs s.started = ["/w/red.css"] ∧
      (∃ r, (l.lintFile "/w/red.css" s.started).1 = .ok r ∧ r.fromCache = true) ∧
      (∃ o, (l.lintInput (.ofFile "/w/red.css" false) s.started).1 = .ok o ∧
        o.result.warnings = [] ∧ o.result.errored = false) ∧
      s.files.Proper ∧ l.configFiles s = ["/w/.sheetlintrc"] ∧ l.fixedInputs s = ["/w/red.css"] ∧
      l.unwrittenInputs { s with cache := s.cache.clear } = [] ∧
      (l.lint s).2.files.read "/w/red.css" = .ok redContent ∧
      (l.lint { s with cache := s.cache.clear }).2.files.read "/w/red.css" =
        .ok (.text "a \x7bcolor: green\x7d") ∧
      ∃ a b, (l.lint s).1 = .ok a ∧ (l.lint { s with cache := s.cache.clear }).1 = .ok b ∧
        a.errored = b.errored ∧ a.errorCount = b.errorCount ∧ a.warningCount = b.warningCount := by
  have hfacts : (redo []).any (fun (hashed, l, s) =>
      decide (CollisionFree (hashed ++ l.hashed s) ∧ s.files.Proper ∧
        l.inputs s.started = ["/w/red.css"] ∧ l.configFiles s = ["/w/.sheetlintrc"] ∧
        l.fixedInputs s = ["/w/red.css"] ∧
        l.unwrittenInputs { s with cache := s.cache.clear } = [] ∧
        ¬s.files.SamePlace "/w/.sheetlintrc" "/w/red.css" ∧
        (l.lintFile "/w/red.css" s.started).1.toOption.map LintResult.fromCache = some true ∧
        ((l.lint s).2.files.read "/w/red.css").toOption = some redContent ∧
        ((l.lint { s with cache := s.cache.clear }).2.files.read "/w/red.css").toOption =
          some (.text "a \x7bcolor: green\x7d") ∧
        (l.lint s).1.toOption.isSome)) = true := by
    decide +kernel
  obtain ⟨⟨hashed, l, s⟩, hr, hfacts⟩ := (Option.any_eq_true _ _).1 hfacts
  obtain ⟨hfree, hproper, hinputs, hconfigs, hfixed, hwritten, hplaces, hcached, hred, hgreen,
    hok⟩ := of_decide_eq_true hfacts
  obtain ⟨a, ha⟩ := exists_ok_of_isSome hok
  obtain ⟨r, hlinted, hcache⟩ := Option.map_eq_some_iff.1 hcached
  obtain ⟨hhits, hcounts⟩ := History.transparent named_deskRegistry (history_redo hr) hfree
  obtain ⟨b, hb, hsame⟩ := hcounts hproper (fun file hfile p hp => by
    rw [hconfigs, List.mem_singleton] at hfile
    rw [hfixed, List.mem_singleton] at hp
    rw [hfile, hp]
    exact hplaces) hwritten a ha
  have hlinted := eq_ok_of_toOption hlinted
  exact ⟨hashed, l, s, history_redo hr, hfree, hinputs, ⟨r, hlinted, hcache⟩,
    hhits [] "/w/red.css" [] hinputs r hlinted hcache, hproper, hconfigs, hfixed, hwritten,
    eq_ok_of_toOption hred, eq_ok_of_toOption hgreen, a, b, ha, hb, hsame⟩

/--
A run that writes back to its own configuration file counts otherwise with an empty cache: the
file is clean under the configuration that it holds, so the cache keeps it from being fixed; and
with it the rule that a later input breaks. And where nothing new can be made beside a sheet, only
a run with an empty cache finds that out.
-/
theorem counts_depend_on_cache :
    (∃ hashed l s a b, deskRegistry.Named ∧ History deskRegistry hashed l s ∧
      CollisionFree (hashed ++ l.hashed s) ∧ s.files.Proper ∧ (l.lint s).1 = .ok a ∧
      (l.lint { s with cache := s.cache.clear }).1 = .ok b ∧ a.errorCount = 1 ∧
      b.errorCount = 0) ∧
    ∃ hashed l s a b, deskRegistry.Named ∧ History deskRegistry hashed l s ∧
      CollisionFree (hashed ++ l.hashed s) ∧ s.files.Proper ∧ (l.lint s).1 = .ok a ∧
      (l.lint { s with cache := s.cache.clear }).1 = .ok b ∧ a.errored = false ∧
      b.errored = true := by
  have hcounts : revisit.any
      (fun (hashed, l, s) => decide (CollisionFree (hashed ++ l.hashed s) ∧ s.files.Proper ∧
        (l.lint s).1.toOption.map (fun a => a.errorCount) = some 1 ∧
        (l.lint { s with cache := s.cache.clear }).1.toOption.map (fun b => b.errorCount) =
          some 0)) = true := by
    decide +kernel
  have hlocked : (redo [["w"]]).any
      (fun (hashed, l, s) => decide (CollisionFree (hashed ++ l.hashed s) ∧ s.files.Proper ∧
        (l.lint s).1.toOption.map (fun a => a.errored) = some false ∧
        (l.lint { s with cache := s.cache.clear }).1.toOption.map (fun b => b.errored) =
          some true)) = true := by
    decide +kernel
  constructor
  · obtain ⟨⟨hashed, l, s⟩, hr, hfacts⟩ := (Option.any_eq_true _ _).1 hcounts
    obtain ⟨hfree, hproper, ha, hb⟩ := of_decide_eq_true hfacts
    obtain ⟨a, hcached, ha⟩ := Option.map_eq_some_iff.1 ha
    obtain ⟨b, hcleared, hb⟩ := Option.map_eq_some_iff.1 hb
    exact ⟨hashed, l, s, a, b, named_deskRegistry, history_revisit hr, hfree, hproper,
      eq_ok_of_toOption hcached, eq_ok_of_toOption hcleared, ha, hb⟩
  · obtain ⟨⟨hashed, l, s⟩, hr, hfacts⟩ := (Option.any_eq_true _ _).1 hlocked
    obtain ⟨hfree, hproper, ha, hb⟩ := of_decide_eq_true hfacts
    obtain ⟨a, hcached, ha⟩ := Option.map_eq_some_iff.1 ha
    obtain ⟨b, hcleared, hb⟩ := Option.map_eq_some_iff.1 hb
    exact ⟨hashed, l, s, a, b, named_deskRegistry, history_redo hr, hfree, hproper,
      eq_ok_of_toOption hcached, eq_ok_of_toOption hcleared, ha, hb⟩

end StyleAudit
