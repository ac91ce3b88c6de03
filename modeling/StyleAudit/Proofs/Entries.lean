import StyleAudit.Proofs.WriteBack

/-!
What is in the cache file after a run.

An input has an entry in the end just if it was taken from the cache or found clean. What the run
looks past keeps the entry that it had, if an earlier run of the same linter looked at it, and
loses it otherwise. A run that is rejected leaves the cache file alone.
-/

namespace StyleAudit

open FileSystem (AgreeOutside)

namespace Linter

variable {l : Linter} {s t : Session} {path : String} {r : LintResult}

/-- The entry that a path has after its turn, if the cache is pruned then. -/
structure EntryAfter (l : Linter) (path : String) (s : Session) (r : LintResult)
    (e : Option CacheEntry) : Prop where
  isSome_iff : e.isSome ↔ r.fromCache = true ∨ (r.ignored = false ∧ r.Clean) ∨
    (r.ignored = true ∧ r.fromCache = false) ∧ path ∈ s.cache.visited ∧
      (s.cache.entries.find? path).isSome
  hit (h : r.fromCache = true) : e = s.cache.entries.find? path
  clean (hignored : r.ignored = false) (hclean : r.Clean) : ∃ config text f,
    l.Readies path s config text ∧ s.cache.fingerprintOf s.files path text = .ok f ∧
      e = some ⟨f, config.hash⟩
  past (h : r.ignored = true ∧ r.fromCache = false) (hvisited : path ∈ s.cache.visited) :
    e = s.cache.entries.find? path

/-- A path that is not in the cache after its turn was neither taken from there nor clean. -/
theorem entryAfter_none (hcache : r.fromCache = false) (hignored : r.ignored = false)
    (hclean : ¬r.Clean) : l.EntryAfter path s r none := by
  constructor
  · simp [hcache, hignored, hclean]
  · simp [hcache]
  · exact fun _ h => absurd h hclean
  · simp [hignored]

/-- What a turn leaves in the cache for its path. -/
theorem Turn.entryAfter (h : l.Turn path s (.ok r) t) (huse : l.usesCache = true)
    (henabled : s.cache.enabled = true) :
    l.EntryAfter path s r (t.cache.prune.entries.find? path) := by
  have hgone : t.cache.entries.find? path = none → t.cache.prune.entries.find? path = none := by
    intro hnone
    rw [Cache.find?_prune, hnone, ite_self]
  generalize hx : (Except.ok r : Except LintError LintResult) = x at h
  cases h with
  | failed _ _ hnone =>
      obtain ⟨hcache, hignored, hclean⟩ := not_clean_of_error hx.symm
      rw [hgone hnone]
      exact entryAfter_none hcache hignored hclean
  | skipped _ hcache =>
      obtain rfl := Except.ok.inj hx
      rw [hcache, Cache.find?_prune]
      constructor
      · by_cases hvisited : path ∈ s.cache.visited <;> simp [LintResult.skipped, hvisited]
      · intro hcache
        cases hcache
      · intro hignored
        cases hignored
      · intro _ hvisited
        exact if_pos hvisited
  | hit _ _ hentry _ hcache =>
      obtain rfl := Except.ok.inj hx
      rw [Cache.get?, if_pos henabled] at hentry
      rw [hcache, Cache.find?_prune, if_pos (Cache.mem_visited_visit.2 (.inl rfl)),
        Cache.entries_visit]
      constructor
      · simp [LintResult.cached, hentry]
      · exact fun _ => rfl
      · intro hignored
        cases hignored
      · rintro ⟨-, hcache⟩
        cases hcache
  | @checked config text o _ hready hcheck _ _ _ hclean hunclean =>
      obtain rfl := Except.ok.inj hx
      have hchecked := checked_of_checkInput hcheck
      by_cases h : o.result.Clean
      · obtain ⟨hvisited, f, hfingerprint, hentry⟩ := hclean huse henabled h
        rw [Cache.find?_prune, if_pos hvisited, hentry]
        constructor
        · simp [hchecked.ignored, h]
        · simp [hchecked.fromCache]
        · exact fun _ _ => ⟨config, text, f, hready, hfingerprint, rfl⟩
        · simp [hchecked.ignored]
      · rw [hgone (hunclean huse h)]
        exact entryAfter_none hchecked.fromCache hchecked.ignored h

/-- Whether a path had its turn in a run, with this result, and in this session. -/
def Turned (l : Linter) (s : Session) (results : List LintResult) (path : String) (r : LintResult)
    (t : Session) : Prop :=
  ∃ before after, l.inputs (l.opened s) = before ++ path :: after ∧
    results[before.length]? = some r ∧ t = (l.lintEach before (l.opened s)).2

/-- Whether a run looks past a path: it is no input, or it is left out. -/
def LooksPast (l : Linter) (s : Session) (results : List LintResult) (path : String) : Prop :=
  path ∉ l.inputs (l.opened s) ∨
    ∃ r t, l.Turned s results path r t ∧ r.ignored = true ∧ r.fromCache = false

/-- Whether the cache of a run gets into its file in the end. -/
def Saves (l : Linter) (s : Session) : Prop :=
  ((l.linted s).cache.reconcile (l.linted s).files).2.2 = .ok ()

/-- What is in a cache after a run with these results. -/
structure HoldsExactly (l : Linter) (s : Session) (results : List LintResult)
    (entries : Table CacheEntry) : Prop where
  /-- An entry is there for what was taken from the cache or found clean, and for nothing else but
  what an earlier run of the linter looked at and this one looks past. -/
  isSome_iff (path : String) : (entries.find? path).isSome ↔
    (∃ r t, l.Turned s results path r t ∧ (r.fromCache = true ∨ r.ignored = false ∧ r.Clean)) ∨
    l.LooksPast s results path ∧ path ∈ s.cache.visited ∧ (s.cache.entries.find? path).isSome
  /-- What was taken from the cache keeps its entry. -/
  hit {path : String} {r : LintResult} {t : Session} (h : l.Turned s results path r t)
    (hcache : r.fromCache = true) : entries.find? path = s.cache.entries.find? path
  /-- What was found clean has the fingerprint of its text and the hash of its configuration. -/
  clean {path : String} {r : LintResult} {t : Session} (h : l.Turned s results path r t)
    (hignored : r.ignored = false) (hclean : r.Clean) : ∃ config text f,
      l.Readies path t config text ∧ s.files.readText path = .ok text ∧
        s.cache.fingerprintOf s.files path text = .ok f ∧
        entries.find? path = some ⟨f, config.hash⟩
  /-- What the run looks past keeps its entry if an earlier run looked at it. -/
  past {path : String} (h : l.LooksPast s results path) (hvisited : path ∈ s.cache.visited) :
    entries.find? path = s.cache.entries.find? path

section Run

variable {results : List LintResult}

/-- A run that uses its cache opens it as it is, over the files that are there. -/
theorem agreeOn_opened (huse : l.usesCache = true) :
    (l.opened s).cache = s.cache ∧ s.files.AgreeOutside ∅ (l.opened s).files := by
  rw [opened_of_usesCache huse]
  exact ⟨rfl, rfl, rfl, fun _ => rfl, fun _ => rfl⟩

/-- A run changes the entries of its inputs only, and the files of those that it rewrites. -/
theorem linted_frame (huse : l.usesCache = true) (hproper : s.files.Proper) :
    s.files.AgreeOutside (s.files.placesOf (l.rewrittenInputs s)) (l.linted s).files ∧
      s.cache.AgreeOn {path | path ∉ l.inputs (l.opened s)} (l.linted s).cache := by
  obtain ⟨hcache, hopened⟩ := agreeOn_opened (s := s) huse
  have hframe := lintEach_frame (l := l) (s := l.opened s)
    (inputs_spec (l := l) (l.proper_opened hproper)).1
  have hfiles := hframe.files
  rw [← FileSystem.placesOf_congr hopened] at hfiles
  exact ⟨(hopened.mono (Set.empty_subset _)).trans hfiles, hcache ▸ hframe.cache⟩

/-- Where all inputs have results, each had its turn. -/
theorem exists_turned (hall : (l.lintEach (l.inputs (l.opened s)) (l.opened s)).1 =
    results.map .ok) (hpath : path ∈ l.inputs (l.opened s)) :
    ∃ r t, l.Turned s results path r t := by
  obtain ⟨before, after, hinputs⟩ := List.append_of_mem hpath
  have hresult := l.getElem?_lintEach before after path (l.opened s)
  rw [← hinputs, hall, List.getElem?_map] at hresult
  obtain ⟨r, hr, -⟩ := Option.map_eq_some_iff.1 hresult
  exact ⟨r, _, before, after, hinputs, hr, rfl⟩

/-- An input has in the end what its turn left, and it found there what the run began with. -/
theorem entryAfter_of_turned (huse : l.usesCache = true) (henabled : s.cache.enabled = true)
    (hproper : s.files.Proper)
    (hall : (l.lintEach (l.inputs (l.opened s)) (l.opened s)).1 = results.map .ok)
    (h : l.Turned s results path r t) :
    l.EntryAfter path t r ((l.linted s).cache.prune.entries.find? path) ∧
      s.cache.AgreeOn {path} t.cache ∧
      ∃ D, s.files.Spares D path ∧ s.files.AgreeOutside D t.files := by
  obtain ⟨before, after, hinputs, hr, rfl⟩ := h
  obtain ⟨hcache, hfiles⟩ := agreeOn_opened (s := s) huse
  have hopened := l.proper_opened hproper
  have hpaths := (inputs_spec (l := l) hopened).1
  have hnodup := nodup_inputs (l := l) hopened
  rw [hinputs] at hpaths hnodup hall
  rw [linted, hinputs]
  obtain ⟨t, u, x, D, rfl, hturn, hx, hspares, hbefore, hafter⟩ :=
    turn_lintEach (l := l) (s := l.opened s) hpaths hnodup
  rw [hall, List.getElem?_map, hr] at hx
  obtain rfl := Option.some.inj hx
  have hsame : s.cache.AgreeOn {path} (l.lintEach before (l.opened s)).2.cache := by
    rw [← hcache]
    exact hbefore.cache
  refine ⟨?_, hsame, D, ?_, ?_⟩
  · rw [← hafter.cache.find?_prune (Set.mem_singleton path)]
    exact hturn.entryAfter huse (hsame.enabled.symm.trans henabled)
  · rintro names hplace
    exact hspares names ((hfiles.locate path).symm.trans hplace)
  · exact (hfiles.mono (Set.empty_subset D)).trans hbefore.files

/-- What the run looks past is left in the cache as it was, if an earlier run looked at it. -/
theorem find?_prune_of_looksPast (huse : l.usesCache = true) (henabled : s.cache.enabled = true)
    (hproper : s.files.Proper)
    (hall : (l.lintEach (l.inputs (l.opened s)) (l.opened s)).1 = results.map .ok)
    (h : l.LooksPast s results path) (hvisited : path ∈ s.cache.visited) :
    (l.linted s).cache.prune.entries.find? path = s.cache.entries.find? path := by
  rcases h with hpath | ⟨r, t, h, hpast⟩
  · rw [← (linted_frame huse hproper).2.find?_prune hpath, Cache.find?_prune, if_pos hvisited]
  · obtain ⟨hentry, hsame, -⟩ := entryAfter_of_turned huse henabled hproper hall h
    rw [hentry.past hpast ((hsame.visited (Set.mem_singleton path)).1 hvisited),
      hsame.entry (Set.mem_singleton path)]

/-- An entry that is left was taken over, or found clean, or looked past. -/
theorem isSome_find?_prune (huse : l.usesCache = true) (henabled : s.cache.enabled = true)
    (hproper : s.files.Proper)
    (hall : (l.lintEach (l.inputs (l.opened s)) (l.opened s)).1 = results.map .ok)
    (hsome : ((l.linted s).cache.prune.entries.find? path).isSome) :
    (∃ r t, l.Turned s results path r t ∧ (r.fromCache = true ∨ r.ignored = false ∧ r.Clean)) ∨
      l.LooksPast s results path ∧ path ∈ s.cache.visited ∧
        (s.cache.entries.find? path).isSome := by
  by_cases hpath : path ∈ l.inputs (l.opened s)
  · obtain ⟨r, t, h⟩ := exists_turned hall hpath
    obtain ⟨hentry, hsame, -⟩ := entryAfter_of_turned huse henabled hproper hall h
    rcases hentry.isSome_iff.1 hsome with hhit | hclean | ⟨hleft, hvisited, hold⟩
    · exact .inl ⟨r, t, h, .inl hhit⟩
    · exact .inl ⟨r, t, h, .inr hclean⟩
    · rw [← hsame.visited (Set.mem_singleton path)] at hvisited
      rw [← hsame.entry (Set.mem_singleton path)] at hold
      exact .inr ⟨.inr ⟨r, t, h, hleft⟩, hvisited, hold⟩
  · rw [← (linted_frame huse hproper).2.find?_prune hpath, Cache.find?_prune] at hsome
    split at hsome
    case isTrue hvisited => exact .inr ⟨.inl hpath, hvisited, hsome⟩
    case isFalse => cases hsome

/-- What is left of the cache after a run whose inputs all have results. -/
theorem holdsExactly_prune (huse : l.usesCache = true) (henabled : s.cache.enabled = true)
    (hproper : s.files.Proper)
    (hall : (l.lintEach (l.inputs (l.opened s)) (l.opened s)).1 = results.map .ok) :
    l.HoldsExactly s results (l.linted s).cache.prune.entries := by
  have hturned {path : String} {r : LintResult} {t : Session}
      (h : l.Turned s results path r t) :=
    entryAfter_of_turned huse henabled hproper hall h
  have hpast {path : String} (h : l.LooksPast s results path) (hvisited : path ∈ s.cache.visited) :=
    find?_prune_of_looksPast huse henabled hproper hall h hvisited
  constructor
  · intro path
    refine ⟨isSome_find?_prune huse henabled hproper hall, ?_⟩
    rintro (⟨r, t, h, hhit | hclean⟩ | ⟨h, hvisited, hold⟩)
    · exact (hturned h).1.isSome_iff.2 (.inl hhit)
    · exact (hturned h).1.isSome_iff.2 (.inr (.inl hclean))
    · rw [hpast h hvisited]
      exact hold
  · intro path r t h hcache
    obtain ⟨hentry, hsame, -⟩ := hturned h
    rw [hentry.hit hcache, hsame.entry (Set.mem_singleton path)]
  · intro path r t h hignored hclean
    obtain ⟨hentry, hsame, D, hspares, hfiles⟩ := hturned h
    obtain ⟨config, text, f, hready, hfingerprint, hfind⟩ := hentry.clean hignored hclean
    refine ⟨config, text, f, hready, ?_, ?_, hfind⟩
    · rw [hfiles.readText hspares, hready.readText]
    · rw [Cache.fingerprintOf, hsame.strategy, hfiles.stat hspares]
      exact hfingerprint
  · exact hpast

/-- Where the cache is saved in the end, its file holds what pruning left. -/
theorem read_saveCache_file (huse : l.usesCache = true) (henabled : s.cache.enabled = true)
    (h : (s.cache.reconcile s.files).2.2 = .ok ()) :
    (l.saveCache s).files.read s.cache.file = .ok (.ofEntries s.cache.prune.entries) := by
  rw [Cache.reconcile, if_pos henabled] at h
  rw [files_saveCache huse, Cache.reconcile, if_pos henabled]
  exact (Cache.holds_of_save (c := s.cache.prune) henabled (Prod.ext rfl h)).read

/--
After a run that ends well and saves its cache, the file holds an entry for just those inputs that
were taken from the cache or found clean, and for what the run looks past if an earlier run of the
linter looked at it. A run that is rejected leaves the file of the cache as it was, unless that is
an input into which it puts a new text.
-/
theorem cacheFile_lint (hfiles : l.options.files.isSome) (hcode : l.options.code = none)
    (huse : l.usesCache = true) (henabled : s.cache.enabled = true)
    (hproper : s.files.Proper) :
    (∀ a s', l.lint s = (.ok a, s') → l.Saves s →
      ∃ entries, s'.files.read s.cache.file = .ok (.ofEntries entries) ∧
        l.HoldsExactly s a.results entries) ∧
    (∀ e s', l.lint s = (.error e, s') →
      (∀ path ∈ l.rewrittenInputs s, ¬s.files.SamePlace s.cache.file path) →
      s'.files.stat s.cache.file = s.files.stat s.cache.file) := by
  obtain ⟨hall, hsame⟩ := linted_frame (l := l) huse hproper
  obtain ⟨m, notices, ⟨e, hlint⟩ | ⟨results, hresults, hlint⟩⟩ := lint_cases hfiles hcode s
  · constructor
    · intro a s' h
      cases hlint.symm.trans h
    · intro e' s' h hapart
      obtain ⟨-, rfl⟩ := Prod.mk.inj (hlint.symm.trans h)
      exact (hall.stat (FileSystem.spares_placesOf hapart)).symm
  · constructor
    · intro a s' h hsaves
      obtain ⟨ha, rfl⟩ := Prod.mk.inj (hlint.symm.trans h)
      obtain rfl := Except.ok.inj ha
      have hkept : (l.linted s).cache.enabled = true := hsame.enabled.symm.trans henabled
      have hread : (l.saveCache { l.linted s with memo := m, notices := notices }).files.read
          (l.linted s).cache.file = .ok (.ofEntries (l.linted s).cache.prune.entries) :=
        read_saveCache_file huse hkept hsaves
      refine ⟨(l.linted s).cache.prune.entries, ?_,
        holdsExactly_prune huse henabled hproper hresults⟩
      rw [hsame.file]
      exact hread
    · intro e s' h
      cases hlint.symm.trans h

end Run

end Linter

/-- The paths that a file holds entries of, if it is a cache. -/
def FileSystem.cachedIn (fs : FileSystem) (path : String) : List String :=
  match fs.read path with
  | .ok content => ((Cache.entriesIn? content).getD []).keys
  | .error _ => []

theorem FileSystem.keys_of_read {fs : FileSystem} {path : String} {entries : Table CacheEntry}
    (h : fs.read path = .ok (.ofEntries entries)) : entries.keys = fs.cachedIn path := by
  rw [cachedIn, h]
  dsimp only
  rw [Cache.entriesIn?_ofEntries, Option.getD_some]

/-- Puts another red sheet there, and locks its directory. -/
def reddenLocked (fs : FileSystem) : FileSystem :=
  { fs.set ["w", "red.css"] (.file (.text "b \x7bcolor: red\x7d") fs.now) with locked := [["w"]] }

/-- A second run takes one sheet from the cache, finds one clean that the first has fixed, and has
a warning for the third. Where it cannot write the one that it fixes, that loses the entry that the
first run gave it. A run over the broken configuration is rejected. -/
theorem Linter.cacheFile_lint_paintFiles :
    (∃ l s a s' entries, afterRun paintRegistry
        { deskOptions ["*.css"] with cacheLocation := some "/c/cache" } paintFiles id =
          some (l, s) ∧
      l.lint s = (.ok a, s') ∧ l.Saves s ∧ s'.files.read s.cache.file = .ok (.ofEntries entries) ∧
      l.HoldsExactly s a.results entries ∧
      a.results.map (fun r => (r.fromCache, r.errored)) =
        [(false, true), (true, false), (false, false)] ∧
      entries.keys = ["/w/green.css", "/w/red.css"]) ∧
    (∃ l s a s' entries, afterRun paintRegistry
        { deskOptions ["*.css"] with cacheLocation := some "/c/cache" } paintFiles reddenLocked =
          some (l, s) ∧
      l.lint s = (.ok a, s') ∧ l.Saves s ∧ s'.files.read s.cache.file = .ok (.ofEntries entries) ∧
      l.HoldsExactly s a.results entries ∧
      a.results.map (fun r => (r.fromCache, r.errored)) =
        [(false, true), (true, false), (false, true)] ∧
      entries.keys = ["/w/green.css"] ∧ s.cache.entries.keys = ["/w/green.css", "/w/red.css"] ∧
      l.gather l.unwritten (l.inputs (l.opened s)) (l.opened s) = ["/w/red.css"]) ∧
    ∃ hashed l s e s', makeAfter paintRegistry (deskOptions ["green.css"])
        (deskOptions ["red.css", "sub/plain.css"]) paintFiles id = some (hashed, l, s) ∧
      l.lint s = (.error e, s') ∧ s.files.cachedIn s.cache.file = ["/w/green.css"] ∧
      s'.files.stat s.cache.file = s.files.stat s.cache.file := by
  have hended : (afterRun paintRegistry
      { deskOptions ["*.css"] with cacheLocation := some "/c/cache" } paintFiles id).any
      (fun (l, s) => decide ((l.options.files.isSome ∧ l.options.code = none ∧
        l.usesCache = true ∧ s.cache.enabled = true ∧ s.files.Proper) ∧
        ((l.linted s).cache.reconcile (l.linted s).files).2.2.toOption.isSome ∧
        (l.lint s).1.toOption.map (fun a => a.results.map fun r => (r.fromCache, r.errored)) =
          some [(false, true), (true, false), (false, false)] ∧
        (l.lint s).2.files.cachedIn s.cache.file = ["/w/green.css", "/w/red.css"])) = true := by
    decide +kernel
  have hlocked : (afterRun paintRegistry
      { deskOptions ["*.css"] with cacheLocation := some "/c/cache" } paintFiles reddenLocked).any
      (fun (l, s) => decide ((l.options.files.isSome ∧ l.options.code = none ∧
        l.usesCache = true ∧ s.cache.enabled = true ∧ s.files.Proper) ∧
        ((l.linted s).cache.reconcile (l.linted s).files).2.2.toOption.isSome ∧
        (l.lint s).1.toOption.map (fun a => a.results.map fun r => (r.fromCache, r.errored)) =
          some [(false, true), (true, false), (false, true)] ∧
        (l.lint s).2.files.cachedIn s.cache.file = ["/w/green.css"] ∧
        s.cache.entries.keys = ["/w/green.css", "/w/red.css"] ∧
        l.gather l.unwritten (l.inputs (l.opened s)) (l.opened s) = ["/w/red.css"])) = true := by
    decide +kernel
  have hrejected : (makeAfter paintRegistry (deskOptions ["green.css"])
      (deskOptions ["red.css", "sub/plain.css"]) paintFiles id).any
      (fun (_, l, s) => decide ((l.options.files.isSome ∧ l.options.code = none ∧
        l.usesCache = true ∧ s.cache.enabled = true ∧ s.files.Proper) ∧
        (l.lint s).1.toOption = none ∧ s.files.cachedIn s.cache.file = ["/w/green.css"] ∧
        ∀ path ∈ l.rewrittenInputs s, ¬s.files.SamePlace s.cache.file path)) = true := by
    decide +kernel
  refine ⟨?_, ?_, ?_⟩
  · obtain ⟨⟨l, s⟩, hmade, hfacts⟩ := (Option.any_eq_true _ _).1 hended
    obtain ⟨⟨hfiles, hcode, huse, henabled, hproper⟩, hsaves, hresults, hkeys⟩ :=
      of_decide_eq_true hfacts
    obtain ⟨_, hsaves⟩ := exists_ok_of_isSome hsaves
    obtain ⟨a, ha, hresults⟩ := Option.map_eq_some_iff.1 hresults
    have hlint : l.lint s = (.ok a, (l.lint s).2) := Prod.ext (eq_ok_of_toOption ha) rfl
    obtain ⟨entries, hread, hholds⟩ :=
      (cacheFile_lint hfiles hcode huse henabled hproper).1 a _ hlint hsaves
    exact ⟨l, s, a, _, entries, hmade, hlint, hsaves, hread, hholds, hresults,
      (FileSystem.keys_of_read hread).trans hkeys⟩
  · obtain ⟨⟨l, s⟩, hmade, hfacts⟩ := (Option.any_eq_true _ _).1 hlocked
    obtain ⟨⟨hfiles, hcode, huse, henabled, hproper⟩, hsaves, hresults, hkeys, hbefore, hfailed⟩ :=
      of_decide_eq_true hfacts
    obtain ⟨_, hsaves⟩ := exists_ok_of_isSome hsaves
    obtain ⟨a, ha, hresults⟩ := Option.map_eq_some_iff.1 hresults
    have hlint : l.lint s = (.ok a, (l.lint s).2) := Prod.ext (eq_ok_of_toOption ha) rfl
    obtain ⟨entries, hread, hholds⟩ :=
      (cacheFile_lint hfiles hcode huse henabled hproper).1 a _ hlint hsaves
    exact ⟨l, s, a, _, entries, hmade, hlint, hsaves, hread, hholds, hresults,
      (FileSystem.keys_of_read hread).trans hkeys, hbefore, hfailed⟩
  · obtain ⟨⟨hashed, l, s⟩, hmade, hfacts⟩ := (Option.any_eq_true _ _).1 hrejected
    obtain ⟨⟨hfiles, hcode, huse, henabled, hproper⟩, hfailed, hkeys, hapart⟩ :=
      of_decide_eq_true hfacts
    obtain ⟨e, he⟩ := exists_error_of_toOption hfailed
    have hlint : l.lint s = (.error e, (l.lint s).2) := Prod.ext he rfl
    exact ⟨hashed, l, s, e, _, hmade, hlint, hkeys,
      (cacheFile_lint hfiles hcode huse henabled hproper).2 e _ hlint hapart⟩

/-- What was looked at is kept account of from one load of the cache to the next, and a linter loads
its cache once, when it is made. So a linter that is used again keeps the entry of a sheet that is
gone, for it looked at that before. And a run that is rejected may have put a new text into the
file of its cache. -/
theorem Linter.entry_of_missing_input :
    (∃ l s a s', afterRun paintRegistry (deskOptions ["blue.css", "green.css"]) paintFiles
        (fun fs => fs.erase ["w", "green.css"]) = some (l, s) ∧ l.usesCache = true ∧
      l.lint s = (.ok a, s') ∧ l.Saves s ∧ "/w/green.css" ∉ l.inputs (l.opened s) ∧
      "/w/green.css" ∈ s'.files.cachedIn s.cache.file) ∧
    ∃ l s e s', make { deskOptions ["red.css", "sub/plain.css"] with
        cacheLocation := some "red.css" } paintRegistry paintFiles = .ok (l, s) ∧
      l.usesCache = true ∧ s.cache.file = "/w/red.css" ∧ l.lint s = (.error e, s') ∧
      s'.files.stat s.cache.file ≠ s.files.stat s.cache.file := by
  have hended : (afterRun paintRegistry (deskOptions ["blue.css", "green.css"]) paintFiles
      (fun fs => fs.erase ["w", "green.css"])).any
      (fun (l, s) => decide (l.usesCache = true ∧
        ((l.linted s).cache.reconcile (l.linted s).files).2.2.toOption.isSome ∧
        (l.lint s).1.toOption.isSome ∧ "/w/green.css" ∉ l.inputs (l.opened s) ∧
        "/w/green.css" ∈ (l.lint s).2.files.cachedIn s.cache.file)) = true := by
    decide +kernel
  have hrejected : (make { deskOptions ["red.css", "sub/plain.css"] with
      cacheLocation := some "red.css" } paintRegistry paintFiles).toOption.any
      (fun (l, s) => decide (l.usesCache = true ∧ s.cache.file = "/w/red.css" ∧
        (l.lint s).1.toOption = none ∧
        ((l.lint s).2.files.stat s.cache.file).toOption ≠
          (s.files.stat s.cache.file).toOption)) = true := by
    decide +kernel
  constructor
  · obtain ⟨⟨l, s⟩, hmade, hfacts⟩ := (Option.any_eq_true _ _).1 hended
    obtain ⟨huse, hsaves, hok, hinputs, hkeys⟩ := of_decide_eq_true hfacts
    obtain ⟨_, hsaves⟩ := exists_ok_of_isSome hsaves
    obtain ⟨a, ha⟩ := exists_ok_of_isSome hok
    exact ⟨l, s, a, _, hmade, huse, Prod.ext ha rfl, hsaves, hinputs, hkeys⟩
  · obtain ⟨⟨l, s⟩, hmade, hfacts⟩ := (Option.any_eq_true _ _).1 hrejected
    obtain ⟨huse, hfile, hfailed, hchanged⟩ := of_decide_eq_true hfacts
    obtain ⟨e, he⟩ := exists_error_of_toOption hfailed
    refine ⟨l, s, e, _, eq_ok_of_toOption hmade, huse, hfile, Prod.ext he rfl, ?_⟩
    exact fun hsame => hchanged (congrArg Except.toOption hsame)

end StyleAudit
