import StyleAudit.Proofs.WriteBack

/-!
Whether a fix is due for an input that the cache answers for.

An entry is recorded for the text that was checked, also where the run then puts another text into
the file. So the cache answers for a text that was fixed before, if an edit brings it back, and the
fix is not made again. For any other text that the cache answers for, a full lint has nothing to
write back.
-/

namespace StyleAudit

/-- Whether an entry of a path stands for a check, and its text for one that was replaced then if
the check gave another one. -/
def CacheEntry.Traced (registry : Registry) (hashed replaced : List String) (path : String)
    (e : CacheEntry) : Prop :=
  ∃ r text o, r.CompletedBy registry ∧ r.config.StandsAlone ∧ text ∈ hashed ∧
    r.config.written ∈ hashed ∧ e = Linter.entryFor r text ∧
    Linter.checkInput registry (.ofFile path true) r (some text) = .ok o ∧
    ((Linter.rewritten? o).isSome → text ∈ replaced)

/-- A session in which the entries of a path, in memory and saved, are traced to checks. -/
structure Session.Traced (registry : Registry) (hashed replaced : List String) (path : String)
    (s : Session) : Prop where
  entry {e : CacheEntry} (h : s.cache.entries.find? path = some e) :
    e.Traced registry hashed replaced path
  stored {t : Table CacheEntry} {e : CacheEntry} (ht : s.files.Stores t)
    (h : t.find? path = some e) : e.Traced registry hashed replaced path

section Traced

variable {registry : Registry} {hashed replaced more others : List String} {path : String}
  {s : Session}

theorem CacheEntry.Traced.mono {e : CacheEntry} (h : e.Traced registry hashed replaced path)
    (hhashed : hashed ⊆ more) (hreplaced : replaced ⊆ others) :
    e.Traced registry more others path := by
  obtain ⟨r, text, o, hr, halone, htext, hconfig, he, hcheck, hold⟩ := h
  exact ⟨r, text, o, hr, halone, hhashed htext, hhashed hconfig, he, hcheck,
    fun h => hreplaced (hold h)⟩

theorem Session.Traced.mono (h : s.Traced registry hashed replaced path)
    (hhashed : hashed ⊆ more) (hreplaced : replaced ⊆ others) :
    s.Traced registry more others path :=
  ⟨fun he => (h.entry he).mono hhashed hreplaced,
    fun ht he => (h.stored ht he).mono hhashed hreplaced⟩

end Traced

namespace Linter

variable {registry : Registry} {hashed replaced : List String} {l : Linter} {s t : Session}
  {path other : String}

/-- The text of a path, if its turn puts another one in its place. -/
def replacing (l : Linter) (path other : String) (s : Session) : List String :=
  if other = path then
    match (l.lintInput (.ofFile path l.usesCache) s).1 with
    | .ok o => if (rewritten? o).isSome then o.linted.toList else []
    | .error _ => []
  else []

def replacedIn (l : Linter) (path : String) (s : Session) : List String :=
  l.gather (l.replacing path) (l.inputs s.started) s.started

/-- A text that is checked is the one that was linted. -/
theorem linted_of_checkInput {cache : Bool} {r : EffectiveConfig} {text : String}
    {o : InputOutcome} (h : checkInput registry (.ofFile path cache) r (some text) = .ok o) :
    o.linted = some text := by
  obtain ⟨_, _, _, -, hsheet, rfl⟩ := checkInput_eq_ok h
  obtain ⟨-, rfl⟩ := sheetOf_eq_ok hsheet
  rfl

/-- A turn puts no cache into a file. -/
theorem Turn.stores {x : Except LintError LintResult} {table : Table CacheEntry}
    (h : l.Turn other s x t) (ht : t.files.Stores table) : s.files.Stores table := by
  cases h with
  | failed hfiles _ _ => exact hfiles ▸ ht
  | skipped hfiles _ => exact hfiles ▸ ht
  | hit _ _ _ hfiles _ => exact hfiles ▸ ht
  | checked _ _ _ hwritten _ _ _ =>
      generalize t.files = fs at hwritten ht
      cases hwritten with
      | kept => exact ht
      | rewritten _ _ _ => exact ht.of_set.resolve_left fun ⟨_, heq⟩ => nomatch heq

/-- A turn keeps the entries of a path traced. -/
theorem Turn.traced (hl : l.Caching registry) (hs : s.Sound registry hashed)
    (htraced : s.Traced registry hashed replaced path) (hhashed : l.hashedFor other s ⊆ hashed)
    (hreplaced : l.replacing path other s ⊆ replaced) {x : Except LintError LintResult}
    (h : l.Turn other s x t) : t.Traced registry hashed replaced path := by
  refine ⟨fun {e} he => ?_, fun ht he => htraced.stored (h.stores ht) he⟩
  by_cases hpath : other = path
  case neg =>
      have hsame : s.cache.entries.find? path = t.cache.entries.find? path :=
        h.frame.cache.entry fun heq => hpath heq.symm
      exact htraced.entry (hsame.trans he)
  case pos =>
      subst hpath
      cases h with
      | failed _ _ hgone => cases hgone.symm.trans he
      | skipped _ hcache => exact htraced.entry (hcache ▸ he)
      | hit _ _ _ _ hcache =>
          rw [hcache, Cache.entries_visit] at he
          exact htraced.entry he
      | @checked r text o _ hready hcheck hlinted _ _ hclean hunclean =>
          by_cases hok : o.result.Clean
          case neg => cases (hunclean hl.usesCache hok).symm.trans he
          case pos =>
              obtain ⟨-, f, hf, hentry⟩ := hclean hl.usesCache hs.enabled hok
              obtain ⟨hr, halone, -⟩ := ready_of_prepare hl hs.memo hready
              have hf : StyleAudit.fingerprint text = f := by
                rw [Cache.fingerprintOf, hs.strategy] at hf
                exact Except.ok.inj hf
              obtain rfl := Option.some.inj (he.symm.trans hentry)
              rw [hashedFor, hready] at hhashed
              rw [hl.registry_eq, hl.usesCache] at hcheck
              refine ⟨r, text, o, hr, halone, hhashed (by simp), hhashed (by simp), ?_, hcheck, ?_⟩
              · rw [entryFor, hf]
              · intro hfixed
                apply hreplaced
                rw [replacing, if_pos rfl, hlinted]
                dsimp only
                rw [if_pos hfixed, linted_of_checkInput hcheck]
                exact List.mem_singleton_self text

theorem traced_lintEach (hl : l.Caching registry) (hs : s.Sound registry hashed)
    (htraced : s.Traced registry hashed replaced path) {paths : List String}
    (hpaths : ∀ p ∈ paths, Discovery.Spelled p) (hhashed : l.gather l.hashedFor paths s ⊆ hashed)
    (hreplaced : l.gather (l.replacing path) paths s ⊆ replaced) :
    (l.lintEach paths s).2.Traced registry hashed replaced path := by
  induction paths generalizing s with
  | nil => exact htraced
  | cons first paths ih =>
      rw [gather, List.append_subset] at hhashed hreplaced
      obtain ⟨hfirst, hrest⟩ := List.forall_mem_cons.1 hpaths
      have hturn := (turn_lintFile hfirst).traced hl hs htraced hhashed.1 hreplaced.1
      exact ih (sound_lintFile hl hs hhashed.1) hturn hrest hhashed.2 hreplaced.2

theorem traced_saveCache (henabled : s.cache.enabled = true)
    (htraced : s.Traced registry hashed replaced path) :
    (l.saveCache s).Traced registry hashed replaced path := by
  have hpruned {e : CacheEntry} (he : s.cache.prune.entries.find? path = some e) :
      e.Traced registry hashed replaced path :=
    htraced.entry (Cache.find?_of_prune he)
  rw [saveCache]
  split
  case isFalse => exact htraced
  case isTrue =>
      rw [Cache.reconcile, if_pos henabled]
      have hsaved : Session.Traced registry hashed replaced path
          { s with cache := s.cache.prune, files := (s.cache.prune.save s.files).1 } := by
        refine ⟨hpruned, fun ht he => ?_⟩
        rcases stores_save ht with rfl | hold
        · exact hpruned he
        · exact htraced.stored hold he
      dsimp only
      cases (s.cache.prune.save s.files).2 with
      | ok u => exact hsaved
      | error e => exact ⟨hsaved.entry, hsaved.stored⟩

/-- A run keeps the entries of a path traced. -/
theorem traced_lint (hl : l.Caching registry) (hs : s.Sound registry hashed)
    (htraced : s.Traced registry hashed replaced path) (hproper : s.files.Proper)
    (hhashed : l.hashed s ⊆ hashed) (hreplaced : l.replacedIn path s ⊆ replaced) :
    (l.lint s).2.Traced registry hashed replaced path := by
  have hopened := l.opened_of_usesCache hl.usesCache s
  have hstarted : Session.Sound registry hashed s.started := hs.withFiles fun ht => ht
  have hpaths := (inputs_spec (l := l) (l.proper_opened hproper)).1
  rw [hopened] at hpaths
  have hlinted : (l.linted s).Traced registry hashed replaced path := by
    rw [linted, hopened]
    exact traced_lintEach hl hstarted ⟨htraced.entry, htraced.stored⟩ hpaths hhashed hreplaced
  have henabled : (l.linted s).cache.enabled = true := by
    rw [linted, hopened]
    exact (sound_lintEach hl hstarted hhashed).enabled
  obtain ⟨m, notices, ⟨e, hlint⟩ | ⟨results, -, hlint⟩⟩ := lint_cases hl.files hl.code s
  · rw [hlint]
    exact ⟨hlinted.entry, hlinted.stored⟩
  · rw [hlint]
    exact traced_saveCache henabled ⟨hlinted.entry, hlinted.stored⟩

/-- A linter that is made over files whose caches are traced begins with such a cache. -/
theorem traced_of_make {o : Options} {fs : FileSystem} (ho : o.CachesByContent)
    (hfs : ∀ {t e}, fs.Stores t → t.find? path = some e →
      e.Traced registry hashed replaced path)
    (h : make o registry fs = .ok (l, s)) : s.Traced registry hashed replaced path := by
  obtain ⟨-, -, -, hfiles, -, -⟩ := make_spec h
  refine ⟨fun {e} he => ?_, fun ht he => hfs (hfiles ▸ ht) he⟩
  rcases (cache_of_make ho h).2.2 with hnone | hstored
  · rw [hnone] at he
    cases he
  · exact hfs hstored he

/-- A full lint of a path that is to be checked is a check. -/
theorem lintInput_of_readies {r : EffectiveConfig} {text : String}
    (h : l.Readies path s r text) : (l.lintInput (.ofFile path false) s).1 =
      checkInput l.registry (.ofFile path true) r (some text) := by
  have hsame : l.prepare (.ofFile path false) s = l.prepare (.ofFile path l.usesCache) s := rfl
  rcases hprepare : l.prepare (.ofFile path l.usesCache) s with ⟨p, t⟩
  obtain rfl : p = .ok (.ready r (some text)) := (congrArg Prod.fst hprepare).symm.trans h
  rw [lintInput, hsame, hprepare]
  rfl

/-- A check that leaves its text as it is gives no other one. -/
theorem output_of_kept {r : EffectiveConfig} {text : String} {o : InputOutcome}
    (h : checkInput registry (.ofFile path true) r (some text) = .ok o)
    (hkept : ¬(rewritten? o).isSome) : o.output = none ∨ o.output = some text := by
  have hnone : rewritten? o = none := by simpa using hkept
  unfold rewritten? at hnone
  rw [(checked_of_checkInput h).ignored, linted_of_checkInput h] at hnone
  cases houtput : o.output with
  | none => exact .inl rfl
  | some output =>
      rw [houtput] at hnone
      dsimp only at hnone
      split at hnone
      case isTrue heq => exact .inr (congrArg some heq.symm)
      case isFalse => cases hnone

/-- Where an entry that is traced answers for a text, a full lint has nothing to write back, unless
the text was replaced before. -/
theorem output_of_traced {r : EffectiveConfig} {text : String} (hfree : CollisionFree hashed)
    (hr : r.CompletedBy registry) (halone : r.config.StandsAlone) (htext : text ∈ hashed)
    (hconfig : r.config.written ∈ hashed)
    (h : (entryFor r text).Traced registry hashed replaced path) :
    ∃ o, checkInput registry (.ofFile path true) r (some text) = .ok o ∧
      (text ∉ replaced → o.output = none ∨ o.output = some text) := by
  obtain ⟨r', text', o, hr', halone', htext', hconfig', he, hcheck, hold⟩ := h
  obtain ⟨hprint, hhash⟩ := CacheEntry.mk.inj he
  obtain rfl := hfree text htext text' htext' hprint
  rw [hr.hash, hr'.hash] at hhash
  have hsame := halone.eq_of_written halone' (hfree _ hconfig _ hconfig' hhash)
  refine ⟨o, (checkInput_congr hr hr' hsame _ _).trans hcheck, fun hnew => ?_⟩
  exact output_of_kept hcheck fun hfixed => hnew (hold hfixed)

/-- A turn that is answered from the cache has no fix to make, unless to a text that was replaced
before. -/
theorem Turn.output_of_fromCache (hl : l.Caching registry) (hs : s.Sound registry hashed)
    (htraced : ∀ {e}, s.cache.entries.find? path = some e → e.Traced registry hashed replaced path)
    (hfree : CollisionFree hashed) (hhashed : l.hashedFor path s ⊆ hashed) {r : LintResult}
    (h : l.Turn path s (.ok r) t) (hcache : r.fromCache = true) :
    ∃ text o, s.files.readText path = .ok text ∧
      (l.lintInput (.ofFile path false) s).1 = .ok o ∧
      (text ∉ replaced → o.output = none ∨ o.output = some text) := by
  obtain ⟨config, text, f, hready, hf, hentry⟩ := h.hit_of_fromCache hcache
  obtain ⟨hconfig, halone, -⟩ := ready_of_prepare hl hs.memo hready
  rw [Cache.fingerprintOf, hs.strategy] at hf
  obtain rfl := Except.ok.inj hf
  rw [Cache.get?, if_pos hs.enabled] at hentry
  rw [hashedFor, hready] at hhashed
  obtain ⟨o, hcheck, houtput⟩ := output_of_traced hfree hconfig halone (hhashed (by simp))
    (hhashed (by simp)) (htraced hentry)
  rw [lintInput_of_readies hready, hl.registry_eq]
  exact ⟨text, o, hready.readText, hcheck, houtput⟩

end Linter

/--
A history over files whose names can be spelled, with the texts of a path that its runs have
replaced.
-/
inductive FixHistory (registry : Registry) (path : String) :
    List String → List String → Linter → Session → Prop
  | start {o : Options} {fs : FileSystem} {l : Linter} {s : Session} (ho : o.CachesByContent)
      (hnew : ∀ t, ¬fs.Stores t) (hmade : Linter.make o registry fs = .ok (l, s)) :
      FixHistory registry path [] [] l s
  | reopen {hashed replaced : List String} {l l' : Linter} {s s' : Session} {o : Options}
      (h : FixHistory registry path hashed replaced l s) (ho : o.CachesByContent)
      (hmade : Linter.make o registry s.files = .ok (l', s')) :
      FixHistory registry path hashed replaced l' s'
  | edit {hashed replaced : List String} {l : Linter} {s : Session} {fs : FileSystem}
      (h : FixHistory registry path hashed replaced l s)
      (hfs : ∀ t, fs.Stores t → s.files.Stores t) :
      FixHistory registry path hashed replaced l { s with files := fs }
  | run {hashed replaced : List String} {l : Linter} {s : Session}
      (h : FixHistory registry path hashed replaced l s) (hproper : s.files.Proper) :
      FixHistory registry path (hashed ++ l.hashed s) (replaced ++ l.replacedIn path s) l
        (l.lint s).2

namespace FixHistory

variable {registry : Registry} {path : String} {hashed replaced : List String} {l : Linter}
  {s : Session}

theorem history (h : FixHistory registry path hashed replaced l s) :
    History registry hashed l s := by
  induction h with
  | start ho hnew hmade => exact .start ho hnew hmade
  | reopen _ ho hmade ih => exact ih.reopen ho hmade
  | edit _ hfs ih => exact ih.edit hfs
  | run _ _ ih => exact ih.run

/-- After any history the entries of a path are traced to checks. -/
theorem traced (hregistry : registry.Named) (h : FixHistory registry path hashed replaced l s) :
    s.Traced registry hashed replaced path := by
  induction h with
  | start ho hnew hmade =>
      exact Linter.traced_of_make ho (fun ht => absurd ht (hnew _)) hmade
  | reopen h ho hmade ih => exact Linter.traced_of_make ho ih.stored hmade
  | edit h hfs ih => exact ⟨ih.entry, fun ht => ih.stored (hfs _ ht)⟩
  | run h hproper ih =>
      obtain ⟨hl, hs⟩ := h.history.sound hregistry
      exact Linter.traced_lint hl (hs.mono (List.subset_append_left _ _))
        (ih.mono (List.subset_append_left _ _) (List.subset_append_left _ _)) hproper
        (List.subset_append_right _ _) (List.subset_append_right _ _)

/--
No pending fix: whatever came before, if no two of the hashed texts have the same fingerprint and
the cache answers for a path, then a full lint of its text gives no other text to write back,
unless the text is one that an earlier run has replaced in the file.
-/
theorem no_pending_fix (hregistry : registry.Named)
    (h : FixHistory registry path hashed replaced l s)
    (hfree : CollisionFree (hashed ++ l.hashed s)) (hproper : s.files.Proper)
    {before after : List String} (hinputs : l.inputs s.started = before ++ path :: after)
    {r : LintResult} (hr : (l.lintFile path (l.lintEach before s.started).2).1 = .ok r)
    (hcache : r.fromCache = true) :
    ∃ text o, (l.lintEach before s.started).2.files.readText path = .ok text ∧
      (l.lintInput (.ofFile path false) (l.lintEach before s.started).2).1 = .ok o ∧
      (text ∉ replaced → o.output = none ∨ o.output = some text) := by
  obtain ⟨hl, hs⟩ := h.history.sound hregistry
  have htraced := (h.traced hregistry).mono (List.subset_append_left hashed (l.hashed s))
    (List.Subset.refl replaced)
  have hall := hs.mono (List.subset_append_left hashed (l.hashed s))
  have hnow := List.subset_append_right hashed (l.hashed s)
  generalize hashed ++ l.hashed s = more at hfree htraced hall hnow
  rw [Linter.hashed, hinputs, Linter.gather_append, Linter.gather, List.append_subset,
    List.append_subset] at hnow
  obtain ⟨hearlier, hown, -⟩ := hnow
  have hstarted : Session.Sound registry more s.started := hall.withFiles fun ht => ht
  have hturned := Linter.sound_lintEach hl hstarted hearlier
  have hproper : s.started.files.Proper := ⟨hproper.names⟩
  have hpaths := (Linter.inputs_spec (l := l) hproper).1
  have hnodup := Linter.nodup_inputs (l := l) hproper
  rw [hinputs] at hpaths hnodup
  -- The paths before this one have not touched its entry.
  obtain ⟨t, u, x, D, ht, hturn, hx, -, hsame, -⟩ :=
    Linter.turn_lintEach (l := l) (s := s.started) hpaths hnodup
  rw [l.getElem?_lintEach, hr] at hx
  obtain rfl := Option.some.inj hx
  rw [← ht] at hown hturned ⊢
  have hentry {e : CacheEntry} (he : t.cache.entries.find? path = some e) :
      e.Traced registry more replaced path :=
    htraced.entry ((hsame.cache.entry (Set.mem_singleton path)).trans he)
  exact hturn.output_of_fromCache hl hturned hentry hfree hown hcache

end FixHistory

theorem named_paintRegistry : paintRegistry.Named :=
  fun _ _ h => nomatch h

theorem not_stores_paintFiles (t : Table CacheEntry) : ¬paintFiles.Stores t := by
  refine FileSystem.not_stores (fun entry hentry t modified => ?_) t
  simp only [paintFiles, List.mem_cons, List.not_mem_nil, or_false] at hentry
  rcases hentry with rfl | rfl | rfl | rfl | rfl | rfl | rfl | rfl <;> exact nofun

/-- After two runs over a red sheet, of which the first has made it green, the cache answers for
the green text. -/
theorem FixHistory.no_pending_fix_green :
    ∃ hashed replaced l s r text o,
      FixHistory paintRegistry "/w/red.css" hashed replaced l s ∧
      CollisionFree (hashed ++ l.hashed s) ∧ replaced = ["a \x7bcolor: red\x7d"] ∧
      (l.lintFile "/w/red.css" s.started).1 = .ok r ∧ r.fromCache = true ∧
      s.started.files.readText "/w/red.css" = .ok text ∧ text = "a \x7bcolor: green\x7d" ∧
      (l.lintInput (.ofFile "/w/red.css" false) s.started).1 = .ok o ∧
      (o.output = none ∨ o.output = some text) := by
  have hfacts : (Linter.make (deskOptions ["red.css"]) paintRegistry paintFiles).toOption.any
      (fun (l, s₀) =>
        let s₁ := (l.lint s₀).2
        let s₂ := (l.lint s₁).2
        decide (s₀.files.Proper ∧ s₁.files.Proper ∧ s₂.files.Proper ∧
          CollisionFree (([] ++ l.hashed s₀) ++ l.hashed s₁ ++ l.hashed s₂) ∧
          ([] ++ l.replacedIn "/w/red.css" s₀) ++ l.replacedIn "/w/red.css" s₁ =
            ["a \x7bcolor: red\x7d"] ∧
          l.inputs s₂.started = ["/w/red.css"] ∧
          (l.lintFile "/w/red.css" s₂.started).1.toOption.map LintResult.fromCache = some true ∧
          (s₂.started.files.readText "/w/red.css").toOption =
            some "a \x7bcolor: green\x7d")) = true := by
    decide +kernel
  obtain ⟨⟨l, s₀⟩, hmade, hfacts⟩ := (Option.any_eq_true _ _).1 hfacts
  obtain ⟨hproper₀, hproper₁, hproper₂, hfree, hreplaced, hinputs, hcached, hread⟩ :=
    of_decide_eq_true hfacts
  have hmade := eq_ok_of_toOption hmade
  have hread := eq_ok_of_toOption hread
  obtain ⟨r, hr, hcache⟩ := Option.map_eq_some_iff.1 hcached
  have hr := eq_ok_of_toOption hr
  have hfirst : FixHistory paintRegistry "/w/red.css" [] [] l s₀ :=
    .start (cachesByContent_deskOptions _) not_stores_paintFiles hmade
  have hsecond := (hfirst.run hproper₀).run hproper₁
  have hinputs : l.inputs (l.lint (l.lint s₀).2).2.started = [] ++ "/w/red.css" :: [] := hinputs
  obtain ⟨text, o, htext, ho, houtput⟩ := FixHistory.no_pending_fix named_paintRegistry hsecond
    hfree hproper₂ hinputs hr hcache
  obtain rfl := Except.ok.inj (hread.symm.trans htext)
  exact ⟨_, _, l, _, r, _, o, hsecond, hfree, hreplaced, hr, hcache, htext, rfl, ho,
    houtput (by rw [hreplaced]; decide)⟩

/-- A run makes a red sheet green and keeps the entry of the red text. When an edit brings the red
text back, the cache answers for it, though a full lint would make it green again. -/
theorem FixHistory.fix_skipped_for_restored_text :
    ∃ hashed l s r o, History paintRegistry hashed l s ∧ CollisionFree (hashed ++ l.hashed s) ∧
      l.options.fix = some true ∧ l.inputs s.started = ["/w/red.css"] ∧
      (l.lintFile "/w/red.css" s.started).1 = .ok r ∧ r.fromCache = true ∧
      s.started.files.readText "/w/red.css" = .ok "a \x7bcolor: red\x7d" ∧
      (l.lintInput (.ofFile "/w/red.css" false) s.started).1 = .ok o ∧
      o.output = some "a \x7bcolor: green\x7d" := by
  have hfacts : (Linter.make (deskOptions ["red.css"]) paintRegistry paintFiles).toOption.any
      (fun (l, s₀) =>
        let s₁ := (l.lint s₀).2
        let restored := s₁.files.set ["w", "red.css"] (.file (.text "a \x7bcolor: red\x7d") 0)
        let s₂ : Session := { s₁ with files := restored }
        decide (CollisionFree (([] ++ l.hashed s₀) ++ l.hashed s₂) ∧
          l.options.fix = some true ∧ l.inputs s₂.started = ["/w/red.css"] ∧
          (l.lintFile "/w/red.css" s₂.started).1.toOption.map LintResult.fromCache = some true ∧
          (s₂.started.files.readText "/w/red.css").toOption = some "a \x7bcolor: red\x7d" ∧
          (l.lintInput (.ofFile "/w/red.css" false) s₂.started).1.toOption.map
            InputOutcome.output = some (some "a \x7bcolor: green\x7d"))) = true := by
    decide +kernel
  obtain ⟨⟨l, s₀⟩, hmade, hfacts⟩ := (Option.any_eq_true _ _).1 hfacts
  obtain ⟨hfree, hfix, hinputs, hcached, hread, hfull⟩ := of_decide_eq_true hfacts
  obtain ⟨r, hr, hcache⟩ := Option.map_eq_some_iff.1 hcached
  obtain ⟨o, ho, houtput⟩ := Option.map_eq_some_iff.1 hfull
  have hfirst : History paintRegistry [] l s₀ := .start (cachesByContent_deskOptions _)
    not_stores_paintFiles (eq_ok_of_toOption hmade)
  have hedited : History paintRegistry _ l { (l.lint s₀).2 with
      files := (l.lint s₀).2.files.set ["w", "red.css"]
        (.file (.text "a \x7bcolor: red\x7d") 0) } :=
    hfirst.run.edit fun _ ht => ht.of_set.resolve_left fun ⟨_, heq⟩ => nomatch heq
  exact ⟨_, l, _, r, o, hedited, hfree, hfix, hinputs, eq_ok_of_toOption hr, hcache,
    eq_ok_of_toOption hread, eq_ok_of_toOption ho, houtput⟩

end StyleAudit
