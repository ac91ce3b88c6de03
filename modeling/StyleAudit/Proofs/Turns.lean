import StyleAudit.Proofs.Isolation
import StyleAudit.Proofs.Saving

/-!
What the turn of one path in a run can come to.

A path fails, is left out, is answered from the cache, or is checked. Each of these is told with all
that it does to the files and to the cache, so what a whole run does follows without looking into a
turn again.
-/

namespace StyleAudit

open FileSystem (AgreeOutside)

namespace Linter

variable {l : Linter} {path : String} {s t : Session}

section Prepare

/-- Looking for a configuration only adds to what is remembered. -/
theorem startingConfig_frame (l : Linter) (path : Option String) (s : Session) :
    ∃ m, (l.startingConfig path s).2 = { s with memo := m } := by
  rw [startingConfig]
  split
  case h_1 => exact ⟨s.memo, rfl⟩
  case h_2 => exact ⟨_, rfl⟩
  case h_3 =>
      split
      case h_1 => exact ⟨_, rfl⟩
      case h_2 => exact ⟨_, rfl⟩
      case h_3 =>
          split
          case isTrue =>
              split
              all_goals exact ⟨_, rfl⟩
          case isFalse => exact ⟨_, rfl⟩

theorem configFor_frame (l : Linter) (path : Option String) (s : Session) :
    ∃ m notices, (l.configFor path s).2 = { s with memo := m, notices := notices } := by
  obtain ⟨m, hm⟩ := l.startingConfig_frame path s
  rw [configFor]
  split
  case h_1 heq =>
      rw [heq] at hm
      exact ⟨m, s.notices, hm⟩
  case h_2 heq =>
      rw [heq] at hm
      obtain rfl := hm
      exact ⟨_, _, rfl⟩

/-- Preparing an input changes neither files nor the cache. -/
theorem prepare_frame (l : Linter) (i : LintInput) (s : Session) :
    ∃ m notices, (l.prepare i s).2 = { s with memo := m, notices := notices } := by
  obtain ⟨m, notices, hconfig⟩ := l.configFor_frame i.path s
  rw [prepare]
  split
  case h_1 => exact ⟨s.memo, s.notices, rfl⟩
  case h_2 =>
      split
      case isTrue => exact ⟨s.memo, s.notices, rfl⟩
      case isFalse =>
          split
          case h_1 heq =>
              rw [heq] at hconfig
              exact ⟨m, notices, hconfig⟩
          case h_2 heq =>
              rw [heq] at hconfig
              exact ⟨m, notices, hconfig⟩

/-- Whether a path is to be checked in a session: its configuration and its text. -/
def Readies (l : Linter) (path : String) (s : Session) (r : EffectiveConfig) (text : String) :
    Prop :=
  (l.prepare (.ofFile path l.usesCache) s).1 = .ok (.ready r (some text))

/-- What is to be checked is the text of the file. -/
theorem text_of_prepare {cache : Bool} {r : EffectiveConfig} {text : Option String}
    (h : (l.prepare (.ofFile path cache) s).1 = .ok (.ready r text)) :
    ∃ t, text = some t ∧ s.files.readText path = .ok t := by
  rcases prepare_eq_ok h with hskipped | ⟨r', u, own, hconfig, hready, htext⟩
  · cases hskipped
  · obtain ⟨-, rfl⟩ := PreparedInput.ready.inj hready
    obtain ⟨m, notices, hframe⟩ := l.configFor_frame (LintInput.ofFile path cache).path s
    rw [hconfig] at hframe
    obtain rfl := hframe
    exact textOf_file htext

theorem Readies.readText {r : EffectiveConfig} {text : String} (h : l.Readies path s r text) :
    s.files.readText path = .ok text := by
  obtain ⟨t, ht, hread⟩ := text_of_prepare h
  rw [Option.some.inj ht, hread]

end Prepare

/-- What is done to the files for an outcome: a new text is put into the file of the path. -/
inductive WritesBack (path : String) (o : InputOutcome) (fs : FileSystem) : FileSystem → Prop
  | kept (h : rewritten? o = none) : WritesBack path o fs fs
  | rewritten {fixed : String} {names : List String} (h : rewritten? o = some fixed)
      (hroom : fs.draftFault? path = none) (hplace : fs.locate path = .ok names)
      (hfile : fs.kind names = .file) :
      WritesBack path o fs (fs.set names (.file (.text fixed) fs.now))

/-- What the turn of a path comes to, and the session that it leaves. -/
inductive Turn (l : Linter) (path : String) (s : Session) :
    Except LintError LintResult → Session → Prop
  | failed {e : LintError} {t : Session} (hfiles : t.files = s.files)
      (hcache : s.cache.AgreeOn {path}ᶜ t.cache) (hgone : t.cache.entries.find? path = none) :
      Turn l path s (resultOfError (some path) e s).1 t
  | skipped {t : Session} (hfiles : t.files = s.files) (hcache : t.cache = s.cache) :
      Turn l path s (.ok (LintResult.skipped path)) t
  | hit {r : EffectiveConfig} {text f : String} {t : Session} (hready : l.Readies path s r text)
      (hfingerprint : s.cache.fingerprintOf s.files path text = .ok f)
      (hentry : s.cache.get? path = some ⟨f, r.hash⟩) (hfiles : t.files = s.files)
      (hcache : t.cache = s.cache.visit path) :
      Turn l path s (.ok (LintResult.cached path)) t
  | checked {r : EffectiveConfig} {text : String} {o : InputOutcome} {t : Session}
      (hready : l.Readies path s r text)
      (hcheck : checkInput l.registry (.ofFile path l.usesCache) r (some text) = .ok o)
      (hlinted : (l.lintInput (.ofFile path l.usesCache) s).1 = .ok o)
      (hfiles : WritesBack path o s.files t.files) (hcache : s.cache.AgreeOn {path}ᶜ t.cache)
      (hclean : l.usesCache = true → s.cache.enabled = true → o.result.Clean →
        path ∈ t.cache.visited ∧ ∃ f, s.cache.fingerprintOf s.files path text = .ok f ∧
          t.cache.entries.find? path = some ⟨f, r.hash⟩)
      (hunclean : l.usesCache = true → ¬o.result.Clean → t.cache.entries.find? path = none) :
      Turn l path s (.ok o.result) t

/-- A path that failed is forgotten. -/
theorem turn_fail {u : Session} {m : ConfigMemo} {c : Cache} {notices : List String}
    (hu : u = { s with memo := m, notices := notices, cache := c })
    (hcache : s.cache.AgreeOn {path}ᶜ c) (e : LintError) :
    l.Turn path s (fail path e u).1 (fail path e u).2 := by
  obtain ⟨notices', hfail⟩ := session_fail path e u
  have hresult : (fail path e u).1 = (resultOfError (some path) e s).1 :=
    resultOfError_congr _ _ _ _
  subst hu
  rw [hresult, hfail]
  refine .failed rfl (hcache.trans (.evict_self c path)) ?_
  rw [Cache.evict, Table.find?_erase, if_pos rfl]

/-- A check of a file that was read is written back to it, unless nothing can be made beside it. -/
theorem writesBack_finish (hpath : Discovery.Spelled path) {text : String}
    (hread : s.files.readText path = .ok text) (o : InputOutcome) :
    (∃ fault, finish path (.ok o) s = fail path (.unwritable path fault) s) ∨
      ∃ fs, finish path (.ok o) s = (.ok o.result, { s with files := fs }) ∧
        WritesBack path o s.files fs := by
  cases hfixed : rewritten? o with
  | none => exact .inr ⟨s.files, finish_of_kept hfixed path s, .kept hfixed⟩
  | some fixed =>
      obtain ⟨names, hnames, hfile, hfinish⟩ := finish_of_rewritten hpath hread
      rw [hfinish o fixed hfixed]
      cases hroom : s.files.draftFault? path with
      | some fault => exact .inl ⟨fault, rfl⟩
      | none => exact .inr ⟨_, rfl, .rewritten hfixed hroom hnames hfile⟩

/-- What the cache is asked for a text that was read. -/
theorem cacheQuery_file (l : Linter) (path : String) (s : Session) (r : EffectiveConfig)
    (text : String) : cacheQuery s (.ofFile path l.usesCache) r (some text) =
      if l.usesCache then
        match s.cache.fingerprintOf s.files path text with
        | .error e => .error (.cache e)
        | .ok f => .ok (some (path, ⟨f, r.hash⟩))
      else .ok none := by
  cases huse : l.usesCache <;> rfl

/-- A result puts the entry of its path there if it is clean, and takes it away otherwise. -/
theorem updateCache_spec (c : Cache) (path : String) (entry : CacheEntry) (result : LintResult) :
    c.AgreeOn {path}ᶜ (updateCache c path entry result) ∧
      (c.enabled = true → result.Clean → path ∈ (updateCache c path entry result).visited ∧
        (updateCache c path entry result).entries.find? path = some entry) ∧
      (¬result.Clean → (updateCache c path entry result).entries.find? path = none) := by
  refine ⟨.updateCache_self c path entry result, fun henabled hclean => ?_, fun hunclean => ?_⟩
  · rw [updateCache, if_pos (by simpa [LintResult.Clean] using hclean), Cache.record,
      if_pos henabled]
    refine ⟨Cache.mem_visited_visit.2 (.inl rfl), ?_⟩
    rw [Cache.entries_visit, Table.find?_insertSorted, if_pos rfl]
  · rw [updateCache, if_neg (by simpa [LintResult.Clean] using hunclean), Cache.evict,
      Table.find?_erase, if_pos rfl]

section Examine

variable {r : EffectiveConfig} {text f : String} {m : ConfigMemo} {notices : List String}
  {o : Except LintError InputOutcome} {u : Session}

/-- The turn of a path whose fingerprint is looked up. -/
theorem turn_examineCached (hpath : Discovery.Spelled path) (hready : l.Readies path s r text)
    (hread : s.files.readText path = .ok text)
    (hfingerprint : s.cache.fingerprintOf s.files path text = .ok f)
    (ho : (l.lintInput (.ofFile path l.usesCache) s).1 = o)
    (h : l.examineCached (.ofFile path l.usesCache) r (some text) path ⟨f, r.hash⟩
      { s with memo := m, notices := notices } = (o, u)) :
    l.Turn path s (finish path o u).1 (finish path o u).2 := by
  have hframe := Cache.AgreeOn.check_self s.cache path ⟨f, r.hash⟩
  rw [examineCached] at h
  dsimp only at h
  split at h
  case isTrue hclean =>
      obtain ⟨rfl, rfl⟩ := Prod.mk.inj h
      rw [Cache.check] at hclean
      split at hclean
      case isTrue henabled =>
          refine .hit hready hfingerprint (eq_of_beq hclean) rfl ?_
          rw [finish_of_kept rfl, Cache.check, if_pos henabled]
      case isFalse => cases hclean
  case isFalse =>
      cases hcheck : checkInput l.registry (.ofFile path l.usesCache) r (some text) with
      | error e =>
          rw [hcheck] at h
          obtain ⟨rfl, rfl⟩ := Prod.mk.inj h
          exact turn_fail rfl hframe e
      | ok out =>
          rw [hcheck] at h
          obtain ⟨rfl, rfl⟩ := Prod.mk.inj h
          obtain ⟨hupdate, hclean, hunclean⟩ :=
            updateCache_spec (s.cache.check path ⟨f, r.hash⟩).2 path ⟨f, r.hash⟩ out.result
          rcases writesBack_finish (s := { s with
            memo := m, notices := notices,
            cache := updateCache (s.cache.check path ⟨f, r.hash⟩).2 path ⟨f, r.hash⟩ out.result })
            hpath hread out with ⟨fault, hfail⟩ | ⟨fs, hfinish, hwritten⟩
          · -- What was recorded before the text could not be written is forgotten.
            rw [hfail]
            exact turn_fail rfl (hframe.trans hupdate) _
          · rw [hfinish]
            refine .checked hready hcheck ho hwritten (hframe.trans hupdate) ?_ fun _ => hunclean
            intro _ henabled hresult
            obtain ⟨hvisited, hentry⟩ := hclean (by rwa [← hframe.enabled]) hresult
            exact ⟨hvisited, f, hfingerprint, hentry⟩

/-- The turn of a path that is to be checked, once it is prepared. -/
theorem turn_examine (hpath : Discovery.Spelled path) (hready : l.Readies path s r text)
    (hread : s.files.readText path = .ok text)
    (ho : (l.lintInput (.ofFile path l.usesCache) s).1 = o)
    (h : l.examine (.ofFile path l.usesCache) (.ready r (some text))
      { s with memo := m, notices := notices } = (o, u)) :
    l.Turn path s (finish path o u).1 (finish path o u).2 := by
  rw [examine, cacheQuery_file] at h
  cases huse : l.usesCache with
  | false =>
      rw [if_neg (by simp [huse])] at h
      obtain ⟨rfl, rfl⟩ := Prod.mk.inj h
      cases hcheck : checkInput l.registry (.ofFile path l.usesCache) r (some text) with
      | error e => exact turn_fail rfl (.refl _ _) e
      | ok out =>
          rw [hcheck] at ho
          rcases writesBack_finish (s := { s with memo := m, notices := notices }) hpath hread out
            with ⟨fault, hfail⟩ | ⟨fs, hfinish, hwritten⟩
          · rw [hfail]
            exact turn_fail rfl (.refl _ _) _
          · rw [hfinish]
            exact .checked hready hcheck ho hwritten (.refl _ _) (by simp [huse]) (by simp [huse])
  | true =>
      rw [if_pos huse] at h
      cases hfingerprint : s.cache.fingerprintOf s.files path text with
      | error e =>
          rw [hfingerprint] at h
          obtain ⟨rfl, rfl⟩ := Prod.mk.inj h
          exact turn_fail rfl (.refl _ _) _
      | ok f =>
          rw [hfingerprint] at h
          exact turn_examineCached hpath hready hread hfingerprint ho h

end Examine

/-- Every turn of a path is one of these. -/
theorem turn_lintFile (hpath : Discovery.Spelled path) :
    l.Turn path s (l.lintFile path s).1 (l.lintFile path s).2 := by
  obtain ⟨m, notices, hsession⟩ := l.prepare_frame (.ofFile path l.usesCache) s
  rw [lintFile]
  rcases hprepare : l.prepare (.ofFile path l.usesCache) s with ⟨p, u⟩
  rw [hprepare] at hsession
  obtain rfl := hsession
  rcases p with e | skipped | ⟨r, text⟩
  · rw [lintInput, hprepare]
    exact turn_fail rfl (.refl _ _) e
  · obtain rfl := skipped_of_prepare (congrArg Prod.fst hprepare)
    rw [lintInput, hprepare]
    exact .skipped rfl rfl
  · obtain ⟨t, rfl, hread⟩ := text_of_prepare (congrArg Prod.fst hprepare)
    have hlint : l.lintInput (.ofFile path l.usesCache) s =
        l.examine (.ofFile path l.usesCache) (.ready r (some t))
          { s with memo := m, notices := notices } := by
      rw [lintInput, hprepare]
    rw [hlint]
    exact turn_examine hpath (congrArg Prod.fst hprepare) hread (congrArg Prod.fst hlint) rfl

/-- The result of an error is neither left out nor clean. -/
theorem not_clean_of_error {source : Option String} {e : LintError} {s : Session}
    {r : LintResult} (h : (resultOfError source e s).1 = .ok r) :
    r.fromCache = false ∧ r.ignored = false ∧ ¬r.Clean := by
  rw [resultOfError.eq_def] at h
  split at h
  · obtain rfl := Except.ok.inj h
    refine ⟨rfl, rfl, fun hclean => ?_⟩
    cases hclean.2
  · split at h
    · cases h
    · obtain rfl := Except.ok.inj h
      refine ⟨rfl, rfl, fun hclean => ?_⟩
      cases hclean.2

/-- A path that the cache answers for has an entry with its fingerprint. -/
theorem Turn.hit_of_fromCache {r : LintResult} (h : l.Turn path s (.ok r) t)
    (hcache : r.fromCache = true) : ∃ config text f, l.Readies path s config text ∧
      s.cache.fingerprintOf s.files path text = .ok f ∧
      s.cache.get? path = some ⟨f, config.hash⟩ := by
  generalize hx : (Except.ok r : Except LintError LintResult) = x at h
  cases h with
  | failed _ _ _ =>
      rw [(not_clean_of_error hx.symm).1] at hcache
      cases hcache
  | skipped _ _ =>
      obtain rfl := Except.ok.inj hx
      cases hcache
  | hit hready hf hentry _ _ => exact ⟨_, _, _, hready, hf, hentry⟩
  | checked _ hcheck _ _ _ _ _ =>
      obtain rfl := Except.ok.inj hx
      rw [(checked_of_checkInput hcheck).fromCache] at hcache
      cases hcache

/-- The path, if its turn puts a new text into its file. -/
def rewriting (l : Linter) (path : String) (s : Session) : List String :=
  match (l.lintInput (.ofFile path l.usesCache) s).1 with
  | .ok o => if (rewritten? o).isSome && (s.files.draftFault? path).isNone then [path] else []
  | .error _ => []

theorem rewriting_subset (l : Linter) (path : String) (s : Session) :
    l.rewriting path s ⊆ [path] := by
  rw [rewriting]
  split
  · split
    · exact List.Subset.refl _
    · exact List.nil_subset _
  · exact List.nil_subset _

/-- What comes together along a row of paths is among the paths, if each adds itself at most. -/
theorem gather_subset {of : String → Session → List String} (h : ∀ p s, of p s ⊆ [p])
    (paths : List String) (s : Session) : l.gather of paths s ⊆ paths := by
  induction paths generalizing s with
  | nil => exact List.Subset.refl _
  | cons path paths ih =>
      rw [gather]
      apply List.append_subset.2
      constructor
      · intro p hp
        rw [List.mem_singleton.1 (h path s hp)]
        exact List.mem_cons_self
      · exact List.Subset.trans (ih _) (List.subset_cons_self path paths)

/-- What is written back changes the file of the path, and not the time. -/
theorem WritesBack.frame {o : InputOutcome} {fs fs' : FileSystem}
    (h : WritesBack path o fs fs') :
    fs.AgreeOutside (fs.placesOf
        (if (rewritten? o).isSome && (fs.draftFault? path).isNone then [path] else [])) fs' ∧
      fs.now = fs'.now := by
  cases h with
  | kept => exact ⟨.refl _ _, rfl⟩
  | rewritten hfixed hroom hplace hfile =>
      rw [hfixed, hroom]
      refine ⟨(AgreeOutside.set hfile _ _).mono ?_, rfl⟩
      rintro _ rfl
      exact ⟨path, List.mem_singleton_self _, hplace⟩

/-- A turn concerns the entry of its own path only, and the file that it rewrites. -/
theorem Turn.frame {x : Except LintError LintResult} (h : l.Turn path s x t) :
    s.AgreeOn (s.files.placesOf (l.rewriting path s)) {path}ᶜ t := by
  cases h with
  | failed hfiles hcache _ => exact ⟨hfiles ▸ .refl _ _, by rw [hfiles], hcache⟩
  | skipped hfiles hcache => exact ⟨hfiles ▸ .refl _ _, by rw [hfiles], hcache ▸ .refl _ _⟩
  | hit _ _ _ hfiles hcache =>
      exact ⟨hfiles ▸ .refl _ _, by rw [hfiles], hcache ▸ .visit_self _ _⟩
  | checked _ _ hlinted hfiles hcache _ _ =>
      obtain ⟨hframe, hnow⟩ := hfiles.frame
      rw [rewriting, hlinted]
      exact ⟨hframe, hnow, hcache⟩

/-- A row of paths concerns the entries of these paths only, and the files that are rewritten. -/
theorem lintEach_frame {paths : List String} (hpaths : ∀ p ∈ paths, Discovery.Spelled p) :
    s.AgreeOn (s.files.placesOf (l.gather l.rewriting paths s)) {p | p ∉ paths}
      (l.lintEach paths s).2 := by
  induction paths generalizing s with
  | nil => exact .refl _ _ s
  | cons path paths ih =>
      obtain ⟨hpath, hrest⟩ := List.forall_mem_cons.1 hpaths
      have hturn := (turn_lintFile (l := l) (s := s) hpath).frame
      have hmore := ih (s := (l.lintFile path s).2) hrest
      rw [← FileSystem.placesOf_congr hturn.files] at hmore
      rw [gather, lintEach]
      refine (hturn.mono (FileSystem.placesOf_mono _ (List.subset_append_left _ _)) ?_).trans
        (hmore.mono (FileSystem.placesOf_mono _ (List.subset_append_right _ _)) ?_)
      · intro p hp heq
        exact hp (heq ▸ List.mem_cons_self)
      · intro p hp hmem
        exact hp (List.mem_cons_of_mem _ hmem)

/-- A row of paths leaves to any other path its entry, and all files but those of the row. -/
theorem agreeOn_lintEach {paths others : List String} (hpaths : ∀ p ∈ paths, Discovery.Spelled p)
    (hothers : paths ⊆ others) (hpath : path ∉ paths) :
    s.AgreeOn (s.files.placesOf others) {path} (l.lintEach paths s).2 := by
  refine (lintEach_frame hpaths).mono (FileSystem.placesOf_mono s.files ?_) ?_
  · exact List.Subset.trans (gather_subset l.rewriting_subset paths s) hothers
  · rintro _ rfl
    exact hpath

/-- The result of a path stands where the path stands. -/
theorem getElem?_lintEach (l : Linter) (before after : List String) (path : String) (s : Session) :
    (l.lintEach (before ++ path :: after) s).1[before.length]? =
      some (l.lintFile path (l.lintEach before s).2).1 := by
  have hlength := l.length_lintEach before s
  rw [lintEach_append]
  simp [lintEach, ← hlength]

/--
The turn of one path in a row: the paths before it leave its file and its entry as they are in the
session before the row, and the paths after it leave them as its turn does.
-/
theorem turn_lintEach {before after : List String}
    (hpaths : ∀ p ∈ before ++ path :: after, Discovery.Spelled p)
    (hnodup : (before ++ path :: after).Nodup) :
    ∃ t u x D, t = (l.lintEach before s).2 ∧ l.Turn path t x u ∧
      (l.lintEach (before ++ path :: after) s).1[before.length]? = some x ∧
      s.files.Spares D path ∧ s.AgreeOn D {path} t ∧
      u.AgreeOn D {path} (l.lintEach (before ++ path :: after) s).2 := by
  obtain ⟨hbefore, hrest⟩ := List.forall_mem_append.1 hpaths
  obtain ⟨hpath, hafter⟩ := List.forall_mem_cons.1 hrest
  obtain ⟨hne, -⟩ := List.nodup_cons.1 (List.nodup_middle.1 hnodup)
  obtain ⟨hnotBefore, hnotAfter⟩ := not_or.1 (mt List.mem_append.2 hne)
  have hearlier : s.AgreeOn (s.files.placesOf (before ++ after)) {path} (l.lintEach before s).2 :=
    agreeOn_lintEach hbefore (List.subset_append_left before after) hnotBefore
  have hturn := turn_lintFile (l := l) (s := (l.lintEach before s).2) hpath
  have hplaces : (l.lintFile path (l.lintEach before s).2).2.files.placesOf (before ++ after) =
      s.files.placesOf (before ++ after) := by
    rw [← FileSystem.placesOf_congr hturn.frame.files, ← FileSystem.placesOf_congr hearlier.files]
  have hlater := agreeOn_lintEach (l := l) (s := (l.lintFile path (l.lintEach before s).2).2)
    hafter (List.subset_append_right before after) hnotAfter
  rw [hplaces] at hlater
  refine ⟨_, _, _, s.files.placesOf (before ++ after), rfl, hturn,
    l.getElem?_lintEach before after path s, ?_, hearlier, ?_⟩
  · exact FileSystem.spares_of_not_mem (List.forall_mem_append.2 ⟨hbefore, hafter⟩) hpath hne
  · rw [lintEach_append]
    exact hlater

/-- Asking whether there may be no input only adds to what is remembered. -/
theorem allowsEmptyInput_frame (l : Linter) (s : Session) :
    ∃ m, (l.allowsEmptyInput s).2 = { s with memo := m } := by
  obtain ⟨m, hm⟩ := l.startingConfig_frame none s
  rw [allowsEmptyInput]
  split
  case h_1 => exact ⟨s.memo, rfl⟩
  case h_2 =>
      split
      case h_1 heq =>
          rw [heq] at hm
          exact ⟨m, hm⟩
      case h_2 heq =>
          rw [heq] at hm
          exact ⟨m, hm⟩
      case h_3 heq =>
          rw [heq] at hm
          obtain rfl := hm
          dsimp only
          split
          · exact ⟨_, rfl⟩
          · exact ⟨_, rfl⟩

/-- Where there is nothing to lint, a run only adds to what is remembered. -/
theorem lintNothing_frame (l : Linter) (found : Discovery) (s : Session) :
    ∃ m, (l.lintNothing found s).2 = { s with memo := m } ∧
      ∀ results, (l.lintNothing found s).1 = .ok results → results = [] := by
  obtain ⟨m, hm⟩ := l.allowsEmptyInput_frame s
  refine ⟨m, ?_⟩
  rw [lintNothing]
  split
  case h_1 heq =>
      rw [heq] at hm
      refine ⟨hm, fun results h => ?_⟩
      cases h
  case h_2 heq =>
      rw [heq] at hm
      refine ⟨hm, fun results h => ?_⟩
      exact (Except.ok.inj h).symm
  case h_3 heq =>
      rw [heq] at hm
      refine ⟨hm, fun results h => ?_⟩
      cases h

/-- When a run opens, time passes; and where it uses no cache, the file of the cache goes. -/
theorem files_opened (l : Linter) (s : Session) : (l.opened s).files = s.files.tick ∨
    ∃ names, s.files.tick.locate s.cache.file = .ok names ∧
      s.files.tick.get? names ≠ some .directory ∧
      (l.opened s).files = s.files.tick.erase names := by
  rw [opened, discardCache]
  split
  case isTrue => exact .inl rfl
  case isFalse =>
      have htold (c : Cache) (fs : FileSystem) (r : Except CacheError Unit) :
          (Session.tellFailure { s.started with cache := c, files := fs } "delete" r).files =
            fs := by
        cases r <;> rfl
      dsimp only
      rw [htold, Cache.destroy]
      cases hremove : s.started.files.remove s.started.cache.file with
      | error fault => cases fault <;> exact .inl rfl
      | ok fs =>
          obtain ⟨names, content, modified, hplace, hget, rfl⟩ := FileSystem.remove_eq_ok hremove
          exact .inr ⟨names, hplace, fun hdir => (by cases hget.symm.trans hdir), rfl⟩

theorem proper_opened (l : Linter) (hproper : s.files.Proper) : (l.opened s).files.Proper := by
  rcases l.files_opened s with heq | ⟨gone, -, -, heq⟩
  · rw [heq]
    exact ⟨hproper.names⟩
  · rw [heq]
    exact ⟨fun hmem => hproper.names (List.mem_filter.1 hmem).1⟩

/-- The inputs of a run into whose files it puts a new text. -/
def rewrittenInputs (l : Linter) (s : Session) : List String :=
  l.gather l.rewriting (l.inputs (l.opened s)) (l.opened s)

def linted (l : Linter) (s : Session) : Session :=
  (l.lintEach (l.inputs (l.opened s)) (l.opened s)).2

/-- A run of files gives all inputs their turns; then it is rejected, or saves the cache. -/
theorem lint_cases (hfiles : l.options.files.isSome) (hcode : l.options.code = none)
    (s : Session) : ∃ m notices,
      (∃ e, l.lint s = (.error e, { l.linted s with memo := m, notices := notices })) ∨
      ∃ results, (l.lintEach (l.inputs (l.opened s)) (l.opened s)).1 = results.map .ok ∧
        l.lint s = (.ok (l.aggregate results),
          l.saveCache { l.linted s with memo := m, notices := notices }) := by
  rw [lint_of_files hfiles hcode]
  cases hfound : Discovery.run (l.opened s).files (l.options.files.getD []) l.globDir
      l.options.keepExcluded with
  | error e =>
      have hnone : l.inputs (l.opened s) = [] := by rw [inputs, hfound]
      rw [linted, hnone]
      exact ⟨(l.opened s).memo, (l.opened s).notices, .inl ⟨e, rfl⟩⟩
  | ok found =>
      dsimp only
      rcases heq : l.lintFound found (l.opened s) with ⟨outcome, u⟩
      rw [lintFound] at heq
      rw [linted]
      cases outcome with
      | error e =>
          split at heq
          case isTrue hempty =>
              obtain ⟨m, hm, -⟩ := l.lintNothing_frame found (l.opened s)
              rw [heq] at hm
              rw [List.isEmpty_iff.1 hempty]
              exact ⟨m, (l.opened s).notices, .inl ⟨e, Prod.ext rfl hm⟩⟩
          case isFalse =>
              obtain ⟨-, rfl⟩ := Prod.mk.inj heq
              exact ⟨_, _, .inl ⟨e, rfl⟩⟩
      | ok results =>
          split at heq
          case isTrue hempty =>
              obtain ⟨m, hm, hresults⟩ := l.lintNothing_frame found (l.opened s)
              rw [heq] at hm hresults
              obtain rfl := hresults results rfl
              rw [List.isEmpty_iff.1 hempty]
              refine ⟨m, (l.opened s).notices, .inr ⟨[], rfl, ?_⟩⟩
              rw [show u = _ from hm]
              rfl
          case isFalse =>
              obtain ⟨hresults, rfl⟩ := Prod.mk.inj heq
              exact ⟨_, _, .inr ⟨results, collect_eq_ok.1 hresults, rfl⟩⟩

theorem files_saveCache (huse : l.usesCache = true) (s : Session) :
    (l.saveCache s).files = (s.cache.reconcile s.files).2.1 := by
  rw [saveCache, if_pos huse]
  dsimp only
  cases (s.cache.reconcile s.files).2.2 with
  | ok u => rfl
  | error e => rfl

/-- Saving its cache at the end, a run changes no file but the draft and the cache file. -/
theorem saveCache_frame (l : Linter) (s : Session) :
    FileSystem.KeepsDirectories s.files (l.saveCache s).files ∧ ∀ names,
      (l.usesCache = true → (l.saveCache s).files.locate s.cache.draftFile ≠ .ok names) →
      (l.usesCache = true → (l.saveCache s).files.locate s.cache.file ≠ .ok names) →
      s.files.StaysAt (l.saveCache s).files names := by
  cases huse : l.usesCache with
  | false =>
      rw [saveCache, if_neg (by simp [huse])]
      exact ⟨.refl _, fun names _ _ => .refl _ names⟩
  | true =>
      rw [files_saveCache huse, Cache.reconcile]
      cases henabled : s.cache.enabled with
      | false => exact ⟨.refl _, fun names _ _ => .refl _ names⟩
      | true =>
          obtain ⟨hkeeps, hstays⟩ := s.cache.prune.save_frame s.files
          exact ⟨hkeeps, fun names hdraft hfile => hstays names (hdraft rfl) (hfile rfl)⟩

section CacheFile

theorem file_updateCache (c : Cache) (path : String) (now : CacheEntry) (r : LintResult) :
    (updateCache c path now r).file = c.file := by
  rw [updateCache]
  split
  · exact c.file_record path now
  · rfl

theorem session_examine (l : Linter) (i : LintInput) (p : PreparedInput) (s : Session) :
    ∃ c, (l.examine i p s).2 = { s with cache := c } ∧ c.file = s.cache.file := by
  cases p with
  | skipped o => exact ⟨s.cache, rfl, rfl⟩
  | ready r text =>
      rw [examine]
      split
      case h_1 => exact ⟨s.cache, rfl, rfl⟩
      case h_2 => exact ⟨s.cache, rfl, rfl⟩
      case h_3 path entry _ =>
          have hlooked := s.cache.file_check path entry
          rw [examineCached]
          dsimp only
          split
          case isTrue => exact ⟨_, rfl, hlooked⟩
          case isFalse =>
              split
              case h_1 => exact ⟨_, rfl, hlooked⟩
              case h_2 => exact ⟨_, rfl, (file_updateCache _ _ _ _).trans hlooked⟩

/-- Linting an input by itself changes no file, and leaves its cache to be kept where it was. -/
theorem session_lintInput (l : Linter) (i : LintInput) (s : Session) : ∃ m notices c,
    (l.lintInput i s).2 = { s with memo := m, notices := notices, cache := c } ∧
      c.file = s.cache.file := by
  obtain ⟨m, notices, hprepare⟩ := l.prepare_frame i s
  rw [lintInput]
  split
  case h_1 heq =>
      rw [heq] at hprepare
      exact ⟨m, notices, s.cache, hprepare, rfl⟩
  case h_2 p u heq =>
      rw [heq] at hprepare
      obtain rfl := hprepare
      obtain ⟨c, hsession, hfile⟩ := l.session_examine i p _
      exact ⟨m, notices, c, hsession, hfile⟩

theorem session_lintText (l : Linter) (code : String) (s : Session) : ∃ m notices c,
    (l.lintText code s).2 = { s with memo := m, notices := notices, cache := c } ∧
      c.file = s.cache.file := by
  rw [lintText]
  dsimp only
  split
  case isTrue => exact ⟨s.memo, s.notices, s.cache, rfl, rfl⟩
  case isFalse =>
      split
      case h_1 o u heq =>
          obtain ⟨m, notices, c, hinput, hfile⟩ := l.session_lintInput _ s
          rw [heq] at hinput
          exact ⟨m, notices, c, hinput, hfile⟩
      case h_2 e u heq =>
          obtain ⟨m, notices, c, hinput, hfile⟩ := l.session_lintInput _ s
          rw [heq] at hinput
          obtain ⟨told, htold⟩ := session_resultOfError
            (l.options.codeFilename.map fun p => Path.absolutize p l.cwd) e u
          rw [show u = _ from hinput] at htold
          split
          all_goals
            rename_i hresult
            rw [show u = _ from hinput] at hresult
            rw [hresult] at htold
            exact ⟨m, told, c, htold, hfile⟩

theorem cacheFile_finish (path : String) (o : Except LintError InputOutcome) (s : Session) :
    (finish path o s).2.cache.file = s.cache.file := by
  have hfail (e : LintError) (s : Session) : (fail path e s).2.cache.file = s.cache.file := by
    obtain ⟨notices, heq⟩ := session_fail path e s
    rw [heq]
    rfl
  have hwrite (o : InputOutcome) : (writeBack path o s).2.cache.file = s.cache.file := by
    rw [writeBack]
    split
    · split <;> rfl
    · rfl
  rw [finish.eq_def]
  split
  case h_1 => exact hfail _ s
  case h_2 o =>
      split
      case h_1 heq => rw [hfail, ← hwrite o, heq]
      case h_2 heq => rw [← hwrite o, heq]

theorem cacheFile_lintEach (l : Linter) (paths : List String) (s : Session) :
    (l.lintEach paths s).2.cache.file = s.cache.file := by
  have hlintFile (path : String) (s : Session) :
      (l.lintFile path s).2.cache.file = s.cache.file := by
    obtain ⟨m, notices, c, hinput, hfile⟩ := l.session_lintInput (.ofFile path l.usesCache) s
    rw [lintFile, cacheFile_finish, hinput]
    exact hfile
  induction paths generalizing s with
  | nil => rfl
  | cons path paths ih => exact (ih _).trans (hlintFile path s)

theorem cacheFile_tellFailure (s : Session) (what : String) (r : Except CacheError Unit) :
    (s.tellFailure what r).cache.file = s.cache.file := by
  cases r <;> rfl

theorem cacheFile_linted (l : Linter) (s : Session) :
    (l.linted s).cache.file = s.cache.file := by
  rw [linted, cacheFile_lintEach, opened, discardCache]
  split
  case isTrue => rfl
  case isFalse => rw [cacheFile_tellFailure, Cache.destroy_fst]; rfl

theorem cacheFile_saveCache (l : Linter) (s : Session) :
    (l.saveCache s).cache.file = s.cache.file := by
  rw [saveCache]
  split
  case isTrue => rw [cacheFile_tellFailure, Cache.file_reconcile]
  case isFalse => rfl

/-- A run leaves its cache to be kept where it was. -/
theorem cacheFile_run (l : Linter) (s : Session) :
    (l.lint s).2.cache.file = s.cache.file := by
  by_cases hrun : l.options.files.isSome = true ∧ l.options.code = none
  · obtain ⟨m, notices, ⟨e, hlint⟩ | ⟨results, -, hlint⟩⟩ := lint_cases hrun.1 hrun.2 s
    · rw [hlint]
      exact l.cacheFile_linted s
    · rw [hlint, cacheFile_saveCache]
      exact l.cacheFile_linted s
  · rw [lint]
    split
    case h_1 hfiles hcode => exact absurd ⟨by rw [hfiles]; rfl, hcode⟩ hrun
    case h_2 code _ _ =>
        obtain ⟨m, notices, c, htext, hfile⟩ :=
          l.session_lintText code { s with files := s.files.tick }
        rw [htext]
        exact hfile
    case h_3 => rfl

end CacheFile

end Linter

end StyleAudit
