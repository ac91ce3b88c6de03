import StyleAudit.Proofs.Caching
import StyleAudit.Proofs.Failing

/-!
Two runs that differ in their caches only.

An input that one run finds in its cache may be linted by the other, which may write it back. So
the files of the two grow apart, but only in inputs that are done with. As long as these are no
configuration files, both runs work out the same configurations; and as long as what is to be
written back can be written, they come to the same results.
-/

namespace StyleAudit

open FileSystem (AgreeOutside)

def FileSystem.Spares (fs : FileSystem) (D : Set (List String)) (path : String) : Prop :=
  ∀ names, fs.locate path = .ok names → names ∉ D

def FileSystem.placesOf (fs : FileSystem) (paths : List String) : Set (List String) :=
  {names | ∃ path ∈ paths, fs.locate path = .ok names}

def FileSystem.SamePlace (fs : FileSystem) (p q : String) : Prop :=
  ∃ names, fs.locate p = .ok names ∧ fs.locate q = .ok names

instance (fs : FileSystem) (p q : String) : Decidable (fs.SamePlace p q) :=
  match hp : fs.locate p, hq : fs.locate q with
  | .ok a, .ok b =>
    decidable_of_iff (a = b) ⟨fun h => ⟨a, hp, h ▸ hq⟩, fun ⟨_, ha, hb⟩ =>
      (Except.ok.inj (hp.symm.trans ha)).trans (Except.ok.inj (hq.symm.trans hb)).symm⟩
  | .error _, _ => isFalse fun ⟨_, ha, _⟩ => nomatch hp.symm.trans ha
  | .ok _, .error _ => isFalse fun ⟨_, _, hb⟩ => nomatch hq.symm.trans hb

theorem FileSystem.spares_placesOf {fs : FileSystem} {paths : List String} {q : String}
    (h : ∀ p ∈ paths, ¬fs.SamePlace q p) : fs.Spares (fs.placesOf paths) q := by
  rintro names hq ⟨p, hp, hnames⟩
  exact h p hp ⟨names, hq, hnames⟩

/-- Where all paths were found by a search, one of them keeps out of the places of others. -/
theorem FileSystem.spares_of_not_mem {fs : FileSystem} {paths : List String} {path : String}
    (hpaths : ∀ p ∈ paths, Discovery.Spelled p) (hpath : Discovery.Spelled path)
    (hne : path ∉ paths) : fs.Spares (fs.placesOf paths) path := by
  apply spares_placesOf
  rintro p hp ⟨names, hplace, hplace'⟩
  apply hne
  rw [eq_of_locate hpath (hpaths p hp) hplace hplace']
  exact hp

theorem FileSystem.placesOf_congr {D : Set (List String)} {a b : FileSystem}
    (h : AgreeOutside D a b) (paths : List String) : a.placesOf paths = b.placesOf paths := by
  simp only [placesOf, h.locate]

theorem FileSystem.placesOf_mono (fs : FileSystem) {paths more : List String}
    (h : paths ⊆ more) : fs.placesOf paths ⊆ fs.placesOf more :=
  fun _ ⟨p, hp, hnames⟩ => ⟨p, h hp, hnames⟩

section Lookups

variable {D : Set (List String)} {a b : FileSystem}

theorem SourcedConfig.read_congr (h : AgreeOutside D a b) {path : String}
    (hpath : a.Spares D path) : read a path = read b path := by
  rw [read, read, h.readText hpath]

theorem SourcedConfig.file_of_read {fs : FileSystem} {path : String} {l : SourcedConfig}
    (h : read fs path = .ok l) : l.file = some path := by
  rw [read] at h
  split at h
  case h_1 => cases h
  case h_2 =>
      split at h
      case h_1 => cases h
      case h_2 => exact Except.ok.inj h ▸ rfl

theorem SourcedConfig.nearestFile?_congr (h : AgreeOutside D a b) (dir : String) :
    nearestFile? a dir = nearestFile? b dir := by
  have hfile : a.isFile = b.isFile := funext h.isFile
  rw [nearestFile?, nearestFile?, hfile]

theorem SourcedConfig.search_congr (h : AgreeOutside D a b) {dir : String}
    {found : Option SourcedConfig} (hsearch : search a dir = .ok found)
    (hfound : ∀ l, found = some l → ∀ file ∈ l.file.toList, a.Spares D file) :
    search b dir = .ok found := by
  rw [search, ← nearestFile?_congr h]
  rw [search] at hsearch
  split at hsearch
  case h_1 => exact hsearch
  case h_2 file _ =>
      cases hread : read a file with
      | error e =>
          rw [hread] at hsearch
          cases hsearch
      | ok l =>
          rw [hread] at hsearch
          obtain rfl := Except.ok.inj hsearch
          have hspares := hfound l rfl file (by simp [file_of_read hread])
          rw [← read_congr h hspares, hread]
          rfl

namespace ConfigMemo

variable {m : ConfigMemo}

theorem load_congr (h : AgreeOutside D a b) {path : String} {l : SourcedConfig}
    (hload : m.load a path = .ok l) (hl : ∀ file ∈ l.file.toList, a.Spares D file) :
    m.load b path = .ok l := by
  rw [load] at hload ⊢
  split at hload
  case h_1 => exact hload
  case h_2 =>
      have hspares := hl path (by simp [SourcedConfig.file_of_read hload])
      exact (SourcedConfig.read_congr h hspares).symm.trans hload

theorem remember_congr (h : AgreeOutside D a b) {path : String} (hpath : a.Spares D path) :
    remember a m path = remember b m path := by
  rw [remember, remember, SourcedConfig.read_congr h hpath]

/-- A file that was loaded is remembered as the same, be it that it was remembered before. -/
theorem remember_congr_of_load (h : AgreeOutside D a b) {path : String} {l : SourcedConfig}
    (hload : m.load a path = .ok l) (hl : ∀ file ∈ l.file.toList, a.Spares D file) :
    remember a m path = remember b m path := by
  rw [load] at hload
  split at hload
  case h_1 found hfound => rw [remember, remember, hfound]
  case h_2 =>
      exact remember_congr h (hl path (by simp [SourcedConfig.file_of_read hload]))

theorem rememberAll_congr (h : AgreeOutside D a b) {paths : List String}
    (hpaths : ∀ path ∈ paths, a.Spares D path) : rememberAll a m paths = rememberAll b m paths := by
  rw [rememberAll, rememberAll]
  induction paths generalizing m with
  | nil => rfl
  | cons path paths ih =>
      rw [List.foldl_cons, List.foldl_cons, remember_congr h (hpaths path List.mem_cons_self)]
      exact ih fun p hp => hpaths p (List.mem_cons_of_mem _ hp)

theorem search_congr (h : AgreeOutside D a b) {path : String} {found : Option SourcedConfig}
    {m' : ConfigMemo} (hsearch : m.search a path = (.ok found, m'))
    (hfound : ∀ l, found = some l → ∀ file ∈ l.file.toList, a.Spares D file) :
    m.search b path = (.ok found, m') := by
  have hstart : startDir a path = startDir b path := by rw [startDir, startDir, h.isDirectory]
  rw [search, ← hstart]
  rw [search] at hsearch
  split at hsearch
  case h_1 => exact hsearch
  case h_2 =>
      split at hsearch
      case h_1 => cases hsearch
      case h_2 here hhere =>
          obtain ⟨hok, hmemo⟩ := Prod.mk.inj hsearch
          obtain rfl := Except.ok.inj hok
          rw [SourcedConfig.search_congr h hhere hfound]
          exact hsearch

end ConfigMemo

theorem BaseSources.findsAlso_ofFiles (h : AgreeOutside D a b) (registry : Registry)
    (m : ConfigMemo) (cwd : String) :
    Config.FindsAlso (a.Spares D) (ofFiles registry m a cwd) (ofFiles registry m b cwd) := by
  intro name dir found hfind hfound
  have hfile : a.isFile = b.isFile := funext h.isFile
  unfold find at hfind ⊢
  simp only [ofFiles, candidates] at hfind ⊢
  rw [← hfile]
  split at hfind
  case h_1 => exact hfind
  case h_2 =>
      split at hfind
      case h_1 => cases hfind
      case h_2 candidate _ =>
          split at hfind
          case h_1 => cases hfind
          case h_2 l hload =>
              obtain rfl := Except.ok.inj hfind
              rw [ConfigMemo.load_congr h hload hfound]

end Lookups

namespace ConfigContext

variable {D : Set (List String)} {x : ConfigContext} {b : FileSystem} {l : SourcedConfig}
  {input : Option String}

theorem augment_congr (h : AgreeOutside D x.files b) {c : Config} {t : Trail}
    (haugment : x.augment l input = (.ok c, t)) (hreads : ∀ file ∈ t.reads, x.files.Spares D file) :
    { x with files := b }.augment l input = (.ok c, t) :=
  (Config.follows_extend (BaseSources.findsAlso_ofFiles h x.registry x.memo x.cwd) _ _ _ _ _ _
    haugment).2 hreads

theorem resolve_congr (h : AgreeOutside D x.files b)
    (hreads : ∀ file ∈ (x.augment l input).2.reads, x.files.Spares D file) {notices : List String}
    {c : EffectiveConfig} {t : Trail} (hresolve : x.resolve l input = (notices, .ok c, t)) :
    { x with files := b }.resolve l input = (notices, .ok c, t) ∧
      { x with files := b }.remembered t = x.remembered t := by
  unfold resolve at hresolve
  split at hresolve
  case h_1 => cases hresolve
  case h_2 merged t₁ haugment =>
      rw [haugment] at hreads
      obtain ⟨-, hrest⟩ := Prod.mk.inj hresolve
      obtain rfl := (Prod.mk.inj hrest).2
      refine ⟨?_, (ConfigMemo.rememberAll_congr h hreads).symm⟩
      unfold resolve
      rw [augment_congr h haugment hreads]
      exact hresolve

end ConfigContext

structure LintResult.SameFindings (a b : LintResult) : Prop where
  warnings : a.warnings = b.warnings
  errored : a.errored = b.errored
  parseErrors : a.parseErrors = b.parseErrors

theorem Summary.total_congr (count : LintResult → Nat) {as bs : List LintResult}
    (hcount : ∀ {a b : LintResult}, a.SameFindings b → count a = count b)
    (h : List.Forall₂ LintResult.SameFindings as bs) : total count as = total count bs := by
  induction h with
  | nil => rfl
  | cons hab _ ih => rw [total, total, hcount hab, ih]

/-- What is counted in a run depends only on what was found. -/
theorem Summary.ofResults_congr {as bs : List LintResult}
    (h : List.Forall₂ LintResult.SameFindings as bs) (maxWarnings : Option Nat) (cwd : String) :
    (ofResults as maxWarnings cwd).errored = (ofResults bs maxWarnings cwd).errored ∧
      (ofResults as maxWarnings cwd).errorCount = (ofResults bs maxWarnings cwd).errorCount ∧
      (ofResults as maxWarnings cwd).warningCount =
        (ofResults bs maxWarnings cwd).warningCount := by
  have hcount (severity : Severity) {a b : LintResult} (hab : a.SameFindings b) :
      a.count severity = b.count severity := by
    rw [LintResult.count, LintResult.count, hab.warnings]
  have herrors := total_congr LintResult.errorCount (hcount .error) h
  have hwarnings := total_congr LintResult.warningCount (hcount .warning) h
  have hfailed : (as.any fun r => r.errored || !r.parseErrors.isEmpty || r.hasErrors) =
      bs.any fun r => r.errored || !r.parseErrors.isEmpty || r.hasErrors := by
    clear herrors hwarnings
    induction h with
    | nil => rfl
    | cons hab _ ih =>
        rw [List.any_cons, List.any_cons, ih, hab.errored, hab.parseErrors,
          LintResult.hasErrors, LintResult.hasErrors, hab.warnings]
  simp only [ofResults, herrors, hwarnings, hfailed, and_self]

/-- Two sessions that remember the same and whose files agree outside some places. -/
structure Session.Alike (D : Set (List String)) (s s' : Session) : Prop where
  files : s.files.AgreeOutside D s'.files
  memo : s.memo = s'.memo

namespace Linter

/-- The files of the configurations that are consulted for a path of a run. -/
def consulted (l : Linter) (path : String) (s : Session) : List String :=
  match l.leavesOut (.ofFile path l.usesCache), l.startingConfig (some path) s with
  | false, (.ok loaded, s) =>
    loaded.file.toList ++ ((l.configContext s).augment loaded (some path)).2.reads
  | _, _ => []

section Alike

variable {registry : Registry} {l : Linter} {D : Set (List String)} {s s' t : Session}
  {path : String}

theorem startingConfig_congr (hl : l.Caching registry) (h : s.Alike D s') {input : Option String}
    {loaded : SourcedConfig} (hstart : l.startingConfig input s = (.ok loaded, t))
    (hloaded : ∀ file ∈ loaded.file.toList, s.files.Spares D file) :
    ∃ t', l.startingConfig input s' = (.ok loaded, t') ∧ t.Alike D t' := by
  rw [startingConfig] at hstart ⊢
  split at hstart
  case h_1 =>
      obtain ⟨hok, rfl⟩ := Prod.mk.inj hstart
      exact ⟨s', by rw [hok], h⟩
  case h_2 file _ _ =>
      obtain ⟨hok, rfl⟩ := Prod.mk.inj hstart
      have hagain := ConfigMemo.load_congr h.files hok hloaded
      have hmemo := ConfigMemo.remember_congr_of_load h.files hok hloaded
      dsimp only
      rw [← h.memo, hagain]
      exact ⟨_, rfl, h.files, hmemo⟩
  case h_3 =>
      split at hstart
      case h_1 => cases hstart
      case h_2 found m heq =>
          obtain ⟨hok, rfl⟩ := Prod.mk.inj hstart
          obtain rfl := Except.ok.inj hok
          rw [← h.memo, ConfigMemo.search_congr h.files heq fun l hl =>
            Option.some.inj hl ▸ hloaded]
          exact ⟨_, rfl, h.files, rfl⟩
      case h_3 =>
          -- Without code there is no second search.
          rw [hl.code] at hstart
          cases hstart

theorem configFor_congr (hl : l.Caching registry) (hs : s.memo.Named)
    (h : s.Alike D s') {c : EffectiveConfig}
    (hleft : l.leavesOut (.ofFile path l.usesCache) = false)
    (hconfig : l.configFor (some path) s = (.ok c, t))
    (hspares : ∀ file ∈ l.consulted path s, s.files.Spares D file) :
    ∃ t', l.configFor (some path) s' = (.ok c, t') ∧ t.Alike D t' := by
  rw [configFor] at hconfig
  split at hconfig
  case h_1 => cases hconfig
  case h_2 loaded s₁ hstart =>
      rw [consulted, hleft, hstart] at hspares
      have hstarted : s.Learns s₁ := (startingConfig_spec hl hs hstart).1
      obtain ⟨s₁', hstart', halike⟩ := startingConfig_congr hl h hstart fun file hfile =>
        hspares file (List.mem_append_left _ hfile)
      rw [configFor, hstart']
      dsimp only at hconfig ⊢
      obtain ⟨hok, rfl⟩ := Prod.mk.inj hconfig
      have hcontext : l.configContext s₁' = { l.configContext s₁ with files := s₁'.files } := by
        rw [configContext, configContext, halike.memo]
      have hreads : ∀ file ∈ ((l.configContext s₁).augment loaded (some path)).2.reads,
          s₁.files.Spares D file := by
        intro file hfile
        rw [hstarted.files]
        exact hspares file (List.mem_append_right _ hfile)
      obtain ⟨hresolve, hmemo⟩ := ConfigContext.resolve_congr (x := l.configContext s₁)
        halike.files hreads (Prod.ext rfl (Prod.ext hok rfl))
      rw [hcontext, hresolve]
      exact ⟨_, rfl, halike.files, hmemo.symm⟩

theorem fetch_congr {a b : FileSystem} (h : AgreeOutside D a b) (hpath : a.Spares D path)
    (cache : Bool) (c : EffectiveConfig) :
    fetch a (.ofFile path cache) c = fetch b (.ofFile path cache) c := by
  have htext : textOf a (.ofFile path cache) = textOf b (.ofFile path cache) := by
    simp only [textOf, LintInput.ofFile, h.readText hpath]
  rw [fetch, fetch, htext]

/-- Preparing a path comes to the same unless it ends the run. -/
theorem prepare_congr (hl : l.Caching registry) (hs : s.memo.Named) (h : s.Alike D s')
    (hpath : s.files.Spares D path)
    (hspares : ∀ file ∈ l.consulted path s, s.files.Spares D file)
    {p : Except LintError PreparedInput}
    (hprepare : l.prepare (.ofFile path l.usesCache) s = (p, t))
    (hp : ∀ e, p = .error e → e.isFatal = false) :
    ∃ t', l.prepare (.ofFile path l.usesCache) s' = (p, t') ∧ t.Alike D t' := by
  rw [prepare] at hprepare ⊢
  split at hprepare
  case h_1 e heq =>
      obtain ⟨rfl, rfl⟩ := Prod.mk.inj hprepare
      exact ⟨s', rfl, h⟩
  case h_2 =>
      split at hprepare
      case isTrue hleft =>
          obtain ⟨rfl, rfl⟩ := Prod.mk.inj hprepare
          rw [if_pos hleft]
          exact ⟨s', rfl, h⟩
      case isFalse hleft =>
          rw [if_neg hleft]
          split at hprepare
          case h_1 e s₁ heq =>
              obtain ⟨rfl, rfl⟩ := Prod.mk.inj hprepare
              have hfatal : e.isFatal = true := l.failsFatally_configFor _ s e (by rw [heq])
              rw [hp e rfl] at hfatal
              cases hfatal
          case h_2 c s₁ heq =>
              obtain ⟨rfl, rfl⟩ := Prod.mk.inj hprepare
              obtain ⟨t', hconfig, halike⟩ :=
                configFor_congr hl hs h (Bool.eq_false_iff.2 hleft) heq hspares
              have hlearns := (configFor_spec hl hs heq).1
              have hagain : l.configFor (LintInput.ofFile path l.usesCache).path s' =
                  (.ok c, t') := hconfig
              refine ⟨t', ?_, halike⟩
              rw [hagain, fetch_congr halike.files (hlearns.files ▸ hpath)]

end Alike

/--
What a path can come to once it was prepared, if it is not kept from being written back. An error
is told as it is; a text that was checked gets the result of its check, or the answer of the cache
if the check finds nothing.
-/
inductive Answers (registry : Registry) (path : String) :
    Except LintError PreparedInput → Except LintError LintResult → Prop
  | failed {e : LintError} (s : Session) :
      Answers registry path (.error e) (resultOfError (some path) e s).1
  | skipped {o : InputOutcome} : Answers registry path (.ok (.skipped o)) (.ok o.result)
  | unchecked {r : EffectiveConfig} {text : Option String} {e : LintError}
      (hcheck : checkInput registry (.ofFile path true) r text = .error e) (s : Session) :
      Answers registry path (.ok (.ready r text)) (resultOfError (some path) e s).1
  | checked {r : EffectiveConfig} {text : Option String} {o : InputOutcome}
      (hcheck : checkInput registry (.ofFile path true) r text = .ok o) :
      Answers registry path (.ok (.ready r text)) (.ok o.result)
  | cached {r : EffectiveConfig} {text : Option String} {o : InputOutcome}
      (hcheck : checkInput registry (.ofFile path true) r text = .ok o) (hclean : o.result.Clean) :
      Answers registry path (.ok (.ready r text)) (.ok (LintResult.cached path))

inductive SameVerdict : Except LintError LintResult → Except LintError LintResult → Prop
  | ok {a b : LintResult} (h : a.SameFindings b) : SameVerdict (.ok a) (.ok b)
  | error (e : LintError) : SameVerdict (.error e) (.error e)

theorem SameVerdict.refl (x : Except LintError LintResult) : SameVerdict x x := by
  cases x with
  | error e => exact .error e
  | ok a => exact .ok ⟨rfl, rfl, rfl⟩

theorem SameVerdict.symm {x y : Except LintError LintResult} (h : SameVerdict x y) :
    SameVerdict y x := by
  cases h with
  | ok h => exact .ok ⟨h.warnings.symm, h.errored.symm, h.parseErrors.symm⟩
  | error e => exact .error e

theorem resultOfError_congr (source : Option String) (e : LintError) (s s' : Session) :
    (resultOfError source e s).1 = (resultOfError source e s').1 := by
  rw [resultOfError.eq_def, resultOfError.eq_def]
  split
  · rfl
  · split <;> rfl

theorem resultOfError_eq_error {source : Option String} {e e' : LintError} {s : Session} :
    (resultOfError source e s).1 = .error e' ↔ e = e' ∧ e.isFatal = true := by
  rw [resultOfError.eq_def]
  split
  case h_1 =>
      constructor
      · intro h
        cases h
      · rintro ⟨rfl, hfatal⟩
        cases hfatal
  case h_2 =>
      split
      case isTrue hfatal =>
          constructor
          · intro h
            exact ⟨Except.error.inj h, hfatal⟩
          · rintro ⟨rfl, -⟩
            rfl
      case isFalse hfatal =>
          constructor
          · intro h
            cases h
          · rintro ⟨-, h⟩
            exact absurd h hfatal

/-- An answer of the cache has the verdict of a check that finds nothing. -/
theorem sameVerdict_cached {registry : Registry} {path : String} {r : EffectiveConfig}
    {text : Option String} {o : InputOutcome}
    (hcheck : checkInput registry (.ofFile path true) r text = .ok o) (hclean : o.result.Clean) :
    SameVerdict (.ok o.result) (.ok (LintResult.cached path)) :=
  .ok ⟨hclean.1, hclean.2, (checked_of_checkInput hcheck).parseErrors⟩

theorem Answers.of_error {registry : Registry} {path : String} {e : LintError}
    {x : Except LintError LintResult} (h : Answers registry path (.error e) x) :
    ∃ s, x = (resultOfError (some path) e s).1 := by
  cases h with
  | failed s => exact ⟨s, rfl⟩

theorem Answers.sameVerdict {registry : Registry} {path : String}
    {p : Except LintError PreparedInput} {x y : Except LintError LintResult}
    (hx : Answers registry path p x) (hy : Answers registry path p y) : SameVerdict x y := by
  cases hx with
  | failed s =>
      cases hy with
      | failed s' => exact resultOfError_congr _ _ s s' ▸ .refl _
  | skipped =>
      cases hy with
      | skipped => exact .refl _
  | unchecked hcheck s =>
      cases hy with
      | unchecked hcheck' s' =>
          obtain rfl := Except.error.inj (hcheck.symm.trans hcheck')
          exact resultOfError_congr _ _ s s' ▸ .refl _
      | checked hcheck' => cases hcheck.symm.trans hcheck'
      | cached hcheck' _ => cases hcheck.symm.trans hcheck'
  | checked hcheck =>
      cases hy with
      | unchecked hcheck' _ => cases hcheck.symm.trans hcheck'
      | checked hcheck' =>
          obtain rfl := Except.ok.inj (hcheck.symm.trans hcheck')
          exact .refl _
      | cached hcheck' hclean =>
          obtain rfl := Except.ok.inj (hcheck.symm.trans hcheck')
          exact sameVerdict_cached hcheck hclean
  | cached hcheck hclean =>
      cases hy with
      | unchecked hcheck' _ => cases hcheck.symm.trans hcheck'
      | checked hcheck' =>
          obtain rfl := Except.ok.inj (hcheck.symm.trans hcheck')
          exact (sameVerdict_cached hcheck hclean).symm
      | cached hcheck' _ => exact .refl _

/-- The path, if the configuration that it is checked under asks for fixes. -/
def fixing (l : Linter) (path : String) (s : Session) : List String :=
  match (l.prepare (.ofFile path l.usesCache) s).1 with
  | .ok (.ready r _) => if r.fix then [path] else []
  | _ => []

/-- The text that an outcome gives to its file, if it is another than the one that was linted. -/
def rewritten? (o : InputOutcome) : Option String :=
  match o.result.ignored, o.output, o.linted with
  | false, some output, some linted => if linted = output then none else some output
  | _, _, _ => none

/-- The path, if a new text is to be put into its file and there is no room for a draft. -/
def unwritten (l : Linter) (path : String) (s : Session) : List String :=
  match (l.lintInput (.ofFile path l.usesCache) s).1 with
  | .ok o =>
    if (rewritten? o).isSome && (s.files.draftFault? path).isSome then [path] else []
  | .error _ => []

/-- Whether there is room for a draft beside the file of a path, if a check asks for one. -/
def Writable (registry : Registry) (path : String) (fs : FileSystem) :
    Except LintError PreparedInput → Prop
  | .ok (.ready r text) => ∀ o fixed, checkInput registry (.ofFile path true) r text = .ok o →
      rewritten? o = some fixed → fs.draftFault? path = none
  | _ => True

theorem writable_congr {registry : Registry} {D : Set (List String)} {a b : FileSystem}
    (h : AgreeOutside D a b) (path : String) (p : Except LintError PreparedInput) :
    Writable registry path a p = Writable registry path b p := by
  unfold Writable
  rw [h.draftFault?]

section Answer

variable {registry : Registry} {l : Linter} {s t : Session} {path : String}

theorem session_resultOfError (source : Option String) (e : LintError) (s : Session) :
    ∃ notices, (resultOfError source e s).2 = { s with notices := notices } := by
  rw [resultOfError.eq_def]
  split
  · exact ⟨s.notices, rfl⟩
  · split
    · exact ⟨s.notices, rfl⟩
    · exact ⟨_, rfl⟩

/-- A path that failed is forgotten, and nothing else changes. -/
theorem session_fail (path : String) (e : LintError) (s : Session) :
    ∃ notices, (fail path e s).2 = { s with cache := s.cache.evict path, notices := notices } :=
  session_resultOfError (some path) e _

theorem fail_spec (path : String) (e : LintError) (s : Session) :
    (fail path e s).1 = (resultOfError (some path) e s).1 ∧
      (fail path e s).2.memo = s.memo ∧ (fail path e s).2.files = s.files := by
  obtain ⟨notices, hs⟩ := session_fail path e s
  rw [hs]
  exact ⟨resultOfError_congr _ _ _ _, rfl, rfl⟩

theorem finish_of_kept {o : InputOutcome} (h : rewritten? o = none) (path : String) (s : Session) :
    finish path (.ok o) s = (.ok o.result, s) := by
  rw [finish, writeBack]
  unfold rewritten? at h
  cases hignored : o.result.ignored with
  | true => rfl
  | false =>
      cases houtput : o.output with
      | none => rfl
      | some output =>
          cases hlinted : o.linted with
          | none => rfl
          | some linted =>
              rw [hignored, houtput, hlinted] at h
              have heq : linted = output := by
                by_contra hne
                cases (if_neg hne).symm.trans h
              have hreplace : replaceText s.files path linted output = .ok (false, s.files) :=
                if_pos heq
              dsimp only
              rw [hreplace]

theorem rewritten?_eq_some {o : InputOutcome} {fixed : String} (h : rewritten? o = some fixed) :
    o.result.ignored = false ∧ o.output = some fixed ∧
      ∃ linted, o.linted = some linted ∧ linted ≠ fixed := by
  unfold rewritten? at h
  split at h
  case h_1 output linted hignored houtput hlinted =>
      split at h
      case isTrue => cases h
      case isFalse hne =>
          obtain rfl := Option.some.inj h
          exact ⟨hignored, houtput, linted, hlinted, hne⟩
  case h_2 => cases h

/-- A new text gets into the file from which the old one was read. Without room for a draft beside
that file the path has failed. -/
theorem finish_of_rewritten (hpath : Discovery.Spelled path) {text : String}
    (hread : s.files.readText path = .ok text) :
    ∃ names, s.files.locate path = .ok names ∧ s.files.kind names = .file ∧
      ∀ o fixed, rewritten? o = some fixed → finish path (.ok o) s =
        match s.files.draftFault? path with
        | some fault => fail path (.unwritable path fault) s
        | none => (.ok o.result,
          { s with files := s.files.set names (.file (.text fixed) s.files.now) }) := by
  obtain ⟨names, hnames, hfile, hreplace⟩ := replaceText_eq hpath hread
  refine ⟨names, hnames, hfile, fun o fixed h => ?_⟩
  obtain ⟨hignored, houtput, linted, hlinted, hne⟩ := rewritten?_eq_some h
  rw [finish, writeBack, hignored, houtput, hlinted]
  dsimp only
  rw [hreplace, if_neg hne]
  cases s.files.draftFault? path <;> rfl

/-- A check of a file that was read changes that file at most, and is finished with its result
unless a new text cannot be written. -/
theorem finish_spec (hpath : Discovery.Spelled path) {text : String}
    (hread : s.files.readText path = .ok text) (o : InputOutcome) :
    ((∀ fixed, rewritten? o = some fixed → s.files.draftFault? path = none) →
      (finish path (.ok o) s).1 = .ok o.result) ∧
      (finish path (.ok o) s).2.memo = s.memo ∧
      s.files.AgreeOutside {names | o.output.isSome ∧ s.files.locate path = .ok names}
        (finish path (.ok o) s).2.files := by
  cases hfixed : rewritten? o with
  | none =>
      rw [finish_of_kept hfixed]
      exact ⟨fun _ => rfl, rfl, .refl _ _⟩
  | some fixed =>
      obtain ⟨names, hnames, hfile, hfinish⟩ := finish_of_rewritten hpath hread
      rw [hfinish o fixed hfixed]
      cases hdraft : s.files.draftFault? path with
      | some fault =>
          obtain ⟨-, hmemo, hfiles⟩ := fail_spec path (.unwritable path fault) s
          dsimp only
          rw [hmemo, hfiles]
          exact ⟨fun h => (by cases h fixed rfl), rfl, .refl _ _⟩
      | none =>
          refine ⟨fun _ => rfl, rfl, (AgreeOutside.set hfile _ _).mono ?_⟩
          rintro _ rfl
          rw [(rewritten?_eq_some hfixed).2.1]
          exact ⟨rfl, hnames⟩

/-- Finishing a path leaves other paths what the cache has for them. -/
theorem get?_finish_of_ne {other : String} (h : path ≠ other)
    (o : Except LintError InputOutcome) (s : Session) :
    (finish path o s).2.cache.get? other = s.cache.get? other := by
  have hfail (e : LintError) (s : Session) :
      (fail path e s).2.cache.get? other = s.cache.get? other := by
    obtain ⟨notices, hs⟩ := session_fail path e s
    rw [hs, Cache.get?_evict, if_neg h]
  cases o with
  | error e => exact hfail e s
  | ok o =>
      have hwritten : (writeBack path o s).2.cache = s.cache := by
        rw [writeBack]
        split
        · split <;> rfl
        · rfl
      rw [finish]
      rcases hback : writeBack path o s with ⟨r, t⟩
      rw [hback] at hwritten
      rw [← hwritten]
      cases r with
      | error e => exact hfail e t
      | ok r => rfl

/-- Without fixes there is nothing to write back. -/
theorem output_of_checkInput {i : LintInput} {r : EffectiveConfig} {text : Option String}
    {o : InputOutcome} (h : checkInput registry i r text = .ok o) (hfix : r.fix = false) :
    o.output = none := by
  obtain ⟨_, _, _, -, -, rfl⟩ := checkInput_eq_ok h
  simp [CheckedSheet.make, hfix]

/-- An input that the cache answers for is clean when it is checked. -/
theorem clean_of_hit {hashed : List String} (ht : t.Sound registry hashed)
    (hfree : CollisionFree hashed) {r : EffectiveConfig} {text : String}
    (hr : r.CompletedBy registry) (halone : r.config.StandsAlone) (htext : text ∈ hashed)
    (hconfig : r.config.written ∈ hashed)
    (hhit : t.cache.entries.find? path = some (entryFor r text)) :
    ∃ o, checkInput registry (.ofFile path true) r (some text) = .ok o ∧ o.result.Clean := by
  have hsound := ht.entries path _ hhit
  rw [entryFor, hr.hash] at hsound
  exact hsound.cleanUnder hfree htext hconfig halone hr rfl

theorem learns_of_prepare (hl : l.Caching registry) (hs : s.memo.Named)
    {p : Except LintError PreparedInput}
    (h : l.prepare (.ofFile path l.usesCache) s = (p, t)) : s.Learns t := by
  have hlearns := learns_prepare l.usesCache hl hs path
  rwa [h] at hlearns

/-- An input that the cache does not know is checked. -/
theorem lintInput_of_unknown (hl : l.Caching registry) {hashed : List String}
    (hs : s.Sound registry hashed) (hnew : s.cache.get? path = none) {r : EffectiveConfig}
    {text : String} {o : InputOutcome}
    (hprepare : l.prepare (.ofFile path l.usesCache) s = (.ok (.ready r (some text)), t))
    (hcheck : checkInput registry (.ofFile path true) r (some text) = .ok o) :
    (l.lintInput (.ofFile path l.usesCache) s).1 = .ok o := by
  have hlearns := learns_of_prepare hl hs.memo hprepare
  rw [lintInput, hprepare]
  rcases examine_cases hl (hs.learns hlearns) path r text with
    ⟨hhit, -⟩ | ⟨-, ⟨e, herror, -⟩ | ⟨checked, hchecked, heq⟩⟩
  · rw [Cache.get?, if_pos hs.enabled, ← hlearns.cache, hhit] at hnew
    cases hnew
  · cases hcheck.symm.trans herror
  · obtain rfl := Except.ok.inj (hcheck.symm.trans hchecked)
    exact congrArg Prod.fst heq

/-- The text of an input that the cache does not know can be written back, unless that fails. -/
theorem writable_of_unknown (hl : l.Caching registry) {hashed : List String}
    (hs : s.Sound registry hashed) (hnew : s.cache.get? path = none)
    (hwritten : l.unwritten path s = []) {p : Except LintError PreparedInput}
    (hprepare : l.prepare (.ofFile path l.usesCache) s = (p, t)) :
    Writable registry path s.files p := by
  rcases p with e | skipped | ⟨r, text⟩
  · trivial
  · trivial
  · intro o fixed hcheck hfixed
    obtain ⟨-, -, text, rfl, -⟩ := ready_of_prepare hl hs.memo (congrArg Prod.fst hprepare)
    rw [unwritten, lintInput_of_unknown hl hs hnew hprepare hcheck] at hwritten
    dsimp only at hwritten
    rw [hfixed, Option.isSome_some, Bool.true_and] at hwritten
    split at hwritten
    case isTrue => cases hwritten
    case isFalse hdraft => simpa using hdraft

theorem answers_examine (hl : l.Caching registry) {hashed : List String}
    (ht : t.Sound registry hashed) (hfree : CollisionFree hashed)
    (hpath : Discovery.Spelled path) {r : EffectiveConfig} {text : String}
    (hr : r.CompletedBy registry) (halone : r.config.StandsAlone) (htext : text ∈ hashed)
    (hconfig : r.config.written ∈ hashed) (hread : t.files.readText path = .ok text)
    {o : Except LintError InputOutcome} {s : Session}
    (hexamine : l.examine (.ofFile path l.usesCache) (.ready r (some text)) t = (o, s)) :
    (Writable registry path t.files (.ok (.ready r (some text))) →
      Answers registry path (.ok (.ready r (some text))) (finish path o s).1) ∧
      (finish path o s).2.memo = t.memo ∧
      t.files.AgreeOutside (t.files.placesOf (if r.fix then [path] else []))
        (finish path o s).2.files := by
  rcases examine_cases hl ht path r text with
    ⟨hhit, heq⟩ | ⟨-, ⟨e, hcheck, heq⟩ | ⟨checked, hcheck, heq⟩⟩
  · obtain ⟨rfl, rfl⟩ := Prod.mk.inj (hexamine.symm.trans heq)
    obtain ⟨checked, hcheck, hclean⟩ := clean_of_hit ht hfree hr halone htext hconfig hhit
    exact ⟨fun _ => .cached hcheck hclean, rfl, .refl _ _⟩
  · obtain ⟨rfl, rfl⟩ := Prod.mk.inj (hexamine.symm.trans heq)
    obtain ⟨hanswer, hmemo, hfiles⟩ :=
      fail_spec path e { t with cache := t.cache.visit path }
    rw [finish, hanswer, hmemo, hfiles]
    exact ⟨fun _ => .unchecked hcheck _, rfl, .refl _ _⟩
  · obtain ⟨rfl, rfl⟩ := Prod.mk.inj (hexamine.symm.trans heq)
    obtain ⟨hanswer, hmemo, hfiles⟩ := finish_spec (s := { t with
      cache := updateCache (t.cache.visit path) path (entryFor r text) checked.result })
      hpath hread checked
    rw [hmemo]
    refine ⟨fun hwritable => ?_, rfl, hfiles.mono ?_⟩
    · rw [hanswer fun fixed hfixed => hwritable checked fixed hcheck hfixed]
      exact .checked hcheck
    rintro names ⟨houtput, hnames⟩
    cases hfix : r.fix with
    | true => exact ⟨path, List.mem_singleton_self _, hnames⟩
    | false =>
        rw [output_of_checkInput hcheck hfix] at houtput
        cases houtput

/-- A path gives one of its answers if its text can be written back, and changes the files at most
in its place. -/
theorem answers_lintFile (hl : l.Caching registry) {hashed : List String}
    (hs : s.Sound registry hashed) (hfree : CollisionFree hashed)
    (hhashed : l.hashedFor path s ⊆ hashed) (hpath : Discovery.Spelled path)
    {p : Except LintError PreparedInput}
    (hprepare : l.prepare (.ofFile path l.usesCache) s = (p, t)) :
    (Writable registry path s.files p → Answers registry path p (l.lintFile path s).1) ∧
      (l.lintFile path s).2.memo = t.memo ∧
      s.files.AgreeOutside (s.files.placesOf (l.fixing path s)) (l.lintFile path s).2.files := by
  have hlearns := learns_of_prepare hl hs.memo hprepare
  have ht := hs.learns hlearns
  rw [lintFile, lintInput, hprepare, fixing, hprepare, ← hlearns.files]
  cases p with
  | error e =>
      obtain ⟨hanswer, hmemo, hfiles⟩ := fail_spec path e t
      dsimp only
      rw [finish, hanswer, hmemo, hfiles]
      exact ⟨fun _ => .failed _, rfl, .refl _ _⟩
  | ok p =>
      cases p with
      | skipped o =>
          obtain rfl := skipped_of_prepare (congrArg Prod.fst hprepare)
          exact ⟨fun _ => .skipped, rfl, .refl _ _⟩
      | ready r text =>
          obtain ⟨hr, halone, text, rfl, hread⟩ :=
            ready_of_prepare hl hs.memo (congrArg Prod.fst hprepare)
          rw [hashedFor, hprepare] at hhashed
          exact answers_examine hl ht hfree hpath hr halone (hhashed (by simp))
            (hhashed (by simp)) (hlearns.files ▸ hread) rfl

theorem get?_updateCache_of_ne {other : String} (h : path ≠ other) {c : Cache}
    (hc : c.enabled = true) (e : CacheEntry) (r : LintResult) :
    (updateCache c path e r).get? other = c.get? other := by
  rw [updateCache]
  split
  · rw [Cache.get?_record hc, if_neg h]
  · rw [Cache.get?_evict, if_neg h]

/-- The turn of a path leaves other paths what the cache has for them. -/
theorem get?_lintFile_of_ne (hl : l.Caching registry) {hashed : List String}
    (hs : s.Sound registry hashed) {other : String} (h : path ≠ other) :
    (l.lintFile path s).2.cache.get? other = s.cache.get? other := by
  obtain ⟨p, t, hprepare⟩ : ∃ p t, l.prepare (.ofFile path l.usesCache) s = (p, t) :=
    ⟨_, _, rfl⟩
  have hlearns := learns_of_prepare hl hs.memo hprepare
  have ht := hs.learns hlearns
  have hvisit : (t.cache.visit path).get? other = t.cache.get? other := by
    simp [Cache.get?]
  rw [lintFile, lintInput, hprepare, ← hlearns.cache]
  rcases p with e | skipped | ⟨r, text⟩
  · exact get?_finish_of_ne h _ t
  · exact get?_finish_of_ne h _ t
  · obtain ⟨-, -, text, rfl, -⟩ := ready_of_prepare hl hs.memo (congrArg Prod.fst hprepare)
    dsimp only
    rcases examine_cases hl ht path r text with ⟨-, heq⟩ | ⟨-, ⟨e, -, heq⟩ | ⟨o, -, heq⟩⟩
    · rw [heq, get?_finish_of_ne h, hvisit]
    · rw [heq, get?_finish_of_ne h, hvisit]
    · have hon : (t.cache.visit path).enabled = true := by simp [ht.enabled]
      rw [heq, get?_finish_of_ne h, get?_updateCache_of_ne h hon, hvisit]

end Answer

section Run

variable {registry : Registry} {l : Linter} {hashed : List String} {fs : FileSystem}

theorem fixing_subset (l : Linter) (path : String) (s : Session) : l.fixing path s ⊆ [path] := by
  rw [fixing]
  split
  · split
    · exact List.Subset.refl _
    · exact List.nil_subset _
  · exact List.nil_subset _

/--
Two sessions in lockstep: both can be trusted, and they agree with each other, and with the files
at the start of the run, outside the places of those inputs that may have been written back.
-/
structure Lockstep (registry : Registry) (hashed : List String) (fs : FileSystem)
    (done : List String) (s s' : Session) : Prop where
  sound : s.Sound registry hashed
  sound' : s'.Sound registry hashed
  start : fs.AgreeOutside (fs.placesOf done) s.files
  alike : s.Alike (fs.placesOf done) s'

/-- A path that no earlier input shares is spared by what was written back. -/
theorem Lockstep.spares {done : List String} {s s' : Session}
    (h : Lockstep registry hashed fs done s s') {q : String}
    (hq : ∀ p ∈ done, ¬fs.SamePlace q p) : s.files.Spares (fs.placesOf done) q := by
  intro names hnames
  rw [← h.start.locate] at hnames
  exact FileSystem.spares_placesOf hq names hnames

/-- A path that does not end the run is prepared in the same way in both sessions. -/
theorem Lockstep.prepare (hl : l.Caching registry) (hfree : CollisionFree hashed)
    {done : List String} {s s' : Session} (h : Lockstep registry hashed fs done s s')
    {path : String} (hpath : Discovery.Spelled path) (hhashed : l.hashedFor path s ⊆ hashed)
    (hapart : ∀ p ∈ done, ¬fs.SamePlace path p)
    (hconfigs : ∀ file ∈ l.consulted path s, ∀ p ∈ done, ¬fs.SamePlace file p)
    (hok : ∀ e, (l.lintFile path s).1 ≠ .error e) :
    ∃ p t t', l.prepare (.ofFile path l.usesCache) s = (p, t) ∧
      l.prepare (.ofFile path l.usesCache) s' = (p, t') ∧ t.memo = t'.memo := by
  obtain ⟨p, t, hprepare⟩ : ∃ p t, l.prepare (.ofFile path l.usesCache) s = (p, t) :=
    ⟨_, _, rfl⟩
  -- A fatal error would be the verdict.
  have hfatal (e : LintError) (he : p = .error e) : e.isFatal = false := by
    subst he
    rw [Bool.eq_false_iff]
    intro htrue
    obtain ⟨s₀, hs₀⟩ :=
      ((answers_lintFile hl h.sound hfree hhashed hpath hprepare).1 trivial).of_error
    exact hok e (hs₀.trans (resultOfError_eq_error.2 ⟨rfl, htrue⟩))
  obtain ⟨t', hprepare', halike⟩ := prepare_congr hl h.sound.memo h.alike (h.spares hapart)
    (fun file hfile => h.spares (hconfigs file hfile)) hprepare hfatal
  exact ⟨p, t, t', hprepare, hprepare', halike.memo⟩

/-- Sessions in lockstep stay so when each writes back to the same further inputs at most. -/
theorem Lockstep.extend {done more : List String} {s s' u u' : Session}
    (h : Lockstep registry hashed fs done s s') (hu : u.Sound registry hashed)
    (hu' : u'.Sound registry hashed) (hfiles : s.files.AgreeOutside (s.files.placesOf more) u.files)
    (hfiles' : s'.files.AgreeOutside (s'.files.placesOf more) u'.files)
    (hmemo : u.memo = u'.memo) : Lockstep registry hashed fs (done ++ more) u u' := by
  have hplaces : s.files.placesOf more = fs.placesOf more :=
    (FileSystem.placesOf_congr h.start more).symm
  have hplaces' : s'.files.placesOf more = fs.placesOf more := by
    rw [← FileSystem.placesOf_congr h.alike.files, hplaces]
  have hdone := FileSystem.placesOf_mono fs (List.subset_append_left done more)
  have hmore := FileSystem.placesOf_mono fs (List.subset_append_right done more)
  rw [hplaces] at hfiles
  rw [hplaces'] at hfiles'
  have hback : u.files.AgreeOutside (fs.placesOf (done ++ more)) s.files :=
    (hfiles.mono hmore).symm
  have hacross : s.files.AgreeOutside (fs.placesOf (done ++ more)) s'.files :=
    h.alike.files.mono hdone
  exact ⟨hu, hu', (h.start.mono hdone).trans (hfiles.mono hmore),
    (hback.trans hacross).trans (hfiles'.mono hmore), hmemo⟩

/-- One path keeps two sessions in lockstep, unless it ends the run, and has the same verdict. The
second session does not know the path and can write back what it fixes. -/
theorem Lockstep.lintFile (hl : l.Caching registry) (hfree : CollisionFree hashed)
    {done : List String} {s s' : Session} (h : Lockstep registry hashed fs done s s')
    {path : String} (hpath : Discovery.Spelled path) (hhashed : l.hashedFor path s ⊆ hashed)
    (hapart : ∀ p ∈ done, ¬fs.SamePlace path p)
    (hconfigs : ∀ file ∈ l.consulted path s, ∀ p ∈ done, ¬fs.SamePlace file p)
    (hnew : s'.cache.get? path = none) (hwritten : l.unwritten path s' = [])
    (hok : ∀ e, (l.lintFile path s).1 ≠ .error e) :
    SameVerdict (l.lintFile path s).1 (l.lintFile path s').1 ∧
      Lockstep registry hashed fs (done ++ l.fixing path s) (l.lintFile path s).2
        (l.lintFile path s').2 := by
  obtain ⟨p, t, t', hprepare, hprepare', halike⟩ :=
    h.prepare hl hfree hpath hhashed hapart hconfigs hok
  have hhashed' : l.hashedFor path s' ⊆ hashed := by
    rw [hashedFor, hprepare] at hhashed
    rwa [hashedFor, hprepare']
  have hfixing' : l.fixing path s' = l.fixing path s := by
    rw [fixing, fixing, hprepare, hprepare']
  obtain ⟨hanswer, hmemo, hfiles⟩ := answers_lintFile hl h.sound hfree hhashed hpath hprepare
  obtain ⟨hanswer', hmemo', hfiles'⟩ :=
    answers_lintFile hl h.sound' hfree hhashed' hpath hprepare'
  rw [hfixing'] at hfiles'
  have hwritable' := writable_of_unknown hl h.sound' hnew hwritten hprepare'
  have hwritable : Writable registry path s.files p :=
    writable_congr h.alike.files path p ▸ hwritable'
  refine ⟨(hanswer hwritable).sameVerdict (hanswer' hwritable'),
    h.extend ?_ ?_ hfiles hfiles' ?_⟩
  · exact sound_lintFile hl h.sound hhashed
  · exact sound_lintFile hl h.sound' hhashed'
  · rw [hmemo, hmemo', halike]

/-- Paths that are linted in lockstep have the same verdicts, one by one. -/
theorem Lockstep.lintEach (hl : l.Caching registry) (hfree : CollisionFree hashed)
    {done paths : List String} {s s' : Session} (h : Lockstep registry hashed fs done s s')
    (hpaths : ∀ p ∈ paths, Discovery.Spelled p) (hhashed : l.gather l.hashedFor paths s ⊆ hashed)
    (hdistinct : paths.Pairwise fun p q => ¬fs.SamePlace q p) (hnodup : paths.Nodup)
    (hapart : ∀ q ∈ paths, ∀ p ∈ done, ¬fs.SamePlace q p)
    (hconfigs : ∀ file ∈ l.gather l.consulted paths s,
      ∀ p ∈ done ++ l.gather l.fixing paths s, ¬fs.SamePlace file p)
    (hnew : ∀ path ∈ paths, s'.cache.get? path = none)
    (hwritten : l.gather l.unwritten paths s' = [])
    (hok : ∀ x ∈ (l.lintEach paths s).1, ∀ e, x ≠ .error e) :
    List.Forall₂ SameVerdict (l.lintEach paths s).1 (l.lintEach paths s').1 := by
  induction paths generalizing done s s' with
  | nil => exact .nil
  | cons path paths ih =>
      rw [gather, List.append_subset] at hhashed
      rw [gather, gather] at hconfigs
      rw [gather, List.append_eq_nil_iff] at hwritten
      obtain ⟨hfirst, hrest⟩ := List.pairwise_cons.1 hdistinct
      obtain ⟨hother, hnodup⟩ := List.nodup_cons.1 hnodup
      obtain ⟨hverdict, hnext⟩ := h.lintFile hl hfree (hpaths path List.mem_cons_self) hhashed.1
        (hapart path List.mem_cons_self)
        (fun file hfile p hp =>
          hconfigs file (List.mem_append_left _ hfile) p (List.mem_append_left _ hp))
        (hnew path List.mem_cons_self) hwritten.1 (hok _ List.mem_cons_self)
      refine .cons hverdict (ih hnext (fun p hp => hpaths p (List.mem_cons_of_mem _ hp)) hhashed.2
        hrest hnodup ?_ ?_ ?_ hwritten.2 fun x hx => hok x (List.mem_cons_of_mem _ hx))
      · intro q hq p hp
        rcases List.mem_append.1 hp with hp | hp
        · exact hapart q (List.mem_cons_of_mem _ hq) p hp
        · rw [List.mem_singleton.1 (fixing_subset l path s hp)]
          exact hfirst q hq
      · intro file hfile p hp
        rw [List.append_assoc] at hp
        exact hconfigs file (List.mem_append_right _ hfile) p hp
      · intro q hq
        have hne : path ≠ q := fun heq => hother (heq ▸ hq)
        exact (get?_lintFile_of_ne hl h.sound' hne).trans (hnew q (List.mem_cons_of_mem _ hq))

theorem collect_eq_ok {xs : List (Except LintError LintResult)} {results : List LintResult} :
    collect xs = .ok results ↔ xs = results.map .ok := by
  induction xs generalizing results with
  | nil => cases results <;> simp [collect]
  | cons x xs ih =>
      cases x with
      | error e => cases results <;> simp [collect]
      | ok r =>
          rw [collect]
          cases hrest : collect xs with
          | error e =>
              have hne (rs : List LintResult) : xs ≠ rs.map .ok := fun heq => by
                cases hrest.symm.trans (ih.2 heq)
              cases results with
              | nil => simp [Except.map]
              | cons r' rs => simp [Except.map, hne rs]
          | ok rs =>
              obtain rfl := ih.1 hrest
              cases results with
              | nil => simp [Except.map]
              | cons r' rs' =>
                  simp [Except.map, List.map_inj_right fun a b (h : Except.ok a = .ok b) =>
                    Except.ok.inj h]

/-- Verdicts that are the same as those of some results are results themselves. -/
theorem results_of_sameVerdict {results : List LintResult}
    {ys : List (Except LintError LintResult)}
    (h : List.Forall₂ SameVerdict (results.map .ok) ys) :
    ∃ results', ys = results'.map .ok ∧
      List.Forall₂ LintResult.SameFindings results results' := by
  induction results generalizing ys with
  | nil =>
      cases h
      exact ⟨[], rfl, .nil⟩
  | cons r rs ih =>
      cases h with
      | cons hfirst hrest =>
          cases hfirst with
          | ok hsame =>
              obtain ⟨rs', rfl, hall⟩ := ih hrest
              exact ⟨_ :: rs', rfl, .cons hsame hall⟩

/-- The files of the configurations that a run consults. -/
def configFiles (l : Linter) (s : Session) : List String :=
  l.gather l.consulted (l.inputs s.started) s.started

/-- The inputs of a run that are checked under a configuration with fixes. -/
def fixedInputs (l : Linter) (s : Session) : List String :=
  l.gather l.fixing (l.inputs s.started) s.started

/-- The inputs of a run into whose files a new text cannot be put. -/
def unwrittenInputs (l : Linter) (s : Session) : List String :=
  l.gather l.unwritten (l.inputs s.started) s.started

/-- The inputs of a run lead to places of their own. -/
theorem inputs_spec {s : Session} (hs : s.files.Proper) :
    (∀ p ∈ l.inputs s, Discovery.Spelled p) ∧
      (l.inputs s).Pairwise fun p q => ¬s.files.SamePlace q p := by
  rw [inputs]
  split
  case h_2 => exact ⟨fun _ hp => absurd hp List.not_mem_nil, .nil⟩
  case h_1 found hfound =>
      obtain ⟨hsorted, hspelled⟩ := Discovery.run_spec hs hfound
      refine ⟨fun p hp => hspelled p (List.mem_filter.1 hp).1, ?_⟩
      refine List.Pairwise.imp_of_mem ?_ (hsorted.filter _)
      rintro p q hp hq hbefore ⟨names, hplace, hplace'⟩
      obtain rfl := FileSystem.eq_of_locate (hspelled p (List.mem_filter.1 hp).1)
        (hspelled q (List.mem_filter.1 hq).1) hplace' hplace
      exact hbefore.2 rfl

theorem nodup_inputs {s : Session} (hs : s.files.Proper) : (l.inputs s).Nodup := by
  rw [inputs]
  split
  case h_1 found hfound =>
      have hsorted := (Discovery.run_spec hs hfound).1.filter
        fun path => !l.ignorer.ignoresUnder path l.globDir
      refine hsorted.imp ?_
      rintro p _ hbefore rfl
      exact hbefore.2 rfl
  case h_2 => exact .nil

theorem startingConfig_withCache (l : Linter) (path : Option String) (s : Session) (c : Cache) :
    l.startingConfig path { s with cache := c } =
      ((l.startingConfig path s).1, { (l.startingConfig path s).2 with cache := c }) := by
  rw [startingConfig, startingConfig]
  split
  · rfl
  · rfl
  · dsimp only
    rcases s.memo.search s.files (path.getD l.cwd) with ⟨found, m⟩
    cases found with
    | error e => rfl
    | ok found =>
        cases found with
        | some loaded => rfl
        | none =>
            rcases hagain : m.search s.files l.cwd with ⟨found, m'⟩
            dsimp only
            rw [hagain]
            split
            · cases found with
              | error e => rfl
              | ok found => cases found <;> rfl
            · rfl

/-- Whether there may be nothing to lint has nothing to do with the cache. -/
theorem lintNothing_withCache (l : Linter) (found : Discovery) (s : Session) (c : Cache) :
    (l.lintNothing found { s with cache := c }).1 = (l.lintNothing found s).1 := by
  have hallowed : (l.allowsEmptyInput { s with cache := c }).1 = (l.allowsEmptyInput s).1 := by
    rw [allowsEmptyInput, allowsEmptyInput, startingConfig_withCache]
    split
    · rfl
    · rcases l.startingConfig none s with ⟨started, s₁⟩
      cases started with
      | error e => cases e <;> rfl
      | ok loaded =>
          have hcontext : l.configContext { s₁ with cache := c } = l.configContext s₁ := rfl
          dsimp only
          rw [hcontext]
          rcases (l.configContext s₁).augment loaded none with ⟨merged, t⟩
          cases merged <;> rfl
  rw [lintNothing, lintNothing]
  rcases hleft : l.allowsEmptyInput { s with cache := c } with ⟨allowed, s₁⟩
  rcases hright : l.allowsEmptyInput s with ⟨allowed', s₂⟩
  rw [hleft, hright] at hallowed
  obtain rfl : allowed = allowed' := hallowed
  rcases allowed with e | _ | _ <;> rfl

theorem lockstep_clear {s : Session} (hs : s.Sound registry hashed) :
    Lockstep registry hashed s.files [] s { s with cache := s.cache.clear } :=
  ⟨hs, ⟨.empty, hs.stored, hs.enabled, hs.strategy, hs.memo⟩, .refl _ _, .refl _ _, rfl⟩

/-- What a run finds does not depend on the entries of its cache, as long as the run without them
can write back what it fixes. -/
theorem results_lintFound_clear (hl : l.Caching registry) {s : Session}
    (hs : s.Sound registry hashed) (hfree : CollisionFree hashed)
    (hhashed : l.gather l.hashedFor (l.inputs s) s ⊆ hashed) (hproper : s.files.Proper)
    (hconfigs : ∀ file ∈ l.gather l.consulted (l.inputs s) s,
      ∀ p ∈ l.gather l.fixing (l.inputs s) s, ¬s.files.SamePlace file p)
    (hwritten : l.gather l.unwritten (l.inputs s) { s with cache := s.cache.clear } = [])
    {found : Discovery} {results : List LintResult}
    (hresults : (l.lintFound found s).1 = .ok results) :
    ∃ results', (l.lintFound found { s with cache := s.cache.clear }).1 = .ok results' ∧
      List.Forall₂ LintResult.SameFindings results results' := by
  have hinputs : l.inputs { s with cache := s.cache.clear } = l.inputs s := rfl
  rw [lintFound] at hresults
  rw [lintFound, hinputs]
  split at hresults
  case isTrue hempty =>
      rw [if_pos hempty, lintNothing_withCache, hresults]
      exact ⟨results, rfl, List.forall₂_same.2 fun _ _ => ⟨rfl, rfl, rfl⟩⟩
  case isFalse hne =>
      obtain ⟨hpaths, hdistinct⟩ := inputs_spec (l := l) hproper
      have hall : (l.lintEach (l.inputs s) s).1 = results.map .ok := collect_eq_ok.1 hresults
      have hnew (path : String) : s.cache.clear.get? path = none := by
        simp [Cache.get?, Cache.clear, Table.find?]
      have hsame := (lockstep_clear hs).lintEach hl hfree hpaths hhashed hdistinct
        (nodup_inputs hproper) (fun _ _ _ hp => absurd hp List.not_mem_nil) hconfigs
        (fun path _ => hnew path) hwritten fun x hx e heq => by
          rw [hall] at hx
          obtain ⟨r, -, rfl⟩ := List.mem_map.1 hx
          cases heq
      rw [hall] at hsame
      obtain ⟨results', hall', hfindings⟩ := results_of_sameVerdict hsame
      rw [if_neg hne]
      exact ⟨results', collect_eq_ok.2 hall', hfindings⟩

/--
A run that ends well counts the same when it starts with a cache without entries, as long as none
of the inputs that it may write back is a configuration file that it consults and the run without
entries can write back what it fixes.
-/
theorem counts_lint_clear (hl : l.Caching registry) {s : Session}
    (hs : s.Sound registry hashed) (hfree : CollisionFree hashed) (hhashed : l.hashed s ⊆ hashed)
    (hproper : s.files.Proper)
    (hconfigs : ∀ file ∈ l.configFiles s, ∀ p ∈ l.fixedInputs s, ¬s.files.SamePlace file p)
    (hwritten : l.unwrittenInputs { s with cache := s.cache.clear } = [])
    {a : Aggregate} (hok : (l.lint s).1 = .ok a) :
    ∃ b, (l.lint { s with cache := s.cache.clear }).1 = .ok b ∧ a.errored = b.errored ∧
      a.errorCount = b.errorCount ∧ a.warningCount = b.warningCount := by
  have hstarted : Session.Sound registry hashed s.started := hs.withFiles fun ht => ht
  have hplaces (p q : String) : s.started.files.SamePlace p q ↔ s.files.SamePlace p q := by
    have hsame : AgreeOutside ∅ s.started.files s.files :=
      ⟨rfl, rfl, fun _ => rfl, fun _ => rfl⟩
    simp only [FileSystem.SamePlace, hsame.locate]
  rw [lint_eq hl] at hok ⊢
  split at hok
  case h_1 => cases hok
  case h_2 found hfound =>
      have hfound' : Discovery.run
          (Session.started { s with cache := s.cache.clear }).files (l.options.files.getD [])
          l.globDir l.options.keepExcluded = .ok found := hfound
      rcases hfound : l.lintFound found s.started with ⟨outcome, s₁⟩
      rw [hfound] at hok
      cases outcome with
      | error e => cases hok
      | ok results =>
          obtain rfl := Except.ok.inj hok
          obtain ⟨results', hagain, hfindings⟩ := results_lintFound_clear hl hstarted hfree hhashed
            ⟨hproper.names⟩ (fun file hfile p hp => by
              rw [hplaces]
              exact hconfigs file hfile p hp)
            hwritten (congrArg Prod.fst hfound)
          have hcounts := Summary.ofResults_congr hfindings l.options.maxWarnings l.cwd
          rw [hfound']
          dsimp only
          rcases hfinal : l.lintFound found (Session.started { s with cache := s.cache.clear })
            with ⟨outcome, s₂⟩
          obtain rfl : outcome = .ok results' := (congrArg Prod.fst hfinal).symm.trans hagain
          exact ⟨l.aggregate results', rfl, hcounts⟩

end Run

end Linter

end StyleAudit
