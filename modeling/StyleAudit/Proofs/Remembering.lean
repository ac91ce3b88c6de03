import StyleAudit.Proofs.Extending
import StyleAudit.Proofs.Lockstep

/-!
What is remembered of configurations while a run goes on.

What is remembered only grows, by what the files hold. As long as the files that are looked into
stay as they were, the configuration of an input is the same whatever has been remembered for other
inputs in the meantime.
-/

namespace StyleAudit

open FileSystem (AgreeOutside)

/-- The new table has what the old one has, and under further names what a source gives. -/
def Table.GrownBy {α : Type} (gives : String → Except LintError α) (old new : Table α) : Prop :=
  ∀ key, new.find? key = old.find? key ∨
    ∃ value, old.find? key = none ∧ new.find? key = some value ∧ gives key = .ok value

namespace Table.GrownBy

variable {α : Type} {gives : String → Except LintError α} {old new : Table α}

theorem refl (gives : String → Except LintError α) (t : Table α) : GrownBy gives t t :=
  fun _ => .inl rfl

theorem insert (h : GrownBy gives old new) {key : String} {value : α}
    (hnone : new.find? key = none) (hvalue : gives key = .ok value) :
    GrownBy gives old (new.insert key value) := by
  intro other
  rw [Table.find?_insert]
  by_cases hkey : key = other
  · subst hkey
    rw [if_pos rfl]
    refine .inr ⟨value, ?_, rfl, hvalue⟩
    rcases h key with hsame | ⟨_, hold, -, -⟩
    · rw [← hsame, hnone]
    · exact hold
  · rw [if_neg hkey]
    exact h other

end Table.GrownBy

section Lookups

variable {D : Set (List String)} {a b : FileSystem}

theorem SourcedConfig.search_eq (h : AgreeOutside D a b) {dir : String}
    (hspares : ∀ file, nearestFile? a dir = some file → a.Spares D file) :
    search b dir = search a dir := by
  rw [search, search, ← nearestFile?_congr h]
  split
  · rfl
  · rename_i file hfile
    rw [read_congr h (hspares file hfile)]

end Lookups

namespace ConfigMemo

/-- What is remembered of a file is kept under its path. -/
def Faithful (m : ConfigMemo) : Prop :=
  ∀ path l, m.files.find? path = some l → l.file = some path

theorem faithful_empty : ConfigMemo.empty.Faithful := nofun

/-- What is remembered has grown by what some files hold. -/
structure Grown (fs : FileSystem) (old new : ConfigMemo) : Prop where
  searches : Table.GrownBy (SourcedConfig.search fs) old.searches new.searches
  files : Table.GrownBy (SourcedConfig.read fs) old.files new.files

variable {fs fs' : FileSystem} {m old new : ConfigMemo} {path : String}

theorem Grown.refl (fs : FileSystem) (m : ConfigMemo) : Grown fs m m :=
  ⟨.refl _ _, .refl _ _⟩

/-- A file that is loaded under a path in normal form has that path. -/
theorem file_of_load (hm : m.Faithful) (hkey : key path = path) {l : SourcedConfig}
    (h : m.load fs path = .ok l) : l.file = some path := by
  rw [load, hkey] at h
  split at h
  case h_1 found hfound =>
      obtain rfl := Except.ok.inj h
      exact hm path found hfound
  case h_2 => exact SourcedConfig.file_of_read h

theorem Grown.load_eq (h : Grown fs old new) (hkey : key path = path)
    (hread : SourcedConfig.read fs path = SourcedConfig.read fs' path) :
    new.load fs' path = old.load fs path := by
  rw [load, load, hkey, ← hread]
  rcases h.files path with hsame | ⟨l, hold, hnew, hl⟩
  · rw [hsame]
  · rw [hold, hnew]
    exact hl.symm

theorem Grown.remember (h : Grown fs old new) (hkey : key path = path)
    (hread : SourcedConfig.read fs path = SourcedConfig.read fs' path) :
    Grown fs old (ConfigMemo.remember fs' new path) := by
  rw [ConfigMemo.remember, hkey, ← hread]
  split
  case h_1 l hnone hl => exact ⟨h.searches, h.files.insert hnone hl⟩
  case h_2 => exact h

theorem Grown.rememberAll (h : Grown fs old new) {paths : List String}
    (hpaths : ∀ path ∈ paths, key path = path ∧
      SourcedConfig.read fs path = SourcedConfig.read fs' path) :
    Grown fs old (ConfigMemo.rememberAll fs' new paths) := by
  rw [ConfigMemo.rememberAll]
  induction paths generalizing new with
  | nil => exact h
  | cons path paths ih =>
      obtain ⟨hkey, hread⟩ := hpaths path List.mem_cons_self
      exact ih (h.remember hkey hread) fun p hp => hpaths p (List.mem_cons_of_mem _ hp)

/-- A search finds the same whatever has been remembered since, and is remembered itself. -/
theorem Grown.search {D : Set (List String)} (h : Grown fs old new) (hagree : AgreeOutside D fs fs')
    (hkey : key (startDir fs path) = startDir fs path)
    (hspares : ∀ file, SourcedConfig.nearestFile? fs (startDir fs path) = some file →
      fs.Spares D file) :
    (new.search fs' path).1 = (old.search fs path).1 ∧ Grown fs old (new.search fs' path).2 := by
  have hstart : startDir fs' path = startDir fs path := by
    rw [startDir, startDir, hagree.isDirectory]
  have hsearch := SourcedConfig.search_eq hagree hspares
  rw [ConfigMemo.search, ConfigMemo.search, hstart, hkey, hsearch]
  rcases h.searches (startDir fs path) with hsame | ⟨found, hold, hnew, hgives⟩
  · rw [hsame]
    cases hfound : old.searches.find? (startDir fs path) with
    | some found => exact ⟨rfl, h⟩
    | none =>
        cases hresult : SourcedConfig.search fs (startDir fs path) with
        | error e => exact ⟨rfl, h⟩
        | ok found => exact ⟨rfl, h.searches.insert (hsame.trans hfound) hresult, h.files⟩
  · rw [hold, hnew, hgives]
    exact ⟨rfl, h⟩

end ConfigMemo

namespace BaseSources

def fileFor? (s : BaseSources) (name dir : String) : Option String :=
  match s.shared name with
  | some _ => none
  | none => ((s.candidates name dir).find? s.isFile).map fun path => Path.absolutize path s.cwd

variable {s s' : BaseSources} {name dir : String}

theorem key_of_fileFor? {file : String} (h : s.fileFor? name dir = some file) :
    ConfigMemo.key file = file := by
  rw [fileFor?] at h
  split at h
  case h_1 => cases h
  case h_2 =>
      obtain ⟨candidate, -, rfl⟩ := Option.map_eq_some_iff.1 h
      exact Path.render_components_absolutize candidate s.cwd

/-- A base is found in the same way where the file that is read for it loads to the same. -/
theorem find_congr (hshared : s'.shared = s.shared) (hfile : s'.isFile = s.isFile)
    (hcwd : s'.cwd = s.cwd)
    (hload : ∀ file, s.fileFor? name dir = some file → s'.load file = s.load file) :
    s'.find name dir = s.find name dir := by
  rw [find, find, candidates, candidates, hshared, hfile, hcwd]
  cases hname : s.shared name with
  | some config => rfl
  | none =>
      dsimp only
      split
      case h_1 => rfl
      case h_2 candidate hcandidate =>
          have hfor : s.fileFor? name dir = some (Path.absolutize candidate s.cwd) := by
            rw [fileFor?, hname, candidates]
            dsimp only
            rw [hcandidate, Option.map_some]
          rw [hload _ hfor]

/-- What is found under a name of its own has no file; else it has the file that is read for it. -/
theorem file_of_find {found : FoundBase} (h : s.find name dir = .ok found)
    (hload : ∀ file l, s.fileFor? name dir = some file → s.load file = .ok l → l.file = some file)
    {file : String} (hfile : found.loaded.file = some file) : s.fileFor? name dir = some file := by
  rw [find] at h
  split at h
  case h_1 config hname =>
      obtain rfl := Except.ok.inj h
      cases hfile
  case h_2 hname =>
      split at h
      case h_1 => cases h
      case h_2 candidate hcandidate =>
          have hfor : s.fileFor? name dir = some (Path.absolutize candidate s.cwd) := by
            rw [fileFor?, hname]
            dsimp only
            rw [hcandidate, Option.map_some]
          dsimp only at h
          split at h
          case h_1 => cases h
          case h_2 l hl =>
              obtain rfl := Except.ok.inj h
              rw [hfor, ← hfile]
              exact (hload _ l hfor hl).symm

end BaseSources

namespace Config

variable {s : Scope} {w : Work} {t t' : Trail} {r : Except LintError Config}

/-- The work comes to the same where all look-ups that it can come to find the same. -/
theorem Yields.congr {sources : BaseSources} (h : Yields s w t r t')
    (hfind : ∀ keys name dir, Leads s w keys name dir →
      sources.find name dir = s.sources.find name dir) :
    Yields { s with sources := sources } w t r t' := by
  induction h with
  | refused hown => exact .refused hown
  | config hown _ ih => exact .config hown (ih fun _ _ _ hl => hfind _ _ _ (.config hown hl))
  | alone hbases => exact .alone hbases
  | extending hbases _ ih =>
      exact .extending hbases (ih fun _ _ _ hl => hfind _ _ _ (.extending hl))
  | done => exact .done
  | failed _ ih =>
      exact .failed (ih fun _ _ _ hl => hfind _ _ _ (.bases List.mem_cons_self hl))
  | laid _ _ ihbase ih =>
      refine .laid (ihbase fun _ _ _ hl => hfind _ _ _ (.bases List.mem_cons_self hl)) (ih ?_)
      intro keys name dir hl
      cases hl with
      | bases hb hl => exact hfind _ _ _ (.bases (List.mem_cons_of_mem _ hb) hl)
  | inline _ ih => exact .inline (ih fun _ _ _ hl => hfind _ _ _ (.inline hl))
  | missing hfound => exact .missing ((hfind _ _ _ .here).trans hfound)
  | circular hfound hkey => exact .circular ((hfind _ _ _ .here).trans hfound) hkey
  | tooDeep hfound hkey hdepth => exact .tooDeep ((hfind _ _ _ .here).trans hfound) hkey hdepth
  | entered hfound hkey hdepth _ ih =>
      refine .entered ((hfind _ _ _ .here).trans hfound) hkey hdepth (ih ?_)
      exact fun _ _ _ hl => hfind _ _ _ (.entered hfound hl)

theorem extendFrom_congr {sources : BaseSources} {dir : String} {c : Config} (chain : List String)
    (hfind : ∀ keys name place, Leads s (.config dir c) keys name place →
      sources.find name place = s.sources.find name place) :
    extendFrom { s with sources := sources } dir c chain = extendFrom s dir c chain := by
  have hthere := (yields_extendFrom s dir c chain).congr hfind
  have hhere := yields_extendFrom { s with sources := sources } dir c chain
  exact Prod.ext (hhere.unique hthere).1 (hhere.unique hthere).2

def Reads (s : Scope) (w : Work) (file : String) : Prop :=
  ∃ keys name dir found, Leads s w keys name dir ∧ s.sources.find name dir = .ok found ∧
    found.loaded.file = some file

theorem Reads.mono {w' : Work} {file : String} (h : Reads s w file)
    (hleads : ∀ keys name dir, Leads s w keys name dir → ∃ keys', Leads s w' keys' name dir) :
    Reads s w' file := by
  obtain ⟨keys, name, dir, found, hl, hfound⟩ := h
  obtain ⟨keys', hl'⟩ := hleads keys name dir hl
  exact ⟨keys', name, dir, found, hl', hfound⟩

/-- The files that are read are those of the bases that the work can come to. -/
theorem Yields.mem_reads (h : Yields s w t r t') {file : String} (hfile : file ∈ t'.reads) :
    file ∈ t.reads ∨ Reads s w file := by
  -- A look-up notes the file that it finds.
  have hnoted {name dir : String} {t : Trail} {found : FoundBase}
      (hfound : s.sources.find name dir = .ok found) (hfile : file ∈ (t.note found).reads) :
      file ∈ t.reads ∨ Reads s (.base dir (.lookup name)) file := by
    rcases List.mem_append.1 hfile with hold | hnew
    · exact .inl hold
    · exact .inr ⟨[], name, dir, found, .here, hfound, Option.mem_toList.1 hnew⟩
  induction h with
  | refused => exact .inl hfile
  | config hown _ ih =>
      exact (ih hfile).imp_right fun h => h.mono fun _ _ _ hl => ⟨_, .config hown hl⟩
  | alone => exact .inl hfile
  | extending _ _ ih =>
      exact (ih hfile).imp_right fun h => h.mono fun _ _ _ hl => ⟨_, .extending hl⟩
  | done => exact .inl hfile
  | failed _ ih =>
      refine (ih hfile).imp_right fun h => h.mono fun _ _ _ hl => ?_
      exact ⟨_, .bases List.mem_cons_self hl⟩
  | laid _ _ ihbase ih =>
      rcases ih hfile with hold | h
      · refine (ihbase hold).imp_right fun h => h.mono fun _ _ _ hl => ?_
        exact ⟨_, .bases List.mem_cons_self hl⟩
      · refine .inr (h.mono fun _ _ _ hl => ?_)
        cases hl with
        | bases hb hl => exact ⟨_, .bases (List.mem_cons_of_mem _ hb) hl⟩
  | inline _ ih =>
      exact (ih hfile).imp_right fun h => h.mono fun _ _ _ hl => ⟨_, .inline hl⟩
  | missing => exact .inl hfile
  | circular hfound _ => exact hnoted hfound hfile
  | tooDeep hfound _ _ => exact hnoted hfound hfile
  | entered hfound _ _ _ ih =>
      rcases ih hfile with hold | h
      · exact hnoted hfound hold
      · exact .inr (h.mono fun _ _ _ hl => ⟨_, .entered hfound hl⟩)

end Config

/-- A session whose files differ from those of an earlier one at some places at most, and in which
more may be remembered of what the files held then. -/
structure Session.GrownFrom (D : Set (List String)) (s t : Session) : Prop where
  files : s.files.AgreeOutside D t.files
  memo : ConfigMemo.Grown s.files s.memo t.memo

theorem Session.GrownFrom.refl (D : Set (List String)) (s : Session) : Session.GrownFrom D s s :=
  ⟨.refl _ _, .refl _ _⟩

theorem ConfigMemo.key_startDir {path : String} (hpath : Discovery.Spelled path)
    (fs : FileSystem) : key (startDir fs path) = startDir fs path := by
  obtain ⟨names, hne, hnames, rfl⟩ := hpath
  rw [startDir]
  split
  · exact Path.render_components_through hnames
  · obtain ⟨init, last, rfl⟩ := (List.eq_nil_or_concat' names).resolve_left hne
    rw [Path.parent?_through hnames, Option.getD_some]
    exact Path.render_components_through fun n hn => hnames n (List.mem_append_left _ hn)

namespace Linter

def scopeFor (l : Linter) (path : String) (s : Session) (loaded : SourcedConfig) : Config.Scope :=
  ⟨(l.configContext s).sources, (l.configContext s).baseDir loaded, some path⟩

def workFor (l : Linter) (s : Session) (loaded : SourcedConfig) : Config.Work :=
  .config ((l.configContext s).baseDir loaded) (l.options.applyTo loaded.config)

/-- The configuration files that are looked into for a path: the one that the options name or that
a search from the path meets first, and those of the bases that can be come to from there. -/
inductive LooksInto (l : Linter) (path : String) (s : Session) : String → Prop
  | named {file : String} (hconfig : l.options.config = none)
      (hfile : l.options.configFile = some file) :
      LooksInto l path s (Path.absolutize file l.cwd)
  | nearest {file : String} (hconfig : l.options.config = none)
      (hfile : l.options.configFile = none)
      (hnearest : SourcedConfig.nearestFile? s.files (ConfigMemo.startDir s.files path) =
        some file) : LooksInto l path s file
  | base {loaded : SourcedConfig} {keys : List String} {name dir file : String}
      (hstart : (l.startingConfig (some path) s).1 = .ok loaded)
      (hleads : Config.Leads (l.scopeFor path s loaded) (l.workFor s loaded) keys name dir)
      (hfile : (l.scopeFor path s loaded).sources.fileFor? name dir = some file) :
      LooksInto l path s file

def configFrom (l : Linter) (path : String) (s : Session) : Except LintError EffectiveConfig :=
  match (l.startingConfig (some path) s).1 with
  | .error e => .error e
  | .ok loaded => ((l.configContext s).resolve loaded (some path)).2.1

/-- What a path of a run is prepared to when its text is read from some files. -/
def preparedFrom (l : Linter) (path : String) (s : Session) (fs : FileSystem) :
    Except LintError PreparedInput :=
  let input := LintInput.ofFile path l.usesCache
  match inputFault? input with
  | some e => .error e
  | none =>
    if l.leavesOut input then .ok (.skipped (.skipped (LintResult.skipped input.path) input.sheet))
    else
      match l.configFrom path s with
      | .error e => .error e
      | .ok r => fetch fs input r

theorem preparedFrom_congr (l : Linter) {path : String} (s : Session) {a b : FileSystem}
    (h : a.readText path = b.readText path) :
    l.preparedFrom path s a = l.preparedFrom path s b := by
  have htext : textOf a (.ofFile path l.usesCache) = textOf b (.ofFile path l.usesCache) := by
    simp only [textOf, LintInput.ofFile, h]
  have hfetch (r : EffectiveConfig) :
      fetch a (.ofFile path l.usesCache) r = fetch b (.ofFile path l.usesCache) r := by
    rw [fetch, fetch, htext]
  simp only [preparedFrom, hfetch]

section Grown

variable {l : Linter} {D : Set (List String)} {s t : Session} {path : String}

/-- The configuration to begin with is the same in a session that has grown. -/
theorem startingConfig_grown (hcode : l.options.code = none) (h : Session.GrownFrom D s t)
    (hpath : Discovery.Spelled path)
    (hspares : ∀ file, l.LooksInto path s file → s.files.Spares D file) :
    ∃ m, l.startingConfig (some path) t =
        ((l.startingConfig (some path) s).1, { t with memo := m }) ∧
      ConfigMemo.Grown s.files s.memo m := by
  rw [startingConfig, startingConfig]
  cases hconfig : l.options.config with
  | some config => exact ⟨t.memo, rfl, h.memo⟩
  | none =>
      cases hfile : l.options.configFile with
      | some file =>
          have hkey := Path.render_components_absolutize file l.cwd
          have hread := SourcedConfig.read_congr h.files (hspares _ (.named hconfig hfile))
          dsimp only
          rw [h.memo.load_eq hkey hread]
          exact ⟨_, rfl, h.memo.remember hkey hread⟩
      | none =>
          obtain ⟨hfound, hmemo⟩ := h.memo.search h.files (ConfigMemo.key_startDir hpath s.files)
            fun file hnearest => hspares file (.nearest hconfig hfile hnearest)
          dsimp only [Option.getD_some]
          rcases hhere : s.memo.search s.files path with ⟨found, m₀⟩
          rcases hthere : t.memo.search t.files path with ⟨again, m⟩
          rw [hhere, hthere] at hfound
          rw [hthere] at hmemo
          obtain rfl : again = found := hfound
          -- Without code there is no second search.
          rcases again with e | _ | loaded
          · exact ⟨m, rfl, hmemo⟩
          · rw [hcode]
            exact ⟨m, rfl, hmemo⟩
          · exact ⟨m, rfl, hmemo⟩

variable {loaded : SourcedConfig}

/-- A base is found in the same way in a session that has grown, if its file is not among those
that have changed. -/
theorem find_grown (h : Session.GrownFrom D s t) {name dir : String}
    (hspares : ∀ file, (l.scopeFor path s loaded).sources.fileFor? name dir = some file →
      s.files.Spares D file) :
    (l.configContext t).sources.find name dir =
      (l.scopeFor path s loaded).sources.find name dir := by
  have hisFile : t.files.isFile = s.files.isFile := (funext h.files.isFile).symm
  refine BaseSources.find_congr rfl hisFile rfl fun file hfile => ?_
  exact h.memo.load_eq (BaseSources.key_of_fileFor? hfile)
    (SourcedConfig.read_congr h.files (hspares file hfile))

/-- The configuration that is worked out for a path is the same in a session that has grown, and
what is remembered of the files that were read is what they held. -/
theorem resolve_grown (hmemo : s.memo.Faithful) (h : Session.GrownFrom D s t)
    (hstart : (l.startingConfig (some path) s).1 = .ok loaded)
    (hspares : ∀ file, l.LooksInto path s file → s.files.Spares D file) :
    (l.configContext t).resolve loaded (some path) =
        (l.configContext s).resolve loaded (some path) ∧
      ConfigMemo.Grown s.files s.memo ((l.configContext t).remembered
        ((l.configContext s).resolve loaded (some path)).2.2) := by
  have hagain : (l.configContext t).augment loaded (some path) =
      (l.configContext s).augment loaded (some path) := by
    refine Config.extendFrom_congr (s := l.scopeFor path s loaded) _ fun keys name dir hleads => ?_
    exact find_grown h fun file hfile => hspares file (.base hstart hleads hfile)
  have htrail : ((l.configContext s).resolve loaded (some path)).2.2 =
      ((l.configContext s).augment loaded (some path)).2 := by
    rw [ConfigContext.resolve]
    split
    · rename_i haugment
      rw [haugment]
    · rename_i haugment
      rw [haugment]
  constructor
  · rw [ConfigContext.resolve, ConfigContext.resolve, hagain]
    rfl
  · rw [htrail]
    refine h.memo.rememberAll fun file hfile => ?_
    have hyields := Config.yields_extendFrom (l.scopeFor path s loaded)
      ((l.configContext s).baseDir loaded) (l.options.applyTo loaded.config)
      (loaded.file.map Path.withSlashes).toList
    obtain ⟨keys, name, dir, found, hleads, hfound, hloaded⟩ :=
      (hyields.mem_reads hfile).resolve_left List.not_mem_nil
    have hfor := BaseSources.file_of_find hfound
      (fun file l hfile hl => ConfigMemo.file_of_load hmemo
        (BaseSources.key_of_fileFor? hfile) hl) hloaded
    exact ⟨BaseSources.key_of_fileFor? hfor,
      SourcedConfig.read_congr h.files (hspares file (.base hstart hleads hfor))⟩

theorem configFor_grown (hcode : l.options.code = none) (hmemo : s.memo.Faithful)
    (h : Session.GrownFrom D s t) (hpath : Discovery.Spelled path)
    (hspares : ∀ file, l.LooksInto path s file → s.files.Spares D file) :
    ∃ m notices, l.configFor (some path) t =
        (l.configFrom path s, { t with memo := m, notices := notices }) ∧
      ConfigMemo.Grown s.files s.memo m := by
  obtain ⟨m, hagain, hgrown⟩ := startingConfig_grown hcode h hpath hspares
  rw [configFor, hagain, configFrom]
  cases hstart : (l.startingConfig (some path) s).1 with
  | error e => exact ⟨m, t.notices, rfl, hgrown⟩
  | ok loaded =>
      obtain ⟨hresolve, hremembered⟩ :=
        resolve_grown (t := { t with memo := m }) hmemo ⟨h.files, hgrown⟩ hstart hspares
      dsimp only
      rw [hresolve]
      exact ⟨_, _, rfl, hremembered⟩

/-- Preparing a path reads its text and otherwise depends on the session that the run began in. -/
theorem prepare_grown (hcode : l.options.code = none) (hmemo : s.memo.Faithful)
    (h : Session.GrownFrom D s t) (hpath : Discovery.Spelled path)
    (hspares : ∀ file, l.LooksInto path s file → s.files.Spares D file) :
    ∃ m notices, l.prepare (.ofFile path l.usesCache) t =
        (l.preparedFrom path s t.files, { t with memo := m, notices := notices }) ∧
      ConfigMemo.Grown s.files s.memo m := by
  rw [prepare, preparedFrom]
  cases inputFault? (LintInput.ofFile path l.usesCache) with
  | some e => exact ⟨t.memo, t.notices, rfl, h.memo⟩
  | none =>
      by_cases hleft : l.leavesOut (LintInput.ofFile path l.usesCache)
      · simp only [if_pos hleft]
        exact ⟨t.memo, t.notices, rfl, h.memo⟩
      · obtain ⟨m, notices, hconfig, hgrown⟩ := configFor_grown hcode hmemo h hpath hspares
        have hthis : l.configFor (LintInput.ofFile path l.usesCache).path t =
            (l.configFrom path s, { t with memo := m, notices := notices }) := hconfig
        simp only [if_neg hleft, hthis]
        cases l.configFrom path s with
        | error e => exact ⟨m, notices, rfl, hgrown⟩
        | ok r => exact ⟨m, notices, rfl, hgrown⟩

end Grown

end Linter

end StyleAudit
