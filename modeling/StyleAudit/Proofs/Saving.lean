import StyleAudit.Proofs.Places

/-!
What saving a cache does to the files.

Nothing that a save does takes a directory away, so a path that led somewhere leads there still.
A save that succeeds can be read back, and it changes no file but the draft and the cache file.
-/

namespace StyleAudit

namespace FileSystem

variable {a b c fs fs' : FileSystem} {names other place : List String}

/-- Whether the directories of one file system are directories of another; files may differ. -/
structure KeepsDirectories (a b : FileSystem) : Prop where
  home : b.home = a.home
  locked : b.locked = a.locked
  directory {names : List String} (h : a.get? names = some .directory) :
    b.get? names = some .directory

namespace KeepsDirectories

theorem refl (a : FileSystem) : KeepsDirectories a a :=
  ⟨rfl, rfl, id⟩

theorem trans (hab : KeepsDirectories a b) (hbc : KeepsDirectories b c) : KeepsDirectories a c :=
  ⟨hbc.home.trans hab.home, hbc.locked.trans hab.locked,
    fun h => hbc.directory (hab.directory h)⟩

theorem isLocked (h : KeepsDirectories a b) (dir : List String) :
    b.isLocked dir = a.isLocked dir := by
  rw [FileSystem.isLocked, FileSystem.isLocked, h.locked]

theorem follow (h : KeepsDirectories a b) {here : List String} {parts : List (List Char)}
    (hplace : a.follow here parts = .ok place) : b.follow here parts = .ok place := by
  induction parts generalizing here with
  | nil => exact hplace
  | cons s rest ih =>
      rw [FileSystem.follow] at hplace ⊢
      split at hplace
      case h_1 => cases hplace
      case h_2 => cases hplace
      case h_3 hdir =>
          rw [h.directory hdir]
          dsimp only
          split at hplace
          case isTrue hvoid =>
              rw [if_pos hvoid]
              exact ih hplace
          case isFalse hvoid =>
              rw [if_neg hvoid]
              split at hplace
              case isTrue hparent =>
                  rw [if_pos hparent]
                  exact ih hplace
              case isFalse hparent =>
                  rw [if_neg hparent]
                  split at hplace
                  case isTrue => cases hplace
                  case isFalse hlong =>
                      rw [if_neg hlong]
                      exact ih hplace

/-- A path that leads to a place leads there still. -/
theorem locate (h : KeepsDirectories a b) {path : String} (hplace : a.locate path = .ok place) :
    b.locate path = .ok place := by
  rw [FileSystem.locate] at hplace ⊢
  split
  case h_1 hfault =>
      rw [hfault] at hplace
      cases hplace
  case h_2 hfault =>
      rw [hfault] at hplace
      rw [origin, h.home]
      exact h.follow hplace

/-- A file can still be moved where it could be moved, unless a directory was made there. -/
theorem destination (h : KeepsDirectories a b) {path : String}
    (hplace : a.destination path = .ok place) (hfree : b.get? place ≠ some .directory) :
    b.destination path = .ok place := by
  obtain ⟨parts, name, dir, hsplit, hname, hdir, hdots, hlong, hopen, rfl, -⟩ :=
    destination_eq_ok.1 hplace
  rw [← h.isLocked] at hopen
  refine destination_eq_ok.2
    ⟨parts, name, dir, hsplit, hname, ?_, hdots, hlong, hopen, rfl, hfree⟩
  rw [origin, h.home]
  exact h.follow hdir

/-- A file where no directory was. -/
theorem set (hnames : a.get? names ≠ some .directory) (e : Entry) :
    KeepsDirectories a (a.set names e) := by
  have hne : names ≠ [] := by
    rintro rfl
    exact hnames a.get?_root
  refine ⟨rfl, rfl, fun {other} hother => ?_⟩
  rw [get?_set hne, if_neg, hother]
  rintro rfl
  exact hnames hother

theorem erase (hnames : a.get? names ≠ some .directory) : KeepsDirectories a (a.erase names) := by
  refine ⟨rfl, rfl, fun {other} hother => ?_⟩
  rw [get?] at hother ⊢
  split
  case isTrue => rfl
  case isFalse hroot =>
      rw [if_neg hroot] at hother
      rw [FileSystem.erase, find?_filter fun n => n != names, if_pos, hother]
      rw [bne_iff_ne]
      rintro rfl
      exact hnames (by rw [get?, if_neg hroot, hother])

end KeepsDirectories

/-- Erasing one place leaves the others as they were. -/
theorem get?_erase_of_ne (h : other ≠ names) : (fs.erase names).get? other = fs.get? other := by
  rw [get?, get?]
  split
  case isTrue => rfl
  case isFalse => rw [erase, find?_filter fun n => n != names, if_pos (by simpa using h)]

def contentAt? (fs : FileSystem) (names : List String) : Option Content :=
  match fs.get? names with
  | some (.file content _) => some content
  | _ => none

/-- Whether a place is as it was, but for a directory that was made where nothing was. -/
def StaysAt (a b : FileSystem) (names : List String) : Prop :=
  b.get? names = a.get? names ∨ a.get? names = none ∧ b.get? names = some .directory

namespace StaysAt

theorem refl (a : FileSystem) (names : List String) : a.StaysAt a names :=
  .inl rfl

theorem get? {e : Entry} (h : a.StaysAt b names) (hget : a.get? names = some e) :
    b.get? names = some e := by
  rcases h with heq | ⟨hnone, -⟩
  · rw [heq, hget]
  · cases hnone.symm.trans hget

theorem trans (hab : a.StaysAt b names) (hbc : b.StaysAt c names) : a.StaysAt c names := by
  rcases hab with heq | ⟨hnone, hmade⟩
  · rw [StaysAt, ← heq]
    exact hbc
  · exact .inr ⟨hnone, hbc.get? hmade⟩

/-- A file is there only if it was there before. -/
theorem get?_of_file {content : Content} {modified : Nat} (h : a.StaysAt b names)
    (hget : b.get? names = some (.file content modified)) :
    a.get? names = some (.file content modified) := by
  rcases h with heq | ⟨-, hmade⟩
  · rw [← heq, hget]
  · cases hmade.symm.trans hget

/-- No file comes or goes where a place stays. -/
theorem contentAt? (h : a.StaysAt b names) : b.contentAt? names = a.contentAt? names := by
  rw [FileSystem.contentAt?, FileSystem.contentAt?]
  rcases h with heq | ⟨hnone, hmade⟩
  · rw [heq]
  · rw [hnone, hmade]

end StaysAt

/-- What a file holds when another place was erased, it held before. -/
theorem contentAt?_of_erase {content : Content}
    (h : (fs.erase other).contentAt? names = some content) :
    fs.contentAt? names = some content := by
  rw [contentAt?] at h ⊢
  split at h
  case h_1 hget => rw [get?_erase_of_some hget, ← h]
  case h_2 => cases h

/-- Making directories changes only places where nothing was. -/
theorem staysAt_makeFrom (here : List String) (parts : List (List Char)) :
    fs.StaysAt (fs.makeFrom here parts).1 names := by
  induction parts generalizing fs here with
  | nil => exact .refl fs names
  | cons s parts ih =>
      rw [makeFrom]
      split
      · exact ih _
      · split
        · exact ih _
        · split
          · exact .refl fs names
          · dsimp only
            split
            · exact ih _
            · exact .refl fs names
            · rename_i hnone
              split
              case isTrue => exact .refl fs names
              case isFalse =>
                  refine StaysAt.trans ?_ (ih _)
                  rw [StaysAt, get?_set (by simp)]
                  split
                  case isTrue heq => exact .inr ⟨heq ▸ hnone, rfl⟩
                  case isFalse => exact .inl rfl

theorem makeFrom_frame (fs : FileSystem) (here : List String) (parts : List (List Char)) :
    (fs.makeFrom here parts).1.home = fs.home ∧ (fs.makeFrom here parts).1.locked = fs.locked := by
  induction parts generalizing fs here with
  | nil => exact ⟨rfl, rfl⟩
  | cons s parts ih =>
      rw [makeFrom]
      dsimp only
      repeat' split
      all_goals first | exact ⟨rfl, rfl⟩ | exact ih _ _

/-- Whether nothing has changed but for directories that were made. -/
structure AddsDirectories (a b : FileSystem) : Prop where
  home : b.home = a.home
  locked : b.locked = a.locked
  stays (names : List String) : a.StaysAt b names

theorem AddsDirectories.refl (a : FileSystem) : AddsDirectories a a :=
  ⟨rfl, rfl, .refl a⟩

theorem AddsDirectories.keepsDirectories (h : AddsDirectories a b) : KeepsDirectories a b :=
  ⟨h.home, h.locked, (h.stays _).get?⟩

theorem addsDirectories_makeDirectory (fs : FileSystem) (path : String) :
    AddsDirectories fs (fs.makeDirectory path).1 := by
  rw [makeDirectory]
  split
  · exact .refl fs
  · exact .refl fs
  · obtain ⟨hhome, hlocked⟩ := makeFrom_frame fs (fs.origin path) (Path.segments path.toList)
    exact ⟨hhome, hlocked, fun _ => staysAt_makeFrom _ _⟩

/-- Also when not all of the directories could be made. -/
theorem AddsDirectories.of_makeDirectory {path : String} {fault : Option FileFault}
    (h : fs.makeDirectory path = (fs', fault)) : AddsDirectories fs fs' := by
  have hmade := addsDirectories_makeDirectory fs path
  rw [h] at hmade
  exact hmade

theorem AddsDirectories.of_eq {α : Type} {r r' : α} (h : (fs, r) = (fs', r')) :
    AddsDirectories fs fs' := by
  obtain ⟨rfl, -⟩ := Prod.mk.inj h
  exact .refl fs

theorem read_of_get? {path : String} {content : Content} {modified : Nat}
    (hplace : fs.locate path = .ok place) (hget : fs.get? place = some (.file content modified)) :
    fs.read path = .ok content := by
  rw [read, stat_eq_ok.2 ⟨place, hplace, hget⟩]
  rfl

theorem ne_nil_of_free (h : fs.get? names ≠ some .directory) : names ≠ [] := by
  rintro rfl
  exact h fs.get?_root

/-- A written file changes its own place. -/
theorem write_spec {path : String} {content : Content} (h : fs.write path content = .ok fs') :
    KeepsDirectories fs fs' ∧ (∃ modified place, fs'.locate path = .ok place ∧
      fs'.get? place = some (.file content modified)) ∧
      ∀ names, fs'.locate path ≠ .ok names → fs'.get? names = fs.get? names := by
  obtain ⟨place, hplace, hfree, rfl⟩ := write_eq_ok h
  have hkeeps := KeepsDirectories.set hfree (.file content fs.now)
  have hne := ne_nil_of_free hfree
  refine ⟨hkeeps, ⟨fs.now, place, hkeeps.locate hplace, by rw [get?_set hne, if_pos rfl]⟩, ?_⟩
  intro names hnames
  rw [get?_set hne, if_neg]
  rintro rfl
  exact hnames (hkeeps.locate hplace)

/-- A moved file leaves one place and takes another. -/
theorem rename_spec {source target : String} (h : fs.rename source target = .ok fs') :
    KeepsDirectories fs fs' ∧ (∃ content modified place place', fs.locate source = .ok place ∧
      fs.get? place = some (.file content modified) ∧ fs'.locate target = .ok place' ∧
      fs'.get? place' = some (.file content modified)) ∧
      ∀ names, fs'.locate source ≠ .ok names → fs'.locate target ≠ .ok names →
        fs'.get? names = fs.get? names := by
  obtain ⟨place, content, modified, place', hplace, hget, hfault, hgoal, -, rfl⟩ := rename_eq_ok h
  obtain ⟨hplace', hfree⟩ := locate_of_destination hfault hgoal
  have herase : KeepsDirectories fs (fs.erase place) := .erase (by rw [hget]; simp)
  have hset : KeepsDirectories (fs.erase place)
      ((fs.erase place).set place' (.file content modified)) :=
    .set (fun hdir => hfree (get?_erase_of_some hdir)) _
  have hkeeps := herase.trans hset
  have hne := ne_nil_of_free hfree
  refine ⟨hkeeps, ⟨content, modified, place, place', hplace, hget, hkeeps.locate hplace',
    by rw [get?_set hne, if_pos rfl]⟩, ?_⟩
  intro names hsource htarget
  rw [get?_set hne, if_neg, get?_erase_of_ne]
  · rintro rfl
    exact hsource (hkeeps.locate hplace)
  · rintro rfl
    exact htarget (hkeeps.locate hplace')

/-- Whether a cache with some entries is saved under a path, where a draft can be moved again. -/
structure Holds (fs : FileSystem) (path : String) (t : Table CacheEntry) : Prop where
  fault : pathFault? path = none
  saved : ∃ place modified, fs.destination path = .ok place ∧
    fs.get? place = some (.file (.ofEntries t) modified)
  draft : ∃ place, fs.locate (Path.withExtension path "tmp") = .ok place ∧
    fs.isLocked place.dropLast = false

section Holds

variable {path : String} {t : Table CacheEntry}

theorem Holds.locate (h : fs.Holds path t) : ∃ place modified, fs.locate path = .ok place ∧
    fs.get? place = some (.file (.ofEntries t) modified) := by
  obtain ⟨place, modified, hplace, hget⟩ := h.saved
  exact ⟨place, modified, (locate_of_destination h.fault hplace).1, hget⟩

theorem Holds.read (h : fs.Holds path t) : fs.read path = .ok (.ofEntries t) := by
  obtain ⟨place, modified, hplace, hget⟩ := h.locate
  exact read_of_get? hplace hget

theorem Holds.has (h : fs.Holds path t) : fs.has path = true := by
  obtain ⟨place, modified, hplace, hget⟩ := h.locate
  rw [FileSystem.has, stat_eq_ok.2 ⟨place, hplace, hget⟩]

/-- What is saved stays saved when directories are made. -/
theorem Holds.of_addsDirectories (h : fs.Holds path t) (hmade : fs.AddsDirectories fs') :
    fs'.Holds path t := by
  obtain ⟨place, modified, hplace, hget⟩ := h.saved
  obtain ⟨draft, hdraft, hopen⟩ := h.draft
  have hget' := (hmade.stays place).get? hget
  have hkeeps := hmade.keepsDirectories
  exact ⟨h.fault, ⟨place, modified, hkeeps.destination hplace (by simp [hget']), hget'⟩,
    draft, hkeeps.locate hdraft, (hkeeps.isLocked _).trans hopen⟩

/-- A file is moved wherever it can be moved, out of a directory that is not locked. -/
theorem rename_of_destination {source target : String} {content : Content} {modified : Nat}
    (hsource : fs.locate source = .ok names) (hget : fs.get? names = some (.file content modified))
    (hopen : fs.isLocked names.dropLast = false) (hfault : pathFault? target = none)
    (htarget : fs.destination target = .ok place) :
    fs.rename source target = .ok ((fs.erase names).set place (.file content modified)) := by
  rw [rename, hsource]
  simp only [bind, Except.bind, hget, hfault, htarget, hopen]
  rfl

/-- A cache that is moved from the draft of a path to that path is saved there. -/
theorem holds_of_rename {modified : Nat}
    (hsource : fs.locate (Path.withExtension path "tmp") = .ok names)
    (hget : fs.get? names = some (.file (.ofEntries t) modified))
    (h : fs.rename (Path.withExtension path "tmp") path = .ok fs') : fs'.Holds path t := by
  have hkeeps := (rename_spec h).1
  obtain ⟨own, content, time, place, hown, hheld, hfault, hplace, hopen, rfl⟩ := rename_eq_ok h
  obtain rfl := Except.ok.inj (hsource.symm.trans hown)
  obtain ⟨rfl, rfl⟩ := Entry.file.inj (Option.some.inj (hget.symm.trans hheld))
  have hfree := (locate_of_destination hfault hplace).2
  have hset : ((fs.erase names).set place (.file (.ofEntries t) modified)).get? place =
      some (.file (.ofEntries t) modified) := by
    rw [get?_set (ne_nil_of_free hfree), if_pos rfl]
  exact ⟨hfault, ⟨place, modified, hkeeps.destination hplace (by simp [hset]), hset⟩,
    names, hkeeps.locate hsource, (hkeeps.isLocked _).trans hopen⟩

end Holds

end FileSystem

open FileSystem

namespace Cache

variable {c : Cache} {fs fs' : FileSystem} {t : Table CacheEntry}

theorem destroy_fst (c : Cache) (fs : FileSystem) : (c.destroy fs).1 = c.clear := by
  rw [destroy]
  split <;> rfl

theorem reconcile_fst (c : Cache) (fs : FileSystem) :
    (c.reconcile fs).1 = if c.enabled then c.prune else c := by
  rw [reconcile]
  split <;> rfl

theorem file_reconcile (c : Cache) (fs : FileSystem) : (c.reconcile fs).1.file = c.file := by
  rw [reconcile_fst]
  split <;> rfl

/-- What a save can come to, and the files that it leaves. -/
inductive Saves (c : Cache) (fs : FileSystem) : FileSystem → Except CacheError Unit → Prop
  | off (h : c.enabled = false) : Saves c fs fs (.ok ())
  /-- The directory cannot be made, or the draft cannot be written. -/
  | failed {made : FileSystem} {fault : FileFault} (hmade : fs.AddsDirectories made) :
      Saves c fs made (.error (.file fault))
  /-- The draft cannot be moved to its place. -/
  | stuck {made drafted : FileSystem} {fault : FileFault} (hmade : fs.AddsDirectories made)
      (hwrite : made.write c.draftFile (.ofEntries c.entries) = .ok drafted)
      (hrename : drafted.rename c.draftFile c.file = .error fault) :
      Saves c fs drafted (.error (.file fault))
  | saved {made drafted renamed : FileSystem} (henabled : c.enabled = true)
      (hmade : fs.AddsDirectories made)
      (hwrite : made.write c.draftFile (.ofEntries c.entries) = .ok drafted)
      (hrename : drafted.rename c.draftFile c.file = .ok renamed) : Saves c fs renamed (.ok ())

theorem saves_save (c : Cache) (fs : FileSystem) : c.Saves fs (c.save fs).1 (c.save fs).2 := by
  rw [save]
  split
  case isTrue hoff => exact .off (by simpa using hoff)
  case isFalse hon =>
      dsimp only
      split
      case h_1 made fault hmade =>
          refine .failed ?_
          split at hmade
          · exact .of_makeDirectory hmade
          · exact .of_eq hmade
      case h_2 made hmade =>
          have hadds : fs.AddsDirectories made := by
            split at hmade
            · exact .of_makeDirectory hmade
            · exact .of_eq hmade
          split
          case h_1 => exact .failed hadds
          case h_2 drafted hwrite =>
              split
              case h_1 fault hrename => exact .stuck hadds hwrite hrename
              case h_2 renamed hrename =>
                  exact .saved (by simpa using hon) hadds hwrite hrename

/-- A save that succeeds leaves the entries in the file. -/
theorem holds_of_save (henabled : c.enabled = true) (h : c.save fs = (fs', .ok ())) :
    fs'.Holds c.file c.entries := by
  have hsaves := c.saves_save fs
  rw [h] at hsaves
  cases hsaves with
  | off hoff => cases hoff.symm.trans henabled
  | saved _ hmade hwrite hrename =>
      obtain ⟨-, ⟨_, place, hplace, hget⟩, -⟩ := write_spec hwrite
      exact holds_of_rename hplace hget hrename

/-- A save that fails leaves what was saved before. -/
theorem holds_of_save_error {e : CacheError} (hold : fs.Holds c.file t)
    (h : c.save fs = (fs', .error e)) : fs'.Holds c.file t := by
  have hsaves := c.saves_save fs
  rw [h] at hsaves
  cases hsaves with
  | failed hmade => exact hold.of_addsDirectories hmade
  | stuck hmade hwrite hrename =>
      -- The draft can be moved to its place, as a file was moved there before.
      obtain ⟨hfault, ⟨goal, modified, hgoal, hheld⟩, draft, hdraft, hopen⟩ :=
        hold.of_addsDirectories hmade
      obtain ⟨hkeeps, ⟨_, place, hplace, hget⟩, hother⟩ := write_spec hwrite
      obtain rfl := Except.ok.inj (hplace.symm.trans (hkeeps.locate hdraft))
      rw [← hkeeps.isLocked] at hopen
      have hfree : fs'.get? goal ≠ some .directory := by
        by_cases hsame : fs'.locate c.draftFile = .ok goal
        · obtain rfl := Except.ok.inj (hplace.symm.trans hsame)
          simp [hget]
        · simp [hother goal hsame, hheld]
      cases hrename.symm.trans
        (rename_of_destination hplace hget hopen hfault (hkeeps.destination hgoal hfree))

/-- Saving a cache changes no file but the draft and the cache file. -/
theorem save_frame (c : Cache) (fs : FileSystem) :
    KeepsDirectories fs (c.save fs).1 ∧ ∀ names, (c.save fs).1.locate c.draftFile ≠ .ok names →
      (c.save fs).1.locate c.file ≠ .ok names → fs.StaysAt (c.save fs).1 names := by
  have hsaves := c.saves_save fs
  generalize (c.save fs).1 = fs' at hsaves ⊢
  generalize (c.save fs).2 = r at hsaves
  cases hsaves with
  | off _ => exact ⟨.refl fs, fun _ _ _ => .refl fs _⟩
  | failed hmade => exact ⟨hmade.keepsDirectories, fun names _ _ => hmade.stays names⟩
  | stuck hmade hwrite _ =>
      obtain ⟨hwritten, -, hother⟩ := write_spec hwrite
      refine ⟨hmade.keepsDirectories.trans hwritten, fun names hdraft _ => ?_⟩
      exact (hmade.stays names).trans (.inl (hother names hdraft))
  | saved _ hmade hwrite hrename =>
      obtain ⟨hwritten, -, hother⟩ := write_spec hwrite
      obtain ⟨hmoved, -, hother'⟩ := rename_spec hrename
      refine ⟨(hmade.keepsDirectories.trans hwritten).trans hmoved, fun names hdraft hfile => ?_⟩
      have hdrafted := (hmade.stays names).trans
        (.inl (hother names fun hplace => hdraft (hmoved.locate hplace)))
      exact hdrafted.trans (.inl (hother' names hdraft hfile))

end Cache

end StyleAudit
