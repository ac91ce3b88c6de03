import StyleAudit.Lint.Run
import StyleAudit.Proofs.NormalPaths
import Mathlib.Data.Set.Insert

/-!
What a change of a file leaves as it was.

Where a path leads to depends on the directories alone. So a new text in some files moves no path
and shows only to those who read these files; and a text can be written back to a file from which
one was read, unless its directory has no room for a draft.
-/

namespace StyleAudit

namespace FileSystem

/-- What stands at a place, whatever a file there holds. -/
inductive Kind where
  | nothing
  | directory
  | file
deriving DecidableEq

def kind (fs : FileSystem) (names : List String) : Kind :=
  match fs.get? names with
  | none => .nothing
  | some .directory => .directory
  | some (.file _ _) => .file

theorem kind_eq_directory {fs : FileSystem} {names : List String} :
    fs.kind names = .directory ↔ fs.get? names = some .directory := by
  rw [kind]
  split <;> simp_all

theorem kind_eq_file {fs : FileSystem} {names : List String} :
    fs.kind names = .file ↔ ∃ content modified, fs.get? names = some (.file content modified) := by
  rw [kind]
  split <;> simp_all

theorem stat_eq_ok {fs : FileSystem} {path : String} {e : Entry} :
    fs.stat path = .ok e ↔ ∃ names, fs.locate path = .ok names ∧ fs.get? names = some e := by
  rw [stat]
  cases fs.locate path with
  | error fault => simp [bind, Except.bind]
  | ok names => cases hget : fs.get? names <;> simp [bind, Except.bind, hget]

theorem isFile_iff {fs : FileSystem} {path : String} :
    fs.isFile path = true ↔ ∃ names, fs.locate path = .ok names ∧ fs.kind names = .file := by
  simp only [kind_eq_file]
  rw [isFile]
  split
  case h_1 content modified hstat =>
      obtain ⟨names, hnames, hget⟩ := stat_eq_ok.1 hstat
      exact iff_of_true rfl ⟨names, hnames, content, modified, hget⟩
  case h_2 hstat =>
      refine iff_of_false nofun ?_
      rintro ⟨names, hnames, content, modified, hget⟩
      exact hstat content modified (stat_eq_ok.2 ⟨names, hnames, hget⟩)

theorem isDirectory_iff {fs : FileSystem} {path : String} :
    fs.isDirectory path = true ↔
      ∃ names, fs.locate path = .ok names ∧ fs.kind names = .directory := by
  simp only [kind_eq_directory]
  rw [isDirectory]
  split
  case h_1 hstat => exact iff_of_true rfl (stat_eq_ok.1 hstat)
  case h_2 hstat => exact iff_of_false nofun fun h => hstat (stat_eq_ok.2 h)

theorem read_eq_ok {fs : FileSystem} {path : String} {content : Content}
    (h : fs.read path = .ok content) :
    ∃ names modified, fs.locate path = .ok names ∧
      fs.get? names = some (.file content modified) := by
  rw [read] at h
  cases hstat : fs.stat path with
  | error fault =>
      rw [hstat] at h
      cases h
  | ok e =>
      obtain ⟨names, hnames, hget⟩ := stat_eq_ok.1 hstat
      rw [hstat] at h
      cases e with
      | directory => cases h
      | file own modified =>
          obtain rfl := Except.ok.inj h
          exact ⟨names, modified, hnames, hget⟩

/-- Only a file that holds a text is read as a text. -/
theorem read_of_readText {fs : FileSystem} {path text : String}
    (h : fs.readText path = .ok text) : fs.read path = .ok (.text text) := by
  rw [readText] at h
  cases hread : fs.read path with
  | error fault =>
      rw [hread] at h
      cases h
  | ok content =>
      rw [hread] at h
      cases content with
      | text own =>
          obtain rfl := Except.ok.inj h
          rfl
      | binary bytes => cases h
      | cache entries => cases h

theorem readText_eq_ok {fs : FileSystem} {path text : String} (h : fs.readText path = .ok text) :
    ∃ names modified, fs.locate path = .ok names ∧
      fs.get? names = some (.file (.text text) modified) :=
  read_eq_ok (read_of_readText h)

/-- Two file systems that differ at most in what the files at some places hold. -/
structure AgreeOutside (D : Set (List String)) (a b : FileSystem) : Prop where
  home : a.home = b.home
  locked : a.locked = b.locked
  kind (names : List String) : a.kind names = b.kind names
  get {names : List String} (h : names ∉ D) : a.get? names = b.get? names

namespace AgreeOutside

variable {D E : Set (List String)} {a b c : FileSystem}

theorem refl (D : Set (List String)) (a : FileSystem) : AgreeOutside D a a :=
  ⟨rfl, rfl, fun _ => rfl, fun _ => rfl⟩

theorem symm (h : AgreeOutside D a b) : AgreeOutside D b a :=
  ⟨h.home.symm, h.locked.symm, fun names => (h.kind names).symm,
    fun hnames => (h.get hnames).symm⟩

theorem trans (hab : AgreeOutside D a b) (hbc : AgreeOutside D b c) : AgreeOutside D a c :=
  ⟨hab.home.trans hbc.home, hab.locked.trans hbc.locked,
    fun names => (hab.kind names).trans (hbc.kind names),
    fun hnames => (hab.get hnames).trans (hbc.get hnames)⟩

theorem mono (h : AgreeOutside D a b) (hDE : D ⊆ E) : AgreeOutside E a b :=
  ⟨h.home, h.locked, h.kind, fun hnames => h.get fun hD => hnames (hDE hD)⟩

/-- A new text in a file that is there. -/
theorem set {names : List String} (hnames : a.kind names = .file) (content : Content)
    (modified : Nat) : AgreeOutside {names} a (a.set names (.file content modified)) := by
  have hne : names ≠ [] := by
    rintro rfl
    cases hnames
  refine ⟨rfl, rfl, fun other => ?_, fun {other} hother => ?_⟩
  · by_cases heq : names = other
    · subst heq
      rw [hnames, FileSystem.kind, get?_set hne, if_pos rfl]
    · rw [FileSystem.kind, FileSystem.kind, get?_set hne, if_neg heq]
  · rw [get?_set hne, if_neg fun heq => hother heq.symm]

/-- Time does not change what is there. -/
theorem tick (a : FileSystem) : AgreeOutside ∅ a a.tick :=
  ⟨rfl, rfl, fun _ => rfl, fun _ => rfl⟩

/-- The same entry at a place of both. -/
theorem set_both (h : AgreeOutside D a b) {names : List String} (hne : names ≠ []) (e : Entry) :
    AgreeOutside D (a.set names e) (b.set names e) := by
  refine ⟨h.home, h.locked, fun other => ?_, fun {other} hother => ?_⟩
  · have hkind := h.kind other
    rw [FileSystem.kind, FileSystem.kind] at hkind
    rw [FileSystem.kind, FileSystem.kind, get?_set hne, get?_set hne]
    by_cases heq : names = other
    · rw [if_pos heq, if_pos heq]
    · rw [if_neg heq, if_neg heq, hkind]
  · rw [get?_set hne, get?_set hne, h.get hother]

theorem follow (h : AgreeOutside D a b) (here : List String) (parts : List (List Char)) :
    a.follow here parts = b.follow here parts := by
  induction parts generalizing here with
  | nil => rfl
  | cons s rest ih =>
      have hkind := h.kind here
      simp only [FileSystem.kind] at hkind
      rw [FileSystem.follow, FileSystem.follow]
      split at hkind <;> split at hkind <;> simp_all

theorem locate (h : AgreeOutside D a b) (path : String) : a.locate path = b.locate path := by
  rw [FileSystem.locate, FileSystem.locate, origin, origin, h.home]
  split
  · rfl
  · exact h.follow _ _

theorem stat (h : AgreeOutside D a b) {path : String}
    (hpath : ∀ names, a.locate path = .ok names → names ∉ D) : a.stat path = b.stat path := by
  rw [FileSystem.stat, FileSystem.stat, ← h.locate]
  cases hplace : a.locate path with
  | error fault => rfl
  | ok names =>
      have hget := h.get (hpath names hplace)
      simp only [bind, Except.bind, hget]

theorem read (h : AgreeOutside D a b) {path : String}
    (hpath : ∀ names, a.locate path = .ok names → names ∉ D) : a.read path = b.read path := by
  rw [FileSystem.read, FileSystem.read, h.stat hpath]

theorem readText (h : AgreeOutside D a b) {path : String}
    (hpath : ∀ names, a.locate path = .ok names → names ∉ D) :
    a.readText path = b.readText path := by
  rw [FileSystem.readText, FileSystem.readText, h.read hpath]

theorem isFile (h : AgreeOutside D a b) (path : String) : a.isFile path = b.isFile path := by
  rw [Bool.eq_iff_iff, isFile_iff, isFile_iff]
  simp only [h.locate, h.kind]

theorem isDirectory (h : AgreeOutside D a b) (path : String) :
    a.isDirectory path = b.isDirectory path := by
  rw [Bool.eq_iff_iff, isDirectory_iff, isDirectory_iff]
  simp only [h.locate, h.kind]

/-- Whether there is room for a draft depends on the directories alone. -/
theorem draftFault? (h : AgreeOutside D a b) (path : String) :
    a.draftFault? path = b.draftFault? path := by
  have hdraft : a.draftFor path = b.draftFor path := by
    rw [draftFor, draftFor, homePath, homePath, h.home]
  have hlocked (dir : List String) : a.isLocked dir = b.isLocked dir := by
    rw [isLocked, isLocked, h.locked]
  rw [FileSystem.draftFault?, FileSystem.draftFault?, hdraft, h.locate]
  simp only [hlocked]

end AgreeOutside

section Follow

variable {fs : FileSystem} {here place : List String}

theorem follow_append (fs : FileSystem) (here : List String) (xs ys : List (List Char)) :
    fs.follow here (xs ++ ys) = (fs.follow here xs).bind fun there => fs.follow there ys := by
  induction xs generalizing here with
  | nil => rfl
  | cons s xs ih =>
      rw [List.cons_append, follow, follow]
      split
      · rfl
      · rfl
      · repeat' split
        all_goals first | exact ih _ | rfl

/-- A step to a name starts from a directory. -/
theorem follow_name {name : String} (hname : Path.IsName name)
    (h : fs.follow here [name.toList] = .ok place) :
    fs.get? here = some .directory ∧ isTooLong name.toList = false ∧ place = here ++ [name] := by
  rw [follow] at h
  split at h
  · cases h
  · cases h
  · rename_i hget
    rw [if_neg (by simp [hname.noVoid]), if_neg hname.noParent] at h
    split at h
    · cases h
    · rename_i hlong
      obtain rfl := Except.ok.inj h
      exact ⟨hget, by simpa using hlong, by rw [String.ofList_toList]⟩

theorem follow_names {names : List String} (hnames : ∀ n ∈ names, Path.IsName n)
    (h : fs.follow here (names.map String.toList) = .ok place) : place = here ++ names := by
  induction names generalizing here with
  | nil => rw [List.append_nil, Except.ok.inj h]
  | cons name names ih =>
      rw [List.map_cons, ← List.singleton_append, follow_append] at h
      cases hfirst : fs.follow here [name.toList] with
      | error fault =>
          rw [hfirst] at h
          cases h
      | ok next =>
          rw [hfirst] at h
          obtain ⟨-, -, rfl⟩ := follow_name (hnames name List.mem_cons_self) hfirst
          rw [ih (fun n hn => hnames n (List.mem_cons_of_mem _ hn)) h, List.append_assoc]
          rfl

/-- A void segment leads from a directory to itself. -/
theorem follow_void {parts : List (List Char)} (h : fs.get? here = some .directory) :
    fs.follow here ([] :: parts) = fs.follow here parts := by
  have hvoid : Path.isVoid [] = true := rfl
  rw [follow, h]
  simp [hvoid]

theorem get?_root (fs : FileSystem) : fs.get? [] = some .directory := if_pos rfl

end Follow

section Through

variable {fs : FileSystem} {init : List String} {last : String}

theorem origin_through (fs : FileSystem) (names : List String) :
    fs.origin (Path.through names) = [] := by
  rw [origin, if_pos (Path.isAbsolute_through names)]

/-- A path leads to the names that it spells. -/
theorem locate_through {names place : List String} (hne : names ≠ [])
    (hnames : ∀ n ∈ names, Path.IsName n) (h : fs.locate (Path.through names) = .ok place) :
    place = names := by
  rw [locate] at h
  split at h
  case h_1 => cases h
  case h_2 =>
      rw [origin_through, Path.segments_through hne hnames, follow_void fs.get?_root] at h
      simpa using follow_names hnames h

/-- Paths that are found by a search lead to places of their own. -/
theorem eq_of_locate {p q : String} (hp : Discovery.Spelled p) (hq : Discovery.Spelled q)
    {place : List String} (hplace : fs.locate p = .ok place) (hplace' : fs.locate q = .ok place) :
    p = q := by
  obtain ⟨own, hne, hown, rfl⟩ := hp
  obtain ⟨other, hne', hother, rfl⟩ := hq
  rw [← locate_through hne hown hplace, locate_through hne' hother hplace']

/-- What is found under names stands in directories that are found under their own names. -/
theorem follow_below {head more : List String} {name : String}
    (hnames : ∀ n ∈ head ++ name :: more, Path.IsName n) {place : List String}
    (h : fs.follow [] ((head ++ name :: more).map String.toList) = .ok place) :
    fs.follow [] (head.map String.toList) = .ok head ∧ fs.get? head = some .directory ∧
      isTooLong name.toList = false := by
  rw [List.map_append, List.map_cons, ← List.singleton_append, follow_append] at h
  cases hhead : fs.follow [] (head.map String.toList) with
  | error fault =>
      rw [hhead] at h
      cases h
  | ok dir =>
      have hdir := follow_names (fun n hn => hnames n (by simp [hn])) hhead
      rw [List.nil_append] at hdir
      subst hdir
      rw [hhead] at h
      dsimp only [Except.bind] at h
      rw [follow_append] at h
      cases hname : fs.follow dir [name.toList] with
      | error fault =>
          rw [hname] at h
          cases h
      | ok next =>
          obtain ⟨hdirectory, hlong, -⟩ := follow_name (hnames name (by simp)) hname
          exact ⟨rfl, hdirectory, hlong⟩

theorem follow_through (hnames : ∀ n ∈ init ++ [last], Path.IsName n) {place : List String}
    (h : fs.locate (Path.through (init ++ [last])) = .ok place) :
    fs.follow [] (init.map String.toList) = .ok init ∧ fs.get? init = some .directory ∧
      isTooLong last.toList = false := by
  rw [locate] at h
  split at h
  case h_1 => cases h
  case h_2 =>
      rw [origin_through, Path.segments_through (by simp) hnames, follow_void fs.get?_root] at h
      exact follow_below hnames h

theorem splitSlashes_append {s : List Char} (h : s ≠ []) (parts : List (List Char)) :
    splitSlashes (parts ++ [s]) = (parts ++ [s], false) := by
  simp [splitSlashes, h]

/-- A file can be moved onto one that is there, in a directory that is not locked. -/
theorem destination_through (hnames : ∀ n ∈ init ++ [last], Path.IsName n)
    (h : fs.locate (Path.through (init ++ [last])) = .ok (init ++ [last]))
    (hfile : fs.kind (init ++ [last]) = .file) (hopen : fs.isLocked init = false) :
    fs.destination (Path.through (init ++ [last])) = .ok (init ++ [last]) := by
  obtain ⟨hinit, hdir, hlong⟩ := follow_through hnames h
  obtain ⟨content, modified, hget⟩ := kind_eq_file.1 hfile
  have hname := hnames last (by simp)
  have hvoid : last.toList ≠ [] ∧ last.toList ≠ ['.'] := by
    simpa [Path.isVoid] using hname.noVoid
  have hsegments : Path.segments (Path.through (init ++ [last])).toList =
      ([] :: init.map String.toList) ++ [last.toList] := by
    rw [Path.segments_through (by simp) hnames]
    simp
  have hfollow : fs.follow [] (([] :: init.map String.toList) ++ [[]]) = .ok init := by
    rw [List.cons_append, follow_void fs.get?_root, follow_append, hinit]
    exact follow_void hdir
  rw [destination, hsegments, splitSlashes_append hvoid.1, origin_through]
  simp only [List.getLast?_concat, List.dropLast_concat, hfollow, bind, Except.bind]
  rw [if_neg (by simp [hvoid.2, hname.noParent]), if_neg (by simp [hlong]), if_neg (by simp),
    if_neg (by simp [hopen]), String.ofList_toList, hget]

theorem pathFault?_prefix {path rest : String} (hne : path ≠ "")
    (h : pathFault? (path ++ rest) = none) : pathFault? path = none := by
  rw [pathFault?] at h
  split_ifs at h with _ hzero hlong
  rw [String.toList_append, List.contains_eq_mem, decide_eq_true_eq, List.mem_append] at hzero
  rw [String.utf8ByteSize_append] at hlong
  rw [pathFault?, if_neg hne, if_neg (by simpa using fun hmem => hzero (.inl hmem)),
    if_neg (by omega)]

/-- Where there is room for a draft beside a file, its directory is not locked. -/
theorem isLocked_of_draftFault? (hnames : ∀ n ∈ init ++ [last], Path.IsName n)
    (h : fs.draftFault? (Path.through (init ++ [last])) = none) : fs.isLocked init = false := by
  have hinit : ∀ n ∈ init, Path.IsName n := fun n hn => hnames n (List.mem_append_left _ hn)
  have hname : Path.IsName draftName := by
    rw [draftName]
    decide
  have habsolute : Path.join fs.homePath (Path.through init) = Path.through init := by
    rw [Path.join, Path.isAbsolute_through, Bool.true_or, if_pos rfl]
  have hdraft : fs.draftFor (Path.through (init ++ [last])) =
      Path.through (init ++ [draftName]) := by
    rw [draftFor, Path.parent?_through hnames, Option.getD_some, habsolute]
    exact Path.join_name hinit hname
  rw [draftFault?, hdraft] at h
  split at h
  case h_1 => cases h
  case h_2 place hplace =>
      have hnames' : ∀ n ∈ init ++ [draftName], Path.IsName n :=
        List.forall_mem_append.2 ⟨hinit, List.forall_mem_singleton.2 hname⟩
      rw [locate_through (by simp) hnames' hplace, List.dropLast_concat] at h
      split at h
      case isTrue => cases h
      case isFalse hopen => simpa using hopen

end Through

section Changes

variable {fs fs' : FileSystem} {place : List String}

/-- A file is written to the place that its path leads to, unless that is a directory. -/
theorem write_eq_ok {path : String} {content : Content} (h : fs.write path content = .ok fs') :
    ∃ place, fs.locate path = .ok place ∧ fs.get? place ≠ some .directory ∧
      fs' = fs.set place (.file content fs.now) := by
  rw [write, writeAt] at h
  cases hplace : fs.locate path with
  | error fault =>
      rw [hplace] at h
      cases h
  | ok place =>
      rw [hplace] at h
      simp only [bind, Except.bind] at h
      split at h
      case h_1 => cases h
      case h_2 hfile => exact ⟨place, rfl, by simp [hfile], (Except.ok.inj h).symm⟩
      case h_3 hnone =>
          split at h
          case isTrue => cases h
          case isFalse => exact ⟨place, rfl, by simp [hnone], (Except.ok.inj h).symm⟩

/-- A step to nowhere shows that one stands in a directory. -/
theorem follow_here {here : List String} (h : fs.follow here [[]] = .ok place) :
    fs.get? here = some .directory ∧ here = place := by
  rw [follow] at h
  split at h
  case h_1 => cases h
  case h_2 => cases h
  case h_3 hget => exact ⟨hget, Except.ok.inj h⟩

theorem splitSlashes_eq {parts kept : List (List Char)}
    (h : splitSlashes parts = (kept, false)) {name : List Char}
    (hname : kept.getLast? = some name) : parts = kept.dropLast ++ [name] ∧ name ≠ [] := by
  obtain ⟨hkept, hslash⟩ := Prod.mk.inj h
  have hsuffix := List.dropWhile_suffix List.isEmpty (l := parts.reverse)
  have hlength : (parts.reverse.dropWhile List.isEmpty).length = parts.reverse.length := by
    apply Nat.le_antisymm hsuffix.length_le
    simpa using hslash
  have hwhole := hsuffix.eq_of_length hlength
  have hparts : kept = parts := by rw [← hkept, hwhole, List.reverse_reverse]
  refine ⟨?_, ?_⟩
  · rw [← hparts]
    exact (List.dropLast_append_getLast? name hname).symm
  · rintro rfl
    have hhead := List.head?_dropWhile_not List.isEmpty parts.reverse
    rw [← hkept, List.getLast?_reverse] at hname
    rw [hname] at hhead
    cases hhead

/-- A file can be moved to a name in a directory that is not locked, where no directory stands. -/
theorem destination_eq_ok {path : String} :
    fs.destination path = .ok place ↔
      ∃ parts name dir, splitSlashes (Path.segments path.toList) = (parts, false) ∧
        parts.getLast? = some name ∧
        fs.follow (fs.origin path) (parts.dropLast ++ [[]]) = .ok dir ∧
        ¬(name = ['.'] ∨ name = ['.', '.']) ∧ isTooLong name = false ∧
        fs.isLocked dir = false ∧ place = dir ++ [String.ofList name] ∧
        fs.get? place ≠ some .directory := by
  rw [destination]
  rcases hsplit : splitSlashes (Path.segments path.toList) with ⟨parts, slash⟩
  dsimp only
  constructor
  · intro h
    split at h
    case h_1 => cases h
    case h_2 name hname =>
        cases hdir : fs.follow (fs.origin path) (parts.dropLast ++ [[]]) with
        | error fault =>
            rw [hdir] at h
            cases h
        | ok dir =>
            rw [hdir] at h
            simp only [bind, Except.bind] at h
            split_ifs at h with hdots hlong hslash hlocked
            rw [Bool.not_eq_true] at hslash hlong hlocked
            subst hslash
            split at h
            case h_1 => cases h
            case h_2 hfree =>
                obtain rfl := Except.ok.inj h
                exact ⟨parts, name, dir, rfl, hname, hdir, hdots, hlong, hlocked, rfl, hfree⟩
  · rintro ⟨own, name, dir, hown, hname, hdir, hdots, hlong, hlocked, rfl, hfree⟩
    obtain ⟨rfl, rfl⟩ := Prod.mk.inj hown
    rw [hname]
    simp only [hdir, bind, Except.bind]
    rw [if_neg hdots, if_neg (by simp [hlong]), if_neg Bool.false_ne_true,
      if_neg (by simp [hlocked])]

/-- A file can only be moved to the place that the path leads to. -/
theorem locate_of_destination {path : String} (hfault : pathFault? path = none)
    (h : fs.destination path = .ok place) :
    fs.locate path = .ok place ∧ fs.get? place ≠ some .directory := by
  obtain ⟨parts, name, dir, hsplit, hname, hdir, hdots, hlong, -, rfl, hfree⟩ :=
    destination_eq_ok.1 h
  obtain ⟨hsegments, hne⟩ := splitSlashes_eq hsplit hname
  rw [follow_append] at hdir
  cases hthere : fs.follow (fs.origin path) parts.dropLast with
  | error fault =>
      rw [hthere] at hdir
      cases hdir
  | ok there =>
      rw [hthere] at hdir
      obtain ⟨hget, rfl⟩ := follow_here hdir
      have hvoid : Path.isVoid name = false := by
        simpa [Path.isVoid, hne] using fun hdot => hdots (.inl hdot)
      have hlast : fs.follow there [name] = .ok (there ++ [String.ofList name]) := by
        rw [follow, hget]
        simp only [hvoid, hlong, if_neg fun hdot => hdots (.inr hdot)]
        rfl
      refine ⟨?_, hfree⟩
      rw [locate, hfault, hsegments, follow_append, hthere]
      exact hlast

theorem isLocked_of_destination {path : String} (h : fs.destination path = .ok place) :
    fs.isLocked place.dropLast = false := by
  obtain ⟨_, _, _, -, -, -, -, -, hopen, rfl, -⟩ := destination_eq_ok.1 h
  rw [List.dropLast_concat, hopen]

/-- A file that is moved is taken from its place and put into another. -/
theorem rename_eq_ok {source target : String} (h : fs.rename source target = .ok fs') :
    ∃ names content modified place, fs.locate source = .ok names ∧
      fs.get? names = some (.file content modified) ∧ pathFault? target = none ∧
      fs.destination target = .ok place ∧ fs.isLocked names.dropLast = false ∧
      fs' = (fs.erase names).set place (.file content modified) := by
  rw [rename] at h
  cases hnames : fs.locate source with
  | error fault =>
      rw [hnames] at h
      cases h
  | ok names =>
      rw [hnames] at h
      simp only [bind, Except.bind] at h
      split at h
      case h_1 => cases h
      case h_2 content modified hget hfault =>
          cases hplace : fs.destination target with
          | error fault =>
              rw [hplace] at h
              cases h
          | ok place =>
              rw [hplace] at h
              dsimp only at h
              split at h
              case isTrue => cases h
              case isFalse hopen =>
                  exact ⟨names, content, modified, place, rfl, hget, hfault, rfl,
                    by simpa using hopen, (Except.ok.inj h).symm⟩
      case h_3 => cases h
      case h_4 => cases h

/-- A file that is removed is there. -/
theorem remove_eq_ok {path : String} (h : fs.remove path = .ok fs') :
    ∃ names content modified, fs.locate path = .ok names ∧
      fs.get? names = some (.file content modified) ∧ fs' = fs.erase names := by
  rw [remove] at h
  cases hnames : fs.locate path with
  | error fault =>
      rw [hnames] at h
      cases h
  | ok names =>
      rw [hnames] at h
      simp only [bind, Except.bind] at h
      split at h
      case h_1 content modified hget =>
          split at h
          case isTrue => cases h
          case isFalse => exact ⟨names, content, modified, rfl, hget, (Except.ok.inj h).symm⟩
      case h_2 => cases h
      case h_3 => cases h

/-- A file is replaced at the place that it could be moved to. -/
theorem replace_eq_ok {path : String} {content : Content}
    (h : fs.replace path content = .ok fs') :
    ∃ place, fs.destination path = .ok place ∧ fs' = fs.set place (.file content fs.now) := by
  rw [replace] at h
  split at h
  case h_1 => cases h
  case h_2 => cases h
  case h_3 => cases h
  case h_4 =>
      cases hplace : fs.destination path with
      | error fault =>
          rw [hplace] at h
          cases h
      | ok place =>
          rw [hplace] at h
          exact ⟨place, rfl, (Except.ok.inj h).symm⟩

end Changes

section Stores

variable {fs fs' : FileSystem} {names other : List String} {e : Entry} {t : Table CacheEntry}

/-- Whether some file holds a saved cache with these entries. -/
def Stores (fs : FileSystem) (t : Table CacheEntry) : Prop :=
  ∃ names modified, fs.get? names = some (.file (.cache t) modified)

theorem get?_set_cases {x : Entry} (h : (fs.set names e).get? other = some x) :
    x = e ∨ fs.get? other = some x := by
  by_cases ho : other = []
  · subst ho
    exact .inr h
  · simp only [get?, set, find?_put, ho, if_false] at h ⊢
    split at h
    · exact .inl (Option.some.inj h).symm
    · exact .inr h

theorem find?_filter (keep : List String → Bool) (entries : List (List String × Entry)) :
    find? other (entries.filter fun (n, _) => keep n) =
      if keep other then find? other entries else none := by
  induction entries with
  | nil => simp [find?]
  | cons entry entries ih =>
      obtain ⟨n, old⟩ := entry
      by_cases hn : n = other
      · subst hn
        by_cases hkeep : keep n
        · simp [find?, hkeep]
        · simpa [find?, hkeep] using ih
      · by_cases hkeep : keep n
        · simpa [find?, hn, hkeep] using ih
        · simpa [find?, hn, hkeep] using ih

/-- Erasing one place brings nothing into another. -/
theorem get?_erase_of_some {x : Entry} (h : (fs.erase names).get? other = some x) :
    fs.get? other = some x := by
  rw [get?] at h ⊢
  split at h
  case isTrue hroot => rw [if_pos hroot, h]
  case isFalse hroot =>
      rw [if_neg hroot]
      rw [erase, find?_filter fun n => n != names] at h
      split at h
      · exact h
      · cases h

theorem Stores.of_set (h : (fs.set names e).Stores t) :
    (∃ modified, e = .file (.cache t) modified) ∨ fs.Stores t := by
  obtain ⟨place, modified, hget⟩ := h
  rcases get?_set_cases hget with rfl | hold
  · exact .inl ⟨modified, rfl⟩
  · exact .inr ⟨place, modified, hold⟩

theorem Stores.of_erase (h : (fs.erase names).Stores t) : fs.Stores t := by
  obtain ⟨place, modified, hget⟩ := h
  exact ⟨place, modified, get?_erase_of_some hget⟩

theorem Stores.of_write {path : String} {content : Content}
    (hwrite : fs.write path content = .ok fs') (h : fs'.Stores t) :
    content = .cache t ∨ fs.Stores t := by
  obtain ⟨place, -, -, rfl⟩ := write_eq_ok hwrite
  exact h.of_set.imp_left fun ⟨_, heq⟩ => (Entry.file.inj heq).1

/-- A file that is moved holds what it held before. -/
theorem Stores.of_rename {source target : String}
    (hrename : fs.rename source target = .ok fs') (h : fs'.Stores t) : fs.Stores t := by
  obtain ⟨names, content, modified, place, -, hget, -, -, -, rfl⟩ := rename_eq_ok hrename
  rcases h.of_set with ⟨_, heq⟩ | hold
  · obtain ⟨rfl, -⟩ := Entry.file.inj heq
    exact ⟨names, modified, hget⟩
  · exact hold.of_erase

end Stores

end FileSystem

open FileSystem

/-- Writing a text back leaves no cache anywhere that was not there. -/
theorem stores_of_replaceText {fs fs' : FileSystem} {path linted fixed : String} {changed : Bool}
    {t : Table CacheEntry} (hreplace : replaceText fs path linted fixed = .ok (changed, fs'))
    (h : fs'.Stores t) : fs.Stores t := by
  rw [replaceText] at hreplace
  split at hreplace
  case isTrue =>
      obtain ⟨-, rfl⟩ := Prod.mk.inj (Except.ok.inj hreplace)
      exact h
  case isFalse =>
      split at hreplace
      case h_1 => cases hreplace
      case h_2 written hwritten =>
          obtain ⟨-, rfl⟩ := Prod.mk.inj (Except.ok.inj hreplace)
          obtain ⟨place, -, rfl⟩ := replace_eq_ok hwritten
          exact h.of_set.resolve_left fun ⟨_, heq⟩ => nomatch heq

/-- A text is written back to a file from which one was read, where there is room for a draft beside
it; else nothing happens to the file. -/
theorem replaceText_eq {fs : FileSystem} {path text : String} (hpath : Discovery.Spelled path)
    (h : fs.readText path = .ok text) :
    ∃ names, fs.locate path = .ok names ∧ fs.kind names = .file ∧ ∀ linted fixed,
      replaceText fs path linted fixed =
        if linted = fixed then .ok (false, fs)
        else match fs.draftFault? path with
          | some fault => .error (.unwritable path fault)
          | none => .ok (true, fs.set names (.file (.text fixed) fs.now)) := by
  obtain ⟨names, hne, hnames, rfl⟩ := hpath
  obtain ⟨place, modified, hplace, hget⟩ := readText_eq_ok h
  obtain rfl := locate_through hne hnames hplace
  have hfile : fs.kind place = .file := kind_eq_file.2 ⟨.text text, modified, hget⟩
  refine ⟨place, hplace, hfile, fun linted fixed => ?_⟩
  rw [replaceText]
  split
  case isTrue => rfl
  case isFalse =>
      have hfault : pathFault? (Path.through place) = none := by
        rw [locate] at hplace
        split at hplace
        · cases hplace
        · assumption
      rw [replace, hfault]
      cases hdraft : fs.draftFault? (Path.through place) with
      | some fault => rfl
      | none =>
          obtain ⟨init, last, rfl⟩ := (List.eq_nil_or_concat' place).resolve_left hne
          have hopen := isLocked_of_draftFault? hnames hdraft
          dsimp only
          rw [destination_through hnames hplace hfile hopen]
          rfl

/-- A cache that loads takes over the entries of its file, unless it is off or there is no file. -/
theorem Cache.load_eq_ok {c c' : Cache} {fs : FileSystem} (h : c.load fs = .ok c') :
    (c.enabled = false ∨ fs.has c.file = false) ∧ c' = c ∨
      c.enabled = true ∧ ∃ content entries, fs.read c.file = .ok content ∧
        Cache.entriesIn? content = some entries ∧
          c' = { c with entries := entries, visited := [] } := by
  rw [Cache.load] at h
  split at h
  case isTrue hskip =>
      refine .inl ⟨?_, (Except.ok.inj h).symm⟩
      simpa using hskip
  case isFalse hskip =>
      obtain ⟨henabled, -⟩ : c.enabled = true ∧ fs.has c.file = true := by simpa using hskip
      split at h
      case h_1 content hread =>
          split at h
          case h_1 entries hentries =>
              exact .inr ⟨henabled, content, entries, hread, hentries, (Except.ok.inj h).symm⟩
          case h_2 => cases h
      case h_2 => cases h

end StyleAudit
