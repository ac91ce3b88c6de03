import StyleAudit.Proofs.Searching
import Mathlib.Data.List.TakeWhile

/-!
Entries that name a file or a directory.

Such an entry is escaped before it is taken as a glob. Escaping goes through a path component by
component and leaves `.` and `..` as they are, so the glob leads to the escaped names of the place
that the entry leads to, and the search finds that file, or what lies below that directory.
-/

namespace StyleAudit

namespace Glob

open StyleAudit.Path (IsName walkNames)

/-- Escaping gives no text without brackets but the text itself. -/
theorem bracketed_eq_iff {cs : List Char} (plain : List Char) (h : plain.flatMap bracketed = plain)
    (hopen : '[' ∉ plain) : cs.flatMap bracketed = plain ↔ cs = plain := by
  refine ⟨fun heq => ?_, fun heq => heq ▸ h⟩
  rw [← heq, toList_bracketed_eq (by rwa [heq])]

theorem segments_bracketed (cs : List Char) :
    Path.segments (cs.flatMap bracketed) = (Path.segments cs).map (·.flatMap bracketed) := by
  have hparts : ∀ s ∈ (Path.segments cs).map (·.flatMap bracketed), '/' ∉ s := by
    intro s hs
    obtain ⟨own, hown, rfl⟩ := List.mem_map.1 hs
    rw [mem_bracketed rfl]
    exact Path.not_mem_of_mem_segments hown
  rw [← Path.segments_joinSegments (by simpa using Path.segments_ne_nil cs) hparts,
    joinSegments_bracketed, Path.joinSegments_segments]

theorem isVoid_bracketed (cs : List Char) :
    Path.isVoid (cs.flatMap bracketed) = Path.isVoid cs := by
  have hnone := @bracketed_eq_iff cs [] rfl (by decide)
  have hdot := @bracketed_eq_iff cs ['.'] rfl (by decide)
  rw [Bool.eq_iff_iff]
  simp [Path.isVoid, hnone, hdot]

theorem ofSegment_bracketed (cs : List Char) :
    Path.Component.ofSegment (cs.flatMap bracketed) =
      (Path.Component.ofSegment cs).mapName escape := by
  have hdots := @bracketed_eq_iff cs ['.', '.'] rfl (by decide)
  rw [Path.Component.ofSegment, Path.Component.ofSegment]
  by_cases h : cs = ['.', '.']
  · rw [if_pos (hdots.2 h), if_pos h]
    rfl
  · rw [if_neg (hdots.not.2 h), if_neg h, Path.Component.mapName, escape, String.toList_ofList]
    rfl

/-- Escaping a path escapes its names. -/
theorem steps_escape (s : String) :
    Path.steps (escape s) = (Path.steps s).map (Path.Component.mapName escape) := by
  rw [Path.steps, Path.steps, toList_escape, segments_bracketed, List.filter_map, List.map_map,
    List.map_map]
  have hvoid : (fun t => !Path.isVoid t) ∘ (fun t : List Char => t.flatMap bracketed) =
      fun t => !Path.isVoid t := funext fun t => by simp [isVoid_bracketed]
  rw [hvoid]
  exact List.map_congr_left fun t _ => ofSegment_bracketed t

theorem trimSlashes_spec (s : String) :
    ∃ slashes, s.toList = (trimSlashes s).toList ++ List.replicate slashes '/' := by
  have hsplit := List.takeWhile_append_dropWhile (p := (· == '/')) (l := s.toList.reverse)
  have hslashes : s.toList.reverse.takeWhile (· == '/') =
      List.replicate (s.toList.reverse.takeWhile (· == '/')).length '/' := by
    refine List.eq_replicate_of_mem fun c hc => ?_
    simpa using List.mem_takeWhile_imp hc
  refine ⟨(s.toList.reverse.takeWhile (· == '/')).length, ?_⟩
  rw [toList_trimSlashes, ← List.reverse_replicate, ← hslashes, ← List.reverse_append, hsplit,
    List.reverse_reverse]

theorem mem_of_mem_trimSlashes {s : String} {c : Char} (h : c ∈ (trimSlashes s).toList) :
    c ∈ s.toList := by
  obtain ⟨slashes, hs⟩ := trimSlashes_spec s
  exact hs ▸ List.mem_append_left _ h

theorem steps_trimSlashes (s : String) : Path.steps (trimSlashes s) = Path.steps s := by
  obtain ⟨slashes, hs⟩ := trimSlashes_spec s
  have hrepeat (t : String) (n : Nat) :
      Path.steps (t ++ String.ofList (List.replicate n '/')) = Path.steps t := by
    induction n with
    | zero => simp
    | succ n ih =>
        have hlast : t ++ String.ofList (List.replicate (n + 1) '/') =
            t ++ String.ofList (List.replicate n '/') ++ "/" ++ "" := by
          rw [← String.toList_inj]
          simp [List.replicate_succ']
        have hvoid : Path.steps "" = [] := rfl
        rw [hlast, Path.steps_append, ih, hvoid, List.append_nil]
  have htext : s = trimSlashes s ++ String.ofList (List.replicate slashes '/') := by
    rw [← String.toList_inj, String.toList_append, String.toList_ofList, ← hs]
  rw [htext, hrepeat, ← htext]

/-- A glob whose steps are escaped names of an entry, and more, leads to where the entry leads. -/
theorem absolutize_literal {pattern entry base : String} (hbase : Path.isAbsolute base = true)
    (hbaseSlash : '\\' ∉ base.toList) (hslash : '\\' ∉ pattern.toList)
    (hnegation : pattern.toList.head? ≠ some '!')
    (habsolute : Path.isAbsolute pattern = Path.isAbsolute entry) (more : List String)
    (hsteps : Path.steps pattern =
      (Path.steps entry).map (Path.Component.mapName escape) ++ more.map .normal)
    (hne : Path.place base entry ++ more ≠ []) :
    absolutize pattern base =
      String.ofList (Path.spelled ((Path.place base entry).map escape ++ more)) := by
  have hwalk (names : List String) :
      walkNames (names.map escape) (Path.steps pattern) =
        (walkNames names (Path.steps entry)).map escape ++ more := by
    rw [hsteps, Path.walkNames_append, Path.walkNames_normal, Path.map_walkNames]
  rw [absolutize, splitNegation_of_head hnegation]
  dsimp only [withNegation]
  rw [if_neg (by simp), Path.place]
  by_cases h : Path.isAbsolute entry = true
  · have hreach := hwalk []
    rw [List.map_nil] at hreach
    have hreached : walkNames [] (Path.steps pattern) ≠ [] := by
      rw [hreach]
      simpa [Path.place, h] using hne
    rw [absolutizePlain_absolute hslash (habsolute.trans h), if_pos h,
      ← Path.ofList_spelled hreached, hreach]
  · rw [Bool.not_eq_true] at h
    rw [absolutizePlain_relative hbase ?_ (habsolute.trans h), hwalk, if_neg (by simp [h])]
    intro n hn hmem
    exact hbaseSlash (Path.subset_of_mem_walkNames hn hmem)

theorem head?_escape {c : Char} (hc : isSpecial c = false) (s : String) :
    (escape s).toList.head? = some c ↔ s.toList.head? = some c := by
  rw [toList_escape, head?_bracketed hc]

/-- The glob of an entry that names a file is the escaped path of that file. -/
theorem absolutize_file {entry base : String} (hbase : Path.isAbsolute base = true)
    (hbaseSlash : '\\' ∉ base.toList) (hslash : '\\' ∉ entry.toList)
    (hnegation : entry.toList.head? ≠ some '!') (hne : Path.place base entry ≠ []) :
    absolutize (escape entry) base = escape (Path.through (Path.place base entry)) := by
  have habsolute : Path.isAbsolute (escape entry) = Path.isAbsolute entry := by
    rw [Bool.eq_iff_iff, Path.isAbsolute_iff, Path.isAbsolute_iff, head?_escape rfl]
  rw [absolutize_literal hbase hbaseSlash (not_mem_escape hslash)
    ((head?_escape rfl entry).not.2 hnegation) habsolute [] (by simp [steps_escape])
    (by simpa using hne),
    escape_through, ← Path.ofList_spelled (by simpa using hne), List.append_nil]

/-- The glob of an entry that names a directory has the escaped path of that directory in front. -/
theorem absolutize_directory {entry base : String} (hbase : Path.isAbsolute base = true)
    (hbaseSlash : '\\' ∉ base.toList) (hne : entry ≠ "") (hslash : '\\' ∉ entry.toList)
    (hnegation : entry.toList.head? ≠ some '!') :
    absolutize (escape (trimSlashes entry) ++ "/**") base =
      escape (String.ofList (Path.spelled (Path.place base entry))) ++ "/" ++ "**" := by
  obtain ⟨slashes, hentry⟩ := trimSlashes_spec entry
  have htext : (escape (trimSlashes entry) ++ "/**").toList =
      (trimSlashes entry).toList.flatMap bracketed ++ ['/', '*', '*'] := by
    rw [String.toList_append, toList_escape]
    rfl
  have hhead {c : Char} (hc : isSpecial c = false) :
      (escape (trimSlashes entry) ++ "/**").toList.head? = some c ↔
        entry.toList.head? = some c := by
    rw [htext, hentry]
    by_cases hempty : (trimSlashes entry).toList = []
    · rw [hempty] at hentry ⊢
      cases slashes with
      | zero => exact absurd (String.toList_eq_nil_iff.1 hentry) hne
      | succ slashes => rfl
    · have hescaped := (bracketed_eq_iff [] rfl (by decide)).not.2 hempty
      rw [List.head?_append_of_ne_nil _ hempty, List.head?_append_of_ne_nil _ hescaped,
        head?_bracketed hc]
  have hplain : '\\' ∉ (trimSlashes entry).toList := by
    rw [hentry] at hslash
    exact fun hmem => hslash (List.mem_append_left _ hmem)
  have hsteps : Path.steps (escape (trimSlashes entry) ++ "/**") =
      (Path.steps entry).map (Path.Component.mapName escape) ++ ["**"].map .normal := by
    have happend := Path.steps_append (escape (trimSlashes entry)) "**"
    rw [steps_escape, steps_trimSlashes, String.append_assoc] at happend
    exact happend
  rw [absolutize_literal hbase hbaseSlash ?_ ((hhead rfl).not.2 hnegation) ?_ ["**"] hsteps
    (by simp), Path.spelled_concat, ← spelled_escape]
  · rw [← String.toList_inj]
    simp [toList_escape]
  · rw [htext, List.mem_append, mem_bracketed rfl]
    exact not_or.2 ⟨hplain, by decide⟩
  · rw [Bool.eq_iff_iff, Path.isAbsolute_iff, Path.isAbsolute_iff, hhead rfl]

end Glob

namespace Discovery

open Glob (bracketed escape strict)
open StyleAudit.Path (IsName place)

/-- An escaped component is only read as the text that it stands for. -/
theorem literal?_bracketed {cs t : List Char} (h : literal? (cs.flatMap bracketed) = some t) :
    t = cs ∧ '!' ∉ t := by
  induction cs generalizing t with
  | nil =>
      obtain rfl := Option.some.inj h
      exact ⟨rfl, List.not_mem_nil⟩
  | cons c cs ih =>
      rw [List.flatMap_cons, bracketed] at h
      split_ifs at h with hspecial
      · have hmeta : isMeta c = true := isMeta_iff.2 (.inl hspecial)
        have hbang : '!' ≠ c := by
          rintro rfl
          cases hspecial
        rw [List.cons_append, List.cons_append, List.singleton_append, literal?, if_pos hmeta] at h
        obtain ⟨own, hown, rfl⟩ := Option.map_eq_some_iff.1 h
        obtain ⟨rfl, hrest⟩ := ih hown
        exact ⟨rfl, List.not_mem_cons_of_ne_of_not_mem hbang hrest⟩
      · have hopen : c ≠ '[' := by
          rintro rfl
          exact hspecial rfl
        rw [List.singleton_append, literal?] at h
        · split_ifs at h with hmeta
          rw [Bool.or_eq_true, not_or, isMeta_iff, not_or] at hmeta
          obtain ⟨own, hown, rfl⟩ := Option.map_eq_some_iff.1 h
          obtain ⟨rfl, hrest⟩ := ih hown
          exact ⟨rfl, List.not_mem_cons_of_ne_of_not_mem (Ne.symm hmeta.1.2) hrest⟩
        · intro d rest hc
          exact absurd hc hopen

/-- Escaped names, and a component that is not literal, hold neither dots nor marks at the head. -/
theorem plainHead_of_segments {pattern : String} {names : List String}
    (more : List (List Char)) (hnames : ∀ n ∈ names, IsName n)
    (hsegments : Path.segments pattern.toList =
      [] :: names.map (·.toList.flatMap bracketed) ++ more)
    (hmore : ∀ s ∈ more, literal? s = none) : PlainHead pattern := by
  intro t ht
  obtain ⟨s, hs, hliteral⟩ := mem_literalHead ht
  rw [hsegments] at hs
  rcases List.mem_append.1 hs with hs | hs
  · rcases List.mem_cons.1 hs with rfl | hs
    · obtain rfl := Option.some.inj hliteral
      exact ⟨by simp, by simp, List.not_mem_nil⟩
    · obtain ⟨n, hn, rfl⟩ := List.mem_map.1 hs
      obtain ⟨rfl, hbang⟩ := literal?_bracketed hliteral
      have hvoid : n.toList ≠ [] ∧ n.toList ≠ ['.'] := by
        simpa [Path.isVoid] using (hnames n hn).noVoid
      exact ⟨hvoid.2, (hnames n hn).noParent, hbang⟩
  · rw [hmore s hs] at hliteral
    cases hliteral

theorem not_mem_place {base entry : String} {c : Char} (hbase : c ∉ base.toList)
    (hentry : c ∉ entry.toList) : ∀ n ∈ place base entry, c ∉ n.toList := by
  intro n hn hmem
  rcases Path.mem_walkNames hn with hn | hn
  · split_ifs at hn
    · cases hn
    · exact hbase (Path.subset_of_mem_walkNames hn hmem)
  · exact hentry (Path.subset_of_mem_steps hn hmem)

variable {fs : FileSystem} {entry base : String}

/-- An entry whose glob can be read finds the files that the glob matches. -/
theorem run_of_glob (hfs : fs.Reachable) (hslash : fs.PlainNames) {full : String}
    (hfull : Glob.absolutize (patternOf fs base entry) base = full)
    (habsolute : Path.isAbsolute full = true) (hplain : PlainHead full) {g : Glob}
    (hparse : Glob.parse strict full = .ok g) :
    ∃ found, run fs [entry] base true = .ok found ∧ found.files.Pairwise Path.Before ∧
      ∀ p, p ∈ found.files ↔
        ∃ names, p = Path.through names ∧ fs.kind names = .file ∧ g.isMatch p = true := by
  have hpatterns : patternsOf fs base true [entry] = [patternOf fs base entry] := by
    simp [patternsOf]
  have hmark : full.toList.head? ≠ some '!' := by
    rw [Path.isAbsolute_iff.1 habsolute]
    decide
  have hwanted : globsOf false base [patternOf fs base entry] = [full] := by
    simp [globsOf, hfull, Glob.splitNegation_of_head hmark]
  have hunwanted : globsOf true base [patternOf fs base entry] = [] := by
    simp [globsOf, hfull, Glob.splitNegation_of_head hmark]
  have hincludes : parseGlobs [full] = .ok [g] := parseGlobs_eq_ok.2 (by simp [hparse])
  have hmem := mem_found hfs hslash (List.forall_mem_singleton.2 habsolute)
    (List.forall_mem_singleton.2 hplain) hincludes []
  obtain ⟨files, hfiles, hsorted, hmem⟩ : ∃ files, discover fs false [full] [] = .ok files ∧
      files.Pairwise Path.Before ∧ ∀ p, p ∈ files ↔
        ∃ names, p = Path.through names ∧ fs.kind names = .file ∧ g.isMatch p = true :=
    ⟨_, discover_of_parse hincludes rfl, (sortPaths_spec _).1, fun p => by simpa using hmem p⟩
  refine ⟨⟨files, [patternOf fs base entry]⟩, run_eq_ok.2 ⟨hpatterns.symm, ?_⟩, hsorted, hmem⟩
  dsimp only
  rw [hwanted, hunwanted]
  exact hfiles

theorem locate_root (fs : FileSystem) : fs.locate (Path.through []) = .ok [] := by
  have hsegments : Path.segments (Path.through []).toList = [[], []] := rfl
  have hfault : FileSystem.pathFault? (Path.through []) = none := by decide
  rw [FileSystem.locate, hfault, FileSystem.origin_through, hsegments]
  dsimp only
  rw [FileSystem.follow_void fs.get?_root, FileSystem.follow_void fs.get?_root]
  rfl

/-- A path leads to the names that it spells, also if there are none. -/
theorem eq_of_locate_through {names dir : List String} (hnames : ∀ n ∈ names, IsName n)
    (h : fs.locate (Path.through names) = .ok dir) : dir = names := by
  by_cases hne : names = []
  · rw [hne, locate_root] at h
    rw [hne, Except.ok.inj h]
  · exact FileSystem.locate_through hne hnames h

theorem eq_singleton_of_sorted {files : List String} {p : String}
    (hsorted : files.Pairwise Path.Before) (hmem : ∀ q, q ∈ files ↔ q = p) : files = [p] := by
  match files, hsorted with
  | [], _ => exact absurd ((hmem p).2 rfl) List.not_mem_nil
  | [q], _ => rw [(hmem q).1 List.mem_cons_self]
  | q :: r :: rest, hsorted =>
      have hq := (hmem q).1 (by simp)
      have hr := (hmem r).1 (by simp)
      have hbefore := List.rel_of_pairwise_cons hsorted List.mem_cons_self
      exact absurd (by rw [hq, hr]) hbefore.2

/-- What an entry without backslashes and without a mark in front may be. -/
structure Literal (base entry : String) : Prop where
  absolute : Path.isAbsolute base = true
  baseSlash : '\\' ∉ base.toList
  entrySlash : '\\' ∉ entry.toList
  negation : entry.toList.head? ≠ some '!'

theorem run_file (hfs : fs.Reachable) (hslash : fs.PlainNames) (h : Literal base entry)
    (hfile : fs.isFile (Path.absolutize entry base) = true) :
    ∃ found, run fs [entry] base true = .ok found ∧
      found.files = [Path.absolutize entry base] := by
  have hnames := Path.isName_place base entry
  have hpattern : patternOf fs base entry = escape entry := by
    rw [patternOf, if_neg h.negation]
    dsimp only
    rw [if_pos hfile, Glob.withSlashes_of_not_mem h.entrySlash]
  obtain ⟨own, hlocate, hkind⟩ := FileSystem.isFile_iff.1 hfile
  rw [Path.absolutize_eq h.absolute] at hlocate ⊢
  obtain rfl := eq_of_locate_through hnames hlocate
  have hne := (hfs.locate hkind).1
  have hfull := Glob.absolutize_file h.absolute h.baseSlash h.entrySlash h.negation hne
  rw [← hpattern] at hfull
  have habsolute : Path.isAbsolute (escape (Path.through (place base entry))) = true := by
    rw [Glob.escape_through]
    exact Path.isAbsolute_through _
  have hplain : PlainHead (escape (Path.through (place base entry))) := by
    refine plainHead_of_segments [] hnames ?_ (List.forall_mem_nil _)
    rw [Glob.toList_escape, Glob.segments_bracketed, Path.segments_through hne hnames]
    simp
  obtain ⟨g, hparse, hmatch⟩ := Glob.parse_escape strict
    (Glob.not_mem_through (not_mem_place h.baseSlash h.entrySlash))
  obtain ⟨found, hfound, hsorted, hmem⟩ := run_of_glob hfs hslash hfull habsolute hplain hparse
  refine ⟨found, hfound, eq_singleton_of_sorted hsorted fun p => ?_⟩
  rw [hmem]
  simp only [hmatch]
  constructor
  · rintro ⟨_, _, _, hp⟩
    exact hp
  · exact fun hp => ⟨_, hp, hkind, hp⟩

/-- The glob for what lies below a directory matches the paths that begin with its names. -/
theorem parse_below {names : List String} (hnames : ∀ n ∈ names, IsName n)
    (hslash : ∀ n ∈ names, '\\' ∉ n.toList) :
    ∃ g, Glob.parse strict (escape (String.ofList (Path.spelled names)) ++ "/" ++ "**") = .ok g ∧
      ∀ own, (∀ n ∈ own, IsName n) → own ≠ names →
        (g.isMatch (Path.through own) = true ↔ names <+: own) := by
  have hstars : "**".toList = ['*', '*'] := rfl
  have hspelled : '\\' ∉ (String.ofList (Path.spelled names)).toList := by
    rw [String.toList_ofList]
    exact fun hmem => Glob.not_mem_through hslash (Path.spelled_subset _ hmem)
  have hread := Glob.parse_anchored strict hspelled "**"
  rw [Glob.parse, hstars, Glob.readFrom_lone] at hread
  obtain ⟨g, hg, hanchors⟩ := hread
  refine ⟨g, hg, fun own hown hother => ?_⟩
  constructor
  · intro hmatch
    obtain ⟨x, hx⟩ := hanchors.below hmatch
    obtain ⟨rest, hrest, -⟩ := Path.names_of_through hnames hown hx
    exact ⟨rest, hrest.symm⟩
  · rintro ⟨rest, rfl⟩
    have hrest : rest ≠ [] := by
      rintro rfl
      exact hother (List.append_nil _)
    obtain ⟨-, x, hx⟩ := FileSystem.exists_append_of_leads (.inl rfl) hrest
    rw [hx, hanchors.rest (by decide)]
    rfl

theorem plainHead_below {names : List String} (hnames : ∀ n ∈ names, IsName n) :
    PlainHead (escape (String.ofList (Path.spelled names)) ++ "/" ++ "**") := by
  refine plainHead_of_segments [['*', '*']] hnames ?_ (List.forall_mem_singleton.2 rfl)
  rw [Glob.toList_anchored, String.toList_ofList, Path.segments_append, Glob.segments_bracketed,
    Path.segments_spelled hnames, List.map_cons, List.map_map]
  rfl

theorem isAbsolute_below (names : List String) :
    Path.isAbsolute (escape (String.ofList (Path.spelled names)) ++ "/" ++ "**") = true := by
  rw [Path.isAbsolute_iff, Glob.toList_anchored, String.toList_ofList]
  cases names <;> rfl

theorem run_directory (hfs : fs.Reachable) (hslash : fs.PlainNames) (h : Literal base entry)
    (hne : entry ≠ "") {dir : List String}
    (hlocate : fs.locate (Path.absolutize entry base) = .ok dir)
    (hdir : fs.kind dir = .directory) :
    ∃ found, run fs [entry] base true = .ok found ∧ found.files.Pairwise Path.Before ∧
      ∀ p, p ∈ found.files ↔
        ∃ names, p = Path.through names ∧ fs.kind names = .file ∧ dir <+: names := by
  have hnames := Path.isName_place base entry
  have hpattern : patternOf fs base entry = escape (Glob.trimSlashes entry) ++ "/**" := by
    have hnofile : ¬fs.isFile (Path.absolutize entry base) = true := by
      rw [FileSystem.isFile_iff]
      rintro ⟨other, hother, hfile⟩
      obtain rfl := Except.ok.inj (hlocate.symm.trans hother)
      rw [hdir] at hfile
      cases hfile
    rw [patternOf, if_neg h.negation]
    dsimp only
    rw [if_neg hnofile, if_pos (FileSystem.isDirectory_iff.2 ⟨dir, hlocate, hdir⟩),
      Glob.withSlashes_of_not_mem h.entrySlash]
  rw [Path.absolutize_eq h.absolute] at hlocate
  obtain rfl := eq_of_locate_through hnames hlocate
  have hfull := Glob.absolutize_directory h.absolute h.baseSlash hne h.entrySlash h.negation
  rw [← hpattern] at hfull
  obtain ⟨g, hparse, hmatch⟩ := parse_below hnames (not_mem_place h.baseSlash h.entrySlash)
  obtain ⟨found, hfound, hsorted, hmem⟩ := run_of_glob hfs hslash hfull (isAbsolute_below _)
    (plainHead_below hnames) hparse
  refine ⟨found, hfound, hsorted, fun p => ?_⟩
  rw [hmem]
  refine exists_congr fun names => and_congr_right fun hp => and_congr_right fun hfile => ?_
  have hother : names ≠ place base entry := by
    rintro rfl
    rw [hdir] at hfile
    cases hfile
  rw [hp, hmatch names (hfs.locate hfile).2.1 hother]

/-- An entry that names a file finds it, and one that names a directory all files below it. -/
theorem run_literal (hfs : fs.Reachable) (hslash : fs.PlainNames)
    (hbase : Path.isAbsolute base = true) (hbaseSlash : '\\' ∉ base.toList) (hne : entry ≠ "")
    (hnegation : entry.toList.head? ≠ some '!') (hentrySlash : '\\' ∉ entry.toList) :
    (fs.isFile (Path.absolutize entry base) = true →
      ∃ found, run fs [entry] base true = .ok found ∧
        found.files = [Path.absolutize entry base]) ∧
    (∀ dir, fs.locate (Path.absolutize entry base) = .ok dir → fs.kind dir = .directory →
      ∃ found, run fs [entry] base true = .ok found ∧ found.files.Pairwise Path.Before ∧
        ∀ p, p ∈ found.files ↔
          ∃ names, p = Path.through names ∧ fs.kind names = .file ∧ dir <+: names) :=
  have h : Literal base entry := ⟨hbase, hbaseSlash, hentrySlash, hnegation⟩
  ⟨run_file hfs hslash h, fun _ => run_directory hfs hslash h hne⟩

/-- A directory with a star in its name, and one that the name as a glob would match. -/
def starred : FileSystem where
  entries :=
    [(["w[1]"], .directory), (["w[1]", "a*b"], .directory), (["w[1]", "a*b", "c"], .directory),
      (["w[1]", "a*b", "c", "d.css"], .file (.text "") 0), (["w[1]", "axb"], .directory),
      (["w[1]", "axb", "e.css"], .file (.text "") 0)]
  home := []
  now := 0

theorem run_literal_starred :
    (∃ found, run starred ["a*b/c/d.css"] "/w[1]" true = .ok found ∧
      found.files = [Path.absolutize "a*b/c/d.css" "/w[1]"]) ∧
    ∃ found, run starred ["./x/..//a*b/"] "/w[1]" true = .ok found ∧
      "/w[1]/a*b/c/d.css" ∈ found.files ∧ "/w[1]/axb/e.css" ∉ found.files := by
  have hreachable : starred.Reachable := by decide +kernel
  have hslash : starred.PlainNames := by decide +kernel
  constructor
  · exact (run_literal hreachable hslash (by decide) (by decide) (by decide) (by decide)
      (by decide)).1 (by decide +kernel)
  · obtain ⟨found, hfound, -, hmem⟩ := (@run_literal starred "./x/..//a*b/" "/w[1]"
      hreachable hslash (by decide) (by decide) (by decide) (by decide) (by decide)).2
        ["w[1]", "a*b"] (by decide +kernel) (by decide +kernel)
    refine ⟨found, hfound, ?_, fun hother => ?_⟩
    · exact (hmem _).2 ⟨["w[1]", "a*b", "c", "d.css"], by decide, by decide +kernel, by decide⟩
    · obtain ⟨names, hnames, hfile, hbelow⟩ := (hmem _).1 hother
      obtain ⟨hne, hown, -⟩ := hreachable.locate hfile
      have hsame := @through_injective ["w[1]", "axb", "e.css"] names (by decide +kernel) hown
        (by decide) hne (congrArg Path.components (show Path.through _ = _ from hnames))
      rw [← hsame] at hbelow
      exact absurd hbelow (by decide)

/-- A file beside a directory whose name begins like that of the directory and a backslash. -/
def backslashed : FileSystem where
  entries :=
    [(["w"], .directory), (["w", "!d"], .directory), (["w", "!d", "a.css"], .file (.text "") 0),
      (["w", "!d\\x.css"], .file (.text "") 0), (["b.css"], .file (.text "") 0)]
  home := []
  now := 0

/-- A backslash in a name counts as a separator, and an empty entry stands for the root. -/
theorem run_literal_strays :
    backslashed.Reachable ∧ backslashed.isDirectory (Path.absolutize "./!d" "/w") = true ∧
      run backslashed ["./!d"] "/w" true =
        .ok ⟨["/w/!d/a.css", "/w/!d\\x.css"], ["./!d/**"]⟩ ∧
      Path.absolutize "" "/w" = "/w" ∧
      (run backslashed [""] "/w" true).toOption.any (·.files.contains "/b.css") = true := by
  decide +kernel

end Discovery

end StyleAudit
