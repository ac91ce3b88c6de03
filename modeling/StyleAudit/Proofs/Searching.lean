import StyleAudit.Proofs.Roots

/-!
What a search finds.

A search walks the directories in which the globs start, without those that lie below another one.
A file that a glob matches lies below the start of the glob, so nothing is lost.
-/

namespace StyleAudit.Discovery

open Glob (escape strict)
open StyleAudit.Path (IsName)

theorem exists_insertPath (p : String) (row : List String) :
    (∃ q ∈ insertPath p row, Path.components q = Path.components p) ∧ row ⊆ insertPath p row := by
  induction row with
  | nil => exact ⟨⟨p, List.mem_cons_self, rfl⟩, List.nil_subset _⟩
  | cons q row ih =>
      rw [insertPath]
      split_ifs with hsame hle
      · exact ⟨⟨q, List.mem_cons_self, hsame⟩, List.Subset.refl _⟩
      · exact ⟨⟨p, List.mem_cons_self, rfl⟩, List.subset_cons_self _ _⟩
      · obtain ⟨⟨x, hx, hcomponents⟩, hrow⟩ := ih
        exact ⟨⟨x, List.mem_cons_of_mem _ hx, hcomponents⟩, List.cons_subset_cons _ hrow⟩

theorem exists_foldl_insertPath {p : String} {paths row : List String}
    (h : p ∈ paths ∨ ∃ q ∈ row, Path.components q = Path.components p) :
    ∃ q ∈ paths.foldl (fun row p => insertPath p row) row,
      Path.components q = Path.components p := by
  induction paths generalizing row with
  | nil => exact h.resolve_left List.not_mem_nil
  | cons first paths ih =>
      obtain ⟨hfirst, hsub⟩ := exists_insertPath first row
      refine ih ?_
      rcases h with hp | ⟨q, hq, hcomponents⟩
      · rcases List.mem_cons.1 hp with rfl | hp
        · exact .inr hfirst
        · exact .inl hp
      · exact .inr ⟨q, hsub hq, hcomponents⟩

/-- Sorting keeps a path for each that it drops. -/
theorem exists_sortPaths {p : String} {paths : List String} (h : p ∈ paths) :
    ∃ q ∈ sortPaths paths, Path.components q = Path.components p :=
  exists_foldl_insertPath (.inl h)

/-- Above every directory that a glob leads to is one that is searched. -/
theorem exists_searchRoot {patterns : List String} {root : String}
    (h : root ∈ patterns.map searchRoot) :
    ∃ kept ∈ searchRoots patterns, Path.components kept <+: Path.components root := by
  obtain ⟨sorted, hsorted, hcomponents⟩ := exists_sortPaths h
  rw [← hcomponents]
  clear h hcomponents
  -- what is dropped lies below a root with fewer components, which may be dropped as well
  induction hn : (Path.components sorted).length using Nat.strong_induction_on
    generalizing sorted with
  | _ n ih =>
      by_cases hkept : sorted ∈ searchRoots patterns
      · exact ⟨sorted, hkept, List.prefix_refl _⟩
      · have hother : ∃ other ∈ sortPaths (patterns.map searchRoot),
            Path.components other ≠ Path.components sorted ∧
              Path.components other <+: Path.components sorted := by
          simpa [searchRoots, hsorted, Path.startsWith] using hkept
        obtain ⟨other, hmem, hne, habove⟩ := hother
        have hlt : (Path.components other).length < n := by
          rw [← hn]
          exact lt_of_le_of_ne habove.length_le fun heq => hne (habove.eq_of_length heq)
        obtain ⟨kept, hkept, hkeptAbove⟩ := ih _ hlt other hmem rfl
        exact ⟨kept, hkept, hkeptAbove.trans habove⟩

theorem mem_searchRoots {patterns : List String} {root : String}
    (h : root ∈ searchRoots patterns) : ∃ pattern ∈ patterns, searchRoot pattern = root :=
  List.mem_map.1 ((sortPaths_spec _).2 root (List.mem_filter.1 h).1)

variable {fs : FileSystem}

theorem mem_filesUnder (hfs : fs.Reachable) {root p : String} :
    p ∈ filesUnder fs false root ↔
      ∃ head names, fs.locate root = .ok head ∧ head <+: names ∧ fs.kind names = .file ∧
        p = Path.through names := by
  rw [mem_filesUnder_iff]
  constructor
  · rintro ⟨head, names, hlocate, hhead, ⟨content, modified, hmem⟩, hp, -⟩
    exact ⟨head, names, hlocate, hhead, hfs.kind_of_mem hmem, hp⟩
  · rintro ⟨head, names, hlocate, hhead, hfile, hp⟩
    exact ⟨head, names, hlocate, hhead, FileSystem.mem_of_kind hfile, hp, by simp⟩

/-- A file below the head of a glob is among those that are searched. -/
theorem mem_candidates (hfs : fs.Reachable) {patterns : List String}
    (habsolute : ∀ p ∈ patterns, Path.isAbsolute p = true) (hplain : ∀ p ∈ patterns, PlainHead p)
    {pattern : String} (hpattern : pattern ∈ patterns) {more : List String} (hmore : more ≠ [])
    (hfile : fs.kind (headNames pattern ++ more) = .file) :
    Path.through (headNames pattern ++ more) ∈
      (searchRoots patterns).flatMap (filesUnder fs false) := by
  obtain ⟨-, hnames, hlocate⟩ := hfs.locate hfile
  obtain ⟨hhead, hleads⟩ := leads_searchRoot (habsolute _ hpattern) (hplain _ hpattern)
  obtain ⟨kept, hkept, hkeptAbove⟩ := exists_searchRoot (List.mem_map_of_mem hpattern)
  obtain ⟨above, habove, rfl⟩ := mem_searchRoots hkept
  obtain ⟨habovehead, hleadsAbove⟩ := leads_searchRoot (habsolute _ habove) (hplain _ habove)
  rw [hleads.components hhead, hleadsAbove.components habovehead, Path.rooted_prefix_iff]
    at hkeptAbove
  obtain ⟨middle, hmiddle⟩ := hkeptAbove
  refine List.mem_flatMap.2 ⟨searchRoot above, hkept, ?_⟩
  rw [← hmiddle, List.append_assoc] at hfile hnames hlocate ⊢
  have hroot := FileSystem.locate_leads hleadsAbove hnames (by simp [hmore]) hlocate
  exact (mem_filesUnder hfs).2 ⟨_, _, hroot, List.prefix_append _ _, hfile, rfl⟩

theorem endsInParent_through {names : List String} (hne : names ≠ [])
    (hnames : ∀ n ∈ names, IsName n) : Glob.endsInParent (Path.through names).toList = false := by
  rw [Glob.endsInParent, Bool.or_eq_false_iff]
  constructor
  · rw [Path.toList_through]
    rfl
  · rw [Bool.eq_false_iff]
    intro hsuffix
    obtain ⟨init, hinit⟩ := List.isSuffixOf_iff_suffix.1 hsuffix
    have hparts := Path.segments_append init ['.', '.']
    rw [hinit, Path.segments_through hne hnames] at hparts
    obtain ⟨body, last, rfl⟩ := (List.eq_nil_or_concat' names).resolve_left hne
    have hlast := congrArg List.getLast? hparts
    have hdots : Path.segments ['.', '.'] = [['.', '.']] := rfl
    rw [hdots, List.getLast?_concat, List.map_append, ← List.cons_append, List.map_singleton,
      List.getLast?_concat, Option.some.injEq] at hlast
    exact (hnames last (by simp)).noParent hlast

/-- A file with a name of its own is picked by the globs that match its path. -/
theorem selects_through {names : List String} (hne : names ≠ []) (hnames : ∀ n ∈ names, IsName n)
    (hslash : ∀ n ∈ names, '\\' ∉ n.toList) (includes excludes : List Glob) :
    selects includes excludes (Path.through names) = true ↔
      (∃ g ∈ includes, g.isMatch (Path.through names) = true) ∧
        ∀ g ∈ excludes, g.isMatch (Path.through names) = false := by
  have hpicks (g : Glob) : g.picks (Path.through names) = g.isMatch (Path.through names) := by
    rw [Glob.picks, endsInParent_through hne hnames]
    simp
  rw [selects, Glob.withSlashes_of_not_mem (Glob.not_mem_through hslash)]
  simp [hpicks]

/-- The globs that are read are those of the patterns, one by one. -/
theorem parseGlobs_eq_ok {patterns : List String} {globs : List Glob} :
    parseGlobs patterns = .ok globs ↔ patterns.map (Glob.parse strict) = globs.map .ok := by
  induction patterns generalizing globs with
  | nil => cases globs <;> simp [parseGlobs]
  | cons pattern patterns ih =>
      rw [parseGlobs, List.map_cons]
      cases Glob.parse strict pattern with
      | error e => cases globs <;> simp
      | ok g =>
          cases globs with
          | nil => cases parseGlobs patterns <;> simp [Except.map]
          | cons first rest =>
              rw [List.map_cons, List.cons.injEq, ← ih]
              cases parseGlobs patterns <;> simp [Except.map]

theorem mem_parseGlobs {patterns : List String} {globs : List Glob}
    (h : parseGlobs patterns = .ok globs) {g : Glob} :
    g ∈ globs ↔ ∃ pattern ∈ patterns, Glob.parse strict pattern = .ok g := by
  rw [← List.mem_map, parseGlobs_eq_ok.1 h, List.mem_map]
  simp

theorem discover_of_parse {skip : Bool} {wanted unwanted : List String}
    {includes excludes : List Glob} (hincludes : parseGlobs wanted = .ok includes)
    (hexcludes : parseGlobs unwanted = .ok excludes) :
    discover fs skip wanted unwanted =
      .ok (sortPaths (((searchRoots wanted).flatMap (filesUnder fs skip)).filter
        (selects includes excludes))) := by
  rw [discover, hincludes, hexcludes]
  rfl

theorem through_injective {names more : List String} (hnames : ∀ n ∈ names, IsName n)
    (hmore : ∀ n ∈ more, IsName n) (hne : names ≠ []) (hne' : more ≠ [])
    (h : Path.components (Path.through names) = Path.components (Path.through more)) :
    names = more := by
  rw [Path.components_through hne hnames, Path.components_through hne' hmore] at h
  exact List.map_injective_iff.2 (fun _ _ => Path.Component.normal.inj) (List.cons.inj h).2

/-- What is found are the files that some wanted glob matches and no unwanted one does. -/
theorem mem_found (hfs : fs.Reachable) (hslash : fs.PlainNames) {wanted : List String}
    (habsolute : ∀ p ∈ wanted, Path.isAbsolute p = true) (hplain : ∀ p ∈ wanted, PlainHead p)
    {includes : List Glob} (hincludes : parseGlobs wanted = .ok includes) (excludes : List Glob)
    (p : String) :
    p ∈ sortPaths (((searchRoots wanted).flatMap (filesUnder fs false)).filter
        (selects includes excludes)) ↔
      ∃ names, p = Path.through names ∧ fs.kind names = .file ∧
        (∃ g ∈ includes, g.isMatch p = true) ∧ ∀ g ∈ excludes, g.isMatch p = false := by
  have hcandidate {q : String} (hq : q ∈ (searchRoots wanted).flatMap (filesUnder fs false)) :
      ∃ names, q = Path.through names ∧ fs.kind names = .file := by
    obtain ⟨root, -, hroot⟩ := List.mem_flatMap.1 hq
    obtain ⟨-, names, -, -, hfile, rfl⟩ := (mem_filesUnder hfs).1 hroot
    exact ⟨names, rfl, hfile⟩
  constructor
  · intro hp
    obtain ⟨hmem, hselects⟩ := List.mem_filter.1 ((sortPaths_spec _).2 p hp)
    obtain ⟨names, rfl, hfile⟩ := hcandidate hmem
    obtain ⟨hne, hnames, -⟩ := hfs.locate hfile
    exact ⟨names, rfl, hfile,
      (selects_through hne hnames (hslash.of_kind hfile) includes excludes).1 hselects⟩
  · rintro ⟨names, rfl, hfile, ⟨g, hg, hmatch⟩, hexcludes⟩
    obtain ⟨hne, hnames, -⟩ := hfs.locate hfile
    obtain ⟨pattern, hpattern, hparse⟩ := (mem_parseGlobs hincludes).1 hg
    obtain ⟨more, hmore, hunder⟩ := headNames_of_isMatch (habsolute _ hpattern)
      (hplain _ hpattern) hparse hne hnames hmatch
    have hmem : Path.through names ∈ (searchRoots wanted).flatMap (filesUnder fs false) := by
      rw [hunder]
      exact mem_candidates hfs habsolute hplain hpattern hmore (hunder ▸ hfile)
    have hselects := (selects_through hne hnames (hslash.of_kind hfile) includes excludes).2
      ⟨⟨g, hg, hmatch⟩, hexcludes⟩
    -- the row may hold another path with the same components; there is none among the files
    obtain ⟨q, hq, hcomponents⟩ := exists_sortPaths (List.mem_filter.2 ⟨hmem, hselects⟩)
    obtain ⟨own, rfl, hown⟩ := hcandidate (List.mem_filter.1 ((sortPaths_spec _).2 q hq)).1
    obtain ⟨hownne, hownNames, -⟩ := hfs.locate hown
    rwa [through_injective hownNames hnames hownne hne hcomponents] at hq

/-- A search finds all files that some wanted glob matches and no unwanted one does, in order. -/
theorem discover_complete (hfs : fs.Reachable) (hslash : fs.PlainNames)
    {wanted unwanted : List String} (habsolute : ∀ p ∈ wanted, Path.isAbsolute p = true)
    (hplain : ∀ p ∈ wanted, PlainHead p) {includes excludes : List Glob}
    (hincludes : parseGlobs wanted = .ok includes)
    (hexcludes : parseGlobs unwanted = .ok excludes) :
    ∃ files, discover fs false wanted unwanted = .ok files ∧ files.Pairwise Path.Before ∧
      ∀ p, p ∈ files ↔ ∃ names, p = Path.through names ∧ fs.kind names = .file ∧
        (∃ g ∈ includes, g.isMatch p = true) ∧ ∀ g ∈ excludes, g.isMatch p = false :=
  ⟨_, discover_of_parse hincludes hexcludes, (sortPaths_spec _).1,
    mem_found hfs hslash habsolute hplain hincludes excludes⟩

def nestedSheets : FileSystem where
  entries :=
    [(["a"], .directory), (["a", "[b]"], .directory),
      (["a", "[b]", "x.css"], .file (.text "") 0), (["a", "y.css"], .file (.text "") 0),
      (["a", "[b]", "z.css"], .file (.text "") 0)]
  home := []
  now := 0

theorem discover_complete_nested :
    ∃ files, discover nestedSheets false ["/a/[[]b[]]/?.css", "/a/*.css"] ["/**/z.*"] = .ok files ∧
      files.Pairwise Path.Before ∧ "/a/[b]/x.css" ∈ files ∧ "/a/y.css" ∈ files ∧
        "/a/[b]/z.css" ∉ files := by
  have hwanted : (parseGlobs ["/a/[[]b[]]/?.css", "/a/*.css"]).toOption.any (fun includes =>
      includes.any (·.isMatch "/a/[b]/x.css") && includes.any (·.isMatch "/a/y.css")) = true := by
    decide +kernel
  have hunwanted : (parseGlobs ["/**/z.*"]).toOption.any (fun excludes =>
      !excludes.any (·.isMatch "/a/[b]/x.css") && !excludes.any (·.isMatch "/a/y.css") &&
        excludes.any (·.isMatch "/a/[b]/z.css")) = true := by
    decide +kernel
  cases hincludes : parseGlobs ["/a/[[]b[]]/?.css", "/a/*.css"] with
  | error e =>
      rw [hincludes] at hwanted
      cases hwanted
  | ok includes =>
      cases hexcludes : parseGlobs ["/**/z.*"] with
      | error e =>
          rw [hexcludes] at hunwanted
          cases hunwanted
      | ok excludes =>
          rw [hincludes] at hwanted
          rw [hexcludes] at hunwanted
          simp only [Except.toOption, Option.any, Bool.and_eq_true, Bool.not_eq_true',
            List.any_eq_true, List.any_eq_false] at hwanted hunwanted
          have hfs : nestedSheets.Reachable := by decide +kernel
          obtain ⟨files, hfiles, hsorted, hmem⟩ := discover_complete hfs (by decide +kernel)
            (by decide) (by decide +kernel) hincludes hexcludes
          refine ⟨files, hfiles, hsorted, ?_, ?_, ?_⟩
          · exact (hmem _).2 ⟨["a", "[b]", "x.css"], by decide, by decide +kernel, hwanted.1, by
              simpa using hunwanted.1.1⟩
          · exact (hmem _).2 ⟨["a", "y.css"], by decide, by decide +kernel, hwanted.2, by
              simpa using hunwanted.1.2⟩
          · intro hz
            obtain ⟨-, -, -, -, hnone⟩ := (hmem _).1 hz
            obtain ⟨g, hg, hmatch⟩ := hunwanted.2
            rw [hnone g hg] at hmatch
            cases hmatch

/-- A file whose directory has a single letter after the `a`. -/
def oneSheet : FileSystem where
  entries := [(["ax"], .directory), (["ax", "d.css"], .file (.text "") 0)]
  home := []
  now := 0

/-- An exclamation mark in brackets is read as a literal one, though it begins a negated class. -/
theorem discover_misses_negated_class :
    oneSheet.Reachable ∧ oneSheet.PlainNames ∧ oneSheet.kind ["ax", "d.css"] = .file ∧
      (Glob.parse strict "/a[!]b/c]/d.css").toOption.any (·.isMatch "/ax/d.css") = true ∧
        discover oneSheet false ["/a[!]b/c]/d.css"] [] = .ok [] := by
  decide +kernel

end StyleAudit.Discovery
