import StyleAudit.Proofs.LiteralEntries

/-!
Files in excluded directories.

Two things keep them out: a glob that excludes them below the directory of the run, and a search
that does not enter them. Neither sees an excluded directory that lies outside of the directory of
the run and above the place where the search starts.
-/

namespace StyleAudit

namespace Glob

theorem getLast?_trimSlashes (s : String) : (trimSlashes s).toList.getLast? ≠ some '/' := by
  have hhead := List.head?_dropWhile_not (· == '/') s.toList.reverse
  rw [toList_trimSlashes, List.getLast?_reverse]
  intro hslash
  rw [hslash] at hhead
  cases hhead

/-- Slashes at the end of a text may be dropped before or after it is escaped. -/
theorem trimSlashes_escape (s : String) : trimSlashes (escape s) = escape (trimSlashes s) := by
  obtain ⟨slashes, hs⟩ := trimSlashes_spec s
  have hslashes (n : Nat) : (List.replicate n '/').flatMap bracketed = List.replicate n '/' := by
    induction n with
    | zero => rfl
    | succ n ih =>
        rw [List.replicate_succ, List.flatMap_cons, ih]
        rfl
  have htext : (escape s).toList =
      (trimSlashes s).toList.flatMap bracketed ++ List.replicate slashes '/' := by
    rw [toList_escape, hs, List.flatMap_append, hslashes]
  have hlast := (getLast?_bracketed (c := '/') rfl _).not.2 (getLast?_trimSlashes s)
  rw [trimSlashes_eq slashes htext hlast, ← String.toList_inj, String.toList_ofList, toList_escape]

/-- Any components, a fixed name, and anything below it. -/
def within (name : String) : List Token :=
  .leading :: name.toList.map Token.ofChar ++ [.trailing]

theorem parse_within (d : Dialect) {name : String} (h : '\\' ∉ name.toList) :
    parse d ("**/" ++ escape name ++ "/**") = .ok ⟨"**/" ++ escape name ++ "/**", within name⟩ := by
  have htext : ("**/" ++ escape name ++ "/**").toList =
      '*' :: '*' :: '/' :: (name.toList.flatMap bracketed ++ '/' :: ['*', '*']) := by
    rw [String.toList_append, String.toList_append, toList_escape, List.append_assoc]
    rfl
  have hfirst (source : List Char) :
      readFrom d ⟨[], [], none, false⟩ ('*' :: '*' :: '/' :: source) =
        readFrom d ⟨[], [.leading], some '/', false⟩ source := by
    rw [readFrom_cons]
    rfl
  obtain ⟨last, hname⟩ := readFrom_escaped d [.leading] (some '/') h ('/' :: ['*', '*'])
  rw [parse, htext, hfirst, hname, readFrom_separator, readFrom_stars]
  simp [State.replaceLast, within]

/-- Such a glob matches the name with something below it, also behind other components. -/
theorem isMatch_within (name : String) {between : List Char}
    (hbetween : between = [] ∨ between.head? = some '/') (z : List Char) :
    ∃ x, '/' :: x.toList = between ++ '/' :: name.toList ++ '/' :: z ∧
      ∀ g : Glob, g.tokens = within name → g.isMatch x = true := by
  have hmatch {x : String} {v : Bytes} (hv : v ∈ anyComponents)
      (hx : bytesOf x.toList = v ++ bytesOf (name.toList ++ '/' :: z)) (g : Glob)
      (hg : g.tokens = within name) : g.isMatch x = true := by
    rw [within] at hg
    have hlone : g.tokens ≠ [.leading] := by simp [hg]
    rw [isMatch_iff, Token.meaningOfGlob_eq hlone, hg, List.cons_append, Token.meaningOfAll,
      Token.meaningOfAll_append, Token.meaningOfAll_ofChar, hx, bytesOf_append]
    refine Language.mem_mul.2 ⟨v, hv, _, Language.mem_mul.2 ⟨_, rfl, _, ?_, rfl⟩, rfl⟩
    rw [Token.meaningOfAll, Token.meaningOfAll, mul_one]
    exact Language.mem_mul.2 ⟨[separator], mem_oneSeparator.2 rfl, _, mem_anyBytes _, rfl⟩
  rcases hbetween with rfl | hhead
  · refine ⟨String.ofList (name.toList ++ '/' :: z), by simp,
      hmatch (mem_anyComponents.2 (.inl rfl)) ?_⟩
    rw [String.toList_ofList]
    rfl
  · obtain ⟨cs, rfl⟩ := List.head?_eq_some_iff.1 hhead
    refine ⟨String.ofList (cs ++ '/' :: name.toList ++ '/' :: z), by simp,
      hmatch (mem_anyComponents.2 (.inr ⟨bytesOf cs, rfl⟩)) ?_⟩
    rw [String.toList_ofList, List.append_assoc, bytesOf_append, List.append_assoc]
    rfl

/-- What a directory spells goes on behind the text that stands for it in a glob. -/
theorem map_spelled_eq (base : List String) :
    ∃ slashes, (Path.spelled base).map (fun c => if c = '\\' then '/' else c) =
      (trimSlashes (Path.withSlashes (Path.through base))).toList ++
        List.replicate slashes '/' := by
  by_cases hne : base = []
  · rw [hne]
    exact ⟨0, rfl⟩
  · rw [← Path.toList_through_of_ne_nil hne, ← toList_withSlashes]
    exact trimSlashes_spec _

/-- A path that goes on from a directory through the name is matched behind that directory. -/
theorem exists_within {name : String} (hname : '\\' ∉ name.toList) (base middle : List String)
    {rest : List String} (hrest : rest ≠ []) :
    ∃ x, Path.withSlashes (Path.through (base ++ middle ++ name :: rest)) =
        trimSlashes (Path.withSlashes (Path.through base)) ++ "/" ++ x ∧
      ∀ g : Glob, g.tokens = within name → g.isMatch x = true := by
  set f : Char → Char := fun c => if c = '\\' then '/' else c with hf
  obtain ⟨slashes, hbase⟩ := map_spelled_eq base
  rw [← hf] at hbase
  have hnameText : name.toList.map f = name.toList := by
    refine (List.map_congr_left fun c hc => if_neg ?_).trans (List.map_id _)
    rintro rfl
    exact hname hc
  obtain ⟨z, hz⟩ : ∃ z, (Path.spelled rest).map f = '/' :: z := by
    obtain ⟨first, more, rfl⟩ := List.exists_cons_of_ne_nil hrest
    exact ⟨_, by rw [Path.spelled_cons]; rfl⟩
  -- a backslash at the end of a directory's last name counts as a further separator
  have hbetween : List.replicate slashes '/' ++ (Path.spelled middle).map f = [] ∨
      (List.replicate slashes '/' ++ (Path.spelled middle).map f).head? = some '/' := by
    cases slashes with
    | succ slashes => exact .inr rfl
    | zero =>
        cases middle with
        | nil => exact .inl rfl
        | cons first middle => exact .inr rfl
  obtain ⟨x, hx, hmatch⟩ := isMatch_within name hbetween z
  refine ⟨x, ?_, hmatch⟩
  rw [← String.toList_inj, toList_withSlashes, Path.toList_through_of_ne_nil (by simp),
    Path.spelled_append, Path.spelled_append, Path.spelled_cons, ← hf, List.map_append,
    List.map_append, List.map_append, List.map_cons, hbase, hnameText, hz, String.toList_append,
    String.toList_append, List.append_assoc _ "/".toList]
  simp only [List.append_assoc, List.cons_append] at hx ⊢
  exact congrArg _ hx.symm

end Glob

namespace Discovery

open Glob (escape strict)
open StyleAudit.Path (IsName through walkNames)

/-- A component lies within the first part of a path or below it. -/
theorem prefix_or_mem_drop {α : Type} {a : α} {dir head names : List α} (hhead : head <+: names)
    (h : dir ++ [a] <+: names.dropLast) :
    dir ++ [a] <+: head ∨ ∃ middle rest, rest ≠ [] ∧ names = head ++ middle ++ a :: rest := by
  obtain ⟨below, rfl⟩ := hhead
  by_cases hlt : dir.length < head.length
  · have hinit : (head ++ below).dropLast <+: head ++ below := List.dropLast_prefix _
    have habove := h.trans hinit
    refine .inl (List.prefix_of_prefix_length_le habove (List.prefix_append _ _) ?_)
    rw [List.length_append, List.length_singleton]
    exact hlt
  · obtain ⟨more, hmore⟩ := h
    have hne : below ≠ [] := by
      rintro rfl
      have hlength := congrArg List.length hmore
      simp only [List.append_nil, List.length_append, List.length_singleton,
        List.length_dropLast] at hlength
      omega
    obtain ⟨init, last, rfl⟩ := (List.eq_nil_or_concat' below).resolve_left hne
    rw [← List.append_assoc, List.dropLast_concat, List.append_assoc] at hmore
    have hdir : head <+: dir := List.prefix_of_prefix_length_le (List.prefix_append head init)
      (hmore ▸ List.prefix_append dir _) (by omega)
    obtain ⟨middle, rfl⟩ := hdir
    refine .inr ⟨middle, more ++ [last], by simp, ?_⟩
    rw [← List.append_assoc, ← hmore]
    simp

/-- The glob that keeps files in excluded directories out. -/
theorem globsOf_default (fs : FileSystem) (base : String) (entries : List String) :
    Glob.trimSlashes (escape (Path.withSlashes (Path.normalize base))) ++ "/" ++
        "**/node_modules/**" ∈ globsOf true base (patternsOf fs base false entries) := by
  have hpattern : splitNegation defaultExclusion = (true, "**/node_modules/**") := rfl
  have hcomponents : Path.components (Path.normalize "**/node_modules/**") =
      [.normal "**", .normal "node_modules", .normal "**"] := by decide +kernel
  have hplain : Glob.absolutizePlain "**/node_modules/**" base =
      Glob.trimSlashes (escape (Path.withSlashes (Path.normalize base))) ++ "/" ++
        "**/node_modules/**" := by
    rw [Glob.absolutizePlain, if_neg (by decide), hcomponents]
    rfl
  have hglob : splitNegation (Glob.absolutize defaultExclusion base) =
      (true, Glob.trimSlashes (escape (Path.withSlashes (Path.normalize base))) ++ "/" ++
        "**/node_modules/**") := by
    rw [Glob.absolutize, hpattern]
    dsimp only [withNegation]
    rw [if_pos rfl, hplain, Glob.splitNegation_bang]
  have hmem : defaultExclusion ∈ patternsOf fs base false entries :=
    List.mem_append_right _ List.mem_cons_self
  exact List.mem_map.2 ⟨_, List.mem_filter.2 ⟨List.mem_map.2 ⟨_, hmem, hglob⟩, rfl⟩, rfl⟩

/-- A path lies in a directory if and only if its names begin with those of the directory. -/
theorem startsWith_through_iff {own names : List String} (hne : own ≠ [])
    (hown : ∀ n ∈ own, IsName n) (hne' : names ≠ []) (hnames : ∀ n ∈ names, IsName n) :
    Path.startsWith (through names) (through own) = true ↔ own <+: names := by
  rw [Path.startsWith, List.isPrefixOf_iff_prefix, Path.components_through hne hown,
    Path.components_through hne' hnames, Path.rooted_prefix_iff]

/-- A directory that a path lies in is spelled by names with which those of the path begin. -/
theorem names_of_startsWith {base : String} {names : List String} (hne : names ≠ [])
    (hnames : ∀ n ∈ names, IsName n)
    (h : Path.startsWith (through names) (Path.normalize base) = true) :
    ∃ own, (∀ n ∈ own, IsName n) ∧ Path.normalize base = through own ∧ own <+: names := by
  by_cases habsolute : Path.isAbsolute base = true
  · have hown := Path.isName_walkNames (List.forall_mem_nil _) (Path.isStep_steps base)
    refine ⟨_, hown, Path.normalize_of_isAbsolute habsolute, ?_⟩
    rw [Path.normalize_of_isAbsolute habsolute] at h
    generalize walkNames [] (Path.steps base) = own at h hown
    by_cases hempty : own = []
    · exact hempty ▸ List.nil_prefix
    · exact (startsWith_through_iff hempty hown hne hnames).1 h
  · obtain ⟨⟨climbs, down, hreduced⟩, -⟩ :=
      Path.normalized_relative (Bool.not_eq_true _ ▸ habsolute)
    rw [Path.startsWith, List.isPrefixOf_iff_prefix, Path.components_through hne hnames,
      Path.normalize] at h
    split at h
    case h_1 => exact absurd (List.cons_prefix_cons.1 h).1 (by simp)
    case h_2 hnonempty =>
        rw [Path.components_render (Path.isNormal_normalized base) hnonempty, hreduced] at h
        rw [hreduced] at hnonempty
        cases climbs with
        | succ climbs => exact absurd (List.cons_prefix_cons.1 h).1 (by simp)
        | zero =>
            cases down with
            | nil => exact absurd rfl hnonempty
            | cons name down => exact absurd (List.cons_prefix_cons.1 h).1 (by simp)

/-- Below the directory of the run the excluded directories are left out by a glob. -/
theorem exists_exclude {fs : FileSystem} {base : String} {entries : List String}
    {excludes : List Glob}
    (hexcludes : parseGlobs (globsOf true base (patternsOf fs base false entries)) = .ok excludes)
    {own : List String} (hbase : Path.normalize base = through own) (middle : List String)
    {rest : List String} (hrest : rest ≠ []) :
    ∃ g ∈ excludes, g.picks
      (Path.withSlashes (through (own ++ middle ++ excludedDirectory :: rest))) = true := by
  have hread := List.mem_map_of_mem (f := Glob.parse strict) (globsOf_default fs base entries)
  rw [parseGlobs_eq_ok.1 hexcludes, List.mem_map] at hread
  obtain ⟨g, hg, hparse⟩ := hread
  rw [Glob.trimSlashes_escape] at hparse
  have hslash : '\\' ∉ (Glob.trimSlashes (Path.withSlashes (Path.normalize base))).toList :=
    fun hmem => Glob.not_mem_withSlashes _ (Glob.mem_of_mem_trimSlashes hmem)
  have hplain : '\\' ∉ excludedDirectory.toList := by decide
  have hread := Glob.parse_anchored strict hslash "**/node_modules/**"
  have hsource : "**/" ++ escape excludedDirectory ++ "/**" = "**/node_modules/**" := by decide
  rw [← hsource, Glob.parse_within strict hplain, hsource] at hread
  obtain ⟨full, hfull, hanchors⟩ := hread
  obtain rfl := Except.ok.inj (hparse.trans hfull)
  obtain ⟨x, hx, hmatch⟩ := Glob.exists_within hplain own middle hrest
  have hlast : g.tokens.getLast? = some .trailing := by
    rw [hanchors.last (by decide)]
    exact List.getLast?_concat
  refine ⟨g, hg, ?_⟩
  rw [hx, ← hbase, Glob.picks, hanchors.rest (by decide), hmatch _ rfl, hlast]
  simp [Glob.Token.isChar]

/-- A file in an excluded directory is only found if the run itself takes place there, or if the
file lies outside of the directory of the run and a search starts there. -/
theorem excluded_of_run {fs : FileSystem} (hfs : fs.Proper) {entries : List String} {base : String}
    {found : Discovery} (h : run fs entries base false = .ok found) {p : String}
    (hp : p ∈ found.files) :
    ∃ names, p = through names ∧ (∀ n ∈ names, IsName n) ∧
      ∀ dir, dir ++ [excludedDirectory] <+: names.dropLast →
        Path.startsWith (Path.normalize base) (through (dir ++ [excludedDirectory])) = true ∨
          Path.startsWith p (Path.normalize base) = false ∧
            ∃ root ∈ searchRoots (globsOf false base found.patterns), ∃ head,
              fs.locate root = .ok head ∧ head <+: names ∧
                dir ++ [excludedDirectory] <+: head := by
  obtain ⟨hpatterns, hfiles⟩ := run_eq_ok.1 h
  obtain ⟨includes, excludes, -, hexcludes, hsorted⟩ := discover_eq_ok hfiles
  rw [hsorted] at hp
  obtain ⟨hmem, hselects⟩ := List.mem_filter.1 ((sortPaths_spec _).2 p hp)
  obtain ⟨root, hroot, hunder⟩ := List.mem_flatMap.1 hmem
  obtain ⟨head, names, hlocate, hhead, ⟨content, modified, hentry⟩, rfl, hkept⟩ :=
    mem_filesUnder_iff.1 hunder
  obtain ⟨hne, hnames⟩ := hfs.names hentry
  refine ⟨names, rfl, hnames, fun dir hdir => ?_⟩
  -- within the directory of the run the glob decides, and elsewhere only the walk does
  by_cases hinside : Path.startsWith (through names) (Path.normalize base) = true
  · obtain ⟨own, hown, hbase, hstart⟩ := names_of_startsWith hne hnames hinside
    rcases prefix_or_mem_drop hstart hdir with habove | ⟨middle, rest, hrest, hsplit⟩
    · left
      rw [hbase, startsWith_through_iff (by simp) (fun n hn => hown n (habove.subset hn)) ?_ hown]
      · exact habove
      · rintro rfl
        exact absurd (List.prefix_nil.1 habove) (by simp)
    · rw [hpatterns] at hexcludes
      obtain ⟨g, hg, hpicks⟩ := exists_exclude hexcludes hbase middle hrest
      rw [← hsplit] at hpicks
      rw [selects, Bool.and_eq_true, Bool.not_eq_true'] at hselects
      have hnone := List.any_eq_false.1 hselects.2 g hg
      exact absurd hpicks hnone
  · right
    refine ⟨Bool.not_eq_true _ ▸ hinside, root, hroot, head, hlocate, hhead, ?_⟩
    refine (prefix_or_mem_drop hhead hdir).resolve_right ?_
    rintro ⟨middle, rest, hrest, hsplit⟩
    refine hkept rfl ?_
    obtain ⟨init, last, rfl⟩ := (List.eq_nil_or_concat' rest).resolve_left hrest
    rw [hsplit, List.append_assoc, List.drop_left, ← List.cons_append, ← List.append_assoc,
      List.dropLast_concat]
    exact List.mem_append_right _ List.mem_cons_self

def packages : FileSystem where
  entries :=
    [(["sub"], .directory), (["sub", "a.css"], .file (.text "") 0),
      (["node_modules"], .directory), (["node_modules", "pkg"], .directory),
      (["node_modules", "pkg", "n.css"], .file (.text "") 0)]
  home := []
  now := 0

theorem excluded_of_run_beside :
    ∃ root ∈ searchRoots ["/node_modules/pkg/*.css"], ∃ head,
      packages.locate root = .ok head ∧ [excludedDirectory] <+: head := by
  obtain ⟨names, hnames, hproper, hexcluded⟩ := @excluded_of_run packages (by decide +kernel)
    ["../node_modules/pkg/*.css"] "/sub"
    ⟨["/node_modules/pkg/n.css"], ["../node_modules/pkg/*.css", defaultExclusion]⟩
    (by decide +kernel) "/node_modules/pkg/n.css" List.mem_cons_self
  have hne : names ≠ [] := by
    rintro rfl
    exact absurd hnames (by decide)
  obtain rfl := @through_injective ["node_modules", "pkg", "n.css"] names (by decide +kernel)
    hproper (by decide) hne (congrArg Path.components (show through _ = _ from hnames))
  rcases hexcluded [] (by decide) with hown | ⟨-, root, hroot, head, hlocate, -, hhead⟩
  · exact absurd hown (by decide +kernel)
  · have hglobs : globsOf false "/sub" ["../node_modules/pkg/*.css", defaultExclusion] =
        ["/node_modules/pkg/*.css"] := by decide +kernel
    exact ⟨root, hglobs ▸ hroot, head, hlocate, hhead⟩

/-- An entry may lead into an excluded directory beside that of the run. -/
theorem run_beside :
    packages.Proper ∧ run packages ["../node_modules/pkg/n.css"] "/sub" false =
      .ok ⟨["/node_modules/pkg/n.css"], ["../node_modules/pkg/n.css", "!**/node_modules/**"]⟩ := by
  decide +kernel

end Discovery

end StyleAudit
