import StyleAudit.Proofs.Exclusion

/-!
Paths that stay as they are when they are made absolute once more.

A configuration that builds on others has its paths made absolute on every level. On the second
time a path is absolute, so it takes another way: it is normalized and its backslashes become
separators. Separators that came from backslashes on the first time have not been normalized, and
those of relative globs are still backslashes then.
-/

namespace StyleAudit

namespace Path

/-- Whether there is nothing but names between the separators of an absolute path. -/
def Settled (p : String) : Prop :=
  p = "/" ∨ ∀ s ∈ (segments p.toList).tail, IsName (String.ofList s)

instance (p : String) : Decidable (Settled p) :=
  inferInstanceAs (Decidable (p = "/" ∨ ∀ s ∈ (segments p.toList).tail, IsName (String.ofList s)))

theorem settled_through {names : List String} (hnames : ∀ n ∈ names, IsName n) :
    Settled (through names) := by
  by_cases hne : names = []
  · exact .inl (hne ▸ rfl)
  · refine .inr fun s hs => ?_
    rw [segments_through hne hnames, List.tail_cons] at hs
    obtain ⟨n, hn, rfl⟩ := List.mem_map.1 hs
    rw [String.ofList_toList]
    exact hnames n hn

/-- Normal forms of absolute paths have nothing but names between their separators. -/
theorem normalize_eq_self_iff {p : String} (h : isAbsolute p = true) :
    normalize p = p ↔ Settled p := by
  have hnames := isName_walkNames (List.forall_mem_nil _) (isStep_steps p)
  rw [normalize_of_isAbsolute h]
  constructor
  · intro hp
    rw [← hp]
    exact settled_through hnames
  · rintro (rfl | hparts)
    · rfl
    · obtain ⟨parts, hsegments⟩ := List.head?_eq_some_iff.1 (head?_segments_of_isAbsolute h)
      rw [hsegments, List.tail_cons] at hparts
      have hsteps : steps p = (parts.map String.ofList).map .normal := by
        have hkept : parts.filter (fun s => !isVoid s) = parts := by
          refine List.filter_eq_self.2 fun s hs => ?_
          simpa using (hparts s hs).noVoid
        have hvoid : isVoid [] = true := rfl
        rw [steps, hsegments, List.filter_cons_of_neg (by simp [hvoid]), hkept, List.map_map]
        refine List.map_congr_left fun s hs => ?_
        have hname := (hparts s hs).ofSegment
        rwa [String.toList_ofList] at hname
      have hne : parts ≠ [] := by
        rintro rfl
        have htext := joinSegments_segments p.toList
        rw [hsegments] at htext
        rw [isAbsolute, ← htext] at h
        cases h
      have htexts : (parts.map String.ofList).map String.toList = parts := by
        rw [List.map_map]
        exact (List.map_congr_left fun s _ => String.toList_ofList).trans (List.map_id _)
      rw [hsteps, walkNames_normal, List.nil_append, ← String.toList_inj, toList_through, htexts,
        ← joinSegments_segments p.toList, hsegments, joinSegments_cons _ hne, List.nil_append]

/-- An absolute path stays as it is if it has no backslashes and is in normal form. -/
theorem withSlashes_normalize_iff {p : String} (h : isAbsolute p = true) :
    withSlashes (normalize p) = p ↔ '\\' ∉ p.toList ∧ Settled p := by
  have hplain (hp : '\\' ∉ p.toList) : withSlashes (normalize p) = normalize p := by
    rw [normalize_of_isAbsolute h]
    refine Glob.withSlashes_of_not_mem (Glob.not_mem_through fun n hn hmem => hp ?_)
    exact subset_of_mem_walkNames hn hmem
  constructor
  · intro hp
    have hslash : '\\' ∉ p.toList := hp ▸ Glob.not_mem_withSlashes _
    exact ⟨hslash, (normalize_eq_self_iff h).1 ((hplain hslash).symm.trans hp)⟩
  · rintro ⟨hslash, hsettled⟩
    exact (hplain hslash).trans ((normalize_eq_self_iff h).2 hsettled)

theorem isAbsolute_withSlashes {p : String} (h : isAbsolute p = true) :
    isAbsolute (withSlashes p) = true := by
  obtain ⟨cs, hcs⟩ := List.head?_eq_some_iff.1 (isAbsolute_iff.1 h)
  rw [isAbsolute_iff, Glob.toList_withSlashes, hcs]
  rfl

/-- On the second time the separators that backslashes became count as any others. -/
theorem withSlashes_twice_iff {p : String} (h : isAbsolute p = true) :
    withSlashes (normalize (withSlashes p)) = withSlashes p ↔ Settled (withSlashes p) := by
  rw [withSlashes_normalize_iff (isAbsolute_withSlashes h)]
  exact and_iff_right (Glob.not_mem_withSlashes p)

end Path

namespace Glob

open StyleAudit.Path (IsName Settled walkNames)

variable {dir next glob : String}

/-- Whether a glob without negation that was taken from `dir` stays when it is taken from `next`. -/
def StaysPlain (dir next pattern : String) : Prop :=
  if Path.isAbsolute pattern then Settled (Path.withSlashes (Path.normalize pattern))
  else
    let (up, rest) := climb (Path.normalize dir) (Path.components (Path.normalize pattern))
    let above := trimSlashes (Path.withSlashes up)
    Settled above ∧ (∀ c ∈ rest, '\\' ∉ c.text.toList) ∧
      (above = "" ∧ rest = [] → trimSlashes (Path.withSlashes (Path.normalize next)) = "")

/-- Whether a glob that was taken from `dir` stays as it is when it is taken from `next`. -/
def Stays (dir next glob : String) : Prop :=
  StaysPlain dir next (splitNegation glob).2

theorem isAbsolute_escape (s : String) : Path.isAbsolute (escape s) = Path.isAbsolute s := by
  rw [Bool.eq_iff_iff, Path.isAbsolute_iff, Path.isAbsolute_iff, head?_escape rfl]

theorem escape_eq_empty_iff {s : String} : escape s = "" ↔ s = "" := by
  rw [← String.toList_eq_nil_iff, toList_escape, bracketed_eq_iff [] rfl (by decide),
    String.toList_eq_nil_iff]

theorem isName_escape_iff {name : String} : IsName (escape name) ↔ IsName name := by
  refine ⟨fun h => ⟨?_, fun heq => h.noParent ?_, ?_⟩, isName_escape⟩
  · rw [← isVoid_bracketed, ← toList_escape]
    exact h.noVoid
  · rw [toList_escape, heq]
    rfl
  · rw [← mem_bracketed rfl, ← toList_escape]
    exact h.noSlash

/-- Without the slashes at its end a directory is absolute still, unless it is the root. -/
theorem empty_or_isAbsolute_trimSlashes (names : List String) :
    trimSlashes (Path.withSlashes (Path.through names)) = "" ∨
      Path.isAbsolute (trimSlashes (Path.withSlashes (Path.through names))) = true := by
  have h := Path.isAbsolute_withSlashes (Path.isAbsolute_through names)
  obtain ⟨slashes, htext⟩ := trimSlashes_spec (Path.withSlashes (Path.through names))
  refine or_iff_not_imp_left.2 fun hne => ?_
  rw [Path.isAbsolute_iff, htext] at h
  rw [Path.isAbsolute_iff, ← h, List.head?_append_of_ne_nil _ (by simpa using hne)]

theorem segments_above (cs : List Char) {down : List String} (hdown : ∀ n ∈ down, IsName n) :
    Path.segments (cs ++ Path.spelled down) = Path.segments cs ++ down.map String.toList := by
  by_cases hne : down = []
  · simp [hne, Path.spelled]
  · have hparts := Path.segments_spelled hdown
    rw [Path.spelled_eq down hne, Path.segments, if_pos rfl] at hparts
    rw [Path.spelled_eq down hne, Path.segments_append, (List.cons.inj hparts).2]

/-- A directory that is taken literally, with names below it, is as settled as it is itself. -/
theorem settled_below {above : String} (hlast : above.toList.getLast? ≠ some '/')
    {down : List String} (hdown : ∀ n ∈ down, IsName n) :
    Settled (escape above ++ String.ofList (Path.spelled down)) ↔ Settled above := by
  have htext : (escape above ++ String.ofList (Path.spelled down)).toList =
      above.toList.flatMap bracketed ++ Path.spelled down := by
    rw [String.toList_append, toList_escape, String.toList_ofList]
  have hroot : above ≠ "/" := by
    rintro rfl
    exact hlast rfl
  have hfull : escape above ++ String.ofList (Path.spelled down) ≠ "/" := by
    intro heq
    rw [← String.toList_inj, htext] at heq
    rcases List.append_eq_singleton_iff.1 heq with ⟨-, hbelow⟩ | ⟨habove, -⟩
    · exact Path.getLast?_spelled hdown (by rw [hbelow]; rfl)
    · exact (getLast?_bracketed rfl _).not.2 hlast (by rw [habove]; rfl)
  have hname (s : List Char) :
      IsName (String.ofList (s.flatMap bracketed)) ↔ IsName (String.ofList s) := by
    rw [← @isName_escape_iff (String.ofList s), escape, String.toList_ofList]
    rfl
  obtain ⟨first, parts, hparts⟩ := List.exists_cons_of_ne_nil (Path.segments_ne_nil above.toList)
  rw [Settled, Settled, or_iff_right hroot, or_iff_right hfull, htext, segments_above _ hdown,
    segments_bracketed, hparts, List.map_cons, List.cons_append, List.tail_cons, List.tail_cons]
  simp only [List.forall_mem_append, List.forall_mem_map, hname, String.ofList_toList]
  exact and_iff_left hdown

/-- A relative glob leads out of an absolute directory and then down some names. -/
theorem exists_climb (hdir : Path.isAbsolute dir = true) {pattern : String}
    (h : Path.isAbsolute pattern = false) :
    ∃ names down : List String, (∀ n ∈ names, IsName n ∧ n.toList ⊆ dir.toList) ∧
      (∀ n ∈ down, IsName n) ∧ Path.place dir pattern = names ++ down ∧
      climb (Path.normalize dir) (Path.components (Path.normalize pattern)) =
        (Path.through names, down.map .normal) := by
  have hnames := Path.isName_walkNames (List.forall_mem_nil _) (Path.isStep_steps dir)
  obtain ⟨⟨climbs, down, hreduced⟩, hwalk⟩ := Path.normalized_relative h
  refine ⟨_, down, fun n hn => ?_, fun n hn => ?_, ?_, climb_of_reduced hdir hreduced⟩
  · have hmem := (Path.mem_walkNames hn).resolve_right fun hup => by
      cases List.eq_of_mem_replicate hup
    exact ⟨hnames n hmem, Path.subset_of_mem_walkNames hmem⟩
  · have hmem : Path.Component.normal n ∈ Path.normalized pattern :=
      hreduced ▸ List.mem_append_right _ (List.mem_map_of_mem hn)
    obtain ⟨steps, hsteps, hnormal⟩ := Path.isNormal_normalized pattern
    have hstep : Path.Component.normal n ∈ steps := by
      rcases hnormal with heq | heq
      · exact heq ▸ hmem
      · rw [heq] at hmem
        exact (List.mem_cons.1 hmem).resolve_left nofun
    cases hsteps _ hstep with
    | normal hname => exact hname
  · rw [Path.place, if_neg (by simp [h]), ← hwalk, hreduced, Path.walkNames_append,
      Path.walkNames_normal]

/-- Names below an absolute directory, which may be the root, make up an absolute glob. -/
theorem isAbsolute_literal {above : String} (hhead : above = "" ∨ Path.isAbsolute above = true)
    {down : List String} (hne : ¬(above = "" ∧ down = [])) :
    Path.isAbsolute (escape above ++ String.ofList (Path.spelled down)) = true := by
  rw [Path.isAbsolute_iff, String.toList_append, String.toList_ofList]
  rcases hhead with rfl | hhead
  · cases down with
    | nil => exact absurd ⟨rfl, rfl⟩ hne
    | cons name down => rfl
  · rw [← isAbsolute_escape, Path.isAbsolute_iff] at hhead
    rw [List.head?_append, hhead]
    rfl

/-- A glob without negation becomes absolute, unless it stands for the root itself. -/
theorem empty_or_isAbsolute (hdir : Path.isAbsolute dir = true) (pattern : String) :
    absolutizePlain pattern dir = "" ∨ Path.isAbsolute (absolutizePlain pattern dir) = true := by
  by_cases h : Path.isAbsolute pattern = true
  · rw [absolutizePlain, if_pos h, Path.normalize_of_isAbsolute h]
    exact .inr (Path.isAbsolute_withSlashes (Path.isAbsolute_through _))
  · rw [Bool.not_eq_true] at h
    obtain ⟨names, down, -, -, -, hclimb⟩ := exists_climb hdir h
    rw [absolutizePlain_of_climb h hclimb, trimSlashes_escape]
    by_cases hempty : trimSlashes (Path.withSlashes (Path.through names)) = "" ∧ down = []
    · rw [hempty.1, hempty.2]
      exact .inl rfl
    · exact .inr (isAbsolute_literal (empty_or_isAbsolute_trimSlashes names) hempty)

theorem absolutizePlain_empty (next : String) :
    absolutizePlain "" next = "" ↔
      trimSlashes (Path.withSlashes (Path.normalize next)) = "" := by
  have hclimb : climb (Path.normalize next) (Path.components (Path.normalize "")) =
      (Path.normalize next, ([] : List String).map .normal) := rfl
  rw [absolutizePlain_of_climb rfl hclimb, Path.spelled, List.flatMap_nil, String.ofList_nil,
    String.append_empty, trimSlashes_escape, escape_eq_empty_iff]

/-- An absolute glob is left alone if it has no backslashes and is settled. -/
theorem absolutizePlain_absolute_iff {pattern : String} (h : Path.isAbsolute pattern = true) :
    absolutizePlain pattern next = pattern ↔ '\\' ∉ pattern.toList ∧ Settled pattern := by
  rw [absolutizePlain, if_pos h, Path.withSlashes_normalize_iff h]

/-- Behind a directory that it takes literally a glob stays if it has no backslashes. -/
theorem absolutizePlain_below_iff {above : String} (hslash : '\\' ∉ above.toList)
    (hlast : above.toList.getLast? ≠ some '/') (hhead : above = "" ∨ Path.isAbsolute above = true)
    {down : List String} (hdown : ∀ n ∈ down, IsName n) :
    absolutizePlain (escape above ++ String.ofList (Path.spelled down)) next =
        escape above ++ String.ofList (Path.spelled down) ↔
      Settled above ∧ (∀ n ∈ down, '\\' ∉ n.toList) ∧
        (above = "" ∧ down = [] → trimSlashes (Path.withSlashes (Path.normalize next)) = "") := by
  by_cases hempty : above = "" ∧ down = []
  · obtain ⟨rfl, rfl⟩ := hempty
    have hnothing : escape "" ++ String.ofList (Path.spelled []) = "" := rfl
    rw [hnothing, absolutizePlain_empty]
    simp [show Settled "" from by decide]
  · have habsolute := isAbsolute_literal hhead hempty
    have hmem : '\\' ∉ (escape above ++ String.ofList (Path.spelled down)).toList ↔
        ∀ n ∈ down, '\\' ∉ n.toList := by
      rw [String.toList_append, String.toList_ofList, List.mem_append,
        or_iff_right (not_mem_escape hslash)]
      simp [Path.spelled]
    rw [absolutizePlain_absolute_iff habsolute, hmem, settled_below hlast hdown]
    simp [hempty, and_comm]

/-- When a glob without negation may be taken from another directory once more. -/
theorem absolutizePlain_twice_iff (hdir : Path.isAbsolute dir = true) (pattern : String) :
    absolutizePlain (absolutizePlain pattern dir) next = absolutizePlain pattern dir ↔
      StaysPlain dir next pattern := by
  rw [StaysPlain]
  by_cases h : Path.isAbsolute pattern = true
  · have habsolute : Path.isAbsolute (Path.normalize pattern) = true := by
      rw [Path.normalize_of_isAbsolute h]
      exact Path.isAbsolute_through _
    rw [if_pos h, absolutizePlain, absolutizePlain, if_pos h,
      if_pos (Path.isAbsolute_withSlashes habsolute), Path.withSlashes_twice_iff habsolute]
  · rw [Bool.not_eq_true] at h
    obtain ⟨names, down, -, hdown, -, hclimb⟩ := exists_climb hdir h
    rw [if_neg (by simp [h]), absolutizePlain_of_climb h hclimb, hclimb, trimSlashes_escape]
    dsimp only
    rw [absolutizePlain_below_iff ?_ (getLast?_trimSlashes _)
      (empty_or_isAbsolute_trimSlashes names) hdown]
    · simp [Path.Component.text]
    · exact fun hmem => not_mem_withSlashes _ (mem_of_mem_trimSlashes hmem)

theorem splitNegation_withNegation (negated : Bool) {pattern : String}
    (h : pattern.toList.head? ≠ some '!') :
    splitNegation (withNegation negated pattern) = (negated, pattern) := by
  cases negated with
  | false => exact splitNegation_of_head h
  | true => exact splitNegation_bang pattern

theorem withNegation_inj {negated : Bool} {p q : String} :
    withNegation negated p = withNegation negated q ↔ p = q := by
  cases negated with
  | false => rfl
  | true => simp [withNegation, ← String.toList_inj]

theorem head?_absolutizePlain (hdir : Path.isAbsolute dir = true) (pattern : String) :
    (absolutizePlain pattern dir).toList.head? ≠ some '!' := by
  rcases empty_or_isAbsolute hdir pattern with hempty | habsolute
  · rw [hempty]
    exact nofun
  · rw [Path.isAbsolute_iff.1 habsolute]
    decide

/-- When a glob may be taken from another directory once more. -/
theorem absolutize_twice_iff (hdir : Path.isAbsolute dir = true) (glob : String) :
    absolutize (absolutize glob dir) next = absolutize glob dir ↔ Stays dir next glob := by
  have hsplit := splitNegation_withNegation (splitNegation glob).1
    (head?_absolutizePlain hdir (splitNegation glob).2)
  rw [absolutize, absolutize, hsplit, withNegation_inj, absolutizePlain_twice_iff hdir, Stays]

theorem trimSlashes_through_eq_empty_iff {names : List String} (hnames : ∀ n ∈ names, IsName n) :
    trimSlashes (Path.through names) = "" ↔ names = [] := by
  rw [trimSlashes_spelled hnames, ← String.toList_eq_nil_iff, String.toList_ofList]
  cases names with
  | nil => exact iff_of_true rfl rfl
  | cons name names => exact iff_of_false nofun nofun

theorem settled_trimSlashes {names : List String} (hnames : ∀ n ∈ names, IsName n) :
    Settled (trimSlashes (Path.through names)) := by
  rw [trimSlashes_spelled hnames]
  by_cases hne : names = []
  · rw [hne]
    exact .inr (List.forall_mem_nil _)
  · rw [Path.ofList_spelled hne]
    exact Path.settled_through hnames

/-- Without backslashes every glob stays that does not stand for the root itself. -/
theorem stays_of_not_mem (hdir : Path.isAbsolute dir = true) (hslash : '\\' ∉ dir.toList)
    (hglob : '\\' ∉ (splitNegation glob).2.toList)
    (hne : Path.place dir (splitNegation glob).2 ≠ []) : Stays dir next glob := by
  have hplain := Discovery.not_mem_place hslash hglob
  rw [Stays, StaysPlain]
  generalize (splitNegation glob).2 = pattern at hglob hne hplain
  by_cases h : Path.isAbsolute pattern = true
  · rw [if_pos h, Path.normalize_of_isAbsolute h]
    rw [Path.place, if_pos h] at hplain
    rw [withSlashes_of_not_mem (not_mem_through hplain)]
    exact Path.settled_through
      (Path.isName_walkNames (List.forall_mem_nil _) (Path.isStep_steps pattern))
  · rw [Bool.not_eq_true] at h
    obtain ⟨names, down, hnames, -, hplace, hclimb⟩ := exists_climb hdir h
    rw [hplace] at hne hplain
    rw [if_neg (by simp [h]), hclimb]
    dsimp only
    rw [withSlashes_of_not_mem
      (not_mem_through fun n hn => hplain n (List.mem_append_left _ hn))]
    refine ⟨settled_trimSlashes fun n hn => (hnames n hn).1, ?_, ?_⟩
    · intro c hc
      obtain ⟨n, hn, rfl⟩ := List.mem_map.1 hc
      exact hplain n (List.mem_append_right _ hn)
    · rintro ⟨hroot, hdown⟩
      rw [trimSlashes_through_eq_empty_iff fun n hn => (hnames n hn).1] at hroot
      exact absurd (List.append_eq_nil_iff.2 ⟨hroot, List.map_eq_nil_iff.1 hdown⟩) hne

end Glob

namespace Config

/-- Whether paths that were taken from `dir` stay as they are when they are taken from `next`. -/
structure Stays (c : Config) (dir next : String) : Prop where
  globs {globs : List String} (h : c.ignoreFiles = some globs) : ∀ g ∈ globs, Glob.Stays dir next g
  plugins {specifier : String} (h : .lookup specifier ∈ c.plugins)
    (hpath : Path.namesPath specifier = true) :
    Path.Settled (Path.withSlashes (Path.absolutize specifier dir))

variable {c : Config} {dir next : String}

theorem ignoreFiles_twice_iff (hdir : Path.isAbsolute dir = true) :
    ((c.anchorPaths dir).anchorPaths next).ignoreFiles = (c.anchorPaths dir).ignoreFiles ↔
      ∀ globs, c.ignoreFiles = some globs → ∀ g ∈ globs, Glob.Stays dir next g := by
  rw [anchorPaths, anchorPaths]
  cases c.ignoreFiles with
  | none => simp
  | some globs =>
      simp only [Option.map_some, Option.some.injEq, List.map_map, List.map_inj_left,
        Function.comp_apply, Glob.absolutize_twice_iff hdir, forall_eq']

/-- A specifier that was made absolute is a path, and stays if nothing in it is to be resolved. -/
theorem specifier_twice_iff (hdir : Path.isAbsolute dir = true) (specifier : String) :
    Path.namesPath (Path.withSlashes (Path.absolutize specifier dir)) = true ∧
      (Path.withSlashes (Path.absolutize (Path.withSlashes (Path.absolutize specifier dir)) next) =
          Path.withSlashes (Path.absolutize specifier dir) ↔
        Path.Settled (Path.withSlashes (Path.absolutize specifier dir))) := by
  have habsolute : Path.isAbsolute (Path.absolutize specifier dir) = true := by
    rw [Path.absolutize_eq hdir]
    exact Path.isAbsolute_through _
  have hslashed := Path.isAbsolute_withSlashes habsolute
  constructor
  · simp [Path.namesPath, hslashed]
  · rw [Path.absolutize, if_pos hslashed, Path.withSlashes_twice_iff habsolute]

theorem plugins_twice_iff (hdir : Path.isAbsolute dir = true) (next : String) :
    ((c.anchorPaths dir).anchorPaths next).plugins = (c.anchorPaths dir).plugins ↔
      ∀ specifier, .lookup specifier ∈ c.plugins → Path.namesPath specifier = true →
        Path.Settled (Path.withSlashes (Path.absolutize specifier dir)) := by
  rw [anchorPaths, anchorPaths]
  simp only [List.map_map, List.map_inj_left, Function.comp_apply]
  constructor
  · intro h specifier hmem hpath
    obtain ⟨hnames, hiff⟩ := specifier_twice_iff hdir specifier
    have hentry := h _ hmem
    simp only [hpath, if_true, hnames, PluginEntry.lookup.injEq] at hentry
    exact hiff.1 hentry
  · intro h entry hmem
    cases entry with
    | attached handle plugin => rfl
    | lookup specifier =>
        by_cases hpath : Path.namesPath specifier = true
        · obtain ⟨hnames, hiff⟩ := specifier_twice_iff hdir specifier
          simp only [hpath, if_true, hnames, PluginEntry.lookup.injEq]
          exact hiff.2 (h specifier hmem hpath)
        · simp [hpath]

/-- Exactly when taking the paths of a configuration from another directory changes nothing. -/
theorem anchorPaths_twice_iff (hdir : Path.isAbsolute dir = true) :
    (c.anchorPaths dir).anchorPaths next = c.anchorPaths dir ↔ c.Stays dir next := by
  constructor
  · intro h
    exact ⟨(ignoreFiles_twice_iff hdir).1 (congrArg (·.ignoreFiles) h) _,
      (plugins_twice_iff hdir next).1 (congrArg (·.plugins) h) _⟩
  · rintro ⟨hglobs, hplugins⟩
    have hignore := (ignoreFiles_twice_iff hdir).2 fun globs => hglobs
    have hentries := (plugins_twice_iff hdir next).2 fun specifier => hplugins
    -- nothing else in the configuration is touched
    simp only [anchorPaths] at hignore hentries ⊢
    rw [hignore, hentries]

/-- Paths without backslashes stay, as far as no glob stands for the root. -/
theorem stays_of_not_mem (hdir : Path.isAbsolute dir = true) (hslash : '\\' ∉ dir.toList)
    (hglobs : ∀ globs, c.ignoreFiles = some globs → ∀ g ∈ globs,
      '\\' ∉ (splitNegation g).2.toList ∧ Path.place dir (splitNegation g).2 ≠ [])
    (hplugins : ∀ specifier, .lookup specifier ∈ c.plugins → '\\' ∉ specifier.toList) :
    c.Stays dir next := by
  refine ⟨fun h g hg => ?_, fun h hpath => ?_⟩
  · obtain ⟨hglob, hne⟩ := hglobs _ h g hg
    exact Glob.stays_of_not_mem hdir hslash hglob hne
  · have hplain := Discovery.not_mem_place hslash (hplugins _ h)
    rw [Path.absolutize_eq hdir, Glob.withSlashes_of_not_mem (Glob.not_mem_through hplain)]
    exact Path.settled_through (Path.isName_place dir _)

/-- Paths that were taken from the directory of their configuration stay through all levels above
it, as far as no backslash turns on the way and no glob stands for the root. -/
theorem anchorPaths_keeps (hdir : Path.isAbsolute dir = true) :
    (∀ next, (c.anchorPaths dir).anchorPaths next = c.anchorPaths dir ↔ c.Stays dir next) ∧
      ∀ levels : List String, (∀ next ∈ levels, c.Stays dir next) →
        levels.foldl anchorPaths (c.anchorPaths dir) = c.anchorPaths dir := by
  refine ⟨fun next => anchorPaths_twice_iff hdir, fun levels hlevels => ?_⟩
  induction levels with
  | nil => rfl
  | cons next levels ih =>
      rw [List.foldl_cons, (anchorPaths_twice_iff hdir).2 (hlevels next List.mem_cons_self)]
      exact ih fun own hown => hlevels own (List.mem_cons_of_mem _ hown)

def fragment : Config where
  ignoreFiles := some ["!../lib/*.css", "**/{a,b}[!c].css", "/q/./x/../*.css", "../.."]
  plugins := [.lookup "./rules", .lookup "../shared", .lookup "acme"]
  bases := []
  overrides := []

theorem anchorPaths_keeps_fragment :
    (fragment.anchorPaths "/w/p[1]/sub").ignoreFiles =
        some ["!/w/p[[]1[]]/lib/*.css", "/w/p[[]1[]]/sub/**/{a,b}[!c].css", "/q/*.css", "/w"] ∧
      ["/w/p[1]", "/"].foldl anchorPaths (fragment.anchorPaths "/w/p[1]/sub") =
        fragment.anchorPaths "/w/p[1]/sub" := by
  refine ⟨by decide +kernel, (anchorPaths_keeps (by decide)).2 _ fun next _ => ?_⟩
  refine stays_of_not_mem (by decide) (by decide) ?_ ?_
  · intro globs hglobs
    obtain rfl := Option.some.inj hglobs
    decide +kernel
  · intro specifier hspecifier
    simp only [fragment, List.mem_cons, PluginEntry.lookup.injEq, List.not_mem_nil, or_false]
      at hspecifier
    rcases hspecifier with rfl | rfl | rfl <;> decide

/-- A configuration that ignores a file with a star in its name, and its own directory. -/
def escaping : Config where
  ignoreFiles := some ["\\*.css", "."]
  bases := []
  overrides := []

/-- On the second level an escape becomes a separator, and the root becomes another directory. -/
theorem anchorPaths_twice_turns :
    (escaping.anchorPaths "/p").ignoreFiles = some ["/p/\\*.css", "/p"] ∧
      ((escaping.anchorPaths "/p").anchorPaths "/q").ignoreFiles = some ["/p//*.css", "/p"] ∧
      (escaping.anchorPaths "/").ignoreFiles = some ["/\\*.css", ""] ∧
      ((escaping.anchorPaths "/").anchorPaths "/q").ignoreFiles = some ["//*.css", "/q"] ∧
      (escaping.anchorPaths "/p").anchorPaths "/q" ≠ escaping.anchorPaths "/p" := by
  have hfirst : (escaping.anchorPaths "/p").ignoreFiles = some ["/p/\\*.css", "/p"] := by
    decide +kernel
  have hsecond : ((escaping.anchorPaths "/p").anchorPaths "/q").ignoreFiles =
      some ["/p//*.css", "/p"] := by decide +kernel
  refine ⟨hfirst, hsecond, by decide +kernel, by decide +kernel, fun h => ?_⟩
  rw [h, hfirst] at hsecond
  exact absurd hsecond (by decide)

end Config

end StyleAudit
