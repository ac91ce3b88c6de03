import StyleAudit.Proofs.Anchoring
import StyleAudit.Proofs.Places

/-!
Where a search starts.

A search for a glob starts in the directory that the literal head of the glob leads to. That head
is the text that it stands for in escaped form, unless an exclamation mark is in brackets; so what
the glob matches lies below that directory, and the directory is found if anything below it is.
-/

namespace StyleAudit

namespace FileSystem

/-- Whether everything in the file system is found by the path that spells its names. -/
structure Reachable (fs : FileSystem) : Prop where
  proper : fs.Proper
  stat {entry : List String × Entry} (h : entry ∈ fs.entries) :
    fs.stat (Path.through entry.1) = .ok entry.2

instance (fs : FileSystem) : Decidable fs.Reachable :=
  decidable_of_iff (fs.Proper ∧ ∀ entry ∈ fs.entries,
      fs.stat (Path.through entry.1) = .ok entry.2)
    ⟨fun h => ⟨h.1, h.2 _⟩, fun h => ⟨h.proper, fun _ => h.stat⟩⟩

def PlainNames (fs : FileSystem) : Prop :=
  ∀ entry ∈ fs.entries, ∀ n ∈ entry.1, '\\' ∉ n.toList

instance (fs : FileSystem) : Decidable fs.PlainNames :=
  inferInstanceAs (Decidable (∀ entry ∈ fs.entries, ∀ n ∈ entry.1, '\\' ∉ n.toList))

variable {fs : FileSystem} {names head more : List String}

theorem mem_of_find? {e : Entry} {entries : List (List String × Entry)}
    (h : find? names entries = some e) : (names, e) ∈ entries := by
  induction entries with
  | nil => cases h
  | cons entry rest ih =>
      rw [find?] at h
      split_ifs at h with hn
      · rw [← hn, ← Option.some.inj h]
        exact List.mem_cons_self
      · exact List.mem_cons_of_mem _ (ih h)

theorem mem_of_kind (h : fs.kind names = .file) :
    ∃ content modified, (names, .file content modified) ∈ fs.entries := by
  obtain ⟨content, modified, hget⟩ := kind_eq_file.1 h
  rw [get?] at hget
  split at hget
  case isTrue => cases hget
  case isFalse => exact ⟨content, modified, mem_of_find? hget⟩

/-- A file is found by the path that spells its names. -/
theorem Reachable.locate (hfs : fs.Reachable) (h : fs.kind names = .file) :
    names ≠ [] ∧ (∀ n ∈ names, Path.IsName n) ∧ fs.locate (Path.through names) = .ok names := by
  obtain ⟨content, modified, hmem⟩ := mem_of_kind h
  obtain ⟨hne, hnames⟩ := hfs.proper.names hmem
  obtain ⟨place, hplace, -⟩ := stat_eq_ok.1 (hfs.stat hmem)
  obtain rfl := locate_through hne hnames hplace
  exact ⟨hne, hnames, hplace⟩

theorem Reachable.kind_of_mem (hfs : fs.Reachable) {content : Content} {modified : Nat}
    (h : (names, .file content modified) ∈ fs.entries) : fs.kind names = .file := by
  obtain ⟨hne, hnames⟩ := hfs.proper.names h
  obtain ⟨place, hplace, hget⟩ := stat_eq_ok.1 (hfs.stat h)
  obtain rfl := locate_through hne hnames hplace
  exact kind_eq_file.2 ⟨content, modified, hget⟩

theorem PlainNames.of_kind (hplain : fs.PlainNames) (h : fs.kind names = .file) :
    ∀ n ∈ names, '\\' ∉ n.toList := by
  obtain ⟨content, modified, hmem⟩ := mem_of_kind h
  exact hplain _ hmem

end FileSystem

namespace Path

variable {names : List String} {root : String}

/-- A path that leads through some names; a separator may follow them. -/
def Leads (names : List String) (root : String) : Prop :=
  root = String.ofList (spelled names) ++ "/" ∨ names ≠ [] ∧ root = String.ofList (spelled names)

theorem steps_spelled (hnames : ∀ n ∈ names, IsName n) :
    steps (String.ofList (spelled names)) = names.map .normal := by
  by_cases hne : names = []
  · rw [hne]
    rfl
  · have hcomponents := components_through hne hnames
    rw [components_of_isAbsolute (isAbsolute_through names)] at hcomponents
    rw [ofList_spelled hne, (List.cons.inj hcomponents).2]

theorem Leads.isAbsolute (h : Leads names root) : isAbsolute root = true := by
  rcases h with rfl | ⟨hne, rfl⟩
  · rw [Path.isAbsolute, String.toList_append, String.toList_ofList]
    cases names <;> rfl
  · rw [ofList_spelled hne]
    exact isAbsolute_through names

theorem Leads.components (h : Leads names root) (hnames : ∀ n ∈ names, IsName n) :
    components root = .root :: names.map .normal := by
  have habsolute := h.isAbsolute
  rcases h with rfl | ⟨hne, rfl⟩
  · have hvoid : steps "" = [] := rfl
    have hsteps := steps_append (String.ofList (spelled names)) ""
    rw [String.append_empty, hvoid, List.append_nil, steps_spelled hnames] at hsteps
    rw [components_of_isAbsolute habsolute, hsteps]
  · rw [ofList_spelled hne, components_through hne hnames]

/-- Joining one component goes on to it, unless it is empty. -/
theorem Leads.join (h : Leads names root) (hnames : ∀ n ∈ names, IsName n) {p : String}
    (hp : Path.isAbsolute p = false) :
    Path.join root p = String.ofList (spelled names) ++ "/" ++ p := by
  rcases h with rfl | ⟨hne, rfl⟩
  · have hempty : String.ofList (spelled names) ++ "/" ≠ "" := by
      intro heq
      simpa using congrArg String.toList heq
    have hlast : (String.ofList (spelled names) ++ "/").toList.getLast? = some '/' := by
      rw [String.toList_append]
      exact List.getLast?_concat
    rw [Path.join, if_neg (by simp [hp, hempty]), if_pos hlast]
  · rw [ofList_spelled hne, join_through hnames hp, ofList_spelled hne]

/-- What several components lead to, one after another; those that are empty do not count. -/
theorem Leads.foldl (h : Leads names root) (hnames : ∀ n ∈ names, IsName n)
    {parts : List (List Char)} (hparts : ∀ s ∈ parts, s = [] ∨ IsName (String.ofList s)) :
    Leads (names ++ (parts.filter (· ≠ [])).map String.ofList)
      ((parts.map String.ofList).foldl Path.join root) := by
  induction parts generalizing names root with
  | nil => simpa using h
  | cons s parts ih =>
      have hrest : ∀ t ∈ parts, t = [] ∨ IsName (String.ofList t) :=
        fun t ht => hparts t (List.mem_cons_of_mem _ ht)
      rw [List.map_cons, List.foldl_cons]
      rcases hparts s List.mem_cons_self with rfl | hs
      · have hjoin := h.join hnames (p := String.ofList []) rfl
        rw [hjoin]
        simpa using ih (.inl (by simp)) hnames hrest
      · have hne : s ≠ [] := by
          rintro rfl
          cases hs.noVoid
        have hjoin := h.join hnames hs.relative
        rw [← spelled_concat] at hjoin
        have hmore : ∀ n ∈ names ++ [String.ofList s], IsName n :=
          List.forall_mem_append.2 ⟨hnames, List.forall_mem_singleton.2 hs⟩
        rw [hjoin]
        simpa [hne] using ih (.inr ⟨by simp, rfl⟩) hmore hrest

end Path

namespace FileSystem

open StyleAudit.Path (Leads)

variable {fs : FileSystem} {head more : List String} {root : String}

theorem exists_append_of_leads (h : Leads head root) (hmore : more ≠ []) :
    root ≠ "" ∧ ∃ rest, Path.through (head ++ more) = root ++ rest := by
  have htext : Path.through (head ++ more) =
      String.ofList (Path.spelled head) ++ String.ofList (Path.spelled more) := by
    rw [← Path.ofList_spelled (by simp [hmore]), Path.spelled_append, ← String.toList_inj]
    simp
  rcases h with rfl | ⟨hne, rfl⟩
  · refine ⟨fun hempty => by simpa using congrArg String.toList hempty, ?_⟩
    obtain ⟨first, rest, rfl⟩ := List.exists_cons_of_ne_nil hmore
    refine ⟨String.ofList (first.toList ++ Path.spelled rest), ?_⟩
    rw [htext, ← String.toList_inj, Path.spelled_cons]
    simp
  · refine ⟨?_, _, htext⟩
    rw [Path.ofList_spelled hne]
    intro hempty
    have habsolute := Path.isAbsolute_through head
    rw [hempty] at habsolute
    cases habsolute

/-- A path that leads to a directory above a file is followed to that directory. -/
theorem locate_leads (hroot : Leads head root) (hnames : ∀ n ∈ head ++ more, Path.IsName n)
    (hmore : more ≠ []) (h : fs.locate (Path.through (head ++ more)) = .ok (head ++ more)) :
    fs.locate root = .ok head := by
  have hhead : ∀ n ∈ head, Path.IsName n := fun n hn => hnames n (List.mem_append_left _ hn)
  obtain ⟨hne, rest, htext⟩ := exists_append_of_leads hroot hmore
  rw [locate] at h
  split at h
  case h_1 => cases h
  case h_2 hfault =>
      rw [htext] at hfault
      rw [origin_through, Path.segments_through (by simp [hmore]) hnames,
        follow_void fs.get?_root] at h
      obtain ⟨first, more, rfl⟩ := List.exists_cons_of_ne_nil hmore
      obtain ⟨hfollow, hdirectory, -⟩ := follow_below hnames h
      rw [locate, pathFault?_prefix hne hfault, origin, if_pos hroot.isAbsolute]
      dsimp only
      rcases hroot with rfl | ⟨_, rfl⟩
      · have hvoid : Path.segments [] = [[]] := rfl
        have hsegments : Path.segments (String.ofList (Path.spelled head) ++ "/").toList =
            [] :: head.map String.toList ++ [[]] := by
          rw [String.toList_append, String.toList_ofList, ← Path.segments_spelled hhead, ← hvoid,
            ← Path.segments_append]
          rfl
        rw [hsegments, List.cons_append, follow_void fs.get?_root, follow_append, hfollow]
        exact follow_void hdirectory
      · rw [String.toList_ofList, Path.segments_spelled hhead, follow_void fs.get?_root, hfollow]

end FileSystem

namespace Discovery

open Glob (bracketed escape strict)
open StyleAudit.Path (IsName Leads)

theorem isMeta_iff {c : Char} : isMeta c = true ↔ Glob.isSpecial c = true ∨ c = '!' := by
  simp [isMeta]

/-- A literal component is its text in escaped form, unless an exclamation mark is in brackets. -/
theorem literal?_eq_some {s t : List Char} (h : literal? s = some t) :
    (∀ c ∈ t, c ∈ s ∧ c ≠ '\\') ∧ ('!' ∉ t → s = t.flatMap bracketed) := by
  fun_induction literal? s generalizing t with
  | case1 =>
      obtain rfl := Option.some.inj h
      exact ⟨List.forall_mem_nil _, fun _ => rfl⟩
  | case2 c rest hmeta ih =>
      obtain ⟨own, hown, rfl⟩ := Option.map_eq_some_iff.1 h
      obtain ⟨hsub, htext⟩ := ih hown
      have hc : c ≠ '\\' := by
        rintro rfl
        cases hmeta
      refine ⟨?_, fun hbang => ?_⟩
      · intro d hd
        rcases List.mem_cons.1 hd with rfl | hd
        · exact ⟨by simp, hc⟩
        · exact ⟨by simp [(hsub d hd).1], (hsub d hd).2⟩
      · obtain ⟨hne, hrest⟩ := not_or.1 (List.mem_cons.not.1 hbang)
        have hspecial := (isMeta_iff.1 hmeta).resolve_right (Ne.symm hne)
        rw [List.flatMap_cons, ← htext hrest, bracketed, if_pos hspecial]
        rfl
  | case3 => cases h
  | case4 => cases h
  | case5 c rest _ hplain ih =>
      obtain ⟨own, hown, rfl⟩ := Option.map_eq_some_iff.1 h
      obtain ⟨hsub, htext⟩ := ih hown
      rw [Bool.or_eq_true, not_or, isMeta_iff, not_or, beq_iff_eq] at hplain
      refine ⟨?_, fun hbang => ?_⟩
      · intro d hd
        rcases List.mem_cons.1 hd with rfl | hd
        · exact ⟨List.mem_cons_self, hplain.2⟩
        · exact ⟨List.mem_cons_of_mem _ (hsub d hd).1, (hsub d hd).2⟩
      · obtain ⟨-, hrest⟩ := not_or.1 (List.mem_cons.not.1 hbang)
        rw [List.flatMap_cons, ← htext hrest, bracketed, if_neg hplain.1.1]
        rfl

theorem mem_literalHead {parts : List (List Char)} {t : List Char} (h : t ∈ literalHead parts) :
    ∃ s ∈ parts, literal? s = some t := by
  fun_induction literalHead parts with
  | case1 => cases h
  | case2 => cases h
  | case3 s rest _ text htext ih =>
      rcases List.mem_cons.1 h with rfl | h
      · exact ⟨s, List.mem_cons_self, htext⟩
      · obtain ⟨own, hown, hliteral⟩ := ih h
        exact ⟨own, List.mem_cons_of_mem _ hown, hliteral⟩
  | case4 => cases h

/-- The literal components stand at the head of a glob, and others follow them. -/
theorem literalHead_append {parts : List (List Char)} (hne : parts ≠ [])
    (h : ∀ t ∈ literalHead parts, '!' ∉ t) :
    ∃ rest, rest ≠ [] ∧ parts = (literalHead parts).map (·.flatMap bracketed) ++ rest := by
  fun_induction literalHead parts with
  | case1 => exact absurd rfl hne
  | case2 s => exact ⟨[s], List.cons_ne_nil _ _, rfl⟩
  | case3 s rest hrest text htext ih =>
      obtain ⟨hfirst, hothers⟩ := List.forall_mem_cons.1 h
      obtain ⟨tail, htail, heq⟩ := ih (by simpa using hrest) hothers
      refine ⟨tail, htail, ?_⟩
      rw [List.map_cons, List.cons_append, ← heq, ← (literal?_eq_some htext).2 hfirst]
  | case4 s rest => exact ⟨s :: rest, List.cons_ne_nil _ _, rfl⟩

/-- The literal components at the head of an absolute glob, without the empty one in front. -/
def headParts (pattern : String) : List (List Char) :=
  (literalHead (Path.segments pattern.toList)).tail

/-- The names that the literal head of a glob leads to. -/
def headNames (pattern : String) : List String :=
  ((headParts pattern).filter (· ≠ [])).map String.ofList

/-- Whether the literal head of a glob holds no dot component and no exclamation mark. -/
def PlainHead (pattern : String) : Prop :=
  ∀ s ∈ literalHead (Path.segments pattern.toList), s ≠ ['.'] ∧ s ≠ ['.', '.'] ∧ '!' ∉ s

instance (pattern : String) : Decidable (PlainHead pattern) :=
  inferInstanceAs (Decidable (∀ s ∈ literalHead (Path.segments pattern.toList),
    s ≠ ['.'] ∧ s ≠ ['.', '.'] ∧ '!' ∉ s))

variable {pattern : String}

theorem literalHead_absolute (h : Path.isAbsolute pattern = true) :
    literalHead (Path.segments pattern.toList) = [] :: headParts pattern := by
  obtain ⟨cs, hcs⟩ : ∃ cs, pattern.toList = '/' :: cs := by
    obtain ⟨cs, hcs⟩ := List.head?_eq_some_iff.1 (Path.isAbsolute_iff.1 h)
    exact ⟨cs, hcs⟩
  obtain ⟨s, rest, hrest⟩ := List.exists_cons_of_ne_nil (Path.segments_ne_nil cs)
  have hsegments : Path.segments pattern.toList = [] :: s :: rest := by
    rw [hcs, ← hrest]
    rfl
  rw [headParts, hsegments]
  rfl

/-- The search for an absolute glob starts in the directory of the names at its head. -/
theorem leads_searchRoot (habsolute : Path.isAbsolute pattern = true) (hplain : PlainHead pattern) :
    (∀ n ∈ headNames pattern, IsName n) ∧ Leads (headNames pattern) (searchRoot pattern) := by
  have hhead := literalHead_absolute habsolute
  have hparts : ∀ s ∈ headParts pattern, s = [] ∨ IsName (String.ofList s) := by
    intro s hs
    have hmem : s ∈ literalHead (Path.segments pattern.toList) := by
      rw [hhead]
      exact List.mem_cons_of_mem _ hs
    obtain ⟨hdot, hparent, -⟩ := hplain s hmem
    obtain ⟨own, hown, hliteral⟩ := mem_literalHead hmem
    by_cases hempty : s = []
    · exact .inl hempty
    · refine .inr ⟨by simp [Path.isVoid, hempty, hdot], by simpa using hparent, ?_⟩
      rw [String.toList_ofList]
      exact fun hslash =>
        Path.not_mem_of_mem_segments hown ((literal?_eq_some hliteral).1 _ hslash).1
  constructor
  · intro n hn
    obtain ⟨s, hs, rfl⟩ := List.mem_map.1 hn
    obtain ⟨hmem, hne⟩ := List.mem_filter.1 hs
    exact (hparts s hmem).resolve_left (by simpa using hne)
  · have hroot : Leads [] "/" := .inl rfl
    rw [searchRoot, hhead]
    exact hroot.foldl (List.forall_mem_nil _) hparts

/-- An absolute glob is the escaped text of its literal head with a glob behind it. -/
theorem pattern_eq (habsolute : Path.isAbsolute pattern = true) (hplain : PlainHead pattern) :
    ∃ text rest, pattern = escape text ++ "/" ++ rest ∧ '\\' ∉ text.toList ∧
      Path.segments text.toList = [] :: headParts pattern := by
  have hhead := literalHead_absolute habsolute
  obtain ⟨tail, htail, hparts⟩ := literalHead_append (Path.segments_ne_nil pattern.toList)
    fun t ht => (hplain t ht).2.2
  have hmem {t : List Char} (ht : t ∈ [] :: headParts pattern) :
      ∃ s ∈ Path.segments pattern.toList, literal? s = some t :=
    mem_literalHead (hhead ▸ ht)
  rw [hhead] at hparts
  refine ⟨String.ofList (Path.joinSegments ([] :: headParts pattern)),
    String.ofList (Path.joinSegments tail), ?_, ?_, ?_⟩
  · rw [← String.toList_inj, Glob.toList_anchored, String.toList_ofList, String.toList_ofList,
      ← Glob.joinSegments_bracketed, ← Path.joinSegments_append (by simp) htail, ← hparts,
      Path.joinSegments_segments]
  · rw [String.toList_ofList]
    intro hslash
    rcases Path.mem_joinSegments hslash with hsep | ⟨t, ht, hc⟩
    · cases hsep
    · obtain ⟨s, -, hliteral⟩ := hmem ht
      exact ((literal?_eq_some hliteral).1 _ hc).2 rfl
  · rw [String.toList_ofList, Path.segments_joinSegments (by simp)]
    intro t ht hslash
    obtain ⟨s, hs, hliteral⟩ := hmem ht
    exact Path.not_mem_of_mem_segments hs ((literal?_eq_some hliteral).1 _ hslash).1

/-- What an absolute glob matches lies below the names at its head. -/
theorem headNames_of_isMatch (habsolute : Path.isAbsolute pattern = true)
    (hplain : PlainHead pattern) {g : Glob} (hparse : Glob.parse strict pattern = .ok g)
    {names : List String} (hne : names ≠ []) (hnames : ∀ n ∈ names, IsName n)
    (hmatch : g.isMatch (Path.through names) = true) :
    ∃ more, more ≠ [] ∧ names = headNames pattern ++ more := by
  obtain ⟨text, rest, htext, hslash, hsegments⟩ := pattern_eq habsolute hplain
  have hread := Glob.parse_anchored strict hslash rest
  rw [← htext, hparse] at hread
  cases hrest : Glob.parse strict rest with
  | error e =>
      rw [hrest] at hread
      cases hread
  | ok glob =>
      rw [hrest] at hread
      obtain ⟨full, hfull, hanchors⟩ := hread
      obtain rfl := Except.ok.inj hfull
      obtain ⟨x, hx⟩ := hanchors.below hmatch
      have hparts := congrArg (fun p => Path.segments p.toList) hx
      have htail : (text ++ "/" ++ x).toList = text.toList ++ '/' :: x.toList := by
        rw [String.toList_append, String.toList_append, List.append_assoc]
        rfl
      rw [Path.segments_through hne hnames, htail, Path.segments_append, hsegments,
        List.cons_append] at hparts
      obtain ⟨own, more, rfl, hown, hmore⟩ := List.map_eq_append_iff.1 (List.cons.inj hparts).2
      -- doubled separators at the head of a glob match no path that spells names
      have hkept : (headParts pattern).filter (· ≠ []) = headParts pattern := by
        refine List.filter_eq_self.2 fun s hs => ?_
        rw [← hown] at hs
        obtain ⟨n, hn, rfl⟩ := List.mem_map.1 hs
        have hvoid := (hnames n (List.mem_append_left _ hn)).noVoid
        refine decide_eq_true fun hempty => ?_
        rw [hempty] at hvoid
        cases hvoid
      have hheads : headNames pattern = own := by
        rw [headNames, hkept, ← hown, List.map_map]
        exact (List.map_congr_left fun n _ => String.ofList_toList).trans (List.map_id _)
      refine ⟨more, ?_, by rw [hheads]⟩
      rintro rfl
      exact Path.segments_ne_nil x.toList hmore.symm

end Discovery

end StyleAudit
