import StyleAudit.Glob.PatternSet
import StyleAudit.Proofs.Paths

/-!
Where paths lead without a look at files.

The steps of a path lead from the names of one directory to those of another. The normal form of
an absolute path spells the names that its steps lead to from the root. That of a relative path
climbs first and then goes down, and leads from every directory to where the path leads.
-/

namespace StyleAudit.Path

def steps (p : String) : List Component :=
  ((segments p.toList).filter fun s => !isVoid s).map Component.ofSegment

theorem isStep_steps (p : String) : ∀ c ∈ steps p, IsStep c := by
  intro c hc
  obtain ⟨s, hs, rfl⟩ := List.mem_map.1 hc
  obtain ⟨hmem, hvoid⟩ := List.mem_filter.1 hs
  exact isStep_ofSegment (by simpa using hvoid) (not_mem_of_mem_segments hmem)

theorem mem_of_mem_segments {cs s : List Char} (h : s ∈ segments cs) : s ⊆ cs := by
  induction cs generalizing s with
  | nil =>
      rw [segments, List.mem_singleton] at h
      subst h
      exact List.nil_subset _
  | cons c cs ih =>
      rw [segments] at h
      split_ifs at h with hc
      · rcases List.mem_cons.1 h with rfl | h
        · exact List.nil_subset _
        · exact List.Subset.trans (ih h) (List.subset_cons_self _ _)
      · split at h
        case h_1 =>
            rw [List.mem_singleton.1 h]
            exact List.cons_subset_cons _ (List.nil_subset _)
        case h_2 first rest hparts =>
            rcases List.mem_cons.1 h with rfl | h
            · exact List.cons_subset_cons _ (ih (hparts ▸ List.mem_cons_self))
            · have hrest := ih (hparts ▸ List.mem_cons_of_mem _ h)
              exact List.Subset.trans hrest (List.subset_cons_self _ _)

/-- The names of a path are made of its characters. -/
theorem subset_of_mem_steps {p name : String} (h : .normal name ∈ steps p) :
    name.toList ⊆ p.toList := by
  obtain ⟨s, hs, heq⟩ := List.mem_map.1 h
  rw [Component.ofSegment] at heq
  split_ifs at heq
  obtain rfl := Component.normal.inj heq
  rw [String.toList_ofList]
  exact mem_of_mem_segments (List.mem_filter.1 hs).1

theorem isAbsolute_iff {p : String} : isAbsolute p = true ↔ p.toList.head? = some '/' :=
  beq_iff_eq

theorem components_of_isAbsolute {p : String} (h : isAbsolute p = true) :
    components p = .root :: steps p := by
  rw [components, if_pos h, steps]

theorem components_of_relative {p : String} (h : isAbsolute p = false) :
    components p = .current :: steps p ∨ components p = steps p := by
  rw [components, if_neg (by simp [h]), steps]
  split_ifs
  · exact .inl rfl
  · exact .inr rfl

theorem segments_ne_nil (cs : List Char) : segments cs ≠ [] := by
  rw [segments_eq_splitOn]
  exact List.splitOn_ne_nil '/' cs

theorem segments_append (cs ds : List Char) :
    segments (cs ++ '/' :: ds) = segments cs ++ segments ds := by
  induction cs with
  | nil => rfl
  | cons c cs ih =>
      rw [List.cons_append, segments, segments, ih]
      by_cases hc : c = '/'
      · rw [if_pos hc, if_pos hc, List.cons_append]
      · rw [if_neg hc, if_neg hc]
        cases hparts : segments cs with
        | nil => exact absurd hparts (segments_ne_nil cs)
        | cons s parts => rfl

theorem joinSegments_cons (s : List Char) {parts : List (List Char)} (h : parts ≠ []) :
    joinSegments (s :: parts) = s ++ '/' :: joinSegments parts := by
  obtain ⟨t, parts, rfl⟩ := List.exists_cons_of_ne_nil h
  rfl

theorem joinSegments_append {xs ys : List (List Char)} (hxs : xs ≠ []) (hys : ys ≠ []) :
    joinSegments (xs ++ ys) = joinSegments xs ++ '/' :: joinSegments ys := by
  induction xs with
  | nil => exact absurd rfl hxs
  | cons x xs ih =>
      by_cases hne : xs = []
      · rw [hne, List.singleton_append, joinSegments_cons x hys]
        rfl
      · rw [List.cons_append, joinSegments_cons x (by simp [hne]), ih hne, joinSegments_cons x hne,
          List.append_assoc, List.cons_append]

theorem mem_joinSegments {c : Char} {parts : List (List Char)} (h : c ∈ joinSegments parts) :
    c = '/' ∨ ∃ s ∈ parts, c ∈ s := by
  induction parts with
  | nil => cases h
  | cons s parts ih =>
      by_cases hne : parts = []
      · rw [hne] at h
        exact .inr ⟨s, List.mem_cons_self, h⟩
      · rw [joinSegments_cons s hne, List.mem_append, List.mem_cons] at h
        rcases h with hs | hslash | hrest
        · exact .inr ⟨s, List.mem_cons_self, hs⟩
        · exact .inl hslash
        · refine (ih hrest).imp_right ?_
          rintro ⟨t, ht, hc⟩
          exact ⟨t, List.mem_cons_of_mem _ ht, hc⟩

theorem joinSegments_segments (cs : List Char) : joinSegments (segments cs) = cs := by
  rw [joinSegments_eq_intercalate, segments_eq_splitOn, List.intercalate_splitOn]

theorem steps_append (p q : String) : steps (p ++ "/" ++ q) = steps p ++ steps q := by
  have htext : (p ++ "/" ++ q).toList = p.toList ++ '/' :: q.toList := by
    rw [String.toList_append, String.toList_append, List.append_assoc]
    rfl
  rw [steps, htext, segments_append, List.filter_append, List.map_append, steps, steps]

/-- Names begin with others if and only if their components from the root do. -/
theorem rooted_prefix_iff {own names : List String} :
    (.root :: own.map .normal) <+: (Component.root :: names.map .normal) ↔ own <+: names := by
  rw [List.cons_prefix_cons]
  constructor
  · rintro ⟨-, h⟩
    obtain ⟨other, hother, hsame⟩ := List.prefix_map_iff.1 h
    have hinjective : Function.Injective Component.normal := fun _ _ => Component.normal.inj
    rwa [List.map_injective_iff.2 hinjective hsame]
  · exact fun h => ⟨rfl, h.map _⟩

/-- Where one component leads from the names of a directory. -/
def stepNames (names : List String) : Component → List String
  | .root => []
  | .current => names
  | .parent => names.dropLast
  | .normal name => names ++ [name]

def walkNames (names : List String) (cs : List Component) : List String :=
  cs.foldl stepNames names

variable {names : List String} {cs : List Component}

theorem walkNames_cons (names : List String) (c : Component) (cs : List Component) :
    walkNames names (c :: cs) = walkNames (stepNames names c) cs :=
  rfl

theorem walkNames_append (names : List String) (cs ds : List Component) :
    walkNames names (cs ++ ds) = walkNames (walkNames names cs) ds :=
  List.foldl_append

/-- Names lead down to themselves. -/
theorem walkNames_normal (names more : List String) :
    walkNames names (more.map .normal) = names ++ more := by
  induction more generalizing names with
  | nil => simp [walkNames]
  | cons name more ih =>
      rw [List.map_cons, walkNames_cons, ih, stepNames, List.append_assoc, List.singleton_append]

/-- A name that is reached was there before or stands on the way. -/
theorem mem_walkNames {name : String} (h : name ∈ walkNames names cs) :
    name ∈ names ∨ .normal name ∈ cs := by
  induction cs generalizing names with
  | nil => exact .inl h
  | cons c cs ih =>
      rcases ih h with hname | hname
      · cases c with
        | root => cases hname
        | current => exact .inl hname
        | parent => exact .inl (List.dropLast_subset _ hname)
        | normal own =>
            refine (List.mem_append.1 hname).imp_right fun hown => ?_
            rw [List.mem_singleton.1 hown]
            exact List.mem_cons_self
      · exact .inr (List.mem_cons_of_mem _ hname)

/-- The names that a path leads to from the root are made of its characters. -/
theorem subset_of_mem_walkNames {p name : String} (h : name ∈ walkNames [] (steps p)) :
    name.toList ⊆ p.toList :=
  subset_of_mem_steps ((mem_walkNames h).resolve_left List.not_mem_nil)

theorem isName_walkNames (hnames : ∀ n ∈ names, IsName n) (hcs : ∀ c ∈ cs, IsStep c) :
    ∀ n ∈ walkNames names cs, IsName n := by
  intro n hn
  rcases mem_walkNames hn with hn | hn
  · exact hnames n hn
  · cases hcs _ hn with
    | normal hname => exact hname

/-- Resolving components on top of the names of a directory gives where they lead. -/
theorem resolve_rooted (names : List String) (hcs : ∀ c ∈ cs, IsStep c) :
    resolve ((names.map .normal).reverse ++ [.root]) cs =
      .root :: (walkNames names cs).map .normal := by
  induction cs generalizing names with
  | nil => simp [resolve, walkNames]
  | cons c cs ih =>
      have hrest : ∀ d ∈ cs, IsStep d := fun d hd => hcs d (List.mem_cons_of_mem _ hd)
      cases hcs c List.mem_cons_self with
      | parent =>
          rcases List.eq_nil_or_concat' names with rfl | ⟨init, last, rfl⟩
          · exact ih [] hrest
          · have hinit := ih init hrest
            rw [walkNames_cons, stepNames, List.dropLast_concat, ← hinit]
            simp [resolve]
      | @normal name hname =>
          have hmore := ih (names ++ [name]) hrest
          rw [walkNames_cons, stepNames, ← hmore]
          simp [resolve]

theorem normalized_of_isAbsolute {p : String} (h : isAbsolute p = true) :
    normalized p = .root :: (walkNames [] (steps p)).map .normal := by
  rw [normalized, components_of_isAbsolute h, resolve_root]
  exact resolve_rooted [] (isStep_steps p)

/-- The normal form of an absolute path spells the names that the path leads to. -/
theorem normalize_of_isAbsolute {p : String} (h : isAbsolute p = true) :
    normalize p = through (walkNames [] (steps p)) := by
  rw [normalize, normalized_of_isAbsolute h]
  exact render_rooted _

def place (base p : String) : List String :=
  walkNames (if isAbsolute p then [] else walkNames [] (steps base)) (steps p)

theorem isName_place (base p : String) : ∀ n ∈ place base p, IsName n := by
  refine isName_walkNames ?_ (isStep_steps p)
  split_ifs
  · exact List.forall_mem_nil _
  · exact isName_walkNames (List.forall_mem_nil _) (isStep_steps base)

theorem isAbsolute_append {p : String} (h : p ≠ "") (rest : String) :
    isAbsolute (p ++ rest) = isAbsolute p := by
  rw [isAbsolute, isAbsolute, String.toList_append, List.head?_append_of_ne_nil]
  simpa using h

/-- A directory in front of a relative path is the first part of the way. -/
theorem steps_join (base : String) {p : String} (hp : isAbsolute p = false) :
    steps (join base p) = steps base ++ steps p := by
  have hvoid : steps "" = [] := rfl
  by_cases hne : base = ""
  · rw [hne, hvoid, join, if_pos (by simp), List.nil_append]
  · rw [join, if_neg (by simp [hp, hne])]
    split_ifs with hslash
    · obtain ⟨init, hinit⟩ : ∃ init, base = init ++ "/" := by
        refine ⟨String.ofList base.toList.dropLast, String.toList_inj.1 ?_⟩
        rw [String.toList_append, String.toList_ofList]
        exact (List.dropLast_append_getLast? _ hslash).symm
      have htrailing : steps (init ++ "/") = steps init := by
        have happend := steps_append init ""
        rwa [String.append_empty, hvoid, List.append_nil] at happend
      rw [hinit, steps_append, htrailing]
    · exact steps_append base p

/-- A relative path behind a directory is as absolute as the directory. -/
theorem isAbsolute_join (base : String) {p : String} (hp : isAbsolute p = false) :
    isAbsolute (join base p) = isAbsolute base := by
  by_cases hne : base = ""
  · rw [hne, join, if_pos (by simp), hp]
    rfl
  · rw [join, if_neg (by simp [hp, hne])]
    split_ifs
    · exact isAbsolute_append hne p
    · rw [String.append_assoc, isAbsolute_append hne]

theorem absolutize_eq {base : String} (hbase : isAbsolute base = true) (p : String) :
    absolutize p base = through (place base p) := by
  rw [absolutize, place]
  by_cases hp : isAbsolute p = true
  · rw [if_pos hp, if_pos hp, normalize_of_isAbsolute hp]
  · rw [if_neg hp, if_neg hp]
    have hrelative : isAbsolute p = false := Bool.not_eq_true _ ▸ hp
    have habsolute := (isAbsolute_join base hrelative).trans hbase
    rw [normalize_of_isAbsolute habsolute, steps_join base hrelative, walkNames_append]

/-- Resolving a relative path leaves where it leads. -/
theorem walkNames_resolve (names : List String) {stack : List Component}
    (hstack : ∀ c ∈ stack, IsStep c) (hcs : ∀ c ∈ cs, IsStep c) :
    walkNames names (resolve stack cs) = walkNames (walkNames names stack.reverse) cs := by
  induction cs generalizing stack with
  | nil => rfl
  | cons c cs ih =>
      have hrest : ∀ d ∈ cs, IsStep d := fun d hd => hcs d (List.mem_cons_of_mem _ hd)
      have hpush (hc : IsStep c) : walkNames names (resolve (c :: stack) cs) =
          walkNames (walkNames names stack.reverse) (c :: cs) := by
        rw [ih (List.forall_mem_cons.2 ⟨hc, hstack⟩) hrest, List.reverse_cons, walkNames_append]
        rfl
      cases hcs c List.mem_cons_self with
      | normal hname => exact hpush (.normal hname)
      | parent =>
          unfold resolve
          split
          case h_1 name rest =>
              rw [ih (fun d hd => hstack d (List.mem_cons_of_mem _ hd)) hrest, List.reverse_cons,
                walkNames_append]
              simp [walkNames, stepNames]
          case h_2 => cases hstack _ List.mem_cons_self
          case h_3 => exact hpush .parent

def Reduced (cs : List Component) : Prop :=
  ∃ (climbs : Nat) (names : List String),
    cs = List.replicate climbs .parent ++ names.map .normal

theorem reduced_resolve (climbs : Nat) (names : List String) (hcs : ∀ c ∈ cs, IsStep c) :
    Reduced (resolve (names.map .normal ++ List.replicate climbs .parent) cs) := by
  induction cs generalizing names climbs with
  | nil =>
      exact ⟨climbs, names.reverse, by simp [resolve]⟩
  | cons c cs ih =>
      have hrest : ∀ d ∈ cs, IsStep d := fun d hd => hcs d (List.mem_cons_of_mem _ hd)
      cases hcs c List.mem_cons_self with
      | @normal name hname => exact ih climbs (name :: names) hrest
      | parent =>
          cases names with
          | cons name names => exact ih climbs names hrest
          | nil =>
              have hclimb := ih (climbs + 1) [] hrest
              cases climbs with
              | zero => exact hclimb
              | succ climbs => exact hclimb

/-- The normal form of a relative path climbs, then goes down to where the path leads. -/
theorem normalized_relative {p : String} (h : isAbsolute p = false) :
    Reduced (normalized p) ∧
      ∀ names, walkNames names (normalized p) = walkNames names (steps p) := by
  have hnormal : normalized p = resolve [] (steps p) := by
    rw [normalized]
    rcases components_of_relative h with hp | hp
    · rw [hp, resolve]
    · rw [hp]
  rw [hnormal]
  exact ⟨reduced_resolve 0 [] (isStep_steps p),
    fun names => walkNames_resolve names (List.forall_mem_nil _) (isStep_steps p)⟩

/-- Names on the way from the root, each behind a separator. -/
def spelled (names : List String) : List Char :=
  names.flatMap fun n => '/' :: n.toList

theorem spelled_cons (name : String) (names : List String) :
    spelled (name :: names) = '/' :: name.toList ++ spelled names :=
  List.flatMap_cons

theorem spelled_append (names more : List String) :
    spelled (names ++ more) = spelled names ++ spelled more :=
  List.flatMap_append

theorem spelled_eq (names : List String) (hne : names ≠ []) :
    spelled names = '/' :: joinSegments (names.map String.toList) := by
  induction names with
  | nil => exact absurd rfl hne
  | cons name more ih =>
      rw [spelled_cons]
      cases more with
      | nil => simp [spelled, joinSegments]
      | cons next more =>
          rw [ih (List.cons_ne_nil _ _)]
          rfl

theorem toList_through_of_ne_nil (hne : names ≠ []) : (through names).toList = spelled names := by
  rw [toList_through, spelled_eq names hne]

theorem ofList_spelled (hne : names ≠ []) : String.ofList (spelled names) = through names := by
  rw [← toList_through_of_ne_nil hne, String.ofList_toList]

theorem spelled_concat (names : List String) (name : String) :
    String.ofList (spelled (names ++ [name])) = String.ofList (spelled names) ++ "/" ++ name := by
  rw [← String.toList_inj, String.toList_ofList, spelled_append, String.toList_append,
    String.toList_append, String.toList_ofList, List.append_assoc]
  simp [spelled]

/-- Nothing is above the root, and otherwise the last name goes. -/
theorem climb_through (hnames : ∀ n ∈ names, IsName n) (climbs : Nat) (down : List String) :
    Glob.climb (through names) (List.replicate climbs .parent ++ down.map .normal) =
      (through (walkNames names (List.replicate climbs .parent)), down.map .normal) := by
  induction climbs generalizing names with
  | zero =>
      rw [List.replicate_zero, List.nil_append]
      cases down <;> rfl
  | succ climbs ih =>
      rw [List.replicate_succ, List.cons_append, Glob.climb]
      have hparent : (parent? (through names)).getD (through names) = through names.dropLast := by
        rcases List.eq_nil_or_concat' names with rfl | ⟨init, last, rfl⟩
        · rfl
        · rw [parent?_through hnames, List.dropLast_concat, Option.getD_some]
      rw [hparent, ih fun n hn => hnames n (List.dropLast_subset _ hn)]
      rfl

def Component.mapName (f : String → String) : Component → Component
  | .normal name => .normal (f name)
  | c => c

/-- What happens to the names on the way happens to the names that are reached. -/
theorem map_walkNames (f : String → String) (names : List String) (cs : List Component) :
    (walkNames names cs).map f = walkNames (names.map f) (cs.map (Component.mapName f)) := by
  induction cs generalizing names with
  | nil => rfl
  | cons c cs ih =>
      rw [walkNames_cons, ih, List.map_cons, walkNames_cons]
      cases c <;> simp [stepNames, Component.mapName, List.map_dropLast]

theorem segments_spelled (hnames : ∀ n ∈ names, IsName n) :
    segments (spelled names) = [] :: names.map String.toList := by
  by_cases hne : names = []
  · rw [hne]
    rfl
  · rw [← toList_through_of_ne_nil hne, segments_through hne hnames]

theorem spelled_subset (names : List String) : spelled names ⊆ (through names).toList := by
  by_cases hne : names = []
  · rw [hne]
    exact List.nil_subset _
  · rw [toList_through_of_ne_nil hne]
    exact List.Subset.refl _

/-- A path that begins with a directory and a separator leads through that directory. -/
theorem names_of_through {more : List String} (hnames : ∀ n ∈ names, IsName n)
    (hmore : ∀ n ∈ more, IsName n) {x : String}
    (h : through more = String.ofList (spelled names) ++ "/" ++ x) :
    ∃ rest, more = names ++ rest ∧ "/" ++ x = through rest := by
  have htext : (through more).toList = spelled names ++ '/' :: x.toList := by
    rw [h, String.toList_append, String.toList_append, String.toList_ofList, List.append_assoc]
    rfl
  by_cases hne : more = []
  · subst hne
    rcases List.append_eq_singleton_iff.1 htext.symm with ⟨hempty, hlast⟩ | ⟨-, hlast⟩
    · obtain rfl : names = [] := by
        cases names with
        | nil => rfl
        | cons name names => cases hempty
      exact ⟨[], rfl, by rw [String.toList_eq_nil_iff.1 (List.cons.inj hlast).2]; rfl⟩
    · cases hlast
  · rw [toList_through_of_ne_nil hne] at htext
    have hparts := congrArg segments htext
    rw [segments_append, segments_spelled hmore, segments_spelled hnames, List.cons_append]
      at hparts
    obtain ⟨own, rest, rfl, hown, hrest⟩ := List.map_eq_append_iff.1 (List.cons.inj hparts).2
    obtain rfl := List.map_injective_iff.2 (fun _ _ => String.toList_inj.1) hown
    rw [spelled_append] at htext
    have hcs := List.append_cancel_left htext
    have hrestne : rest ≠ [] := by
      rintro rfl
      cases hcs
    refine ⟨rest, rfl, String.toList_inj.1 ?_⟩
    rw [toList_through_of_ne_nil hrestne, hcs, String.toList_append]
    rfl

theorem IsName.relative {name : String} (h : IsName name) : isAbsolute name = false := by
  rw [isAbsolute]
  cases htext : name.toList with
  | nil => rfl
  | cons c cs =>
      have hc : c ≠ '/' := by
        rintro rfl
        exact h.noSlash (by simp [htext])
      simpa using hc

theorem isAbsolute_of_through (hnames : ∀ n ∈ names, IsName n) {x : String}
    (h : "/" ++ x = through names) : isAbsolute x = false := by
  have htext : '/' :: x.toList = '/' :: joinSegments (names.map String.toList) := by
    rw [← toList_through, ← h, String.toList_append]
    rfl
  rw [isAbsolute, (List.cons.inj htext).2]
  cases names with
  | nil => rfl
  | cons name names =>
      have hname := hnames name List.mem_cons_self
      obtain ⟨c, cs, hhead⟩ := List.exists_cons_of_ne_nil fun hempty : name.toList = [] => by
        have hvoid := hname.noVoid
        rw [hempty] at hvoid
        cases hvoid
      have hrelative := hname.relative
      rw [isAbsolute, hhead, List.head?_cons] at hrelative
      cases names <;> simpa [joinSegments, hhead] using hrelative

/-- A name ends in a character that is no separator. -/
theorem IsName.last {name : String} (h : IsName name) :
    ∃ body c, name.toList = body ++ [c] ∧ c ≠ '/' := by
  rcases List.eq_nil_or_concat' name.toList with hnil | ⟨body, c, hbody⟩
  · have hvoid := h.noVoid
    rw [hnil] at hvoid
    cases hvoid
  · refine ⟨body, c, hbody, ?_⟩
    rintro rfl
    exact h.noSlash (by simp [hbody])

theorem getLast?_spelled (hnames : ∀ n ∈ names, IsName n) :
    (spelled names).getLast? ≠ some '/' := by
  rcases List.eq_nil_or_concat' names with rfl | ⟨init, last, rfl⟩
  · simp [spelled]
  · obtain ⟨body, c, hbody, hc⟩ := (hnames last (by simp)).last
    have htext : spelled (init ++ [last]) = (spelled init ++ '/' :: body) ++ [c] := by
      rw [spelled_append]
      simp [spelled, hbody]
    rw [htext, List.getLast?_concat, ne_eq, Option.some.injEq]
    exact hc

theorem join_through (hnames : ∀ n ∈ names, IsName n) {p : String} (hp : isAbsolute p = false) :
    join (through names) p = String.ofList (spelled names) ++ "/" ++ p := by
  by_cases hne : names = []
  · subst hne
    have hroot : through [] = "/" := rfl
    have hlast : "/".toList.getLast? = some '/' := rfl
    rw [join, hroot, if_neg (by simp [hp]), if_pos hlast]
    simp [spelled]
  · have htext := toList_through_of_ne_nil hne
    have hempty : through names ≠ "" := by
      intro heq
      rw [← String.toList_inj, toList_through] at heq
      cases heq
    have hlast := getLast?_spelled hnames
    rw [← htext] at hlast
    rw [join, if_neg (by simp [hp, hempty]), if_neg hlast, ← htext, String.ofList_toList]

end StyleAudit.Path
