import StyleAudit.Discovery
import Mathlib.Data.List.Basic

/-!
Paths that are written as the names on the way from the root.

The files that a search finds come with such paths, every one of them once. Different paths of
this kind lead to different places.
-/

namespace StyleAudit

namespace Path

theorem segments_eq_splitOn (cs : List Char) : segments cs = cs.splitOn '/' := by
  induction cs with
  | nil => rfl
  | cons c cs ih =>
      rw [segments, List.splitOn_cons_eq_if_modifyHead, ih]
      by_cases hc : c = '/'
      · simp [hc]
      · cases hparts : cs.splitOn '/' with
        | nil => exact absurd hparts (List.splitOn_ne_nil '/' cs)
        | cons s parts => simp [hc]

theorem joinSegments_eq_intercalate (parts : List (List Char)) :
    joinSegments parts = ['/'].intercalate parts := by
  induction parts with
  | nil => rfl
  | cons s parts ih =>
      cases parts with
      | nil => simp [joinSegments]
      | cons t parts =>
          rw [joinSegments, ih, List.intercalate_cons_cons]
          · simp
          · simp

theorem segments_joinSegments {parts : List (List Char)} (hne : parts ≠ [])
    (hparts : ∀ s ∈ parts, '/' ∉ s) : segments (joinSegments parts) = parts := by
  rw [segments_eq_splitOn, joinSegments_eq_intercalate, List.splitOn_intercalate _ hparts hne]

/-- A name of a file or a directory; paths spell it as it is. -/
structure IsName (name : String) : Prop where
  noVoid : isVoid name.toList = false
  noParent : name.toList ≠ ['.', '.']
  noSlash : '/' ∉ name.toList

instance (name : String) : Decidable (IsName name) :=
  decidable_of_iff (isVoid name.toList = false ∧ name.toList ≠ ['.', '.'] ∧ '/' ∉ name.toList)
    ⟨fun ⟨hvoid, hparent, hslash⟩ => ⟨hvoid, hparent, hslash⟩,
      fun h => ⟨h.noVoid, h.noParent, h.noSlash⟩⟩

theorem IsName.ofSegment {name : String} (h : IsName name) :
    Component.ofSegment name.toList = .normal name := by
  rw [Component.ofSegment, if_neg h.noParent, String.ofList_toList]

inductive IsStep : Component → Prop
  | parent : IsStep .parent
  | normal {name : String} (h : IsName name) : IsStep (.normal name)

/-- What stands for a component between separators; nothing stands before the first one. -/
def Component.segment : Component → List Char
  | .root => []
  | c => c.text.toList

theorem IsStep.segment {c : Component} (h : IsStep c) :
    isVoid c.segment = false ∧ '/' ∉ c.segment ∧ Component.ofSegment c.segment = c := by
  cases h with
  | parent => exact ⟨rfl, by decide, rfl⟩
  | normal h => exact ⟨h.noVoid, h.noSlash, h.ofSegment⟩

theorem isStep_ofSegment {s : List Char} (hvoid : isVoid s = false) (hslash : '/' ∉ s) :
    IsStep (Component.ofSegment s) := by
  rw [Component.ofSegment]
  by_cases hparent : s = ['.', '.']
  · rw [if_pos hparent]
    exact .parent
  · rw [if_neg hparent]
    exact .normal ⟨by simpa using hvoid, by simpa using hparent, by simpa using hslash⟩

theorem not_mem_of_mem_segments {cs s : List Char} (h : s ∈ segments cs) : '/' ∉ s := by
  induction cs generalizing s with
  | nil =>
      rw [segments, List.mem_singleton] at h
      simp [h]
  | cons c cs ih =>
      rw [segments] at h
      by_cases hc : c = '/'
      · rw [if_pos hc] at h
        rcases List.mem_cons.1 h with rfl | h
        · simp
        · exact ih h
      · rw [if_neg hc] at h
        split at h
        · rw [List.mem_singleton.1 h]
          simpa using Ne.symm hc
        · rename_i first rest hsegments
          rw [hsegments] at ih
          rcases List.mem_cons.1 h with rfl | h
          · have hfirst := ih List.mem_cons_self
            simp [Ne.symm hc, hfirst]
          · exact ih (List.mem_cons_of_mem _ h)

/-- The components of a path are steps, after what tells where the path begins. -/
theorem components_eq (p : String) :
    ∃ steps, (∀ c ∈ steps, IsStep c) ∧ (components p = .root :: steps ∨
      components p = .current :: steps ∨ components p = steps) := by
  refine ⟨((segments p.toList).filter fun s => !isVoid s).map Component.ofSegment, ?_, ?_⟩
  · intro c hc
    obtain ⟨s, hs, rfl⟩ := List.mem_map.1 hc
    obtain ⟨hmem, hvoid⟩ := List.mem_filter.1 hs
    exact isStep_ofSegment (by simpa using hvoid) (not_mem_of_mem_segments hmem)
  · rw [components]
    split_ifs
    · exact .inl rfl
    · exact .inr (.inl rfl)
    · exact .inr (.inr rfl)

def IsNormal (cs : List Component) : Prop :=
  ∃ steps, (∀ c ∈ steps, IsStep c) ∧ (cs = steps ∨ cs = .root :: steps)

/-- What lies on the stack while a path is resolved, the top first. -/
def Piled (stack : List Component) : Prop :=
  ∃ steps, (∀ c ∈ steps, IsStep c) ∧ (stack = steps ∨ stack = steps ++ [.root])

theorem Piled.isNormal_reverse {stack : List Component} (h : Piled stack) :
    IsNormal stack.reverse := by
  obtain ⟨steps, hsteps, hstack⟩ := h
  refine ⟨steps.reverse, fun c hc => hsteps c (List.mem_reverse.1 hc), ?_⟩
  rcases hstack with rfl | rfl
  · exact .inl rfl
  · exact .inr (by simp)

theorem Piled.cons {c : Component} {stack : List Component} (h : Piled stack) (hc : IsStep c) :
    Piled (c :: stack) := by
  obtain ⟨steps, hsteps, hstack⟩ := h
  refine ⟨c :: steps, ?_, ?_⟩
  · intro d hd
    rcases List.mem_cons.1 hd with rfl | hd
    · exact hc
    · exact hsteps d hd
  · rcases hstack with rfl | rfl
    · exact .inl rfl
    · exact .inr rfl

theorem Piled.tail {name : String} {stack : List Component}
    (h : Piled (.normal name :: stack)) : Piled stack := by
  obtain ⟨steps, hsteps, hstack⟩ := h
  cases steps with
  | nil => simp at hstack
  | cons c steps =>
      refine ⟨steps, fun d hd => hsteps d (List.mem_cons_of_mem _ hd), ?_⟩
      rcases hstack with hstack | hstack
      · exact .inl (List.cons.inj hstack).2
      · exact .inr (List.cons.inj hstack).2

theorem isNormal_resolve {stack steps : List Component} (hstack : Piled stack)
    (hsteps : ∀ c ∈ steps, IsStep c) : IsNormal (resolve stack steps) := by
  induction steps generalizing stack with
  | nil => exact hstack.isNormal_reverse
  | cons c steps ih =>
      have hrest : ∀ d ∈ steps, IsStep d := fun d hd => hsteps d (List.mem_cons_of_mem _ hd)
      cases hsteps c List.mem_cons_self with
      | normal h => exact ih (hstack.cons (.normal h)) hrest
      | parent =>
          unfold resolve
          split
          · exact ih hstack.tail hrest
          · exact ih hstack hrest
          · exact ih (hstack.cons .parent) hrest

theorem resolve_root (stack cs : List Component) :
    resolve stack (.root :: cs) = resolve (.root :: stack) cs :=
  rfl

theorem isNormal_normalized (p : String) : IsNormal (normalized p) := by
  obtain ⟨steps, hsteps, hp | hp | hp⟩ := components_eq p
  · rw [normalized, hp, resolve_root]
    exact isNormal_resolve ⟨[], by simp, .inr rfl⟩ hsteps
  · rw [normalized, hp, resolve]
    exact isNormal_resolve ⟨[], by simp, .inl rfl⟩ hsteps
  · rw [normalized, hp]
    exact isNormal_resolve ⟨[], by simp, .inl rfl⟩ hsteps

theorem head?_segments_of_isAbsolute {p : String} (h : isAbsolute p = true) :
    (segments p.toList).head? = some [] := by
  rw [isAbsolute] at h
  cases hp : p.toList with
  | nil => simp [hp] at h
  | cons c cs =>
      obtain rfl : c = '/' := by simpa [hp] using h
      rfl

theorem map_ofSegment {steps : List Component} (hsteps : ∀ c ∈ steps, IsStep c) :
    (((steps.map Component.segment).filter fun s => !isVoid s).map Component.ofSegment) =
      steps := by
  have hkept : ((steps.map Component.segment).filter fun s => !isVoid s) =
      steps.map Component.segment := by
    refine List.filter_eq_self.2 fun s hs => ?_
    obtain ⟨c, hc, rfl⟩ := List.mem_map.1 hs
    simp [(hsteps c hc).segment.1]
  rw [hkept, List.map_map]
  exact (List.map_congr_left fun c hc => (hsteps c hc).segment.2.2).trans (List.map_id _)

theorem toList_intercalate_text {steps : List Component} (hsteps : ∀ c ∈ steps, IsStep c) :
    (String.intercalate "/" (steps.map Component.text)).toList =
      joinSegments (steps.map Component.segment) := by
  rw [String.toList_intercalate, joinSegments_eq_intercalate, List.map_map]
  refine congrArg _ (List.map_congr_left fun c hc => ?_)
  cases hsteps c hc <;> rfl

variable {cs : List Component}

/-- A normal form is written as what stands for its components, unless it is the root alone. -/
theorem toList_render (h : IsNormal cs) (hroot : cs ≠ [.root]) :
    (render cs).toList = joinSegments (cs.map Component.segment) := by
  obtain ⟨steps, hsteps, rfl | rfl⟩ := h
  · rw [← toList_intercalate_text hsteps]
    cases cs with
    | nil => rfl
    | cons c cs => cases hsteps c List.mem_cons_self <;> rfl
  · obtain ⟨first, rest, rfl⟩ := List.exists_cons_of_ne_nil fun hnil : steps = [] =>
      hroot (by rw [hnil])
    rw [render, String.toList_append, toList_intercalate_text hsteps]
    rfl

theorem segments_render (h : IsNormal cs) (hroot : cs ≠ [.root]) (hne : cs ≠ []) :
    segments (render cs).toList = cs.map Component.segment := by
  rw [toList_render h hroot]
  apply segments_joinSegments
  · simpa using hne
  · intro s hs
    obtain ⟨c, hc, rfl⟩ := List.mem_map.1 hs
    obtain ⟨steps, hsteps, rfl | rfl⟩ := h
    · exact (hsteps c hc).segment.2.1
    · rcases List.mem_cons.1 hc with rfl | hc
      · exact List.not_mem_nil
      · exact (hsteps c hc).segment.2.1

/-- A normal form is read back from the path that it is rendered to. -/
theorem components_render (h : IsNormal cs) (hne : cs ≠ []) : components (render cs) = cs := by
  by_cases hroot : cs = [.root]
  · rw [hroot]
    rfl
  · have hsegments := segments_render h hroot hne
    obtain ⟨steps, hsteps, rfl | rfl⟩ := h
    · obtain ⟨first, rest, rfl⟩ := List.exists_cons_of_ne_nil hne
      have hfirst := (hsteps first List.mem_cons_self).segment.1
      have habsolute : isAbsolute (render (first :: rest)) = false := by
        rw [Bool.eq_false_iff]
        intro htrue
        have hhead := head?_segments_of_isAbsolute htrue
        rw [hsegments, List.map_cons, List.head?_cons, Option.some.injEq] at hhead
        rw [hhead] at hfirst
        cases hfirst
      have hcurrent : (segments (render (first :: rest)).toList).head? ≠ some ['.'] := by
        rw [hsegments, List.map_cons, List.head?_cons]
        intro hhead
        rw [Option.some.inj hhead] at hfirst
        cases hfirst
      rw [components, habsolute, if_neg nofun, if_neg hcurrent, hsegments, map_ofSegment hsteps]
    · have habsolute : isAbsolute (render (.root :: steps)) = true := by
        rw [isAbsolute, render, String.toList_append]
        rfl
      rw [components, habsolute, if_pos rfl, hsegments, List.map_cons,
        List.filter_cons_of_neg (by decide), map_ofSegment hsteps]

theorem IsNormal.of_append {ds : List Component} (h : IsNormal (cs ++ ds)) : IsNormal cs := by
  obtain ⟨steps, hsteps, heq | heq⟩ := h
  · exact ⟨cs, fun c hc => hsteps c (heq ▸ List.mem_append_left _ hc), .inl rfl⟩
  · cases cs with
    | nil => exact ⟨[], List.forall_mem_nil _, .inl rfl⟩
    | cons c cs =>
        obtain ⟨rfl, rfl⟩ := List.cons.inj heq
        exact ⟨cs, fun c hc => hsteps c (List.mem_append_left _ hc), .inr rfl⟩

/-- Only the root alone ends in the root. -/
theorem IsNormal.isStep_last {c : Component} (h : IsNormal (cs ++ [c]))
    (hroot : cs ++ [c] ≠ [.root]) : IsStep c := by
  obtain ⟨steps, hsteps, heq | heq⟩ := h
  · exact hsteps c (heq ▸ by simp)
  · cases cs with
    | nil =>
        obtain ⟨rfl, rfl⟩ := List.cons.inj heq
        exact absurd rfl hroot
    | cons d cs =>
        obtain ⟨-, rfl⟩ := List.cons.inj heq
        exact hsteps c (by simp)

theorem trimEnd_append {s : List Char} (h : isVoid s = false) (parts : List (List Char)) :
    trimEnd (parts ++ [s]) = parts ++ [s] := by
  simp [trimEnd, h]

/-- A normal form that ends in a name lies in what comes before that name. -/
theorem parent?_render {name : String} (h : IsNormal (cs ++ [.normal name])) :
    parent? (render (cs ++ [.normal name])) = some (render cs) := by
  have hne : cs ++ [.normal name] ≠ [] := by simp
  have hroot : cs ++ [.normal name] ≠ [.root] := by
    intro heq
    simpa using congrArg List.getLast? heq
  rw [parent?, components_render h hne, segments_render h hroot hne, List.reverse_append,
    List.reverse_singleton, List.singleton_append, List.map_append, List.map_singleton,
    trimEnd_append (h.isStep_last hroot).segment.1, List.dropLast_concat]
  rcases List.eq_nil_or_concat' cs with rfl | ⟨init, c, rfl⟩
  · rfl
  · by_cases hrest : init ++ [c] = [.root]
    · rw [hrest]
      rfl
    · have hc := h.of_append.isStep_last hrest
      have htext := toList_render h.of_append hrest
      rw [List.map_append, List.map_singleton] at htext
      rw [List.reverse_append, List.reverse_singleton, List.singleton_append, List.map_append,
        List.map_singleton, trimEnd_append hc.segment.1, ← htext, String.ofList_toList]
      cases hc <;> rfl

/-- A path that is a normal form is rendered from its own components. -/
theorem render_components_normalize (p : String) :
    render (components (normalize p)) = normalize p := by
  rw [normalize]
  split
  · rfl
  · rename_i hne
    rw [components_render (isNormal_normalized p) hne]

theorem render_components_absolutize (p base : String) :
    render (components (absolutize p base)) = absolutize p base :=
  render_components_normalize _

def through (names : List String) : String :=
  "/" ++ String.intercalate "/" names

variable {names : List String}

theorem toList_through (names : List String) :
    (through names).toList = '/' :: joinSegments (names.map String.toList) := by
  rw [through, String.toList_append, String.toList_intercalate, joinSegments_eq_intercalate]
  rfl

theorem isAbsolute_through (names : List String) : isAbsolute (through names) = true := by
  rw [isAbsolute, toList_through]
  rfl

theorem render_rooted (names : List String) :
    render (.root :: names.map .normal) = through names := by
  rw [render, List.map_map, through]
  exact congrArg _ (congrArg _ (List.map_id _))

theorem isNormal_rooted (hnames : ∀ n ∈ names, IsName n) :
    IsNormal (.root :: names.map .normal) :=
  ⟨_, List.forall_mem_map.2 fun n hn => .normal (hnames n hn), .inr rfl⟩

theorem segments_through (hne : names ≠ []) (hnames : ∀ n ∈ names, IsName n) :
    segments (through names).toList = [] :: names.map String.toList := by
  rw [← render_rooted, segments_render (isNormal_rooted hnames) (by simpa using hne) nofun,
    List.map_cons, List.map_map]
  rfl

theorem components_through (hne : names ≠ []) (hnames : ∀ n ∈ names, IsName n) :
    components (through names) = .root :: names.map .normal := by
  have hkept : ((names.map String.toList).filter fun s => !isVoid s) = names.map String.toList := by
    refine List.filter_eq_self.2 fun s hs => ?_
    obtain ⟨n, hn, rfl⟩ := List.mem_map.1 hs
    simp [(hnames n hn).noVoid]
  have hbody : (names.map String.toList).map Component.ofSegment = names.map .normal := by
    rw [List.map_map]
    exact List.map_congr_left fun n hn => (hnames n hn).ofSegment
  have hfirst : isVoid [] = true := rfl
  rw [components, segments_through hne hnames, isAbsolute_through]
  simp [hfirst, hkept, hbody]

/-- Names below the root lie in the directory of all but the last. -/
theorem parent?_through {init : List String} {last : String}
    (hnames : ∀ n ∈ init ++ [last], IsName n) :
    parent? (through (init ++ [last])) = some (through init) := by
  have hnormal := isNormal_rooted hnames
  rw [List.map_append, ← List.cons_append] at hnormal
  rw [← render_rooted, ← render_rooted, List.map_append, ← List.cons_append]
  exact parent?_render hnormal

theorem render_components_through (hnames : ∀ n ∈ names, IsName n) :
    render (components (through names)) = through names := by
  rw [← render_rooted, components_render (isNormal_rooted hnames) nofun]

namespace Component

theorem le_total (a b : Component) : a.le b = true ∨ b.le a = true := by
  cases a <;> cases b <;> simp [le, rank]
  exact String.le_total _ _

theorem le_antisymm {a b : Component} (hab : a.le b = true) (hba : b.le a = true) : a = b := by
  cases a <;> cases b <;> simp_all [le, rank]
  exact String.le_antisymm hab hba

theorem le_trans {a b c : Component} (hab : a.le b = true) (hbc : b.le c = true) :
    a.le c = true := by
  cases a <;> cases b <;> cases c <;> simp_all [le, rank]
  exact String.le_trans hab hbc

end Component

theorem componentsLe_total (p q : List Component) :
    componentsLe p q = true ∨ componentsLe q p = true := by
  induction p generalizing q with
  | nil => exact .inl (by simp [componentsLe])
  | cons a p ih =>
      cases q with
      | nil => exact .inr (by simp [componentsLe])
      | cons b q =>
          by_cases hab : a = b
          · simpa [componentsLe, hab] using ih q
          · simpa [componentsLe, hab, Ne.symm hab] using a.le_total b

theorem componentsLe_antisymm {p q : List Component} (hpq : componentsLe p q = true)
    (hqp : componentsLe q p = true) : p = q := by
  induction p generalizing q with
  | nil =>
      cases q with
      | nil => rfl
      | cons b q => simp [componentsLe] at hqp
  | cons a p ih =>
      cases q with
      | nil => simp [componentsLe] at hpq
      | cons b q =>
          by_cases hab : a = b
          · simp only [componentsLe, hab, if_true] at hpq hqp
            rw [hab, ih hpq hqp]
          · simp only [componentsLe, hab, Ne.symm hab, if_false] at hpq hqp
            exact absurd (Component.le_antisymm hpq hqp) hab

theorem componentsLe_trans {p q r : List Component} (hpq : componentsLe p q = true)
    (hqr : componentsLe q r = true) : componentsLe p r = true := by
  induction p generalizing q r with
  | nil => simp [componentsLe]
  | cons a p ih =>
      match q, r, hpq, hqr with
      | [], _, hpq, _ => simp [componentsLe] at hpq
      | _ :: _, [], _, hqr => simp [componentsLe] at hqr
      | b :: q, c :: r, hpq, hqr =>
          rw [componentsLe] at hpq hqr ⊢
          by_cases hab : a = b <;> by_cases hbc : b = c
          · subst hab hbc
            rw [if_pos rfl] at hpq hqr ⊢
            exact ih hpq hqr
          · subst hab
            rwa [if_neg hbc] at hqr ⊢
          · subst hbc
            rwa [if_neg hab] at hpq ⊢
          · rw [if_neg hab] at hpq
            rw [if_neg hbc] at hqr
            have hac : a ≠ c := by
              rintro rfl
              exact hab (Component.le_antisymm hpq hqr)
            rw [if_neg hac]
            exact Component.le_trans hpq hqr

/-- Whether a path stands before another one in every sorted row. -/
def Before (p q : String) : Prop :=
  le p q = true ∧ components p ≠ components q

theorem Before.trans {p q r : String} (hpq : Before p q) (hqr : Before q r) : Before p r := by
  refine ⟨componentsLe_trans hpq.1 hqr.1, fun heq => hpq.2 ?_⟩
  have hqp : le q p = true := by
    rw [le, heq]
    exact hqr.1
  exact componentsLe_antisymm hpq.1 hqp

end Path

/-- Whether everything in the file system stands under names that paths can spell. -/
structure FileSystem.Proper (fs : FileSystem) : Prop where
  names {entry : List String × Entry} (h : entry ∈ fs.entries) :
    entry.1 ≠ [] ∧ ∀ n ∈ entry.1, Path.IsName n

instance (fs : FileSystem) : Decidable fs.Proper :=
  decidable_of_iff (∀ entry ∈ fs.entries, entry.1 ≠ [] ∧ ∀ n ∈ entry.1, Path.IsName n)
    ⟨fun h => ⟨h _⟩, fun h _ => h.names⟩

namespace Discovery

open StyleAudit.Path (Before)

theorem mem_insertPath {p x : String} {row : List String} (h : x ∈ insertPath p row) :
    x = p ∨ x ∈ row := by
  induction row with
  | nil => exact .inl (List.mem_singleton.1 h)
  | cons q row ih =>
      rw [insertPath] at h
      split at h
      · exact .inr h
      · split at h
        · exact List.mem_cons.1 h
        · rcases List.mem_cons.1 h with rfl | h
          · exact .inr List.mem_cons_self
          · exact (ih h).imp_right (List.mem_cons_of_mem _)

/-- Putting a path in its place keeps a row in order. -/
theorem pairwise_insertPath {p : String} {row : List String} (h : row.Pairwise Before) :
    (insertPath p row).Pairwise Before := by
  induction row with
  | nil => exact List.pairwise_singleton _ _
  | cons q row ih =>
      obtain ⟨hq, hrow⟩ := List.pairwise_cons.1 h
      rw [insertPath]
      split
      case isTrue => exact h
      case isFalse hne =>
          split
          case isTrue hle =>
              have hpq : Before p q := ⟨hle, Ne.symm hne⟩
              refine List.pairwise_cons.2 ⟨fun x hx => ?_, h⟩
              rcases List.mem_cons.1 hx with rfl | hx
              · exact hpq
              · exact hpq.trans (hq x hx)
          case isFalse hle =>
              refine List.pairwise_cons.2 ⟨fun x hx => ?_, ih hrow⟩
              rcases mem_insertPath hx with rfl | hx
              · exact ⟨(Path.componentsLe_total _ _).resolve_left hle, hne⟩
              · exact hq x hx

/-- Sorting gives a row in order, of some of the paths. -/
theorem sortPaths_spec (paths : List String) :
    (sortPaths paths).Pairwise Before ∧ ∀ p ∈ sortPaths paths, p ∈ paths := by
  have hfold (row : List String) (hrow : row.Pairwise Before) :
      (paths.foldl (fun row p => insertPath p row) row).Pairwise Before ∧
        ∀ p ∈ paths.foldl (fun row p => insertPath p row) row, p ∈ paths ∨ p ∈ row := by
    induction paths generalizing row with
    | nil => exact ⟨hrow, fun _ hp => .inr hp⟩
    | cons q paths ih =>
        obtain ⟨hsorted, hmem⟩ := ih (insertPath q row) (pairwise_insertPath hrow)
        refine ⟨hsorted, fun p hp => ?_⟩
        rcases hmem p hp with hp | hp
        · exact .inl (List.mem_cons_of_mem _ hp)
        · rcases mem_insertPath hp with rfl | hp
          · exact .inl List.mem_cons_self
          · exact .inr hp
  obtain ⟨hsorted, hmem⟩ := hfold [] List.Pairwise.nil
  exact ⟨hsorted, fun p hp => (hmem p hp).resolve_right nofun⟩

/-- A path that spells the names on the way from the root. -/
def Spelled (p : String) : Prop :=
  ∃ names, names ≠ [] ∧ (∀ n ∈ names, Path.IsName n) ∧ p = Path.through names

/-- What is found under a directory are files at or below it, spelled by their names. -/
theorem mem_filesUnder_iff {fs : FileSystem} {skip : Bool} {root p : String} :
    p ∈ filesUnder fs skip root ↔
      ∃ head names, fs.locate root = .ok head ∧ head <+: names ∧
        (∃ content modified, (names, .file content modified) ∈ fs.entries) ∧
        p = Path.through names ∧
        (skip = true → excludedDirectory ∉ (names.drop head.length).dropLast) := by
  have hbelow {head names : List String} : names ∈ fs.filesBelow head ↔ head <+: names ∧
      ∃ content modified, (names, .file content modified) ∈ fs.entries := by
    rw [FileSystem.filesBelow, List.mem_filterMap]
    constructor
    · rintro ⟨⟨own, e⟩, hmem, hsome⟩
      cases e with
      | directory => cases hsome
      | file content modified =>
          dsimp only at hsome
          split at hsome
          case isFalse => cases hsome
          case isTrue hhead =>
              obtain rfl := Option.some.inj hsome
              exact ⟨List.isPrefixOf_iff_prefix.1 hhead, content, modified, hmem⟩
    · rintro ⟨hhead, content, modified, hmem⟩
      exact ⟨_, hmem, if_pos (List.isPrefixOf_iff_prefix.2 hhead)⟩
  rw [filesUnder]
  cases hlocate : fs.locate root with
  | error fault => simp
  | ok head =>
      simp only [List.mem_map, List.mem_filter, hbelow, Except.ok.injEq]
      constructor
      · rintro ⟨names, ⟨⟨hhead, hfile⟩, hkept⟩, rfl⟩
        refine ⟨head, names, rfl, hhead, hfile, rfl, ?_⟩
        cases skip with
        | false => simp
        | true => simpa using hkept
      · rintro ⟨_, names, rfl, hhead, hfile, rfl, hkept⟩
        refine ⟨names, ⟨⟨hhead, hfile⟩, ?_⟩, rfl⟩
        cases skip with
        | false => rfl
        | true => simpa using hkept

/-- What a search finds is selected from what lies under its roots, and sorted. -/
theorem discover_eq_ok {fs : FileSystem} {skip : Bool} {wanted unwanted files : List String}
    (h : discover fs skip wanted unwanted = .ok files) :
    ∃ includes excludes, parseGlobs wanted = .ok includes ∧ parseGlobs unwanted = .ok excludes ∧
      files = sortPaths (((searchRoots wanted).flatMap (filesUnder fs skip)).filter
        (selects includes excludes)) := by
  rw [discover] at h
  simp only [bind, Except.bind, pure, Except.pure] at h
  split at h
  case h_1 => cases h
  case h_2 includes hincludes =>
      split at h
      case h_1 => cases h
      case h_2 excludes hexcludes =>
          exact ⟨includes, excludes, hincludes, hexcludes, (Except.ok.inj h).symm⟩

theorem run_eq_ok {fs : FileSystem} {entries : List String} {base : String} {keep : Bool}
    {found : Discovery} :
    run fs entries base keep = .ok found ↔
      found.patterns = patternsOf fs base keep entries ∧
        discover fs (!keep) (globsOf false base found.patterns)
          (globsOf true base found.patterns) = .ok found.files := by
  rw [run]
  simp only [bind, Except.bind, pure, Except.pure]
  constructor
  · intro h
    split at h
    case h_1 => cases h
    case h_2 files hfiles =>
        obtain rfl := Except.ok.inj h
        exact ⟨rfl, hfiles⟩
  · rintro ⟨hpatterns, hfiles⟩
    rw [← hpatterns, hfiles]

/-- What is found comes in order with no path twice, and stands in the file system. -/
theorem entries_of_run {fs : FileSystem} {entries : List String} {base : String} {keep : Bool}
    {found : Discovery} (h : run fs entries base keep = .ok found) :
    found.files.Pairwise Before ∧
      ∀ p ∈ found.files, ∃ names e, (names, e) ∈ fs.entries ∧ p = Path.through names := by
  obtain ⟨-, hfiles⟩ := run_eq_ok.1 h
  obtain ⟨includes, excludes, -, -, hsorted⟩ := discover_eq_ok hfiles
  rw [hsorted]
  obtain ⟨hpairwise, hmem⟩ := sortPaths_spec _
  refine ⟨hpairwise, fun p hp => ?_⟩
  obtain ⟨root, -, hroot⟩ := List.mem_flatMap.1 (List.mem_filter.1 (hmem p hp)).1
  obtain ⟨-, names, -, -, ⟨content, modified, hfile⟩, hnames, -⟩ := mem_filesUnder_iff.1 hroot
  exact ⟨names, _, hfile, hnames⟩

/-- What is found is spelled by names, and comes in order with no path twice. -/
theorem run_spec {fs : FileSystem} (hfs : fs.Proper) {entries : List String} {base : String}
    {keep : Bool} {found : Discovery} (h : run fs entries base keep = .ok found) :
    found.files.Pairwise Before ∧ ∀ p ∈ found.files, Spelled p := by
  obtain ⟨hsorted, hentries⟩ := entries_of_run h
  refine ⟨hsorted, fun p hp => ?_⟩
  obtain ⟨names, e, hmem, rfl⟩ := hentries p hp
  exact ⟨names, (hfs.names hmem).1, (hfs.names hmem).2, rfl⟩

end Discovery

end StyleAudit
