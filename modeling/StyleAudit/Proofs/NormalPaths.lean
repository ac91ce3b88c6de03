import StyleAudit.Proofs.Normalizing

/-!
The normal form of a path is canonical.

A normal form can be built as a text, of which the last component is read again before the next one
is put behind it: that text always spells the stack that `resolve` keeps.

A path means a way: from the names of every directory it leads to the names of another one. The
normal form leads the same way, and no other normal form does. Joining paths puts one way behind the
other, so what paths come to that are split, joined and made absolute again is told by their ways
alone, without another look at how they are written.
-/

namespace StyleAudit.Path

variable {p q base : String} {names : List String} {c : Component} {cs ds : List Component}

/-- Puts a component behind a path, whose own last component is read from its text. A climb takes
a name away. -/
def grow (out : String) : Component → String
  | .current => out
  | .parent =>
    match (components out).getLast? with
    | some (.normal _) => (parent? out).getD out
    | some .root => out
    | _ => join out ".."
  | c => join out c.text

theorem IsStep.relative (h : IsStep c) : isAbsolute c.text = false := by
  cases h with
  | parent => rfl
  | normal hname => exact hname.relative

theorem IsNormal.append_step (h : IsNormal cs) (hc : IsStep c) : IsNormal (cs ++ [c]) := by
  obtain ⟨steps, hsteps, hcs⟩ := h
  refine ⟨steps ++ [c], ?_, ?_⟩
  · exact List.forall_mem_append.2 ⟨hsteps, List.forall_mem_singleton.2 hc⟩
  · rcases hcs with rfl | rfl
    · exact .inl rfl
    · exact .inr rfl

theorem components_render_of_isNormal (h : IsNormal cs) : components (render cs) = cs := by
  by_cases hne : cs = []
  · rw [hne]
    rfl
  · exact components_render h hne

theorem render_ne_empty (h : IsNormal cs) (hne : cs ≠ []) : render cs ≠ "" := by
  intro heq
  have hcomponents := components_render h hne
  rw [heq] at hcomponents
  exact hne hcomponents.symm

/-- Only the root ends in a separator. -/
theorem getLast?_render (h : IsNormal cs) (hroot : cs ≠ [.root]) :
    (render cs).toList.getLast? ≠ some '/' := by
  intro hlast
  rcases List.eq_nil_or_concat' cs with rfl | ⟨init, c, rfl⟩
  · cases hlast
  · obtain ⟨body, hbody⟩ := List.getLast?_eq_some_iff.1 hlast
    have hsegments := segments_render h hroot (by simp)
    rw [hbody, segments_append, List.map_append, List.map_singleton] at hsegments
    have hempty : [] = c.segment := List.singleton_inj.1 (List.append_inj' hsegments rfl).2
    have hvoid := (h.isStep_last hroot).segment.1
    rw [← hempty] at hvoid
    cases hvoid

/-- Joining the text of a step to a normal form puts the step behind it. -/
theorem join_render (h : IsNormal cs) (hc : IsStep c) :
    join (render cs) c.text = render (cs ++ [c]) := by
  by_cases hne : cs = []
  · rw [hne]
    cases hc <;> simp [join, render, Component.text]
  · rw [join, if_neg (by simp [hc.relative, render_ne_empty h hne])]
    by_cases hroot : cs = [.root]
    · rw [hroot]
      simp [render]
    · have hmore : cs ++ [c] ≠ [.root] := by simp [List.append_eq_singleton_iff, hne]
      have hsegment : c.segment = c.text.toList := by cases hc <;> rfl
      rw [if_neg (getLast?_render h hroot), ← String.toList_inj,
        toList_render (h.append_step hc) hmore, List.map_append, List.map_singleton,
        joinSegments_append (by simpa using hne) (List.cons_ne_nil _ _), ← toList_render h hroot,
        hsegment]
      simp [joinSegments]

theorem join_name {names : List String} {name : String} (hnames : ∀ n ∈ names, IsName n)
    (hname : IsName name) : join (through names) name = through (names ++ [name]) := by
  have hjoin := join_render (isNormal_rooted hnames) (.normal hname)
  rw [List.cons_append, ← List.map_singleton, ← List.map_append, render_rooted,
    render_rooted] at hjoin
  exact hjoin

/-- The text that grows spells the stack, step by step. -/
theorem foldl_grow {stack : List Component} (hstack : Piled stack) (hcs : ∀ c ∈ cs, IsStep c) :
    cs.foldl grow (render stack.reverse) = render (resolve stack cs) := by
  induction cs generalizing stack with
  | nil => rfl
  | cons c cs ih =>
      have hrest : ∀ d ∈ cs, IsStep d := fun d hd => hcs d (List.mem_cons_of_mem _ hd)
      have hnormal := hstack.isNormal_reverse
      have hpush (hc : IsStep c) : cs.foldl grow (join (render stack.reverse) c.text) =
          render (resolve (c :: stack) cs) := by
        rw [join_render hnormal hc, ← List.reverse_cons]
        exact ih (hstack.cons hc) hrest
      rw [List.foldl_cons]
      cases hcs c List.mem_cons_self with
      | normal hname => exact hpush (.normal hname)
      | parent =>
          rw [grow, components_render_of_isNormal hnormal, List.getLast?_reverse]
          cases stack with
          | nil => exact hpush .parent
          | cons top rest =>
              cases top with
              | normal name =>
                  rw [List.reverse_cons] at hnormal ⊢
                  rw [List.head?_cons, parent?_render hnormal]
                  exact ih hstack.tail hrest
              | root => exact ih hstack hrest
              | current => exact hpush .parent
              | parent => exact hpush .parent

/-- The normal form grows from nothing, and what has not grown is `.`. -/
theorem normalize_eq_foldl_grow (p : String) :
    normalize p =
      if (components p).foldl grow "" = "" then "." else (components p).foldl grow "" := by
  have hgrown : (components p).foldl grow "" = render (normalized p) := by
    have hempty : Piled [] := ⟨[], List.forall_mem_nil _, .inl rfl⟩
    obtain ⟨steps, hsteps, hp | hp | hp⟩ := components_eq p
    · have hroot : Piled [.root] := ⟨[], List.forall_mem_nil _, .inr rfl⟩
      rw [normalized, hp, List.foldl_cons, resolve_root]
      exact foldl_grow hroot hsteps
    · rw [normalized, hp, List.foldl_cons, resolve]
      exact foldl_grow hempty hsteps
    · rw [normalized, hp]
      exact foldl_grow hempty hsteps
  rw [hgrown, normalize]
  split
  case h_1 hempty =>
      rw [hempty]
      rfl
  case h_2 hne => rw [if_neg (render_ne_empty (isNormal_normalized p) hne)]

/-- Where a path leads from the names of a directory. -/
def destination (names : List String) (p : String) : List String :=
  walkNames names (components p)

theorem destination_of_isAbsolute (h : isAbsolute p = true) (names : List String) :
    destination names p = walkNames [] (steps p) := by
  rw [destination, components_of_isAbsolute h, walkNames_cons, stepNames]

theorem destination_of_relative (h : isAbsolute p = false) (names : List String) :
    destination names p = walkNames names (steps p) := by
  rw [destination]
  rcases components_of_relative h with hcurrent | hsteps
  · rw [hcurrent, walkNames_cons, stepNames]
  · rw [hsteps]

/-- A path behind another one leads on from where that one leads. -/
theorem destination_join (names : List String) (p q : String) :
    destination names (join p q) = destination (destination names p) q := by
  cases hq : isAbsolute q with
  | true =>
      have hjoin : join p q = q := if_pos (by simp [hq])
      rw [hjoin, destination_of_isAbsolute hq, destination_of_isAbsolute hq]
  | false =>
      have hjoin := isAbsolute_join p hq
      rw [destination_of_relative hq]
      cases hp : isAbsolute p with
      | true =>
          rw [destination_of_isAbsolute (hjoin.trans hp), destination_of_isAbsolute hp,
            steps_join p hq, walkNames_append]
      | false =>
          rw [destination_of_relative (hjoin.trans hp), destination_of_relative hp,
            steps_join p hq, walkNames_append]

/-- The normal form leads where the path leads. -/
theorem walkNames_normalized (names : List String) (p : String) :
    walkNames names (normalized p) = destination names p := by
  cases h : isAbsolute p with
  | true =>
      rw [normalized_of_isAbsolute h, destination_of_isAbsolute h, walkNames_cons,
        walkNames_normal]
      rfl
  | false =>
      rw [destination_of_relative h]
      exact (normalized_relative h).2 names

/-- Names from the root, or climbs before names. -/
inductive Resolved : List Component → Prop
  | rooted (names : List String) : Resolved (.root :: names.map .normal)
  | reduced (climbs : Nat) (names : List String) :
      Resolved (List.replicate climbs .parent ++ names.map .normal)

theorem resolved_normalized (p : String) : Resolved (normalized p) := by
  cases h : isAbsolute p with
  | true =>
      rw [normalized_of_isAbsolute h]
      exact .rooted _
  | false =>
      obtain ⟨climbs, down, hreduced⟩ := (normalized_relative h).1
      rw [hreduced]
      exact .reduced climbs down

theorem walkNames_climbs (names : List String) (climbs : Nat) :
    walkNames names (List.replicate climbs .parent) = names.take (names.length - climbs) := by
  induction climbs generalizing names with
  | zero => simp [walkNames]
  | succ climbs ih =>
      rw [List.replicate_succ, walkNames_cons, stepNames, ih, List.dropLast_eq_take,
        List.take_take, List.length_take]
      congr 1
      omega

theorem walkNames_reduced (names : List String) (climbs : Nat) (down : List String) :
    walkNames names (List.replicate climbs .parent ++ down.map .normal) =
      names.take (names.length - climbs) ++ down := by
  rw [walkNames_append, walkNames_climbs, walkNames_normal]

theorem walkNames_rooted (names own : List String) :
    walkNames names (.root :: own.map .normal) = own := by
  rw [walkNames_cons, walkNames_normal]
  rfl

/-- There are directories of every depth. -/
theorem isName_replicate (depth : Nat) : ∀ n ∈ List.replicate depth "a", IsName n := by
  intro n hn
  rw [List.eq_of_mem_replicate hn]
  decide

/-- Out of a directory that is deep enough, no climbs lead as far up as the root does. -/
theorem exists_walkNames_ne (own : List String) (climbs : Nat) (down : List String) :
    ∃ names, (∀ n ∈ names, IsName n) ∧ walkNames names (.root :: own.map .normal) ≠
      walkNames names (List.replicate climbs .parent ++ down.map .normal) := by
  refine ⟨_, isName_replicate (climbs + own.length + 1), fun heq => ?_⟩
  rw [walkNames_rooted, walkNames_reduced] at heq
  have hlength := congrArg List.length heq
  simp only [List.length_append, List.length_take, List.length_replicate] at hlength
  omega

/-- What is resolved and leads to the same place from every directory is the same. -/
theorem Resolved.ext (hcs : Resolved cs) (hds : Resolved ds)
    (h : ∀ names, (∀ n ∈ names, IsName n) → walkNames names cs = walkNames names ds) :
    cs = ds := by
  cases hcs with
  | rooted own =>
      cases hds with
      | rooted other =>
          have hroot := h [] (List.forall_mem_nil _)
          rw [walkNames_rooted, walkNames_rooted] at hroot
          rw [hroot]
      | reduced climbs down =>
          obtain ⟨names, hnames, hne⟩ := exists_walkNames_ne own climbs down
          exact absurd (h names hnames) hne
  | reduced climbs down =>
      cases hds with
      | rooted own =>
          obtain ⟨names, hnames, hne⟩ := exists_walkNames_ne own climbs down
          exact absurd (h names hnames).symm hne
      | reduced others more =>
          -- at the root nothing is climbed, so the names below are the same
          have hroot := h [] (List.forall_mem_nil _)
          rw [walkNames_reduced, walkNames_reduced, List.take_nil, List.take_nil] at hroot
          obtain rfl : down = more := hroot
          -- out of a directory that is deep enough every climb counts
          have hdeep := h _ (isName_replicate (climbs + others))
          rw [walkNames_reduced, walkNames_reduced] at hdeep
          have hlength := congrArg List.length hdeep
          simp only [List.length_append, List.length_take, List.length_replicate] at hlength
          obtain rfl : climbs = others := by omega
          rfl

/-- A normal form has the components that it is rendered from, and `.` has itself. -/
theorem components_normalize (p : String) :
    components (normalize p) = if normalized p = [] then [.current] else normalized p := by
  rw [normalize]
  split
  case h_1 hempty =>
      rw [hempty, if_pos rfl]
      rfl
  case h_2 hne => rw [if_neg hne, components_render (isNormal_normalized p) hne]

theorem destination_normalize (names : List String) (p : String) :
    destination names (normalize p) = destination names p := by
  rw [← walkNames_normalized names p, destination, components_normalize]
  split_ifs with hempty
  · rw [hempty]
    rfl
  · rfl

/-- Paths have the same normal form if and only if they lead to the same place from every
directory. -/
theorem normalize_eq_iff : normalize p = normalize q ↔
    ∀ names, (∀ n ∈ names, IsName n) → destination names p = destination names q := by
  constructor
  · intro heq names _
    rw [← destination_normalize names p, heq, destination_normalize]
  · intro h
    have hresolved : normalized p = normalized q := by
      apply (resolved_normalized p).ext (resolved_normalized q)
      intro names hnames
      rw [walkNames_normalized, walkNames_normalized]
      exact h names hnames
    rw [normalize, normalize, hresolved]

theorem isAbsolute_iff_mem : isAbsolute p = true ↔ .root ∈ components p := by
  constructor
  · intro h
    rw [components_of_isAbsolute h]
    exact List.mem_cons_self
  · intro hmem
    by_contra h
    have hsteps : .root ∉ steps p := fun hroot => nomatch isStep_steps p _ hroot
    rcases components_of_relative (Bool.not_eq_true _ ▸ h) with hp | hp
    · exact hsteps (by simpa [hp] using hmem)
    · exact hsteps (hp ▸ hmem)

/-- A normal form is as absolute as the path. -/
theorem isAbsolute_normalize (p : String) : isAbsolute (normalize p) = isAbsolute p := by
  cases h : isAbsolute p with
  | true =>
      rw [normalize_of_isAbsolute h]
      exact isAbsolute_through _
  | false =>
      obtain ⟨climbs, down, hreduced⟩ := (normalized_relative h).1
      rw [Bool.eq_false_iff, ne_eq, isAbsolute_iff_mem, components_normalize, hreduced]
      split_ifs <;> simp

/-- Whether a path is written as its components are, without `.` unless it is nothing else, and
climbs, if at all, only where a relative path begins. -/
structure Canonical (p : String) : Prop where
  nonempty : p ≠ ""
  /-- No separator is repeated or stands at the end, and no `.` is passed over. -/
  written : render (components p) = p
  current (h : .current ∈ components p) : p = "."
  climbs : ∃ climbs rest,
    components p = List.replicate climbs .parent ++ rest ∧ .parent ∉ rest
  relative (h : .parent ∈ components p) : isAbsolute p = false

theorem canonical_current : Canonical "." where
  nonempty := by decide
  written := rfl
  current _ := rfl
  climbs := ⟨0, [.current], rfl, by decide⟩
  relative _ := rfl

theorem Resolved.not_current (h : Resolved cs) : .current ∉ cs := by
  cases h <;> simp

theorem Resolved.climbs (h : Resolved cs) :
    ∃ climbs rest, cs = List.replicate climbs .parent ++ rest ∧ .parent ∉ rest := by
  cases h with
  | rooted names => exact ⟨0, _, rfl, by simp⟩
  | reduced climbs names => exact ⟨climbs, _, rfl, by simp⟩

theorem Resolved.not_root (h : Resolved cs) (hparent : .parent ∈ cs) : .root ∉ cs := by
  cases h with
  | rooted names => simp at hparent
  | reduced climbs names => simp

theorem canonical_of_resolved (h : Resolved (components p)) (hne : p ≠ "")
    (hwritten : render (components p) = p) : Canonical p where
  nonempty := hne
  written := hwritten
  current hcurrent := absurd hcurrent h.not_current
  climbs := h.climbs
  relative hparent := by
    rw [Bool.eq_false_iff, ne_eq, isAbsolute_iff_mem]
    exact h.not_root hparent

/-- Steps that do not climb are names. -/
theorem exists_names (hcs : ∀ c ∈ cs, IsStep c) (h : .parent ∉ cs) :
    ∃ names : List String, cs = names.map .normal := by
  induction cs with
  | nil => exact ⟨[], rfl⟩
  | cons c cs ih =>
      obtain ⟨names, hnames⟩ := ih (fun d hd => hcs d (List.mem_cons_of_mem _ hd))
        fun hmem => h (List.mem_cons_of_mem _ hmem)
      cases hcs c List.mem_cons_self with
      | parent => exact absurd List.mem_cons_self h
      | @normal name hname => exact ⟨name :: names, by rw [hnames, List.map_cons]⟩

theorem Canonical.resolved (h : Canonical p) (hcurrent : .current ∉ components p) :
    Resolved (components p) := by
  cases hp : isAbsolute p with
  | true =>
      have hcomponents := components_of_isAbsolute hp
      obtain ⟨names, hnames⟩ := exists_names (isStep_steps p) fun hmem => by
        have hrelative := h.relative (hcomponents ▸ List.mem_cons_of_mem _ hmem)
        rw [hp] at hrelative
        cases hrelative
      rw [hcomponents, hnames]
      exact .rooted names
  | false =>
      have hsteps : components p = steps p := by
        apply (components_of_relative hp).resolve_left
        intro hhead
        exact hcurrent (hhead ▸ List.mem_cons_self)
      obtain ⟨climbs, rest, hrun, hparent⟩ := h.climbs
      have hrest : ∀ c ∈ rest, IsStep c := by
        intro c hc
        apply isStep_steps p
        rw [← hsteps, hrun]
        exact List.mem_append_right _ hc
      obtain ⟨names, rfl⟩ := exists_names hrest hparent
      rw [hrun]
      exact .reduced climbs names

/-- Nothing but names comes behind the root of an absolute path in normal form. -/
theorem Canonical.ne_of_isAbsolute (h : Canonical p) (hp : isAbsolute p = true)
    (hc : c ∈ components p) : c ≠ .current ∧ c ≠ .parent := by
  constructor
  · rintro rfl
    rw [h.current hc] at hp
    cases hp
  · rintro rfl
    rw [h.relative hc] at hp
    cases hp

theorem canonical_normalize (p : String) : Canonical (normalize p) := by
  by_cases hempty : normalized p = []
  · have hp : normalize p = "." := by rw [normalize, hempty]
    rw [hp]
    exact canonical_current
  · have hcomponents := components_normalize p
    rw [if_neg hempty] at hcomponents
    apply canonical_of_resolved
    · rw [hcomponents]
      exact resolved_normalized p
    · intro heq
      rw [heq] at hcomponents
      exact hempty hcomponents.symm
    · exact render_components_normalize p

/-- The paths that normalizing leaves alone are those in normal form. -/
theorem normalize_eq_self_iff_canonical : normalize p = p ↔ Canonical p := by
  constructor
  · intro heq
    rw [← heq]
    exact canonical_normalize p
  · intro h
    by_cases hcurrent : .current ∈ components p
    · rw [h.current hcurrent]
      rfl
    · have hresolved : normalized p = components p := by
        apply (resolved_normalized p).ext (h.resolved hcurrent)
        intro names _
        exact walkNames_normalized names p
      rw [normalize, hresolved]
      split
      case h_1 hempty =>
          have hwritten := h.written
          rw [hempty] at hwritten
          exact absurd hwritten.symm h.nonempty
      case h_2 => exact h.written

instance : DecidablePred Canonical := fun _ =>
  decidable_of_iff _ normalize_eq_self_iff_canonical

example : Canonical "../../a" ∧ ¬Canonical "a/.." ∧ ¬Canonical "a//./b" ∧ ¬Canonical "/.." := by
  decide +kernel

theorem normalize_normalize (p : String) : normalize (normalize p) = normalize p :=
  normalize_eq_self_iff_canonical.2 (canonical_normalize p)

/-- Both sides of a join may be normalized before. -/
theorem normalize_join (p q : String) :
    normalize (join (normalize p) (normalize q)) = normalize (join p q) := by
  apply normalize_eq_iff.2
  intro names _
  rw [destination_join, destination_join, destination_normalize, destination_normalize]

theorem absolutize_eq_normalize_join (p base : String) :
    absolutize p base = normalize (join base p) := by
  rw [absolutize]
  split_ifs with h
  · rw [join, if_pos (by simp [h])]
  · rfl

/-- A path that is taken from where another one leads is a path behind the other one. -/
theorem absolutize_absolutize (p q base : String) :
    absolutize p (absolutize q base) = absolutize (join q p) base := by
  rw [absolutize_eq_normalize_join, absolutize_eq_normalize_join, absolutize_eq_normalize_join]
  apply normalize_eq_iff.2
  intro names _
  rw [destination_join, destination_join, destination_join, destination_normalize,
    destination_join]

theorem canonical_absolutize (p base : String) : Canonical (absolutize p base) := by
  rw [absolutize_eq_normalize_join]
  exact canonical_normalize _

theorem isAbsolute_absolutize (hbase : isAbsolute base = true) (p : String) :
    isAbsolute (absolutize p base) = true := by
  rw [absolutize_eq hbase]
  exact isAbsolute_through _

theorem destination_through (hnames : ∀ n ∈ names, IsName n) :
    destination [] (through names) = names := by
  rw [destination, ← render_rooted, components_render (isNormal_rooted hnames) nofun,
    walkNames_rooted]

/-- Paths have the same normal form if and only if they are made absolute alike from every
directory. -/
theorem normalize_eq_iff_absolutize : normalize p = normalize q ↔
    ∀ base, isAbsolute base = true → absolutize p base = absolutize q base := by
  constructor
  · intro heq base _
    rw [absolutize_eq_normalize_join, absolutize_eq_normalize_join, ← normalize_join base p, heq,
      normalize_join]
  · intro h
    apply normalize_eq_iff.2
    intro names hnames
    have hlead (x : String) :
        destination names x = destination [] (absolutize x (through names)) := by
      rw [absolutize_eq_normalize_join, destination_normalize, destination_join,
        destination_through hnames]
    rw [hlead p, hlead q, h _ (isAbsolute_through names)]

/--
A normal form is canonical, as absolute as the path, and its own normal form. From an absolute
directory a path is made canonical and absolute, with neither `.` nor `..` left in it. It then stays
as it is from everywhere, and a path that is taken from where another one leads may as well be
joined to the other one before.
-/
theorem canonical_laws :
    (∀ p, Canonical (normalize p) ∧ isAbsolute (normalize p) = isAbsolute p ∧
      normalize (normalize p) = normalize p) ∧
    ∀ base, isAbsolute base = true → ∀ p q,
      (Canonical (absolutize p base) ∧ isAbsolute (absolutize p base) = true ∧
        ∀ c ∈ components (absolutize p base), c ≠ .current ∧ c ≠ .parent) ∧
      absolutize (absolutize p base) q = absolutize p base ∧
      absolutize p (absolutize q base) = absolutize (join q p) base := by
  constructor
  · intro p
    exact ⟨canonical_normalize p, isAbsolute_normalize p, normalize_normalize p⟩
  · intro base hbase p q
    have hcanonical := canonical_absolutize p base
    have habsolute := isAbsolute_absolutize hbase p
    refine ⟨⟨hcanonical, habsolute, ?_⟩, ?_, absolutize_absolutize p q base⟩
    · intro c hc
      exact hcanonical.ne_of_isAbsolute habsolute hc
    · rw [absolutize, if_pos habsolute]
      exact normalize_eq_self_iff_canonical.2 hcanonical

/-- The second path climbs above the root from where the first one leads. -/
theorem canonical_laws_climbs :
    isAbsolute "/w" = true ∧ absolutize "../..//a/." (absolutize "x/.." "/w") = "/a" ∧
      absolutize (join "x/.." "../..//a/.") "/w" = "/a" := by
  have hbase : isAbsolute "/w" = true := by decide
  obtain ⟨-, -, hjoin⟩ := canonical_laws.2 "/w" hbase "../..//a/." "x/.."
  have htaken : absolutize "../..//a/." (absolutize "x/.." "/w") = "/a" := by decide +kernel
  exact ⟨hbase, htaken, hjoin ▸ htaken⟩

end StyleAudit.Path
