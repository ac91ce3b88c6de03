import StyleAudit.Proofs.Meaning

/-!
How globs are read when something stands before them.

The reader takes one step after another, and a step sees of the tokens that stand before its own
at most whether there are any. So a glob reads the same behind a literal text, except for a
recursive part at its head: that joins the separator before it.
-/

namespace StyleAudit.Glob

/-- Puts tokens before those that the outermost group follows. -/
def Group.overAll (below : List Token) : List Group → List Group
  | [] => []
  | [⟨outer, branches⟩] => [⟨outer ++ below, branches⟩]
  | g :: h :: gs => g :: overAll below (h :: gs)

namespace State

def onto (s : State) (below : List Token) : State :=
  match s.groups with
  | [] => { s with tokens := s.tokens ++ below }
  | g :: gs => { s with groups := Group.overAll below (g :: gs) }

def Begun (s : State) : Prop :=
  s.groups ≠ [] ∨ s.tokens ≠ []

variable {s : State} {below : List Token}

theorem onto_push (s : State) (below : List Token) (t : Token) (c : Char) :
    (s.onto below).push t c = (s.push t c).onto below := by
  obtain ⟨groups, tokens, previous, plain⟩ := s
  cases groups <;> rfl

theorem onto_openGroup (s : State) (below : List Token) :
    (s.onto below).openGroup = s.openGroup.onto below := by
  obtain ⟨groups, tokens, previous, plain⟩ := s
  cases groups <;> rfl

theorem onto_closeGroup? (s : State) (below : List Token) :
    (s.onto below).closeGroup? = s.closeGroup?.map (·.onto below) := by
  obtain ⟨groups, tokens, previous, plain⟩ := s
  match groups with
  | [] => rfl
  | [_] => rfl
  | _ :: _ :: _ => rfl

theorem onto_comma (s : State) (below : List Token) :
    (s.onto below).comma = s.comma.onto below := by
  obtain ⟨groups, tokens, previous, plain⟩ := s
  match groups with
  | [] => rfl
  | [_] => rfl
  | _ :: _ :: _ => rfl

theorem onto_pushStars (s : State) (below : List Token) :
    (s.onto below).pushStars = s.pushStars.onto below := by
  obtain ⟨groups, tokens, previous, plain⟩ := s
  cases groups <;> rfl

theorem onto_replaceLast (h : s.tokens ≠ []) (below : List Token) (t : Token) (c : Char) :
    (s.onto below).replaceLast t c = (s.replaceLast t c).onto below := by
  obtain ⟨groups, tokens, previous, plain⟩ := s
  match tokens, h with
  | first :: rest, _ => cases groups <;> cases first <;> rfl

theorem isEmpty_onto (h : s.Begun) (below : List Token) :
    (s.onto below).tokens.isEmpty = s.tokens.isEmpty := by
  obtain ⟨groups, tokens, previous, plain⟩ := s
  match groups, tokens with
  | [], [] => exact h.elim (absurd rfl) (absurd rfl)
  | [], _ :: _ => rfl
  | _ :: _, _ => rfl

theorem atComponentStart_onto (s : State) (below : List Token) :
    (s.onto below).atComponentStart = s.atComponentStart := by
  obtain ⟨groups, tokens, previous, plain⟩ := s
  match groups with
  | [] => rfl
  | [_] => rfl
  | _ :: _ :: _ => rfl

theorem endsBranch_onto (s : State) (below : List Token) (c : Char) :
    (s.onto below).endsBranch c = s.endsBranch c := by
  obtain ⟨groups, tokens, previous, plain⟩ := s
  match groups with
  | [] => rfl
  | [_] => rfl
  | _ :: _ :: _ => rfl

theorem onto_doubleStar (h : s.Begun) (below : List Token) (cs : List Char) :
    (s.onto below).doubleStar cs = ((s.doubleStar cs).1.onto below, (s.doubleStar cs).2) := by
  unfold doubleStar
  rw [isEmpty_onto h, atComponentStart_onto]
  split_ifs with hempty hstart
  · split
    · rw [onto_push]
    · rw [onto_push]
    · rw [onto_pushStars]
  · have hne : s.tokens ≠ [] := by simpa using hempty
    split
    · rw [onto_replaceLast hne]
    · rw [onto_replaceLast hne]
    · rw [endsBranch_onto]
      split_ifs
      · rw [onto_replaceLast hne]
      · rw [onto_pushStars]
  · rw [onto_pushStars]

def takeBracket (d : Dialect) (s : State) (cs : List Char) :
    Except GlobFault (State × List Char) :=
  match readBracket cs with
  | (negated, .closed ranges rest) => .ok (s.push (.oneOf negated ranges) ']', rest)
  | (_, .faulty fault) => .error fault
  | (_, .unclosed) =>
    if d.looseBrackets then .ok ({ s.push (.literal '[') '[' with plainBrackets := true }, cs)
    else .error .unclosedClass

/-- Takes one character or more: the state after them, and what is left to read. -/
def next (d : Dialect) (s : State) (c : Char) (cs : List Char) :
    Except GlobFault (State × List Char) :=
  if c = '?' then .ok (s.push .any c, cs)
  else if c = '*' then
    match cs with
    | '*' :: rest => .ok (s.doubleStar rest)
    | cs => .ok (s.push .star c, cs)
  else if c = '[' ∧ ¬s.plainBrackets then s.takeBracket d cs
  else if c = '\x7b' then .ok (s.openGroup, cs)
  else if c = '\x7d' then
    match s.closeGroup? with
    | some s => .ok (s, cs)
    | none => .error .unopenedGroup
  else if c = ',' then .ok (s.comma, cs)
  else if c = '\\' then
    match cs with
    | [] => .error .danglingEscape
    | e :: rest => .ok (s.push (.literal e) e, rest)
  else .ok (s.push (.literal c) c, cs)

theorem takeBracket_onto (s : State) (d : Dialect) (below : List Token) (cs : List Char) :
    (s.onto below).takeBracket d cs =
      (s.takeBracket d cs).map fun x => (x.1.onto below, x.2) := by
  unfold takeBracket
  split
  · rw [onto_push]
    rfl
  · rfl
  · split_ifs
    · rw [onto_push]
      obtain ⟨groups, tokens, previous, plain⟩ := s
      cases groups <;> rfl
    · rfl

/-- A step sees of the tokens below it at most whether there are any. -/
theorem next_onto (h : s.Begun) (d : Dialect) (below : List Token) (c : Char) (cs : List Char) :
    (s.onto below).next d c cs = (s.next d c cs).map fun x => (x.1.onto below, x.2) := by
  have hplain : (s.onto below).plainBrackets = s.plainBrackets := by
    obtain ⟨groups, tokens, previous, plain⟩ := s
    cases groups <;> rfl
  unfold next
  rw [hplain]
  split_ifs
  · rw [onto_push]
    rfl
  · split
    · rw [onto_doubleStar h]
      rfl
    · rw [onto_push]
      rfl
  · exact s.takeBracket_onto d below cs
  · rw [onto_openGroup]
    rfl
  · rw [onto_closeGroup?]
    cases s.closeGroup? <;> rfl
  · rw [onto_comma]
    rfl
  · split
    · rfl
    · rw [onto_push]
      rfl
  · rw [onto_push]
    rfl

theorem begun_push (s : State) (t : Token) (c : Char) : (s.push t c).Begun :=
  .inr (List.cons_ne_nil _ _)

theorem begun_comma (s : State) : s.comma.Begun := by
  unfold comma
  split
  · exact begun_push _ _ _
  · exact .inl (List.cons_ne_nil _ _)

theorem begun_doubleStar (s : State) (cs : List Char) : (s.doubleStar cs).1.Begun := by
  have hreplace (t : Token) (c : Char) : (s.replaceLast t c).Begun := by
    unfold replaceLast
    split <;> exact .inr (List.cons_ne_nil _ _)
  have hstars : s.pushStars.Begun := .inr (List.cons_ne_nil _ _)
  unfold doubleStar
  split_ifs
  · split
    · exact begun_push _ _ _
    · exact begun_push _ _ _
    · exact hstars
  · split
    · exact hreplace _ _
    · exact hreplace _ _
    · split_ifs
      · exact hreplace _ _
      · exact hstars
  · exact hstars

theorem begun_closeGroup {t : State} (h : s.closeGroup? = some t) : t.Begun := by
  unfold closeGroup? at h
  split at h
  · cases h
  · obtain rfl := Option.some.inj h
    exact .inr (List.cons_ne_nil _ _)

/-- What a step comes to: the state after it, and what is left to read. -/
inductive Next (s : State) : List Char → State → List Char → Prop
  | push {c last : Char} {cs rest : List Char} {t : Token} {plain : Bool} (ht : t ≠ .leading)
      (hrest : rest.length ≤ cs.length) :
      Next s (c :: cs) { s.push t last with plainBrackets := plain } rest
  | doubleStar {cs rest : List Char} {t : State} (hstars : s.doubleStar cs = (t, rest)) :
      Next s ('*' :: '*' :: cs) t rest
  | openGroup {c : Char} {cs : List Char} : Next s (c :: cs) s.openGroup cs
  | closeGroup {c : Char} {cs : List Char} {t : State} (hclose : s.closeGroup? = some t) :
      Next s (c :: cs) t cs
  | comma {c : Char} {cs : List Char} : Next s (c :: cs) s.comma cs

theorem next_of_takeBracket {d : Dialect} {cs rest : List Char} {t : State}
    (h : s.takeBracket d cs = .ok (t, rest)) (c : Char) : s.Next (c :: cs) t rest := by
  unfold takeBracket at h
  split at h
  case h_1 hread =>
      obtain ⟨rfl, rfl⟩ := Prod.mk.inj (Except.ok.inj h)
      exact .push (by simp) (length_readBracket hread).le
  case h_2 => cases h
  case h_3 =>
      split_ifs at h
      obtain ⟨rfl, rfl⟩ := Prod.mk.inj (Except.ok.inj h)
      exact .push (by simp) le_rfl

theorem next_of_eq_ok {d : Dialect} {c : Char} {cs rest : List Char} {t : State}
    (h : s.next d c cs = .ok (t, rest)) : s.Next (c :: cs) t rest := by
  unfold next at h
  split_ifs at h with hany hstar
  · obtain ⟨rfl, rfl⟩ := Prod.mk.inj (Except.ok.inj h)
    exact .push (by simp) le_rfl
  · split at h
    · rw [hstar]
      exact .doubleStar (Except.ok.inj h)
    · obtain ⟨rfl, rfl⟩ := Prod.mk.inj (Except.ok.inj h)
      exact .push (by simp) le_rfl
  · exact next_of_takeBracket h c
  · obtain ⟨rfl, rfl⟩ := Prod.mk.inj (Except.ok.inj h)
    exact .openGroup
  · split at h
    case h_1 hclose =>
        obtain ⟨rfl, rfl⟩ := Prod.mk.inj (Except.ok.inj h)
        exact .closeGroup hclose
    case h_2 => cases h
  · obtain ⟨rfl, rfl⟩ := Prod.mk.inj (Except.ok.inj h)
    exact .comma
  · split at h
    · cases h
    · obtain ⟨rfl, rfl⟩ := Prod.mk.inj (Except.ok.inj h)
      exact .push (by simp) (Nat.le_succ _)
  · obtain ⟨rfl, rfl⟩ := Prod.mk.inj (Except.ok.inj h)
    exact .push (by simp) le_rfl

/-- After a step something has been read. -/
theorem Next.begun {source rest : List Char} {t : State} (h : s.Next source t rest) :
    t.Begun := by
  cases h with
  | push => exact .inr (List.cons_ne_nil _ _)
  | @doubleStar cs _ _ hstars =>
      have hbegun := begun_doubleStar s cs
      rwa [hstars] at hbegun
  | openGroup => exact .inl (List.cons_ne_nil _ _)
  | closeGroup hclose => exact begun_closeGroup hclose
  | comma => exact begun_comma _

/-- A step leaves less to read. -/
theorem Next.length_lt {source rest : List Char} {t : State} (h : s.Next source t rest) :
    rest.length < source.length := by
  cases h with
  | push _ hrest => exact Nat.lt_succ_of_le hrest
  | @doubleStar cs _ _ hstars =>
      have hle := s.length_doubleStar cs
      rw [hstars] at hle
      exact Nat.lt_succ_of_le (hle.trans (Nat.le_succ _))
  | openGroup => exact Nat.lt_succ_self _
  | closeGroup => exact Nat.lt_succ_self _
  | comma => exact Nat.lt_succ_self _

end State

/-- A glob is read step by step. -/
theorem readFrom_cons (d : Dialect) (s : State) (c : Char) (cs : List Char) :
    readFrom d s (c :: cs) = (s.next d c cs).bind fun x => readFrom d x.1 x.2 := by
  rw [readFrom.eq_def]
  unfold State.next
  dsimp only
  by_cases hany : c = '?'
  · rw [if_pos hany, if_pos hany]
    rfl
  rw [if_neg hany, if_neg hany]
  by_cases hstar : c = '*'
  · rw [if_pos hstar, if_pos hstar]
    by_cases hmore : ∃ rest, cs = '*' :: rest
    · obtain ⟨rest, rfl⟩ := hmore
      rfl
    · rw [not_exists] at hmore
      -- the second equation of the match needs `hmore`
      simp only
      rfl
  rw [if_neg hstar, if_neg hstar]
  by_cases hbracket : c = '[' ∧ ¬s.plainBrackets
  · rw [if_pos hbracket, if_pos hbracket, hbracket.1]
    unfold State.takeBracket
    split <;> split <;> simp_all [Except.bind]
  rw [if_neg hbracket, if_neg hbracket]
  split_ifs
  · rfl
  · cases s.closeGroup? <;> rfl
  · rfl
  · cases cs <;> rfl
  · rfl

/-- What has been read stays as it is; what follows it reads the same behind other tokens. -/
theorem readFrom_onto (d : Dialect) (below : List Token) (s : State) (source : List Char)
    (h : s.Begun) :
    readFrom d (s.onto below) source = (readFrom d s source).map (below.reverse ++ ·) := by
  -- a step may take several characters, so the induction is on how many are left
  induction hn : source.length using Nat.strong_induction_on generalizing s source with
  | _ n ih =>
      cases source with
      | nil =>
          obtain ⟨groups, tokens, previous, plain⟩ := s
          match groups with
          | [] => simp [readFrom, State.onto, Except.map]
          | [_] => simp [readFrom, State.onto, Except.map, Group.overAll]
          | _ :: _ :: _ => simp [readFrom, State.onto, Except.map, Group.overAll]
      | cons c cs =>
          rw [readFrom_cons, readFrom_cons, State.next_onto h]
          cases hnext : s.next d c cs with
          | error fault => rfl
          | ok x =>
              have hstep := State.next_of_eq_ok hnext
              exact ih x.2.length (hn ▸ hstep.length_lt) x.1 x.2 hstep.begun rfl

def headRecursive : List Char → Bool
  | ['*', '*'] => true
  | '*' :: '*' :: '/' :: _ => true
  | _ => false

namespace State

variable {s t : State} {d : Dialect} {c : Char} {cs rest : List Char}

/-- Outside of groups two stars are plain ones, unless they are a whole component. -/
theorem doubleStar_plain (hgroups : s.groups = []) (h : headRecursive ('*' :: '*' :: cs) = false) :
    s.doubleStar cs = (s.pushStars, cs) := by
  unfold doubleStar
  match cs, h with
  | c :: cs, h =>
      have hslash : c ≠ '/' := by
        rintro rfl
        cases h
      have hend : s.endsBranch c = false := by simp [endsBranch, hgroups]
      split_ifs
      · split <;> simp_all
      · split <;> simp_all
      · rfl

/-- The tokens of the whole glob so far, without those of groups that are open. -/
def outermost (s : State) : List Token :=
  match s.groups.getLast? with
  | some g => g.outer
  | none => s.tokens

theorem not_mem_push {t : Token} (h : .leading ∉ s.outermost) (ht : t ≠ .leading) (c : Char) :
    .leading ∉ (s.push t c).outermost := by
  obtain ⟨groups, tokens, previous, plain⟩ := s
  cases groups with
  | nil => exact List.not_mem_cons_of_ne_of_not_mem ht.symm h
  | cons g groups => exact h

theorem not_mem_pushStars (h : .leading ∉ s.outermost) : .leading ∉ s.pushStars.outermost := by
  have hone : .leading ∉ (s.push .star '*').outermost := not_mem_push h (by simp) '*'
  have htwo : .leading ∉ ((s.push .star '*').push .star '*').outermost :=
    not_mem_push hone (by simp) '*'
  exact htwo

theorem not_mem_replaceLast {t : Token} (h : .leading ∉ s.outermost) (ht : t ≠ .leading)
    (c : Char) : .leading ∉ (s.replaceLast t c).outermost := by
  obtain ⟨groups, tokens, previous, plain⟩ := s
  cases groups with
  | cons g groups =>
      unfold replaceLast
      split <;> exact h
  | nil =>
      cases tokens with
      | nil => exact List.not_mem_cons_of_ne_of_not_mem ht.symm List.not_mem_nil
      | cons first rest =>
          have hreplaced : .leading ∉ t :: rest :=
            List.not_mem_cons_of_ne_of_not_mem ht.symm fun hr => h (List.mem_cons_of_mem _ hr)
          cases first <;> first | exact h | exact hreplaced

theorem not_mem_openGroup (h : .leading ∉ s.outermost) : .leading ∉ s.openGroup.outermost := by
  obtain ⟨groups, tokens, previous, plain⟩ := s
  cases groups <;> exact h

theorem not_mem_comma (h : .leading ∉ s.outermost) : .leading ∉ s.comma.outermost := by
  obtain ⟨groups, tokens, previous, plain⟩ := s
  match groups with
  | [] => exact not_mem_push h (by simp) ','
  | [_] => exact h
  | _ :: _ :: _ => exact h

theorem not_mem_closeGroup (h : .leading ∉ s.outermost) (hclose : s.closeGroup? = some t) :
    .leading ∉ t.outermost := by
  obtain ⟨groups, tokens, previous, plain⟩ := s
  match groups with
  | [] => cases hclose
  | [_] =>
      obtain rfl := Option.some.inj hclose
      exact List.not_mem_cons_of_ne_of_not_mem (by simp) h
  | _ :: _ :: _ =>
      obtain rfl := Option.some.inj hclose
      exact h

/-- A leading recursive part is only read where nothing stands before it in its branch. -/
theorem not_mem_doubleStar (hbegun : s.Begun) (h : .leading ∉ s.outermost) (cs : List Char) :
    .leading ∉ (s.doubleStar cs).1.outermost := by
  have hpush (hempty : s.tokens.isEmpty = true) (c : Char) :
      .leading ∉ (s.push .leading c).outermost := by
    obtain ⟨groups, tokens, previous, plain⟩ := s
    cases groups with
    | cons g groups => exact h
    | nil => exact hbegun.elim (absurd rfl) (absurd (List.isEmpty_iff.1 hempty))
  unfold doubleStar
  split_ifs with hempty hstart
  · split
    · exact hpush hempty _
    · exact hpush hempty _
    · exact not_mem_pushStars h
  · split
    · exact not_mem_replaceLast h (by simp) _
    · exact not_mem_replaceLast h (by simp) _
    · split_ifs
      · exact not_mem_replaceLast h (by simp) _
      · exact not_mem_pushStars h
  · exact not_mem_pushStars h

/-- After the first step no leading recursive part is read outside of groups. -/
theorem Next.not_mem {source : List Char} (hnext : s.Next source t rest)
    (hbegun : s.Begun ∨ headRecursive source = false) (h : .leading ∉ s.outermost) :
    .leading ∉ t.outermost := by
  cases hnext with
  | @push _ last _ _ _ _ ht _ =>
      have hpush := not_mem_push h ht last
      exact hpush
  | @doubleStar cs _ _ hstars =>
      by_cases hs : s.Begun
      · have hdouble := not_mem_doubleStar hs h cs
        rwa [hstars] at hdouble
      · obtain ⟨hgroups, -⟩ := not_or.1 hs
        rw [doubleStar_plain (not_not.1 hgroups) (hbegun.resolve_left hs)] at hstars
        obtain ⟨rfl, -⟩ := Prod.mk.inj hstars
        exact not_mem_pushStars h
  | openGroup => exact not_mem_openGroup h
  | closeGroup hclose => exact not_mem_closeGroup h hclose
  | comma => exact not_mem_comma h

/-- A first step that takes no recursive part does not look at what stands before it. -/
theorem next_start (below : List Token) (previous : Option Char)
    (h : headRecursive (c :: cs) = false) :
    (State.mk [] below previous false).next d c cs =
      ((State.mk [] [] none false).next d c cs).map fun x => (x.1.onto below, x.2) := by
  unfold next
  split_ifs with hany hstar
  · rfl
  · split
    · rw [hstar] at h
      rw [doubleStar_plain rfl h, doubleStar_plain rfl h]
      rfl
    · rfl
  · unfold takeBracket
    split
    · rfl
    · rfl
    · split_ifs <;> rfl
  · rfl
  · rfl
  · rfl
  · split <;> rfl
  · rfl

end State

variable {d : Dialect} {s : State} {source : List Char} {ts : List Token}

/-- The tokens that are read are those outside of groups, and there are some. -/
theorem readFrom_begun (hbegun : s.Begun) (hread : readFrom d s source = .ok ts) :
    ts ≠ [] ∧ (.leading ∉ s.outermost → .leading ∉ ts) := by
  induction hn : source.length using Nat.strong_induction_on generalizing s source with
  | _ n ih =>
      cases source with
      | nil =>
          rw [readFrom] at hread
          split_ifs at hread with hempty
          obtain rfl := Except.ok.inj hread
          have hgroups := List.isEmpty_iff.1 hempty
          refine ⟨by simpa using hbegun.resolve_left (absurd hgroups), fun h => ?_⟩
          simpa [State.outermost, hgroups] using h
      | cons c cs =>
          rw [readFrom_cons] at hread
          cases hnext : s.next d c cs with
          | error fault =>
              rw [hnext] at hread
              cases hread
          | ok x =>
              rw [hnext] at hread
              have hstep := State.next_of_eq_ok hnext
              obtain ⟨hne, hleading⟩ := ih x.2.length (hn ▸ hstep.length_lt) hstep.begun hread rfl
              exact ⟨hne, fun h => hleading (hstep.not_mem (.inl hbegun) h)⟩

/-- A glob that begins with no recursive part reads the same behind other tokens. -/
theorem readFrom_below (d : Dialect) (below : List Token) (previous : Option Char)
    (h : headRecursive source = false) :
    readFrom d ⟨[], below, previous, false⟩ source =
      (readFrom d ⟨[], [], none, false⟩ source).map (below.reverse ++ ·) := by
  cases source with
  | nil => simp [readFrom, Except.map]
  | cons c cs =>
      rw [readFrom_cons, readFrom_cons, State.next_start below previous h]
      cases hnext : (State.mk [] [] none false).next d c cs with
      | error fault => rfl
      | ok x => exact readFrom_onto d below x.1 x.2 (State.next_of_eq_ok hnext).begun

theorem not_mem_readFrom (h : headRecursive source = false)
    (hread : readFrom d ⟨[], [], none, false⟩ source = .ok ts) :
    .leading ∉ ts ∧ (source ≠ [] → ts ≠ []) := by
  cases source with
  | nil =>
      obtain rfl : [] = ts := by simpa [readFrom] using hread
      exact ⟨List.not_mem_nil, absurd rfl⟩
  | cons c cs =>
      rw [readFrom_cons] at hread
      cases hnext : (State.mk [] [] none false).next d c cs with
      | error fault =>
          rw [hnext] at hread
          cases hread
      | ok x =>
          rw [hnext] at hread
          have hstep := State.next_of_eq_ok hnext
          obtain ⟨hne, hleading⟩ := readFrom_begun hstep.begun hread
          exact ⟨hleading (hstep.not_mem (.inr h) List.not_mem_nil), fun _ => hne⟩

/-- How a glob reads on its own and behind a separator, which a recursive part at its head joins. -/
inductive Behind : List Token → List Token → Prop
  | plain {ts : List Token} (h : .leading ∉ ts) : Behind ts (.literal '/' :: ts)
  | everything : Behind [.leading] [.trailing]
  | components (ts : List Token) : Behind (.leading :: ts) (.between :: ts)

theorem readFrom_nil (d : Dialect) {s : State} (h : s.groups = []) :
    readFrom d s [] = .ok s.tokens.reverse := by
  rw [readFrom, h]
  rfl

theorem readFrom_lone (d : Dialect) :
    readFrom d ⟨[], [], none, false⟩ ['*', '*'] = .ok [.leading] := by
  rw [readFrom_cons]
  exact readFrom_nil d rfl

/-- A recursive part at the end takes the place of the token before it. -/
theorem readFrom_stars (d : Dialect) (last : Token) (below : List Token) :
    readFrom d ⟨[], last :: below, some '/', false⟩ ['*', '*'] =
      .ok ((State.mk [] (last :: below) (some '/') false).replaceLast .trailing '*').tokens.reverse
      := by
  rw [readFrom_cons]
  exact readFrom_nil d (by cases last <;> rfl)

/-- What is read behind a recursive part with its separator. -/
theorem readFrom_components (d : Dialect) (below : List Token) (source : List Char) :
    match readFrom d ⟨[], [.leading], some '/', false⟩ source with
    | .error fault => readFrom d ⟨[], .between :: below, some '/', false⟩ source = .error fault
    | .ok ts => ∃ us, readFrom d ⟨[], .between :: below, some '/', false⟩ source =
        .ok (below.reverse ++ us) ∧ Behind ts us ∧
          (us = [.between] → ('/' :: source).getLast? = some '/') := by
  induction hn : source.length using Nat.strong_induction_on generalizing source with
  | _ n ih =>
      cases hhead : headRecursive source with
      | false =>
          rw [readFrom_below d [.leading] _ hhead, readFrom_below d (.between :: below) _ hhead]
          cases hread : readFrom d ⟨[], [], none, false⟩ source with
          | error fault => rfl
          | ok ts =>
              refine ⟨.between :: ts, ?_, .components ts, fun hus => ?_⟩
              · simp [Except.map]
              · have hempty : source = [] := by
                  by_contra hne
                  exact (not_mem_readFrom hhead hread).2 hne (List.cons.inj hus).2
                rw [hempty]
                rfl
      | true =>
          unfold headRecursive at hhead
          split at hhead
          case h_1 =>
              rw [readFrom_stars, readFrom_stars]
              exact ⟨[.trailing], by simp [State.replaceLast], .everything, by simp⟩
          case h_2 rest =>
              rw [readFrom_cons, readFrom_cons]
              have hrest := ih rest.length (by rw [← hn]; simp only [List.length_cons]; omega)
                rest rfl
              rw [List.getLast?_cons_cons, List.getLast?_cons_cons, List.getLast?_cons_cons]
              exact hrest
          case h_3 => cases hhead

/-- What is read behind a text and a separator. -/
theorem readFrom_behind (d : Dialect) (below : List Token) (source : List Char) :
    match readFrom d ⟨[], [], none, false⟩ source with
    | .error fault =>
      readFrom d ⟨[], .literal '/' :: below, some '/', false⟩ source = .error fault
    | .ok ts => ∃ us, readFrom d ⟨[], .literal '/' :: below, some '/', false⟩ source =
        .ok (below.reverse ++ us) ∧ Behind ts us ∧
          (us = [.between] → source.getLast? = some '/') := by
  cases hhead : headRecursive source with
  | false =>
      rw [readFrom_below d (.literal '/' :: below) _ hhead]
      cases hread : readFrom d ⟨[], [], none, false⟩ source with
      | error fault => rfl
      | ok ts =>
          refine ⟨.literal '/' :: ts, ?_, .plain (not_mem_readFrom hhead hread).1, by simp⟩
          simp [Except.map]
  | true =>
      unfold headRecursive at hhead
      split at hhead
      case h_1 =>
          rw [readFrom_lone, readFrom_stars]
          exact ⟨[.trailing], by simp [State.replaceLast], .everything, by simp⟩
      case h_2 rest =>
          rw [readFrom_cons, readFrom_cons, List.getLast?_cons_cons, List.getLast?_cons_cons]
          exact readFrom_components d below rest
      case h_3 => cases hhead

def bracketed (c : Char) : List Char :=
  if isSpecial c then ['[', c, ']'] else [c]

theorem toList_escape (s : String) : (escape s).toList = s.toList.flatMap bracketed :=
  String.toList_ofList

def Token.ofChar (c : Char) : Token :=
  if isSpecial c then .oneOf false [(c, c)] else .literal c

theorem isSpecial_iff {c : Char} :
    isSpecial c = true ↔
      c = '?' ∨ c = '*' ∨ c = '[' ∨ c = ']' ∨ c = '\x7b' ∨ c = '\x7d' := by
  simp [isSpecial, or_assoc]

/-- A special character in brackets is a class of its own. -/
theorem readBracket_special {c : Char} (h : isSpecial c = true) (rest : List Char) :
    readBracket (c :: ']' :: rest) = (false, .closed [(c, c)] rest) := by
  rcases isSpecial_iff.1 h with rfl | rfl | rfl | rfl | rfl | rfl <;> rfl

theorem readFrom_bracketed (d : Dialect) (tokens : List Token) (previous : Option Char)
    {c : Char} (hc : c ≠ '\\') (rest : List Char) :
    ∃ last, readFrom d ⟨[], tokens, previous, false⟩ (bracketed c ++ rest) =
      readFrom d ⟨[], Token.ofChar c :: tokens, last, false⟩ rest := by
  rw [bracketed, Token.ofChar]
  by_cases hspecial : isSpecial c = true
  · rw [if_pos hspecial, if_pos hspecial, List.cons_append, readFrom_cons]
    have hbracket : (State.mk [] tokens previous false).next d '[' (c :: ']' :: rest) =
        .ok ((State.mk [] tokens previous false).push (.oneOf false [(c, c)]) ']', rest) := by
      unfold State.next State.takeBracket
      rw [if_neg (by decide), if_neg (by decide), if_pos ⟨rfl, by simp⟩,
        readBracket_special hspecial]
    exact ⟨some ']', by rw [List.cons_append, List.singleton_append, hbracket]; rfl⟩
  · rw [if_neg hspecial, if_neg hspecial, List.singleton_append, readFrom_cons]
    rw [isSpecial_iff] at hspecial
    obtain ⟨hany, hstar, hopen, -, hgroup, hend⟩ :
        c ≠ '?' ∧ c ≠ '*' ∧ c ≠ '[' ∧ c ≠ ']' ∧ c ≠ '\x7b' ∧ c ≠ '\x7d' := by
      simpa using hspecial
    refine ⟨some c, ?_⟩
    unfold State.next
    rw [if_neg hany, if_neg hstar, if_neg fun h => hopen h.1, if_neg hgroup,
      if_neg hend, if_neg hc]
    by_cases hcomma : c = ','
    · rw [if_pos hcomma, hcomma]
      rfl
    · rw [if_neg hcomma]
      rfl

/-- An escaped text reads as its characters. -/
theorem readFrom_escaped (d : Dialect) (tokens : List Token) (previous : Option Char)
    {cs : List Char} (hcs : '\\' ∉ cs) (rest : List Char) :
    ∃ last, readFrom d ⟨[], tokens, previous, false⟩ (cs.flatMap bracketed ++ rest) =
      readFrom d ⟨[], (cs.map Token.ofChar).reverse ++ tokens, last, false⟩ rest := by
  induction cs generalizing tokens previous with
  | nil => exact ⟨previous, rfl⟩
  | cons c cs ih =>
      obtain ⟨hc, hcs⟩ := not_or.1 (List.mem_cons.not.1 hcs)
      obtain ⟨last, hfirst⟩ := readFrom_bracketed d tokens previous (Ne.symm hc)
        (cs.flatMap bracketed ++ rest)
      obtain ⟨last', hrest⟩ := ih (Token.ofChar c :: tokens) last hcs
      refine ⟨last', ?_⟩
      rw [List.flatMap_cons, List.append_assoc, hfirst, hrest, List.map_cons, List.reverse_cons,
        List.append_assoc, List.singleton_append]

theorem readFrom_separator (d : Dialect) (tokens : List Token) (previous : Option Char)
    (rest : List Char) :
    readFrom d ⟨[], tokens, previous, false⟩ ('/' :: rest) =
      readFrom d ⟨[], .literal '/' :: tokens, some '/', false⟩ rest := by
  rw [readFrom_cons]
  rfl

end StyleAudit.Glob
