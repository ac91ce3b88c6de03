import StyleAudit.Proofs.Lossless

/-!
The scanner as a machine that takes one character at a time.

The scanner takes some characters in pairs, and it remembers where a string or a comment was
opened. The machine does neither, and it cuts a source in the same place. So where a statement ends
depends on its own text and on the one character that follows it.
-/

namespace StyleAudit.Reader

/-- What the machine is inside of, or in the middle of. -/
inductive Phase where
  | plain
  /-- After a backslash, which takes the next character with it. -/
  | escaped
  /-- After a slash that may open a comment. -/
  | slashed
  | quoted (quote : Char)
  | quotedEscaped (quote : Char)
  | comment
  /-- After a star that may begin the end mark of a comment. -/
  | starred
deriving DecidableEq, Repr

def Mode.phase : Mode → Phase
  | .plain => .plain
  | .quoted quote _ => .quoted quote
  | .comment _ => .comment

def Phase.mayEnd : Phase → Bool
  | .plain | .escaped | .slashed => true
  | _ => false

/-- The phase and the depth of parentheses after a character outside strings and comments; none if
the statement ends before it. -/
def feedPlain (depth : Nat) (c : Char) : Option (Phase × Nat) :=
  if c = '\\' then some (.escaped, depth)
  else if isQuote c then some (.quoted c, depth)
  else if c = '/' then some (.slashed, depth)
  else if c = '(' then some (.plain, depth + 1)
  else if c = ')' then some (.plain, depth - 1)
  else if isTerminator c && depth == 0 then none
  else some (.plain, depth)

def feed (s : Phase × Nat) (c : Char) : Option (Phase × Nat) :=
  match s with
  | (.plain, depth) => feedPlain depth c
  | (.escaped, depth) => some (.plain, depth)
  | (.slashed, depth) => if c = '*' then some (.comment, depth) else feedPlain depth c
  | (.quoted quote, depth) =>
    if c = '\\' then some (.quotedEscaped quote, depth)
    else if c = quote then some (.plain, depth)
    else some (.quoted quote, depth)
  | (.quotedEscaped quote, depth) => some (.quoted quote, depth)
  | (.comment, depth) => if c = '*' then some (.starred, depth) else some (.comment, depth)
  | (.starred, depth) =>
    if c = '/' then some (.plain, depth)
    else if c = '*' then some (.starred, depth)
    else some (.comment, depth)

def cut (s : Phase × Nat) : List Char → Option (List Char × List Char)
  | [] => if s.1.mayEnd then some ([], []) else none
  | c :: cs =>
    match feed s c with
    | none => some ([], c :: cs)
    | some s => (cut s cs).map fun (text, rest) => (c :: text, rest)

theorem toOption_prepend (cs : List Char) (r : Except FaultAt (List Char × List Char)) :
    (prepend cs r).toOption = r.toOption.map fun (text, rest) => (cs ++ text, rest) := by
  cases r <;> rfl

/-- A result that agrees with the machine after one character. -/
theorem toOption_prepend_one {s t : Phase × Nat} {c : Char} {cs : List Char}
    {r : Except FaultAt (List Char × List Char)} (hc : feed s c = some t)
    (hr : r.toOption = cut t cs) : (prepend [c] r).toOption = cut s (c :: cs) := by
  rw [toOption_prepend, hr]
  simp only [cut, hc, List.singleton_append]

/-- A result that agrees with the machine after two characters. -/
theorem toOption_prepend_two {s t u : Phase × Nat} {c d : Char} {cs : List Char}
    {r : Except FaultAt (List Char × List Char)} (hc : feed s c = some t) (hd : feed t d = some u)
    (hr : r.toOption = cut u cs) : (prepend [c, d] r).toOption = cut s (c :: d :: cs) := by
  rw [← toOption_prepend_one hc (toOption_prepend_one hd hr)]
  cases r <;> rfl

/-- A slash that opens no comment leaves what follows it to be taken as usual. -/
theorem cut_slashed {c : Char} (hc : c ≠ '*') (depth : Nat) (cs : List Char) :
    cut (.slashed, depth) (c :: cs) = cut (.plain, depth) (c :: cs) := by
  simp only [cut, feed, if_neg hc]

/-- A star that ends no comment leaves what follows it to be taken as usual. -/
theorem cut_starred {c : Char} (hc : c ≠ '/') (depth : Nat) (cs : List Char) :
    cut (.starred, depth) (c :: cs) = cut (.comment, depth) (c :: cs) := by
  simp only [cut, feed, if_neg hc]

/-- The scanner cuts a source where the machine stops. -/
theorem toOption_scan (mode : Mode) (depth : Nat) (cur : Cursor) (cs : List Char) :
    (scan mode depth cur cs).toOption = cut (mode.phase, depth) cs := by
  fun_induction scan mode depth cur cs with
  | case1 => rfl
  | case2 => rfl
  | case3 => rfl
  | case4 => rfl
  | case5 depth cur d ds ih => exact toOption_prepend_two rfl rfl ih
  | case6 depth cur c cs hslash hquote ih =>
      exact toOption_prepend_one (by simp [feed, feedPlain, Mode.phase, hslash, hquote]) ih
  | case7 => rfl
  | case8 depth cur ds _ _ ih => exact toOption_prepend_two rfl rfl ih
  | case9 depth cur d ds hstar _ _ ih =>
      exact toOption_prepend_one rfl (ih.trans (cut_slashed hstar depth ds).symm)
  | case10 depth cur cs _ _ _ ih => exact toOption_prepend_one rfl ih
  | case11 depth cur cs _ _ _ _ ih => exact toOption_prepend_one rfl ih
  | case12 depth cur c cs h₁ h₂ h₃ h₄ h₅ hend =>
      simp only [cut, feed, feedPlain, Mode.phase, h₁, h₂, h₃, h₄, h₅, hend]
      rfl
  | case13 depth cur c cs h₁ h₂ h₃ h₄ h₅ hgo ih =>
      refine toOption_prepend_one ?_ ih
      simp only [feed, feedPlain, Mode.phase, h₁, h₂, h₃, h₄, h₅, hgo]
      rfl
  | case14 => rfl
  | case15 quote opened depth cur d ds ih => exact toOption_prepend_two rfl rfl ih
  | case16 opened depth cur c cs hslash ih =>
      exact toOption_prepend_one (by simp [feed, Mode.phase, hslash]) ih
  | case17 quote opened depth cur c cs hslash hquote ih =>
      exact toOption_prepend_one (by simp [feed, Mode.phase, hslash, hquote]) ih
  | case18 opened depth cur c => by_cases hc : c = '*' <;> simp [cut, feed, Mode.phase, hc] <;> rfl
  | case19 opened depth cur c d ds hmark ih =>
      obtain ⟨rfl, rfl⟩ := hmark
      exact toOption_prepend_two rfl rfl ih
  | case20 opened depth cur c d ds hmark ih =>
      by_cases hc : c = '*'
      · have hd : d ≠ '/' := fun hd => hmark ⟨hc, hd⟩
        subst hc
        exact toOption_prepend_one rfl (ih.trans (cut_starred hd depth ds).symm)
      · exact toOption_prepend_one (by simp [feed, Mode.phase, hc]) ih

/-- Whether the statement that led to a phase ends before `rest`. -/
def Stops (s : Phase × Nat) : List Char → Prop
  | [] => s.1.mayEnd
  | c :: _ => feed s c = none

/-- Only the character that follows a statement tells whether it ends. -/
theorem stops_congr {s : Phase × Nat} {rest rest' : List Char} (hhead : rest'.head? = rest.head?)
    (h : Stops s rest) : Stops s rest' := by
  cases rest with
  | nil => rwa [List.head?_eq_none_iff.1 hhead]
  | cons c cs =>
      obtain ⟨ds, rfl⟩ := List.head?_eq_some_iff.1 hhead
      exact h

/-- The machine takes the text that is cut off, and it stops there. -/
theorem cut_eq_some_iff {s : Phase × Nat} {cs text rest : List Char} :
    cut s cs = some (text, rest) ↔
      text ++ rest = cs ∧ ∃ t, text.foldlM feed s = some t ∧ Stops t rest := by
  induction cs generalizing s text with
  | nil =>
      rw [List.append_eq_nil_iff]
      constructor
      · intro h
        by_cases hend : s.1.mayEnd
        · simp only [cut, hend, if_true, Option.some.injEq, Prod.mk.injEq] at h
          obtain ⟨rfl, rfl⟩ := h
          exact ⟨⟨rfl, rfl⟩, s, rfl, hend⟩
        · simp [cut, hend] at h
      · rintro ⟨⟨rfl, rfl⟩, t, ht, hend⟩
        obtain rfl : s = t := Option.some.inj ht
        exact if_pos hend
  | cons c cs ih =>
      cases hfeed : feed s c with
      | none =>
          simp only [cut, hfeed, Option.some.injEq, Prod.mk.injEq]
          constructor
          · rintro ⟨rfl, rfl⟩
            exact ⟨rfl, s, rfl, hfeed⟩
          · rintro ⟨happ, t, ht, -⟩
            cases text with
            | nil => exact ⟨rfl, happ.symm⟩
            | cons d ds =>
                obtain ⟨rfl, -⟩ := List.cons.inj happ
                simp [hfeed] at ht
      | some u =>
          simp only [cut, hfeed]
          constructor
          · intro h
            obtain ⟨⟨front, back⟩, hcut, hsplit⟩ := Option.map_eq_some_iff.1 h
            obtain ⟨rfl, rfl⟩ := Prod.mk.inj hsplit
            obtain ⟨rfl, t, ht, hstop⟩ := ih.1 hcut
            exact ⟨rfl, t, by simpa [hfeed] using ht, hstop⟩
          · rintro ⟨happ, t, ht, hstop⟩
            cases text with
            | nil =>
                obtain rfl : s = t := Option.some.inj ht
                rw [List.nil_append] at happ
                subst happ
                simp [Stops, hfeed] at hstop
            | cons d ds =>
                obtain ⟨rfl, htail⟩ := List.cons.inj happ
                rw [ih.2 ⟨htail, t, by simpa [hfeed] using ht, hstop⟩]
                rfl

/-- Where a statement ends depends on its own text and on the one character that follows it. -/
theorem scan_eq_ok_iff {cur : Cursor} {cs text rest : List Char} :
    scan .plain 0 cur cs = .ok (text, rest) ↔
      text ++ rest = cs ∧ ∃ t, text.foldlM feed (.plain, 0) = some t ∧ Stops t rest := by
  rw [← cut_eq_some_iff, ← Mode.phase, ← toOption_scan .plain 0 cur cs]
  cases scan .plain 0 cur cs <;> simp [Except.toOption]

/-- Whether a string of this phase was opened by a quote. -/
def Phase.Proper : Phase → Prop
  | .quoted quote | .quotedEscaped quote => isQuote quote
  | _ => True

/-- The phases in which an ordinary character changes nothing. -/
def Phase.Settled : Phase → Prop
  | .plain | .comment => True
  | .quoted quote => isQuote quote
  | _ => False

def isOrdinary (c : Char) : Bool :=
  !(isQuote c || isTerminator c || c == '\\' || c == '/' || c == '*' || c == '(' || c == ')')

theorem proper_feed {s t : Phase × Nat} {c : Char} (hs : s.1.Proper) (h : feed s c = some t) :
    t.1.Proper := by
  obtain ⟨phase, depth⟩ := s
  cases phase <;> simp only [feed, feedPlain] at h <;> grind [Phase.Proper]

theorem proper_foldlM {text : List Char} {s t : Phase × Nat} (hs : s.1.Proper)
    (h : text.foldlM feed s = some t) : t.1.Proper := by
  induction text generalizing s with
  | nil => rwa [← Option.some.inj h]
  | cons c cs ih =>
      obtain ⟨u, hu, ht⟩ := Option.bind_eq_some_iff.1 h
      exact ih (proper_feed hs hu) ht

/-- After an ordinary character the phase is settled. -/
theorem settled_feed {s t : Phase × Nat} {c : Char} (hc : isOrdinary c) (hs : s.1.Proper)
    (h : feed s c = some t) : t.1.Settled := by
  obtain ⟨phase, depth⟩ := s
  cases phase <;> simp only [feed, feedPlain] at h <;>
    grind [Phase.Proper, Phase.Settled, isOrdinary]

/-- A settled phase takes an ordinary character and stays. -/
theorem feed_of_settled {s : Phase × Nat} {c : Char} (hc : isOrdinary c) (hs : s.1.Settled) :
    feed s c = some s := by
  obtain ⟨phase, depth⟩ := s
  cases phase <;> simp only [feed, feedPlain] <;> grind [Phase.Settled, isOrdinary]

theorem foldlM_of_settled {text : List Char} {s : Phase × Nat} (htext : ∀ c ∈ text, isOrdinary c)
    (hs : s.1.Settled) : text.foldlM feed s = some s := by
  induction text with
  | nil => rfl
  | cons c cs ih =>
      rw [List.foldlM_cons, feed_of_settled (htext c (by simp)) hs]
      exact ih fun d hd => htext d (by simp [hd])

/-- Ordinary characters after an ordinary one may be exchanged for others. -/
theorem scan_exchange {cur cur' : Cursor} {lead word word' tail rest rest' : List Char} {c : Char}
    (hc : isOrdinary c) (hword : ∀ d ∈ word, isOrdinary d) (hword' : ∀ d ∈ word', isOrdinary d)
    (hhead : rest'.head? = rest.head?)
    (h : scan .plain 0 cur (lead ++ c :: (word ++ tail) ++ rest) =
      .ok (lead ++ c :: (word ++ tail), rest)) :
    scan .plain 0 cur' (lead ++ c :: (word' ++ tail) ++ rest') =
      .ok (lead ++ c :: (word' ++ tail), rest') := by
  obtain ⟨-, t, ht, hstop⟩ := scan_eq_ok_iff.1 h
  refine scan_eq_ok_iff.2 ⟨rfl, t, ?_, stops_congr hhead hstop⟩
  rw [List.foldlM_append] at ht ⊢
  obtain ⟨u, hu, ht⟩ := Option.bind_eq_some_iff.1 ht
  rw [List.foldlM_cons] at ht
  obtain ⟨v, hv, ht⟩ := Option.bind_eq_some_iff.1 ht
  have hsettled := settled_feed hc (proper_foldlM (s := (.plain, 0)) trivial hu) hv
  rw [List.foldlM_append, foldlM_of_settled hword hsettled] at ht
  rw [hu, Option.bind_eq_bind, Option.bind_some, List.foldlM_cons, hv, Option.bind_eq_bind,
    Option.bind_some, List.foldlM_append, foldlM_of_settled hword' hsettled]
  exact ht

/-- A statement may be followed by anything that begins alike. -/
theorem scan_congr {cur cur' : Cursor} {cs text rest rest' : List Char}
    (hhead : rest'.head? = rest.head?) (h : scan .plain 0 cur cs = .ok (text, rest)) :
    scan .plain 0 cur' (text ++ rest') = .ok (text, rest') := by
  obtain ⟨-, t, ht, hstop⟩ := scan_eq_ok_iff.1 h
  exact scan_eq_ok_iff.2 ⟨rfl, t, ht, stops_congr hhead hstop⟩

theorem cons_of_take_succ {n : Nat} {c : Char} {cs cs' : List Char}
    (h : cs'.take (n + 1) = (c :: cs).take (n + 1)) :
    ∃ ds, cs' = c :: ds ∧ ds.take n = cs.take n := by
  cases cs' with
  | nil => simp at h
  | cons d ds =>
      obtain ⟨rfl, htail⟩ := List.cons.inj h
      exact ⟨ds, rfl, htail⟩

/-- A search that goes on behind some characters, and another source that begins alike. -/
theorem after_eq_some {cs cs' : List Char} {limit n : Nat} {r : Except FaultAt (Option Nat)}
    (pre : List Char) (h : colonOffset.after pre.length r = .ok (some n)) (hlimit : n < limit)
    (htake : cs'.take (n + 1) = (pre ++ cs).take (n + 1)) :
    ∃ j ds, r = .ok (some j) ∧ n = pre.length + j ∧ j < limit - pre.length ∧ cs' = pre ++ ds ∧
      ds.take (j + 1) = cs.take (j + 1) := by
  obtain ⟨j, hj, rfl⟩ := colonOffset_after h
  have hpre : cs'.take pre.length = pre := by
    have hhead := congrArg (List.take pre.length) htake
    rwa [List.take_take, List.take_take, Nat.min_eq_left (by omega), List.take_left] at hhead
  have hrest := congrArg (List.drop pre.length) htake
  rw [Nat.add_assoc, List.drop_take, List.drop_take, List.drop_left,
    Nat.add_sub_cancel_left] at hrest
  refine ⟨j, cs'.drop pre.length, hj, rfl, by omega, ?_, hrest⟩
  calc cs' = cs'.take pre.length ++ cs'.drop pre.length := (List.take_append_drop _ _).symm
    _ = pre ++ cs'.drop pre.length := by rw [hpre]

theorem after_eq_ok {k j : Nat} {r : Except FaultAt (Option Nat)} (hr : r = .ok (some j)) :
    colonOffset.after k r = .ok (some (k + j)) := by
  rw [hr, colonOffset.after]

/-- A colon that was found depends on nothing that comes after it. -/
theorem colonOffset_congr {mode mode' : Mode} {limit limit' n : Nat} {cur cur' : Cursor}
    {cs cs' : List Char} (hmode : mode'.phase = mode.phase) (hlimit : n < limit')
    (htake : cs'.take (n + 1) = cs.take (n + 1))
    (h : colonOffset mode limit cur cs = .ok (some n)) :
    colonOffset mode' limit' cur' cs' = .ok (some n) := by
  fun_induction colonOffset mode limit cur cs generalizing mode' n limit' cur' cs' with
  | case1 => cases h
  | case2 => cases h
  | case3 => cases h
  | case4 => cases h
  | case5 limit cur cs hpos =>
      obtain rfl := Option.some.inj (Except.ok.inj h)
      obtain ⟨ds, rfl, -⟩ := cons_of_take_succ htake
      cases mode' <;> cases hmode
      rw [colonOffset.eq_def]
      simp only [if_neg (Nat.ne_of_gt hlimit), if_true]
  | case6 limit cur c cs hpos hcolon hquote ih =>
      obtain ⟨j, ds, hj, rfl, hlt, rfl, hds⟩ := after_eq_some [c] h hlimit htake
      cases mode' <;> cases hmode
      rw [colonOffset.eq_def]
      simp only [List.singleton_append, if_neg (Nat.ne_zero_of_lt hlimit), hcolon, hquote, if_true,
        if_false]
      exact after_eq_ok (ih rfl hlt hds hj)
  | case7 => cases h
  | case8 limit cur hpos ds _ _ ih =>
      obtain ⟨j, fs, hj, rfl, hlt, rfl, hfs⟩ := after_eq_some ['/', '*'] h hlimit htake
      cases mode' <;> cases hmode
      rw [colonOffset.eq_def]
      simp only [List.cons_append, List.nil_append, if_neg (Nat.ne_zero_of_lt hlimit)]
      exact after_eq_ok (ih rfl hlt hfs hj)
  | case9 limit cur hpos d ds hstar _ _ ih =>
      obtain ⟨j, es, hj, rfl, hlt, rfl, hes⟩ := after_eq_some ['/'] h hlimit htake
      obtain ⟨fs, rfl, -⟩ := cons_of_take_succ hes
      cases mode' <;> cases hmode
      rw [colonOffset.eq_def]
      simp only [List.singleton_append, if_neg (Nat.ne_zero_of_lt hlimit), hstar, if_false]
      exact after_eq_ok (ih rfl hlt hes hj)
  | case10 limit cur c cs hpos hcolon hquote hslash ih =>
      obtain ⟨j, ds, hj, rfl, hlt, rfl, hds⟩ := after_eq_some [c] h hlimit htake
      cases mode' <;> cases hmode
      rw [colonOffset.eq_def]
      simp only [List.singleton_append, if_neg (Nat.ne_zero_of_lt hlimit), hcolon, hquote, hslash,
        if_false]
      exact after_eq_ok (ih rfl hlt hds hj)
  | case11 => cases h
  | case12 quote opened limit cur d ds ih =>
      obtain ⟨j, fs, hj, rfl, hlt, rfl, hfs⟩ := after_eq_some ['\\', d] h hlimit htake
      cases mode' <;> cases hmode
      rw [colonOffset.eq_def]
      exact after_eq_ok (ih rfl hlt hfs hj)
  | case13 opened limit cur c cs hslash ih =>
      obtain ⟨j, ds, hj, rfl, hlt, rfl, hds⟩ := after_eq_some [c] h hlimit htake
      cases mode' <;> cases hmode
      rw [colonOffset.eq_def]
      simp only [List.singleton_append, hslash, if_true, if_false]
      exact after_eq_ok (ih rfl hlt hds hj)
  | case14 quote opened limit cur c cs hslash hquote ih =>
      obtain ⟨j, ds, hj, rfl, hlt, rfl, hds⟩ := after_eq_some [c] h hlimit htake
      cases mode' <;> cases hmode
      rw [colonOffset.eq_def]
      simp only [List.singleton_append, hslash, hquote, if_false]
      exact after_eq_ok (ih rfl hlt hds hj)
  | case15 => cases h
  | case16 opened limit cur c d ds hmark ih =>
      obtain ⟨j, fs, hj, rfl, hlt, rfl, hfs⟩ := after_eq_some [c, d] h hlimit htake
      cases mode' <;> cases hmode
      rw [colonOffset.eq_def]
      simp only [List.cons_append, List.nil_append, hmark, and_self, if_true]
      exact after_eq_ok (ih rfl hlt hfs hj)
  | case17 opened limit cur c d ds hmark ih =>
      obtain ⟨j, es, hj, rfl, hlt, rfl, hes⟩ := after_eq_some [c] h hlimit htake
      obtain ⟨fs, rfl, -⟩ := cons_of_take_succ hes
      cases mode' <;> cases hmode
      rw [colonOffset.eq_def]
      simp only [List.singleton_append, hmark, if_false]
      exact after_eq_ok (ih rfl hlt hes hj)

theorem splitLast_eq_none_iff {p : Char → Bool} {cs : List Char} :
    splitLast p cs = none ↔ ∀ c ∈ cs, ¬p c := by
  induction cs with
  | nil => simp [splitLast]
  | cons c cs ih =>
      rw [splitLast, List.forall_mem_cons, ← ih]
      cases splitLast p cs <;> by_cases hc : p c <;> simp [hc]

/-- A text is split after the character that satisfies `p` and has none such behind it. -/
theorem splitLast_eq_some_iff {p : Char → Bool} {cs head tail : List Char} :
    splitLast p cs = some (head, tail) ↔
      ∃ c, p c ∧ head ++ c :: tail = cs ∧ ∀ d ∈ tail, ¬p d := by
  constructor
  · intro h
    induction cs generalizing head with
    | nil => simp [splitLast] at h
    | cons c cs ih =>
        rw [splitLast] at h
        split at h
        · rename_i front back hfound
          obtain ⟨rfl, rfl⟩ := Prod.mk.inj (Option.some.inj h)
          obtain ⟨d, hd, happ, hall⟩ := ih hfound
          exact ⟨d, hd, by rw [List.cons_append, happ], hall⟩
        · rename_i hnone
          split at h
          · rename_i hc
            obtain ⟨rfl, rfl⟩ := Prod.mk.inj (Option.some.inj h)
            exact ⟨c, hc, rfl, splitLast_eq_none_iff.1 hnone⟩
          · simp at h
  · rintro ⟨c, hc, rfl, hall⟩
    induction head with
    | nil =>
        rw [List.nil_append, splitLast, splitLast_eq_none_iff.2 hall]
        exact if_pos hc
    | cons d ds ih => rw [List.cons_append, splitLast, ih]

end StyleAudit.Reader
