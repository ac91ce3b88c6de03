import StyleAudit.Proofs.Scanning

/-!
Strings and comments are skipped as a whole.

The reader looks for the end of a statement and for its colon one character at a time, with a mode
for what it is inside of. Outside strings and comments its loops take a piece at a time: a string, a
comment, an escape or one character. Where the pieces end does not depend on the place at which the
source begins, and neither does what is wrong with it: only the place of a fault does.
-/

namespace StyleAudit.Reader

/-- The text up to the quote that ends a string, with that quote, and what follows it. -/
def stringBody (quote : Char) : List Char → Option (List Char × List Char)
  | [] => none
  | c :: cs =>
    if c = '\\' then
      match cs with
      | [] => none
      | d :: ds => (stringBody quote ds).map fun (body, rest) => (c :: d :: body, rest)
    else if c = quote then some ([c], cs)
    else (stringBody quote cs).map fun (body, rest) => (c :: body, rest)

theorem stringBody_append {quote : Char} {cs body rest : List Char}
    (h : stringBody quote cs = some (body, rest)) : body ++ rest = cs := by
  fun_induction stringBody quote cs generalizing body with
  | case1 => cases h
  | case2 => cases h
  | case3 d ds ih =>
      obtain ⟨⟨front, back⟩, hbody, hpair⟩ := Option.map_eq_some_iff.1 h
      obtain ⟨rfl, rfl⟩ := Prod.mk.inj hpair
      rw [List.cons_append, List.cons_append, ih hbody]
  | case4 cs hquote =>
      obtain ⟨rfl, rfl⟩ := Prod.mk.inj (Option.some.inj h)
      rfl
  | case5 c cs hslash hquote ih =>
      obtain ⟨⟨front, back⟩, hbody, hpair⟩ := Option.map_eq_some_iff.1 h
      obtain ⟨rfl, rfl⟩ := Prod.mk.inj hpair
      rw [List.cons_append, ih hbody]

theorem prepend_prepend (a b : List Char) (r : Except FaultAt (List Char × List Char)) :
    prepend a (prepend b r) = prepend (a ++ b) r := by
  cases r with
  | error e => rfl
  | ok p => rw [prepend, prepend, prepend, List.append_assoc]

theorem after_after (m n : Nat) (r : Except FaultAt (Option Nat)) :
    colonOffset.after m (colonOffset.after n r) = colonOffset.after (m + n) r := by
  match r with
  | .error e => rfl
  | .ok none => rfl
  | .ok (some k) => rw [colonOffset.after, colonOffset.after, colonOffset.after, Nat.add_assoc]

variable {quote : Char} {opened cur : Cursor} {depth limit : Nat}

/-- Inside a string the scan goes on behind the quote that ends it. -/
theorem scan_quoted (cs : List Char) :
    scan (.quoted quote opened) depth cur cs =
      match stringBody quote cs with
      | none => .error ⟨.unclosedString, opened⟩
      | some (body, rest) => prepend body (scan .plain depth (cur.advanceAll body) rest) := by
  fun_induction stringBody quote cs generalizing cur with
  | case1 => rfl
  | case2 => rfl
  | case3 d ds ih =>
      rw [scan.eq_def]
      simp only [if_true, ih]
      cases stringBody quote ds with
      | none => rfl
      | some p => exact prepend_prepend ['\\', d] p.1 _
  | case4 cs hslash =>
      rw [scan.eq_def]
      simp only [hslash, if_true, if_false]
      rfl
  | case5 c cs hslash hquote ih =>
      rw [scan.eq_def]
      simp only [hslash, hquote, if_false, ih]
      cases stringBody quote cs with
      | none => rfl
      | some p => exact prepend_prepend [c] p.1 _

/-- Inside a comment the scan goes on behind the mark that ends it. -/
theorem scan_comment (cs : List Char) :
    scan (.comment opened) depth cur cs =
      match commentBody cs with
      | none => .error ⟨.unclosedComment, opened⟩
      | some (body, rest) =>
        prepend (body ++ ['*', '/'])
          (scan .plain depth (cur.advanceAll (body ++ ['*', '/'])) rest) := by
  fun_induction commentBody cs generalizing cur with
  | case1 => rfl
  | case2 => rfl
  | case3 c d ds hmark =>
      obtain ⟨rfl, rfl⟩ := hmark
      rfl
  | case4 c d ds hmark ih =>
      rw [scan.eq_def]
      simp only [hmark, if_false, ih]
      cases commentBody (d :: ds) with
      | none => rfl
      | some p => exact prepend_prepend [c] (p.1 ++ ['*', '/']) _

theorem colonOffset_quoted (cs : List Char) :
    colonOffset (.quoted quote opened) limit cur cs =
      match stringBody quote cs with
      | none => .error ⟨.unclosedString, opened⟩
      | some (body, rest) =>
        colonOffset.after body.length
          (colonOffset .plain (limit - body.length) (cur.advanceAll body) rest) := by
  fun_induction stringBody quote cs generalizing cur limit with
  | case1 => rfl
  | case2 => rfl
  | case3 d ds ih =>
      rw [colonOffset.eq_def]
      simp only [if_true, ih]
      cases stringBody quote ds with
      | none => rfl
      | some p =>
          simp only [Option.map_some, List.length_cons]
          rw [after_after, Nat.sub_sub, Nat.add_comm 2]
          rfl
  | case4 cs hslash =>
      rw [colonOffset.eq_def]
      simp only [hslash, if_true, if_false]
      rfl
  | case5 c cs hslash hquote ih =>
      rw [colonOffset.eq_def]
      simp only [hslash, hquote, if_false, ih]
      cases stringBody quote cs with
      | none => rfl
      | some p =>
          simp only [Option.map_some, List.length_cons]
          rw [after_after, Nat.sub_sub, Nat.add_comm 1]
          rfl

theorem colonOffset_comment (cs : List Char) :
    colonOffset (.comment opened) limit cur cs =
      match commentBody cs with
      | none => .error ⟨.unclosedComment, opened⟩
      | some (body, rest) =>
        colonOffset.after (body.length + 2)
          (colonOffset .plain (limit - (body.length + 2)) (cur.advanceAll (body ++ ['*', '/']))
            rest) := by
  fun_induction commentBody cs generalizing cur limit with
  | case1 => rfl
  | case2 => rfl
  | case3 c d ds hmark =>
      obtain ⟨rfl, rfl⟩ := hmark
      rfl
  | case4 c d ds hmark ih =>
      rw [colonOffset.eq_def]
      simp only [hmark, if_false, ih]
      cases commentBody (d :: ds) with
      | none => rfl
      | some p =>
          simp only [Option.map_some, List.length_cons]
          rw [after_after, Nat.sub_sub, Nat.add_comm 1, Nat.add_right_comm]
          rfl

/-! ### One piece at a time -/

/-- What a source begins with, for a loop that skips strings and comments. -/
inductive Head : List Char → Prop where
  | nil : Head []
  | string {quote : Char} {cs : List Char} (hquote : isQuote quote) : Head (quote :: cs)
  | comment {cs : List Char} : Head ('/' :: '*' :: cs)
  | slash {cs : List Char} (hmark : cs.head? ≠ some '*') : Head ('/' :: cs)
  | other {c : Char} {cs : List Char} (hquote : ¬isQuote c) (hslash : c ≠ '/') : Head (c :: cs)

theorem head_cases (cs : List Char) : Head cs := by
  cases cs with
  | nil => exact .nil
  | cons c cs =>
      by_cases hquote : isQuote c
      · exact .string hquote
      · by_cases hslash : c = '/'
        · subst hslash
          by_cases hmark : cs.head? = some '*'
          · obtain ⟨ds, rfl⟩ := List.head?_eq_some_iff.1 hmark
            exact .comment
          · exact .slash hmark
        · exact .other hquote hslash

theorem scan_string {c : Char} {cs : List Char} (hquote : isQuote c) :
    scan .plain depth cur (c :: cs) =
      match stringBody c cs with
      | none => .error ⟨.unclosedString, cur⟩
      | some (body, rest) =>
        prepend (c :: body) (scan .plain depth (cur.advanceAll (c :: body)) rest) := by
  have hescape : c ≠ '\\' := by
    rintro rfl
    cases hquote
  rw [scan.eq_def]
  simp only [hescape, hquote, if_true, if_false, scan_quoted]
  cases stringBody c cs with
  | none => rfl
  | some p => exact prepend_prepend [c] p.1 _

theorem scan_mark {cs : List Char} :
    scan .plain depth cur ('/' :: '*' :: cs) =
      match commentBody cs with
      | none => .error ⟨.unclosedComment, cur⟩
      | some (body, rest) =>
        prepend ('/' :: '*' :: (body ++ ['*', '/']))
          (scan .plain depth (cur.advanceAll ('/' :: '*' :: (body ++ ['*', '/']))) rest) := by
  rw [scan.eq_def]
  change prepend ['/', '*'] (scan (.comment cur) depth ((cur.advance '/').advance '*') cs) = _
  rw [scan_comment]
  cases commentBody cs with
  | none => rfl
  | some p => exact prepend_prepend ['/', '*'] (p.1 ++ ['*', '/']) _

/-- A slash that opens no comment is taken like any other character. -/
theorem scan_slash {cs : List Char} (hmark : cs.head? ≠ some '*') (depth : Nat) (cur : Cursor) :
    scan .plain depth cur ('/' :: cs) = prepend ['/'] (scan .plain depth (cur.advance '/') cs) := by
  rw [scan.eq_def]
  cases cs with
  | nil => rfl
  | cons d ds =>
      have hd : d ≠ '*' := fun hd => hmark (by rw [hd]; rfl)
      simp only [hd, if_false]
      rfl

theorem scan_other {c : Char} (hquote : ¬isQuote c) (hslash : c ≠ '/') (hescape : c ≠ '\\')
    (depth : Nat) (cur : Cursor) (cs : List Char) :
    scan .plain depth cur (c :: cs) =
      if c = '(' then prepend [c] (scan .plain (depth + 1) (cur.advance c) cs)
      else if c = ')' then prepend [c] (scan .plain (depth - 1) (cur.advance c) cs)
      else if isTerminator c && depth == 0 then .ok ([], c :: cs)
      else prepend [c] (scan .plain depth (cur.advance c) cs) := by
  rw [scan.eq_def]
  simp only [hquote, hslash, hescape, if_false, Bool.false_eq_true]

theorem colonOffset_string {c : Char} {cs : List Char} (hquote : isQuote c) (hlimit : limit ≠ 0) :
    colonOffset .plain limit cur (c :: cs) =
      match stringBody c cs with
      | none => .error ⟨.unclosedString, cur⟩
      | some (body, rest) =>
        colonOffset.after (c :: body).length
          (colonOffset .plain (limit - (c :: body).length) (cur.advanceAll (c :: body)) rest) := by
  have hcolon : c ≠ ':' := by
    rintro rfl
    cases hquote
  rw [colonOffset.eq_def]
  simp only [hlimit, hcolon, hquote, if_true, if_false, colonOffset_quoted]
  cases stringBody c cs with
  | none => rfl
  | some p =>
      dsimp only
      rw [after_after, Nat.sub_sub, Nat.add_comm 1]
      rfl

theorem colonOffset_mark {cs : List Char} (hlimit : limit ≠ 0) :
    colonOffset .plain limit cur ('/' :: '*' :: cs) =
      match commentBody cs with
      | none => .error ⟨.unclosedComment, cur⟩
      | some (body, rest) =>
        colonOffset.after ('/' :: '*' :: (body ++ ['*', '/'])).length
          (colonOffset .plain (limit - ('/' :: '*' :: (body ++ ['*', '/'])).length)
            (cur.advanceAll ('/' :: '*' :: (body ++ ['*', '/']))) rest) := by
  rw [colonOffset.eq_def]
  simp only [hlimit, if_false]
  change colonOffset.after 2
    (colonOffset (.comment cur) (limit - 2) ((cur.advance '/').advance '*') cs) = _
  rw [colonOffset_comment]
  cases commentBody cs with
  | none => rfl
  | some p =>
      have hlength : ('/' :: '*' :: (p.1 ++ ['*', '/'])).length = 2 + (p.1.length + 2) := by
        simp only [List.length_cons, List.length_append, List.length_nil]
        omega
      dsimp only
      rw [after_after, Nat.sub_sub, hlength]
      rfl

theorem colonOffset_slash {limit : Nat} {cs : List Char} (hmark : cs.head? ≠ some '*')
    (hlimit : limit ≠ 0) (cur : Cursor) :
    colonOffset .plain limit cur ('/' :: cs) =
      colonOffset.after 1 (colonOffset .plain (limit - 1) (cur.advance '/') cs) := by
  rw [colonOffset.eq_def]
  simp only [hlimit, if_false]
  cases cs with
  | nil => rfl
  | cons d ds =>
      have hd : d ≠ '*' := fun hd => hmark (by rw [hd]; rfl)
      simp only [hd, if_false]
      rfl

theorem colonOffset_other {c : Char} (hquote : ¬isQuote c) (hslash : c ≠ '/') (hlimit : limit ≠ 0)
    (cur : Cursor) (cs : List Char) :
    colonOffset .plain limit cur (c :: cs) =
      if c = ':' then .ok (some 0)
      else colonOffset.after 1 (colonOffset .plain (limit - 1) (cur.advance c) cs) := by
  rw [colonOffset.eq_def]
  simp only [hlimit, hquote, hslash, if_false, Bool.false_eq_true]

/-! ### Faults -/

/-- What begins where a string or a comment is reported: one that has no end. -/
inductive Unclosed : Fault → List Char → Prop where
  | string {quote : Char} {cs : List Char} (hquote : isQuote quote)
      (hopen : stringBody quote cs = none) : Unclosed .unclosedString (quote :: cs)
  | comment {cs : List Char} (hopen : commentBody cs = none) :
      Unclosed .unclosedComment ('/' :: '*' :: cs)

/-- What is read from a source, apart from the place at which the source begins: either the same
wherever that is, or a fault whose place is always equally far behind. -/
inductive Anywhere {α : Type} (source : List Char) (read : Cursor → Except FaultAt α) : Prop where
  | found (a : α) (h : ∀ cur, read cur = .ok a)
  | fault {fault : Fault} {back : List Char} (front : List Char) (hsource : source = front ++ back)
      (hopen : Unclosed fault back)
      (h : ∀ cur, read cur = .error ⟨fault, cur.advanceAll front⟩)

/-- A piece is put before what is read from the rest. -/
theorem Anywhere.put {α : Type} {cs front rest : List Char}
    {read next : Cursor → Except FaultAt α} (hcs : cs = front ++ rest) (hrest : Anywhere rest next)
    (put : Except FaultAt α → Except FaultAt α) (herror : ∀ e, put (.error e) = .error e)
    (hok : ∀ a, ∃ b, put (.ok a) = .ok b)
    (h : ∀ cur, read cur = put (next (cur.advanceAll front))) : Anywhere cs read := by
  subst hcs
  cases hrest with
  | found a hnext =>
      obtain ⟨b, hb⟩ := hok a
      exact .found b fun cur => by rw [h, hnext, hb]
  | fault later hsource hopen hnext =>
      refine .fault (front ++ later) (by rw [hsource, List.append_assoc]) hopen fun cur => ?_
      rw [h, hnext, herror, Cursor.advanceAll_append]

/-- A rest that is shorter than a source, behind a piece of it. -/
theorem length_lt_of_piece {cs front rest : List Char} (hcs : cs = front ++ rest)
    (hne : front ≠ []) : rest.length < cs.length := by
  have := List.length_pos_iff.2 hne
  rw [hcs, List.length_append]
  omega

theorem mark_append {body rest : List Char} :
    '/' :: '*' :: (body ++ '*' :: '/' :: rest) =
      ('/' :: '*' :: (body ++ ['*', '/'])) ++ rest := by
  simp

/-- Where a statement ends, and what is wrong in it, does not depend on where it begins. -/
theorem scan_anywhere (depth : Nat) (cs : List Char) :
    Anywhere cs fun cur => scan .plain depth cur cs := by
  induction hn : cs.length using Nat.strongRecOn generalizing depth cs with
  | ind n ih =>
    subst hn
    have hpiece (front rest : List Char) (depth' : Nat) (hcs : cs = front ++ rest)
        (hne : front ≠ [])
        (h : ∀ cur, scan .plain depth cur cs =
          prepend front (scan .plain depth' (cur.advanceAll front) rest)) :
        Anywhere cs fun cur => scan .plain depth cur cs :=
      (ih _ (length_lt_of_piece hcs hne) depth' rest rfl).put hcs (prepend front) (fun _ => rfl)
        (fun a => ⟨(front ++ a.1, a.2), rfl⟩) h
    cases head_cases cs with
    | nil => exact .found ([], []) fun _ => rfl
    | @string quote cs hquote =>
        cases hbody : stringBody quote cs with
        | none =>
            exact .fault [] rfl (.string hquote hbody)
              fun cur => by rw [scan_string hquote, hbody]; rfl
        | some p =>
            refine hpiece (quote :: p.1) p.2 depth ?_ (by simp)
              fun cur => by rw [scan_string hquote, hbody]
            rw [List.cons_append, stringBody_append hbody]
    | @comment cs =>
        cases hbody : commentBody cs with
        | none =>
            exact .fault [] rfl (.comment hbody)
              fun cur => by rw [scan_mark, hbody]; rfl
        | some p =>
            refine hpiece ('/' :: '*' :: (p.1 ++ ['*', '/'])) p.2 depth ?_ (by simp)
              fun cur => by rw [scan_mark, hbody]
            rw [← mark_append, commentBody_append hbody]
    | @slash cs hmark => exact hpiece ['/'] cs depth rfl (by simp) (scan_slash hmark depth)
    | @other c cs hquote hslash =>
        by_cases hescape : c = '\\'
        · subst hescape
          cases cs with
          | nil => exact .found (['\\'], []) fun _ => rfl
          | cons d ds => exact hpiece ['\\', d] ds depth rfl (by simp) fun _ => rfl
        · have hscan := scan_other hquote hslash hescape depth
          by_cases hopen : c = '('
          · exact hpiece [c] cs (depth + 1) rfl (by simp)
              fun cur => (hscan cur cs).trans (if_pos hopen)
          · by_cases hclose : c = ')'
            · exact hpiece [c] cs (depth - 1) rfl (by simp)
                fun cur => by rw [hscan, if_neg hopen, if_pos hclose]; rfl
            · by_cases hstop : isTerminator c && depth == 0
              · exact .found ([], c :: cs)
                  fun cur => by rw [hscan, if_neg hopen, if_neg hclose, if_pos hstop]
              · exact hpiece [c] cs depth rfl (by simp)
                  fun cur => by rw [hscan, if_neg hopen, if_neg hclose, if_neg hstop]; rfl

theorem colonOffset_anywhere (limit : Nat) (cs : List Char) :
    Anywhere cs fun cur => colonOffset .plain limit cur cs := by
  induction hn : cs.length using Nat.strongRecOn generalizing limit cs with
  | ind n ih =>
    subst hn
    have hpiece (front rest : List Char) (hcs : cs = front ++ rest) (hne : front ≠ [])
        (h : ∀ cur, colonOffset .plain limit cur cs = colonOffset.after front.length
          (colonOffset .plain (limit - front.length) (cur.advanceAll front) rest)) :
        Anywhere cs fun cur => colonOffset .plain limit cur cs :=
      (ih _ (length_lt_of_piece hcs hne) _ rest rfl).put hcs (colonOffset.after front.length)
        (fun _ => rfl) (fun a => by cases a <;> exact ⟨_, rfl⟩) h
    by_cases hlimit : limit = 0
    · subst hlimit
      refine .found none fun cur => ?_
      rw [colonOffset.eq_def]
      cases cs <;> rfl
    cases head_cases cs with
    | nil => exact .found none fun _ => rfl
    | @string quote cs hquote =>
        cases hbody : stringBody quote cs with
        | none =>
            exact .fault [] rfl (.string hquote hbody)
              fun cur => by rw [colonOffset_string hquote hlimit, hbody]; rfl
        | some p =>
            refine hpiece (quote :: p.1) p.2 ?_ (by simp)
              fun cur => by rw [colonOffset_string hquote hlimit, hbody]
            rw [List.cons_append, stringBody_append hbody]
    | @comment cs =>
        cases hbody : commentBody cs with
        | none =>
            exact .fault [] rfl (.comment hbody)
              fun cur => by rw [colonOffset_mark hlimit, hbody]; rfl
        | some p =>
            refine hpiece ('/' :: '*' :: (p.1 ++ ['*', '/'])) p.2 ?_ (by simp)
              fun cur => by rw [colonOffset_mark hlimit, hbody]
            rw [← mark_append, commentBody_append hbody]
    | @slash cs hmark => exact hpiece ['/'] cs rfl (by simp) (colonOffset_slash hmark hlimit)
    | @other c cs hquote hslash =>
        have hsearch := colonOffset_other hquote hslash hlimit
        by_cases hcolon : c = ':'
        · exact .found (some 0) fun cur => (hsearch cur cs).trans (if_pos hcolon)
        · exact hpiece [c] cs rfl (by simp) fun cur => (hsearch cur cs).trans (if_neg hcolon)

end StyleAudit.Reader
