import StyleAudit.Glob.Match
import Mathlib.Computability.Language

/-!
What globs mean.

A token stands for a language of byte texts, and tokens in a row for the product of theirs. The
scan of a path keeps exactly those of its prefixes that are words of the tokens read so far; so a
glob matches the paths that are words of its tokens, and a lone `**` matches every path.
-/

namespace StyleAudit.Glob

open scoped Computability

def byteWhere (f : UInt8 → Bool) : Language UInt8 :=
  {u | ∃ b, f b = true ∧ u = [b]}

theorem mem_byteWhere {f : UInt8 → Bool} {u : Bytes} :
    u ∈ byteWhere f ↔ ∃ b, f b = true ∧ u = [b] :=
  Iff.rfl

/-- Any bytes that `f` holds of. -/
theorem mem_kstar_byteWhere {f : UInt8 → Bool} {u : Bytes} :
    u ∈ (byteWhere f)∗ ↔ ∀ b ∈ u, f b = true := by
  rw [Language.mem_kstar]
  constructor
  · rintro ⟨parts, rfl, hparts⟩ b hb
    obtain ⟨part, hpart, hmem⟩ := List.mem_flatten.1 hb
    obtain ⟨c, hc, rfl⟩ := hparts part hpart
    rwa [List.mem_singleton.1 hmem]
  · intro h
    refine ⟨u.map fun b => [b], by simp [← List.flatMap_def], fun part hpart => ?_⟩
    obtain ⟨b, hb, rfl⟩ := List.mem_map.1 hpart
    exact ⟨b, h b hb, rfl⟩

def anyBytes : Language UInt8 := (byteWhere fun _ => true)∗

theorem mem_anyBytes (u : Bytes) : u ∈ anyBytes :=
  mem_kstar_byteWhere.2 fun _ _ => rfl

def oneSeparator : Language UInt8 := byteWhere isSeparator

theorem mem_oneSeparator {u : Bytes} : u ∈ oneSeparator ↔ u = [separator] := by
  constructor
  · rintro ⟨b, hb, rfl⟩
    rw [isSeparator, beq_iff_eq] at hb
    rw [hb]
  · rintro rfl
    exact ⟨separator, rfl, rfl⟩

/-- Any components, each with the separator after it, or nothing. -/
def anyComponents : Language UInt8 := 1 + anyBytes * oneSeparator

theorem mem_anyComponents {u : Bytes} :
    u ∈ anyComponents ↔ u = [] ∨ ∃ v, u = v ++ [separator] := by
  rw [anyComponents, Language.mem_add, Language.mem_one, Language.mem_mul]
  refine or_congr_right ⟨?_, ?_⟩
  · rintro ⟨v, -, w, hw, rfl⟩
    exact ⟨v, by rw [mem_oneSeparator.1 hw]⟩
  · rintro ⟨v, rfl⟩
    exact ⟨v, mem_anyBytes v, [separator], mem_oneSeparator.2 rfl, rfl⟩

mutual

def Token.meaning : Token → Language UInt8
  | .literal c => {String.utf8EncodeChar c}
  | .any => byteWhere fun b => !isSeparator b
  | .star => (byteWhere fun b => !isSeparator b)∗
  | .leading => anyComponents
  | .trailing => oneSeparator * anyBytes
  | .between => oneSeparator * anyComponents
  | .oneOf negated ranges => byteWhere fun b => inRanges ranges b != negated
  | .alternatives branches =>
    if Token.hollowBranches branches then 1 else Token.meaningOfSome branches

def Token.meaningOfAll : List Token → Language UInt8
  | [] => 1
  | t :: ts => t.meaning * Token.meaningOfAll ts

/-- The texts that some branch which is not hollow stands for. -/
def Token.meaningOfSome : List (List Token) → Language UInt8
  | [] => 0
  | b :: bs =>
    (if Token.hollowTokens b then 0 else Token.meaningOfAll b) + Token.meaningOfSome bs

end

theorem Token.meaningOfAll_append (ts us : List Token) :
    Token.meaningOfAll (ts ++ us) = Token.meaningOfAll ts * Token.meaningOfAll us := by
  induction ts with
  | nil => rw [List.nil_append, Token.meaningOfAll, one_mul]
  | cons t ts ih =>
      rw [List.cons_append, Token.meaningOfAll, Token.meaningOfAll, ih, mul_assoc]

namespace Places

/-- Whether the places are those behind the prefixes of a text that are words of a language. -/
structure Reads (p : Places) (s : Bytes) (L : Language UInt8) : Prop where
  length : p.length = s.length + 1
  mem {a : Bytes} (h : a <+: s) : p[a.length]? = some true ↔ a ∈ L

variable {s : Bytes} {p q : Places} {L M : Language UInt8} {f : UInt8 → Bool}

/-- Some bytes up to a place begin with those up to an earlier one. -/
theorem prefix_of_append {a b : Bytes} (h : a ++ b <+: s) : a <+: s :=
  (List.prefix_append a b).trans h

theorem reads_start (s : Bytes) : (start s).Reads s 1 where
  length := by simp [start]
  mem {a} _ := by
    rw [Language.mem_one]
    cases a with
    | nil => simp [start]
    | cons b a => simp [start, List.getElem?_replicate]

theorem reads_none (s : Bytes) : (none s).Reads s 0 where
  length := by simp [none]
  mem {a} _ := by
    refine iff_of_false ?_ (Language.notMem_zero a)
    cases a with
    | nil => simp [none]
    | cons b a => simp [none, List.getElem?_replicate]

theorem Reads.union (hp : p.Reads s L) (hq : q.Reads s M) : (p.union q).Reads s (L + M) where
  length := by simp [Places.union, hp.length, hq.length]
  mem {a} h := by
    have hle := h.length_le
    have hpa := hp.mem h
    have hqa := hq.mem h
    rw [List.getElem?_eq_getElem (by rw [hp.length]; omega)] at hpa
    rw [List.getElem?_eq_getElem (by rw [hq.length]; omega)] at hqa
    rw [Places.union, List.getElem?_zipWith, Language.mem_add, ← hpa, ← hqa,
      List.getElem?_eq_getElem (by rw [hp.length]; omega),
      List.getElem?_eq_getElem (by rw [hq.length]; omega)]
    simp

theorem Reads.step (hp : p.Reads s L) (f : UInt8 → Bool) :
    (p.step f s).Reads s (L * byteWhere f) where
  length := by simp [Places.step, hp.length]
  mem {a} h := by
    rw [Language.mem_mul, Places.step]
    rcases List.eq_nil_or_concat' a with rfl | ⟨c, b, rfl⟩
    · refine iff_of_false (by simp) ?_
      rintro ⟨c, -, u, ⟨b, -, rfl⟩, heq⟩
      simp at heq
    · obtain ⟨rest, rfl⟩ := h
      have hc : c <+: (c ++ [b]) ++ rest := prefix_of_append (List.prefix_append _ _)
      have hlength := hp.length
      have hplace := hp.mem hc
      have hlt : c.length < p.length := by
        rw [hlength]
        simp only [List.length_append]
        omega
      rw [List.getElem?_eq_getElem hlt, Option.some.injEq] at hplace
      have hbyte : ((c ++ [b]) ++ rest)[c.length]? = some b := by simp
      rw [List.length_append, List.length_singleton, List.getElem?_cons_succ,
        List.getElem?_zipWith, hbyte, List.getElem?_eq_getElem hlt]
      simp only [Option.some.injEq, Bool.and_eq_true, hplace]
      constructor
      · rintro ⟨hL, hf⟩
        exact ⟨c, hL, [b], ⟨b, hf, rfl⟩, rfl⟩
      · rintro ⟨c', hL, u, ⟨b', hf, rfl⟩, heq⟩
        obtain ⟨rfl, hb⟩ := List.append_inj' heq rfl
        obtain rfl := (List.cons.inj hb).1
        exact ⟨hL, hf⟩

theorem length_stepsFrom (f : UInt8 → Bool) (running : Bool) (s : Bytes) (p : Places) :
    (stepsFrom f running s p).length = p.length := by
  induction s generalizing running p with
  | nil => simp [stepsFrom]
  | cons b s ih =>
      cases p with
      | nil => simp [stepsFrom]
      | cons here p => simp [stepsFrom, ih]

/-- A run that goes on from the left, or one that begins at a place that has been reached. -/
theorem getElem?_stepsFrom {running : Bool} {a : Bytes} (hlength : p.length = s.length + 1)
    (h : a <+: s) :
    (stepsFrom f running s p)[a.length]? = some true ↔
      (running = true ∧ ∀ b ∈ a, f b = true) ∨
        ∃ c u, a = c ++ u ∧ p[c.length]? = some true ∧ ∀ b ∈ u, f b = true := by
  induction s generalizing running p a with
  | nil =>
      obtain rfl := List.prefix_nil.1 h
      obtain ⟨here, rfl⟩ := List.length_eq_one_iff.1 hlength
      simp [stepsFrom, or_comm]
  | cons first s ih =>
      obtain ⟨here, p, rfl⟩ : ∃ here rest, p = here :: rest := by
        cases p with
        | nil => simp at hlength
        | cons here p => exact ⟨here, p, rfl⟩
      rw [stepsFrom]
      cases a with
      | nil => simp [or_comm]
      | cons b a =>
          obtain ⟨rfl, ha⟩ := List.cons_prefix_cons.1 h
          rw [List.length_cons, List.getElem?_cons_succ, ih (by simpa using hlength) ha]
          constructor
          · rintro (⟨hrun, hall⟩ | ⟨c, u, rfl, hc, hu⟩)
            · rw [Bool.and_eq_true, Bool.or_eq_true] at hrun
              obtain ⟨hhere | hrunning, hfirst⟩ := hrun
              · exact .inr ⟨[], b :: a, rfl, by simp [hhere], by simpa [hfirst] using hall⟩
              · exact .inl ⟨hrunning, by simpa [hfirst] using hall⟩
            · exact .inr ⟨b :: c, u, rfl, by simpa using hc, hu⟩
          · rintro (⟨hrun, hall⟩ | ⟨c, u, heq, hc, hu⟩)
            · rw [List.forall_mem_cons] at hall
              exact .inl ⟨by simp [hrun, hall.1], hall.2⟩
            · cases c with
              | nil =>
                  obtain rfl : b :: a = u := heq
                  rw [List.forall_mem_cons] at hu
                  have hhere : here = true := by simpa using hc
                  exact .inl ⟨by simp [hhere, hu.1], hu.2⟩
              | cons b' c =>
                  obtain ⟨rfl, rfl⟩ := List.cons.inj heq
                  exact .inr ⟨c, u, rfl, by simpa using hc, hu⟩

theorem Reads.steps (hp : p.Reads s L) (f : UInt8 → Bool) :
    (p.steps f s).Reads s (L * (byteWhere f)∗) where
  length := by rw [Places.steps, length_stepsFrom, hp.length]
  mem {a} h := by
    rw [Places.steps, getElem?_stepsFrom hp.length h, Language.mem_mul]
    simp only [Bool.false_eq_true, false_and, false_or]
    constructor
    · rintro ⟨c, u, rfl, hc, hu⟩
      exact ⟨c, (hp.mem (prefix_of_append h)).1 hc, u, mem_kstar_byteWhere.2 hu, rfl⟩
    · rintro ⟨c, hc, u, hu, rfl⟩
      exact ⟨c, u, rfl, (hp.mem (prefix_of_append h)).2 hc, mem_kstar_byteWhere.1 hu⟩

theorem Reads.text (hp : p.Reads s L) (bs : Bytes) : (p.text bs s).Reads s (L * {bs}) := by
  rw [Places.text]
  induction bs generalizing p L with
  | nil =>
      have hone : ({[]} : Language UInt8) = 1 := rfl
      rw [hone, mul_one]
      exact hp
  | cons b bs ih =>
      have hcons : ({b :: bs} : Language UInt8) = byteWhere (· == b) * {bs} := by
        ext u
        rw [Language.mem_mul]
        constructor
        · rintro rfl
          exact ⟨[b], ⟨b, by simp, rfl⟩, bs, rfl, rfl⟩
        · rintro ⟨v, ⟨c, hc, rfl⟩, w, rfl, rfl⟩
          rw [beq_iff_eq] at hc
          rw [hc]
          rfl
      rw [List.foldl_cons, hcons, ← mul_assoc]
      exact ih (hp.step _)

theorem Reads.components (hp : p.Reads s L) : (p.components s).Reads s (L * anyComponents) := by
  rw [Places.components, anyComponents, mul_add, mul_one, ← mul_assoc]
  exact hp.union ((hp.steps _).step _)

theorem Reads.atEnd (hp : p.Reads s L) : p.atEnd = true ↔ s ∈ L := by
  have hlast : p[s.length]? = p.getLast? := by
    rw [List.getLast?_eq_getElem?, hp.length, Nat.add_sub_cancel]
  rw [← hp.mem (List.prefix_refl s), hlast, Places.atEnd, List.getLastD_eq_getLast?]
  cases p.getLast? <;> simp

end Places

mutual

/-- A token takes the words so far on to those that a text of the token follows. -/
theorem Token.reads_reach {s : Bytes} {p : Places} {L : Language UInt8} (hp : p.Reads s L) :
    (t : Token) → (t.reach s p).Reads s (L * t.meaning)
  | .literal c => hp.text _
  | .any => hp.step _
  | .star => hp.steps _
  | .leading => hp.components
  | .trailing => by
      rw [Token.meaning, ← mul_assoc]
      exact (hp.step _).steps _
  | .between => by
      rw [Token.meaning, ← mul_assoc]
      exact (hp.step _).components
  | .oneOf negated ranges => hp.step _
  | .alternatives branches => by
      rw [Token.reach, Token.meaning]
      by_cases hhollow : Token.hollowBranches branches = true
      · rw [if_pos hhollow, if_pos hhollow, mul_one]
        exact hp
      · rw [if_neg hhollow, if_neg hhollow]
        exact Token.reads_reachBranches hp branches

theorem Token.reads_reachAll {s : Bytes} {p : Places} {L : Language UInt8} (hp : p.Reads s L) :
    (ts : List Token) → (Token.reachAll s ts p).Reads s (L * Token.meaningOfAll ts)
  | [] => by
      rw [Token.reachAll, Token.meaningOfAll, mul_one]
      exact hp
  | t :: ts => by
      rw [Token.reachAll, Token.meaningOfAll, ← mul_assoc]
      exact Token.reads_reachAll (Token.reads_reach hp t) ts

theorem Token.reads_reachBranches {s : Bytes} {p : Places} {L : Language UInt8}
    (hp : p.Reads s L) :
    (bs : List (List Token)) →
      (Token.reachBranches s bs p).Reads s (L * Token.meaningOfSome bs)
  | [] => by
      rw [Token.reachBranches, Token.meaningOfSome, mul_zero]
      exact Places.reads_none s
  | b :: bs => by
      have hothers := Token.reads_reachBranches hp bs
      rw [Token.reachBranches, Token.meaningOfSome, mul_add]
      by_cases hhollow : Token.hollowTokens b = true
      · rw [if_pos hhollow, if_pos hhollow, mul_zero, zero_add]
        exact hothers
      · rw [if_neg hhollow, if_neg hhollow]
        exact (Token.reads_reachAll hp b).union hothers

end

def Token.meaningOfGlob : List Token → Language UInt8
  | [.leading] => anyBytes
  | ts => Token.meaningOfAll ts

theorem Token.meaningOfGlob_eq {ts : List Token} (h : ts ≠ [.leading]) :
    Token.meaningOfGlob ts = Token.meaningOfAll ts := by
  unfold Token.meaningOfGlob
  split
  case h_1 => exact (h rfl).elim
  case h_2 => rfl

/-- A glob matches the paths that it stands for. -/
theorem isMatch_iff {g : Glob} {path : String} :
    g.isMatch path = true ↔ bytesOf path.toList ∈ Token.meaningOfGlob g.tokens := by
  obtain ⟨source, tokens⟩ := g
  have hreads := Token.reads_reachAll (Places.reads_start (bytesOf path.toList)) tokens
  rw [one_mul] at hreads
  unfold isMatch
  dsimp only
  split
  case h_1 => exact iff_of_true rfl (mem_anyBytes _)
  case h_2 hne =>
      rw [Token.meaningOfGlob_eq hne]
      exact hreads.atEnd

end StyleAudit.Glob
