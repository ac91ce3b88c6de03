import StyleAudit.Disable.Range
import StyleAudit.Proofs.Placement

/-!
What directive comments suppress.

The law is about the directives of a sheet in their order: `Directive.suppresses` says what one of
them does, given those that follow it. The collector is shown to declare, for every directive, the
ranges that the law gives it, so that keeping what no range covers is keeping what no directive
suppresses.
-/

namespace StyleAudit

abbrev PlacedDirective := Directive × Location

namespace Directive

/-- Whether a directive is about a rule: it has no rules or names it. -/
def concerns (d : Directive) (rule : String) : Bool :=
  d.rules.isEmpty || d.rules.contains rule

/--
Whether a directive ends what an earlier one disabled: every range if it has no rules, else the
ranges of the rules it names, and never a range for all rules.
-/
def ends (d : Directive) (target : Option String) : Bool :=
  d.command == .enable && (d.rules.isEmpty || target.any d.rules.contains)

def endLine? (after : List PlacedDirective) (target : Option String) : Option Nat :=
  (after.find? fun p => p.1.ends target).map fun p => p.2.start.line

/-- What the range of a directive for one rule is open for: the rule, or all rules. -/
def target (d : Directive) (rule : String) : Option String :=
  if d.rules.isEmpty then none else some rule

/-- Whether a directive at a location, with `after` behind it, suppresses a warning. -/
def suppresses (d : Directive) (l : Location) (after : List PlacedDirective) (w : Warning) :
    Bool :=
  d.concerns w.rule && (match d.command with
    | .disableLine => w.line == l.start.line
    | .disableNextLine => w.line == Position.following l.stop.line
    | .disable => l.start.line ≤ w.line && (endLine? after (d.target w.rule)).all (w.line ≤ ·)
    | .enable => false)

def suppressed (w : Warning) : List PlacedDirective → Bool
  | [] => false
  | (d, l) :: after => d.suppresses l after w || suppressed w after

end Directive

/-- The directive that a comment is, with its place. -/
def Comment.directive? (c : Comment) : Option PlacedDirective :=
  match c.source, Directive.parse? c.text with
  | some source, some d => some (d, source.location)
  | _, _ => none

def Sheet.directives (s : Sheet) : List PlacedDirective :=
  s.comments.filterMap Comment.directive?

namespace DisabledRange

/-- The range as it is after more directives: one that is open ends at the first that ends it. -/
def endedBy (after : List PlacedDirective) (r : DisabledRange) : DisabledRange :=
  { r with stop := r.stop <|> Directive.endLine? after r.rule }

/-- The ranges that a directive adds, before others follow it. -/
def openedBy (d : Directive) (l : Location) : List DisabledRange :=
  match d.command with
  | .disable => declaredBy d l.start.line none l.start
  | .disableLine => declaredBy d l.start.line (some l.start.line) l.start
  | .disableNextLine =>
      declaredBy d (Position.following l.stop.line) (some (Position.following l.stop.line)) l.start
  | .enable => []

/-- The ranges that a list of directives declares, each directive's with its own end. -/
def declared : List PlacedDirective → List DisabledRange
  | [] => []
  | (d, l) :: after => (openedBy d l).map (endedBy after) ++ declared after

theorem endedBy_of_stop {r : DisabledRange} {stop : Nat} (h : r.stop = some stop)
    (after : List PlacedDirective) : r.endedBy after = r := by
  obtain ⟨rule, start, stop', comment, description⟩ := r
  simp only at h
  simp [endedBy, h]

theorem endedBy_nil (r : DisabledRange) : r.endedBy [] = r := by
  obtain ⟨rule, start, stop, comment, description⟩ := r
  cases stop <;> simp [endedBy, Directive.endLine?]

/-- A range ends at the first directive that ends it, so the directives can be taken in turn. -/
theorem endedBy_cons (p : PlacedDirective) (after : List PlacedDirective) (r : DisabledRange) :
    r.endedBy (p :: after) = (r.endedBy [p]).endedBy after := by
  obtain ⟨rule, start, stop, comment, description⟩ := r
  cases stop with
  | some line => simp [endedBy]
  | none =>
      cases h : p.1.ends rule with
      | true => simp [endedBy, Directive.endLine?, h]
      | false => simp [endedBy, Directive.endLine?, h]

/-- Only an enabling directive ends anything. -/
theorem endedBy_singleton {d : Directive} (h : d.command ≠ .enable) (l : Location)
    (r : DisabledRange) : r.endedBy [(d, l)] = r := by
  obtain ⟨rule, start, stop, comment, description⟩ := r
  have hends : d.ends rule = false := by simp [Directive.ends, h]
  cases stop <;> simp [endedBy, Directive.endLine?, hends]

theorem endedBy_enable {d : Directive} (h : d.command = .enable) (l : Location)
    (r : DisabledRange) :
    r.endedBy [(d, l)] =
      if r.stop = none ∧ r.isNamedBy d.rules then { r with stop := some l.start.line } else r := by
  obtain ⟨rule, start, stop, comment, description⟩ := r
  have hends : d.ends rule = isNamedBy d.rules ⟨rule, start, stop, comment, description⟩ := by
    cases rule <;> simp [Directive.ends, isNamedBy, h]
  cases stop with
  | some line => simp [endedBy]
  | none =>
      cases hnamed : isNamedBy d.rules ⟨rule, start, none, comment, description⟩ with
      | true => simp [endedBy, Directive.endLine?, hends, hnamed]
      | false => simp [endedBy, Directive.endLine?, hends, hnamed]

end DisabledRange

namespace RangeCollector

open DisabledRange

/-- The places that are kept are those of the ranges without an end. -/
def Valid (c : RangeCollector) : Prop :=
  ∀ i, i ∈ c.opened ↔ ∃ r, c.ranges[i]? = some r ∧ r.stop = none

theorem start_valid : start.Valid := by
  intro i
  simp [start]

theorem add_valid {c : RangeCollector} (h : c.Valid) {rs : List DisabledRange}
    (hrs : ∀ r ∈ rs, r.stop ≠ none) : (c.add rs).Valid := by
  intro i
  rw [add, h i]
  by_cases hi : i < c.ranges.length
  · rw [List.getElem?_append_left hi]
  · constructor
    · rintro ⟨r, hr, -⟩
      have hlt := (List.getElem?_eq_some_iff.1 hr).1
      omega
    · rintro ⟨r, hr, hstop⟩
      rw [List.getElem?_append_right (by omega)] at hr
      exact absurd hstop (hrs r (List.mem_of_getElem? hr))

theorem addOpen_valid {c : RangeCollector} (h : c.Valid) {rs : List DisabledRange}
    (hrs : ∀ r ∈ rs, r.stop = none) : (c.addOpen rs).Valid := by
  intro i
  simp only [addOpen, List.mem_append, h i, List.mem_range'_1]
  by_cases hi : i < c.ranges.length
  · rw [List.getElem?_append_left hi]
    constructor
    · rintro (hold | hnew)
      · exact hold
      · omega
    · exact Or.inl
  · rw [List.getElem?_append_right (by omega), List.getElem?_eq_none (by omega)]
    constructor
    · rintro (⟨r, hr, -⟩ | hnew)
      · simp at hr
      · have hlt : i - c.ranges.length < rs.length := by omega
        exact ⟨rs[i - c.ranges.length], List.getElem?_eq_getElem hlt, hrs _ (List.getElem_mem hlt)⟩
    · rintro ⟨r, hr, -⟩
      have hlt := (List.getElem?_eq_some_iff.1 hr).1
      exact Or.inr ⟨by omega, by omega⟩

theorem mem_opened_iff {c : RangeCollector} (h : c.Valid) {i : Nat} {r : DisabledRange}
    (hr : c.ranges[i]? = some r) : i ∈ c.opened ↔ r.stop = none := by
  rw [h i, hr]
  simp

/-- Closing ends the ranges that are open and named, as the law has it. -/
theorem ranges_close {c : RangeCollector} (h : c.Valid) {d : Directive}
    (hd : d.command = .enable) (l : Location) :
    (c.close d.rules l.start.line).ranges = c.ranges.map (endedBy [(d, l)]) := by
  apply List.ext_getElem?
  intro i
  simp only [close, List.getElem?_mapIdx, List.getElem?_map]
  cases hr : c.ranges[i]? with
  | none => rfl
  | some r => simp [endedBy_enable hd, mem_opened_iff h hr]

theorem close_valid {c : RangeCollector} (h : c.Valid) (rules : List String) (line : Nat) :
    (c.close rules line).Valid := by
  intro i
  simp only [close, List.mem_filter, h i, List.getElem?_mapIdx]
  cases hr : c.ranges[i]? with
  | none => simp
  | some r =>
      cases hnamed : r.isNamedBy rules with
      | true => by_cases hstop : r.stop = none <;> simp [hnamed, mem_opened_iff h hr, hstop]
      | false => simp [hnamed]

theorem stop_of_mem_declaredBy {d : Directive} {start : Nat} {stop : Option Nat}
    {comment : Position} {r : DisabledRange} (h : r ∈ declaredBy d start stop comment) :
    r.start = start ∧ r.stop = stop := by
  obtain ⟨rule, -, rfl⟩ := List.mem_map.1 h
  exact ⟨rfl, rfl⟩

/-- Taking one directive ends what it ends and adds what it opens. -/
theorem ranges_take {c : RangeCollector} (h : c.Valid) (d : Directive) (l : Location) :
    (c.take d l).ranges = c.ranges.map (endedBy [(d, l)]) ++ openedBy d l := by
  have hkeep (hd : d.command ≠ .enable) : c.ranges.map (endedBy [(d, l)]) = c.ranges := by
    rw [List.map_congr_left fun r _ => endedBy_singleton hd l r]
    simp
  cases hd : d.command with
  | disable => simp [take, addOpen, openedBy, hd, hkeep]
  | disableLine => simp [take, add, openedBy, hd, hkeep]
  | disableNextLine => simp [take, add, openedBy, hd, hkeep]
  | enable => simp [take, openedBy, hd, ranges_close h hd]

theorem take_valid {c : RangeCollector} (h : c.Valid) (d : Directive) (l : Location) :
    (c.take d l).Valid := by
  cases hd : d.command with
  | disable =>
      simp only [take, hd]
      exact addOpen_valid h fun r hr => (stop_of_mem_declaredBy hr).2
  | disableLine =>
      simp only [take, hd]
      exact add_valid h fun r hr => by simp [(stop_of_mem_declaredBy hr).2]
  | disableNextLine =>
      simp only [take, hd]
      exact add_valid h fun r hr => by simp [(stop_of_mem_declaredBy hr).2]
  | enable =>
      simp only [take, hd]
      exact close_valid h d.rules l.start.line

def takeAll (c : RangeCollector) (ds : List PlacedDirective) : RangeCollector :=
  ds.foldl (fun c p => c.take p.1 p.2) c

theorem takeAll_valid {c : RangeCollector} (h : c.Valid) (ds : List PlacedDirective) :
    (c.takeAll ds).Valid := by
  induction ds generalizing c with
  | nil => exact h
  | cons p ds ih => exact ih (take_valid h p.1 p.2)

/-- After a list of directives every earlier range has ended as the law has it, and the ranges of
the directives themselves follow. -/
theorem ranges_takeAll {c : RangeCollector} (h : c.Valid) (ds : List PlacedDirective) :
    (c.takeAll ds).ranges = c.ranges.map (endedBy ds) ++ declared ds := by
  induction ds generalizing c with
  | nil =>
      rw [List.map_congr_left fun r _ => endedBy_nil r]
      simp [takeAll, declared]
  | cons p ds ih =>
      have hstep := ranges_take h p.1 p.2
      have hrest := ih (take_valid h p.1 p.2)
      rw [hstep, List.map_append, List.map_map] at hrest
      have hturn : endedBy ds ∘ endedBy [p] = endedBy (p :: ds) := by
        funext r
        exact (endedBy_cons p ds r).symm
      rw [hturn, List.append_assoc] at hrest
      exact hrest

/-- Comments that are no directives do not count. -/
theorem foldl_takeComment (comments : List Comment) (c : RangeCollector) :
    comments.foldl takeComment c = c.takeAll (comments.filterMap Comment.directive?) := by
  induction comments generalizing c with
  | nil => rfl
  | cons comment comments ih =>
      rw [List.foldl_cons, ih, takeComment, List.filterMap_cons, Comment.directive?]
      cases comment.source <;> cases Directive.parse? comment.text <;> rfl

end RangeCollector

namespace DisabledRange

/-- The collector declares exactly the ranges of the law. -/
theorem ofSheet_eq_declared (s : Sheet) : ofSheet s = declared s.directives := by
  rw [ofSheet, RangeCollector.foldl_takeComment,
    RangeCollector.ranges_takeAll RangeCollector.start_valid]
  rfl

/-- What a range covers once the directives behind it have ended it. -/
theorem covers_endedBy (r : DisabledRange) (after : List PlacedDirective) (w : Warning) :
    (r.endedBy after).covers w =
      (decide (r.start ≤ w.line) &&
        (r.stop <|> Directive.endLine? after r.rule).all (fun e => decide (w.line ≤ e)) &&
        r.rule.all (· == w.rule)) := by
  obtain ⟨rule, start, stop, comment, description⟩ := r
  rw [covers, coversLine, coversRule, endedBy]
  cases rule <;> cases stop <;> cases Directive.endLine? after _ <;> simp

/-- The ranges of one directive cover a warning if the directive is about its rule and the line
lies between the start and the end that the range for this rule has. -/
theorem any_covers_declaredBy (d : Directive) (start : Nat) (stop : Option Nat)
    (comment : Position) (after : List PlacedDirective) (w : Warning) :
    ((declaredBy d start stop comment).map (endedBy after)).any (fun r => r.covers w) =
      (d.concerns w.rule && (decide (start ≤ w.line) &&
        (stop <|> Directive.endLine? after (d.target w.rule)).all
          fun e => decide (w.line ≤ e))) := by
  by_cases hrules : d.rules.isEmpty = true
  · simp [declaredBy, hrules, covers_endedBy, Directive.concerns, Directive.target]
  · have hfalse : d.rules.isEmpty = false := by simpa using hrules
    rw [Bool.eq_iff_iff, List.any_map, List.any_eq_true]
    constructor
    · rintro ⟨r, hr, hcovers⟩
      simp only [declaredBy, hfalse, Bool.false_eq_true, ↓reduceIte, List.map_map,
        List.mem_map] at hr
      obtain ⟨rule, hrule, rfl⟩ := hr
      simp only [Function.comp_apply, covers_endedBy, Option.all_some, Bool.and_eq_true,
        beq_iff_eq] at hcovers
      obtain ⟨hline, rfl⟩ := hcovers
      simpa [Directive.concerns, Directive.target, hfalse, hrule] using hline
    · intro h
      simp only [Directive.concerns, Directive.target, hfalse, Bool.false_or, Bool.and_eq_true,
        List.contains_iff_mem, Bool.false_eq_true, ↓reduceIte] at h
      refine ⟨⟨some w.rule, start, stop, comment, d.description⟩, ?_, ?_⟩
      · simpa [declaredBy, hfalse] using h.1
      · simpa [covers_endedBy] using h.2

/-- A range that ends on the line on which it begins has that line alone. -/
theorem between_self (start line : Nat) (other : Option Nat) :
    (decide (start ≤ line) && (some start <|> other).all fun e => decide (line ≤ e)) =
      (line == start) := by
  rw [Bool.eq_iff_iff]
  simp only [Option.orElse_eq_orElse, Option.orElse_eq_or, Option.some_or, Option.all_some,
    Bool.and_eq_true, decide_eq_true_eq, beq_iff_eq]
  omega

/-- A range of the law covers a warning exactly if one of the directives suppresses it. -/
theorem any_covers_declared (ds : List PlacedDirective) (w : Warning) :
    (declared ds).any (fun r => r.covers w) = Directive.suppressed w ds := by
  induction ds with
  | nil => rfl
  | cons p after ih =>
      obtain ⟨d, l⟩ := p
      rw [declared, List.any_append, ih, Directive.suppressed]
      congr 1
      cases hd : d.command with
      | disable =>
          simp only [openedBy, Directive.suppresses, hd, any_covers_declaredBy]
          rfl
      | disableLine =>
          simp only [openedBy, Directive.suppresses, hd, any_covers_declaredBy]
          rw [between_self]
      | disableNextLine =>
          simp only [openedBy, Directive.suppresses, hd, any_covers_declaredBy]
          rw [between_self]
      | enable => simp [openedBy, Directive.suppresses, hd]

/-- If the directives come in the order of their lines, no range ends before it begins. -/
theorem start_le_stop_of_mem_declared {ds : List PlacedDirective}
    (hlines : ds.Pairwise fun p q => p.2.start.line ≤ q.2.start.line) {r : DisabledRange}
    (hr : r ∈ declared ds) {stop : Nat} (hstop : r.stop = some stop) : r.start ≤ stop := by
  induction ds with
  | nil => simp [declared] at hr
  | cons p after ih =>
      obtain ⟨d, l⟩ := p
      obtain ⟨hfirst, hrest⟩ := List.pairwise_cons.1 hlines
      rw [declared, List.mem_append] at hr
      rcases hr with hr | hr
      · obtain ⟨opened, hopened, rfl⟩ := List.mem_map.1 hr
        simp only [endedBy] at hstop ⊢
        cases hd : d.command with
        | disable =>
            simp only [openedBy, hd] at hopened
            obtain ⟨hstart, hopen⟩ := RangeCollector.stop_of_mem_declaredBy hopened
            rw [hopen, Directive.endLine?] at hstop
            simp only [Option.orElse_eq_orElse, Option.orElse_eq_or, Option.none_or,
              Option.map_eq_some_iff] at hstop
            obtain ⟨q, hq, rfl⟩ := hstop
            rw [hstart]
            exact hfirst q (List.mem_of_find?_eq_some hq)
        | disableLine =>
            simp only [openedBy, hd] at hopened
            obtain ⟨hstart, hclosed⟩ := RangeCollector.stop_of_mem_declaredBy hopened
            simp_all
        | disableNextLine =>
            simp only [openedBy, hd] at hopened
            obtain ⟨hstart, hclosed⟩ := RangeCollector.stop_of_mem_declaredBy hopened
            simp_all
        | enable => simp [openedBy, hd] at hopened
      · exact ih hrest hr

end DisabledRange

/-- The directives come in source order: each begins where a walk over a part of the source ends,
and that part is longer than the one before the directive that precedes it. -/
def InSourceOrder (source : List Char) (ds : List PlacedDirective) : Prop :=
  ∃ ps : List (List Char × PlacedDirective), ps.map Prod.snd = ds ∧
    (∀ p ∈ ps, p.1 <+: source ∧ p.2.2.start = Position.start.advanceAll p.1) ∧
    ps.Pairwise fun p q => p.1.length < q.1.length

namespace Sheet

theorem directives_inOrder {file : Option String} {source : String} {sheet : Sheet}
    (h : Sheet.parse file source = .ok sheet) :
    InSourceOrder source.toList sheet.directives := by
  obtain ⟨nodes, hwalk, hnodes, horder⟩ := inOrder_walk_of_parse h
  let pick (node : Node) : Option PlacedDirective := node.comment?.bind Comment.directive?
  refine ⟨nodes.filterMap fun p => (pick p.2).map fun d => (p.1, d), ?_, ?_, ?_⟩
  · rw [directives, comments, List.filterMap_filterMap, ← hwalk, List.filterMap_map,
      List.map_filterMap]
    simp [pick, Function.comp_def]
  · intro p hp
    obtain ⟨⟨pre, node⟩, hmem, hpick⟩ := List.mem_filterMap.1 hp
    obtain ⟨d, hd, rfl⟩ := Option.map_eq_some_iff.1 hpick
    obtain ⟨c, hc, hdirective⟩ := Option.bind_eq_some_iff.1 hd
    obtain ⟨⟨-, hsource⟩, hpre, -⟩ := hnodes _ hmem
    refine ⟨hpre, ?_⟩
    cases node with
    | comment comment =>
        simp only [Node.comment?, Option.some.injEq] at hc
        subst hc
        rw [Node.source] at hsource
        simp only [Comment.directive?, hsource] at hdirective
        split at hdirective
        · rename_i range directive hrange hparse
          simp only [Option.some.injEq] at hrange hdirective
          rw [← hdirective, ← hrange]
          exact Cursor.position_advanceAll Cursor.start pre
        · simp at hdirective
    | rule selector inner raws range => simp [Node.comment?] at hc
    | block name params inner raws range => simp [Node.comment?] at hc
    | statement name params raws range => simp [Node.comment?] at hc
    | decl declaration => simp [Node.comment?] at hc
  · refine List.Pairwise.filterMap _ ?_ horder
    intro p q hpq x hx y hy
    obtain ⟨d, -, rfl⟩ := Option.map_eq_some_iff.1 hx
    obtain ⟨e, -, rfl⟩ := Option.map_eq_some_iff.1 hy
    exact hpq

/-- As long as the lines of the source can be told apart, directives come in the order of their
lines. -/
theorem directives_lines {file : Option String} {source : String} {sheet : Sheet}
    (h : Sheet.parse file source = .ok sheet)
    (hlines : source.toList.count '\n' + 1 < Position.limit) :
    sheet.directives.Pairwise fun p q => p.2.start.line ≤ q.2.start.line := by
  obtain ⟨ps, hps, hplaces, horder⟩ := directives_inOrder h
  have hline : ∀ p ∈ ps, p.2.2.start.line = 1 + p.1.count '\n' := by
    intro p hp
    obtain ⟨hpre, hstart⟩ := hplaces p hp
    have hcount := hpre.sublist.count_le '\n'
    rw [hstart, Position.line_advanceAll (by decide)]
    exact Nat.mod_eq_of_lt (by simp only [Position.start]; omega)
  rw [← hps, List.pairwise_map]
  refine horder.imp_of_mem ?_
  intro p q hp hq hpq
  have hprefix := List.prefix_of_prefix_length_le (hplaces p hp).1 (hplaces q hq).1 (by omega)
  have hcount := hprefix.sublist.count_le '\n'
  rw [hline p hp, hline q hq]
  omega

end Sheet

namespace DisabledRange

theorem getElem?_used (ranges : List DisabledRange) (ws : List Warning) (i : Nat) :
    (used ranges ws)[i]? = ranges[i]?.map fun r => ws.any fun w => r.covers w := by
  simp [used]

/-- A range that has ended stays as it is whatever directives follow. -/
theorem getElem?_takeAll_of_stop {c : RangeCollector} (hc : c.Valid) {i stop : Nat}
    {r : DisabledRange} (hr : c.ranges[i]? = some r) (hstop : r.stop = some stop)
    (after : List PlacedDirective) : (c.takeAll after).ranges[i]? = some r := by
  have hlt := (List.getElem?_eq_some_iff.1 hr).1
  rw [RangeCollector.ranges_takeAll hc, List.getElem?_append_left (by simpa using hlt),
    List.getElem?_map, hr, Option.map_some, endedBy_of_stop hstop]

/--
Of any warnings, those are kept that no directive of the sheet suppresses, and the directives come
in source order. A range is used exactly if it covers a warning. A range that has an end does not
get another one, and it does not end before it begins as long as 32 bits tell the lines apart.
-/
theorem heed_directives {file : Option String} {source : String} {sheet : Sheet}
    (h : Sheet.parse file source = .ok sheet) (ws : List Warning) :
    InSourceOrder source.toList sheet.directives ∧
    keep (ofSheet sheet) ws = ws.filter (fun w => !Directive.suppressed w sheet.directives) ∧
    (used (ofSheet sheet) ws).length = (ofSheet sheet).length ∧
    (∀ (i : Nat) (r : DisabledRange), (ofSheet sheet)[i]? = some r →
      ((used (ofSheet sheet) ws)[i]? = some true ↔ ∃ w ∈ ws, r.covers w = true)) ∧
    (source.toList.count '\n' + 1 < Position.limit →
      ∀ r ∈ ofSheet sheet, ∀ stop, r.stop = some stop → r.start ≤ stop) ∧
    (∀ before after, sheet.directives = before ++ after →
      ∀ (i : Nat) (r : DisabledRange) (stop : Nat),
        (RangeCollector.start.takeAll before).ranges[i]? = some r →
        r.stop = some stop → (ofSheet sheet)[i]? = some r) := by
  refine ⟨Sheet.directives_inOrder h, ?_, by simp [used], ?_, ?_, ?_⟩
  · rw [keep, ofSheet_eq_declared]
    apply List.filter_congr
    intro w _
    rw [any_covers_declared]
  · intro i r hr
    rw [getElem?_used, hr]
    simp
  · intro hlines r hr stop hstop
    rw [ofSheet_eq_declared] at hr
    exact start_le_stop_of_mem_declared (Sheet.directives_lines h hlines) hr hstop
  · intro before after hsplit i r stop hr hstop
    have hall := RangeCollector.foldl_takeComment sheet.comments RangeCollector.start
    rw [ofSheet, hall, ← Sheet.directives, hsplit, RangeCollector.takeAll, List.foldl_append]
    exact getElem?_takeAll_of_stop
      (RangeCollector.takeAll_valid RangeCollector.start_valid before) hr hstop after

/-- A range for one rule, which only the second of two enabling comments ends. -/
def directedSource : String :=
  "\n/*sheetlint-disable a*/\x7b\n/*sheetlint-enable b*/\x7d\n/*sheetlint-enable*/"

/-- One warning of a rule for each of the lines 1 to 5. -/
def warningsOf (rule : String) : List Warning :=
  [1, 2, 3, 4, 5].map fun line => Warning.ofPosition rule "" line 1

theorem heed_directives_second_enable :
    ∃ sheet, Sheet.parse none directedSource = .ok sheet ∧
      keep (ofSheet sheet) (warningsOf "a") =
        (warningsOf "a").filter (fun w => !Directive.suppressed w sheet.directives) ∧
      (keep (ofSheet sheet) (warningsOf "a")).map (fun w => w.line) = [1, 5] := by
  have hok : ∃ sheet, Sheet.parse none directedSource = .ok sheet ∧
      (keep (ofSheet sheet) (warningsOf "a")).map (fun w => w.line) = [1, 5] := by
    have hkept : (Sheet.parse none directedSource).toOption.map
        (fun sheet => (keep (ofSheet sheet) (warningsOf "a")).map (fun w => w.line)) =
          some [1, 5] := by
      decide +kernel
    cases h : Sheet.parse none directedSource with
    | ok sheet => exact ⟨sheet, rfl, by simpa [h, Except.toOption] using hkept⟩
    | error e => simp [h, Except.toOption] at hkept
  obtain ⟨sheet, h, hkept⟩ := hok
  exact ⟨sheet, h, (heed_directives h (warningsOf "a")).2.1, hkept⟩

end DisabledRange

end StyleAudit
