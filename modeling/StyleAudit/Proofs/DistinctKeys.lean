import Mathlib.Data.List.Nodup
import StyleAudit.Proofs.Everywhere

/-!
The keys of an object are distinct.

Objects are written as lists of fields, so their type does not say that no key comes twice. In all
that is read from a text no key does: the machine that builds a value sets each field by
`Table.insert`, and a configuration takes its rules and raw values from that value.
-/

namespace StyleAudit

theorem Table.find?_eq_some_of_nodup {α : Type} {t : Table α} (h : (keys t).Nodup)
    {key : String} {value : α} (hmem : (key, value) ∈ t) : find? key t = some value := by
  induction t with
  | nil => cases hmem
  | cons p t ih =>
      have hnodup : p.1 ∉ keys t ∧ (keys t).Nodup := List.nodup_cons.1 h
      rcases List.mem_cons.1 hmem with heq | hmem
      · subst heq
        simp [find?]
      · have hne : p.1 ≠ key := by
          intro heq
          apply hnodup.1
          rw [heq]
          exact List.mem_map_of_mem hmem
        simpa [find?, hne] using ih hnodup.2 hmem

theorem Table.mem_keys_iff {α : Type} {t : Table α} {key : String} :
    key ∈ keys t ↔ contains key t = true := by
  induction t with
  | nil => simp [keys, contains, find?]
  | cons p t ih =>
      have hcons : key ∈ keys (p :: t) ↔ key = p.1 ∨ key ∈ keys t := List.mem_cons
      rw [hcons, ih]
      by_cases hkey : p.1 = key
      · simp [contains, find?, hkey]
      · simp [contains, find?, hkey, Ne.symm hkey]

theorem Table.nodup_keys_insert {α : Type} {t : Table α} (h : (keys t).Nodup) (key : String)
    (value : α) : (keys (insert key value t)).Nodup := by
  induction t with
  | nil => simp [insert, keys]
  | cons p t ih =>
      have hnodup : p.1 ∉ keys t ∧ (keys t).Nodup := List.nodup_cons.1 h
      rw [insert]
      split
      case isTrue => exact h
      case isFalse hne =>
          apply List.nodup_cons.2
          refine ⟨?_, ih hnodup.2⟩
          -- A key of the changed table is the new one or was there before.
          change p.1 ∉ keys (insert key value t)
          rw [mem_keys_iff, contains, find?_insert, if_neg (Ne.symm hne)]
          exact fun hcontains => hnodup.1 (mem_keys_iff.2 hcontains)

namespace Json

/-- In every object within a value the keys are distinct. -/
inductive Distinct : Json → Prop
  | null : Distinct .null
  | bool (b : Bool) : Distinct (.bool b)
  | number (n : Number) : Distinct (.number n)
  | string (s : String) : Distinct (.string s)
  | array {items : List Json} (each : ∀ item ∈ items, Distinct item) : Distinct (.array items)
  | object {fields : List (String × Json)} (nodup : (Table.keys fields).Nodup)
      (each : ∀ field ∈ fields, Distinct field.2) : Distinct (.object fields)

namespace Distinct

theorem item {items : List Json} (h : Distinct (.array items)) {v : Json} (hv : v ∈ items) :
    v.Distinct := by
  cases h with
  | array each => exact each v hv

theorem nodup_keys {fields : List (String × Json)} (h : Distinct (.object fields)) :
    (Table.keys fields).Nodup := by
  cases h with
  | object nodup _ => exact nodup

theorem value {fields : List (String × Json)} (h : Distinct (.object fields)) {key : String}
    {v : Json} (hv : (key, v) ∈ fields) : v.Distinct := by
  cases h with
  | object _ each => exact each _ hv

end Distinct

end Json

/-- The values that settings hold as they were written, each with distinct keys. -/
structure Settings.Distinct (s : Settings) : Prop where
  rules : ∀ rules, s.rules = some rules → (Json.object rules).Distinct
  needless : ∀ v, s.reportNeedlessDisables = some v → v.Distinct
  invalidScope : ∀ v, s.reportInvalidScopeDisables = some v → v.Distinct
  descriptionless : ∀ v, s.reportDescriptionlessDisables = some v → v.Distinct

def Config.Distinct (c : Config) : Prop :=
  c.Everywhere Settings.Distinct

/-! ## Values that are read from a text -/

namespace Json

def Token.Distinct : Token → Prop
  | .number _ v => v.Distinct
  | .literal v => v.Distinct
  | _ => True

theorem Numeral.distinct_valueOrText (value : Option Number) (written : List Char) :
    (valueOrText value written).Distinct := by
  cases value with
  | none => exact .string _
  | some n => exact .number n

theorem Numeral.distinct_of_readHex {negative : Bool} {source cs text rest : List Char} {v : Json}
    (h : readHex negative source cs = some (v, text, rest)) : v.Distinct := by
  rw [readHex] at h
  dsimp only at h
  split at h
  case isTrue => cases h
  case isFalse =>
      obtain rfl := (Prod.mk.inj (Option.some.inj h)).1
      exact distinct_valueOrText _ _

theorem Numeral.distinct_of_readTail {negative : Bool} {source whole cs text rest : List Char}
    {v : Json} (h : readTail negative source whole cs = some (v, text, rest)) : v.Distinct := by
  rw [readTail] at h
  obtain ⟨_, -, h⟩ := Option.bind_eq_some_iff.1 h
  obtain ⟨_, -, h⟩ := Option.bind_eq_some_iff.1 h
  obtain rfl := (Prod.mk.inj (Option.some.inj h)).1
  exact distinct_valueOrText _ _

theorem Numeral.distinct_of_read {source text rest : List Char} {v : Json}
    (h : read source = some (v, text, rest)) : v.Distinct := by
  rw [read.eq_def] at h
  dsimp only at h
  split at h
  case h_1 => cases h
  case h_2 =>
      split at h
      case isTrue =>
          split at h
          case h_1 => exact distinct_of_readHex h
          case h_2 => exact distinct_of_readHex h
          case h_3 => exact distinct_of_readTail h
      case isFalse =>
          split at h
          case isTrue => exact distinct_of_readTail h
          case isFalse => cases h

theorem Token.distinct_of_readLong {cs rest : List Char} {token : Token}
    (h : readLong cs = some (token, rest)) : token.Distinct := by
  rw [readLong.eq_def] at h
  split at h
  case h_1 => cases h
  case h_2 =>
      split at h
      case isTrue =>
          obtain ⟨_, -, heq⟩ := Option.map_eq_some_iff.1 h
          obtain rfl := (Prod.mk.inj heq).1
          trivial
      case isFalse =>
          split at h
          case isTrue =>
              obtain ⟨_, hread, heq⟩ := Option.map_eq_some_iff.1 h
              obtain rfl := (Prod.mk.inj heq).1
              exact Numeral.distinct_of_read hread
          case isFalse =>
              split at h
              case h_1 =>
                  obtain rfl := (Prod.mk.inj (Option.some.inj h)).1
                  exact Json.Distinct.bool true
              case h_2 =>
                  obtain rfl := (Prod.mk.inj (Option.some.inj h)).1
                  exact Json.Distinct.bool false
              case h_3 =>
                  obtain rfl := (Prod.mk.inj (Option.some.inj h)).1
                  exact Json.Distinct.null
              case h_4 =>
                  obtain ⟨_, -, heq⟩ := Option.map_eq_some_iff.1 h
                  obtain rfl := (Prod.mk.inj heq).1
                  trivial

theorem Token.distinct_of_readAll {fuel : Nat} {cs : List Char} {tokens : List Token}
    (h : readAll fuel cs = some tokens) : ∀ token ∈ tokens, token.Distinct := by
  induction fuel generalizing cs tokens with
  | zero => cases h
  | succ fuel ih =>
      have hpunctuation : ∀ {token : Token} {ds : List Char}, token.Distinct →
          (readAll fuel ds).map (token :: ·) = some tokens →
            ∀ token ∈ tokens, token.Distinct := by
        intro token ds htoken hmap
        obtain ⟨rest, hrest, rfl⟩ := Option.map_eq_some_iff.1 hmap
        exact List.forall_mem_cons.2 ⟨htoken, ih hrest⟩
      rw [readAll.eq_def] at h
      split at h
      case h_1 => contradiction
      case h_2 =>
          obtain rfl := Option.some.inj h
          simp
      case h_3 heq =>
          obtain rfl := Nat.succ.inj heq
          split at h
          case isTrue => exact ih h
          iterate 6
            rename_i h
            split at h
            · apply hpunctuation _ h
              trivial
          split at h
          case isTrue =>
              split at h
              case h_1 => exact ih h
              case h_2 =>
                  obtain ⟨_, -, h⟩ := Option.bind_eq_some_iff.1 h
                  exact ih h
              case h_3 => cases h
          case isFalse =>
              obtain ⟨⟨token, rest⟩, hlong, h⟩ := Option.bind_eq_some_iff.1 h
              obtain ⟨others, hothers, h⟩ := Option.bind_eq_some_iff.1 h
              obtain rfl := Option.some.inj h
              exact List.forall_mem_cons.2 ⟨distinct_of_readLong hlong, ih hothers⟩

def Frame.Distinct : Frame → Prop
  | .array items => ∀ item ∈ items, item.Distinct
  | .object fields _ => (Json.object fields).Distinct

def Expect.Distinct : Expect → Prop
  | .root => True
  | .item items | .afterItem items => ∀ item ∈ items, item.Distinct
  | .key fields | .afterKey fields _ | .fieldValue fields _ | .afterField fields =>
    (Json.object fields).Distinct
  | .done value => value.Distinct

/-- Frames and what the machine waits for, as one state. -/
def DistinctState (state : List Frame × Expect) : Prop :=
  (∀ frame ∈ state.1, frame.Distinct) ∧ state.2.Distinct

theorem Distinct.insert {fields : List (String × Json)} (h : Distinct (.object fields))
    {value : Json} (hvalue : value.Distinct) (key : String) :
    Distinct (.object (Table.insert key value fields)) := by
  apply Distinct.object (Table.nodup_keys_insert h.nodup_keys key value)
  rintro ⟨other, w⟩ hmem
  have hfind := Table.find?_eq_some_of_nodup (Table.nodup_keys_insert h.nodup_keys key value) hmem
  rw [Table.find?_insert] at hfind
  split at hfind
  case isTrue => exact Option.some.inj hfind ▸ hvalue
  case isFalse => exact h.value (Table.mem_of_find? hfind)

theorem distinct_deliver {value : Json} (hvalue : value.Distinct) {frames : List Frame}
    (hframes : ∀ frame ∈ frames, frame.Distinct) : DistinctState (deliver value frames) := by
  match frames, hframes with
  | [], hframes => exact ⟨hframes, hvalue⟩
  | .array items :: frames, hframes =>
      obtain ⟨hitems, hframes⟩ := List.forall_mem_cons.1 hframes
      exact ⟨hframes, List.forall_mem_cons.2 ⟨hvalue, hitems⟩⟩
  | .object fields key :: frames, hframes =>
      obtain ⟨hfields, hframes⟩ := List.forall_mem_cons.1 hframes
      exact ⟨hframes, Distinct.insert hfields hvalue key⟩

theorem distinct_beginValue {frames : List Frame} {token : Token} {state : List Frame × Expect}
    (hframes : ∀ frame ∈ frames, frame.Distinct) (htoken : token.Distinct)
    (h : beginValue frames token = some state) : DistinctState state := by
  cases token <;> try cases h
  case openBrace => exact ⟨hframes, .object List.nodup_nil (by simp)⟩
  case openBracket => exact ⟨hframes, by simp [Expect.Distinct]⟩
  case quoted s => exact distinct_deliver (.string s) hframes
  case number v => exact distinct_deliver htoken hframes
  case literal v => exact distinct_deliver htoken hframes

theorem distinct_takeKey {frames : List Frame} {fields : List (String × Json)} {token : Token}
    {state : List Frame × Expect} (hframes : ∀ frame ∈ frames, frame.Distinct)
    (hfields : Distinct (.object fields)) (h : takeKey frames fields token = some state) :
    DistinctState state := by
  cases token <;> try cases h
  case closeBrace => exact distinct_deliver hfields hframes
  all_goals exact ⟨hframes, hfields⟩

theorem distinct_takeItem {frames : List Frame} {items : List Json} {token : Token}
    {state : List Frame × Expect} (hframes : ∀ frame ∈ frames, frame.Distinct)
    (hitems : ∀ item ∈ items, item.Distinct) (htoken : token.Distinct)
    (h : takeItem frames items token = some state) : DistinctState state := by
  rw [takeItem.eq_def] at h
  split at h
  case h_1 =>
      obtain rfl := Option.some.inj h
      apply distinct_deliver _ hframes
      apply Distinct.array
      intro item hitem
      exact hitems item (List.mem_reverse.1 hitem)
  case h_2 =>
      apply distinct_beginValue _ htoken h
      exact List.forall_mem_cons.2 ⟨hitems, hframes⟩

/-- Every token keeps the keys distinct. -/
theorem distinct_step {frames : List Frame} {expect : Expect} {token : Token}
    {state : List Frame × Expect} (hstate : DistinctState (frames, expect))
    (htoken : token.Distinct) (h : step frames expect token = some state) :
    DistinctState state := by
  obtain ⟨hframes, hexpect⟩ := hstate
  rw [step.eq_def] at h
  cases expect <;> dsimp only at h
  case root => exact distinct_beginValue hframes htoken h
  case item items => exact distinct_takeItem hframes hexpect htoken h
  case afterItem items =>
      split at h
      case h_1 =>
          obtain rfl := Option.some.inj h
          exact ⟨hframes, hexpect⟩
      case h_2 => exact distinct_takeItem hframes hexpect htoken h
  case key fields => exact distinct_takeKey hframes hexpect h
  case afterKey fields key =>
      split at h
      case h_1 =>
          obtain rfl := Option.some.inj h
          exact ⟨hframes, hexpect⟩
      case h_2 => cases h
  case fieldValue fields key =>
      apply distinct_beginValue _ htoken h
      exact List.forall_mem_cons.2 ⟨hexpect, hframes⟩
  case afterField fields =>
      split at h
      case h_1 =>
          obtain rfl := Option.some.inj h
          exact ⟨hframes, hexpect⟩
      case h_2 => exact distinct_takeKey hframes hexpect h
  case done value => cases h

theorem distinct_of_build {tokens : List Token} (htokens : ∀ token ∈ tokens, token.Distinct)
    {frames : List Frame} {expect : Expect} (hstate : DistinctState (frames, expect)) {v : Json}
    (h : build frames expect tokens = some (some v)) : v.Distinct := by
  induction tokens generalizing frames expect with
  | nil =>
      cases expect <;> cases h
      exact hstate.2
  | cons token tokens ih =>
      obtain ⟨htoken, htokens⟩ := List.forall_mem_cons.1 htokens
      rw [build] at h
      split at h
      case h_1 hstep => exact ih htokens (distinct_step hstate htoken hstep) h
      case h_2 => cases h

/-- In a value that was read from a text the keys of every object are distinct. -/
theorem distinct_of_parse? {source : String} {v : Json} (h : parse? source = some (some v)) :
    v.Distinct := by
  rw [parse?] at h
  obtain ⟨tokens, htokens, h⟩ := Option.bind_eq_some_iff.1 h
  have hstart : DistinctState ([], .root) := ⟨by simp, trivial⟩
  exact distinct_of_build (Token.distinct_of_readAll htokens) hstart h

/-- The fields and items of a value have distinct keys where the value has. -/
theorem inherited_distinct : Inherited Distinct where
  field := by
    intro names key v w hv h
    cases v <;> try cases h
    case array items =>
        exact hv.item (List.mem_of_getElem? h)
    case object fields => exact hv.value (Table.mem_of_find? h)
  items hv := fun _ hitem => hv.item hitem

end Json

theorem Settings.ReadFrom.distinct {v : Json} {s : Settings} (h : s.ReadFrom v)
    (hv : v.Distinct) : s.Distinct where
  rules := by
    intro rules hrules
    obtain ⟨w, hw, -, htable⟩ := Json.optional?_eq_some (hrules ▸ h.rules)
    have hobject : w = .object rules := by
      cases w <;> cases htable
      rfl
    exact hobject ▸ Json.inherited_distinct.field hv hw
  needless w hw := Json.inherited_distinct.optional hv (hw ▸ h.needless)
  invalidScope w hw := Json.inherited_distinct.optional hv (hw ▸ h.invalidScope)
  descriptionless w hw := Json.inherited_distinct.optional hv (hw ▸ h.descriptionless)

/-- In a configuration that was read from a text the keys of every object are distinct. -/
theorem Config.distinct_of_ofText {text : String} {c : Config} (h : Config.ofText text = .ok c) :
    c.Distinct := by
  obtain ⟨v, hjson, hv⟩ := ofText_eq_ok h
  have hdistinct : v.Distinct := by
    rcases hv with rfl | hparse
    · exact .object (by simp [Table.keys]) (by simp)
    · exact Json.distinct_of_parse? hparse
  exact everywhere_of_ofJson Json.inherited_distinct (fun hw hs => hs.distinct hw) hdistinct hjson

end StyleAudit
