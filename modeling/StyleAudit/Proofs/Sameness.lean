import Mathlib.Data.List.Forall2
import Mathlib.Data.List.Perm.Subperm
import StyleAudit.Proofs.DistinctKeys

/-!
When the equality of configurations is an equivalence.

The equality passes over the order of fields and over the sign of a zero. It is transitive for all
values. It is reflexive and symmetric for values in which the keys of every object are distinct.
-/

namespace StyleAudit

/-- Values by their parts. -/
@[elab_as_elim]
theorem Json.induct {motive : Json → Prop} (null : motive .null) (bool : ∀ b, motive (.bool b))
    (number : ∀ n, motive (.number n)) (string : ∀ s, motive (.string s))
    (array : ∀ items, (∀ item ∈ items, motive item) → motive (.array items))
    (object : ∀ fields, (∀ field ∈ fields, motive field.2) → motive (.object fields)) (v : Json) :
    motive v := by
  match v with
  | .null => exact null
  | .bool b => exact bool b
  | .number n => exact number n
  | .string s => exact string s
  | .array items =>
      apply array
      intro item hitem
      have := List.sizeOf_lt_of_mem hitem
      exact Json.induct null bool number string array object item
  | .object fields =>
      apply object
      rintro ⟨key, value⟩ hfield
      have := List.sizeOf_lt_of_mem hfield
      exact Json.induct null bool number string array object value
termination_by sizeOf v
decreasing_by all_goals simp_all; omega

theorem forall₂_symm_of_mem {α : Type} {R : α → α → Prop} {as bs : List α}
    (h : List.Forall₂ R as bs) (hsymm : ∀ a ∈ as, ∀ b ∈ bs, R a b → R b a) :
    List.Forall₂ R bs as := by
  induction h with
  | nil => exact .nil
  | cons hhead _ ih =>
      apply List.Forall₂.cons
      · exact hsymm _ List.mem_cons_self _ List.mem_cons_self hhead
      · apply ih
        intro a ha b hb
        exact hsymm a (List.mem_cons_of_mem _ ha) b (List.mem_cons_of_mem _ hb)

theorem forall₂_trans_of_mem {α : Type} {R : α → α → Prop} {as bs cs : List α}
    (hab : List.Forall₂ R as bs) (hbc : List.Forall₂ R bs cs)
    (htrans : ∀ a ∈ as, ∀ b c, R a b → R b c → R a c) : List.Forall₂ R as cs := by
  induction hab generalizing cs with
  | nil => exact hbc
  | cons hhead _ ih =>
      cases hbc with
      | cons hhead' htail' =>
          apply List.Forall₂.cons
          · exact htrans _ List.mem_cons_self _ _ hhead hhead'
          · exact ih htail' fun a ha => htrans a (List.mem_cons_of_mem _ ha)

/-- Numbers are equal if they are one number, or two zeros that are not whole. -/
theorem Number.same_iff {m n : Number} :
    m.same n = true ↔ m = n ∨ ∃ x y, (m = .float x ∧ x.isZero) ∧ n = .float y ∧ y.isZero := by
  cases m <;> cases n <;> simp [same]

theorem Number.same_refl (n : Number) : n.same n = true :=
  same_iff.2 (.inl rfl)

theorem Number.same_symm {m n : Number} (h : m.same n = true) : n.same m = true := by
  obtain rfl | ⟨x, y, hx, hy⟩ := same_iff.1 h
  · exact h
  · exact same_iff.2 (.inr ⟨y, x, hy, hx⟩)

theorem Number.same_trans {l m n : Number} (hlm : l.same m = true) (hmn : m.same n = true) :
    l.same n = true := by
  obtain rfl | ⟨x, y, hx, hy⟩ := same_iff.1 hlm
  · exact hmn
  · obtain rfl | ⟨_, z, _, hz⟩ := same_iff.1 hmn
    · exact hlm
    · exact same_iff.2 (.inr ⟨x, z, hx, hz⟩)

namespace Json

theorem sameItems_iff {as bs : List Json} :
    sameItems as bs = true ↔ List.Forall₂ (fun a b => a.same b = true) as bs := by
  induction as generalizing bs with
  | nil => cases bs <;> simp [sameItems]
  | cons a as ih => cases bs <;> simp [sameItems, ih]

theorem sameFields_iff {as bs : List (String × Json)} :
    sameFields as bs = true ↔
      ∀ field ∈ as, ∃ w, Table.find? field.1 bs = some w ∧ field.2.same w = true := by
  induction as with
  | nil => simp [sameFields]
  | cons field as ih =>
      rw [sameFields, Bool.and_eq_true, ih, List.forall_mem_cons]
      cases Table.find? field.1 bs <;> simp

inductive Alike : Json → Json → Prop
  | null : Alike .null .null
  | bool (b : Bool) : Alike (.bool b) (.bool b)
  | number {m n : Number} (h : m.same n = true) : Alike (.number m) (.number n)
  | string (s : String) : Alike (.string s) (.string s)
  | array {as bs : List Json} (h : List.Forall₂ (fun a b => a.same b = true) as bs) :
      Alike (.array as) (.array bs)
  | object {as bs : List (String × Json)} (hlength : as.length = bs.length)
      (hfields : ∀ field ∈ as, ∃ w, Table.find? field.1 bs = some w ∧ field.2.same w = true) :
      Alike (.object as) (.object bs)

theorem same_iff {a b : Json} : a.same b = true ↔ a.Alike b := by
  constructor
  · intro h
    cases a <;> cases b <;>
      simp only [same, Bool.false_eq_true, beq_iff_eq, Bool.and_eq_true, sameItems_iff,
        sameFields_iff] at h
    case null.null => exact .null
    case bool.bool => exact h ▸ .bool _
    case number.number => exact .number h
    case string.string => exact h ▸ .string _
    case array.array => exact .array h
    case object.object => exact .object h.1 h.2
  · intro h
    cases h with
    | null => rfl
    | bool => simp [same]
    | number h => exact h
    | string => simp [same]
    | array h => exact sameItems_iff.2 h
    | object hlength hfields =>
        rw [same, Bool.and_eq_true, beq_iff_eq]
        exact ⟨hlength, sameFields_iff.2 hfields⟩

theorem same_trans {a b c : Json} (hab : a.same b = true) (hbc : b.same c = true) :
    a.same c = true := by
  induction a using Json.induct generalizing b c with
  | null =>
      cases same_iff.1 hab
      exact hbc
  | bool =>
      cases same_iff.1 hab
      exact hbc
  | string =>
      cases same_iff.1 hab
      exact hbc
  | number =>
      cases same_iff.1 hab with
      | number hlm =>
          cases same_iff.1 hbc with
          | number hmn => exact same_iff.2 (.number (Number.same_trans hlm hmn))
  | array as ih =>
      cases same_iff.1 hab with
      | array hitems =>
          cases same_iff.1 hbc with
          | array hitems' =>
              apply same_iff.2
              exact .array (forall₂_trans_of_mem hitems hitems' fun a ha _ _ => ih a ha)
  | object as ih =>
      cases same_iff.1 hab with
      | object hlength hfields =>
          cases same_iff.1 hbc with
          | object hlength' hfields' =>
              apply same_iff.2
              refine .object (hlength.trans hlength') ?_
              intro field hfield
              obtain ⟨v, hv, hsame⟩ := hfields field hfield
              obtain ⟨w, hw, hsame'⟩ := hfields' _ (Table.mem_of_find? hv)
              exact ⟨w, hw, ih field hfield hsame hsame'⟩

namespace Distinct

theorem same_refl {v : Json} (h : v.Distinct) : v.same v = true := by
  apply same_iff.2
  induction h with
  | null => exact .null
  | bool b => exact .bool b
  | number n => exact .number n.same_refl
  | string s => exact .string s
  | array _ ih => exact .array (List.forall₂_same.2 fun item hitem => same_iff.2 (ih item hitem))
  | object nodup _ ih =>
      refine .object rfl ?_
      intro field hfield
      have hsame : field.2.same field.2 = true := same_iff.2 (ih field hfield)
      exact ⟨field.2, Table.find?_eq_some_of_nodup nodup hfield, hsame⟩

/-- A table of as many fields that has all keys of another has no others. -/
theorem keys_subset {as bs : List (String × Json)} (h : (Table.keys as).Nodup)
    (hsubset : Table.keys as ⊆ Table.keys bs) (hlength : as.length = bs.length) :
    Table.keys bs ⊆ Table.keys as := by
  have hperm : (Table.keys as).Perm (Table.keys bs) := by
    apply (List.subperm_of_subset h hsubset).perm_of_length_le
    simp [Table.keys, hlength]
  exact hperm.symm.subset

theorem same_symm {a b : Json} (ha : a.Distinct) (hb : b.Distinct) (h : a.same b = true) :
    b.same a = true := by
  induction ha generalizing b with
  | null =>
      cases same_iff.1 h
      exact h
  | bool =>
      cases same_iff.1 h
      exact h
  | string =>
      cases same_iff.1 h
      exact h
  | number =>
      cases same_iff.1 h with
      | number hmn => exact same_iff.2 (.number (Number.same_symm hmn))
  | array _ ih =>
      cases same_iff.1 h with
      | array hitems =>
          apply same_iff.2
          apply Alike.array
          apply forall₂_symm_of_mem hitems
          exact fun a ha b hmem => ih a ha (hb.item hmem)
  | @object as nodup _ ih =>
      cases same_iff.1 h with
      | @object _ bs hlength hab =>
          have hsubset : Table.keys as ⊆ Table.keys bs := by
            intro key hkey
            obtain ⟨field, hfield, rfl⟩ := List.mem_map.1 hkey
            obtain ⟨w, hw, -⟩ := hab field hfield
            exact List.mem_map.2 ⟨_, Table.mem_of_find? hw, rfl⟩
          apply same_iff.2
          refine .object hlength.symm ?_
          rintro ⟨key, w⟩ hfield
          have hkey : key ∈ Table.keys as :=
            keys_subset nodup hsubset hlength (List.mem_map_of_mem hfield)
          have hw : Table.find? key bs = some w :=
            Table.find?_eq_some_of_nodup hb.nodup_keys hfield
          obtain ⟨⟨_, v⟩, hv, rfl⟩ := List.mem_map.1 hkey
          obtain ⟨w', hw', hsame⟩ := hab _ hv
          obtain rfl := Option.some.inj (hw.symm.trans hw')
          exact ⟨v, Table.find?_eq_some_of_nodup nodup hv, ih _ hv (hb.value hfield) hsame⟩

end Distinct

end Json

/-! ## Settings and configurations -/

/-- What tells an entry from others: the specifier, or the handle of what it hands over. -/
def PluginEntry.identity : PluginEntry → String ⊕ Nat
  | .lookup specifier => .inl specifier
  | .attached handle _ => .inr handle

theorem PluginEntry.same_iff {p q : PluginEntry} : p.same q = true ↔ p.identity = q.identity := by
  cases p <;> cases q <;> simp [same, identity]

theorem PluginEntry.same_refl (p : PluginEntry) : p.same p = true :=
  same_iff.2 rfl

theorem PluginEntry.same_symm {p q : PluginEntry} (h : p.same q = true) : q.same p = true :=
  same_iff.2 (same_iff.1 h).symm

theorem PluginEntry.same_trans {p q r : PluginEntry} (hpq : p.same q = true)
    (hqr : q.same r = true) : p.same r = true :=
  same_iff.2 ((same_iff.1 hpq).trans (same_iff.1 hqr))

theorem sameList_iff {α : Type} {same : α → α → Bool} {as bs : List α} :
    sameList same as bs = true ↔ List.Forall₂ (fun a b => same a b = true) as bs := by
  induction as generalizing bs with
  | nil => cases bs <;> simp [sameList]
  | cons a as ih => cases bs <;> simp [sameList, ih]

section Option

variable {α : Type} {same : α → α → Bool}

theorem sameOption_refl {o : Option α} (h : ∀ a, o = some a → same a a = true) :
    sameOption same o o = true := by
  cases o with
  | none => rfl
  | some a => exact h a rfl

theorem sameOption_symm {o p : Option α}
    (hsymm : ∀ a b, o = some a → p = some b → same a b = true → same b a = true)
    (h : sameOption same o p = true) : sameOption same p o = true := by
  match o, p, h with
  | none, none, _ => rfl
  | some a, some b, h => exact hsymm a b rfl rfl h

theorem sameOption_trans {o p q : Option α} (hop : sameOption same o p = true)
    (hpq : sameOption same p q = true)
    (htrans : ∀ a b c, same a b = true → same b c = true → same a c = true) :
    sameOption same o q = true := by
  match o, p, q, hop, hpq with
  | none, none, none, _, _ => rfl
  | some a, some b, some c, hop, hpq => exact htrans a b c hop hpq

end Option

structure Settings.Alike (s t : Settings) : Prop where
  plugins : List.Forall₂ (fun p q => p.same q = true) s.plugins t.plugins
  rules : sameOption (fun x y => (Json.object x).same (.object y)) s.rules t.rules = true
  ignoreFiles : s.ignoreFiles = t.ignoreFiles
  ignoreDisables : s.ignoreDisables = t.ignoreDisables
  quiet : s.quiet = t.quiet
  needless : sameOption Json.same s.reportNeedlessDisables t.reportNeedlessDisables = true
  invalidScope :
    sameOption Json.same s.reportInvalidScopeDisables t.reportInvalidScopeDisables = true
  descriptionless :
    sameOption Json.same s.reportDescriptionlessDisables t.reportDescriptionlessDisables = true
  customSyntax : s.customSyntax = t.customSyntax
  fix : s.fix = t.fix
  defaultSeverity : s.defaultSeverity = t.defaultSeverity
  allowEmptyInput : s.allowEmptyInput = t.allowEmptyInput
  cache : s.cache = t.cache

theorem Settings.same_iff {s t : Settings} : s.same t = true ↔ s.Alike t := by
  simp only [same, Bool.and_eq_true, beq_iff_eq, sameList_iff]
  constructor
  · rintro ⟨⟨⟨⟨⟨⟨⟨⟨⟨⟨⟨⟨h1, h2⟩, h3⟩, h4⟩, h5⟩, h6⟩, h7⟩, h8⟩, h9⟩, h10⟩, h11⟩, h12⟩, h13⟩
    exact ⟨h1, h2, h3, h4, h5, h6, h7, h8, h9, h10, h11, h12, h13⟩
  · rintro ⟨h1, h2, h3, h4, h5, h6, h7, h8, h9, h10, h11, h12, h13⟩
    exact ⟨⟨⟨⟨⟨⟨⟨⟨⟨⟨⟨⟨h1, h2⟩, h3⟩, h4⟩, h5⟩, h6⟩, h7⟩, h8⟩, h9⟩, h10⟩, h11⟩, h12⟩, h13⟩

theorem Settings.same_refl {s : Settings} (h : s.Distinct) : s.same s = true := by
  apply same_iff.2
  constructor <;> try rfl
  case plugins => exact List.forall₂_same.2 fun p _ => p.same_refl
  case rules => exact sameOption_refl fun rules hrules => (h.rules rules hrules).same_refl
  case needless => exact sameOption_refl fun v hv => (h.needless v hv).same_refl
  case invalidScope => exact sameOption_refl fun v hv => (h.invalidScope v hv).same_refl
  case descriptionless => exact sameOption_refl fun v hv => (h.descriptionless v hv).same_refl

theorem Settings.same_symm {s t : Settings} (hs : s.Distinct) (ht : t.Distinct)
    (h : s.same t = true) : t.same s = true := by
  have halike := same_iff.1 h
  apply same_iff.2
  constructor
  case plugins =>
      exact forall₂_symm_of_mem halike.plugins fun p _ q _ => PluginEntry.same_symm
  case rules =>
      apply sameOption_symm _ halike.rules
      exact fun x y hx hy => Json.Distinct.same_symm (hs.rules x hx) (ht.rules y hy)
  case needless =>
      apply sameOption_symm _ halike.needless
      exact fun v w hv hw => Json.Distinct.same_symm (hs.needless v hv) (ht.needless w hw)
  case invalidScope =>
      apply sameOption_symm _ halike.invalidScope
      exact fun v w hv hw => Json.Distinct.same_symm (hs.invalidScope v hv) (ht.invalidScope w hw)
  case descriptionless =>
      apply sameOption_symm _ halike.descriptionless
      exact fun v w hv hw =>
        Json.Distinct.same_symm (hs.descriptionless v hv) (ht.descriptionless w hw)
  case ignoreFiles => exact halike.ignoreFiles.symm
  case ignoreDisables => exact halike.ignoreDisables.symm
  case quiet => exact halike.quiet.symm
  case customSyntax => exact halike.customSyntax.symm
  case fix => exact halike.fix.symm
  case defaultSeverity => exact halike.defaultSeverity.symm
  case allowEmptyInput => exact halike.allowEmptyInput.symm
  case cache => exact halike.cache.symm

theorem Settings.same_trans {s t u : Settings} (hst : s.same t = true) (htu : t.same u = true) :
    s.same u = true := by
  have hfirst := same_iff.1 hst
  have hsecond := same_iff.1 htu
  apply same_iff.2
  constructor
  case plugins =>
      apply forall₂_trans_of_mem hfirst.plugins hsecond.plugins
      exact fun p _ q r => PluginEntry.same_trans
  case rules =>
      exact sameOption_trans hfirst.rules hsecond.rules fun _ _ _ => Json.same_trans
  case needless =>
      exact sameOption_trans hfirst.needless hsecond.needless fun _ _ _ => Json.same_trans
  case invalidScope =>
      exact sameOption_trans hfirst.invalidScope hsecond.invalidScope fun _ _ _ => Json.same_trans
  case descriptionless =>
      exact sameOption_trans hfirst.descriptionless hsecond.descriptionless
        fun _ _ _ => Json.same_trans
  case ignoreFiles => exact hfirst.ignoreFiles.trans hsecond.ignoreFiles
  case ignoreDisables => exact hfirst.ignoreDisables.trans hsecond.ignoreDisables
  case quiet => exact hfirst.quiet.trans hsecond.quiet
  case customSyntax => exact hfirst.customSyntax.trans hsecond.customSyntax
  case fix => exact hfirst.fix.trans hsecond.fix
  case defaultSeverity => exact hfirst.defaultSeverity.trans hsecond.defaultSeverity
  case allowEmptyInput => exact hfirst.allowEmptyInput.trans hsecond.allowEmptyInput
  case cache => exact hfirst.cache.trans hsecond.cache

theorem Base.sameAll_iff {bs ds : List Base} :
    sameAll bs ds = true ↔ List.Forall₂ (fun b d => b.same d = true) bs ds := by
  induction bs generalizing ds with
  | nil => cases ds <;> simp [sameAll]
  | cons b bs ih => cases ds <;> simp [sameAll, ih]

theorem Override.sameAll_iff {os ps : List Override} :
    sameAll os ps = true ↔ List.Forall₂ (fun o p => o.same p = true) os ps := by
  induction os generalizing ps with
  | nil => cases ps <;> simp [sameAll]
  | cons o os ih => cases ps <;> simp [sameAll, ih]

theorem Base.same_lookup_iff {name : String} {b : Base} :
    (Base.lookup name).same b = true ↔ .lookup name = b := by
  cases b <;> simp [same]

theorem Base.same_inline_iff {c : Config} {b : Base} :
    (Base.inline c).same b = true ↔ ∃ d, b = .inline d ∧ c.same d = true := by
  cases b <;> simp [same]

theorem Override.same_iff {o p : Override} :
    o.same p = true ↔ o.files = p.files ∧ o.config.same p.config = true := by
  cases o
  cases p
  simp [same]

theorem Config.same_iff {c d : Config} :
    c.same d = true ↔
      c.toSettings.same d.toSettings = true ∧
        List.Forall₂ (fun b d => b.same d = true) c.bases d.bases ∧
        List.Forall₂ (fun o p => o.same p = true) c.overrides d.overrides := by
  cases c
  cases d
  simp [same, Base.sameAll_iff, Override.sameAll_iff, and_assoc]

section Base

variable {b d e : Base}

theorem Base.same_refl_of (hinner : ∀ c, b = .inline c → c.same c = true) : b.same b = true := by
  cases b with
  | lookup name => exact same_lookup_iff.2 rfl
  | inline c => exact same_inline_iff.2 ⟨c, rfl, hinner c rfl⟩

theorem Base.same_symm_of
    (hinner : ∀ c c', b = .inline c → d = .inline c' → c.same c' = true → c'.same c = true)
    (h : b.same d = true) : d.same b = true := by
  cases b with
  | lookup name =>
      obtain rfl := same_lookup_iff.1 h
      exact h
  | inline c =>
      obtain ⟨c', rfl, hsame⟩ := same_inline_iff.1 h
      exact same_inline_iff.2 ⟨c, rfl, hinner c c' rfl rfl hsame⟩

theorem Base.same_trans_of
    (hinner : ∀ c c' c'', b = .inline c → c.same c' = true → c'.same c'' = true →
      c.same c'' = true)
    (hbd : b.same d = true) (hde : d.same e = true) : b.same e = true := by
  cases b with
  | lookup name =>
      obtain rfl := same_lookup_iff.1 hbd
      exact hde
  | inline c =>
      obtain ⟨c', rfl, hsame⟩ := same_inline_iff.1 hbd
      obtain ⟨c'', rfl, hsame'⟩ := same_inline_iff.1 hde
      exact same_inline_iff.2 ⟨c'', rfl, hinner c c' c'' rfl hsame hsame'⟩

end Base

theorem Config.same_refl {c : Config} (h : c.Distinct) : c.same c = true := by
  induction h with
  | intro own _ _ ihbases ihoverrides =>
      apply same_iff.2
      refine ⟨Settings.same_refl own, List.forall₂_same.2 ?_, List.forall₂_same.2 ?_⟩
      · intro b hb
        exact Base.same_refl_of fun inner heq => ihbases inner (heq ▸ hb)
      · intro o ho
        exact Override.same_iff.2 ⟨rfl, ihoverrides o ho⟩

theorem Config.same_symm {c d : Config} (hc : c.Distinct) (hd : d.Distinct)
    (h : c.same d = true) : d.same c = true := by
  induction hc generalizing d with
  | intro own _ _ ihbases ihoverrides =>
      obtain ⟨hsettings, hbases, hoverrides⟩ := same_iff.1 h
      apply same_iff.2
      refine ⟨Settings.same_symm own hd.settings hsettings, ?_, ?_⟩
      · apply forall₂_symm_of_mem hbases
        intro b hb e he
        apply Base.same_symm_of
        intro inner inner' heq heq'
        exact ihbases inner (heq ▸ hb) (hd.inner (heq' ▸ he))
      · apply forall₂_symm_of_mem hoverrides
        intro o ho p hp hsame
        obtain ⟨hfiles, hconfig⟩ := Override.same_iff.1 hsame
        exact Override.same_iff.2 ⟨hfiles.symm, ihoverrides o ho (hd.override hp) hconfig⟩

theorem Config.same_trans {c d e : Config} (hcd : c.same d = true) (hde : d.same e = true) :
    c.same e = true := by
  have hc : c.Everywhere fun _ => True := Everywhere.of_forall (fun _ => trivial) c
  induction hc generalizing d e with
  | intro _ _ _ ihbases ihoverrides =>
      obtain ⟨hsettings, hbases, hoverrides⟩ := same_iff.1 hcd
      obtain ⟨hsettings', hbases', hoverrides'⟩ := same_iff.1 hde
      apply same_iff.2
      refine ⟨Settings.same_trans hsettings hsettings', ?_, ?_⟩
      · apply forall₂_trans_of_mem hbases hbases'
        intro b hb _ _
        exact Base.same_trans_of fun inner _ _ heq => ihbases inner (heq ▸ hb)
      · apply forall₂_trans_of_mem hoverrides hoverrides'
        intro o ho p q hsame hsame'
        obtain ⟨hfiles, hconfig⟩ := Override.same_iff.1 hsame
        obtain ⟨hfiles', hconfig'⟩ := Override.same_iff.1 hsame'
        exact Override.same_iff.2 ⟨hfiles.trans hfiles', ihoverrides o ho hconfig hconfig'⟩

theorem Base.same_trans {b d e : Base} : b.same d = true → d.same e = true → b.same e = true :=
  same_trans_of fun _ _ _ _ => Config.same_trans

theorem Override.same_trans {o p q : Override} (hop : o.same p = true) (hpq : p.same q = true) :
    o.same q = true := by
  obtain ⟨hfiles, hconfig⟩ := same_iff.1 hop
  obtain ⟨hfiles', hconfig'⟩ := same_iff.1 hpq
  exact same_iff.2 ⟨hfiles.trans hfiles', Config.same_trans hconfig hconfig'⟩

end StyleAudit
