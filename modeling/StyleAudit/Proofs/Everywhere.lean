import StyleAudit.Config.Decode

/-!
What holds of a configuration and of all configurations within it.

A configuration holds others, as bases that are written out and in its overrides. A property of
settings holds everywhere in a configuration that was read from JSON if it holds of all settings
that can be read from the parts of the value: `Config.everywhere_of_decode?`.
-/

namespace StyleAudit

open Json (recordField? optional?)

/-- The settings of a configuration have a property, and so have those of all configurations within
it. -/
inductive Config.Everywhere (P : Settings → Prop) : Config → Prop
  | intro {c : Config} (own : P c.toSettings)
      (bases : ∀ inner, Base.inline inner ∈ c.bases → Everywhere P inner)
      (overrides : ∀ o ∈ c.overrides, Everywhere P o.config) : Everywhere P c

theorem Config.Everywhere.settings {P : Settings → Prop} {c : Config} (h : c.Everywhere P) :
    P c.toSettings := by
  cases h with
  | intro own _ _ => exact own

theorem Config.Everywhere.inner {P : Settings → Prop} {c inner : Config} (h : c.Everywhere P)
    (hinner : .inline inner ∈ c.bases) : inner.Everywhere P := by
  cases h with
  | intro _ bases _ => exact bases inner hinner

theorem Config.Everywhere.override {P : Settings → Prop} {c : Config} (h : c.Everywhere P)
    {o : Override} (ho : o ∈ c.overrides) : o.config.Everywhere P := by
  cases h with
  | intro _ _ overrides => exact overrides o ho

theorem Config.Everywhere.of_forall {P : Settings → Prop} (h : ∀ s, P s) (c : Config) :
    c.Everywhere P := by
  match c with
  | ⟨settings, bases, overrides⟩ =>
      apply Config.Everywhere.intro
      · exact h settings
      · intro inner hinner
        have := List.sizeOf_lt_of_mem hinner
        exact Config.Everywhere.of_forall h inner
      · rintro ⟨files, config⟩ ho
        have := List.sizeOf_lt_of_mem ho
        exact Config.Everywhere.of_forall h config
termination_by sizeOf c
decreasing_by all_goals simp_all; omega

theorem Json.optional?_some {α : Type} {decode : Json → Option α} {v : Json} (h : v ≠ .null) :
    optional? decode (some v) = (decode v).map some := by
  cases v <;> first | rfl | exact absurd rfl h

theorem Json.optional?_eq_some {α : Type} {decode : Json → Option α} {v : Option Json} {a : α}
    (h : optional? decode v = some (some a)) : ∃ w, v = some w ∧ w ≠ .null ∧ decode w = some a := by
  match v, h with
  | some w, h =>
      by_cases hw : w = .null
      · subst hw
        cases h
      · rw [optional?_some hw] at h
        exact ⟨w, rfl, hw, by simpa using h⟩

/-- How settings come from the fields of the value that they were read from. -/
structure Settings.ReadFrom (v : Json) (s : Settings) : Prop where
  plugins : ∀ p ∈ s.plugins, ∃ specifier, p = .lookup specifier
  rules : optional? ruleTable? (recordField? Config.fieldNames "rules" v) = some s.rules
  needless : optional? some (recordField? Config.fieldNames "reportNeedlessDisables" v) =
    some s.reportNeedlessDisables
  invalidScope : optional? some (recordField? Config.fieldNames "reportInvalidScopeDisables" v) =
    some s.reportInvalidScopeDisables
  descriptionless :
    optional? some (recordField? Config.fieldNames "reportDescriptionlessDisables" v) =
      some s.reportDescriptionlessDisables

theorem Settings.readFrom_of_decode? {severity? : Json → Option Severity} {v : Json}
    {s : Settings} (h : Settings.decode? severity? v = some s) : s.ReadFrom v := by
  rw [Settings.decode?] at h
  dsimp only at h
  -- The plugins are read in two ways; both go on with the same fields.
  split at h
  all_goals
    obtain ⟨plugins, -, h⟩ := Option.bind_eq_some_iff.1 h
    obtain ⟨_, hrules, h⟩ := Option.bind_eq_some_iff.1 h
    iterate 3 obtain ⟨_, -, h⟩ := Option.bind_eq_some_iff.1 h
    obtain ⟨_, hneedless, h⟩ := Option.bind_eq_some_iff.1 h
    obtain ⟨_, hinvalidScope, h⟩ := Option.bind_eq_some_iff.1 h
    obtain ⟨_, hdescriptionless, h⟩ := Option.bind_eq_some_iff.1 h
    iterate 5 obtain ⟨_, -, h⟩ := Option.bind_eq_some_iff.1 h
    obtain rfl := Option.some.inj h
    refine ⟨?_, hrules, hneedless, hinvalidScope, hdescriptionless⟩
    intro p hp
    obtain ⟨specifier, -, rfl⟩ := List.mem_map.1 hp
    exact ⟨specifier, rfl⟩

/-- A property of JSON values that passes to their fields and items. -/
structure Json.Inherited (Q : Json → Prop) : Prop where
  field {names : List String} {key : String} {v w : Json} (hv : Q v)
    (h : recordField? names key v = some w) : Q w
  items {items : List Json} (hv : Q (.array items)) : ∀ item ∈ items, Q item

theorem Json.inherited_true : Json.Inherited fun _ => True :=
  ⟨fun _ _ => trivial, fun _ _ _ => trivial⟩

theorem Json.Inherited.optional {Q : Json → Prop} (hQ : Json.Inherited Q) {names : List String}
    {key : String} {v w : Json} (hv : Q v)
    (h : optional? some (recordField? names key v) = some (some w)) : Q w := by
  obtain ⟨u, hu, -, heq⟩ := Json.optional?_eq_some h
  obtain rfl := Option.some.inj heq
  exact hQ.field hv hu

section Decode

variable {P : Settings → Prop} {Q : Json → Prop}

mutual

/-- What holds of all settings that can be read from the parts of a value holds everywhere in a
configuration that was read from it. -/
theorem Config.everywhere_of_decode? (hQ : Json.Inherited Q)
    (hP : ∀ {v : Json} {s : Settings}, Q v → s.ReadFrom v → P s)
    {severity? : Json → Option Severity} {v : Json} {c : Config} (hv : Q v)
    (h : Config.decode? severity? v = some c) : c.Everywhere P := by
  rw [Config.decode?] at h
  split at h
  case isFalse => cases h
  case isTrue =>
      split at h
      case h_2 => cases h
      case h_1 settings bases overrides hsettings hbases hoverrides =>
          obtain rfl := Option.some.inj h
          apply Config.Everywhere.intro
          · exact hP hv (Settings.readFrom_of_decode? hsettings)
          · intro inner hinner
            split at hbases
            case h_1 =>
                obtain rfl := Option.some.inj hbases
                cases hinner
            case h_2 w hw =>
                have := Json.sizeOf_recordField? hw
                exact Base.everywhere_of_decodeMany? hQ hP (hQ.field hv hw) hbases inner hinner
          · intro o ho
            split at hoverrides
            case h_1 =>
                obtain rfl := Option.some.inj hoverrides
                cases ho
            case h_2 items hitems =>
                have hlt := Json.sizeOf_recordField? hitems
                rw [Json.array.sizeOf_spec] at hlt
                have : sizeOf items < sizeOf v := by omega
                exact Override.everywhere_of_decodeAll? hQ hP (hQ.items (hQ.field hv hitems))
                  hoverrides o ho
            case h_3 => cases hoverrides
termination_by 3 * sizeOf v

theorem Base.everywhere_of_decodeMany? (hQ : Json.Inherited Q)
    (hP : ∀ {v : Json} {s : Settings}, Q v → s.ReadFrom v → P s) {v : Json} {bases : List Base}
    (hv : Q v) (h : Base.decodeMany? v = some bases) (inner : Config)
    (hinner : .inline inner ∈ bases) : inner.Everywhere P := by
  rw [Base.decodeMany?.eq_def] at h
  split at h
  case h_1 items =>
      split at h
      case h_1 found hfound =>
          obtain rfl := Option.some.inj h
          exact Base.everywhere_of_decodeAll? hQ hP (hQ.items hv) hfound inner hinner
      case h_2 =>
          obtain ⟨base, hbase, rfl⟩ := Option.map_eq_some_iff.1 h
          exact Base.everywhere_of_decode? hQ hP hv hbase inner
            (List.mem_singleton.1 hinner).symm
  case h_2 =>
      obtain ⟨base, hbase, rfl⟩ := Option.map_eq_some_iff.1 h
      exact Base.everywhere_of_decode? hQ hP hv hbase inner (List.mem_singleton.1 hinner).symm
termination_by 3 * sizeOf v + 2

theorem Base.everywhere_of_decode? (hQ : Json.Inherited Q)
    (hP : ∀ {v : Json} {s : Settings}, Q v → s.ReadFrom v → P s) {v : Json} {b : Base} (hv : Q v)
    (h : Base.decode? v = some b) (inner : Config) (hinner : b = .inline inner) :
    inner.Everywhere P := by
  subst hinner
  rw [Base.decode?.eq_def] at h
  split at h
  case h_1 => cases h
  case h_2 =>
      obtain ⟨c, hc, heq⟩ := Option.map_eq_some_iff.1 h
      obtain rfl := Base.inline.inj heq
      exact Config.everywhere_of_decode? hQ hP hv hc
termination_by 3 * sizeOf v + 1

theorem Base.everywhere_of_decodeAll? (hQ : Json.Inherited Q)
    (hP : ∀ {v : Json} {s : Settings}, Q v → s.ReadFrom v → P s) {items : List Json}
    {bases : List Base} (hv : ∀ item ∈ items, Q item) (h : Base.decodeAll? items = some bases)
    (inner : Config) (hinner : .inline inner ∈ bases) : inner.Everywhere P := by
  match items, hv, h with
  | [], _, h =>
      rw [Base.decodeAll?] at h
      obtain rfl := Option.some.inj h
      cases hinner
  | item :: items, hv, h =>
      rw [Base.decodeAll?] at h
      split at h
      case h_2 => cases h
      case h_1 base rest hbase hrest =>
          obtain rfl := Option.some.inj h
          rcases List.mem_cons.1 hinner with heq | hmem
          · exact Base.everywhere_of_decode? hQ hP (hv item List.mem_cons_self) hbase inner
              heq.symm
          · exact Base.everywhere_of_decodeAll? hQ hP
              (fun other hother => hv other (List.mem_cons_of_mem _ hother)) hrest inner hmem
termination_by 3 * sizeOf items

theorem Override.everywhere_of_decode? (hQ : Json.Inherited Q)
    (hP : ∀ {v : Json} {s : Settings}, Q v → s.ReadFrom v → P s) {v : Json} {o : Override}
    (hv : Q v) (h : Override.decode? v = some o) : o.config.Everywhere P := by
  rw [Override.decode?.eq_def] at h
  split at h
  case h_2 => cases h
  case h_1 fields =>
      split at h
      case h_2 => cases h
      case h_1 files config _ hconfig =>
          obtain rfl := Option.some.inj h
          exact Config.everywhere_of_decode? hQ hP hv hconfig
termination_by 3 * sizeOf v + 1

theorem Override.everywhere_of_decodeAll? (hQ : Json.Inherited Q)
    (hP : ∀ {v : Json} {s : Settings}, Q v → s.ReadFrom v → P s) {items : List Json}
    {os : List Override} (hv : ∀ item ∈ items, Q item) (h : Override.decodeAll? items = some os)
    (o : Override) (ho : o ∈ os) : o.config.Everywhere P := by
  match items, hv, h with
  | [], _, h =>
      rw [Override.decodeAll?] at h
      obtain rfl := Option.some.inj h
      cases ho
  | item :: items, hv, h =>
      rw [Override.decodeAll?] at h
      split at h
      case h_2 => cases h
      case h_1 first rest hfirst hrest =>
          obtain rfl := Option.some.inj h
          rcases List.mem_cons.1 ho with rfl | hmem
          · exact Override.everywhere_of_decode? hQ hP (hv item List.mem_cons_self) hfirst
          · exact Override.everywhere_of_decodeAll? hQ hP
              (fun other hother => hv other (List.mem_cons_of_mem _ hother)) hrest o hmem
termination_by 3 * sizeOf items

end

theorem Config.everywhere_of_ofJson (hQ : Json.Inherited Q)
    (hP : ∀ {v : Json} {s : Settings}, Q v → s.ReadFrom v → P s) {v : Json} {c : Config}
    (hv : Q v) (h : Config.ofJson v = .ok c) : c.Everywhere P := by
  rw [Config.ofJson] at h
  split at h
  case h_1 => cases h
  case h_2 =>
      split at h
      case h_2 => cases h
      case h_1 config hconfig =>
          obtain rfl := Except.ok.inj h
          exact Config.everywhere_of_decode? hQ hP hv hconfig

end Decode

/-- A text is read as the value that stands in it, and as an empty object without one. -/
theorem Config.ofText_eq_ok {text : String} {c : Config} (h : Config.ofText text = .ok c) :
    ∃ v, ofJson v = .ok c ∧ (v = .object [] ∨ Json.parse? text = some (some v)) := by
  rw [ofText] at h
  split at h
  case h_1 => cases h
  case h_2 => exact ⟨_, h, .inl rfl⟩
  case h_3 v hparse => exact ⟨v, h, .inr hparse⟩

end StyleAudit
