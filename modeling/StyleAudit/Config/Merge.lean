import StyleAudit.Config.Basic

/-!
Laying one configuration over another.

Plugins and overrides are united with the first place of a repeated entry kept, bases with the
last. Rules are replaced name by name. Every other field takes the incoming value if there is one.
-/

namespace StyleAudit

/-- The members of a list without repetitions, each at its first place, after those of `seen`. -/
def keepFirst {α : Type} [BEq α] (seen : List α) : List α → List α
  | [] => []
  | a :: as => if seen.contains a then keepFirst seen as else a :: keepFirst (seen ++ [a]) as

/-- The members of a list without repetitions, each at its last place. -/
def keepLast {α : Type} [BEq α] : List α → List α
  | [] => []
  | a :: as => if as.contains a then keepLast as else a :: keepLast as

/-- Replaces rules name by name; new names come last. -/
def mergeRules : Option (Table Json) → Option (Table Json) → Option (Table Json)
  | some base, some incoming => some (base.insertAll incoming)
  | base, incoming => incoming <|> base

/-- The settings of `incoming` laid over those of `base`. -/
def Settings.merge (base incoming : Settings) : Settings where
  plugins := keepFirst [] (base.plugins ++ incoming.plugins)
  rules := mergeRules base.rules incoming.rules
  ignoreFiles := incoming.ignoreFiles <|> base.ignoreFiles
  ignoreDisables := incoming.ignoreDisables <|> base.ignoreDisables
  quiet := incoming.quiet <|> base.quiet
  reportNeedlessDisables := incoming.reportNeedlessDisables <|> base.reportNeedlessDisables
  reportInvalidScopeDisables :=
    incoming.reportInvalidScopeDisables <|> base.reportInvalidScopeDisables
  reportDescriptionlessDisables :=
    incoming.reportDescriptionlessDisables <|> base.reportDescriptionlessDisables
  customSyntax := incoming.customSyntax <|> base.customSyntax
  fix := incoming.fix <|> base.fix
  defaultSeverity := incoming.defaultSeverity <|> base.defaultSeverity
  allowEmptyInput := incoming.allowEmptyInput <|> base.allowEmptyInput
  cache := incoming.cache <|> base.cache

/-- The configuration `incoming` laid over `base`. -/
def Config.merge (base incoming : Config) : Config where
  toSettings := base.toSettings.merge incoming.toSettings
  bases := keepLast (base.bases ++ incoming.bases)
  overrides := keepFirst [] (base.overrides ++ incoming.overrides)

theorem mem_of_mem_keepFirst {α : Type} [BEq α] {seen as : List α} {a : α}
    (h : a ∈ keepFirst seen as) : a ∈ as := by
  induction as generalizing seen with
  | nil => simp [keepFirst] at h
  | cons b as ih =>
    rw [keepFirst] at h
    split at h
    · exact List.mem_cons_of_mem _ (ih h)
    · rcases List.mem_cons.1 h with rfl | h
      · exact List.mem_cons_self
      · exact List.mem_cons_of_mem _ (ih h)

theorem mem_of_mem_keepLast {α : Type} [BEq α] {as : List α} {a : α}
    (h : a ∈ keepLast as) : a ∈ as := by
  induction as with
  | nil => simp [keepLast] at h
  | cons b as ih =>
    rw [keepLast] at h
    split at h
    · exact List.mem_cons_of_mem _ (ih h)
    · rcases List.mem_cons.1 h with rfl | h
      · exact List.mem_cons_self
      · exact List.mem_cons_of_mem _ (ih h)

/-- Merging takes its bases from the two sides. -/
theorem Config.mem_bases_merge {base incoming : Config} {b : Base}
    (h : b ∈ (base.merge incoming).bases) : b ∈ base.bases ∨ b ∈ incoming.bases :=
  List.mem_append.1 (mem_of_mem_keepLast h)

end StyleAudit
