import Mathlib.Logic.Relation
import StyleAudit.Proofs.Failing

/-!
How the bases of a configuration are worked out.

`Config.Yields` describes the work by rules that know no bound: a configuration turns to its bases,
a base that is looked up to the configuration that it finds. The depth that a chain allows makes
every such work come to an end. A circle is reported exactly where a look-up finds a base whose key
is on the chain, so never for a base that is met on two branches.
-/

namespace StyleAudit

namespace Config

inductive Work where
  /-- A configuration that lies in a directory. -/
  | config (dir : String) (c : Config)
  /-- A configuration whose overrides have been applied, with the bases that it builds on. -/
  | extending (dir : String) (own : Config)
  /-- Bases that are still to be laid over a configuration. -/
  | bases (dir : String) (acc : Config) (rest : List Base)
  | base (dir : String) (b : Base)

/-- What a part of the work comes to from a trail, and the trail that it leaves. -/
inductive Yields (s : Scope) : Work → Trail → Except LintError Config → Trail → Prop
  | refused {dir : String} {c : Config} {t : Trail} {e : LintError}
      (hown : s.forInput c = .error e) : Yields s (.config dir c) t (.error e) t
  | config {dir : String} {c own : Config} {t t' : Trail} {r : Except LintError Config}
      (hown : s.forInput c = .ok own) (h : Yields s (.extending dir own) t r t') :
      Yields s (.config dir c) t (r.map fun whole => whole.anchorPaths dir) t'
  | alone {dir : String} {own : Config} {t : Trail} (hbases : own.bases = []) :
      Yields s (.extending dir own) t (.ok own) t
  | extending {dir : String} {own : Config} {t t' : Trail} {r : Except LintError Config}
      (hbases : own.bases ≠ [])
      (h : Yields s (.bases dir { own with bases := [] } own.bases) t r t') :
      Yields s (.extending dir own) t (r.map fun acc => acc.merge { own with bases := [] }) t'
  | done {dir : String} {acc : Config} {t : Trail} : Yields s (.bases dir acc []) t (.ok acc) t
  | failed {dir : String} {acc : Config} {b : Base} {rest : List Base} {t t' : Trail}
      {e : LintError} (h : Yields s (.base dir b) t (.error e) t') :
      Yields s (.bases dir acc (b :: rest)) t (.error e) t'
  | laid {dir : String} {acc base : Config} {b : Base} {rest : List Base} {t t₁ t' : Trail}
      {r : Except LintError Config} (hbase : Yields s (.base dir b) t (.ok base) t₁)
      (h : Yields s (.bases dir (acc.merge base) rest) t₁ r t') :
      Yields s (.bases dir acc (b :: rest)) t r t'
  | inline {dir : String} {inner : Config} {t t' : Trail} {r : Except LintError Config}
      (h : Yields s (.config dir inner) t r t') : Yields s (.base dir (.inline inner)) t r t'
  | missing {dir name : String} {t : Trail} {e : LintError}
      (hfound : s.sources.find name dir = .error e) :
      Yields s (.base dir (.lookup name)) t (.error e) t
  | circular {dir name : String} {t : Trail} {found : FoundBase}
      (hfound : s.sources.find name dir = .ok found) (hkey : found.key ∈ t.chain) :
      Yields s (.base dir (.lookup name)) t
        (.error (.config (.circularExtends (t.chain ++ [found.key])))) (t.note found)
  | tooDeep {dir name : String} {t : Trail} {found : FoundBase}
      (hfound : s.sources.find name dir = .ok found) (hkey : found.key ∉ t.chain)
      (hdepth : maxDepth < t.chain.length) :
      Yields s (.base dir (.lookup name)) t (.error (.config (.extendsTooDeep maxDepth name)))
        (t.note found)
  | entered {dir name : String} {t t' : Trail} {found : FoundBase} {r : Except LintError Config}
      (hfound : s.sources.find name dir = .ok found) (hkey : found.key ∉ t.chain)
      (hdepth : t.chain.length ≤ maxDepth)
      (h : Yields s (.config (found.loaded.dir?.getD dir) found.loaded.config)
        ((t.note found).enter found.key) r t') :
      Yields s (.base dir (.lookup name)) t r t'.leave

variable {s : Scope}

/-- Whatever the work comes to, it leaves the chain as it was. -/
theorem Yields.chain_eq {w : Work} {t t' : Trail} {r : Except LintError Config}
    (h : Yields s w t r t') : t'.chain = t.chain := by
  induction h with
  | refused => rfl
  | config _ _ ih => exact ih
  | alone => rfl
  | extending _ _ ih => exact ih
  | done => rfl
  | failed _ ih => exact ih
  | laid _ _ ihbase ih => exact ih.trans ihbase
  | inline _ ih => exact ih
  | missing => rfl
  | circular => rfl
  | tooDeep => rfl
  | entered _ _ _ _ ih => simp [Trail.leave, ih, Trail.enter, Trail.note]

/-- The work comes to one thing only. -/
theorem Yields.unique {w : Work} {t t₁ t₂ : Trail} {r₁ r₂ : Except LintError Config}
    (h₁ : Yields s w t r₁ t₁) (h₂ : Yields s w t r₂ t₂) : r₁ = r₂ ∧ t₁ = t₂ := by
  induction h₁ generalizing r₂ t₂ with
  | refused hown =>
      cases h₂ with
      | refused hown' => exact ⟨by rw [Except.error.inj (hown.symm.trans hown')], rfl⟩
      | config hown' => exact absurd (hown.symm.trans hown') nofun
  | config hown _ ih =>
      cases h₂ with
      | refused hown' => exact absurd (hown.symm.trans hown') nofun
      | config hown' h' =>
          obtain rfl := Except.ok.inj (hown.symm.trans hown')
          obtain ⟨rfl, rfl⟩ := ih h'
          exact ⟨rfl, rfl⟩
  | alone hbases =>
      cases h₂ with
      | alone => exact ⟨rfl, rfl⟩
      | extending hbases' => exact absurd hbases hbases'
  | extending hbases _ ih =>
      cases h₂ with
      | alone hbases' => exact absurd hbases' hbases
      | extending _ h' =>
          obtain ⟨rfl, rfl⟩ := ih h'
          exact ⟨rfl, rfl⟩
  | done =>
      cases h₂
      exact ⟨rfl, rfl⟩
  | failed _ ih =>
      cases h₂ with
      | failed h' => exact ih h'
      | laid hbase' _ => exact absurd (ih hbase').1 nofun
  | laid _ _ ihbase ih =>
      cases h₂ with
      | failed h' => exact absurd (ihbase h').1 nofun
      | laid hbase' h' =>
          obtain ⟨hbase, rfl⟩ := ihbase hbase'
          obtain rfl := Except.ok.inj hbase
          exact ih h'
  | inline _ ih =>
      cases h₂ with
      | inline h' => exact ih h'
  | missing hfound => cases h₂ <;> simp_all
  | circular hfound hkey => cases h₂ <;> simp_all
  | tooDeep hfound hkey hdepth =>
      cases h₂ with
      | entered _ _ hdepth' => exact absurd hdepth (Nat.not_lt.2 hdepth')
      | _ => simp_all
  | entered hfound hkey hdepth _ ih =>
      cases h₂ with
      | missing => simp_all
      | circular => simp_all
      | tooDeep _ _ hdepth' => exact absurd hdepth' (Nat.not_lt.2 hdepth)
      | entered hfound' _ _ h' =>
          obtain rfl := Except.ok.inj (hfound.symm.trans hfound')
          obtain ⟨rfl, rfl⟩ := ih h'
          exact ⟨rfl, rfl⟩

/-- The look-ups that the work can come to, each with its directory and with the keys of the bases
that are entered one inside the other on the way there. -/
inductive Leads (s : Scope) : Work → List String → (name dir : String) → Prop
  | config {dir name place : String} {c own : Config} {keys : List String}
      (hown : s.forInput c = .ok own) (h : Leads s (.extending dir own) keys name place) :
      Leads s (.config dir c) keys name place
  | extending {dir name place : String} {own : Config} {keys : List String}
      (h : Leads s (.bases dir { own with bases := [] } own.bases) keys name place) :
      Leads s (.extending dir own) keys name place
  | bases {dir name place : String} {acc : Config} {b : Base} {rest : List Base}
      {keys : List String} (hb : b ∈ rest) (h : Leads s (.base dir b) keys name place) :
      Leads s (.bases dir acc rest) keys name place
  | inline {dir name place : String} {inner : Config} {keys : List String}
      (h : Leads s (.config dir inner) keys name place) :
      Leads s (.base dir (.inline inner)) keys name place
  | here {dir name : String} : Leads s (.base dir (.lookup name)) [] name dir
  | entered {dir lookup name place : String} {found : FoundBase} {keys : List String}
      (hfound : s.sources.find lookup dir = .ok found)
      (h : Leads s (.config (found.loaded.dir?.getD dir) found.loaded.config) keys name place) :
      Leads s (.base dir (.lookup lookup)) (found.key :: keys) name place

/-- Some look-up finds a base whose key is among those of a chain and of the bases that lead to it
one inside the other; `told` is that row of keys. -/
def Circles (s : Scope) (w : Work) (chain told : List String) : Prop :=
  ∃ keys name dir found, Leads s w keys name dir ∧ s.sources.find name dir = .ok found ∧
    found.key ∈ chain ++ keys ∧ told = chain ++ keys ++ [found.key]

theorem Circles.mono {w w' : Work} {chain told : List String} (h : Circles s w chain told)
    (hleads : ∀ keys name dir, Leads s w keys name dir → Leads s w' keys name dir) :
    Circles s w' chain told := by
  obtain ⟨keys, name, dir, found, hfound, hrest⟩ := h
  exact ⟨keys, name, dir, found, hleads keys name dir hfound, hrest⟩

/-- A circle that is met inside a base that was entered. -/
theorem Circles.entered {dir name : String} {chain told : List String} {found : FoundBase}
    (hfound : s.sources.find name dir = .ok found)
    (h : Circles s (.config (found.loaded.dir?.getD dir) found.loaded.config)
      (chain ++ [found.key]) told) : Circles s (.base dir (.lookup name)) chain told := by
  obtain ⟨keys, inner, place, again, hleads, hagain, hkey, rfl⟩ := h
  refine ⟨found.key :: keys, inner, place, again, .entered hfound hleads, hagain, ?_, ?_⟩
  · simpa using hkey
  · simp

/-- Where the work says that bases go round in a circle, they do. -/
theorem Yields.circles {w : Work} {t t' : Trail} {r : Except LintError Config}
    (hsources : ∀ path, FailsWith LintError.OfConfig (s.sources.load path)) (h : Yields s w t r t')
    {told : List String} (hr : r = .error (.config (.circularExtends told))) :
    Circles s w t.chain told := by
  induction h with
  | refused hown =>
      obtain rfl := Except.error.inj hr
      exact absurd (failsWith_forInput s _ _ hown).noCircle nofun
  | @config _ _ _ _ _ r hown _ ih =>
      cases r with
      | ok whole => cases hr
      | error e => exact (ih hr).mono fun _ _ _ hleads => .config hown hleads
  | alone => cases hr
  | @extending _ _ _ _ r _ _ ih =>
      cases r with
      | ok acc => cases hr
      | error e => exact (ih hr).mono fun _ _ _ hleads => .extending hleads
  | done => cases hr
  | failed _ ih =>
      exact (ih hr).mono fun _ _ _ hleads => .bases List.mem_cons_self hleads
  | laid hbase _ _ ih =>
      rw [← hbase.chain_eq]
      refine (ih hr).mono fun keys name dir hleads => ?_
      cases hleads with
      | bases hb hleads => exact .bases (List.mem_cons_of_mem _ hb) hleads
  | inline _ ih => exact (ih hr).mono fun _ _ _ hleads => .inline hleads
  | missing hfound =>
      obtain rfl := Except.error.inj hr
      exact absurd (BaseSources.failsWith_find hsources _ _ _ hfound).noCircle nofun
  | @circular dir name t found hfound hkey =>
      cases hr
      exact ⟨[], name, dir, found, .here, hfound, by simpa using hkey, by simp⟩
  | tooDeep => cases hr
  | entered hfound _ _ _ ih => exact .entered hfound (ih hr)

/-- The next parts of the work that a part of it turns to, each with the trail at that time. -/
inductive Asks (s : Scope) : Work × Trail → Work × Trail → Prop
  | config {dir : String} {c own : Config} {t : Trail} (hown : s.forInput c = .ok own) :
      Asks s (.config dir c, t) (.extending dir own, t)
  | extending {dir : String} {own : Config} {t : Trail} (hbases : own.bases ≠ []) :
      Asks s (.extending dir own, t) (.bases dir { own with bases := [] } own.bases, t)
  | first {dir : String} {acc : Config} {b : Base} {rest : List Base} {t : Trail} :
      Asks s (.bases dir acc (b :: rest), t) (.base dir b, t)
  | next {dir : String} {acc base : Config} {b : Base} {rest : List Base} {t t₁ : Trail}
      (hbase : Yields s (.base dir b) t (.ok base) t₁) :
      Asks s (.bases dir acc (b :: rest), t) (.bases dir (acc.merge base) rest, t₁)
  | inline {dir : String} {inner : Config} {t : Trail} :
      Asks s (.base dir (.inline inner), t) (.config dir inner, t)
  | entered {dir name : String} {t : Trail} {found : FoundBase}
      (hfound : s.sources.find name dir = .ok found) (hkey : found.key ∉ t.chain)
      (hdepth : t.chain.length ≤ maxDepth) :
      Asks s (.base dir (.lookup name), t)
        (.config (found.loaded.dir?.getD dir) found.loaded.config, (t.note found).enter found.key)

/-- An error of a part of the work is the error of all work that turned to it. -/
theorem Asks.yields_error {a b : Work × Trail} (h : Asks s a b) {e : LintError}
    (hb : ∃ t', Yields s b.1 b.2 (.error e) t') : ∃ t', Yields s a.1 a.2 (.error e) t' := by
  obtain ⟨t', hb⟩ := hb
  cases h with
  | config hown => exact ⟨t', .config hown hb⟩
  | extending hbases => exact ⟨t', .extending hbases hb⟩
  | first => exact ⟨t', .failed hb⟩
  | next hbase => exact ⟨t', .laid hbase hb⟩
  | inline => exact ⟨t', .inline hb⟩
  | entered hfound hkey hdepth => exact ⟨t'.leave, .entered hfound hkey hdepth hb⟩

theorem yields_error_of_asks {a b : Work × Trail} (h : Relation.ReflTransGen (Asks s) a b)
    {e : LintError} (hb : ∃ t', Yields s b.1 b.2 (.error e) t') :
    ∃ t', Yields s a.1 a.2 (.error e) t' := by
  induction h using Relation.ReflTransGen.head_induction_on with
  | refl => exact hb
  | head hstep _ ih => exact hstep.yields_error ih

/-- A look-up that finds a base which is on the chain turns to nothing else. -/
theorem not_asks_of_mem_chain {name dir : String} {t : Trail} {found : FoundBase}
    (hfound : s.sources.find name dir = .ok found) (hkey : found.key ∈ t.chain)
    (next : Work × Trail) : ¬Asks s (.base dir (.lookup name), t) next := by
  intro h
  cases h with
  | entered hfound' hkey' =>
      obtain rfl := Except.ok.inj (hfound.symm.trans hfound')
      exact hkey' hkey

/-- Works out the bases of a configuration that lies in the directory `dir`, its overrides having
been applied. -/
def extendOwn (s : Scope) (enter : Entering) (dir : String) (own : Config) (t : Trail) :
    Except LintError Config × Trail :=
  if own.bases = [] then (.ok own, t)
  else
    let bare := { own with bases := [] }
    let (r, t) := foldBases bare t own.bases fun b _ t => extendBase s enter dir b t
    (r.map fun acc => acc.merge bare, t)

/-- Overrides come first, then bases, then paths. -/
theorem extendWith_eq (s : Scope) (enter : Entering) (dir : String) (c : Config) (t : Trail) :
    extendWith s enter dir c t =
      match s.forInput c with
      | .error e => (.error e, t)
      | .ok own =>
        let (r, t) := extendOwn s enter dir own t
        (r.map fun whole => whole.anchorPaths dir, t) := by
  rw [extendWith]
  split
  case h_1 e hown => rw [hown]
  case h_2 own hown =>
      rw [hown]
      dsimp only
      rw [extendOwn]
      by_cases hbases : own.bases = []
      · have hfold (acc : Config)
            (work : (b : Base) → b ∈ own.bases → Trail → Except LintError Config × Trail) :
            foldBases acc t own.bases work = (.ok acc, t) := by
          revert work
          rw [hbases]
          exact fun _ => rfl
        rw [hfold, if_pos hbases]
        dsimp only
        rw [if_pos (by simp [hbases])]
        rfl
      · rw [if_neg hbases]
        dsimp only
        split
        case h_1 e t₁ hfold =>
            rw [hfold]
            rfl
        case h_2 result t₁ hfold =>
            rw [hfold, if_neg (by simpa using hbases)]
            rfl

/-- What has to be known of the way in which bases are entered below a chain: it does what the
rules say for a base that may be entered. -/
def EntersAt (s : Scope) (enter : Entering) (chain : List String) : Prop :=
  ∀ name dir found t, t.chain = chain → found.key ∉ chain → chain.length ≤ maxDepth →
    ∃ r u, Yields s (.config (found.loaded.dir?.getD dir) found.loaded.config)
      (t.enter found.key) r u ∧ enter name dir found t = (r, u.leave)

theorem yields_foldBases {dir : String} {acc : Config} {bases : List Base} {t : Trail}
    {work : (b : Base) → b ∈ bases → Trail → Except LintError Config × Trail}
    (h : ∀ b hb u, u.chain = t.chain → Yields s (.base dir b) u (work b hb u).1 (work b hb u).2) :
    Yields s (.bases dir acc bases) t (foldBases acc t bases work).1
      (foldBases acc t bases work).2 := by
  induction bases generalizing acc t with
  | nil => exact .done
  | cons b bases ih =>
      have hbase := h b List.mem_cons_self t rfl
      rw [foldBases]
      split
      case h_1 e t₁ heq =>
          rw [heq] at hbase
          exact .failed hbase
      case h_2 base t₁ heq =>
          rw [heq] at hbase
          refine .laid hbase (ih fun b' hb u hu => ?_)
          exact h b' (List.mem_cons_of_mem b hb) u (hu.trans hbase.chain_eq)

section Executed

variable {enter : Entering}

theorem yields_extendOwn_of_bases {dir : String} {own : Config} {t : Trail}
    (h : ∀ b ∈ own.bases, ∀ u : Trail, u.chain = t.chain →
      Yields s (.base dir b) u (extendBase s enter dir b u).1 (extendBase s enter dir b u).2) :
    Yields s (.extending dir own) t (extendOwn s enter dir own t).1
      (extendOwn s enter dir own t).2 := by
  rw [extendOwn]
  by_cases hbases : own.bases = []
  · rw [if_pos hbases]
    exact .alone hbases
  · rw [if_neg hbases]
    exact .extending hbases (yields_foldBases h)

mutual

/-- What is worked out is what the rules say, if that is so for the bases that are entered. -/
theorem yields_extendWith (dir : String) (c : Config) (t : Trail)
    (henter : EntersAt s enter t.chain) :
    Yields s (.config dir c) t (extendWith s enter dir c t).1 (extendWith s enter dir c t).2 := by
  rw [extendWith_eq]
  split
  case h_1 e hown => exact .refused hown
  case h_2 own hown =>
      refine .config hown (yields_extendOwn_of_bases ?_)
      intro b hb u hu
      have := Scope.sizeOf_lt hown hb
      exact yields_extendBase dir b u (hu ▸ henter)
termination_by sizeOf c

theorem yields_extendBase (dir : String) (b : Base) (t : Trail)
    (henter : EntersAt s enter t.chain) :
    Yields s (.base dir b) t (extendBase s enter dir b t).1 (extendBase s enter dir b t).2 := by
  match b with
  | .inline inner =>
      rw [extendBase]
      exact .inline (yields_extendWith dir inner t henter)
  | .lookup name =>
      rw [extendBase]
      dsimp only
      split
      case h_1 e hfound => exact .missing hfound
      case h_2 found hfound =>
          split
          case isTrue hkey => exact .circular hfound (by simpa [Trail.note] using hkey)
          case isFalse hkey =>
              have hkey : found.key ∉ t.chain := by simpa [Trail.note] using hkey
              split
              case isTrue hdepth => exact .tooDeep hfound hkey hdepth
              case isFalse hdepth =>
                  have hdepth : t.chain.length ≤ maxDepth := Nat.not_lt.1 hdepth
                  obtain ⟨r, u, hyields, heq⟩ :=
                    henter name dir found (t.note found) rfl hkey hdepth
                  rw [heq]
                  exact .entered hfound hkey hdepth hyields
termination_by sizeOf b

end

end Executed

/-- How bases are entered when at most `budget` more may be entered one inside the other. -/
def entering (s : Scope) : Nat → Entering
  | 0 => fun name _ _ t => (.error (.config (.extendsTooDeep maxDepth name)), t)
  | budget + 1 => fun _ dir found t =>
    let (base, t) := extend s budget (found.loaded.dir?.getD dir) found.loaded.config
      (t.enter found.key)
    (base, t.leave)

theorem extend_eq (s : Scope) (budget : Nat) :
    extend s budget = extendWith s (entering s budget) := by
  cases budget <;> rfl

/-- A budget that covers the depth which a chain leaves is never used up: where it ends, the chain
is too long for another base. -/
theorem entersAt_entering (budget : Nat) (chain : List String)
    (h : maxDepth + 1 ≤ budget + chain.length) : EntersAt s (entering s budget) chain := by
  induction budget generalizing chain with
  | zero =>
      intro name dir found t _ _ hdepth
      omega
  | succ budget ih =>
      intro name dir found t hchain _ _
      have hlength : maxDepth + 1 ≤ budget + (t.enter found.key).chain.length := by
        simp only [Trail.enter, hchain, List.length_append, List.length_singleton]
        omega
      have hyields := yields_extendWith (found.loaded.dir?.getD dir) found.loaded.config
        (t.enter found.key) (ih _ hlength)
      rw [← extend_eq] at hyields
      exact ⟨_, _, hyields, rfl⟩

theorem length_add_depthLeft (chain : List String) :
    maxDepth + 1 ≤ depthLeft chain + chain.length := by
  rw [depthLeft]
  omega

/-- Works out the bases of a configuration below the bases of a chain. -/
def extendBases (s : Scope) (dir : String) (own : Config) (t : Trail) :
    Except LintError Config × Trail :=
  extendOwn s (entering s (depthLeft t.chain)) dir own t

/-- This is what is done for a configuration between its overrides and its paths. -/
theorem extendFrom_eq (s : Scope) (dir : String) (c : Config) (chain : List String) :
    extendFrom s dir c chain =
      match s.forInput c with
      | .error e => (.error e, ⟨chain, []⟩)
      | .ok own =>
        let (r, t) := extendBases s dir own ⟨chain, []⟩
        (r.map fun whole => whole.anchorPaths dir, t) := by
  rw [extendFrom, extend_eq, extendWith_eq]
  rfl

theorem yields_extendBases (s : Scope) (dir : String) (own : Config) (t : Trail) :
    Yields s (.extending dir own) t (extendBases s dir own t).1 (extendBases s dir own t).2 := by
  refine yields_extendOwn_of_bases fun b _ u hu => ?_
  apply yields_extendBase dir b u
  rw [hu]
  exact entersAt_entering _ _ (length_add_depthLeft t.chain)

theorem yields_extendFrom (s : Scope) (dir : String) (c : Config) (chain : List String) :
    Yields s (.config dir c) ⟨chain, []⟩ (extendFrom s dir c chain).1
      (extendFrom s dir c chain).2 := by
  rw [extendFrom_eq]
  split
  case h_1 e hown => exact .refused hown
  case h_2 own hown => exact .config hown (yields_extendBases s dir own ⟨chain, []⟩)

/-- Working out the bases of a configuration always comes to an end, as the only outcome that the
rules have, and leaves the chain as it was. It reports a circle only where a look-up finds a base
whose key is among those that lead to it one inside the other; and where a look-up finds a base
whose key is on the chain, a circle is reported and the base is not turned to again. -/
theorem extendBases_spec (registry : Registry) (memo : ConfigMemo) (files : FileSystem)
    (cwd rootDir : String) (input : Option String) (dir : String) (own : Config) (t : Trail) :
    let s : Scope := ⟨BaseSources.ofFiles registry memo files cwd, rootDir, input⟩
    let result := (extendBases s dir own t).1
    Yields s (.extending dir own) t result (extendBases s dir own t).2 ∧
      (∀ r t', Yields s (.extending dir own) t r t' →
        r = result ∧ t' = (extendBases s dir own t).2) ∧
      (extendBases s dir own t).2.chain = t.chain ∧
      (∀ told, result = .error (.config (.circularExtends told)) →
        Circles s (.extending dir own) t.chain told) ∧
      ∀ name place u found,
        Relation.ReflTransGen (Asks s) (.extending dir own, t) (.base place (.lookup name), u) →
        s.sources.find name place = .ok found → found.key ∈ u.chain →
        result = .error (.config (.circularExtends (u.chain ++ [found.key]))) ∧
          ∀ next, ¬Asks s (.base place (.lookup name), u) next := by
  intro s result
  have hyields : Yields s (.extending dir own) t result (extendBases s dir own t).2 :=
    yields_extendBases s dir own t
  have hsources (path : String) : FailsWith LintError.OfConfig (s.sources.load path) :=
    memo.failsWith_load files path
  refine ⟨hyields, ?_, hyields.chain_eq, ?_, ?_⟩
  · intro r t' h
    exact h.unique hyields
  · intro told htold
    exact hyields.circles hsources htold
  · intro name place u found hasks hfound hkey
    obtain ⟨t', herror⟩ := yields_error_of_asks hasks ⟨_, .circular hfound hkey⟩
    exact ⟨(hyields.unique herror).1, not_asks_of_mem_chain hfound hkey⟩

/-- Two bases that build on a third one form no circle; one that builds on itself does. -/
example :
    let on (names : List String) : Config := { Config.empty with bases := names.map .lookup }
    let registry : Registry := { Registry.empty with
      configs := [("a", on ["c"]), ("b", on ["c"]), ("c", on []), ("d", on ["d"])] }
    let s : Scope := ⟨BaseSources.ofFiles registry .empty ⟨[], [], 0, []⟩ "/", "/", none⟩
    ((extendBases s "/" (on ["a", "b"]) ⟨[], []⟩).1.isOk = true ∧
      (extendBases s "/" (on ["a", "d"]) ⟨[], []⟩).1.toOption.isNone = true) := by
  decide +kernel

end Config

end StyleAudit
