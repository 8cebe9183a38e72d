import Mathlib
import Tabular.Proofs.Action
import Tabular.Settings.Environment

/-!
# Settings from the environment and by changes

The environment writes every field of the settings in one place.  A change writes one field and no
other, so what a list of changes makes of a field depends only on which values it has for it, and
not on the order.  With one change for each variable the two ways therefore end in the same
settings, and both check them last.
-/

namespace Tabular

/-! ## Fields and their changes -/

namespace Settings

variable {α : Type} {change : α → Setting} {get : Settings → α} {changes : List Setting}

/-- These changes write the field, and no others do. -/
structure Owns (change : α → Setting) (get : Settings → α) : Prop where
  get_set : ∀ (s : Settings) a, get (s.set (change a)) = a
  get_set_of_ne : ∀ (s : Settings) c, (∀ a, c ≠ change a) → get (s.set c) = get s

theorem Owns.get_foldl (owns : Owns change get) {value : Option α}
    (only : ∀ a, change a ∈ changes ↔ value = some a) (s : Settings) :
    get (changes.foldl set s) = value.getD (get s) := by
  induction changes using List.reverseRecOn with
  | nil =>
      cases value with
      | none => rfl
      | some a => exact absurd ((only a).mpr rfl) List.not_mem_nil
  | append_singleton changes c ih =>
      rw [List.foldl_append, List.foldl_cons, List.foldl_nil]
      by_cases own : ∃ a, c = change a
      · obtain ⟨a, rfl⟩ := own
        rw [owns.get_set, (only a).mp (by simp), Option.getD_some]
      · have other (a : α) : c ≠ change a := fun same => own ⟨a, same⟩
        rw [owns.get_set_of_ne _ c other]
        refine ih fun a => ?_
        rw [← only a, List.mem_append, List.mem_singleton, or_iff_left (other a).symm]

theorem owns_fields :
    Owns .rejectInvalidTokens (·.lexer.rejectInvalidTokens) ∧
      Owns .errorOnMissingDrop (·.execution.errorOnMissingDrop) ∧
      Owns .useBackend (·.execution.useBackend) ∧ Owns .logLevel (·.logging.level) ∧
      Owns .logFormat (·.logging.format) ∧ Owns .logStatements (·.logging.logStatements) := by
  refine ⟨?_, ?_, ?_, ?_, ?_, ?_⟩
  all_goals exact ⟨fun _ _ => rfl, fun _ c other => by cases c <;> simp_all [set]⟩

theorem profile_foldl (changes : List Setting) (s : Settings) :
    (changes.foldl set s).profile = s.profile := by
  induction changes generalizing s with
  | nil => rfl
  | cons c changes ih =>
      rw [List.foldl_cons, ih]
      cases c <;> rfl

theorem validate_of_build {profile : Profile} {s : Settings}
    (built : build profile changes = .ok s) : s.validate = .ok () := by
  obtain ⟨⟨⟩, valid, ⟨⟩⟩ := bind_eq_ok_iff.mp built
  exact valid

end Settings

theorem Profile.eq_of_ofString_eq_error {text : String} {e : Error}
    (wrong : Profile.ofString text = .error e) :
    e = .invalidSetting ("Invalid profile: " ++ text) := by
  unfold Profile.ofString at wrong
  grind

/-! ## Variables and their changes -/

/-- The text is the word for a truth value. -/
def IsTruth (text : String) : Bool → Prop
  | true => text = "true"
  | false => text = "false"

theorem IsTruth.unique {text : String} {a b : Bool} (first : IsTruth text a)
    (second : IsTruth text b) : a = b := by
  cases a <;> cases b <;> simp_all [IsTruth]

namespace Setting

def name : Setting → String
  | rejectInvalidTokens _ => "ROWSQL_REJECT_INVALID_TOKENS"
  | errorOnMissingDrop _ => "ROWSQL_ERROR_ON_MISSING_DROP"
  | useBackend _ => "ROWSQL_USE_BACKEND"
  | logLevel _ => "ROWSQL_LOG_LEVEL"
  | logFormat _ => "ROWSQL_LOG_FORMAT"
  | logStatements _ => "ROWSQL_LOG_STATEMENTS"

def names : List String :=
  ["ROWSQL_REJECT_INVALID_TOKENS", "ROWSQL_ERROR_ON_MISSING_DROP", "ROWSQL_USE_BACKEND",
    "ROWSQL_LOG_LEVEL", "ROWSQL_LOG_FORMAT", "ROWSQL_LOG_STATEMENTS"]

theorem name_mem (c : Setting) : c.name ∈ names := by
  cases c <;> simp [name, names]

/-- The text is one for this change. -/
def IsReadFrom (text : String) : Setting → Prop
  | rejectInvalidTokens b | errorOnMissingDrop b | useBackend b | logStatements b => IsTruth text b
  | logLevel word | logFormat word => word = Text.lowerCase text

theorem eq_of_isReadFrom {text : String} {c d : Setting} (first : c.IsReadFrom text)
    (second : d.IsReadFrom text) (same : c.name = d.name) : c = d := by
  cases c <;> cases d <;> simp only [name, String.reduceEq] at same <;> congr 1
  case logLevel => exact first.trans second.symm
  case logFormat => exact first.trans second.symm
  all_goals exact IsTruth.unique first second

end Setting

namespace Environment

variable {env : Environment} {name text : String} {changes : List Setting} {s t : Settings}

/-- The environment has a variable with a text for this change. -/
def Sets (env : Environment) (c : Setting) : Prop :=
  ∃ text, env.lookup c.name = some text ∧ c.IsReadFrom text

/-- The changes are those that the environment has variables for. -/
def Lists (env : Environment) (changes : List Setting) : Prop :=
  ∀ c, c ∈ changes ↔ env.Sets c

def truthNames : List String :=
  ["ROWSQL_REJECT_INVALID_TOKENS", "ROWSQL_ERROR_ON_MISSING_DROP", "ROWSQL_USE_BACKEND",
    "ROWSQL_LOG_STATEMENTS"]

/-- Each of the variables with truth values has one, if it is set. -/
def IsTruthful (env : Environment) : Prop :=
  ∀ name ∈ truthNames, ∀ text, env.lookup name = some text → ∃ b, IsTruth text b

/-- The profile that the environment names, or else the strict one. -/
inductive Selects (env : Environment) : Profile → Prop where
  | unset : env.lookup "ROWSQL_PROFILE" = none → Selects env .strict
  | named {text : String} {profile : Profile} : env.lookup "ROWSQL_PROFILE" = some text →
      Profile.ofString text = .ok profile → Selects env profile

/-- What is wrong with a variable. -/
inductive Rejects (env : Environment) : String → Prop where
  | profile {text : String} : env.lookup "ROWSQL_PROFILE" = some text →
      (∀ profile, Profile.ofString text ≠ .ok profile) → Rejects env ("Invalid profile: " ++ text)
  | truth {name text : String} : name ∈ truthNames → env.lookup name = some text →
      (∀ b, ¬ IsTruth text b) → Rejects env ("Invalid " ++ name ++ ": " ++ text)

/-! ## Reading variables -/

theorem boolean?_of_none (unset : env.lookup name = none) : env.boolean? name = .ok none := by
  rw [boolean?, unset]

theorem boolean?_of_truth {b : Bool} (here : env.lookup name = some text) (truth : IsTruth text b) :
    env.boolean? name = .ok (some b) := by
  cases b <;> rw [boolean?, here, truth] <;> rfl

theorem boolean?_of_other (here : env.lookup name = some text) (other : ∀ b, ¬ IsTruth text b) :
    env.boolean? name = .error (.invalidSetting ("Invalid " ++ name ++ ": " ++ text)) := by
  rw [boolean?, here]
  split
  · simp_all
  · rename_i same
    exact absurd (Option.some.inj same) (other true)
  · rename_i same
    exact absurd (Option.some.inj same) (other false)
  · simp_all

theorem exists_boolean?_iff :
    (∃ value, env.boolean? name = .ok value) ↔
      ∀ text, env.lookup name = some text → ∃ b, IsTruth text b := by
  constructor
  · rintro ⟨value, read⟩ text here
    by_contra other
    cases (boolean?_of_other here (not_exists.mp other)).symm.trans read
  · intro truthful
    cases here : env.lookup name with
    | none => exact ⟨none, boolean?_of_none here⟩
    | some text =>
        obtain ⟨b, truth⟩ := truthful text here
        exact ⟨some b, boolean?_of_truth here truth⟩

theorem exists_truth_iff {value : Option Bool} (read : env.boolean? name = .ok value) (b : Bool) :
    (∃ text, env.lookup name = some text ∧ IsTruth text b) ↔ value = some b := by
  constructor
  · rintro ⟨text, here, truth⟩
    cases (boolean?_of_truth here truth).symm.trans read
    rfl
  · rintro rfl
    cases here : env.lookup name with
    | none => cases (boolean?_of_none here).symm.trans read
    | some text =>
        obtain ⟨b', truth⟩ := exists_boolean?_iff.mp ⟨_, read⟩ text here
        cases (boolean?_of_truth here truth).symm.trans read
        exact ⟨text, rfl, truth⟩

theorem exists_lowerCase_iff (env : Environment) (name word : String) :
    (∃ text, env.lookup name = some text ∧ word = Text.lowerCase text) ↔
      env.lowerCase? name = some word := by
  simp [lowerCase?, eq_comm]

theorem exists_rejects_of_boolean? {e : Error} (member : name ∈ truthNames)
    (wrong : env.boolean? name = .error e) :
    ∃ message, env.Rejects message ∧ e = .invalidSetting message := by
  cases here : env.lookup name with
  | none => cases (boolean?_of_none here).symm.trans wrong
  | some text =>
      by_cases truth : ∃ b, IsTruth text b
      · obtain ⟨b, truth⟩ := truth
        cases (boolean?_of_truth here truth).symm.trans wrong
      · have other := not_exists.mp truth
        cases (boolean?_of_other here other).symm.trans wrong
        exact ⟨_, .truth member here other, rfl⟩

/-! ### Profiles -/

theorem profile_eq_ok_iff {profile : Profile} :
    env.profile = .ok profile ↔ env.Selects profile := by
  have strict : Profile.ofString "strict" = .ok .strict := by cbv
  unfold Environment.profile
  constructor
  · intro read
    cases here : env.lookup "ROWSQL_PROFILE" with
    | none =>
        rw [here, Option.getD_none, strict] at read
        cases read
        exact .unset here
    | some text =>
        rw [here, Option.getD_some] at read
        exact .named here read
  · rintro (unset | ⟨here, named⟩)
    · rw [unset, Option.getD_none, strict]
    · rw [here, Option.getD_some, named]

theorem exists_rejects_of_profile {e : Error} (wrong : env.profile = .error e) :
    ∃ message, env.Rejects message ∧ e = .invalidSetting message := by
  cases here : env.lookup "ROWSQL_PROFILE" with
  | none => cases (profile_eq_ok_iff.mpr (.unset here)).symm.trans wrong
  | some text =>
      rw [Environment.profile, here, Option.getD_some] at wrong
      refine ⟨_, .profile here fun profile named => ?_, Profile.eq_of_ofString_eq_error wrong⟩
      cases named.symm.trans wrong

/-! ## Overrides -/

theorem override_eq_ok_iff :
    env.override s = .ok t ↔ ∃ reject missing backend statements,
      env.boolean? "ROWSQL_REJECT_INVALID_TOKENS" = .ok reject ∧
      env.boolean? "ROWSQL_ERROR_ON_MISSING_DROP" = .ok missing ∧
      env.boolean? "ROWSQL_USE_BACKEND" = .ok backend ∧
      env.boolean? "ROWSQL_LOG_STATEMENTS" = .ok statements ∧
      t = {
        profile := s.profile
        lexer := { rejectInvalidTokens := reject.getD s.lexer.rejectInvalidTokens }
        execution := {
          errorOnMissingDrop := missing.getD s.execution.errorOnMissingDrop
          useBackend := backend.getD s.execution.useBackend }
        logging := {
          level := (env.lowerCase? "ROWSQL_LOG_LEVEL").getD s.logging.level
          format := (env.lowerCase? "ROWSQL_LOG_FORMAT").getD s.logging.format
          logStatements := statements.getD s.logging.logStatements } } := by
  simp only [override, bind_eq_ok_iff, pure, Except.pure, ok_eq_ok_iff, exists_and_left]

theorem exists_override_iff : (∃ t, env.override s = .ok t) ↔ env.IsTruthful := by
  simp only [IsTruthful, ← exists_boolean?_iff, truthNames, List.forall_mem_cons,
    override_eq_ok_iff]
  constructor
  · rintro ⟨t, reject, missing, backend, statements, rejects, misses, backs, logs, -⟩
    exact ⟨⟨_, rejects⟩, ⟨_, misses⟩, ⟨_, backs⟩, ⟨_, logs⟩, List.forall_mem_nil _⟩
  · rintro ⟨⟨reject, rejects⟩, ⟨missing, misses⟩, ⟨backend, backs⟩, ⟨statements, logs⟩, -⟩
    exact ⟨_, reject, missing, backend, statements, rejects, misses, backs, logs, rfl⟩

theorem exists_rejects_of_override {e : Error} (wrong : env.override s = .error e) :
    ∃ message, env.Rejects message ∧ e = .invalidSetting message := by
  simp only [override, bind_eq_error_iff, pure, Except.pure, reduceCtorEq, and_false,
    exists_false, or_false] at wrong
  rcases wrong with wrong | ⟨-, -, wrong | ⟨-, -, wrong | ⟨-, -, wrong⟩⟩⟩
  all_goals exact exists_rejects_of_boolean? (by decide) wrong

theorem foldl_set_of_override (lists : env.Lists changes) (overridden : env.override s = .ok t) :
    changes.foldl Settings.set s = t := by
  obtain ⟨reject, missing, backend, statements, rejects, misses, backs, logs, rfl⟩ :=
    override_eq_ok_iff.mp overridden
  obtain ⟨ownReject, ownMissing, ownBackend, ownLevel, ownFormat, ownStatements⟩ :=
    Settings.owns_fields
  have level (word : String) :=
    (lists (.logLevel word)).trans (exists_lowerCase_iff env "ROWSQL_LOG_LEVEL" word)
  have format (word : String) :=
    (lists (.logFormat word)).trans (exists_lowerCase_iff env "ROWSQL_LOG_FORMAT" word)
  rw [← ownReject.get_foldl (fun b => (lists _).trans (exists_truth_iff rejects b)) s,
    ← ownMissing.get_foldl (fun b => (lists _).trans (exists_truth_iff misses b)) s,
    ← ownBackend.get_foldl (fun b => (lists _).trans (exists_truth_iff backs b)) s,
    ← ownLevel.get_foldl level s, ← ownFormat.get_foldl format s,
    ← ownStatements.get_foldl (fun b => (lists _).trans (exists_truth_iff logs b)) s,
    ← Settings.profile_foldl changes s]

/-! ## Lists of changes -/

theorem Sets.eq_of_name_eq {c d : Setting} (first : env.Sets c) (second : env.Sets d)
    (same : c.name = d.name) : c = d := by
  obtain ⟨text, here, read⟩ := first
  obtain ⟨text', there, read'⟩ := second
  rw [← same, here] at there
  cases there
  exact Setting.eq_of_isReadFrom read read' same

/-- The changes for the variables among some names, one for each that is set. -/
theorem exists_changes (env : Environment) {names : List String} (distinct : names.Nodup) :
    ∃ changes : List Setting, (changes.map Setting.name).Sublist names ∧
      ∀ c, c ∈ changes ↔ c.name ∈ names ∧ env.Sets c := by
  induction names with
  | nil => exact ⟨[], .slnil, by simp⟩
  | cons name names ih =>
      obtain ⟨changes, once, listed⟩ := ih distinct.of_cons
      by_cases set : ∃ c, c.name = name ∧ env.Sets c
      · obtain ⟨c, rfl, set⟩ := set
        refine ⟨c :: changes, once.cons_cons _, fun d => ?_⟩
        rw [List.mem_cons, List.mem_cons, listed]
        constructor
        · rintro (rfl | ⟨later, sets⟩)
          · exact ⟨.inl rfl, set⟩
          · exact ⟨.inr later, sets⟩
        · rintro ⟨same | later, sets⟩
          · exact .inl (sets.eq_of_name_eq set same)
          · exact .inr ⟨later, sets⟩
      · refine ⟨changes, once.cons _, fun d => ?_⟩
        rw [listed, List.mem_cons]
        refine and_congr_left fun sets => (or_iff_right fun same => set ⟨d, same, sets⟩).symm

theorem exists_lists (env : Environment) :
    ∃ changes : List Setting, (changes.map Setting.name).Nodup ∧ env.Lists changes := by
  have distinct : Setting.names.Nodup := by decide
  obtain ⟨changes, once, listed⟩ := exists_changes env distinct
  refine ⟨changes, distinct.sublist once, fun c => (listed c).trans ?_⟩
  exact and_iff_right (Setting.name_mem c)

end Environment

theorem Settings.ofEnvironment_eq {env : Environment} {profile : Profile}
    (selects : env.Selects profile) :
    ofEnvironment env = do
      let s ← env.override (ofProfile profile)
      s.validate
      return s := by
  rw [ofEnvironment, Environment.profile_eq_ok_iff.mpr selects]
  rfl

theorem Settings.validate_of_ofEnvironment {env : Environment} {s : Settings}
    (answer : ofEnvironment env = .ok s) : s.validate = .ok () := by
  obtain ⟨profile, -, answer⟩ := bind_eq_ok_iff.mp answer
  obtain ⟨t, -, answer⟩ := bind_eq_ok_iff.mp answer
  obtain ⟨⟨⟩, valid, ⟨⟩⟩ := bind_eq_ok_iff.mp answer
  exact valid

theorem Settings.exists_rejects_of_wrong {env : Environment}
    (wrong : (∀ profile, ¬ env.Selects profile) ∨ ¬ env.IsTruthful) :
    ∃ message, env.Rejects message ∧ ofEnvironment env = .error (.invalidSetting message) := by
  cases read : env.profile with
  | error e =>
      obtain ⟨message, rejects, rfl⟩ := Environment.exists_rejects_of_profile read
      refine ⟨message, rejects, ?_⟩
      rw [ofEnvironment, read]
      rfl
  | ok profile =>
      have selects := Environment.profile_eq_ok_iff.mp read
      have untruthful : ¬ env.IsTruthful := wrong.resolve_left fun none => none profile selects
      cases outcome : env.override (ofProfile profile) with
      | ok t => exact absurd (Environment.exists_override_iff.mp ⟨t, outcome⟩) untruthful
      | error e =>
          obtain ⟨message, rejects, rfl⟩ := Environment.exists_rejects_of_override outcome
          refine ⟨message, rejects, ?_⟩
          rw [ofEnvironment_eq selects, outcome]
          rfl

theorem Settings.ofEnvironment_eq_build {env : Environment} {profile : Profile}
    {changes : List Setting} (selects : env.Selects profile) (truthful : env.IsTruthful)
    (lists : env.Lists changes) : ofEnvironment env = build profile changes := by
  obtain ⟨t, overridden⟩ :=
    (Environment.exists_override_iff (s := ofProfile profile)).mpr truthful
  have changed := Environment.foldl_set_of_override lists overridden
  rw [ofEnvironment_eq selects, overridden, build, changed]
  rfl

/--
Where the variables name a profile and truth values, the environment has the settings, or the error,
that are built from that profile with the changes for the variables, one for each that is set, in
any order.  Either way only valid settings come out.  Any other profile or truth value is an error
that names it.
-/
theorem environment_agrees_with_changes (env : Environment) :
    (∀ profile, env.Selects profile → env.IsTruthful →
      (∃ changes : List Setting, (changes.map Setting.name).Nodup ∧ env.Lists changes) ∧
      ∀ changes, env.Lists changes →
        Settings.ofEnvironment env = Settings.build profile changes) ∧
    (∀ s, Settings.ofEnvironment env = .ok s → s.validate = .ok ()) ∧
    (∀ profile changes s, Settings.build profile changes = .ok s → s.validate = .ok ()) ∧
    ((∀ profile, ¬ env.Selects profile) ∨ ¬ env.IsTruthful →
      ∃ message, env.Rejects message ∧
        Settings.ofEnvironment env = .error (.invalidSetting message)) := by
  refine ⟨fun profile selects truthful => ⟨env.exists_lists, fun changes lists => ?_⟩,
    fun s answer => Settings.validate_of_ofEnvironment answer,
    fun profile changes s built => Settings.validate_of_build built,
    fun wrong => Settings.exists_rejects_of_wrong wrong⟩
  exact Settings.ofEnvironment_eq_build selects truthful lists

/-- Changes in another order than their variables, and a truth value in the wrong case. -/
theorem environment_agrees_with_changes_permissive :
    let env : Environment :=
      [("ROWSQL_LOG_LEVEL", "WARN"), ("ROWSQL_USE_BACKEND", "false"),
        ("ROWSQL_PROFILE", "Lenient"), ("ROWSQL_LOG_FORMAT", "Json")]
    let wrong : Environment := ("ROWSQL_LOG_STATEMENTS", "True") :: env
    let changes : List Setting := [.logFormat "json", .logLevel "warn", .useBackend false]
    env.Selects .permissive ∧ env.IsTruthful ∧ env.Lists changes ∧
      Settings.ofEnvironment env = Settings.build .permissive changes ∧
      ¬ wrong.IsTruthful ∧
      ∃ message, Settings.ofEnvironment wrong = .error (.invalidSetting message) := by
  intro env wrong changes
  have lenient : Text.lowerCase "Lenient" = "lenient" := by cbv
  have selects : env.Selects .permissive := by
    have here : env.lookup "ROWSQL_PROFILE" = some "Lenient" := rfl
    exact .named here (by simp [Profile.ofString, lenient])
  have truthful : env.IsTruthful := by
    simp [Environment.IsTruthful, Environment.truthNames, env, List.lookup, IsTruth]
  have lists : env.Lists changes := by
    have level : Text.lowerCase "WARN" = "warn" := by cbv
    have format : Text.lowerCase "Json" = "json" := by cbv
    rintro ((_ | _) | (_ | _) | (_ | _) | word | word | (_ | _))
    all_goals simp [Environment.Sets, Setting.name, Setting.IsReadFrom, env, changes, List.lookup,
      IsTruth, level, format]
  have untruthful : ¬ wrong.IsTruthful := by
    simp [Environment.IsTruthful, Environment.truthNames, wrong, List.lookup, IsTruth]
  obtain ⟨agrees, -⟩ := environment_agrees_with_changes env
  obtain ⟨-, -, -, refused⟩ := environment_agrees_with_changes wrong
  obtain ⟨message, -, refused⟩ := refused (.inr untruthful)
  exact ⟨selects, truthful, lists, (agrees .permissive selects truthful).2 changes lists,
    untruthful, message, refused⟩

end Tabular
