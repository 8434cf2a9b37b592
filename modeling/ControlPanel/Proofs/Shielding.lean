import ControlPanel.Settings

/-!
# Overrides and the environment

A setting that a host overrides does not depend on its own variable of the environment: whatever the
variable holds, the settings are the same, and so is the fault if there is one. The directory is the
exception. Its variable is looked at before the overrides are, so that one that names the home of an
unknown user is a fault also if the directory is overridden.
-/
namespace ControlPanel

namespace Path

def LosesHome (p : Path) (homeOf? : String → Option Path) : Prop :=
  p.root = .relative ∧
    ∃ user rest, user ≠ "" ∧ p.parts = ("~" ++ user) :: rest ∧ homeOf? user = none

theorem eq_tilde_iff {first user : String} :
    first = "~" ++ user ↔ first.toList = '~' :: user.toList := by
  rw [← String.toList_inj, String.toList_append]
  rfl

theorem losesHome_cons_iff {first : String} {rest : List String} {homeOf? : String → Option Path} :
    LosesHome ⟨.relative, first :: rest⟩ homeOf? ↔
      ∃ c cs, first.toList = '~' :: c :: cs ∧ homeOf? (String.ofList (c :: cs)) = none := by
  constructor
  · rintro ⟨-, user, _, named, parts, unknown⟩
    have begins := eq_tilde_iff.mp (List.cons.inj parts).1
    cases letters : user.toList with
    | nil => exact absurd (String.toList_eq_nil_iff.mp letters) named
    | cons c cs =>
      refine ⟨c, cs, letters ▸ begins, ?_⟩
      rwa [← letters, String.ofList_toList]
  · rintro ⟨c, cs, begins, unknown⟩
    refine ⟨rfl, String.ofList (c :: cs), rest, ?_, ?_, unknown⟩
    · exact fun none => by simpa using congrArg String.toList none
    · have whole : first = "~" ++ String.ofList (c :: cs) := by
        rw [eq_tilde_iff, begins, String.toList_ofList]
      rw [whole]

theorem expandHome?_eq_none_iff {p home : Path} {homeOf? : String → Option Path} :
    p.expandHome? home homeOf? = none ↔ p.LosesHome homeOf? := by
  obtain ⟨root, parts⟩ := p
  cases root with
  | relative =>
    cases parts with
    | nil => simp [expandHome?, LosesHome]
    | cons first rest =>
      rw [losesHome_cons_iff]
      simp only [expandHome?]
      split
      · simp [*]
      · rename_i user alone begins
        cases user with
        | nil => exact (alone rfl).elim
        | cons c cs =>
          rw [Option.map_eq_none_iff, begins]
          constructor
          · exact fun unknown => ⟨c, cs, rfl, unknown⟩
          · rintro ⟨_, _, ⟨⟩, unknown⟩
            exact unknown
      · rename_i other
        refine iff_of_false nofun ?_
        rintro ⟨c, cs, begins, -⟩
        exact other _ begins
  | _ => simp [expandHome?, LosesHome]

end Path

namespace Environment

def LosesHome (env : Environment) : Prop :=
  ∃ text, env.filled? "RUBEL_STORAGE_DIR" = some text ∧ (Path.ofText text).LosesHome env.homeOf?

/-- The environments differ at most in whether a variable is set, and to what. -/
structure AlikeBut (variableName : String) (env env' : Environment) : Prop where
  home : env.home = env'.home
  system : env.system = env'.system
  get? : ∀ name, name ≠ variableName → env.get? name = env'.get? name

theorem filled?_congr {env env' : Environment} {name : String}
    (same : env.get? name = env'.get? name) : env.filled? name = env'.filled? name := by
  rw [filled?, filled?, same]

def set (env : Environment) (name text : String) : Environment :=
  { env with bindings := (name, text) :: env.bindings }

theorem alikeBut_set (env : Environment) (name text : String) :
    AlikeBut name (env.set name text) env :=
  ⟨rfl, rfl, fun _ apart => by simp [get?, set, List.lookup_cons, beq_false_of_ne apart]⟩

end Environment

namespace Settings

open Environment (AlikeBut filled?_congr)

variable {env env' : Environment} {overrides : List (String × Value)}
  {setting variableName : String}

theorem expand_of_losesHome {text : String} (loses : (Path.ofText text).LosesHome env.homeOf?) :
    expand env text = .error .unknownHome := by
  rw [expand, Path.expandHome?_eq_none_iff.mpr loses]

theorem expand_of_not_losesHome {text : String}
    (keeps : ¬(Path.ofText text).LosesHome env.homeOf?) : ∃ dir, expand env text = .ok dir := by
  obtain ⟨path, found⟩ := Option.ne_none_iff_exists'.mp (mt Path.expandHome?_eq_none_iff.mp keeps)
  exact ⟨path.text, by rw [expand, found]⟩

theorem environmentDir_of_losesHome (loses : env.LosesHome) :
    environmentDir env = .error .unknownHome := by
  obtain ⟨text, filled, loses⟩ := loses
  rw [environmentDir, filled]
  exact expand_of_losesHome loses

theorem environmentDir_of_not_losesHome (keeps : ¬env.LosesHome) :
    ∃ dir, environmentDir env = .ok dir := by
  unfold environmentDir
  split
  · rename_i text filled
    exact expand_of_not_losesHome fun loses => keeps ⟨text, filled, loses⟩
  · exact ⟨_, rfl⟩

def sources : List (String × String) :=
  [("storage_dir", "RUBEL_STORAGE_DIR"), ("platform", "RUBEL_PLATFORM"),
    ("write_timeout", "RUBEL_WRITE_TIMEOUT"),
    ("seed_default_features", "RUBEL_SEED_DEFAULT_FEATURES"),
    ("tracking_interval", "RUBEL_TRACKING_INTERVAL")]

theorem setting_unique : ∀ a ∈ sources, ∀ b ∈ sources, a.2 = b.2 → a.1 = b.1 := by decide

/-- What two environments differ in does not matter to a setting. -/
def Shielded (overrides : List (String × Value)) (env env' : Environment)
    (source : String × String) : Prop :=
  (Value.lookup? overrides source.1).isSome ∨ env.get? source.2 = env'.get? source.2

/-- No other setting reads the variable of one that is overridden. -/
theorem shielded_of_alikeBut (source : (setting, variableName) ∈ sources)
    (overridden : (Value.lookup? overrides setting).isSome)
    (alike : AlikeBut variableName env env') :
    ∀ other ∈ sources, Shielded overrides env env' other := by
  intro other among
  by_cases same : other.2 = variableName
  · have own : other.1 = setting := setting_unique other among _ source same
    exact .inl (own ▸ overridden)
  · exact .inr (alike.get? other.2 same)

theorem choose_congr {name : String} {other other' : Value}
    (h : (Value.lookup? overrides name).isSome ∨ other = other') :
    choose overrides name other = choose overrides name other' := by
  rcases h with overridden | rfl
  · obtain ⟨v, given⟩ := Option.isSome_iff_exists.mp overridden
    rw [choose, choose, given]
    rfl
  · rfl

theorem numberSetting_congr (h : Shielded overrides env env' (setting, variableName))
    (default : Value) : numberSetting env overrides setting variableName default =
      numberSetting env' overrides setting variableName default := by
  rcases h with overridden | same
  · obtain ⟨v, given⟩ := Option.isSome_iff_exists.mp overridden
    rw [numberSetting, numberSetting, given]
  · rw [numberSetting, numberSetting, same]

theorem expand_congr (alike : AlikeBut variableName env env') (text : String) :
    expand env text = expand env' text := by
  have users : env.homeOf? = env'.homeOf? :=
    funext fun user => by rw [Environment.homeOf?, alike.home, Environment.homeOf?]
  rw [expand, expand, alike.home, users]

theorem environmentDir_congr (alike : AlikeBut variableName env env')
    (same : env.get? "RUBEL_STORAGE_DIR" = env'.get? "RUBEL_STORAGE_DIR") :
    environmentDir env = environmentDir env' := by
  simp only [environmentDir, filled?_congr same, expand_congr alike, defaultStorageDir, alike.home]

theorem environmentPlatform_congr (alike : AlikeBut variableName env env')
    (same : env.get? "RUBEL_PLATFORM" = env'.get? "RUBEL_PLATFORM") :
    environmentPlatform env = environmentPlatform env' := by
  rw [environmentPlatform, environmentPlatform, filled?_congr same, alike.system]

theorem overriddenDir_congr (alike : AlikeBut variableName env env') {dir dir' : String}
    (h : (Value.lookup? overrides "storage_dir").isSome ∨ dir = dir') :
    overriddenDir env overrides dir = overriddenDir env' overrides dir' := by
  rcases h with overridden | rfl
  · obtain ⟨v, given⟩ := Option.isSome_iff_exists.mp overridden
    cases v <;> simp only [overriddenDir, chooseDir, given, expand_congr alike]
  · simp only [overriddenDir, expand_congr alike]

/-- But for the directory, every variable is looked at only if its setting is not overridden. -/
theorem ofVariables_congr (alike : AlikeBut variableName env env')
    (shielded : ∀ source ∈ sources, Shielded overrides env env' source) {dir dir' : String}
    (dirs : (Value.lookup? overrides "storage_dir").isSome ∨ dir = dir') :
    ofVariables env overrides dir = ofVariables env' overrides dir' := by
  have platform := (shielded ("platform", "RUBEL_PLATFORM") (by decide)).imp_right
    fun same => congrArg Value.text (environmentPlatform_congr alike same)
  have timeout := shielded ("write_timeout", "RUBEL_WRITE_TIMEOUT") (by decide)
  have interval := shielded ("tracking_interval", "RUBEL_TRACKING_INTERVAL") (by decide)
  have seed :=
    (shielded ("seed_default_features", "RUBEL_SEED_DEFAULT_FEATURES") (by decide)).imp_right
      fun same => congrArg (fun text? => Value.bool (readBool text? true)) same
  simp only [ofVariables, numberSetting_congr timeout, numberSetting_congr interval,
    overriddenDir_congr alike dirs, choose_congr platform, choose_congr seed]

theorem ofEnvironment_of_losesHome (loses : env.LosesHome) :
    ofEnvironment env overrides = .error .unknownHome := by
  rw [ofEnvironment, environmentDir_of_losesHome loses]
  rfl

theorem ofEnvironment_of_dir {dir : String} (found : environmentDir env = .ok dir) :
    ofEnvironment env overrides = ofVariables env overrides dir := by
  rw [ofEnvironment, found]
  rfl

/-- The variable of an overridden setting does not matter to the settings nor to a fault, unless it
is that of the directory and names the home of an unknown user in one of the environments only. A
directory in such a home is always a fault. -/
theorem override_shields (source : (setting, variableName) ∈ sources)
    (overridden : (Value.lookup? overrides setting).isSome)
    (alike : AlikeBut variableName env env') :
    ((setting = "storage_dir" → (env.LosesHome ↔ env'.LosesHome)) →
      ofEnvironment env overrides = ofEnvironment env' overrides) ∧
    (env.LosesHome → ofEnvironment env overrides = .error .unknownHome) := by
  refine ⟨fun agree => ?_, ofEnvironment_of_losesHome⟩
  have shielded := shielded_of_alikeBut source overridden alike
  by_cases own : setting = "storage_dir"
  · subst own
    by_cases loses : env.LosesHome
    · rw [ofEnvironment_of_losesHome loses, ofEnvironment_of_losesHome ((agree rfl).mp loses)]
    · obtain ⟨dir, found⟩ := environmentDir_of_not_losesHome loses
      obtain ⟨dir', found'⟩ := environmentDir_of_not_losesHome (mt (agree rfl).mpr loses)
      rw [ofEnvironment_of_dir found, ofEnvironment_of_dir found']
      exact ofVariables_congr alike shielded (.inl overridden)
  · have other : "RUBEL_STORAGE_DIR" ≠ variableName := fun same =>
      own (setting_unique _ source ("storage_dir", "RUBEL_STORAGE_DIR") (by decide) same.symm)
    have dirs := environmentDir_congr alike (alike.get? _ other)
    cases found : environmentDir env with
    | error fault => rw [ofEnvironment, ofEnvironment, ← dirs, found]; rfl
    | ok dir =>
      rw [ofEnvironment_of_dir found, ofEnvironment_of_dir (dirs ▸ found)]
      exact ofVariables_congr alike shielded (.inr rfl)

/-- A text that is no number does not matter to a duration that is overridden. -/
theorem shielded_from_soon :
    let bare : Environment := ⟨[], "/home/owner", "linux"⟩
    let overrides := [("write_timeout", Value.int 5)]
    ("write_timeout", "RUBEL_WRITE_TIMEOUT") ∈ sources ∧
      (Value.lookup? overrides "write_timeout").isSome ∧
      AlikeBut "RUBEL_WRITE_TIMEOUT" (bare.set "RUBEL_WRITE_TIMEOUT" "soon") bare ∧
      ofEnvironment (bare.set "RUBEL_WRITE_TIMEOUT" "soon") overrides =
        ofEnvironment bare overrides := by
  intro bare overrides
  have source : ("write_timeout", "RUBEL_WRITE_TIMEOUT") ∈ sources := by decide
  have overridden : (Value.lookup? overrides "write_timeout").isSome := rfl
  have alike := bare.alikeBut_set "RUBEL_WRITE_TIMEOUT" "soon"
  have shielded := (override_shields source overridden alike).1
  exact ⟨source, overridden, alike, shielded fun own => absurd own (by decide)⟩

/-- The home of an unknown user is a fault although the directory is overridden. -/
theorem home_not_shielded :
    ¬∀ (env env' : Environment) (overrides : List (String × Value))
      (setting variableName : String), (setting, variableName) ∈ sources →
      (Value.lookup? overrides setting).isSome → AlikeBut variableName env env' →
      ofEnvironment env overrides = ofEnvironment env' overrides := by
  intro shields
  let bare : Environment := ⟨[], "/home/owner", "linux"⟩
  let overrides := [("storage_dir", Value.text "/ok"), ("write_timeout", .int 5),
    ("tracking_interval", .int 30)]
  have same := shields (bare.set "RUBEL_STORAGE_DIR" "~no_such_user_q/x") bare overrides
    "storage_dir" "RUBEL_STORAGE_DIR" (by decide) rfl (bare.alikeBut_set ..)
  have settings : ofEnvironment bare overrides =
    .ok ⟨"/ok", .text "linux", .int 5, .bool true, .int 30⟩ := rfl
  have fault : ofEnvironment (bare.set "RUBEL_STORAGE_DIR" "~no_such_user_q/x") overrides =
    .error .unknownHome := rfl
  rw [settings, fault] at same
  cases same

end Settings

end ControlPanel
