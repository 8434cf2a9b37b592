import ControlPanel.Proofs.Shielding
import ControlPanel.Proofs.WholeReals

/-!
# Durations

A duration is given by an override or by its variable. Settings come with positive durations only,
but for the double that is no number: it compares with nothing, so that it is not found to be zero
or less. Whatever else is given is refused, with a fault that names the setting or its variable.
-/
namespace ControlPanel

namespace Binary64

def lt (x y : Binary64) : Bool := x.le y && !y.le x

theorem lt_finite (a b : Bool) (m m' : Magnitude) :
    (finite a m).lt (finite b m') ↔
      (if a then -(m.quanta : Int) else m.quanta) < if b then -(m'.quanta : Int) else m'.quanta := by
  rw [lt, Bool.and_eq_true, Bool.not_eq_true', ← Bool.not_eq_true, le_finite, le_finite]
  omega

theorem zero_eq : zero = .finite false (wholeMagnitude 0 (by decide)) :=
  ofRatio_whole false (by decide)

/-- All but `nan` compare with zero. -/
theorem not_le_zero_iff {x : Binary64} : x.le zero = false ↔ zero.lt x ∨ x = .nan := by
  cases x with
  | finite negative m =>
    rw [← Bool.not_eq_true, zero_eq, le_finite, lt_finite, Int.not_le]
    simp only [reduceCtorEq, or_false]
  | infinite negative => cases negative <;> simp [lt, zero_eq, le]
  | nan => simp [le]

theorem ofNat_pos {n : Nat} (pos : 0 < n) (short : n < 2 ^ 53) : zero.lt (ofNat n) := by
  have whole : ofNat n = .finite false (wholeMagnitude n short) := ofRatio_whole false short
  have some : 0 < n * one := Nat.mul_pos pos one_pos
  rw [zero_eq, whole, lt_finite]
  simp only [Bool.false_eq_true, if_false, quanta_wholeMagnitude]
  omega

end Binary64

namespace Value

def IsNumber : Value → Prop
  | .int _ => True
  | .real _ => True
  | .bool _ => True
  | _ => False

def IsPositive : Value → Prop
  | .int n => 0 < n
  | .real x => Binary64.zero.lt x
  | .bool b => b
  | _ => False

/-- The value is a positive number or the double that is no number, and so not found to be zero or
less. -/
def Lasts (v : Value) : Prop :=
  v.IsPositive ∨ v = .real .nan

end Value

namespace Settings

theorem isNotPositive_of_isNumber {v : Value} (number : v.IsNumber) :
    ∃ refused, isNotPositive v = .ok refused ∧ (refused = false ↔ v.Lasts) := by
  cases v with
  | int n => exact ⟨_, rfl, by simp [Value.Lasts, Value.IsPositive]⟩
  | real x =>
    exact ⟨_, rfl, by simp [Value.Lasts, Value.IsPositive, Binary64.not_le_zero_iff]⟩
  | bool b => exact ⟨_, rfl, by simp [Value.Lasts, Value.IsPositive]⟩
  | _ => exact number.elim

theorem checkPositive_of_lasts {setting : String} {v : Value} (number : v.IsNumber)
    (lasts : v.Lasts) : checkPositive setting v = .ok () := by
  obtain ⟨refused, compared, passes⟩ := isNotPositive_of_isNumber number
  rw [checkPositive, compared, passes.mpr lasts]
  rfl

theorem checkPositive_of_not_lasts {setting : String} {v : Value} (number : v.IsNumber)
    (fails : ¬v.Lasts) : checkPositive setting v =
      .error (if isShowable v then .notPositive setting v else .tooManyDigits) := by
  obtain ⟨refused, compared, passes⟩ := isNotPositive_of_isNumber number
  rw [checkPositive, compared, Bool.of_not_eq_false (mt passes.mp fails)]
  rfl

def durations : List (String × String) :=
  [("write_timeout", "RUBEL_WRITE_TIMEOUT"), ("tracking_interval", "RUBEL_TRACKING_INTERVAL")]

theorem timeout_mem : ("write_timeout", "RUBEL_WRITE_TIMEOUT") ∈ durations := List.mem_cons_self

theorem interval_mem : ("tracking_interval", "RUBEL_TRACKING_INTERVAL") ∈ durations :=
  List.mem_cons_of_mem _ List.mem_cons_self

def given? (env : Environment) (overrides : List (String × Value)) (source : String × String) :
    Option (Option Value) :=
  match Value.lookup? overrides source.1 with
  | some v => some (some v)
  | none => (env.get? source.2).map fun text => (Binary64.readTyped? text).map .real

/-- What is given for a duration is a text that is no number, or a number of zero or less. -/
def Unfit (env : Environment) (overrides : List (String × Value)) (source : String × String) :
    Prop :=
  ∃ value?, given? env overrides source = some value? ∧ ∀ v, value? = some v → ¬v.Lasts

def GivenNan (env : Environment) (overrides : List (String × Value))
    (source : String × String) : Prop :=
  given? env overrides source = some (some (.real .nan))

def Numeric (overrides : List (String × Value)) : Prop :=
  ∀ source ∈ durations, ∀ v, Value.lookup? overrides source.1 = some v → v.IsNumber

def Blames (overrides : List (String × Value)) (source : String × String) : Fault → Prop
  | .notANumber variableName _ => variableName = source.2
  | .notPositive setting _ => setting = source.1
  | .tooManyDigits =>
    ∃ v, Value.lookup? overrides source.1 = some v ∧ isShowable v = false
  | _ => False

variable {env : Environment} {overrides : List (String × Value)} {source : String × String}
  {default v : Value} {fault : Fault}

structure Taken (env : Environment) (overrides : List (String × Value))
    (source : String × String) (v : Value) : Prop where
  number : v.IsNumber
  given : given? env overrides source = some (some v) ∨ v.IsPositive
  lasts_iff : v.Lasts ↔ ¬Unfit env overrides source
  shown : isShowable v = false → Value.lookup? overrides source.1 = some v

theorem taken_of_numberSetting (numeric : Numeric overrides) (among : source ∈ durations)
    {n : Nat} (pos : 0 < n) (short : n < 2 ^ 53)
    (h : numberSetting env overrides source.1 source.2 (.real (.ofNat n)) = .ok v) :
    Taken env overrides source v := by
  unfold numberSetting at h
  split at h
  · rename_i given
    cases h
    have only : given? env overrides source = some (some v) := by rw [given?, given]
    exact ⟨numeric source among v given, .inl only, by simp [Unfit, only], fun _ => given⟩
  · rename_i text overridden set
    unfold readNumber at h
    split at h
    · rename_i x read
      cases h
      have only : given? env overrides source = some (some (.real x)) := by
        rw [given?, overridden, set, Option.map_some, read, Option.map_some]
      exact ⟨trivial, .inl only, by simp [Unfit, only], nofun⟩
    · cases h
  · rename_i overridden unset
    cases h
    have nothing : given? env overrides source = none := by
      rw [given?, overridden, unset, Option.map_none]
    have positive : (Value.real (.ofNat n)).IsPositive := Binary64.ofNat_pos pos short
    refine ⟨trivial, .inr positive, iff_of_true (.inl positive) ?_, nofun⟩
    rintro ⟨_, given, -⟩
    cases nothing.symm.trans given

/-- A text that is no number is the only fault of a duration before it is checked. -/
theorem unfit_of_numberSetting
    (h : numberSetting env overrides source.1 source.2 default = .error fault) :
    Unfit env overrides source ∧ Blames overrides source fault := by
  unfold numberSetting at h
  split at h
  · cases h
  · rename_i text overridden set
    unfold readNumber at h
    split at h
    · cases h
    · rename_i unread
      cases h
      exact ⟨⟨none, by rw [given?, overridden, set, Option.map_some, unread, Option.map_none],
        nofun⟩, rfl⟩
  · cases h

theorem Taken.positive_or_nan (taken : Taken env overrides source v) (lasts : v.Lasts) :
    v.IsPositive ∨ GivenNan env overrides source := by
  rcases lasts with positive | rfl
  · exact .inl positive
  · exact taken.given.symm

theorem Taken.checkPositive_ok (taken : Taken env overrides source v)
    (h : checkPositive source.1 v = .ok ()) : v.Lasts := by
  by_contra fails
  cases (checkPositive_of_not_lasts taken.number fails).symm.trans h

theorem Taken.checkPositive_error (taken : Taken env overrides source v)
    (h : checkPositive source.1 v = .error fault) :
    Unfit env overrides source ∧ Blames overrides source fault := by
  by_cases lasts : v.Lasts
  · cases (checkPositive_of_lasts taken.number lasts).symm.trans h
  · refine ⟨not_not.mp (mt taken.lasts_iff.mpr lasts), ?_⟩
    cases (checkPositive_of_not_lasts taken.number lasts).symm.trans h
    split
    · rfl
    · rename_i long
      have hidden := Bool.of_not_eq_true long
      exact ⟨v, taken.shown hidden, hidden⟩

/-- What durations do to an outcome. Settings come with durations that are positive unless they are
given as `nan`, and an unfit one is refused; where nothing else is wrong, a fault is that of an unfit
duration. -/
structure Checks (env : Environment) (overrides : List (String × Value)) (usable : Prop)
    (outcome : Except Fault Settings) : Prop where
  accepted : ∀ s, outcome = .ok s →
    (s.writeTimeout.IsPositive ∨
      GivenNan env overrides ("write_timeout", "RUBEL_WRITE_TIMEOUT")) ∧
    (s.trackingInterval.IsPositive ∨
      GivenNan env overrides ("tracking_interval", "RUBEL_TRACKING_INTERVAL"))
  unfit : ∀ source ∈ durations, Unfit env overrides source → ∃ fault, outcome = .error fault
  refused : usable → ∀ fault, outcome = .error fault →
    ∃ source ∈ durations, Unfit env overrides source ∧ Blames overrides source fault

theorem checks_error {usable : Prop}
    (h : usable →
      ∃ source ∈ durations, Unfit env overrides source ∧ Blames overrides source fault) :
    Checks env overrides usable (.error fault) where
  accepted := nofun
  unfit _ _ _ := ⟨fault, rfl⟩
  refused usable _ same := by
    cases same
    exact h usable

theorem checks_check {usable : Prop} {s : Settings}
    (timeout : Taken env overrides ("write_timeout", "RUBEL_WRITE_TIMEOUT") s.writeTimeout)
    (interval :
      Taken env overrides ("tracking_interval", "RUBEL_TRACKING_INTERVAL") s.trackingInterval) :
    Checks env overrides usable (check s) := by
  cases first : checkPositive "write_timeout" s.writeTimeout with
  | error fault =>
    simp only [check, first]
    exact checks_error fun _ => ⟨_, timeout_mem, timeout.checkPositive_error first⟩
  | ok =>
    cases second : checkPositive "tracking_interval" s.trackingInterval with
    | error fault =>
      simp only [check, first, second]
      exact checks_error fun _ => ⟨_, interval_mem, interval.checkPositive_error second⟩
    | ok =>
      have lasts := timeout.checkPositive_ok first
      have lasts' := interval.checkPositive_ok second
      simp only [check, first, second]
      refine ⟨fun s' same => ?_, fun source among unfit => ?_, nofun⟩
      · cases same
        exact ⟨timeout.positive_or_nan lasts, interval.positive_or_nan lasts'⟩
      · simp only [durations, List.mem_cons, List.not_mem_nil, or_false] at among
        rcases among with rfl | rfl
        · exact absurd unfit (timeout.lasts_iff.mp lasts)
        · exact absurd unfit (interval.lasts_iff.mp lasts')

def Named (overrides : List (String × Value)) : Prop :=
  ∀ override ∈ overrides, override.1 ∈ names

structure Usable (env : Environment) (overrides : List (String × Value)) : Prop where
  named : Named overrides
  home : ¬env.LosesHome
  overridden : ∀ text, Value.lookup? overrides "storage_dir" = some (.text text) →
    ¬(Path.ofText text).LosesHome env.homeOf?

theorem checkNames_of_named (named : Named overrides) : checkNames overrides = .ok () := by
  unfold checkNames
  split
  · rename_i name v found
    have unknown := List.find?_some found
    simp [named (name, v) (List.mem_of_find?_eq_some found)] at unknown
  · rfl

theorem overriddenDir_of_usable (usable : Usable env overrides) (dir : String) :
    ∃ dir', overriddenDir env overrides dir = .ok dir' := by
  unfold overriddenDir
  split
  · rename_i text given
    exact expand_of_not_losesHome (usable.overridden text given)
  · exact ⟨_, rfl⟩

theorem checks_ofVariables (numeric : Numeric overrides) (dir : String) :
    Checks env overrides (Usable env overrides) (ofVariables env overrides dir) := by
  unfold ofVariables
  cases timeout : numberSetting env overrides "write_timeout" "RUBEL_WRITE_TIMEOUT"
    (.real (.ofNat 5)) with
  | error fault =>
    exact checks_error fun _ => ⟨_, timeout_mem, unfit_of_numberSetting timeout⟩
  | ok v =>
    cases interval : numberSetting env overrides "tracking_interval" "RUBEL_TRACKING_INTERVAL"
      (.real (.ofNat 30)) with
    | error fault =>
      exact checks_error fun _ => ⟨_, interval_mem, unfit_of_numberSetting interval⟩
    | ok v' =>
      cases found : overriddenDir env overrides dir with
      | error fault =>
        refine checks_error fun usable => ?_
        obtain ⟨dir', found'⟩ := overriddenDir_of_usable usable dir
        cases found'.symm.trans found
      | ok dir' =>
        cases named : checkNames overrides with
        | error fault =>
          exact checks_error fun usable => by
            cases (checkNames_of_named usable.named).symm.trans named
        | ok =>
          exact checks_check
            (taken_of_numberSetting numeric timeout_mem (by decide) (by decide) timeout)
            (taken_of_numberSetting numeric interval_mem (by decide) (by decide) interval)

theorem checks_ofEnvironment (numeric : Numeric overrides) :
    Checks env overrides (Usable env overrides) (ofEnvironment env overrides) := by
  by_cases loses : env.LosesHome
  · rw [ofEnvironment_of_losesHome loses]
    exact checks_error fun usable => absurd loses usable.home
  · obtain ⟨dir, found⟩ := environmentDir_of_not_losesHome loses
    rw [ofEnvironment_of_dir found]
    exact checks_ofVariables numeric dir

theorem numberSetting_unset {setting variableName : String}
    (unset : env.get? variableName = none) :
    numberSetting env overrides setting variableName default =
      .ok (choose overrides setting default) := by
  unfold numberSetting choose
  split <;> simp_all

theorem checks_ofOverrides (numeric : Numeric overrides) :
    Checks { env with bindings := [] } overrides (Named overrides) (ofOverrides env overrides) := by
  cases known : checkNames overrides with
  | error fault =>
    rw [ofOverrides, known]
    exact checks_error fun named => by cases (checkNames_of_named named).symm.trans known
  | ok =>
    rw [ofOverrides, known]
    exact checks_check
      (taken_of_numberSetting numeric timeout_mem (by decide) (by decide)
        (numberSetting_unset rfl))
      (taken_of_numberSetting numeric interval_mem (by decide) (by decide)
        (numberSetting_unset rfl))

/-- With numbers as overrides, settings come with durations that are positive unless they are given as
`nan`, whether the environment is read or not, and each other number or text is refused: where no
home and no name is unknown, with a fault that names the duration. -/
theorem accepted_durations_positive (numeric : Numeric overrides) :
    Checks env overrides (Usable env overrides) (ofEnvironment env overrides) ∧
    Checks { env with bindings := [] } overrides (Named overrides) (ofOverrides env overrides) :=
  ⟨checks_ofEnvironment numeric, checks_ofOverrides numeric⟩

theorem numeric_single {name : String} (number : v.IsNumber) : Numeric [(name, v)] := by
  intro source _ v' given
  rw [Value.lookup?, List.reverse_singleton, List.lookup_cons] at given
  split at given
  · cases given
    exact number
  · cases given

/-- A pause of nothing is refused. -/
theorem zero_interval_refused :
    let env : Environment := ⟨[("RUBEL_WRITE_TIMEOUT", "2")], "/home/owner", "linux"⟩
    let overrides := [("tracking_interval", Value.int 0)]
    Numeric overrides ∧ (∃ fault, ofEnvironment env overrides = .error fault) ∧
      ∃ fault, ofOverrides env overrides = .error fault := by
  intro env overrides
  have numeric : Numeric overrides := numeric_single trivial
  have fails : ∀ v, some (Value.int 0) = some v → ¬v.Lasts := by
    simp [Value.Lasts, Value.IsPositive]
  obtain ⟨checks, checks'⟩ : Checks env overrides (Usable env overrides) _ ∧
      Checks _ overrides (Named overrides) (ofOverrides env overrides) :=
    accepted_durations_positive numeric
  exact ⟨numeric, checks.unfit _ interval_mem ⟨_, rfl, fails⟩,
    checks'.unfit _ interval_mem ⟨_, rfl, fails⟩⟩

/-- A timeout is accepted that is not positive. -/
theorem nan_timeout_accepted :
    ¬∀ (env : Environment) (overrides : List (String × Value)) (s : Settings),
      Numeric overrides → ofEnvironment env overrides = .ok s →
      s.writeTimeout.IsPositive ∧ s.trackingInterval.IsPositive := by
  intro positive
  have numeric : Numeric [("tracking_interval", .int 30)] := numeric_single trivial
  have accepted : ofEnvironment ⟨[("RUBEL_WRITE_TIMEOUT", "nan")], "/home/owner", "linux"⟩
      [("tracking_interval", .int 30)] =
    .ok ⟨"/home/owner/.rubel-engine", .text "linux", .real .nan, .bool true, .int 30⟩ := rfl
  have above := (positive _ _ _ numeric accepted).1
  simp [Value.IsPositive, Binary64.lt, Binary64.zero_eq, Binary64.le] at above

end Settings

end ControlPanel
