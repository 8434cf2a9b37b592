import ControlPanel.Proofs.Protocol
import ControlPanel.Proofs.Sessions
import Mathlib.Data.List.Nodup

/-!
# What the identifiers of features mean

As long as nothing is installed from storage, an identifier that has stood for a feature stands for
that feature or for none. So a command that was decided on an old snapshot acts on the feature that
it was decided for, or on none.
-/
namespace ControlPanel

def Feature.IsStill (f g : Feature) : Prop :=
  g = { f with enabled := g.enabled }

theorem Feature.IsStill.refl (f : Feature) : f.IsStill f := rfl

theorem Feature.IsStill.trans {f g h : Feature} (first : f.IsStill g) (second : g.IsStill h) :
    f.IsStill h := by
  rw [IsStill] at first second ⊢
  rw [first] at second
  exact second

theorem Feature.IsStill.id_eq {f g : Feature} (same : f.IsStill g) : g.id = f.id := by
  rw [IsStill] at same
  rw [same]

namespace Store

def featureIds (s : Store) : List String := s.features.map fun f => f.id.text

/-- Identifiers that were taken stay taken, and every feature is an old one or has an identifier
that was not taken. -/
structure Continues (s t : Store) : Prop where
  taken : s.takenFeatureIds ⊆ t.takenFeatureIds
  known : ∀ g ∈ t.features, (∃ f ∈ s.features, f.IsStill g) ∨ g.id.text ∉ s.takenFeatureIds

variable {s t u : Store} {p p' q r : Supplies}

theorem Continues.of_same (features : t.features = s.features) (retired : t.retired = s.retired) :
    s.Continues t := by
  constructor
  · rw [takenFeatureIds, takenFeatureIds, features, retired]
    exact List.Subset.refl _
  · intro g mem
    rw [features] at mem
    exact .inl ⟨g, mem, .refl g⟩

theorem Continues.trans (first : s.Continues t) (second : t.Continues u) : s.Continues u := by
  constructor
  · exact List.Subset.trans first.taken second.taken
  · intro h mem
    rcases second.known h mem with ⟨g, there, still⟩ | fresh
    · rcases first.known g there with ⟨f, here, before⟩ | fresh
      · exact .inl ⟨f, here, before.trans still⟩
      · right
        rw [still.id_eq]
        exact fresh
    · right
      intro taken
      exact fresh (first.taken taken)

/-- One feature is switched on or off, and the others stay. -/
theorem continues_of_replace {before after : List Feature} {f : Feature} {on : Bool} {changes : Nat}
    (parts : s.features = before ++ f :: after) :
    s.Continues { s with
      features := before ++ { f with enabled := on } :: after
      changes := changes } := by
  constructor
  · intro id taken
    simpa [takenFeatureIds, parts] using taken
  · intro g mem
    left
    rw [parts]
    rcases List.mem_append.mp mem with earlier | later
    · exact ⟨g, List.mem_append_left _ earlier, .refl g⟩
    · rcases List.mem_cons.mp later with own | later
      · refine ⟨f, List.mem_append_right _ (List.mem_cons_self ..), ?_⟩
        rw [own]
        rfl
      · exact ⟨g, List.mem_append_right _ (List.mem_cons_of_mem _ later), .refl g⟩

end Store

variable {s s' t u : Store} {p p' q r : Supplies}

theorem Edit.continues {request : Request} {c : Collection} {produced : Produced}
    (h : Edit s p request c produced s') (no_bytes : p.GivesNoBytes) : s.Continues s' := by
  cases h with
  | addFeature f stamps _ _ =>
    constructor
    · intro id taken
      rcases List.mem_append.mp taken with live | retired
      · apply List.mem_append_left
        rw [List.map_append]
        exact List.mem_append_left _ live
      · exact List.mem_append_right _ retired
    · intro g mem
      rcases List.mem_append.mp mem with old | new
      · exact .inl ⟨g, old, .refl g⟩
      · right
        rw [List.mem_singleton.mp new]
        exact stamps.untaken no_bytes
  | @removeFeature id before f after found =>
    constructor
    · intro id taken
      -- The identifier that goes is among the retired ones from now on.
      simp only [Store.takenFeatureIds, found.parts, List.map_append, List.map_cons,
        List.mem_append, List.mem_cons] at taken ⊢
      tauto
    · intro g mem
      left
      refine ⟨g, ?_, .refl g⟩
      rw [found.parts]
      rcases List.mem_append.mp mem with earlier | later
      · exact List.mem_append_left _ earlier
      · exact List.mem_append_right _ (List.mem_cons_of_mem _ later)
  | toggleFeature found => exact Store.continues_of_replace found.parts
  | setFeatureEnabled found _ => exact Store.continues_of_replace found.parts
  | _ => exact .of_same rfl rfl

theorem Effect.continues {request : Request} {result : Except Failure Produced}
    {change? : Option Change} (h : Effect s p request result s' p' change?)
    (no_bytes : p.GivesNoBytes) : s.Continues s' := by
  cases h with
  | edited _ edit => exact (edit.continues no_bytes).trans (.of_same rfl rfl)
  | _ => exact .of_same rfl rfl

theorem Outcome.Follows.continues {α : Type} {fine : Request → Prop} {o : Outcome α}
    (h : o.Follows fine s p) (no_bytes : p.GivesNoBytes) :
    s.Continues o.store ∧ o.supplies.GivesNoBytes := by
  cases h with
  | idle passes same _ =>
    rw [same]
    exact ⟨.of_same rfl rfl, passes.givesNoBytes no_bytes⟩
  | request _ passes effect =>
    have then_none := passes.givesNoBytes no_bytes
    exact ⟨effect.continues then_none, effect.passes.givesNoBytes then_none⟩

theorem Effect.untaken_of_added {name description category : Value} {f : Feature}
    {change? : Option Change}
    (h : Effect s p (.addFeature name description category) (.ok (.feature f)) s' p' change?)
    (no_bytes : p.GivesNoBytes) : f.id.text ∉ s.takenFeatureIds := by
  cases h with
  | edited _ edit =>
    cases edit with
    | addFeature _ stamps _ _ => exact stamps.untaken no_bytes

def Request.target? : Request → Option String
  | .removeFeature (.text id) => some id
  | .toggleFeature (.text id) => some id
  | .setFeatureEnabled (.text id) _ => some id
  | _ => none

/-- No feature is altered or removed but the one that is named. -/
theorem Effect.target {request : Request} {result : Except Failure Produced}
    {change? : Option Change} {g : Feature} (h : Effect s p request result s' p' change?)
    (here : g ∈ s.features) (gone : g ∉ s'.features) : request.target? = some g.id.text := by
  have named {id : String} {before rest : List Feature} {f : Feature}
      (found : FoundAmong Feature.id id s.features before f rest)
      (others : ∀ h, h ∈ before ∨ h ∈ rest → h ∈ s'.features) : id = g.id.text := by
    rw [found.parts] at here
    rcases List.mem_append.mp here with earlier | later
    · exact absurd (others g (.inl earlier)) gone
    · rcases List.mem_cons.mp later with own | later
      · rw [own, found.own]
      · exact absurd (others g (.inr later)) gone
  cases h with
  | edited _ edit =>
    cases edit with
    | addFeature f _ _ _ => exact absurd (List.mem_append_left _ here) gone
    | removeFeature found =>
      exact congrArg some (named found fun h others => List.mem_append.mpr others)
    | toggleFeature found =>
      refine congrArg some (named found fun h others => List.mem_append.mpr ?_)
      exact others.imp_right (List.mem_cons_of_mem _)
    | setFeatureEnabled found _ =>
      refine congrArg some (named found fun h others => List.mem_append.mpr ?_)
      exact others.imp_right (List.mem_cons_of_mem _)
    | _ => exact absurd here gone
  | _ => exact absurd here gone

namespace Interpreter

variable {platform : Value} {line : CommandLine} {snapshot : Snapshot}

def Refers (line : CommandLine) (snapshot : Snapshot) (f : Feature) : Prop :=
  ∃ ref, line.firstArg? = some ref ∧ Feature.find? snapshot.features ref line.text = some f

theorem refers_of_planEnable {on : Bool} {found : Plan} {op : Operation} {id : String}
    (planned : planEnable line snapshot on = .ok found) (asked : found.Asks op)
    (target : op.request.target? = some id) : ∃ f, Refers line snapshot f ∧ f.id.text = id := by
  unfold planEnable at planned
  dsimp only at planned
  split at planned
  · cases planned
  · rename_i ref first
    split at planned
    · cases planned
    · rename_i f matching
      split at planned
      · cases planned
        cases asked
      · cases planned
        cases asked
        exact ⟨f, ⟨ref, first, matching⟩, Option.some.inj target⟩

/-- A command names the feature that its line refers to in the snapshot. -/
theorem refers_of_plan {verb : Verb} {found : Plan} {op : Operation} {id : String}
    (planned : plan platform line snapshot verb = .ok found) (asked : found.Asks op)
    (target : op.request.target? = some id) : ∃ f, Refers line snapshot f ∧ f.id.text = id := by
  cases verb with
  | enable => exact refers_of_planEnable planned asked target
  | disable => exact refers_of_planEnable planned asked target
  | add =>
    simp only [plan, planAdd] at planned
    split at planned
    · split at planned
      · cases planned
      · cases planned
        cases asked
        cases target
    · cases planned
  | remove =>
    simp only [plan, planRemove] at planned
    split at planned
    · cases planned
    · rename_i ref first
      split at planned
      · cases planned
      · rename_i f matching
        cases planned
        cases asked
        refine ⟨f, ⟨ref, first, ?_⟩, Option.some.inj target⟩
        unfold Snapshot.featureById? at matching
        rw [Feature.find?, matching]
  | syncEmail =>
    simp only [plan, planSync] at planned
    split at planned
    · cases planned
    · cases planned
      obtain ⟨now, rfl⟩ := asked
      cases target
  | _ =>
    cases planned
    cases asked <;> cases target

theorem refers_of_altered {g : Feature} (here : g ∈ s.features)
    (gone : g ∉ (interpret platform line snapshot s p).store.features) :
    ∃ f, Refers line snapshot f ∧ f.id = g.id := by
  have follows : (interpret platform line snapshot s p).Follows (fun request =>
      ∀ id, request.target? = some id → ∃ f, Refers line snapshot f ∧ f.id.text = id) s p :=
    follows_interpret fun _ _ _ planned asked _ target => refers_of_plan planned asked target
  cases follows with
  | idle _ same _ =>
    rw [same] at gone
    exact absurd here gone
  | request referring _ effect =>
    obtain ⟨f, refers, own⟩ := referring _ (effect.target here gone)
    exact ⟨f, refers, Id.ext_text own⟩

end Interpreter

namespace Store

/-- A store later in its process: hosts, sensors and commands have acted on it, and nothing has been
installed from storage. -/
inductive Later (s : Store) (p : Supplies) : Store → Supplies → Prop where
  | now : Later s p s p
  | look {t : Store} {q : Supplies} : Later s p t q → Later s p t (t.snapshot q).2
  | deed {t : Store} {q : Supplies} {platform : Value} {α : Type} {o : Outcome α} :
      Later s p t q → Engine.Deed platform t q o → Later s p o.store o.supplies

theorem Later.continues (later : Later s p t q) (no_bytes : p.GivesNoBytes) :
    s.Continues t ∧ q.GivesNoBytes := by
  induction later with
  | now => exact ⟨.of_same rfl rfl, no_bytes⟩
  | look _ ih => exact ih
  | deed _ deed ih =>
    obtain ⟨continues, none_given⟩ := ih
    obtain ⟨further, none_then⟩ := deed.follows.continues none_given
    exact ⟨continues.trans further, none_then⟩

/-- What has an old identifier is the old feature. -/
theorem Continues.isStill {f g : Feature} (continues : s.Continues t) (distinct : s.featureIds.Nodup)
    (old : f ∈ s.features) (new : g ∈ t.features) (same : g.id = f.id) : f.IsStill g := by
  rcases continues.known g new with ⟨f', old', still⟩ | fresh
  · have same_id : f'.id.text = f.id.text := by rw [← still.id_eq, same]
    rwa [List.inj_on_of_nodup_map distinct old' old same_id] at still
  · refine absurd (List.mem_append_left _ ?_) fresh
    rw [same]
    exact List.mem_map_of_mem old

/-- An identifier that was taken and stands for nothing will stand for nothing. -/
theorem Continues.gone {id : String} (continues : t.Continues u) (taken : id ∈ t.takenFeatureIds)
    (gone : id ∉ t.featureIds) : id ∉ u.featureIds := by
  intro back
  obtain ⟨g, mem, rfl⟩ := List.mem_map.mp back
  rcases continues.known g mem with ⟨f, old, still⟩ | fresh
  · rw [still.id_eq] at gone
    exact gone (List.mem_map_of_mem old)
  · exact fresh taken

/-- A store whose features have distinct identifiers goes on in its process, with any feed of
identifiers that are no bytes. What has an old identifier is the old feature, perhaps switched. What
has been taken is given to no new feature, and does not come back once it has gone. A command that
was decided on the first store alters the feature that it refers to there, or none. -/
theorem identifiers_keep_their_meaning (distinct : s.featureIds.Nodup) (no_bytes : p.GivesNoBytes)
    (later : Later s p t q) :
    (∀ f ∈ s.features, ∀ g ∈ t.features, g.id = f.id → f.IsStill g) ∧
      (∀ id ∈ t.takenFeatureIds, ∀ u r, Later t q u r →
        (id ∉ t.featureIds → id ∉ u.featureIds) ∧
        ∀ name description category f,
          (u.fulfil r (.addFeature name description category)).result = .ok (.feature f) →
          f.id.text ≠ id) ∧
      ∀ platform line snapshot, snapshot.features = s.features → ∀ g ∈ t.features,
        g ∉ (Interpreter.interpret platform line snapshot t q).store.features →
        ∃ f, Interpreter.Refers line snapshot f ∧ f.IsStill g := by
  obtain ⟨continues, none_given⟩ := later.continues no_bytes
  refine ⟨?_, ?_, ?_⟩
  · intro f old g new same
    exact continues.isStill distinct old new same
  · intro id taken u r further
    obtain ⟨continues', none_given'⟩ := further.continues none_given
    constructor
    · exact continues'.gone taken
    · intro name description category f added own
      have effect := isEffectOf_fulfil (s := u) (p := r) (.addFeature name description category)
      rw [Outcome.IsEffectOf, added] at effect
      apply effect.untaken_of_added none_given'
      rw [own]
      exact continues'.taken taken
  · intro platform line snapshot taken g here gone
    obtain ⟨f, refers, same⟩ := Interpreter.refers_of_altered here gone
    have old : f ∈ s.features := by
      obtain ⟨ref, -, found⟩ := refers
      rw [← taken]
      exact Interpreter.mem_of_find found
    exact ⟨f, refers, continues.isStill distinct old here same.symm⟩

def insistent : Supplies :=
  ⟨.ofFunction fun n => .text (if n = 0 ∨ n = 1 then "gps" else "sun"),
    .ofFunction fun _ => some ⟨.first, none⟩⟩

def afterRemoval : Outcome Produced :=
  Interpreter.entangled.fulfil insistent (.removeFeature (.text "gps"))

def afterAddition : Outcome Produced :=
  afterRemoval.store.fulfil afterRemoval.supplies
    (.addFeature (.text "Sun") (.text "Tells the time") (.text ""))

theorem removed_identifier_is_passed_over :
    Interpreter.entangled.featureIds = ["gps", "map"] ∧
      afterRemoval.store.featureIds = ["map"] ∧ afterAddition.store.featureIds = ["map", "sun"] ∧
      ∀ u r, Later afterRemoval.store afterRemoval.supplies u r → "gps" ∉ u.featureIds := by
  have distinct : Interpreter.entangled.featureIds.Nodup := by decide
  have no_bytes : insistent.GivesNoBytes := nofun
  have removed : Later Interpreter.entangled insistent afterRemoval.store afterRemoval.supplies :=
    .deed .now (Engine.Deed.fulfil _ : Engine.Deed .null _ _ afterRemoval)
  obtain ⟨-, gone, -⟩ := identifiers_keep_their_meaning distinct no_bytes removed
  refine ⟨rfl, by decide +kernel, by decide +kernel, ?_⟩
  intro u r later
  exact (gone "gps" (by decide +kernel) u r later).1 (by decide +kernel)

end Store

end ControlPanel
