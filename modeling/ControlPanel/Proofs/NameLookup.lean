import ControlPanel.Proofs.Additions
import ControlPanel.Proofs.AppendOrder

/-!
# Finding features by their names

A feature that a command has added is found by its name: what was cut into words, put together, cut
at bars and trimmed when the feature was added comes to the same text when it is cut into words and
put together once more.
-/
namespace ControlPanel

structure Store.Gains (s : Store) (p : Supplies) (f : Feature) (t : Store) : Prop where
  tidy : Text.IsTidy f.name
  named : f.name ≠ ""
  untaken : p.GivesNoBytes → f.id.text ∉ s.takenFeatureIds
  features : t.features = s.features ++ [f]

theorem Store.insertFeature_inserts {s : Store} {p : Supplies} {name description category : String}
    {f : Feature} (h : (s.insertFeature p name description category).result = .ok f) :
    f.name = name ∧ (p.GivesNoBytes → f.id.text ∉ s.takenFeatureIds) ∧
      (s.insertFeature p name description category).store.features = s.features ++ [f] := by
  unfold insertFeature withRecord at h ⊢
  rcases stamped : p.stamp s.takenFeatureIds with ⟨stamp, p'⟩
  rw [stamped] at h
  cases stamp with
  | error failure => cases h
  | ok stamp =>
    cases h
    obtain ⟨id, now⟩ := stamp
    exact ⟨rfl, ((Supplies.passes_stamp stamped).2 id now rfl).untaken, rfl⟩

namespace Interpreter

variable {platform : Value} {line : CommandLine} {verb : Verb} {snapshot : Snapshot}
  {s t : Store} {p q : Supplies} {f : Feature}

/-- An operation whose reply carries data has been carried out. -/
theorem performed_of_accept {op : Operation} {respond : Produced → Reply} {message : String}
    {payload : Payload}
    (result : (operate line verb s p op respond).result = .ok (.accept message payload)) :
    ∃ produced, (s.perform p op).result = .ok produced ∧
      respond produced = .accept message payload ∧
      (operate line verb s p op respond).store = (s.perform p op).store := by
  unfold operate at result ⊢
  dsimp only at result ⊢
  split at result <;> rename_i performed
  · rw [performed]
    exact ⟨_, rfl, Except.ok.inj result, rfl⟩
  · cases result
  · cases result

theorem isWord_of_mem_args {raw : String} :
    ∀ arg ∈ (CommandLine.parse raw).args, Text.IsWord arg.toList := by
  intro arg mem
  unfold CommandLine.parse at mem
  split at mem
  · cases mem
  · rename_i word args split
    apply Text.isWord_of_mem_words
    rw [split]
    exact List.mem_cons_of_mem word mem

theorem gains_of_add {raw : String} (known : Verb.ofText? (CommandLine.parse raw).verb = some .add)
    (gives : (interpret platform (.parse raw) snapshot s p).Gives (.feature f) t) :
    s.Gains p f t := by
  by_cases described : ∃ name description others,
      Describes (CommandLine.parse raw).args name description others
  · obtain ⟨name, description, others, describes⟩ := described
    obtain ⟨message, planned⟩ := planAdd_described describes
    obtain ⟨⟨text, result⟩, store⟩ := gives
    rw [interpret_planned known planned] at result store
    obtain ⟨produced, performed, replied, same⟩ := performed_of_accept result
    rw [describes.perform_eq isWord_of_mem_args] at performed same
    cases inserted : (s.insertFeature p name description (categoryOf others)).result with
    | error failure =>
      rw [Outcome.map, inserted] at performed
      cases performed
    | ok g =>
      rw [Outcome.map, inserted] at performed
      cases performed
      cases replied
      obtain ⟨own, untaken, features⟩ := Store.insertFeature_inserts inserted
      have tidy := describes.tidy isWord_of_mem_args name List.mem_cons_self
      rw [← own] at tidy
      have named := describes.named
      rw [← own] at named
      refine ⟨tidy, named, untaken, ?_⟩
      rw [← store]
      exact (congrArg Store.features same).trans features
  · obtain ⟨reason, refused⟩ : ∃ reason, planAdd (CommandLine.parse raw) = .error reason :=
      planAdd_undescribed described
    exact absurd gives.accepts (not_accepts_of_refusal known refused)

end Interpreter

/-- The feature that is meant is found. -/
theorem find_of_meant {features before after : List Feature} {ref name : String} {f : Feature}
    (h : Meant features ref name before f after) : Feature.find? features ref name = some f := by
  unfold Feature.find?
  cases h with
  | byId found => rw [found.find?_eq]
  | byName unmatched parts own first =>
    have absent : features.find? (fun g => g.id.text = ref) = none := by simpa using unmatched
    rw [absent]
    apply List.find?_eq_some_iff_append.mpr
    exact ⟨by simpa using own, before, after, parts, by simpa using first⟩

/-- A store still has a feature, perhaps switched, and neither an identifier nor an earlier name
stands in the way of its own name. -/
structure Store.Shows (t : Store) (f : Feature) (before : List Feature) (g : Feature)
    (after : List Feature) : Prop where
  parts : t.features = before ++ g :: after
  still : f.IsStill g
  unmatched : ∀ h ∈ t.features, ∀ word ∈ (Text.words f.name).head?, h.id.text ≠ word
  first : ∀ h ∈ before, Text.fold h.name ≠ Text.fold f.name

theorem Store.features_of_snapshot {s : Store} {p q : Supplies} {snapshot : Snapshot}
    (shown : s.snapshot p = (some snapshot, q)) : snapshot.features = s.features := by
  obtain ⟨now, -, rfl⟩ := Option.map_eq_some_iff.mp (congrArg Prod.fst shown)
  rfl

namespace Interpreter

/-- A line that asks to switch on or off what has a name, whatever the blanks in it. -/
def Orders (raw : String) (on : Bool) (name : String) : Prop :=
  ∃ word, Text.words raw = word :: Text.words name ∧
    Text.lower word = if on then "enable" else "disable"

theorem orders_enable (name : String) : Orders ("enable " ++ name) true name := by
  have apart : "enable " = "enable" ++ " " := by decide
  rw [apart]
  exact ⟨"enable", Text.words_append (by decide) name, by decide⟩

theorem orders_disable (name : String) : Orders ("disable " ++ name) false name := by
  have apart : "disable " = "disable" ++ " " := by decide
  rw [apart]
  exact ⟨"disable", Text.words_append (by decide) name, by decide⟩

variable {platform : Value} {snapshot : Snapshot} {s t u : Store} {p q r : Supplies}
  {f g : Feature} {before after : List Feature}

theorem parse_of_orders {raw : String} {on : Bool} (order : Orders raw on f.name) :
    CommandLine.parse raw = ⟨if on then "enable" else "disable", Text.words f.name⟩ := by
  obtain ⟨word, words, lower⟩ := order
  rw [CommandLine.parse, words, ← lower]

theorem plan_of_orders {line : CommandLine} {on : Bool}
    (verb : line.verb = if on then "enable" else "disable") :
    ∃ verb, Verb.ofText? line.verb = some verb ∧
      plan platform line snapshot verb = planEnable line snapshot on := by
  rw [verb]
  cases on with
  | true => exact ⟨.enable, by decide, rfl⟩
  | false => exact ⟨.disable, by decide, rfl⟩

theorem gives_shown {raw : String} {on : Bool} (tidy : Text.IsTidy f.name) (named : f.name ≠ "")
    (shows : t.Shows f before g after) (alone : ∀ h ∈ before, h.id ≠ f.id)
    (order : Orders raw on f.name) (fresh : snapshot.features = t.features) :
    (interpret platform (.parse raw) snapshot t q).Gives (.feature { g with enabled := on })
      { t with
        features := before ++ { g with enabled := on } :: after
        changes := if g.enabled = on then t.changes else t.changes + 1 } := by
  have line := parse_of_orders order
  have args : (CommandLine.parse raw).args = Text.words f.name := by rw [line]
  obtain ⟨verb, known, planned⟩ := plan_of_orders (congrArg CommandLine.verb line)
  have text : (CommandLine.parse raw).text = f.name := by
    rw [CommandLine.text, args]
    exact tidy.words_joined
  cases words : Text.words f.name with
  | nil =>
    rw [CommandLine.text, args, words] at text
    exact absurd text.symm named
  | cons ref rest =>
    have first : (CommandLine.parse raw).firstArg? = some ref := by
      rw [CommandLine.firstArg?, args, words, List.head?_cons]
    have same_name : g.name = f.name := by rw [shows.still]
    have meant : Meant t.features ref (CommandLine.parse raw).text before g after := by
      rw [text]
      refine .byName (fun h mem => ?_) shows.parts (congrArg Text.fold same_name) shows.first
      apply shows.unmatched h mem
      rw [words]
      rfl
    have among : FoundAmong Feature.id g.id.text t.features before g after := by
      refine ⟨shows.parts, rfl, fun h mem same => alone h mem ?_⟩
      rw [← shows.still.id_eq]
      exact Id.ext_text same
    exact gives_switched known planned fresh first (find_of_meant meant) among

end Interpreter

theorem ids_of_forall₂ {left origins : List Feature}
    (same : List.Forall₂ (fun g f => f.IsStill g) left origins) :
    (left.map fun f => f.id.text) = origins.map fun f => f.id.text := by
  induction same with
  | nil => rfl
  | cons still _ ih => rw [List.map_cons, List.map_cons, still.id_eq, ih]

theorem Feature.Remain.ids_sublist {left features : List Feature} (h : Remain left features) :
    (left.map fun f => f.id.text).Sublist (features.map fun f => f.id.text) := by
  obtain ⟨origins, same, sublist⟩ := List.sublistForall₂_iff.mp h
  rw [ids_of_forall₂ same]
  exact sublist.map _

namespace Store

variable {s t u : Store} {p q r : Supplies} {f g : Feature} {before after : List Feature}

/-- As long as nothing is installed from storage, the identifier of an added feature stands for one
feature at most. -/
theorem Gains.count_le_one (gains : s.Gains p f u) (no_bytes : p.GivesNoBytes)
    (none_given : q.GivesNoBytes) (later : Later u q t r) :
    t.featureIds.count f.id.text ≤ 1 := by
  obtain ⟨added, course⟩ := later.course
  have old : f.id.text ∉ s.featureIds :=
    fun mem => gains.untaken no_bytes (List.mem_append_left _ mem)
  have own : f.id.text ∈ u.takenFeatureIds := by
    apply List.mem_append_left
    rw [gains.features, List.map_append]
    exact List.mem_append_right _ (List.mem_singleton_self _)
  have new : f.id.text ∉ added.map fun g => g.id.text := by
    intro mem
    obtain ⟨g, there, same⟩ := List.mem_map.mp mem
    apply course.untaken none_given g there
    rw [same]
    exact own
  have ids : ((u.features ++ added).map fun g => g.id.text) =
      s.featureIds ++ f.id.text :: added.map fun g => g.id.text := by
    rw [gains.features, featureIds]
    simp
  calc
    t.featureIds.count f.id.text
      ≤ ((u.features ++ added).map fun g => g.id.text).count f.id.text :=
        course.growsInto.features.ids_sublist.count_le _
    _ = 1 := by
      rw [ids, List.count_append, List.count_cons_self, List.count_eq_zero_of_not_mem old,
        List.count_eq_zero_of_not_mem new]

theorem Gains.alone (gains : s.Gains p f u) (no_bytes : p.GivesNoBytes)
    (none_given : q.GivesNoBytes) (later : Later u q t r)
    (parts : t.features = before ++ g :: after) (still : f.IsStill g) :
    ∀ h ∈ before, h.id ≠ f.id := by
  intro h earlier same
  have once := gains.count_le_one no_bytes none_given later
  have twin : 0 < (before.map fun h => h.id.text).count f.id.text := by
    rw [List.count_pos_iff, ← same]
    exact List.mem_map_of_mem earlier
  rw [featureIds, parts, List.map_append, List.map_cons, still.id_eq, List.count_append,
    List.count_cons_self] at once
  omega

end Store

namespace Interpreter

variable {platform : Value} {snapshot : Snapshot} {s t : Store} {p : Supplies} {f : Feature}

/-- An `add` line has been accepted and has left a feature in the store. In any store that shows the
feature, and in which no earlier one has its identifier, every line of `enable` or `disable` with
the words of its name behind it is accepted on a fresh snapshot, whatever its blanks, and switches
that feature and nothing else. No earlier feature can have its identifier as long as nothing is
installed from storage. -/
theorem added_feature_is_found_by_name {raw : String}
    (known : Verb.ofText? (CommandLine.parse raw).verb = some .add)
    (gives : (interpret platform (.parse raw) snapshot s p).Gives (.feature f) t) :
    (Orders ("enable " ++ f.name) true f.name ∧ Orders ("disable " ++ f.name) false f.name) ∧
    (∀ (u : Store) before g after, u.Shows f before g after → (∀ h ∈ before, h.id ≠ f.id) →
      ∀ platform raw on, Orders raw on f.name →
      ∀ q snapshot q', u.snapshot q = (some snapshot, q') →
      (interpret platform (.parse raw) snapshot u q').Gives (.feature { g with enabled := on })
        { u with
          features := before ++ { g with enabled := on } :: after
          changes := if g.enabled = on then u.changes else u.changes + 1 }) ∧
    (p.GivesNoBytes → ∀ u r,
      Store.Later t (interpret platform (.parse raw) snapshot s p).supplies u r →
      ∀ before g after, u.features = before ++ g :: after → f.IsStill g →
        ∀ h ∈ before, h.id ≠ f.id) := by
  have gains := gains_of_add known gives
  refine ⟨⟨orders_enable f.name, orders_disable f.name⟩, ?_, ?_⟩
  · intro u before g after shows alone platform raw on order q snapshot q' shown
    have fresh := Store.features_of_snapshot shown
    exact gives_shown gains.tidy gains.named shows alone order fresh
  · intro no_bytes u r later before g after parts still
    have passes := (does_interpret platform (.parse raw) snapshot s p).passes
    exact gains.alone no_bytes (passes.givesNoBytes no_bytes) later parts still

def watching : Outcome Reply :=
  interpret .null (.parse owlLine) ⟨[], [], [], [], [], "", true, ⟨.first, none⟩⟩ entangled .numbered

def watch : Feature :=
  ⟨⟨"0", by decide⟩, "Night Watch", "counts owls", "Custom", false, .ofUtc .first⟩

def leaner : Outcome Produced :=
  watching.store.fulfil watching.supplies (.removeFeature (.text "gps"))

theorem watching_gives : watching.Gives (.feature watch) watching.store :=
  ⟨⟨_, rfl⟩, rfl⟩

theorem watch_is_found :
    ∃ snapshot q, leaner.store.snapshot leaner.supplies = (some snapshot, q) ∧
      (interpret .null (.parse "\tENABLE\u2003Night \u3000Watch") snapshot leaner.store
        q).store.features = entangled.features.drop 1 ++ [{ watch with enabled := true }] := by
  have known : Verb.ofText? (CommandLine.parse owlLine).verb = some .add := by decide
  have order : Orders "\tENABLE\u2003Night \u3000Watch" true watch.name :=
    ⟨"ENABLE", by decide, by decide⟩
  have later : Store.Later watching.store watching.supplies leaner.store leaner.supplies :=
    .deed .now (Engine.Deed.fulfil _ : Engine.Deed .null _ _ leaner)
  have shows : leaner.store.Shows watch (entangled.features.drop 1) watch [] :=
    ⟨rfl, .refl watch, by decide +kernel, by decide +kernel⟩
  have no_bytes : Supplies.numbered.GivesNoBytes := nofun
  obtain ⟨-, found, apart⟩ := added_feature_is_found_by_name known watching_gives
  have alone := apart no_bytes _ _ later _ _ _ shows.parts shows.still
  refine ⟨_, _, rfl, ?_⟩
  have gives := found _ _ _ _ shows alone .null _ true order leaner.supplies _ _ rfl
  exact congrArg Store.features gives.2

def twin : Feature :=
  ⟨⟨"0", by decide⟩, "Old", "tells no time", "Custom", false, .ofUtc .first⟩

def restored : Store :=
  watching.store.restore ⟨fun
    | .features => some [twin, watch]
    | _ => none⟩

theorem payload_unique {o : Outcome Reply} {a b : Payload} {s t : Store} (first : o.Gives a s)
    (second : o.Gives b t) : a = b := by
  obtain ⟨⟨message, result⟩, -⟩ := first
  obtain ⟨⟨message', result'⟩, -⟩ := second
  rw [result] at result'
  cases result'
  rfl

/-- What was stored may hold the identifier twice. Then the name finds the feature that was added,
and its identifier finds the other one, which is switched in its place. -/
theorem twin_is_switched_instead :
    watching.Gives (.feature watch) watching.store ∧ restored.Shows watch [twin] watch [] ∧
      Orders "enable Night Watch" true watch.name ∧
      ∃ snapshot q, restored.snapshot .numbered = (some snapshot, q) ∧
        (interpret .null (.parse "enable Night Watch") snapshot restored q).Gives
          (.feature { twin with enabled := true })
          { restored with features := [{ twin with enabled := true }, watch], changes := 2 } ∧
        ∀ t, ¬ (interpret .null (.parse "enable Night Watch") snapshot restored q).Gives
          (.feature { watch with enabled := true }) t := by
  have instead : (interpret .null (.parse "enable Night Watch")
      ⟨[twin, watch], [], [], [], [], "me@home", true, ⟨.first, none⟩⟩ restored
      (restored.snapshot .numbered).2).Gives (.feature { twin with enabled := true })
      { restored with features := [{ twin with enabled := true }, watch], changes := 2 } :=
    ⟨⟨_, rfl⟩, rfl⟩
  refine ⟨watching_gives, ⟨rfl, .refl watch, by decide +kernel, by decide +kernel⟩,
    ⟨"enable", by decide, by decide⟩, _, _, rfl, instead, ?_⟩
  intro t gives
  have same := Payload.feature.inj (payload_unique instead gives)
  exact absurd (congrArg Feature.name same) (by decide)

end Interpreter

end ControlPanel
