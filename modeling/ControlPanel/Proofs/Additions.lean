import ControlPanel.Proofs.Protocol
import ControlPanel.Proofs.Wording

/-!
# Features added by a command

The arguments of `add` are cut at bars and trimmed before the store sees them, so that the store,
which trims and checks what it is given once more, finds nothing to change and nothing to refuse.
-/
namespace ControlPanel

namespace Interpreter

/-- What the arguments say: a name and a description, and what there is behind further bars. -/
structure Describes (args : List String) (name description : String) (others : List String) :
    Prop where
  segments : segments (" ".intercalate args) = name :: description :: others
  named : name ≠ ""
  described : description ≠ ""

def categoryOf : List String → String
  | [] => "Custom"
  | category :: _ => if category = "" then "Custom" else category

end Interpreter

namespace Store

variable {s : Store} {p p' : Supplies} {name description category : String} {id : Id}
  {now : Instant}

/-- The store takes trimmed texts as they are. -/
theorem addFeature_trimmed (name_trimmed : Text.trim name = name)
    (description_trimmed : Text.trim description = description)
    (category_trimmed : Text.trim category = category) (named : name ≠ "")
    (described : description ≠ "") (classed : category ≠ "") :
    s.addFeature p name description category = s.insertFeature p name description category := by
  simp only [addFeature, name_trimmed, description_trimmed, category_trimmed]
  simp [named, described, classed]

theorem insertFeature_stamped (stamped : p.stamp s.takenFeatureIds = (.ok (id, now), p')) :
    let f : Feature := ⟨id, name, description, category, false, now⟩
    ∃ notes, s.insertFeature p name description category =
      .commit { s with features := s.features ++ [f] } p' .features f notes := by
  simp only [insertFeature, withRecord, stamped]
  exact ⟨_, rfl⟩

/-- What `add` does: one more feature at the end, switched off, or nothing. -/
structure Adds (s : Store) (id : Id) (now : Instant) (args : List String) (o : Outcome Reply) :
    Prop where
  accepts_iff : o.Accepts ↔ ∃ name description others,
    Interpreter.Describes args name description others
  added : ∀ name description others, Interpreter.Describes args name description others →
    let f : Feature := ⟨id, name, description, Interpreter.categoryOf others, false, now⟩
    o.Gives (.feature f) { s with features := s.features ++ [f], changes := s.changes + 1 } ∧
      Text.IsTidy name ∧ Text.IsTidy description
  refused : ¬ o.Accepts →
    (∃ message, o.result = .ok (.refuse message)) ∧ o.store = s ∧ o.change? = none

end Store

namespace Interpreter

variable {platform : Value} {line : CommandLine} {snapshot : Snapshot} {s : Store}
  {p p' : Supplies} {name description : String} {others : List String} {id : Id} {now : Instant}

theorem planAdd_described (h : Describes line.args name description others) :
    ∃ message, planAdd line = .ok (.operate (.addFeature name description (categoryOf others))
      (respondFeature message)) := by
  refine ⟨fun f => "Feature added: " ++ f.name ++ " [" ++ f.category ++ "]", ?_⟩
  have given : (name.isEmpty || description.isEmpty) = false := by simp [h.named, h.described]
  simp only [planAdd, CommandLine.text, h.segments, given, Bool.false_eq_true, if_false]
  cases others with
  | nil => rfl
  | cons category others => simp [categoryOf, Feature.defaultCategory]

theorem planAdd_undescribed
    (h : ¬ ∃ name description others, Describes line.args name description others) :
    ∃ reason, planAdd line = .error reason := by
  unfold planAdd
  split
  · rename_i name description others segments
    split
    · exact ⟨_, rfl⟩
    · rename_i given
      simp only [Bool.or_eq_true, String.isEmpty_iff, not_or] at given
      exact absurd ⟨name, description, others, segments, given.1, given.2⟩ h
  · exact ⟨_, rfl⟩

theorem categoryOf_trimmed (trimmed : ∀ segment ∈ others, Text.trim segment = segment) :
    Text.trim (categoryOf others) = categoryOf others ∧ categoryOf others ≠ "" := by
  have custom : Text.trim "Custom" = "Custom" ∧ "Custom" ≠ "" := by decide
  cases others with
  | nil => exact custom
  | cons category others =>
    simp only [categoryOf]
    split
    · exact custom
    · rename_i given
      exact ⟨trimmed category List.mem_cons_self, given⟩

theorem Describes.tidy {args : List String} (h : Describes args name description others)
    (words : ∀ arg ∈ args, Text.IsWord arg.toList) :
    ∀ segment ∈ name :: description :: others, Text.IsTidy segment := by
  intro segment mem
  rw [← h.segments] at mem
  exact isTidy_of_mem_segments words mem

/-- The store takes the texts of a command as they are. -/
theorem Describes.perform_eq {args : List String} (h : Describes args name description others)
    (words : ∀ arg ∈ args, Text.IsWord arg.toList) (s : Store) (p : Supplies) :
    s.perform p (.addFeature name description (categoryOf others)) =
      (s.insertFeature p name description (categoryOf others)).map .feature := by
  have trimmed : ∀ segment ∈ name :: description :: others, Text.trim segment = segment :=
    fun segment mem => Text.trim_eq_self (h.tidy words segment mem).trimmed
  obtain ⟨name_trimmed, description_trimmed, others_trimmed⟩ :
      Text.trim name = name ∧ Text.trim description = description ∧
        ∀ segment ∈ others, Text.trim segment = segment := by
    simpa only [List.forall_mem_cons] using trimmed
  obtain ⟨category_trimmed, classed⟩ := categoryOf_trimmed others_trimmed
  rw [Store.perform, Store.addFeature_trimmed name_trimmed description_trimmed category_trimmed
    h.named h.described classed]

theorem gives_added (known : Verb.ofText? line.verb = some .add)
    (words : ∀ arg ∈ line.args, Text.IsWord arg.toList)
    (stamped : p.stamp s.takenFeatureIds = (.ok (id, now), p'))
    (h : Describes line.args name description others) :
    let f : Feature := ⟨id, name, description, categoryOf others, false, now⟩
    (interpret platform line snapshot s p).Gives (.feature f)
      { s with features := s.features ++ [f], changes := s.changes + 1 } := by
  intro f
  obtain ⟨message, planned⟩ := planAdd_described h
  obtain ⟨notes, inserted⟩ : ∃ notes, s.insertFeature p name description (categoryOf others) =
      .commit { s with features := s.features ++ [f] } p' .features f notes :=
    Store.insertFeature_stamped stamped
  have performed := h.perform_eq words s p
  rw [inserted] at performed
  have decided : plan platform line snapshot .add = planAdd line := rfl
  have given := gives_operate (s := s) (p := p) known (decided.trans planned)
    (congrArg Outcome.result performed) rfl
  rw [performed] at given
  exact given

/-- Whatever the blanks of the line, the store, and the snapshot, if an identifier and a time can be
had for a feature: `add` is accepted if its arguments give a name and a description, and adds just
that feature with texts that are tidy. It does nothing otherwise. -/
theorem interpret_adds {raw word : String} {args : List String} (platform : Value)
    (snapshot : Snapshot) (line : Text.words raw = word :: args) (verb : Text.lower word = "add")
    (stamped : p.stamp s.takenFeatureIds = (.ok (id, now), p')) :
    s.Adds id now args (interpret platform (.parse raw) snapshot s p) := by
  have parsed : CommandLine.parse raw = ⟨"add", args⟩ := by
    rw [CommandLine.parse, line, ← verb]
  have words : ∀ arg ∈ args, Text.IsWord arg.toList := fun arg mem =>
    Text.isWord_of_mem_words (line ▸ List.mem_cons_of_mem word mem)
  have known : Verb.ofText? "add" = some .add := by decide
  have gives : ∀ name description others, Describes args name description others →
      let f : Feature := ⟨id, name, description, categoryOf others, false, now⟩
      (interpret platform ⟨"add", args⟩ snapshot s p).Gives (.feature f)
        { s with features := s.features ++ [f], changes := s.changes + 1 } :=
    fun _ _ _ describes => gives_added known words stamped describes
  rw [parsed]
  by_cases described : ∃ name description others, Describes args name description others
  · obtain ⟨name, description, others, describes⟩ := described
    have accepted := (gives name description others describes).accepts
    refine ⟨iff_of_true accepted ⟨name, description, others, describes⟩,
      fun name description others describes => ⟨gives name description others describes, ?_⟩,
      absurd accepted⟩
    have tidy : ∀ segment ∈ segments (" ".intercalate args), Text.IsTidy segment :=
      fun segment mem => isTidy_of_mem_segments words mem
    rw [describes.segments] at tidy
    exact ⟨tidy name (by simp), tidy description (by simp)⟩
  · obtain ⟨reason, refused⟩ : ∃ reason, planAdd ⟨"add", args⟩ = .error reason :=
      planAdd_undescribed described
    have outcome : interpret platform ⟨"add", args⟩ snapshot s p =
        refusal ⟨"add", args⟩ s p reason := interpret_refused known refused
    have unaccepted : ¬ (interpret platform ⟨"add", args⟩ snapshot s p).Accepts :=
      not_accepts_of_refusal known refused
    refine ⟨iff_of_false unaccepted described,
      fun name description others describes => absurd ⟨_, _, _, describes⟩ described, fun _ => ?_⟩
    rw [outcome]
    exact ⟨⟨reason.message, rfl⟩, rfl, rfl⟩

def owlLine : String := "\tAdd\u2003 Night\u3000\u3000Watch|counts \u00A0 owls \u2028|\u2009\n"

theorem owlLine_adds :
    ∃ snapshot p, Store.empty.snapshot .numbered = (some snapshot, p) ∧
      (interpret .null (.parse owlLine) snapshot .empty p).store.features =
        [⟨⟨"0", by decide⟩, "Night Watch", "counts owls", "Custom", false, .ofUtc .first⟩] := by
  have line : Text.words owlLine = ["Add", "Night", "Watch|counts", "owls", "|"] := by decide
  have verb : Text.lower "Add" = "add" := by decide
  have described : Describes ["Night", "Watch|counts", "owls", "|"] "Night Watch" "counts owls"
      [""] := ⟨by decide, by decide, by decide⟩
  have stamped : (Store.empty.snapshot .numbered).2.stamp Store.empty.takenFeatureIds =
      (.ok (⟨"0", by decide⟩, .ofUtc .first), _) := rfl
  refine ⟨_, _, rfl, ?_⟩
  obtain ⟨⟨-, store⟩, -⟩ := (interpret_adds .null _ line verb stamped).added _ _ _ described
  exact congrArg Store.features store

end Interpreter

end ControlPanel
