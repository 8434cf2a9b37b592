import ControlPanel.Proofs.Protocol

/-!
# Commands that are repeated

A feature is switched to a state and not over to the other one, and removed by its identifier. So
the same line, decided on the same snapshot over and over, does the first time all that it ever does.
-/
namespace ControlPanel

/-- What was done is done once more: the same answer, and nothing new. -/
def Outcome.IsRepeatedBy {α : Type} (o again : Outcome α) : Prop :=
  ∃ notes, again = { o with change? := none, notes := notes }

inductive Verb.Settles : Verb → Prop where
  | enable : Settles .enable
  | disable : Settles .disable
  | remove : Settles .remove

namespace Store

variable {s : Store} {p : Supplies} {id : String} {on : Bool}

theorem splitFeature_of_absent {features : List Feature} (absent : ∀ f ∈ features, f.id.text ≠ id) :
    splitFeature? id features = none := by
  rcases split : splitFeature? id features with - | ⟨before, f, after⟩
  · rfl
  · have found := splitFeature_eq_some split
    refine absurd found.own (absent f ?_)
    rw [found.parts]
    exact List.mem_append_right _ (List.mem_cons_self ..)

/-- A feature is not there, or it is switched and the others stay. -/
theorem perform_setFeatureEnabled (s : Store) (p : Supplies) (id : String) (on : Bool) :
    s.perform p (.setFeatureEnabled id on) = .refuse s p (.featureNotFound id) ∨
      ∃ before f after, FoundAmong Feature.id id s.features before f after ∧
        ((f.enabled = on ∧ s.perform p (.setFeatureEnabled id on) = .unchanged s p (.feature f)) ∨
          s.perform p (.setFeatureEnabled id on) =
            .commit { s with features := before ++ { f with enabled := on } :: after } p .features
              (.feature { f with enabled := on }) []) := by
  simp only [perform, setFeatureEnabled]
  rcases split : splitFeature? id s.features with - | ⟨before, f, after⟩
  · exact .inl rfl
  · refine .inr ⟨before, f, after, splitFeature_eq_some split, ?_⟩
    by_cases alike : f.enabled = on
    · left
      refine ⟨alike, ?_⟩
      simp only [alike, if_true]
      rfl
    · right
      simp only [alike, if_false]
      rfl

/-- A feature that has been switched is found in the state that is asked for. -/
theorem setFeatureEnabled_again (s : Store) (p : Supplies) (id : String) (on : Bool) :
    s.perform p (.setFeatureEnabled id on) = .refuse s p (.featureNotFound id) ∨
      ∃ produced notes, (s.perform p (.setFeatureEnabled id on)).result = .ok produced ∧
        (s.perform p (.setFeatureEnabled id on)).store.perform
          (s.perform p (.setFeatureEnabled id on)).supplies (.setFeatureEnabled id on) =
          { s.perform p (.setFeatureEnabled id on) with
            result := .ok produced, change? := none, notes := notes } := by
  rcases perform_setFeatureEnabled s p id on with
    refused | ⟨before, f, after, found, ⟨-, still⟩ | switched⟩
  · exact .inl refused
  · refine .inr ⟨.feature f, [], ?_⟩
    simp only [still, Outcome.unchanged, and_self]
  · refine .inr ⟨.feature { f with enabled := on }, [], ?_⟩
    have now_on : FoundAmong Feature.id id (before ++ { f with enabled := on } :: after) before
        { f with enabled := on } after := ⟨rfl, found.own, found.first⟩
    rw [switched]
    simp only [Outcome.commit, perform, setFeatureEnabled, splitFeature_of_found now_on, if_true,
      true_and]
    rfl

/-- A feature that has gone is not there to be removed again. -/
theorem removeFeature_again (p : Supplies) (id : String)
    (distinct : (s.features.map fun f => f.id.text).Nodup) :
    ∃ result result' notes, (s.perform p (.removeFeature id)).result = .ok result ∧
      (s.perform p (.removeFeature id)).store.perform
        (s.perform p (.removeFeature id)).supplies (.removeFeature id) =
        { s.perform p (.removeFeature id) with
          result := .ok result', change? := none, notes := notes } := by
  rcases split : splitFeature? id s.features with - | ⟨before, f, after⟩
  · have absent : s.perform p (.removeFeature id) = .unchanged s p .nothing := by
      simp only [perform, removeFeature, split]
      rfl
    refine ⟨.nothing, .nothing, [], ?_⟩
    simp only [absent, Outcome.unchanged, and_self]
  · have found := splitFeature_eq_some split
    have gone : splitFeature? id (before ++ after) = none :=
      splitFeature_of_absent (found.not_mem_others distinct)
    refine ⟨.feature f, .nothing, [], ?_, ?_⟩
    · simp only [perform, removeFeature, split]
      rfl
    · simp only [perform, removeFeature, split, gone, Outcome.map, Outcome.commit,
        Outcome.unchanged, Except.map]
      rfl

/-- After a feature has been switched, it is there in the state that was asked for. -/
theorem enabled_of_set {produced : Produced} (distinct : (s.features.map fun f => f.id.text).Nodup)
    (done : (s.perform p (.setFeatureEnabled id on)).result = .ok produced) :
    (∃ g ∈ (s.perform p (.setFeatureEnabled id on)).store.features, g.id.text = id) ∧
      ∀ g ∈ (s.perform p (.setFeatureEnabled id on)).store.features, g.id.text = id →
        g.enabled = on := by
  obtain ⟨before, f, after, found, features⟩ : ∃ before f after,
      FoundAmong Feature.id id s.features before f after ∧
        (s.perform p (.setFeatureEnabled id on)).store.features =
          before ++ { f with enabled := on } :: after := by
    rcases perform_setFeatureEnabled s p id on with
      refused | ⟨before, f, after, found, ⟨alike, still⟩ | switched⟩
    · rw [refused] at done
      cases done
    · refine ⟨before, f, after, found, ?_⟩
      rw [still, ← alike]
      exact found.parts
    · refine ⟨before, f, after, found, ?_⟩
      rw [switched]
      rfl
  rw [features]
  constructor
  · exact ⟨_, List.mem_append_right _ (List.mem_cons_self ..), found.own⟩
  · intro g there own
    have others := found.not_mem_others distinct
    rcases List.mem_append.mp there with earlier | later
    · exact absurd own (others g (List.mem_append_left _ earlier))
    · rcases List.mem_cons.mp later with same | later
      · rw [same]
      · exact absurd own (others g (List.mem_append_right _ later))

end Store

namespace Interpreter

variable {platform : Value} {line : CommandLine} {verb : Verb} {snapshot : Snapshot} {s : Store}
  {p : Supplies}

/-- What becomes of a line that switches or removes: a refusal, a reply at once, or an operation that
can be repeated. -/
inductive Settling : Except Refusal Plan → Prop where
  | refused (reason : Refusal) : Settling (.error reason)
  | replied (r : Reply) : Settling (.ok (.reply r))
  | switched (id : String) (on : Bool) (respond : Produced → Reply) :
      Settling (.ok (.operate (.setFeatureEnabled id on) respond))
  | removed (id : String) (r : Reply) : Settling (.ok (.operate (.removeFeature id) fun _ => r))

theorem settling_planEnable (line : CommandLine) (snapshot : Snapshot) (on : Bool) :
    Settling (planEnable line snapshot on) := by
  unfold planEnable
  dsimp only
  split
  · exact .refused _
  · split
    · exact .refused _
    · split
      · exact .replied _
      · exact .switched ..

theorem settling_plan (platform : Value) (line : CommandLine) (snapshot : Snapshot)
    (settles : verb.Settles) : Settling (plan platform line snapshot verb) := by
  cases settles with
  | enable => exact settling_planEnable line snapshot true
  | disable => exact settling_planEnable line snapshot false
  | remove =>
    simp only [plan, planRemove]
    split
    · exact .refused _
    · split
      · exact .refused _
      · exact .removed ..

theorem operate_again (line : CommandLine) (verb : Verb) {op : Operation}
    (respond : Produced → Reply) {notes : List Note} {produced produced' : Produced}
    (done : (s.perform p op).result = .ok produced)
    (again : (s.perform p op).store.perform (s.perform p op).supplies op =
      { s.perform p op with result := .ok produced', change? := none, notes := notes })
    (alike : respond produced' = respond produced) :
    (operate line verb s p op respond).result = .ok (respond produced) ∧
      (operate line verb s p op respond).IsRepeatedBy
        (operate line verb (operate line verb s p op respond).store
          (operate line verb s p op respond).supplies op respond) := by
  have first : operate line verb s p op respond = ⟨.ok (respond produced), (s.perform p op).store,
      (s.perform p op).supplies, (s.perform p op).change?,
      (s.perform p op).notes ++ [acceptNote verb]⟩ := by
    simp only [operate, done]
  rw [first]
  refine ⟨rfl, notes ++ [acceptNote verb], ?_⟩
  simp only [operate, again, alike]

/-- A line that switches or removes is answered, and what it does is done the first time. -/
theorem interpret_again (platform : Value) (snapshot : Snapshot) (p : Supplies)
    (known : Verb.ofText? line.verb = some verb) (settles : verb.Settles)
    (distinct : (s.features.map fun f => f.id.text).Nodup) :
    (∃ reply, (interpret platform line snapshot s p).result = .ok reply) ∧
      (interpret platform line snapshot s p).IsRepeatedBy
        (interpret platform line snapshot (interpret platform line snapshot s p).store
          (interpret platform line snapshot s p).supplies) := by
  have settling : Settling (plan platform line snapshot verb) :=
    settling_plan platform line snapshot settles
  generalize planned : plan platform line snapshot verb = found at settling
  cases settling with
  | refused reason =>
    have refused (t : Store) (q : Supplies) :
        interpret platform line snapshot t q = refusal line t q reason :=
      interpret_refused known planned
    rw [refused s p, refusal, refused s p]
    exact ⟨⟨_, rfl⟩, _, rfl⟩
  | replied r =>
    have replied (t : Store) (q : Supplies) :
        interpret platform line snapshot t q = carryOut line verb t q (.reply r) :=
      interpret_planned known planned
    rw [replied s p, carryOut, replied s p]
    exact ⟨⟨_, rfl⟩, _, rfl⟩
  | switched id on respond =>
    have operated (t : Store) (q : Supplies) : interpret platform line snapshot t q =
        operate line verb t q (.setFeatureEnabled id on) respond :=
      interpret_planned known planned
    simp only [operated]
    rcases Store.setFeatureEnabled_again s p id on with refused | ⟨produced, notes, done, again⟩
    · have refusing : operate line verb s p (.setFeatureEnabled id on) respond =
          refusal line s p (.featureNotFound id) := by
        simp only [operate, refused]
        rfl
      rw [refusing, refusal, refusing]
      exact ⟨⟨_, rfl⟩, _, rfl⟩
    · obtain ⟨replied, repeated⟩ := operate_again line verb respond done again rfl
      exact ⟨⟨_, replied⟩, repeated⟩
  | removed id r =>
    have operated (t : Store) (q : Supplies) : interpret platform line snapshot t q =
        operate line verb t q (.removeFeature id) fun _ => r :=
      interpret_planned known planned
    obtain ⟨produced, produced', notes, done, again⟩ :=
      Store.removeFeature_again p id distinct
    simp only [operated]
    obtain ⟨replied, repeated⟩ := operate_again line verb (fun _ => r) done again rfl
    exact ⟨⟨_, replied⟩, repeated⟩

/-- A feature that the snapshot shows the other way is switched, not turned over: the store may have
it as it is asked for already. -/
theorem enabled_of_accepted {ref : String} {f : Feature} {on : Bool}
    (known : Verb.ofText? line.verb = some verb) (asks : verb = if on then .enable else .disable)
    (distinct : (s.features.map fun f => f.id.text).Nodup) (first : line.firstArg? = some ref)
    (found : Feature.find? snapshot.features ref line.text = some f) (other : f.enabled ≠ on)
    (accepted : (interpret platform line snapshot s p).Accepts) :
    (∃ g ∈ (interpret platform line snapshot s p).store.features, g.id.text = f.id.text) ∧
      ∀ g ∈ (interpret platform line snapshot s p).store.features, g.id.text = f.id.text →
        g.enabled = on := by
  obtain ⟨message, planned⟩ := planEnable_other first found other
  have decided : plan platform line snapshot verb = planEnable line snapshot on := by
    rw [asks]
    cases on <;> rfl
  have operated : interpret platform line snapshot s p =
      operate line verb s p (.setFeatureEnabled f.id.text on) (respondFeature message) :=
    interpret_planned known (decided.trans planned)
  rw [operated] at accepted ⊢
  rcases Store.setFeatureEnabled_again s p f.id.text on with refused | ⟨produced, -, done, -⟩
  · simp only [operate, refused] at accepted
    exact absurd accepted (not_accepts_of_refuse rfl)
  · have switched := Store.enabled_of_set distinct done
    simp only [operate, done]
    exact switched

def repetitions (platform : Value) (line : CommandLine) (snapshot : Snapshot) :
    Nat → Store → Supplies → List (Outcome Reply)
  | 0, _, _ => []
  | n + 1, s, p =>
    let o := interpret platform line snapshot s p
    o :: repetitions platform line snapshot n o.store o.supplies

theorem length_repetitions (n : Nat) (s : Store) (p : Supplies) :
    (repetitions platform line snapshot n s p).length = n := by
  induction n generalizing s p with
  | zero => rfl
  | succ n ih => exact congrArg (· + 1) (ih _ _)

/-- Once a line repeats what it did, it does so for ever. -/
theorem repetitions_after {o : Outcome Reply}
    (repeated : o.IsRepeatedBy (interpret platform line snapshot o.store o.supplies)) (n : Nat) :
    ∀ again ∈ repetitions platform line snapshot n o.store o.supplies, o.IsRepeatedBy again := by
  obtain ⟨notes, same⟩ := repeated
  induction n with
  | zero => exact fun _ none_there => nomatch none_there
  | succ n ih =>
    intro again mem
    rw [repetitions, same] at mem
    rcases List.mem_cons.mp mem with next | later
    · exact ⟨notes, next⟩
    · exact ih again later

/-- A line that switches or removes features is carried out one or more times, always decided on the
same snapshot, which may be any. The replies agree, the store is as after the first time, and at most
one change is announced. If the line asks for the opposite of what the snapshot shows and is
accepted, then the feature that it refers to is in the state that was asked for. -/
theorem repetition_is_idempotent (platform : Value) (snapshot : Snapshot) (p : Supplies) (n : Nat)
    (known : Verb.ofText? line.verb = some verb) (settles : verb.Settles)
    (distinct : (s.features.map fun f => f.id.text).Nodup) :
    let first := interpret platform line snapshot s p
    let outcomes := repetitions platform line snapshot (n + 1) s p
    outcomes.length = n + 1 ∧
      (∃ reply, (∀ o ∈ outcomes, o.result = .ok reply ∧ o.store = first.store) ∧
        ∀ ref f on, verb = (if on then .enable else .disable) → line.firstArg? = some ref →
          Feature.find? snapshot.features ref line.text = some f → f.enabled ≠ on →
          reply.success = true → (∃ g ∈ first.store.features, g.id = f.id) ∧
            ∀ g ∈ first.store.features, g.id = f.id → g.enabled = on) ∧
      (outcomes.filterMap Outcome.change?).length ≤ 1 := by
  intro first outcomes
  obtain ⟨⟨reply, replied⟩, repeated⟩ := interpret_again platform snapshot p known settles distinct
  have later : ∀ o ∈ repetitions platform line snapshot n first.store first.supplies,
      first.IsRepeatedBy o := repetitions_after repeated n
  refine ⟨length_repetitions (n + 1) s p, ⟨reply, ?_, ?_⟩, ?_⟩
  · intro o mem
    rcases List.mem_cons.mp mem with own | mem
    · rw [own]
      exact ⟨replied, rfl⟩
    · obtain ⟨notes, same⟩ := later o mem
      rw [same]
      exact ⟨replied, rfl⟩
  · intro ref f on asks ref_given found other accepted
    obtain ⟨⟨g, there, own⟩, all⟩ :=
      enabled_of_accepted known asks distinct ref_given found other ⟨reply, replied, accepted⟩
    exact ⟨⟨g, there, Id.ext_text own⟩, fun g there own => all g there (congrArg Id.text own)⟩
  · have silent : (repetitions platform line snapshot n first.store first.supplies).filterMap
        Outcome.change? = [] := by
      refine List.filterMap_eq_nil_iff.mpr fun o mem => ?_
      obtain ⟨notes, same⟩ := later o mem
      rw [same]
    have whole : outcomes =
        first :: repetitions platform line snapshot n first.store first.supplies := rfl
    rw [whole, List.filterMap_cons, silent]
    split <;> simp

def outdated : Snapshot :=
  ⟨entangled.features.map fun f => { f with enabled := !f.enabled }, [], [], [], [], "", true,
    ⟨.first, none⟩⟩

/-- The command asks for what the store has already: it is accepted, and nothing is turned over. -/
theorem outdated_disable_keeps_state :
    let outcomes := repetitions .null (.parse "DISABLE gps") outdated 3 entangled .numbered
    (outcomes.filterMap Outcome.change?).length ≤ 1 ∧
      ∀ o ∈ outcomes, o.Accepts ∧ o.store = entangled ∧
        ∀ g ∈ o.store.features, g.id = ⟨"gps", by decide⟩ → g.enabled = false := by
  have known : Verb.ofText? (CommandLine.parse "DISABLE gps").verb = some .disable := by
    decide +kernel
  have distinct : (entangled.features.map fun f => f.id.text).Nodup := by decide
  obtain ⟨-, ⟨reply, same, switched⟩, few⟩ :=
    repetition_is_idempotent .null outdated .numbered 2 known .disable distinct
  have accepts : (interpret .null (.parse "DISABLE gps") outdated entangled .numbered).result.map
      Reply.success = .ok true := rfl
  have accepted : reply.success = true := by
    rw [(same _ (List.mem_cons_self ..)).1] at accepts
    exact Except.ok.inj accepts
  have kept : (interpret .null (.parse "DISABLE gps") outdated entangled .numbered).store =
      entangled := by decide +kernel
  refine ⟨few, fun o mem => ?_⟩
  obtain ⟨result, store⟩ := same o mem
  rw [store]
  refine ⟨⟨reply, result, accepted⟩, kept, ?_⟩
  exact (switched "gps" _ false rfl rfl rfl (by decide) accepted).2

end Interpreter

end ControlPanel
