import ControlPanel.Proofs.Changes
import ControlPanel.Proofs.Stamping

/-!
# What commands come to

A command either changes nothing, or carries out one operation that its verb stands for and accepts
the result. So it commits at most one change, whatever the snapshot that it was decided on, and a
command that is not accepted leaves the store as it was.
-/
namespace ControlPanel

theorem Effect.passes {s s' : Store} {p p' : Supplies} {r : Request}
    {result : Except Failure Produced} {change? : Option Change}
    (h : Effect s p r result s' p' change?) : p.Passes p' := by
  cases h with
  | failed _ passes => exact passes
  | edited passes _ => exact passes
  | _ => exact .refl p

theorem Effect.unchanged {s s' : Store} {p p' : Supplies} {r : Request} {failure : Failure}
    {change? : Option Change} (h : Effect s p r (.error failure) s' p' change?) :
    s' = s ∧ change? = none := by
  cases h with
  | failed => exact ⟨rfl, rfl⟩

theorem Tells.announces {s s' : Store} {committed : Bool} {change : Change}
    (h : Tells s s' committed [change]) : Announces s s' change := by
  cases h with
  | change announces => exact announces

/-- Only connectivity is altered without a change. -/
theorem Effect.still_or_announces {s s' : Store} {p p' : Supplies} {r : Request}
    {result : Except Failure Produced} {change? : Option Change}
    (h : Effect s p r result s' p' change?) (offline : ∀ value, r ≠ .setOnline value) :
    s' = s ∧ change? = none ∨ ∃ change, change? = some change ∧ Announces s s' change := by
  cases h with
  | online value => exact absurd rfl (offline value)
  | edited passes edit =>
    right
    exact ⟨_, rfl, (Effect.edited passes edit).tells.announces⟩
  | _ => exact .inl ⟨rfl, rfl⟩

namespace Store

variable {s : Store} {p : Supplies}

theorem isEffectOf_perform (op : Operation) : (s.perform p op).IsEffectOf s p op.request := by
  rw [← fulfil_request]
  exact isEffectOf_fulfil op.request

theorem perform_failed {op : Operation} {failure : Failure}
    (h : (s.perform p op).result = .error failure) :
    (s.perform p op).store = s ∧ (s.perform p op).change? = none := by
  have effect := isEffectOf_perform (s := s) (p := p) op
  rw [Outcome.IsEffectOf, h] at effect
  exact effect.unchanged

/-- With regular supplies a record is made unless the identifiers have run out. -/
theorem withRecord_regular {α : Type} {taken : List String} {c : Collection}
    {make : Id → Instant → α} {insert : α → Store} {notes : α → List Note}
    (regular : p.Regular) :
    (∃ a, (s.withRecord p taken c make insert notes).result = .ok a) ∨
      (s.withRecord p taken c make insert notes).result = .error (.refused .idsExhausted) := by
  unfold withRecord
  by_cases available : p.HasFreeId taken
  · obtain ⟨id, now, p', stamped⟩ := regular.stamp_ok available
    left
    rw [stamped]
    exact ⟨make id now, rfl⟩
  · obtain ⟨p', stamped⟩ := regular.stamp_exhausted available
    right
    rw [stamped]
    rfl

end Store

inductive Snapshot.Asks (s : Snapshot) : Verb → Operation → Prop where
  | enable {f} : f ∈ s.features → Asks s .enable (.setFeatureEnabled f.id.text true)
  | disable {f} : f ∈ s.features → Asks s .disable (.setFeatureEnabled f.id.text false)
  | add (name description category) : Asks s .add (.addFeature name description category)
  | remove {f} : f ∈ s.features → Asks s .remove (.removeFeature f.id.text)
  | clearLogs : Asks s .clearLogs .clearCommands
  | clearGps : Asks s .clearGps .clearGps
  | syncEmail (subject body) : Asks s .syncEmail (.enqueueEmail subject body)

theorem Snapshot.Asks.offline {snapshot : Snapshot} {verb : Verb} {op : Operation}
    (asked : snapshot.Asks verb op) (value : Value) : op.request ≠ .setOnline value := by
  cases asked <;> nofun

theorem Snapshot.Asks.perform_regular {snapshot : Snapshot} {verb : Verb} {op : Operation}
    {s : Store} {p : Supplies} (asked : snapshot.Asks verb op) (regular : p.Regular) :
    (∃ produced, (s.perform p op).result = .ok produced) ∨
      ∃ reason, (s.perform p op).result = .error (.refused reason) := by
  have switched (id : String) (on : Bool) :
      (∃ produced, (s.perform p (.setFeatureEnabled id on)).result = .ok produced) ∨
        ∃ reason, (s.perform p (.setFeatureEnabled id on)).result = .error (.refused reason) := by
    simp only [Store.perform, Store.setFeatureEnabled]
    split
    · exact .inr ⟨_, rfl⟩
    · split
      · exact .inl ⟨_, rfl⟩
      · exact .inl ⟨_, rfl⟩
  cases asked with
  | enable => exact switched _ true
  | disable => exact switched _ false
  | add name description category =>
    simp only [Store.perform, Store.addFeature]
    split
    · exact .inr ⟨_, rfl⟩
    · rcases Store.withRecord_regular regular with ⟨f, made⟩ | exhausted
      · exact .inl ⟨.feature f, congrArg (Except.map Produced.feature) made⟩
      · exact .inr ⟨_, congrArg (Except.map Produced.feature) exhausted⟩
  | remove =>
    simp only [Store.perform, Store.removeFeature]
    split
    · exact .inl ⟨_, rfl⟩
    · exact .inl ⟨_, rfl⟩
  | clearLogs => exact .inl ⟨_, rfl⟩
  | clearGps => exact .inl ⟨_, rfl⟩
  | syncEmail subject body =>
    rcases Store.withRecord_regular regular with ⟨e, made⟩ | exhausted
    · exact .inl ⟨.email e, congrArg (Except.map Produced.email) made⟩
    · exact .inr ⟨_, congrArg (Except.map Produced.email) exhausted⟩

inductive Plan.Answers (asks : Operation → Prop) : Plan → Prop where
  | reply {r} : r.success = true → Answers asks (.reply r)
  | operate {op respond} : asks op → (∀ produced, (respond produced).success = true) →
      Answers asks (.operate op respond)
  | operateAt {op respond} : (∀ now, asks (op now)) →
      (∀ produced, (respond produced).success = true) → Answers asks (.operateAt op respond)

namespace Interpreter

theorem respondFeature_success (message : Feature → String) (produced : Produced) :
    (respondFeature message produced).success = true := by
  cases produced <;> rfl

theorem mem_of_find {features : List Feature} {id name : String} {f : Feature}
    (h : Feature.find? features id name = some f) : f ∈ features := by
  unfold Feature.find? at h
  split at h
  · rename_i found
    cases h
    exact List.mem_of_find?_eq_some found
  · exact List.mem_of_find?_eq_some h

theorem planEnable_answers {line : CommandLine} {s : Snapshot} {on : Bool} {found : Plan}
    (h : planEnable line s on = .ok found) :
    found.Answers fun op => ∃ f ∈ s.features, op = .setFeatureEnabled f.id.text on := by
  unfold planEnable at h
  dsimp only at h
  split at h
  · cases h
  · split at h
    · cases h
    · rename_i f matching
      split at h
      · cases h
        exact .reply rfl
      · cases h
        exact .operate ⟨f, mem_of_find matching, rfl⟩ (respondFeature_success _)

theorem Answers.mono {asks asks' : Operation → Prop} {found : Plan} (h : found.Answers asks)
    (more : ∀ op, asks op → asks' op) : found.Answers asks' := by
  cases h with
  | reply accepted => exact .reply accepted
  | operate asked accepted => exact .operate (more _ asked) accepted
  | operateAt asked accepted => exact .operateAt (fun now => more _ (asked now)) accepted

/-- A plan asks for an operation of its verb or for none. -/
theorem plan_answers {platform : Value} {line : CommandLine} {s : Snapshot} {verb : Verb}
    {found : Plan} (h : plan platform line s verb = .ok found) : found.Answers (s.Asks verb) := by
  cases verb with
  | enable =>
    apply Answers.mono (planEnable_answers h)
    rintro op ⟨f, mem, rfl⟩
    exact .enable mem
  | disable =>
    apply Answers.mono (planEnable_answers h)
    rintro op ⟨f, mem, rfl⟩
    exact .disable mem
  | add =>
    simp only [plan, planAdd] at h
    split at h
    · split at h
      · cases h
      · cases h
        exact .operate (.add _ _ _) (respondFeature_success _)
    · cases h
  | remove =>
    simp only [plan, planRemove] at h
    split at h
    · cases h
    · split at h
      · cases h
      · rename_i f matching
        cases h
        exact .operate (.remove (List.mem_of_find?_eq_some matching)) fun _ => rfl
  | syncEmail =>
    simp only [plan, planSync] at h
    split at h
    · cases h
    · cases h
      exact .operateAt (fun _ => .syncEmail _ _) fun produced => by cases produced <;> rfl
  | clearLogs =>
    cases h
    exact .operate .clearLogs fun _ => rfl
  | clearGps =>
    cases h
    exact .operate .clearGps fun _ => rfl
  | _ =>
    cases h
    exact .reply rfl

end Interpreter

def Outcome.Accepts (o : Outcome Reply) : Prop :=
  ∃ reply, o.result = .ok reply ∧ reply.success = true

/-- What a command may do: nothing but take from the supplies, or one operation of the kind that is
asked. -/
inductive Outcome.Does (asks : Operation → Prop) (s : Store) (p : Supplies) (o : Outcome Reply) :
    Prop where
  | nothing : o.store = s → o.change? = none → p.Passes o.supplies →
      (∀ reason, o.result ≠ .error (.refused reason)) →
      (p.Regular → ∃ reply, o.result = .ok reply) → Does asks s p o
  | operation {op p' produced reply} : asks op → p.Passes p' →
      (s.perform p' op).result = .ok produced → o.result = .ok reply → reply.success = true →
      o.store = (s.perform p' op).store → o.supplies = (s.perform p' op).supplies →
      o.change? = (s.perform p' op).change? → Does asks s p o

namespace Interpreter

variable {asks : Operation → Prop} {line : CommandLine} {verb : Verb} {s : Store} {p p' : Supplies}

theorem does_replied {o : Outcome Reply} {reply : Reply} (result : o.result = .ok reply)
    (store : o.store = s) (supplies : o.supplies = p) (change : o.change? = none) :
    o.Does asks s p := by
  refine .nothing store change (supplies ▸ .refl p) (fun reason refused => ?_)
    fun _ => ⟨reply, result⟩
  rw [result] at refused
  cases refused

theorem does_operate {op : Operation} {respond : Produced → Reply} (asked : asks op)
    (accepted : ∀ produced, (respond produced).success = true) (passes : p.Passes p')
    (fair : p'.Regular → (∃ produced, (s.perform p' op).result = .ok produced) ∨
      ∃ reason, (s.perform p' op).result = .error (.refused reason)) :
    (operate line verb s p' op respond).Does asks s p := by
  have passed := passes.trans (Store.isEffectOf_perform (s := s) (p := p') op).passes
  unfold operate
  dsimp only
  split
  · rename_i produced performed
    exact .operation asked passes performed rfl (accepted produced) rfl rfl rfl
  · rename_i reason refused
    obtain ⟨store, change⟩ := Store.perform_failed refused
    exact .nothing store change passed (fun _ same => by cases same) fun _ => ⟨_, rfl⟩
  · rename_i failure other failed
    obtain ⟨store, change⟩ := Store.perform_failed failed
    refine .nothing store change passed (fun reason same => ?_) fun regular => ?_
    · cases same
      exact other _ rfl
    · rcases fair (passes.regular regular) with ⟨produced, performed⟩ | ⟨reason, refused⟩
      · rw [failed] at performed
        cases performed
      · rw [failed] at refused
        cases refused
        exact absurd rfl (other reason)

theorem does_carryOut {found : Plan} (answers : found.Answers asks)
    (fair : ∀ op p', asks op → p'.Regular →
      (∃ produced, (s.perform p' op).result = .ok produced) ∨
        ∃ reason, (s.perform p' op).result = .error (.refused reason)) :
    (carryOut line verb s p found).Does asks s p := by
  cases answers with
  | reply accepted => exact does_replied rfl rfl rfl rfl
  | operate asked accepted => exact does_operate asked accepted (.refl p) (fair _ p asked)
  | operateAt asked accepted =>
    rcases shown : p.now with ⟨now?, p'⟩
    have passes := Supplies.passes_now shown
    cases now? with
    | none =>
      simp only [carryOut, shown]
      refine .nothing rfl rfl passes (fun _ same => by cases same) fun regular => ?_
      obtain ⟨now, q, some_shown⟩ := regular.now
      rw [shown] at some_shown
      cases some_shown
    | some now =>
      simp only [carryOut, shown]
      exact does_operate (asked now) accepted passes (fair _ p' (asked now))

/-- A command does nothing, or one operation that its verb stands for. -/
theorem does_interpret (platform : Value) (line : CommandLine) (snapshot : Snapshot) (s : Store)
    (p : Supplies) :
    (interpret platform line snapshot s p).Does
      (fun op => ∃ verb, Verb.ofText? line.verb = some verb ∧ snapshot.Asks verb op) s p := by
  unfold interpret
  split
  · exact does_replied rfl rfl rfl rfl
  · split
    · exact does_replied rfl rfl rfl rfl
    · rename_i verb known
      split
      · exact does_replied rfl rfl rfl rfl
      · rename_i found planned
        apply does_carryOut
        · exact Answers.mono (plan_answers planned) fun op asked => ⟨verb, known, asked⟩
        · rintro op p' ⟨verb', -, asked⟩ regular
          exact asked.perform_regular regular

end Interpreter

theorem Outcome.Does.returns {asks : Operation → Prop} {s : Store} {p : Supplies}
    {o : Outcome Reply} (h : o.Does asks s p) (regular : p.Regular) :
    ∃ reply, o.result = .ok reply := by
  cases h with
  | nothing _ _ _ _ returns => exact returns regular
  | operation _ _ _ result => exact ⟨_, result⟩

theorem Outcome.Does.passes {asks : Operation → Prop} {s : Store} {p : Supplies}
    {o : Outcome Reply} (h : o.Does asks s p) : p.Passes o.supplies := by
  cases h with
  | nothing _ _ passes => exact passes
  | operation _ passes _ _ _ _ supplies =>
    rw [supplies]
    exact passes.trans (Store.isEffectOf_perform _).passes

theorem Outcome.Does.unaccepted {asks : Operation → Prop} {s : Store} {p : Supplies}
    {o : Outcome Reply} (h : o.Does asks s p) (unaccepted : ¬ o.Accepts) :
    o.store = s ∧ o.change? = none := by
  cases h with
  | nothing store change => exact ⟨store, change⟩
  | operation _ _ _ result accepted => exact absurd ⟨_, result, accepted⟩ unaccepted

namespace Interpreter

theorem still_or_announces (platform : Value) (line : CommandLine) (snapshot : Snapshot) (s : Store)
    (p : Supplies) :
    let o := interpret platform line snapshot s p
    o.store = s ∧ o.change? = none ∨
      ∃ change, o.change? = some change ∧ Announces s o.store change := by
  intro o
  cases does_interpret platform line snapshot s p with
  | nothing store change => exact .inl ⟨store, change⟩
  | @operation op p' _ _ asked _ _ _ _ store _ change =>
    -- No verb stands for setting connectivity, which would alter the store without a change.
    obtain ⟨verb, -, asked⟩ := asked
    have effect := (Store.isEffectOf_perform (s := s) (p := p') op).still_or_announces asked.offline
    rwa [← store, ← change] at effect

/-- No refusal gets past a command, whatever snapshot it was decided on. It commits nothing or one
change, and nothing unless it is accepted. -/
theorem interpret_commits_at_most_once (platform : Value) (line : CommandLine)
    (snapshot : Snapshot) (s : Store) (p : Supplies) :
    let o := interpret platform line snapshot s p
    (∀ reason, o.result ≠ .error (.refused reason)) ∧
      (o.store = s ∧ o.change? = none ∨
        ∃ change, o.change? = some change ∧ Announces s o.store change) ∧
      (¬ o.Accepts → o.store = s ∧ o.change? = none) := by
  intro o
  have does := does_interpret platform line snapshot s p
  refine ⟨fun reason refused => ?_, still_or_announces .., does.unaccepted⟩
  cases does with
  | nothing _ _ _ unrefused => exact unrefused reason refused
  | operation _ _ _ result =>
    rw [result] at refused
    cases refused

end Interpreter

end ControlPanel
