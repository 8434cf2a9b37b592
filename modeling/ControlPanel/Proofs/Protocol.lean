import ControlPanel.Proofs.Plans

/-!
# The command protocol

What each verb does to a store when the command is decided on a snapshot just taken of it: which
feature is meant, when the command is accepted, and what is different afterwards.
-/
namespace ControlPanel

/-- The feature that is meant, between those before it and those after it: the first with that
identifier, or else the first with that name, without regard to case. -/
inductive Meant (features : List Feature) (ref name : String) (before : List Feature) (f : Feature)
    (after : List Feature) : Prop where
  | byId : FoundAmong Feature.id ref features before f after →
      Meant features ref name before f after
  | byName : (∀ g ∈ features, g.id.text ≠ ref) → features = before ++ f :: after →
      Text.fold f.name = Text.fold name → (∀ g ∈ before, Text.fold g.name ≠ Text.fold name) →
      Meant features ref name before f after

theorem Meant.parts {features before after : List Feature} {ref name : String} {f : Feature}
    (h : Meant features ref name before f after) : features = before ++ f :: after := by
  cases h with
  | byId found => exact found.parts
  | byName _ parts => exact parts

theorem FoundAmong.of_find {α : Type} {idOf : α → Id} {id : String} {items : List α} {a : α}
    (h : items.find? (fun b => (idOf b).text = id) = some a) :
    ∃ before after, FoundAmong idOf id items before a after := by
  obtain ⟨own, before, after, parts, first⟩ := List.find?_eq_some_iff_append.mp h
  exact ⟨before, after, parts, by simpa using own, by simpa using first⟩

/-- With distinct identifiers every feature is the first with its own. -/
theorem FoundAmong.of_nodup {α : Type} {idOf : α → Id} {items before after : List α} {a : α}
    (distinct : (items.map fun b => (idOf b).text).Nodup) (parts : items = before ++ a :: after) :
    FoundAmong idOf (idOf a).text items before a after := by
  refine ⟨parts, rfl, fun b earlier same => ?_⟩
  rw [parts, List.map_append, List.map_cons] at distinct
  exact (List.nodup_append.mp distinct).2.2 _ (List.mem_map_of_mem earlier) _
    (List.mem_cons_self ..) same

theorem FoundAmong.not_mem_others {α : Type} {idOf : α → Id} {id : String}
    {items before after : List α} {a : α} (h : FoundAmong idOf id items before a after)
    (distinct : (items.map fun b => (idOf b).text).Nodup) :
    ∀ b ∈ before ++ after, (idOf b).text ≠ id := by
  intro b mem
  rcases List.mem_append.mp mem with earlier | later
  · exact h.first b earlier
  · intro same
    rw [h.parts, List.map_append, List.map_cons] at distinct
    have apart := (List.nodup_cons.mp (List.nodup_append.mp distinct).2.1).1
    rw [h.own, ← same] at apart
    exact apart (List.mem_map_of_mem later)

theorem Store.splitFeature_of_found {id : String} {features before after : List Feature}
    {f : Feature} (h : FoundAmong Feature.id id features before f after) :
    splitFeature? id features = some (before, f, after) := by
  obtain ⟨rfl, own, first⟩ := h
  induction before with
  | nil => simp [splitFeature?, own]
  | cons g before ih =>
    obtain ⟨other, first⟩ := List.forall_mem_cons.mp first
    simp [splitFeature?, other, ih first]

theorem meant_of_find {features : List Feature} {ref name : String} {f : Feature}
    (h : Feature.find? features ref name = some f) :
    ∃ before after, Meant features ref name before f after := by
  unfold Feature.find? at h
  split at h
  · rename_i found
    cases h
    obtain ⟨before, after, among⟩ := FoundAmong.of_find found
    exact ⟨before, after, .byId among⟩
  · rename_i absent
    obtain ⟨own, before, after, parts, first⟩ := List.find?_eq_some_iff_append.mp h
    refine ⟨before, after, .byName ?_ parts (by simpa using own) (by simpa using first)⟩
    simpa using absent

/-- The feature that is found is the one that is meant, and there is one if anything matches. -/
theorem find_isSome_iff {features : List Feature} {ref name : String} :
    (Feature.find? features ref name).isSome ↔
      (∃ f ∈ features, f.id.text = ref) ∨ ∃ f ∈ features, Text.fold f.name = Text.fold name := by
  unfold Feature.find?
  split
  · rename_i f found
    have own : f.id.text = ref := by simpa using List.find?_some found
    simp only [Option.isSome_some, true_iff]
    exact .inl ⟨f, List.mem_of_find?_eq_some found, own⟩
  · rename_i absent
    have none_there : ¬ ∃ f ∈ features, f.id.text = ref := by simpa using absent
    simp [none_there]

def Outcome.Gives (o : Outcome Reply) (payload : Payload) (s : Store) : Prop :=
  (∃ message, o.result = .ok (.accept message payload)) ∧ o.store = s

theorem Outcome.Gives.accepts {o : Outcome Reply} {payload : Payload} {s : Store}
    (h : o.Gives payload s) : o.Accepts := by
  obtain ⟨⟨message, result⟩, -⟩ := h
  exact ⟨_, result, rfl⟩

namespace Store

structure Switches (s : Store) (on : Bool) (args : List String) (o : Outcome Reply) : Prop where
  accepts_iff : o.Accepts ↔ ∃ ref rest, args = ref :: rest ∧
    ((∃ f ∈ s.features, f.id.text = ref) ∨
      ∃ f ∈ s.features, Text.fold f.name = Text.fold (" ".intercalate args))
  switched : o.Accepts → ∃ ref rest before f after, args = ref :: rest ∧
    Meant s.features ref (" ".intercalate args) before f after ∧
    o.Gives (.feature { f with enabled := on }) { s with
      features := before ++ { f with enabled := on } :: after
      changes := if f.enabled = on then s.changes else s.changes + 1 }

structure Removes (s : Store) (args : List String) (o : Outcome Reply) : Prop where
  accepts_iff : o.Accepts ↔ ∃ ref rest, args = ref :: rest ∧ ∃ f ∈ s.features, f.id.text = ref
  removed : o.Accepts → ∃ ref rest before f after, args = ref :: rest ∧
    FoundAmong Feature.id ref s.features before f after ∧
    (∀ g ∈ before ++ after, g.id.text ≠ ref) ∧
    o.Gives (.feature f) { s with
      features := before ++ after
      retired := ref :: s.retired
      changes := s.changes + 1 }

structure Queues (s : Store) (o : Outcome Reply) : Prop where
  accepts_iff : o.Accepts ↔ Text.isBlankText s.emailAddress = false
  queued : o.Accepts → ∃ e : QueuedEmail, e.sent = false ∧ e.id.text ∉ s.emailIds ∧
    o.Gives (.email e) { s with
      emailQueue := s.emailQueue ++ [e]
      changes := s.changes + 1 }

/-- What the verbs do. Nothing is said of `add`. -/
def Serves (s : Store) (args : List String) (o : Outcome Reply) : Verb → Prop
  | .help => ∃ payload, o.Gives payload s
  | .list => ∃ payload, o.Gives payload s
  | .enable => s.Switches true args o
  | .disable => s.Switches false args o
  | .add => True
  | .remove => s.Removes args o
  | .status => ∃ payload, o.Gives payload s
  | .clearLogs => o.Gives .none { s with commandLogs := [], changes := s.changes + 1 }
  | .clearGps => o.Gives .none { s with gpsLogs := [], changes := s.changes + 1 }
  | .syncEmail => s.Queues o
  | .version => ∃ payload, o.Gives payload s

/-- What a line leads to, told by its words: the first one, in lower case, is the verb. -/
def Obeys (s : Store) (o : Outcome Reply) : List String → Prop
  | [] => ¬ o.Accepts
  | word :: args =>
    match Verb.ofText? (Text.lower word) with
    | none => ¬ o.Accepts
    | some verb => s.Serves args o verb

end Store

namespace Interpreter

variable {platform : Value} {line : CommandLine} {verb : Verb} {snapshot : Snapshot} {s : Store}
  {p p' : Supplies}

theorem verb_nonempty (known : Verb.ofText? line.verb = some verb) : line.verb.isEmpty = false := by
  by_contra empty
  rw [Bool.not_eq_false, String.isEmpty_iff] at empty
  have unknown : Verb.ofText? line.verb = none := by
    rw [empty]
    decide
  rw [known] at unknown
  cases unknown

theorem interpret_refused {reason : Refusal} (known : Verb.ofText? line.verb = some verb)
    (refused : plan platform line snapshot verb = .error reason) :
    interpret platform line snapshot s p = refusal line s p reason := by
  simp only [interpret, verb_nonempty known, known, refused, Bool.false_eq_true, if_false]

theorem interpret_planned {found : Plan} (known : Verb.ofText? line.verb = some verb)
    (planned : plan platform line snapshot verb = .ok found) :
    interpret platform line snapshot s p = carryOut line verb s p found := by
  simp only [interpret, verb_nonempty known, known, planned, Bool.false_eq_true, if_false]

theorem not_accepts_of_refuse {o : Outcome Reply} {message : String}
    (result : o.result = .ok (.refuse message)) : ¬ o.Accepts := by
  rintro ⟨reply, same, accepted⟩
  rw [result] at same
  cases same
  cases accepted

theorem not_accepts_of_refusal {reason : Refusal} (known : Verb.ofText? line.verb = some verb)
    (refused : plan platform line snapshot verb = .error reason) :
    ¬ (interpret platform line snapshot s p).Accepts := by
  rw [interpret_refused known refused]
  exact not_accepts_of_refuse rfl

theorem not_accepts_of_unknown (unknown : Verb.ofText? line.verb = none) :
    ¬ (interpret platform line snapshot s p).Accepts := by
  unfold interpret
  split
  · exact not_accepts_of_refuse rfl
  · rw [unknown]
    exact not_accepts_of_refuse rfl

theorem gives_reply {message : String} {payload : Payload}
    (known : Verb.ofText? line.verb = some verb)
    (planned : plan platform line snapshot verb = .ok (.reply (.accept message payload))) :
    (interpret platform line snapshot s p).Gives payload s := by
  rw [interpret_planned known planned]
  exact ⟨⟨message, rfl⟩, rfl⟩

theorem gives_operate {op : Operation} {respond : Produced → Reply} {produced : Produced}
    {message : String} {payload : Payload} (known : Verb.ofText? line.verb = some verb)
    (planned : plan platform line snapshot verb = .ok (.operate op respond))
    (performed : (s.perform p op).result = .ok produced)
    (replied : respond produced = .accept message payload) :
    (interpret platform line snapshot s p).Gives payload (s.perform p op).store := by
  rw [interpret_planned known planned]
  simp only [carryOut, operate, performed, replied]
  exact ⟨⟨message, rfl⟩, rfl⟩

theorem planEnable_none {on : Bool} (none_given : line.args = []) :
    ∃ reason, planEnable line snapshot on = .error reason := by
  simp only [planEnable, CommandLine.firstArg?, none_given, List.head?_nil]
  exact ⟨_, rfl⟩

theorem planEnable_unmatched {on : Bool} {ref : String} (first : line.firstArg? = some ref)
    (unmatched : Feature.find? snapshot.features ref line.text = none) :
    ∃ reason, planEnable line snapshot on = .error reason := by
  simp only [planEnable, first, unmatched]
  exact ⟨_, rfl⟩

theorem planEnable_alike {ref : String} {f : Feature} (first : line.firstArg? = some ref)
    (found : Feature.find? snapshot.features ref line.text = some f) :
    ∃ message, planEnable line snapshot f.enabled =
      .ok (.reply (.accept message (.feature f))) := by
  simp only [planEnable, first, found, if_true]
  exact ⟨_, rfl⟩

theorem planEnable_other {on : Bool} {ref : String} {f : Feature}
    (first : line.firstArg? = some ref)
    (found : Feature.find? snapshot.features ref line.text = some f) (other : f.enabled ≠ on) :
    ∃ message, planEnable line snapshot on =
      .ok (.operate (.setFeatureEnabled f.id.text on) (respondFeature message)) := by
  simp only [planEnable, first, found, other, if_false]
  exact ⟨_, rfl⟩

theorem gives_switched {on : Bool} {ref : String} {f : Feature} {before after : List Feature}
    (known : Verb.ofText? line.verb = some verb)
    (planned : plan platform line snapshot verb = planEnable line snapshot on)
    (fresh : snapshot.features = s.features) (first : line.firstArg? = some ref)
    (found : Feature.find? s.features ref line.text = some f)
    (among : FoundAmong Feature.id f.id.text s.features before f after) :
    (interpret platform line snapshot s p).Gives (.feature { f with enabled := on })
      { s with
        features := before ++ { f with enabled := on } :: after
        changes := if f.enabled = on then s.changes else s.changes + 1 } := by
  rw [← fresh] at found
  by_cases alike : f.enabled = on
  · subst alike
    obtain ⟨message, replied⟩ := planEnable_alike first found
    rw [if_pos rfl, ← among.parts]
    exact gives_reply known (planned.trans replied)
  · obtain ⟨message, operated⟩ := planEnable_other first found alike
    -- The store looks the feature up again, by its identifier: it may have been found by its name.
    have split := Store.splitFeature_of_found among
    have performed : s.perform p (.setFeatureEnabled f.id.text on) =
        (Outcome.commit { s with features := before ++ { f with enabled := on } :: after } p
          .features { f with enabled := on } []).map .feature := by
      simp only [Store.perform, Store.setFeatureEnabled, split, alike, if_false]
    have given := gives_operate (s := s) (p := p) known (planned.trans operated)
      (congrArg Outcome.result performed) rfl
    rw [performed] at given
    rw [if_neg alike]
    exact given

theorem switches_of_plan {on : Bool} (known : Verb.ofText? line.verb = some verb)
    (planned : plan platform line snapshot verb = planEnable line snapshot on)
    (fresh : snapshot.features = s.features)
    (distinct : (s.features.map fun f => f.id.text).Nodup) :
    s.Switches on line.args (interpret platform line snapshot s p) := by
  cases args : line.args with
  | nil =>
    obtain ⟨reason, error⟩ : ∃ reason, planEnable line snapshot on = .error reason :=
      planEnable_none args
    have refused : ¬ (interpret platform line snapshot s p).Accepts :=
      not_accepts_of_refusal known (planned.trans error)
    refine ⟨iff_of_false refused ?_, fun accepted => absurd accepted refused⟩
    rintro ⟨ref, rest, none_given, -⟩
    cases none_given
  | cons ref rest =>
    have text : line.text = " ".intercalate (ref :: rest) := by rw [CommandLine.text, args]
    have first : line.firstArg? = some ref := by rw [CommandLine.firstArg?, args, List.head?_cons]
    cases found : Feature.find? s.features ref line.text with
    | none =>
      obtain ⟨reason, error⟩ : ∃ reason, planEnable line snapshot on = .error reason :=
        planEnable_unmatched first (fresh ▸ found)
      have refused : ¬ (interpret platform line snapshot s p).Accepts :=
        not_accepts_of_refusal known (planned.trans error)
      refine ⟨iff_of_false refused ?_, fun accepted => absurd accepted refused⟩
      rintro ⟨_, _, same, matching⟩
      cases same
      rw [← text, ← find_isSome_iff, found] at matching
      cases matching
    | some f =>
      obtain ⟨before, after, meant⟩ := meant_of_find found
      have among := FoundAmong.of_nodup distinct meant.parts
      have gives := gives_switched (p := p) known planned fresh first found among
      refine ⟨⟨fun _ => ⟨ref, rest, rfl, ?_⟩, fun _ => gives.accepts⟩, fun _ => ?_⟩
      · rw [← text, ← find_isSome_iff, found]
        rfl
      · exact ⟨ref, rest, before, f, after, rfl, text ▸ meant, gives⟩

theorem planRemove_none (none_given : line.args = []) :
    ∃ reason, planRemove line snapshot = .error reason := by
  simp only [planRemove, CommandLine.firstArg?, none_given, List.head?_nil]
  exact ⟨_, rfl⟩

theorem planRemove_unmatched {ref : String} (first : line.firstArg? = some ref)
    (unmatched : snapshot.featureById? ref = none) :
    ∃ reason, planRemove line snapshot = .error reason := by
  simp only [planRemove, first, unmatched]
  exact ⟨_, rfl⟩

theorem gives_removed {ref : String} {f : Feature} {before after : List Feature}
    (known : Verb.ofText? line.verb = some .remove) (first : line.firstArg? = some ref)
    (found : snapshot.featureById? ref = some f)
    (among : FoundAmong Feature.id ref s.features before f after) :
    (interpret platform line snapshot s p).Gives (.feature f)
      { s with
        features := before ++ after
        retired := ref :: s.retired
        changes := s.changes + 1 } := by
  have planned : plan platform line snapshot .remove =
      .ok (.operate (.removeFeature f.id.text) fun _ =>
        .accept ("Removed: " ++ f.name) (.feature f)) := by
    simp only [plan, planRemove, first, found]
  have performed : s.perform p (.removeFeature f.id.text) =
      (Outcome.commit
        { s with features := before ++ after, retired := f.id.text :: s.retired } p .features
        (some f) [.debug .store ("Feature removed id=" ++ f.id.text)]).map
          Produced.ofFeature? := by
    simp only [Store.perform, Store.removeFeature, among.own, Store.splitFeature_of_found among]
  have given := gives_operate (s := s) (p := p) known planned
    (congrArg Outcome.result performed) rfl
  rw [performed, among.own] at given
  exact given

theorem removes_of_known (known : Verb.ofText? line.verb = some .remove)
    (fresh : snapshot.features = s.features)
    (distinct : (s.features.map fun f => f.id.text).Nodup) :
    s.Removes line.args (interpret platform line snapshot s p) := by
  cases args : line.args with
  | nil =>
    obtain ⟨reason, error⟩ : ∃ reason, planRemove line snapshot = .error reason :=
      planRemove_none args
    have refused : ¬ (interpret platform line snapshot s p).Accepts :=
      not_accepts_of_refusal known error
    refine ⟨iff_of_false refused ?_, fun accepted => absurd accepted refused⟩
    rintro ⟨ref, rest, none_given, -⟩
    cases none_given
  | cons ref rest =>
    have first : line.firstArg? = some ref := by rw [CommandLine.firstArg?, args, List.head?_cons]
    have lookup : snapshot.featureById? ref = s.features.find? fun f => f.id.text = ref := by
      rw [Snapshot.featureById?, fresh]
    cases found : snapshot.featureById? ref with
    | none =>
      obtain ⟨reason, error⟩ : ∃ reason, planRemove line snapshot = .error reason :=
        planRemove_unmatched first found
      have refused : ¬ (interpret platform line snapshot s p).Accepts :=
        not_accepts_of_refusal known error
      refine ⟨iff_of_false refused ?_, fun accepted => absurd accepted refused⟩
      rintro ⟨_, _, same, f, mem, own⟩
      cases same
      rw [lookup, List.find?_eq_none] at found
      exact absurd own (by simpa using found f mem)
    | some f =>
      obtain ⟨before, after, among⟩ := FoundAmong.of_find (lookup ▸ found)
      have gives : (interpret platform line snapshot s p).Gives (.feature f) _ :=
        gives_removed known first found among
      refine ⟨⟨fun _ => ⟨ref, rest, rfl, f, ?_, among.own⟩, fun _ => gives.accepts⟩, fun _ => ?_⟩
      · rw [among.parts]
        exact List.mem_append_right _ (List.mem_cons_self ..)
      · exact ⟨ref, rest, before, f, after, rfl, among, among.not_mem_others distinct, gives⟩

theorem planSync_addressed (addressed : Text.isBlankText snapshot.emailAddress = false) :
    ∃ respond, planSync snapshot = .ok (.operateAt (syncOperation snapshot) respond) ∧
      ∀ e, ∃ message, respond (.email e) = .accept message (.email e) := by
  simp only [planSync, addressed, Bool.false_eq_true, if_false]
  exact ⟨_, rfl, fun e => ⟨_, rfl⟩⟩

theorem queues_of_known (known : Verb.ofText? line.verb = some .syncEmail)
    (fresh : snapshot.emailAddress = s.emailAddress) (regular : p.Regular)
    (available : Text.isBlankText s.emailAddress = false → p.HasFreeId s.emailIds) :
    s.Queues (interpret platform line snapshot s p) := by
  by_cases blank : Text.isBlankText s.emailAddress
  · have refused : ¬ (interpret platform line snapshot s p).Accepts := by
      apply not_accepts_of_refusal known
      simp only [plan, planSync, fresh, blank, if_true]
      rfl
    refine ⟨iff_of_false refused ?_, fun accepted => absurd accepted refused⟩
    rw [blank]
    decide
  · rw [Bool.not_eq_true] at blank
    obtain ⟨now, q, shown⟩ := regular.now
    have regular_then := (Supplies.passes_now shown).regular regular
    obtain ⟨id, time, r, stamped⟩ := regular_then.stamp_ok ((available blank).of_now shown)
    have untaken : id.text ∉ s.emailIds :=
      ((Supplies.passes_stamp stamped).2 id time rfl).untaken regular_then.givesNoBytes
    let mail := Mail.syncRequest snapshot now
    let e : QueuedEmail := ⟨id, mail.subject, mail.body, time, false⟩
    have gives : (interpret platform line snapshot s p).Gives (.email e)
        { s with
          emailQueue := s.emailQueue ++ [e]
          changes := s.changes + 1 } := by
      obtain ⟨respond, planned, replied⟩ := planSync_addressed (fresh ▸ blank)
      obtain ⟨message, mailed⟩ := replied e
      rw [interpret_planned known planned]
      simp only [carryOut, shown, operate, syncOperation, Store.perform, Store.enqueueEmail,
        Store.withRecord, stamped]
      exact ⟨⟨message, congrArg Except.ok mailed⟩, rfl⟩
    exact ⟨⟨fun _ => blank, fun _ => gives.accepts⟩, fun _ => ⟨e, rfl, untaken, gives⟩⟩

theorem serves_of_known (known : Verb.ofText? line.verb = some verb)
    (features : snapshot.features = s.features) (address : snapshot.emailAddress = s.emailAddress)
    (distinct : (s.features.map fun f => f.id.text).Nodup) (regular : p.Regular)
    (available : verb = .syncEmail → Text.isBlankText s.emailAddress = false →
      p.HasFreeId s.emailIds) :
    s.Serves line.args (interpret platform line snapshot s p) verb := by
  cases verb with
  | enable => exact switches_of_plan known rfl features distinct
  | disable => exact switches_of_plan known rfl features distinct
  | add => trivial
  | remove => exact removes_of_known known features distinct
  | clearLogs => exact gives_operate known rfl rfl rfl
  | clearGps => exact gives_operate known rfl rfl rfl
  | syncEmail => exact queues_of_known known address regular (available rfl)
  | _ => exact ⟨_, gives_reply known rfl⟩

/-- A line is decided on a snapshot just taken of a store whose features have distinct identifiers,
with identifiers that are texts and a clock that goes on; if a mail is to be queued, there is a free
identifier for it. The command is answered, does to the store what its verb stands for, and changes
nothing unless it is accepted. -/
theorem interpret_obeys_protocol (raw : String) (platform : Value)
    (distinct : (s.features.map fun f => f.id.text).Nodup)
    (fresh : s.snapshot p = (some snapshot, p')) (regular : p.Regular)
    (available : Verb.ofText? (CommandLine.parse raw).verb = some .syncEmail →
      Text.isBlankText s.emailAddress = false → p.HasFreeId s.emailIds) :
    let o := interpret platform (.parse raw) snapshot s p'
    (∃ reply, o.result = .ok reply) ∧ (¬ o.Accepts → o.store = s ∧ o.change? = none) ∧
      s.Obeys o (Text.words raw) := by
  intro o
  rcases shown : p.now with ⟨now?, q⟩
  simp only [Store.snapshot, shown, Prod.mk.injEq, Option.map_eq_some_iff] at fresh
  obtain ⟨⟨now, rfl, rfl⟩, rfl⟩ := fresh
  have regular_then := (Supplies.passes_now shown).regular regular
  refine ⟨(does_interpret ..).returns regular_then, (does_interpret ..).unaccepted, ?_⟩
  -- The store is asked to obey the words, while the interpreter reads the line made of them.
  cases words : Text.words raw with
  | nil =>
    have blank : CommandLine.parse raw = ⟨"", []⟩ := by rw [CommandLine.parse, words]
    apply not_accepts_of_unknown
    rw [blank]
    decide
  | cons word args =>
    have line : CommandLine.parse raw = ⟨Text.lower word, args⟩ := by rw [CommandLine.parse, words]
    simp only [Store.Obeys]
    split
    · rename_i unknown
      apply not_accepts_of_unknown
      rw [line, unknown]
    · rename_i verb known
      have parsed : Verb.ofText? (CommandLine.parse raw).verb = some verb := by rw [line, known]
      have served : s.Serves (CommandLine.parse raw).args o verb :=
        serves_of_known parsed rfl rfl distinct regular_then
          fun sync given => (available (by rw [parsed, sync]) given).of_now shown
      rwa [line] at served

def entangled : Store :=
  { Store.empty with
    features := [⟨⟨"gps", by decide⟩, "Map", "Draws a map", "System", false, .ofUtc .first⟩,
      ⟨⟨"map", by decide⟩, "GPS", "Tells the place", "System", true, .ofUtc .first⟩]
    emailAddress := "me@home" }

theorem entangled_queues :
    ∃ snapshot p', entangled.snapshot .numbered = (some snapshot, p') ∧
      ∃ e : QueuedEmail, e.sent = false ∧
        (interpret .null (.parse " Sync-Email now") snapshot entangled p').store.emailQueue =
          [e] := by
  have distinct : (entangled.features.map fun f => f.id.text).Nodup := by decide
  have available : Supplies.numbered.HasFreeId entangled.emailIds :=
    ⟨0, by decide, "0", rfl, by decide, by decide⟩
  have words : Text.words " Sync-Email now" = ["Sync-Email", "now"] := by decide
  have known : Verb.ofText? (Text.lower "Sync-Email") = some .syncEmail := by decide
  obtain ⟨-, -, obeys⟩ := interpret_obeys_protocol (s := entangled) " Sync-Email now" .null distinct
    rfl Supplies.regular_numbered fun _ _ => available
  simp only [words, Store.Obeys, known] at obeys
  have queues : Store.Queues entangled _ := obeys
  obtain ⟨e, unsent, -, -, store⟩ := queues.queued (queues.accepts_iff.mpr (by decide))
  refine ⟨_, _, rfl, e, unsent, ?_⟩
  rw [store]
  rfl

end Interpreter

end ControlPanel
