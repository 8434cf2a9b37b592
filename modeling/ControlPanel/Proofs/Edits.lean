import ControlPanel.Capture
import ControlPanel.Command.Interpreter
import Mathlib.Data.List.TakeWhile

/-!
# What requests do to a store

A request fails and leaves the store as it was, or finds that there is nothing to do, or makes one
edit of one collection and announces it by one change. Operations, captures and commands come down
to requests.
-/
namespace ControlPanel

namespace Supplies

structure Passes (p p' : Supplies) : Prop where
  ids : p'.ids.item = p.ids.item
  clock : p'.clock.item = p.clock.item

/-- No identifier comes as bytes. Hosts hand out texts as identifiers, and the feed does not check it:
bytes equal no text that is taken, and yet a record keeps them as their text. -/
def GivesNoBytes (p : Supplies) : Prop :=
  ∀ n b, p.ids.item n ≠ .bytes b

/-- What a new record carries: a free identifier and a time that the clock has shown. -/
structure Stamps (p : Supplies) (taken : List String) (id : Id) (time : Instant) : Prop where
  untaken : p.GivesNoBytes → id.text ∉ taken
  shown : ∃ n now, p.clock.item n = some now ∧ time = now.instant

theorem Passes.refl (p : Supplies) : p.Passes p := ⟨rfl, rfl⟩

theorem Passes.trans {p p' p'' : Supplies} (h : p.Passes p') (h' : p'.Passes p'') : p.Passes p'' :=
  ⟨h'.ids.trans h.ids, h'.clock.trans h.clock⟩

theorem Passes.givesNoBytes {p p' : Supplies} (h : p.Passes p') (none_given : p.GivesNoBytes) :
    p'.GivesNoBytes := by
  rwa [GivesNoBytes, h.ids]

theorem passes_now {p p' : Supplies} {time? : Option ClockTime} (h : p.now = (time?, p')) :
    p.Passes p' := by
  cases h
  exact ⟨rfl, rfl⟩

theorem allocate_free {taken : List String} {attempts : Nat} {ids ids' : Feed Value}
    {candidate? : Option Value} (h : ids.allocate taken attempts = (candidate?, ids')) :
    ids'.item = ids.item ∧
      ∀ candidate ∈ candidate?, isFreeId taken candidate ∧ ∃ n, ids.item n = candidate := by
  induction attempts generalizing ids with
  | zero =>
    cases h
    exact ⟨rfl, fun _ absent => nomatch absent⟩
  | succ attempts ih =>
    simp only [Feed.allocate] at h
    split at h
    · rename_i free
      cases h
      refine ⟨rfl, ?_⟩
      rintro candidate ⟨⟩
      exact ⟨free, ids.taken, rfl⟩
    · have later := ih h
      exact later

theorem untaken_of_free {taken : List String} {candidate : Value} {id : Id}
    (free : isFreeId taken candidate) (no_bytes : ∀ b, candidate ≠ .bytes b)
    (field : ((Field.id candidate).within (.key "id")).value? = some id) : id.text ∉ taken := by
  -- Of all other values only texts are read as identifiers, and they are kept as they are.
  cases candidate with
  | text s =>
    simp only [Field.id, Field.spelled, Checked.ofOption, Id.of?] at field
    split at field
    · rename_i _ found
      split at found
      · cases found
        cases field
        simpa [isFreeId] using (Bool.and_eq_true_iff.mp free).2
      · cases found
    · cases field
  | bytes b => exact absurd rfl (no_bytes b)
  | _ => cases field

theorem passes_stamp {p p' : Supplies} {taken : List String}
    {result : Except Failure (Id × Instant)} (h : p.stamp taken = (result, p')) :
    p.Passes p' ∧ ∀ id time, result = .ok (id, time) → p.Stamps taken id time := by
  unfold stamp at h
  split at h
  · rename_i ids allocated
    cases h
    exact ⟨⟨(allocate_free allocated).1, rfl⟩, fun _ _ same => nomatch same⟩
  · rename_i candidate ids allocated
    obtain ⟨same_ids, found⟩ := allocate_free allocated
    obtain ⟨free, n, handed⟩ := found candidate rfl
    have allocating : p.Passes ⟨ids, p.clock⟩ := ⟨same_ids, rfl⟩
    dsimp only at h
    split at h
    · cases h
      exact ⟨allocating, fun _ _ same => nomatch same⟩
    · split at h
      · rename_i stopped
        cases h
        exact ⟨allocating.trans (passes_now stopped), fun _ _ same => nomatch same⟩
      · rename_i now q id shown field
        cases h
        refine ⟨allocating.trans (passes_now shown), fun id' time same => ?_⟩
        cases same
        refine ⟨fun none_given => untaken_of_free free (fun b bytes => ?_) field,
          p.clock.taken, now, congrArg Prod.fst shown, rfl⟩
        exact none_given n b (handed.trans bytes)
      · rename_i shown _
        cases h
        exact ⟨allocating.trans (passes_now shown), fun _ _ same => nomatch same⟩

end Supplies

theorem Checked.eq_ok_of_value {α : Type} {c : Checked α} {a : α} (h : c.value? = some a) :
    c = .ok a := by
  cases c with
  | ok b =>
    cases h
    rfl
  | invalid errors => cases h
  | fault cause => cases h

theorem Id.ext_text {a b : Id} (same : a.text = b.text) : a = b := by
  cases a
  cases b
  cases same
  rfl

structure FoundAmong {α : Type} (idOf : α → Id) (id : String) (items before : List α) (a : α)
    (after : List α) : Prop where
  parts : items = before ++ a :: after
  own : (idOf a).text = id
  first : ∀ b ∈ before, (idOf b).text ≠ id

theorem FoundAmong.cons {α : Type} {idOf : α → Id} {id : String} {items before after : List α}
    {a b : α} (other : (idOf b).text ≠ id) (h : FoundAmong idOf id items before a after) :
    FoundAmong idOf id (b :: items) (b :: before) a after :=
  ⟨congrArg (b :: ·) h.parts, h.own, List.forall_mem_cons.mpr ⟨other, h.first⟩⟩

namespace Store

theorem splitFeature_eq_some {id : String} {features before after : List Feature} {f : Feature}
    (h : splitFeature? id features = some (before, f, after)) :
    FoundAmong Feature.id id features before f after := by
  induction features generalizing before with
  | nil => cases h
  | cons g rest ih =>
    simp only [splitFeature?] at h
    split at h
    · rename_i own
      cases h
      exact ⟨rfl, own, fun _ none_before => nomatch none_before⟩
    · rename_i other
      obtain ⟨⟨front, found, back⟩, inner, whole⟩ := Option.map_eq_some_iff.mp h
      cases whole
      exact (ih inner).cons other

theorem splitFeature_eq_none {id : String} {features : List Feature}
    (h : splitFeature? id features = none) : ∀ f ∈ features, f.id.text ≠ id := by
  induction features with
  | nil => exact fun _ none_there => nomatch none_there
  | cons g rest ih =>
    simp only [splitFeature?] at h
    split at h
    · cases h
    · rename_i other
      exact List.forall_mem_cons.mpr ⟨other, ih (Option.map_eq_none_iff.mp h)⟩

theorem markSent_eq_some {id : String} {queue queue' : List QueuedEmail} {e : QueuedEmail}
    (h : markSent? id queue = some (e, queue')) : ∃ before old after,
      FoundAmong QueuedEmail.id id queue before old after ∧ e = { old with sent := true } ∧
        queue' = before ++ e :: after := by
  induction queue generalizing queue' with
  | nil => cases h
  | cons old rest ih =>
    simp only [markSent?] at h
    split at h
    · rename_i own
      cases h
      exact ⟨[], old, rest, ⟨rfl, own, fun _ none_before => nomatch none_before⟩, rfl, rfl⟩
    · rename_i other
      obtain ⟨⟨found, rest'⟩, inner, whole⟩ := Option.map_eq_some_iff.mp h
      cases whole
      obtain ⟨before, old', after, among, same, parts⟩ := ih inner
      exact ⟨old :: before, old', after, among.cons other, same, congrArg (old :: ·) parts⟩

end Store

namespace Store

@[simp]
theorem content_changes (s : Store) (changes : Nat) (c : Collection) :
    { s with changes := changes }.content c = s.content c := by
  cases c <;> rfl

def AltersOnly (s : Store) (c : Collection) (s' : Store) : Prop :=
  s'.changes = s.changes ∧ ∀ other, other ≠ c → s'.content other = s.content other

end Store

def Request.bytes? : Request → Option (List UInt8)
  | .setEmailAddress address => address.bytes?
  | _ => none

inductive Edit (s : Store) (p : Supplies) : Request → Collection → Produced → Store → Prop where
  | addFeature {name description category} (f : Feature) :
      p.Stamps s.takenFeatureIds f.id f.addedAt → f.enabled = false →
      Request.featureFields name description category =
        .ok (.ok ((f.name, f.description), f.category)) →
      Edit s p (.addFeature name description category) .features (.feature f)
        { s with features := s.features ++ [f] }
  | removeFeature {id before f after} : FoundAmong Feature.id id s.features before f after →
      Edit s p (.removeFeature (.text id)) .features (.feature f)
        { s with features := before ++ after, retired := f.id.text :: s.retired }
  | toggleFeature {id before f after} : FoundAmong Feature.id id s.features before f after →
      Edit s p (.toggleFeature (.text id)) .features (.feature { f with enabled := !f.enabled })
        { s with features := before ++ { f with enabled := !f.enabled } :: after }
  | setFeatureEnabled {id before f after} {enabled : Value} :
      FoundAmong Feature.id id s.features before f after → f.enabled ≠ enabled.isTruthy →
      Edit s p (.setFeatureEnabled (.text id) enabled) .features
        (.feature { f with enabled := enabled.isTruthy })
        { s with features := before ++ { f with enabled := enabled.isTruthy } :: after }
  | appendGps {lat lng accuracy} (e : GpsEntry) :
      p.Stamps (s.gpsLogs.map fun e => e.id.text) e.id e.timestamp →
      Store.checkLocation lat lng accuracy = .ok (e.lat, e.lng, e.accuracy) →
      Edit s p (.appendGps lat lng accuracy) .gpsLogs (.gps e)
        { s with gpsLogs := (e :: s.gpsLogs).take Store.gpsCap }
  | appendPhoto {uri} (e : PhotoEntry) : p.Stamps s.photoIds e.id e.timestamp →
      Field.text uri = .ok e.uri →
      Edit s p (.appendPhoto uri) .photoLogs (.photo e)
        { s with photoLogs := (e :: s.photoLogs).take Store.photoCap }
  | appendCommand {command result kind} (e : CommandEntry) :
      p.Stamps s.commandIds e.id e.timestamp → Field.text command = .ok e.command →
      Field.text result = .ok e.result → Store.kindOf? kind = some e.kind →
      Edit s p (.appendCommand command result kind) .commandLogs (.command e)
        { s with commandLogs := (e :: s.commandLogs).take Store.commandCap }
  | clearCommands : Edit s p .clearCommands .commandLogs .nothing { s with commandLogs := [] }
  | clearGps : Edit s p .clearGps .gpsLogs .nothing { s with gpsLogs := [] }
  | enqueueEmail {subject body} (e : QueuedEmail) : p.Stamps s.emailIds e.id e.createdAt →
      Field.text subject = .ok e.subject → Field.text body = .ok e.body → e.sent = false →
      Edit s p (.enqueueEmail subject body) .emailQueue (.email e)
        { s with emailQueue := s.emailQueue ++ [e] }
  | markEmailSent {id before e after} : FoundAmong QueuedEmail.id id s.emailQueue before e after →
      Edit s p (.markEmailSent (.text id)) .emailQueue (.email { e with sent := true })
        { s with emailQueue := before ++ { e with sent := true } :: after }
  | setEmailAddress (address : GivenAddress) :
      Edit s p (.setEmailAddress address) .emailAddress .nothing
        { s with emailAddress := address.text }

theorem Edit.altersOnly {s s' : Store} {p : Supplies} {r : Request} {c : Collection}
    {produced : Produced} (h : Edit s p r c produced s') : s.AltersOnly c s' := by
  refine ⟨by cases h <;> rfl, fun other apart => ?_⟩
  cases h <;> cases other <;> first | rfl | exact absurd rfl apart

/-- What a request leads to: its result, the store and the supplies after it, and the change. -/
inductive Effect (s : Store) (p : Supplies) :
    Request → Except Failure Produced → Store → Supplies → Option Change → Prop where
  | failed {request p'} (failure) : p.Passes p' → Effect s p request (.error failure) s p' none
  | absent {id} : (∀ f ∈ s.features, .text f.id.text ≠ id) →
      Effect s p (.removeFeature id) (.ok .nothing) s p none
  | alike {id before f after} {enabled : Value} :
      FoundAmong Feature.id id s.features before f after → f.enabled = enabled.isTruthy →
      Effect s p (.setFeatureEnabled (.text id) enabled) (.ok (.feature f)) s p none
  | online (value : Value) : Effect s p (.setOnline value) (.ok .nothing)
      { s with isOnline := value.isTruthy } p none
  | edited {request c produced s' p'} : p.Passes p' → Edit s p request c produced s' →
      Effect s p request (.ok produced) { s' with changes := s'.changes + 1 } p'
        (some ⟨s'.changes + 1, c, { s' with changes := s'.changes + 1 }.content c, request.bytes?⟩)

namespace Outcome

variable {α : Type} {s : Store} {p : Supplies} {request : Request}

def IsEffectOf (o : Outcome Produced) (s : Store) (p : Supplies) (request : Request) : Prop :=
  Effect s p request o.result o.store o.supplies o.change?

theorem isEffectOf_fail {f : α → Produced} {p' : Supplies} (failure : Failure) (h : p.Passes p') :
    ((fail s p' failure : Outcome α).map f).IsEffectOf s p request :=
  .failed failure h

theorem isEffectOf_commit {f : α → Produced} {p' : Supplies} {s' : Store} {c : Collection} {a : α}
    {notes : List Note} (h : p.Passes p') (edit : Edit s p request c (f a) s')
    (no_bytes : request.bytes? = none) :
    ((commit s' p' c a notes).map f).IsEffectOf s p request := by
  have effect := Effect.edited h edit
  rw [no_bytes] at effect
  exact effect

end Outcome

namespace Store

variable {α β : Type} {s : Store} {p : Supplies} {request : Request}

theorem isEffectOf_withRecord {f : α → Produced} {c : Collection} {taken : List String}
    {make : Id → Instant → α} {insert : α → Store} {notes : α → List Note}
    (edit : ∀ id now, p.Stamps taken id now →
      Edit s p request c (f (make id now)) (insert (make id now)))
    (no_bytes : request.bytes? = none) :
    ((s.withRecord p taken c make insert notes).map f).IsEffectOf s p request := by
  unfold withRecord
  split
  · rename_i failure q stamped
    exact Outcome.isEffectOf_fail failure (Supplies.passes_stamp stamped).1
  · rename_i id now q stamped
    obtain ⟨passes, stamps⟩ := Supplies.passes_stamp stamped
    exact Outcome.isEffectOf_commit passes (edit id now (stamps id now rfl)) no_bytes

theorem isEffectOf_withFields {f : α → Produced} {taken : List String} {fields : Checked β}
    {make : β → Outcome α} (h : ∀ b, fields = .ok b → ((make b).map f).IsEffectOf s p request) :
    ((s.withFields p taken fields make).map f).IsEffectOf s p request := by
  unfold withFields
  split
  · rename_i b value
    exact h b (Checked.eq_ok_of_value value)
  · split
    all_goals
      rename_i stamped
      exact Outcome.isEffectOf_fail _ (Supplies.passes_stamp stamped).1

theorem isEffectOf_requestFeature (name description category : Value) :
    ((s.requestFeature p name description category).map .feature).IsEffectOf s p
      (.addFeature name description category) := by
  unfold requestFeature
  split
  · exact Outcome.isEffectOf_fail _ (.refl p)
  · rename_i fields found
    refine isEffectOf_withFields ?_
    rintro ⟨⟨name', description'⟩, category'⟩ rfl
    exact isEffectOf_withRecord (fun id now stamps => .addFeature _ stamps rfl found) rfl

theorem isEffectOf_removeFeature (id : String) :
    ((s.removeFeature p id).map Produced.ofFeature?).IsEffectOf s p
      (.removeFeature (.text id)) := by
  unfold removeFeature
  split
  · rename_i none_found
    refine .absent fun f hf same => ?_
    exact splitFeature_eq_none none_found f hf (Value.text.inj same)
  · rename_i found
    exact Outcome.isEffectOf_commit (.refl p) (.removeFeature (splitFeature_eq_some found)) rfl

theorem isEffectOf_toggleFeature (id : String) :
    ((s.toggleFeature p id).map .feature).IsEffectOf s p (.toggleFeature (.text id)) := by
  unfold toggleFeature
  split
  · exact Outcome.isEffectOf_fail _ (.refl p)
  · rename_i found
    exact Outcome.isEffectOf_commit (.refl p) (.toggleFeature (splitFeature_eq_some found)) rfl

theorem isEffectOf_setFeatureEnabled (id : String) (enabled : Value) :
    ((s.setFeatureEnabled p id enabled.isTruthy).map .feature).IsEffectOf s p
      (.setFeatureEnabled (.text id) enabled) := by
  unfold setFeatureEnabled
  split
  · exact Outcome.isEffectOf_fail _ (.refl p)
  · rename_i found
    split
    · rename_i alike
      exact .alike (splitFeature_eq_some found) alike
    · rename_i other
      exact Outcome.isEffectOf_commit (.refl p)
        (.setFeatureEnabled (splitFeature_eq_some found) other) rfl

theorem isEffectOf_appendGps (lat lng accuracy : Value) :
    ((s.appendGps p lat lng accuracy).map .gps).IsEffectOf s p (.appendGps lat lng accuracy) := by
  unfold appendGps
  split
  · exact Outcome.isEffectOf_fail _ (.refl p)
  · rename_i checked
    exact isEffectOf_withRecord (fun id now stamps => .appendGps _ stamps checked) rfl

theorem isEffectOf_requestPhoto (uri : Value) :
    ((s.requestPhoto p uri).map .photo).IsEffectOf s p (.appendPhoto uri) := by
  unfold requestPhoto
  split
  · exact Outcome.isEffectOf_fail _ (.refl p)
  · split
    · refine isEffectOf_withFields fun text read => ?_
      exact isEffectOf_withRecord
        (fun id now stamps => .appendPhoto _ stamps (Checked.within_eq_ok.mp read)) rfl
    · exact Outcome.isEffectOf_fail _ (.refl p)

theorem isEffectOf_requestCommand (command result kind : Value) :
    ((s.requestCommand p command result kind).map .command).IsEffectOf s p
      (.appendCommand command result kind) := by
  unfold requestCommand
  split
  · exact Outcome.isEffectOf_fail _ (.refl p)
  · rename_i kind' known
    refine isEffectOf_withFields ?_
    rintro ⟨command', result'⟩ read
    obtain ⟨command_read, result_read⟩ := Checked.and_eq_ok.mp read
    simp only [appendCommand, known]
    exact isEffectOf_withRecord
      (fun id now stamps => .appendCommand _ stamps (Checked.within_eq_ok.mp command_read)
        (Checked.within_eq_ok.mp result_read) known) rfl

theorem isEffectOf_requestEmail (subject body : Value) :
    ((s.requestEmail p subject body).map .email).IsEffectOf s p (.enqueueEmail subject body) := by
  refine isEffectOf_withFields ?_
  rintro ⟨subject', body'⟩ read
  obtain ⟨subject_read, body_read⟩ := Checked.and_eq_ok.mp read
  exact isEffectOf_withRecord
    (fun id now stamps => .enqueueEmail _ stamps (Checked.within_eq_ok.mp subject_read)
      (Checked.within_eq_ok.mp body_read) rfl) rfl

theorem isEffectOf_markEmailSent (id : String) :
    ((s.markEmailSent p id).map .email).IsEffectOf s p (.markEmailSent (.text id)) := by
  unfold markEmailSent
  split
  · exact Outcome.isEffectOf_fail _ (.refl p)
  · rename_i marked
    obtain ⟨before, old, after, found, rfl, rfl⟩ := markSent_eq_some marked
    exact Outcome.isEffectOf_commit (.refl p) (.markEmailSent found) rfl

/-- A change of the address carries the bytes that were given for it, if they were. -/
theorem isEffectOf_requestAddress (address : GivenAddress) :
    ((s.requestAddress p address).map Produced.ofUnit).IsEffectOf s p
      (.setEmailAddress address) :=
  .edited (.refl p) (.setEmailAddress address)

/-- What a host asks for has the effect of its request. -/
theorem isEffectOf_fulfil (request : Request) : (s.fulfil p request).IsEffectOf s p request := by
  cases request with
  | addFeature name description category =>
    exact isEffectOf_requestFeature name description category
  | removeFeature id =>
    cases id with
    | text id => exact isEffectOf_removeFeature id
    | _ => exact .absent fun _ _ => nofun
  | toggleFeature id =>
    cases id with
    | text id => exact isEffectOf_toggleFeature id
    | _ => exact .failed _ (.refl p)
  | setFeatureEnabled id enabled =>
    cases id with
    | text id => exact isEffectOf_setFeatureEnabled id enabled
    | _ => exact .failed _ (.refl p)
  | appendGps lat lng accuracy => exact isEffectOf_appendGps lat lng accuracy
  | appendPhoto uri => exact isEffectOf_requestPhoto uri
  | appendCommand command result kind => exact isEffectOf_requestCommand command result kind
  | clearCommands => exact Outcome.isEffectOf_commit (.refl p) .clearCommands rfl
  | clearGps => exact Outcome.isEffectOf_commit (.refl p) .clearGps rfl
  | enqueueEmail subject body => exact isEffectOf_requestEmail subject body
  | markEmailSent id =>
    cases id with
    | text id => exact isEffectOf_markEmailSent id
    | _ => exact .failed _ (.refl p)
  | setEmailAddress address => exact isEffectOf_requestAddress address
  | setOnline online => exact .online online

end Store

theorem Text.isEmpty_trim (s : String) : (Text.trim s).isEmpty = Text.isBlankText s := by
  have blank (cs : List Char) : Text.trimOf Text.isBlank cs = [] ↔ ∀ c ∈ cs, Text.isBlank c := by
    unfold Text.trimOf
    rw [List.reverse_eq_nil_iff, List.dropWhile_eq_nil_iff]
    simp only [List.mem_reverse]
    refine ⟨fun rest c hc => ?_, fun all c hc => all c ((List.dropWhile_sublist _).subset hc)⟩
    rw [← List.takeWhile_append_dropWhile (p := Text.isBlank) (l := cs), List.mem_append] at hc
    rcases hc with front | back
    · exact List.mem_takeWhile_imp front
    · exact rest c back
  rw [Bool.eq_iff_iff, Text.trim, Text.isBlankText, List.all_eq_true, ← blank]
  simp

theorem Request.trim_text (s : String) : Request.trim (.text s) = .ok (.text (Text.trim s)) := by
  unfold Request.trim
  split
  · rename_i empty
    have none_left : s = "" := by simpa [Value.isTruthy] using empty
    rw [none_left]
    rfl
  · rfl

def Operation.request : Operation → Request
  | .addFeature name description category =>
    .addFeature (.text name) (.text description) (.text category)
  | .removeFeature id => .removeFeature (.text id)
  | .toggleFeature id => .toggleFeature (.text id)
  | .setFeatureEnabled id enabled => .setFeatureEnabled (.text id) (.bool enabled)
  | .appendGps lat lng accuracy => .appendGps lat lng accuracy
  | .appendPhoto uri => .appendPhoto (.text uri)
  | .appendCommand command result kind => .appendCommand (.text command) (.text result) kind
  | .clearCommands => .clearCommands
  | .clearGps => .clearGps
  | .enqueueEmail subject body => .enqueueEmail (.text subject) (.text body)
  | .markEmailSent id => .markEmailSent (.text id)
  | .setEmailAddress address => .setEmailAddress (.ofText address)
  | .setOnline online => .setOnline (.bool online)

namespace Store

theorem requestFeature_text (s : Store) (p : Supplies) (name description category : String) :
    s.requestFeature p (.text name) (.text description) (.text category) =
      s.addFeature p name description category := by
  simp only [requestFeature, Request.featureFields, Request.trim_text, bind, Except.bind,
    addFeature]
  by_cases blank : (Text.trim name).isEmpty || (Text.trim description).isEmpty
  · simp [Value.isTruthy, blank, throw, throwThe, MonadExceptOf.throw, Outcome.refuse]
  · by_cases none_given : (Text.trim category).isEmpty <;>
    simp [Value.isTruthy, blank, none_given, pure, Except.pure, withFields, Request.textField,
      Field.text, Field.spelled, Checked.within, Checked.and, Checked.value?]

theorem requestPhoto_text (s : Store) (p : Supplies) (uri : String) :
    s.requestPhoto p (.text uri) = s.appendPhoto p uri := by
  have blank := Text.isEmpty_trim uri
  simp only [requestPhoto, Request.trim_text, appendPhoto, Value.isTruthy, blank]
  cases Text.isBlankText uri <;> rfl

theorem requestCommand_text (s : Store) (p : Supplies) (command result : String) (kind : Value) :
    s.requestCommand p (.text command) (.text result) kind =
      s.appendCommand p command result kind := by
  unfold requestCommand
  split
  · rename_i unknown
    simp only [appendCommand, unknown]
  · rfl

theorem fulfil_request (s : Store) (p : Supplies) (op : Operation) :
    s.fulfil p op.request = s.perform p op := by
  cases op with
  | addFeature name description category =>
    exact congrArg (·.map Produced.feature) (requestFeature_text s p name description category)
  | appendPhoto uri => exact congrArg (·.map Produced.photo) (requestPhoto_text s p uri)
  | appendCommand command result kind =>
    exact congrArg (·.map Produced.command) (requestCommand_text s p command result kind)
  | _ => rfl

end Store

/-- What leaves a store behind as one fine request does, or as nothing does but taking from the
supplies. -/
inductive Outcome.Follows {α : Type} (fine : Request → Prop) (s : Store) (p : Supplies)
    (o : Outcome α) : Prop where
  | idle : p.Passes o.supplies → o.store = s → o.change? = none → Follows fine s p o
  | request {r p' result} : fine r → p.Passes p' →
      Effect s p' r result o.store o.supplies o.change? → Follows fine s p o

namespace Outcome

variable {α β : Type} {fine : Request → Prop} {s : Store} {p : Supplies}

theorem IsEffectOf.follows {f : α → Produced} {o : Outcome α} {r : Request}
    (effect : (o.map f).IsEffectOf s p r) (h : fine r) : o.Follows fine s p :=
  .request h (.refl p) effect

theorem Follows.of_same {o : Outcome α} {o' : Outcome β} (h : o.Follows fine s p)
    (store : o'.store = o.store) (supplies : o'.supplies = o.supplies)
    (change : o'.change? = o.change?) : o'.Follows fine s p := by
  cases h with
  | idle passes same none_made =>
    exact .idle (supplies ▸ passes) (store.trans same) (change.trans none_made)
  | request fine_one passes effect =>
    rw [← store, ← supplies, ← change] at effect
    exact .request fine_one passes effect

theorem Follows.of_passes {p' : Supplies} {o : Outcome α} (passes : p.Passes p')
    (h : o.Follows fine s p') : o.Follows fine s p := by
  cases h with
  | idle later same none_made => exact .idle (passes.trans later) same none_made
  | request fine_one later effect => exact .request fine_one (passes.trans later) effect

end Outcome

namespace Capture

variable {fine : Request → Prop} {s : Store} {p : Supplies}

theorem follows_noting {α : Type} {o : Outcome α} (note : α → Note) (h : o.Follows fine s p) :
    (noting o note).Follows fine s p := by
  unfold noting
  split
  · exact h.of_same rfl rfl rfl
  · exact h

theorem follows_photo {uri : Value} (h : fine (.appendPhoto uri)) :
    (photo s p uri).Follows fine s p :=
  follows_noting photoNote ((Store.isEffectOf_requestPhoto uri).follows h)

theorem follows_location {lat lng accuracy : Value}
    (h : ∀ n, roundAccuracy accuracy = .ok n → fine (.appendGps lat lng (.int n))) :
    (location s p lat lng accuracy).Follows fine s p := by
  unfold location
  split
  · exact .idle (.refl p) rfl rfl
  · rename_i n rounded
    exact follows_noting locationNote
      ((Store.isEffectOf_appendGps lat lng (.int n)).follows (h n rounded))

theorem follows_takeSample {sampling : Sampling}
    (h : ∀ lat lng accuracy n, roundAccuracy accuracy = .ok n →
      fine (.appendGps lat lng (.int n))) : (takeSample s p sampling).Follows fine s p := by
  unfold takeSample
  split
  · exact .idle (.refl p) rfl rfl
  · exact .idle (.refl p) rfl rfl
  · rename_i sample
    have taken : (location s p sample.lat sample.lng sample.accuracy).Follows fine s p :=
      follows_location (h sample.lat sample.lng sample.accuracy)
    dsimp only
    split
    · exact taken.of_same rfl rfl rfl
    · exact taken.of_same rfl rfl rfl

end Capture

def Plan.Asks : Plan → Operation → Prop
  | .reply _, _ => False
  | .operate op _, op' => op' = op
  | .operateAt op _, op' => ∃ now, op' = op now

namespace Interpreter

variable {fine : Request → Prop} {s : Store} {p : Supplies}

theorem follows_operate {line : CommandLine} {verb : Verb} {op : Operation}
    {respond : Produced → Reply} (h : fine op.request) :
    (operate line verb s p op respond).Follows fine s p := by
  have effect := Store.isEffectOf_fulfil (s := s) (p := p) op.request
  rw [Store.fulfil_request] at effect
  have performed : (s.perform p op).Follows fine s p := .request h (.refl p) effect
  unfold operate
  dsimp only
  split
  · exact performed.of_same rfl rfl rfl
  · exact performed.of_same rfl rfl rfl
  · exact performed.of_same rfl rfl rfl

theorem follows_carryOut {line : CommandLine} {verb : Verb} {found : Plan}
    (h : ∀ op, found.Asks op → fine op.request) :
    (carryOut line verb s p found).Follows fine s p := by
  cases found with
  | reply r => exact .idle (.refl p) rfl rfl
  | operate op respond => exact follows_operate (h op rfl)
  | operateAt op respond =>
    rcases shown : p.now with ⟨now?, q⟩
    have passes := Supplies.passes_now shown
    cases now? with
    | none =>
      simp only [carryOut, shown]
      exact .idle passes rfl rfl
    | some now =>
      simp only [carryOut, shown]
      exact .of_passes passes (follows_operate (h (op now) ⟨now, rfl⟩))

/-- A command comes down to one request or to none. -/
theorem follows_interpret {platform : Value} {line : CommandLine} {snapshot : Snapshot}
    (h : ∀ verb found op, plan platform line snapshot verb = .ok found → found.Asks op →
      fine op.request) : (interpret platform line snapshot s p).Follows fine s p := by
  unfold interpret
  split
  · exact .idle (.refl p) rfl rfl
  · split
    · exact .idle (.refl p) rfl rfl
    · rename_i verb known
      split
      · exact .idle (.refl p) rfl rfl
      · rename_i found planned
        exact follows_carryOut fun op asked => h verb found op planned asked

end Interpreter

end ControlPanel
