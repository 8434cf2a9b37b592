import ControlPanel.Proofs.Commits
import ControlPanel.Proofs.JsonLimits

/-!
# What is loaded is stored again

Whatever is read from a stored text can be written, and the new text is read as the same content,
with one exception. A location may be read with a coordinate that is not finite; it is written as
`null`, and then the whole history is refused.
-/
namespace ControlPanel

inductive Checked.Counts {α : Type} (a : α) : Nat → Checked α → Prop where
  | ok : Counts a 0 (.ok a)
  | invalid {errors} : errors ≠ [] → Counts a errors.length (.invalid errors)

namespace Checked.Counts

variable {α β : Type} {a : α} {b : β} {n m : Nat} {c : Checked α} {d : Checked β}

theorem wrong : Counts a 1 .wrong :=
  .invalid (List.cons_ne_nil _ [])

theorem map (f : α → β) (h : Counts a n c) : Counts (f a) n (c.map f) := by
  cases h with
  | ok => exact .ok
  | invalid some_error => exact .invalid some_error

theorem within (segment : Segment) (h : Counts a n c) : Counts a n (c.within segment) := by
  cases h with
  | ok => exact .ok
  | @invalid errors some_error =>
    have located : Counts a _ ((Checked.invalid errors).within segment) :=
      .invalid (mt List.map_eq_nil_iff.mp some_error)
    rwa [List.length_map] at located

theorem and (h : Counts a n c) (k : Counts b m d) : Counts (a, b) (n + m) (c.and d) := by
  cases h with
  | ok =>
    rw [Nat.zero_add]
    cases k with
    | ok => exact .ok
    | invalid some_error => exact .invalid some_error
  | invalid some_error =>
    cases k with
    | ok => exact .invalid some_error
    | invalid _ =>
      rw [← List.length_append]
      exact .invalid (List.append_ne_nil_of_left_ne_nil some_error _)

theorem items {read : β → Checked α} {shown : α → β} {count : α → Nat} {as : List α}
    (h : ∀ a ∈ as, Counts a (count a) (read (shown a))) (index : Nat) :
    Counts as (as.map count).sum (Checked.items read index (as.map shown)) := by
  induction as generalizing index with
  | nil => exact .ok
  | cons a as ih =>
    obtain ⟨first, others⟩ := List.forall_mem_cons.mp h
    have both := (first.within (.index index)).and (ih others (index + 1))
    exact both.map fun parts => parts.1 :: parts.2

theorem ofChecked (h : Counts a n c) :
    Archive.ofChecked c = if n = 0 then .ok a else .error (.corrupt n) := by
  cases h with
  | ok => rfl
  | invalid some_error => simp [Archive.ofChecked, some_error]

end Checked.Counts

namespace Binary64

def shown (x : Binary64) : Value :=
  if x.isFinite then .real x else .null

def lost (x : Binary64) : Nat :=
  if x.isFinite then 0 else 1

theorem writeAt_shown (layout : Json.Layout) (level : Nat) (x : Binary64) :
    Json.writeAt layout level x.shown = Json.writeAt layout level (.real x) := by
  unfold shown
  split
  · rfl
  · rename_i not_finite
    simp [Json.writeAt, Json.writeReal, not_finite]

theorem counts_shown (origin : Origin) (x : Binary64) :
    Checked.Counts x x.lost (Field.real origin x.shown) := by
  unfold shown lost
  split
  · exact .ok
  · exact .wrong

theorem readable_shown (d : Json.Dialect) (depth : Nat) (x : Binary64) :
    Json.Readable d depth x.shown := by
  unfold shown
  split
  · assumption
  · trivial

end Binary64

namespace GpsEntry

def shown (e : GpsEntry) : Value :=
  .record [("id", .text e.id.text), ("lat", e.lat.shown), ("lng", e.lng.shown),
    ("accuracy", .int e.accuracy), ("timestamp", .text e.timestamp.recordText)]

def lost (e : GpsEntry) : Nat := e.lat.lost + e.lng.lost

/-- A location all of which but its coordinates survives being stored. -/
def Legible (e : GpsEntry) : Prop :=
  e.accuracy < 10 ^ digitLimit ∧ e.timestamp.offset.IsWholeMinutes

theorem storable_iff (e : GpsEntry) : e.Storable ↔ e.Legible ∧ e.lost = 0 := by
  unfold Storable Legible lost Binary64.lost
  cases e.lat.isFinite <;> cases e.lng.isFinite <;> simp

theorem readable_shown (d : Json.Dialect) {depth : Nat} {e : GpsEntry}
    (short : e.accuracy < 10 ^ digitLimit) (h : depth < d.depthLimit) :
    Json.Readable d depth e.shown := by
  refine ⟨h, trivial, e.lat.readable_shown d _, e.lng.readable_shown d _, ?_, trivial, trivial⟩
  simpa [Json.Readable] using short

/-- The text of a location has an error for every coordinate that is lost. -/
theorem counts_shown {e : GpsEntry} (whole : e.timestamp.offset.IsWholeMinutes) :
    Checked.Counts e e.lost (read .stored e.shown) := by
  obtain ⟨id, lat, lng, accuracy, timestamp⟩ := e
  have id_read : Field.id (.text id.text) = .ok id := Field.id_text id
  have time_read : Field.instant (.text timestamp.recordText) = .ok timestamp :=
    Field.instant_recordText whole
  -- Only the coordinates can be wrong; the other fields are read as what they are.
  have fields := ((((Checked.Counts.ok (a := id)).and
    ((lat.counts_shown .stored).within (.key "lat"))).and
    ((lng.counts_shown .stored).within (.key "lng"))).and
    (Checked.Counts.ok (a := accuracy))).and (Checked.Counts.ok (a := timestamp))
  have record := fields.map fun p =>
    (⟨p.1.1.1.1, p.1.1.1.2, p.1.1.2, p.1.2, p.2⟩ : GpsEntry)
  simpa [read, shown, lost, Field.members, Field.required, Field.optional, Field.find?,
    Value.lookup?, List.lookup_cons, id_read, time_read, Checked.within] using record

theorem writeItems_shown (layout : Json.Layout) (level : Nat) (items : List GpsEntry) :
    Json.writeItems layout level (items.map shown) =
      Json.writeItems layout level (items.map toValue) := by
  induction items with
  | nil => rfl
  | cons e items ih =>
    have one : Json.writeAt layout level e.shown = Json.writeAt layout level e.toValue := by
      simp only [shown, toValue, Json.writeAt, Json.writeMembers, Binary64.writeAt_shown]
    simp only [List.map_cons, Json.writeItems, one, ih]

theorem encode_shown (items : List GpsEntry) :
    Archive.encode .gpsLogs items = Json.write (.list (items.map shown)) := by
  simp only [Archive.encode, Json.write, Json.writeAt, writeItems_shown]
  rfl

end GpsEntry

namespace Collection

def lost : (c : Collection) → c.Content → Nat
  | .gpsLogs, items => (items.map GpsEntry.lost).sum
  | _, _ => 0

/-- A content that survives being stored if it loses no coordinate. -/
def Legible : (c : Collection) → c.Content → Prop
  | .gpsLogs, items => ∀ e ∈ items, e.Legible
  | c, content => c.Storable content

theorem storable_iff (c : Collection) (content : c.Content) :
    c.Storable content ↔ c.Legible content ∧ c.lost content = 0 := by
  cases c with
  | gpsLogs =>
    simp only [Storable, Legible, lost, GpsEntry.storable_iff, List.sum_eq_zero_iff_forall_eq_nat,
      List.forall_mem_map]
    exact forall₂_and
  | _ => exact ⟨fun h => ⟨h, rfl⟩, And.left⟩

theorem storable_clip {c : Collection} {content : c.Content} (h : c.Storable content) :
    c.Storable (c.clip content) := by
  cases c with
  | gpsLogs => exact fun e he => h e (List.mem_of_mem_take he)
  | photoLogs => exact fun e he => h e (List.mem_of_mem_take he)
  | commandLogs => exact fun e he => h e (List.mem_of_mem_take he)
  | _ => exact h

end Collection

namespace Archive

/-- A legible content is read back, or refused with an error for every coordinate that is lost. -/
theorem decode_encode_legible {c : Collection} {content : c.Content} (h : c.Legible content) :
    decode c (encode c content) =
      if c.lost content = 0 then .ok content else .error (.corrupt (c.lost content)) := by
  cases c with
  | gpsLogs =>
    have readable : Json.Readable .strict 0 (.list (content.map GpsEntry.shown)) :=
      ⟨by decide, Collection.readableItems_map fun e he =>
        e.readable_shown .strict (h e he).1 (by decide)⟩
    have counts := Checked.Counts.items (fun e he => GpsEntry.counts_shown (h e he).2) 0
    rw [GpsEntry.encode_shown]
    simp only [decode, decodeRecords, Json.read_write .strict readable]
    exact counts.ofChecked
  | _ => exact decode_encode _ h

end Archive

theorem Checked.forall₂_of_items {α β : Type} {read : β → Checked α} {index : Nat} {items : List β}
    {as : List α} (h : Checked.items read index items = .ok as) :
    List.Forall₂ (fun item a => read item = .ok a) items as := by
  induction items generalizing index as with
  | nil =>
    cases h
    exact .nil
  | cons item rest ih =>
    simp only [Checked.items, map_eq_ok, and_eq_ok, within_eq_ok] at h
    obtain ⟨⟨a, as⟩, ⟨first, others⟩, rfl⟩ := h
    exact .cons first (ih others)

theorem Field.forall₂_of_list {α : Type} {read : Value → Checked α} {v : Value} {as : List α}
    (h : list read v = .ok as) :
    ∃ items, v = .list items ∧ List.Forall₂ (fun item a => read item = .ok a) items as := by
  cases v with
  | list items => exact ⟨items, rfl, Checked.forall₂_of_items h⟩
  | _ => exact nomatch h

theorem Field.forall_of_list {α : Type} {read : Value → Checked α} {v : Value} {as : List α}
    {Fine : α → Prop} (h : list read v = .ok as) (short : Json.Short v)
    (fine : ∀ item a, read item = .ok a → Json.Short item → Fine a) : ∀ a ∈ as, Fine a := by
  obtain ⟨items, rfl, each⟩ := forall₂_of_list h
  have items_short := Json.shortItems_iff.mp short
  clear h short
  induction each with
  | nil => exact fun _ none_read => nomatch none_read
  | cons first _ ih =>
    obtain ⟨own, others⟩ := List.forall_mem_cons.mp items_short
    exact List.forall_mem_cons.mpr ⟨fine _ _ first own, ih others⟩

theorem readCanonicalInt_lt {cs : List Char} {n : Int} (h : readCanonicalInt? cs = some n) :
    n.natAbs < 10 ^ digitLimit := by
  simp only [readCanonicalInt?, Option.ite_none_left_eq_some, Bool.or_eq_true, not_or,
    Bool.not_eq_true', Bool.not_eq_false, decide_eq_true_eq, List.all_eq_true, Nat.not_lt] at h
  obtain ⟨⟨⟨-, digits⟩, length⟩, -, same⟩ := h
  have small := Nat.lt_of_lt_of_le (digitsValue_lt digits)
    (Nat.pow_le_pow_right (by decide) length)
  rw [← Option.some.inj same]
  split <;> simpa using small

namespace Field

theorem whole_lt {v : Value} {n : Int} (h : whole v = .ok n) (short : Json.Short v) :
    n.natAbs < 10 ^ digitLimit := by
  have typed {s : String} (h : readFieldInt? s = some n) : n.natAbs < 10 ^ digitLimit := by
    obtain ⟨cs, -, read⟩ := Option.bind_eq_some_iff.mp h
    exact readCanonicalInt_lt read
  have word {m : Int} (h : m.natAbs < 10 ^ 19) : m.natAbs < 10 ^ digitLimit :=
    Nat.lt_of_lt_of_le h (Nat.pow_le_pow_right (by decide) (by decide))
  cases v with
  | int m =>
    cases h
    exact short
  | bool b =>
    rw [← Checked.ok.inj h]
    exact word (by cases b <;> decide)
  | real x =>
    obtain ⟨m, -, kept⟩ := Option.bind_eq_some_iff.mp (Checked.ofOption_eq_ok.mp h)
    split at kept
    · rename_i bounds
      rw [← Option.some.inj kept]
      exact word (by simp only [wordLimit] at bounds; omega)
    · exact nomatch kept
  | text s => exact typed (Checked.ofOption_eq_ok.mp h)
  | bytes b =>
    simp only [whole, spelled] at h
    cases spelling : String.fromUTF8? ⟨b.toArray⟩ with
    | none => simp [spelling, Checked.wrong] at h
    | some s =>
      simp only [spelling] at h
      exact typed (Checked.ofOption_eq_ok.mp h)
  | _ => simp [whole, spelled, Checked.wrong] at h

theorem count_lt {v : Value} {n : Nat} (h : count v = .ok n) (short : Json.Short v) :
    n < 10 ^ digitLimit := by
  unfold count at h
  split at h
  · rename_i m read
    have size : m.toNat ≤ m.natAbs := by omega
    have small := Nat.lt_of_le_of_lt size (whole_lt read short)
    split at h
    · exact Checked.ok.inj h ▸ small
    · exact nomatch h
  · exact nomatch h

theorem ofInstant_eq_ok {read : Except InstantFault Instant} {i : Instant} :
    ofInstant read = .ok i ↔ read = .ok i := by
  cases read with
  | ok i' => simp [ofInstant]
  | error cause =>
    cases kind : cause.isInvalid <;> simp [ofInstant, ofInstantFault, kind, Checked.wrong]

theorem instant_isWholeMinutes {v : Value} {i : Instant} (h : instant v = .ok i) :
    i.offset.IsWholeMinutes := by
  unfold instant at h
  split at h
  · exact Instant.ofInt_isWholeMinutes (ofInstant_eq_ok.mp h)
  · exact Instant.ofReal_isWholeMinutes (ofInstant_eq_ok.mp h)
  · exact Instant.read_isWholeMinutes (Checked.ofOption_eq_ok.mp h)
  · simp [Checked.wrong] at h

theorem find?_short {members : List (String × Value)} {names : List String} {name : String}
    {v : Value} (h : find? members names = some (name, v)) (short : Json.Short (.record members)) :
    Json.Short v := by
  obtain ⟨wanted, -, found⟩ := List.exists_of_findSome?_eq_some h
  obtain ⟨v', present, same⟩ := Option.map_eq_some_iff.mp found
  cases same
  obtain ⟨before, after, parts, -⟩ := List.lookup_eq_some_iff.mp present
  have mem : (name, v) ∈ members := List.mem_reverse.mp (by simp [parts])
  exact Json.shortMembers_iff.mp short _ mem

end Field

def Value.Stamped (v : Value) (i : Id) (time : Instant) : Prop :=
  ∃ m names, v = .record m ∧ Field.required m ["id"] Field.id = .ok i ∧
    Field.required m names Field.instant = .ok time

theorem Value.Stamped.isWholeMinutes {v : Value} {i : Id} {time : Instant}
    (h : v.Stamped i time) : time.offset.IsWholeMinutes := by
  obtain ⟨_, _, -, -, read⟩ := h
  obtain ⟨_, _, -, read⟩ := Field.required_eq_ok.mp read
  exact Field.instant_isWholeMinutes read

theorem Feature.stamped_of_read {v : Value} {f : Feature} (h : read v = .ok f) :
    v.Stamped f.id f.addedAt := by
  obtain ⟨m, rfl, fields⟩ := Field.members_eq_ok.mp h
  simp only [Checked.map_eq_ok, Checked.and_eq_ok] at fields
  obtain ⟨_, ⟨⟨⟨⟨⟨id_read, -⟩, -⟩, -⟩, -⟩, time_read⟩, rfl⟩ := fields
  exact ⟨m, _, rfl, id_read, time_read⟩

theorem GpsEntry.stamped_of_read {v : Value} {e : GpsEntry} (h : read .stored v = .ok e) :
    v.Stamped e.id e.timestamp := by
  obtain ⟨m, rfl, fields⟩ := Field.members_eq_ok.mp h
  simp only [Checked.map_eq_ok, Checked.and_eq_ok] at fields
  obtain ⟨_, ⟨⟨⟨⟨id_read, -⟩, -⟩, -⟩, time_read⟩, rfl⟩ := fields
  exact ⟨m, _, rfl, id_read, time_read⟩

theorem PhotoEntry.stamped_of_read {v : Value} {e : PhotoEntry} (h : read v = .ok e) :
    v.Stamped e.id e.timestamp := by
  obtain ⟨m, rfl, fields⟩ := Field.members_eq_ok.mp h
  simp only [Checked.map_eq_ok, Checked.and_eq_ok] at fields
  obtain ⟨_, ⟨⟨id_read, -⟩, time_read⟩, rfl⟩ := fields
  exact ⟨m, _, rfl, id_read, time_read⟩

theorem CommandEntry.stamped_of_read {v : Value} {e : CommandEntry} (h : read v = .ok e) :
    v.Stamped e.id e.timestamp := by
  obtain ⟨m, rfl, fields⟩ := Field.members_eq_ok.mp h
  simp only [Checked.map_eq_ok, Checked.and_eq_ok] at fields
  obtain ⟨_, ⟨⟨⟨⟨id_read, -⟩, -⟩, -⟩, time_read⟩, rfl⟩ := fields
  exact ⟨m, _, rfl, id_read, time_read⟩

theorem QueuedEmail.stamped_of_read {v : Value} {e : QueuedEmail} (h : read v = .ok e) :
    v.Stamped e.id e.createdAt := by
  obtain ⟨m, rfl, fields⟩ := Field.members_eq_ok.mp h
  simp only [Checked.map_eq_ok, Checked.and_eq_ok] at fields
  obtain ⟨_, ⟨⟨⟨⟨id_read, -⟩, -⟩, time_read⟩, -⟩, rfl⟩ := fields
  exact ⟨m, _, rfl, id_read, time_read⟩

theorem GpsEntry.legible_of_read {v : Value} {e : GpsEntry} (h : read .stored v = .ok e)
    (short : Json.Short v) : e.Legible := by
  refine ⟨?_, (stamped_of_read h).isWholeMinutes⟩
  obtain ⟨m, rfl, fields⟩ := Field.members_eq_ok.mp h
  simp only [Checked.map_eq_ok, Checked.and_eq_ok] at fields
  obtain ⟨_, ⟨⟨-, accuracy_read⟩, -⟩, rfl⟩ := fields
  obtain ⟨-, unknown⟩ | ⟨_, _, found, counted⟩ := Field.optional_eq_ok.mp accuracy_read
  · exact Nat.lt_of_le_of_lt (Nat.le_of_eq unknown.symm) (Nat.pow_pos (by decide))
  · exact Field.count_lt counted (Field.find?_short found short)

/-- Whatever is read survives being stored, but for its coordinates. -/
theorem Collection.legible_of_read {c : Collection} {v : Value} {content : c.Content}
    (h : c.read .stored v = .ok content) (short : Json.Short v) : c.Legible content := by
  cases c with
  | features =>
    exact Field.forall_of_list h short fun _ _ read _ =>
      (Feature.stamped_of_read read).isWholeMinutes
  | gpsLogs => exact Field.forall_of_list h short fun _ _ => GpsEntry.legible_of_read
  | photoLogs =>
    exact Field.forall_of_list h short fun _ _ read _ =>
      (PhotoEntry.stamped_of_read read).isWholeMinutes
  | commandLogs =>
    exact Field.forall_of_list h short fun _ _ read _ =>
      (CommandEntry.stamped_of_read read).isWholeMinutes
  | emailQueue =>
    exact Field.forall_of_list h short fun _ _ read _ =>
      (QueuedEmail.stamped_of_read read).isWholeMinutes
  | emailAddress => trivial

namespace Archive

theorem ofChecked_eq_ok {α : Type} {c : Checked α} {a : α} (h : ofChecked c = .ok a) :
    c = .ok a := by
  cases c with
  | ok a' => exact congrArg Checked.ok (Except.ok.inj h)
  | invalid _ => exact nomatch h
  | fault _ => exact nomatch h

theorem legible_of_decodeRecords {c : Collection} {text : String} {content : c.Content}
    (h : decodeRecords c text = .ok content) : c.Legible content := by
  unfold decodeRecords at h
  split at h
  · rename_i v read
    exact Collection.legible_of_read (ofChecked_eq_ok h) (Json.short_of_read read)
  · exact nomatch h

theorem legible_of_decode {c : Collection} {text : String} {content : c.Content}
    (h : decode c text = .ok content) : c.Legible content := by
  cases c with
  | emailAddress => trivial
  | _ => exact legible_of_decodeRecords h

/-- Decoding undoes encoding for the contents that are storable, and for no others. -/
theorem decode_encode_iff_storable (c : Collection) (content : c.Content) :
    decode c (encode c content) = .ok content ↔ c.Storable content := by
  constructor
  · intro decoded
    have legible : c.Legible content := legible_of_decode decoded
    rw [decode_encode_legible legible] at decoded
    by_cases complete : c.lost content = 0
    · exact (c.storable_iff content).mpr ⟨legible, complete⟩
    · rw [if_neg complete] at decoded
      cases decoded
  · intro storable
    exact decode_encode c storable

end Archive

theorem Json.checkItems_map {α : Type} {depth : Nat} {toValue : α → Value}
    (h : ∀ a, checkAt depth (toValue a) = .ok ()) (items : List α) :
    checkItems depth (items.map toValue) = .ok () := by
  induction items with
  | nil => rfl
  | cons a items ih => simp [checkItems, h a, ih, bind, Except.bind]

theorem Collection.checkItems_records (c : Collection) (content : c.Content) :
    Json.checkItems 1 (c.records content) = .ok () := by
  cases c with
  | features => exact Json.checkItems_map (fun _ => rfl) content
  | gpsLogs => exact Json.checkItems_map (fun _ => rfl) content
  | photoLogs => exact Json.checkItems_map (fun _ => rfl) content
  | commandLogs => exact Json.checkItems_map (fun _ => rfl) content
  | emailQueue => exact Json.checkItems_map (fun _ => rfl) content
  | emailAddress => rfl

theorem Archive.encodeValue_toValue (c : Collection) (content : c.Content) :
    encodeValue c (c.toValue content) = .ok (encode c content) := by
  have records := c.checkItems_records content
  have fits : ¬Json.depthLimit < 0 := Nat.not_lt_zero _
  cases c with
  | emailAddress => rfl
  | _ =>
    simp [encodeValue, Collection.toValue, parts?, Json.write?, Json.checkAt, fits, records, bind,
      Except.bind, pure, Except.pure, Except.mapError, encode]

/-- A change of a collection that could be stored carries a content that can be. -/
theorem Effect.storable_change {s s' : Store} {p p' : Supplies} {r : Request}
    {result : Except Failure Produced} {change? : Option Change}
    (h : Effect s p r result s' p' change?) (short : r.IsShort) (whole : p.InWholeMinutes) :
    ∀ change ∈ change?, change.collection.Storable (s.content change.collection) →
      change.collection.Storable change.content := by
  rintro change made old
  cases h with
  | edited later edit =>
    cases made
    rw [Store.content_changes]
    exact edit.storable short whole old
  | _ => exact nomatch made

namespace Archive

/-- Whatever a stored text yields can be written. The new text yields it again if no coordinate is
lost, and is refused otherwise. If none is lost, what a request then makes of the collection can be
read back too, provided that the request and the clock add nothing that cannot. -/
theorem loaded_content_reloads {c : Collection} {text : String} {content : c.Content}
    (h : decode c text = .ok content) :
    encodeValue c (c.toValue content) = .ok (encode c content) ∧
      decode c (encode c content) =
        (if c.lost content = 0 then .ok content else .error (.corrupt (c.lost content))) ∧
      (c.lost content = 0 → ∀ (s : Store) (saved : SavedState) (p : Supplies) (r : Request),
        saved.content? c = some content → p.InWholeMinutes → r.IsShort →
        ∀ change ∈ ((s.restore saved).fulfil p r).change?, change.collection = c →
          decode change.collection (encode change.collection change.content) =
            .ok change.content) := by
  have legible := legible_of_decode h
  refine ⟨encodeValue_toValue c content, decode_encode_legible legible, ?_⟩
  rintro kept s saved p r found whole short change made rfl
  have installed : change.collection.Storable ((s.restore saved).content change.collection) := by
    rw [Store.content_restore, found]
    exact Collection.storable_clip ((Collection.storable_iff _ _).mpr ⟨legible, kept⟩)
  exact decode_encode _
    ((Store.isEffectOf_fulfil r).storable_change short whole change made installed)

def looseText : String :=
  "[\x7b\"id\":\"a\",\"name\":\"n\",\"description\":\"d\",\"enabled\":\"off\",\"added_at\":1.5\x7d]"

def looseFeature : Feature :=
  ⟨⟨"a", by decide⟩, "n", "d", "Custom", false, ⟨⟨62135596801500000, by decide⟩, .utc⟩⟩

def looseState : SavedState :=
  .ofContents (some [looseFeature]) none none none none none

def timeless : Supplies :=
  ⟨.ofFunction fun _ => .null, .ofFunction fun _ => none⟩

/-- The feature is read, read again, and read once it has been switched on. -/
theorem loose_feature_reloads :
    let toggle := Request.toggleFeature (.text "a")
    decode .features looseText = .ok [looseFeature] ∧
      decode .features (encode .features [looseFeature]) = .ok [looseFeature] ∧
      ∃ change ∈ ((Store.empty.restore looseState).fulfil timeless toggle).change?,
        change.collection = .features ∧
        decode change.collection (encode change.collection change.content) = .ok change.content := by
  intro toggle
  have read : decode .features looseText = .ok [looseFeature] := by decide +kernel
  have whole : timeless.InWholeMinutes := by
    rintro n time ⟨⟩
  have made : ((Store.empty.restore looseState).fulfil timeless toggle).change? =
      some ⟨1, .features, [{ looseFeature with enabled := true }], none⟩ := rfl
  obtain ⟨-, reloaded, next⟩ := loaded_content_reloads read
  exact ⟨read, reloaded, _, made, rfl,
    next rfl .empty looseState timeless toggle rfl whole trivial _ made rfl⟩

def lostText : String :=
  "[\x7b\"id\":\"a\",\"lat\":NaN,\"lng\":1.0,\"timestamp\":\"2026-01-01T00:00:00Z\"\x7d]"

def lostEntry : GpsEntry :=
  ⟨⟨"a", by decide⟩, .nan, .ofNat 1, 0, ⟨⟨63902822400000000, by decide⟩, .utc⟩⟩

/-- The location is read, and its own text is refused. -/
theorem lost_location_is_refused :
    decode .gpsLogs lostText = .ok [lostEntry] ∧
      decode .gpsLogs (encode .gpsLogs [lostEntry]) = .error (.corrupt 1) := by
  decide +kernel

end Archive

end ControlPanel
