import ControlPanel.Archive
import ControlPanel.Proofs.CalendarText
import ControlPanel.Proofs.JsonText

/-!
# Collections read back

The text a collection is stored as holds that collection, if its times are whole minutes ahead of
universal time, its coordinates are finite and its accuracies are not too long.
-/
namespace ControlPanel

namespace Field

@[simp]
theorem text_text (s : String) : text (.text s) = .ok s := rfl

@[simp]
theorem id_text (i : Id) : id (.text i.text) = .ok i := by
  simp [id, spelled, Id.of?, i.nonempty, Checked.ofOption]

@[simp]
theorem bool_bool (b : Bool) : bool (.bool b) = .ok b := rfl

@[simp]
theorem real_real (origin : Origin) (x : Binary64) : real origin (.real x) = .ok x := rfl

@[simp]
theorem count_int (n : Nat) : count (.int n) = .ok n := by
  simp [count, whole, spelled]

theorem instant_text {s : String} {i : Instant} (h : Instant.read? s = some i) :
    instant (.text s) = .ok i := by
  simp [instant, spelled, h, Checked.ofOption]

theorem instant_recordText {i : Instant} (h : i.offset.IsWholeMinutes) :
    instant (.text i.recordText) = .ok i :=
  instant_text (Instant.read_recordText h)

@[simp]
theorem kind_text (k : CommandKind) : CommandKind.read (.text k.text) = .ok k := by
  cases k <;> rfl

theorem list_map {α : Type} {read : Value → Checked α} {toValue : α → Value} {items : List α}
    (h : ∀ a ∈ items, read (toValue a) = .ok a) :
    list read (.list (items.map toValue)) = .ok items := by
  have from_index (index : Nat) : Checked.items read index (items.map toValue) = .ok items := by
    induction items generalizing index with
    | nil => rfl
    | cons a items ih =>
      have first := h a List.mem_cons_self
      have others := ih fun b hb => h b (List.mem_cons_of_mem a hb)
      simp [Checked.items, first, others, Checked.within, Checked.and, Checked.map]
  exact from_index 0

end Field

namespace Feature

def Storable (f : Feature) : Prop := f.addedAt.offset.IsWholeMinutes

theorem read_fields {id : Id} {name description category time : String} {enabled : Bool}
    {addedAt : Instant}
    (instant : Field.instant (.text time) = .ok addedAt) :
    read (.record [("id", .text id.text), ("name", .text name), ("description", .text description),
      ("category", .text category), ("enabled", .bool enabled), ("addedAt", .text time)]) =
      .ok ⟨id, name, description, category, enabled, addedAt⟩ := by
  simp [read, Field.members, Field.required, Field.optional, Field.find?, Value.lookup?,
    List.lookup_cons, Checked.within, Checked.and, Checked.map, instant]

theorem read_toValue {f : Feature} (h : f.Storable) : read f.toValue = .ok f :=
  read_fields (Field.instant_recordText h)

theorem readable_toValue (d : Json.Dialect) {depth : Nat} (f : Feature) (h : depth < d.depthLimit) :
    Json.Readable d depth f.toValue := by
  simp [toValue, Json.Readable, Json.ReadableMembers, h]

end Feature

namespace GpsEntry

def Storable (e : GpsEntry) : Prop :=
  e.lat.isFinite ∧ e.lng.isFinite ∧ e.accuracy < 10 ^ digitLimit ∧ e.timestamp.offset.IsWholeMinutes

theorem read_fields {id : Id} {lat lng : Binary64} {accuracy : Nat} {time : String}
    {timestamp : Instant}
    (instant : Field.instant (.text time) = .ok timestamp) :
    read .stored (.record [("id", .text id.text), ("lat", .real lat), ("lng", .real lng),
      ("accuracy", .int accuracy), ("timestamp", .text time)]) =
      .ok ⟨id, lat, lng, accuracy, timestamp⟩ := by
  simp [read, Field.members, Field.required, Field.optional, Field.find?, Value.lookup?,
    List.lookup_cons, Checked.within, Checked.and, Checked.map, instant]

theorem read_toValue {e : GpsEntry} (h : e.Storable) : read .stored e.toValue = .ok e :=
  read_fields (Field.instant_recordText h.2.2.2)

theorem readable_toValue (d : Json.Dialect) {depth : Nat} {e : GpsEntry} (storable : e.Storable)
    (h : depth < d.depthLimit) : Json.Readable d depth e.toValue := by
  obtain ⟨lat, lng, accuracy, -⟩ := storable
  refine ⟨h, trivial, lat, lng, ?_, trivial, trivial⟩
  simpa [Json.Readable] using accuracy

end GpsEntry

namespace PhotoEntry

def Storable (e : PhotoEntry) : Prop := e.timestamp.offset.IsWholeMinutes

theorem read_fields {id : Id} {uri time : String} {timestamp : Instant}
    (instant : Field.instant (.text time) = .ok timestamp) :
    read (.record [("id", .text id.text), ("uri", .text uri), ("timestamp", .text time)]) =
      .ok ⟨id, uri, timestamp⟩ := by
  simp [read, Field.members, Field.required, Field.find?, Value.lookup?, List.lookup_cons,
    Checked.within, Checked.and, Checked.map, instant]

theorem read_toValue {e : PhotoEntry} (h : e.Storable) : read e.toValue = .ok e :=
  read_fields (Field.instant_recordText h)

theorem readable_toValue (d : Json.Dialect) {depth : Nat} (e : PhotoEntry)
    (h : depth < d.depthLimit) : Json.Readable d depth e.toValue := by
  simp [toValue, Json.Readable, Json.ReadableMembers, h]

end PhotoEntry

namespace CommandEntry

def Storable (e : CommandEntry) : Prop := e.timestamp.offset.IsWholeMinutes

theorem read_fields {id : Id} {command result time : String} {kind : CommandKind}
    {timestamp : Instant}
    (instant : Field.instant (.text time) = .ok timestamp) :
    read (.record [("id", .text id.text), ("command", .text command), ("result", .text result),
      ("type", .text kind.text), ("timestamp", .text time)]) =
      .ok ⟨id, command, result, kind, timestamp⟩ := by
  simp [read, Field.members, Field.required, Field.optional, Field.find?, Value.lookup?,
    List.lookup_cons, Checked.within, Checked.and, Checked.map, instant]

theorem read_toValue {e : CommandEntry} (h : e.Storable) : read e.toValue = .ok e :=
  read_fields (Field.instant_recordText h)

theorem readable_toValue (d : Json.Dialect) {depth : Nat} (e : CommandEntry)
    (h : depth < d.depthLimit) : Json.Readable d depth e.toValue := by
  simp [toValue, Json.Readable, Json.ReadableMembers, h]

end CommandEntry

namespace QueuedEmail

def Storable (e : QueuedEmail) : Prop := e.createdAt.offset.IsWholeMinutes

theorem read_fields {id : Id} {subject body time : String} {createdAt : Instant} {sent : Bool}
    (instant : Field.instant (.text time) = .ok createdAt) :
    read (.record [("id", .text id.text), ("subject", .text subject), ("body", .text body),
      ("createdAt", .text time), ("sent", .bool sent)]) =
      .ok ⟨id, subject, body, createdAt, sent⟩ := by
  simp [read, Field.members, Field.required, Field.optional, Field.find?, Value.lookup?,
    List.lookup_cons, Checked.within, Checked.and, Checked.map, instant]

theorem read_toValue {e : QueuedEmail} (h : e.Storable) : read e.toValue = .ok e :=
  read_fields (Field.instant_recordText h)

theorem readable_toValue (d : Json.Dialect) {depth : Nat} (e : QueuedEmail)
    (h : depth < d.depthLimit) : Json.Readable d depth e.toValue := by
  simp [toValue, Json.Readable, Json.ReadableMembers, h]

end QueuedEmail

namespace Collection

theorem key_injective : Function.Injective key := by
  intro c c' same
  cases c <;> cases c' <;> first | rfl | exact absurd same (by decide)

/-- Contents whose text can be read back. -/
def Storable : (c : Collection) → c.Content → Prop
  | .features, items => ∀ f ∈ items, f.Storable
  | .gpsLogs, items => ∀ e ∈ items, e.Storable
  | .photoLogs, items => ∀ e ∈ items, e.Storable
  | .commandLogs, items => ∀ e ∈ items, e.Storable
  | .emailQueue, items => ∀ e ∈ items, e.Storable
  | .emailAddress, _ => True

theorem readableItems_map {α : Type} {d : Json.Dialect} {depth : Nat} {toValue : α → Value}
    {items : List α} (h : ∀ a ∈ items, Json.Readable d depth (toValue a)) :
    Json.ReadableItems d depth (items.map toValue) := by
  induction items with
  | nil => trivial
  | cons a items ih =>
    exact ⟨h a List.mem_cons_self, ih fun b hb => h b (List.mem_cons_of_mem a hb)⟩

theorem readable_toValue (d : Json.Dialect) (c : Collection) {content : c.Content}
    (h : c.Storable content) : Json.Readable d 0 (c.toValue content) := by
  have outer : 0 < d.depthLimit := by cases d <;> decide
  have inner : 1 < d.depthLimit := by cases d <;> decide
  cases c with
  | features =>
    exact ⟨outer, readableItems_map fun f _ => f.readable_toValue d inner⟩
  | gpsLogs =>
    exact ⟨outer, readableItems_map fun e he => GpsEntry.readable_toValue d (h e he) inner⟩
  | photoLogs => exact ⟨outer, readableItems_map fun e _ => e.readable_toValue d inner⟩
  | commandLogs => exact ⟨outer, readableItems_map fun e _ => e.readable_toValue d inner⟩
  | emailQueue => exact ⟨outer, readableItems_map fun e _ => e.readable_toValue d inner⟩
  | emailAddress => trivial

theorem read_toValue (c : Collection) {content : c.Content} (h : c.Storable content) :
    c.read .stored (c.toValue content) = .ok content := by
  cases c with
  | features => exact Field.list_map fun f hf => Feature.read_toValue (h f hf)
  | gpsLogs => exact Field.list_map fun e he => GpsEntry.read_toValue (h e he)
  | photoLogs => exact Field.list_map fun e he => PhotoEntry.read_toValue (h e he)
  | commandLogs => exact Field.list_map fun e he => CommandEntry.read_toValue (h e he)
  | emailQueue => exact Field.list_map fun e he => QueuedEmail.read_toValue (h e he)
  | emailAddress => rfl

end Collection

/-- The text a collection is stored as holds that collection. -/
theorem Archive.decode_encode (c : Collection) {content : c.Content} (h : c.Storable content) :
    Archive.decode c (Archive.encode c content) = .ok content := by
  have json (d : Json.Dialect) : Json.read d (encode c content) = .ok (c.toValue content) :=
    Json.read_write d (c.readable_toValue d h)
  have value := c.read_toValue h
  cases c with
  | emailAddress =>
    simp only [decode, decodeAddress, json]
    rfl
  | _ => simp only [decode, decodeRecords, json, value, ofChecked]

end ControlPanel
