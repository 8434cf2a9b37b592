import ControlPanel.Proofs.Reloading
import Mathlib.Data.List.Basic
import Mathlib.Data.List.Forall2

/-!
# Identifiers in texts

Every record is stored with its identifier. A text that a content is stored as yields the
identifiers of that content or none at all, whichever collection it is read for.
-/
namespace ControlPanel

def Collection.ids : (c : Collection) → c.Content → List String
  | .features, items => items.map fun f => f.id.text
  | .gpsLogs, items => items.map fun e => e.id.text
  | .photoLogs, items => items.map fun e => e.id.text
  | .commandLogs, items => items.map fun e => e.id.text
  | .emailQueue, items => items.map fun e => e.id.text
  | .emailAddress, _ => []

def Value.idText? (v : Value) : Option String :=
  match (v.get? "id").map Field.spelled with
  | some (.text s) => some s
  | _ => none

theorem Field.id_eq_ok {v : Value} {i : Id} (h : id v = .ok i) : spelled v = .text i.text := by
  unfold id at h
  split at h
  · rename_i s spelling
    obtain same := Checked.ofOption_eq_ok.mp h
    unfold Id.of? at same
    split at same
    · cases same
      exact spelling
    · cases same
  · cases h

theorem Value.Stamped.idText {v : Value} {i : Id} {time : Instant} (h : v.Stamped i time) :
    v.idText? = some i.text := by
  obtain ⟨m, _, rfl, id_read, -⟩ := h
  obtain ⟨name, v, found, read⟩ := Field.required_eq_ok.mp id_read
  obtain ⟨wanted, own, present⟩ := List.exists_of_findSome?_eq_some found
  obtain rfl := List.mem_singleton.mp own
  obtain ⟨v', member, same⟩ := Option.map_eq_some_iff.mp present
  cases same
  simp [idText?, get?, member, Field.id_eq_ok read]

theorem Field.map_of_list {α γ : Type} {read : Value → Checked α} {items : List Value} {as : List α}
    {own : Value → γ} {kept : α → γ} (h : list read (.list items) = .ok as)
    (same : ∀ v a, read v = .ok a → own v = kept a) : items.map own = as.map kept := by
  have each := Checked.forall₂_of_items h
  rw [← List.forall₂_eq_eq_eq, List.forall₂_map_left_iff, List.forall₂_map_right_iff]
  exact each.imp same

/-- A list of records yields the identifiers that they give, or it is no list of that collection. -/
theorem Collection.ids_of_read {c : Collection} {items : List Value} {content : c.Content}
    (h : c.read .stored (.list items) = .ok content) :
    items.map Value.idText? = (c.ids content).map some := by
  cases c with
  | emailAddress => exact nomatch h
  | features =>
    rw [ids, List.map_map]
    exact Field.map_of_list h fun _ _ read => (Feature.stamped_of_read read).idText
  | gpsLogs =>
    rw [ids, List.map_map]
    exact Field.map_of_list h fun _ _ read => (GpsEntry.stamped_of_read read).idText
  | photoLogs =>
    rw [ids, List.map_map]
    exact Field.map_of_list h fun _ _ read => (PhotoEntry.stamped_of_read read).idText
  | commandLogs =>
    rw [ids, List.map_map]
    exact Field.map_of_list h fun _ _ read => (CommandEntry.stamped_of_read read).idText
  | emailQueue =>
    rw [ids, List.map_map]
    exact Field.map_of_list h fun _ _ read => (QueuedEmail.stamped_of_read read).idText

def Collection.shown : (c : Collection) → c.Content → List Value
  | .gpsLogs, items => items.map GpsEntry.shown
  | c, content => c.records content

theorem Collection.idText_shown (c : Collection) (content : c.Content) :
    (c.shown content).map Value.idText? = (c.ids content).map some := by
  cases c with
  | emailAddress => rfl
  | _ => simp only [shown, records, ids, List.map_map]; rfl

namespace Json

/-- Items that are written one after the other can be read, or one of them is refused. -/
theorem readable_or_overlong {d : Dialect} {depth : Nat} {items : List Value}
    (h : ∀ v ∈ items, Readable d depth v ∨ Overlong d depth v) :
    ReadableItems d depth items ∨ OverlongItems d depth items := by
  induction items with
  | nil => exact .inl trivial
  | cons item rest ih =>
    obtain ⟨own, others⟩ := List.forall_mem_cons.mp h
    rcases own with readable | overlong
    · exact (ih others).imp (⟨readable, ·⟩) fun later => .inr ⟨readable, later⟩
    · exact .inr (.inl overlong)

end Json

theorem GpsEntry.readable_or_overlong (d : Json.Dialect) {depth : Nat} (e : GpsEntry)
    (h : depth < d.depthLimit) : Json.Readable d depth e.shown ∨ Json.Overlong d depth e.shown := by
  by_cases short : e.accuracy < 10 ^ digitLimit
  · exact .inl (e.readable_shown d short h)
  · have long : 10 ^ digitLimit ≤ (e.accuracy : Int).natAbs := Nat.not_lt.mp short
    exact .inr (.inr ⟨trivial, .inr ⟨e.lat.readable_shown d _, .inr ⟨e.lng.readable_shown d _,
      .inl long⟩⟩⟩)

theorem Collection.readable_or_overlong (d : Json.Dialect) (c : Collection) (content : c.Content) :
    Json.ReadableItems d 1 (c.shown content) ∨ Json.OverlongItems d 1 (c.shown content) := by
  have inner : 1 < d.depthLimit := by cases d <;> decide
  refine Json.readable_or_overlong fun v hv => ?_
  cases c with
  | features =>
    obtain ⟨f, -, rfl⟩ := List.mem_map.mp hv
    exact .inl (f.readable_toValue d inner)
  | gpsLogs =>
    obtain ⟨e, -, rfl⟩ := List.mem_map.mp hv
    exact e.readable_or_overlong d inner
  | photoLogs =>
    obtain ⟨e, -, rfl⟩ := List.mem_map.mp hv
    exact .inl (e.readable_toValue d inner)
  | commandLogs =>
    obtain ⟨e, -, rfl⟩ := List.mem_map.mp hv
    exact .inl (e.readable_toValue d inner)
  | emailQueue =>
    obtain ⟨e, -, rfl⟩ := List.mem_map.mp hv
    exact .inl (e.readable_toValue d inner)
  | emailAddress => exact nomatch hv

namespace Archive

theorem read_encode_address (d : Json.Dialect) (address : String) :
    Json.read d (encode .emailAddress address) = .ok (.text address) :=
  Json.read_write d (v := .text address) trivial

/-- A stored history is read as its records, or refused. -/
theorem read_encode {c : Collection} (history : c ≠ .emailAddress) (content : c.Content) {v : Value}
    (h : Json.read .strict (encode c content) = .ok v) : v = .list (c.shown content) := by
  have text : encode c content = Json.write (.list (c.shown content)) := by
    cases c with
    | gpsLogs => exact GpsEntry.encode_shown content
    | emailAddress => exact absurd rfl history
    | _ => rfl
  rw [text] at h
  rcases c.readable_or_overlong .strict content with readable | overlong
  · have whole : Json.Readable .strict 0 (.list (c.shown content)) := ⟨by decide, readable⟩
    rw [Json.read_write .strict whole] at h
    exact (Except.ok.inj h).symm
  · have whole : Json.Overlong .strict 0 (.list (c.shown content)) := overlong
    obtain ⟨fault, refused⟩ := Json.read_overlong .strict whole
    rw [refused] at h
    cases h

/-- What the text of a content yields has no other identifiers, whichever collection it is read
for. -/
theorem ids_of_decode_encode {c c' : Collection} {content : c.Content} {content' : c'.Content}
    (h : decode c' (encode c content) = .ok content') :
    (c'.ids content').Sublist (c.ids content) := by
  by_cases history' : c' = .emailAddress
  · subst history'
    exact List.nil_sublist _
  have records : decodeRecords c' (encode c content) = .ok content' := by
    cases c' <;> first | exact h | exact absurd rfl history'
  unfold decodeRecords at records
  split at records
  · rename_i v read
    have value := ofChecked_eq_ok records
    by_cases history : c = .emailAddress
    · subst history
      rw [read_encode_address] at read
      cases read
      cases c' <;> first | exact absurd rfl history' | exact nomatch value
    · obtain rfl := read_encode history content read
      have same := Collection.ids_of_read value
      rw [c.idText_shown] at same
      rw [List.map_injective_iff.mpr (Option.some_injective _) same]
  · cases records

/-- A text from which no content has an identifier twice. -/
def YieldsDistinct (text : String) : Prop :=
  ∀ (c : Collection) content, decode c text = .ok content → (c.ids content).Nodup

theorem yieldsDistinct_encode {c : Collection} {content : c.Content}
    (distinct : (c.ids content).Nodup) : YieldsDistinct (encode c content) :=
  fun _ _ h => (ids_of_decode_encode h).nodup distinct

end Archive

end ControlPanel
