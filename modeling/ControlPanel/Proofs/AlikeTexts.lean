import ControlPanel.Proofs.AlikeStores
import ControlPanel.Proofs.ArchiveText
import ControlPanel.Storage

/-!
# Texts that differ in secrets

The texts of two contents that differ in secrets alone are equally long, are read back as such
contents, and are announced by the same debug line.
-/
namespace ControlPanel

namespace Json

theorem length_intercalate_eq {as bs : List (List Char)}
    (h : as.map List.length = bs.map List.length) :
    ([','].intercalate as).length = ([','].intercalate bs).length := by
  have total (parts : List (List Char)) : ([','].intercalate parts).length =
      (parts.map List.length).sum + (parts.length - 1) := by
    induction parts with
    | nil => rfl
    | cons first rest ih =>
      cases rest with
      | nil => simp
      | cons second rest =>
        rw [length_intercalate, ih]
        simp only [List.map_cons, List.sum_cons, List.length_cons]
        omega
  have count : as.length = bs.length := by simpa using congrArg List.length h
  rw [total, total, h, count]

theorem length_list {as bs : List Value}
    (h : as.map (fun v => (chars v).length) = bs.map fun v => (chars v).length) :
    (chars (.list as)).length = (chars (.list bs)).length := by
  have parts (items : List Value) :
      (charsOfItems items).map List.length = items.map fun v => (chars v).length := by
    induction items with
    | nil => rfl
    | cons item rest ih => simp only [charsOfItems, List.map_cons, ih]
  have same := length_intercalate_eq (((parts as).trans h).trans (parts bs).symm)
  simp only [chars_list, List.length_cons, List.length_append, same]

/-- The length of a record depends on its names and on the lengths of its values. -/
theorem length_record {as bs : List (String × Value)}
    (h : List.Forall₂ (fun a b => a.1 = b.1 ∧ (chars a.2).length = (chars b.2).length) as bs) :
    (chars (.record as)).length = (chars (.record bs)).length := by
  have parts : (charsOfMembers as).map List.length = (charsOfMembers bs).map List.length := by
    induction h with
    | nil => rfl
    | @cons a b as bs first _ ih =>
      obtain ⟨name, v⟩ := a
      obtain ⟨name', v'⟩ := b
      obtain ⟨rfl, same⟩ := first
      simp only [charsOfMembers, List.map_cons, ih, List.length_cons, List.length_append, same]
  simp only [chars_record, List.length_cons, List.length_append, length_intercalate_eq parts]

end Json

theorem Redaction.length_escape_veil (s : String) :
    (Json.escape (veil s).toList).length = (Json.escape s.toList).length := by
  have stars (n : Nat) : Json.escape (List.replicate n '*') = List.replicate n '*' := by
    induction n with
    | zero => rfl
    | succ n ih =>
      rw [List.replicate_succ, Json.escape, List.flatMap_cons]
      exact congrArg ('*' :: ·) ih
  rw [veil, String.toList_ofList, stars, List.length_replicate]

theorem Redaction.length_chars_veil (s : String) :
    (Json.chars (.text (veil s))).length = (Json.chars (.text s)).length := by
  simp only [Json.chars_text, List.length_cons, List.length_append, length_escape_veil]

theorem PhotoEntry.length_veil (e : PhotoEntry) :
    (Json.chars e.veil.toValue).length = (Json.chars e.toValue).length := by
  apply Json.length_record
  exact .cons ⟨rfl, rfl⟩ (.cons ⟨rfl, Redaction.length_chars_veil _⟩ (.cons ⟨rfl, rfl⟩ .nil))

theorem QueuedEmail.length_veil (e : QueuedEmail) :
    (Json.chars e.veil.toValue).length = (Json.chars e.toValue).length := by
  apply Json.length_record
  exact .cons ⟨rfl, rfl⟩ (.cons ⟨rfl, rfl⟩ (.cons ⟨rfl, Redaction.length_chars_veil _⟩
    (.cons ⟨rfl, rfl⟩ (.cons ⟨rfl, rfl⟩ .nil))))

theorem Archive.length_encode_veil (c : Collection) (content : c.Content) :
    (encode c (c.veil content)).length = (encode c content).length := by
  have chars (content : c.Content) :
      (encode c content).length = (Json.chars (c.toValue content)).length :=
    (String.length_toList).symm
  rw [chars, chars]
  cases c with
  | photoLogs =>
    apply Json.length_list
    simp [Collection.veil, Collection.records, Function.comp_def, PhotoEntry.length_veil]
  | emailQueue =>
    apply Json.length_list
    simp [Collection.veil, Collection.records, Function.comp_def, QueuedEmail.length_veil]
  | _ => rfl

namespace Checked

theorem items_map {α : Type} {read : Value → Checked α} {toValue : α → Value} {veil : α → α}
    (h : ∀ a, read (toValue (veil a)) = (read (toValue a)).map veil) (index : Nat) (as : List α) :
    items read index ((as.map veil).map toValue) =
      (items read index (as.map toValue)).map (List.map veil) := by
  induction as generalizing index with
  | nil => rfl
  | cons a as ih =>
    simp only [List.map_cons, items, h, ih]
    cases read (toValue a) <;> cases items read (index + 1) (as.map toValue) <;> rfl

end Checked

namespace PhotoEntry

/-- Whether a photo can be read back depends on its time. -/
theorem read_parts (id : Id) (uri time : String) :
    read (.record [("id", .text id.text), ("uri", .text uri), ("timestamp", .text time)]) =
      ((Field.instant (.text time)).within (.key "timestamp")).map fun timestamp =>
        ⟨id, uri, timestamp⟩ := by
  cases instant : Field.instant (.text time) <;>
    simp [read, Field.members, Field.required, Field.find?, Value.lookup?, List.lookup_cons,
      Checked.within, Checked.and, Checked.map, instant]

theorem read_veil (e : PhotoEntry) : read e.veil.toValue = (read e.toValue).map veil := by
  have veiled := read_parts e.id (Redaction.veil e.uri) e.timestamp.recordText
  have plain := congrArg (Checked.map veil) (read_parts e.id e.uri e.timestamp.recordText)
  refine veiled.trans (Eq.trans ?_ plain.symm)
  generalize (Field.instant _).within _ = time
  cases time <;> rfl

end PhotoEntry

namespace QueuedEmail

theorem read_parts (id : Id) (subject body time : String) (sent : Bool) :
    read (.record [("id", .text id.text), ("subject", .text subject), ("body", .text body),
      ("createdAt", .text time), ("sent", .bool sent)]) =
      ((Field.instant (.text time)).within (.key "createdAt")).map fun createdAt =>
        ⟨id, subject, body, createdAt, sent⟩ := by
  cases instant : Field.instant (.text time) <;>
    simp [read, Field.members, Field.required, Field.optional, Field.find?, Value.lookup?,
      List.lookup_cons, Checked.within, Checked.and, Checked.map, instant]

theorem read_veil (e : QueuedEmail) : read e.veil.toValue = (read e.toValue).map veil := by
  have veiled := read_parts e.id e.subject (Redaction.veil e.body) e.createdAt.recordText e.sent
  have plain := congrArg (Checked.map veil)
    (read_parts e.id e.subject e.body e.createdAt.recordText e.sent)
  refine veiled.trans (Eq.trans ?_ plain.symm)
  generalize (Field.instant _).within _ = time
  cases time <;> rfl

end QueuedEmail

namespace Archive

theorem ofChecked_map {α β : Type} (f : α → β) (c : Checked α) :
    ofChecked (c.map f) = (ofChecked c).map f := by
  cases c <;> rfl

theorem decode_encode_veil (c : Collection) (content : c.Content) :
    decode c (encode c (c.veil content)) = (decode c (encode c content)).map c.veil := by
  have same {c : Collection} (content : c.Content) (plain : ∀ content, c.veil content = content) :
      decode c (encode c (c.veil content)) = (decode c (encode c content)).map c.veil := by
    have no_veil : c.veil = id := funext plain
    rw [no_veil, id_eq]
    cases decode c (encode c content) <;> rfl
  cases c with
  | photoLogs =>
    have readable (items : List PhotoEntry) :
        Json.read .strict (encode .photoLogs items) = .ok (.list (items.map PhotoEntry.toValue)) :=
      Json.read_write .strict ⟨by decide, Collection.readableItems_map fun e _ =>
        e.readable_toValue .strict (by decide)⟩
    simp only [decode, decodeRecords, Collection.veil, readable, Collection.read, Field.list,
      Checked.items_map PhotoEntry.read_veil, ofChecked_map]
    rfl
  | emailQueue =>
    have readable (items : List QueuedEmail) : Json.read .strict (encode .emailQueue items) =
        .ok (.list (items.map QueuedEmail.toValue)) :=
      Json.read_write .strict ⟨by decide, Collection.readableItems_map fun e _ =>
        e.readable_toValue .strict (by decide)⟩
    simp only [decode, decodeRecords, Collection.veil, readable, Collection.read, Field.list,
      Checked.items_map QueuedEmail.read_veil, ofChecked_map]
    rfl
  | _ => exact same content fun _ => rfl

/-- Texts of one collection of which the log tells no difference: they are equally long and hold
contents that differ in secrets alone, or fail for the same reason. -/
structure TextsAlike (c : Collection) (text text' : String) : Prop where
  length : text.length = text'.length
  contents : (decode c text).map c.veil = (decode c text').map c.veil

theorem TextsAlike.refl (c : Collection) (text : String) : TextsAlike c text text := ⟨rfl, rfl⟩

theorem textsAlike_encode {c : Collection} {a b : c.Content} (h : c.Alike a b) :
    TextsAlike c (encode c a) (encode c b) := by
  constructor
  · rw [← length_encode_veil c a, ← length_encode_veil c b, h]
  · rw [← decode_encode_veil, ← decode_encode_veil, h]

end Archive

namespace Redaction

variable {limit : Limit} {depth : Nat}

/-- Nothing is shown of a member that is hidden. -/
theorem redactMembers_congr {as bs : List (String × Value)}
    (h : List.Forall₂ (fun a b => a.1 = b.1 ∧
      (hiddenNames.contains (Text.lower a.1) = true ∨ a.2 = b.2)) as bs) :
    redactMembers limit depth as = redactMembers limit depth bs := by
  induction h with
  | nil => rfl
  | @cons a b as bs first _ ih =>
    obtain ⟨name, v⟩ := a
    obtain ⟨name', v'⟩ := b
    obtain ⟨rfl, hidden | rfl⟩ := first
    · dsimp only at hidden
      simp only [redactMembers, hidden, if_true, ih]
    · simp only [redactMembers, ih]

theorem redactRecord_congr {as bs : List (String × Value)}
    (h : List.Forall₂ (fun a b => a.1 = b.1 ∧
      (hiddenNames.contains (Text.lower a.1) = true ∨ a.2 = b.2)) as bs) :
    redactAt limit depth (.record as) = redactAt limit depth (.record bs) := by
  simp only [redactAt, redactMembers_congr h]

theorem redactItems_congr {α : Type} {f g : α → Value}
    (h : ∀ a, redactAt limit depth (f a) = redactAt limit depth (g a)) (others : List Value)
    (as : List α) :
    redactItems limit depth (as.map f ++ others) = redactItems limit depth (as.map g ++ others) := by
  induction as with
  | nil => rfl
  | cons a as ih => simp only [List.map_cons, List.cons_append, redactItems, h, ih]

theorem redactList_congr {α : Type} {f g : α → Value}
    (h : ∀ depth a, redactAt limit depth (f a) = redactAt limit depth (g a)) (count : Nat)
    (others : List Value) (as : List α) :
    redactAt limit depth (.list ((as.map f).take count ++ others)) =
      redactAt limit depth (.list ((as.map g).take count ++ others)) := by
  rw [← List.map_take, ← List.map_take]
  simp only [redactAt, redactItems_congr (h (depth + 1))]

theorem uri_hidden : hiddenNames.contains (Text.lower "uri") = true := by decide

theorem body_hidden : hiddenNames.contains (Text.lower "body") = true := by decide

end Redaction

theorem PhotoEntry.redact_veil (e : PhotoEntry) (limit : Redaction.Limit) (depth : Nat) :
    Redaction.redactAt limit depth e.veil.toValue = Redaction.redactAt limit depth e.toValue := by
  apply Redaction.redactRecord_congr
  exact .cons ⟨rfl, .inr rfl⟩ (.cons ⟨rfl, .inl Redaction.uri_hidden⟩ (.cons ⟨rfl, .inr rfl⟩ .nil))

theorem QueuedEmail.redact_veil (e : QueuedEmail) (limit : Redaction.Limit) (depth : Nat) :
    Redaction.redactAt limit depth e.veil.toValue = Redaction.redactAt limit depth e.toValue := by
  apply Redaction.redactRecord_congr
  exact .cons ⟨rfl, .inr rfl⟩ (.cons ⟨rfl, .inr rfl⟩ (.cons ⟨rfl, .inl Redaction.body_hidden⟩
    (.cons ⟨rfl, .inr rfl⟩ (.cons ⟨rfl, .inr rfl⟩ .nil))))

namespace Storage

theorem queueingNote_veil (c : Collection) (content : c.Content) :
    queueingNote c (preview c (c.veil content)) = queueingNote c (preview c content) := by
  cases c with
  | photoLogs =>
    have hides (depth : Nat) (e : PhotoEntry) :
        Redaction.redactAt Redaction.defaultLimit depth ((PhotoEntry.toValue ∘ .veil) e) =
          Redaction.redactAt Redaction.defaultLimit depth e.toValue := e.redact_veil _ depth
    simp only [queueingNote, preview, Collection.records, Collection.veil, List.map_map,
      List.length_map, Redaction.redact, Redaction.redactList_congr hides]
  | emailQueue =>
    have hides (depth : Nat) (e : QueuedEmail) :
        Redaction.redactAt Redaction.defaultLimit depth ((QueuedEmail.toValue ∘ .veil) e) =
          Redaction.redactAt Redaction.defaultLimit depth e.toValue := e.redact_veil _ depth
    simp only [queueingNote, preview, Collection.records, Collection.veil, List.map_map,
      List.length_map, Redaction.redact, Redaction.redactList_congr hides]
  | _ => rfl

theorem queueingNote_alike {c : Collection} {a b : c.Content} (h : c.Alike a b) :
    queueingNote c (preview c a) = queueingNote c (preview c b) := by
  rw [← queueingNote_veil c a, ← queueingNote_veil c b, h]

end Storage

end ControlPanel
