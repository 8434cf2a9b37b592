import ControlPanel.Archive
import ControlPanel.Proofs.JsonGrammar
import Mathlib.Data.List.Forall2

/-!
# Records of newer versions

A newer version may keep members in a record that are not known here, or keep a field under both of
its names. A stored collection is read as if these members were not there, or refused as it would be
without them.
-/
namespace ControlPanel

theorem Value.lookup?_insert {name other : String} (apart : name ≠ other)
    (before after : List (String × Value)) (v : Value) :
    lookup? (before ++ (other, v) :: after) name = lookup? (before ++ after) name := by
  have passed : (name == other) = false := beq_false_of_ne apart
  simp [lookup?, List.lookup_append, List.lookup_cons, passed]

theorem Value.lookup?_of_mem {members : List (String × Value)} {name : String}
    (present : name ∈ members.map Prod.fst) : ∃ v, lookup? members name = some v := by
  obtain ⟨member, among, rfl⟩ := List.mem_map.mp present
  apply Option.isSome_iff_exists.mp
  rw [lookup?, List.lookup_isSome_iff]
  exact ⟨member, List.mem_reverse.mpr among, beq_self_eq_true _⟩

section Find

variable {m m' : List (String × Value)} {names : List String}

theorem Field.find?_cons (name : String) : find? m (name :: names) =
    match Value.lookup? m name with
    | some v => some (name, v)
    | none => find? m names := by
  rw [find?, List.findSome?_cons]
  cases Value.lookup? m name <;> rfl

theorem Field.find?_congr
    (same : ∀ name ∈ names, Value.lookup? m' name = Value.lookup? m name) :
    find? m' names = find? m names := by
  induction names with
  | nil => rfl
  | cons name names ih =>
    have first := same name List.mem_cons_self
    have others := ih fun name among => same name (List.mem_cons_of_mem _ among)
    rw [find?_cons, find?_cons, first, others]

/-- Other names do not count where a field is present under its own. -/
theorem Field.find?_own {name : String} (present : name ∈ m.map Prod.fst) :
    find? m (name :: names) = find? m [name] := by
  obtain ⟨v, found⟩ := Value.lookup?_of_mem present
  rw [find?_cons, find?_cons, found]

end Find

namespace Collection

def otherName? : Collection → String → Option String
  | .features, "addedAt" => some "added_at"
  | .commandLogs, "type" => some "kind"
  | .emailQueue, "createdAt" => some "created_at"
  | _, _ => none

def names (c : Collection) (field : String) : List String :=
  field :: (c.otherName? field).toList

def IsKnown (c : Collection) (name : String) : Prop :=
  ∃ field ∈ c.fieldNames, name ∈ c.names field

instance (c : Collection) (name : String) : Decidable (c.IsKnown name) :=
  inferInstanceAs (Decidable (∃ field ∈ c.fieldNames, name ∈ c.names field))

/-- A member of that name is not looked at in a record in which these names are present. -/
inductive Ignores (c : Collection) (present : List String) (name : String) : Prop where
  | unknown (new : ¬ c.IsKnown name)
  | beside {field : String} (own : field ∈ present) (other : c.otherName? field = some name)

def Agree (c : Collection) (m m' : List (String × Value)) : Prop :=
  ∀ field ∈ c.fieldNames, Field.find? m' (c.names field) = Field.find? m (c.names field)

variable {c : Collection} {field name : String}

theorem otherName_cases (other : c.otherName? field = some name) :
    (c = .features ∧ field = "addedAt" ∧ name = "added_at") ∨
      (c = .commandLogs ∧ field = "type" ∧ name = "kind") ∨
      (c = .emailQueue ∧ field = "createdAt" ∧ name = "created_at") := by
  unfold otherName? at other
  split at other
  · cases other
    exact .inl ⟨rfl, rfl, rfl⟩
  · cases other
    exact .inr (.inl ⟨rfl, rfl, rfl⟩)
  · cases other
    exact .inr (.inr ⟨rfl, rfl, rfl⟩)
  · cases other

/-- No two fields share a name. -/
theorem field_of_otherName (other : c.otherName? field = some name) :
    name ≠ field ∧ ∀ field' ∈ c.fieldNames, name ∈ c.names field' → field' = field := by
  rcases otherName_cases other with ⟨rfl, rfl, rfl⟩ | ⟨rfl, rfl, rfl⟩ | ⟨rfl, rfl, rfl⟩
  · decide
  · decide
  · decide

theorem Agree.refl (c : Collection) (m : List (String × Value)) : c.Agree m m := by
  intro field _
  rfl

theorem Agree.trans {a b d : List (String × Value)} (h : c.Agree a b) (h' : c.Agree b d) :
    c.Agree a d := by
  intro field known
  rw [h' field known, h field known]

theorem Ignores.agree {before after : List (String × Value)} (v : Value)
    (ignored : c.Ignores ((before ++ after).map Prod.fst) name) :
    c.Agree (before ++ after) (before ++ (name, v) :: after) := by
  intro field known
  have elsewhere (absent : name ∉ c.names field) :
      Field.find? (before ++ (name, v) :: after) (c.names field) =
        Field.find? (before ++ after) (c.names field) := by
    apply Field.find?_congr
    intro wanted among
    apply Value.lookup?_insert
    rintro rfl
    exact absent among
  cases ignored with
  | unknown new =>
    apply elsewhere
    intro among
    exact new ⟨field, known, among⟩
  | @beside field' own other =>
    obtain ⟨apart, alone⟩ := field_of_otherName other
    by_cases same : field = field'
    · subst same
      have still : field ∈ (before ++ (name, v) :: after).map Prod.fst := by
        rw [List.map_append, List.mem_append] at own ⊢
        exact own.imp id (List.mem_cons_of_mem _)
      rw [names, Field.find?_own own, Field.find?_own still]
      apply Field.find?_congr
      intro wanted among
      rw [List.mem_singleton.mp among]
      exact Value.lookup?_insert apart.symm before after v
    · apply elsewhere
      intro among
      exact same (alone field known among)

end Collection

section Read

variable {m m' : List (String × Value)}

theorem Collection.Agree.find? {c : Collection} (h : c.Agree m m') :
    ∀ names ∈ c.fieldNames.map c.names, Field.find? m' names = Field.find? m names :=
  List.forall_mem_map.mpr h

theorem Feature.read_agree (h : Collection.features.Agree m m') :
    read (.record m') = read (.record m) := by
  have fields : ∀ names ∈ [["id"], ["name"], ["description"], ["category"], ["enabled"],
      ["addedAt", "added_at"]], Field.find? m' names = Field.find? m names := h.find?
  simp only [List.forall_mem_cons] at fields
  obtain ⟨id, name, description, category, enabled, addedAt, -⟩ := fields
  simp only [read, Field.members, Field.required, Field.optional, id, name, description, category,
    enabled, addedAt]

theorem GpsEntry.read_agree (origin : Origin) (h : Collection.gpsLogs.Agree m m') :
    read origin (.record m') = read origin (.record m) := by
  have fields : ∀ names ∈ [["id"], ["lat"], ["lng"], ["accuracy"], ["timestamp"]],
      Field.find? m' names = Field.find? m names := h.find?
  simp only [List.forall_mem_cons] at fields
  obtain ⟨id, lat, lng, accuracy, timestamp, -⟩ := fields
  simp only [read, Field.members, Field.required, Field.optional, id, lat, lng, accuracy,
    timestamp]

theorem PhotoEntry.read_agree (h : Collection.photoLogs.Agree m m') :
    read (.record m') = read (.record m) := by
  have fields : ∀ names ∈ [["id"], ["uri"], ["timestamp"]],
      Field.find? m' names = Field.find? m names := h.find?
  simp only [List.forall_mem_cons] at fields
  obtain ⟨id, uri, timestamp, -⟩ := fields
  simp only [read, Field.members, Field.required, id, uri, timestamp]

theorem CommandEntry.read_agree (h : Collection.commandLogs.Agree m m') :
    read (.record m') = read (.record m) := by
  have fields : ∀ names ∈ [["id"], ["command"], ["result"], ["type", "kind"], ["timestamp"]],
      Field.find? m' names = Field.find? m names := h.find?
  simp only [List.forall_mem_cons] at fields
  obtain ⟨id, command, result, kind, timestamp, -⟩ := fields
  simp only [read, Field.members, Field.required, Field.optional, id, command, result, kind,
    timestamp]

theorem QueuedEmail.read_agree (h : Collection.emailQueue.Agree m m') :
    read (.record m') = read (.record m) := by
  have fields : ∀ names ∈ [["id"], ["subject"], ["body"], ["createdAt", "created_at"], ["sent"]],
      Field.find? m' names = Field.find? m names := h.find?
  simp only [List.forall_mem_cons] at fields
  obtain ⟨id, subject, body, createdAt, sent, -⟩ := fields
  simp only [read, Field.members, Field.required, Field.optional, id, subject, body, createdAt,
    sent]

theorem Checked.items_congr {α β : Type} {read : β → Checked α} {bs bs' : List β}
    (h : List.Forall₂ (fun b b' => read b' = read b) bs bs') (index : Nat) :
    items read index bs' = items read index bs := by
  induction h generalizing index with
  | nil => rfl
  | cons same _ ih => rw [items, items, same, ih]

inductive Collection.SameRecord (c : Collection) : Value → Value → Prop where
  | of_agree {m m' : List (String × Value)} (h : c.Agree m m') :
      SameRecord c (.record m) (.record m')

theorem Collection.list_same {α : Type} {c : Collection} {read : Value → Checked α}
    (own : ∀ {m m'}, c.Agree m m' → read (.record m') = read (.record m))
    {items items' : List Value} (same : List.Forall₂ c.SameRecord items items') :
    Field.list read (.list items') = Field.list read (.list items) := by
  apply Checked.items_congr
  apply same.imp
  rintro _ _ ⟨h⟩
  exact own h

theorem Collection.read_same {c : Collection} (records : c ≠ .emailAddress) (origin : Origin)
    {items items' : List Value} (same : List.Forall₂ c.SameRecord items items') :
    c.read origin (.list items') = c.read origin (.list items) := by
  cases c with
  | features => exact list_same Feature.read_agree same
  | gpsLogs => exact list_same (GpsEntry.read_agree origin) same
  | photoLogs => exact list_same PhotoEntry.read_agree same
  | commandLogs => exact list_same CommandEntry.read_agree same
  | emailQueue => exact list_same QueuedEmail.read_agree same
  | emailAddress => exact absurd rfl records

end Read

namespace Archive

open Json

def writtenNames (members : List (Name × Tree × Gap)) : List String :=
  members.filterMap fun (name, _, _) => name.text?

/-- Members and more of them, put in at any places. Each that is put in can be read inside the
brackets of its record and of the array, and is not looked at where it stands. -/
inductive Joined (c : Collection) (members : List (Name × Tree × Gap)) :
    List (Name × Tree × Gap) → Prop where
  | none : Joined c members members
  | put {before after : List (Name × Tree × Gap)} {name : Name} {value : Tree} {text : String}
      {v : Value} (h : Joined c members (before ++ after)) (named : name.text? = some text)
      (meant : value.value? 2 = some v) (ignored : c.Ignores (writtenNames (before ++ after)) text)
      (gap : Gap) : Joined c members (before ++ (name, value, gap) :: after)

/-- An object in an array, and the same object with more members. -/
inductive Newer (c : Collection) : Gap × Tree × Gap → Gap × Tree × Gap → Prop where
  | object {members members' : List (Name × Tree × Gap)} (h : Joined c members members')
      (before inner after before' inner' after' : Gap) :
      Newer c (before, .object inner members, after) (before', .object inner' members', after')

variable {c : Collection} {members members' : List (Name × Tree × Gap)}

theorem memberValues_append (depth : Nat) (before after : List (Name × Tree × Gap)) :
    Tree.memberValues? depth (before ++ after) =
      (Tree.memberValues? depth before).bind fun m =>
        (Tree.memberValues? depth after).map (m ++ ·) := by
  induction before with
  | nil =>
    rw [List.nil_append, Tree.memberValues?, Option.bind_some]
    cases Tree.memberValues? depth after <;> rfl
  | cons member before ih =>
    obtain ⟨name, value, gap⟩ := member
    rw [List.cons_append]
    rcases Tree.meant_or_refused depth name value with none_meant | ⟨text, v, named, meant⟩
    · rw [Tree.memberValues_refused none_meant, Tree.memberValues_refused none_meant]
      rfl
    · rw [Tree.memberValues_cons named meant, Tree.memberValues_cons named meant, ih]
      cases Tree.memberValues? depth before with
      | none => rfl
      | some m => cases Tree.memberValues? depth after <;> rfl

theorem writtenNames_of_meant {depth : Nat} {m : List (String × Value)}
    (meant : Tree.memberValues? depth members = some m) :
    writtenNames members = m.map Prod.fst := by
  induction members generalizing m with
  | nil =>
    cases meant
    rfl
  | cons member members ih =>
    obtain ⟨name, value, gap⟩ := member
    rcases Tree.meant_or_refused depth name value with none_meant | ⟨text, v, named, first⟩
    · rw [Tree.memberValues_refused none_meant] at meant
      cases meant
    · rw [Tree.memberValues_cons named first] at meant
      obtain ⟨others, rest, rfl⟩ := Option.map_eq_some_iff.mp meant
      rw [List.map_cons, ← ih rest]
      exact List.filterMap_cons_some named

/-- What is put in changes neither whether the members can be read nor what they give. -/
theorem Joined.agree (h : Joined c members members') :
    Option.Rel c.Agree (Tree.memberValues? 2 members) (Tree.memberValues? 2 members') := by
  induction h with
  | none =>
    cases Tree.memberValues? 2 members with
    | none => exact .none
    | some m => exact .some (.refl c m)
  | @put before after name value text v _ named meant ignored gap ih =>
    rw [memberValues_append, Tree.memberValues_cons named meant]
    cases first : Tree.memberValues? 2 before with
    | none =>
      rw [memberValues_append, first] at ih
      exact ih
    | some a =>
      cases second : Tree.memberValues? 2 after with
      | none =>
        rw [memberValues_append, first, second] at ih
        exact ih
      | some b =>
        have both : Tree.memberValues? 2 (before ++ after) = some (a ++ b) := by
          rw [memberValues_append, first, second]
          rfl
        rw [writtenNames_of_meant both] at ignored
        rw [both] at ih
        generalize Tree.memberValues? 2 members = base? at ih
        cases ih with
        | some earlier => exact .some (earlier.trans (ignored.agree v))

theorem object_value (inner : Gap) (members : List (Name × Tree × Gap)) :
    (Tree.object inner members).value? 1 = (Tree.memberValues? 2 members).map .record := by
  have near : 1 < Dialect.strict.depthLimit := by decide
  rw [Tree.value?]
  simp only [near, decide_true, Bool.or_true, if_true]

theorem array_value (inner : Gap) (items : List (Gap × Tree × Gap)) :
    (Tree.array inner items).value? 0 = (Tree.itemValues? 1 items).map .list := by
  have near : 0 < Dialect.strict.depthLimit := by decide
  rw [Tree.value?]
  simp only [near, decide_true, Bool.or_true, if_true]

theorem itemValues_newer {items items' : List (Gap × Tree × Gap)}
    (newer : List.Forall₂ (Newer c) items items') :
    Option.Rel (List.Forall₂ c.SameRecord) (Tree.itemValues? 1 items)
      (Tree.itemValues? 1 items') := by
  induction newer with
  | nil => exact .some .nil
  | @cons item item' items items' first _ ih =>
    cases first with
    | @object members members' joined before inner after before' inner' after' =>
      have agree := joined.agree
      have value := object_value inner members
      have value' := object_value inner' members'
      generalize Tree.memberValues? 2 members = m? at agree value
      generalize Tree.memberValues? 2 members' = m'? at agree value'
      cases agree with
      | none =>
        rw [Tree.itemValues_refused value, Tree.itemValues_refused value']
        exact .none
      | some agree =>
        rw [Tree.itemValues_cons value, Tree.itemValues_cons value']
        generalize Tree.itemValues? 1 items = vs? at ih
        generalize Tree.itemValues? 1 items' = vs'? at ih
        cases ih with
        | none => exact .none
        | some others => exact .some (.cons (.of_agree agree) others)

theorem decode_records {c : Collection} (records : c ≠ .emailAddress) (text : String) :
    decode c text = decodeRecords c text := by
  cases c with
  | emailAddress => exact absurd rfl records
  | _ => rfl

/-- A stored array of records gives the same with members that are not looked at put into its
records, also if it is refused. -/
theorem decode_newer (records : c ≠ .emailAddress) {items items' : List (Gap × Tree × Gap)}
    (newer : List.Forall₂ (Newer c) items items')
    (before inner after before' inner' after' : Gap) :
    decode c (document before' (.array inner' items') after') =
      decode c (document before (.array inner items) after) := by
  have same := itemValues_newer newer
  rw [decode_records records, decode_records records, decodeRecords, decodeRecords, read_document,
    read_document, array_value, array_value]
  generalize Tree.itemValues? 1 items = vs? at same
  generalize Tree.itemValues? 1 items' = vs'? at same
  cases same with
  | none => rfl
  | some same =>
    have alike := Collection.read_same records .stored same
    simp only [Option.map_some, alike]

def textMember (name text : String) : Name × Tree × Gap :=
  (.plain name, .text (Glyph.spell text), .empty)

def commandMembers : List (Name × Tree × Gap) :=
  [textMember "id" "c1", textMember "command" "status", textMember "result" "ok",
    textMember "type" "error", textMember "timestamp" "2026-01-01T00:00:00Z"]

def newerCommandMembers : List (Name × Tree × Gap) :=
  [textMember "id" "c1", (.plain "kind", .array .empty [], .empty), textMember "command" "status",
    textMember "result" "ok", textMember "type" "error",
    textMember "timestamp" "2026-01-01T00:00:00Z", textMember "deviceName" "pixel"]

def textOf (members : List (Name × Tree × Gap)) : String :=
  document .empty (.array .empty [(.empty, .object .empty members, .empty)]) .empty

example : textOf newerCommandMembers =
    "[\x7b\"id\":\"c1\",\"kind\":[],\"command\":\"status\",\"result\":\"ok\",\"type\":\"error\"," ++
      "\"timestamp\":\"2026-01-01T00:00:00Z\",\"deviceName\":\"pixel\"\x7d]" := by
  decide +kernel

theorem joined_newerCommandMembers :
    Joined .commandLogs commandMembers newerCommandMembers := by
  have start : Joined .commandLogs commandMembers (commandMembers ++ []) := by
    rw [List.append_nil]
    exact .none
  have device : Joined .commandLogs commandMembers
      ([textMember "id" "c1"] ++ (commandMembers.tail ++ [textMember "deviceName" "pixel"])) :=
    start.put (show _ = some "deviceName" from rfl) (show _ = some (.text "pixel") from rfl)
      (.unknown (by decide)) .empty
  have kind : (Name.plain "kind").text? = some "kind" := rfl
  have value : Tree.value? 2 (.array .empty []) = some (.list []) := rfl
  have type : "type" ∈ writtenNames
      ([textMember "id" "c1"] ++ (commandMembers.tail ++ [textMember "deviceName" "pixel"])) := by
    decide +kernel
  exact device.put kind value (.beside type rfl) .empty

theorem decode_newer_command :
    (decode .commandLogs (textOf commandMembers)).isOk = true ∧
      decode .commandLogs (textOf newerCommandMembers) =
        decode .commandLogs (textOf commandMembers) := by
  constructor
  · decide +kernel
  · apply decode_newer
    · decide
    · have newer := joined_newerCommandMembers
      exact .cons (.object newer .empty .empty .empty .empty .empty .empty) .nil

end Archive

end ControlPanel
