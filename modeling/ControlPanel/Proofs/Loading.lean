import ControlPanel.Engine

/-!
# Loading

A collection that is absent, unreadable or undecodable is left out of the loaded state, and no
other collection is affected. A few stored texts end the loading altogether: an address that is
JSON with a number too long or brackets too deep, and a history with a time so far away that no
clock or calendar reaches it. Loading and starting succeed exactly where none of these is stored.
-/
namespace ControlPanel

namespace Checked

variable {α β : Type}

def Faults (c : Checked α) : Prop :=
  ∃ cause, c = .fault cause

@[simp]
theorem faults_ok (a : α) : (ok a).Faults ↔ False := by simp [Faults]

@[simp]
theorem faults_invalid (errors : List FieldError) : (invalid errors : Checked α).Faults ↔ False := by
  simp [Faults]

@[simp]
theorem faults_fault (cause : InstantFault) : (fault cause : Checked α).Faults ↔ True := by
  simp [Faults]

@[simp]
theorem faults_wrong : (wrong : Checked α).Faults ↔ False := by simp [wrong]

@[simp]
theorem faults_ofOption (a? : Option α) : (ofOption a?).Faults ↔ False := by
  cases a? <;> simp [ofOption]

@[simp]
theorem faults_map (f : α → β) (c : Checked α) : (c.map f).Faults ↔ c.Faults := by
  cases c <;> simp [map]

@[simp]
theorem faults_within (segment : Segment) (c : Checked α) : (c.within segment).Faults ↔ c.Faults := by
  cases c <;> simp [within]

@[simp]
theorem faults_and (c : Checked α) (d : Checked β) : (c.and d).Faults ↔ c.Faults ∨ d.Faults := by
  cases c <;> cases d <;> simp [and]

theorem faults_items (read : β → Checked α) (index : Nat) (values : List β) :
    (items read index values).Faults ↔ ∃ v ∈ values, (read v).Faults := by
  induction values generalizing index with
  | nil => simp [items]
  | cons v rest ih => simp [items, ih]

end Checked

namespace Field

variable {α : Type}

@[simp]
theorem faults_text (v : Value) : (text v).Faults ↔ False := by
  unfold text
  split <;> simp

@[simp]
theorem faults_id (v : Value) : (id v).Faults ↔ False := by
  unfold id
  split <;> simp

@[simp]
theorem faults_bool (v : Value) : (bool v).Faults ↔ False := by
  unfold bool
  split <;> simp

@[simp]
theorem faults_realOfInt (origin : Origin) (n : Int) : (realOfInt origin n).Faults ↔ False := by
  rw [realOfInt]
  cases Binary64.ofInt? n <;> cases origin <;> simp [realOr]

@[simp]
theorem faults_real (origin : Origin) (v : Value) : (real origin v).Faults ↔ False := by
  unfold real
  cases spelled v <;> simp

@[simp]
theorem faults_count (v : Value) : (count v).Faults ↔ False := by
  unfold count
  split <;> try split
  all_goals simp

@[simp]
theorem faults_kind (v : Value) : (CommandKind.read v).Faults ↔ False := by
  unfold CommandKind.read
  split <;> simp

/-- A field ends the reading where the member that it is read from does. -/
theorem faults_required (members : List (String × Value)) (names : List String)
    (read : Value → Checked α) :
    (required members names read).Faults ↔
      ∃ name v, find? members names = some (name, v) ∧ (read v).Faults := by
  unfold required
  split
  · rename_i name v found
    rw [Checked.faults_within, found]
    constructor
    · exact fun h => ⟨name, v, rfl, h⟩
    · rintro ⟨_, _, same, h⟩
      cases same
      exact h
  · rename_i absent
    simp [absent]

theorem faults_optional (members : List (String × Value)) (names : List String)
    (read : Value → Checked α) (default : α) :
    (optional members names read default).Faults ↔
      ∃ name v, find? members names = some (name, v) ∧ (read v).Faults := by
  unfold optional
  split
  · rename_i name v found
    rw [Checked.faults_within, found]
    constructor
    · exact fun h => ⟨name, v, rfl, h⟩
    · rintro ⟨_, _, same, h⟩
      cases same
      exact h
  · rename_i absent
    simp [absent]

theorem faults_members (v : Value) (read : List (String × Value) → Checked α) :
    (members v read).Faults ↔ ∃ fields, v = .record fields ∧ (read fields).Faults := by
  unfold members
  split
  · simp
  · rename_i apart
    simp only [Checked.faults_wrong, false_iff, not_exists, not_and]
    exact fun fields same => absurd same (apart fields)

theorem faults_list (read : Value → Checked α) (v : Value) :
    (list read v).Faults ↔ ∃ items, v = .list items ∧ ∃ item ∈ items, (read item).Faults := by
  unfold list
  split
  · simp [Checked.faults_items]
  · rename_i apart
    simp only [Checked.faults_wrong, false_iff, not_exists, not_and]
    exact fun items same => absurd same (apart items)

end Field

def BeyondSeconds (seconds : Int) : Prop :=
  seconds < -Instant.clockLimit ∨ Instant.clockLimit < seconds ∨
    Date.yearOf (719162 + seconds / 86400) - 1900 < -Instant.yearLimit ∨
    Instant.yearLimit ≤ Date.yearOf (719162 + seconds / 86400) - 1900

def BeyondRealSeconds : Binary64 → Prop
  | .nan => False
  | .infinite _ => True
  | .finite negative size => BeyondSeconds (Instant.splitSeconds negative size).1

/-- A number that stands for a time out of reach: as a double it counts seconds, or milliseconds,
too far from 1970, or it is too large for a double. -/
def BeyondTime : Value → Prop
  | .int n => ∀ x, Binary64.ofInt? n = some x → BeyondRealSeconds (Instant.toSeconds x)
  | .real x => BeyondRealSeconds (Instant.toSeconds x)
  | _ => False

theorem faults_ofInstant (read : Except InstantFault Instant) :
    (Field.ofInstant read).Faults ↔ ∃ cause, read = .error cause ∧ cause.isInvalid = false := by
  cases read with
  | ok i => simp [Field.ofInstant]
  | error cause => cases h : cause.isInvalid <;> simp [Field.ofInstant, Field.ofInstantFault, h]

theorem faults_ofSeconds (seconds micros : Int) :
    (Field.ofInstant (Instant.ofSeconds seconds micros)).Faults ↔ BeyondSeconds seconds := by
  rw [faults_ofInstant, Instant.ofSeconds, BeyondSeconds]
  split
  · rename_i far
    exact ⟨fun _ => by omega, fun _ => ⟨_, rfl, rfl⟩⟩
  · rename_i near
    dsimp only
    split
    · rename_i far
      exact ⟨fun _ => by omega, fun _ => ⟨_, rfl, rfl⟩⟩
    · rename_i close
      refine ⟨?_, fun beyond => by omega⟩
      rintro ⟨cause, failed, severe⟩
      split at failed
      · cases failed
      · cases failed
        cases severe

theorem faults_ofReal (x : Binary64) :
    (Field.ofInstant (Instant.ofReal x)).Faults ↔ BeyondRealSeconds (Instant.toSeconds x) := by
  rw [Instant.ofReal]
  cases Instant.toSeconds x with
  | nan => simp [Instant.ofRealSeconds, BeyondRealSeconds, faults_ofInstant, InstantFault.isInvalid]
  | infinite negative =>
    simp [Instant.ofRealSeconds, BeyondRealSeconds, faults_ofInstant, InstantFault.isInvalid]
  | finite negative size => exact faults_ofSeconds ..

theorem faults_ofInt (n : Int) :
    (Field.ofInstant (Instant.ofInt n)).Faults ↔ BeyondTime (.int n) := by
  rw [Instant.ofInt, BeyondTime]
  cases Binary64.ofInt? n with
  | none => simp [Instant.ofReal?, faults_ofInstant, InstantFault.isInvalid]
  | some x => simp [Instant.ofReal?, faults_ofReal]

theorem faults_instant (v : Value) : (Field.instant v).Faults ↔ BeyondTime v := by
  cases v with
  | int n => exact faults_ofInt n
  | real x => exact faults_ofReal x
  | bytes b =>
    simp only [Field.instant, Field.spelled, BeyondTime]
    cases String.fromUTF8? ⟨b.toArray⟩ <;> simp
  | _ => simp [Field.instant, Field.spelled, BeyondTime]

def timeNames : Collection → List String
  | .features => ["addedAt", "added_at"]
  | .emailQueue => ["createdAt", "created_at"]
  | .emailAddress => []
  | _ => ["timestamp"]

theorem faults_read (c : Collection) (origin : Origin) (v : Value) :
    (c.read origin v).Faults ↔ ∃ items members name time, v = .list items ∧
      .record members ∈ items ∧ Field.find? members (timeNames c) = some (name, time) ∧
        BeyondTime time := by
  have whole {α : Type} (read : Value → Checked α)
      (each : ∀ item, (read item).Faults ↔ ∃ members, item = .record members ∧
        ∃ name time, Field.find? members (timeNames c) = some (name, time) ∧ BeyondTime time) :
      (Field.list read v).Faults ↔ ∃ items members name time, v = .list items ∧
        .record members ∈ items ∧ Field.find? members (timeNames c) = some (name, time) ∧
          BeyondTime time := by
    rw [Field.faults_list]
    constructor
    · rintro ⟨items, hv, item, hi, h⟩
      obtain ⟨members, rfl, name, time, found, beyond⟩ := (each item).mp h
      exact ⟨items, members, name, time, hv, hi, found, beyond⟩
    · rintro ⟨items, members, name, time, hv, hi, found, beyond⟩
      exact ⟨items, hv, _, hi, (each _).mpr ⟨members, rfl, name, time, found, beyond⟩⟩
  cases c with
  | emailAddress => simp [Collection.read, timeNames, Field.find?]
  | _ =>
    refine whole _ fun item => ?_
    simp [Feature.read, GpsEntry.read, PhotoEntry.read, CommandEntry.read, QueuedEmail.read,
      Field.faults_members, Field.faults_required, Field.faults_optional, faults_instant, timeNames]

/-- A stored text that ends the loading of all collections. -/
def Escapes : Collection → String → Prop
  | .emailAddress, text => ∃ fault, Json.read .open text = .error fault ∧ fault ≠ .malformed
  | c, text => ∃ items members name time, Json.read .strict text = .ok (.list items) ∧
      .record members ∈ items ∧ Field.find? members (timeNames c) = some (name, time) ∧
        BeyondTime time

namespace Archive

theorem ofChecked_uncontained {α : Type} (c : Checked α) :
    (∃ fault, ofChecked c = .error fault ∧ fault.isContained = false) ↔ c.Faults := by
  cases c <;> simp [ofChecked, ReadFault.isContained]

theorem decodeAddress_uncontained (text : String) :
    (∃ fault, decodeAddress text = .error fault ∧ fault.isContained = false) ↔
      Escapes .emailAddress text := by
  unfold decodeAddress Escapes
  split <;> rename_i read <;> simp [read, ReadFault.isContained]

theorem decodeRecords_uncontained (c : Collection) (text : String) :
    (∃ fault, decodeRecords c text = .error fault ∧ fault.isContained = false) ↔
      ∃ items members name time, Json.read .strict text = .ok (.list items) ∧
        .record members ∈ items ∧ Field.find? members (timeNames c) = some (name, time) ∧
          BeyondTime time := by
  unfold decodeRecords
  split
  · rename_i v read
    rw [ofChecked_uncontained, faults_read, read]
    simp only [Except.ok.injEq]
  · rename_i fault read
    simp [read, ReadFault.isContained]

theorem decode_uncontained (c : Collection) (text : String) :
    (∃ fault, decode c text = .error fault ∧ fault.isContained = false) ↔ Escapes c text := by
  cases c with
  | emailAddress => exact decodeAddress_uncontained text
  | _ => exact decodeRecords_uncontained _ text

end Archive

namespace Storage

variable {μ : Type} [Medium μ]

/-- What the text under a key holds by itself. -/
def stored? (medium : μ) (c : Collection) : Option c.Content :=
  match Medium.read medium c.key with
  | .ok (some text) => (Archive.decode c text).toOption
  | _ => none

def error? (medium : μ) (c : Collection) : Option String :=
  match Medium.read medium c.key with
  | .error fault => some fault.text
  | .ok none => none
  | .ok (some text) =>
    match Archive.decode c text with
    | .ok _ => none
    | .error fault => some (fault.message c)

def Contained (medium : μ) (c : Collection) : Prop :=
  ∀ text, Medium.read medium c.key = .ok (some text) → ¬Escapes c text

theorem find_contained {medium : μ} {c : Collection} (h : Contained medium c) :
    ∃ found, find medium c = .ok found ∧ found.content? = stored? medium c ∧
      found.error? = (error? medium c).map (c, ·) := by
  simp only [find, stored?, error?]
  cases read : Medium.read medium c.key with
  | error fault => exact ⟨_, rfl, rfl, rfl⟩
  | ok text? =>
    cases text? with
    | none => exact ⟨_, rfl, rfl, rfl⟩
    | some text =>
      have no_escape := mt (Archive.decode_uncontained c text).mp (h text read)
      cases decoded : Archive.decode c text with
      | ok content =>
        refine ⟨.content content, ?_, ?_, ?_⟩
        · simp [decoded]
        · simp [Found.content?, decoded, Except.toOption]
        · simp [Found.error?, decoded]
      | error fault =>
        have contained : fault.isContained = true := by
          cases kind : fault.isContained with
          | false => exact absurd ⟨fault, decoded, kind⟩ no_escape
          | true => rfl
        refine ⟨.error (fault.message c) (decodeNote c (fault.message c)), ?_, ?_, ?_⟩
        · simp [decoded, contained]
        · simp [Found.content?, decoded, Except.toOption]
        · simp [Found.error?, decoded]

theorem contained_of_find {medium : μ} {c : Collection} {found : Found c}
    (h : find medium c = .ok found) : Contained medium c := by
  intro text read escapes
  obtain ⟨fault, decoded, severe⟩ := (Archive.decode_uncontained c text).mpr escapes
  simp [find, read, decoded, severe] at h

theorem filterMap_all {α : Type} (f : Collection → Option α) :
    Collection.all.filterMap f = (f .features).toList ++ (f .gpsLogs).toList ++
      (f .photoLogs).toList ++ (f .commandLogs).toList ++ (f .emailQueue).toList ++
        (f .emailAddress).toList := by
  have cons (c : Collection) (rest : List Collection) :
      (c :: rest).filterMap f = (f c).toList ++ rest.filterMap f := by
    cases h : f c <;> simp [h]
  simp only [Collection.all, cons, List.filterMap_nil, List.append_assoc, List.append_nil]

theorem load_contained {medium : μ} (h : ∀ c, Contained medium c) :
    ∃ loaded, load medium = .ok loaded ∧ (∀ c, loaded.state.content? c = stored? medium c) ∧
      loaded.errors = Collection.all.filterMap fun c => (error? medium c).map (c, ·) := by
  obtain ⟨features, ff, cf, ef⟩ := find_contained (h .features)
  obtain ⟨gps, fg, cg, eg⟩ := find_contained (h .gpsLogs)
  obtain ⟨photos, fp, cp, ep⟩ := find_contained (h .photoLogs)
  obtain ⟨commands, fc, cc, ec⟩ := find_contained (h .commandLogs)
  obtain ⟨emails, fe, ce, ee⟩ := find_contained (h .emailQueue)
  obtain ⟨address, fa, ca, ea⟩ := find_contained (h .emailAddress)
  refine ⟨_, by simp only [load, ff, fg, fp, fc, fe, fa]; rfl, ?_, ?_⟩
  · rintro (_ | _)
    all_goals assumption
  · rw [filterMap_all, ← ef, ← eg, ← ep, ← ec, ← ee, ← ea]

theorem of_bind_ok {ε α β : Type} {x : Except ε α} {f : α → Except ε β} {b : β}
    (h : (x >>= f) = .ok b) : ∃ a, x = .ok a ∧ f a = .ok b := by
  cases x with
  | error _ => cases h
  | ok a => exact ⟨a, rfl, h⟩

theorem contained_of_load {medium : μ} {loaded : Loaded} (h : load medium = .ok loaded) :
    ∀ c, Contained medium c := by
  obtain ⟨_, features, h⟩ := of_bind_ok h
  obtain ⟨_, gps, h⟩ := of_bind_ok h
  obtain ⟨_, photos, h⟩ := of_bind_ok h
  obtain ⟨_, commands, h⟩ := of_bind_ok h
  obtain ⟨_, emails, h⟩ := of_bind_ok h
  obtain ⟨_, address, -⟩ := of_bind_ok h
  rintro (_ | _)
  · exact contained_of_find features
  · exact contained_of_find gps
  · exact contained_of_find photos
  · exact contained_of_find commands
  · exact contained_of_find emails
  · exact contained_of_find address

theorem load_iff_contained (medium : μ) :
    (∃ loaded, load medium = .ok loaded) ↔ ∀ c, Contained medium c := by
  constructor
  · rintro ⟨loaded, h⟩
    exact contained_of_load h
  · intro h
    obtain ⟨loaded, ok, -⟩ := load_contained h
    exact ⟨loaded, ok⟩

theorem loaded_from_own_texts {medium : μ} {loaded : Loaded} (h : load medium = .ok loaded) :
    (∀ c, loaded.state.content? c = stored? medium c) ∧
      loaded.errors = Collection.all.filterMap fun c => (error? medium c).map (c, ·) := by
  obtain ⟨_, ok, contents, errors⟩ := load_contained (contained_of_load h)
  cases ok.symm.trans h
  exact ⟨contents, errors⟩

theorem start_ok_iff (e : Engine μ) :
    e.start.1 = .ok () ↔ e.loaded = true ∨ ∃ loaded, load e.writer.medium = .ok loaded := by
  unfold Engine.start Engine.load
  by_cases once : e.loaded = true
  · simp [once]
  · cases found : load e.writer.medium <;> simp [once]

/-- Loading succeeds exactly where no readable text escapes, and so does a first start. What it
yields for a collection is decided by the text of its own key: the content if the text is there and
can be read and decoded, and otherwise nothing, with an error unless the text is absent. -/
theorem load_fails_only_by_escape (medium : μ) :
    ((∃ loaded, load medium = .ok loaded) ↔
        ∀ c text, Medium.read medium c.key = .ok (some text) → ¬Escapes c text) ∧
      (∀ e : Engine μ, e.writer.medium = medium → (e.start.1 = .ok () ↔ e.loaded = true ∨
        ∀ c text, Medium.read medium c.key = .ok (some text) → ¬Escapes c text)) ∧
      ∀ loaded, load medium = .ok loaded →
        (∀ c, loaded.state.content? c = stored? medium c) ∧
        (loaded.errors = Collection.all.filterMap fun c => (error? medium c).map (c, ·)) ∧
        ∀ other loaded', load (other : μ) = .ok loaded' → ∀ c,
          Medium.read other c.key = Medium.read medium c.key →
            loaded'.state.content? c = loaded.state.content? c := by
  refine ⟨load_iff_contained medium, fun e same => ?_, fun loaded h => ?_⟩
  · subst same
    rw [start_ok_iff, load_iff_contained]
    rfl
  · obtain ⟨contents, errors⟩ := loaded_from_own_texts h
    refine ⟨contents, errors, fun other loaded' h' c same => ?_⟩
    rw [contents, (loaded_from_own_texts h').1, stored?, stored?, same]

def farFeature : String :=
  "[\x7b\"id\":\"a\",\"name\":\"n\",\"description\":\"d\",\"addedAt\":1e300\x7d]"

theorem far_feature_ends_loading :
    load (MemoryMedium.ofEntries [("features", farFeature)]) =
      .error ⟨.features, .instant .beyondClock⟩ := by
  have fault : Except.casesOn (load (MemoryMedium.ofEntries [("features", farFeature)]))
      some (fun _ => none) = some ⟨.features, .instant .beyondClock⟩ := by decide +kernel
  cases loaded : load (MemoryMedium.ofEntries [("features", farFeature)]) with
  | ok => rw [loaded] at fault; cases fault
  | error _ => rw [loaded] at fault; cases fault; rfl

end Storage

end ControlPanel
