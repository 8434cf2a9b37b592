import ControlPanel.Redaction

/-!
# Hidden members

What is stored under the name of a photo handle or of a mail body is not looked at. Two values that
differ there alone are shown alike, or fail alike, and nothing else is ever shown there than that
something is hidden.
-/
namespace ControlPanel.Redaction

def IsHidden (name : String) : Prop := Text.lower name = "uri" ∨ Text.lower name = "body"

instance (name : String) : Decidable (IsHidden name) :=
  inferInstanceAs (Decidable (_ ∨ _))

theorem contains_iff_isHidden (name : String) :
    hiddenNames.contains (Text.lower name) = true ↔ IsHidden name := by
  rw [List.contains_iff_mem]
  simp [hiddenNames, IsHidden]

def mark : Value := .text "<redacted>"

mutual

/-- A value with the mark in the place of all that is stored under hidden names, at any depth. -/
def cover : Value → Value
  | .list items => .list (coverItems items)
  | .record members => .record (coverMembers members)
  | v => v

def coverItems : List Value → List Value
  | [] => []
  | item :: rest => cover item :: coverItems rest

def coverMembers : List (String × Value) → List (String × Value)
  | [] => []
  | (name, v) :: rest => (name, if IsHidden name then mark else cover v) :: coverMembers rest

end

variable {limit : Limit} {depth : Nat} {name : String} {v : Value} {rest : List (String × Value)}

theorem cover_of_leaf (leaf : v.isContainer = false) : cover v = v := by
  cases v with
  | list items => cases leaf
  | record members => cases leaf
  | _ => rfl

/-- No list or record is a coordinate. -/
theorem coordinate_of_container (container : v.isContainer = true) : coordinate v = .other := by
  cases v with
  | list items => rfl
  | record members => rfl
  | _ => cases container

theorem isContainer_cover (v : Value) : (cover v).isContainer = v.isContainer := by
  cases v <;> rfl

theorem coordinate_cover (v : Value) : coordinate (cover v) = coordinate v := by
  by_cases container : v.isContainer = true
  · rw [coordinate_of_container container, coordinate_of_container]
    rw [isContainer_cover, container]
  · rw [Bool.not_eq_true] at container
    rw [cover_of_leaf container]

theorem redactMembers_hidden (hidden : IsHidden name) :
    redactMembers limit depth ((name, v) :: rest) =
      (redactMembers limit depth rest).map fun rest => (name, mark) :: rest := by
  have known : hiddenNames.contains (Text.lower name) = true := by
    rw [contains_iff_isHidden]
    exact hidden
  simp only [redactMembers, known, if_true]
  cases redactMembers limit depth rest <;> rfl

def redactOpen (limit : Limit) (depth : Nat) (name : String) (v : Value) : Except Fault Value :=
  if coordinateNames.contains (Text.lower name) then
    match coordinate v with
    | .number x => .ok (.real x.roundHundredths)
    | .tooLarge => .error .beyondReals
    | .other => redactAt limit depth v
  else redactAt limit depth v

theorem redactMembers_open (shown : ¬ IsHidden name) :
    redactMembers limit depth ((name, v) :: rest) = do
      let v ← redactOpen limit depth name v
      let rest ← redactMembers limit depth rest
      return (name, v) :: rest := by
  have unknown : ¬ hiddenNames.contains (Text.lower name) = true := by
    rw [contains_iff_isHidden]
    exact shown
  simp only [redactMembers, unknown, redactOpen]
  by_cases place : coordinateNames.contains (Text.lower name) = true
  · simp only [place, if_true]
    cases coordinate v <;> rfl
  · simp only [place]
    rfl

theorem redactOpen_cover (same : redactAt limit depth (cover v) = redactAt limit depth v) :
    redactOpen limit depth name (cover v) = redactOpen limit depth name v := by
  simp only [redactOpen, coordinate_cover, same]

mutual

theorem redactAt_cover (limit : Limit) (depth : Nat) :
    ∀ v, redactAt limit depth (cover v) = redactAt limit depth v
  | .list items => by simp only [cover, redactAt, redactItems_cover limit (depth + 1) items]
  | .record members => by
    simp only [cover, redactAt, redactMembers_cover limit (depth + 1) members]
  | .null => rfl
  | .bool _ => rfl
  | .int _ => rfl
  | .real _ => rfl
  | .text _ => rfl
  | .bytes _ => rfl

theorem redactItems_cover (limit : Limit) (depth : Nat) :
    ∀ items, redactItems limit depth (coverItems items) = redactItems limit depth items
  | [] => rfl
  | item :: rest => by
    simp only [coverItems, redactItems, redactAt_cover limit depth item,
      redactItems_cover limit depth rest]

theorem redactMembers_cover (limit : Limit) (depth : Nat) :
    ∀ members, redactMembers limit depth (coverMembers members) = redactMembers limit depth members
  | [] => rfl
  | (name, v) :: rest => by
    have later := redactMembers_cover limit depth rest
    by_cases hidden : IsHidden name
    · rw [coverMembers, if_pos hidden, redactMembers_hidden hidden, redactMembers_hidden hidden,
        later]
    · have same : redactOpen limit depth name (cover v) = redactOpen limit depth name v :=
        redactOpen_cover (redactAt_cover limit depth v)
      rw [coverMembers, if_neg hidden, redactMembers_open hidden, redactMembers_open hidden, same,
        later]

end

theorem cover_redactOpen {shown : Value} (inner : ∀ {shown}, redactAt limit depth v = .ok shown →
    cover shown = shown) (h : redactOpen limit depth name v = .ok shown) : cover shown = shown := by
  unfold redactOpen at h
  split at h
  · split at h
    · cases h
      rfl
    · cases h
    · exact inner h
  · exact inner h

theorem redactAt_of_deep (deep : depthLimit < depth) (v : Value) :
    redactAt limit depth v = .ok (.text "<max-depth>") := by
  unfold redactAt
  rw [if_pos deep]

theorem redactAt_list (near : ¬ depthLimit < depth) (items : List Value) :
    redactAt limit depth (.list items) = (redactItems limit (depth + 1) items).map .list := by
  rw [redactAt, if_neg near]

theorem redactAt_record (near : ¬ depthLimit < depth) (members : List (String × Value)) :
    redactAt limit depth (.record members) =
      (redactMembers limit (depth + 1) members).map .record := by
  rw [redactAt, if_neg near]

/-- Of what holds nothing else, nothing but itself or a text is shown. -/
theorem cover_redactLeaf {shown : Value} (leaf : v.isContainer = false)
    (h : redactAt limit depth v = .ok shown) : cover shown = shown := by
  apply cover_of_leaf
  by_cases deep : depthLimit < depth
  · rw [redactAt_of_deep deep] at h
    cases h
    rfl
  · cases v with
    | text s =>
      rw [redactAt, if_neg deep] at h
      cases masked : redactText limit s with
      | error fault =>
        rw [masked] at h
        cases h
      | ok s' =>
        rw [masked] at h
        cases h
        rfl
    | list items => cases leaf
    | record members => cases leaf
    | _ =>
      unfold redactAt at h
      rw [if_neg deep] at h
      cases h
      rfl

mutual

theorem cover_redactAt (limit : Limit) (depth : Nat) :
    ∀ v {shown}, redactAt limit depth v = .ok shown → cover shown = shown
  | .list items, shown, h => by
    by_cases deep : depthLimit < depth
    · rw [redactAt_of_deep deep] at h
      cases h
      rfl
    · rw [redactAt_list deep] at h
      cases parts : redactItems limit (depth + 1) items with
      | error fault =>
        rw [parts] at h
        cases h
      | ok shown =>
        rw [parts] at h
        cases h
        rw [cover, cover_redactItems limit (depth + 1) items parts]
  | .record members, shown, h => by
    by_cases deep : depthLimit < depth
    · rw [redactAt_of_deep deep] at h
      cases h
      rfl
    · rw [redactAt_record deep] at h
      cases parts : redactMembers limit (depth + 1) members with
      | error fault =>
        rw [parts] at h
        cases h
      | ok shown =>
        rw [parts] at h
        cases h
        rw [cover, cover_redactMembers limit (depth + 1) members parts]
  | .null, _, h => cover_redactLeaf rfl h
  | .bool _, _, h => cover_redactLeaf rfl h
  | .int _, _, h => cover_redactLeaf rfl h
  | .real _, _, h => cover_redactLeaf rfl h
  | .text _, _, h => cover_redactLeaf rfl h
  | .bytes _, _, h => cover_redactLeaf rfl h

theorem cover_redactItems (limit : Limit) (depth : Nat) :
    ∀ items {shown}, redactItems limit depth items = .ok shown → coverItems shown = shown
  | [], shown, h => by
    cases h
    rfl
  | item :: rest, shown, h => by
    cases one : redactAt limit depth item with
    | error fault =>
      rw [redactItems, one] at h
      cases h
    | ok first =>
      cases more : redactItems limit depth rest with
      | error fault =>
        rw [redactItems, one, more] at h
        cases h
      | ok others =>
        rw [redactItems, one, more] at h
        cases h
        rw [coverItems, cover_redactAt limit depth item one,
          cover_redactItems limit depth rest more]

theorem cover_redactMembers (limit : Limit) (depth : Nat) :
    ∀ members {shown}, redactMembers limit depth members = .ok shown → coverMembers shown = shown
  | [], shown, h => by
    cases h
    rfl
  | (name, v) :: rest, shown, h => by
    cases more : redactMembers limit depth rest with
    | error fault =>
      -- Whatever is shown of this member, a later one fails.
      by_cases hidden : IsHidden name
      · rw [redactMembers_hidden hidden, more] at h
        cases h
      · rw [redactMembers_open hidden, more] at h
        cases one : redactOpen limit depth name v <;> rw [one] at h <;> cases h
    | ok others =>
      have covered := cover_redactMembers limit depth rest more
      by_cases hidden : IsHidden name
      · rw [redactMembers_hidden hidden, more] at h
        cases h
        rw [coverMembers, if_pos hidden, covered]
      · rw [redactMembers_open hidden, more] at h
        cases one : redactOpen limit depth name v with
        | error fault =>
          rw [one] at h
          cases h
        | ok first =>
          rw [one] at h
          cases h
          have own := cover_redactOpen (cover_redactAt limit depth v) one
          rw [coverMembers, if_neg hidden, own, covered]

end

/-- Two values that differ in nothing but what is stored under hidden names, at any depth, are shown
alike or fail alike under any limit. In what is shown, the mark is all there is under hidden
names. -/
theorem hidden_members_leave_no_trace (limit : Limit) {v w : Value} (same : cover v = cover w) :
    redact v limit = redact w limit ∧ ∀ shown, redact v limit = .ok shown → cover shown = shown := by
  constructor
  · calc
      redact v limit = redactAt limit 0 (cover v) := (redactAt_cover limit 0 v).symm
      _ = redactAt limit 0 (cover w) := by rw [same]
      _ = redact w limit := redactAt_cover limit 0 w
  · intro shown h
    exact cover_redactAt limit 0 v h

def report (uri body : Value) : Value :=
  .record [("lat", .record [("Uri", uri), ("lng", .int 4)]), ("sent", .bool false),
    ("mails", .list [.null, .record [("BODY", body), ("subject", .text "ann@home")]])]

/-- A handle or a body may be a structure, or hold a number that no place could be. -/
theorem reports_leave_no_trace :
    redact (report (.text "camera:1") (.list [.real .nan])) =
      redact (report (.record [("lat", .int (.ofNat (.pow 10 400)))]) .null) := by
  have uri : IsHidden "Uri" := by decide
  have body : IsHidden "BODY" := by decide
  have covered (v w : Value) : cover (report v w) = cover (report mark mark) := by
    simp only [report, cover, coverItems, coverMembers, uri, body, if_true]
  have same := (covered (.text "camera:1") (.list [.real .nan])).trans
    (covered (.record [("lat", .int (.ofNat (.pow 10 400)))]) .null).symm
  exact (hidden_members_leave_no_trace defaultLimit same).1

end ControlPanel.Redaction
