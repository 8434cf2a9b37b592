import ControlPanel.Proofs.Edits
import ControlPanel.Store.Watched

/-!
# The stream of changes

A host that is told of every change can follow a store. The changes are numbered one after the
other, each carries the whole content of the one collection that it touches, and the newest change
of every collection, written over what was there at first, gives the content now.
-/
namespace ControlPanel

theorem FoundAmong.find?_eq {α : Type} {idOf : α → Id} {id : String} {items before after : List α}
    {a : α} (h : FoundAmong idOf id items before a after) :
    items.find? (fun b => (idOf b).text = id) = some a := by
  rw [h.parts, List.find?_append, List.find?_eq_none.mpr (by simpa using h.first),
    List.find?_cons_of_pos (by simpa using h.own)]
  rfl

/-- A request for what is so already, or for connectivity, which belongs to no collection. -/
def Request.isIdle (s : Store) : Request → Bool
  | .removeFeature (.text id) => (s.getFeature? id).isNone
  | .removeFeature _ => true
  | .setFeatureEnabled (.text id) enabled =>
    (s.getFeature? id).any fun f => f.enabled = enabled.isTruthy
  | .setOnline _ => true
  | _ => false

theorem Edit.not_idle {s s' : Store} {p : Supplies} {r : Request} {c : Collection}
    {produced : Produced} (h : Edit s p r c produced s') : r.isIdle s = false := by
  cases h with
  | removeFeature found => simp [Request.isIdle, Store.getFeature?, found.find?_eq]
  | setFeatureEnabled found other =>
    simp [Request.isIdle, Store.getFeature?, found.find?_eq, other]
  | _ => rfl

structure SameContents (s s' : Store) : Prop where
  counted : s'.changes = s.changes
  content : ∀ c, s'.content c = s.content c

/-- A change has the next number and the whole content of its collection, and no other collection is
touched. -/
structure Announces (s s' : Store) (change : Change) : Prop where
  sequence : change.sequence = s.changes + 1
  counted : s'.changes = s.changes + 1
  content : change.content = s'.content change.collection
  elsewhere : ∀ c, c ≠ change.collection → s'.content c = s.content c

inductive Tells (s s' : Store) : Bool → List Change → Prop where
  | nothing : SameContents s s' → Tells s s' false []
  | change {change} : Announces s s' change → Tells s s' true [change]

/-- An effect commits something unless its request fails or is idle. -/
theorem Effect.tells {s s' : Store} {p p' : Supplies} {r : Request}
    {result : Except Failure Produced} {change? : Option Change}
    (h : Effect s p r result s' p' change?) :
    Tells s s' (result.isOk && !r.isIdle s) change?.toList := by
  cases h with
  | failed => exact .nothing ⟨rfl, fun _ => rfl⟩
  | absent none_found =>
    rename_i id
    have idle : Request.isIdle s (.removeFeature id) = true := by
      cases id with
      | text id =>
        simp only [Request.isIdle, Store.getFeature?, Option.isNone_iff_eq_none,
          List.find?_eq_none, decide_eq_true_eq]
        exact fun f hf same => none_found f hf (congrArg Value.text same)
      | _ => rfl
    rw [idle]
    exact .nothing ⟨rfl, fun _ => rfl⟩
  | alike found alike =>
    rename_i id before f after enabled
    have idle : Request.isIdle s (.setFeatureEnabled (.text id) enabled) = true := by
      simp [Request.isIdle, Store.getFeature?, found.find?_eq, alike]
    rw [idle]
    exact .nothing ⟨rfl, fun _ => rfl⟩
  | online => exact .nothing ⟨rfl, fun c => by cases c <;> rfl⟩
  | edited _ edit =>
    rw [edit.not_idle]
    obtain ⟨uncounted, others⟩ := edit.altersOnly
    refine .change ⟨?_, ?_, rfl, fun c other => ?_⟩
    · exact congrArg (· + 1) uncounted
    · exact congrArg (· + 1) uncounted
    · rw [Store.content_changes, others c other]

def Collection.newest? (c : Collection) : List Change → Option c.Content
  | [] => none
  | change :: older =>
    if same : change.collection = c then some (same ▸ change.content) else c.newest? older

theorem Collection.newest?_append (c : Collection) (newer older : List Change) :
    c.newest? (newer ++ older) = (c.newest? newer).or (c.newest? older) := by
  induction newer with
  | nil => rfl
  | cons change newer ih =>
    simp only [List.cons_append, newest?]
    split
    · rfl
    · exact ih

/-- Changes, newest first, that lead from one store to another: they are numbered one after the
other, one for each commit, and written over the first contents they give the last. -/
structure Mirrors (s s' : Store) (commits : Nat) (told : List Change) : Prop where
  numbered : told.map Change.sequence = (List.range' (s.changes + 1) commits).reverse
  counted : s'.changes = s.changes + commits
  content : ∀ c, s'.content c = (c.newest? told).getD (s.content c)

theorem Tells.mirrors {s s' : Store} {committed : Bool} {told : List Change}
    (h : Tells s s' committed told) : Mirrors s s' committed.toNat told := by
  cases h with
  | nothing same => exact ⟨rfl, same.counted, same.content⟩
  | change announces =>
    rename_i change
    refine ⟨congrArg ([·]) announces.sequence, announces.counted, fun c => ?_⟩
    by_cases same : change.collection = c
    · subst same
      simp [Collection.newest?, announces.content]
    · simp [Collection.newest?, same, announces.elsewhere c (Ne.symm same)]

theorem Mirrors.append {s s' s'' : Store} {commits commits' : Nat} {told told' : List Change}
    (h : Mirrors s s' commits told) (h' : Mirrors s' s'' commits' told') :
    Mirrors s s'' (commits + commits') (told' ++ told) where
  numbered := by
    rw [List.map_append, h.numbered, h'.numbered, h.counted, ← List.reverse_append,
      show s.changes + commits + 1 = s.changes + 1 + 1 * commits by omega, List.range'_append]
  counted := by rw [h'.counted, h.counted, Nat.add_assoc]
  content c := by
    rw [h'.content, h.content, Collection.newest?_append]
    cases c.newest? told' <;> rfl

namespace Watched

def commits (w : Watched) (handler : Handler) (r : Request) : Bool :=
  (w.fulfil (some handler) r).1.isOk && !r.isIdle w.store

def run (handler : Handler) : List Request → Watched → Watched
  | [], w => w
  | r :: rest, w => run handler rest (w.fulfil (some handler) r).2

def commitCount (handler : Handler) : List Request → Watched → Nat
  | [], _ => 0
  | r :: rest, w =>
    (w.commits handler r).toNat + commitCount handler rest (w.fulfil (some handler) r).2

theorem tells_fulfil (w : Watched) (handler : Handler) (r : Request) :
    ∃ told, (w.fulfil (some handler) r).2.told = told ++ w.told ∧
      Tells w.store (w.fulfil (some handler) r).2.store (w.commits handler r) told := by
  have tells := (Store.isEffectOf_fulfil (s := w.store) (p := w.supplies) r).tells
  refine ⟨(w.store.fulfil w.supplies r).change?.toList, ?_, tells⟩
  unfold fulfil apply
  cases (w.store.fulfil w.supplies r).change? <;> rfl

theorem mirrors_run (handler : Handler) (requests : List Request) (w : Watched) :
    ∃ told, (run handler requests w).told = told ++ w.told ∧
      Mirrors w.store (run handler requests w).store (commitCount handler requests w) told := by
  induction requests generalizing w with
  | nil => exact ⟨[], rfl, rfl, rfl, fun _ => rfl⟩
  | cons r rest ih =>
    -- The changes of the first request are the older ones, so they stand behind the others.
    obtain ⟨first, told_first, tells⟩ := w.tells_fulfil handler r
    obtain ⟨later, told_later, mirrors⟩ := ih (w.fulfil (some handler) r).2
    refine ⟨later ++ first, ?_, tells.mirrors.append mirrors⟩
    rw [run, told_later, told_first, List.append_assoc]

/-- The changes told mirror the store, whatever the host makes of them: every request tells what it
commits, and the changes of a run are numbered without a gap and give its last contents. -/
theorem changes_mirror_store (handler : Handler) (start : Watched) (requests : List Request) :
    (∀ (w : Watched) r, ∃ told, (w.fulfil (some handler) r).2.told = told ++ w.told ∧
      Tells w.store (w.fulfil (some handler) r).2.store (w.commits handler r) told) ∧
    ∃ told, (run handler requests start).told = told ++ start.told ∧
      Mirrors start.store (run handler requests start).store (commitCount handler requests start)
        told :=
  ⟨fun w r => w.tells_fulfil handler r, mirrors_run handler requests start⟩

end Watched

end ControlPanel
