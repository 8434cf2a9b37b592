import ControlPanel.Proofs.Changes
import ControlPanel.Proofs.Repetition

/-!
# Requests about separate features

A feature is switched or removed by its identifier, wherever it stands. Two such requests with
different identifiers can be made in either order: each gets its answer from its own feature and
leaves the other one alone, also where a store has been given the same identifier twice.
-/
namespace ControlPanel

section

variable {α : Type} {p q : α → Bool} {g h : α → List α}

def replaceFirst (p : α → Bool) (g : α → List α) : List α → List α
  | [] => []
  | a :: rest => if p a then g a ++ rest else a :: replaceFirst p g rest

theorem replaceFirst_append {items : List α} (none_there : ∀ a ∈ items, p a = false)
    (rest : List α) : replaceFirst p g (items ++ rest) = items ++ replaceFirst p g rest := by
  induction items with
  | nil => rfl
  | cons a items ih =>
    obtain ⟨other, none_there⟩ := List.forall_mem_cons.mp none_there
    simp [replaceFirst, other, ih none_there]

/-- Nothing is replaced where the first item stays as it is. -/
theorem replaceFirst_eq_self {items : List α} (stays : ∀ a ∈ items.find? p, g a = [a]) :
    replaceFirst p g items = items := by
  induction items with
  | nil => rfl
  | cons a items ih =>
    by_cases own : p a
    · have same : g a = [a] := stays a (List.find?_cons_of_pos own)
      simp [replaceFirst, own, same]
    · rw [List.find?_cons_of_neg own] at stays
      simp [replaceFirst, own, ih stays]

/-- Items of another kind are found as before. -/
theorem find?_replaceFirst (apart : ∀ a, p a → q a = false) (keeps : ∀ a, p a → ∀ b ∈ g a, p b)
    (items : List α) : (replaceFirst p g items).find? q = items.find? q := by
  induction items with
  | nil => rfl
  | cons a items ih =>
    by_cases own : p a
    · have none_there : (g a).find? q = none :=
        List.find?_eq_none.mpr fun b mem => by simp [apart b (keeps a own b mem)]
      rw [replaceFirst, if_pos own, List.find?_append, none_there, Option.none_or,
        List.find?_cons_of_neg (by simp [apart a own])]
    · rw [replaceFirst, if_neg own]
      by_cases wanted : q a
      · rw [List.find?_cons_of_pos wanted, List.find?_cons_of_pos wanted]
      · rw [List.find?_cons_of_neg wanted, List.find?_cons_of_neg wanted, ih]

theorem replaceFirst_comm (apart : ∀ a, p a → q a = false) (keeps : ∀ a, p a → ∀ b ∈ g a, p b)
    (keeps' : ∀ a, q a → ∀ b ∈ h a, q b) (items : List α) :
    replaceFirst q h (replaceFirst p g items) = replaceFirst p g (replaceFirst q h items) := by
  have apart' (a : α) (wanted : q a) : p a = false := by
    cases own : p a with
    | false => rfl
    | true => exact absurd wanted (by simp [apart a own])
  induction items with
  | nil => rfl
  | cons a items ih =>
    by_cases own : p a
    · have none_there : ∀ b ∈ g a, q b = false := fun b mem => apart b (keeps a own b mem)
      simp [replaceFirst, own, apart a own, replaceFirst_append none_there]
    · by_cases wanted : q a
      · have none_there : ∀ b ∈ h a, p b = false := fun b mem => apart' b (keeps' a wanted b mem)
        simp [replaceFirst, own, wanted, replaceFirst_append none_there]
      · simp [replaceFirst, own, wanted, ih]

end

/-- The identifier is that of the feature; what is no text is that of none. -/
def Feature.isNamed (id : Value) (f : Feature) : Bool :=
  match id with
  | .text id => f.id.text = id
  | _ => false

theorem Feature.isNamed_apart {a b : Value} (apart : a ≠ b) (f : Feature) (own : f.isNamed a) :
    f.isNamed b = false := by
  cases a with
  | text a =>
    cases b with
    | text b =>
      have own : f.id.text = a := by simpa [isNamed] using own
      simpa [isNamed, own] using apart
    | _ => rfl
  | _ => cases own

namespace Request

inductive Handles (id : Value) : Request → Prop where
  | removeFeature : Handles id (.removeFeature id)
  | toggleFeature : Handles id (.toggleFeature id)
  | setFeatureEnabled (enabled : Value) : Handles id (.setFeatureEnabled id enabled)

def leaves : Request → Feature → List Feature
  | .removeFeature _, _ => []
  | .toggleFeature _, f => [{ f with enabled := !f.enabled }]
  | .setFeatureEnabled _ enabled, f => [{ f with enabled := enabled.isTruthy }]
  | _, f => [f]

def refusal (id : Value) : Refusal :=
  match id with
  | .text id => .featureNotFound id
  | id => .featureNotFound id.display

def answer : Request → Option Feature → Except Failure Produced
  | .removeFeature _, f? => .ok (Produced.ofFeature? f?)
  | .toggleFeature _, some f => .ok (.feature { f with enabled := !f.enabled })
  | .toggleFeature id, none => .error (.refused (refusal id))
  | .setFeatureEnabled _ enabled, some f =>
    .ok (.feature { f with enabled := enabled.isTruthy })
  | .setFeatureEnabled id _, none => .error (.refused (refusal id))
  | _, _ => .ok .nothing

def writes : Request → Option Feature → Bool
  | .setFeatureEnabled _ enabled, f? => f?.any fun f => f.enabled ≠ enabled.isTruthy
  | _, f? => f?.isSome

def retires : Request → Option Feature → List String
  | .removeFeature _, some f => [f.id.text]
  | _, _ => []

theorem leaves_isNamed (r : Request) (id : Value) (f : Feature) (own : f.isNamed id) :
    ∀ g ∈ r.leaves f, g.isNamed id := by
  cases r <;> simp [leaves] <;> exact own

theorem leaves_of_not_writes {r : Request} {id : Value} {f : Feature} (handles : r.Handles id)
    (silent : r.writes (some f) = false) : r.leaves f = [f] := by
  cases handles with
  | setFeatureEnabled enabled =>
    have alike : f.enabled = enabled.isTruthy := by simpa [writes] using silent
    rw [leaves, ← alike]
  | _ => cases silent

end Request

theorem FoundAmong.replaceFirst_eq {id : String} {features before after : List Feature}
    {f : Feature} (found : FoundAmong Feature.id id features before f after)
    (g : Feature → List Feature) :
    replaceFirst (Feature.isNamed (.text id)) g features = before ++ (g f ++ after) := by
  have others : ∀ h ∈ before, h.isNamed (.text id) = false :=
    fun h earlier => by simpa [Feature.isNamed] using found.first h earlier
  have own : f.isNamed (.text id) := by simpa [Feature.isNamed] using found.own
  rw [found.parts, replaceFirst_append others, replaceFirst, if_pos own]

namespace Store

variable {s : Store} {p : Supplies} {id a b : Value} {r r' : Request}

def named? (s : Store) (id : Value) : Option Feature :=
  s.features.find? (Feature.isNamed id)

def handled (s : Store) (id : Value) (r : Request) : Store :=
  { s with
    features := replaceFirst (Feature.isNamed id) r.leaves s.features
    retired := r.retires (s.named? id) ++ s.retired
    changes := s.changes + (r.writes (s.named? id)).toNat }

def latest (s : Store) : Change :=
  ⟨s.changes, .features, s.features, none⟩

theorem handled_of_not_writes (handles : r.Handles id) (silent : r.writes (s.named? id) = false) :
    s.handled id r = s := by
  have features : replaceFirst (Feature.isNamed id) r.leaves s.features = s.features := by
    refine replaceFirst_eq_self fun f found => ?_
    have named : s.named? id = some f := found
    rw [named] at silent
    exact Request.leaves_of_not_writes handles silent
  have retired : r.retires (s.named? id) = [] := by
    cases handles with
    | removeFeature =>
      cases named : s.named? id with
      | none => rfl
      | some f => simp [named, Request.writes] at silent
    | _ => rfl
  rw [handled, features, retired, silent]
  rfl

/-- What is asked for a feature that is not there. -/
theorem fulfil_absent (handles : r.Handles id) (absent : s.named? id = none) :
    s.fulfil p r = ⟨r.answer none, s, p, none, []⟩ := by
  cases id with
  | text id =>
    have split : splitFeature? id s.features = none := by
      refine splitFeature_of_absent fun f mem => ?_
      simpa [Feature.isNamed] using List.find?_eq_none.mp absent f mem
    cases handles <;> simp only [fulfil, perform, removeFeature, toggleFeature, setFeatureEnabled,
      split] <;> rfl
  | _ => cases handles <;> rfl

theorem handled_of_found {id : String} {before after : List Feature} {f : Feature}
    (found : FoundAmong Feature.id id s.features before f after)
    (named : s.named? (.text id) = some f) (r : Request) :
    s.handled (.text id) r = { s with
      features := before ++ (r.leaves f ++ after)
      retired := r.retires (some f) ++ s.retired
      changes := s.changes + (r.writes (some f)).toNat } := by
  rw [handled, named, found.replaceFirst_eq]

/-- What is asked for a feature that is there. -/
theorem fulfil_present {id : String} {f : Feature} (handles : r.Handles (.text id))
    (named : s.named? (.text id) = some f) : ∃ notes,
    s.fulfil p r = ⟨r.answer (some f), s.handled (.text id) r, p,
      if r.writes (some f) then some (s.handled (.text id) r).latest else none, notes⟩ := by
  obtain ⟨before, after, found⟩ : ∃ before after,
      FoundAmong Feature.id id s.features before f after := FoundAmong.of_find named
  have split := splitFeature_of_found found
  have after_it := handled_of_found found named
  cases handles with
  | removeFeature =>
    rw [after_it]
    simp only [fulfil, perform, removeFeature, split]
    exact ⟨_, rfl⟩
  | toggleFeature =>
    rw [after_it]
    simp only [fulfil, perform, toggleFeature, split]
    exact ⟨_, rfl⟩
  | setFeatureEnabled enabled =>
    by_cases alike : f.enabled = enabled.isTruthy
    · have silent : Request.writes (.setFeatureEnabled (.text id) enabled) (some f) = false := by
        simp [Request.writes, alike]
      have kept : s.handled (.text id) (.setFeatureEnabled (.text id) enabled) = s :=
        handled_of_not_writes (.setFeatureEnabled enabled) (named ▸ silent)
      rw [kept, silent]
      simp only [fulfil, perform, setFeatureEnabled, split, Request.answer, ← alike, if_true]
      exact ⟨[], rfl⟩
    · have written : Request.writes (.setFeatureEnabled (.text id) enabled) (some f) = true := by
        simp [Request.writes, alike]
      rw [after_it, written]
      simp only [fulfil, perform, setFeatureEnabled, split, alike, if_false]
      exact ⟨[], rfl⟩

/-- A request is answered from the feature that it names, and replaces that feature. -/
theorem fulfil_handles (handles : r.Handles id) : ∃ notes,
    s.fulfil p r = ⟨r.answer (s.named? id), s.handled id r, p,
      if r.writes (s.named? id) then some (s.handled id r).latest else none, notes⟩ := by
  cases named : s.named? id with
  | none =>
    have silent : r.writes none = false := by cases handles <;> rfl
    rw [fulfil_absent handles named, handled_of_not_writes handles (named ▸ silent), silent]
    exact ⟨[], rfl⟩
  | some f =>
    cases id with
    | text id => exact fulfil_present handles named
    | _ => exact (Bool.false_ne_true (List.find?_some named)).elim

theorem named?_handled (apart : a ≠ b) (s : Store) (r : Request) :
    (s.handled a r).named? b = s.named? b :=
  find?_replaceFirst (Feature.isNamed_apart apart) (r.leaves_isNamed a) s.features

theorem changes_handled_handled (apart : a ≠ b) (s : Store) (r r' : Request) :
    ((s.handled a r).handled b r').changes =
      s.changes + (r.writes (s.named? a)).toNat + (r'.writes (s.named? b)).toNat := by
  rw [← named?_handled apart s r]
  rfl

theorem retired_handled_handled (apart : a ≠ b) (s : Store) (r r' : Request) :
    ((s.handled a r).handled b r').retired =
      r'.retires (s.named? b) ++ (r.retires (s.named? a) ++ s.retired) := by
  rw [← named?_handled apart s r]
  rfl

/-- Requests about separate features leave the same store in either order, but for the order of the
retired identifiers. -/
theorem handled_comm (apart : a ≠ b) (s : Store) (r r' : Request) :
    (s.handled a r).handled b r' = { (s.handled b r').handled a r with
        retired := ((s.handled a r).handled b r').retired } ∧
      ((s.handled a r).handled b r').retired.Perm ((s.handled b r').handled a r).retired := by
  have features : ((s.handled a r).handled b r').features =
      ((s.handled b r').handled a r).features :=
    replaceFirst_comm (Feature.isNamed_apart apart) (r.leaves_isNamed a) (r'.leaves_isNamed b)
      s.features
  have changes : ((s.handled a r).handled b r').changes =
      ((s.handled b r').handled a r).changes := by
    rw [changes_handled_handled apart, changes_handled_handled apart.symm, Nat.add_right_comm]
  refine ⟨?_, ?_⟩
  · dsimp only
    rw [← features, ← changes]
    rfl
  · rw [retired_handled_handled apart, retired_handled_handled apart.symm]
    exact List.perm_append_comm_assoc ..

end Store

namespace Watched

variable {a b : Value} {r r' : Request} {handler? : Option Handler}

def news (w : Watched) (handler? : Option Handler) (id : Value) (r : Request) : List Change :=
  if handler?.isSome && r.writes (w.store.named? id) then [(w.store.handled id r).latest] else []

theorem length_news (w : Watched) (handler? : Option Handler) (id : Value) (r : Request) :
    (w.news handler? id r).length =
      (handler?.isSome && r.writes (w.store.named? id)).toNat := by
  unfold news
  split
  · rename_i told
    rw [told]
    rfl
  · rename_i untold
    rw [Bool.eq_false_iff.mpr untold]
    rfl

theorem mem_news {w : Watched} {change : Change} (mem : change ∈ w.news handler? a r) :
    handler?.isSome ∧ change = (w.store.handled a r).latest := by
  unfold news at mem
  split at mem
  · rename_i told
    exact ⟨(Bool.and_eq_true_iff.mp told).1, List.mem_singleton.mp mem⟩
  · cases mem

structure Handled (w : Watched) (handler? : Option Handler) (id : Value) (r : Request)
    (result : Except Failure Produced × Watched) : Prop where
  answer : result.1 = r.answer (w.store.named? id)
  store : result.2.store = w.store.handled id r
  told : result.2.told = w.news handler? id r ++ w.told

theorem handled_fulfil (w : Watched) (handler? : Option Handler) (handles : r.Handles a) :
    w.Handled handler? a r (w.fulfil handler? r) := by
  obtain ⟨notes, same⟩ := Store.fulfil_handles (s := w.store) (p := w.supplies) handles
  refine ⟨?_, ?_, ?_⟩
  · rw [fulfil, same]
    rfl
  · rw [fulfil, same]
    rfl
  · rw [fulfil, same, news]
    cases handler? <;> cases r.writes (w.store.named? a) <;> rfl

def both (w : Watched) (handler? : Option Handler) (r r' : Request) :
    Except Failure Produced × Except Failure Produced × Watched :=
  let (answer, w) := w.fulfil handler? r
  let (answer', w) := w.fulfil handler? r'
  (answer, answer', w)

/-- The last that is told of two requests shows the features as they are at the end. -/
theorem latest_of_news {w w' : Watched} {change : Change} (handles : r'.Handles b)
    (first : w'.store = w.store.handled a r)
    (newest : change ∈ (w'.news handler? b r' ++ w.news handler? a r).head?) :
    change = (w'.store.handled b r').latest := by
  cases later : w'.news handler? b r' with
  | cons change' rest =>
    rw [later] at newest
    cases newest
    exact (mem_news (later ▸ List.mem_cons_self ..)).2
  | nil =>
    -- What was told of the first request still holds, since the second has written nothing.
    rw [later, List.nil_append] at newest
    obtain ⟨told, same⟩ := mem_news (List.mem_of_mem_head? newest)
    have silent : r'.writes (w'.store.named? b) = false := by
      have none_told := w'.length_news handler? b r'
      rw [later, told, Bool.true_and] at none_told
      exact Bool.toNat_eq_zero.mp none_told.symm
    rw [same, Store.handled_of_not_writes handles silent, first]

/-- What two requests about separate features come to. -/
structure HandledBoth (w : Watched) (handler? : Option Handler) (a b : Value) (r r' : Request)
    (result : Except Failure Produced × Except Failure Produced × Watched) : Prop where
  answer : result.1 = r.answer (w.store.named? a)
  answer' : result.2.1 = r'.answer (w.store.named? b)
  store : result.2.2.store = (w.store.handled a r).handled b r'
  told : ∃ told, result.2.2.told = told ++ w.told ∧
    told.length = (handler?.isSome && r.writes (w.store.named? a)).toNat +
      (handler?.isSome && r'.writes (w.store.named? b)).toNat ∧
    (∀ change ∈ told, change.collection = .features) ∧
    ∀ change ∈ told.head?, change = result.2.2.store.latest

theorem handledBoth (apart : a ≠ b) (w : Watched) (handler? : Option Handler)
    (handles : r.Handles a) (handles' : r'.Handles b) :
    w.HandledBoth handler? a b r r' (w.both handler? r r') := by
  have one := w.handled_fulfil handler? handles
  have two := (w.fulfil handler? r).2.handled_fulfil handler? handles'
  unfold both
  generalize w.fulfil handler? r = first at one two ⊢
  have named : first.2.store.named? b = w.store.named? b := by
    rw [one.store, Store.named?_handled apart]
  refine ⟨one.answer, named ▸ two.answer, one.store ▸ two.store,
    first.2.news handler? b r' ++ w.news handler? a r, ?_, ?_, ?_, ?_⟩
  · rw [List.append_assoc, ← one.told]
    exact two.told
  · rw [List.length_append, length_news, length_news, named, Nat.add_comm]
  · intro change mem
    rcases List.mem_append.mp mem with later | earlier
    · rw [(mem_news later).2]
      rfl
    · rw [(mem_news earlier).2]
      rfl
  · intro change newest
    rw [latest_of_news handles' one.store newest]
    exact congrArg Store.latest two.store.symm

/-- Two requests that switch or remove the features of different identifiers can be made in either
order. Each gets the same answer, the store is the same but for the order in which identifiers have
been retired, as many changes are told, and the last of them is the same. -/
theorem separate_features_commute (apart : a ≠ b) (handles : r.Handles a) (handles' : r'.Handles b)
    (w : Watched) (handler? : Option Handler) :
    let one := w.both handler? r r'
    let other := w.both handler? r' r
    one.1 = other.2.1 ∧ one.2.1 = other.1 ∧
      one.2.2.store = { other.2.2.store with retired := one.2.2.store.retired } ∧
      one.2.2.store.retired.Perm other.2.2.store.retired ∧
      ∃ told told', one.2.2.told = told ++ w.told ∧ other.2.2.told = told' ++ w.told ∧
        told.length = told'.length ∧ (∀ change ∈ told ++ told', change.collection = .features) ∧
        told.head? = told'.head? := by
  intro one other
  have done := handledBoth apart w handler? handles handles'
  have done' := handledBoth apart.symm w handler? handles' handles
  obtain ⟨same, retired⟩ := Store.handled_comm apart w.store r r'
  rw [← done.store, ← done'.store] at same retired
  obtain ⟨told, append, length, features, newest⟩ := done.told
  obtain ⟨told', append', length', features', newest'⟩ := done'.told
  have as_many : told.length = told'.length := by rw [length, length', Nat.add_comm]
  have alike :
      (w.both handler? r r').2.2.store.latest = (w.both handler? r' r).2.2.store.latest := by
    rw [same]
    rfl
  refine ⟨done.answer.trans done'.answer'.symm, done.answer'.trans done'.answer.symm, same, retired,
    told, told', append, append', as_many, ?_, ?_⟩
  · exact fun change mem => (List.mem_append.mp mem).elim (features change) (features' change)
  · cases told with
    | nil => rw [List.length_eq_zero_iff.mp as_many.symm]
    | cons change older =>
      cases told' with
      | nil => cases as_many
      | cons change' older' =>
        have last : change = (w.both handler? r r').2.2.store.latest := newest change rfl
        have last' : change' = (w.both handler? r' r).2.2.store.latest := newest' change' rfl
        rw [last, last', alike]
        rfl

def doubled : Watched where
  store := { Interpreter.entangled with
    features := Interpreter.entangled.features ++ Interpreter.entangled.features }
  supplies := .numbered
  told := []
  journal := []

theorem removal_and_toggle_commute :
    let one := doubled.both (some fun _ => true) (.removeFeature (.text "gps"))
      (.toggleFeature (.text "map"))
    let other := doubled.both (some fun _ => true) (.toggleFeature (.text "map"))
      (.removeFeature (.text "gps"))
    one.1 = other.2.1 ∧ one.2.1 = other.1 ∧ one.2.2.store.features = other.2.2.store.features ∧
      one.2.2.store.features.map (fun f => (f.id.text, f.enabled)) =
        [("map", false), ("gps", false), ("map", true)] ∧
      one.2.2.told.length = 2 ∧ one.2.2.told.head? = other.2.2.told.head? := by
  intro one other
  have apart : Value.text "gps" ≠ .text "map" := by simp
  have nothing_before : doubled.told = [] := rfl
  obtain ⟨answer, answer', same, -, told, told', append, append', -, -, newest⟩ :=
    separate_features_commute apart .removeFeature .toggleFeature doubled (some fun _ => true)
  refine ⟨answer, answer', ?_, by decide +kernel, by decide +kernel, ?_⟩
  · exact congrArg Store.features same
  · rw [append, append', nothing_before, List.append_nil, List.append_nil]
    exact newest

end Watched

end ControlPanel
