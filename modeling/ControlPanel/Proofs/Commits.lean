import ControlPanel.Proofs.ArchiveText
import ControlPanel.Proofs.Plans

/-!
# What operations commit

An operation either leaves every collection as it was, or commits one change that carries the whole
new content of its collection and leaves the others alone. What the operations commit can be stored
and read back.
-/
namespace ControlPanel

namespace Collection

/-- What is installed of a content: the newest records of a capped history, everything else. -/
def clip : (c : Collection) → c.Content → c.Content
  | .features, items => items
  | .gpsLogs, items => items.take Store.gpsCap
  | .photoLogs, items => items.take Store.photoCap
  | .commandLogs, items => items.take Store.commandCap
  | .emailQueue, items => items
  | .emailAddress, address => address

/-- A content that survives being stored and installed again. -/
def Lasting (c : Collection) (content : c.Content) : Prop :=
  c.Storable content ∧ c.clip content = content

end Collection

theorem Store.content_restore (s : Store) (saved : SavedState) (c : Collection) :
    (s.restore saved).content c = ((saved.content? c).map c.clip).getD (s.content c) := by
  cases c with
  | features => cases h : saved.content? .features <;> simp [restore, content, Collection.clip, h]
  | emailQueue =>
    cases h : saved.content? .emailQueue <;> simp [restore, content, Collection.clip, h]
  | emailAddress =>
    cases h : saved.content? .emailAddress <;> simp [restore, content, Collection.clip, h]
  | _ => rfl

def Store.Lasting (s : Store) : Prop := ∀ c : Collection, c.Lasting (s.content c)

namespace Supplies

def InWholeMinutes (p : Supplies) : Prop :=
  ∀ n, ∀ time ∈ p.clock.item n, ∀ o ∈ time.offset?, o.IsWholeMinutes

theorem Passes.inWholeMinutes {p p' : Supplies} (h : p.Passes p') (whole : p.InWholeMinutes) :
    p'.InWholeMinutes := by
  rwa [InWholeMinutes, h.clock]

theorem now_isWholeMinutes {p p' : Supplies} {time : ClockTime} (h : p.now = (some time, p'))
    (whole : p.InWholeMinutes) : time.instant.offset.IsWholeMinutes := by
  have shown : p.clock.item p.clock.taken = some time := congrArg Prod.fst h
  exact ClockTime.instant_isWholeMinutes (whole _ time shown)

theorem Stamps.isWholeMinutes {p : Supplies} {taken : List String} {id : Id} {time : Instant}
    (h : p.Stamps taken id time) (whole : p.InWholeMinutes) : time.offset.IsWholeMinutes := by
  obtain ⟨n, now, shown, rfl⟩ := h.shown
  exact ClockTime.instant_isWholeMinutes (whole n now shown)

end Supplies

def Value.IsShort : Value → Prop
  | .int n => n.natAbs < 10 ^ digitLimit
  | _ => True

def Operation.IsShort : Operation → Prop
  | .appendGps _ _ accuracy => accuracy.IsShort
  | _ => True

/-- As for operations. An address that is given as bytes is excluded: it is kept and not stored. -/
def Request.IsShort : Request → Prop
  | .appendGps _ _ accuracy => accuracy.IsShort
  | .setEmailAddress address => address.bytes? = none
  | _ => True

theorem Operation.IsShort.request {op : Operation} (h : op.IsShort) : op.request.IsShort := by
  cases op with
  | setEmailAddress => rfl
  | _ => exact h

theorem Request.IsShort.bytes {r : Request} (h : r.IsShort) : r.bytes? = none := by
  cases r with
  | setEmailAddress address => exact h
  | _ => rfl

namespace Store

theorem isFinite_coordinate {name : String} {v : Value} {x : Binary64}
    (h : coordinate name v = .ok x) : x.isFinite := by
  unfold coordinate at h
  split at h
  · cases h
  · split at h
    · split at h
      · cases h
        assumption
      · cases h
    · cases h
    · cases h

theorem checkAccuracy_short {v : Value} {n : Nat} (h : checkAccuracy v = .ok n)
    (short : v.IsShort) : n < 10 ^ digitLimit := by
  unfold checkAccuracy at h
  split at h
  · rename_i k
    split at h
    · cases h
      exact Nat.lt_of_le_of_lt (by omega) short
    · cases h
  · cases h

theorem checkLocation_fine {lat lng accuracy : Value} {x y : Binary64} {n : Nat}
    (h : checkLocation lat lng accuracy = .ok (x, y, n)) (short : accuracy.IsShort) :
    x.isFinite ∧ y.isFinite ∧ n < 10 ^ digitLimit := by
  unfold checkLocation at h
  cases size : checkAccuracy accuracy with
  | error failure => simp [size, bind, Except.bind] at h
  | ok n' =>
    cases east : coordinate "lat" lat with
    | error failure => simp [size, east, bind, Except.bind] at h
    | ok x' =>
      cases north : coordinate "lng" lng with
      | error failure => simp [size, east, north, bind, Except.bind] at h
      | ok y' =>
        simp only [size, east, north, bind, Except.bind, pure, Except.pure, Except.ok.injEq,
          Prod.mk.injEq] at h
        obtain ⟨rfl, rfl, rfl⟩ := h
        exact ⟨isFinite_coordinate east, isFinite_coordinate north, checkAccuracy_short size short⟩

end Store

theorem forall_mem_take_cons {γ : Type} {Fine : γ → Prop} {cap : Nat} {a : γ} {items : List γ}
    (new : Fine a) (old : ∀ b ∈ items, Fine b) : ∀ b ∈ (a :: items).take cap, Fine b :=
  fun b hb => List.forall_mem_cons.mpr ⟨new, old⟩ b (List.mem_of_mem_take hb)

theorem forall_mem_replace {γ : Type} {Fine : γ → Prop} {a b : γ} {items before after : List γ}
    (parts : items = before ++ a :: after) (old : ∀ c ∈ items, Fine c) (new : Fine a → Fine b) :
    ∀ c ∈ before ++ b :: after, Fine c := by
  subst parts
  simp only [List.forall_mem_append, List.forall_mem_cons] at old ⊢
  exact ⟨old.1, new old.2.1, old.2.2⟩

namespace Edit

variable {s s' : Store} {p : Supplies} {r : Request} {c : Collection} {produced : Produced}

/-- What a short request makes of a collection can be stored if the collection could. -/
theorem storable (h : Edit s p r c produced s') (short : r.IsShort) (whole : p.InWholeMinutes)
    (old : c.Storable (s.content c)) : c.Storable (s'.content c) := by
  cases h with
  | addFeature f stamps _ _ =>
    exact List.forall_mem_append.mpr
      ⟨old, List.forall_mem_singleton.mpr (stamps.isWholeMinutes whole)⟩
  | removeFeature found =>
    intro g hg
    have kept : g ∈ s.features := by
      rw [found.parts]
      exact List.mem_append.mpr ((List.mem_append.mp hg).imp_right (List.mem_cons_of_mem _))
    exact old g kept
  | toggleFeature found => exact forall_mem_replace found.parts old id
  | setFeatureEnabled found _ => exact forall_mem_replace found.parts old id
  | appendGps e stamps checked =>
    obtain ⟨lat, lng, accuracy⟩ := Store.checkLocation_fine checked short
    exact forall_mem_take_cons ⟨lat, lng, accuracy, stamps.isWholeMinutes whole⟩ old
  | appendPhoto e stamps _ => exact forall_mem_take_cons (stamps.isWholeMinutes whole) old
  | appendCommand e stamps _ _ _ => exact forall_mem_take_cons (stamps.isWholeMinutes whole) old
  | clearCommands => exact fun _ none_left => nomatch none_left
  | clearGps => exact fun _ none_left => nomatch none_left
  | enqueueEmail e stamps _ _ _ =>
    exact List.forall_mem_append.mpr
      ⟨old, List.forall_mem_singleton.mpr (stamps.isWholeMinutes whole)⟩
  | markEmailSent found => exact forall_mem_replace found.parts old id
  | setEmailAddress _ => trivial

theorem clipped (h : Edit s p r c produced s') : c.clip (s'.content c) = s'.content c := by
  have twice {γ : Type} (cap : Nat) (items : List γ) :
      (items.take cap).take cap = items.take cap := by
    rw [List.take_take, Nat.min_self]
  cases h with
  | appendGps => exact twice ..
  | appendPhoto => exact twice ..
  | appendCommand => exact twice ..
  | _ => rfl

end Edit

inductive Orderly (s : Store) (p : Supplies) : Store → Supplies → Option Change → Prop where
  | still {s' p'} : (∀ c, s'.content c = s.content c) → s'.changes = s.changes →
      p'.clock.item = p.clock.item → Orderly s p s' p' none
  | commit {s' p'} (c : Collection) : (∀ other, other ≠ c → s'.content other = s.content other) →
      s'.changes = s.changes + 1 → p'.clock.item = p.clock.item →
      (s.Lasting → p.InWholeMinutes → c.Lasting (s'.content c)) →
      Orderly s p s' p' (some ⟨s'.changes, c, s'.content c, none⟩)

namespace Outcome

variable {α : Type} {s : Store} {p : Supplies} {o : Outcome α}

def IsOrderly (o : Outcome α) (s : Store) (p : Supplies) : Prop :=
  Orderly s p o.store o.supplies o.change?

/-- Short requests are carried out in order. -/
theorem Follows.isOrderly (h : o.Follows Request.IsShort s p) : o.IsOrderly s p := by
  unfold IsOrderly
  cases h with
  | idle passes same none_made =>
    rw [same, none_made]
    exact .still (fun _ => rfl) rfl passes.clock
  | @request r p' result short passes effect =>
    -- The effect begins once the supplies have been drawn on.
    generalize o.store = s', o.supplies = q, o.change? = change? at effect ⊢
    cases effect with
    | failed failure later => exact .still (fun _ => rfl) rfl (later.clock.trans passes.clock)
    | absent => exact .still (fun _ => rfl) rfl passes.clock
    | alike => exact .still (fun _ => rfl) rfl passes.clock
    | online value => exact .still (fun c => by cases c <;> rfl) rfl passes.clock
    | edited later edit =>
      obtain ⟨uncounted, others⟩ := edit.altersOnly
      rw [short.bytes]
      refine .commit _ (fun other apart => ?_) (congrArg (· + 1) uncounted)
        (later.clock.trans passes.clock) fun lasting whole => ?_
      · rw [Store.content_changes, others other apart]
      · rw [Store.content_changes]
        exact ⟨edit.storable short (passes.inWholeMinutes whole) (lasting _).1, edit.clipped⟩

end Outcome

namespace Store

variable {s : Store} {p : Supplies}

theorem isOrderly_fulfil {request : Request} (short : request.IsShort) :
    (s.fulfil p request).IsOrderly s p :=
  Outcome.Follows.isOrderly (.request short (.refl p) (isEffectOf_fulfil request))

/-- Every operation leaves the store alone or commits one change. -/
theorem isOrderly_perform {op : Operation} (short : op.IsShort) :
    (s.perform p op).IsOrderly s p := by
  rw [← fulfil_request]
  exact isOrderly_fulfil short.request

end Store

namespace Capture

variable {s : Store} {p : Supplies}

/-- The whole number nearest to a double is small where all doubles are. -/
theorem roundHalfEven_lt {bound : Nat} (size : Magnitude)
    (limit : 2 * Binary64.limit < bound * Binary64.one) :
    roundHalfEven size.quanta Binary64.one < bound := by
  have near := (roundHalfEven_bounds size.quanta Binary64.one_pos).1
  have within := size.fits.1
  by_contra large
  have far := Nat.mul_le_mul_right Binary64.one (Nat.not_lt.mp large)
  have positive : 0 < bound := Nat.pos_of_mul_pos_right (Nat.zero_lt_of_lt limit)
  have some_bound := Nat.mul_le_mul_right Binary64.one positive
  omega

/-- A double has no more digits before its point than are read. -/
theorem roundInt_short {x : Binary64} {n : Int} (h : x.roundInt? = some n) :
    n.natAbs < 10 ^ digitLimit := by
  cases x with
  | finite negative size =>
    have rounded : n.natAbs = roundHalfEven size.quanta Binary64.one := by
      cases h
      split <;> simp
    have digits (k : Nat) (short : k ≤ digitLimit) : 10 ^ k ≤ 10 ^ digitLimit :=
      Nat.pow_le_pow_right (by decide) short
    rw [rounded]
    exact Nat.lt_of_lt_of_le (roundHalfEven_lt size Binary64.limit_lt) (digits 309 (by decide))
  | infinite negative => cases h
  | nan => cases h

theorem roundAccuracy_short {v : Value} {n : Nat} (h : roundAccuracy v = .ok n) :
    (Value.int n).IsShort := by
  have zero : (Value.int (0 : Nat)).IsShort := Nat.pow_pos (by decide : 0 < 10)
  unfold roundAccuracy at h
  split at h
  · cases h
    exact zero
  · cases real : v.toReal with
    | error fault => simp [real, Except.map] at h
    | ok x =>
      simp only [real, Except.map, Except.ok.injEq] at h
      subst h
      split
      · rename_i k rounded
        split
        · exact zero
        · refine Nat.lt_of_le_of_lt ?_ (roundInt_short rounded)
          omega
      · exact zero

theorem isOrderly_photo (uri : Value) : (photo s p uri).IsOrderly s p :=
  Outcome.Follows.isOrderly (follows_photo trivial)

theorem isOrderly_location (lat lng accuracy : Value) :
    (location s p lat lng accuracy).IsOrderly s p :=
  Outcome.Follows.isOrderly (follows_location fun _ => roundAccuracy_short)

theorem isOrderly_takeSample (sampling : Sampling) : (takeSample s p sampling).IsOrderly s p :=
  Outcome.Follows.isOrderly (follows_takeSample fun _ _ _ _ => roundAccuracy_short)

end Capture

def Plan.IsShort : Plan → Prop
  | .reply _ => True
  | .operate op _ => op.IsShort
  | .operateAt op _ => ∀ now, (op now).IsShort

theorem Plan.IsShort.operation {found : Plan} {op : Operation} (h : found.IsShort)
    (asked : found.Asks op) : op.IsShort := by
  cases found with
  | reply r => exact asked.elim
  | operate op' respond => exact asked ▸ h
  | operateAt op' respond =>
    obtain ⟨now, rfl⟩ := asked
    exact h now

theorem Snapshot.Asks.isShort {snapshot : Snapshot} {verb : Verb} {op : Operation}
    (asked : snapshot.Asks verb op) : op.IsShort := by
  cases asked <;> trivial

namespace Interpreter

theorem plan_short {platform : Value} {line : CommandLine} {snapshot : Snapshot} {verb : Verb}
    {found : Plan} (h : plan platform line snapshot verb = .ok found) : found.IsShort := by
  cases plan_answers h with
  | reply => trivial
  | operate asked => exact asked.isShort
  | operateAt asked => exact fun now => (asked now).isShort

/-- A command leaves the store alone or commits one change. -/
theorem isOrderly_interpret {s : Store} {p : Supplies} (platform : Value) (line : CommandLine)
    (snapshot : Snapshot) : (interpret platform line snapshot s p).IsOrderly s p :=
  Outcome.Follows.isOrderly (follows_interpret fun _ _ _ planned asked =>
    ((plan_short planned).operation asked).request)

end Interpreter

end ControlPanel
