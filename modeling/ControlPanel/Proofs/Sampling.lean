import ControlPanel.Proofs.Commits
import ControlPanel.Proofs.Stamping
import ControlPanel.Proofs.WholeReals

/-!
# Samples of a location

A sample is recorded, or passed over without a trace, unless it escapes: its accuracy is given and
no number, or a coordinate is a whole number that no double stands for. An escape is no refusal, so
that it gets past whoever asked for the sample.
-/
namespace ControlPanel

def Failure.Escapes (failure : Failure) : Prop := ∀ reason, failure ≠ .refused reason

namespace Value

def IsTooLarge : Value → Prop
  | .int n => Binary64.wholeLimit ≤ n.natAbs
  | _ => False

/-- The double that stands for a value as a coordinate. Truth values are no coordinates. -/
structure IsCoordinate (v : Value) (x : Binary64) : Prop where
  untrue : ∀ b, v ≠ .bool b
  real : v.toReal = .ok x
  finite : x.isFinite

/-- Of all values only whole numbers can be too large. -/
theorem toReal_eq_tooLarge {v : Value} :
    v.toReal = .error .tooLarge ↔ ∃ n, v = .int n ∧ Binary64.ofInt? n = none := by
  unfold toReal
  -- How whole numbers are read is forgotten: computing with it would count up to its limits.
  obtain ⟨ofInt, same⟩ : ∃ ofInt, ofInt = Binary64.ofInt? := ⟨_, rfl⟩
  rw [← same]
  cases v with
  | int n => cases found : ofInt n <;> simp [found]
  | text s => cases found : Binary64.readTyped? s <;> simp [found]
  | bytes b =>
    dsimp only
    split
    · split <;> simp
    · simp
  | _ => simp

theorem toReal_eq_tooLarge_iff {v : Value} : v.toReal = .error .tooLarge ↔ v.IsTooLarge := by
  rw [toReal_eq_tooLarge]
  constructor
  · rintro ⟨n, rfl, none_found⟩
    exact (Binary64.ofInt?_eq_none_iff n).mp none_found
  · intro large
    cases v with
    | int n => exact ⟨n, rfl, (Binary64.ofInt?_eq_none_iff n).mpr large⟩
    | _ => exact large.elim

theorem IsCoordinate.not_isTooLarge {v : Value} {x : Binary64} (h : v.IsCoordinate x) :
    ¬ v.IsTooLarge := by
  rw [← toReal_eq_tooLarge_iff, h.real]
  nofun

end Value

namespace Store

variable {name : String} {v : Value} {x : Binary64}

theorem coordinate_eq_ok_iff : coordinate name v = .ok x ↔ v.IsCoordinate x := by
  constructor
  · intro h
    refine ⟨?_, ?_, isFinite_coordinate h⟩
    · rintro b rfl
      cases h
    · unfold coordinate at h
      split at h
      · cases h
      · split at h
        · rename_i y real
          split at h
          · cases h
            exact real
          · cases h
        · cases h
        · cases h
  · rintro ⟨untrue, real, finite⟩
    unfold coordinate
    split
    · exact absurd rfl (untrue _)
    · simp only [real, finite, if_true]

theorem coordinate_of_isTooLarge (large : v.IsTooLarge) :
    coordinate name v = .error (.number .tooLarge) := by
  have real := Value.toReal_eq_tooLarge_iff.mpr large
  unfold coordinate
  split
  · exact large.elim
  · simp only [real]

/-- Only what is too large is not refused. -/
theorem escapes_coordinate_iff {failure : Failure} (failed : coordinate name v = .error failure) :
    failure.Escapes ↔ v.IsTooLarge := by
  constructor
  · intro escapes
    unfold coordinate at failed
    split at failed
    · cases failed
      exact absurd rfl (escapes _)
    · split at failed
      · split at failed
        · cases failed
        · cases failed
          exact absurd rfl (escapes _)
      · rename_i real
        exact Value.toReal_eq_tooLarge_iff.mp real
      · cases failed
        exact absurd rfl (escapes _)
  · intro large
    rw [coordinate_of_isTooLarge large] at failed
    cases failed
    exact nofun

end Store

def Store.gpsIds (s : Store) : List String :=
  s.gpsLogs.map fun e => e.id.text

def Store.withLocation (s : Store) (e : GpsEntry) : Store :=
  { s with gpsLogs := (e :: s.gpsLogs).take 200, changes := s.changes + 1 }

theorem Store.withLocation_inj {s : Store} {e e' : GpsEntry} :
    s.withLocation e = s.withLocation e' ↔ e = e' := by
  refine ⟨fun same => ?_, congrArg _⟩
  have heads : (e :: s.gpsLogs).take 200 = (e' :: s.gpsLogs).take 200 :=
    congrArg Store.gpsLogs same
  exact (List.cons.inj heads).1

theorem Store.withLocation_ne (s : Store) (e : GpsEntry) : s.withLocation e ≠ s := by
  intro same
  have counted : s.changes + 1 = s.changes := congrArg Store.changes same
  omega

namespace Capture

structure Sample.Locates (sample : Sample) (lat lng : Binary64) (accuracy : Nat) : Prop where
  lat : sample.lat.IsCoordinate lat
  lng : sample.lng.IsCoordinate lng
  accuracy : roundAccuracy sample.accuracy = .ok accuracy

/-- A sample that is not refused and yet cannot be recorded. Its accuracy is looked at first, then
the latitude, and the longitude only if there is a latitude. -/
def Sample.Escapes (sample : Sample) : Prop :=
  sample.accuracy ≠ .null ∧ (∀ x, sample.accuracy.toReal ≠ .ok x) ∨ sample.lat.IsTooLarge ∨
    (∃ lat, sample.lat.IsCoordinate lat) ∧ sample.lng.IsTooLarge

theorem roundAccuracy_error_iff {v : Value} :
    (∃ fault, roundAccuracy v = .error fault) ↔ v ≠ .null ∧ ∀ x, v.toReal ≠ .ok x := by
  unfold roundAccuracy
  split
  · exact iff_of_false nofun fun given => given.1 rfl
  · rename_i given
    cases v.toReal with
    | error fault => exact iff_of_true ⟨fault, rfl⟩ ⟨given, nofun⟩
    | ok x => exact iff_of_false nofun fun none_stands => none_stands.2 x rfl

def Sample.read (sample : Sample) : Except Failure (Binary64 × Binary64 × Nat) :=
  match roundAccuracy sample.accuracy with
  | .error fault => .error (.number fault)
  | .ok accuracy => Store.checkLocation sample.lat sample.lng (.int accuracy)

theorem checkLocation_rounded {lat lng : Value} {accuracy : Nat} :
    Store.checkLocation lat lng (.int accuracy) = (do
      let x ← Store.coordinate "lat" lat
      let y ← Store.coordinate "lng" lng
      return (x, y, accuracy)) := by
  have checked : Store.checkAccuracy (.int accuracy) = .ok accuracy := by
    rw [Store.checkAccuracy, if_pos (Int.natCast_nonneg accuracy), Int.toNat_natCast]
  rw [Store.checkLocation, checked]
  rfl

namespace Sample

variable {sample : Sample} {x y : Binary64} {n : Nat}

theorem read_eq_ok_iff : sample.read = .ok (x, y, n) ↔ sample.Locates x y n := by
  constructor
  · intro h
    unfold read at h
    split at h
    · cases h
    · rename_i n' rounded
      rw [checkLocation_rounded] at h
      cases lat : Store.coordinate "lat" sample.lat with
      | error failure => simp [lat, bind, Except.bind] at h
      | ok x' =>
        cases lng : Store.coordinate "lng" sample.lng with
        | error failure => simp [lat, lng, bind, Except.bind] at h
        | ok y' =>
          simp only [lat, lng, bind, Except.bind, pure, Except.pure, Except.ok.injEq,
            Prod.mk.injEq] at h
          obtain ⟨rfl, rfl, rfl⟩ := h
          exact ⟨Store.coordinate_eq_ok_iff.mp lat, Store.coordinate_eq_ok_iff.mp lng, rounded⟩
  · rintro ⟨lat, lng, rounded⟩
    rw [read, rounded]
    dsimp only
    rw [checkLocation_rounded, Store.coordinate_eq_ok_iff.mpr lat,
      Store.coordinate_eq_ok_iff.mpr lng]
    rfl

theorem Locates.not_escapes (h : sample.Locates x y n) : ¬ sample.Escapes := by
  rintro (unrounded | large | ⟨-, large⟩)
  · obtain ⟨fault, failed⟩ := roundAccuracy_error_iff.mpr unrounded
    rw [h.accuracy] at failed
    cases failed
  · exact h.lat.not_isTooLarge large
  · exact h.lng.not_isTooLarge large

theorem escapes_read_iff {failure : Failure} (failed : sample.read = .error failure) :
    failure.Escapes ↔ sample.Escapes := by
  unfold read at failed
  split at failed
  · rename_i fault unrounded
    cases failed
    exact iff_of_true nofun (.inl (roundAccuracy_error_iff.mp ⟨fault, unrounded⟩))
  · rename_i n rounded
    have sized : ¬ (sample.accuracy ≠ .null ∧ ∀ x, sample.accuracy.toReal ≠ .ok x) := by
      rw [← roundAccuracy_error_iff, rounded]
      rintro ⟨fault, ⟨⟩⟩
    rw [checkLocation_rounded] at failed
    rw [Escapes, or_iff_right sized]
    -- A longitude is looked at only where there is a latitude.
    cases lat : Store.coordinate "lat" sample.lat with
    | error failure' =>
      simp only [lat, bind, Except.bind, Except.error.injEq] at failed
      subst failed
      rw [Store.escapes_coordinate_iff lat, or_iff_left]
      rintro ⟨⟨x, there⟩, -⟩
      rw [Store.coordinate_eq_ok_iff.mpr there] at lat
      cases lat
    | ok x =>
      have there := Store.coordinate_eq_ok_iff.mp lat
      rw [or_iff_right there.not_isTooLarge, and_iff_right ⟨x, there⟩]
      cases lng : Store.coordinate "lng" sample.lng with
      | error failure' =>
        simp only [lat, lng, bind, Except.bind, Except.error.injEq] at failed
        subst failed
        exact Store.escapes_coordinate_iff lng
      | ok y => simp [lat, lng, bind, Except.bind, pure, Except.pure] at failed

theorem Locates.unread {failure : Failure} (h : sample.Locates x y n) :
    sample.read ≠ .error failure := by
  rw [read_eq_ok_iff.mpr h]
  nofun

structure Gives (s : Store) (p : Supplies) (sample : Sample) (e : GpsEntry) : Prop where
  located : sample.Locates e.lat e.lng e.accuracy
  stamped : (p.stamp s.gpsIds).1 = .ok (e.id, e.timestamp)

/-- A sample could be recorded, and a host's identifiers or its clock do not allow an entry. -/
structure Stalls (s : Store) (p : Supplies) (sample : Sample) : Prop where
  located : ∃ lat lng accuracy, sample.Locates lat lng accuracy
  unstamped : ∃ failure, (p.stamp s.gpsIds).1 = .error failure ∧ failure.Escapes

variable {s : Store} {p p' : Supplies} {failure : Failure}

theorem Gives.unique {e e' : GpsEntry} (h : sample.Gives s p e) (h' : sample.Gives s p e') :
    e = e' := by
  have read := read_eq_ok_iff.mpr h.located
  have stamped := h.stamped
  rw [read_eq_ok_iff.mpr h'.located] at read
  rw [h'.stamped] at stamped
  cases e
  cases e'
  cases read
  cases stamped
  rfl

theorem Gives.recordable {e : GpsEntry} (h : sample.Gives s p e) :
    ¬ (sample.Escapes ∨ sample.Stalls s p) := by
  rintro (escapes | ⟨-, failure, unstamped, -⟩)
  · exact h.located.not_escapes escapes
  · rw [h.stamped] at unstamped
    cases unstamped

structure Fails (s : Store) (p : Supplies) (sample : Sample) (failure : Failure) : Prop where
  unmade : ∀ e, ¬ sample.Gives s p e
  escapes_iff : failure.Escapes ↔ sample.Escapes ∨ sample.Stalls s p

theorem fails_of_unread (unread : sample.read = .error failure) : sample.Fails s p failure where
  unmade e made := made.located.unread unread
  escapes_iff := by
    rw [escapes_read_iff unread, or_iff_left]
    rintro ⟨⟨x, y, n, located⟩, -⟩
    exact located.unread unread

theorem fails_of_unstamped (located : sample.Locates x y n)
    (unstamped : p.stamp s.gpsIds = (.error failure, p')) : sample.Fails s p failure where
  unmade e made := by
    have stamped := made.stamped
    rw [unstamped] at stamped
    cases stamped
  escapes_iff := by
    rw [or_iff_right located.not_escapes]
    constructor
    · exact fun escapes => ⟨⟨x, y, n, located⟩, failure, by rw [unstamped], escapes⟩
    · rintro ⟨-, failure', same, escapes⟩
      rw [unstamped] at same
      cases same
      exact escapes

end Sample

variable {s : Store} {p : Supplies} {sample : Sample}

inductive Sample.LeadsTo (s : Store) (p : Supplies) (sample : Sample) : Outcome GpsEntry → Prop where
  | recorded {e p'} : sample.Gives s p e →
      LeadsTo s p sample (noting (.commit
        { s with gpsLogs := (e :: s.gpsLogs).take Store.gpsCap } p' .gpsLogs e []) locationNote)
  | failed {failure p'} : sample.Fails s p failure → LeadsTo s p sample (.fail s p' failure)

theorem location_unread {failure : Failure} (unread : sample.read = .error failure) :
    location s p sample.lat sample.lng sample.accuracy = .fail s p failure := by
  cases rounded : roundAccuracy sample.accuracy with
  | error fault =>
    simp only [Sample.read, rounded, Except.error.injEq] at unread
    simp only [location, rounded, unread]
  | ok n =>
    simp only [Sample.read, rounded] at unread
    simp only [location, rounded, Store.appendGps, unread]
    rfl

theorem location_read {x y : Binary64} {n : Nat} (read : sample.read = .ok (x, y, n)) :
    location s p sample.lat sample.lng sample.accuracy =
      noting (s.withRecord p s.gpsIds .gpsLogs (fun id now => ⟨id, x, y, n, now⟩)
        (fun e => { s with gpsLogs := (e :: s.gpsLogs).take Store.gpsCap }) (fun _ => []))
        locationNote := by
  cases rounded : roundAccuracy sample.accuracy with
  | error fault => simp [Sample.read, rounded] at read
  | ok n' =>
    simp only [Sample.read, rounded] at read
    simp only [location, rounded, Store.appendGps, read]
    rfl

theorem leadsTo_location (s : Store) (p : Supplies) (sample : Sample) :
    sample.LeadsTo s p (location s p sample.lat sample.lng sample.accuracy) := by
  cases read : sample.read with
  | error failure =>
    rw [location_unread read]
    exact .failed (Sample.fails_of_unread read)
  | ok fix =>
    obtain ⟨x, y, n⟩ := fix
    have located := Sample.read_eq_ok_iff.mp read
    rw [location_read read]
    rcases stamp : p.stamp s.gpsIds with ⟨failure | ⟨id, now⟩, p'⟩
    · simp only [Store.withRecord, stamp]
      exact .failed (Sample.fails_of_unstamped located stamp)
    · simp only [Store.withRecord, stamp]
      exact .recorded ⟨located, by rw [stamp]⟩

inductive Sample.Taken (s : Store) (p : Supplies) (sample : Sample) :
    Outcome (Option GpsEntry) → Prop where
  | recorded {e p' change notes} : sample.Gives s p e →
      Taken s p sample ⟨.ok (some e), s.withLocation e, p', some change, notes⟩
  | refused {reason p' notes} : sample.Fails s p (.refused reason) →
      Taken s p sample ⟨.ok none, s, p', none, notes⟩
  | escaped {failure p'} : sample.Fails s p failure → failure.Escapes →
      Taken s p sample ⟨.error failure, s, p', none, []⟩

theorem taken_takeSample (s : Store) (p : Supplies) (sample : Sample) :
    sample.Taken s p (takeSample s p (.sample sample)) := by
  have leads := leadsTo_location s p sample
  unfold takeSample
  dsimp only
  generalize location s p sample.lat sample.lng sample.accuracy = o at leads ⊢
  cases leads with
  | recorded made => exact .recorded made
  | failed fails =>
    rename_i failure p'
    cases failure with
    | refused reason => exact .refused fails
    | _ => exact .escaped fails nofun

theorem takeSample_fails_iff :
    (∃ failure, (takeSample s p (.sample sample)).result = .error failure) ↔
      sample.Escapes ∨ sample.Stalls s p := by
  have taken := taken_takeSample s p sample
  generalize takeSample s p (.sample sample) = o at taken ⊢
  cases taken with
  | recorded made => exact iff_of_false nofun made.recordable
  | refused fails =>
    rw [← fails.escapes_iff]
    exact iff_of_false nofun fun escapes => escapes _ rfl
  | escaped fails escapes =>
    rw [← fails.escapes_iff]
    exact iff_of_true ⟨_, rfl⟩ escapes

/-- How taking a sample has gone: there is an entry in front of the others, or no trace. -/
structure Tracks (s : Store) (p : Supplies) (sampling : Sampling) (o : Outcome (Option GpsEntry)) :
    Prop where
  fails_iff : (∃ failure, o.result = .error failure) ↔
    ∃ sample, sampling = .sample sample ∧ (sample.Escapes ∨ sample.Stalls s p)
  gives_iff : ∀ e, o.result = .ok (some e) ↔
    ∃ sample, sampling = .sample sample ∧ sample.Gives s p e
  recorded_iff : ∀ e, o.result = .ok (some e) ↔ o.store = s.withLocation e
  otherwise : (∀ e, o.result ≠ .ok (some e)) → o.store = s ∧ o.change? = none

theorem tracks_of_still {sampling : Sampling} {o : Outcome (Option GpsEntry)}
    (fails_iff : (∃ failure, o.result = .error failure) ↔
      ∃ sample, sampling = .sample sample ∧ (sample.Escapes ∨ sample.Stalls s p))
    (none_made : ∀ sample, sampling = .sample sample → ∀ e, ¬ sample.Gives s p e)
    (none_given : ∀ e, o.result ≠ .ok (some e)) (store : o.store = s) (change : o.change? = none) :
    Tracks s p sampling o where
  fails_iff := fails_iff
  gives_iff e := iff_of_false (none_given e) fun ⟨sample, sampled, made⟩ =>
    none_made sample sampled e made
  recorded_iff e := iff_of_false (none_given e) fun recorded =>
    s.withLocation_ne e (recorded.symm.trans store)
  otherwise _ := ⟨store, change⟩

/-- Taking a sample gives an entry exactly if that entry has been put in front of the others, and
leaves no trace otherwise. It fails for samples that escape, and where a host gives no proper
identifier or time for the entry. -/
theorem takeSample_tracks (s : Store) (p : Supplies) (sampling : Sampling) :
    Tracks s p sampling (takeSample s p sampling) := by
  cases sampling with
  | failed => exact tracks_of_still ⟨nofun, nofun⟩ nofun (fun _ => nofun) rfl rfl
  | nothing => exact tracks_of_still ⟨nofun, nofun⟩ nofun (fun _ => nofun) rfl rfl
  | sample sample =>
    have fails_iff : (∃ failure, (takeSample s p (.sample sample)).result = .error failure) ↔
        ∃ sample', Sampling.sample sample = .sample sample' ∧
          (sample'.Escapes ∨ sample'.Stalls s p) := by
      simp only [Sampling.sample.injEq, exists_eq_left']
      exact takeSample_fails_iff
    have taken := taken_takeSample s p sample
    generalize takeSample s p (.sample sample) = o at fails_iff taken ⊢
    cases taken with
    | recorded made =>
      rename_i e p' change notes
      refine ⟨fails_iff, fun e' => ?_, fun e' => ?_, fun none_given => absurd rfl (none_given e)⟩
      · simp only [Except.ok.injEq, Option.some.injEq, Sampling.sample.injEq, exists_eq_left']
        exact ⟨fun same => same ▸ made, made.unique⟩
      · rw [Except.ok.injEq, Option.some.injEq]
        exact Store.withLocation_inj.symm
    | refused fails =>
      refine tracks_of_still fails_iff ?_ (fun _ => nofun) rfl rfl
      rintro _ ⟨⟩
      exact fails.unmade
    | escaped fails _ =>
      refine tracks_of_still fails_iff ?_ (fun _ => nofun) rfl rfl
      rintro _ ⟨⟩
      exact fails.unmade

def farSample : Sample := ⟨.int (10 ^ 400), .int 2, .int 5⟩

theorem farSample_is_not_survived :
    ¬ ∃ e?, (takeSample .empty .numbered (.sample farSample)).result = .ok e? := by
  have far : Binary64.wholeLimit ≤ (10 ^ 400 : Int).natAbs := by decide +kernel
  have escapes : farSample.Escapes := .inr (.inl far)
  rintro ⟨e?, returned⟩
  obtain ⟨failure, failed⟩ := takeSample_fails_iff.mpr (.inl escapes)
  rw [failed] at returned
  cases returned

end Capture

end ControlPanel
