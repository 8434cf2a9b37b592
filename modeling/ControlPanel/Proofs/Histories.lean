import ControlPanel.Proofs.Edits
import ControlPanel.Proofs.Stamping

/-!
# Capped histories

A capped history shows the newest entries of a history without a cap: the records that requests have
given since it was cleared or put in from storage, newest first, and then what was put in. Only the
oldest entries are ever out of sight.
-/
namespace ControlPanel

/-- What may happen to a store: a request is answered, or a saved state is put in. -/
inductive Happening where
  | answered (r : Request) (result : Except Failure Produced)
  | restored (saved : SavedState)

inductive Demand where
  | request (r : Request)
  | restore (saved : SavedState)

structure Chronicle where
  store : Store
  supplies : Supplies
  past : List Happening

namespace Chronicle

def start (p : Supplies) : Chronicle := ⟨.empty, p, []⟩

def next (k : Chronicle) : Demand → Chronicle
  | .request r =>
    let o := k.store.fulfil k.supplies r
    ⟨o.store, o.supplies, .answered r o.result :: k.past⟩
  | .restore saved => ⟨k.store.restore saved, k.supplies, .restored saved :: k.past⟩

def run (k : Chronicle) (demands : List Demand) : Chronicle :=
  demands.foldl next k

end Chronicle

/-- A capped history of a store: where it is, and which happenings concern it. -/
structure CappedHistory (α : Type) where
  cap : Nat
  entries : Store → List α
  given? : Produced → Option α
  saved? : SavedState → Option (List α)
  appends : Request → Bool
  clears : Request → Bool

namespace CappedHistory

variable {α : Type}

def gps : CappedHistory GpsEntry where
  cap := 200
  entries := Store.gpsLogs
  given?
    | .gps e => some e
    | _ => none
  saved? saved := saved.content? .gpsLogs
  appends
    | .appendGps _ _ _ => true
    | _ => false
  clears
    | .clearGps => true
    | _ => false

def photos : CappedHistory PhotoEntry where
  cap := 100
  entries := Store.photoLogs
  given?
    | .photo e => some e
    | _ => none
  saved? saved := saved.content? .photoLogs
  appends
    | .appendPhoto _ => true
    | _ => false
  clears _ := false

def commands : CappedHistory CommandEntry where
  cap := 500
  entries := Store.commandLogs
  given?
    | .command e => some e
    | _ => none
  saved? saved := saved.content? .commandLogs
  appends
    | .appendCommand _ _ _ => true
    | _ => false
  clears
    | .clearCommands => true
    | _ => false

def extend (log : CappedHistory α) (history : List α) : Happening → List α
  | .answered _ (.error _) => history
  | .answered r (.ok produced) =>
    if log.clears r then [] else (log.given? produced).toList ++ history
  | .restored saved => (log.saved? saved).getD history

def full (log : CappedHistory α) : List Happening → List α
  | [] => []
  | happening :: past => log.extend (log.full past) happening

def keep (log : CappedHistory α) (kept : List α) : Happening → List α
  | .answered _ (.error _) => kept
  | .answered r (.ok produced) =>
    if log.clears r then []
    else
      match log.given? produced with
      | some a => (a :: kept).take log.cap
      | none => kept
  | .restored saved => ((log.saved? saved).map (·.take log.cap)).getD kept

/-- Keeping the newest entries of a window is the same as keeping those of the whole history. -/
theorem keep_window (log : CappedHistory α) (history : List α) (happening : Happening) :
    log.keep (history.take log.cap) happening = (log.extend history happening).take log.cap := by
  cases happening with
  | answered r result =>
    cases result with
    | error failure => rfl
    | ok produced =>
      simp only [keep, extend]
      split
      · simp
      · cases log.given? produced with
        | none => rfl
        | some a => cases log.cap <;> simp [List.take_take]
  | restored saved =>
    simp only [keep, extend]
    cases log.saved? saved <;> rfl

structure Kept (log : CappedHistory α) : Prop where
  empty : log.entries .empty = []
  request : ∀ {s s' : Store} {p p' : Supplies} {r result change?},
    Effect s p r result s' p' change? →
      log.entries s' = log.keep (log.entries s) (.answered r result)
  given : ∀ {s s' : Store} {p p' : Supplies} {r produced change?},
    Effect s p r (.ok produced) s' p' change? → (log.given? produced).isSome = log.appends r
  apart : ∀ r, log.appends r → log.clears r = false
  restore : ∀ (s : Store) saved,
    log.entries (s.restore saved) = log.keep (log.entries s) (.restored saved)

theorem kept_gps : gps.Kept where
  empty := rfl
  request effect := by
    cases effect with
    | edited _ edit => cases edit <;> rfl
    | _ => rfl
  given effect := by
    cases effect with
    | edited _ edit => cases edit <;> rfl
    | _ => rfl
  apart r appends := by cases r <;> first | rfl | cases appends
  restore _ _ := rfl

theorem kept_photos : photos.Kept where
  empty := rfl
  request effect := by
    cases effect with
    | edited _ edit => cases edit <;> rfl
    | _ => rfl
  given effect := by
    cases effect with
    | edited _ edit => cases edit <;> rfl
    | _ => rfl
  apart _ _ := rfl
  restore _ _ := rfl

theorem kept_commands : commands.Kept where
  empty := rfl
  request effect := by
    cases effect with
    | edited _ edit => cases edit <;> rfl
    | _ => rfl
  given effect := by
    cases effect with
    | edited _ edit => cases edit <;> rfl
    | _ => rfl
  apart r appends := by cases r <;> first | rfl | cases appends
  restore _ _ := rfl

/-- A request that appends to a history, if it is carried out, gives the entry that it puts in front
of those that are kept; no other request gives one. -/
theorem Kept.appended {log : CappedHistory α} (kept : log.Kept) {s : Store} {p : Supplies}
    {r : Request} {produced : Produced} (done : (s.fulfil p r).result = .ok produced) :
    (log.appends r → ∃ a, log.given? produced = some a ∧
      log.entries (s.fulfil p r).store = (a :: log.entries s).take log.cap) ∧
    (log.appends r = false → log.given? produced = none) := by
  have effect : Effect s p r (s.fulfil p r).result _ _ _ := Store.isEffectOf_fulfil r
  rw [done] at effect
  have given := kept.given effect
  refine ⟨fun appends => ?_, fun other => ?_⟩
  · rw [appends] at given
    obtain ⟨a, gives⟩ := Option.isSome_iff_exists.mp given
    refine ⟨a, gives, ?_⟩
    rw [kept.request effect, keep, kept.apart r appends, gives]
    rfl
  · rwa [other, Option.isSome_eq_false_iff, Option.isNone_iff_eq_none] at given

/-- What a store shows of a history is the window of the whole, as long as the cap. -/
def Shows (log : CappedHistory α) (k : Chronicle) : Prop :=
  log.entries k.store = (log.full k.past).take log.cap

theorem Kept.shows_next {log : CappedHistory α} (kept : log.Kept) {k : Chronicle}
    (h : log.Shows k) (d : Demand) : log.Shows (k.next d) := by
  unfold Shows at h ⊢
  cases d with
  | request r =>
    calc
      log.entries (k.store.fulfil k.supplies r).store
        = log.keep (log.entries k.store) _ := kept.request (Store.isEffectOf_fulfil r)
      _ = log.keep ((log.full k.past).take log.cap) _ := by rw [h]
      _ = _ := log.keep_window _ _
  | restore saved =>
    calc
      log.entries (k.store.restore saved)
        = log.keep (log.entries k.store) _ := kept.restore k.store saved
      _ = log.keep ((log.full k.past).take log.cap) _ := by rw [h]
      _ = _ := log.keep_window _ _

theorem Kept.shows_run {log : CappedHistory α} (kept : log.Kept) (p : Supplies)
    (demands : List Demand) : log.Shows ((Chronicle.start p).run demands) := by
  have from_any (k : Chronicle) (h : log.Shows k) : log.Shows (k.run demands) := by
    unfold Chronicle.run
    induction demands generalizing k with
    | nil => exact h
    | cons d rest ih => exact ih (k.next d) (kept.shows_next h d)
  exact from_any _ (by simp [Shows, Chronicle.start, kept.empty, full])

end CappedHistory

/-- After any run from the empty store, the capped histories are the newest 200 locations, 100 photos
and 500 commands of the whole histories. -/
theorem Store.histories_are_windows (p : Supplies) (demands : List Demand) :
    let k := (Chronicle.start p).run demands
    k.store.gpsLogs = (CappedHistory.gps.full k.past).take 200 ∧
      k.store.photoLogs = (CappedHistory.photos.full k.past).take 100 ∧
      k.store.commandLogs = (CappedHistory.commands.full k.past).take 500 :=
  ⟨CappedHistory.kept_gps.shows_run p demands, CappedHistory.kept_photos.shows_run p demands,
    CappedHistory.kept_commands.shows_run p demands⟩

/-- A location is recorded, forgotten, and followed by two others, between which a third is
refused. -/
theorem Store.window_after_clear :
    let k := (Chronicle.start .numbered).run
      [.request (.appendGps (.int 1) (.int 1) (.int 1)), .request .clearGps,
        .request (.appendGps (.int 2) (.int 2) (.int 2)),
        .request (.appendGps (.int 2) (.int 2) .null),
        .request (.appendGps (.int 3) (.int 3) (.int 3))]
    k.store.gpsLogs = (CappedHistory.gps.full k.past).take 200 ∧
      k.store.gpsLogs.map GpsEntry.accuracy = [3, 2] :=
  ⟨(Store.histories_are_windows .numbered _).1, by decide +kernel⟩

end ControlPanel
