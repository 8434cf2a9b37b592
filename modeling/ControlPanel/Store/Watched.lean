import ControlPanel.Store.Request

/-!
# Watched stores

A host may be told of every change of a store. The change stands even if the host fails to deal
with it.
-/
namespace ControlPanel

/-- How a host deals with changes: whether it fails at one. -/
abbrev Handler := Change → Bool

/-- A store and its supplies, with the changes that were told and the lines logged so far, newest
first. -/
structure Watched where
  store : Store
  supplies : Supplies
  told : List Change
  journal : List Note

namespace Watched

def handlingNotes (handler : Handler) (change : Change) : List Note :=
  if handler change then [Store.handlerNote change.collection] else []

def apply {α : Type} (w : Watched) (handler? : Option Handler) (o : Outcome α) :
    Except Failure α × Watched :=
  let (told, notes) := match handler?, o.change? with
    | some handler, some change => (change :: w.told, handlingNotes handler change)
    | _, _ => (w.told, [])
  (o.result, ⟨o.store, o.supplies, told, (notes ++ o.notes).reverse ++ w.journal⟩)

def fulfil (w : Watched) (handler? : Option Handler) (request : Request) :
    Except Failure Produced × Watched :=
  w.apply handler? (w.store.fulfil w.supplies request)

end Watched

end ControlPanel
