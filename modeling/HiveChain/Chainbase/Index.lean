import Mathlib.Data.Nat.Basic
import HiveChain.Lib.OrdMap
import HiveChain.Lib.EState

/-!
# HiveChain.Chainbase.Index

`chainbase::generic_index` (`libraries/chainbase/include/chainbase/chainbase.hpp`): a
multi-index container of objects addressed by id, with a stack of undo states.

* The container (`indices`) is an ordered map from object id to value. Besides `by_id`, an
  index type has unique keys (`UniqueKey`); a composite key that ends in the object id never
  makes two objects collide. Non-unique indices never reject anything and are not modelled.
* An undo state (`UndoState`) is `old_values`, `removed_values`, `new_ids`, `old_next_id` and
  `revision`. The stack is a list with the most recent state (`_stack.back()`) first.
* Operations throw without rolling back (`EStateM`): `modify` keeps a modifier's partial change
  when it throws, and when the modified value violates a uniqueness constraint
  `multi_index_container::modify` erases the element and the call throws.

`emplace`, `modify` and `remove` record what they do through `onCreate`, `onModify` and
`onRemove`; `undo` replays the head state in the order of the source (old values, new ids,
`_next_id`, removed values); `squash` merges the two most recent states; `commit` drops the
oldest states up to a revision.
-/

namespace HiveChain
namespace Chainbase

open EState

/-- A unique index of the container, besides `by_id`. -/
inductive UniqueKey (V K : Type) where
  /-- A key computed from the value alone. -/
  | plain (key : V → K)
  /-- A composite key whose last component is the object id, such as `(cashout_time, id)`. -/
  | withId (key : V → K)

namespace UniqueKey

variable {V K : Type} [DecidableEq K]

/-- Whether the objects `(i, v)` and `(j, w)` have the same key in this index. -/
def same : UniqueKey V K → Nat × V → Nat × V → Bool
  | plain f, (_, v), (_, w) => decide (f v = f w)
  | withId f, (i, v), (j, w) => decide (f v = f w) && decide (i = j)

end UniqueKey

/-- Whether the value `v`, stored under id `i`, has a unique key in common with another object
of the container: the check `multi_index_container` makes on `emplace` and `modify`. -/
def collides {V K : Type} [DecidableEq K] (keys : List (UniqueKey V K)) (idx : OrdMap Nat V)
    (i : Nat) (v : V) : Bool :=
  idx.entries.any fun e => decide (e.1 ≠ i) && keys.any fun k => k.same (i, v) e

/-- The exceptions `generic_index` throws. -/
inductive ChainbaseError where
  /-- `emplace`: a uniqueness constraint was violated. -/
  | couldNotInsert
  /-- `modify`, and the first loop of `undo`: a uniqueness constraint was violated. -/
  | couldNotModify
  /-- The modifier passed to `modify` threw; `modify` rethrows it. -/
  | modifierThrew
  /-- The second loop of `undo`: an id of `new_ids` is not in the container. -/
  | unableToFind (id : Nat)
  /-- The third loop of `undo`: a removed value could not be emplaced back. -/
  | couldNotRestore
  deriving DecidableEq, Repr

/-- The text of the `std::logic_error` each exception carries, before the type name. -/
def ChainbaseError.what : ChainbaseError → String
  | couldNotInsert =>
    "could not insert object, most likely a uniqueness constraint was violated inside index holding types: "
  | couldNotModify =>
    "Could not modify object, most likely a uniqueness constraint was violated inside index holding types: "
  | modifierThrew => "exception thrown by the modifier"
  | unableToFind id => "unable to find object with id: " ++ toString id ++ "in the index holding types: "
  | couldNotRestore =>
    "Could not restore object, most likely a uniqueness constraint was violated inside index holding types: "

/-- `undo_state<value_type>`. -/
structure UndoState (V : Type) where
  oldValues : OrdMap Nat V
  removedValues : OrdMap Nat V
  newIds : OrdSet Nat
  oldNextId : Nat
  revision : Int

/-- `generic_index`: the undo stack (most recent state first), the revision, `_next_id`, and
the container. -/
structure GenericIndex (V : Type) where
  stack : List (UndoState V)
  revision : Int
  nextId : Nat
  indices : OrdMap Nat V

section Operations

variable {V K : Type} [DecidableEq K] (keys : List (UniqueKey V K))

/-! ## Recording changes in the head undo state

Each `on_*` hook does nothing without an undo state, and otherwise changes `_stack.back()`. -/

/-- The body of `on_create`: the new id goes to `new_ids`. -/
def UndoState.onCreate (head : UndoState V) (i : Nat) : UndoState V :=
  { head with newIds := head.newIds.insert i }

/-- The body of `on_modify`: the value before the first change in this state is kept in
`old_values`, unless the object is new in this state. -/
def UndoState.onModify (head : UndoState V) (i : Nat) (v : V) : UndoState V :=
  if head.newIds.contains i then head
  else if head.oldValues.contains i then head
  else { head with oldValues := head.oldValues.emplace i v }

/-- The body of `on_remove`: a new object is forgotten, a modified one moves its saved value to
`removed_values`, an untouched one saves its value there. -/
def UndoState.onRemove (head : UndoState V) (i : Nat) (v : V) : UndoState V :=
  if head.newIds.contains i then { head with newIds := head.newIds.erase i }
  else match head.oldValues.find? i with
    | some w =>
      { head with removedValues := head.removedValues.emplace i w,
                  oldValues := head.oldValues.erase i }
    | none =>
      if head.removedValues.contains i then head
      else { head with removedValues := head.removedValues.emplace i v }

def onCreate (i : Nat) : List (UndoState V) → List (UndoState V)
  | [] => []
  | head :: rest => head.onCreate i :: rest

def onModify (i : Nat) (v : V) : List (UndoState V) → List (UndoState V)
  | [] => []
  | head :: rest => head.onModify i v :: rest

def onRemove (i : Nat) (v : V) : List (UndoState V) → List (UndoState V)
  | [] => []
  | head :: rest => head.onRemove i v :: rest

/-! ## Changing objects -/

/-- `emplace`: the new object gets `_next_id`; a violated uniqueness constraint throws and
changes nothing. Returns the new id. -/
def emplace (v : V) : EStateM ChainbaseError (GenericIndex V) Nat := fun g =>
  let newId := g.nextId
  if g.indices.contains newId || collides keys g.indices newId v then
    .error .couldNotInsert g
  else
    .ok newId { g with indices := g.indices.insert newId v, nextId := newId + 1,
                       stack := onCreate newId g.stack }

/-- `modify`. The modifier maps the object's value to the value it leaves, and tells whether it
threw: a throwing modifier's partial change is kept. Reinserting a value that collides erases
the element (`multi_index_container::modify`); then the modifier's exception is rethrown, or
else `could not modify` is thrown. The object must be an element of the container. -/
def modify (i : Nat) (m : V → V × Bool) : EStateM ChainbaseError (GenericIndex V) Unit := fun g =>
  match g.indices.find? i with
  | none => .ok () g
  | some v =>
    let stack := onModify i v g.stack
    let ok := !collides keys g.indices i (m v).1
    let indices := if ok then g.indices.insert i (m v).1 else g.indices.erase i
    let g' := { g with stack := stack, indices := indices }
    if (m v).2 then .error .modifierThrew g'
    else if !ok then .error .couldNotModify g'
    else .ok () g'

/-- `remove`. The object must be an element of the container. -/
def remove (i : Nat) : EStateM ChainbaseError (GenericIndex V) Unit := fun g =>
  match g.indices.find? i with
  | none => .ok () g
  | some v => .ok () { g with stack := onRemove i v g.stack, indices := g.indices.erase i }

/-! ## Sessions -/

/-- `commit`: drop the oldest undo states whose revision is at most `revision`. -/
def commit (revision : Int) (g : GenericIndex V) : GenericIndex V :=
  { g with stack := (g.stack.reverse.dropWhile fun s => decide (s.revision ≤ revision)).reverse }

end Operations

/-! ## Sequences of calls -/

/-- A call on the container: `emplace`, `modify` with a modifier, `remove`. -/
inductive Call (V : Type) where
  | emplace (v : V)
  | modify (id : Nat) (m : V → V × Bool)
  | remove (id : Nat)

section Calls

variable {V K : Type} [DecidableEq K] (keys : List (UniqueKey V K))

def Call.apply : Call V → EStateM ChainbaseError (GenericIndex V) Unit
  | .emplace v => do let _ ← Chainbase.emplace keys v
  | .modify i m => Chainbase.modify keys i m
  | .remove i => Chainbase.remove i

end Calls

end Chainbase
end HiveChain
