import Mathlib.Data.List.Sort

/-!
# HiveChain.Lib.Sorting

Sorting by a comparison that is a total preorder only on the values sorted, and reading a sorted
list by position.

* `pairwise_mergeSort_of_mem` — `List.mergeSort` sorts a list whose elements the comparison
  orders transitively and totally; on other values it may be anything.
* `rel_getD_getD` — in a sorted list an element comes before every later one; with
  `headD_eq_getD` and `getLastD_eq_getD` the first and the last element bound every other.
* `rel_getD_of_lt_countP`, `getD_rel_of_lt_countP` — the element at a position of a sorted list
  is above every bound that more elements are above than stand after it, and below every bound
  that more elements are below than stand before it: at the middle, a majority bounds it.
-/

namespace HiveChain
namespace Sorting

variable {α : Type}

theorem pairwise_mergeSort_of_mem {le : α → α → Bool} {l : List α}
    (trans : ∀ a ∈ l, ∀ b ∈ l, ∀ c ∈ l, le a b → le b c → le a c)
    (total : ∀ a ∈ l, ∀ b ∈ l, le a b || le b a) : (l.mergeSort le).Pairwise fun a b => le a b := by
  let r : {a // a ∈ l} → {a // a ∈ l} → Bool := fun a b => le a.1 b.1
  have hsorted : (l.attach.mergeSort r).Pairwise fun a b => r a b :=
    List.pairwise_mergeSort (fun a b c => trans a.1 a.2 b.1 b.2 c.1 c.2) (fun a b => total a.1 a.2 b.1 b.2) _
  have hmap : (l.attach.mergeSort r).map Subtype.val = l.mergeSort le := by
    rw [List.map_mergeSort (s := le) (f := Subtype.val) (fun a _ b _ => rfl), List.attach_map_subtype_val]
  rw [← hmap, List.pairwise_map]
  exact hsorted

theorem headD_eq_getD (l : List α) (d : α) : l.headD d = l.getD 0 d := by
  cases l <;> rfl

theorem getLastD_eq_getD (l : List α) (d : α) : l.getLastD d = l.getD (l.length - 1) d := by
  rw [List.getLastD_eq_getLast?, List.getLast?_eq_getElem?, List.getD_eq_getElem?_getD]

theorem getD_mem {l : List α} (d : α) {i : Nat} (hi : i < l.length) : l.getD i d ∈ l := by
  rw [← List.getElem_eq_getD (h := hi)]
  exact List.getElem_mem hi

theorem rel_getD_getD {R : α → α → Prop} {l : List α} (h : l.Pairwise R) (refl : ∀ a ∈ l, R a a) (d : α)
    {i j : Nat} (hij : i ≤ j) (hj : j < l.length) : R (l.getD i d) (l.getD j d) := by
  rw [← List.getElem_eq_getD (h := by omega), ← List.getElem_eq_getD (h := hj)]
  rcases Nat.lt_or_eq_of_le hij with hlt | rfl
  · exact List.pairwise_iff_getElem.1 h i j (by omega) hj hlt
  · exact refl _ (List.getElem_mem _)

/-! ## Counting in a sorted list -/

theorem countP_le_of_take {p : α → Bool} {l : List α} {k : Nat} (h : ∀ x ∈ l.take k, p x = false) :
    l.countP p ≤ l.length - k :=
  calc l.countP p = (l.take k).countP p + (l.drop k).countP p := by
        rw [← List.countP_append, List.take_append_drop]
    _ = (l.drop k).countP p := by rw [List.countP_eq_zero.2 fun x hx => by simp [h x hx], Nat.zero_add]
    _ ≤ (l.drop k).length := List.countP_le_length
    _ = l.length - k := List.length_drop ..

theorem countP_le_of_drop {p : α → Bool} {l : List α} {k : Nat} (h : ∀ x ∈ l.drop k, p x = false) :
    l.countP p ≤ k :=
  calc l.countP p = (l.take k).countP p + (l.drop k).countP p := by
        rw [← List.countP_append, List.take_append_drop]
    _ = (l.take k).countP p := by
        rw [(List.countP_eq_zero (l := l.drop k)).2 fun x hx => by simp [h x hx], Nat.add_zero]
    _ ≤ (l.take k).length := List.countP_le_length
    _ ≤ k := List.length_take_le k l

section Bounds

variable {R : α → α → Prop} {l : List α}

theorem rel_getD_of_mem_take (h : l.Pairwise R) (refl : ∀ a ∈ l, R a a) (d : α) {i : Nat} (hi : i < l.length)
    {x : α} (hx : x ∈ l.take (i + 1)) : R x (l.getD i d) := by
  obtain ⟨j, hj, rfl⟩ := List.getElem_of_mem hx
  rw [List.length_take] at hj
  rw [List.getElem_take, List.getElem_eq_getD d]
  exact rel_getD_getD h refl d (by omega) hi

theorem rel_getD_of_mem_drop (h : l.Pairwise R) (refl : ∀ a ∈ l, R a a) (d : α) {i : Nat} {x : α}
    (hx : x ∈ l.drop i) : R (l.getD i d) x := by
  obtain ⟨j, hj, rfl⟩ := List.getElem_of_mem hx
  rw [List.length_drop] at hj
  rw [List.getElem_drop, List.getElem_eq_getD d]
  exact rel_getD_getD h refl d (Nat.le_add_right i j) (by omega)

theorem rel_getD_of_lt_countP [DecidableRel R] (h : l.Pairwise R) (refl : ∀ a ∈ l, R a a) (d : α) {i : Nat} (hi : i < l.length)
    {b : α} (trans : ∀ x ∈ l, R b x → R x (l.getD i d) → R b (l.getD i d))
    (hcount : l.length - (i + 1) < l.countP fun x => decide (R b x)) : R b (l.getD i d) := by
  by_contra hnot
  have hnone : ∀ x ∈ l.take (i + 1), decide (R b x) = false := fun x hx =>
    decide_eq_false fun hbx => hnot (trans x (List.mem_of_mem_take hx) hbx (rel_getD_of_mem_take h refl d hi hx))
  exact absurd (countP_le_of_take hnone) (by omega)

theorem getD_rel_of_lt_countP [DecidableRel R] (h : l.Pairwise R) (refl : ∀ a ∈ l, R a a) (d : α) {i : Nat} {b : α}
    (trans : ∀ x ∈ l, R (l.getD i d) x → R x b → R (l.getD i d) b)
    (hcount : i < l.countP fun x => decide (R x b)) : R (l.getD i d) b := by
  by_contra hnot
  have hnone : ∀ x ∈ l.drop i, decide (R x b) = false := fun x hx =>
    decide_eq_false fun hxb => hnot (trans x (List.mem_of_mem_drop hx) (rel_getD_of_mem_drop h refl d hx) hxb)
  exact absurd (countP_le_of_drop hnone) (by omega)

end Bounds

end Sorting
end HiveChain
