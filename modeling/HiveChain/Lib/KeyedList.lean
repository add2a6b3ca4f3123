import Mathlib

/-!
# HiveChain.Lib.KeyedList

A list of records with unique keys, as an index of objects by id: removing the record of one
key, or changing it, changes a sum over the list by that record's value alone.
-/

namespace HiveChain

namespace KeyedList

variable {α κ M : Type} [DecidableEq κ] [AddCommMonoid M] (key : α → κ) (f : α → M)

theorem sum_filter_key_ne {l : List α} (hnd : (l.map key).Nodup) {x : α} (hx : x ∈ l) :
    ((l.filter fun y => key y ≠ key x).map f).sum + f x = (l.map f).sum := by
  induction l with
  | nil => cases hx
  | cons y l ih =>
    rw [List.map_cons, List.nodup_cons] at hnd
    rcases List.mem_cons.mp hx with rfl | hx
    · -- the record is the head: every other key differs from it
      have hall : (l.filter fun z => key z ≠ key x) = l :=
        List.filter_eq_self.mpr fun z hz => decide_eq_true fun e =>
          hnd.1 (e ▸ List.mem_map_of_mem hz)
      rw [List.filter_cons_of_neg (by simp), hall, List.map_cons, List.sum_cons, add_comm]
    · have hyx : key y ≠ key x := fun e => hnd.1 (e ▸ List.mem_map_of_mem hx)
      simp only [List.filter_cons, hyx, ne_eq, not_false_eq_true, decide_true, if_true,
        List.map_cons, List.sum_cons]
      rw [add_assoc, ih hnd.2 hx]

theorem sum_map_update_key {l : List α} (hnd : (l.map key).Nodup) {x : α} (hx : x ∈ l)
    (g : α → α) :
    ((l.map fun y => if key y = key x then g y else y).map f).sum + f x =
      (l.map f).sum + f (g x) := by
  induction l with
  | nil => cases hx
  | cons y l ih =>
    rw [List.map_cons, List.nodup_cons] at hnd
    rcases List.mem_cons.mp hx with rfl | hx
    · -- the record is the head: the rest keeps its records
      have hkeep : ∀ z ∈ l, (if key z = key x then g z else z) = z := by
        intro z hz
        refine if_neg fun e => hnd.1 ?_
        rw [← e]
        exact List.mem_map_of_mem hz
      simp only [List.map_cons, if_true, List.sum_cons, List.map_congr_left hkeep, List.map_id']
      ac_rfl
    · have hyx : key y ≠ key x := fun e => hnd.1 (e ▸ List.mem_map_of_mem hx)
      simp only [List.map_cons, hyx, if_false, List.sum_cons]
      rw [add_assoc, ih hnd.2 hx, add_assoc]

theorem countP_eq_sum_map (p : α → Bool) (l : List α) :
    l.countP p = (l.map fun x => if p x then 1 else 0).sum := by
  induction l with
  | nil => rfl
  | cons x l ih => cases hp : p x <;> simp [hp, ih, add_comm]

theorem sum_map_filter (p : α → Bool) (l : List α) :
    ((l.filter p).map f).sum = (l.map fun x => if p x then f x else 0).sum := by
  induction l with
  | nil => rfl
  | cons x l ih => cases hp : p x <;> simp [hp, ih]

theorem countP_filter_key_ne {l : List α} (hnd : (l.map key).Nodup) {x : α} (hx : x ∈ l)
    (p : α → Bool) :
    (l.filter fun y => key y ≠ key x).countP p + (if p x then 1 else 0) = l.countP p := by
  simpa only [countP_eq_sum_map] using sum_filter_key_ne key (fun y => if p y then 1 else 0) hnd hx

theorem map_key_update {l : List α} (g : α → α) (hg : ∀ y, key (g y) = key y) (k : κ) :
    (l.map fun y => if key y = k then g y else y).map key = l.map key := by
  rw [List.map_map]
  refine List.map_congr_left fun y _ => ?_
  by_cases hy : key y = k
  · simp [hy, hg]
  · simp [hy]

section Update

variable {α κ : Type} [DecidableEq κ] (key : α → κ)

/-- The records with the record of key `k` changed by `f`. -/
def updateKey (l : List α) (k : κ) (f : α → α) : List α :=
  l.map fun y => if key y = k then f y else y

omit [DecidableEq κ] in
theorem eq_of_key_eq {l : List α} (hnd : (l.map key).Nodup) {x y : α} (hx : x ∈ l) (hy : y ∈ l)
    (h : key x = key y) : x = y :=
  List.inj_on_of_nodup_map hnd hx hy h

theorem find?_key_eq_some_iff {l : List α} (hnd : (l.map key).Nodup) {k : κ} {x : α} :
    l.find? (fun y => key y = k) = some x ↔ x ∈ l ∧ key x = k := by
  constructor
  · intro hx
    exact ⟨List.mem_of_find?_eq_some hx, by simpa using List.find?_some hx⟩
  · rintro ⟨hx, rfl⟩
    obtain ⟨y, hy⟩ := Option.isSome_iff_exists.1
      ((List.find?_isSome (p := fun y => decide (key y = key x))).2 ⟨x, hx, by simp⟩)
    have hyk : key y = key x := by simpa using List.find?_some hy
    rw [hy, eq_of_key_eq key hnd (List.mem_of_find?_eq_some hy) hx hyk]

omit [DecidableEq κ] in
theorem nodup_map_append_of_fresh {l : List α} (hnd : (l.map key).Nodup) {x : α}
    (hfresh : ∀ c ∈ l, key c ≠ key x) : ((l ++ [x]).map key).Nodup := by
  rw [List.map_append, List.map_singleton, List.nodup_append]
  refine ⟨hnd, List.nodup_singleton _, ?_⟩
  intro k hk k' hk'
  obtain ⟨c, hc, rfl⟩ := List.mem_map.mp hk
  rw [List.mem_singleton.mp hk']
  exact hfresh c hc

omit [DecidableEq κ] in
theorem key_not_mem_prefix {l pre post : List α} (hnd : (l.map key).Nodup) {x : α}
    (hl : l = pre ++ x :: post) : key x ∉ pre.map key := by
  rw [hl, List.map_append, List.map_cons, List.nodup_append] at hnd
  exact fun hmem => hnd.2.2 _ hmem _ List.mem_cons_self rfl

@[simp] theorem updateKey_id (l : List α) (k : κ) : updateKey key l k id = l := by
  simp [updateKey]

theorem mem_updateKey_of_ne {l : List α} {k : κ} {f : α → α} {x : α} (hx : x ∈ l)
    (hk : key x ≠ k) : x ∈ updateKey key l k f :=
  List.mem_map.mpr ⟨x, hx, if_neg hk⟩

theorem mem_updateKey_iff {l : List α} {k : κ} {f : α → α} {y : α} :
    y ∈ updateKey key l k f ↔ ∃ x ∈ l, (key x = k ∧ y = f x) ∨ (key x ≠ k ∧ y = x) := by
  simp only [updateKey, List.mem_map]
  constructor
  · rintro ⟨x, hx, rfl⟩
    by_cases hk : key x = k
    · exact ⟨x, hx, .inl ⟨hk, if_pos hk⟩⟩
    · exact ⟨x, hx, .inr ⟨hk, if_neg hk⟩⟩
  · rintro ⟨x, hx, ⟨hk, rfl⟩ | ⟨hk, rfl⟩⟩
    · exact ⟨_, hx, if_pos hk⟩
    · exact ⟨_, hx, if_neg hk⟩

theorem mem_updateKey_of_key {l : List α} {k : κ} {f : α → α} {y : α}
    (hy : y ∈ updateKey key l k f) (hk : key y = k) : ∃ x ∈ l, key x = k ∧ y = f x := by
  obtain ⟨x, hx, ⟨hxk, rfl⟩ | ⟨hxk, rfl⟩⟩ := (mem_updateKey_iff key).mp hy
  · exact ⟨x, hx, hxk, rfl⟩
  · exact absurd hk hxk

theorem mem_of_mem_updateKey_const {l : List α} {k : κ} {x y : α}
    (hy : y ∈ updateKey key l k fun _ => x) : y = x ∨ y ∈ l := by
  obtain ⟨z, hz, ⟨-, rfl⟩ | ⟨-, rfl⟩⟩ := (mem_updateKey_iff key).mp hy
  · exact .inl rfl
  · exact .inr hz

theorem map_updateKey_of_mem {β : Type} (key' : α → β) {l : List α} {k : κ} {f : α → α}
    (hf : ∀ y ∈ l, key y = k → key' (f y) = key' y) :
    (updateKey key l k f).map key' = l.map key' := by
  simp only [updateKey, List.map_map]
  refine List.map_congr_left fun y hy => ?_
  by_cases h : key y = k
  · simp [h, hf y hy h]
  · simp [h]

theorem map_key_updateKey_const (l : List α) (x : α) :
    (updateKey key l (key x) fun _ => x).map key = l.map key := by
  simp only [updateKey, List.map_map]
  refine List.map_congr_left fun y _ => ?_
  by_cases hy : key y = key x
  · simp [hy]
  · simp [hy]

theorem countP_updateKey_of_mem {l : List α} (hnd : (l.map key).Nodup) {x : α} (hx : x ∈ l)
    (g : α → α) (p : α → Bool) (hg : p (g x) = p x) :
    (updateKey key l (key x) g).countP p = l.countP p := by
  have hsum := sum_map_update_key key (fun y => if p y then 1 else 0) hnd hx g
  rw [hg] at hsum
  simp only [updateKey, countP_eq_sum_map] at hsum ⊢
  omega

theorem updateKey_updateKey (l : List α) (k : κ) {f : α → α} (g : α → α)
    (hf : ∀ y, key y = k → key (f y) = k) :
    updateKey key (updateKey key l k f) k g = updateKey key l k (g ∘ f) := by
  simp only [updateKey, List.map_map]
  refine List.map_congr_left fun y _ => ?_
  by_cases hy : key y = k
  · simp [hy, hf y hy]
  · simp [hy]

theorem updateKey_congr {l : List α} (hnd : (l.map key).Nodup) {k : κ} {x : α} (hx : x ∈ l)
    (hk : key x = k) (f g : α → α) (hfg : f x = g x) : updateKey key l k f = updateKey key l k g := by
  refine List.map_congr_left fun y hy => ?_
  by_cases hyk : key y = k
  · rw [if_pos hyk, if_pos hyk, eq_of_key_eq key hnd hy hx (hyk.trans hk.symm), hfg]
  · rw [if_neg hyk, if_neg hyk]

theorem filter_updateKey (l : List α) (k : κ) {f : α → α}
    (hf : ∀ y, key y = k → key (f y) = k) :
    (updateKey key l k f).filter (fun y => key y ≠ k) = l.filter fun y => key y ≠ k := by
  induction l with
  | nil => rfl
  | cons y l ih =>
    by_cases hy : key y = k
    · simp [updateKey, hy, hf y hy] at ih ⊢
      exact ih
    · simp [updateKey, hy] at ih ⊢
      exact ih

end Update

section Counts

variable {α κ β : Type} [DecidableEq κ] [DecidableEq β] (key : α → κ) (owner : α → β)

/-- A counter of each owner's records that agrees with the list, as the counters an index keeps
on the accounts that own its objects. -/
def Counts (c : β → Nat) (l : List α) : Prop := ∀ b, c b = l.countP fun x => owner x = b

variable {key owner} {c : β → Nat} {l : List α}

theorem Counts.append (h : Counts owner c l) (x : α) :
    Counts owner (Function.update c (owner x) (c (owner x) + 1)) (l ++ [x]) := by
  intro b
  rw [List.countP_append, ← h b]
  by_cases hb : b = owner x
  · subst hb
    simp
  · simp [Function.update_of_ne hb, Ne.symm hb]

theorem Counts.filter_key (h : Counts owner c l) (hnd : (l.map key).Nodup) {x : α} (hx : x ∈ l) :
    Counts owner (Function.update c (owner x) (c (owner x) - 1))
      (l.filter fun y => key y ≠ key x) := by
  intro b
  have hcount := countP_filter_key_ne key hnd hx fun y => decide (owner y = b)
  by_cases hb : b = owner x
  · subst hb
    simp only [Function.update_self, h (owner x), decide_true, if_true] at hcount ⊢
    omega
  · simp only [Function.update_of_ne hb, Ne.symm hb, decide_false, Bool.false_eq_true,
      if_false, add_zero] at hcount ⊢
    rw [h b, hcount]

theorem Counts.updateKey (h : Counts owner c l) (hnd : (l.map key).Nodup) {x : α} (hx : x ∈ l)
    (g : α → α) (hg : owner (g x) = owner x) : Counts owner c (updateKey key l (key x) g) :=
  fun b => (h b).trans (countP_updateKey_of_mem key hnd hx g _ (by simp [hg])).symm

end Counts

end KeyedList

end HiveChain
