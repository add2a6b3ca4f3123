import Mathlib

/-!
# HiveChain.Lib.OrdMap

Ordered maps and sets over a linearly ordered key type, as an ordered associative container
(a red-black tree map or set) behaves: every key at most once, iteration in increasing key
order. The representation is the list of entries in that order, with its sortedness as a
field, so that two maps with the same contents are equal (`OrdMap.ext`).

* `find?`, `contains` — lookup.
* `insert` — insert or overwrite; `emplace` — insert only when the key is absent (the
  `emplace` of an associative container, which keeps an existing entry).
* `erase` — remove a key.
* `entries` — the iteration order.

The lemmas describe every operation through `find?`; later proofs never unfold the list.
-/

namespace HiveChain

section Entries

variable {κ ν : Type} [LinearOrder κ]

/-- The value stored under `k` in a list of entries. -/
def findIn (k : κ) : List (κ × ν) → Option ν
  | [] => none
  | (k', v) :: rest => if k' = k then some v else findIn k rest

/-- Insert `(k, v)` into a list sorted by key, replacing an entry with key `k`. -/
def insertEntry (k : κ) (v : ν) : List (κ × ν) → List (κ × ν)
  | [] => [(k, v)]
  | (k', v') :: rest =>
    if k < k' then (k, v) :: (k', v') :: rest
    else if k = k' then (k, v) :: rest
    else (k', v') :: insertEntry k v rest

theorem findIn_insertEntry (k k' : κ) (v : ν) (l : List (κ × ν)) :
    findIn k' (insertEntry k v l) = if k = k' then some v else findIn k' l := by
  induction l with
  | nil => simp [insertEntry, findIn]
  | cons e rest ih =>
    obtain ⟨j, w⟩ := e
    by_cases hlt : k < j
    · simp only [insertEntry, if_pos hlt, findIn]
    · by_cases heq : k = j
      · subst heq
        by_cases h : k = k' <;> simp [insertEntry, findIn, h]
      · simp only [insertEntry, if_neg hlt, if_neg heq, findIn, ih]
        by_cases h : j = k'
        · subst h
          simp [heq]
        · simp [h]

theorem mem_keys_insertEntry {k x : κ} {v : ν} {l : List (κ × ν)}
    (h : x ∈ (insertEntry k v l).map Prod.fst) : x = k ∨ x ∈ l.map Prod.fst := by
  induction l with
  | nil => simpa [insertEntry] using h
  | cons e rest ih =>
    obtain ⟨j, w⟩ := e
    simp only [insertEntry] at h
    split_ifs at h <;> simp only [List.map_cons, List.mem_cons] at h ⊢
    · exact h.elim Or.inl Or.inr
    · rcases h with h | h
      · exact Or.inl h
      · exact Or.inr (Or.inr h)
    · rcases h with h | h
      · exact Or.inr (Or.inl h)
      · rcases ih h with h | h
        · exact Or.inl h
        · exact Or.inr (Or.inr h)

theorem sorted_insertEntry (k : κ) (v : ν) {l : List (κ × ν)}
    (h : (l.map Prod.fst).Pairwise (· < ·)) :
    ((insertEntry k v l).map Prod.fst).Pairwise (· < ·) := by
  induction l with
  | nil => simp [insertEntry]
  | cons e rest ih =>
    obtain ⟨j, w⟩ := e
    simp only [List.map_cons, List.pairwise_cons] at h
    simp only [insertEntry]
    split_ifs with hlt heq
    · simp only [List.map_cons, List.pairwise_cons, List.mem_cons]
      refine ⟨?_, h.1, h.2⟩
      rintro x (rfl | hx)
      · exact hlt
      · exact lt_trans hlt (h.1 x hx)
    · subst heq
      simpa using h
    · have hjk : j < k := lt_of_le_of_ne (not_lt.mp hlt) (Ne.symm heq)
      simp only [List.map_cons, List.pairwise_cons]
      refine ⟨fun x hx => ?_, ih h.2⟩
      rcases mem_keys_insertEntry hx with rfl | hx
      · exact hjk
      · exact h.1 x hx

theorem findIn_eq_none_of_lt {k : κ} {l : List (κ × ν)} (h : ∀ x ∈ l.map Prod.fst, k < x) :
    findIn k l = none := by
  induction l with
  | nil => rfl
  | cons e rest ih =>
    obtain ⟨j, w⟩ := e
    simp only [List.map_cons, List.mem_cons, forall_eq_or_imp] at h
    simp only [findIn, ne_of_gt h.1, if_false]
    exact ih h.2

theorem findIn_filter (k k' : κ) (l : List (κ × ν)) :
    findIn k' (l.filter (fun e => e.1 ≠ k)) = if k' = k then none else findIn k' l := by
  induction l with
  | nil => simp [findIn]
  | cons e rest ih =>
    obtain ⟨j, w⟩ := e
    by_cases hj : j = k
    · subst hj
      simp only [ne_eq, not_true_eq_false, decide_false, Bool.false_eq_true, not_false_eq_true,
        List.filter_cons_of_neg, ih, findIn]
      split_ifs <;> simp_all
    · simp only [ne_eq, hj, not_false_eq_true, decide_true, List.filter_cons_of_pos, findIn, ih]
      split_ifs <;> simp_all

theorem mem_iff_findIn {k : κ} {v : ν} {l : List (κ × ν)}
    (h : (l.map Prod.fst).Pairwise (· < ·)) : (k, v) ∈ l ↔ findIn k l = some v := by
  induction l with
  | nil => simp [findIn]
  | cons e rest ih =>
    obtain ⟨j, w⟩ := e
    simp only [List.map_cons, List.pairwise_cons] at h
    simp only [List.mem_cons, Prod.mk.injEq, findIn]
    by_cases hj : j = k
    · subst hj
      have hnot : (j, v) ∉ rest := fun hm =>
        lt_irrefl j (h.1 j (List.mem_map_of_mem (f := Prod.fst) hm))
      simp only [true_and, if_true, Option.some.injEq]
      constructor
      · rintro (rfl | hm)
        · rfl
        · exact absurd hm hnot
      · rintro rfl; exact Or.inl rfl
    · simp only [Ne.symm hj, false_and, false_or, if_neg hj]
      exact ih h.2

theorem eq_of_findIn {l l' : List (κ × ν)} (h : (l.map Prod.fst).Pairwise (· < ·))
    (h' : (l'.map Prod.fst).Pairwise (· < ·)) (hf : ∀ k, findIn k l = findIn k l') : l = l' := by
  induction l generalizing l' with
  | nil =>
    cases l' with
    | nil => rfl
    | cons e rest =>
      have := hf e.1
      simp [findIn] at this
  | cons e rest ih =>
    obtain ⟨j, w⟩ := e
    simp only [List.map_cons, List.pairwise_cons] at h
    cases l' with
    | nil => have := hf j; simp [findIn] at this
    | cons e' rest' =>
      obtain ⟨j', w'⟩ := e'
      simp only [List.map_cons, List.pairwise_cons] at h'
      have hjj : j = j' := by
        by_contra hne
        rcases lt_or_gt_of_ne hne with hlt | hlt
        · have hl := hf j
          have : findIn j rest' = none := findIn_eq_none_of_lt fun x hx => lt_trans hlt (h'.1 x hx)
          simp only [findIn, if_true, this] at hl
          split_ifs at hl with hj
          exact hne hj.symm
        · have hl := hf j'
          have : findIn j' rest = none := findIn_eq_none_of_lt fun x hx => lt_trans hlt (h.1 x hx)
          simp only [findIn, if_true, this] at hl
          split_ifs at hl
      subst hjj
      have hw : w = w' := by simpa [findIn] using hf j
      subst hw
      congr 1
      apply ih h.2 h'.2
      intro k
      by_cases hk : j = k
      · subst hk
        rw [findIn_eq_none_of_lt fun x hx => h.1 x hx, findIn_eq_none_of_lt fun x hx => h'.1 x hx]
      · simpa [findIn, hk] using hf k

end Entries

/-- An ordered map from `κ` to `ν`: its entries in increasing key order. -/
structure OrdMap (κ : Type) [LinearOrder κ] (ν : Type) where
  entries : List (κ × ν)
  sorted : (entries.map Prod.fst).Pairwise (· < ·)

namespace OrdMap

variable {κ ν : Type} [LinearOrder κ]

instance [DecidableEq ν] : DecidableEq (OrdMap κ ν) := fun m m' =>
  if h : m.entries = m'.entries then isTrue (by cases m; cases m'; simp_all)
  else isFalse (fun e => h (e ▸ rfl))

/-- The map with no entry. -/
def empty : OrdMap κ ν := ⟨[], List.Pairwise.nil⟩

def find? (m : OrdMap κ ν) (k : κ) : Option ν := findIn k m.entries

def contains (m : OrdMap κ ν) (k : κ) : Bool := (m.find? k).isSome

/-- Insert `(k, v)`, overwriting the value stored under `k`. -/
def insert (m : OrdMap κ ν) (k : κ) (v : ν) : OrdMap κ ν :=
  ⟨insertEntry k v m.entries, sorted_insertEntry k v m.sorted⟩

/-- Insert `(k, v)` only when `k` is absent, as `emplace` on an associative container does. -/
def emplace (m : OrdMap κ ν) (k : κ) (v : ν) : OrdMap κ ν :=
  if m.contains k then m else m.insert k v

def erase (m : OrdMap κ ν) (k : κ) : OrdMap κ ν :=
  ⟨m.entries.filter (fun e => e.1 ≠ k),
    List.Pairwise.sublist (List.Sublist.map _ List.filter_sublist) m.sorted⟩

@[simp] theorem find?_insert (m : OrdMap κ ν) (k k' : κ) (v : ν) :
    (m.insert k v).find? k' = if k = k' then some v else m.find? k' :=
  findIn_insertEntry k k' v m.entries

@[simp] theorem find?_erase (m : OrdMap κ ν) (k k' : κ) :
    (m.erase k).find? k' = if k' = k then none else m.find? k' :=
  findIn_filter k k' m.entries

@[simp] theorem find?_emplace (m : OrdMap κ ν) (k k' : κ) (v : ν) :
    (m.emplace k v).find? k' = if k = k' ∧ m.find? k = none then some v else m.find? k' := by
  unfold emplace
  by_cases hc : m.contains k
  · have : m.find? k ≠ none := by simpa [contains, Option.isSome_iff_ne_none] using hc
    simp [hc, this]
  · have hn : m.find? k = none := by simpa [contains] using hc
    simp only [hc, Bool.false_eq_true, if_false, find?_insert, hn, and_true]

theorem mem_entries {m : OrdMap κ ν} {k : κ} {v : ν} : (k, v) ∈ m.entries ↔ m.find? k = some v :=
  mem_iff_findIn m.sorted

@[ext] theorem ext {m m' : OrdMap κ ν} (h : ∀ k, m.find? k = m'.find? k) : m = m' := by
  obtain ⟨l, hl⟩ := m
  obtain ⟨l', hl'⟩ := m'
  have : l = l' := eq_of_findIn hl hl' h
  subst this
  rfl

end OrdMap

/-- An ordered set of keys, as an ordered map to `Unit`. -/
structure OrdSet (κ : Type) [LinearOrder κ] where
  toMap : OrdMap κ Unit
  deriving DecidableEq

namespace OrdSet

variable {κ : Type} [LinearOrder κ]

def empty : OrdSet κ := ⟨OrdMap.empty⟩

/-- Membership, as `find( k ) != end()`. -/
def contains (s : OrdSet κ) (k : κ) : Bool := s.toMap.contains k

def insert (s : OrdSet κ) (k : κ) : OrdSet κ := ⟨s.toMap.insert k ()⟩

def erase (s : OrdSet κ) (k : κ) : OrdSet κ := ⟨s.toMap.erase k⟩

/-- The keys in increasing order. -/
def toList (s : OrdSet κ) : List κ := s.toMap.entries.map Prod.fst

@[simp] theorem contains_empty (k : κ) : (empty : OrdSet κ).contains k = false := rfl

@[simp] theorem contains_insert (s : OrdSet κ) (k k' : κ) :
    (s.insert k).contains k' = (k = k' || s.contains k') := by
  by_cases h : k = k' <;> simp [contains, insert, OrdMap.contains, h]

@[simp] theorem contains_erase (s : OrdSet κ) (k k' : κ) :
    (s.erase k).contains k' = (!(k' = k) && s.contains k') := by
  by_cases h : k' = k <;> simp [contains, erase, OrdMap.contains, h]

end OrdSet

end HiveChain
