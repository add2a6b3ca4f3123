import Mathlib

/-!
# HiveChain.Lib.EState

Programs that throw exceptions without rolling back what they changed, as C++ code does, are
modelled in `EStateM ε σ`: a run ends in `ok a s` or in `error e s`, and in both cases `s` is
the state the program left behind.

* `Result.state` — the state after a run, whatever its outcome.
* `run_bind_ok` / `run_bind_error` — how a run of `x >>= f` continues; `run_bind_eq_ok` and
  the guard lemmas take a run that returned apart, one statement of a do-block at a time.
* `forM_run_ok` — the invariant rule for a loop over a list: when each body step, from a
  state satisfying the invariant of the entries processed so far, returns and carries the
  invariant one entry further, the whole loop returns with the invariant of the whole list.
* `focus` — a program on one part of the state run on the whole.
* `Moves view r m` — every run of `m` that returns changes the part `view` of the state by a
  run of steps `r`; the rules build it up along the program, `bind` by `bind`.
-/

namespace HiveChain

namespace EState

variable {ε σ α β : Type}

/-- The state a run leaves behind, whether it returned or threw. -/
def Result.state : EStateM.Result ε σ α → σ
  | .ok _ s => s
  | .error _ s => s

@[simp] theorem state_error (e : ε) (s : σ) :
    Result.state (.error e s : EStateM.Result ε σ α) = s := rfl

theorem run_bind_ok {x : EStateM ε σ α} {f : α → EStateM ε σ β} {s s' : σ} {a : α}
    (h : x.run s = .ok a s') : (x >>= f).run s = (f a).run s' := by
  change (match x s with | .ok a s => f a s | .error e s => .error e s) = f a s'
  rw [show x s = .ok a s' from h]

theorem run_bind_error {x : EStateM ε σ α} {f : α → EStateM ε σ β} {s s' : σ} {e : ε}
    (h : x.run s = .error e s') : (x >>= f).run s = .error e s' := by
  change (match x s with | .ok a s => f a s | .error e s => .error e s) = .error e s'
  rw [show x s = .error e s' from h]

theorem run_bind_eq_ok {x : EStateM ε σ α} {f : α → EStateM ε σ β} {s s' : σ} {b : β}
    (h : (x >>= f).run s = .ok b s') : ∃ a s₁, x.run s = .ok a s₁ ∧ (f a).run s₁ = .ok b s' := by
  change (match x s with | .ok a s => f a s | .error e s => .error e s) = .ok b s' at h
  cases hx : x s with
  | ok a s₁ =>
    rw [hx] at h
    exact ⟨a, s₁, hx, h⟩
  | error e s₁ =>
    rw [hx] at h
    cases h

theorem run_bind_congr {x x' : EStateM ε σ α} {f f' : α → EStateM ε σ β} {s : σ}
    (hx : x.run s = x'.run s) (hf : ∀ a s', x.run s = .ok a s' → (f a).run s' = (f' a).run s') :
    (x >>= f).run s = (x' >>= f').run s := by
  cases hrun : x.run s with
  | ok a s' => rw [run_bind_ok hrun, run_bind_ok (hx.symm.trans hrun), hf a s' hrun]
  | error e s' => rw [run_bind_error hrun, run_bind_error (hx.symm.trans hrun)]

theorem run_tryCatch_ok {x : EStateM ε σ α} {handle : ε → EStateM ε σ α} {s s' : σ} {a : α}
    (h : x.run s = .ok a s') : (tryCatch x handle).run s = .ok a s' := by
  show EStateM.tryCatch x handle s = _
  unfold EStateM.tryCatch
  rw [show x s = .ok a s' from h]

theorem run_tryCatch_error {x : EStateM ε σ α} {handle : ε → EStateM ε σ α} {s s' : σ} {e : ε}
    (h : x.run s = .error e s') : (tryCatch x handle).run s = (handle e).run s' := by
  show EStateM.tryCatch x handle s = _
  unfold EStateM.tryCatch
  rw [show x s = .error e s' from h]
  rfl

theorem run_bind_tryCatch_error {x : EStateM ε σ α} {handle : ε → EStateM ε σ α} {f : α → EStateM ε σ β}
    {s s' : σ} {e : ε} (h : x.run s = .error e s') :
    (tryCatch x handle >>= f).run s = (handle e >>= f).run s' := by
  cases hh : (handle e).run s' with
  | ok a s'' => rw [run_bind_ok ((run_tryCatch_error h).trans hh), run_bind_ok hh]
  | error e' s'' => rw [run_bind_error ((run_tryCatch_error h).trans hh), run_bind_error hh]

theorem run_tryCatch_congr {x x' : EStateM ε σ α} {handle : ε → EStateM ε σ α} {s : σ}
    (hx : x.run s = x'.run s) : (tryCatch x handle).run s = (tryCatch x' handle).run s := by
  cases hrun : x.run s with
  | ok a s' => rw [run_tryCatch_ok hrun, run_tryCatch_ok (hx.symm.trans hrun)]
  | error e s' => rw [run_tryCatch_error hrun, run_tryCatch_error (hx.symm.trans hrun)]

@[simp] theorem run_pure (a : α) (s : σ) : (pure a : EStateM ε σ α).run s = .ok a s := rfl

@[simp] theorem run_get (s : σ) : (get : EStateM ε σ σ).run s = .ok s s := rfl

@[simp] theorem run_throw (e : ε) (s : σ) : (throw e : EStateM ε σ α).run s = .error e s := rfl

@[simp] theorem run_modify (f : σ → σ) (s : σ) :
    (modify f : EStateM ε σ PUnit).run s = .ok ⟨⟩ (f s) := rfl

theorem run_ite_throw_eq_ok {c : Prop} [Decidable c] {e : ε} {s s' : σ} {u : PUnit}
    (h : ((if c then throw e else pure ⟨⟩) : EStateM ε σ PUnit).run s = .ok u s') :
    ¬c ∧ s' = s := by
  by_cases hc : c
  · rw [if_pos hc] at h
    cases h
  · rw [if_neg hc] at h
    cases h
    exact ⟨hc, rfl⟩

theorem run_guard_eq_ok {c : Prop} [Decidable c] {e : ε} {k : PUnit → EStateM ε σ β} {s s' : σ}
    {b : β} (h : (if c then k ⟨⟩ else throw e >>= k).run s = .ok b s') :
    c ∧ (k ⟨⟩).run s = .ok b s' := by
  by_cases hc : c
  · rw [if_pos hc] at h
    exact ⟨hc, h⟩
  · rw [if_neg hc] at h
    cases h

theorem run_throw_if_eq_ok {c : Prop} [Decidable c] {e : ε} {k : PUnit → EStateM ε σ β}
    {s s' : σ} {b : β} (h : (if c then throw e >>= k else k ⟨⟩).run s = .ok b s') :
    ¬c ∧ (k ⟨⟩).run s = .ok b s' := by
  by_cases hc : c
  · rw [if_pos hc] at h
    cases h
  · rw [if_neg hc] at h
    exact ⟨hc, h⟩

theorem except_bind_eq_ok {x : Except ε α} {f : α → Except ε β} {b : β}
    (h : (x >>= f) = .ok b) : ∃ a, x = .ok a ∧ f a = .ok b := by
  cases x with
  | error e => cases h
  | ok a => exact ⟨a, rfl, h⟩

@[simp] theorem except_ok_bind (a : α) (f : α → Except ε β) : (Except.ok a >>= f) = f a := rfl

theorem except_ite_throw_eq_ok {c : Prop} [Decidable c] {e : ε} {u : PUnit} :
    ((if c then pure PUnit.unit else throw e) : Except ε PUnit) = .ok u ↔ c := by
  by_cases hc : c
  · rw [if_pos hc]
    exact ⟨fun _ => hc, fun _ => rfl⟩
  · rw [if_neg hc]
    constructor
    · intro h
      cases h
    · intro h
      exact absurd h hc

theorem except_ite_throw_bind_eq_ok {c : Prop} [Decidable c] {e : ε} {x : Except ε β} {b : β} :
    (if c then x else (throw e : Except ε PUnit) >>= fun _ => x) = .ok b ↔ c ∧ x = .ok b := by
  by_cases hc : c
  · rw [if_pos hc]
    exact ⟨fun h => ⟨hc, h⟩, fun h => h.2⟩
  · rw [if_neg hc]
    constructor
    · intro h
      cases h
    · intro h
      exact absurd h.1 hc

/-- A computation that may fail, run without touching the state. -/
def fromExcept : Except ε α → EStateM ε σ α
  | .ok a => pure a
  | .error e => throw e

theorem run_fromExcept_eq_ok {x : Except ε α} {s s' : σ} {a : α}
    (h : (fromExcept x).run s = .ok a s') : x = .ok a ∧ s' = s := by
  cases x with
  | error e => cases h
  | ok b =>
    cases h
    exact ⟨rfl, rfl⟩

theorem run_fromExcept_bind_eq_ok {x : Except ε α} {f : α → EStateM ε σ β} {s s' : σ} {b : β}
    (h : (fromExcept x >>= f).run s = .ok b s') : ∃ a, x = .ok a ∧ (f a).run s = .ok b s' := by
  obtain ⟨a, s₁, h₁, h₂⟩ := run_bind_eq_ok h
  obtain ⟨hx, rfl⟩ := run_fromExcept_eq_ok h₁
  exact ⟨a, hx, h₂⟩

/-- A program on one part `τ` of the state, run on the whole: `view` reads the part and `update`
writes it back. -/
def focus {τ : Type} (view : σ → τ) (update : σ → τ → σ) (m : EStateM ε τ α) : EStateM ε σ α :=
  fun s =>
    match m.run (view s) with
    | .ok a t => .ok a (update s t)
    | .error e t => .error e (update s t)

theorem run_focus_eq_ok {τ : Type} {view : σ → τ} {update : σ → τ → σ} {m : EStateM ε τ α}
    {s s' : σ} {a : α} (h : (focus view update m).run s = .ok a s') :
    ∃ t, m.run (view s) = .ok a t ∧ s' = update s t := by
  unfold focus at h
  change (match m.run (view s) with
    | .ok a t => EStateM.Result.ok a (update s t)
    | .error e t => .error e (update s t)) = _ at h
  split at h
  · rename_i b t hm
    cases h
    exact ⟨t, hm, rfl⟩
  · cases h

theorem forM_run_ok_inv (f : α → EStateM ε σ PUnit) (P : List α → σ → Prop) (l : List α)
    (step : ∀ pre x post s s', l = pre ++ x :: post → P pre s → (f x).run s = .ok ⟨⟩ s' →
      P (pre ++ [x]) s')
    {s s' : σ} (h0 : P [] s) (h : (l.forM f).run s = .ok ⟨⟩ s') : P l s' := by
  suffices key : ∀ post pre s, l = pre ++ post → P pre s → (post.forM f).run s = .ok ⟨⟩ s' →
      P l s' from key l [] s rfl h0 h
  intro post
  induction post with
  | nil =>
    intro pre s hl hp hrun
    cases hrun
    simpa [hl] using hp
  | cons x post ih =>
    intro pre s hl hp hrun
    obtain ⟨⟨⟩, s₁, hs₁, hrest⟩ := run_bind_eq_ok (show (f x >>= fun _ => post.forM f).run s = _ from hrun)
    exact ih (pre ++ [x]) s₁ (by simp [hl]) (step pre x post s s₁ hl hp hs₁) hrest

/-! ## What a program does to one part of the state -/

section Moves

variable {τ : Type} (view : σ → τ) (r : τ → τ → Prop)

/-- Every run of `m` that returns takes the part `view` of the state along steps `r`. -/
def Moves (m : EStateM ε σ α) : Prop :=
  ∀ s a s', m.run s = .ok a s' → Relation.ReflTransGen r (view s) (view s')

variable {view r}

theorem Moves.of_eq {m : EStateM ε σ α} (h : ∀ s a s', m.run s = .ok a s' → view s' = view s) :
    Moves view r m := by
  intro s a s' hrun
  rw [h s a s' hrun]

theorem moves_pure (a : α) : Moves view r (pure a : EStateM ε σ α) :=
  Moves.of_eq fun _ _ _ h => by cases h; rfl

theorem moves_get : Moves view r (get : EStateM ε σ σ) :=
  Moves.of_eq fun _ _ _ h => by cases h; rfl

theorem moves_throw (e : ε) : Moves view r (throw e : EStateM ε σ α) :=
  fun _ _ _ h => by cases h

theorem moves_fromExcept (x : Except ε α) : Moves view r (fromExcept x : EStateM ε σ α) :=
  Moves.of_eq fun _ _ _ h => by rw [(run_fromExcept_eq_ok h).2]

theorem moves_modify {f : σ → σ} (hf : ∀ s, view (f s) = view s) :
    Moves view r (modify f : EStateM ε σ PUnit) :=
  Moves.of_eq fun s _ _ h => by
    cases h
    exact hf s

theorem Moves.bind {x : EStateM ε σ α} {f : α → EStateM ε σ β} (hx : Moves view r x)
    (hf : ∀ a, Moves view r (f a)) : Moves view r (x >>= f) := by
  intro s b s' hrun
  obtain ⟨a, s₁, h₁, h₂⟩ := run_bind_eq_ok hrun
  exact (hx s a s₁ h₁).trans (hf a s₁ b s' h₂)

theorem Moves.ite {c : Prop} [Decidable c] {x y : EStateM ε σ α} (hx : Moves view r x)
    (hy : Moves view r y) : Moves view r (if c then x else y) := by
  by_cases hc : c
  · rw [if_pos hc]; exact hx
  · rw [if_neg hc]; exact hy

theorem Moves.throw_if {c : Prop} [Decidable c] {e : ε} {k : PUnit → EStateM ε σ β}
    (hk : Moves view r (k ⟨⟩)) : Moves view r (if c then throw e >>= k else k ⟨⟩) :=
  fun s b s' h => hk s b s' (run_throw_if_eq_ok h).2

theorem Moves.forM {f : α → EStateM ε σ PUnit} (hf : ∀ x, Moves view r (f x)) :
    ∀ l : List α, Moves view r (l.forM f)
  | [] => moves_pure _
  | x :: l => (hf x).bind fun _ => Moves.forM hf l

theorem Moves.view_eq {m : EStateM ε σ α} (hm : Moves view Eq m) {s s' : σ} {a : α}
    (h : m.run s = .ok a s') : view s' = view s :=
  (Relation.reflTransGen_eq_self.le _ _ (hm s a s' h)).symm

theorem Moves.foldlM {f : β → α → EStateM ε σ β} (hf : ∀ b x, Moves view r (f b x)) :
    ∀ (l : List α) (b : β), Moves view r (l.foldlM f b)
  | [], b => moves_pure b
  | x :: l, b => by
    rw [List.foldlM_cons]
    exact (hf b x).bind fun b' => Moves.foldlM hf l b'

end Moves

/-! ## What every run keeps -/

section Keeps

variable (P : σ → Prop)

/-- Every run of `m` from a state with `P`, whether it returns or throws, leaves a state with
`P`: the programs throw without undoing their changes, so an invariant must survive both. -/
def Keeps (m : EStateM ε σ α) : Prop := ∀ s, P s → P (Result.state (m.run s))

variable {P}

theorem keeps_pure (a : α) : Keeps P (pure a : EStateM ε σ α) := fun _ h => h

theorem keeps_throw (e : ε) : Keeps P (throw e : EStateM ε σ α) := fun _ h => h

theorem keeps_modify {f : σ → σ} (hf : ∀ s, P s → P (f s)) : Keeps P (modify f : EStateM ε σ PUnit) := hf

theorem Keeps.bind {x : EStateM ε σ α} {f : α → EStateM ε σ β} (hx : Keeps P x) (hf : ∀ a, Keeps P (f a)) :
    Keeps P (x >>= f) := by
  intro s hs
  have h₁ := hx s hs
  cases hrun : x.run s with
  | ok a s₁ =>
    rw [run_bind_ok hrun]
    rw [hrun] at h₁
    exact hf a s₁ h₁
  | error e s₁ =>
    rw [run_bind_error hrun]
    rw [hrun] at h₁
    exact h₁

theorem keeps_get_bind {f : σ → EStateM ε σ α} (hf : ∀ s, P s → P (Result.state ((f s).run s))) :
    Keeps P (get >>= f) :=
  hf

theorem Keeps.tryCatch {x : EStateM ε σ α} {handle : ε → EStateM ε σ α} (hx : Keeps P x)
    (hh : ∀ e, Keeps P (handle e)) : Keeps P (tryCatch x handle) := by
  intro s hs
  have h₁ := hx s hs
  show P (Result.state (EStateM.tryCatch x handle s))
  unfold EStateM.tryCatch
  change P (Result.state (x s)) at h₁
  cases hrun : x s with
  | ok a s₁ =>
    rw [hrun] at h₁
    exact h₁
  | error e s₁ =>
    rw [hrun] at h₁
    exact hh e _ h₁

end Keeps

end EState

end HiveChain
