import HiveChain.Chain.DelayedVoting

/-!
# HiveChain.Chain.DelayedVotingSpec

The invariant of an account's delayed votes: `sum_delayed_votes` is the sum of the buckets,
every bucket is positive, and consecutive buckets are at least an interval apart. `add`,
`erase_front` and `erase` keep it, and under it `erase` never takes `back()` of an empty vector.
When `delayed_voting::run` follows the transactions of every block, an account holds at most
`HIVE_DELAYED_VOTING_TOTAL_INTERVAL_SECONDS / HIVE_DELAYED_VOTING_INTERVAL_SECONDS` buckets
after it, and one more inside a block.
-/

namespace HiveChain
namespace Chain

open DelayedVotingProcessor

/-- The times of the buckets, in order. -/
def DelayedVotes.times (d : DelayedVotes) : List Nat := d.items.map DelayedVotesData.time

/-- Two bucket times at least `HIVE_DELAYED_VOTING_INTERVAL_SECONDS` apart. -/
def Spaced (a b : Nat) : Prop := a + hiveDelayedVotingIntervalSeconds ≤ b

instance : Trans Spaced Spaced Spaced where
  trans h₁ h₂ := by
    unfold Spaced at *
    omega

/-- The sum of the buckets. -/
def bucketSum (items : List DelayedVotesData) : Nat := (items.map DelayedVotesData.val).sum

/-- `sum_delayed_votes` is the sum of the buckets and fits its `uint64_t`, every bucket is
positive, and the bucket times are spaced by an interval. -/
structure DelayedInv (d : DelayedVotes) : Prop where
  sum_eq : d.sum = bucketSum d.items
  pos : ∀ x ∈ d.items, 0 < x.val
  spaced : d.times.IsChain Spaced
  sum_lt : d.sum < 2 ^ 64

theorem DelayedInv.empty : DelayedInv ⟨[], 0⟩ :=
  ⟨rfl, fun _ h => absurd h List.not_mem_nil, List.IsChain.nil, Nat.two_pow_pos 64⟩

@[simp] theorem bucketSum_append (l₁ l₂ : List DelayedVotesData) :
    bucketSum (l₁ ++ l₂) = bucketSum l₁ + bucketSum l₂ := by
  simp [bucketSum]

@[simp] theorem bucketSum_cons (x : DelayedVotesData) (l : List DelayedVotesData) :
    bucketSum (x :: l) = x.val + bucketSum l := by
  simp [bucketSum]

@[simp] theorem bucketSum_nil : bucketSum [] = 0 := rfl

theorem bucketSum_reverse (l : List DelayedVotesData) : bucketSum l.reverse = bucketSum l := by
  simp [bucketSum, List.map_reverse, List.sum_reverse]

theorem safeAdd_ok {a b c : Nat} (h : safeAdd a b = .ok c) : c = a + b ∧ a + b < 2 ^ 64 := by
  unfold safeAdd at h
  split at h
  · cases h
    exact ⟨rfl, by assumption⟩
  · cases h

/-! ## `add` -/

theorem add_ok {d d' : DelayedVotes} {headTime val : Nat}
    (h : add d headTime val = .ok d') :
    d' = d ∨
      0 < val ∧ d.sum + val < 2 ^ 64 ∧ (∀ b ∈ d.items.getLast?, b.time + hiveDelayedVotingIntervalSeconds ≤ headTime) ∧
        d' = ⟨d.items ++ [⟨headTime, val⟩], d.sum + val⟩ ∨
      ∃ back, d.items.getLast? = some back ∧ back.time ≤ headTime ∧
        headTime < back.time + hiveDelayedVotingIntervalSeconds ∧ 0 < val ∧ d.sum + val < 2 ^ 64 ∧
        d' = ⟨d.items.dropLast ++ [{ back with val := back.val + val }], d.sum + val⟩ := by
  unfold add at h
  split at h
  · cases h
    exact .inl rfl
  · rename_i hval
    split at h
    · -- the first bucket
      rename_i hlast
      obtain ⟨sum, hsum, hrest⟩ := EState.except_bind_eq_ok h
      obtain ⟨rfl, hlt⟩ := safeAdd_ok hsum
      cases hrest
      exact .inr (.inl ⟨Nat.pos_of_ne_zero hval, hlt, by simp [hlast], rfl⟩)
    · rename_i back hlast
      split at h
      · cases h
      · rename_i hle
        obtain ⟨sum, hsum, hrest⟩ := EState.except_bind_eq_ok h
        obtain ⟨rfl, hlt⟩ := safeAdd_ok hsum
        split at hrest
        · -- an interval after the last bucket: a new one
          rename_i hnew
          cases hrest
          refine .inr (.inl ⟨Nat.pos_of_ne_zero hval, hlt, fun b hb => ?_, rfl⟩)
          rw [hlast, Option.mem_some_iff] at hb
          rw [← hb]
          exact hnew
        · -- within the interval: the last bucket grows
          rename_i hnew
          obtain ⟨v, hv, hrest⟩ := EState.except_bind_eq_ok hrest
          obtain ⟨rfl, -⟩ := safeAdd_ok hv
          cases hrest
          exact .inr (.inr ⟨back, hlast, by omega, by omega, Nat.pos_of_ne_zero hval, hlt, rfl⟩)

theorem times_growLast {items : List DelayedVotesData} {back : DelayedVotesData}
    (hlast : items.getLast? = some back) (v : Nat) :
    (items.dropLast ++ [{ back with val := v }]).map DelayedVotesData.time =
      items.map DelayedVotesData.time := by
  conv_rhs => rw [← List.dropLast_append_getLast? (l := items) back (by rw [hlast]; rfl)]
  simp

theorem bucketSum_growLast {items : List DelayedVotesData} {back : DelayedVotesData}
    (hlast : items.getLast? = some back) (v : Nat) :
    bucketSum (items.dropLast ++ [{ back with val := back.val + v }]) = bucketSum items + v := by
  conv_rhs => rw [← List.dropLast_append_getLast? (l := items) back (by rw [hlast]; rfl)]
  simp only [bucketSum_append, bucketSum_cons, bucketSum_nil]
  omega

theorem DelayedInv.add {d d' : DelayedVotes} {headTime val : Nat} (hd : DelayedInv d)
    (h : add d headTime val = .ok d') : DelayedInv d' := by
  rcases add_ok h with rfl | ⟨hv, hlt, hlast, rfl⟩ | ⟨back, hlast, -, -, hv, hlt, rfl⟩
  · exact hd
  · -- a new bucket, an interval after the last
    refine ⟨by simp [hd.sum_eq], fun x hx => ?_, ?_, hlt⟩
    · rcases List.mem_append.mp hx with hx | hx
      · exact hd.pos x hx
      · rw [List.mem_singleton.mp hx]
        exact hv
    · simp only [DelayedVotes.times, List.map_append, List.map_singleton]
      refine List.isChain_append.mpr ⟨hd.spaced, List.isChain_singleton _, fun x hx y hy => ?_⟩
      rw [List.getLast?_map, Option.mem_def, Option.map_eq_some_iff] at hx
      obtain ⟨b, hb, rfl⟩ := hx
      rw [List.head?_cons, Option.mem_some_iff] at hy
      rw [← hy]
      exact hlast b hb
  · -- the last bucket grows, the times stay
    refine ⟨by rw [bucketSum_growLast hlast, hd.sum_eq], fun x hx => ?_, ?_, hlt⟩
    · rcases List.mem_append.mp hx with hx | hx
      · exact hd.pos x (List.dropLast_subset _ hx)
      · rw [List.mem_singleton.mp hx]
        exact Nat.add_pos_right _ hv
    · show (List.map DelayedVotesData.time _).IsChain Spaced
      rw [times_growLast hlast]
      exact hd.spaced

/-! ## `erase_front` -/

theorem eraseFront_ok {d d' : DelayedVotes} (h : eraseFront d = .ok d') :
    d.items = [] ∧ d' = d ∨
      ∃ front rest, d.items = front :: rest ∧ front.val ≤ d.sum ∧ d' = ⟨rest, d.sum - front.val⟩ := by
  unfold eraseFront at h
  split at h
  · rename_i front rest hitems
    split at h
    · cases h
    · cases h
      exact .inr ⟨front, rest, hitems, by omega, rfl⟩
  · rename_i hitems
    split at h
    · cases h
      exact .inl ⟨hitems, rfl⟩
    · cases h

theorem eraseFront_run {d : DelayedVotes} (hd : DelayedInv d) {front : DelayedVotesData}
    {rest : List DelayedVotesData} (hitems : d.items = front :: rest) :
    eraseFront d = .ok ⟨rest, d.sum - front.val⟩ := by
  have hle : front.val ≤ d.sum := by
    rw [hd.sum_eq, hitems, bucketSum_cons]
    omega
  unfold eraseFront
  rw [hitems]
  exact if_neg (by omega)

theorem DelayedInv.eraseFront {d : DelayedVotes} (hd : DelayedInv d) {front : DelayedVotesData}
    {rest : List DelayedVotesData} (hitems : d.items = front :: rest) :
    DelayedInv ⟨rest, d.sum - front.val⟩ := by
  have hsum := hd.sum_eq
  rw [hitems, bucketSum_cons] at hsum
  refine ⟨by show d.sum - front.val = bucketSum rest; omega,
    fun x hx => hd.pos x (by rw [hitems]; exact List.mem_cons_of_mem _ hx), ?_, by
      show d.sum - front.val < 2 ^ 64; have := hd.sum_lt; omega⟩
  have hsp := hd.spaced
  rw [DelayedVotes.times, hitems, List.map_cons] at hsp
  exact hsp.tail

/-! ## `erase` -/

theorem eraseBack_spec : ∀ (r : List DelayedVotesData) (count : Nat), count < bucketSum r →
    (∀ x ∈ r, 0 < x.val) →
    ∃ r' k, eraseBack r count = some r' ∧
      r'.map DelayedVotesData.time = (r.map DelayedVotesData.time).drop k ∧
      bucketSum r' + count = bucketSum r ∧ ∀ x ∈ r', 0 < x.val
  | [], _, hc, _ => absurd hc (by simp)
  | obj :: rest, count, hc, hpos => by
    rw [bucketSum_cons] at hc
    by_cases hle : obj.val ≤ count
    · -- the whole bucket goes, the loop goes on
      obtain ⟨r', k, hr', htimes, hsum, hpos'⟩ := eraseBack_spec rest (count - obj.val) (by omega)
        fun x hx => hpos x (List.mem_cons_of_mem _ hx)
      refine ⟨r', k + 1, by rw [eraseBack, if_pos hle, hr'], by rw [htimes]; simp, ?_, hpos'⟩
      rw [bucketSum_cons]
      omega
    · -- the bucket is cut and the loop stops
      refine ⟨{ obj with val := obj.val - count } :: rest, 0, by rw [eraseBack, if_neg hle],
        by simp, by simp only [bucketSum_cons]; omega, fun x hx => ?_⟩
      rcases List.mem_cons.mp hx with rfl | hx
      · show 0 < obj.val - count
        omega
      · exact hpos x (List.mem_cons_of_mem _ hx)

theorem times_prefix_of_drop {d : DelayedVotes} {r' : List DelayedVotesData} {k : Nat}
    (htimes : r'.map DelayedVotesData.time = (d.items.reverse.map DelayedVotesData.time).drop k) :
    r'.reverse.map DelayedVotesData.time <+: d.times := by
  rw [List.map_reverse, htimes, List.map_reverse]
  have hsuf := List.drop_suffix k (d.items.map DelayedVotesData.time).reverse
  have hpre := List.reverse_prefix.mpr hsuf
  rwa [List.reverse_reverse] at hpre

theorem erase_run {d : DelayedVotes} (hd : DelayedInv d) {count : Nat} (hc : count ≤ d.sum) :
    ∃ d', erase d count = .ok d' ∧ DelayedInv d' ∧ d'.times <+: d.times := by
  unfold erase
  by_cases h0 : count = 0
  · rw [if_pos h0]
    exact ⟨d, rfl, hd, List.prefix_refl _⟩
  rw [if_neg h0, if_neg (by omega)]
  by_cases hs : d.sum = count
  · rw [if_pos hs]
    exact ⟨⟨[], 0⟩, rfl, DelayedInv.empty, List.nil_prefix⟩
  rw [if_neg hs]
  have hlt : count < bucketSum d.items.reverse := by
    rw [bucketSum_reverse, ← hd.sum_eq]
    omega
  obtain ⟨r', k, hr', htimes, hsum, hpos⟩ :=
    eraseBack_spec _ count hlt fun x hx => hd.pos x (List.mem_reverse.mp hx)
  rw [hr']
  have hpre := times_prefix_of_drop htimes
  refine ⟨_, rfl, ⟨?_, fun x hx => hpos x (List.mem_reverse.mp hx), hd.spaced.prefix hpre, ?_⟩, hpre⟩
  · show d.sum - count = bucketSum r'.reverse
    rw [bucketSum_reverse]
    rw [bucketSum_reverse, ← hd.sum_eq] at hsum
    omega
  · show d.sum - count < 2 ^ 64
    have := hd.sum_lt
    omega

theorem DelayedInv.erase {d d' : DelayedVotes} (hd : DelayedInv d) {count : Nat}
    (h : erase d count = .ok d') : DelayedInv d' ∧ d'.times <+: d.times := by
  have hc : count ≤ d.sum := by
    by_contra hlt
    unfold DelayedVotingProcessor.erase at h
    rw [if_neg (by omega), if_pos (by omega)] at h
    cases h
  obtain ⟨d'', h'', hinv, hpre⟩ := erase_run hd hc
  rw [h''] at h
  cases h
  exact ⟨hinv, hpre⟩

/-! ## `delayed_voting::run` -/

theorem pairwise_spaced {ts : List Nat} (h : ts.IsChain Spaced) : ts.Pairwise Spaced :=
  List.isChain_iff_pairwise.mp h

theorem runLoop_spec (headTime : Nat) : ∀ (fuel : Nat) (d : DelayedVotes), DelayedInv d →
    ∃ d', runLoop headTime fuel d = .ok d' ∧ DelayedInv d' ∧ d'.times <:+ d.times ∧
      (d.items.length ≤ fuel →
        ∀ t ∈ d'.times, headTime < t + hiveDelayedVotingTotalIntervalSeconds) := by
  intro fuel
  induction fuel with
  | zero =>
    intro d hd
    refine ⟨d, rfl, hd, List.suffix_refl _, fun hlen t ht => ?_⟩
    rw [Nat.le_zero, List.length_eq_zero_iff] at hlen
    simp [DelayedVotes.times, hlen] at ht
  | succ fuel ih =>
    intro d hd
    rcases hitems : d.items with _ | ⟨front, rest⟩
    · refine ⟨d, by rw [runLoop, hitems], hd, List.suffix_refl _, fun _ t ht => ?_⟩
      simp [DelayedVotes.times, hitems] at ht
    · by_cases hdue : front.time + hiveDelayedVotingTotalIntervalSeconds ≤ headTime
      · -- the oldest bucket matures and leaves; the rounds go on
        obtain ⟨d', hrun, hinv, hsuf, hdone⟩ := ih _ (hd.eraseFront hitems)
        refine ⟨d', ?_, hinv, hsuf.trans ?_, fun hlen => hdone (by simp_all)⟩
        · rw [runLoop, hitems]
          simp only [if_pos hdue, eraseFront_run hd hitems]
          exact hrun
        · show rest.map DelayedVotesData.time <:+ d.times
          rw [DelayedVotes.times, hitems, List.map_cons]
          exact List.suffix_cons _ _
      · -- the oldest bucket is not due, nor any later one
        refine ⟨d, by rw [runLoop, hitems]; exact if_neg hdue, hd, List.suffix_refl _, fun _ t ht => ?_⟩
        have hsp := pairwise_spaced hd.spaced
        rw [DelayedVotes.times, hitems, List.map_cons] at hsp ht
        rcases List.mem_cons.mp ht with rfl | ht
        · omega
        · have := List.rel_of_pairwise_cons hsp ht
          unfold Spaced at this
          omega

/-! ## The calls in their transactions -/

theorem DelayedEvent.run_inv (e : DelayedEvent) {d : DelayedVotes} (hd : DelayedInv d) :
    DelayedInv (e.run d) := by
  unfold DelayedEvent.run
  split
  · rename_i d' h
    cases e with
    | add headTime val => exact hd.add h
    | erase count => exact (hd.erase h).1
    | eraseFront =>
      rcases eraseFront_ok h with ⟨-, rfl⟩ | ⟨front, rest, hitems, -, rfl⟩
      · exact hd
      · exact hd.eraseFront hitems
  · exact hd

theorem runDelayedEvents_inv (es : List DelayedEvent) :
    ∀ {d : DelayedVotes}, DelayedInv d → DelayedInv (runDelayedEvents es d) := by
  induction es with
  | nil => exact fun hd => hd
  | cons e es ih => exact fun hd => ih (e.run_inv hd)

/-! ## How many buckets -/

theorem length_mul_le_of_spaced : ∀ {ts : List Nat} (lo hi : Nat), ts.Pairwise Spaced →
    (∀ t ∈ ts, lo ≤ t ∧ t ≤ hi) →
    ts.length * hiveDelayedVotingIntervalSeconds ≤ hi - lo + hiveDelayedVotingIntervalSeconds
  | [], _, _, _, _ => by simp
  | t :: ts, lo, hi, hp, hin => by
    rw [List.pairwise_cons] at hp
    have ih := length_mul_le_of_spaced (t + hiveDelayedVotingIntervalSeconds) hi hp.2
      fun u hu => ⟨hp.1 u hu, (hin u (List.mem_cons_of_mem _ hu)).2⟩
    have ht := hin t List.mem_cons_self
    rw [List.length_cons, Nat.succ_mul]
    rcases ts with _ | ⟨u, us⟩
    · simp
    · have hu := hp.1 u List.mem_cons_self
      have hu' := (hin u (List.mem_cons_of_mem _ List.mem_cons_self)).2
      unfold Spaced at hu
      omega

/-- After `run` at `h`: every bucket is from `h` or before and has waited less than the total
interval. -/
def Settled (h : Nat) (d : DelayedVotes) : Prop :=
  DelayedInv d ∧ ∀ t ∈ d.times, h < t + hiveDelayedVotingTotalIntervalSeconds ∧ t ≤ h

/-- Inside the block at `h'` that follows a block settled at `h`: the settled buckets, then at
most one of time `h'`. -/
def Pending (h h' : Nat) (d : DelayedVotes) : Prop :=
  DelayedInv d ∧ ∃ ps qs, d.times = ps ++ qs ∧
    (∀ t ∈ ps, h < t + hiveDelayedVotingTotalIntervalSeconds ∧ t ≤ h) ∧ (∀ t ∈ qs, t = h') ∧
    qs.length ≤ 1

theorem length_le_of_settled {ts : List Nat} {h : Nat} (hp : ts.Pairwise Spaced)
    (hin : ∀ t ∈ ts, h < t + hiveDelayedVotingTotalIntervalSeconds ∧ t ≤ h) :
    ts.length ≤ hiveDelayedVotingTotalIntervalSeconds / hiveDelayedVotingIntervalSeconds := by
  have hlen := length_mul_le_of_spaced (h + 1 - hiveDelayedVotingTotalIntervalSeconds) h hp
    fun t ht => ⟨by have := (hin t ht).1; omega, (hin t ht).2⟩
  unfold hiveDelayedVotingTotalIntervalSeconds hiveDelayedVotingIntervalSeconds at *
  omega

theorem Settled.length_le {h : Nat} {d : DelayedVotes} (hs : Settled h d) :
    d.items.length ≤ hiveDelayedVotingTotalIntervalSeconds / hiveDelayedVotingIntervalSeconds := by
  have := length_le_of_settled (pairwise_spaced hs.1.spaced) hs.2
  rwa [DelayedVotes.times, List.length_map] at this

theorem Pending.length_le {h h' : Nat} {d : DelayedVotes} (hp : Pending h h' d) :
    d.items.length ≤ hiveDelayedVotingTotalIntervalSeconds / hiveDelayedVotingIntervalSeconds + 1 := by
  obtain ⟨hd, ps, qs, htimes, hps, -, hqs⟩ := hp
  have hsp : ps.Pairwise Spaced := by
    have := pairwise_spaced hd.spaced
    rw [htimes] at this
    exact this.sublist (List.sublist_append_left _ _)
  have hlen := length_le_of_settled hsp hps
  have hall : d.times.length = ps.length + qs.length := by rw [htimes, List.length_append]
  rw [DelayedVotes.times, List.length_map] at hall
  omega

theorem Settled.pending {h h' : Nat} {d : DelayedVotes} (hs : Settled h d) : Pending h h' d :=
  ⟨hs.1, d.times, [], by simp, hs.2, by simp, by simp⟩

theorem Pending.add {h h' : Nat} {d d' : DelayedVotes} (hp : Pending h h' d) {val : Nat}
    (hadd : add d h' val = .ok d') : Pending h h' d' := by
  obtain ⟨hd, ps, qs, htimes, hps, hqs, hlen⟩ := hp
  refine ⟨hd.add hadd, ?_⟩
  rcases add_ok hadd with rfl | ⟨-, -, hlast, rfl⟩ | ⟨back, hlast, -, -, -, -, rfl⟩
  · exact ⟨ps, qs, htimes, hps, hqs, hlen⟩
  · -- a new bucket: none of time `h'` was there, since it would be less than an interval old
    have hq : qs = [] := by
      rcases qs with _ | ⟨q, qs⟩
      · rfl
      · exfalso
        have hq' : qs = [] := by
          simp only [List.length_cons] at hlen
          exact List.length_eq_zero_iff.mp (by omega)
        subst hq'
        have hlast' : d.times.getLast? = some q := by rw [htimes]; simp
        rw [DelayedVotes.times, List.getLast?_map, Option.map_eq_some_iff] at hlast'
        obtain ⟨b, hb, hbq⟩ := hlast'
        have := hlast b hb
        rw [hbq, hqs q List.mem_cons_self] at this
        unfold hiveDelayedVotingIntervalSeconds at this
        omega
    subst hq
    refine ⟨ps, [h'], ?_, hps, by simp, by simp⟩
    show (d.items ++ [(⟨h', val⟩ : DelayedVotesData)]).map DelayedVotesData.time = _
    rw [List.map_append, ← DelayedVotes.times, htimes]
    simp
  · refine ⟨ps, qs, ?_, hps, hqs, hlen⟩
    show (d.items.dropLast ++ [_]).map DelayedVotesData.time = _
    rw [times_growLast hlast, ← DelayedVotes.times, htimes]

theorem Pending.erase {h h' : Nat} {d d' : DelayedVotes} (hp : Pending h h' d) {count : Nat}
    (herase : erase d count = .ok d') : Pending h h' d' := by
  obtain ⟨hd, ps, qs, htimes, hps, hqs, hlen⟩ := hp
  obtain ⟨hd', hpre⟩ := hd.erase herase
  rw [htimes, List.prefix_iff_eq_take, List.take_append] at hpre
  refine ⟨hd', _, _, hpre, fun t ht => hps t (List.take_subset _ _ ht),
    fun t ht => hqs t (List.take_subset _ _ ht), ?_⟩
  rw [List.length_take]
  omega

theorem VestingChange.run_pending {h h' : Nat} (c : VestingChange)
    {d : DelayedVotes} (hp : Pending h h' d) : Pending h h' (c.run h' d) := by
  cases c with
  | deposit val =>
    show Pending h h' ((DelayedEvent.add h' val).run d)
    unfold DelayedEvent.run DelayedEvent.apply
    split
    · rename_i d' hadd
      exact hp.add hadd
    · exact hp
  | withdraw count =>
    show Pending h h' ((DelayedEvent.erase (min count d.sum)).run d)
    unfold DelayedEvent.run DelayedEvent.apply
    split
    · rename_i d' herase
      exact hp.erase herase
    · exact hp

theorem runChanges_pending {h h' : Nat} (cs : List VestingChange) :
    ∀ {d : DelayedVotes}, Pending h h' d → Pending h h' (runChanges h' cs d) := by
  induction cs with
  | nil => exact fun hp => hp
  | cons c cs ih => exact fun hp => ih (c.run_pending hp)

theorem delayedVotingRun_settled {h h' : Nat} (hh : h ≤ h') {d : DelayedVotes}
    (hp : Pending h h' d) : ∃ d', delayedVotingRun h' d = .ok d' ∧ Settled h' d' := by
  obtain ⟨d', hrun, hinv, hsuf, hdone⟩ := runLoop_spec h' d.items.length d hp.1
  obtain ⟨-, ps, qs, htimes, hps, hqs, -⟩ := hp
  refine ⟨d', hrun, hinv, fun t ht => ⟨hdone le_rfl t ht, ?_⟩⟩
  have ht' := hsuf.subset ht
  rw [htimes] at ht'
  rcases List.mem_append.mp ht' with ht' | ht'
  · exact (hps t ht').2.trans hh
  · exact (hqs t ht').le

theorem runBlock_settled {h h' : Nat} (hh : h ≤ h') (cs : List VestingChange) {d : DelayedVotes}
    (hs : Settled h d) : Settled h' (runBlock h' cs d) := by
  obtain ⟨d', hrun, hd'⟩ := delayedVotingRun_settled hh (runChanges_pending cs hs.pending)
  unfold runBlock
  rw [hrun]
  exact hd'

theorem runBlocks_settled (blocks : List (Nat × List VestingChange)) :
    ∀ {h₀ h : Nat} {d : DelayedVotes}, Settled h₀ d →
      (h₀ :: blocks.map Prod.fst ++ [h]).IsChain (· ≤ ·) →
      ∃ h₁, h₁ ≤ h ∧ Settled h₁ (runBlocks blocks d) := by
  induction blocks with
  | nil =>
    intro h₀ h d hs hchain
    exact ⟨h₀, by simpa using hchain, hs⟩
  | cons b blocks ih =>
    intro h₀ h d hs hchain
    rw [List.map_cons, List.cons_append, List.cons_append, List.isChain_cons_cons] at hchain
    exact ih (runBlock_settled hchain.1 b.2 hs) hchain.2

/-- The delayed-vote buckets stay spaced, summed and erasable over every run, and the blocks of a
chain keep no more buckets than the voting delay has intervals. -/
theorem delayed_votes_bucket_invariant (es : List DelayedEvent)
    (blocks : List (Nat × List VestingChange)) (h : Nat) (cs : List VestingChange)
    (hsorted : (blocks.map Prod.fst ++ [h]).IsChain (· ≤ ·)) :
    (DelayedInv (runDelayedEvents es ⟨[], 0⟩) ∧
      ∀ count ≤ (runDelayedEvents es ⟨[], 0⟩).sum,
        ∃ d', erase (runDelayedEvents es ⟨[], 0⟩) count = .ok d') ∧
    (runBlocks blocks ⟨[], 0⟩).items.length ≤
      hiveDelayedVotingTotalIntervalSeconds / hiveDelayedVotingIntervalSeconds ∧
    (runChanges h cs (runBlocks blocks ⟨[], 0⟩)).items.length ≤
      hiveDelayedVotingTotalIntervalSeconds / hiveDelayedVotingIntervalSeconds + 1 := by
  have hd := runDelayedEvents_inv es DelayedInv.empty
  refine ⟨⟨hd, fun count hc => ?_⟩, ?_⟩
  · obtain ⟨d', herase, -⟩ := erase_run hd hc
    exact ⟨d', herase⟩
  -- the empty buckets are settled at time `0`, before every block
  have hempty : Settled 0 ⟨[], 0⟩ := ⟨DelayedInv.empty, fun _ h => absurd h List.not_mem_nil⟩
  have hchain : (0 :: blocks.map Prod.fst ++ [h]).IsChain (· ≤ ·) :=
    List.IsChain.cons hsorted fun _ _ => Nat.zero_le _
  obtain ⟨h₁, -, hs⟩ := runBlocks_settled blocks hempty hchain
  have hp : Pending h₁ h (runBlocks blocks ⟨[], 0⟩) := hs.pending
  exact ⟨hs.length_le, (runChanges_pending cs hp).length_le⟩

def delayedSampleBlocks : List (Nat × List VestingChange) :=
  [(0, [.deposit 5]), (86400, [.withdraw 2, .deposit 1])]

theorem delayed_votes_bucket_invariant_sample :
    (delayedSampleBlocks.map Prod.fst ++ [86400]).IsChain (· ≤ ·) ∧
      (runChanges 86400 [.deposit 3]
        (runBlocks delayedSampleBlocks ⟨[], 0⟩)).items.length ≤
        hiveDelayedVotingTotalIntervalSeconds / hiveDelayedVotingIntervalSeconds + 1 :=
  ⟨by decide, (delayed_votes_bucket_invariant [.add 0 5, .erase 2] delayedSampleBlocks 86400
    [.deposit 3] (by decide)).2.2⟩

end Chain
end HiveChain
