import AcrossBridge.HubPool.Horizon

/-!
# The walk of `getNthFullyExecutedRootBundle`

With proposals in strictly increasing blocks, the valid bundles at a horizon
are a sorted list, and the two loops of `getNthFullyExecutedRootBundle` read it
one bundle per pass.

The forward loop (`n > 0`) keeps the horizon at the latest block and moves its
start block past each bundle found, so while bundles remain it reads the valid
bundles from the start block on, oldest first. Once they run out it finds
nothing, falls back on block `0` and starts again from block `1`.

The backward loop (`n < 0`) moves the horizon itself to the block before each
bundle found, so every later pass judges validity at a smaller horizon. The
walk reads the valid bundles at the first horizon newest first exactly when
the smaller horizons change no verdict: when no leaf is executed in the block
of a proposal, and no proposal is at block `0`, where the clamped horizon would
find it again.
-/

namespace AcrossBridge

namespace HubPool

namespace HubPoolClient

/-- Proposals were made in strictly increasing blocks. -/
def ProposalsOrdered (c : HubPoolClient) : Prop :=
  c.proposedRootBundles.Pairwise fun a b => a.blockNumber < b.blockNumber

instance (c : HubPoolClient) : Decidable c.ProposalsOrdered :=
  inferInstanceAs (Decidable (List.Pairwise _ _))

section Ordered

variable {c : HubPoolClient}

theorem findLastIndex_append_singleton {α : Type} {p : α → Bool} {a : α} (ha : p a) :
    ∀ l : List α, findLastIndex p (l ++ [a]) = some l.length
  | [] => by simp [findLastIndex, ha]
  | x :: l => by simp [findLastIndex, findLastIndex_append_singleton ha l]

/-- Among ordered proposals, the bundle following `rootBundle` exists as soon as
some proposal is later, and it is no later than that proposal. -/
theorem getFollowingRootBundle_of_lt (hc : c.ProposalsOrdered)
    {rootBundle p : ProposedRootBundle} (hrb : rootBundle ∈ c.proposedRootBundles)
    (hp : p ∈ c.proposedRootBundles) (hlt : rootBundle.blockNumber < p.blockNumber) :
    ∃ next ∈ c.proposedRootBundles, c.getFollowingRootBundle rootBundle = some next ∧
      next.blockNumber ≤ p.blockNumber := by
  obtain ⟨l₁, l₂, hl⟩ := List.append_of_mem hrb
  have hs := hc
  rw [ProposalsOrdered, hl, List.pairwise_append, List.pairwise_cons] at hs
  obtain ⟨-, ⟨hl₂, htail⟩, hl₁⟩ := hs
  rw [hl, List.mem_append, List.mem_cons] at hp
  rcases hp with hp | rfl | hp
  · have := hl₁ p hp rootBundle (List.mem_cons_self _ _)
    omega
  · omega
  obtain ⟨next, l₃, rfl⟩ := List.exists_cons_of_ne_nil (List.ne_nil_of_mem hp)
  have hidx : findLastIndex (fun bundle => bundle.blockNumber == rootBundle.blockNumber)
      c.proposedRootBundles = some l₁.length := by
    rw [hl, show l₁ ++ rootBundle :: next :: l₃ = (l₁ ++ [rootBundle]) ++ next :: l₃ by simp,
      findLastIndex_append _ _ fun b hb => by
        have := hl₂ b hb; simp only [beq_eq_false_iff_ne, ne_eq]; omega,
      findLastIndex_append_singleton (by simp)]
  have hnext : c.getFollowingRootBundle rootBundle = some next := by
    simp only [getFollowingRootBundle, hidx]
    rw [hl, List.getElem?_append_right (Nat.le_succ _), show l₁.length + 1 - l₁.length = 1 by omega]
    simp
  refine ⟨next, by simp [hl], hnext, ?_⟩
  rcases List.mem_cons.1 hp with rfl | hp
  · exact le_rfl
  · exact (List.rel_of_pairwise_cons htail hp).le

/-- No leaf was executed in the block of a proposal. -/
def NoLeafInProposalBlock (c : HubPoolClient) : Prop :=
  ∀ leaf ∈ c.executedRootBundles, ∀ b ∈ c.proposedRootBundles, leaf.blockNumber ≠ b.blockNumber

instance (c : HubPoolClient) : Decidable c.NoLeafInProposalBlock :=
  inferInstanceAs (Decidable (∀ leaf ∈ c.executedRootBundles, ∀ b ∈ c.proposedRootBundles, _))

theorem mem_getValidatedRootBundles {H : Nat} {rootBundle : ProposedRootBundle}
    (h : rootBundle ∈ c.getValidatedRootBundles H) :
    rootBundle ∈ c.proposedRootBundles ∧ rootBundle.blockNumber ≤ H := by
  obtain ⟨hmem, hv⟩ := List.mem_filter.1 h
  refine ⟨hmem, not_lt.1 fun hlt => ?_⟩
  simp [validatedAt, hlt] at hv

theorem getValidatedRootBundles_ordered (hc : c.ProposalsOrdered) (H : Nat) :
    (c.getValidatedRootBundles H).Pairwise fun a b => a.blockNumber < b.blockNumber :=
  List.Pairwise.filter _ hc

/-- A bundle proposed by `h` is judged alike at `h` and at a later horizon `H`
when block `h + 1` holds a proposal and no leaf is executed in a proposal's
block: its following bundle comes no later than block `h + 1`, so the two
windows differ at most by that block. -/
theorem isRootBundleValid_of_proposal_after (hc : c.ProposalsOrdered)
    (hleaf : c.NoLeafInProposalBlock) {rootBundle p : ProposedRootBundle}
    (hrb : rootBundle ∈ c.proposedRootBundles) (hp : p ∈ c.proposedRootBundles)
    {h H : Nat} (hhH : h ≤ H) (hph : p.blockNumber = h + 1) (hrbh : rootBundle.blockNumber ≤ h) :
    c.isRootBundleValid rootBundle h = c.isRootBundleValid rootBundle H := by
  obtain ⟨next, hnextMem, hnext, hle⟩ := getFollowingRootBundle_of_lt hc hrb hp (by omega)
  simp only [isRootBundleValid, hnext, getExecutedLeavesForRootBundle]
  congr 2
  refine List.filter_congr fun leaf hleafMem => ?_
  have := hleaf leaf hleafMem next hnextMem
  congr 1
  exact decide_eq_decide.2 (by omega)

/-- At a horizon `h` below `H` that is `H` itself, `0`, or the block before a
proposal, the valid bundles are those valid at `H` proposed by `h`. -/
theorem getValidatedRootBundles_of_le (hc : c.ProposalsOrdered)
    (hpos : ∀ b ∈ c.proposedRootBundles, 0 < b.blockNumber) (hleaf : c.NoLeafInProposalBlock)
    {h H : Nat} (hhH : h ≤ H)
    (hadm : h = H ∨ h = 0 ∨ ∃ p ∈ c.proposedRootBundles, p.blockNumber = h + 1) :
    c.getValidatedRootBundles h =
      (c.getValidatedRootBundles H).filter fun b => b.blockNumber ≤ h := by
  simp only [getValidatedRootBundles, List.filter_filter]
  refine List.filter_congr fun rootBundle hrb => ?_
  simp only [validatedAt]
  by_cases hb : rootBundle.blockNumber ≤ h
  · rw [if_neg (by omega), if_neg (by omega)]
    rcases hadm with rfl | rfl | ⟨p, hp, hph⟩
    · simp [hb]
    · exact absurd hb (by have := hpos rootBundle hrb; omega)
    · simp [hb, isRootBundleValid_of_proposal_after hc hleaf hrb hp hhH hph hb]
  · rw [if_pos (by omega)]
    simp [hb]

/-- In a list ordered by block, the entries before the last one are those
proposed before its block. -/
theorem filter_lt_getLast {l : List ProposedRootBundle} {b : ProposedRootBundle}
    (hl : (l ++ [b]).Pairwise fun a b => a.blockNumber < b.blockNumber) (hb : 0 < b.blockNumber) :
    (l ++ [b]).filter (fun a => a.blockNumber ≤ b.blockNumber - 1) = l := by
  rw [List.filter_append, List.filter_eq_self.2, List.filter_eq_nil_iff.2, List.append_nil]
  · simp only [List.mem_singleton, forall_eq, decide_eq_true_eq]
    omega
  · intro a ha
    have := (List.pairwise_append.1 hl).2.2 a ha b (List.mem_singleton_self b)
    simp only [decide_eq_true_eq]
    omega

end Ordered

section Backward

variable {c : HubPoolClient}

/-- Each pass of the backward loop takes the newest bundle valid at `H` and
proposed by the current horizon, so after `k + 1` passes the loop holds the
`k`-th newest of them. -/
theorem nthLatestLoop_eq (hc : c.ProposalsOrdered)
    (hpos : ∀ b ∈ c.proposedRootBundles, 0 < b.blockNumber) (hleaf : c.NoLeafInProposalBlock)
    {H : Nat} (k : Nat) :
    ∀ {h : Nat} (x : Option ProposedRootBundle), h ≤ H →
      (h = H ∨ h = 0 ∨ ∃ p ∈ c.proposedRootBundles, p.blockNumber = h + 1) →
      c.nthLatestLoop (k + 1) h x =
        ((c.getValidatedRootBundles H).filter fun b => b.blockNumber ≤ h).reverse[k]? := by
  induction k with
  | zero =>
      intro h x hhH hadm
      rw [nthLatestLoop, nthLatestLoop, getLatestFullyExecutedRootBundle_eq,
        getValidatedRootBundles_of_le hc hpos hleaf hhH hadm, List.getLast?_eq_head?_reverse,
        List.head?_eq_getElem?]
  | succ k ih =>
      intro h x hhH hadm
      have hW := getValidatedRootBundles_of_le hc hpos hleaf hhH hadm
      rcases List.eq_nil_or_concat ((c.getValidatedRootBundles H).filter fun b =>
          b.blockNumber ≤ h) with hnil | ⟨W, b, hWb⟩
      · -- nothing is valid by `h`: the horizon drops to `0`, where nothing is proposed
        have h0 : (c.getValidatedRootBundles H).filter (fun b => b.blockNumber ≤ 0) = [] :=
          List.filter_eq_nil_iff.2 fun b hb => by
            simpa using (hpos b (mem_getValidatedRootBundles hb).1).ne'
        rw [nthLatestLoop, getLatestFullyExecutedRootBundle_eq, hW, hnil, List.getLast?_nil]
        show c.nthLatestLoop (k + 1) 0 none = _
        rw [ih none (Nat.zero_le H) (.inr (.inl rfl)), h0]
        simp
      · -- the newest valid bundle `b`: the horizon moves to the block before it
        rw [List.concat_eq_append] at hWb
        have hbW : b ∈ (c.getValidatedRootBundles H).filter fun b => b.blockNumber ≤ h :=
          hWb ▸ List.mem_append_right W (List.mem_singleton_self b)
        have hbh : b.blockNumber ≤ h := by simpa using (List.mem_filter.1 hbW).2
        have hb := mem_getValidatedRootBundles (List.mem_of_mem_filter hbW)
        have hb0 := hpos b hb.1
        have hord : (W ++ [b]).Pairwise fun a b => a.blockNumber < b.blockNumber := by
          rw [← hWb]
          exact (getValidatedRootBundles_ordered hc H).filter _
        have hbefore : ((c.getValidatedRootBundles H).filter fun a =>
            a.blockNumber ≤ b.blockNumber - 1) = W := by
          conv_rhs => rw [← filter_lt_getLast hord hb0, ← hWb, List.filter_filter]
          refine List.filter_congr fun a _ => ?_
          simp only [← Bool.decide_and, decide_eq_decide]
          omega
        rw [nthLatestLoop, getLatestFullyExecutedRootBundle_eq, hW, hWb, List.getLast?_concat]
        show c.nthLatestLoop (k + 1) (b.blockNumber - 1) (some b) = _
        rw [ih (some b) (by omega) (.inr (.inr ⟨b, hb.1, by omega⟩)), hbefore]
        simp

/-- With proposals in strictly increasing positive blocks and no leaf executed
in the block of a proposal, the backward walk reads the bundles valid at its
first horizon newest first, and finds nothing past the oldest. -/
theorem getNthFullyExecutedRootBundle_backward (hc : c.ProposalsOrdered)
    (hpos : ∀ b ∈ c.proposedRootBundles, 0 < b.blockNumber) (hleaf : c.NoLeafInProposalBlock)
    {latestBlockNumber : Nat} (hL : c.latestBlockNumber = some latestBlockNumber)
    (hL0 : 0 < latestBlockNumber) {n : Int} (hn : n ≤ -1) (startBlock : Option Nat) :
    c.getNthFullyExecutedRootBundle n startBlock =
      .ok ((c.getValidatedRootBundles (startBlock.getD latestBlockNumber)).reverse[n.natAbs - 1]?) := by
  obtain ⟨L, rfl⟩ : ∃ L, latestBlockNumber = L + 1 := ⟨latestBlockNumber - 1, by omega⟩
  obtain ⟨k, hk⟩ : ∃ k, n.natAbs = k + 1 := ⟨n.natAbs - 1, by omega⟩
  set H := startBlock.getD (L + 1)
  have hall : ((c.getValidatedRootBundles H).filter fun b => b.blockNumber ≤ H) =
      c.getValidatedRootBundles H :=
    List.filter_eq_self.2 fun b hb => by simpa using (mem_getValidatedRootBundles hb).2
  simp only [getNthFullyExecutedRootBundle, hL, if_neg (show n ≠ 0 by omega),
    if_pos (show n < 0 by omega), hk]
  rw [nthLatestLoop_eq hc hpos hleaf k none le_rfl (.inl rfl), hall, Nat.add_sub_cancel]

theorem getNthFullyExecutedRootBundle_backward_three_bundles :
    (let c := { HubPoolClient.init ⟨0, none, 0⟩ ⟨[], []⟩ with
      proposedRootBundles := [⟨⟨10, 0, 0⟩, 1, []⟩, ⟨⟨20, 0, 0⟩, 1, []⟩, ⟨⟨30, 0, 0⟩, 1, []⟩]
      executedRootBundles := [⟨⟨15, 0, 0⟩, 1, [], []⟩, ⟨⟨25, 0, 0⟩, 1, [], []⟩,
        ⟨⟨35, 0, 0⟩, 1, [], []⟩]
      latestBlockNumber := some 40 }
    c.getNthFullyExecutedRootBundle (-2) none =
      .ok ((c.getValidatedRootBundles ((none : Option Nat).getD 40)).reverse[(-2 : Int).natAbs - 1]?)) :=
  getNthFullyExecutedRootBundle_backward (by decide) (by decide) (by decide) rfl (by decide)
    (by decide) none

/-- The backward walk drops a bundle whose last leaf was executed in the block of
the next proposal. Both one-leaf bundles, proposed at blocks `10` and `20`, are
valid at the latest block `30`, and the forward walk counts both; but the second
pass of the backward walk judges the first bundle at horizon `19`, before its
leaf executed at block `20`, and finds nothing. -/
theorem getNthFullyExecutedRootBundle_skips_same_block_execution :
    (let c := { HubPoolClient.init ⟨0, none, 0⟩ ⟨[], []⟩ with
      proposedRootBundles := [⟨⟨10, 0, 0⟩, 1, []⟩, ⟨⟨20, 0, 0⟩, 1, []⟩]
      executedRootBundles := [⟨⟨20, 0, 0⟩, 1, [], []⟩, ⟨⟨25, 0, 0⟩, 1, [], []⟩]
      latestBlockNumber := some 30 }
    c.ProposalsOrdered ∧ c.getValidatedRootBundles 30 = c.proposedRootBundles ∧
      c.getNthFullyExecutedRootBundle 2 none = .ok (some ⟨⟨20, 0, 0⟩, 1, []⟩) ∧
      c.getNthFullyExecutedRootBundle (-2) none = .ok none) :=
  ⟨by decide, rfl, rfl, rfl⟩

end Backward

section Forward

variable {c : HubPoolClient}

/-- The earliest bundle from the start block on is the first of the valid
bundles from there. -/
theorem getEarliestFullyExecutedRootBundle_eq_head? (latestMainnetBlock startBlock : Nat) :
    c.getEarliestFullyExecutedRootBundle latestMainnetBlock startBlock =
      ((c.getValidatedRootBundles latestMainnetBlock).filter fun b =>
        startBlock ≤ b.blockNumber).head? := by
  rw [getEarliestFullyExecutedRootBundle_eq, getValidatedRootBundles, List.filter_filter,
    List.filter_head?]

/-- In a list ordered by block, the entries after the first are those proposed
after its block. -/
theorem filter_gt_head {l : List ProposedRootBundle} {b : ProposedRootBundle}
    (hl : (b :: l).Pairwise fun a b => a.blockNumber < b.blockNumber) :
    (b :: l).filter (fun a => b.blockNumber + 1 ≤ a.blockNumber) = l := by
  rw [List.filter_cons_of_neg (by simp), List.filter_eq_self.2]
  intro a ha
  have := List.rel_of_pairwise_cons hl ha
  simp only [decide_eq_true_eq]
  omega

/-- While bundles remain, each pass of the forward loop takes the oldest valid
bundle from the start block on and moves the start block past it, so after
`k + 1` passes the loop holds the `k`-th oldest of them. -/
theorem nthEarliestLoop_eq (hc : c.ProposalsOrdered) {latestBlockNumber : Nat} (k : Nat) :
    ∀ {s : Nat} (x : Option ProposedRootBundle),
      k < ((c.getValidatedRootBundles latestBlockNumber).filter fun b => s ≤ b.blockNumber).length →
      c.nthEarliestLoop latestBlockNumber (k + 1) s x =
        ((c.getValidatedRootBundles latestBlockNumber).filter fun b => s ≤ b.blockNumber)[k]? := by
  induction k with
  | zero =>
      intro s x _
      rw [nthEarliestLoop, nthEarliestLoop, getEarliestFullyExecutedRootBundle_eq_head?,
        List.head?_eq_getElem?]
  | succ k ih =>
      intro s x hk
      obtain ⟨b, W, hbW⟩ := List.exists_cons_of_length_pos (show 0 <
        ((c.getValidatedRootBundles latestBlockNumber).filter fun b => s ≤ b.blockNumber).length
        by omega)
      have hord : (b :: W).Pairwise fun a b => a.blockNumber < b.blockNumber := by
        rw [← hbW]
        exact (getValidatedRootBundles_ordered hc latestBlockNumber).filter _
      rw [hbW, List.length_cons] at hk
      obtain ⟨b', W', rfl⟩ := List.exists_cons_of_length_pos (show 0 < W.length by omega)
      have hbmem : b ∈ (c.getValidatedRootBundles latestBlockNumber).filter fun b =>
          s ≤ b.blockNumber := hbW ▸ List.mem_cons_self b (b' :: W')
      have hb : s ≤ b.blockNumber := of_decide_eq_true (List.mem_filter.1 hbmem).2
      have hb' := mem_getValidatedRootBundles (List.mem_of_mem_filter
        (hbW ▸ List.mem_cons_of_mem b (List.mem_cons_self b' W')))
      have hbb' := List.rel_of_pairwise_cons hord (List.mem_cons_self b' W')
      have hafter : ((c.getValidatedRootBundles latestBlockNumber).filter fun a =>
          b.blockNumber + 1 ≤ a.blockNumber) = b' :: W' := by
        conv_rhs => rw [← filter_gt_head hord, ← hbW, List.filter_filter]
        refine List.filter_congr fun a _ => ?_
        simp only [← Bool.decide_and, decide_eq_decide]
        omega
      rw [nthEarliestLoop, getEarliestFullyExecutedRootBundle_eq_head?, hbW]
      show c.nthEarliestLoop latestBlockNumber (k + 1)
        (min (b.blockNumber + 1) latestBlockNumber) (some b) = _
      rw [min_eq_left (by omega),
        ih (some b) (by rw [hafter]; simp only [List.length_cons] at hk ⊢; omega), hafter]
      simp

/-- While there are at least `n` valid bundles from the start block on, the
forward walk returns the `n`-th oldest of them. -/
theorem getNthFullyExecutedRootBundle_forward (hc : c.ProposalsOrdered)
    {latestBlockNumber : Nat} (hL : c.latestBlockNumber = some latestBlockNumber)
    (hL0 : 0 < latestBlockNumber) {n : Int} (hn : 1 ≤ n) (startBlock : Option Nat)
    (hcount : n.natAbs ≤ ((c.getValidatedRootBundles latestBlockNumber).filter fun b =>
      startBlock.getD 0 ≤ b.blockNumber).length) :
    c.getNthFullyExecutedRootBundle n startBlock =
      .ok (((c.getValidatedRootBundles latestBlockNumber).filter fun b =>
        startBlock.getD 0 ≤ b.blockNumber)[n.natAbs - 1]?) := by
  obtain ⟨L, rfl⟩ : ∃ L, latestBlockNumber = L + 1 := ⟨latestBlockNumber - 1, by omega⟩
  obtain ⟨k, hk⟩ : ∃ k, n.natAbs = k + 1 := ⟨n.natAbs - 1, by omega⟩
  simp only [getNthFullyExecutedRootBundle, hL, if_neg (show n ≠ 0 by omega),
    if_neg (show ¬ n < 0 by omega), hk]
  rw [nthEarliestLoop_eq hc k none (by omega), Nat.add_sub_cancel]

theorem getNthFullyExecutedRootBundle_forward_three_bundles_from_twelve :
    (let c := { HubPoolClient.init ⟨0, none, 0⟩ ⟨[], []⟩ with
      proposedRootBundles := [⟨⟨10, 0, 0⟩, 1, []⟩, ⟨⟨20, 0, 0⟩, 1, []⟩, ⟨⟨30, 0, 0⟩, 1, []⟩]
      executedRootBundles := [⟨⟨15, 0, 0⟩, 1, [], []⟩, ⟨⟨25, 0, 0⟩, 1, [], []⟩,
        ⟨⟨35, 0, 0⟩, 1, [], []⟩]
      latestBlockNumber := some 40 }
    c.getNthFullyExecutedRootBundle 2 (some 12) =
      .ok (((c.getValidatedRootBundles 40).filter fun b =>
        (some 12 : Option Nat).getD 0 ≤ b.blockNumber)[(2 : Int).natAbs - 1]?)) :=
  getNthFullyExecutedRootBundle_forward (by decide) rfl (by decide) (by decide) (some 12)
    (by decide)

/-- The forward walk starts again from block `1` once it has run out of bundles.
Of the bundles valid at the latest block `30`, only the one proposed at block
`20` is from block `15` on; the second pass finds nothing and falls back on block
`0`, so the third pass starts from block `1` and returns the bundle proposed at
block `10`. -/
theorem getNthFullyExecutedRootBundle_restarts :
    (let c := { HubPoolClient.init ⟨0, none, 0⟩ ⟨[], []⟩ with
      proposedRootBundles := [⟨⟨10, 0, 0⟩, 1, []⟩, ⟨⟨20, 0, 0⟩, 1, []⟩]
      executedRootBundles := [⟨⟨15, 0, 0⟩, 1, [], []⟩, ⟨⟨25, 0, 0⟩, 1, [], []⟩]
      latestBlockNumber := some 30 }
    c.ProposalsOrdered ∧
      ((c.getValidatedRootBundles 30).filter fun b => 15 ≤ b.blockNumber) = [⟨⟨20, 0, 0⟩, 1, []⟩] ∧
      c.getNthFullyExecutedRootBundle 3 (some 15) = .ok (some ⟨⟨10, 0, 0⟩, 1, []⟩)) :=
  ⟨by decide, rfl, rfl⟩

end Forward

end HubPoolClient

end HubPool

end AcrossBridge
