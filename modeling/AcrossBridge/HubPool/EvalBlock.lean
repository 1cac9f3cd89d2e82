import AcrossBridge.HubPool.Queries

/-!
# The end block containing a block

`getRootBundleEvalBlockNumberContainingBlock` scans the proposals newest first.
It skips a proposal that fails its validity test, and otherwise reads the
proposal's end block `e` on the chain: `e` above the target block becomes the
answer so far, and the first `e` at or below it ends the scan, replacing the
answer when it equals the block.

When the end blocks of the accepted proposals do not decrease in proposal
order, the scan meets them in non-increasing order, the answer so far is the
smallest end block above the target seen yet, and the break comes exactly where
the end blocks fall to the target or below. So the scan returns the least end
block at or above the target, the declarative minimum. The scan is followed
through `evalBlockNumberScan_eq`, which states what a scan of any list with any
answer so far returns. Without any order on the end blocks the scan still
returns only an accepted end block at or above the target
(`evalBlockNumberScan_sound`), though not always the least.
-/

namespace AcrossBridge

namespace HubPool

/-- On a list that does not decrease, the minimum is the first entry. -/
theorem min?_eq_head?_of_sorted : ∀ {l : List Nat}, l.Sorted (· ≤ ·) → l.min? = l.head?
  | [], _ => rfl
  | a :: l, h => by
      rw [List.min?_cons]
      cases hl : l.min? with
      | none => rfl
      | some m =>
          have hm := List.min?_mem (fun a b => by omega) hl
          simp only [Option.elim, List.head?_cons, Option.some.injEq]
          exact min_eq_left (List.rel_of_sorted_cons h m hm)

/-- The last entry of a list whose entries after the first all equal the first. -/
theorem getLast?_cons_of_forall_eq {a : Nat} {l : List Nat} (h : ∀ x ∈ l, x = a) :
    (a :: l).getLast? = some a := by
  rw [List.getLast?_cons]
  cases hl : l.getLast? with
  | none => rfl
  | some x => exact congrArg some (h x (List.mem_of_getLast?_eq_some hl))

namespace HubPoolClient

variable (c : HubPoolClient)

/-- The test of the scan of `getRootBundleEvalBlockNumberContainingBlock`: the
proposal is valid at the block of its following proposal, or at
`latestMainnetBlock` when it is the latest. -/
def passesEvalBlockNumberTest (latestMainnetBlock : Nat) (rootBundle : ProposedRootBundle) :
    Bool :=
  c.isRootBundleValid rootBundle
    (match c.getFollowingRootBundle rootBundle with
      | some next => next.blockNumber
      | none => latestMainnetBlock)

/-- The proposals the scan accepts, in proposal order. -/
def evalBlockNumberCandidates (latestMainnetBlock : Nat) : List ProposedRootBundle :=
  c.proposedRootBundles.filter (c.passesEvalBlockNumberTest latestMainnetBlock)

section Scan

variable {latestMainnetBlock block chain : Nat} {chainIdList : List Nat}
  {e : ProposedRootBundle → Nat}

/-- One step of the scan, with its validity test named. -/
theorem evalBlockNumberScan_cons (rootBundle : ProposedRootBundle)
    (olderBundles : List ProposedRootBundle) (endingBlockNumber : Option Nat) :
    c.evalBlockNumberScan latestMainnetBlock block chain chainIdList (rootBundle :: olderBundles)
        endingBlockNumber =
      if c.passesEvalBlockNumberTest latestMainnetBlock rootBundle then
        match getBundleEndBlockForChain rootBundle chain chainIdList with
        | .error e => .error e
        | .ok bundleEvalBlockNumber =>
            if bundleEvalBlockNumber ≤ block then
              .ok (if bundleEvalBlockNumber = block then some bundleEvalBlockNumber
                else endingBlockNumber)
            else
              c.evalBlockNumberScan latestMainnetBlock block chain chainIdList olderBundles
                (some bundleEvalBlockNumber)
      else
        c.evalBlockNumberScan latestMainnetBlock block chain chainIdList olderBundles
          endingBlockNumber := by
  rw [evalBlockNumberScan]
  show (if (!c.passesEvalBlockNumberTest latestMainnetBlock rootBundle) = true then _ else _) = _
  cases c.passesEvalBlockNumberTest latestMainnetBlock rootBundle <;> rfl

/-- A scan of newest-first proposals whose accepted end blocks do not increase
returns the last end block at or above the target, and the answer so far when
there is none. -/
theorem evalBlockNumberScan_eq :
    ∀ (l : List ProposedRootBundle) (endingBlockNumber : Option Nat),
      (∀ rb ∈ l.filter (c.passesEvalBlockNumberTest latestMainnetBlock),
        getBundleEndBlockForChain rb chain chainIdList = .ok (e rb)) →
      ((l.filter (c.passesEvalBlockNumberTest latestMainnetBlock)).map e).Sorted (· ≥ ·) →
      c.evalBlockNumberScan latestMainnetBlock block chain chainIdList l endingBlockNumber =
        .ok ((((l.filter (c.passesEvalBlockNumberTest latestMainnetBlock)).map e).filter
          (block ≤ ·)).getLast?.or endingBlockNumber)
  | [], _, _, _ => rfl
  | rootBundle :: olderBundles, endingBlockNumber, he, hsorted => by
      rw [evalBlockNumberScan_cons]
      by_cases htest : c.passesEvalBlockNumberTest latestMainnetBlock rootBundle
      · -- an accepted proposal: its end block decides whether the scan goes on
        rw [List.filter_cons_of_pos htest] at he hsorted ⊢
        rw [List.map_cons, List.sorted_cons] at hsorted
        have hbelow : ∀ x ∈ e rootBundle :: ((olderBundles.filter
            (c.passesEvalBlockNumberTest latestMainnetBlock)).map e), x ≤ e rootBundle :=
          fun x hx => (List.mem_cons.1 hx).elim le_of_eq (hsorted.1 x)
        rw [if_pos htest, he rootBundle (List.mem_cons_self _ _), List.map_cons]
        dsimp only
        by_cases hle : e rootBundle ≤ block
        · rw [if_pos hle]
          by_cases heq : e rootBundle = block
          · -- the end block is the target: every older end block at or above it equals it
            rw [if_pos heq, List.filter_cons_of_pos (by simpa using heq.ge),
              getLast?_cons_of_forall_eq fun x hx => ?_]
            · rfl
            · obtain ⟨hx, hbx⟩ := List.mem_filter.1 hx
              have := hbelow x (.tail _ hx)
              have := of_decide_eq_true hbx
              omega
          · -- below the target, and so is everything older
            rw [if_neg heq, List.filter_eq_nil_iff.2 fun x hx => by
              simpa using (hbelow x hx).trans_lt (lt_of_le_of_ne hle heq)]
            rfl
        · -- above the target: the answer so far, and the scan goes on
          rw [if_neg hle, evalBlockNumberScan_eq olderBundles _ (fun rb hrb => he rb (.tail _ hrb))
            hsorted.2, List.filter_cons_of_pos (by simpa using (not_le.1 hle).le),
            List.getLast?_cons]
          cases (((olderBundles.filter (c.passesEvalBlockNumberTest latestMainnetBlock)).map e).filter
            (block ≤ ·)).getLast? <;> rfl
      · -- a rejected proposal is skipped
        rw [List.filter_cons_of_neg htest] at he hsorted ⊢
        rw [if_neg htest]
        exact evalBlockNumberScan_eq olderBundles endingBlockNumber he hsorted

/-- Whatever the order of the end blocks, an answer of the scan is the answer it
started from, or an end block at or above the target of an accepted proposal. -/
theorem evalBlockNumberScan_sound :
    ∀ (l : List ProposedRootBundle) (endingBlockNumber : Option Nat) (v : Nat),
      c.evalBlockNumberScan latestMainnetBlock block chain chainIdList l endingBlockNumber =
        .ok (some v) →
      endingBlockNumber = some v ∨
        block ≤ v ∧ ∃ rb ∈ l.filter (c.passesEvalBlockNumberTest latestMainnetBlock),
          getBundleEndBlockForChain rb chain chainIdList = .ok v
  | [], _, _, h => .inl (Except.ok.inj h)
  | rootBundle :: olderBundles, endingBlockNumber, v, h => by
      rw [evalBlockNumberScan_cons] at h
      by_cases htest : c.passesEvalBlockNumberTest latestMainnetBlock rootBundle
      · rw [if_pos htest] at h
        rw [List.filter_cons_of_pos htest]
        cases hend : getBundleEndBlockForChain rootBundle chain chainIdList with
        | error e => rw [hend] at h; cases h
        | ok bundleEvalBlockNumber =>
            rw [hend] at h
            dsimp only at h
            split_ifs at h with hle heq
            · -- the scan stops at the target itself
              cases Except.ok.inj h
              exact .inr ⟨heq.ge, rootBundle, List.mem_cons_self _ _, hend⟩
            · exact .inl (Except.ok.inj h)
            · -- above the target: the scan goes on from this end block
              rcases evalBlockNumberScan_sound olderBundles _ v h with hv | ⟨hv, rb, hrb, hrbEnd⟩
              · cases hv
                exact .inr ⟨(not_le.1 hle).le, rootBundle, List.mem_cons_self _ _, hend⟩
              · exact .inr ⟨hv, rb, .tail _ hrb, hrbEnd⟩
      · rw [if_neg htest] at h
        rw [List.filter_cons_of_neg htest]
        exact evalBlockNumberScan_sound olderBundles endingBlockNumber v h

end Scan

/-- When the end blocks of the accepted proposals do not decrease in proposal
order, the scan returns the least of them at or above the target block, and
nothing when there is none. -/
theorem getRootBundleEvalBlockNumberContainingBlock_eq_min (latestMainnetBlock block chain : Nat)
    (chainIdList : List Nat) (e : ProposedRootBundle → Nat)
    (he : ∀ rb ∈ c.evalBlockNumberCandidates latestMainnetBlock,
      getBundleEndBlockForChain rb chain chainIdList = .ok (e rb))
    (hmono : ((c.evalBlockNumberCandidates latestMainnetBlock).map e).Sorted (· ≤ ·)) :
    c.getRootBundleEvalBlockNumberContainingBlock latestMainnetBlock block chain chainIdList =
      .ok (((c.evalBlockNumberCandidates latestMainnetBlock).map e).filter (block ≤ ·)).min? := by
  have hrev : c.proposedRootBundles.reverse.filter (c.passesEvalBlockNumberTest latestMainnetBlock) =
      (c.evalBlockNumberCandidates latestMainnetBlock).reverse := List.filter_reverse _ _
  rw [getRootBundleEvalBlockNumberContainingBlock,
    evalBlockNumberScan_eq c _ none (by rw [hrev]; exact fun rb hrb => he rb (List.mem_reverse.1 hrb))
      (by rw [hrev, List.map_reverse]; exact List.pairwise_reverse.2 hmono),
    hrev, List.map_reverse, List.filter_reverse, List.getLast?_reverse, Option.or_none,
    min?_eq_head?_of_sorted (hmono.filter _)]

/-- Whatever the order of the end blocks, an end block the search returns is at or
above the target block and is the end block of an accepted proposal. -/
theorem getRootBundleEvalBlockNumberContainingBlock_sound (latestMainnetBlock block chain : Nat)
    (chainIdList : List Nat) (v : Nat)
    (h : c.getRootBundleEvalBlockNumberContainingBlock latestMainnetBlock block chain chainIdList =
      .ok (some v)) :
    block ≤ v ∧ ∃ rb ∈ c.evalBlockNumberCandidates latestMainnetBlock,
      getBundleEndBlockForChain rb chain chainIdList = .ok v := by
  rcases evalBlockNumberScan_sound c _ none v h with hv | ⟨hv, rb, hrb, hend⟩
  · cases hv
  · rw [List.filter_reverse] at hrb
    exact ⟨hv, rb, List.mem_reverse.1 hrb, hend⟩

/-- End blocks that decrease in proposal order, `300` then `200`: at the target
`150` the scan returns `300`, an accepted end block above the target, though the
least such is `200`. -/
theorem getRootBundleEvalBlockNumberContainingBlock_sound_decreasing :
    (let c := { HubPoolClient.init ⟨0, none, 0⟩ ⟨[], []⟩ with
      proposedRootBundles := [⟨⟨1, 0, 0⟩, 0, [300]⟩, ⟨⟨2, 0, 0⟩, 0, [200]⟩] }
    c.getRootBundleEvalBlockNumberContainingBlock 10 150 1 [1] = .ok (some 300) ∧
      150 ≤ 300 ∧ ∃ rb ∈ c.evalBlockNumberCandidates 10,
        getBundleEndBlockForChain rb 1 [1] = .ok 300) :=
  ⟨rfl, getRootBundleEvalBlockNumberContainingBlock_sound _ 10 150 1 [1] 300 rfl⟩

/-- A proposal failing its test is skipped. Of the end blocks `100`, `300` and
`200` proposed at blocks `1`, `2` and `3`, the second has a leaf never executed,
and the least accepted end block at or above `150` is `200`. -/
theorem getRootBundleEvalBlockNumberContainingBlock_eq_min_skips_invalid :
    (let c := { HubPoolClient.init ⟨0, none, 0⟩ ⟨[], []⟩ with
      proposedRootBundles := [⟨⟨1, 0, 0⟩, 0, [100]⟩, ⟨⟨2, 0, 0⟩, 1, [300]⟩, ⟨⟨3, 0, 0⟩, 0, [200]⟩] }
    c.evalBlockNumberCandidates 10 = [⟨⟨1, 0, 0⟩, 0, [100]⟩, ⟨⟨3, 0, 0⟩, 0, [200]⟩] ∧
      c.getRootBundleEvalBlockNumberContainingBlock 10 150 1 [1] = .ok (some 200)) :=
  ⟨rfl, getRootBundleEvalBlockNumberContainingBlock_eq_min _ 10 150 1 [1]
    (fun rb => rb.bundleEvaluationBlockNumbers.headD 0)
    (show ∀ rb ∈ ([⟨⟨1, 0, 0⟩, 0, [100]⟩, ⟨⟨3, 0, 0⟩, 0, [200]⟩] : List ProposedRootBundle),
        getBundleEndBlockForChain rb 1 [1] = .ok (rb.bundleEvaluationBlockNumbers.headD 0) by
      simp only [List.forall_mem_cons, List.not_mem_nil]
      exact ⟨rfl, rfl, fun _ h => h.elim⟩)
    (by decide)⟩

end HubPoolClient

end HubPool

end AcrossBridge
