import AcrossBridge.DepositSearch.BlockRange

/-!
# The memo of the deposit search

`getBlockRangeForDepositId` reads the deposit counter through the memo
`queriedIds`, so that it never calls the chain for the counter at one block more
than once. The memo is meant to change nothing but the number of calls. Both
halves of that hold for every counter, monotone or not:

* the search throws what the same search throws when it calls the chain at
  every read, and returns the range it returns
  (`getBlockRangeForDepositIdUncached`, the source's search with each
  `getDepositIdAtBlock` replaced by the call it caches);
* the search calls the chain at exactly the blocks that search reads, each
  once, whether it throws or returns.

Both follow from one invariant of what the reads leave: the memo's keys are the
blocks called, newest first, these are distinct, and each entry holds the
counter at its block. A hit answers from the memo and calls nothing; a miss
calls the chain at a block not called before.
-/

namespace AcrossBridge

namespace DepositSearch

/-- The loop body of the search with every counter read made on the chain: the
source's body without the memo. It returns the new range and the blocks it read,
in order. -/
def searchStepUncached (numberOfDeposits : Nat → Nat) (targetDepositId : Int)
    (r : BlockRange) : BlockRange × List Int :=
  let mid := (r.low + r.high) / 2
  let midDepositId : Int := numberOfDeposits mid.toNat
  let prevDepositId : Int := if mid = 0 then 0 else numberOfDeposits (mid - 1).toNat
  let lowRange := prevDepositId
  let highRange := midDepositId - 1
  (if targetDepositId < lowRange then ⟨r.low, mid - 1⟩
    else if targetDepositId > highRange then ⟨mid + 1, r.high⟩
    else ⟨mid, mid⟩,
    if mid = 0 then [mid] else [mid, mid - 1])

/-- The do-while loop over `searchStepUncached`, with the blocks it read. -/
def searchLoopUncached (numberOfDeposits : Nat → Nat) (targetDepositId : Int) :
    Nat → BlockRange → BlockRange × List Int
  | 0, r => searchStepUncached numberOfDeposits targetDepositId r
  | searchesLeft + 1, r =>
      let step := searchStepUncached numberOfDeposits targetDepositId r
      if step.1.low < step.1.high then
        let rest := searchLoopUncached numberOfDeposits targetDepositId searchesLeft step.1
        (rest.1, step.2 ++ rest.2)
      else step

/-- The search with every counter read made on the chain: the thrown error or the
range, beside the blocks it read. -/
def getBlockRangeForDepositIdUncached (numberOfDeposits : Nat → Nat)
    (targetDepositId initLow initHigh maxSearches : Int) : Except String BlockRange × List Int :=
  if initLow < 0 then (.error "Binary search failed because low must be >= 0", [])
  else if initLow > initHigh then (.error "Binary search failed because low > high", [])
  else if maxSearches ≤ 0 then (.error "maxSearches must be > 0", [])
  else if (numberOfDeposits initHigh.toNat : Int) < targetDepositId then
    (.error "Failed to find deposit ID", [initHigh])
  else if (numberOfDeposits initLow.toNat : Int) > targetDepositId then
    (.error "Failed to find deposit ID", [initHigh, initLow])
  else
    let loop := searchLoopUncached numberOfDeposits targetDepositId (maxSearches.toNat - 1)
      ⟨initLow, initHigh⟩
    (.ok loop.1, initHigh :: initLow :: loop.2)

section Memo

variable {numberOfDeposits : Nat → Nat}

/-- The memo records the calls made: its keys are the blocks called, newest
first, these are distinct, and each entry holds the counter at its block. -/
structure MemoTrue (numberOfDeposits : Nat → Nat) (reads : Reads) : Prop where
  keys_eq : reads.queriedIds.map Prod.fst = reads.calls
  nodup : reads.calls.Nodup
  count_eq : ∀ p ∈ reads.queriedIds, p.2 = numberOfDeposits p.1.toNat

theorem memoTrue_nil : MemoTrue numberOfDeposits ⟨[], []⟩ :=
  ⟨rfl, List.nodup_nil, fun _ h => (List.not_mem_nil _ h).elim⟩

/-- A memoised read with a true memo answers the counter at its block and keeps
the memo true: a hit answers the recorded count and calls nothing, a miss calls
the chain at a block not called before. Either way the blocks called afterwards
are those called before and the block read. -/
theorem getDepositIdAtBlock_memoTrue {reads : Reads} (hq : MemoTrue numberOfDeposits reads)
    (blockNumber : Int) :
    (getDepositIdAtBlock numberOfDeposits reads blockNumber).1 =
        numberOfDeposits blockNumber.toNat ∧
      MemoTrue numberOfDeposits (getDepositIdAtBlock numberOfDeposits reads blockNumber).2 ∧
      ∀ b, b ∈ (getDepositIdAtBlock numberOfDeposits reads blockNumber).2.calls ↔
        b ∈ reads.calls ∨ b = blockNumber := by
  unfold getDepositIdAtBlock
  split
  · rename_i depositId hhit
    obtain ⟨l₁, l₂, hl, -⟩ := List.lookup_eq_some_iff.1 hhit
    have hmem : (blockNumber, depositId) ∈ reads.queriedIds := by simp [hl]
    have hcalled : blockNumber ∈ reads.calls := hq.keys_eq ▸ List.mem_map_of_mem Prod.fst hmem
    exact ⟨hq.count_eq _ hmem, hq, fun b => ⟨.inl, fun h => h.elim id (· ▸ hcalled)⟩⟩
  · rename_i hmiss
    have hfresh : blockNumber ∉ reads.calls := by
      rw [← hq.keys_eq]
      intro hmem
      obtain ⟨p, hp, hkey⟩ := List.mem_map.1 hmem
      simpa [hkey] using List.lookup_eq_none_iff.1 hmiss p hp
    refine ⟨rfl, ⟨by simp [hq.keys_eq], List.nodup_cons.2 ⟨hfresh, hq.nodup⟩,
      List.forall_mem_cons.2 ⟨rfl, hq.count_eq⟩⟩, fun b => ?_⟩
    simp [or_comm]

/-- One pass with a true memo moves the range as the uncached pass does, keeps
the memo true, and adds to the blocks called those the uncached pass reads. -/
theorem searchStep_memoTrue (targetDepositId : Int) {s : SearchState}
    (hq : MemoTrue numberOfDeposits s.reads) :
    ∃ reads, MemoTrue numberOfDeposits reads ∧
      (∀ b, b ∈ reads.calls ↔ b ∈ s.reads.calls ∨
        b ∈ (searchStepUncached numberOfDeposits targetDepositId ⟨s.low, s.high⟩).2) ∧
      searchStep numberOfDeposits targetDepositId s =
        ⟨(searchStepUncached numberOfDeposits targetDepositId ⟨s.low, s.high⟩).1.low,
          (searchStepUncached numberOfDeposits targetDepositId ⟨s.low, s.high⟩).1.high, reads⟩ := by
  simp only [searchStep, searchStepUncached]
  generalize (s.low + s.high) / 2 = mid
  obtain ⟨hmid, hq₁, hcalls₁⟩ := getDepositIdAtBlock_memoTrue hq mid
  by_cases h0 : mid = 0
  · subst h0
    refine ⟨_, hq₁, fun b => by simp [hcalls₁], ?_⟩
    simp only [if_true, hmid, Int.Nat.cast_ofNat_Int]
    split_ifs <;> rfl
  · obtain ⟨hprev, hq₂, hcalls₂⟩ := getDepositIdAtBlock_memoTrue hq₁ (mid - 1)
    refine ⟨_, hq₂, fun b => by simp [h0, hcalls₁, hcalls₂, or_assoc], ?_⟩
    simp only [h0, if_false, hmid, hprev]
    split_ifs <;> rfl

/-- Every run of the loop with a true memo ends on the range of the uncached
loop, with the memo still true, having called the chain at the blocks the
uncached loop reads. -/
theorem searchLoop_memoTrue (targetDepositId : Int) :
    ∀ (searchesLeft : Nat) (s : SearchState), MemoTrue numberOfDeposits s.reads →
      ∃ reads, MemoTrue numberOfDeposits reads ∧
        (∀ b, b ∈ reads.calls ↔ b ∈ s.reads.calls ∨
          b ∈ (searchLoopUncached numberOfDeposits targetDepositId searchesLeft ⟨s.low, s.high⟩).2) ∧
        searchLoop numberOfDeposits targetDepositId searchesLeft s =
          ⟨(searchLoopUncached numberOfDeposits targetDepositId searchesLeft ⟨s.low, s.high⟩).1.low,
            (searchLoopUncached numberOfDeposits targetDepositId searchesLeft ⟨s.low, s.high⟩).1.high,
            reads⟩
  | 0, _, hq => searchStep_memoTrue targetDepositId hq
  | searchesLeft + 1, s, hq => by
      obtain ⟨reads, hq', hcalls, hstep⟩ := searchStep_memoTrue targetDepositId hq
      simp only [searchLoop, searchLoopUncached, hstep]
      split_ifs
      · obtain ⟨reads', hq'', hcalls', hloop⟩ :=
          searchLoop_memoTrue targetDepositId searchesLeft ⟨_, _, reads⟩ hq'
        exact ⟨reads', hq'', fun b => by simp [hcalls', hcalls, or_assoc], hloop⟩
      · exact ⟨reads, hq', hcalls, rfl⟩

/-- The search run is the uncached search, with a true memo whose calls are the
blocks the uncached search read, whether it throws or returns. -/
theorem getBlockRangeForDepositIdRun_memoTrue (numberOfDeposits : Nat → Nat)
    (targetDepositId initLow initHigh maxSearches : Int) :
    (getBlockRangeForDepositIdRun numberOfDeposits targetDepositId initLow initHigh maxSearches).1 =
        (getBlockRangeForDepositIdUncached numberOfDeposits targetDepositId initLow initHigh
          maxSearches).1 ∧
      MemoTrue numberOfDeposits
        (getBlockRangeForDepositIdRun numberOfDeposits targetDepositId initLow initHigh
          maxSearches).2 ∧
      ∀ b, b ∈ (getBlockRangeForDepositIdRun numberOfDeposits targetDepositId initLow initHigh
          maxSearches).2.calls ↔
        b ∈ (getBlockRangeForDepositIdUncached numberOfDeposits targetDepositId initLow initHigh
          maxSearches).2 := by
  obtain ⟨hhigh, hq₁, hcalls₁⟩ :=
    getDepositIdAtBlock_memoTrue (memoTrue_nil : MemoTrue numberOfDeposits ⟨[], []⟩) initHigh
  obtain ⟨hlow, hq₂, hcalls₂⟩ := getDepositIdAtBlock_memoTrue hq₁ initLow
  obtain ⟨reads, hq, hcalls, hloop⟩ :=
    searchLoop_memoTrue targetDepositId (maxSearches.toNat - 1) ⟨initLow, initHigh, _⟩ hq₂
  unfold getBlockRangeForDepositIdRun getBlockRangeForDepositIdUncached
  simp only [hhigh, hlow, hloop]
  -- the two searches make the same checks, in the same order
  by_cases h₁ : initLow < 0
  · rw [if_pos h₁, if_pos h₁]
    exact ⟨rfl, memoTrue_nil, fun _ => Iff.rfl⟩
  simp only [if_neg h₁]
  by_cases h₂ : initLow > initHigh
  · rw [if_pos h₂, if_pos h₂]
    exact ⟨rfl, memoTrue_nil, fun _ => Iff.rfl⟩
  simp only [if_neg h₂]
  by_cases h₃ : maxSearches ≤ 0
  · rw [if_pos h₃, if_pos h₃]
    exact ⟨rfl, memoTrue_nil, fun _ => Iff.rfl⟩
  simp only [if_neg h₃]
  by_cases h₄ : (numberOfDeposits initHigh.toNat : Int) < targetDepositId
  · rw [if_pos h₄, if_pos h₄]
    exact ⟨rfl, hq₁, fun b => by simp [hcalls₁]⟩
  simp only [if_neg h₄]
  by_cases h₅ : (numberOfDeposits initLow.toNat : Int) > targetDepositId
  · rw [if_pos h₅, if_pos h₅]
    exact ⟨rfl, hq₂, fun b => by simp [hcalls₁, hcalls₂, or_comm]⟩
  rw [if_neg h₅, if_neg h₅]
  exact ⟨rfl, hq, fun b => by simp [hcalls, hcalls₁, hcalls₂, or_assoc]⟩

/-- The memo changes nothing but the calls to the chain, for every counter: the
search throws what the uncached search throws and returns the range it returns,
and it calls the chain at exactly the blocks the uncached search reads, each
once, recording the counter there. -/
theorem getBlockRangeForDepositId_memo (numberOfDeposits : Nat → Nat)
    (targetDepositId initLow initHigh maxSearches : Int) :
    (getBlockRangeForDepositId numberOfDeposits targetDepositId initLow initHigh maxSearches).map
        Prod.fst =
      (getBlockRangeForDepositIdUncached numberOfDeposits targetDepositId initLow initHigh
        maxSearches).1 ∧
    (getBlockRangeForDepositIdRun numberOfDeposits targetDepositId initLow initHigh
      maxSearches).2.calls.Nodup ∧
    (∀ b, b ∈ (getBlockRangeForDepositIdRun numberOfDeposits targetDepositId initLow initHigh
        maxSearches).2.calls ↔
      b ∈ (getBlockRangeForDepositIdUncached numberOfDeposits targetDepositId initLow initHigh
        maxSearches).2) ∧
    ∀ p ∈ (getBlockRangeForDepositIdRun numberOfDeposits targetDepositId initLow initHigh
      maxSearches).2.queriedIds, p.2 = numberOfDeposits p.1.toNat := by
  obtain ⟨hresult, hq, hcalls⟩ := getBlockRangeForDepositIdRun_memoTrue numberOfDeposits
    targetDepositId initLow initHigh maxSearches
  refine ⟨?_, hq.nodup, hcalls, hq.count_eq⟩
  rw [← hresult, getBlockRangeForDepositId]
  cases (getBlockRangeForDepositIdRun numberOfDeposits targetDepositId initLow initHigh
    maxSearches).1 <;> rfl

/-- Searching `[0, 10]` for deposit `6` with the counter `count(b) = b` reads
block `5` in the first pass and again in the third: the uncached search reads
eight times, the search calls the chain seven times. -/
example :
    (getBlockRangeForDepositIdUncached (fun b => b) 6 0 10 4).2 = [10, 0, 5, 4, 8, 7, 6, 5] ∧
      (getBlockRangeForDepositIdRun (fun b => b) 6 0 10 4).2.calls = [6, 7, 8, 4, 5, 0, 10] := by
  decide

end Memo

end DepositSearch

end AcrossBridge
