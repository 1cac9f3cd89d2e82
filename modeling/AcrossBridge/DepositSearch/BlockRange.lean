import Mathlib.Order.Monotone.Basic
import Mathlib.Algebra.Order.Group.Int

/-!
# Locating the block that created a deposit

`getBlockRangeForDepositId` bisects the block range `[initLow, initHigh]` of a
spoke pool against its deposit counter `numberOfDeposits`. Block numbers, the
target id and the search budget are the source's JavaScript numbers, read as
integers, so the sign checks of the source keep their meaning. Every counter
read goes through the memo `queriedIds`, and a read that misses it calls the
chain. The search run returns its outcome beside what its reads left: the memo
and the block tags of the calls it made on the chain, up to the throw if it
throws. `getBlockRangeForDepositId` returns the range beside the memo.

The deposit with id `t` was created by the block `b` at which the counter first
exceeds `t`: the count before `b` (zero before block `0`, as in the source) is at
most `t` and the count at `b` is above it. The bracket `low ≤ b ≤ high` is the
invariant of the do-while loop, and each pass either collapses the range or
halves it.
-/

namespace AcrossBridge

namespace DepositSearch

/-- The range `{low, high}` returned by the search. -/
structure BlockRange where
  low : Int
  high : Int
deriving DecidableEq, Repr

/-- What the counter reads have left: the memo `queriedIds` of counts keyed by
block number, and the block tags of the `numberOfDeposits` calls made on the
chain, newest first. -/
structure Reads where
  queriedIds : List (Int × Nat)
  calls : List Int

/-- The loop variables of the search, with what its counter reads have left. -/
structure SearchState where
  low : Int
  high : Int
  reads : Reads

/-- The memoised counter read: a block already in `queriedIds` is answered from
it, any other block is read from `numberOfDeposits` by a call on the chain and
recorded. -/
def getDepositIdAtBlock (numberOfDeposits : Nat → Nat) (reads : Reads) (blockNumber : Int) :
    Nat × Reads :=
  match reads.queriedIds.lookup blockNumber with
  | some depositId => (depositId, reads)
  | none =>
      let depositId := numberOfDeposits blockNumber.toNat
      (depositId, ⟨(blockNumber, depositId) :: reads.queriedIds, blockNumber :: reads.calls⟩)

/-- One pass of the loop body: read the counter at the midpoint and at the block
before it (zero at block `0`), and keep the half of `[low, high]` whose blocks
can have created `targetDepositId`. -/
def searchStep (numberOfDeposits : Nat → Nat) (targetDepositId : Int)
    (s : SearchState) : SearchState :=
  let mid := (s.low + s.high) / 2
  let midRead := getDepositIdAtBlock numberOfDeposits s.reads mid
  let prevRead :=
    if mid = 0 then (0, midRead.2)
    else getDepositIdAtBlock numberOfDeposits midRead.2 (mid - 1)
  let lowRange : Int := prevRead.1
  let highRange : Int := midRead.1 - 1
  if targetDepositId < lowRange then ⟨s.low, mid - 1, prevRead.2⟩
  else if targetDepositId > highRange then ⟨mid + 1, s.high, prevRead.2⟩
  else ⟨mid, mid, prevRead.2⟩

/-- The do-while loop: the body runs once, and `searchesLeft` more times at most,
each time only while `low < high`. -/
def searchLoop (numberOfDeposits : Nat → Nat) (targetDepositId : Int) :
    Nat → SearchState → SearchState
  | 0, s => searchStep numberOfDeposits targetDepositId s
  | searchesLeft + 1, s =>
      let s' := searchStep numberOfDeposits targetDepositId s
      if s'.low < s'.high then searchLoop numberOfDeposits targetDepositId searchesLeft s'
      else s'

/-- The search run to its end, with its argument checks and their messages: the
thrown error or the range, beside what its reads left when it threw or
returned. -/
def getBlockRangeForDepositIdRun (numberOfDeposits : Nat → Nat)
    (targetDepositId initLow initHigh maxSearches : Int) : Except String BlockRange × Reads :=
  if initLow < 0 then (.error "Binary search failed because low must be >= 0", ⟨[], []⟩)
  else if initLow > initHigh then (.error "Binary search failed because low > high", ⟨[], []⟩)
  else if maxSearches ≤ 0 then (.error "maxSearches must be > 0", ⟨[], []⟩)
  else
    let highRead := getDepositIdAtBlock numberOfDeposits ⟨[], []⟩ initHigh
    if (highRead.1 : Int) < targetDepositId then (.error "Failed to find deposit ID", highRead.2)
    else
      let lowRead := getDepositIdAtBlock numberOfDeposits highRead.2 initLow
      if (lowRead.1 : Int) > targetDepositId then (.error "Failed to find deposit ID", lowRead.2)
      else
        let s := searchLoop numberOfDeposits targetDepositId (maxSearches.toNat - 1)
          ⟨initLow, initHigh, lowRead.2⟩
        (.ok ⟨s.low, s.high⟩, s.reads)

/-- The search: on success the range, beside the memo of every counter read it
made. -/
def getBlockRangeForDepositId (numberOfDeposits : Nat → Nat)
    (targetDepositId initLow initHigh maxSearches : Int) :
    Except String (BlockRange × List (Int × Nat)) :=
  let run := getBlockRangeForDepositIdRun numberOfDeposits targetDepositId initLow initHigh
    maxSearches
  run.1.map fun range => (range, run.2.queriedIds)

/-- The count of deposits made before block `b`: zero before block `0`. -/
def countBefore (numberOfDeposits : Nat → Nat) (b : Int) : Int :=
  if b = 0 then 0 else numberOfDeposits (b - 1).toNat

/-- Block `b` is the block whose transaction created deposit `targetDepositId`. -/
def IsDepositBlock (numberOfDeposits : Nat → Nat) (targetDepositId b : Int) : Prop :=
  0 ≤ b ∧ countBefore numberOfDeposits b ≤ targetDepositId ∧
    targetDepositId < numberOfDeposits b.toNat

instance (numberOfDeposits : Nat → Nat) (targetDepositId : Int) :
    DecidablePred (IsDepositBlock numberOfDeposits targetDepositId) := fun b =>
  inferInstanceAs (Decidable (0 ≤ b ∧ _ ∧ _))

/-! ## Counter reads -/

section Reads

variable {numberOfDeposits : Nat → Nat} {lo hi : Int}

/-- Every recorded value is the counter at its block, and every recorded block
lies in `[lo, hi]`. -/
def MemoWithin (numberOfDeposits : Nat → Nat) (lo hi : Int)
    (queriedIds : List (Int × Nat)) : Prop :=
  ∀ p ∈ queriedIds, p.2 = numberOfDeposits p.1.toNat ∧ lo ≤ p.1 ∧ p.1 ≤ hi

/-- A memoised read at a block of `[lo, hi]` answers the counter there and keeps
the memo within `[lo, hi]`. -/
theorem getDepositIdAtBlock_spec {reads : Reads} {blk : Int}
    (hq : MemoWithin numberOfDeposits lo hi reads.queriedIds) (hlo : lo ≤ blk) (hhi : blk ≤ hi) :
    (getDepositIdAtBlock numberOfDeposits reads blk).1 = numberOfDeposits blk.toNat ∧
      MemoWithin numberOfDeposits lo hi (getDepositIdAtBlock numberOfDeposits reads blk).2.queriedIds := by
  unfold getDepositIdAtBlock
  split
  · rename_i v hv
    obtain ⟨l₁, l₂, hl, -⟩ := List.lookup_eq_some_iff.1 hv
    exact ⟨(hq (blk, v) (by simp [hl])).1, hq⟩
  · exact ⟨rfl, List.forall_mem_cons.2 ⟨⟨rfl, hlo, hhi⟩, hq⟩⟩

end Reads

/-! ## The deposit block -/

section DepositBlock

variable {numberOfDeposits : Nat → Nat} {t b m : Int}

/-- A block whose count is at most the target lies before the deposit block. -/
theorem IsDepositBlock.lt_of_count_le (hc : Monotone numberOfDeposits)
    (hb : IsDepositBlock numberOfDeposits t b) (hm : 0 ≤ m)
    (h : (numberOfDeposits m.toNat : Int) ≤ t) : m < b := by
  by_contra hbm
  have := hc (show b.toNat ≤ m.toNat by omega)
  have := hb.2.2
  omega

/-- A block whose count exceeds the target lies at or after the deposit block. -/
theorem IsDepositBlock.le_of_lt_count (hc : Monotone numberOfDeposits)
    (hb : IsDepositBlock numberOfDeposits t b) (hm : 0 ≤ m)
    (h : t < numberOfDeposits m.toNat) : b ≤ m := by
  by_contra hbm
  have hcount := hb.2.1
  rw [countBefore, if_neg (by omega)] at hcount
  have := hc (show m.toNat ≤ (b - 1).toNat by omega)
  omega

/-- Between a block whose count is at most the target and one whose count
exceeds it, there is a deposit block. -/
theorem exists_isDepositBlock {lo : Int} (n : Nat)
    (hlo : 0 ≤ lo) (hle : (numberOfDeposits lo.toNat : Int) ≤ t)
    (hlt : t < numberOfDeposits (lo.toNat + n)) :
    ∃ b, IsDepositBlock numberOfDeposits t b := by
  induction n generalizing lo with
  | zero => rw [Nat.add_zero] at hlt; omega
  | succ n ih =>
      by_cases hnext : (numberOfDeposits (lo.toNat + 1) : Int) ≤ t
      · exact ih (show 0 ≤ lo + 1 by omega) (by simpa [show (lo + 1).toNat = lo.toNat + 1 by omega])
          (by simpa [show (lo + 1).toNat + n = lo.toNat + (n + 1) by omega])
      · refine ⟨lo + 1, by omega, ?_, by simpa [show (lo + 1).toNat = lo.toNat + 1 by omega] using hnext⟩
        rw [countBefore, if_neg (by omega)]
        simpa using hle

/-- The deposit block is unique. -/
theorem IsDepositBlock.unique (hc : Monotone numberOfDeposits)
    (hb : IsDepositBlock numberOfDeposits t b) (hb' : IsDepositBlock numberOfDeposits t b') :
    b = b' :=
  le_antisymm (hb.le_of_lt_count hc hb'.1 hb'.2.2) (hb'.le_of_lt_count hc hb.1 hb.2.2)

end DepositBlock

/-! ## One pass of the loop -/

section Step

variable {numberOfDeposits : Nat → Nat} {t lo hi : Int} {s : SearchState}

/-- What one pass does, for a memo of true counts: it narrows the range by
comparing the target with the counts before and at the midpoint, and reads
only the midpoint and the block before it. -/
theorem searchStep_eq (hq : MemoWithin numberOfDeposits lo hi s.reads.queriedIds)
    (hlo : lo ≤ (s.low + s.high) / 2 - 1 ∨ (s.low + s.high) / 2 = 0 ∧ lo ≤ 0)
    (hhi : (s.low + s.high) / 2 ≤ hi) :
    ∃ reads : Reads, MemoWithin numberOfDeposits lo hi reads.queriedIds ∧
      searchStep numberOfDeposits t s =
        let mid := (s.low + s.high) / 2
        if t < countBefore numberOfDeposits mid then ⟨s.low, mid - 1, reads⟩
        else if numberOfDeposits mid.toNat ≤ t then ⟨mid + 1, s.high, reads⟩
        else ⟨mid, mid, reads⟩ := by
  simp only [searchStep]
  generalize (s.low + s.high) / 2 = mid at *
  obtain ⟨hv, hq'⟩ := getDepositIdAtBlock_spec hq (show lo ≤ mid by omega) hhi
  by_cases h0 : mid = 0
  · subst h0
    refine ⟨_, hq', ?_⟩
    simp only [if_true, countBefore, hv, gt_iff_lt, Int.sub_one_lt_iff]
    rfl
  · obtain ⟨hv₂, hq₂⟩ := getDepositIdAtBlock_spec hq' (show lo ≤ mid - 1 by omega) (by omega)
    refine ⟨_, hq₂, ?_⟩
    simp only [h0, if_false, countBefore, hv, hv₂, gt_iff_lt, Int.sub_one_lt_iff]

end Step

/-! ## The loop invariant -/

section Loop

variable {numberOfDeposits : Nat → Nat} {t initLow initHigh b : Int} {s : SearchState}

theorem countBefore_nonneg (numberOfDeposits : Nat → Nat) (b : Int) :
    0 ≤ countBefore numberOfDeposits b := by
  unfold countBefore
  split <;> omega

/-- The invariant of the do-while loop: the range stays inside the initial one
and brackets the deposit block, and the memo holds true counts of blocks of
`[max 0 (initLow - 1), initHigh]`. -/
structure SearchInv (numberOfDeposits : Nat → Nat) (initLow initHigh b : Int)
    (s : SearchState) : Prop where
  initLow_le : initLow ≤ s.low
  low_le : s.low ≤ b
  le_high : b ≤ s.high
  high_le : s.high ≤ initHigh
  memo : MemoWithin numberOfDeposits (max 0 (initLow - 1)) initHigh s.reads.queriedIds

/-- One pass keeps the invariant, and either collapses the range or at least
halves its width `high - low + 1`. -/
theorem searchStep_inv (hc : Monotone numberOfDeposits) (h0 : 0 ≤ initLow)
    (hb : IsDepositBlock numberOfDeposits t b)
    (hs : SearchInv numberOfDeposits initLow initHigh b s) :
    SearchInv numberOfDeposits initLow initHigh b (searchStep numberOfDeposits t s) ∧
      ((searchStep numberOfDeposits t s).low = (searchStep numberOfDeposits t s).high ∨
        2 * ((searchStep numberOfDeposits t s).high - (searchStep numberOfDeposits t s).low + 1)
          ≤ s.high - s.low + 1) := by
  obtain ⟨h1, h2, h3, h4, hq⟩ := hs
  obtain ⟨q, hq', heq⟩ := searchStep_eq (t := t) hq (by omega) (by omega)
  rw [heq]
  have hb0 := countBefore_nonneg numberOfDeposits b
  have hbt := hb.2.1
  generalize hmid : (s.low + s.high) / 2 = mid
  have hm : 2 * mid ≤ s.low + s.high ∧ s.low + s.high ≤ 2 * mid + 1 := by omega
  dsimp only
  split_ifs with hlt hle
  · -- the target was deposited before the midpoint's first deposit
    have hmid0 : mid ≠ 0 := by
      rintro rfl
      simp [countBefore] at hlt
      omega
    rw [countBefore, if_neg hmid0] at hlt
    have := hb.le_of_lt_count hc (by omega) hlt
    refine ⟨⟨?_, ?_, ?_, ?_, hq'⟩, .inr ?_⟩ <;> dsimp only <;> omega
  · -- the target was deposited after the midpoint's last deposit
    have := hb.lt_of_count_le hc (by omega) hle
    refine ⟨⟨?_, ?_, ?_, ?_, hq'⟩, .inr ?_⟩ <;> dsimp only <;> omega
  · -- the midpoint created the target
    push_neg at hlt hle
    have hbm := hb.le_of_lt_count hc (by omega) hle
    have hmb : mid ≤ b := by
      by_cases hmid0 : mid = 0
      · exact hmid0 ▸ hb.1
      · rw [countBefore, if_neg hmid0] at hlt
        have := hb.lt_of_count_le hc (by omega) hlt
        omega
    refine ⟨⟨?_, ?_, ?_, ?_, hq'⟩, .inl rfl⟩ <;> dsimp only <;> omega

/-- Every run of the loop keeps the invariant. -/
theorem searchLoop_inv (hc : Monotone numberOfDeposits) (h0 : 0 ≤ initLow)
    (hb : IsDepositBlock numberOfDeposits t b) (n : Nat)
    (hs : SearchInv numberOfDeposits initLow initHigh b s) :
    SearchInv numberOfDeposits initLow initHigh b (searchLoop numberOfDeposits t n s) := by
  induction n generalizing s with
  | zero => exact (searchStep_inv hc h0 hb hs).1
  | succ n ih =>
      have hs' := (searchStep_inv hc h0 hb hs).1
      simp only [searchLoop]
      split_ifs
      · exact ih hs'
      · exact hs'

/-- A run of `n + 1` passes collapses a range of width at most `2 ^ (n + 1)`. -/
theorem searchLoop_collapses (hc : Monotone numberOfDeposits) (h0 : 0 ≤ initLow)
    (hb : IsDepositBlock numberOfDeposits t b) (n : Nat)
    (hs : SearchInv numberOfDeposits initLow initHigh b s)
    (hw : s.high - s.low + 1 ≤ 2 ^ (n + 1)) :
    (searchLoop numberOfDeposits t n s).low = (searchLoop numberOfDeposits t n s).high := by
  induction n generalizing s with
  | zero =>
      obtain ⟨hs', hhalf⟩ := searchStep_inv hc h0 hb hs
      have := hs'.low_le
      have := hs'.le_high
      simp only [searchLoop]
      omega
  | succ n ih =>
      obtain ⟨hs', hhalf⟩ := searchStep_inv hc h0 hb hs
      have := hs'.low_le
      have := hs'.le_high
      simp only [searchLoop]
      split_ifs with hlt
      · exact ih hs' (by rw [pow_succ] at hw; omega)
      · omega

end Loop

/-! ## The search -/

section Search

variable {numberOfDeposits : Nat → Nat} {t initLow initHigh maxSearches : Int}

variable (numberOfDeposits) in
/-- The two reads before the loop, at `initHigh` and then at `initLow`, answer
the true counts and leave a memo within the bracket. -/
theorem initial_reads (h0 : 0 ≤ initLow) (hle : initLow ≤ initHigh) :
    (getDepositIdAtBlock numberOfDeposits ⟨[], []⟩ initHigh).1 = numberOfDeposits initHigh.toNat ∧
      (getDepositIdAtBlock numberOfDeposits (getDepositIdAtBlock numberOfDeposits ⟨[], []⟩ initHigh).2
        initLow).1 = numberOfDeposits initLow.toNat ∧
      MemoWithin numberOfDeposits (max 0 (initLow - 1)) initHigh
        (getDepositIdAtBlock numberOfDeposits (getDepositIdAtBlock numberOfDeposits ⟨[], []⟩ initHigh).2
          initLow).2.queriedIds := by
  obtain ⟨hv₁, hq₁⟩ := getDepositIdAtBlock_spec
    (show MemoWithin numberOfDeposits (max 0 (initLow - 1)) initHigh (⟨[], []⟩ : Reads).queriedIds
      by simp [MemoWithin])
    (by omega) (le_refl initHigh)
  exact ⟨hv₁, getDepositIdAtBlock_spec hq₁ (by omega) hle⟩

/-- When the argument checks pass, the search runs the loop from the whole
bracket, with the memo of the two reads at its ends. -/
theorem getBlockRangeForDepositId_eq_ok (h0 : 0 ≤ initLow) (hle : initLow ≤ initHigh)
    (hm : 0 < maxSearches) (hlo : (numberOfDeposits initLow.toNat : Int) ≤ t)
    (hhi : t ≤ numberOfDeposits initHigh.toNat) :
    ∃ reads : Reads, MemoWithin numberOfDeposits (max 0 (initLow - 1)) initHigh reads.queriedIds ∧
      getBlockRangeForDepositId numberOfDeposits t initLow initHigh maxSearches =
        (let s := searchLoop numberOfDeposits t (maxSearches.toNat - 1) ⟨initLow, initHigh, reads⟩;
          .ok (⟨s.low, s.high⟩, s.reads.queriedIds)) := by
  obtain ⟨hv₁, hv₂, hq⟩ := initial_reads numberOfDeposits h0 hle
  refine ⟨_, hq, ?_⟩
  simp only [getBlockRangeForDepositId, getBlockRangeForDepositIdRun, hv₁, hv₂]
  rw [if_neg (by omega), if_neg (by omega), if_neg (by omega), if_neg (by omega),
    if_neg (by omega)]
  rfl

/-- The search returns normally exactly when its argument checks pass: the
bracket is ordered and non-negative, the budget is positive, and the counts at
its two ends satisfy `count(initLow) ≤ t ≤ count(initHigh)`. -/
theorem getBlockRangeForDepositId_isOk_iff :
    (∃ r, getBlockRangeForDepositId numberOfDeposits t initLow initHigh maxSearches = .ok r) ↔
      0 ≤ initLow ∧ initLow ≤ initHigh ∧ 0 < maxSearches ∧
        (numberOfDeposits initLow.toNat : Int) ≤ t ∧ t ≤ numberOfDeposits initHigh.toNat := by
  constructor
  · rintro ⟨r, h⟩
    simp only [getBlockRangeForDepositId, getBlockRangeForDepositIdRun] at h
    -- each failed check throws
    by_cases h₁ : initLow < 0
    · rw [if_pos h₁] at h
      cases h
    by_cases h₂ : initLow > initHigh
    · rw [if_neg h₁, if_pos h₂] at h
      cases h
    by_cases h₃ : maxSearches ≤ 0
    · rw [if_neg h₁, if_neg h₂, if_pos h₃] at h
      cases h
    obtain ⟨hv₁, hv₂, -⟩ := initial_reads numberOfDeposits (not_lt.1 h₁) (not_lt.1 h₂)
    rw [if_neg h₁, if_neg h₂, if_neg h₃, hv₁] at h
    by_cases h₄ : (numberOfDeposits initHigh.toNat : Int) < t
    · rw [if_pos h₄] at h
      cases h
    rw [if_neg h₄, hv₂] at h
    by_cases h₅ : (numberOfDeposits initLow.toNat : Int) > t
    · rw [if_pos h₅] at h
      cases h
    omega
  · rintro ⟨h0, hle, hm, hlo, hhi⟩
    obtain ⟨q, -, h⟩ := getBlockRangeForDepositId_eq_ok h0 hle hm hlo hhi
    exact ⟨_, h⟩

/-- A bracket whose ends hold counts on both sides of the target satisfies the
loop invariant for the deposit block. -/
theorem searchInv_start (hc : Monotone numberOfDeposits) (h0 : 0 ≤ initLow)
    (hle : initLow ≤ initHigh) {b : Int}
    (hb : IsDepositBlock numberOfDeposits t b)
    (hlo : (numberOfDeposits initLow.toNat : Int) ≤ t) (hhi : t < numberOfDeposits initHigh.toNat)
    {reads : Reads}
    (hq : MemoWithin numberOfDeposits (max 0 (initLow - 1)) initHigh reads.queriedIds) :
    SearchInv numberOfDeposits initLow initHigh b ⟨initLow, initHigh, reads⟩ :=
  ⟨le_rfl, (hb.lt_of_count_le hc h0 hlo).le,
    hb.le_of_lt_count hc (m := initHigh) (by omega) hhi, le_rfl, hq⟩

/-- Whatever the budget, a search whose bracket holds the deposit returns a range
inside the bracket that still holds the deposit block, and reads the counter
only at blocks of `[max 0 (initLow - 1), initHigh]`. -/
theorem getBlockRangeForDepositId_brackets (hc : Monotone numberOfDeposits) (b : Int)
    (h0 : 0 ≤ initLow) (hle : initLow ≤ initHigh) (hm : 1 ≤ maxSearches)
    (hlo : (numberOfDeposits initLow.toNat : Int) ≤ t) (hhi : t < numberOfDeposits initHigh.toNat)
    (hb : IsDepositBlock numberOfDeposits t b) :
    ∃ r queriedIds,
      getBlockRangeForDepositId numberOfDeposits t initLow initHigh maxSearches =
        .ok (r, queriedIds) ∧
      initLow ≤ r.low ∧ r.low ≤ b ∧ b ≤ r.high ∧ r.high ≤ initHigh ∧
      ∀ p ∈ queriedIds, max 0 (initLow - 1) ≤ p.1 ∧ p.1 ≤ initHigh := by
  obtain ⟨q, hq, h⟩ := getBlockRangeForDepositId_eq_ok h0 hle
    (show 0 < maxSearches by omega) hlo hhi.le
  obtain ⟨h1, h2, h3, h4, hq'⟩ :=
    searchLoop_inv hc h0 hb (maxSearches.toNat - 1) (searchInv_start hc h0 hle hb hlo hhi hq)
  exact ⟨_, _, h, h1, h2, h3, h4, fun p hp => (hq' p hp).2⟩

theorem getBlockRangeForDepositId_brackets_identity :
    ∃ r queriedIds, getBlockRangeForDepositId (fun b => b) 3 0 10 2 = .ok (r, queriedIds) ∧
      0 ≤ r.low ∧ r.low ≤ 4 ∧ 4 ≤ r.high ∧ r.high ≤ 10 ∧
      ∀ p ∈ queriedIds, max 0 (0 - 1) ≤ p.1 ∧ p.1 ≤ 10 :=
  getBlockRangeForDepositId_brackets monotone_id 4
    (by decide) (by decide) (by decide) (by decide) (by decide) (by decide)

/-- The check at `initHigh` accepts the boundary `count(initHigh) = t`. With the
counter `count(b) = b` deposit `5` is created at block `6`, yet the bracket
`[0, 5]` is accepted and the range collapses onto block `5`, which created
deposit `4`. -/
theorem getBlockRangeForDepositId_accepts_boundary :
    ∃ queriedIds,
      getBlockRangeForDepositId (fun b => b) 5 0 5 10 = .ok (⟨5, 5⟩, queriedIds) ∧
        ¬ IsDepositBlock (fun b => b) 5 5 :=
  ⟨_, rfl, by decide⟩

/-- With a budget whose power of two covers the bracket's width, the search
collapses onto the deposit block. -/
theorem getBlockRangeForDepositId_collapses (hc : Monotone numberOfDeposits)
    (h0 : 0 ≤ initLow) (hle : initLow ≤ initHigh)
    (hlo : (numberOfDeposits initLow.toNat : Int) ≤ t) (hhi : t < numberOfDeposits initHigh.toNat)
    (hw : initHigh - initLow + 1 ≤ 2 ^ maxSearches.toNat) :
    ∃ r queriedIds,
      getBlockRangeForDepositId numberOfDeposits t initLow initHigh maxSearches =
        .ok (r, queriedIds) ∧
      r.low = r.high ∧ IsDepositBlock numberOfDeposits t r.low := by
  obtain ⟨b, hb⟩ := exists_isDepositBlock (initHigh.toNat - initLow.toNat) h0 hlo
    (by rwa [show initLow.toNat + (initHigh.toNat - initLow.toNat) = initHigh.toNat by omega])
  have hb₁ := hb.lt_of_count_le hc h0 hlo
  have hb₂ := hb.le_of_lt_count hc (m := initHigh) (by omega) hhi
  have hm : 0 < maxSearches := by
    by_contra hm
    rw [show maxSearches.toNat = 0 by omega, pow_zero] at hw
    omega
  obtain ⟨q, hq, h⟩ := getBlockRangeForDepositId_eq_ok h0 hle hm hlo hhi.le
  have hs := searchInv_start hc h0 hle hb hlo hhi hq
  have hcol := searchLoop_collapses hc h0 hb (maxSearches.toNat - 1) hs
    (by rwa [Nat.sub_add_cancel (by omega)])
  obtain ⟨-, h₂, h₃, -, -⟩ := searchLoop_inv hc h0 hb (maxSearches.toNat - 1) hs
  refine ⟨_, _, h, hcol, ?_⟩
  rwa [show (searchLoop numberOfDeposits t (maxSearches.toNat - 1) _).low = b by omega]

theorem getBlockRangeForDepositId_collapses_identity :
    ∃ r queriedIds, getBlockRangeForDepositId (fun b => b) 3 0 10 4 = .ok (r, queriedIds) ∧
      r.low = r.high ∧ IsDepositBlock (fun b => b) 3 r.low :=
  getBlockRangeForDepositId_collapses monotone_id
    (by decide) (by decide) (by decide) (by decide) (by decide)

end Search

end DepositSearch

end AcrossBridge
