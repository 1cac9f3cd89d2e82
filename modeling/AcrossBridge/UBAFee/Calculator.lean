import Mathlib.Algebra.BigOperators.Group.List
import Mathlib.Algebra.Ring.Int.Defs

/-!
# The UBA fee calculator

`UBAFeeCalculator` keeps two spoke snapshots, the origin and the refund spoke,
each a list of recent flows over a last validated running balance. A running
balance folds the flows, optionally sliced to a range, over that balance:
deposits add their amount, fills and refund requests subtract it, and anything
else is skipped. A fee adds the configured baseline and utilization fees to the
balancing fees read off the two running balances.

The fold has a closed form: each flow moves the balance by its sign times its
amount (`flowStep_eq`), so the balance is the last validated balance plus the
net flow of the range (`reduceRecentRequestFlow_eq`), and the net flow is a sum,
which no reordering of the flows changes. `UBAConfig` and the two balancing-fee
functions of `UBAFeeUtility` are not in the repository; the calculator reads them
as given functions.
-/

namespace AcrossBridge

namespace UBAFee

/-- A flow record of a spoke pool: a deposit carries its quote timestamp, a fill
its slow-relay flag, a refund request the block of its fill. -/
structure UbaFlow where
  amount : Int
  quoteTimestamp : Option Nat
  isSlowRelay : Option Bool
  fillBlock : Option Nat
deriving DecidableEq, Repr

/-- A deposit: the flow has a quote timestamp. -/
def isUbaInflow (flow : UbaFlow) : Bool := flow.quoteTimestamp.isSome

/-- A fill: the flow has a slow-relay flag. -/
def outflowIsFill (outflow : UbaFlow) : Bool := outflow.isSlowRelay.isSome

/-- A refund request: the flow has a fill block. -/
def outflowIsRefund (outflow : UbaFlow) : Bool := outflow.fillBlock.isSome

/-- An outflow: not an inflow, and a fill or a refund request. -/
def isUbaOutflow (flow : UbaFlow) : Bool :=
  !isUbaInflow flow && (outflowIsFill flow || outflowIsRefund flow)

/-- The spoke snapshot the calculator reads. -/
structure UBASpokeBalanceType where
  chainId : Nat
  recentRequestFlow : List UbaFlow
  lastValidatedRunningBalance : Option Int
deriving DecidableEq, Repr

/-- The range of flows a running balance reads. -/
structure UBAFlowRange where
  startIndex : Int
  endIndex : Int
deriving DecidableEq, Repr

/-- The fee of one action. -/
structure UBAFeeResult where
  depositorFee : Int
  refundFee : Int
  totalUBAFee : Int
deriving DecidableEq, Repr

/-- The reads of the fee configuration: the baseline fee of a pair of chains,
the utilization fee, and the balancing-fee tuples of a chain. -/
structure UBAConfig where
  getBaselineFee : Nat → Nat → Int
  getUtilizationFee : Int
  getBalancingFeeTuples : Nat → List (Int × Int)

/-- The balancing fees of `UBAFeeUtility`: the fee of an amount against a running
balance on the tuples of a chain. -/
structure UBAFeeUtility where
  getDepositBalancingFee : List (Int × Int) → Int → Int → Int
  getRefundBalancingFee : List (Int × Int) → Int → Int → Int

/-- A position of JavaScript's `Array.prototype.slice`: a negative index counts
from the end, and the result is clamped to the array. -/
def sliceIndex (length : Nat) (index : Int) : Nat :=
  if index < 0 then (length + index).toNat else min index.toNat length

/-- JavaScript's `Array.prototype.slice(start, end)`: the entries from the first
position up to the second, none when the second is not after the first. -/
def slice {α : Type} (l : List α) (start finish : Int) : List α :=
  (l.drop (sliceIndex l.length start)).take
    (sliceIndex l.length finish - sliceIndex l.length start)

/-- A range from a non-negative start up to a later end is the flows before the
end, past the start. -/
theorem slice_eq_drop_take {α : Type} (l : List α) {start finish : Int} (h0 : 0 ≤ start)
    (h : start ≤ finish) : slice l start finish = (l.take finish.toNat).drop start.toNat := by
  rw [slice, sliceIndex, sliceIndex, if_neg (not_lt.2 h0), if_neg (by omega), List.drop_take]
  by_cases hs : start.toNat ≤ l.length
  · rw [min_eq_left hs, List.take_eq_take, List.length_drop]
    omega
  · rw [List.drop_eq_nil_of_le (by omega : l.length ≤ min start.toNat l.length),
      List.drop_eq_nil_of_le (by omega : l.length ≤ start.toNat), List.take_nil, List.take_nil]

/-- One step of the reduction of `calculateRecentRunningBalance`. -/
def flowStep (acc : Int) (flow : UbaFlow) : Int :=
  if isUbaInflow flow then acc + flow.amount
  else if isUbaOutflow flow then acc - flow.amount
  else acc

/-- The local `fn` of `calculateRecentRunningBalance`: the flows reduced over the
validated running balance, or `0` when there is none. -/
def reduceRecentRequestFlow (flow : List UbaFlow) (validatedRunningBalance : Option Int) : Int :=
  flow.foldl flowStep (validatedRunningBalance.getD 0)

/-- The sign with which a flow moves a running balance: `1` with a quote
timestamp, `-1` without one but with a slow-relay flag or a fill block, and `0`
otherwise. -/
def ubaSign (flow : UbaFlow) : Int :=
  if flow.quoteTimestamp.isSome then 1
  else if flow.isSlowRelay.isSome || flow.fillBlock.isSome then -1
  else 0

/-- The net flow of a list of flows: the sum of each flow's sign times its
amount. -/
def netFlow (flows : List UbaFlow) : Int :=
  (flows.map fun flow => ubaSign flow * flow.amount).sum

@[simp]
theorem netFlow_nil : netFlow [] = 0 := rfl

@[simp]
theorem netFlow_cons (flow : UbaFlow) (flows : List UbaFlow) :
    netFlow (flow :: flows) = ubaSign flow * flow.amount + netFlow flows := by
  simp [netFlow]

/-- A reordering of the flows keeps their net flow. -/
theorem netFlow_perm {flows flows' : List UbaFlow} (h : flows.Perm flows') :
    netFlow flows = netFlow flows' :=
  (h.map _).sum_eq

/-- A step moves the balance by the flow's sign times its amount. -/
theorem flowStep_eq (acc : Int) (flow : UbaFlow) :
    flowStep acc flow = acc + ubaSign flow * flow.amount := by
  have hsign : ubaSign flow =
      if isUbaInflow flow then 1 else if outflowIsFill flow || outflowIsRefund flow then -1 else 0 :=
    rfl
  rw [flowStep, isUbaOutflow, hsign]
  cases isUbaInflow flow <;> cases outflowIsFill flow || outflowIsRefund flow <;>
    simp [sub_eq_add_neg]

/-- The reduction from any balance adds the net flow. -/
theorem foldl_flowStep (flow : List UbaFlow) (acc : Int) :
    flow.foldl flowStep acc = acc + netFlow flow := by
  induction flow generalizing acc with
  | nil => simp
  | cons f flow ih => rw [List.foldl_cons, ih, flowStep_eq, netFlow_cons, add_assoc]

theorem reduceRecentRequestFlow_eq (flow : List UbaFlow) (validatedRunningBalance : Option Int) :
    reduceRecentRequestFlow flow validatedRunningBalance =
      validatedRunningBalance.getD 0 + netFlow flow :=
  foldl_flowStep flow _

/-- The kind of running balance: of the origin or of the refund spoke. -/
inductive BalanceType
  | origin
  | refund
deriving DecidableEq, Repr

/-- A `UBAFeeCalculator`: its configuration and its two spoke snapshots. -/
structure UBAFeeCalculator where
  config : UBAConfig
  originSpoke : UBASpokeBalanceType
  refundSpoke : UBASpokeBalanceType

namespace UBAFeeCalculator

variable (c : UBAFeeCalculator) (utility : UBAFeeUtility)

/-- The spoke a balance type reads. -/
def spoke (type : BalanceType) : UBASpokeBalanceType :=
  match type with
  | .origin => c.originSpoke
  | .refund => c.refundSpoke

/-- The running balance of a spoke: its flows, sliced to the range when one is
given, reduced over its last validated running balance. -/
def calculateRecentRunningBalance (type : BalanceType) (flowRange : Option UBAFlowRange) : Int :=
  reduceRecentRequestFlow
    (match flowRange with
      | some flowRange =>
          slice (c.spoke type).recentRequestFlow flowRange.startIndex flowRange.endIndex
      | none => (c.spoke type).recentRequestFlow)
    (c.spoke type).lastValidatedRunningBalance

/-- The fee of an amount: the baseline fee and the deposit balancing fee on the
origin balance make the depositor fee, the utilization fee and the refund
balancing fee on the refund balance make the refund fee. -/
def getUBAFee (amount : Int) (flowRange : Option UBAFlowRange) : UBAFeeResult :=
  let originChain := c.originSpoke.chainId
  let refundChain := c.refundSpoke.chainId
  let refundRunningBalance := c.calculateRecentRunningBalance .refund flowRange
  let originRunningBalance := c.calculateRecentRunningBalance .origin flowRange
  let alphaFee := c.config.getBaselineFee originChain refundChain
  let utilizationFee := c.config.getUtilizationFee
  let originBalancingFeeTuples := c.config.getBalancingFeeTuples originChain
  let refundBalancingFeeTuples := c.config.getBalancingFeeTuples refundChain
  let refundFee := 0 + utilizationFee +
    utility.getRefundBalancingFee refundBalancingFeeTuples refundRunningBalance amount
  let depositorFee := 0 + alphaFee +
    utility.getDepositBalancingFee originBalancingFeeTuples originRunningBalance amount
  { depositorFee, refundFee, totalUBAFee := depositorFee + refundFee }

/-- The fee of each flow of a spoke, over the flows before it. -/
def getHistoricalUBAFees (type : BalanceType) : List UBAFeeResult :=
  (c.spoke type).recentRequestFlow.mapIdx fun idx flow =>
    c.getUBAFee utility flow.amount (some ⟨0, idx⟩)

theorem calculateRecentRunningBalance_some (type : BalanceType) (flowRange : UBAFlowRange)
    (h0 : 0 ≤ flowRange.startIndex) (h : flowRange.startIndex ≤ flowRange.endIndex) :
    c.calculateRecentRunningBalance type (some flowRange) =
      (c.spoke type).lastValidatedRunningBalance.getD 0 +
        netFlow (((c.spoke type).recentRequestFlow.take flowRange.endIndex.toNat).drop
          flowRange.startIndex.toNat) := by
  rw [calculateRecentRunningBalance, reduceRecentRequestFlow_eq, slice_eq_drop_take _ h0 h]

theorem calculateRecentRunningBalance_none (type : BalanceType) :
    c.calculateRecentRunningBalance type none =
      (c.spoke type).lastValidatedRunningBalance.getD 0 +
        netFlow (c.spoke type).recentRequestFlow :=
  reduceRecentRequestFlow_eq _ _

theorem getHistoricalUBAFees_getElem? (type : BalanceType) (idx : Nat) :
    (c.getHistoricalUBAFees utility type)[idx]? =
      (c.spoke type).recentRequestFlow[idx]?.map fun flow =>
        c.getUBAFee utility flow.amount (some ⟨0, idx⟩) :=
  List.getElem?_mapIdx

/-- A running balance is the last validated balance, or `0`, plus the net flow of
the flows in its range: from the start up to the end or the last flow, or all of
them without a range. The reduction does not depend on the order of the flows.
The fee reported for the flow at `idx` is computed from the running balances
over the range `[0, idx)`, which on the flow's own side holds the flows before
it: the depositor fee is the baseline fee plus the deposit balancing fee on the
origin balance, the refund fee the utilization fee plus the refund balancing fee
on the refund balance. -/
theorem calculateRecentRunningBalance_eq_netFlow (type : BalanceType) :
    (∀ flowRange : UBAFlowRange, 0 ≤ flowRange.startIndex →
      flowRange.startIndex ≤ flowRange.endIndex →
      c.calculateRecentRunningBalance type (some flowRange) =
        (c.spoke type).lastValidatedRunningBalance.getD 0 +
          netFlow (((c.spoke type).recentRequestFlow.take flowRange.endIndex.toNat).drop
            flowRange.startIndex.toNat)) ∧
    c.calculateRecentRunningBalance type none =
      (c.spoke type).lastValidatedRunningBalance.getD 0 +
        netFlow (c.spoke type).recentRequestFlow ∧
    (∀ flow flow' : List UbaFlow, flow.Perm flow' → ∀ validatedRunningBalance,
      reduceRecentRequestFlow flow validatedRunningBalance =
        reduceRecentRequestFlow flow' validatedRunningBalance) ∧
    ∀ (idx : Nat) (flow : UbaFlow), (c.spoke type).recentRequestFlow[idx]? = some flow →
      ∃ fee, (c.getHistoricalUBAFees utility type)[idx]? = some fee ∧
        fee.depositorFee = c.config.getBaselineFee c.originSpoke.chainId c.refundSpoke.chainId +
          utility.getDepositBalancingFee (c.config.getBalancingFeeTuples c.originSpoke.chainId)
            (c.calculateRecentRunningBalance .origin (some ⟨0, idx⟩)) flow.amount ∧
        fee.refundFee = c.config.getUtilizationFee +
          utility.getRefundBalancingFee (c.config.getBalancingFeeTuples c.refundSpoke.chainId)
            (c.calculateRecentRunningBalance .refund (some ⟨0, idx⟩)) flow.amount ∧
        fee.totalUBAFee = fee.depositorFee + fee.refundFee := by
  refine ⟨c.calculateRecentRunningBalance_some type, c.calculateRecentRunningBalance_none type,
    fun flow flow' hperm b => ?_, fun idx flow hflow => ?_⟩
  · rw [reduceRecentRequestFlow_eq, reduceRecentRequestFlow_eq, netFlow_perm hperm]
  · refine ⟨_, by rw [getHistoricalUBAFees_getElem?, hflow, Option.map_some'], ?_, ?_, rfl⟩ <;>
      simp only [getUBAFee, zero_add]

/-- Three origin flows over a validated balance of `10`: a deposit of `5`, a fill
of `3` and a flow that is neither, of `100`. The range `[1, 5)` runs past the
last flow and reads the fill and the skipped flow: `10 - 3`. -/
theorem calculateRecentRunningBalance_eq_netFlow_past_end :
    (let c : UBAFeeCalculator :=
      ⟨⟨fun _ _ => 0, 0, fun _ => []⟩,
        ⟨1, [⟨5, some 7, none, none⟩, ⟨3, none, some true, none⟩, ⟨100, none, none, none⟩],
          some 10⟩,
        ⟨2, [], none⟩⟩
    c.calculateRecentRunningBalance .origin (some ⟨1, 5⟩) = 7) :=
  ((calculateRecentRunningBalance_eq_netFlow _ ⟨fun _ _ _ => 0, fun _ _ _ => 0⟩ .origin).1 ⟨1, 5⟩
    (by decide) (by decide)).trans (by decide)

end UBAFeeCalculator

end UBAFee

end AcrossBridge
