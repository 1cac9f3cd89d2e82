import AcrossBridge.Event.Sortable

/-!
# The HubPool ledger

The records the HubPool client keeps, and the client's state. Each record keeps
the fields that some function of the client reads or copies; the other fields
of the source's event interfaces (roots, proposers, transaction hashes, fees)
are left out.
Block numbers, chain ids, counts and token decimals are natural numbers, and
running balances, which are signed `BigNumber`s, are integers.

The client's maps are JavaScript objects. An object lists its keys in
insertion order, and assigning to a key already present keeps its place, so a
map is modelled as the list of its entries with `Dict.set` replacing in place.
`Object.keys` lists integer-like keys (the chain ids) first, in ascending
order; the model keeps insertion order for them too, which agrees with
JavaScript on the `0x` addresses whose key order the token lookups read. The
utility `assign`, which src/ imports but does not contain, writes into nested
maps; its uses are `Dict.assign` (overwrite the value at a path) and
`Dict.assignAppend` and `Dict.assignAppendAt` (append to the array at a path),
as the client reads the route maps: the latest route, and the history of
routes with their blocks.
-/

namespace AcrossBridge

namespace HubPool

/-- A JavaScript object with keys of type `κ`, as its entries in insertion
order. -/
abbrev Dict (κ α : Type) := List (κ × α)

namespace Dict

variable {κ α : Type} [DecidableEq κ]

/-- Reading a key: `obj[k]`, undefined when absent. -/
def get? (d : Dict κ α) (k : κ) : Option α := d.lookup k

@[simp] theorem get?_nil (k : κ) : Dict.get? ([] : Dict κ α) k = none := rfl

/-- Writing a key: `obj[k] = v`, in place when the key is present. -/
def set (d : Dict κ α) (k : κ) (v : α) : Dict κ α :=
  if (d.lookup k).isSome then d.map fun e => if e.1 = k then (k, v) else e
  else d ++ [(k, v)]

/-- `List.lookup` on a cons, with the key compared by equality. -/
theorem lookup_cons_eq_ite (a k : κ) (b : α) (d : Dict κ α) :
    ((a, b) :: d).lookup k = if k = a then some b else d.lookup k := by
  by_cases h : k = a <;> simp [List.lookup_cons, h, beq_false_of_ne]

/-- A key reads the value of one of its entries. -/
theorem mem_of_get?_eq_some {d : Dict κ α} {k : κ} {v : α} (h : d.get? k = some v) :
    (k, v) ∈ d := by
  induction d with
  | nil => cases h
  | cons e d ih =>
      rw [get?, lookup_cons_eq_ite] at h
      split_ifs at h with hk
      · cases h
        exact hk ▸ List.mem_cons_self _ _
      · exact List.mem_cons_of_mem _ (ih h)

/-- Overwriting the entries of a key in place. -/
theorem lookup_map_set (d : Dict κ α) (k k' : κ) (v : α) :
    (d.map fun e => if e.1 = k then (k, v) else e).lookup k' =
      if k' = k then (d.lookup k).map fun _ => v else d.lookup k' := by
  induction d with
  | nil => split_ifs <;> rfl
  | cons e d ih =>
      obtain ⟨a, b⟩ := e
      simp only [List.map_cons]
      split_ifs at * <;> simp_all [lookup_cons_eq_ite, eq_comm]

/-- Reading a key after a write: the written value at the written key, the old
value elsewhere. -/
theorem get?_set (d : Dict κ α) (k k' : κ) (v : α) :
    (d.set k v).get? k' = if k' = k then some v else d.get? k' := by
  unfold set get?
  split_ifs with hk hkk hkk
  · rw [lookup_map_set, if_pos hkk, Option.isSome_iff_exists.1 hk |>.choose_spec]
    rfl
  · rw [lookup_map_set, if_neg hkk]
  · rw [List.lookup_append, hkk, Option.not_isSome_iff_eq_none.1 hk]
    simp [lookup_cons_eq_ite]
  · rw [List.lookup_append]
    cases d.lookup k' <;> simp [lookup_cons_eq_ite, hkk]

/-- Writing a list of entries in order: the last entry of a key wins, and a key
none of them writes keeps its old value. -/
theorem get?_foldl_set (entries : List (κ × α)) (d : Dict κ α) (k : κ) :
    (entries.foldl (fun d e => d.set e.1 e.2) d).get? k = (entries.reverse.lookup k).or (d.get? k) := by
  induction entries generalizing d with
  | nil => rfl
  | cons e entries ih =>
      obtain ⟨a, b⟩ := e
      rw [List.foldl_cons, ih, get?_set, List.reverse_cons, List.lookup_append, Option.or_assoc]
      simp only [lookup_cons_eq_ite, List.lookup_nil]
      split_ifs <;> rfl

/-- Modelled from the spec: `assign(obj, [k1, k2], v)` on a value `v`, which
creates the inner object at `k1` when needed and overwrites the value at `k2`. -/
def assign {μ : Type} [DecidableEq μ] (d : Dict κ (Dict μ α)) (k₁ : κ) (k₂ : μ) (v : α) :
    Dict κ (Dict μ α) :=
  d.set k₁ (((d.get? k₁).getD []).set k₂ v)

/-- Modelled from the spec: `assign(obj, [k], [v])` on an array, which appends `v`
to the array at `k` (an empty one when absent). -/
def assignAppend (d : Dict κ (List α)) (k : κ) (v : α) : Dict κ (List α) :=
  d.set k (((d.get? k).getD []) ++ [v])

/-- Modelled from the spec: `assign(obj, [k1, k2], [v])` on an array, which
appends `v` to the array at the path, creating what is missing. -/
def assignAppendAt {μ : Type} [DecidableEq μ] (d : Dict κ (Dict μ (List α))) (k₁ : κ) (k₂ : μ)
    (v : α) : Dict κ (Dict μ (List α)) :=
  d.set k₁ (((d.get? k₁).getD []).assignAppend k₂ v)

theorem get?_assign {μ : Type} [DecidableEq μ] (d : Dict κ (Dict μ α)) (k₁ k : κ) (k₂ : μ)
    (v : α) :
    (d.assign k₁ k₂ v).get? k = if k = k₁ then some (((d.get? k₁).getD []).set k₂ v) else d.get? k :=
  get?_set _ _ _ _

theorem get?_assignAppend (d : Dict κ (List α)) (k k' : κ) (v : α) :
    (d.assignAppend k v).get? k' = if k' = k then some ((d.get? k).getD [] ++ [v]) else d.get? k' :=
  get?_set _ _ _ _

theorem get?_assignAppendAt {μ : Type} [DecidableEq μ] (d : Dict κ (Dict μ (List α))) (k₁ k : κ)
    (k₂ : μ) (v : α) :
    (d.assignAppendAt k₁ k₂ v).get? k =
      if k = k₁ then some (((d.get? k₁).getD []).assignAppend k₂ v) else d.get? k :=
  get?_set _ _ _ _

/-- Reading an inner key through a missing outer key finds nothing. -/
theorem get?_getD_nil {μ : Type} [DecidableEq μ] (o : Option (Dict μ α)) (m : μ) :
    (o.getD []).get? m = o.bind (·.get? m) := by
  cases o <;> rfl

end Dict

/-- The bound of ethers' `BigNumber.toNumber`: `Number.MAX_SAFE_INTEGER`. -/
def maxSafeInteger : Nat := 9007199254740991

/-- `BigNumber.toNumber` of ethers: a value above `Number.MAX_SAFE_INTEGER`
throws an overflow fault. -/
def toNumber (n : Nat) : Except String Nat :=
  if n ≤ maxSafeInteger then .ok n else .error "overflow"

/-- A `ProposeRootBundle` event: the proposal of a bundle of
`poolRebalanceLeafCount` pool rebalance leaves, ending at the block numbers
`bundleEvaluationBlockNumbers`, one per chain of the chain id list. -/
structure ProposedRootBundle extends SortableEvent where
  poolRebalanceLeafCount : Nat
  bundleEvaluationBlockNumbers : List Nat
deriving DecidableEq, Repr

/-- A `RootBundleExecuted` event: one pool rebalance leaf executed for
`chainId`, with the running balance of each of its tokens. -/
structure ExecutedRootBundle extends SortableEvent where
  chainId : Nat
  l1Tokens : List String
  runningBalances : List Int
deriving DecidableEq, Repr

/-- A `RootBundleDisputed` event. -/
structure DisputedRootBundle extends SortableEvent
deriving DecidableEq, Repr

/-- A `RootBundleCanceled` event. -/
structure CancelledRootBundle extends SortableEvent
deriving DecidableEq, Repr

/-- A `CrossChainContractsSet` event: `spokePool` serves `l2ChainId` from here on. -/
structure CrossChainContractsSet extends SortableEvent where
  l2ChainId : Nat
  spokePool : String
deriving DecidableEq, Repr

/-- A `SetPoolRebalanceRoute` event: `l1Token` is sent to `destinationChainId` as
`destinationToken` from here on. -/
structure SetPoolRebalanceRoot extends SortableEvent where
  destinationChainId : Nat
  l1Token : String
  destinationToken : String
deriving DecidableEq, Repr

/-- An `L1TokenEnabledForLiquidityProvision` event. -/
structure L1TokenEnabledForLiquidityProvision extends SortableEvent where
  l1Token : String
deriving DecidableEq, Repr

/-- One entry of the block-versioned route history. -/
structure DestinationTokenWithBlock extends SortableEvent where
  l2Token : String
deriving DecidableEq, Repr

/-- A token of the HubPool, as read from its contract. -/
structure L1Token where
  address : String
  symbol : String
  decimals : Nat
deriving DecidableEq, Repr

/-- The HubPool's record of a pooled token. -/
structure LpToken where
  lastLpFeeUpdate : Nat
deriving DecidableEq, Repr

/-- The contract's `rootBundleProposal()`. -/
structure RootBundleProposal where
  poolRebalanceRoot : String
  relayerRefundRoot : String
  slowRelayRoot : String
  proposer : String
  unclaimedPoolRebalanceLeafCount : Nat
  challengePeriodEndTimestamp : Nat
deriving DecidableEq, Repr

/-- The proposal still open on chain, with the evaluation blocks and the block of
the latest proposal the client has seen. -/
structure PendingRootBundle where
  poolRebalanceRoot : String
  relayerRefundRoot : String
  slowRelayRoot : String
  proposer : String
  unclaimedPoolRebalanceLeafCount : Nat
  challengePeriodEndTimestamp : Nat
  bundleEvaluationBlockNumbers : List Nat
  proposalBlockNumber : Option Nat
deriving DecidableEq, Repr

/-- `eventSearchConfig`: where the client starts reading the log, and where it
stops when `toBlock` is set. -/
structure EventSearchConfig where
  fromBlock : Nat
  toBlock : Option Nat
  maxBlockLookBack : Nat
deriving DecidableEq, Repr

/-- `HubPoolClientConfig`: blocks whose proposals and executions are ignored. -/
structure HubPoolClientConfig where
  ignoredHubExecutedBundles : List Nat
  ignoredHubProposedBundles : List Nat
deriving DecidableEq, Repr

/-- The state of a `HubPoolClient`: its two read-only configurations and every
field that `update` writes. -/
structure HubPoolClient where
  eventSearchConfig : EventSearchConfig
  config : HubPoolClientConfig
  l1TokensToDestinationTokens : Dict String (Dict Nat String)
  l1Tokens : List L1Token
  lpTokens : Dict String LpToken
  proposedRootBundles : List ProposedRootBundle
  canceledRootBundles : List CancelledRootBundle
  disputedRootBundles : List DisputedRootBundle
  executedRootBundles : List ExecutedRootBundle
  crossChainContracts : Dict Nat (List CrossChainContractsSet)
  l1TokensToDestinationTokensWithBlock : Dict String (Dict Nat (List DestinationTokenWithBlock))
  pendingRootBundle : Option PendingRootBundle
  isUpdated : Bool
  firstBlockToSearch : Nat
  latestBlockNumber : Option Nat
  currentTime : Option Nat
deriving DecidableEq, Repr

/-- The client as constructed: empty maps and lists, searching from
`eventSearchConfig.fromBlock`. -/
def HubPoolClient.init (eventSearchConfig : EventSearchConfig) (config : HubPoolClientConfig) :
    HubPoolClient where
  eventSearchConfig := eventSearchConfig
  config := config
  l1TokensToDestinationTokens := []
  l1Tokens := []
  lpTokens := []
  proposedRootBundles := []
  canceledRootBundles := []
  disputedRootBundles := []
  executedRootBundles := []
  crossChainContracts := []
  l1TokensToDestinationTokensWithBlock := []
  pendingRootBundle := none
  isUpdated := false
  firstBlockToSearch := eventSearchConfig.fromBlock
  latestBlockNumber := none
  currentTime := none

namespace HubPoolClient

/-- The pushes of `update` onto the four bundle lists. -/
def pushRootBundleEvents (c : HubPoolClient) (proposed : List ProposedRootBundle)
    (executed : List ExecutedRootBundle) (disputed : List DisputedRootBundle)
    (canceled : List CancelledRootBundle) : HubPoolClient :=
  { c with
    proposedRootBundles := c.proposedRootBundles ++ proposed
    canceledRootBundles := c.canceledRootBundles ++ canceled
    disputedRootBundles := c.disputedRootBundles ++ disputed
    executedRootBundles := c.executedRootBundles ++ executed }

variable (c : HubPoolClient) (P : List ProposedRootBundle) (E : List ExecutedRootBundle)
  (D : List DisputedRootBundle) (K : List CancelledRootBundle)

@[simp] theorem pushRootBundleEvents_proposedRootBundles :
    (c.pushRootBundleEvents P E D K).proposedRootBundles = c.proposedRootBundles ++ P := rfl

@[simp] theorem pushRootBundleEvents_executedRootBundles :
    (c.pushRootBundleEvents P E D K).executedRootBundles = c.executedRootBundles ++ E := rfl

@[simp] theorem pushRootBundleEvents_disputedRootBundles :
    (c.pushRootBundleEvents P E D K).disputedRootBundles = c.disputedRootBundles ++ D := rfl

@[simp] theorem pushRootBundleEvents_canceledRootBundles :
    (c.pushRootBundleEvents P E D K).canceledRootBundles = c.canceledRootBundles ++ K := rfl

end HubPoolClient

end HubPool

end AcrossBridge
