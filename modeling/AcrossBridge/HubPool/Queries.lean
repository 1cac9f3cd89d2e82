import AcrossBridge.HubPool.Ledger

/-!
# Queries of the HubPool client

The read-only methods of `HubPoolClient`, each a function of the client's state
and its arguments. A method that can throw returns `Except String`, with the
source's message; a method that can return `undefined` returns an `Option`.
Horizons such as `latestMainnetBlock` are explicit arguments, as in the source.

A proposed bundle is valid at a horizon when the executed leaves attributable
to it, those after its own block and not after the next proposal nor the
horizon, are exactly `poolRebalanceLeafCount`. `getNthFullyExecutedRootBundle`
walks the valid bundles with its two loops, `nthLatestLoop` (towards older
bundles, the horizon moving below each one found) and `nthEarliestLoop`
(towards newer bundles, the start block moving past each one found).
-/

namespace AcrossBridge

namespace HubPool

/-- Lodash's `findLastIndex`: the position of the last element passing `p`. -/
def findLastIndex {α : Type} (p : α → Bool) : List α → Option Nat
  | [] => none
  | a :: l =>
      match findLastIndex p l with
      | some i => some (i + 1)
      | none => if p a then some 0 else none

/-- The end block of a bundle on `chainId`: the entry of
`bundleEvaluationBlockNumbers` at the chain's position in `chainIdList`, and `0`
when the chain is not listed or the bundle's list is too short for it. -/
def getBundleEndBlockForChain (proposeRootBundleEvent : ProposedRootBundle) (chainId : Nat)
    (chainIdList : List Nat) : Except String Nat :=
  match chainIdList.indexOf? chainId with
  | none => .ok 0
  | some chainIdIndex =>
      match proposeRootBundleEvent.bundleEvaluationBlockNumbers[chainIdIndex]? with
      | none => .ok 0
      | some blockNumber => toNumber blockNumber

namespace HubPoolClient

variable (c : HubPoolClient)

/-- The proposal after the last one proposed in the same block as
`currentRootBundle`; none when that one is the latest. -/
def getFollowingRootBundle (currentRootBundle : ProposedRootBundle) :
    Option ProposedRootBundle :=
  match findLastIndex (fun bundle => bundle.blockNumber == currentRootBundle.blockNumber)
      c.proposedRootBundles with
  | none => none
  | some index => c.proposedRootBundles[index + 1]?

/-- The executed leaves after the bundle's block and not after
`latestMainnetBlockToSearch`. -/
def getExecutedLeavesForRootBundle (rootBundle : ProposedRootBundle)
    (latestMainnetBlockToSearch : Nat) : List ExecutedRootBundle :=
  c.executedRootBundles.filter fun executedLeaf =>
    executedLeaf.blockNumber ≤ latestMainnetBlockToSearch &&
      executedLeaf.blockNumber > rootBundle.blockNumber

/-- A bundle is valid when all its pool rebalance leaves were executed before the
next bundle or `latestMainnetBlock`, whichever comes first. -/
def isRootBundleValid (rootBundle : ProposedRootBundle) (latestMainnetBlock : Nat) : Bool :=
  let nextRootBundle := c.getFollowingRootBundle rootBundle
  let executedLeafCount := c.getExecutedLeavesForRootBundle rootBundle
    (match nextRootBundle with
      | some next => min next.blockNumber latestMainnetBlock
      | none => latestMainnetBlock)
  executedLeafCount.length == rootBundle.poolRebalanceLeafCount

/-- The test of `getValidatedRootBundles` and `getLatestFullyExecutedRootBundle`:
proposed by `latestMainnetBlock` and valid there. -/
def validatedAt (latestMainnetBlock : Nat) (rootBundle : ProposedRootBundle) : Bool :=
  if rootBundle.blockNumber > latestMainnetBlock then false
  else c.isRootBundleValid rootBundle latestMainnetBlock

/-- The bundles valid at `latestMainnetBlock`, in proposal order. -/
def getValidatedRootBundles (latestMainnetBlock : Nat := maxSafeInteger) :
    List ProposedRootBundle :=
  c.proposedRootBundles.filter (c.validatedAt latestMainnetBlock)

/-- The latest bundle valid at `latestMainnetBlock` (lodash's `findLast`). -/
def getLatestFullyExecutedRootBundle (latestMainnetBlock : Nat) : Option ProposedRootBundle :=
  c.proposedRootBundles.reverse.find? (c.validatedAt latestMainnetBlock)

/-- The earliest bundle proposed from `startBlock` on that is valid at
`latestMainnetBlock`. -/
def getEarliestFullyExecutedRootBundle (latestMainnetBlock : Nat) (startBlock : Nat := 0) :
    Option ProposedRootBundle :=
  c.proposedRootBundles.find? fun rootBundle =>
    if rootBundle.blockNumber > latestMainnetBlock then false
    else if rootBundle.blockNumber < startBlock then false
    else c.isRootBundleValid rootBundle latestMainnetBlock

/-- The latest bundle valid at the horizon is the last of the validated ones. -/
theorem getLatestFullyExecutedRootBundle_eq (latestMainnetBlock : Nat) :
    c.getLatestFullyExecutedRootBundle latestMainnetBlock =
      (c.getValidatedRootBundles latestMainnetBlock).getLast? := by
  rw [getLatestFullyExecutedRootBundle, getValidatedRootBundles, ← List.filter_head?,
    List.filter_reverse, List.head?_reverse]

/-- The earliest bundle from `startBlock` on that `validatedAt` accepts. -/
theorem getEarliestFullyExecutedRootBundle_eq (latestMainnetBlock startBlock : Nat) :
    c.getEarliestFullyExecutedRootBundle latestMainnetBlock startBlock =
      c.proposedRootBundles.find? fun rootBundle =>
        decide (startBlock ≤ rootBundle.blockNumber) && c.validatedAt latestMainnetBlock rootBundle := by
  simp only [getEarliestFullyExecutedRootBundle, validatedAt]
  congr 1
  funext rootBundle
  split_ifs <;> simp_all

/-- The backward loop of `getNthFullyExecutedRootBundle`: each of the `i` passes
takes the latest bundle valid at the horizon and moves the horizon to the block
before it (to `0` when none is found, `Math.max(0, ·)` being truncation here). -/
def nthLatestLoop : Nat → Nat → Option ProposedRootBundle → Option ProposedRootBundle
  | 0, _, bundleToReturn => bundleToReturn
  | i + 1, nextLatestMainnetBlock, _ =>
      let bundleToReturn := c.getLatestFullyExecutedRootBundle nextLatestMainnetBlock
      let bundleBlockNumber := match bundleToReturn with
        | some bundle => bundle.blockNumber
        | none => 0
      nthLatestLoop i (bundleBlockNumber - 1) bundleToReturn

/-- The forward loop of `getNthFullyExecutedRootBundle`: each of the `i` passes
takes the earliest bundle from the start block on that is valid at
`latestBlockNumber`, and moves the start block past it (past block `0` when none
is found), capped at `latestBlockNumber`. -/
def nthEarliestLoop (latestBlockNumber : Nat) :
    Nat → Nat → Option ProposedRootBundle → Option ProposedRootBundle
  | 0, _, bundleToReturn => bundleToReturn
  | i + 1, nextStartBlock, _ =>
      let bundleToReturn := c.getEarliestFullyExecutedRootBundle latestBlockNumber nextStartBlock
      let bundleBlockNumber := match bundleToReturn with
        | some bundle => bundle.blockNumber
        | none => 0
      nthEarliestLoop latestBlockNumber i (min (bundleBlockNumber + 1) latestBlockNumber)
        bundleToReturn

/-- For `n < 0` the `|n|`-th latest valid bundle from `startBlock` (default the
latest block), for `n > 0` the `n`-th earliest from `startBlock` (default `0`). -/
def getNthFullyExecutedRootBundle (n : Int) (startBlock : Option Nat) :
    Except String (Option ProposedRootBundle) :=
  if n = 0 then .error "n cannot be 0"
  else
    match c.latestBlockNumber with
    | none | some 0 => .error "HubPoolClient::getNthFullyExecutedRootBundle client not updated"
    | some latestBlockNumber =>
        if n < 0 then .ok (c.nthLatestLoop n.natAbs (startBlock.getD latestBlockNumber) none)
        else .ok (c.nthEarliestLoop latestBlockNumber n.natAbs (startBlock.getD 0) none)

/-- The end block on `chainId` of the latest bundle valid at
`latestMainnetBlock`, and `0` when there is none. -/
def getLatestBundleEndBlockForChain (chainIdList : List Nat) (latestMainnetBlock chainId : Nat) :
    Except String Nat :=
  match c.getLatestFullyExecutedRootBundle latestMainnetBlock with
  | none => .ok 0
  | some latestFullyExecutedPoolRebalanceRoot =>
      getBundleEndBlockForChain latestFullyExecutedPoolRebalanceRoot chainId chainIdList

/-- The block after that end block, and `0` when it is `0`. -/
def getNextBundleStartBlockNumber (chainIdList : List Nat) (latestMainnetBlock chainId : Nat) :
    Except String Nat := do
  let endBlock ← c.getLatestBundleEndBlockForChain chainIdList latestMainnetBlock chainId
  pure (if endBlock > 0 then endBlock + 1 else 0)

/-- The loop of `getRootBundleEvalBlockNumberContainingBlock` over the proposals,
newest first: a bundle failing the validity test is skipped; otherwise its end
block ends the scan when it is at most `block` (and is the answer when equal to
it), and becomes the answer so far when above it. -/
def evalBlockNumberScan (latestMainnetBlock block chain : Nat) (chainIdList : List Nat) :
    List ProposedRootBundle → Option Nat → Except String (Option Nat)
  | [], endingBlockNumber => .ok endingBlockNumber
  | rootBundle :: olderBundles, endingBlockNumber =>
      let nextRootBundle := c.getFollowingRootBundle rootBundle
      if !c.isRootBundleValid rootBundle
          (match nextRootBundle with
            | some next => next.blockNumber
            | none => latestMainnetBlock) then
        evalBlockNumberScan latestMainnetBlock block chain chainIdList olderBundles
          endingBlockNumber
      else
        match getBundleEndBlockForChain rootBundle chain chainIdList with
        | .error e => .error e
        | .ok bundleEvalBlockNumber =>
            if bundleEvalBlockNumber ≤ block then
              .ok (if bundleEvalBlockNumber = block then some bundleEvalBlockNumber
                else endingBlockNumber)
            else
              evalBlockNumberScan latestMainnetBlock block chain chainIdList olderBundles
                (some bundleEvalBlockNumber)

/-- The end block on `chain` closest to `block` without being below it, among
the bundles that pass the scan's validity test. -/
def getRootBundleEvalBlockNumberContainingBlock (latestMainnetBlock block chain : Nat)
    (chainIdList : List Nat) : Except String (Option Nat) :=
  c.evalBlockNumberScan latestMainnetBlock block chain chainIdList
    c.proposedRootBundles.reverse none

/-- The running balance of `l1Token` on `chain` recorded by the latest leaf
executed by `block` that lists the token (compared in lower case); `0` when no
leaf does. `toLowerCase` is read as `String.toLower`, which folds ASCII letters
only: the two agree on addresses. -/
def getRunningBalanceBeforeBlockForChain (block chain : Nat) (l1Token : String) :
    Except String (Option Int) :=
  match (sortEventsDescending ExecutedRootBundle.toSortableEvent c.executedRootBundles).find?
      (fun executedLeaf =>
        executedLeaf.blockNumber ≤ block && executedLeaf.chainId == chain &&
          (executedLeaf.l1Tokens.map String.toLower).contains l1Token.toLower) with
  | some mostRecentExecutedRootBundleEvent =>
      if mostRecentExecutedRootBundleEvent.l1Tokens.length ≠
          mostRecentExecutedRootBundleEvent.runningBalances.length then
        .error "runningBalances and L1 token of ExecutedRootBundle event are not same length"
      else
        match (mostRecentExecutedRootBundleEvent.l1Tokens.map String.toLower).indexOf?
            l1Token.toLower with
        | none => .ok none
        | some indexOfL1Token =>
            .ok mostRecentExecutedRootBundleEvent.runningBalances[indexOfL1Token]?
  | none => .ok (some 0)

/-- The spoke pool serving `chain` at `block`: the latest `CrossChainContractsSet`
entry for the chain at or before it. -/
def getSpokePoolForBlock (chain : Nat) (block : Nat := maxSafeInteger) : Except String String :=
  match c.crossChainContracts.get? chain with
  | none => .error s!"No cross chain contracts set for {chain}"
  | some crossChainContracts =>
      match (sortEventsDescending CrossChainContractsSet.toSortableEvent crossChainContracts).find?
          (fun crossChainContract => crossChainContract.blockNumber ≤ block) with
      | none => .error s!"No cross chain contract found before block {block} for chain {chain}"
      | some mostRecentSpokePoolUpdateBeforeBlock => .ok mostRecentSpokePoolUpdateBeforeBlock.spokePool

/-- The block of the first entry of `chain` for `spokePool`, in the order the
entries were stored. Searching the entries of a chain never registered throws
the `TypeError` of calling `find` on `undefined`. -/
def getSpokePoolActivationBlock (chain : Nat) (spokePool : String) : Except String (Option Nat) :=
  match c.crossChainContracts.get? chain with
  | none => .error "Cannot read properties of undefined (reading 'find')"
  | some crossChainContracts =>
      .ok ((crossChainContracts.find? fun crossChainContract =>
        crossChainContract.spokePool == spokePool).map (·.blockNumber))

/-- The first L1 token, in key order, with a route to `l2Token` on `l2ChainId`
published at or before `block`. An empty key is falsy and fails like a missing
one. -/
def getL1TokenCounterpartAtBlock (l2ChainId : Nat) (l2Token : String) (block : Nat) :
    Except String String :=
  let l1Token := (c.l1TokensToDestinationTokensWithBlock.map Prod.fst).find? fun l1Token =>
    match (c.l1TokensToDestinationTokensWithBlock.get? l1Token).bind (·.get? l2ChainId) with
    | none => false
    | some mappings =>
        ((sortEventsDescending DestinationTokenWithBlock.toSortableEvent mappings).find?
          fun mapping => mapping.l2Token == l2Token && mapping.blockNumber ≤ block).isSome
  match l1Token with
  | some l1Token =>
      if l1Token = "" then
        .error s!"Could not find L1 token mapping for chain {l2ChainId} and L2 token {l2Token} equal to or earlier than block {block}!"
      else .ok l1Token
  | none =>
      .error s!"Could not find L1 token mapping for chain {l2ChainId} and L2 token {l2Token} equal to or earlier than block {block}!"

/-- The route of `l1Token` to `destinationChainId`; reading it for a token with no
route at all throws the `TypeError` of indexing `undefined`. -/
def getDestinationTokenForL1Token (l1Token : String) (destinationChainId : Nat) :
    Except String (Option String) :=
  match c.l1TokensToDestinationTokens.get? l1Token with
  | none => .error s!"Cannot read properties of undefined (reading '{destinationChainId}')"
  | some destinations => .ok (destinations.get? destinationChainId)

/-- Whether `l1Token` has a route to `destinationChainId`. -/
def l2TokenEnabledForL1Token (l1Token : String) (destinationChainId : Nat) : Except String Bool :=
  (c.getDestinationTokenForL1Token l1Token destinationChainId).map Option.isSome

/-- `Object.fromEntries`: later entries overwrite earlier ones in place. -/
def fromEntries {α : Type} (entries : List (String × α)) : Dict String α :=
  entries.foldl (fun d e => d.set e.1 e.2) []

/-- A key of `Object.fromEntries` holds the value of its last entry. -/
theorem get?_fromEntries {α : Type} (entries : List (String × α)) (k : String) :
    (fromEntries entries).get? k = entries.reverse.lookup k := by
  rw [fromEntries, Dict.get?_foldl_set]
  exact Option.or_none

/-- The tokens of `l1Tokens` keyed by their destination token on `chainId`,
leaving out those with no route there. -/
def getDestinationTokensToL1TokensForChainId (chainId : Nat) :
    Except String (Dict String L1Token) := do
  let entries ← c.l1Tokens.mapM fun l1Token => do
    let destinationToken ← c.getDestinationTokenForL1Token l1Token.address chainId
    pure (destinationToken, l1Token)
  pure (fromEntries (entries.filterMap fun entry => entry.1.map (·, entry.2)))

/-- The first L1 token, in key order, whose route to the deposit's origin chain is
the deposit's origin token. -/
def getL1TokenForDeposit (originChainId : Nat) (originToken : String) : Except String String :=
  match (c.l1TokensToDestinationTokens.find? fun entry =>
      entry.2.get? originChainId == some originToken) with
  | some (l1Token, _) =>
      if l1Token = "" then
        .error s!"Could not find L1 Token for origin chain {originChainId} and origin token {originToken}!"
      else .ok l1Token
  | none =>
      .error s!"Could not find L1 Token for origin chain {originChainId} and origin token {originToken}!"

/-- The token info of an L1 token address. -/
def getTokenInfoForL1Token (l1Token : String) : Option L1Token :=
  c.l1Tokens.find? fun token => token.address == l1Token

/-- The destination token of a deposit: the route, to the deposit's destination
chain, of the L1 token of its origin token. An undefined route is returned as
it is, after the source logs it. -/
def getDestinationTokenForDeposit (originChainId : Nat) (originToken : String)
    (destinationChainId : Nat) : Except String (Option String) := do
  let l1Token ← c.getL1TokenForDeposit originChainId originToken
  c.getDestinationTokenForL1Token l1Token destinationChainId

/-- The token info of a deposit's L1 token. -/
def getTokenInfoForDeposit (originChainId : Nat) (originToken : String) :
    Except String (Option L1Token) :=
  (c.getL1TokenForDeposit originChainId originToken).map c.getTokenInfoForL1Token

/-- The token info of a token on a chain, looked up as a deposit of it; a number
chain id passes `parseInt(chainId.toString())` unchanged. -/
def getTokenInfo (chainId : Nat) (tokenAddress : String) : Except String (Option L1Token) :=
  c.getTokenInfoForDeposit chainId tokenAddress

/-- The HubPool's record of an L1 token. -/
def getLpTokenInfoForL1Token (l1Token : String) : Option LpToken :=
  c.lpTokens.get? l1Token

/-- The token info of the L1 counterpart of `l2Token` at the latest block (block
`0` before the first update). -/
def getL1TokenInfoForL2Token (l2Token : String) (chainId : Nat) :
    Except String (Option L1Token) := do
  let l1TokenCounterpart ← c.getL1TokenCounterpartAtBlock chainId l2Token
    (c.latestBlockNumber.getD 0)
  pure (c.getTokenInfoForL1Token l1TokenCounterpart)

/-- The proposals made in `[startingBlock, endingBlock]`, in proposal order. -/
def getProposedRootBundlesInBlockRange (startingBlock endingBlock : Nat) :
    List ProposedRootBundle :=
  c.proposedRootBundles.filter fun bundle =>
    bundle.blockNumber ≥ startingBlock && bundle.blockNumber ≤ endingBlock

/-- The cancellations made in `[startingBlock, endingBlock]`, newest first. -/
def getCancelledRootBundlesInBlockRange (startingBlock endingBlock : Nat) :
    List CancelledRootBundle :=
  (sortEventsDescending CancelledRootBundle.toSortableEvent c.canceledRootBundles).filter
    fun bundle => bundle.blockNumber ≥ startingBlock && bundle.blockNumber ≤ endingBlock

/-- The disputes made in `[startingBlock, endingBlock]`, newest first. -/
def getDisputedRootBundlesInBlockRange (startingBlock endingBlock : Nat) :
    List DisputedRootBundle :=
  (sortEventsDescending DisputedRootBundle.toSortableEvent c.disputedRootBundles).filter
    fun bundle => bundle.blockNumber ≥ startingBlock && bundle.blockNumber ≤ endingBlock

/-- The latest proposal, undefined before the first. -/
def getLatestProposedRootBundle : Option ProposedRootBundle :=
  c.proposedRootBundles.getLast?

/-- Whether a proposal is pending on chain. -/
def hasPendingProposal : Bool :=
  c.pendingRootBundle.isSome

end HubPoolClient

end HubPool

end AcrossBridge
