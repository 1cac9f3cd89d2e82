import AcrossBridge.HubPool.Queries

/-!
# `update`

One call of `HubPoolClient.update`. The call reads the chain (the provider's
block number, the seven event queries over the search range, the open proposal,
the current time, and for each newly enabled token its ERC20 symbol and decimals
and its pooled-token record), then writes the client field by field, in the
source's order:

* `currentTime`, then the spoke pools and the routes of the batch;
* the token list, one token info at a time, which throws on a token whose
  decimals lie outside `(0, 18]`;
* `lpTokens`, then the four bundle lists;
* the pending bundle, which reads the latest proposed bundle and so throws a
  `TypeError` when there is none;
* last `isUpdated` and `firstBlockToSearch`.

Every `await` may reject. A throw leaves the writes made before it in place,
so the outcome of a call is the client as the call left it together with the
error it threw, if any. The chain's answers during one call are the fields of a
`HubPoolContract`; `paginatedEventQuery` stands for the seven queries together,
which `Promise.all` rejects as soon as one of them does.

The inversion lemma `update_cases` says once everything a call can do to the
bundle lists and the search bookkeeping; the theorems about failing calls and
about runs are case analyses over it.
-/

namespace AcrossBridge

namespace HubPool

/-- The event lists one call of `update` fetches, one per event type. -/
structure HubPoolEvents where
  poolRebalanceRouteEvents : List SetPoolRebalanceRoot
  l1TokensLpEvents : List L1TokenEnabledForLiquidityProvision
  proposeRootBundleEvents : List ProposedRootBundle
  canceledRootBundleEvents : List CancelledRootBundle
  disputedRootBundleEvents : List DisputedRootBundle
  executedRootBundleEvents : List ExecutedRootBundle
  crossChainContractsSetEvents : List CrossChainContractsSet
deriving DecidableEq, Repr

/-- What the chain answers to the reads of one call of `update`: `this.hubPool`,
its provider and the ERC20 contracts of its tokens. -/
structure HubPoolContract where
  getBlockNumber : Except String Nat
  /-- The seven `paginatedEventQuery` calls over `[fromBlock, toBlock]`. -/
  paginatedEventQuery : Nat → Nat → Except String HubPoolEvents
  rootBundleProposal : Except String RootBundleProposal
  getCurrentTime : Except String Nat
  /-- `symbol()` of the ERC20 contract at an address. -/
  symbol : String → Except String String
  /-- `decimals()` of the ERC20 contract at an address. -/
  decimals : String → Except String Nat
  pooledTokens : String → Except String LpToken

/-- The token info of the ERC20 contract at `address`. -/
def HubPoolContract.fetchTokenInfoFromContract (hubPool : HubPoolContract) (address : String) :
    Except String L1Token := do
  let symbol ← hubPool.symbol address
  let decimals ← hubPool.decimals address
  pure { address, symbol, decimals }

/-- What a call of `update` leaves: the client, and the error the call threw. -/
structure UpdateResult where
  client : HubPoolClient
  thrown : Option String

/-- `eventSearchConfig.toBlock || latestBlockNumber`: an unset `toBlock`, or one
of `0`, searches up to the latest block. -/
def searchToBlock (toBlock : Option Nat) (latestBlockNumber : Nat) : Nat :=
  match toBlock with
  | some (toBlock + 1) => toBlock + 1
  | _ => latestBlockNumber

/-- The loop of `update` over `CrossChainContractsSet` events. The stored entry
keeps the event's chain id, which no query reads. -/
def assignCrossChainContracts (crossChainContracts : Dict Nat (List CrossChainContractsSet))
    (crossChainContractsSetEvents : List CrossChainContractsSet) :
    Dict Nat (List CrossChainContractsSet) :=
  crossChainContractsSetEvents.foldl (fun d args => d.assignAppend args.l2ChainId args)
    crossChainContracts

/-- The loop of `update` over `SetPoolRebalanceRoute` events, on the latest
route of each token and chain. -/
def assignDestinationTokens (l1TokensToDestinationTokens : Dict String (Dict Nat String))
    (poolRebalanceRouteEvents : List SetPoolRebalanceRoot) : Dict String (Dict Nat String) :=
  poolRebalanceRouteEvents.foldl
    (fun d args => d.assign args.l1Token args.destinationChainId args.destinationToken)
    l1TokensToDestinationTokens

/-- The loop of `update` over `SetPoolRebalanceRoute` events, on the
block-versioned route history. -/
def assignDestinationTokensWithBlock
    (l1TokensToDestinationTokensWithBlock : Dict String (Dict Nat (List DestinationTokenWithBlock)))
    (poolRebalanceRouteEvents : List SetPoolRebalanceRoot) :
    Dict String (Dict Nat (List DestinationTokenWithBlock)) :=
  poolRebalanceRouteEvents.foldl
    (fun d args => d.assignAppendAt args.l1Token args.destinationChainId
      { toSortableEvent := args.toSortableEvent, l2Token := args.destinationToken })
    l1TokensToDestinationTokensWithBlock

/-- The spoke pools of a chain after the loop: those before it, then the batch's
entries for the chain, in batch order. -/
theorem get?_assignCrossChainContracts
    (crossChainContracts : Dict Nat (List CrossChainContractsSet))
    (crossChainContractsSetEvents : List CrossChainContractsSet) (chain : Nat) :
    ((assignCrossChainContracts crossChainContracts crossChainContractsSetEvents).get? chain).getD [] =
      (crossChainContracts.get? chain).getD [] ++
        crossChainContractsSetEvents.filter fun args => args.l2ChainId = chain := by
  induction crossChainContractsSetEvents generalizing crossChainContracts with
  | nil => simp [assignCrossChainContracts]
  | cons args events ih =>
      rw [assignCrossChainContracts, List.foldl_cons, ← assignCrossChainContracts, ih,
        Dict.get?_assignAppend]
      by_cases h : chain = args.l2ChainId
      · rw [if_pos h, List.filter_cons_of_pos (by simpa using h.symm)]
        simp [h]
      · rw [if_neg h, List.filter_cons_of_neg (by simpa using Ne.symm h)]

/-- The route history of a token and chain after the loop: the history before
it, then the batch's routes for them, in batch order. -/
theorem get?_assignDestinationTokensWithBlock
    (l1TokensToDestinationTokensWithBlock :
      Dict String (Dict Nat (List DestinationTokenWithBlock)))
    (poolRebalanceRouteEvents : List SetPoolRebalanceRoot) (l1Token : String) (chain : Nat) :
    (((assignDestinationTokensWithBlock l1TokensToDestinationTokensWithBlock
        poolRebalanceRouteEvents).get? l1Token).bind (·.get? chain)).getD [] =
      (((l1TokensToDestinationTokensWithBlock.get? l1Token).bind (·.get? chain)).getD []) ++
        (poolRebalanceRouteEvents.filter fun args =>
          args.l1Token = l1Token ∧ args.destinationChainId = chain).map fun args =>
            { toSortableEvent := args.toSortableEvent, l2Token := args.destinationToken } := by
  induction poolRebalanceRouteEvents generalizing l1TokensToDestinationTokensWithBlock with
  | nil => simp [assignDestinationTokensWithBlock]
  | cons args events ih =>
      rw [assignDestinationTokensWithBlock, List.foldl_cons, ← assignDestinationTokensWithBlock,
        ih, Dict.get?_assignAppendAt]
      by_cases h : l1Token = args.l1Token ∧ chain = args.destinationChainId
      · obtain ⟨rfl, rfl⟩ := h
        rw [if_pos rfl, List.filter_cons_of_pos (by simp)]
        simp [Dict.get?_assignAppend, Dict.get?_getD_nil]
      · rw [List.filter_cons_of_neg fun hd => h ((of_decide_eq_true hd).imp Eq.symm Eq.symm)]
        congr 1
        split_ifs with hl
        · subst hl
          rw [Option.some_bind, Dict.get?_assignAppend, if_neg fun hc => h ⟨rfl, hc⟩,
            Dict.get?_getD_nil]
        · rfl

/-- `JSON.stringify` of a token info whose strings JSON does not escape. -/
def L1Token.stringify (info : L1Token) : String :=
  "\x7b\"address\":\"" ++ info.address ++ "\",\"symbol\":\"" ++ info.symbol ++
    "\",\"decimals\":" ++ toString info.decimals ++ "\x7d"

/-- The loop of `update` over the fetched token infos: a token whose symbol is
not yet listed is pushed when its decimals lie in `(0, 18]`, and otherwise the
loop throws, keeping what it pushed before. -/
def pushL1Tokens : List L1Token → List L1Token → List L1Token × Option String
  | l1Tokens, [] => (l1Tokens, none)
  | l1Tokens, info :: tokenInfo =>
      if (l1Tokens.find? fun token => token.symbol == info.symbol).isNone then
        if 0 < info.decimals ∧ info.decimals ≤ 18 then pushL1Tokens (l1Tokens ++ [info]) tokenInfo
        else (l1Tokens, some ("Unsupported HubPool token: " ++ info.stringify))
      else pushL1Tokens l1Tokens tokenInfo

/-- Every listed token has decimals in `(0, 18]`, and no two share a symbol. -/
def TokensSupported (l1Tokens : List L1Token) : Prop :=
  (∀ token ∈ l1Tokens, 0 < token.decimals ∧ token.decimals ≤ 18) ∧
    (l1Tokens.map (·.symbol)).Nodup

/-- The token loop keeps the token list supported, whatever infos it is given. -/
theorem pushL1Tokens_supported {l1Tokens : List L1Token} (h : TokensSupported l1Tokens)
    (tokenInfo : List L1Token) : TokensSupported (pushL1Tokens l1Tokens tokenInfo).1 := by
  induction tokenInfo generalizing l1Tokens with
  | nil => exact h
  | cons info tokenInfo ih =>
      unfold pushL1Tokens
      split
      · rename_i hnew
        split
        · rename_i hdecimals
          have hfresh : info.symbol ∉ l1Tokens.map (·.symbol) := by
            simpa [List.find?_eq_none] using hnew
          refine ih ⟨fun token htoken => ?_, ?_⟩
          · rcases List.mem_append.1 htoken with htoken | htoken
            exacts [h.1 token htoken, List.mem_singleton.1 htoken ▸ hdecimals]
          · simpa [List.nodup_append, hfresh] using h.2
        · exact h
      · exact ih h

/-- `uniqueL1Tokens.forEach((token, i) => lpTokens[token] = ...)`. -/
def setLpTokens (lpTokens : Dict String LpToken) (uniqueL1Tokens : List String)
    (lpTokenInfo : List LpToken) : Dict String LpToken :=
  (uniqueL1Tokens.zip lpTokenInfo).foldl
    (fun d entry => d.set entry.1 { lastLpFeeUpdate := entry.2.lastLpFeeUpdate }) lpTokens

/-- The message of the `TypeError` of reading the evaluation blocks of the latest
proposed bundle when there is none. -/
def pendingRootBundleError : String :=
  "Cannot read properties of undefined (reading 'bundleEvaluationBlockNumbers')"

/-- The pending bundle `update` records from `rootBundleProposal()`: while leaves
are unclaimed, the open proposal with the evaluation blocks of the latest
proposed bundle, each past `Number.MAX_SAFE_INTEGER` read as `0`. -/
def pendingRootBundleOf (pendingRootBundleProposal : RootBundleProposal)
    (proposedRootBundles : List ProposedRootBundle) : Except String (Option PendingRootBundle) :=
  if 0 < pendingRootBundleProposal.unclaimedPoolRebalanceLeafCount then
    match proposedRootBundles.getLast? with
    | none => .error pendingRootBundleError
    | some mostRecentProposedRootBundle =>
        .ok (some
          { poolRebalanceRoot := pendingRootBundleProposal.poolRebalanceRoot
            relayerRefundRoot := pendingRootBundleProposal.relayerRefundRoot
            slowRelayRoot := pendingRootBundleProposal.slowRelayRoot
            proposer := pendingRootBundleProposal.proposer
            unclaimedPoolRebalanceLeafCount :=
              pendingRootBundleProposal.unclaimedPoolRebalanceLeafCount
            challengePeriodEndTimestamp := pendingRootBundleProposal.challengePeriodEndTimestamp
            bundleEvaluationBlockNumbers :=
              mostRecentProposedRootBundle.bundleEvaluationBlockNumbers.map fun block =>
                match toNumber block with
                | .ok block => block
                | .error _ => 0
            proposalBlockNumber := some mostRecentProposedRootBundle.blockNumber })
  else .ok none

theorem pendingRootBundleOf_eq_error {pendingRootBundleProposal : RootBundleProposal}
    {proposedRootBundles : List ProposedRootBundle} {e : String}
    (h : pendingRootBundleOf pendingRootBundleProposal proposedRootBundles = .error e) :
    0 < pendingRootBundleProposal.unclaimedPoolRebalanceLeafCount ∧ proposedRootBundles = [] ∧
      e = pendingRootBundleError := by
  unfold pendingRootBundleOf at h
  split at h
  · split at h
    · rename_i hlast
      exact ⟨‹_›, List.getLast?_eq_none_iff.1 hlast, (Except.error.inj h).symm⟩
    · cases h
  · cases h

namespace HubPoolClient

/-- The four pushes of `update` for a batch: proposals and executions in the
configured ignored blocks are dropped. -/
def ingestRootBundleEvents (c : HubPoolClient) (events : HubPoolEvents) : HubPoolClient :=
  c.pushRootBundleEvents
    (events.proposeRootBundleEvents.filter fun event =>
      !c.config.ignoredHubProposedBundles.contains event.blockNumber)
    (events.executedRootBundleEvents.filter fun event =>
      !c.config.ignoredHubExecutedBundles.contains event.blockNumber)
    events.disputedRootBundleEvents events.canceledRootBundleEvents

variable (c : HubPoolClient) (events : HubPoolEvents)

@[simp] theorem ingestRootBundleEvents_config : (c.ingestRootBundleEvents events).config = c.config :=
  rfl

@[simp] theorem ingestRootBundleEvents_firstBlockToSearch :
    (c.ingestRootBundleEvents events).firstBlockToSearch = c.firstBlockToSearch := rfl

@[simp] theorem ingestRootBundleEvents_eventSearchConfig :
    (c.ingestRootBundleEvents events).eventSearchConfig = c.eventSearchConfig := rfl

end HubPoolClient

open HubPoolClient in
/-- `HubPoolClient.update`. -/
def update (hubPool : HubPoolContract) (c : HubPoolClient) : UpdateResult :=
  match hubPool.getBlockNumber with
  | .error e => ⟨c, some e⟩
  | .ok latestBlockNumber =>
    let c := { c with latestBlockNumber := some latestBlockNumber }
    let toBlock := searchToBlock c.eventSearchConfig.toBlock latestBlockNumber
    if toBlock < c.firstBlockToSearch then ⟨c, none⟩
    else
      match hubPool.paginatedEventQuery c.firstBlockToSearch toBlock, hubPool.rootBundleProposal,
          hubPool.getCurrentTime with
      | .ok events, .ok pendingRootBundleProposal, .ok currentTime =>
        let c := { c with
          currentTime := some currentTime
          crossChainContracts :=
            assignCrossChainContracts c.crossChainContracts events.crossChainContractsSetEvents
          l1TokensToDestinationTokens :=
            assignDestinationTokens c.l1TokensToDestinationTokens events.poolRebalanceRouteEvents
          l1TokensToDestinationTokensWithBlock :=
            assignDestinationTokensWithBlock c.l1TokensToDestinationTokensWithBlock
              events.poolRebalanceRouteEvents }
        let uniqueL1Tokens := (events.l1TokensLpEvents.map (·.l1Token)).eraseDups
        match uniqueL1Tokens.mapM hubPool.fetchTokenInfoFromContract,
            uniqueL1Tokens.mapM hubPool.pooledTokens with
        | .ok tokenInfo, .ok lpTokenInfo =>
          match pushL1Tokens c.l1Tokens tokenInfo with
          | (l1Tokens, some e) => ⟨{ c with l1Tokens }, some e⟩
          | (l1Tokens, none) =>
            let c := { c with
              l1Tokens
              lpTokens := setLpTokens c.lpTokens uniqueL1Tokens lpTokenInfo }.ingestRootBundleEvents
                events
            match pendingRootBundleOf pendingRootBundleProposal c.proposedRootBundles with
            | .error e => ⟨c, some e⟩
            | .ok pendingRootBundle =>
              ⟨{ c with pendingRootBundle, isUpdated := true, firstBlockToSearch := toBlock + 1 }, none⟩
        | .error e, _ => ⟨c, some e⟩
        | _, .error e => ⟨c, some e⟩
      | .error e, _, _ => ⟨c, some e⟩
      | _, .error e, _ => ⟨c, some e⟩
      | _, _, .error e => ⟨c, some e⟩

/-- A run of `update` calls, each answered by its own reads of the chain. A call
that throws leaves its writes, and the next call starts from them. -/
def updates : List HubPoolContract → HubPoolClient → HubPoolClient
  | [], c => c
  | hubPool :: hubPools, c => updates hubPools (update hubPool c).client

namespace HubPoolClient

/-- `c'` has the four bundle lists of `c`. -/
def SameRootBundles (c c' : HubPoolClient) : Prop :=
  c'.proposedRootBundles = c.proposedRootBundles ∧ c'.canceledRootBundles = c.canceledRootBundles ∧
    c'.disputedRootBundles = c.disputedRootBundles ∧ c'.executedRootBundles = c.executedRootBundles

/-- `c'` has the bundle lists, the pending bundle and the search bookkeeping of
`c`. -/
def KeepsLedger (c c' : HubPoolClient) : Prop :=
  SameRootBundles c c' ∧ c'.pendingRootBundle = c.pendingRootBundle ∧
    c'.isUpdated = c.isUpdated ∧ c'.firstBlockToSearch = c.firstBlockToSearch

end HubPoolClient

open HubPoolClient

section Update

variable (hubPool : HubPoolContract) (c : HubPoolClient)

/-- Everything a call of `update` does to the bundle lists, `lpTokens` and the
bookkeeping. Either it stops before its pushes and keeps them all, or it read
the batch of the search range `[firstBlockToSearch, toBlock]`, set the pooled
token record of each of the batch's enabled tokens and pushed the batch, and then
either throws at the pending bundle, because the open proposal has unclaimed
leaves and no proposal has been ingested, or returns having moved the search
on. -/
theorem update_cases :
    KeepsLedger c (update hubPool c).client ∧ (update hubPool c).client.lpTokens = c.lpTokens ∨
      ∃ latestBlockNumber events pendingRootBundleProposal,
        hubPool.getBlockNumber = .ok latestBlockNumber ∧
        c.firstBlockToSearch ≤ searchToBlock c.eventSearchConfig.toBlock latestBlockNumber ∧
        hubPool.paginatedEventQuery c.firstBlockToSearch
          (searchToBlock c.eventSearchConfig.toBlock latestBlockNumber) = .ok events ∧
        hubPool.rootBundleProposal = .ok pendingRootBundleProposal ∧
        (∃ lpTokenInfo,
          (events.l1TokensLpEvents.map (·.l1Token)).eraseDups.mapM hubPool.pooledTokens =
            .ok lpTokenInfo ∧
          (update hubPool c).client.lpTokens =
            setLpTokens c.lpTokens (events.l1TokensLpEvents.map (·.l1Token)).eraseDups lpTokenInfo) ∧
        ((update hubPool c).thrown = some pendingRootBundleError ∧
            0 < pendingRootBundleProposal.unclaimedPoolRebalanceLeafCount ∧
            (c.ingestRootBundleEvents events).proposedRootBundles = [] ∧
            KeepsLedger (c.ingestRootBundleEvents events) (update hubPool c).client ∨
          (update hubPool c).thrown = none ∧
            SameRootBundles (c.ingestRootBundleEvents events) (update hubPool c).client ∧
            (update hubPool c).client.isUpdated = true ∧
            (update hubPool c).client.firstBlockToSearch =
              searchToBlock c.eventSearchConfig.toBlock latestBlockNumber + 1) := by
  unfold update
  split
  · exact .inl ⟨⟨⟨rfl, rfl, rfl, rfl⟩, rfl, rfl, rfl⟩, rfl⟩
  · rename_i latestBlockNumber hblock
    dsimp only
    split
    · exact .inl ⟨⟨⟨rfl, rfl, rfl, rfl⟩, rfl, rfl, rfl⟩, rfl⟩
    · rename_i hle
      split
      · rename_i events pendingRootBundleProposal currentTime hevents hproposal _
        split
        · rename_i tokenInfo lpTokenInfo _ hlpTokenInfo
          split
          · exact .inl ⟨⟨⟨rfl, rfl, rfl, rfl⟩, rfl, rfl, rfl⟩, rfl⟩
          · split
            · rename_i e hpending
              obtain ⟨hpos, hnil, rfl⟩ := pendingRootBundleOf_eq_error hpending
              exact .inr ⟨latestBlockNumber, events, pendingRootBundleProposal, hblock, by omega,
                hevents, hproposal, ⟨lpTokenInfo, hlpTokenInfo, rfl⟩,
                .inl ⟨rfl, hpos, by simpa [ingestRootBundleEvents] using hnil,
                  ⟨rfl, rfl, rfl, rfl⟩, rfl, rfl, rfl⟩⟩
            · exact .inr ⟨latestBlockNumber, events, pendingRootBundleProposal, hblock, by omega,
                hevents, hproposal, ⟨lpTokenInfo, hlpTokenInfo, rfl⟩,
                .inr ⟨rfl, ⟨rfl, rfl, rfl, rfl⟩, rfl, rfl⟩⟩
        all_goals exact .inl ⟨⟨⟨rfl, rfl, rfl, rfl⟩, rfl, rfl, rfl⟩, rfl⟩
      all_goals exact .inl ⟨⟨⟨rfl, rfl, rfl, rfl⟩, rfl, rfl, rfl⟩, rfl⟩

/-- A call of `update` keeps the client's configuration, and writes the token
list only through the token loop. -/
theorem update_frame :
    (update hubPool c).client.config = c.config ∧
      (update hubPool c).client.eventSearchConfig = c.eventSearchConfig ∧
      ∃ tokenInfo, (update hubPool c).client.l1Tokens = (pushL1Tokens c.l1Tokens tokenInfo).1 := by
  unfold update
  split
  · exact ⟨rfl, rfl, [], rfl⟩
  · dsimp only
    split
    · exact ⟨rfl, rfl, [], rfl⟩
    · split
      · split
        · rename_i tokenInfo _ _ _
          split <;> rename_i hpush
          · exact ⟨rfl, rfl, tokenInfo, by rw [hpush]⟩
          · split <;> exact ⟨rfl, rfl, tokenInfo, by rw [hpush]; rfl⟩
        all_goals exact ⟨rfl, rfl, [], rfl⟩
      all_goals exact ⟨rfl, rfl, [], rfl⟩

end Update

end HubPool

end AcrossBridge
