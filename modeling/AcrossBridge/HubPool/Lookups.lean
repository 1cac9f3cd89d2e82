import AcrossBridge.HubPool.Update

/-!
# Lookups of the latest entry

Three queries read a block-versioned history: the spoke pool of a chain, the
running balance of a token on a chain, and the L1 counterpart of an L2 token.
Each sorts the history newest first and takes the first entry passing its test,
so by `find?_sortEventsDescending_eq_some` it reads an entry that passes the
test and sits at or after every other entry that does: the latest one.

`getL1TokenCounterpartAtBlock` tests each history for some route to the L2
token by the block, not for the latest route, so a token remapped away from the
L2 token is still returned. `getDestinationTokensToL1TokensForChainId` reads
the route table of every listed token: it throws exactly when one has none, and
otherwise keeps, for each destination token, the last listed token routed to it
(`getDestinationTokensToL1TokensForChainId_get?`). `update` fills the route
tables from the route events alone, so a token enabled for liquidity before any
route is set makes it throw.
-/

namespace AcrossBridge

namespace HubPool

/-- A leaf that bears on the running balance of `l1Token` on `chain` by
`block`: executed by the block, on the chain, and listing the token, compared in
lower case. -/
def ExecutedRootBundle.CountsFor (leaf : ExecutedRootBundle) (block chain : Nat)
    (l1Token : String) : Prop :=
  leaf.blockNumber ≤ block ∧ leaf.chainId = chain ∧
    l1Token.toLower ∈ leaf.l1Tokens.map String.toLower

/-- Looking up a key among the entries kept by a `filterMap` that pairs each
kept element with its key: the first element whose key it is. -/
theorem lookup_filterMap {β κ : Type} [DecidableEq κ] (f : β → Option κ) (k : κ) :
    ∀ l : List β, (l.filterMap fun x => (f x).map (·, x)).lookup k = l.find? fun x => f x == some k
  | [] => rfl
  | x :: l => by
      cases hx : f x with
      | none => simp [List.filterMap_cons, hx, lookup_filterMap f k l]
      | some y =>
          simp only [List.filterMap_cons, hx, Option.map_some', Dict.lookup_cons_eq_ite,
            List.find?_cons, lookup_filterMap f k l, Option.some.injEq, beq_iff_eq]
          by_cases h : k = y
          · simp [h]
          · simp [h, beq_false_of_ne (Ne.symm h)]

namespace HubPoolClient

variable (c : HubPoolClient)

/-- The spoke pool of a chain at a block is that of the latest entry of the chain
at or before the block, and the query throws exactly when there is none, a chain
never registered included. -/
theorem getSpokePoolForBlock_latest (chain block : Nat) :
    (∀ x ∈ (c.crossChainContracts.get? chain).getD [], block < x.blockNumber) ∧
        (∃ e, c.getSpokePoolForBlock chain block = .error e) ∨
      ∃ x ∈ (c.crossChainContracts.get? chain).getD [], x.blockNumber ≤ block ∧
        (∀ y ∈ (c.crossChainContracts.get? chain).getD [], y.blockNumber ≤ block →
          x.toSortableEvent.NotBefore y.toSortableEvent) ∧
        c.getSpokePoolForBlock chain block = .ok x.spokePool := by
  unfold getSpokePoolForBlock
  cases c.crossChainContracts.get? chain with
  | none => exact .inl ⟨fun _ h => (List.not_mem_nil _ h).elim, _, rfl⟩
  | some crossChainContracts =>
      dsimp only [Option.getD_some]
      cases hfind : (sortEventsDescending CrossChainContractsSet.toSortableEvent
          crossChainContracts).find? (fun crossChainContract => crossChainContract.blockNumber ≤ block) with
      | none =>
          exact .inl ⟨fun x hx => by simpa using find?_sortEventsDescending_eq_none.1 hfind x hx,
            _, rfl⟩
      | some x =>
          obtain ⟨hx, hpx, hlatest⟩ := find?_sortEventsDescending_eq_some hfind
          exact .inr ⟨x, hx, of_decide_eq_true hpx,
            fun y hy hpy => hlatest y hy (decide_eq_true hpy), rfl⟩

/-- The running balance of a token on a chain by a block is read from the latest
leaf that counts for it, at the first position of the token among the leaf's
tokens in lower case. It is `0` when no leaf counts, the query throws exactly
when the latest leaf's token and balance lists differ in length, and it is never
undefined. -/
theorem getRunningBalanceBeforeBlockForChain_latest (block chain : Nat) (l1Token : String) :
    (∀ leaf ∈ c.executedRootBundles, ¬leaf.CountsFor block chain l1Token) ∧
        c.getRunningBalanceBeforeBlockForChain block chain l1Token = .ok (some 0) ∨
      ∃ leaf ∈ c.executedRootBundles, leaf.CountsFor block chain l1Token ∧
        (∀ other ∈ c.executedRootBundles, other.CountsFor block chain l1Token →
          leaf.toSortableEvent.NotBefore other.toSortableEvent) ∧
        (leaf.l1Tokens.length ≠ leaf.runningBalances.length ∧
            c.getRunningBalanceBeforeBlockForChain block chain l1Token =
              .error "runningBalances and L1 token of ExecutedRootBundle event are not same length" ∨
          leaf.l1Tokens.length = leaf.runningBalances.length ∧
            ∃ (i : Nat) (balance : Int), (leaf.l1Tokens.map String.toLower)[i]? = some l1Token.toLower ∧
              (∀ j < i, (leaf.l1Tokens.map String.toLower)[j]? ≠ some l1Token.toLower) ∧
              leaf.runningBalances[i]? = some balance ∧
              c.getRunningBalanceBeforeBlockForChain block chain l1Token = .ok (some balance)) := by
  have hcounts : ∀ leaf : ExecutedRootBundle, (leaf.blockNumber ≤ block && leaf.chainId == chain &&
      (leaf.l1Tokens.map String.toLower).contains l1Token.toLower) = true ↔
        leaf.CountsFor block chain l1Token := fun leaf => by
    simp [ExecutedRootBundle.CountsFor, and_assoc]
  unfold getRunningBalanceBeforeBlockForChain
  cases hfind : (sortEventsDescending ExecutedRootBundle.toSortableEvent c.executedRootBundles).find?
      (fun executedLeaf => executedLeaf.blockNumber ≤ block && executedLeaf.chainId == chain &&
        (executedLeaf.l1Tokens.map String.toLower).contains l1Token.toLower) with
  | none =>
      refine .inl ⟨fun leaf hleaf hleafCounts => ?_, rfl⟩
      have := find?_sortEventsDescending_eq_none.1 hfind leaf hleaf
      rw [(hcounts leaf).2 hleafCounts] at this
      cases this
  | some leaf =>
      obtain ⟨hleaf, hp, hlatest⟩ := find?_sortEventsDescending_eq_some hfind
      have hleafCounts := (hcounts leaf).1 hp
      refine .inr ⟨leaf, hleaf, hleafCounts,
        fun other hother h => hlatest other hother ((hcounts other).2 h), ?_⟩
      dsimp only
      by_cases hlen : leaf.l1Tokens.length = leaf.runningBalances.length
      · -- the token is listed, so its first position indexes a balance
        rw [if_neg (not_not.2 hlen)]
        cases hidx : (leaf.l1Tokens.map String.toLower).indexOf? l1Token.toLower with
        | none => simpa using List.indexOf?_eq_none_iff.1 hidx _ hleafCounts.2.2
        | some i =>
            obtain ⟨hi, hat, hbefore⟩ := List.findIdx?_eq_some_iff_getElem.1 hidx
            have hib : i < leaf.runningBalances.length := by simpa [← hlen] using hi
            refine .inr ⟨hlen, i, leaf.runningBalances[i], ?_, fun j hj => ?_,
              List.getElem?_eq_getElem hib, by simp [List.getElem?_eq_getElem hib]⟩
            · simpa [List.getElem?_eq_getElem hi] using hat
            · simpa [List.getElem?_eq_getElem (hj.trans hi)] using hbefore j hj
      · exact .inl ⟨hlen, if_pos hlen⟩

/-- A token remapped away from an L2 token is still its L1 counterpart. One
call of `update` reads two routes of `0xA` on chain `10`, to `0xB` at block `1`
and to `0xC` at block `2`: at block `3` the latest route of `0xA` is `0xC`, yet
`0xA` is returned as the counterpart of `0xB`. -/
theorem getL1TokenCounterpartAtBlock_returns_remapped_token :
    (let hubPool : HubPoolContract :=
      { getBlockNumber := .ok 10
        paginatedEventQuery := fun _ _ =>
          .ok ⟨[⟨⟨1, 0, 0⟩, 10, "0xA", "0xB"⟩, ⟨⟨2, 0, 0⟩, 10, "0xA", "0xC"⟩], [], [], [], [], [],
            []⟩
        rootBundleProposal := .ok ⟨"", "", "", "", 0, 0⟩
        getCurrentTime := .ok 0
        symbol := fun _ => .ok "USDC"
        decimals := fun _ => .ok 6
        pooledTokens := fun _ => .ok ⟨0⟩ }
    let c := (update hubPool (init ⟨0, none, 0⟩ ⟨[], []⟩)).client
    c.l1TokensToDestinationTokensWithBlock =
        [("0xA", [(10, [⟨⟨1, 0, 0⟩, "0xB"⟩, ⟨⟨2, 0, 0⟩, "0xC"⟩])])] ∧
      c.getDestinationTokenForL1Token "0xA" 10 = .ok (some "0xC") ∧
      c.getL1TokenCounterpartAtBlock 10 "0xB" 3 = .ok "0xA") :=
  ⟨rfl, rfl, rfl⟩

/-- Reading the route table of each listed token, in order: the lookup throws at
the first token with no table, and otherwise pairs each token with its
destination token on the chain, if any. -/
theorem mapM_getDestinationTokenForL1Token (chainId : Nat) : ∀ l1Tokens : List L1Token,
    (l1Tokens.mapM fun l1Token => do
        let destinationToken ← c.getDestinationTokenForL1Token l1Token.address chainId
        pure (destinationToken, l1Token)) =
      if ∀ l1Token ∈ l1Tokens, c.l1TokensToDestinationTokens.get? l1Token.address ≠ none then
        .ok (l1Tokens.map fun l1Token =>
          ((c.l1TokensToDestinationTokens.get? l1Token.address).bind (·.get? chainId), l1Token))
      else .error s!"Cannot read properties of undefined (reading '{chainId}')"
  | [] => rfl
  | l1Token :: l1Tokens => by
      rw [List.mapM_cons, mapM_getDestinationTokenForL1Token chainId l1Tokens, List.map_cons,
        getDestinationTokenForL1Token]
      cases h : c.l1TokensToDestinationTokens.get? l1Token.address with
      | none =>
          exact (if_neg fun hall : ∀ x ∈ l1Token :: l1Tokens,
            c.l1TokensToDestinationTokens.get? x.address ≠ none =>
              hall l1Token (List.mem_cons_self _ _) h).symm
      | some destinations =>
          by_cases hrest : ∀ l1Token ∈ l1Tokens,
              c.l1TokensToDestinationTokens.get? l1Token.address ≠ none
          · rw [if_pos hrest, if_pos (List.forall_mem_cons.2 ⟨h ▸ Option.some_ne_none _, hrest⟩)]
            rfl
          · rw [if_neg hrest, if_neg fun hall => hrest fun x hx => hall x (.tail _ hx)]
            rfl

/-- The destination tokens of a chain: the query throws exactly when a listed
token has no route table, and otherwise maps each destination token to the last
listed token routed to it on the chain. -/
theorem getDestinationTokensToL1TokensForChainId_get? (chainId : Nat) :
    (∃ l1Token ∈ c.l1Tokens, c.l1TokensToDestinationTokens.get? l1Token.address = none) ∧
        c.getDestinationTokensToL1TokensForChainId chainId =
          .error s!"Cannot read properties of undefined (reading '{chainId}')" ∨
      (∀ l1Token ∈ c.l1Tokens, c.l1TokensToDestinationTokens.get? l1Token.address ≠ none) ∧
        ∃ destinationTokens, c.getDestinationTokensToL1TokensForChainId chainId = .ok destinationTokens ∧
          ∀ destinationToken, destinationTokens.get? destinationToken =
            (c.l1Tokens.filter fun l1Token =>
              (c.l1TokensToDestinationTokens.get? l1Token.address).bind (·.get? chainId) ==
                some destinationToken).getLast? := by
  unfold getDestinationTokensToL1TokensForChainId
  rw [mapM_getDestinationTokenForL1Token]
  split_ifs with hall
  · refine .inr ⟨hall, _, rfl, fun destinationToken => ?_⟩
    rw [get?_fromEntries, List.filterMap_map, ← List.filterMap_reverse,
      List.getLast?_eq_head?_reverse, ← List.filter_reverse, List.filter_head?]
    simp only [Function.comp_def]
    exact lookup_filterMap _ _ _
  · push_neg at hall
    exact .inl ⟨hall, rfl⟩

section Deposits

variable {c} {l1Token originToken : String} {originChainId : Nat}

/-- A deposit of a route's destination token from the route's chain resolves to
the route's L1 token, when no other entry of the route table routes to that
token there and the L1 token is not empty. -/
theorem getL1TokenForDeposit_of_route
    (hroute : (c.l1TokensToDestinationTokens.get? l1Token).bind (·.get? originChainId) =
      some originToken)
    (hunique : ∀ entry ∈ c.l1TokensToDestinationTokens,
      entry.2.get? originChainId = some originToken → entry.1 = l1Token)
    (hne : l1Token ≠ "") :
    c.getL1TokenForDeposit originChainId originToken = .ok l1Token := by
  obtain ⟨destinations, hdestinations, hchain⟩ := Option.bind_eq_some.1 hroute
  have hentry := Dict.mem_of_get?_eq_some hdestinations
  unfold getL1TokenForDeposit
  split
  · rename_i found routes hfound
    have hfound_route : routes.get? originChainId = some originToken := by
      simpa using List.find?_some hfound
    obtain rfl := hunique _ (List.mem_of_find?_eq_some hfound) hfound_route
    exact if_neg hne
  · rename_i hnone
    exact absurd (by simpa using hchain) (List.find?_eq_none.1 hnone _ hentry)

/-- A deposit of a route's destination token from the route's chain resolves to
the route's L1 token and gets, on any destination chain, the route of that L1
token there, under the same conditions; on the origin chain it gets its own
token back. -/
theorem getDestinationTokenForDeposit_of_route
    (hroute : (c.l1TokensToDestinationTokens.get? l1Token).bind (·.get? originChainId) =
      some originToken)
    (hunique : ∀ entry ∈ c.l1TokensToDestinationTokens,
      entry.2.get? originChainId = some originToken → entry.1 = l1Token)
    (hne : l1Token ≠ "") (destinationChainId : Nat) :
    c.getL1TokenForDeposit originChainId originToken = .ok l1Token ∧
      c.getDestinationTokenForDeposit originChainId originToken destinationChainId =
        .ok ((c.l1TokensToDestinationTokens.get? l1Token).bind (·.get? destinationChainId)) := by
  obtain ⟨destinations, hdestinations, -⟩ := Option.bind_eq_some.1 hroute
  have hl1 := getL1TokenForDeposit_of_route hroute hunique hne
  refine ⟨hl1, ?_⟩
  unfold getDestinationTokenForDeposit
  rw [hl1]
  show c.getDestinationTokenForL1Token l1Token destinationChainId = _
  rw [getDestinationTokenForL1Token, hdestinations]
  rfl

theorem getDestinationTokenForDeposit_of_route_two_tokens :
    (let c : HubPoolClient := { init ⟨0, none, 0⟩ ⟨[], []⟩ with
        l1TokensToDestinationTokens := [("0xA", [(1, "0xB"), (10, "0xC")]), ("0xD", [(1, "0xE")])] }
    c.getL1TokenForDeposit 1 "0xB" = .ok "0xA" ∧
      c.getDestinationTokenForDeposit 1 "0xB" 10 =
        .ok ((c.l1TokensToDestinationTokens.get? "0xA").bind (·.get? 10))) := by
  intro c
  exact getDestinationTokenForDeposit_of_route (by rfl) (by decide) (by decide) 10

end Deposits

/-- A token enabled for liquidity before any route is set makes the lookup of
destination tokens throw. One call of `update` lists the token `0xA` of an
`L1TokenEnabledForLiquidityProvision` event and reads no route event. -/
theorem getDestinationTokensToL1TokensForChainId_throws_without_route :
    (let hubPool : HubPoolContract :=
      { getBlockNumber := .ok 10
        paginatedEventQuery := fun _ _ => .ok ⟨[], [⟨⟨1, 0, 0⟩, "0xA"⟩], [], [], [], [], []⟩
        rootBundleProposal := .ok ⟨"", "", "", "", 0, 0⟩
        getCurrentTime := .ok 0
        symbol := fun _ => .ok "WETH"
        decimals := fun _ => .ok 18
        pooledTokens := fun _ => .ok ⟨0⟩ }
    let r := update hubPool (init ⟨0, none, 0⟩ ⟨[], []⟩)
    r.thrown = none ∧ r.client.l1Tokens = [⟨"0xA", "WETH", 18⟩] ∧
      r.client.getDestinationTokensToL1TokensForChainId 10 =
        .error "Cannot read properties of undefined (reading '10')") :=
  ⟨rfl, rfl, rfl⟩

end HubPoolClient

end HubPool

end AcrossBridge
