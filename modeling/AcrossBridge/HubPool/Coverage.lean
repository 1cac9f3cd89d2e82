import AcrossBridge.HubPool.Registry

/-!
# What a run has read, as sets

A call of `update` writes its batch before anything after the read can throw,
and a call that throws does not move `firstBlockToSearch`: the next call reads
the same blocks again and writes their events a second time. Over such runs the
client's lists are not the log's window: entries repeat, and the blocks read
run past `firstBlockToSearch`. They still hold the log's events as sets, those
of the blocks `[fromBlock, reach)` for some `reach` at or past
`firstBlockToSearch`. This needs no assumption on what the chain answers, only
that the event queries answer from the log.

The queries that pick the latest entry passing a test see neither repeats nor
the order of entries at distinct places in the log, so at every searched block
they answer from the log, whichever calls threw: the spoke pool of a chain, the
running balance of a token, and the L1 counterpart of an L2 token.
-/

namespace AcrossBridge

namespace HubPool

section Window

variable {α : Type} {toEvent : α → SortableEvent} {events : List α} {x : α}

/-- The window `[a, r)` and the blocks `[m, t]` read after it, with
`a ≤ m ≤ r`, hold the entries of the window `[a, max r (t + 1))`. -/
theorem mem_blockWindow_max {a m r t : Nat} (ham : a ≤ m) (hmr : m ≤ r) :
    x ∈ blockWindow toEvent a (max r (t + 1)) events ↔
      x ∈ blockWindow toEvent a r events ∨ x ∈ blockRange toEvent m t events := by
  simp only [blockWindow, blockRange, List.mem_filter, decide_eq_true_eq, ← and_or_left]
  exact and_congr_right fun _ => by omega

/-- At or below a block `t` before `r`, the window `[a, r)` and the blocks
`[a, t]` hold the same entries. -/
theorem mem_blockWindow_iff_mem_blockRange {a r t : Nat} (htr : t < r)
    (hx : (toEvent x).blockNumber ≤ t) :
    x ∈ blockWindow toEvent a r events ↔ x ∈ blockRange toEvent a t events := by
  simp only [blockWindow, blockRange, List.mem_filter, decide_eq_true_eq]
  exact and_congr_right fun _ => by omega

/-- Every entry of `entries` that does not repeat an earlier one sits at or
after all the earlier ones in the log: `entries` is in log order up to
repeats. -/
def NewInLogOrder (toEvent : α → SortableEvent) (entries : List α) : Prop :=
  ∀ l₁ y l₂, entries = l₁ ++ y :: l₂ → y ∉ l₁ → ∀ x ∈ l₁, Newer toEvent y x

theorem newInLogOrder_nil : NewInLogOrder toEvent ([] : List α) := fun _ _ _ h => by
  simp at h

/-- Appending a batch in log order whose new entries sit at or after all the
old ones keeps the entries in log order up to repeats. -/
theorem NewInLogOrder.append {entries batch : List α} (h : NewInLogOrder toEvent entries)
    (hbatch : InLogOrder toEvent batch)
    (hnew : ∀ y ∈ batch, y ∉ entries → ∀ x ∈ entries, Newer toEvent y x) :
    NewInLogOrder toEvent (entries ++ batch) := by
  intro l₁ y l₂ heq hy x hx
  rcases List.append_eq_append_iff.1 heq with ⟨a', rfl, rfl⟩ | ⟨c', rfl, hc'⟩
  · -- `y` comes from the batch, after the batch's entries `a'`
    rcases List.mem_append.1 hx with hx | hx
    · exact hnew y (List.mem_append_right _ (List.mem_cons_self _ _))
        (fun hmem => hy (List.mem_append_left _ hmem)) x hx
    · exact (List.pairwise_append.1 hbatch).2.2 x hx y (List.mem_cons_self _ _)
  · rcases List.cons_eq_append_iff.1 hc' with ⟨rfl, rfl⟩ | ⟨a', rfl, rfl⟩
    · -- `y` opens the batch
      rw [List.append_nil] at hnew
      exact hnew y (List.mem_cons_self _ _) hy x hx
    · exact h l₁ y a' rfl hy x hx

/-- In a list in log order up to repeats, the first entry passing a test sits at
or before every entry passing it. -/
theorem NewInLogOrder.find?_eq_some [DecidableEq α] {entries : List α} {p : α → Bool} {y : α}
    (h : NewInLogOrder toEvent entries) (hy : entries.find? p = some y) :
    ∀ x ∈ entries, p x → Newer toEvent x y := by
  intro x hx hpx
  obtain ⟨-, as, bs, heq, has⟩ := List.find?_eq_some.1 hy
  -- the first occurrence of `x`
  obtain ⟨z, hz⟩ := Option.isSome_iff_exists.1
    (List.find?_isSome.2 ⟨x, hx, beq_self_eq_true x⟩ : (entries.find? (· == x)).isSome)
  obtain ⟨hzx, as', bs', heq', has'⟩ := List.find?_eq_some.1 hz
  obtain rfl := beq_iff_eq.1 hzx
  have hfirst : z ∉ as' := fun hmem => by simpa using has' z hmem
  rcases List.append_eq_append_iff.1 (heq.symm.trans heq') with ⟨a', rfl, hc⟩ | ⟨c', rfl, hc⟩
  · rcases List.cons_eq_append_iff.1 hc with ⟨-, hyz⟩ | ⟨a'', rfl, -⟩
    · obtain ⟨rfl, -⟩ := List.cons.inj hyz
      exact SortableEvent.NotBefore.refl _
    · exact h _ z bs' heq' hfirst y (List.mem_append_right _ (List.mem_cons_self _ _))
  · rcases List.cons_eq_append_iff.1 hc with ⟨-, hyz⟩ | ⟨c'', rfl, -⟩
    · obtain ⟨rfl, -⟩ := List.cons.inj hyz
      exact SortableEvent.NotBefore.refl _
    · simpa [hpx] using has z (List.mem_append_right _ (List.mem_cons_self _ _))

end Window

/-- A run keeps the client's configurations. -/
theorem updates_frame (hubPools : List HubPoolContract) (c : HubPoolClient) :
    (updates hubPools c).config = c.config ∧
      (updates hubPools c).eventSearchConfig = c.eventSearchConfig := by
  induction hubPools generalizing c with
  | nil => exact ⟨rfl, rfl⟩
  | cons hubPool hubPools ih =>
      obtain ⟨hconfig, hsearch, -⟩ := update_frame hubPool c
      obtain ⟨h₁, h₂⟩ := ih (update hubPool c).client
      exact ⟨h₁.trans hconfig, h₂.trans hsearch⟩

namespace HubPoolClient

variable {log : HubPoolLog} {c : HubPoolClient} {reach : Nat}

/-! ## The registries -/

/-- Against `log`, the registries of `c` hold as sets the log's events of the
blocks `[fromBlock, reach)`: the spoke pool entries of each chain, and the route
history of each token and chain. `reach` is at or past `firstBlockToSearch`. -/
structure RegistryLogged (log : HubPoolLog) (c : HubPoolClient) (reach : Nat) : Prop where
  fromBlock_le : c.eventSearchConfig.fromBlock ≤ c.firstBlockToSearch
  firstBlockToSearch_le : c.firstBlockToSearch ≤ reach
  crossChainContracts : ∀ chain x, x ∈ (c.crossChainContracts.get? chain).getD [] ↔
    x ∈ (blockWindow CrossChainContractsSet.toSortableEvent c.eventSearchConfig.fromBlock reach
      log.events.crossChainContractsSetEvents).filter fun args => args.l2ChainId = chain
  routes : ∀ l1Token chain x,
    x ∈ ((c.l1TokensToDestinationTokensWithBlock.get? l1Token).bind (·.get? chain)).getD [] ↔
      x ∈ ((blockWindow SetPoolRebalanceRoot.toSortableEvent c.eventSearchConfig.fromBlock reach
        log.events.poolRebalanceRouteEvents).filter fun args =>
          args.l1Token = l1Token ∧ args.destinationChainId = chain).map fun args =>
            { toSortableEvent := args.toSortableEvent, l2Token := args.destinationToken }

theorem registryLogged_init (log : HubPoolLog) (eventSearchConfig : EventSearchConfig)
    (config : HubPoolClientConfig) :
    RegistryLogged log (init eventSearchConfig config) eventSearchConfig.fromBlock where
  fromBlock_le := le_rfl
  firstBlockToSearch_le := le_rfl
  crossChainContracts _ _ := by simp [init, blockWindow_self]
  routes _ _ _ := by simp [init, blockWindow_self]

/-- One call of `update` against the log keeps the invariant, the blocks it read
added to the reach, whether it throws or not. -/
theorem update_registryLogged {hubPool : HubPoolContract} (hreads : hubPool.ReadsLog log)
    (hc : RegistryLogged log c reach) :
    ∃ reach', RegistryLogged log (update hubPool c).client reach' := by
  obtain ⟨-, hsearch, -⟩ := update_frame hubPool c
  have h₁ := hc.fromBlock_le
  have h₂ := hc.firstBlockToSearch_le
  rcases update_registry_cases hubPool c with ⟨⟨hx, -, hw⟩, hfirst⟩ |
      ⟨latestBlockNumber, events, -, hle, hevents, hx, -, hw, hfirst⟩
  · refine ⟨reach, ?_, ?_, fun chain x => ?_, fun l1Token chain x => ?_⟩
    · rw [hsearch, hfirst]
      exact h₁
    · rw [hfirst]
      exact h₂
    · rw [hx, hsearch]
      exact hc.crossChainContracts chain x
    · rw [hw, hsearch]
      exact hc.routes l1Token chain x
  · rw [hreads _ _ _ hevents] at hx hw
    refine ⟨max reach (searchToBlock c.eventSearchConfig.toBlock latestBlockNumber + 1), ?_, ?_,
      fun chain x => ?_, fun l1Token chain x => ?_⟩
    · rw [hsearch]
      omega
    · omega
    · rw [hx, hsearch, get?_assignCrossChainContracts, List.mem_append, hc.crossChainContracts]
      simp only [HubPoolLog.between, List.mem_filter, mem_blockWindow_max h₁ h₂, or_and_right]
    · rw [hw, hsearch, get?_assignDestinationTokensWithBlock, List.mem_append, hc.routes]
      simp only [HubPoolLog.between, List.mem_map, List.mem_filter, mem_blockWindow_max h₁ h₂,
        or_and_right, exists_or]

theorem updates_registryLogged {hubPools : List HubPoolContract}
    (hreads : ∀ hubPool ∈ hubPools, hubPool.ReadsLog log) (hc : RegistryLogged log c reach) :
    ∃ reach', RegistryLogged log (updates hubPools c) reach' := by
  induction hubPools generalizing c reach with
  | nil => exact ⟨reach, hc⟩
  | cons hubPool hubPools ih =>
      obtain ⟨reach', hc'⟩ := update_registryLogged (hreads _ (.head _)) hc
      exact ih (fun h hh => hreads h (.tail _ hh)) hc'

/-- The spoke pool entries of every chain are in log order up to repeats. -/
def SpokePoolsInLogOrder (c : HubPoolClient) : Prop :=
  ∀ chain, NewInLogOrder CrossChainContractsSet.toSortableEvent
    ((c.crossChainContracts.get? chain).getD [])

theorem spokePoolsInLogOrder_init (eventSearchConfig : EventSearchConfig)
    (config : HubPoolClientConfig) : (init eventSearchConfig config).SpokePoolsInLogOrder :=
  fun _ => newInLogOrder_nil

/-- One call of `update` against a log whose registrations are in log order keeps
the spoke pool entries in log order up to repeats: an entry it stores for the
first time lies past every block read before, since the earlier calls stored all
the log's entries of those blocks. -/
theorem update_spokePoolsInLogOrder {hubPool : HubPoolContract} (hreads : hubPool.ReadsLog log)
    (horder : InLogOrder CrossChainContractsSet.toSortableEvent
      log.events.crossChainContractsSetEvents)
    (hc : RegistryLogged log c reach) (ho : c.SpokePoolsInLogOrder) :
    (update hubPool c).client.SpokePoolsInLogOrder := by
  have h₁ := hc.fromBlock_le
  rcases update_registry_cases hubPool c with ⟨⟨hx, -, -⟩, -⟩ | ⟨_, events, -, -, hevents, hx, -⟩
  · intro chain
    rw [hx]
    exact ho chain
  · rw [hreads _ _ _ hevents] at hx
    intro chain
    rw [hx, get?_assignCrossChainContracts]
    refine (ho chain).append ((horder.filter _).filter _) fun y hy hnew x hx' => Or.inl ?_
    have hxw := (hc.crossChainContracts chain x).1 hx'
    simp only [blockWindow, List.mem_filter, decide_eq_true_eq] at hxw
    simp only [HubPoolLog.between, blockRange, List.mem_filter, decide_eq_true_eq] at hy
    refine lt_of_lt_of_le hxw.1.2.2 (not_lt.1 fun hlt => hnew ((hc.crossChainContracts chain y).2 ?_))
    simp only [blockWindow, List.mem_filter, decide_eq_true_eq]
    exact ⟨⟨hy.1.1, by omega, hlt⟩, hy.2⟩

theorem updates_spokePoolsInLogOrder {hubPools : List HubPoolContract}
    (hreads : ∀ hubPool ∈ hubPools, hubPool.ReadsLog log)
    (horder : InLogOrder CrossChainContractsSet.toSortableEvent
      log.events.crossChainContractsSetEvents)
    (hc : RegistryLogged log c reach) (ho : c.SpokePoolsInLogOrder) :
    (updates hubPools c).SpokePoolsInLogOrder := by
  induction hubPools generalizing c reach with
  | nil => exact ho
  | cons hubPool hubPools ih =>
      obtain ⟨reach', hc'⟩ := update_registryLogged (hreads _ (.head _)) hc
      exact ih (fun h hh => hreads h (.tail _ hh)) hc'
        (update_spokePoolsInLogOrder (hreads _ (.head _)) horder hc ho)

/-! ## The proposals

A call throws after its pushes only at the pending bundle, and only when it
holds no proposal at all. So, unlike the other bundle lists, the proposals never
repeat: they are exactly the log's window, whichever calls threw. -/

/-- Against `log`, the proposals of `c` are the log's proposals of the searched
blocks `[fromBlock, firstBlockToSearch)`, in log order, less those in ignored
blocks. -/
structure ProposalsLogged (log : HubPoolLog) (c : HubPoolClient) : Prop where
  fromBlock_le : c.eventSearchConfig.fromBlock ≤ c.firstBlockToSearch
  proposedRootBundles : c.proposedRootBundles =
    (blockWindow ProposedRootBundle.toSortableEvent c.eventSearchConfig.fromBlock
      c.firstBlockToSearch log.events.proposeRootBundleEvents).filter fun event =>
        !c.config.ignoredHubProposedBundles.contains event.blockNumber

theorem proposalsLogged_init (log : HubPoolLog) (eventSearchConfig : EventSearchConfig)
    (config : HubPoolClientConfig) : ProposalsLogged log (init eventSearchConfig config) where
  fromBlock_le := le_rfl
  proposedRootBundles := by simp [init, blockWindow_self]

/-- One call of `update` against the log keeps the proposals the log's window,
whether it throws or not. -/
theorem update_proposalsLogged {hubPool : HubPoolContract} (hreads : hubPool.ReadsLog log)
    (hc : ProposalsLogged log c) : ProposalsLogged log (update hubPool c).client := by
  obtain ⟨hconfig, hsearch, -⟩ := update_frame hubPool c
  have h₁ := hc.fromBlock_le
  rcases update_cases hubPool c with ⟨⟨⟨hp, -, -, -⟩, -, -, hfirst⟩, -⟩ |
      ⟨latestBlockNumber, events, _, -, hle, hevents, -, -,
        ⟨-, -, hnil, ⟨hp, -, -, -⟩, -, -, hfirst⟩ | ⟨-, ⟨hp, -, -, -⟩, -, hfirst⟩⟩
  · refine ⟨by rw [hsearch, hfirst]; exact h₁, ?_⟩
    rw [hp, hsearch, hfirst, hconfig]
    exact hc.proposedRootBundles
  · -- the call threw holding no proposal: there were none before, and the window
    -- it did not move past has none
    refine ⟨by rw [hsearch, hfirst]; exact h₁, ?_⟩
    rw [hp, hnil, hsearch, hfirst, ingestRootBundleEvents_firstBlockToSearch, hconfig,
      ← hc.proposedRootBundles]
    exact ((List.append_eq_nil.1 hnil).1).symm
  · rw [hreads _ _ _ hevents] at hp
    refine ⟨by rw [hsearch, hfirst]; omega, ?_⟩
    rw [hp, hsearch, hfirst, hconfig]
    simp only [ingestRootBundleEvents, pushRootBundleEvents_proposedRootBundles,
      hc.proposedRootBundles, HubPoolLog.between, ← List.filter_append,
      blockWindow_append_blockRange log.proposeRootBundleEvents_inLogOrder h₁
        (t := searchToBlock c.eventSearchConfig.toBlock latestBlockNumber) (by omega)]

theorem updates_proposalsLogged {hubPools : List HubPoolContract}
    (hreads : ∀ hubPool ∈ hubPools, hubPool.ReadsLog log) (hc : ProposalsLogged log c) :
    ProposalsLogged log (updates hubPools c) := by
  induction hubPools generalizing c with
  | nil => exact hc
  | cons hubPool hubPools ih =>
      exact ih (fun h hh => hreads h (.tail _ hh)) (update_proposalsLogged (hreads _ (.head _)) hc)

/-- Over every run from a fresh client against a fixed event log, whatever the
other reads answer and whichever calls throw, the proposals are exactly the
log's proposals of the searched blocks `[fromBlock, firstBlockToSearch)`, in log
order, less those in ignored blocks: unlike the executed leaves, they never
repeat. -/
theorem updates_proposedRootBundles {hubPools : List HubPoolContract}
    (hreads : ∀ hubPool ∈ hubPools, hubPool.ReadsLog log)
    (eventSearchConfig : EventSearchConfig) (config : HubPoolClientConfig) :
    (updates hubPools (init eventSearchConfig config)).proposedRootBundles =
      (blockWindow ProposedRootBundle.toSortableEvent eventSearchConfig.fromBlock
        (updates hubPools (init eventSearchConfig config)).firstBlockToSearch
        log.events.proposeRootBundleEvents).filter fun event =>
          !config.ignoredHubProposedBundles.contains event.blockNumber := by
  have hc := updates_proposalsLogged hreads (proposalsLogged_init log eventSearchConfig config)
  obtain ⟨hconfig, hsearch⟩ := updates_frame hubPools (init eventSearchConfig config)
  rw [hc.proposedRootBundles, hconfig, hsearch]
  rfl

/-- Two calls throw at the pending bundle, each pushing the leaf of block `1`
again; the proposals stay the log's window, which holds none. -/
theorem updates_proposedRootBundles_retried :
    (let log : HubPoolLog :=
      ⟨⟨[], [], [], [], [], [⟨⟨1, 0, 0⟩, 1, [], []⟩], []⟩, by decide, by decide, by decide, by decide⟩
    let pending : HubPoolContract :=
      { getBlockNumber := .ok 10
        paginatedEventQuery := fun fromBlock toBlock => .ok (log.between fromBlock toBlock)
        rootBundleProposal := .ok ⟨"", "", "", "", 1, 0⟩
        getCurrentTime := .ok 0
        symbol := fun _ => .ok "USDC"
        decimals := fun _ => .ok 6
        pooledTokens := fun _ => .ok ⟨0⟩ }
    (updates [pending, pending] (init ⟨0, none, 0⟩ ⟨[], []⟩)).proposedRootBundles =
      (blockWindow ProposedRootBundle.toSortableEvent 0
        (updates [pending, pending] (init ⟨0, none, 0⟩ ⟨[], []⟩)).firstBlockToSearch
        log.events.proposeRootBundleEvents).filter fun event =>
          !([] : List Nat).contains event.blockNumber) :=
  updates_proposedRootBundles
    (by
      simp only [List.mem_cons, List.mem_singleton, forall_eq_or_imp, forall_eq, List.not_mem_nil,
        or_false]
      exact ⟨fun _ _ _ h => (Except.ok.inj h).symm, fun _ _ _ h => (Except.ok.inj h).symm⟩)
    _ _

/-! ## The executed leaves -/

/-- Against `log`, the executed leaves of `c` hold as a set the log's leaves of
the blocks `[fromBlock, reach)` in no ignored block. `reach` is at or past
`firstBlockToSearch`. -/
structure LeavesLogged (log : HubPoolLog) (c : HubPoolClient) (reach : Nat) : Prop where
  fromBlock_le : c.eventSearchConfig.fromBlock ≤ c.firstBlockToSearch
  firstBlockToSearch_le : c.firstBlockToSearch ≤ reach
  executedRootBundles : ∀ leaf, leaf ∈ c.executedRootBundles ↔
    leaf ∈ (blockWindow ExecutedRootBundle.toSortableEvent c.eventSearchConfig.fromBlock reach
      log.events.executedRootBundleEvents).filter fun event =>
        !c.config.ignoredHubExecutedBundles.contains event.blockNumber

theorem leavesLogged_init (log : HubPoolLog) (eventSearchConfig : EventSearchConfig)
    (config : HubPoolClientConfig) :
    LeavesLogged log (init eventSearchConfig config) eventSearchConfig.fromBlock where
  fromBlock_le := le_rfl
  firstBlockToSearch_le := le_rfl
  executedRootBundles _ := by simp [init, blockWindow_self]

/-- Pushing the leaves of a batch read from `firstBlockToSearch` adds its blocks
to the reach. -/
theorem LeavesLogged.ingest (hc : LeavesLogged log c reach) {toBlock : Nat} (leaf : ExecutedRootBundle) :
    leaf ∈ (c.ingestRootBundleEvents (log.between c.firstBlockToSearch toBlock)).executedRootBundles ↔
      leaf ∈ (blockWindow ExecutedRootBundle.toSortableEvent c.eventSearchConfig.fromBlock
        (max reach (toBlock + 1)) log.events.executedRootBundleEvents).filter fun event =>
          !c.config.ignoredHubExecutedBundles.contains event.blockNumber := by
  simp only [ingestRootBundleEvents, pushRootBundleEvents_executedRootBundles, List.mem_append,
    hc.executedRootBundles, HubPoolLog.between, List.mem_filter,
    mem_blockWindow_max hc.fromBlock_le hc.firstBlockToSearch_le, or_and_right]

/-- One call of `update` against the log keeps the invariant, whether it throws
or not. -/
theorem update_leavesLogged {hubPool : HubPoolContract} (hreads : hubPool.ReadsLog log)
    (hc : LeavesLogged log c reach) :
    ∃ reach', LeavesLogged log (update hubPool c).client reach' := by
  obtain ⟨hconfig, hsearch, -⟩ := update_frame hubPool c
  have h₁ := hc.fromBlock_le
  have h₂ := hc.firstBlockToSearch_le
  rcases update_cases hubPool c with ⟨⟨⟨-, -, -, he⟩, -, -, hfirst⟩, -⟩ |
      ⟨latestBlockNumber, events, _, -, hle, hevents, -, -,
        ⟨-, -, -, ⟨-, -, -, he⟩, -, -, hfirst⟩ | ⟨-, ⟨-, -, -, he⟩, -, hfirst⟩⟩
  · refine ⟨reach, by rw [hsearch, hfirst]; exact h₁, by rw [hfirst]; exact h₂, fun leaf => ?_⟩
    rw [he, hsearch, hconfig]
    exact hc.executedRootBundles leaf
  all_goals
    have hingest := ingestRootBundleEvents_firstBlockToSearch c events
    rw [hreads _ _ _ hevents] at he
    refine ⟨max reach (searchToBlock c.eventSearchConfig.toBlock latestBlockNumber + 1),
      by rw [hsearch]; omega, by omega, fun leaf => ?_⟩
    rw [he, hsearch, hconfig]
    exact hc.ingest leaf

theorem updates_leavesLogged {hubPools : List HubPoolContract}
    (hreads : ∀ hubPool ∈ hubPools, hubPool.ReadsLog log) (hc : LeavesLogged log c reach) :
    ∃ reach', LeavesLogged log (updates hubPools c) reach' := by
  induction hubPools generalizing c reach with
  | nil => exact ⟨reach, hc⟩
  | cons hubPool hubPools ih =>
      obtain ⟨reach', hc'⟩ := update_leavesLogged (hreads _ (.head _)) hc
      exact ih (fun h hh => hreads h (.tail _ hh)) hc'

end HubPoolClient

/-! ## The latest-entry queries answer from the log -/

/-- The log's answer to `getSpokePoolForBlock`: the spoke pool of the latest
`CrossChainContractsSet` event for `chain` in the blocks `[fromBlock, block]`. -/
def HubPoolLog.spokePoolAt (log : HubPoolLog) (fromBlock chain block : Nat) : Option String :=
  ((sortEventsDescending CrossChainContractsSet.toSortableEvent
      (log.between fromBlock block).crossChainContractsSetEvents).find?
    fun crossChainContract => crossChainContract.l2ChainId = chain).map (·.spokePool)

namespace HubPoolClient

variable {log : HubPoolLog} {c : HubPoolClient} {reach : Nat}

/-- Below `firstBlockToSearch`, the spoke pool query returns what the log
registers, and throws exactly when the log registers nothing. -/
theorem RegistryLogged.getSpokePoolForBlock_toOption (hc : RegistryLogged log c reach)
    (hplace : (log.events.crossChainContractsSetEvents.map
      CrossChainContractsSet.toSortableEvent).Nodup)
    (chain : Nat) {block : Nat} (hblock : block < c.firstBlockToSearch) :
    (c.getSpokePoolForBlock chain block).toOption =
      log.spokePoolAt c.eventSearchConfig.fromBlock chain block := by
  have hreach : block < reach := hblock.trans_le hc.firstBlockToSearch_le
  -- the chain's entries at or before the block are the log's registrations
  have hfind : (sortEventsDescending CrossChainContractsSet.toSortableEvent
        ((c.crossChainContracts.get? chain).getD [])).find?
          (fun crossChainContract => crossChainContract.blockNumber ≤ block) =
      (sortEventsDescending CrossChainContractsSet.toSortableEvent
        (log.between c.eventSearchConfig.fromBlock block).crossChainContractsSetEvents).find?
          fun crossChainContract => crossChainContract.l2ChainId = chain := by
    refine find?_sortEventsDescending_congr (fun x => ?_) (hplace.sublist ((List.filter_sublist _).map _))
    simp only [hc.crossChainContracts, HubPoolLog.between, blockWindow, blockRange,
      List.mem_filter, decide_eq_true_eq]
    constructor
    · rintro ⟨⟨⟨hx, hfrom, -⟩, hchain⟩, hle⟩
      exact ⟨⟨hx, hfrom, hle⟩, hchain⟩
    · rintro ⟨⟨hx, hfrom, hle⟩, hchain⟩
      exact ⟨⟨⟨hx, hfrom, by omega⟩, hchain⟩, hle⟩
  unfold getSpokePoolForBlock HubPoolLog.spokePoolAt
  rw [← hfind]
  cases c.crossChainContracts.get? chain with
  | none => rfl
  | some crossChainContracts =>
      dsimp only [Option.getD_some]
      cases (sortEventsDescending CrossChainContractsSet.toSortableEvent crossChainContracts).find?
        (fun crossChainContract => crossChainContract.blockNumber ≤ block) <;> rfl

/-- A block the activation query returns is that of the log's earliest
registration of the spoke pool for the chain from `fromBlock` on. -/
theorem RegistryLogged.getSpokePoolActivationBlock_earliest (hc : RegistryLogged log c reach)
    (ho : c.SpokePoolsInLogOrder) {chain : Nat} {spokePool : String} {b : Nat}
    (h : c.getSpokePoolActivationBlock chain spokePool = .ok (some b)) :
    ∃ x ∈ log.events.crossChainContractsSetEvents,
      x.l2ChainId = chain ∧ x.spokePool = spokePool ∧ c.eventSearchConfig.fromBlock ≤ b ∧
      x.blockNumber = b ∧
      ∀ y ∈ log.events.crossChainContractsSetEvents, y.l2ChainId = chain →
        y.spokePool = spokePool → c.eventSearchConfig.fromBlock ≤ y.blockNumber → b ≤ y.blockNumber := by
  unfold getSpokePoolActivationBlock at h
  split at h
  · cases h
  · rename_i entries hentries
    obtain ⟨x, hfind, rfl⟩ := Option.map_eq_some'.1 (Except.ok.inj h)
    have hmem : ∀ z, z ∈ entries ↔ (z ∈ log.events.crossChainContractsSetEvents ∧
        c.eventSearchConfig.fromBlock ≤ z.blockNumber ∧ z.blockNumber < reach) ∧ z.l2ChainId = chain :=
      fun z => by
        simpa only [hentries, Option.getD_some, blockWindow, List.mem_filter, decide_eq_true_eq]
          using hc.crossChainContracts chain z
    obtain ⟨⟨hx, hfrom, hreach⟩, hchain⟩ := (hmem x).1 (List.mem_of_find?_eq_some hfind)
    have hpool : x.spokePool = spokePool := by simpa using List.find?_some hfind
    refine ⟨x, hx, hchain, hpool, hfrom, rfl, fun y hy hychain hypool hyfrom => ?_⟩
    -- a registration read before is stored, and the stored ones come in log order
    by_cases hyreach : y.blockNumber < reach
    · have hlatest := NewInLogOrder.find?_eq_some (by simpa [hentries] using ho chain) hfind y
        ((hmem y).2 ⟨⟨hy, hyfrom, hyreach⟩, hychain⟩) (by simpa using hypool)
      exact hlatest.blockNumber_le
    · omega

/-- At a searched block, the activation query returns a block for every spoke
pool the log registered for the chain from `fromBlock` on. -/
theorem RegistryLogged.getSpokePoolActivationBlock_isSome (hc : RegistryLogged log c reach)
    {x : CrossChainContractsSet} (hx : x ∈ log.events.crossChainContractsSetEvents)
    (hfrom : c.eventSearchConfig.fromBlock ≤ x.blockNumber)
    (hsearched : x.blockNumber < c.firstBlockToSearch) :
    ∃ b, c.getSpokePoolActivationBlock x.l2ChainId x.spokePool = .ok (some b) := by
  have hentry : x ∈ (c.crossChainContracts.get? x.l2ChainId).getD [] := by
    rw [hc.crossChainContracts]
    simp only [blockWindow, List.mem_filter, decide_eq_true_eq]
    exact ⟨⟨hx, hfrom, hsearched.trans_le hc.firstBlockToSearch_le⟩, trivial⟩
  unfold getSpokePoolActivationBlock
  split
  · rename_i hnone
    rw [hnone] at hentry
    cases hentry
  · rename_i entries hentries
    rw [hentries, Option.getD_some] at hentry
    obtain ⟨y, hy⟩ := Option.isSome_iff_exists.1
      (List.find?_isSome.2 ⟨x, hentry, beq_self_eq_true x.spokePool⟩ :
        (entries.find? fun crossChainContract => crossChainContract.spokePool == x.spokePool).isSome)
    exact ⟨y.blockNumber, by rw [hy]; rfl⟩

/-- Over every run from a fresh client against a fixed event log whose
registrations are in log order, whichever calls throw: a block that
`getSpokePoolActivationBlock` returns is that of the log's earliest registration
of the spoke pool for the chain from `fromBlock` on, although retried calls may
have stored registrations twice; and the query returns a block for every spoke
pool the log registered in the searched blocks. -/
theorem updates_getSpokePoolActivationBlock {hubPools : List HubPoolContract}
    (hreads : ∀ hubPool ∈ hubPools, hubPool.ReadsLog log)
    (horder : InLogOrder CrossChainContractsSet.toSortableEvent
      log.events.crossChainContractsSetEvents)
    (eventSearchConfig : EventSearchConfig) (config : HubPoolClientConfig) (chain : Nat)
    (spokePool : String) :
    (∀ b, (updates hubPools (init eventSearchConfig config)).getSpokePoolActivationBlock chain
        spokePool = .ok (some b) →
      ∃ x ∈ log.events.crossChainContractsSetEvents,
        x.l2ChainId = chain ∧ x.spokePool = spokePool ∧ eventSearchConfig.fromBlock ≤ b ∧
        x.blockNumber = b ∧
        ∀ y ∈ log.events.crossChainContractsSetEvents, y.l2ChainId = chain →
          y.spokePool = spokePool → eventSearchConfig.fromBlock ≤ y.blockNumber →
            b ≤ y.blockNumber) ∧
    ((∃ x ∈ log.events.crossChainContractsSetEvents, x.l2ChainId = chain ∧
        x.spokePool = spokePool ∧ eventSearchConfig.fromBlock ≤ x.blockNumber ∧
        x.blockNumber < (updates hubPools (init eventSearchConfig config)).firstBlockToSearch) →
      ∃ b, (updates hubPools (init eventSearchConfig config)).getSpokePoolActivationBlock chain
        spokePool = .ok (some b)) := by
  obtain ⟨reach, hc⟩ := updates_registryLogged hreads (registryLogged_init log eventSearchConfig config)
  have ho := updates_spokePoolsInLogOrder hreads horder (registryLogged_init log eventSearchConfig config)
    (spokePoolsInLogOrder_init eventSearchConfig config)
  have hsearch := (updates_frame hubPools (init eventSearchConfig config)).2
  constructor
  · intro b h
    have hearliest := hc.getSpokePoolActivationBlock_earliest ho h
    rwa [hsearch] at hearliest
  · rintro ⟨x, hx, rfl, rfl, hfrom, hsearched⟩
    exact hc.getSpokePoolActivationBlock_isSome hx (by rw [hsearch]; exact hfrom) hsearched

theorem updates_getSpokePoolActivationBlock_retried :
    (let log : HubPoolLog :=
      ⟨⟨[], [], [], [], [], [], [⟨⟨2, 0, 0⟩, 10, "0xS"⟩, ⟨⟨6, 0, 0⟩, 10, "0xT"⟩]⟩,
        by decide, by decide, by decide, by decide⟩
    let pending : HubPoolContract :=
      { getBlockNumber := .ok 10
        paginatedEventQuery := fun fromBlock toBlock => .ok (log.between fromBlock toBlock)
        rootBundleProposal := .ok ⟨"", "", "", "", 1, 0⟩
        getCurrentTime := .ok 0
        symbol := fun _ => .ok "USDC"
        decimals := fun _ => .ok 6
        pooledTokens := fun _ => .ok ⟨0⟩ }
    (∀ b, (updates [pending, pending] (init ⟨0, none, 0⟩ ⟨[], []⟩)).getSpokePoolActivationBlock 10
        "0xT" = .ok (some b) →
      ∃ x ∈ log.events.crossChainContractsSetEvents,
        x.l2ChainId = 10 ∧ x.spokePool = "0xT" ∧ 0 ≤ b ∧ x.blockNumber = b ∧
        ∀ y ∈ log.events.crossChainContractsSetEvents, y.l2ChainId = 10 →
          y.spokePool = "0xT" → 0 ≤ y.blockNumber → b ≤ y.blockNumber) ∧
    ((∃ x ∈ log.events.crossChainContractsSetEvents, x.l2ChainId = 10 ∧
        x.spokePool = "0xT" ∧ 0 ≤ x.blockNumber ∧
        x.blockNumber < (updates [pending, pending] (init ⟨0, none, 0⟩ ⟨[], []⟩)).firstBlockToSearch) →
      ∃ b, (updates [pending, pending] (init ⟨0, none, 0⟩ ⟨[], []⟩)).getSpokePoolActivationBlock 10
        "0xT" = .ok (some b))) :=
  updates_getSpokePoolActivationBlock
    (by
      simp only [List.mem_cons, List.mem_singleton, forall_eq_or_imp, forall_eq, List.not_mem_nil,
        or_false]
      exact ⟨fun _ _ _ h => (Except.ok.inj h).symm, fun _ _ _ h => (Except.ok.inj h).symm⟩)
    (by decide) _ _ 10 "0xT"

/-- An entry of a route history comes from a route event of the log in the
blocks `[fromBlock, reach)`. -/
theorem RegistryLogged.exists_route (hc : RegistryLogged log c reach) {l1Token : String}
    {chain : Nat} {mappings : List DestinationTokenWithBlock} {mapping : DestinationTokenWithBlock}
    (hmappings : (c.l1TokensToDestinationTokensWithBlock.get? l1Token).bind (·.get? chain) =
      some mappings) (hmapping : mapping ∈ mappings) :
    ∃ args ∈ log.events.poolRebalanceRouteEvents,
      c.eventSearchConfig.fromBlock ≤ args.blockNumber ∧ args.blockNumber < reach ∧
      args.l1Token = l1Token ∧ args.destinationChainId = chain ∧
      args.destinationToken = mapping.l2Token ∧ args.blockNumber = mapping.blockNumber := by
  have := (hc.routes l1Token chain mapping).1 (by rw [hmappings]; exact hmapping)
  simp only [List.mem_map, List.mem_filter, blockWindow, decide_eq_true_eq] at this
  obtain ⟨args, ⟨⟨hargs, hfrom, hreach⟩, hl1, hchain⟩, rfl⟩ := this
  exact ⟨args, hargs, hfrom, hreach, hl1, hchain, rfl, rfl⟩

/-- A token that the key search of the L1 counterpart query finds has a route
in the log to `l2Token` on the chain, set in the blocks `[fromBlock, block]`. -/
theorem RegistryLogged.exists_route_of_find? (hc : RegistryLogged log c reach)
    {l2ChainId : Nat} {l2Token : String} {block : Nat} {l1Token : String}
    (hfind : (c.l1TokensToDestinationTokensWithBlock.map Prod.fst).find? (fun l1Token =>
      match (c.l1TokensToDestinationTokensWithBlock.get? l1Token).bind (·.get? l2ChainId) with
      | none => false
      | some mappings =>
          ((sortEventsDescending DestinationTokenWithBlock.toSortableEvent mappings).find?
            fun mapping => mapping.l2Token == l2Token && mapping.blockNumber ≤ block).isSome) =
        some l1Token) :
    ∃ args ∈ log.events.poolRebalanceRouteEvents,
      c.eventSearchConfig.fromBlock ≤ args.blockNumber ∧ args.blockNumber ≤ block ∧
      args.l1Token = l1Token ∧ args.destinationChainId = l2ChainId ∧
      args.destinationToken = l2Token := by
  have htest := List.find?_some hfind
  split at htest
  · cases htest
  · rename_i mappings hmappings
    obtain ⟨mapping, hmapping⟩ := Option.isSome_iff_exists.1 htest
    obtain ⟨hmem, hp, -⟩ := find?_sortEventsDescending_eq_some hmapping
    obtain ⟨args, hargs, hfrom, -, hl1, hchain, hl2, hblock⟩ := hc.exists_route hmappings hmem
    simp only [Bool.and_eq_true, beq_iff_eq, decide_eq_true_eq] at hp
    exact ⟨args, hargs, hfrom, hblock ▸ hp.2, hl1, hchain, hl2.trans hp.1⟩

/-- Whatever the L1 counterpart query returns has a route in the log to
`l2Token` on the chain, set in the blocks `[fromBlock, block]`. -/
theorem RegistryLogged.getL1TokenCounterpartAtBlock_logged (hc : RegistryLogged log c reach)
    {l2ChainId : Nat} {l2Token : String} {block : Nat} {l1Token : String}
    (h : c.getL1TokenCounterpartAtBlock l2ChainId l2Token block = .ok l1Token) :
    ∃ args ∈ log.events.poolRebalanceRouteEvents,
      c.eventSearchConfig.fromBlock ≤ args.blockNumber ∧ args.blockNumber ≤ block ∧
      args.l1Token = l1Token ∧ args.destinationChainId = l2ChainId ∧
      args.destinationToken = l2Token := by
  unfold getL1TokenCounterpartAtBlock at h
  dsimp only at h
  split at h
  · rename_i found hfind
    split_ifs at h
    cases h
    exact hc.exists_route_of_find? hfind
  · cases h

/-- At a searched block, the L1 counterpart query succeeds for the destination
token of any route the log set in the blocks `[fromBlock, block]`, when no route
of the log is for the empty token. -/
theorem RegistryLogged.getL1TokenCounterpartAtBlock_ok (hc : RegistryLogged log c reach)
    (hnonempty : ∀ args ∈ log.events.poolRebalanceRouteEvents, args.l1Token ≠ "")
    {block : Nat} (hblock : block < c.firstBlockToSearch) {args : SetPoolRebalanceRoot}
    (hargs : args ∈ log.events.poolRebalanceRouteEvents)
    (hfrom : c.eventSearchConfig.fromBlock ≤ args.blockNumber) (hle : args.blockNumber ≤ block) :
    ∃ l1Token, c.getL1TokenCounterpartAtBlock args.destinationChainId args.destinationToken block =
      .ok l1Token := by
  have hreach : block < reach := hblock.trans_le hc.firstBlockToSearch_le
  -- the route is recorded in the history of its token and chain
  have hentry : { toSortableEvent := args.toSortableEvent, l2Token := args.destinationToken } ∈
      ((c.l1TokensToDestinationTokensWithBlock.get? args.l1Token).bind
        (·.get? args.destinationChainId)).getD [] := by
    rw [hc.routes]
    refine List.mem_map_of_mem _ (List.mem_filter.2 ⟨?_, by simp⟩)
    simp only [blockWindow, List.mem_filter, decide_eq_true_eq]
    exact ⟨hargs, hfrom, by omega⟩
  obtain ⟨mappings, hmappings, hmem⟩ : ∃ mappings,
      (c.l1TokensToDestinationTokensWithBlock.get? args.l1Token).bind
        (·.get? args.destinationChainId) = some mappings ∧
      { toSortableEvent := args.toSortableEvent, l2Token := args.destinationToken } ∈ mappings := by
    revert hentry
    cases (c.l1TokensToDestinationTokensWithBlock.get? args.l1Token).bind
      (·.get? args.destinationChainId) with
    | none => exact fun h => (List.not_mem_nil _ h).elim
    | some mappings => exact fun h => ⟨mappings, rfl, h⟩
  obtain ⟨destinations, hdestinations, -⟩ := Option.bind_eq_some.1 hmappings
  unfold getL1TokenCounterpartAtBlock
  dsimp only
  split
  · -- the token found has a logged route, so it is not empty
    rename_i found hfind
    obtain ⟨route, hroute, -, -, rfl, -⟩ := hc.exists_route_of_find? hfind
    exact ⟨_, if_neg (hnonempty route hroute)⟩
  · -- the route's token passes the test, so the search finds a token
    rename_i hnone
    refine absurd (List.find?_eq_none.1 hnone args.l1Token
      (List.mem_map_of_mem Prod.fst (Dict.mem_of_get?_eq_some hdestinations))) (not_not.2 ?_)
    simp only [hmappings]
    cases hfound : (sortEventsDescending DestinationTokenWithBlock.toSortableEvent mappings).find?
        fun mapping => mapping.l2Token == args.destinationToken && mapping.blockNumber ≤ block with
    | none =>
        have := find?_sortEventsDescending_eq_none.1 hfound _ hmem
        simp [hle] at this
    | some => rfl

/-- Over every run from a fresh client against a fixed event log whose
registrations sit at distinct places, whichever calls throw, the spoke pool of a
chain at a searched block is that of the log's latest registration of the chain
in the blocks `[fromBlock, block]`, and the query throws exactly when the log has
none. -/
theorem updates_getSpokePoolForBlock {hubPools : List HubPoolContract}
    (hreads : ∀ hubPool ∈ hubPools, hubPool.ReadsLog log)
    (hplace : (log.events.crossChainContractsSetEvents.map
      CrossChainContractsSet.toSortableEvent).Nodup)
    (eventSearchConfig : EventSearchConfig) (config : HubPoolClientConfig) (chain : Nat)
    {block : Nat} (hblock : block < (updates hubPools (init eventSearchConfig config)).firstBlockToSearch) :
    ((updates hubPools (init eventSearchConfig config)).getSpokePoolForBlock chain block).toOption =
      log.spokePoolAt eventSearchConfig.fromBlock chain block := by
  obtain ⟨reach, hc⟩ := updates_registryLogged hreads (registryLogged_init log eventSearchConfig config)
  have h := hc.getSpokePoolForBlock_toOption hplace chain hblock
  rwa [(updates_frame hubPools _).2] at h

/-- Two calls throw at the pending bundle after writing the registrations of
their batch, and a third, once the proposal is claimed, writes them again and
moves the search on: the chain's registry holds each registration three times,
and the query at block `4` still answers the log's registration of block `2`. -/
theorem updates_getSpokePoolForBlock_retried :
    (let log : HubPoolLog :=
      ⟨⟨[], [], [], [], [], [], [⟨⟨2, 0, 0⟩, 10, "0xS"⟩, ⟨⟨6, 0, 0⟩, 10, "0xT"⟩]⟩,
        by decide, by decide, by decide, by decide⟩
    let pending : HubPoolContract :=
      { getBlockNumber := .ok 10
        paginatedEventQuery := fun fromBlock toBlock => .ok (log.between fromBlock toBlock)
        rootBundleProposal := .ok ⟨"", "", "", "", 1, 0⟩
        getCurrentTime := .ok 0
        symbol := fun _ => .ok "USDC"
        decimals := fun _ => .ok 6
        pooledTokens := fun _ => .ok ⟨0⟩ }
    let claimed : HubPoolContract := { pending with rootBundleProposal := .ok ⟨"", "", "", "", 0, 0⟩ }
    (((updates [pending, pending, claimed] (init ⟨0, none, 0⟩ ⟨[], []⟩)).crossChainContracts.get?
        10).getD []).length = 6 ∧
      ((updates [pending, pending, claimed] (init ⟨0, none, 0⟩ ⟨[], []⟩)).getSpokePoolForBlock
        10 4).toOption = log.spokePoolAt 0 10 4 ∧
      log.spokePoolAt 0 10 4 = some "0xS") :=
  ⟨rfl,
    updates_getSpokePoolForBlock
      (by
        simp only [List.mem_cons, List.mem_singleton, forall_eq_or_imp, forall_eq, List.not_mem_nil,
          or_false]
        exact ⟨fun _ _ _ h => (Except.ok.inj h).symm, fun _ _ _ h => (Except.ok.inj h).symm,
          fun _ _ _ h => (Except.ok.inj h).symm⟩)
      (by decide) _ _ 10 (by decide),
    rfl⟩

/-- Over every run from a fresh client against a fixed event log, whichever calls
throw, the L1 counterpart query at any block returns only a token that the log
routes to `l2Token` on the chain in the blocks `[fromBlock, block]`. -/
theorem updates_getL1TokenCounterpartAtBlock_logged {hubPools : List HubPoolContract}
    (hreads : ∀ hubPool ∈ hubPools, hubPool.ReadsLog log)
    (eventSearchConfig : EventSearchConfig) (config : HubPoolClientConfig)
    {l2ChainId : Nat} {l2Token : String} {block : Nat} {l1Token : String}
    (h : (updates hubPools (init eventSearchConfig config)).getL1TokenCounterpartAtBlock
      l2ChainId l2Token block = .ok l1Token) :
    ∃ args ∈ log.events.poolRebalanceRouteEvents,
      eventSearchConfig.fromBlock ≤ args.blockNumber ∧ args.blockNumber ≤ block ∧
      args.l1Token = l1Token ∧ args.destinationChainId = l2ChainId ∧
      args.destinationToken = l2Token := by
  obtain ⟨reach, hc⟩ := updates_registryLogged hreads (registryLogged_init log eventSearchConfig config)
  have hlogged := hc.getL1TokenCounterpartAtBlock_logged h
  rwa [(updates_frame hubPools _).2] at hlogged

/-- The token remapped away from `0xB` is still returned as its counterpart, and
the log does route it to `0xB`. -/
theorem updates_getL1TokenCounterpartAtBlock_logged_remapped :
    (let log : HubPoolLog :=
      ⟨⟨[⟨⟨1, 0, 0⟩, 10, "0xA", "0xB"⟩, ⟨⟨2, 0, 0⟩, 10, "0xA", "0xC"⟩], [], [], [], [], [], []⟩,
        by decide, by decide, by decide, by decide⟩
    let hubPool : HubPoolContract :=
      { getBlockNumber := .ok 10
        paginatedEventQuery := fun fromBlock toBlock => .ok (log.between fromBlock toBlock)
        rootBundleProposal := .ok ⟨"", "", "", "", 0, 0⟩
        getCurrentTime := .ok 0
        symbol := fun _ => .ok "USDC"
        decimals := fun _ => .ok 6
        pooledTokens := fun _ => .ok ⟨0⟩ }
    (updates [hubPool] (init ⟨0, none, 0⟩ ⟨[], []⟩)).getL1TokenCounterpartAtBlock 10 "0xB" 3 =
        .ok "0xA" ∧
      ∃ args ∈ log.events.poolRebalanceRouteEvents,
        0 ≤ args.blockNumber ∧ args.blockNumber ≤ 3 ∧ args.l1Token = "0xA" ∧
          args.destinationChainId = 10 ∧ args.destinationToken = "0xB") := by
  intro log hubPool
  have h : (updates [hubPool] (init ⟨0, none, 0⟩ ⟨[], []⟩)).getL1TokenCounterpartAtBlock
      10 "0xB" 3 = .ok "0xA" := rfl
  refine ⟨h, updates_getL1TokenCounterpartAtBlock_logged ?_ _ _ h⟩
  simp only [List.mem_singleton, forall_eq]
  intro _ _ _ h
  exact (Except.ok.inj h).symm

/-- Over every run from a fresh client against a fixed event log with no route
for the empty token, whichever calls throw, the L1 counterpart query at a
searched block succeeds exactly when the log routes some token to `l2Token` on
the chain in the blocks `[fromBlock, block]`. -/
theorem updates_getL1TokenCounterpartAtBlock_ok_iff {hubPools : List HubPoolContract}
    (hreads : ∀ hubPool ∈ hubPools, hubPool.ReadsLog log)
    (hnonempty : ∀ args ∈ log.events.poolRebalanceRouteEvents, args.l1Token ≠ "")
    (eventSearchConfig : EventSearchConfig) (config : HubPoolClientConfig)
    (l2ChainId : Nat) (l2Token : String) {block : Nat}
    (hblock : block < (updates hubPools (init eventSearchConfig config)).firstBlockToSearch) :
    (∃ l1Token, (updates hubPools (init eventSearchConfig config)).getL1TokenCounterpartAtBlock
        l2ChainId l2Token block = .ok l1Token) ↔
      ∃ args ∈ log.events.poolRebalanceRouteEvents,
        eventSearchConfig.fromBlock ≤ args.blockNumber ∧ args.blockNumber ≤ block ∧
        args.destinationChainId = l2ChainId ∧ args.destinationToken = l2Token := by
  obtain ⟨reach, hc⟩ := updates_registryLogged hreads (registryLogged_init log eventSearchConfig config)
  have hsearch := (updates_frame hubPools (init eventSearchConfig config)).2
  constructor
  · rintro ⟨l1Token, h⟩
    obtain ⟨args, hargs, hfrom, hle, -, hchain, hdest⟩ := hc.getL1TokenCounterpartAtBlock_logged h
    rw [hsearch] at hfrom
    exact ⟨args, hargs, hfrom, hle, hchain, hdest⟩
  · rintro ⟨args, hargs, hfrom, hle, rfl, rfl⟩
    exact hc.getL1TokenCounterpartAtBlock_ok hnonempty hblock hargs (by rw [hsearch]; exact hfrom) hle

/-- Over a run whose first two calls throw after writing the routes of their
batch, the query for `0xB` at block `3`, which the log routes from `0xA` at
block `1`, succeeds. -/
theorem updates_getL1TokenCounterpartAtBlock_ok_iff_retried :
    (let log : HubPoolLog :=
      ⟨⟨[⟨⟨1, 0, 0⟩, 10, "0xA", "0xB"⟩, ⟨⟨2, 0, 0⟩, 10, "0xA", "0xC"⟩], [], [], [], [], [], []⟩,
        by decide, by decide, by decide, by decide⟩
    let pending : HubPoolContract :=
      { getBlockNumber := .ok 10
        paginatedEventQuery := fun fromBlock toBlock => .ok (log.between fromBlock toBlock)
        rootBundleProposal := .ok ⟨"", "", "", "", 1, 0⟩
        getCurrentTime := .ok 0
        symbol := fun _ => .ok "USDC"
        decimals := fun _ => .ok 6
        pooledTokens := fun _ => .ok ⟨0⟩ }
    let claimed : HubPoolContract := { pending with rootBundleProposal := .ok ⟨"", "", "", "", 0, 0⟩ }
    ((∃ l1Token, (updates [pending, pending, claimed] (init ⟨0, none, 0⟩ ⟨[], []⟩)).getL1TokenCounterpartAtBlock
        10 "0xB" 3 = .ok l1Token) ↔
      ∃ args ∈ log.events.poolRebalanceRouteEvents,
        0 ≤ args.blockNumber ∧ args.blockNumber ≤ 3 ∧ args.destinationChainId = 10 ∧
          args.destinationToken = "0xB") ∧
    ∃ args ∈ log.events.poolRebalanceRouteEvents,
      0 ≤ args.blockNumber ∧ args.blockNumber ≤ 3 ∧ args.destinationChainId = 10 ∧
        args.destinationToken = "0xB") :=
  ⟨updates_getL1TokenCounterpartAtBlock_ok_iff
    (by
      simp only [List.mem_cons, List.mem_singleton, forall_eq_or_imp, forall_eq, List.not_mem_nil,
        or_false]
      exact ⟨fun _ _ _ h => (Except.ok.inj h).symm, fun _ _ _ h => (Except.ok.inj h).symm,
        fun _ _ _ h => (Except.ok.inj h).symm⟩)
    (by decide) _ _ 10 "0xB" (by decide),
    by decide⟩

/-- Below `firstBlockToSearch`, the running balance query answers as a fresh
client that ingested the log's events of the blocks `[fromBlock, block]` in one
batch. -/
theorem LeavesLogged.getRunningBalanceBeforeBlockForChain_eq_ingest (hc : LeavesLogged log c reach)
    (hplace : (log.events.executedRootBundleEvents.map ExecutedRootBundle.toSortableEvent).Nodup)
    {block : Nat} (hblock : block < c.firstBlockToSearch) (chain : Nat) (l1Token : String) :
    c.getRunningBalanceBeforeBlockForChain block chain l1Token =
      ((init c.eventSearchConfig c.config).ingestRootBundleEvents
        (log.between c.eventSearchConfig.fromBlock block)).getRunningBalanceBeforeBlockForChain
          block chain l1Token := by
  have hreach : block < reach := hblock.trans_le hc.firstBlockToSearch_le
  unfold getRunningBalanceBeforeBlockForChain
  congr 1
  refine find?_sortEventsDescending_congr (fun leaf => and_congr_left fun hp => ?_)
    (hplace.sublist (((List.filter_sublist _).trans (List.filter_sublist _)).map _))
  have hb : leaf.blockNumber ≤ block := by
    simp only [Bool.and_eq_true, decide_eq_true_eq] at hp
    exact hp.1.1
  rw [hc.executedRootBundles, List.mem_filter, mem_blockWindow_iff_mem_blockRange hreach hb]
  simp [ingestRootBundleEvents, init, HubPoolLog.between]

/-- Over every run from a fresh client against a fixed event log whose leaves
sit at distinct places, whichever calls throw and however often they pushed a
leaf, the running balance of a token on a chain at a searched block is what a
fresh client answers after ingesting the log's events of the blocks
`[fromBlock, block]` in one batch. -/
theorem updates_getRunningBalanceBeforeBlockForChain {hubPools : List HubPoolContract}
    (hreads : ∀ hubPool ∈ hubPools, hubPool.ReadsLog log)
    (hplace : (log.events.executedRootBundleEvents.map ExecutedRootBundle.toSortableEvent).Nodup)
    (eventSearchConfig : EventSearchConfig) (config : HubPoolClientConfig) {block : Nat}
    (hblock : block < (updates hubPools (init eventSearchConfig config)).firstBlockToSearch)
    (chain : Nat) (l1Token : String) :
    (updates hubPools (init eventSearchConfig config)).getRunningBalanceBeforeBlockForChain
        block chain l1Token =
      ((init eventSearchConfig config).ingestRootBundleEvents
        (log.between eventSearchConfig.fromBlock block)).getRunningBalanceBeforeBlockForChain
          block chain l1Token := by
  obtain ⟨reach, hc⟩ := updates_leavesLogged hreads (leavesLogged_init log eventSearchConfig config)
  have h := hc.getRunningBalanceBeforeBlockForChain_eq_ingest hplace hblock chain l1Token
  rwa [(updates_frame hubPools _).1, (updates_frame hubPools _).2] at h

/-- Two calls that throw at the pending bundle push the leaf of block `1` twice;
a third call, once the proposal is claimed, moves the search on. -/
theorem updates_getRunningBalanceBeforeBlockForChain_repeated :
    (let log : HubPoolLog :=
      ⟨⟨[], [], [], [], [], [⟨⟨1, 0, 0⟩, 1, ["0xA"], [7]⟩], []⟩,
        by decide, by decide, by decide, by decide⟩
    let pending : HubPoolContract :=
      { getBlockNumber := .ok 10
        paginatedEventQuery := fun fromBlock toBlock => .ok (log.between fromBlock toBlock)
        rootBundleProposal := .ok ⟨"", "", "", "", 1, 0⟩
        getCurrentTime := .ok 0
        symbol := fun _ => .ok "USDC"
        decimals := fun _ => .ok 6
        pooledTokens := fun _ => .ok ⟨0⟩ }
    let claimed : HubPoolContract := { pending with rootBundleProposal := .ok ⟨"", "", "", "", 0, 0⟩ }
    (updates [pending, pending, claimed] (init ⟨0, none, 0⟩ ⟨[], []⟩)).getRunningBalanceBeforeBlockForChain
        4 1 "0xA" =
      ((init ⟨0, none, 0⟩ ⟨[], []⟩).ingestRootBundleEvents (log.between 0 4)).getRunningBalanceBeforeBlockForChain
        4 1 "0xA") :=
  updates_getRunningBalanceBeforeBlockForChain
    (by
      simp only [List.mem_cons, List.mem_singleton, forall_eq_or_imp, forall_eq, List.not_mem_nil,
        or_false]
      exact ⟨fun _ _ _ h => (Except.ok.inj h).symm, fun _ _ _ h => (Except.ok.inj h).symm,
        fun _ _ _ h => (Except.ok.inj h).symm⟩)
    (by decide) _ _ (by decide) _ _

end HubPoolClient

end HubPool

end AcrossBridge
