import AcrossBridge.HubPool.Horizon
import AcrossBridge.HubPool.Update

/-!
# Runs of `update`

A client is updated again and again, each call answered by the chain at that
time. Here the chain's event log is fixed: every query returns the log's
events of its type in the searched blocks, in log order, while the provider's
block number, the open proposal and the token reads may differ from call to
call, and any read may be rejected.

The bundle lists then hold exactly the log's events in the blocks searched so
far, `[fromBlock, firstBlockToSearch)`, in log order, less the ignored blocks:
each call either keeps the lists and `firstBlockToSearch`, or extends the lists
by the batch of `[firstBlockToSearch, toBlock]` and moves `firstBlockToSearch`
to `toBlock + 1`. The one exception is a call that throws at the pending bundle,
after its pushes and before it moves the search on: the next call reads the
same blocks again and pushes the same events a second time. It happens when
the open proposal has unclaimed leaves and no proposal has been ingested, so
the runs below assume the open proposal's event lies in the searched blocks.

Whatever the calls do, including throwing at the pending bundle, what they push
lies in blocks not yet searched, so once the client has searched past a horizon
the point-in-time queries at that horizon keep their answers for the rest of the
run.

The token list keeps, over every run, only tokens with decimals in `(0, 18]`
and distinct symbols; the symbol test also drops a second token with a symbol
already listed, although tokens are looked up by address.
-/

namespace AcrossBridge

namespace HubPool

section LogOrder

variable {α : Type} (toEvent : α → SortableEvent)

/-- `events` lists entries oldest first, by block, transaction and log index. -/
def InLogOrder (events : List α) : Prop :=
  events.Sorted fun a b => Newer toEvent b a

instance (events : List α) : Decidable (InLogOrder toEvent events) :=
  inferInstanceAs (Decidable (events.Sorted _))

/-- The entries of `events` in the blocks `[fromBlock, toBlock]`. -/
def blockRange (fromBlock toBlock : Nat) (events : List α) : List α :=
  events.filter fun event =>
    fromBlock ≤ (toEvent event).blockNumber ∧ (toEvent event).blockNumber ≤ toBlock

/-- The entries of `events` in the blocks `[fromBlock, toBlock)`. -/
def blockWindow (fromBlock toBlock : Nat) (events : List α) : List α :=
  events.filter fun event =>
    fromBlock ≤ (toEvent event).blockNumber ∧ (toEvent event).blockNumber < toBlock

variable {toEvent}

theorem blockWindow_self (fromBlock : Nat) (events : List α) :
    blockWindow toEvent fromBlock fromBlock events = [] :=
  List.filter_eq_nil_iff.2 fun _ _ => by simp only [decide_eq_true_eq]; omega

/-- Over a list in log order, the window `[a, m)` followed by the blocks
`[m, t]` is the window `[a, t + 1)`. -/
theorem blockWindow_append_blockRange {events : List α} (h : InLogOrder toEvent events)
    {a m t : Nat} (ham : a ≤ m) (hmt : m ≤ t + 1) :
    blockWindow toEvent a m events ++ blockRange toEvent m t events =
      blockWindow toEvent a (t + 1) events := by
  induction events with
  | nil => rfl
  | cons x events ih =>
      obtain ⟨hx, h⟩ := List.sorted_cons.1 h
      by_cases hxm : (toEvent x).blockNumber < m
      · have hrange : ¬(m ≤ (toEvent x).blockNumber ∧ (toEvent x).blockNumber ≤ t) := by omega
        have hwindow : (a ≤ (toEvent x).blockNumber ∧ (toEvent x).blockNumber < t + 1) ↔
            a ≤ (toEvent x).blockNumber := by omega
        rw [blockWindow, blockRange, blockWindow, List.filter_cons, List.filter_cons,
          List.filter_cons]
        simp only [decide_eq_true_eq, hxm, hrange, hwindow, and_true, if_false]
        split
        · exact congrArg (x :: ·) (ih h)
        · exact ih h
      · -- from `x` on, every entry lies at or after block `m`
        have hafter : ∀ y ∈ x :: events, m ≤ (toEvent y).blockNumber := by
          intro y hy
          rcases List.mem_cons.1 hy with rfl | hy
          · omega
          · have := hx y hy
            unfold Newer SortableEvent.NotBefore at this
            omega
        rw [blockWindow, List.filter_eq_nil_iff.2 fun y hy => by
          have := hafter y hy; simp only [decide_eq_true_eq]; omega, List.nil_append]
        exact List.filter_congr fun y hy => by
          have := hafter y hy
          simp only [decide_eq_decide]
          omega

theorem le_of_mem_blockRange {fromBlock toBlock : Nat} {events : List α} {x : α}
    (h : x ∈ blockRange toEvent fromBlock toBlock events) : fromBlock ≤ (toEvent x).blockNumber := by
  simp only [blockRange, List.mem_filter, decide_eq_true_eq] at h
  exact h.2.1

theorem InLogOrder.filter {events : List α} (h : InLogOrder toEvent events) (p : α → Bool) :
    InLogOrder toEvent (events.filter p) :=
  List.Sorted.filter p h

end LogOrder

/-- A HubPool event log: every event emitted, by type, with the bundle events
in log order. -/
structure HubPoolLog where
  events : HubPoolEvents
  proposeRootBundleEvents_inLogOrder :
    InLogOrder ProposedRootBundle.toSortableEvent events.proposeRootBundleEvents
  canceledRootBundleEvents_inLogOrder :
    InLogOrder CancelledRootBundle.toSortableEvent events.canceledRootBundleEvents
  disputedRootBundleEvents_inLogOrder :
    InLogOrder DisputedRootBundle.toSortableEvent events.disputedRootBundleEvents
  executedRootBundleEvents_inLogOrder :
    InLogOrder ExecutedRootBundle.toSortableEvent events.executedRootBundleEvents

/-- Modelled from the spec: what `paginatedEventQuery` returns over
`[fromBlock, toBlock]`, the log's events of each type in those blocks. -/
def HubPoolLog.between (log : HubPoolLog) (fromBlock toBlock : Nat) : HubPoolEvents where
  poolRebalanceRouteEvents := blockRange SetPoolRebalanceRoot.toSortableEvent fromBlock toBlock
    log.events.poolRebalanceRouteEvents
  l1TokensLpEvents := blockRange L1TokenEnabledForLiquidityProvision.toSortableEvent fromBlock toBlock
    log.events.l1TokensLpEvents
  proposeRootBundleEvents := blockRange ProposedRootBundle.toSortableEvent fromBlock toBlock
    log.events.proposeRootBundleEvents
  canceledRootBundleEvents := blockRange CancelledRootBundle.toSortableEvent fromBlock toBlock
    log.events.canceledRootBundleEvents
  disputedRootBundleEvents := blockRange DisputedRootBundle.toSortableEvent fromBlock toBlock
    log.events.disputedRootBundleEvents
  executedRootBundleEvents := blockRange ExecutedRootBundle.toSortableEvent fromBlock toBlock
    log.events.executedRootBundleEvents
  crossChainContractsSetEvents := blockRange CrossChainContractsSet.toSortableEvent fromBlock toBlock
    log.events.crossChainContractsSetEvents

namespace HubPoolContract

/-- The event queries answer from `log`. -/
def ReadsLog (hubPool : HubPoolContract) (log : HubPoolLog) : Prop :=
  ∀ fromBlock toBlock events, hubPool.paginatedEventQuery fromBlock toBlock = .ok events →
    events = log.between fromBlock toBlock

/-- While the open proposal has unclaimed leaves, the log holds a proposal, in no
ignored block, among the blocks a call searches from `fromBlock` on. -/
def OpenProposalLogged (hubPool : HubPoolContract) (log : HubPoolLog)
    (eventSearchConfig : EventSearchConfig) (config : HubPoolClientConfig) : Prop :=
  ∀ latestBlockNumber pendingRootBundleProposal, hubPool.getBlockNumber = .ok latestBlockNumber →
    hubPool.rootBundleProposal = .ok pendingRootBundleProposal →
    0 < pendingRootBundleProposal.unclaimedPoolRebalanceLeafCount →
    ∃ proposal ∈ log.events.proposeRootBundleEvents,
      eventSearchConfig.fromBlock ≤ proposal.blockNumber ∧
      proposal.blockNumber ≤ searchToBlock eventSearchConfig.toBlock latestBlockNumber ∧
      proposal.blockNumber ∉ config.ignoredHubProposedBundles

end HubPoolContract

namespace HubPoolClient

/-- The bundle lists of `c` hold the log's events in the searched blocks
`[fromBlock, firstBlockToSearch)`, in log order, less those in ignored blocks. -/
structure LogIngested (log : HubPoolLog) (c : HubPoolClient) : Prop where
  fromBlock_le : c.eventSearchConfig.fromBlock ≤ c.firstBlockToSearch
  proposedRootBundles : c.proposedRootBundles =
    (blockWindow ProposedRootBundle.toSortableEvent c.eventSearchConfig.fromBlock
      c.firstBlockToSearch log.events.proposeRootBundleEvents).filter fun event =>
        !c.config.ignoredHubProposedBundles.contains event.blockNumber
  canceledRootBundles : c.canceledRootBundles =
    blockWindow CancelledRootBundle.toSortableEvent c.eventSearchConfig.fromBlock
      c.firstBlockToSearch log.events.canceledRootBundleEvents
  disputedRootBundles : c.disputedRootBundles =
    blockWindow DisputedRootBundle.toSortableEvent c.eventSearchConfig.fromBlock
      c.firstBlockToSearch log.events.disputedRootBundleEvents
  executedRootBundles : c.executedRootBundles =
    (blockWindow ExecutedRootBundle.toSortableEvent c.eventSearchConfig.fromBlock
      c.firstBlockToSearch log.events.executedRootBundleEvents).filter fun event =>
        !c.config.ignoredHubExecutedBundles.contains event.blockNumber

variable {log : HubPoolLog} {c c' : HubPoolClient}

theorem logIngested_init (log : HubPoolLog) (eventSearchConfig : EventSearchConfig)
    (config : HubPoolClientConfig) : LogIngested log (init eventSearchConfig config) where
  fromBlock_le := le_rfl
  proposedRootBundles := by simp [init, blockWindow_self]
  canceledRootBundles := (blockWindow_self _ _).symm
  disputedRootBundles := (blockWindow_self _ _).symm
  executedRootBundles := by simp [init, blockWindow_self]

/-- The invariant reads only the bundle lists, the configuration and
`firstBlockToSearch`. -/
theorem LogIngested.congr (hc : LogIngested log c) (hsame : SameRootBundles c c')
    (hconfig : c'.config = c.config) (hsearch : c'.eventSearchConfig = c.eventSearchConfig)
    (hfirst : c'.firstBlockToSearch = c.firstBlockToSearch) : LogIngested log c' := by
  obtain ⟨hp, hk, hd, he⟩ := hsame
  obtain ⟨h₀, h₁, h₂, h₃, h₄⟩ := hc
  constructor <;> simp only [hp, hk, hd, he, hconfig, hsearch, hfirst] <;> assumption

/-- Pushing the batch of `[firstBlockToSearch, toBlock]` extends the lists to the
blocks `[fromBlock, toBlock + 1)`. -/
theorem LogIngested.advance (hc : LogIngested log c) {toBlock : Nat}
    (hle : c.firstBlockToSearch ≤ toBlock) :
    LogIngested log { c.ingestRootBundleEvents (log.between c.firstBlockToSearch toBlock) with
      firstBlockToSearch := toBlock + 1 } := by
  have hwindow := fun {α} {toEvent : α → SortableEvent} {events : List α}
      (h : InLogOrder toEvent events) =>
    blockWindow_append_blockRange h hc.fromBlock_le (m := c.firstBlockToSearch) (t := toBlock)
      (by omega)
  refine ⟨hc.fromBlock_le.trans (by dsimp only [ingestRootBundleEvents_eventSearchConfig]; omega),
    ?_, ?_, ?_, ?_⟩ <;>
  simp only [ingestRootBundleEvents, pushRootBundleEvents_proposedRootBundles,
    pushRootBundleEvents_canceledRootBundles, pushRootBundleEvents_disputedRootBundles,
    pushRootBundleEvents_executedRootBundles, hc.proposedRootBundles, hc.canceledRootBundles,
    hc.disputedRootBundles, hc.executedRootBundles, HubPoolLog.between, ← List.filter_append,
    hwindow log.proposeRootBundleEvents_inLogOrder,
    hwindow log.canceledRootBundleEvents_inLogOrder,
    hwindow log.disputedRootBundleEvents_inLogOrder,
    hwindow log.executedRootBundleEvents_inLogOrder] <;>
  rfl

/-- One call of `update` against the log keeps the invariant, as long as the
open proposal it reads is in the searched blocks. -/
theorem update_logIngested {hubPool : HubPoolContract} (hreads : hubPool.ReadsLog log)
    (hopen : hubPool.OpenProposalLogged log c.eventSearchConfig c.config)
    (hc : LogIngested log c) : LogIngested log (update hubPool c).client := by
  obtain ⟨hconfig, hsearch, -⟩ := update_frame hubPool c
  rcases update_cases hubPool c with ⟨⟨hsame, -, -, hfirst⟩, -⟩ |
      ⟨latestBlockNumber, events, proposal, hblock, hle, hevents, hproposal, -,
        ⟨-, hpos, hnil, -⟩ | ⟨-, hsame, -, hfirst⟩⟩
  · exact hc.congr hsame hconfig hsearch hfirst
  · -- the open proposal's event is among the pushed proposals, which are not empty then
    obtain ⟨bundle, hmem, hfrom, hto, hignored⟩ :=
      hopen latestBlockNumber proposal hblock hproposal hpos
    have hbundle := (hc.advance hle).proposedRootBundles
    rw [← hreads _ _ _ hevents] at hbundle
    have : bundle ∈ (c.ingestRootBundleEvents events).proposedRootBundles := by
      rw [hbundle]
      simp [blockWindow, hmem, hfrom, Nat.lt_succ_of_le hto, hignored]
    rw [hnil] at this
    cases this
  · rw [hreads _ _ _ hevents] at hsame
    exact (hc.advance hle).congr hsame hconfig hsearch hfirst

/-- The run lemma: the invariant holds after every run against the log whose
calls each find the open proposal in the searched blocks. -/
theorem updates_logIngested {hubPools : List HubPoolContract}
    (hreads : ∀ hubPool ∈ hubPools, hubPool.ReadsLog log)
    (hopen : ∀ hubPool ∈ hubPools, hubPool.OpenProposalLogged log c.eventSearchConfig c.config)
    (hc : LogIngested log c) : LogIngested log (updates hubPools c) := by
  induction hubPools generalizing c with
  | nil => exact hc
  | cons hubPool hubPools ih =>
      obtain ⟨hconfig, hsearch, -⟩ := update_frame hubPool c
      refine ih (fun h hh => hreads h (.tail _ hh)) (fun h hh => ?_)
        (update_logIngested (hreads _ (.head _)) (hopen _ (.head _)) hc)
      rw [hconfig, hsearch]
      exact hopen h (.tail _ hh)

/-- Over a run from a fresh client against a fixed log, in which every call finds
the open proposal in the searched blocks, the bundle lists are the log's events
in the searched blocks, less the ignored ones, and the proposals are in log
order. -/
theorem updates_ingest_log_window {hubPools : List HubPoolContract}
    {eventSearchConfig : EventSearchConfig} {config : HubPoolClientConfig}
    (hreads : ∀ hubPool ∈ hubPools, hubPool.ReadsLog log)
    (hopen : ∀ hubPool ∈ hubPools, hubPool.OpenProposalLogged log eventSearchConfig config) :
    LogIngested log (updates hubPools (init eventSearchConfig config)) ∧
      InLogOrder ProposedRootBundle.toSortableEvent
        (updates hubPools (init eventSearchConfig config)).proposedRootBundles := by
  have hc := updates_logIngested hreads hopen (logIngested_init log eventSearchConfig config)
  refine ⟨hc, ?_⟩
  rw [hc.proposedRootBundles]
  exact (log.proposeRootBundleEvents_inLogOrder.filter _).filter _

theorem updates_ingest_log_window_one_call :
    (let log : HubPoolLog :=
      ⟨⟨[], [], [⟨⟨1, 0, 0⟩, 1, [5]⟩], [], [], [⟨⟨2, 0, 0⟩, 1, [], []⟩], []⟩,
        by decide, by decide, by decide, by decide⟩
    let hubPool : HubPoolContract :=
      { getBlockNumber := .ok 10
        paginatedEventQuery := fun fromBlock toBlock => .ok (log.between fromBlock toBlock)
        rootBundleProposal := .ok ⟨"", "", "", "", 1, 0⟩
        getCurrentTime := .ok 0
        symbol := fun _ => .ok "USDC"
        decimals := fun _ => .ok 6
        pooledTokens := fun _ => .ok ⟨0⟩ }
    LogIngested log (updates [hubPool] (init ⟨0, none, 0⟩ ⟨[], []⟩)) ∧
      InLogOrder ProposedRootBundle.toSortableEvent
        (updates [hubPool] (init ⟨0, none, 0⟩ ⟨[], []⟩)).proposedRootBundles) :=
  updates_ingest_log_window
    (by
      simp only [List.mem_singleton, forall_eq]
      intro _ _ _ h
      exact (Except.ok.inj h).symm)
    (by
      simp only [List.mem_singleton, forall_eq]
      intro _ _ h _ _
      cases h
      exact ⟨_, List.mem_singleton_self _, by decide, by decide, by decide⟩)

/-- A call that throws at the pending bundle has pushed its batch without moving
the search on, so the next call pushes the same leaf again. Both calls read the
leaf executed at block `1` while the open proposal has an unclaimed leaf and no
proposal is in the log. -/
theorem updates_repeat_executed_leaf :
    (let log : HubPoolLog :=
      ⟨⟨[], [], [], [], [], [⟨⟨1, 0, 0⟩, 1, [], []⟩], []⟩, by decide, by decide, by decide, by decide⟩
    let hubPool : HubPoolContract :=
      { getBlockNumber := .ok 10
        paginatedEventQuery := fun fromBlock toBlock => .ok (log.between fromBlock toBlock)
        rootBundleProposal := .ok ⟨"", "", "", "", 1, 0⟩
        getCurrentTime := .ok 0
        symbol := fun _ => .ok "USDC"
        decimals := fun _ => .ok 6
        pooledTokens := fun _ => .ok ⟨0⟩ }
    let c := init ⟨0, none, 0⟩ ⟨[], []⟩
    hubPool.ReadsLog log ∧ (update hubPool c).thrown = some pendingRootBundleError ∧
      (updates [hubPool, hubPool] c).firstBlockToSearch = 0 ∧
      (updates [hubPool, hubPool] c).executedRootBundles =
        [⟨⟨1, 0, 0⟩, 1, [], []⟩, ⟨⟨1, 0, 0⟩, 1, [], []⟩]) :=
  ⟨fun _ _ _ h => (Except.ok.inj h).symm, rfl, rfl, rfl⟩

section Finality

variable {H : Nat}

/-- A call of `update` never moves the search back. -/
theorem update_firstBlockToSearch_le (hubPool : HubPoolContract) (c : HubPoolClient) :
    c.firstBlockToSearch ≤ (update hubPool c).client.firstBlockToSearch := by
  rcases update_cases hubPool c with ⟨⟨-, -, -, hfirst⟩, -⟩ |
      ⟨_, _, _, -, hle, -, -, -, ⟨-, -, -, -, -, -, hfirst⟩ | ⟨-, -, -, hfirst⟩⟩
  · exact hfirst.ge
  · exact hfirst.ge
  · omega

/-- A call of `update` against the log, made once the client has searched past
`H`, keeps the answers at `H`: it pushes only events of blocks after `H`. -/
theorem update_sameAnswersAt {hubPool : HubPoolContract} (hreads : hubPool.ReadsLog log)
    (hH : H < c.firstBlockToSearch) : SameAnswersAt H c (update hubPool c).client := by
  rcases update_cases hubPool c with ⟨⟨⟨hp, -, -, he⟩, -⟩, -⟩ |
      ⟨_, events, _, -, -, hevents, -, -, hpushed⟩
  · exact sameAnswersAt_of_lists hp he H
  · -- the batch lies in the blocks from `firstBlockToSearch` on, all after `H`
    obtain ⟨hp, -, -, he⟩ : SameRootBundles (c.ingestRootBundleEvents events)
        (update hubPool c).client := by
      rcases hpushed with ⟨-, -, -, hsame, -⟩ | ⟨-, hsame, -⟩ <;> exact hsame
    rw [hreads _ _ _ hevents] at hp he
    refine (c.pushRootBundleEvents_sameAnswersAt _ _ (fun b hb => ?_) (fun l hl => ?_)).trans
      (sameAnswersAt_of_lists hp he H)
    · exact lt_of_lt_of_le hH (le_of_mem_blockRange (List.mem_of_mem_filter hb))
    · exact lt_of_lt_of_le hH (le_of_mem_blockRange (List.mem_of_mem_filter hl))

/-- Over every run of `update` against a fixed log, throwing calls included, the
point-in-time queries at a horizon the client has already searched past keep
their answers. -/
theorem updates_sameAnswersAt {hubPools : List HubPoolContract}
    (hreads : ∀ hubPool ∈ hubPools, hubPool.ReadsLog log) (hH : H < c.firstBlockToSearch) :
    SameAnswersAt H c (updates hubPools c) := by
  induction hubPools generalizing c with
  | nil => exact SameAnswersAt.refl H c
  | cons hubPool hubPools ih =>
      exact (update_sameAnswersAt (hreads _ (.head _)) hH).trans
        (ih (fun h hh => hreads h (.tail _ hh))
          (lt_of_lt_of_le hH (update_firstBlockToSearch_le hubPool c)))

theorem updates_sameAnswersAt_searched :
    (let log : HubPoolLog :=
      ⟨⟨[], [], [⟨⟨2, 0, 0⟩, 1, [5]⟩, ⟨⟨7, 0, 0⟩, 1, [9]⟩], [], [],
          [⟨⟨3, 0, 0⟩, 1, [], []⟩, ⟨⟨8, 0, 0⟩, 1, [], []⟩], []⟩,
        by decide, by decide, by decide, by decide⟩
    let hubPool : HubPoolContract :=
      { getBlockNumber := .ok 10
        paginatedEventQuery := fun fromBlock toBlock => .ok (log.between fromBlock toBlock)
        rootBundleProposal := .ok ⟨"", "", "", "", 0, 0⟩
        getCurrentTime := .ok 0
        symbol := fun _ => .ok "USDC"
        decimals := fun _ => .ok 6
        pooledTokens := fun _ => .ok ⟨0⟩ }
    SameAnswersAt 4 (init ⟨5, none, 0⟩ ⟨[], []⟩) (updates [hubPool] (init ⟨5, none, 0⟩ ⟨[], []⟩))) :=
  updates_sameAnswersAt
    (by
      simp only [List.mem_singleton, forall_eq]
      intro _ _ _ h
      exact (Except.ok.inj h).symm)
    (by decide)

end Finality

section Tokens

theorem update_tokensSupported (hubPool : HubPoolContract) (h : TokensSupported c.l1Tokens) :
    TokensSupported (update hubPool c).client.l1Tokens := by
  obtain ⟨-, -, tokenInfo, htokens⟩ := update_frame hubPool c
  rw [htokens]
  exact pushL1Tokens_supported h tokenInfo

theorem updates_tokensSupported_of (hubPools : List HubPoolContract)
    (h : TokensSupported c.l1Tokens) : TokensSupported (updates hubPools c).l1Tokens := by
  induction hubPools generalizing c with
  | nil => exact h
  | cons hubPool hubPools ih => exact ih (update_tokensSupported hubPool h)

/-- Over every run from a fresh client, whatever the chain answers and whichever
calls throw, every listed token has decimals in `(0, 18]` and no two listed
tokens share a symbol. -/
theorem updates_tokensSupported (hubPools : List HubPoolContract)
    (eventSearchConfig : EventSearchConfig) (config : HubPoolClientConfig) :
    TokensSupported (updates hubPools (init eventSearchConfig config)).l1Tokens :=
  updates_tokensSupported_of (c := init eventSearchConfig config) hubPools
    ⟨fun _ h => (List.not_mem_nil _ h).elim, List.nodup_nil⟩

/-- Two tokens enabled in one batch that share the symbol `USDC`: the second is
not listed, so its token info is undefined, although its pooled-token record is
kept. -/
theorem update_drops_token_sharing_symbol :
    (let hubPool : HubPoolContract :=
      { getBlockNumber := .ok 10
        paginatedEventQuery := fun _ _ =>
          .ok ⟨[], [⟨⟨1, 0, 0⟩, "0xA"⟩, ⟨⟨2, 0, 0⟩, "0xB"⟩], [], [], [], [], []⟩
        rootBundleProposal := .ok ⟨"", "", "", "", 0, 0⟩
        getCurrentTime := .ok 0
        symbol := fun _ => .ok "USDC"
        decimals := fun _ => .ok 6
        pooledTokens := fun _ => .ok ⟨0⟩ }
    let r := update hubPool (init ⟨0, none, 0⟩ ⟨[], []⟩)
    r.thrown = none ∧ r.client.l1Tokens = [⟨"0xA", "USDC", 6⟩] ∧
      r.client.lpTokens = [("0xA", ⟨0⟩), ("0xB", ⟨0⟩)] ∧
      r.client.getTokenInfoForL1Token "0xB" = none) :=
  ⟨rfl, rfl, rfl, rfl⟩

end Tokens

section Pending

/-- What a pending bundle computed by `pendingRootBundleOf` holds: unclaimed
leaves, and the block and the evaluation blocks of the latest proposal, each
past `Number.MAX_SAFE_INTEGER` read as `0`. -/
theorem pendingRootBundleOf_eq_some {pendingRootBundleProposal : RootBundleProposal}
    {proposedRootBundles : List ProposedRootBundle} {pending : PendingRootBundle}
    (h : pendingRootBundleOf pendingRootBundleProposal proposedRootBundles = .ok (some pending)) :
    0 < pending.unclaimedPoolRebalanceLeafCount ∧
      ∃ latest, proposedRootBundles.getLast? = some latest ∧
        pending.proposalBlockNumber = some latest.blockNumber ∧
        pending.bundleEvaluationBlockNumbers = latest.bundleEvaluationBlockNumbers.map fun block =>
          match toNumber block with
          | .ok block => block
          | .error _ => 0 := by
  unfold pendingRootBundleOf at h
  split_ifs at h with hpos
  · split at h
    · cases h
    · rename_i latest hlatest
      cases h
      exact ⟨hpos, latest, hlatest, rfl, rfl⟩
  · cases h

/-- What a call of `update` does to the pending bundle: it keeps it with the
proposals, or keeps it while there are no proposals, or sets it to what
`pendingRootBundleOf` computes from a proposal the chain returned and the
proposals after the pushes. -/
theorem update_pendingRootBundle_cases (hubPool : HubPoolContract) (c : HubPoolClient) :
    (update hubPool c).client.pendingRootBundle = c.pendingRootBundle ∧
        ((update hubPool c).client.proposedRootBundles = c.proposedRootBundles ∨
          c.proposedRootBundles = [] ∧ (update hubPool c).client.proposedRootBundles = []) ∨
      ∃ pendingRootBundleProposal, pendingRootBundleOf pendingRootBundleProposal
          (update hubPool c).client.proposedRootBundles = .ok (update hubPool c).client.pendingRootBundle := by
  unfold update
  split
  · exact .inl ⟨rfl, .inl rfl⟩
  · dsimp only
    split
    · exact .inl ⟨rfl, .inl rfl⟩
    · split
      · rename_i events pendingRootBundleProposal currentTime hevents hproposal _
        split
        · split
          · exact .inl ⟨rfl, .inl rfl⟩
          · split
            · rename_i e hpending
              obtain ⟨-, hnil, -⟩ := pendingRootBundleOf_eq_error hpending
              exact .inl ⟨rfl, .inr ⟨(List.append_eq_nil.1 hnil).1, hnil⟩⟩
            · rename_i pendingRootBundle hpending
              exact .inr ⟨pendingRootBundleProposal, hpending⟩
        all_goals exact .inl ⟨rfl, .inl rfl⟩
      all_goals exact .inl ⟨rfl, .inl rfl⟩

/-- The pending bundle, when there is one, is what `update` computes from some
proposal the chain returned and the client's proposals. -/
def PendingFromLatest (c : HubPoolClient) : Prop :=
  ∀ pending, c.pendingRootBundle = some pending →
    ∃ pendingRootBundleProposal,
      pendingRootBundleOf pendingRootBundleProposal c.proposedRootBundles = .ok (some pending)

/-- A call of `update` keeps the pending bundle computed from the latest
proposal: a call that throws at the pending bundle found no proposal at all, so
there was no pending bundle to keep. -/
theorem update_pendingFromLatest (hubPool : HubPoolContract) {c : HubPoolClient}
    (h : c.PendingFromLatest) : (update hubPool c).client.PendingFromLatest := by
  intro pending hpending
  rcases update_pendingRootBundle_cases hubPool c with ⟨hkeep, hsame | ⟨hnil, -⟩⟩ | ⟨proposal, hof⟩
  · rw [hsame]
    exact h pending (hkeep ▸ hpending)
  · obtain ⟨proposal, hof⟩ := h pending (hkeep ▸ hpending)
    rw [hnil] at hof
    simpa using (pendingRootBundleOf_eq_some hof).2
  · exact ⟨proposal, hpending ▸ hof⟩

theorem updates_pendingFromLatest (hubPools : List HubPoolContract) {c : HubPoolClient}
    (h : c.PendingFromLatest) : (updates hubPools c).PendingFromLatest := by
  induction hubPools generalizing c with
  | nil => exact h
  | cons hubPool hubPools ih => exact ih (update_pendingFromLatest hubPool h)

/-- Over every run from a fresh client, whatever the chain answers and whichever
calls throw, a pending bundle has unclaimed leaves and describes the latest
proposal: its block is that of `getLatestProposedRootBundle`, and its evaluation
blocks are that proposal's, each past `Number.MAX_SAFE_INTEGER` read as `0`. -/
theorem updates_pendingRootBundle_latest (hubPools : List HubPoolContract)
    (eventSearchConfig : EventSearchConfig) (config : HubPoolClientConfig)
    (pending : PendingRootBundle)
    (hpending : (updates hubPools (init eventSearchConfig config)).pendingRootBundle = some pending) :
    0 < pending.unclaimedPoolRebalanceLeafCount ∧
      ∃ latest, (updates hubPools (init eventSearchConfig config)).getLatestProposedRootBundle =
          some latest ∧
        pending.proposalBlockNumber = some latest.blockNumber ∧
        pending.bundleEvaluationBlockNumbers = latest.bundleEvaluationBlockNumbers.map fun block =>
          match toNumber block with
          | .ok block => block
          | .error _ => 0 := by
  obtain ⟨proposal, hof⟩ := updates_pendingFromLatest hubPools
    (fun _ h => nomatch h : (init eventSearchConfig config).PendingFromLatest) pending hpending
  exact pendingRootBundleOf_eq_some hof

theorem updates_pendingRootBundle_latest_open :
    (let hubPool : HubPoolContract :=
      { getBlockNumber := .ok 10
        paginatedEventQuery := fun _ _ =>
          .ok ⟨[], [], [⟨⟨1, 0, 0⟩, 1, [5, 1152921504606846976]⟩], [], [], [], []⟩
        rootBundleProposal := .ok ⟨"", "", "", "", 1, 0⟩
        getCurrentTime := .ok 0
        symbol := fun _ => .ok "USDC"
        decimals := fun _ => .ok 6
        pooledTokens := fun _ => .ok ⟨0⟩ }
    0 < (⟨"", "", "", "", 1, 0, [5, 0], some 1⟩ : PendingRootBundle).unclaimedPoolRebalanceLeafCount ∧
      ∃ latest, (updates [hubPool] (init ⟨0, none, 0⟩ ⟨[], []⟩)).getLatestProposedRootBundle =
          some latest ∧
        (⟨"", "", "", "", 1, 0, [5, 0], some 1⟩ : PendingRootBundle).proposalBlockNumber =
          some latest.blockNumber ∧
        (⟨"", "", "", "", 1, 0, [5, 0], some 1⟩ : PendingRootBundle).bundleEvaluationBlockNumbers =
          latest.bundleEvaluationBlockNumbers.map fun block =>
            match toNumber block with
            | .ok block => block
            | .error _ => 0) :=
  updates_pendingRootBundle_latest _ _ _ _ rfl

end Pending

end HubPoolClient

end HubPool

end AcrossBridge
