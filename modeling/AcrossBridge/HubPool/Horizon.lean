import AcrossBridge.HubPool.Queries

/-!
# Queries at a horizon

The point-in-time queries take their horizon `latestMainnetBlock` as an
argument. Appending to the ledger proposals and executions made after the
horizon, as a later `update` does, leaves their answers unchanged: a later
proposal can become the following bundle of the latest one, but the window of
executions is cut at the horizon anyway, and later executions lie outside every
window. `SameAnswersAt H c c'` says that two ledgers answer the five queries at
`H` alike; the lemma about appends is stated with it, so that runs of `update`
can chain it call after call.

`getRootBundleEvalBlockNumberContainingBlock` is the exception. Its scan passes
the following proposal's own block, rather than the horizon, as the validity
horizon of every bundle that has one, so a later proposal extends the latest
bundle's window past the horizon.
-/

namespace AcrossBridge

namespace HubPool

theorem findLastIndex_eq_none {α : Type} {p : α → Bool} :
    ∀ {l : List α}, (∀ x ∈ l, p x = false) → findLastIndex p l = none
  | [], _ => rfl
  | a :: l, h => by
      simp [findLastIndex, findLastIndex_eq_none fun x hx => h x (.tail _ hx), h a (.head _)]

/-- Elements that fail the test do not move the last index passing it. -/
theorem findLastIndex_append {α : Type} {p : α → Bool} (l l' : List α)
    (h : ∀ x ∈ l', p x = false) : findLastIndex p (l ++ l') = findLastIndex p l := by
  induction l with
  | nil => exact findLastIndex_eq_none h
  | cons a l ih => simp [findLastIndex, ih]

namespace HubPoolClient

/-- `c'` answers the point-in-time queries at the horizon `H` as `c` does. -/
def SameAnswersAt (H : Nat) (c c' : HubPoolClient) : Prop :=
  c'.getValidatedRootBundles H = c.getValidatedRootBundles H ∧
    c'.getLatestFullyExecutedRootBundle H = c.getLatestFullyExecutedRootBundle H ∧
    (∀ startBlock, c'.getEarliestFullyExecutedRootBundle H startBlock =
      c.getEarliestFullyExecutedRootBundle H startBlock) ∧
    (∀ chainIdList chainId, c'.getLatestBundleEndBlockForChain chainIdList H chainId =
      c.getLatestBundleEndBlockForChain chainIdList H chainId) ∧
    (∀ chain l1Token, c'.getRunningBalanceBeforeBlockForChain H chain l1Token =
      c.getRunningBalanceBeforeBlockForChain H chain l1Token)

theorem SameAnswersAt.refl (H : Nat) (c : HubPoolClient) : SameAnswersAt H c c :=
  ⟨rfl, rfl, fun _ => rfl, fun _ _ => rfl, fun _ _ => rfl⟩

theorem SameAnswersAt.trans {H : Nat} {c₁ c₂ c₃ : HubPoolClient} (h₁ : SameAnswersAt H c₁ c₂)
    (h₂ : SameAnswersAt H c₂ c₃) : SameAnswersAt H c₁ c₃ :=
  ⟨h₂.1.trans h₁.1, h₂.2.1.trans h₁.2.1, fun s => (h₂.2.2.1 s).trans (h₁.2.2.1 s),
    fun l i => (h₂.2.2.2.1 l i).trans (h₁.2.2.2.1 l i),
    fun i t => (h₂.2.2.2.2 i t).trans (h₁.2.2.2.2 i t)⟩

/-- The queries read only the lists of proposals and of executions. -/
theorem sameAnswersAt_of_lists {c c' : HubPoolClient}
    (hp : c'.proposedRootBundles = c.proposedRootBundles)
    (he : c'.executedRootBundles = c.executedRootBundles) (H : Nat) : SameAnswersAt H c c' := by
  have hv : c'.validatedAt H = c.validatedAt H := by
    funext rootBundle
    simp only [validatedAt, isRootBundleValid, getFollowingRootBundle,
      getExecutedLeavesForRootBundle, hp, he]
  have hlatest : c'.getLatestFullyExecutedRootBundle H = c.getLatestFullyExecutedRootBundle H := by
    simp only [getLatestFullyExecutedRootBundle, hv, hp]
  exact ⟨by simp only [getValidatedRootBundles, hv, hp], hlatest,
    fun _ => by simp only [getEarliestFullyExecutedRootBundle_eq, hv, hp],
    fun _ _ => by simp only [getLatestBundleEndBlockForChain, hlatest],
    fun _ _ => by simp only [getRunningBalanceBeforeBlockForChain, he]⟩

section Horizon

variable (c : HubPoolClient) {H : Nat} {P : List ProposedRootBundle}
  {E : List ExecutedRootBundle} (D : List DisputedRootBundle) (K : List CancelledRootBundle)

/-- After proposals past the horizon are appended, a bundle proposed by the
horizon keeps its following bundle, or gains one of the appended proposals
where it had none. -/
theorem getFollowingRootBundle_push (hP : ∀ b ∈ P, H < b.blockNumber)
    {rootBundle : ProposedRootBundle} (hrb : rootBundle.blockNumber ≤ H) :
    (c.pushRootBundleEvents P E D K).getFollowingRootBundle rootBundle =
        c.getFollowingRootBundle rootBundle ∨
      c.getFollowingRootBundle rootBundle = none ∧
        ∃ next ∈ P, (c.pushRootBundleEvents P E D K).getFollowingRootBundle rootBundle = some next := by
  have hidx := findLastIndex_append (p := fun bundle : ProposedRootBundle =>
    bundle.blockNumber == rootBundle.blockNumber) c.proposedRootBundles P
    (fun b hb => by have := hP b hb; simp; omega)
  simp only [getFollowingRootBundle, pushRootBundleEvents_proposedRootBundles, hidx]
  split
  · exact .inl rfl
  · rename_i index _
    by_cases hlt : index + 1 < c.proposedRootBundles.length
    · exact .inl (List.getElem?_append_left hlt)
    · have hnone : c.proposedRootBundles[index + 1]? = none := List.getElem?_eq_none (by omega)
      rw [List.getElem?_append_right (by omega), hnone]
      cases hnext : P[index + 1 - c.proposedRootBundles.length]? with
      | none => exact .inl rfl
      | some next => exact .inr ⟨rfl, next, List.getElem?_mem hnext, rfl⟩

/-- Executions past the horizon lie outside every window that ends by it. -/
theorem getExecutedLeavesForRootBundle_push (hE : ∀ l ∈ E, H < l.blockNumber)
    (rootBundle : ProposedRootBundle) {w : Nat} (hw : w ≤ H) :
    (c.pushRootBundleEvents P E D K).getExecutedLeavesForRootBundle rootBundle w =
      c.getExecutedLeavesForRootBundle rootBundle w := by
  simp only [getExecutedLeavesForRootBundle, pushRootBundleEvents_executedRootBundles,
    List.filter_append, List.append_right_eq_self, List.filter_eq_nil_iff]
  intro l hl
  have := hE l hl
  simp only [Bool.and_eq_true, decide_eq_true_eq, not_and, not_lt]
  omega

/-- Validity at the horizon of a bundle proposed by it ignores what is appended
past the horizon. -/
theorem isRootBundleValid_push (hP : ∀ b ∈ P, H < b.blockNumber)
    (hE : ∀ l ∈ E, H < l.blockNumber) {rootBundle : ProposedRootBundle}
    (hrb : rootBundle.blockNumber ≤ H) :
    (c.pushRootBundleEvents P E D K).isRootBundleValid rootBundle H =
      c.isRootBundleValid rootBundle H := by
  simp only [isRootBundleValid]
  rcases c.getFollowingRootBundle_push D K hP (E := E) hrb with h | ⟨h, next, hnext, h'⟩
  · rw [h]
    split <;> rw [getExecutedLeavesForRootBundle_push c D K hE _ (by omega)]
  · rw [h, h']
    dsimp only
    rw [min_eq_right (hP next hnext).le, getExecutedLeavesForRootBundle_push c D K hE _ le_rfl]

theorem validatedAt_push (hP : ∀ b ∈ P, H < b.blockNumber) (hE : ∀ l ∈ E, H < l.blockNumber) :
    (c.pushRootBundleEvents P E D K).validatedAt H = c.validatedAt H := by
  funext rootBundle
  simp only [validatedAt]
  split
  · rfl
  · exact c.isRootBundleValid_push D K hP hE (by omega)

/-- The pushes of proposals and executions past the horizon, and of any dispute
or cancellation, leave the answers at the horizon alone. -/
theorem pushRootBundleEvents_sameAnswersAt (hP : ∀ b ∈ P, H < b.blockNumber)
    (hE : ∀ l ∈ E, H < l.blockNumber) : SameAnswersAt H c (c.pushRootBundleEvents P E D K) := by
  set c' := c.pushRootBundleEvents P E D K
  have hv := c.validatedAt_push D K hP hE
  have hPv : ∀ b ∈ P, c.validatedAt H b = false := fun b hb => by
    simp [validatedAt, hP b hb]
  have hlatest : c'.getLatestFullyExecutedRootBundle H = c.getLatestFullyExecutedRootBundle H := by
    have hnone : P.reverse.find? (c.validatedAt H) = none := List.find?_eq_none.2 (by simpa using hPv)
    simp only [c', getLatestFullyExecutedRootBundle, hv, pushRootBundleEvents_proposedRootBundles,
      List.reverse_append, List.find?_append, hnone, Option.none_or]
  refine ⟨?_, hlatest, fun startBlock => ?_, fun chainIdList chainId => ?_, fun chain l1Token => ?_⟩
  · have hnil : P.filter (c.validatedAt H) = [] := List.filter_eq_nil_iff.2 (by simpa using hPv)
    simp only [c', getValidatedRootBundles, hv, pushRootBundleEvents_proposedRootBundles,
      List.filter_append, hnil, List.append_nil]
  · have hnone : P.find? (fun rootBundle =>
        decide (startBlock ≤ rootBundle.blockNumber) && c.validatedAt H rootBundle) = none :=
      List.find?_eq_none.2 fun b hb => by simp [hPv b hb]
    simp only [c', getEarliestFullyExecutedRootBundle_eq, hv, pushRootBundleEvents_proposedRootBundles,
      List.find?_append, hnone, Option.or_none]
  · simp only [getLatestBundleEndBlockForChain, hlatest]
  · simp only [c', getRunningBalanceBeforeBlockForChain, pushRootBundleEvents_executedRootBundles]
    rw [find?_sortEventsDescending_append _ _ (fun l hl => by simp [(hE l hl)])]

/-- The point-in-time queries at a horizon do not see proposals and executions
appended past it, nor any dispute or cancellation. -/
theorem queries_ignore_events_past_horizon (hP : ∀ b ∈ P, H < b.blockNumber)
    (hE : ∀ l ∈ E, H < l.blockNumber) :
    (c.pushRootBundleEvents P E D K).getValidatedRootBundles H = c.getValidatedRootBundles H ∧
      (c.pushRootBundleEvents P E D K).getLatestFullyExecutedRootBundle H =
        c.getLatestFullyExecutedRootBundle H ∧
      (∀ startBlock, (c.pushRootBundleEvents P E D K).getEarliestFullyExecutedRootBundle H
        startBlock = c.getEarliestFullyExecutedRootBundle H startBlock) ∧
      (∀ chainIdList chainId, (c.pushRootBundleEvents P E D K).getLatestBundleEndBlockForChain
        chainIdList H chainId = c.getLatestBundleEndBlockForChain chainIdList H chainId) ∧
      (∀ chain l1Token, (c.pushRootBundleEvents P E D K).getRunningBalanceBeforeBlockForChain H
        chain l1Token = c.getRunningBalanceBeforeBlockForChain H chain l1Token) :=
  c.pushRootBundleEvents_sameAnswersAt D K hP hE

/-- The one-leaf bundle proposed at block `2`, whose leaf executed at block `4`,
is valid at horizon `5`. A proposal at block `7` then becomes its following
bundle, and a leaf executed at block `6` falls before that proposal; the bundle
is judged up to block `5`, the earlier of the two, and stays valid. -/
theorem queries_ignore_events_past_horizon_following_bundle :
    (let c := { HubPoolClient.init ⟨0, none, 0⟩ ⟨[], []⟩ with
      proposedRootBundles := [⟨⟨2, 0, 0⟩, 1, [9]⟩]
      executedRootBundles := [⟨⟨4, 0, 0⟩, 1, ["0xA"], [5]⟩] }
    let c' := c.pushRootBundleEvents [⟨⟨7, 0, 0⟩, 1, [9]⟩] [⟨⟨6, 0, 0⟩, 1, ["0xA"], [3]⟩] [] []
    c.getValidatedRootBundles 5 = c.proposedRootBundles ∧
      c'.getFollowingRootBundle ⟨⟨2, 0, 0⟩, 1, [9]⟩ = some ⟨⟨7, 0, 0⟩, 1, [9]⟩ ∧
      c'.getValidatedRootBundles 5 = c.getValidatedRootBundles 5 ∧
      c'.getLatestFullyExecutedRootBundle 5 = c.getLatestFullyExecutedRootBundle 5 ∧
      (∀ startBlock, c'.getEarliestFullyExecutedRootBundle 5 startBlock =
        c.getEarliestFullyExecutedRootBundle 5 startBlock) ∧
      (∀ chainIdList chainId, c'.getLatestBundleEndBlockForChain chainIdList 5 chainId =
        c.getLatestBundleEndBlockForChain chainIdList 5 chainId) ∧
      (∀ chain l1Token, c'.getRunningBalanceBeforeBlockForChain 5 chain l1Token =
        c.getRunningBalanceBeforeBlockForChain 5 chain l1Token)) :=
  ⟨rfl, rfl, queries_ignore_events_past_horizon _ [] [] (by decide) (by decide)⟩

/-- The scan of `getRootBundleEvalBlockNumberContainingBlock` sees past its
horizon. At horizon `20` the one-leaf bundle proposed at block `10` has no leaf
executed, so the answer is undefined; once a leaf executed at block `25` and a
proposal at block `30` are appended, the scan judges the first bundle at the
next proposal's block `30` and answers its end block `100`, although the bundle
is still not among `getValidatedRootBundles 20`. -/
theorem getRootBundleEvalBlockNumberContainingBlock_sees_past_horizon :
    (let c := { HubPoolClient.init ⟨0, none, 0⟩ ⟨[], []⟩ with
      proposedRootBundles := [⟨⟨10, 0, 0⟩, 1, [100]⟩] }
    let c' := c.pushRootBundleEvents [⟨⟨30, 0, 0⟩, 1, [200]⟩] [⟨⟨25, 0, 0⟩, 1, [], []⟩] [] []
    c.getRootBundleEvalBlockNumberContainingBlock 20 50 1 [1] = .ok none ∧
      c'.getRootBundleEvalBlockNumberContainingBlock 20 50 1 [1] = .ok (some 100) ∧
      c'.getValidatedRootBundles 20 = []) :=
  ⟨rfl, rfl, rfl⟩

end Horizon

end HubPoolClient

end HubPool

end AcrossBridge
