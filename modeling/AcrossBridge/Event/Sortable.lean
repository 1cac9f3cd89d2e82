import Mathlib.Data.List.Sort

/-!
# Sortable events

Every entry of the HubPool ledger records its place in the chain's log: the
block, the transaction within the block and the log within the transaction.
The client reads several of its lists newest first through the utility
`sortEventsDescending`, which src/ imports but does not contain. It is modelled
as a stable sort, newest first, on the order by block, then transaction, then
log index, which is what a JavaScript `Array.prototype.sort` with that
comparator computes: entries at the same place keep their order.

The one fact the queries need is that sorting commutes with filtering, so a
search over the sorted copy for entries passing a test only sees the entries
that pass it, in sorted order.
-/

namespace AcrossBridge

/-- The place of an event in the chain's log. -/
structure SortableEvent where
  blockNumber : Nat
  transactionIndex : Nat
  logIndex : Nat
deriving DecidableEq, Repr

namespace SortableEvent

/-- `a` sits at or after `b` in the log: by block, then transaction, then log
index. -/
def NotBefore (a b : SortableEvent) : Prop :=
  b.blockNumber < a.blockNumber ∨ b.blockNumber = a.blockNumber ∧
    (b.transactionIndex < a.transactionIndex ∨
      b.transactionIndex = a.transactionIndex ∧ b.logIndex ≤ a.logIndex)

instance : DecidableRel NotBefore := fun _ _ =>
  inferInstanceAs (Decidable (_ ∨ _))

theorem NotBefore.refl (a : SortableEvent) : a.NotBefore a := by
  unfold NotBefore
  omega

theorem NotBefore.trans {a b c : SortableEvent} (hab : a.NotBefore b) (hbc : b.NotBefore c) :
    a.NotBefore c := by
  unfold NotBefore at *
  omega

theorem NotBefore.total (a b : SortableEvent) : a.NotBefore b ∨ b.NotBefore a := by
  unfold NotBefore
  omega

theorem NotBefore.blockNumber_le {a b : SortableEvent} (h : a.NotBefore b) :
    b.blockNumber ≤ a.blockNumber := by
  unfold NotBefore at h
  omega

theorem NotBefore.antisymm {a b : SortableEvent} (hab : a.NotBefore b) (hba : b.NotBefore a) :
    a = b := by
  unfold NotBefore at hab hba
  cases a
  cases b
  simp only [mk.injEq] at *
  omega

end SortableEvent

section Sorting

variable {α : Type} (toEvent : α → SortableEvent)

/-- The order `sortEventsDescending` lists entries in: newest first. -/
def Newer (a b : α) : Prop := (toEvent a).NotBefore (toEvent b)

instance : DecidableRel (Newer toEvent) := fun a b =>
  inferInstanceAs (Decidable ((toEvent a).NotBefore (toEvent b)))

instance : IsTrans α (Newer toEvent) := ⟨fun _ _ _ => SortableEvent.NotBefore.trans⟩

instance : IsTotal α (Newer toEvent) := ⟨fun _ _ => SortableEvent.NotBefore.total _ _⟩

/-- Modelled from the spec: `sortEventsDescending`, a copy of `events` ordered
newest first by block, transaction and log index, entries at the same place
kept in their order. -/
def sortEventsDescending (events : List α) : List α :=
  events.insertionSort (Newer toEvent)

variable {toEvent}

/-- Inserting into a sorted list commutes with filtering. -/
theorem filter_orderedInsert (p : α → Bool) (a : α) :
    ∀ {l : List α}, l.Sorted (Newer toEvent) →
      (l.orderedInsert (Newer toEvent) a).filter p =
        if p a then (l.filter p).orderedInsert (Newer toEvent) a else l.filter p
  | [], _ => by by_cases h : p a <;> simp [h]
  | b :: l, hl => by
      obtain ⟨hb, hl⟩ := List.sorted_cons.1 hl
      by_cases hab : Newer toEvent a b
      · -- `a` goes in front of `b`, and so in front of everything after `b`
        rw [List.orderedInsert_of_le _ _ hab]
        by_cases ha : p a
        · have hall : ∀ c ∈ (b :: l).filter p, Newer toEvent a c := fun c hc => by
            rcases List.mem_cons.1 (List.mem_of_mem_filter hc) with rfl | hc
            exacts [hab, trans_of (Newer toEvent) hab (hb c hc)]
          rw [List.filter_cons_of_pos ha, if_pos ha]
          cases hfl : (b :: l).filter p with
          | nil => rfl
          | cons c m =>
              rw [List.orderedInsert_of_le _ _ (hall c (hfl ▸ List.mem_cons_self c m))]
        · rw [List.filter_cons_of_neg ha, if_neg ha]
      · -- `a` goes further down, past `b`
        simp only [List.orderedInsert, if_neg hab, List.filter_cons, filter_orderedInsert p a hl]
        by_cases ha : p a <;> by_cases hpb : p b <;> simp [ha, hpb, hab]

/-- Sorting commutes with filtering. -/
theorem filter_sortEventsDescending (p : α → Bool) (events : List α) :
    (sortEventsDescending toEvent events).filter p =
      sortEventsDescending toEvent (events.filter p) := by
  induction events with
  | nil => rfl
  | cons a events ih =>
      simp only [sortEventsDescending, List.insertionSort] at ih ⊢
      rw [filter_orderedInsert p a (List.sorted_insertionSort _ _), ih, List.filter_cons]
      split <;> rfl

/-- Entries that fail a test do not change which sorted entry is the first to
pass it. -/
theorem find?_sortEventsDescending_append {p : α → Bool} (events later : List α)
    (h : ∀ x ∈ later, p x = false) :
    (sortEventsDescending toEvent (events ++ later)).find? p =
      (sortEventsDescending toEvent events).find? p := by
  have hlater : later.filter p = [] := List.filter_eq_nil_iff.2 (by simpa using h)
  rw [← List.filter_head?, ← List.filter_head?, filter_sortEventsDescending,
    filter_sortEventsDescending, List.filter_append, hlater, List.append_nil]

/-- The first sorted entry to pass a test passes it and sits at or after every
entry that does. -/
theorem find?_sortEventsDescending_eq_some {p : α → Bool} {events : List α} {x : α}
    (h : (sortEventsDescending toEvent events).find? p = some x) :
    x ∈ events ∧ p x ∧ ∀ y ∈ events, p y → Newer toEvent x y := by
  rw [← List.filter_head?, filter_sortEventsDescending, List.head?_eq_some_iff] at h
  obtain ⟨rest, hsorted⟩ := h
  have hperm := List.perm_insertionSort (Newer toEvent) (events.filter p)
  have hmem : ∀ y, y ∈ events.filter p ↔ y = x ∨ y ∈ rest := fun y => by
    rw [← hperm.mem_iff, ← List.mem_cons]
    exact Eq.to_iff (congrArg (y ∈ ·) hsorted)
  have hx := List.mem_filter.1 ((hmem x).2 (.inl rfl))
  have hfirst := List.sorted_insertionSort (Newer toEvent) (events.filter p)
  rw [sortEventsDescending] at hsorted
  rw [hsorted, List.sorted_cons] at hfirst
  refine ⟨hx.1, hx.2, fun y hy hpy => ?_⟩
  rcases (hmem y).1 (List.mem_filter.2 ⟨hy, hpy⟩) with rfl | hy
  exacts [SortableEvent.NotBefore.refl _, hfirst.1 y hy]

/-- No sorted entry passes a test exactly when no entry does. -/
theorem find?_sortEventsDescending_eq_none {p : α → Bool} {events : List α} :
    (sortEventsDescending toEvent events).find? p = none ↔ ∀ y ∈ events, p y = false := by
  rw [List.find?_eq_none, sortEventsDescending]
  simp only [(List.perm_insertionSort (Newer toEvent) events).mem_iff, Bool.not_eq_true]

/-- Two lists with the same entries passing their tests have the same first
sorted entry passing them, when no two entries of the second share a place in
the log: repeats, and entries in other orders, do not change which entry is the
latest. -/
theorem find?_sortEventsDescending_congr {p p' : α → Bool} {events events' : List α}
    (hmem : ∀ x, x ∈ events ∧ p x ↔ x ∈ events' ∧ p' x)
    (hplace : (events'.map toEvent).Nodup) :
    (sortEventsDescending toEvent events).find? p =
      (sortEventsDescending toEvent events').find? p' := by
  cases h' : (sortEventsDescending toEvent events').find? p' with
  | none =>
      refine find?_sortEventsDescending_eq_none.2 fun y hy => Bool.eq_false_iff.2 fun hp => ?_
      obtain ⟨hy', hp'⟩ := (hmem y).1 ⟨hy, hp⟩
      simp [find?_sortEventsDescending_eq_none.1 h' y hy'] at hp'
  | some y =>
      obtain ⟨hy, hpy, hlatest'⟩ := find?_sortEventsDescending_eq_some h'
      obtain ⟨hy₁, hpy₁⟩ := (hmem y).2 ⟨hy, hpy⟩
      cases h : (sortEventsDescending toEvent events).find? p with
      | none => simp [find?_sortEventsDescending_eq_none.1 h y hy₁] at hpy₁
      | some x =>
          obtain ⟨hx, hpx, hlatest⟩ := find?_sortEventsDescending_eq_some h
          obtain ⟨hx', hpx'⟩ := (hmem x).1 ⟨hx, hpx⟩
          exact congrArg some (List.inj_on_of_nodup_map hplace hx' hy
            ((hlatest y hy₁ hpy₁).antisymm (hlatest' x hx' hpx')))

end Sorting

end AcrossBridge
