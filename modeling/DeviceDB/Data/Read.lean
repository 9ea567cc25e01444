import DeviceDB.Data.Write
import DeviceDB.Data.Iter

/-!
# Reading a sibling set

What a read hands back for a key. `Value()` is the bytes of a set that holds exactly one
sibling, a live one, and `nil` otherwise; it reads `Size()` and `IsTombstoneSet()`.
`GetOldestTombstone()` picks the tombstone with the earliest timestamp, for purging.

* `isTombstoneSet_iff`, `value_singleton`: `IsTombstoneSet` holds when every sibling is a
  tombstone, and a set of one sibling reads as that sibling's value.
* `getOldestTombstone_oldest`: `GetOldestTombstone` returns a tombstone of the set no newer
  than any other, and `nil` exactly when the set holds no tombstone.
* `write_after_merged_read`: the write path as a client drives it. A read merges two
  replicas' sets with `Sync` and hands out the `Join` of the result; a write that echoes it
  leaves the written sibling alone in the set it is written to, and one `Sync` into the
  other replica leaves it alone there too. Both then read back the written value, a
  delete included, whatever the two replicas held.
-/

namespace DeviceDB

namespace SiblingSet

/-- `Size()`: `len(siblings)`. -/
def size (siblingSet : SiblingSet) : Nat := siblingSet.siblings.length

/-- The body of `IsTombstoneSet`'s loop: `return false` at a live sibling. -/
def isTombstoneSetBody (isTombstoneSet : Bool) (sibling : Sibling) : ForInStep Bool :=
  if !sibling.isTombstone then .done false else .yield isTombstoneSet

/-- `IsTombstoneSet()`. -/
def isTombstoneSet (siblingSet : SiblingSet) : Bool :=
  (rangeLoop isTombstoneSetBody true siblingSet.siblings).1

/-- `Value()`: the value of the first sibling `range` visits, unless the set does not hold
exactly one sibling or holds only tombstones. A `none` value is `nil`. -/
def value (siblingSet : SiblingSet) : Option (List UInt8) :=
  if siblingSet.size != 1 || siblingSet.isTombstoneSet then none
  else match siblingSet.siblings with
    | sibling :: _ => sibling.value
    | [] => none

/-- One iteration of `GetOldestTombstone`'s loop: a tombstone replaces the one kept so far
when there is none yet or when it is strictly older. -/
def oldestTombstoneStep (oldestTombstone : Option Sibling) (sibling : Sibling) :
    Option Sibling :=
  if sibling.isTombstone then
    match oldestTombstone with
    | none => some sibling
    | some oldest => if oldest.timestamp > sibling.timestamp then some sibling else some oldest
  else oldestTombstone

/-- `GetOldestTombstone()`. -/
def getOldestTombstone (siblingSet : SiblingSet) : Option Sibling :=
  siblingSet.siblings.foldl oldestTombstoneStep none

variable {S X Y : SiblingSet} {t : Sibling}

theorem rangeLoop_isTombstoneSetBody (l : List Sibling) :
    (rangeLoop isTombstoneSetBody true l).1 = decide (∀ s ∈ l, s.isTombstone = true) := by
  induction l with
  | nil => rfl
  | cons s l ih => cases hs : s.isTombstone <;> simp [rangeLoop, isTombstoneSetBody, hs, ih]

theorem isTombstoneSet_iff : S.isTombstoneSet = true ↔ ∀ s ∈ S, s.isTombstone = true := by
  rw [isTombstoneSet, rangeLoop_isTombstoneSetBody, decide_eq_true_iff]
  rfl

/-- A set of one sibling reads as that sibling's value: its bytes, or `nil` for a tombstone. -/
@[simp] theorem value_singleton (σ : Sibling) : (⟨[σ]⟩ : SiblingSet).value = σ.value := by
  cases h : σ.value <;>
    simp [value, size, isTombstoneSet, rangeLoop, isTombstoneSetBody, Sibling.isTombstone, h]

/-! ### `GetOldestTombstone` -/

section Oldest

variable {acc : Option Sibling} {o s : Sibling}

/-- A step keeps nothing only when it had nothing and visits a live sibling. -/
theorem oldestTombstoneStep_eq_none :
    oldestTombstoneStep acc s = none ↔ acc = none ∧ s.isTombstone = false := by
  cases hs : s.isTombstone <;> cases acc <;> simp only [oldestTombstoneStep, hs] <;>
    simp only [Bool.false_eq_true, if_true, if_false, reduceCtorEq, and_true, and_false,
      true_and]
  split <;> simp

/-- **What a step of `GetOldestTombstone` can do**: keep what it had, or take the tombstone it
visits; either way no newer than before, nor than that tombstone. -/
theorem oldestTombstoneStep_some (h : oldestTombstoneStep acc s = some o) :
    (acc = some o ∨ (o = s ∧ s.isTombstone = true)) ∧
      (∀ a, acc = some a → o.timestamp ≤ a.timestamp) ∧
      (s.isTombstone = true → o.timestamp ≤ s.timestamp) := by
  cases hs : s.isTombstone
  · simp only [oldestTombstoneStep, hs, Bool.false_eq_true, if_false] at h
    subst h
    exact ⟨.inl rfl, fun a ha => Option.some.inj ha ▸ UInt64.le_refl _, nofun⟩
  · cases acc with
    | none =>
      simp only [oldestTombstoneStep, hs, if_true, Option.some.injEq] at h
      subst h
      exact ⟨.inr ⟨rfl, rfl⟩, nofun, fun _ => UInt64.le_refl _⟩
    | some a =>
      simp only [oldestTombstoneStep, hs, if_true] at h
      split at h <;> obtain rfl := Option.some.inj h
      · exact ⟨.inr ⟨rfl, rfl⟩, fun _ ha => Option.some.inj ha ▸ UInt64.le_of_lt ‹_›,
          fun _ => UInt64.le_refl _⟩
      · exact ⟨.inl rfl, fun _ ha => Option.some.inj ha ▸ UInt64.le_refl _,
          fun _ => UInt64.not_lt.1 ‹_›⟩

/-- The whole loop, from any tombstone kept so far. -/
theorem foldl_oldestTombstoneStep (l : List Sibling) (acc : Option Sibling) :
    (l.foldl oldestTombstoneStep acc = none ↔ acc = none ∧ ∀ s ∈ l, s.isTombstone = false) ∧
    ∀ o, l.foldl oldestTombstoneStep acc = some o →
      (acc = some o ∨ (o ∈ l ∧ o.isTombstone = true)) ∧
      (∀ a, acc = some a → o.timestamp ≤ a.timestamp) ∧
      ∀ s ∈ l, s.isTombstone = true → o.timestamp ≤ s.timestamp := by
  induction l generalizing acc with
  | nil =>
    refine ⟨by simp, fun o h => ⟨.inl h, fun a ha => ?_, nofun⟩⟩
    cases h.symm.trans ha
    exact UInt64.le_refl _
  | cons s l ih =>
    obtain ⟨ihnone, ihsome⟩ := ih (oldestTombstoneStep acc s)
    refine ⟨by simp only [List.foldl_cons, ihnone, oldestTombstoneStep_eq_none,
      List.mem_cons, forall_eq_or_imp, and_assoc], fun o h => ?_⟩
    obtain ⟨hmem, hle, hall⟩ := ihsome o h
    cases hb : oldestTombstoneStep acc s with
    | none =>
      -- nothing kept yet, and `s` is live: the result comes from the rest
      obtain ⟨rfl, hs⟩ := oldestTombstoneStep_eq_none.1 hb
      rw [hb] at hmem
      obtain ⟨ho, hot⟩ := hmem.resolve_left nofun
      refine ⟨.inr ⟨List.mem_cons_of_mem s ho, hot⟩, nofun, ?_⟩
      simp only [List.mem_cons, forall_eq_or_imp, hs, Bool.false_eq_true, false_imp_iff,
        true_and]
      exact hall
    | some b =>
      -- the step kept `b`, and the result is no newer than `b`
      obtain ⟨hbmem, hble, hbs⟩ := oldestTombstoneStep_some hb
      have hob := hle b hb
      refine ⟨?_, fun a ha => UInt64.le_trans hob (hble a ha), ?_⟩
      · rcases hmem with hmem | ⟨ho, hot⟩
        · obtain rfl := Option.some.inj (hb.symm.trans hmem)
          exact hbmem.imp_right fun ⟨hos, hst⟩ => ⟨hos ▸ List.mem_cons_self _ _, hos ▸ hst⟩
        · exact .inr ⟨List.mem_cons_of_mem s ho, hot⟩
      · simp only [List.mem_cons, forall_eq_or_imp]
        exact ⟨fun hst => UInt64.le_trans hob (hbs hst), hall⟩

end Oldest

/-- **`GetOldestTombstone` returns the oldest tombstone.** It is `nil` exactly when the set
holds no tombstone; otherwise it is a tombstone of the set whose timestamp is no later than
that of any tombstone of the set. -/
theorem getOldestTombstone_oldest (S : SiblingSet) :
    (S.getOldestTombstone = none ↔ ∀ s ∈ S, s.isTombstone = false) ∧
      ∀ o, S.getOldestTombstone = some o → o ∈ S ∧ o.isTombstone = true ∧
        ∀ s ∈ S, s.isTombstone = true → o.timestamp ≤ s.timestamp := by
  obtain ⟨hnone, hsome⟩ := foldl_oldestTombstoneStep S.siblings none
  refine ⟨hnone.trans (and_iff_right rfl), fun o h => ?_⟩
  obtain ⟨hmem, -, hall⟩ := hsome o h
  obtain ⟨ho, hot⟩ := hmem.resolve_left nofun
  exact ⟨ho, hot, hall⟩

/-! ### A write after a merged read -/

/-- Every sibling either replica returned happens before a clock whose context is the join of
their merge: `Sync` drops a sibling only for one it keeps and that covers it. -/
theorem happenedBefore_join_sync (hX : X.Antichain) (hY : Y.Antichain)
    (hwX : ∀ s ∈ X, s.clock.WellFormed) (hwY : ∀ s ∈ Y, s.clock.WellFormed) (d : Dot)
    (ht : t ∈ X ∨ t ∈ Y) : t.clock.HappenedBefore ⟨d, (X.sync Y).join⟩ := by
  have hw : ∀ u ∈ X.sync Y, u.clock.WellFormed := fun u hu =>
    (mem_or_mem_of_mem_sync hu).elim (hwX u) (hwY u)
  by_cases hk : t ∈ X.sync Y
  · exact happenedBefore_join hk (hw t hk) d
  · obtain ⟨u, hu, htu⟩ := covered_of_not_mem_sync hX hY ht hk
    exact htu.trans_happenedBefore (happenedBefore_join hu (hw u hu) d)

/-- **A write that echoes the context of a merged read replaces everything, on both
replicas.** Replica `X` writes `v` with the clock `Event` gives for the `Join` of
`X.Sync(Y)`: `Discard` then `Sync` with the new sibling `σ` leave `σ` alone, and when `Y`
merges the result with `Sync` it is left with `σ` alone too. Both read back `v`: its bytes,
or `nil` after a delete. No bound on the counter is needed: a wrapped counter still comes
with the joined context. -/
theorem write_after_merged_read (X Y : SiblingSet) (r : String) (v : Option (List UInt8))
    (ts : UInt64) (hX : X.Antichain) (hY : Y.Antichain) (hwX : ∀ s ∈ X, s.clock.WellFormed)
    (hwY : ∀ s ∈ Y, s.clock.WellFormed) :
    let σ : Sibling := ⟨X.event (X.sync Y).join r, v, ts⟩
    (X.discard σ.clock).sync ⟨[σ]⟩ = ⟨[σ]⟩ ∧ Y.sync ((X.discard σ.clock).sync ⟨[σ]⟩) = ⟨[σ]⟩ ∧
      (⟨[σ]⟩ : SiblingSet).value = v := by
  intro σ
  have hbefore : ∀ t, t ∈ X ∨ t ∈ Y → t.clock.HappenedBefore σ.clock :=
    fun t ht => happenedBefore_join_sync hX hY hwX hwY _ ht
  have hwrite : (X.discard σ.clock).sync ⟨[σ]⟩ = ⟨[σ]⟩ := by
    rw [discard_eq_empty fun s hs => hbefore s (.inl hs)]
    rfl
  refine ⟨hwrite, ?_, value_singleton σ⟩
  rw [hwrite]
  -- on `Y` the new sibling covers every sibling, and a sibling that dominated it would happen
  -- before itself
  have hmem : ∀ t, t ∈ Y.sync ⟨[σ]⟩ ↔ t ∈ [σ] := fun t => by
    rw [mem_sync]
    constructor
    · rintro (⟨ht, -⟩ | ⟨ht, hnc⟩)
      · exact ht
      · exact absurd ⟨σ, List.mem_singleton_self σ, .inl (hbefore t (.inr ht))⟩ hnc
    · intro ht
      obtain rfl := List.mem_singleton.1 ht
      exact .inl ⟨ht, fun ⟨y, hy, hσy⟩ =>
        (hwY y hy).not_happenedBefore_self ((hbefore y (.inr hy)).trans hσy)⟩
  exact congrArg mk (List.perm_singleton.1 ((List.perm_ext_iff_of_nodup (nodup_sync Y _)
    (List.nodup_singleton σ)).2 hmem))

/-- Two replicas that each hold one write of their own; the client writes after reading both. -/
theorem write_after_merged_read_of_two_writers :
    let X : SiblingSet := ⟨[⟨⟨⟨"r1", 1⟩, .empty⟩, some [1], 0⟩]⟩
    let Y : SiblingSet := ⟨[⟨⟨⟨"r2", 1⟩, .empty⟩, some [2], 0⟩]⟩
    let σ : Sibling := ⟨X.event (X.sync Y).join "r1", some [3], 5⟩
    X.Antichain ∧ Y.Antichain ∧ (∀ s ∈ X, s.clock.WellFormed) ∧
      (∀ s ∈ Y, s.clock.WellFormed) ∧
      ((X.discard σ.clock).sync ⟨[σ]⟩ = ⟨[σ]⟩ ∧
        Y.sync ((X.discard σ.clock).sync ⟨[σ]⟩) = ⟨[σ]⟩ ∧ (⟨[σ]⟩ : SiblingSet).value = some [3]) :=
  ⟨by decide, by decide, by decide, by decide,
    write_after_merged_read _ _ "r1" (some [3]) 5 (by decide) (by decide) (by decide)
      (by decide)⟩

end SiblingSet

end DeviceDB
