import DeviceDB.Data.Read
import DeviceDB.Data.Hash

/-!
# Replicas converge

A replica merges the sibling sets it receives for a key into its own with `Sync`, in
whatever order and grouping sync sessions, update broadcasts and read repairs deliver them.
The loops of `siblingSet.go` range over a Go map, whose order is unspecified. Neither order
changes what a replica ends up with.

* `mem_sync_of_uniqueClocks`: when each clock names one sibling (`UniqueClocks`), `Sync`
  keeps exactly the siblings of either set that no sibling of either set happens after.
* `foldl_sync_converges`: a run of merges therefore keeps exactly the maximal siblings
  (`maximal`) of everything it merged, and two replicas that have merged the same siblings
  hold the same ones, in some `range` order.
* `range_order_independent`: `Join`, `Event`, `Hash`, `CanPurge`, `IsTombstoneSet`, `Value`
  and the timestamp `GetOldestTombstone` returns do not depend on the `range` order. With
  the convergence above, converged replicas hand out the same context, read back the same
  value and put the same digest into their Merkle trees.

`Join` builds a map, whose entries depend on the order of its writes; what is independent
of the order is every lookup, so `Join` is compared through `get?` (`get?_join`).
-/

namespace DeviceDB

namespace SiblingSet

/-! ### Everything merged, and its maximal siblings -/

instance (S : SiblingSet) (c : DVV) : Decidable (S.Dominates c) :=
  inferInstanceAs (Decidable (∃ u ∈ S.siblings, c.HappenedBefore u.clock))

/-- The siblings of the sets `Ls`, one set after the other. -/
def union (Ls : List SiblingSet) : SiblingSet := ⟨Ls.flatMap siblings⟩

/-- The siblings of `U` that no sibling of `U` happens after: what should be left of the
siblings `U` once they are all merged. -/
def maximal (U : SiblingSet) : SiblingSet :=
  ⟨U.siblings.filter fun t => !decide (U.Dominates t.clock)⟩

/-- Each clock names one sibling: siblings with equal clocks are equal. -/
def UniqueClocks (U : SiblingSet) : Prop :=
  ∀ x ∈ U, ∀ y ∈ U, x.clock.Equals y.clock → x = y

instance (U : SiblingSet) : Decidable U.UniqueClocks :=
  inferInstanceAs (Decidable (∀ x ∈ U.siblings, ∀ y ∈ U.siblings, _))

variable {X Y : SiblingSet} {Ls : List SiblingSet} {t : Sibling} {c : DVV}

@[simp] theorem mem_union : t ∈ union Ls ↔ ∃ X ∈ Ls, t ∈ X := List.mem_flatMap

theorem dominates_union : (union Ls).Dominates c ↔ ∃ X ∈ Ls, X.Dominates c := by
  constructor
  · rintro ⟨u, hu, h⟩
    obtain ⟨X, hX, huX⟩ := mem_union.1 hu
    exact ⟨X, hX, u, huX, h⟩
  · rintro ⟨X, hX, u, hu, h⟩
    exact ⟨u, mem_union.2 ⟨X, hX, hu⟩, h⟩

@[simp] theorem mem_maximal {U : SiblingSet} :
    t ∈ maximal U ↔ t ∈ U ∧ ¬ U.Dominates t.clock := by
  simp only [maximal, mem_mk, List.mem_filter, Bool.not_eq_true', decide_eq_false_iff_not]
  rfl

/-- `maximal` reads only which siblings there are. -/
theorem mem_maximal_congr {U U' : SiblingSet} (h : ∀ t, t ∈ U ↔ t ∈ U') :
    t ∈ maximal U ↔ t ∈ maximal U' := by
  have hdom : U.Dominates t.clock ↔ U'.Dominates t.clock :=
    ⟨fun ⟨u, hu, hd⟩ => ⟨u, (h u).1 hu, hd⟩, fun ⟨u, hu, hd⟩ => ⟨u, (h u).2 hu, hd⟩⟩
  rw [mem_maximal, mem_maximal, h, hdom]

/-- **`Sync` when each clock names one sibling**: the siblings of either set that no sibling
of either set happens after. The tie-break on equal clocks no longer matters. -/
theorem mem_sync_of_uniqueClocks (hX : X.Antichain) (hY : Y.Antichain)
    (huniq : ∀ x ∈ X, ∀ y ∈ Y, x.clock.Equals y.clock → x = y) :
    t ∈ X.sync Y ↔ (t ∈ X ∨ t ∈ Y) ∧ ¬ X.Dominates t.clock ∧ ¬ Y.Dominates t.clock := by
  rw [mem_sync]
  constructor
  · rintro (⟨htY, htX⟩ | ⟨htX, htY⟩)
    · exact ⟨.inr htY, htX, hY.not_dominates htY⟩
    · exact ⟨.inl htX, hX.not_dominates htX, fun ⟨u, hu, h⟩ => htY ⟨u, hu, .inl h⟩⟩
  · rintro ⟨htX | htY, hdX, hdY⟩
    · by_cases hc : Y.Covers t.clock
      · -- covered without being dominated: an equal clock, so the same sibling, of `Y`
        obtain ⟨y, hy, hty⟩ := hc
        obtain rfl := huniq t htX y hy (hty.resolve_left fun h => hdY ⟨y, hy, h⟩)
        exact .inl ⟨hy, hdX⟩
      · exact .inr ⟨htX, hc⟩
    · exact .inl ⟨htY, hdX⟩

/-- A run of merges keeps the maximal siblings of everything it merged. -/
theorem mem_foldl_sync (Ls : List SiblingSet) (S₀ : SiblingSet)
    (hanti : ∀ X ∈ S₀ :: Ls, X.Antichain) (huniq : (union (S₀ :: Ls)).UniqueClocks) :
    t ∈ Ls.foldl sync S₀ ↔ t ∈ maximal (union (S₀ :: Ls)) := by
  induction Ls generalizing S₀ with
  | nil =>
    simp only [List.foldl_nil, mem_maximal, mem_union, dominates_union, List.mem_singleton,
      exists_eq_left]
    exact ⟨fun h => ⟨h, (hanti S₀ (.head _)).not_dominates h⟩, And.left⟩
  | cons X Ls ih =>
    have hS₀ := hanti S₀ (.head _)
    have hX := hanti X (.tail _ (.head _))
    have hmem : ∀ {u}, u ∈ S₀ ∨ u ∈ X → u ∈ union (S₀ :: X :: Ls) := fun hu =>
      mem_union.2 (hu.elim (⟨S₀, .head _, ·⟩) (⟨X, .tail _ (.head _), ·⟩))
    -- what the merged sets hold is among what was merged
    have hsub : ∀ u, u ∈ union (S₀.sync X :: Ls) → u ∈ union (S₀ :: X :: Ls) := by
      simp only [mem_union, List.mem_cons, exists_eq_or_imp]
      rintro u (hu | hu)
      · exact (mem_or_mem_of_mem_sync hu).elim .inl (.inr ∘ .inl)
      · exact .inr (.inr hu)
    have hanti' : ∀ Y ∈ S₀.sync X :: Ls, Y.Antichain := by
      simp only [List.mem_cons, forall_eq_or_imp]
      exact ⟨antichain_sync hS₀ hX, fun Y hY => hanti Y (.tail _ (.tail _ hY))⟩
    rw [List.foldl_cons, ih (S₀.sync X) hanti' fun x hx y hy => huniq x (hsub x hx) y (hsub y hy)]
    simp only [mem_maximal, mem_union, dominates_union, List.mem_cons, exists_eq_or_imp,
      mem_sync_of_uniqueClocks hS₀ hX fun x hx y hy => huniq x (hmem (.inl hx)) y
        (hmem (.inr hy)), dominates_sync_iff hS₀ hX]
    -- both sides ask for no dominating sibling; under that, `Sync` has dropped nothing
    rw [or_assoc]
    refine and_congr_left fun hn => ?_
    rw [not_or, not_or] at hn
    simp only [hn.1, hn.2.1, not_false_eq_true, and_true, or_assoc]

theorem nodup_foldl_sync (Ls : List SiblingSet) {S₀ : SiblingSet} (h : S₀.siblings.Nodup) :
    (Ls.foldl sync S₀).siblings.Nodup := by
  induction Ls generalizing S₀ with
  | nil => exact h
  | cons X Ls ih => exact ih (nodup_sync S₀ X)

/-- **Replicas that have merged the same siblings hold the same siblings.** A replica that
starts from `S₀` and merges `Ls` with `Sync`, one set after the other, holds exactly the
maximal siblings of everything it merged, as long as the sets are antichains and each clock
names one sibling. A second replica that starts from `S₀'` and merges `Ls'`, with the same
siblings among them in any order and grouping, holds the same siblings: its map is the
first one's, ranged over in another order. -/
theorem foldl_sync_converges (S₀ S₀' : SiblingSet) (Ls Ls' : List SiblingSet)
    (hanti : ∀ X ∈ S₀ :: Ls, X.Antichain) (hanti' : ∀ X ∈ S₀' :: Ls', X.Antichain)
    (hnd : S₀.siblings.Nodup) (hnd' : S₀'.siblings.Nodup)
    (huniq : (union (S₀ :: Ls)).UniqueClocks)
    (hsame : ∀ t, t ∈ union (S₀ :: Ls) ↔ t ∈ union (S₀' :: Ls')) :
    (∀ t, t ∈ Ls.foldl sync S₀ ↔ t ∈ maximal (union (S₀ :: Ls))) ∧
      (Ls.foldl sync S₀).siblings.Perm (Ls'.foldl sync S₀').siblings := by
  have huniq' : (union (S₀' :: Ls')).UniqueClocks := fun x hx y hy =>
    huniq x ((hsame x).2 hx) y ((hsame y).2 hy)
  refine ⟨fun t => mem_foldl_sync Ls S₀ hanti huniq, (List.perm_ext_iff_of_nodup
    (nodup_foldl_sync Ls hnd) (nodup_foldl_sync Ls' hnd')).2 fun t => ?_⟩
  calc t ∈ Ls.foldl sync S₀ ↔ t ∈ maximal (union (S₀ :: Ls)) := mem_foldl_sync Ls S₀ hanti huniq
    _ ↔ t ∈ maximal (union (S₀' :: Ls')) := mem_maximal_congr hsame
    _ ↔ t ∈ Ls'.foldl sync S₀' := (mem_foldl_sync Ls' S₀' hanti' huniq').symm

/-- Two replicas that received three writes in opposite orders; the third write supersedes
the first. -/
theorem foldl_sync_converges_of_reordered_writes :
    let a : Sibling := ⟨⟨⟨"r1", 1⟩, .empty⟩, some [1], 0⟩
    let b : Sibling := ⟨⟨⟨"r2", 1⟩, .empty⟩, some [2], 0⟩
    let c : Sibling := ⟨⟨⟨"r1", 2⟩, ⟨[("r1", 1)], by decide⟩⟩, some [3], 0⟩
    let Ls : List SiblingSet := [⟨[b]⟩, ⟨[c]⟩]
    let Ls' : List SiblingSet := [⟨[b]⟩, ⟨[a]⟩]
    (∀ X ∈ (⟨[a]⟩ : SiblingSet) :: Ls, X.Antichain) ∧
      (∀ X ∈ (⟨[c]⟩ : SiblingSet) :: Ls', X.Antichain) ∧
      [a].Nodup ∧ [c].Nodup ∧ (union ((⟨[a]⟩ : SiblingSet) :: Ls)).UniqueClocks ∧
      (∀ t, t ∈ union ((⟨[a]⟩ : SiblingSet) :: Ls) ↔ t ∈ union ((⟨[c]⟩ : SiblingSet) :: Ls')) ∧
      ((∀ t, t ∈ Ls.foldl sync ⟨[a]⟩ ↔ t ∈ maximal (union ((⟨[a]⟩ : SiblingSet) :: Ls))) ∧
        (Ls.foldl sync ⟨[a]⟩).siblings.Perm (Ls'.foldl sync ⟨[c]⟩).siblings) := by
  intro a b c Ls Ls'
  have hsame : ∀ t, t ∈ union ((⟨[a]⟩ : SiblingSet) :: Ls) ↔
      t ∈ union ((⟨[c]⟩ : SiblingSet) :: Ls') := fun t => by
    simp only [mem_union, List.mem_cons, List.mem_singleton, exists_eq_or_imp, exists_eq_left,
      mem_mk, Ls, Ls', List.not_mem_nil, false_and, exists_false, or_false]
    tauto
  exact ⟨by decide, by decide, by decide, by decide, by decide, hsame,
    foldl_sync_converges ⟨[a]⟩ ⟨[c]⟩ Ls Ls' (by decide) (by decide) (by decide) (by decide)
      (by decide) hsame⟩

/-! ### The `range` order -/

section RangeOrder

/-- What one iteration of `Join`'s inner loop does to the lookups of the map it builds:
`replica`'s entry becomes `maxDot` when it was absent or below it. -/
def joinDotGet (get : String → Option UInt64) (replica : String) (maxDot : UInt64) :
    String → Option UInt64 := fun r =>
  if r = replica then
    some (match get replica with
      | some count => if count < maxDot then maxDot else count
      | none => maxDot)
  else get r

/-- The entries `Join` visits for one sibling: each replica its clock mentions, with its
`MaxDot`. -/
def joinEntries (sibling : Sibling) : List (String × UInt64) :=
  sibling.clock.replicas.map fun replica => (replica, sibling.clock.maxDot replica)

theorem get?_joinDot (m : GoMap String UInt64) (replica : String) (d : UInt64) :
    (joinDot m replica d).get? = joinDotGet m.get? replica d := by
  funext r
  unfold joinDot joinDotGet
  by_cases hr : r = replica
  · subst hr
    cases h : m.get? r with
    | none => simp [h]
    | some count => by_cases hc : count < d <;> simp [h, hc]
  · cases h : m.get? replica with
    | none => simp [hr]
    | some count => by_cases hc : count < d <;> simp [h, hr, hc]

/-- `Join`'s lookups, as one loop over the entries of every sibling in `range` order. -/
theorem get?_join (S : SiblingSet) : S.join.get? =
    (S.siblings.flatMap joinEntries).foldl (fun get e => joinDotGet get e.1 e.2)
      (GoMap.empty : GoMap String UInt64).get? := by
  suffices ∀ (l : List Sibling) (m : GoMap String UInt64),
      (l.foldl (fun m sibling => sibling.clock.replicas.foldl (fun m replica =>
        joinDot m replica (sibling.clock.maxDot replica)) m) m).get? =
      (l.flatMap joinEntries).foldl (fun get e => joinDotGet get e.1 e.2) m.get? from
    this S.siblings GoMap.empty
  have hinner : ∀ (rs : List String) (f : String → UInt64) (m : GoMap String UInt64),
      (rs.foldl (fun m r => joinDot m r (f r)) m).get? =
        rs.foldl (fun get r => joinDotGet get r (f r)) m.get? := by
    intro rs f
    induction rs with
    | nil => exact fun _ => rfl
    | cons r rs ih => exact fun m => (ih _).trans (congrArg
        (fun get => rs.foldl (fun get r => joinDotGet get r (f r)) get) (get?_joinDot m r (f r)))
  intro l
  induction l with
  | nil => exact fun _ => rfl
  | cons s l ih =>
    intro m
    rw [List.foldl_cons, ih, List.flatMap_cons, List.foldl_append, joinEntries, List.foldl_map,
      hinner]

private theorem toNat_ite_lt (c d : UInt64) :
    (if c < d then d else c).toNat = max c.toNat d.toNat := by
  split <;> rename_i h <;> simp only [UInt64.lt_iff_toNat_lt] at h <;> omega

/-- Two iterations of `Join`'s inner loop can be swapped: each keeps a maximum. -/
theorem joinDotGet_right_comm (get : String → Option UInt64) (a b : String) (x y : UInt64) :
    joinDotGet (joinDotGet get a x) b y = joinDotGet (joinDotGet get b y) a x := by
  funext r
  simp only [joinDotGet]
  by_cases hra : r = a <;> by_cases hrb : r = b
  · subst hra hrb
    simp only [if_true, Option.some.injEq]
    apply UInt64.toNat_inj.1
    cases get r <;> simp only [toNat_ite_lt] <;> omega
  · subst hra
    simp [hrb]
  · subst hrb
    simp [hra]
  · simp [hra, hrb]

variable {l l' : List Sibling} (siblingHash : Sibling → Hash) (newHash : List UInt8 → Hash)

theorem get?_join_perm (hp : l.Perm l') :
    (⟨l⟩ : SiblingSet).join.get? = (⟨l'⟩ : SiblingSet).join.get? := by
  rw [get?_join, get?_join]
  exact (hp.flatMap_right joinEntries).foldl_eq'
    (fun e₁ _ e₂ _ get => joinDotGet_right_comm get e₁.1 e₂.1 e₁.2 e₂.2) _

theorem event_perm (hp : l.Perm l') (C : GoMap String UInt64) (r : String) :
    (⟨l⟩ : SiblingSet).event C r = (⟨l'⟩ : SiblingSet).event C r := by
  have hcount : (⟨l⟩ : SiblingSet).latestCount C r = (⟨l'⟩ : SiblingSet).latestCount C r :=
    hp.foldl_eq' (fun _ _ _ _ _ => UInt64.toNat_inj.1 (by simp only [toNat_ite_lt]; omega)) _
  simp only [event, hcount]

theorem hash_perm (hp : l.Perm l') (key : List UInt8) :
    hash siblingHash newHash (some ⟨l⟩) key = hash siblingHash newHash (some ⟨l'⟩) key := by
  have hxor : xorHashes siblingHash l = xorHashes siblingHash l' :=
    hp.foldl_eq' (fun _ _ _ _ _ => Hash.xor_right_comm _ _ _) _
  simp only [hash_some, hxor]

theorem canPurge_perm (hp : l.Perm l') (timestampCutoff : UInt64) :
    (⟨l⟩ : SiblingSet).canPurge timestampCutoff = (⟨l'⟩ : SiblingSet).canPurge timestampCutoff := by
  simp only [canPurge, (rangeLoop_canPurgeBody _).1, hp.mem_iff]

theorem isTombstoneSet_perm (hp : l.Perm l') :
    (⟨l⟩ : SiblingSet).isTombstoneSet = (⟨l'⟩ : SiblingSet).isTombstoneSet := by
  simp only [isTombstoneSet, rangeLoop_isTombstoneSetBody, hp.mem_iff]

theorem value_perm (hp : l.Perm l') : (⟨l⟩ : SiblingSet).value = (⟨l'⟩ : SiblingSet).value := by
  by_cases h1 : l.length = 1
  · obtain ⟨a, rfl⟩ := List.length_eq_one.1 h1
    rw [List.perm_singleton.1 hp.symm]
  · have h1' : l'.length ≠ 1 := hp.length_eq ▸ h1
    simp [value, size, h1, h1']

theorem timestamp_getOldestTombstone_perm (hp : l.Perm l') :
    (⟨l⟩ : SiblingSet).getOldestTombstone.map Sibling.timestamp =
      (⟨l'⟩ : SiblingSet).getOldestTombstone.map Sibling.timestamp := by
  obtain ⟨hnone, hsome⟩ := foldl_oldestTombstoneStep l none
  obtain ⟨hnone', hsome'⟩ := foldl_oldestTombstoneStep l' none
  have hlive : (∀ s ∈ l, s.isTombstone = false) ↔ ∀ s ∈ l', s.isTombstone = false := by
    simp only [hp.mem_iff]
  unfold getOldestTombstone
  cases h : l.foldl oldestTombstoneStep none with
  | none => rw [hnone'.2 ⟨rfl, hlive.1 (hnone.1 h).2⟩]
  | some o =>
    cases h' : l'.foldl oldestTombstoneStep none with
    | none => exact absurd (hnone.2 ⟨rfl, hlive.2 (hnone'.1 h').2⟩) (h ▸ nofun)
    | some o' =>
      -- each is no newer than the other, which the other set holds too
      obtain ⟨ho, -, hall⟩ := hsome o h
      obtain ⟨ho', -, hall'⟩ := hsome' o' h'
      obtain ⟨hol, hot⟩ := ho.resolve_left nofun
      obtain ⟨hol', hot'⟩ := ho'.resolve_left nofun
      exact congrArg some (UInt64.toNat_inj.1 (Nat.le_antisymm (hall o' (hp.mem_iff.2 hol') hot')
        (hall' o (hp.mem_iff.1 hol) hot)))

/-- **No result depends on the `range` order.** `Join`, `Event`, `Hash`, `CanPurge`,
`IsTombstoneSet` and `Value` give the same result for every order in which their loops
visit the siblings, and `GetOldestTombstone` a tombstone with the same timestamp; which of
several equally old tombstones it returns is the one thing the order decides. -/
theorem range_order_independent (hp : l.Perm l') (key : List UInt8)
    (C : GoMap String UInt64) (r : String) (timestampCutoff : UInt64) :
    (∀ replica, (⟨l⟩ : SiblingSet).join.get? replica = (⟨l'⟩ : SiblingSet).join.get? replica) ∧
      (⟨l⟩ : SiblingSet).event C r = (⟨l'⟩ : SiblingSet).event C r ∧
      hash siblingHash newHash (some ⟨l⟩) key = hash siblingHash newHash (some ⟨l'⟩) key ∧
      (⟨l⟩ : SiblingSet).canPurge timestampCutoff =
        (⟨l'⟩ : SiblingSet).canPurge timestampCutoff ∧
      (⟨l⟩ : SiblingSet).isTombstoneSet = (⟨l'⟩ : SiblingSet).isTombstoneSet ∧
      (⟨l⟩ : SiblingSet).value = (⟨l'⟩ : SiblingSet).value ∧
      (⟨l⟩ : SiblingSet).getOldestTombstone.map Sibling.timestamp =
        (⟨l'⟩ : SiblingSet).getOldestTombstone.map Sibling.timestamp :=
  ⟨fun replica => congrFun (get?_join_perm hp) replica, event_perm hp C r,
    hash_perm siblingHash newHash hp key, canPurge_perm hp timestampCutoff,
    isTombstoneSet_perm hp, value_perm hp, timestamp_getOldestTombstone_perm hp⟩

end RangeOrder

/-- Two tombstones of the same age and a live sibling, ranged over in two orders. -/
theorem range_order_independent_of_rotation :
    let a : Sibling := ⟨⟨⟨"r1", 1⟩, .empty⟩, none, 3⟩
    let b : Sibling := ⟨⟨⟨"r2", 1⟩, .empty⟩, none, 3⟩
    let c : Sibling := ⟨⟨⟨"r1", 2⟩, ⟨[("r1", 1)], by decide⟩⟩, some [3], 4⟩
    [a, b, c].Perm [c, b, a] ∧
      ((∀ replica, (⟨[a, b, c]⟩ : SiblingSet).join.get? replica =
          (⟨[c, b, a]⟩ : SiblingSet).join.get? replica) ∧
        (⟨[a, b, c]⟩ : SiblingSet).event .empty "r2" = (⟨[c, b, a]⟩ : SiblingSet).event .empty "r2" ∧
        hash (fun s => ⟨s.timestamp, 1⟩) (fun _ => ⟨1, 1⟩) (some ⟨[a, b, c]⟩) [107] =
          hash (fun s => ⟨s.timestamp, 1⟩) (fun _ => ⟨1, 1⟩) (some ⟨[c, b, a]⟩) [107] ∧
        (⟨[a, b, c]⟩ : SiblingSet).canPurge 5 = (⟨[c, b, a]⟩ : SiblingSet).canPurge 5 ∧
        (⟨[a, b, c]⟩ : SiblingSet).isTombstoneSet = (⟨[c, b, a]⟩ : SiblingSet).isTombstoneSet ∧
        (⟨[a, b, c]⟩ : SiblingSet).value = (⟨[c, b, a]⟩ : SiblingSet).value ∧
        (⟨[a, b, c]⟩ : SiblingSet).getOldestTombstone.map Sibling.timestamp =
          (⟨[c, b, a]⟩ : SiblingSet).getOldestTombstone.map Sibling.timestamp) := by
  intro a b c
  have hp : [a, b, c].Perm [c, b, a] := by decide
  exact ⟨hp, range_order_independent (fun s => ⟨s.timestamp, 1⟩) (fun _ => ⟨1, 1⟩) hp [107]
    .empty "r2" 5⟩

end SiblingSet

end DeviceDB
