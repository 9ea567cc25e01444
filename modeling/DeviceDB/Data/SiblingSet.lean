import Mathlib.Data.List.Nodup
import DeviceDB.Data.DVV

/-!
# Sibling sets

`siblingSet.go` keeps the concurrent versions of one key in a `map[*Sibling]bool` and
merges, prunes and extends such sets with loops over it. The set is read here as the list
of its siblings in `range` order; membership is by value (clock, value and timestamp), which
is how every statement about sibling sets compares them. `Sibling` itself is declared
outside the source files and is modelled from §3 of the specification.

The operations are translated loop for loop:

* `sync`: two nested loops. The first adds each of our siblings and deletes it again if one
  of theirs happened after it or carries an equal clock; the second adds each of their
  siblings and deletes it again if one of ours happened after it. Both loops are
  `addUnless` folded over a list.
* `join`: the per-replica maximum of `MaxDot` over every replica of every sibling.
* `discard`: the siblings whose clock does not happen before the given one.
* `event`: the clock of a new write, counter one past everything recorded for the writer,
  computed in `uint64`.

Each operation has one membership or bound lemma (`mem_sync`, `le_read_join`, `mem_discard`,
`le_eventCounter`); the laws of the later modules only cite these.
-/

namespace DeviceDB

/-- Modelled from the spec: a sibling, one concurrent version of a key's value. A `none`
value is a tombstone. -/
structure Sibling where
  clock : DVV
  value : Option (List UInt8)
  timestamp : UInt64
  deriving DecidableEq

/-- A sibling set: the siblings of its map, in `range` order. -/
structure SiblingSet where
  siblings : List Sibling
  deriving DecidableEq

namespace SiblingSet

instance : Membership Sibling SiblingSet := ⟨fun ss s => s ∈ ss.siblings⟩

/-- `NewSiblingSet(map[*Sibling]bool{})`. -/
def empty : SiblingSet := ⟨[]⟩

/-- `Add(sibling)`: `siblings[sibling] = true`. -/
def add (ss : SiblingSet) (sibling : Sibling) : SiblingSet := ⟨ss.siblings.insert sibling⟩

/-- `Delete(sibling)`: `delete(siblings, sibling)`. -/
def delete (ss : SiblingSet) (sibling : Sibling) : SiblingSet :=
  ⟨ss.siblings.filter (· ≠ sibling)⟩

variable {ss : SiblingSet} {s t : Sibling}

@[simp] theorem mem_mk {l : List Sibling} : t ∈ (⟨l⟩ : SiblingSet) ↔ t ∈ l := Iff.rfl

@[simp] theorem not_mem_empty : t ∉ empty := List.not_mem_nil t

@[simp] theorem mem_add : t ∈ ss.add s ↔ t = s ∨ t ∈ ss := List.mem_insert_iff

@[simp] theorem mem_delete : t ∈ ss.delete s ↔ t ∈ ss ∧ t ≠ s := by
  change t ∈ ss.siblings.filter (· ≠ s) ↔ t ∈ ss.siblings ∧ t ≠ s
  simp

/-! ### `Sync` -/

/-- One iteration of either loop of `Sync`: add `sibling`, then delete it again for every
`other` with `drop sibling other`. -/
def addUnless (drop : Sibling → Sibling → Bool) (others : List Sibling) (acc : SiblingSet)
    (sibling : Sibling) : SiblingSet :=
  others.foldl (fun acc other => if drop sibling other then acc.delete sibling else acc)
    (acc.add sibling)

/-- `siblingSet.Sync(otherSiblingSet)`. -/
def sync (siblingSet otherSiblingSet : SiblingSet) : SiblingSet :=
  let newSiblingSet := siblingSet.siblings.foldl
    (addUnless (fun mySibling theirSibling =>
      mySibling.clock.HappenedBefore theirSibling.clock ∨
        mySibling.clock.Equals theirSibling.clock) otherSiblingSet.siblings) empty
  otherSiblingSet.siblings.foldl
    (addUnless (fun theirSibling mySibling =>
      theirSibling.clock.HappenedBefore mySibling.clock) siblingSet.siblings) newSiblingSet

section AddUnless

variable {drop : Sibling → Sibling → Bool} {others : List Sibling}

private theorem mem_foldl_delete (acc : SiblingSet) :
    t ∈ others.foldl (fun acc other => if drop s other then acc.delete s else acc) acc ↔
      t ∈ acc ∧ (t = s → ∀ o ∈ others, drop s o = false) := by
  induction others generalizing acc with
  | nil => simp
  | cons o others ih =>
    rw [List.foldl_cons, ih]
    by_cases hd : drop s o <;> by_cases hts : t = s <;> simp_all

theorem mem_addUnless (acc : SiblingSet) :
    t ∈ addUnless drop others acc s ↔
      (t = s ∧ ∀ o ∈ others, drop s o = false) ∨ (t ≠ s ∧ t ∈ acc) := by
  rw [addUnless, mem_foldl_delete, mem_add]
  by_cases hts : t = s <;> simp [hts]

/-- What a whole loop of `Sync` leaves: a looped-over sibling is there iff no `other` drops
it; any other sibling keeps its membership. -/
theorem mem_foldl_addUnless (l : List Sibling) (acc : SiblingSet) :
    t ∈ l.foldl (addUnless drop others) acc ↔
      (t ∈ l ∧ ∀ o ∈ others, drop t o = false) ∨ (t ∉ l ∧ t ∈ acc) := by
  induction l generalizing acc with
  | nil => simp
  | cons s l ih =>
    rw [List.foldl_cons, ih, mem_addUnless]
    by_cases hts : t = s
    · subst hts; by_cases htl : t ∈ l <;> simp [htl]
    · simp [hts]

end AddUnless

/-- Some sibling of `S` has a clock that `c` happened before. -/
def Dominates (S : SiblingSet) (c : DVV) : Prop := ∃ u ∈ S, c.HappenedBefore u.clock

/-- Some sibling of `S` has a clock that covers `c`. -/
def Covers (S : SiblingSet) (c : DVV) : Prop := ∃ u ∈ S, c.CoveredBy u.clock

/-- **Membership in `Sync`.** Their sibling survives unless one of ours dominates it; our
sibling survives unless one of theirs covers it. -/
theorem mem_sync {X Y : SiblingSet} :
    t ∈ X.sync Y ↔ (t ∈ Y ∧ ¬ X.Dominates t.clock) ∨ (t ∈ X ∧ ¬ Y.Covers t.clock) := by
  simp only [sync, mem_foldl_addUnless, decide_eq_false_iff_not, not_mem_empty, and_false,
    or_false, Dominates, Covers, DVV.CoveredBy, not_exists, not_and]
  refine or_congr Iff.rfl ⟨fun ⟨_, h⟩ => h, fun ⟨hX, h⟩ => ⟨fun hY => ?_, hX, h⟩⟩
  exact h t hY (.inr (DVV.Equals.refl _))

/-- `Sync` builds its result from an empty set with `Add` and `Delete`, so no sibling is in it
twice. -/
theorem nodup_sync (X Y : SiblingSet) : (X.sync Y).siblings.Nodup := by
  have hdel : ∀ {drop : Sibling → Sibling → Bool} {s : Sibling} (others : List Sibling)
      {acc : SiblingSet}, acc.siblings.Nodup → (others.foldl (fun acc other =>
        if drop s other then acc.delete s else acc) acc).siblings.Nodup := by
    intro drop s others
    induction others with
    | nil => exact id
    | cons o others ih => exact fun h => ih (by dsimp only; split; exacts [h.filter _, h])
  have hloop : ∀ {drop : Sibling → Sibling → Bool} {others : List Sibling} (l : List Sibling)
      {acc : SiblingSet}, acc.siblings.Nodup →
        (l.foldl (addUnless drop others) acc).siblings.Nodup := by
    intro drop others l
    induction l with
    | nil => exact id
    | cons s l ih => exact fun h => ih (hdel others h.insert)
  exact hloop _ (hloop _ List.nodup_nil)

/-! ### `Join` -/

/-- One iteration of `Join`'s inner loop: `collectiveClock[replica] = maxDot` when the entry
is absent or below `maxDot`. -/
def joinDot (collectiveClock : GoMap String UInt64) (replica : String) (maxDot : UInt64) :
    GoMap String UInt64 :=
  match collectiveClock.get? replica with
  | some count => if count < maxDot then collectiveClock.set replica maxDot else collectiveClock
  | none => collectiveClock.set replica maxDot

/-- `Join()`: the per-replica maximum of `MaxDot` over the replicas of every sibling. -/
def join (siblingSet : SiblingSet) : GoMap String UInt64 :=
  siblingSet.siblings.foldl (fun collectiveClock sibling =>
    sibling.clock.replicas.foldl (fun collectiveClock replica =>
      joinDot collectiveClock replica (sibling.clock.maxDot replica)) collectiveClock)
    GoMap.empty

section Join

variable {m : GoMap String UInt64} {r r' : String} {d : UInt64}

theorem read_le_read_joinDot : m.read r' ≤ (joinDot m r d).read r' := by
  unfold joinDot
  cases h : m.get? r with
  | none =>
    by_cases hr : r' = r
    · subst hr; simp [GoMap.read, h, UInt64.le_iff_toNat_le]
    · simp [GoMap.read, hr, UInt64.le_refl]
  | some count =>
    by_cases hc : count < d
    · by_cases hr : r' = r
      · subst hr
        simp only [GoMap.read, h, hc, if_true, GoMap.get?_set, Option.getD_some]
        exact UInt64.le_iff_toNat_le.2 (Nat.le_of_lt hc)
      · simp [GoMap.read, hc, hr, UInt64.le_refl]
    · simp [hc, UInt64.le_refl]

theorem le_read_joinDot : d ≤ (joinDot m r d).read r := by
  unfold joinDot
  cases h : m.get? r with
  | none => simp [GoMap.read, UInt64.le_refl]
  | some count =>
    by_cases hc : count < d
    · simp [GoMap.read, hc, UInt64.le_refl]
    · simpa [GoMap.read, hc, h] using UInt64.not_lt.1 hc

/-- A loop whose every iteration only raises entries only raises entries. -/
private theorem read_le_read_foldl {α : Type} {f : GoMap String UInt64 → α → GoMap String UInt64}
    (hf : ∀ m a r, m.read r ≤ (f m a).read r) (l : List α) (m : GoMap String UInt64)
    (r : String) : m.read r ≤ (l.foldl f m).read r := by
  induction l generalizing m with
  | nil => exact UInt64.le_refl _
  | cons a l ih => exact UInt64.le_trans (hf m a r) (ih (f m a))

/-- What one iteration of such a loop raises an entry to, the whole loop keeps. -/
private theorem le_read_foldl {α : Type} {f : GoMap String UInt64 → α → GoMap String UInt64}
    (hf : ∀ m a r, m.read r ≤ (f m a).read r) {l : List α} {a : α} (ha : a ∈ l)
    (hd : ∀ m, d ≤ (f m a).read r) (m : GoMap String UInt64) : d ≤ (l.foldl f m).read r := by
  induction l generalizing m with
  | nil => cases ha
  | cons b l ih =>
    rcases List.mem_cons.1 ha with rfl | ha
    · exact UInt64.le_trans (hd m) (read_le_read_foldl hf l _ r)
    · exact ih ha (f m b)

/-- **`Join` covers every sibling.** For every replica a sibling mentions, the joined clock's
entry is at least that sibling's `MaxDot`. -/
theorem maxDot_le_read_join {S : SiblingSet} {s : Sibling} (hs : s ∈ S)
    (hr : r ∈ s.clock.replicas) : s.clock.maxDot r ≤ S.join.read r := by
  refine le_read_foldl (fun m u r' => read_le_read_foldl
    (fun _ _ _ => read_le_read_joinDot) u.clock.replicas m r') hs (fun m => ?_) _
  exact le_read_foldl (f := fun m replica => joinDot m replica (s.clock.maxDot replica))
    (fun _ _ _ => read_le_read_joinDot) hr (fun _ => le_read_joinDot) m

end Join

/-! ### `Discard` and `Event` -/

/-- `Discard(clock)`: the siblings whose clock does not happen before `clock`. -/
def discard (siblingSet : SiblingSet) (clock : DVV) : SiblingSet :=
  siblingSet.siblings.foldl (fun newSiblingSet sibling =>
    if ¬ sibling.clock.HappenedBefore clock then newSiblingSet.add sibling else newSiblingSet)
    empty

theorem mem_discard {S : SiblingSet} {c : DVV} :
    t ∈ S.discard c ↔ t ∈ S ∧ ¬ t.clock.HappenedBefore c := by
  suffices ∀ (l : List Sibling) (acc : SiblingSet), t ∈ l.foldl (fun acc s =>
      if ¬ s.clock.HappenedBefore c then acc.add s else acc) acc ↔
        t ∈ acc ∨ (t ∈ l ∧ ¬ t.clock.HappenedBefore c) by
    rw [discard, this S.siblings empty, or_iff_right (not_mem_empty)]
    rfl
  intro l
  induction l with
  | nil => simp
  | cons s l ih =>
    intro acc
    rw [List.foldl_cons, ih]
    by_cases hs : s.clock.HappenedBefore c <;> by_cases hts : t = s <;> simp_all

/-- The `s` of `Event`: the largest of `contextClock[replica]` and of every sibling's
`MaxDot(replica)`. -/
def latestCount (siblingSet : SiblingSet) (contextClock : GoMap String UInt64)
    (replica : String) : UInt64 :=
  siblingSet.siblings.foldl (fun s sibling =>
      if s < sibling.clock.maxDot replica then sibling.clock.maxDot replica else s)
    (match contextClock.get? replica with
      | some count => count
      | none => 0)

/-- `Event(contextClock, replica)`: the clock `NewDVV(NewDot(replica, s+1), contextClock)`
of a new write, with `s + 1` computed in `uint64`. -/
def event (siblingSet : SiblingSet) (contextClock : GoMap String UInt64) (replica : String) :
    DVV :=
  ⟨⟨replica, siblingSet.latestCount contextClock replica + 1⟩, contextClock⟩

section Event

variable {S : SiblingSet} {C : GoMap String UInt64} {r : String}

private theorem le_foldl_max (l : List Sibling) (s₀ : UInt64) :
    s₀ ≤ l.foldl (fun s sibling =>
      if s < sibling.clock.maxDot r then sibling.clock.maxDot r else s) s₀ ∧
    ∀ u ∈ l, u.clock.maxDot r ≤ l.foldl (fun s sibling =>
      if s < sibling.clock.maxDot r then sibling.clock.maxDot r else s) s₀ := by
  induction l generalizing s₀ with
  | nil => simp [UInt64.le_refl]
  | cons u l ih =>
    obtain ⟨ih₁, ih₂⟩ := ih (if s₀ < u.clock.maxDot r then u.clock.maxDot r else s₀)
    simp only [List.foldl_cons, List.mem_cons, forall_eq_or_imp]
    refine ⟨UInt64.le_trans ?_ ih₁, UInt64.le_trans ?_ ih₁, ih₂⟩ <;> split <;>
      simp_all [UInt64.le_iff_toNat_le, UInt64.lt_iff_toNat_lt]
    omega

theorem read_le_latestCount : C.read r ≤ S.latestCount C r := by
  have := (le_foldl_max (r := r) S.siblings (match C.get? r with
    | some count => count
    | none => 0)).1
  cases h : C.get? r <;> simp_all [GoMap.read, latestCount]

theorem maxDot_le_latestCount {s : Sibling} (hs : s ∈ S) :
    s.clock.maxDot r ≤ S.latestCount C r :=
  (le_foldl_max S.siblings _).2 s hs

@[simp] theorem event_context : (S.event C r).context = C := rfl

@[simp] theorem event_dot : (S.event C r).dot = ⟨r, S.latestCount C r + 1⟩ := rfl

end Event

end SiblingSet

end DeviceDB
