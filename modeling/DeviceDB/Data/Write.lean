import DeviceDB.Data.SyncLaws

/-!
# The write path: `Join`, `Event`, `Discard`

A read hands the client `Join()` of the merged sibling set as its context; the client's next
write gets the clock `Event(context, replica)`, and the bucket keeps
`Discard(clock) ∪ {new sibling}`.

* `happenedBefore_join`: every well-formed sibling of a set happens before any clock whose
  context is the set's join. The dot of the sibling is covered through `MaxDot`, its
  context entry by entry, and well-formedness makes the dot's own entry strict.
* `event_join_supersedes`: a write that echoes the join of a merged read supersedes every
  version any replica returned, so discarding it leaves nothing. The siblings `Sync`
  dropped are covered by ones it kept (`covered_of_not_mem_sync`), and `≺` passes along.
* `event_write_sound`: while the writer's counter has room, the new clock lies beyond the
  context and every sibling, and `Discard(e).Sync({σ})` is `Discard(e) ∪ {σ}` and an
  antichain.
* `event_counter_wraps`: `Event` adds one in `uint64`; at a context entry of `2^64 - 1` the
  counter wraps to `0`, and the new sibling happens before itself.
-/

namespace DeviceDB

namespace SiblingSet

variable {S T X Y : SiblingSet} {t : Sibling} {C : GoMap String UInt64} {r : String}

/-- Every well-formed sibling of `T` happens before a clock whose context is `T.join`. -/
theorem happenedBefore_join (ht : t ∈ T) (hw : t.clock.WellFormed) (d : Dot) :
    t.clock.HappenedBefore ⟨d, T.join⟩ := by
  have hdot : t.clock.dot.counter ≤ T.join.read t.clock.dot.replicaID :=
    UInt64.le_trans t.clock.counter_le_maxDot
      (maxDot_le_read_join ht (DVV.mem_replicas.2 (.inr rfl)))
  refine ⟨fun r => ?_, hdot, .inl ⟨t.clock.dot.replicaID, UInt64.lt_of_lt_of_le hw hdot⟩⟩
  by_cases hr : r ∈ t.clock.context.keys
  · exact UInt64.le_trans (t.clock.ctx_le_maxDot r)
      (maxDot_le_read_join ht (DVV.mem_replicas.2 (.inl hr)))
  · rw [DVV.ctx_eq_zero hr]
    exact UInt64.zero_le _

theorem discard_eq_empty {c : DVV} (h : ∀ s ∈ S, s.clock.HappenedBefore c) :
    S.discard c = empty := by
  suffices (S.discard c).siblings = [] by rw [empty, ← this]
  exact List.eq_nil_iff_forall_not_mem.2 fun s hs => (mem_discard.1 hs).2 (h s (mem_discard.1 hs).1)

/-- **A write that echoes the joined context of a merged read supersedes every version that
any replica returned.** -/
theorem event_join_supersedes (X Y S : SiblingSet) (r : String) (hX : X.Antichain)
    (hY : Y.Antichain) (hwX : ∀ s ∈ X, s.clock.WellFormed) (hwY : ∀ s ∈ Y, s.clock.WellFormed) :
    (∀ s, s ∈ X ∨ s ∈ Y → s.clock.HappenedBefore (S.event (X.sync Y).join r)) ∧
      X.discard (S.event (X.sync Y).join r) = empty ∧
      Y.discard (S.event (X.sync Y).join r) = empty := by
  have hw : ∀ u ∈ X.sync Y, u.clock.WellFormed := fun u hu =>
    (mem_or_mem_of_mem_sync hu).elim (hwX u) (hwY u)
  have h : ∀ s, s ∈ X ∨ s ∈ Y → s.clock.HappenedBefore (S.event (X.sync Y).join r) := by
    intro s hs
    by_cases hk : s ∈ X.sync Y
    · exact happenedBefore_join hk (hw s hk) _
    · obtain ⟨u, hu, hsu⟩ := covered_of_not_mem_sync hX hY hs hk
      exact hsu.trans_happenedBefore (happenedBefore_join hu (hw u hu) _)
  exact ⟨h, discard_eq_empty fun s hs => h s (.inl hs),
    discard_eq_empty fun s hs => h s (.inr hs)⟩

/-- Two replicas that each returned one well-formed write. -/
theorem event_join_supersedes_of_two_replicas :
    let X : SiblingSet := ⟨[⟨⟨⟨"r1", 1⟩, .empty⟩, some [1], 0⟩]⟩
    let Y : SiblingSet := ⟨[⟨⟨⟨"r2", 3⟩, ⟨[("r1", 1)], by decide⟩⟩, some [2], 0⟩]⟩
    X.Antichain ∧ Y.Antichain ∧ (∀ s ∈ X, s.clock.WellFormed) ∧ (∀ s ∈ Y, s.clock.WellFormed) ∧
      (∀ s, s ∈ X ∨ s ∈ Y → s.clock.HappenedBefore (empty.event (X.sync Y).join "r3")) ∧
      X.discard (empty.event (X.sync Y).join "r3") = empty ∧
      Y.discard (empty.event (X.sync Y).join "r3") = empty :=
  ⟨by decide, by decide, by decide, by decide,
    event_join_supersedes _ _ _ _ (by decide) (by decide) (by decide) (by decide)⟩

/-! ### The new write's counter -/

/-- While `s + 1` does not wrap, the new counter lies beyond the context entry and beyond
every sibling's `MaxDot` for the writer. -/
theorem lt_event_counter (hs : S.latestCount C r < 18446744073709551615) :
    C.read r < (S.event C r).dot.counter ∧
      ∀ s ∈ S, s.clock.maxDot r < (S.event C r).dot.counter := by
  have hadd : (S.latestCount C r + 1).toNat = (S.latestCount C r).toNat + 1 := by
    rw [UInt64.lt_iff_toNat_lt] at hs
    simp only [UInt64.toNat, UInt64.add_def, BitVec.toNat_add] at hs ⊢
    simp only [UInt64.toBitVec_ofNat, BitVec.toNat_ofNat] at hs ⊢
    omega
  simp only [event_dot, UInt64.lt_iff_toNat_lt, hadd]
  have hC := UInt64.le_iff_toNat_le.1 (read_le_latestCount (S := S) (C := C) (r := r))
  exact ⟨by omega, fun s hs =>
    Nat.lt_succ_of_le (UInt64.le_iff_toNat_le.1 (maxDot_le_latestCount hs))⟩

theorem Antichain.discard (hS : S.Antichain) (c : DVV) : (S.discard c).Antichain :=
  fun s hs u hu => hS s (mem_discard.1 hs).1 u (mem_discard.1 hu).1

/-- **The batch write step.** While the writer's counter has room, the new write is kept
next to everything `Discard` keeps, and the result is again an antichain. -/
theorem event_write_sound (S : SiblingSet) (C : GoMap String UInt64) (r : String)
    (v : Option (List UInt8)) (ts : UInt64) (hS : S.Antichain)
    (hs : S.latestCount C r < 18446744073709551615) :
    C.read r < (S.event C r).dot.counter ∧
      (∀ s ∈ S, s.clock.maxDot r < (S.event C r).dot.counter) ∧
      (∀ t, t ∈ (S.discard (S.event C r)).sync ⟨[⟨S.event C r, v, ts⟩]⟩ ↔
        t ∈ S.discard (S.event C r) ∨ t = ⟨S.event C r, v, ts⟩) ∧
      ((S.discard (S.event C r)).sync ⟨[⟨S.event C r, v, ts⟩]⟩).Antichain := by
  obtain ⟨hC, hmax⟩ := lt_event_counter hs
  set e := S.event C r
  -- nothing of `S` is at or beyond the new clock, and the new clock is not beyond itself
  have hS_e : ∀ u ∈ S, ¬ e.HappenedBefore u.clock := fun u hu ⟨_, hd, _⟩ =>
    (UInt64.not_le.2 (hmax u hu)) (UInt64.le_trans hd (u.clock.ctx_le_maxDot r))
  have hS_eq : ∀ u ∈ S, ¬ u.clock.Equals e := fun u hu ⟨hd, _⟩ => by
    have := u.clock.counter_le_maxDot
    rw [hd] at this
    exact UInt64.not_le.2 (hmax u hu) this
  have he : ¬ e.HappenedBefore e := fun ⟨_, hd, _⟩ => UInt64.not_le.2 hC hd
  refine ⟨hC, hmax, fun t => ?_, antichain_sync (hS.discard e) ?_⟩
  · rw [mem_sync]
    constructor
    · rintro (⟨ht, -⟩ | ⟨ht, -⟩)
      exacts [.inr (List.mem_singleton.1 ht), .inl ht]
    · rintro (ht | rfl)
      · refine .inr ⟨ht, fun ⟨u, hu, htu⟩ => ?_⟩
        obtain rfl := List.mem_singleton.1 hu
        obtain ⟨htS, hte⟩ := mem_discard.1 ht
        exact htu.elim hte (hS_eq t htS)
      · exact .inl ⟨List.mem_singleton_self _, fun ⟨u, hu, h⟩ => hS_e u (mem_discard.1 hu).1 h⟩
  · intro a ha b hb
    rw [List.mem_singleton.1 ha, List.mem_singleton.1 hb]
    exact he

/-- **`Event` wraps.** At a context entry of `2^64 - 1` for the writer, `s + 1` is `0`: the
new counter is not beyond the context, and the new sibling happens before itself. -/
theorem event_counter_wraps :
    let C : GoMap String UInt64 := ⟨[("r", 18446744073709551615)], by decide⟩
    let σ : Sibling := ⟨empty.event C "r", none, 0⟩
    σ.clock.dot.counter = 0 ∧ ¬ C.read "r" < σ.clock.dot.counter ∧
      ¬ ((empty.discard σ.clock).sync ⟨[σ]⟩).Antichain := by
  decide

end SiblingSet

end DeviceDB
