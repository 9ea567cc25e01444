import Mathlib.Data.List.Dedup
import DeviceDB.Transfer.Proposer

/-!
# Cancelling transfer proposals

`transferCancelers[p][r]` is meant to hold the canceler of the one proposal for `(p, r)` that
may still run: the latest one queued, as long as it has been neither cancelled nor cleaned up
after. `CancelerInvariant` says exactly that, and that no partition keeps an empty map.

* `CancelerInvariant.of_kill`: a step that changes no proposal's `(partition, replica)`, stops
  at most one proposal, and removes that proposal's canceler if the map held it, keeps the
  invariant. Every event is such a step (`CancelerInvariant.step`); a queued proposal is
  the new latest one.
* `run_transferCancelers_exact`: hence in every reachable state the map holds exactly the
  live latest proposals, `PendingProposals` and `QueuedProposals` report them, and the
  cleanup of a proposal that a newer one for the same replica replaced leaves the map alone.
* `cancelTransferProposals_stops_partition`: `CancelTransferProposals(p)` leaves no pending
  proposal and no live latest proposal for `p`, and every other partition as it was.
* `requeued_proposal_commands_after_cancel`: cancelling does not stop every waiting proposal.
  `QueueTransferProposal` overwrites the canceler of an earlier proposal for the same replica
  without cancelling it, so `CancelTransferProposal` never reaches that proposal, which
  calls `ClusterCommand` with a live context once its `after` fires. A proposal whose context
  was cancelled can still take `after` when both cases of its `select` are ready.
-/

namespace DeviceDB

/-- A proposal that has been neither cancelled nor cleaned up after. -/
def Proposal.Live (q : Proposal) : Prop := q.ctxDone = false ∧ q.pc ≠ .finished

instance : DecidablePred Proposal.Live := fun _ => inferInstanceAs (Decidable (_ ∧ _))

namespace TransferProposer

variable {tp tp' : TransferProposer} {p p' r r' : UInt64} {i j : Nat}

/-- The `(partition, replica)` proposal `i` is for. -/
def keyAt (tp : TransferProposer) (i : Nat) : Option (UInt64 × UInt64) :=
  tp.proposals[i]?.map fun q => (q.partition, q.replica)

/-- Proposal `i` is the most recently queued one for `(partition, replica)`. -/
def IsLatest (tp : TransferProposer) (partition replica : UInt64) (i : Nat) : Prop :=
  tp.keyAt i = some (partition, replica) ∧ ∀ j, i < j → tp.keyAt j ≠ some (partition, replica)

/-- Proposal `i` is live. -/
def LiveAt (tp : TransferProposer) (i : Nat) : Prop := ∃ q ∈ tp.proposals[i]?, q.Live

instance (tp : TransferProposer) (i : Nat) : Decidable (tp.LiveAt i) :=
  inferInstanceAs (Decidable (∃ q ∈ tp.proposals[i]?, q.Live))

theorem keyAt_eq_none (h : tp.proposals.length ≤ j) : tp.keyAt j = none := by
  simp [keyAt, List.getElem?_eq_none h]

theorem isLatest_iff_bounded : tp.IsLatest p r i ↔ tp.keyAt i = some (p, r) ∧
    ∀ j < tp.proposals.length, i < j → tp.keyAt j ≠ some (p, r) := by
  refine and_congr_right fun _ => ⟨fun h j _ hij => h j hij, fun h j hij => ?_⟩
  by_cases hj : j < tp.proposals.length
  · exact h j hj hij
  · simp [keyAt_eq_none (Nat.le_of_not_lt hj)]

instance (tp : TransferProposer) (p r : UInt64) (i : Nat) : Decidable (tp.IsLatest p r i) :=
  decidable_of_iff _ isLatest_iff_bounded.symm

/-- The replicas of `partition` whose latest proposal is live, each once. -/
def liveReplicas (tp : TransferProposer) (partition : UInt64) : List UInt64 :=
  (tp.proposals.map Proposal.replica).dedup.filter fun replica =>
    ∃ i < tp.proposals.length, tp.IsLatest partition replica i ∧ tp.LiveAt i

theorem lt_length_of_keyAt {k : UInt64 × UInt64} (h : tp.keyAt i = some k) :
    i < tp.proposals.length := by
  by_contra hi
  simp [keyAt_eq_none (Nat.le_of_not_lt hi)] at h

theorem IsLatest.lt_length (h : tp.IsLatest p r i) : i < tp.proposals.length :=
  lt_length_of_keyAt h.1

theorem IsLatest.unique (hi : tp.IsLatest p r i) (hj : tp.IsLatest p r j) : i = j := by
  rcases Nat.lt_trichotomy i j with h | h | h
  · exact absurd hj.1 (hi.2 j h)
  · exact h
  · exact absurd hi.1 (hj.2 i h)

/-- Latest proposals for two keys are the same proposal only for the same key. -/
theorem IsLatest.key_eq (hi : tp.IsLatest p r i) (hj : tp.IsLatest p' r' i) : p' = p ∧ r' = r := by
  have := hi.1.symm.trans hj.1
  simp only [Option.some.injEq, Prod.mk.injEq] at this
  exact ⟨this.1.symm, this.2.symm⟩

/-- A step that edits goroutines in place, keeping what each is for, keeps `IsLatest`. -/
theorem isLatest_congr {f : Nat → Proposal → Proposal}
    (hf : ∀ j q, (f j q).partition = q.partition ∧ (f j q).replica = q.replica)
    (h : ∀ j, tp'.proposals[j]? = (tp.proposals[j]?).map (f j)) :
    tp'.IsLatest p r i ↔ tp.IsLatest p r i := by
  have hkey : ∀ j, tp'.keyAt j = tp.keyAt j := fun j => by
    simp [keyAt, h, Option.map_map, Function.comp_def, hf]
  simp only [IsLatest, hkey]

theorem liveAt_iff {g : Proposal → Proposal} (h : tp'.proposals[j]? = (tp.proposals[j]?).map g) :
    tp'.LiveAt j ↔ ∃ q ∈ tp.proposals[j]?, (g q).Live := by
  simp [LiveAt, h]

/-! ### The invariant -/

/-- The invariant of `transferCancelers`. -/
structure CancelerInvariant (tp : TransferProposer) : Prop where
  /-- The map holds a canceler for `(p, r)` exactly when the latest proposal for it is live,
  and then it holds that proposal's. -/
  cancelerAt_iff : ∀ p r i, tp.cancelerAt p r = some i ↔ tp.IsLatest p r i ∧ tp.LiveAt i
  /-- No partition maps to an empty map. -/
  len_pos : ∀ p cancelers, tp.transferCancelers.get? p = some cancelers → 0 < cancelers.len

theorem cancelerInvariant_newTransferProposer : newTransferProposer.CancelerInvariant :=
  ⟨fun p r i => by simp [cancelerAt, newTransferProposer, IsLatest, keyAt],
    fun p c h => by simp [newTransferProposer] at h⟩

/-- **A step that stops at most one proposal, `c`, keeps the invariant** if it keeps what each
proposal is for, removes `c`'s canceler wherever the map holds it, and changes no other
entry. -/
theorem CancelerInvariant.of_kill (h : tp.CancelerInvariant) (c : Option Nat)
    (hkey : ∀ p r i, tp'.IsLatest p r i ↔ tp.IsLatest p r i)
    (hlive : ∀ j, tp'.LiveAt j ↔ tp.LiveAt j ∧ c ≠ some j)
    (hremoved : ∀ p r j, c = some j → tp.cancelerAt p r = some j → tp'.cancelerAt p r = none)
    (hkept : ∀ p r, (∀ j, c = some j → tp.cancelerAt p r ≠ some j) →
      tp'.cancelerAt p r = tp.cancelerAt p r)
    (hpos : ∀ p cancelers, tp'.transferCancelers.get? p = some cancelers → 0 < cancelers.len) :
    tp'.CancelerInvariant := by
  refine ⟨fun p r i => ?_, hpos⟩
  rw [hkey, hlive]
  by_cases hc : ∃ j, c = some j ∧ tp.cancelerAt p r = some j
  · obtain ⟨j, hcj, hj⟩ := hc
    rw [hremoved p r j hcj hj]
    have hlj := ((h.cancelerAt_iff p r j).1 hj).1
    exact ⟨(nomatch ·), fun ⟨hli, _, hne⟩ =>
      (hne (hcj.trans (congrArg some (hli.unique hlj).symm))).elim⟩
  · push_neg at hc
    rw [hkept p r hc, h.cancelerAt_iff]
    exact ⟨fun ⟨hl, hlv⟩ => ⟨hl, hlv, fun hci => hc i hci ((h.cancelerAt_iff p r i).2 ⟨hl, hlv⟩)⟩,
      fun ⟨hl, hlv, _⟩ => ⟨hl, hlv⟩⟩

theorem CancelerInvariant.queueTransferProposal (h : tp.CancelerInvariant) (p r : UInt64) :
    (tp.queueTransferProposal p r).CancelerInvariant := by
  have hget : ∀ j, (tp.queueTransferProposal p r).proposals[j]? =
      if j = tp.proposals.length then some ⟨p, r, false, false, .selecting⟩
      else tp.proposals[j]? := fun j => by
    rcases Nat.lt_trichotomy j tp.proposals.length with hj | rfl | hj
    · simp [List.getElem?_append_left hj, Nat.ne_of_lt hj]
    · simp
    · rw [List.getElem?_eq_none (by simp; omega), List.getElem?_eq_none (by omega),
        if_neg (Nat.ne_of_gt hj)]
  have hkey : ∀ j, (tp.queueTransferProposal p r).keyAt j =
      if j = tp.proposals.length then some (p, r) else tp.keyAt j := fun j => by
    simp only [keyAt, hget]
    split <;> rfl
  -- the new proposal is the latest for its replica, and for no other
  have hlatest : ∀ p' r' i, (tp.queueTransferProposal p r).IsLatest p' r' i ↔
      if p' = p ∧ r' = r then i = tp.proposals.length else tp.IsLatest p' r' i := fun p' r' i => by
    split_ifs with hpr
    · obtain ⟨rfl, rfl⟩ := hpr
      constructor
      · rintro ⟨hi, hnewer⟩
        by_contra hin
        rw [hkey, if_neg hin] at hi
        exact hnewer _ (lt_length_of_keyAt hi) (by simp [hkey])
      · rintro rfl
        refine ⟨by simp [hkey], fun j hj => ?_⟩
        rw [hkey, if_neg (Nat.ne_of_gt hj), keyAt_eq_none (Nat.le_of_lt hj)]
        simp
    · have hne : ∀ j, (tp.queueTransferProposal p r).keyAt j = some (p', r') ↔
          tp.keyAt j = some (p', r') := fun j => by
        rw [hkey]
        split_ifs with hj
        · subst hj
          simp only [keyAt_eq_none (le_refl _), reduceCtorEq, iff_false, Option.some.injEq,
            Prod.mk.injEq]
          exact fun ⟨h₁, h₂⟩ => hpr ⟨h₁.symm, h₂.symm⟩
        · rfl
      simp only [IsLatest, ne_eq, hne]
  have hlive : ∀ i, (tp.queueTransferProposal p r).LiveAt i ↔
      i = tp.proposals.length ∨ tp.LiveAt i := fun i => by
    simp only [LiveAt, hget]
    split_ifs with hi <;> simp [hi, Proposal.Live]
  refine ⟨fun p' r' i => ?_, len_pos_queueTransferProposal h.len_pos⟩
  rw [cancelerAt_queueTransferProposal, hlatest, hlive]
  split_ifs with hpr
  · constructor
    · rintro ⟨⟩
      exact ⟨rfl, .inl rfl⟩
    · rintro ⟨rfl, -⟩
      rfl
  · rw [h.cancelerAt_iff]
    exact and_congr_right fun hl => (or_iff_right (Nat.ne_of_lt hl.lt_length)).symm

theorem CancelerInvariant.cancelTransferProposal (h : tp.CancelerInvariant) (p r : UInt64) :
    (tp.cancelTransferProposal p r).CancelerInvariant := by
  refine h.of_kill (tp.cancelerAt p r) (fun _ _ _ => isLatest_congr ?_
    fun j => getElem?_cancelTransferProposal) (fun j => ?_) (fun p' r' j hc hj => ?_)
    (fun p' r' hc => ?_) (len_pos_removeCanceler h.len_pos p r)
  · intro j q
    split <;> simp
  · rw [liveAt_iff getElem?_cancelTransferProposal]
    by_cases hc : tp.cancelerAt p r = some j
    · simp [hc, Proposal.Live]
    · simp [hc, LiveAt]
  · obtain ⟨rfl, rfl⟩ := (((h.cancelerAt_iff p r j).1 hc).1).key_eq ((h.cancelerAt_iff p' r' j).1 hj).1
    simp [cancelerAt, bind_get?_removeCanceler]
  · simp only [cancelerAt, transferCancelers_cancelTransferProposal, bind_get?_removeCanceler]
    split_ifs with hpr
    · obtain ⟨rfl, rfl⟩ := hpr
      cases hp : tp.cancelerAt p' r' with
      | none => exact hp.symm
      | some j => exact absurd hp (hc j hp)
    · rfl

theorem CancelerInvariant.cancelTransferProposals (h : tp.CancelerInvariant) (p : UInt64) :
    (tp.cancelTransferProposals p).CancelerInvariant := by
  unfold TransferProposer.cancelTransferProposals
  generalize ((tp.transferCancelers.get? p).map GoMap.keys).getD [] = replicas
  induction replicas generalizing tp with
  | nil => exact h
  | cons r replicas ih => exact ih (h.cancelTransferProposal p r)

/-- `after` firing and `select` taking a case stop no live proposal and touch no canceler. -/
theorem CancelerInvariant.of_goroutine (h : tp.CancelerInvariant) {f : Proposal → Proposal}
    (hf : ∀ q, (f q).partition = q.partition ∧ (f q).replica = q.replica)
    (hlive : ∀ q ∈ tp.proposals[i]?, ((f q).Live ↔ q.Live))
    (hmap : tp'.transferCancelers = tp.transferCancelers)
    (hget : ∀ j, tp'.proposals[j]? = (tp.proposals[j]?).map fun q => if i = j then f q else q) :
    tp'.CancelerInvariant := by
  refine h.of_kill none (fun _ _ _ => isLatest_congr (fun j q => ?_) hget) (fun j => ?_)
    (fun _ _ _ hc => nomatch hc) (fun p r _ => by simp [cancelerAt, hmap]) (hmap ▸ h.len_pos)
  · split
    · exact hf q
    · exact ⟨rfl, rfl⟩
  · rw [liveAt_iff (hget j), LiveAt]
    by_cases hij : i = j
    · subst hij
      simp only [if_true]
      exact ⟨fun ⟨q, hq, hl⟩ => ⟨⟨q, hq, (hlive q hq).1 hl⟩, nofun⟩,
        fun ⟨⟨q, hq, hl⟩, _⟩ => ⟨q, hq, (hlive q hq).2 hl⟩⟩
    · simp [hij]

theorem CancelerInvariant.finishCommand (h : tp.CancelerInvariant) (hs : tp.step (.finishCommand i) = some tp') :
    tp'.CancelerInvariant := by
  obtain ⟨q, hq, -, rfl⟩ := step_finishCommand.1 hs
  have hget : ∀ j, ((tp.setPc i .finished).cleanup i q.partition q.replica).proposals[j]? =
      (tp.proposals[j]?).map fun q => if i = j then { q with pc := .finished } else q :=
    fun j => by rw [proposals_cleanup, getElem?_setPc]
  have hkey : tp.keyAt i = some (q.partition, q.replica) := by simp [keyAt, hq]
  refine h.of_kill (some i) (fun _ _ _ => isLatest_congr (fun j q => ?_) hget) (fun j => ?_)
    (fun p r j hc hj => ?_) (fun p r hc => ?_) ?_
  · split <;> exact ⟨rfl, rfl⟩
  · rw [liveAt_iff (hget j)]
    by_cases hij : i = j
    · subst hij
      simp [Proposal.Live, LiveAt]
    · simp [hij, LiveAt]
  · cases hc
    have hl := ((h.cancelerAt_iff p r i).1 hj).1
    obtain ⟨rfl, rfl⟩ : q.partition = p ∧ q.replica = r := by
      simpa [hkey] using hl.1
    rw [cancelerAt, transferCancelers_cleanup, cancelerAt_setPc, if_pos hj,
      transferCancelers_setPc, bind_get?_removeCanceler, if_pos ⟨rfl, rfl⟩]
  · rw [cancelerAt, transferCancelers_cleanup, cancelerAt_setPc, transferCancelers_setPc]
    split_ifs with hi
    · rw [bind_get?_removeCanceler, if_neg]
      · rfl
      rintro ⟨rfl, rfl⟩
      exact hc i rfl hi
    · rfl
  · rw [transferCancelers_cleanup]
    split
    · exact len_pos_removeCanceler h.len_pos _ _
    · exact h.len_pos

/-- **Every step keeps the invariant.** -/
theorem CancelerInvariant.step (h : tp.CancelerInvariant) {e : ProposerEvent}
    (hs : tp.step e = some tp') : tp'.CancelerInvariant := by
  cases e with
  | queueTransferProposal p r => cases hs; exact h.queueTransferProposal p r
  | cancelTransferProposal p r => cases hs; exact h.cancelTransferProposal p r
  | cancelTransferProposals p => cases hs; exact h.cancelTransferProposals p
  | fireAfter i =>
    obtain ⟨-, rfl⟩ := step_fireAfter.1 hs
    exact h.of_goroutine (i := i) (f := fun q => { q with afterReady := true })
      (fun _ => ⟨rfl, rfl⟩) (fun _ _ => Iff.rfl) rfl fun j => List.getElem?_modify ..
  | takeAfter i =>
    obtain ⟨q, hq, hpc, -, rfl⟩ := step_takeAfter.1 hs
    exact h.of_goroutine (f := fun q => { q with pc := .commanding }) (fun _ => ⟨rfl, rfl⟩)
      (fun q' hq' => by cases hq.symm.trans hq'; simp [Proposal.Live, hpc]) rfl
      fun j => getElem?_setPc _
  | takeDone i =>
    obtain ⟨q, hq, -, hdone, rfl⟩ := step_takeDone.1 hs
    exact h.of_goroutine (f := fun q => { q with pc := .returned }) (fun _ => ⟨rfl, rfl⟩)
      (fun q' hq' => by cases hq.symm.trans hq'; simp [Proposal.Live, hdone]) rfl
      fun j => getElem?_setPc _
  | finishCommand i => exact h.finishCommand hs

theorem CancelerInvariant.run (h : tp.CancelerInvariant) (events : List ProposerEvent)
    (hr : tp.run events = some tp') : tp'.CancelerInvariant := by
  induction events generalizing tp with
  | nil => cases hr; exact h
  | cons e events ih =>
    rw [run_cons] at hr
    cases hs : tp.step e with
    | none => simp [hs] at hr
    | some tp₁ => exact ih (h.step hs) (by simpa [hs] using hr)

/-! ### What the methods report -/

theorem CancelerInvariant.pendingProposals_eq (h : tp.CancelerInvariant) (p : UInt64) :
    tp.pendingProposals p = (tp.liveReplicas p).length := by
  -- both count the replicas with a live latest proposal, each once
  have hmem : ∀ r, r ∈ tp.liveReplicas p ↔ (tp.cancelerAt p r).isSome := fun r => by
    simp only [liveReplicas, List.mem_filter, List.mem_dedup, List.mem_map,
      decide_eq_true_eq, Option.isSome_iff_exists, h.cancelerAt_iff]
    constructor
    · rintro ⟨-, i, -, hl⟩
      exact ⟨i, hl⟩
    · rintro ⟨i, hl, hlv⟩
      obtain ⟨q, hq, hkey⟩ := Option.map_eq_some'.1 hl.1
      obtain ⟨-, rfl⟩ := Prod.mk.inj hkey
      exact ⟨⟨q, List.getElem?_mem hq, rfl⟩, i, hl.lt_length, hl, hlv⟩
  unfold pendingProposals
  cases hp : tp.transferCancelers.get? p with
  | none =>
    refine (List.length_eq_zero.2 (List.eq_nil_iff_forall_not_mem.2 fun r hr => ?_)).symm
    simpa [cancelerAt, hp] using (hmem r).1 hr
  | some cancelers =>
    rw [Option.map_some', Option.getD_some, GoMap.len_eq_keys_length]
    refine ((List.perm_ext_iff_of_nodup cancelers.nodupKeys
      ((List.nodup_dedup _).filter _)).2 fun r => ?_).length_eq
    change r ∈ cancelers.keys ↔ r ∈ tp.liveReplicas p
    rw [hmem, GoMap.mem_keys]
    simp [cancelerAt, hp]

theorem bind_get?_queuedProposals (p r : UInt64) :
    (tp.queuedProposals.get? p).bind (·.get? r) = (tp.cancelerAt p r).map fun _ => true := by
  have hfold := GoMap.get?_foldl_set_entries (k := p) _ tp.transferCancelers.nodupKeys .empty
    fun cancelers : GoMap UInt64 Nat => cancelers.keys.foldl
      (fun (replicas : GoMap UInt64 Bool) replica => replicas.set replica true) .empty
  unfold queuedProposals cancelerAt
  rw [hfold]
  cases hp : tp.transferCancelers.get? p with
  | none => rw [show tp.transferCancelers.entries.lookup p = none from hp]; rfl
  | some cancelers =>
    rw [show tp.transferCancelers.entries.lookup p = some cancelers from hp]
    simp only [Option.some_bind, GoMap.get?_foldl_set_const, GoMap.mem_keys, GoMap.get?_empty]
    cases cancelers.get? r <;> rfl

theorem CancelerInvariant.cleanup_keeps_newer (h : tp.CancelerInvariant)
    (hs : tp.step (.finishCommand i) = some tp') (hnewer : ∃ j, i < j ∧ tp.keyAt j = tp.keyAt i) :
    tp'.transferCancelers = tp.transferCancelers := by
  obtain ⟨q, hq, -, rfl⟩ := step_finishCommand.1 hs
  rw [transferCancelers_cleanup, if_neg]
  · rfl
  intro hi
  obtain ⟨j, hij, hj⟩ := hnewer
  have hl := ((h.cancelerAt_iff _ _ i).1 hi).1
  exact hl.2 j hij (hj.trans hl.1)

/-- **In every reachable state the map holds exactly the live latest proposals**: a canceler
for `(p, r)` exactly when the latest proposal for it has been neither cancelled nor cleaned
up after, and then that proposal's; no partition maps to an empty map. `PendingProposals(p)`
counts the replicas of `p` with a live latest proposal, `QueuedProposals()` reports exactly
those, and the cleanup of a proposal that a newer one for the same replica replaced leaves
the map as it is. -/
theorem run_transferCancelers_exact (events : List ProposerEvent) (tp : TransferProposer)
    (h : newTransferProposer.run events = some tp) :
    (∀ p r i, tp.cancelerAt p r = some i ↔ tp.IsLatest p r i ∧ tp.LiveAt i) ∧
      (∀ p cancelers, tp.transferCancelers.get? p = some cancelers → 0 < cancelers.len) ∧
      (∀ p, tp.pendingProposals p = (tp.liveReplicas p).length) ∧
      (∀ p r v, (tp.queuedProposals.get? p).bind (·.get? r) = some v ↔
        v = true ∧ ∃ i, tp.IsLatest p r i ∧ tp.LiveAt i) ∧
      ∀ i tp', tp.step (.finishCommand i) = some tp' → (∃ j, i < j ∧ tp.keyAt j = tp.keyAt i) →
        tp'.transferCancelers = tp.transferCancelers := by
  have hinv := cancelerInvariant_newTransferProposer.run events h
  refine ⟨hinv.cancelerAt_iff, hinv.len_pos, hinv.pendingProposals_eq, fun p r v => ?_,
    fun i tp' hs hn => hinv.cleanup_keeps_newer hs hn⟩
  simp only [bind_get?_queuedProposals, Option.map_eq_some', ← hinv.cancelerAt_iff]
  exact ⟨fun ⟨i, hi, hv⟩ => ⟨hv.symm, i, hi⟩, fun ⟨hv, i, hi⟩ => ⟨i, hi, hv.symm⟩⟩

/-- Two proposals for one replica, the first replaced by the second and the second
cancelled, then a third for another replica. -/
theorem run_transferCancelers_exact_of_requeue :
    ∃ tp, newTransferProposer.run [.queueTransferProposal 0 0, .queueTransferProposal 0 0,
        .cancelTransferProposal 0 0, .queueTransferProposal 0 1] = some tp ∧
      (∀ p r i, tp.cancelerAt p r = some i ↔ tp.IsLatest p r i ∧ tp.LiveAt i) ∧
      (∀ p cancelers, tp.transferCancelers.get? p = some cancelers → 0 < cancelers.len) ∧
      (∀ p, tp.pendingProposals p = (tp.liveReplicas p).length) ∧
      (∀ p r v, (tp.queuedProposals.get? p).bind (·.get? r) = some v ↔
        v = true ∧ ∃ i, tp.IsLatest p r i ∧ tp.LiveAt i) ∧
      ∀ i tp', tp.step (.finishCommand i) = some tp' → (∃ j, i < j ∧ tp.keyAt j = tp.keyAt i) →
        tp'.transferCancelers = tp.transferCancelers :=
  match h : newTransferProposer.run [.queueTransferProposal 0 0, .queueTransferProposal 0 0,
      .cancelTransferProposal 0 0, .queueTransferProposal 0 1] with
  | some tp => ⟨tp, rfl, run_transferCancelers_exact _ tp h⟩
  | none => absurd h (by decide)

/-! ### `CancelTransferProposals` -/

theorem cancelerAt_cancelTransferProposal :
    (tp.cancelTransferProposal p r).cancelerAt p' r' =
      if p' = p ∧ r' = r then none else tp.cancelerAt p' r' := by
  simp only [cancelerAt, transferCancelers_cancelTransferProposal, bind_get?_removeCanceler]

/-- The loop of `CancelTransferProposals` over the replicas `rs` removes their cancelers and
no other. -/
theorem cancelerAt_foldl_cancelTransferProposal (rs : List UInt64) (tp : TransferProposer) :
    (rs.foldl (fun tp r => tp.cancelTransferProposal p r) tp).cancelerAt p' r' =
      if p' = p ∧ r' ∈ rs then none else tp.cancelerAt p' r' := by
  induction rs generalizing tp with
  | nil => simp
  | cons r rs ih =>
    rw [List.foldl_cons, ih, cancelerAt_cancelTransferProposal]
    by_cases hp : p' = p <;> by_cases hr : r' = r <;> simp [hp, hr]

/-- `CancelTransferProposals(p)` removes every canceler of `p` and no other: its loop visits
every replica that holds one. -/
theorem cancelerAt_cancelTransferProposals :
    (tp.cancelTransferProposals p).cancelerAt p' r =
      if p' = p then none else tp.cancelerAt p' r := by
  rw [cancelTransferProposals, cancelerAt_foldl_cancelTransferProposal]
  by_cases hp' : p' = p
  · subst hp'
    cases hp : tp.transferCancelers.get? p' with
    | none => simp [cancelerAt, hp]
    | some cancelers =>
      by_cases hr : r ∈ cancelers.keys
      · simp [hp, hr]
      · simp [cancelerAt, hp, hr, GoMap.get?_eq_none_iff.2 hr]
  · simp [hp']

/-- The loop leaves a proposal of another partition alone: the canceler it finds for
`(p, r)` is that of a proposal for `(p, r)`. -/
theorem getElem?_foldl_cancelTransferProposal (rs : List UInt64) (h : tp.CancelerInvariant)
    {q : Proposal} (hq : tp.proposals[j]? = some q) (hqp : q.partition ≠ p) :
    (rs.foldl (fun tp r => tp.cancelTransferProposal p r) tp).proposals[j]? = some q := by
  induction rs generalizing tp with
  | nil => exact hq
  | cons r rs ih =>
    refine ih (h.cancelTransferProposal p r) ?_
    rw [getElem?_cancelTransferProposal, hq, Option.map_some', if_neg]
    intro hc
    have hkey := ((h.cancelerAt_iff p r j).1 hc).1.1
    simp only [keyAt, hq, Option.map_some', Option.some.injEq, Prod.mk.injEq] at hkey
    exact hqp hkey.1

/-- **`CancelTransferProposals(p)` stops partition `p` and nothing else.** In every reachable
state, once it returns no proposal of `p` is pending, the latest proposal for each replica of
`p` is no longer live, and every other partition keeps its cancelers and its proposals. -/
theorem cancelTransferProposals_stops_partition (events : List ProposerEvent)
    (tp : TransferProposer) (hrun : newTransferProposer.run events = some tp) (p : UInt64) :
    (tp.cancelTransferProposals p).pendingProposals p = 0 ∧
      (∀ r i, (tp.cancelTransferProposals p).IsLatest p r i →
        ¬ (tp.cancelTransferProposals p).LiveAt i) ∧
      (∀ p', p' ≠ p → ∀ r, (tp.cancelTransferProposals p).cancelerAt p' r = tp.cancelerAt p' r) ∧
      ∀ (j : Nat) (q : Proposal), tp.proposals[j]? = some q → q.partition ≠ p →
        (tp.cancelTransferProposals p).proposals[j]? = some q := by
  have h := cancelerInvariant_newTransferProposer.run events hrun
  have h' := h.cancelTransferProposals p
  have hnone : ∀ r, (tp.cancelTransferProposals p).cancelerAt p r = none := fun r => by
    rw [cancelerAt_cancelTransferProposals, if_pos rfl]
  refine ⟨?_, fun r i hl hlv => (nomatch (hnone r).symm.trans ((h'.cancelerAt_iff p r i).2
    ⟨hl, hlv⟩)), fun p' hp' r => by rw [cancelerAt_cancelTransferProposals, if_neg hp'],
      fun j q hq hqp => getElem?_foldl_cancelTransferProposal _ h hq hqp⟩
  -- a map left for `p` would hold a canceler
  unfold pendingProposals
  cases hp : (tp.cancelTransferProposals p).transferCancelers.get? p with
  | none => rfl
  | some cancelers =>
    obtain ⟨r, hr⟩ := GoMap.len_pos_iff.1 (h'.len_pos p cancelers hp)
    have := hnone r
    simp only [cancelerAt, hp, Option.some_bind] at this
    simp [this] at hr

/-- Two proposals for partition `0` and one for partition `1`, then `CancelTransferProposals(0)`. -/
theorem cancelTransferProposals_stops_partition_of_two_partitions :
    ∃ tp, newTransferProposer.run [.queueTransferProposal 0 0, .queueTransferProposal 0 1,
        .queueTransferProposal 1 0] = some tp ∧
      ((tp.cancelTransferProposals 0).pendingProposals 0 = 0 ∧
        (∀ r i, (tp.cancelTransferProposals 0).IsLatest 0 r i →
          ¬ (tp.cancelTransferProposals 0).LiveAt i) ∧
        (∀ p', p' ≠ 0 → ∀ r, (tp.cancelTransferProposals 0).cancelerAt p' r =
          tp.cancelerAt p' r) ∧
        ∀ (j : Nat) (q : Proposal), tp.proposals[j]? = some q → q.partition ≠ 0 →
          (tp.cancelTransferProposals 0).proposals[j]? = some q) :=
  match h : newTransferProposer.run [.queueTransferProposal 0 0, .queueTransferProposal 0 1,
      .queueTransferProposal 1 0] with
  | some tp => ⟨tp, rfl, cancelTransferProposals_stops_partition _ tp h 0⟩
  | none => absurd h (by decide)

/-! ### Cancelling does not stop every waiting proposal -/

/-- **A waiting proposal calls `ClusterCommand` after a cancel of its replica returns.** A
second `QueueTransferProposal(0, 0)` replaces the first proposal's canceler, so
`CancelTransferProposal(0, 0)` cancels only the second: the first still waits in its `select`
with a live context, and once its `after` fires it calls `ClusterCommand`. A proposal whose
context the cancel did reach can also take `after`, when both cases of its `select` are
ready. -/
theorem requeued_proposal_commands_after_cancel :
    (newTransferProposer.run [.queueTransferProposal 0 0, .queueTransferProposal 0 0,
        .cancelTransferProposal 0 0]).bind (·.proposals[0]?) =
        some ⟨0, 0, false, false, .selecting⟩ ∧
      (newTransferProposer.run [.queueTransferProposal 0 0, .queueTransferProposal 0 0,
        .cancelTransferProposal 0 0, .fireAfter 0, .takeAfter 0]).bind (·.proposals[0]?) =
        some ⟨0, 0, true, false, .commanding⟩ ∧
      (newTransferProposer.run [.queueTransferProposal 0 0, .cancelTransferProposal 0 0]).bind
        (·.proposals[0]?) = some ⟨0, 0, false, true, .selecting⟩ ∧
      (newTransferProposer.run [.queueTransferProposal 0 0, .cancelTransferProposal 0 0,
        .fireAfter 0, .takeAfter 0]).bind (·.proposals[0]?) =
        some ⟨0, 0, true, true, .commanding⟩ := by
  decide

end TransferProposer

end DeviceDB
