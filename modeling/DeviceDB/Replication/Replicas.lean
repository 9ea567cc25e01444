import DeviceDB.Data.Converge

/-!
# The replicas of one key

Every replica that holds a key holds the key's sibling set. A batch at a replica writes a new
sibling: its clock is `Event(context, replica)` for the client's context, and it replaces every
sibling whose clock happened before it (`Discard`). A replica merges the set another replica
sends it with `Sync`. The batch path and the replication transport are not in the source files,
so these two steps are modelled from the specification, over the operations of `siblingSet.go`.

`Event`'s counter is `s + 1` in `uint64` and wraps at `2^64 - 1` (`event_counter_wraps`), so
what follows holds of the runs in which no write wraps its counter (`RunHasRoom`).

* `Inv`: every replica's set is an antichain of well-formed siblings, the replica that wrote a
  sibling covers it, and two siblings with equal clocks are the same sibling wherever they are
  held. `Inv.step` carries it across a write, whose dot lies beyond every dot its writer covers
  and so beyond every sibling of that writer anywhere, and across a merge.
* `run_inv`: the invariant holds in every run.
* `run_keeps_writes`: no replica loses a write. A sibling it holds stays held, or superseded by
  one it holds, for the rest of the run, and so does every sibling of a set it merged.
* `exchange_converges`: two replicas that merge each other's sets, one after the other, hold the
  same siblings: those of either set that no sibling of either set happened after.
-/

namespace DeviceDB

namespace SiblingSet

/-- Modelled from the spec: a batch writes `value` at `timestamp` at `replica` with the client's
`context`. The new sibling's clock is `Event(context, replica)`, and it replaces every sibling
whose clock happened before it. -/
def write (S : SiblingSet) (context : GoMap String UInt64) (replica : String)
    (value : Option (List UInt8)) (timestamp : UInt64) : SiblingSet :=
  (S.discard (S.event context replica)).sync ⟨[⟨S.event context replica, value, timestamp⟩]⟩

variable {S X Y : SiblingSet} {C : GoMap String UInt64} {r : String} {v : Option (List UInt8)}
  {ts : UInt64} {t : Sibling} {c : DVV}

theorem mem_write (hS : S.Antichain) (hs : S.latestCount C r < 18446744073709551615) :
    t ∈ S.write C r v ts ↔ t ∈ S.discard (S.event C r) ∨ t = ⟨S.event C r, v, ts⟩ :=
  (event_write_sound S C r v ts hS hs).2.2.1 t

/-- A write keeps every sibling of the set, or the new one, which happened after it. -/
theorem covers_write (hS : S.Antichain) (hs : S.latestCount C r < 18446744073709551615)
    (ht : t ∈ S) : (S.write C r v ts).Covers t.clock := by
  by_cases h : t.clock.HappenedBefore (S.event C r)
  · exact ⟨_, (mem_write hS hs).2 (.inr rfl), .inl h⟩
  · exact ⟨t, (mem_write hS hs).2 (.inl (mem_discard.2 ⟨ht, h⟩)), .inr (.refl _)⟩

/-- A merge keeps every sibling of either set, or one that covers it. -/
theorem covers_sync (hX : X.Antichain) (hY : Y.Antichain) (ht : t ∈ X ∨ t ∈ Y) :
    (X.sync Y).Covers t.clock := by
  by_cases h : t ∈ X.sync Y
  · exact ⟨t, h, .inr (.refl _)⟩
  · exact covered_of_not_mem_sync hX hY ht h

theorem Covers.trans (h : S.Covers c) (hSX : ∀ u ∈ S, X.Covers u.clock) : X.Covers c := by
  obtain ⟨u, hu, hcu⟩ := h
  obtain ⟨w, hw, huw⟩ := hSX u hu
  exact ⟨w, hw, hcu.trans huw⟩

/-- A covered clock's dot is recorded by a sibling of the set, in its `MaxDot`. -/
theorem Covers.exists_counter_le (h : S.Covers c) :
    ∃ u ∈ S, c.dot.counter ≤ u.clock.maxDot c.dot.replicaID := by
  obtain ⟨u, hu, hb | he⟩ := h
  · exact ⟨u, hu, UInt64.le_trans hb.2.1 (u.clock.ctx_le_maxDot _)⟩
  · exact ⟨u, hu, he.1 ▸ u.clock.counter_le_maxDot⟩

end SiblingSet

/-- Modelled from the spec: the sibling set each replica holds of one key. -/
structure Replicas where
  siblings : String → SiblingSet

/-- What can happen to the key next. -/
inductive ReplicaEvent
  /-- a batch at `replica` writes `value` at `timestamp` with the client's `context` -/
  | write (replica : String) (context : GoMap String UInt64) (value : Option (List UInt8))
      (timestamp : UInt64)
  /-- `replica` merges the set `peer` sent it -/
  | merge (replica peer : String)

/-- The replica whose set the event changes. -/
def ReplicaEvent.replica : ReplicaEvent → String
  | .write replica _ _ _ => replica
  | .merge replica _ => replica

namespace Replicas

/-- No replica holds the key yet. -/
def initial : Replicas := ⟨fun _ => .empty⟩

/-- The set the event leaves at its replica. -/
def after (st : Replicas) : ReplicaEvent → SiblingSet
  | .write replica context value timestamp =>
    (st.siblings replica).write context replica value timestamp
  | .merge replica peer => (st.siblings replica).sync (st.siblings peer)

/-- The sibling a write adds, if the event is a write. -/
def newSibling (st : Replicas) : ReplicaEvent → Option Sibling
  | .write replica context value timestamp =>
    some ⟨(st.siblings replica).event context replica, value, timestamp⟩
  | .merge _ _ => none

def step (st : Replicas) (e : ReplicaEvent) : Replicas :=
  ⟨Function.update st.siblings e.replica (st.after e)⟩

def run (st : Replicas) (events : List ReplicaEvent) : Replicas :=
  events.foldl step st

/-- The event's write, if it is one, does not wrap its counter `s + 1`. -/
def HasRoom (st : Replicas) : ReplicaEvent → Prop
  | .write replica context _ _ =>
    (st.siblings replica).latestCount context replica < 18446744073709551615
  | .merge _ _ => True

instance (st : Replicas) : (e : ReplicaEvent) → Decidable (st.HasRoom e)
  | .write .. => inferInstanceAs (Decidable (_ < _))
  | .merge .. => inferInstanceAs (Decidable True)

/-- No write of the run wraps its counter. -/
def RunHasRoom : Replicas → List ReplicaEvent → Prop
  | _, [] => True
  | st, e :: events => st.HasRoom e ∧ RunHasRoom (st.step e) events

instance decRunHasRoom : (st : Replicas) → (events : List ReplicaEvent) →
    Decidable (RunHasRoom st events)
  | _, [] => inferInstanceAs (Decidable True)
  | st, e :: events =>
    have := decRunHasRoom (st.step e) events
    inferInstanceAs (Decidable (_ ∧ _))

variable {st : Replicas} {e : ReplicaEvent} {events : List ReplicaEvent} {a : String}
  {t σ : Sibling}

theorem siblings_step :
    (st.step e).siblings a = if a = e.replica then st.after e else st.siblings a :=
  Function.update_apply _ _ _ _

theorem siblings_step_of_eq (h : a = e.replica) : (st.step e).siblings a = st.after e := by
  rw [siblings_step, if_pos h]

theorem siblings_step_of_ne (h : a ≠ e.replica) : (st.step e).siblings a = st.siblings a := by
  rw [siblings_step, if_neg h]

theorem run_append (events events' : List ReplicaEvent) :
    st.run (events ++ events') = (st.run events).run events' :=
  List.foldl_append _ _ _ _

theorem runHasRoom_append {events' : List ReplicaEvent} :
    RunHasRoom st (events ++ events') ↔ RunHasRoom st events ∧ RunHasRoom (st.run events) events' := by
  induction events generalizing st with
  | nil => simp [RunHasRoom, run]
  | cons e events ih =>
    show st.HasRoom e ∧ RunHasRoom (st.step e) (events ++ events') ↔ _
    rw [ih]
    simp only [RunHasRoom, run, List.foldl_cons, and_assoc]

/-! ### The invariant -/

/-- What every state of a run with room satisfies. -/
structure Inv (st : Replicas) : Prop where
  /-- every replica's set is an antichain -/
  antichain : ∀ a, (st.siblings a).Antichain
  /-- every clock is one `Event` built -/
  wellFormed : ∀ a, ∀ s ∈ st.siblings a, s.clock.WellFormed
  /-- the replica that wrote a sibling covers it -/
  writer_covers : ∀ a, ∀ s ∈ st.siblings a, (st.siblings s.clock.dot.replicaID).Covers s.clock
  /-- siblings with equal clocks are the same sibling, wherever they are held -/
  unique : ∀ a b, ∀ s ∈ st.siblings a, ∀ t ∈ st.siblings b, s.clock.Equals t.clock → s = t

theorem inv_initial : initial.Inv where
  antichain _ _ h := absurd h SiblingSet.not_mem_empty
  wellFormed _ _ h := absurd h SiblingSet.not_mem_empty
  writer_covers _ _ h := absurd h SiblingSet.not_mem_empty
  unique _ _ _ h := absurd h SiblingSet.not_mem_empty

section Step

variable (h : st.Inv) (hroom : st.HasRoom e)
include h hroom

theorem antichain_after : (st.after e).Antichain := by
  cases e with
  | write r C v ts => exact (SiblingSet.event_write_sound _ C r v ts (h.antichain r) hroom).2.2.2
  | merge r p => exact SiblingSet.antichain_sync (h.antichain r) (h.antichain p)

/-- The event's replica covers afterwards every sibling it held. -/
theorem covers_after (ht : t ∈ st.siblings e.replica) : (st.after e).Covers t.clock := by
  cases e with
  | write r C v ts => exact SiblingSet.covers_write (h.antichain r) hroom ht
  | merge r p => exact SiblingSet.covers_sync (h.antichain r) (h.antichain p) (.inl ht)

/-- Each sibling of the event's new set was held somewhere, or is the write's new sibling. -/
theorem mem_after (ht : t ∈ st.after e) : (∃ b, t ∈ st.siblings b) ∨ st.newSibling e = some t := by
  cases e with
  | write r C v ts =>
    rcases (SiblingSet.mem_write (h.antichain r) hroom).1 ht with ht | rfl
    exacts [.inl ⟨r, (SiblingSet.mem_discard.1 ht).1⟩, .inr rfl]
  | merge r p => exact .inl ((SiblingSet.mem_or_mem_of_mem_sync ht).elim (⟨r, ·⟩) (⟨p, ·⟩))

/-- The write's new sibling is kept, has its writer's dot and a well-formed clock, and its dot
lies beyond every dot its writer covers, so no sibling held anywhere has its clock. -/
theorem newSibling_spec (hσ : st.newSibling e = some σ) :
    σ ∈ st.after e ∧ σ.clock.dot.replicaID = e.replica ∧ σ.clock.WellFormed ∧
      ∀ b, ∀ s ∈ st.siblings b, ¬ s.clock.Equals σ.clock := by
  cases e with
  | merge r p => cases hσ
  | write r C v ts =>
    cases hσ
    obtain ⟨hC, hmax⟩ := SiblingSet.lt_event_counter hroom
    refine ⟨(SiblingSet.mem_write (h.antichain r) hroom).2 (.inr rfl), rfl, hC, fun b s hs he => ?_⟩
    -- the sibling would carry the new dot, which its writer's set lies below
    obtain ⟨u, hu, hle⟩ := (h.writer_covers b s hs).exists_counter_le
    rw [he.1] at hu hle
    exact absurd (UInt64.lt_of_le_of_lt hle (hmax u hu)) (Nat.lt_irrefl _)

/-- Every replica covers afterwards every sibling it held. -/
theorem Inv.covers_step (a : String) (ht : t ∈ st.siblings a) :
    ((st.step e).siblings a).Covers t.clock := by
  rw [siblings_step]
  split
  · subst a; exact covers_after h hroom ht
  · exact ⟨t, ht, .inr (.refl _)⟩

theorem Inv.mem_step (ht : t ∈ (st.step e).siblings a) :
    (∃ b, t ∈ st.siblings b) ∨ st.newSibling e = some t := by
  rw [siblings_step] at ht
  split at ht
  exacts [mem_after h hroom ht, .inl ⟨a, ht⟩]

/-- **One step keeps the invariant.** -/
theorem Inv.step : (st.step e).Inv := by
  have hnew := fun {σ} (hσ : st.newSibling e = some σ) => newSibling_spec h hroom hσ
  refine ⟨fun a => ?_, fun a t ht => ?_, fun a t ht => ?_, fun a b s hs t ht hst => ?_⟩
  · rw [siblings_step]
    split
    exacts [antichain_after h hroom, h.antichain a]
  · rcases h.mem_step hroom ht with ⟨b, ht⟩ | hσ
    exacts [h.wellFormed b t ht, (hnew hσ).2.2.1]
  · rcases h.mem_step hroom ht with ⟨b, ht⟩ | hσ
    · exact (h.writer_covers b t ht).trans fun u hu => h.covers_step hroom _ hu
    · obtain ⟨hmem, hr, -⟩ := hnew hσ
      refine ⟨t, ?_, .inr (.refl _)⟩
      rw [hr, siblings_step_of_eq rfl]
      exact hmem
  · rcases h.mem_step hroom hs with ⟨b, hs⟩ | hs <;>
      rcases h.mem_step hroom ht with ⟨c, ht⟩ | ht
    · exact h.unique b c s hs t ht hst
    · exact absurd hst ((hnew ht).2.2.2 b s hs)
    · exact absurd hst.symm ((hnew hs).2.2.2 c t ht)
    · exact Option.some.inj (hs.symm.trans ht)

end Step

theorem Inv.run (h : st.Inv) (hroom : RunHasRoom st events) : (st.run events).Inv := by
  induction events generalizing st with
  | nil => exact h
  | cons e events ih => exact ih (h.step hroom.1) hroom.2

theorem Inv.covers_run (h : st.Inv) (hroom : RunHasRoom st events) (ht : t ∈ st.siblings a) :
    ((st.run events).siblings a).Covers t.clock := by
  induction events generalizing st t with
  | nil => exact ⟨t, ht, .inr (.refl _)⟩
  | cons e events ih =>
    exact (h.covers_step hroom.1 a ht).trans fun u hu => ih (h.step hroom.1) hroom.2 hu

/-! ### Every run -/

/-- **Every run keeps the replicas consistent.** In every run from no replica holding the key in
which no write wraps its counter, every replica's set is an antichain of well-formed siblings,
the replica that wrote a sibling holds it or one that happened after it, and two siblings with
equal clocks are the same sibling wherever they are held. -/
theorem run_inv (events : List ReplicaEvent) (hroom : RunHasRoom initial events) :
    (∀ a, ((initial.run events).siblings a).Antichain) ∧
      (∀ a, ∀ s ∈ (initial.run events).siblings a, s.clock.WellFormed) ∧
      (∀ a, ∀ s ∈ (initial.run events).siblings a,
        ((initial.run events).siblings s.clock.dot.replicaID).Covers s.clock) ∧
      ∀ a b, ∀ s ∈ (initial.run events).siblings a, ∀ t ∈ (initial.run events).siblings b,
        s.clock.Equals t.clock → s = t :=
  have h := inv_initial.run hroom
  ⟨h.antichain, h.wellFormed, h.writer_covers, h.unique⟩

/-- Two replicas write, then merge each other's sets. -/
theorem run_inv_of_two_writers :
    RunHasRoom initial [.write "a" .empty (some [1]) 1, .write "b" .empty (some [2]) 2,
      .merge "a" "b", .merge "b" "a"] ∧
    (∀ a, ((initial.run [.write "a" .empty (some [1]) 1, .write "b" .empty (some [2]) 2,
      .merge "a" "b", .merge "b" "a"]).siblings a).Antichain) ∧
      (∀ a, ∀ s ∈ (initial.run [.write "a" .empty (some [1]) 1, .write "b" .empty (some [2]) 2,
        .merge "a" "b", .merge "b" "a"]).siblings a, s.clock.WellFormed) ∧
      (∀ a, ∀ s ∈ (initial.run [.write "a" .empty (some [1]) 1, .write "b" .empty (some [2]) 2,
        .merge "a" "b", .merge "b" "a"]).siblings a,
        ((initial.run [.write "a" .empty (some [1]) 1, .write "b" .empty (some [2]) 2,
          .merge "a" "b", .merge "b" "a"]).siblings s.clock.dot.replicaID).Covers s.clock) ∧
      ∀ a b, ∀ s ∈ (initial.run [.write "a" .empty (some [1]) 1, .write "b" .empty (some [2]) 2,
          .merge "a" "b", .merge "b" "a"]).siblings a,
        ∀ t ∈ (initial.run [.write "a" .empty (some [1]) 1, .write "b" .empty (some [2]) 2,
          .merge "a" "b", .merge "b" "a"]).siblings b, s.clock.Equals t.clock → s = t :=
  ⟨by decide, run_inv _ (by decide)⟩

/-- **No replica loses a write.** In every run with room, a sibling a replica holds at some
point stays held by it, or superseded by one it holds, for the rest of the run; and once the
replica has merged another's set, so does every sibling of that set. -/
theorem run_keeps_writes (pre post : List ReplicaEvent) (hroom : RunHasRoom initial (pre ++ post))
    (a : String) :
    (∀ t ∈ (initial.run pre).siblings a,
        ((initial.run (pre ++ post)).siblings a).Covers t.clock) ∧
      ∀ p post', post = .merge a p :: post' → ∀ t ∈ (initial.run pre).siblings p,
        ((initial.run (pre ++ post)).siblings a).Covers t.clock := by
  rw [runHasRoom_append] at hroom
  have h := inv_initial.run hroom.1
  rw [run_append]
  refine ⟨fun t ht => h.covers_run hroom.2 ht, ?_⟩
  rintro p post' rfl t ht
  -- the merge covers the peer's sibling at `a`, and the rest of the run keeps it covered
  have hmerge : (((initial.run pre).step (.merge a p)).siblings a).Covers t.clock := by
    rw [siblings_step_of_eq (a := a) (e := .merge a p) rfl]
    exact SiblingSet.covers_sync (h.antichain a) (h.antichain p) (.inr ht)
  exact hmerge.trans fun u hu => (h.step hroom.2.1).covers_run hroom.2.2 hu

/-- `a` and `b` write, `a` merges the set of `b`, then writes again. -/
theorem run_keeps_writes_of_merged_peer :
    RunHasRoom initial ([.write "a" .empty (some [1]) 1, .write "b" .empty (some [2]) 2] ++
      [.merge "a" "b", .write "a" .empty (some [3]) 3]) ∧
    (∀ t ∈ (initial.run [.write "a" .empty (some [1]) 1, .write "b" .empty (some [2]) 2]).siblings "a",
        ((initial.run ([.write "a" .empty (some [1]) 1, .write "b" .empty (some [2]) 2] ++
          [.merge "a" "b", .write "a" .empty (some [3]) 3])).siblings "a").Covers t.clock) ∧
      ∀ p post', [ReplicaEvent.merge "a" "b", .write "a" .empty (some [3]) 3] =
          .merge "a" p :: post' →
        ∀ t ∈ (initial.run [.write "a" .empty (some [1]) 1,
            .write "b" .empty (some [2]) 2]).siblings p,
          ((initial.run ([.write "a" .empty (some [1]) 1, .write "b" .empty (some [2]) 2] ++
            [.merge "a" "b", .write "a" .empty (some [3]) 3])).siblings "a").Covers t.clock :=
  ⟨by decide, run_keeps_writes _ _ (by decide) "a"⟩

/-- `b` merging the merge of `a`'s set with its own: what is in either set and dominated by
neither. -/
theorem Inv.mem_sync_sync (h : st.Inv) (a b : String) :
    t ∈ (st.siblings b).sync ((st.siblings a).sync (st.siblings b)) ↔
      (t ∈ st.siblings a ∨ t ∈ st.siblings b) ∧
        ¬ (st.siblings a).Dominates t.clock ∧ ¬ (st.siblings b).Dominates t.clock := by
  have hA := h.antichain a
  have hB := h.antichain b
  rw [SiblingSet.mem_sync_of_uniqueClocks hB (SiblingSet.antichain_sync hA hB) fun s hs u hu =>
      (SiblingSet.mem_or_mem_of_mem_sync hu).elim (h.unique b a s hs u) (h.unique b b s hs u),
    SiblingSet.mem_sync_of_uniqueClocks hA hB (h.unique a b), SiblingSet.dominates_sync_iff hA hB]
  constructor
  · rintro ⟨hb | ⟨hab, -, -⟩, hdB, hd⟩
    exacts [⟨.inr hb, fun h => hd (.inl h), hdB⟩, ⟨hab, fun h => hd (.inl h), hdB⟩]
  · rintro ⟨hab, hdA, hdB⟩
    exact ⟨.inr ⟨hab, hdA, hdB⟩, hdB, fun h => h.elim hdA hdB⟩

/-- From a state with the invariant, `a` merges the set of `b` and then `b` that of `a`. -/
theorem Inv.exchange (h : st.Inv) (a b : String) :
    (t ∈ ((st.step (.merge a b)).step (.merge b a)).siblings a ↔
        t ∈ ((st.step (.merge a b)).step (.merge b a)).siblings b) ∧
      (t ∈ ((st.step (.merge a b)).step (.merge b a)).siblings b ↔
        (t ∈ st.siblings a ∨ t ∈ st.siblings b) ∧
          ¬ (st.siblings a).Dominates t.clock ∧ ¬ (st.siblings b).Dominates t.clock) := by
  have ha₁ : (st.step (.merge a b)).siblings a = (st.siblings a).sync (st.siblings b) :=
    siblings_step_of_eq rfl
  have hb : ((st.step (.merge a b)).step (.merge b a)).siblings b =
      ((st.step (.merge a b)).siblings b).sync ((st.step (.merge a b)).siblings a) :=
    siblings_step_of_eq rfl
  by_cases hab : a = b
  · subst hab
    -- one replica merging itself twice
    have hA := h.antichain a
    have hsync := SiblingSet.sync_self _ (SiblingSet.antichain_sync hA hA) t
    refine ⟨Iff.rfl, ?_⟩
    rw [hb, ha₁, hsync]
    exact SiblingSet.mem_sync_of_uniqueClocks hA hA (h.unique a a)
  · have hb₁ : (st.step (.merge a b)).siblings b = st.siblings b :=
      siblings_step_of_ne (Ne.symm hab)
    have ha : ((st.step (.merge a b)).step (.merge b a)).siblings a =
        (st.siblings a).sync (st.siblings b) :=
      (siblings_step_of_ne hab).trans ha₁
    rw [ha, hb, hb₁, ha₁]
    have hM := SiblingSet.mem_sync_of_uniqueClocks (t := t) (h.antichain a) (h.antichain b)
      (h.unique a b)
    exact ⟨hM.trans (h.mem_sync_sync a b).symm, h.mem_sync_sync a b⟩

/-- **Two replicas that merge each other's sets hold the same siblings.** In every run with
room, once `a` has merged the set of `b` and then `b` that of `a`, both hold exactly the
siblings of either set that no sibling of either set happened after. -/
theorem exchange_converges (events : List ReplicaEvent) (hroom : RunHasRoom initial events)
    (a b : String) (t : Sibling) :
    (t ∈ (((initial.run events).step (.merge a b)).step (.merge b a)).siblings a ↔
        t ∈ (((initial.run events).step (.merge a b)).step (.merge b a)).siblings b) ∧
      (t ∈ (((initial.run events).step (.merge a b)).step (.merge b a)).siblings b ↔
        (t ∈ (initial.run events).siblings a ∨ t ∈ (initial.run events).siblings b) ∧
          ¬ ((initial.run events).siblings a).Dominates t.clock ∧
          ¬ ((initial.run events).siblings b).Dominates t.clock) :=
  (inv_initial.run hroom).exchange a b

/-- `a` and `b` each write, then exchange their sets; the sibling `a` wrote. -/
theorem exchange_converges_of_two_writers :
    RunHasRoom initial [.write "a" .empty (some [1]) 1, .write "b" .empty (some [2]) 2] ∧
    ((⟨⟨⟨"a", 1⟩, .empty⟩, some [1], 1⟩ ∈ (((initial.run [.write "a" .empty (some [1]) 1,
          .write "b" .empty (some [2]) 2]).step (.merge "a" "b")).step (.merge "b" "a")).siblings "a" ↔
        ⟨⟨⟨"a", 1⟩, .empty⟩, some [1], 1⟩ ∈ (((initial.run [.write "a" .empty (some [1]) 1,
          .write "b" .empty (some [2]) 2]).step (.merge "a" "b")).step (.merge "b" "a")).siblings "b") ∧
      (⟨⟨⟨"a", 1⟩, .empty⟩, some [1], 1⟩ ∈ (((initial.run [.write "a" .empty (some [1]) 1,
          .write "b" .empty (some [2]) 2]).step (.merge "a" "b")).step (.merge "b" "a")).siblings "b" ↔
        (⟨⟨⟨"a", 1⟩, .empty⟩, some [1], 1⟩ ∈ (initial.run [.write "a" .empty (some [1]) 1,
            .write "b" .empty (some [2]) 2]).siblings "a" ∨
          ⟨⟨⟨"a", 1⟩, .empty⟩, some [1], 1⟩ ∈ (initial.run [.write "a" .empty (some [1]) 1,
            .write "b" .empty (some [2]) 2]).siblings "b") ∧
        ¬ ((initial.run [.write "a" .empty (some [1]) 1,
            .write "b" .empty (some [2]) 2]).siblings "a").Dominates
              (⟨⟨"a", 1⟩, .empty⟩ : DVV) ∧
        ¬ ((initial.run [.write "a" .empty (some [1]) 1,
            .write "b" .empty (some [2]) 2]).siblings "b").Dominates
              (⟨⟨"a", 1⟩, .empty⟩ : DVV))) :=
  ⟨by decide, exchange_converges _ (by decide) "a" "b" ⟨⟨⟨"a", 1⟩, .empty⟩, some [1], 1⟩⟩

end Replicas

end DeviceDB
