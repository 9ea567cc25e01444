import DeviceDB.Data.SiblingSet

/-!
# `Iter()` and the loops that range over it

`SiblingSet.Iter()` makes an unbuffered channel, starts a goroutine that sends every sibling
of the set on it in `range` order and then closes it, and returns the channel. `CanPurge` and
`Hash` range over that channel. A send on an unbuffered channel completes only together with
a receive, so the goroutine and the loop move in lockstep; once the loop has left the
channel, nothing receives from it again.

The model keeps both parties: the siblings the goroutine has yet to send, whether it has
closed the channel (its last statement), the loop's variables, and whether the loop has left
the channel. The loop body is a parameter `body : σ → Sibling → ForInStep σ`, `.done` being a
`return` out of the loop, so that one model serves both loops. Another `range` order of the
goroutine is another list of siblings.

* `iterRun_length_add_measure_le`, `exists_iterRun_ended`: every run is finite, and every run
  can go on until no step is possible, where it has ended.
* `IterInv`, `iterRun_ended`: a run that has ended has done what the loop does when run by
  itself over the siblings (`rangeLoop`): the loop has its result, the siblings it never
  received are exactly those the goroutine still waits to send, and the goroutine has closed
  the channel exactly when it has sent them all.
* `canPurge_iter_finishes_iff`: in a run of `CanPurge` that has ended, the goroutine has sent
  every sibling and closed the channel exactly when every sibling but the last one it sends
  is a tombstone older than the cutoff. Otherwise the loop returned early and the goroutine
  is blocked in `ch <- sibling` for good.
-/

namespace DeviceDB

/-- Modelled from the spec: a sibling whose value is the tombstone marker. -/
def Sibling.isTombstone (sibling : Sibling) : Bool := sibling.value.isNone

/-- A tombstone older than the cutoff: what `CanPurge` accepts. -/
def Sibling.Purgeable (timestampCutoff : UInt64) (sibling : Sibling) : Prop :=
  sibling.isTombstone = true ∧ sibling.timestamp < timestampCutoff

instance (timestampCutoff : UInt64) : DecidablePred (Sibling.Purgeable timestampCutoff) :=
  fun _ => inferInstanceAs (Decidable (_ ∧ _))

namespace SiblingSet

/-- The loop over `Iter()`, run by itself: it receives the siblings in order until its body
returns, and gives back its variables and the siblings it never received. -/
def rangeLoop {σ : Type} (body : σ → Sibling → ForInStep σ) :
    σ → List Sibling → σ × List Sibling
  | acc, [] => (acc, [])
  | acc, sibling :: rest =>
    match body acc sibling with
    | .done acc => (acc, rest)
    | .yield acc => rangeLoop body acc rest

/-- `Iter()`'s goroutine and the loop that ranges over its channel. -/
structure IterState (σ : Type) where
  /-- the siblings the goroutine has yet to send; it waits to send the first -/
  unsent : List Sibling
  /-- the goroutine has run `close(ch)` and returned -/
  closed : Bool
  /-- the loop's variables -/
  acc : σ
  /-- the loop has left the channel -/
  exited : Bool
  deriving DecidableEq

/-- What can happen next. -/
inductive IterEvent
  /-- `ch <- sibling` meets the loop's receive: the channel is unbuffered -/
  | send
  /-- the goroutine's `range` is over, and it runs `close(ch)` -/
  | close
  /-- the loop receives from the closed channel, and its `range` ends -/
  | receiveClosed
  deriving DecidableEq, Repr

section Run

variable {σ : Type} (body : σ → Sibling → ForInStep σ)

/-- One step of the goroutine and the loop; `none` when the event cannot happen now. -/
def iterStep (st : IterState σ) : IterEvent → Option (IterState σ)
  | .send =>
    match st.unsent, st.exited with
    | sibling :: rest, false =>
      some (match body st.acc sibling with
        | .done acc => { st with unsent := rest, acc, exited := true }
        | .yield acc => { st with unsent := rest, acc })
    | _, _ => none
  | .close =>
    match st.unsent, st.closed with
    | [], false => some { st with closed := true }
    | _, _ => none
  | .receiveClosed =>
    match st.closed, st.exited with
    | true, false => some { st with exited := true }
    | _, _ => none

/-- `Iter()` has handed its channel to a loop whose variables start at `init`. -/
def iterStart (siblingSet : SiblingSet) (init : σ) : IterState σ :=
  ⟨siblingSet.siblings, false, init, false⟩

/-- Events one after another; `none` once one cannot happen. -/
def iterRun (st : IterState σ) (events : List IterEvent) : Option (IterState σ) :=
  events.foldlM (iterStep body) st

/-- No event can happen: the run has ended. -/
def IterEnded (st : IterState σ) : Prop := ∀ e, iterStep body st e = none

instance (st : IterState σ) : Decidable (IterEnded body st) :=
  decidable_of_iff ((iterStep body st .send).isNone ∧ (iterStep body st .close).isNone ∧
      (iterStep body st .receiveClosed).isNone)
    ⟨fun h e => by
      simp only [Option.isNone_iff_eq_none] at h
      cases e
      exacts [h.1, h.2.1, h.2.2],
    fun h => by
      simp only [Option.isNone_iff_eq_none]
      exact ⟨h _, h _, h _⟩⟩

variable {body} {st st' : IterState σ} {e : IterEvent}

theorem iterRun_cons (events : List IterEvent) :
    iterRun body st (e :: events) = (iterStep body st e).bind (iterRun body · events) := by
  simp [iterRun, List.foldlM, bind, Option.bind]

theorem iterRun_append (events events' : List IterEvent) :
    iterRun body st (events ++ events') = (iterRun body st events).bind (iterRun body · events') :=
  List.foldlM_append _ _ _ _

/-- **What a step can do.** -/
theorem iterStep_cases (h : iterStep body st e = some st') :
    (∃ sibling rest, st.unsent = sibling :: rest ∧ st.exited = false ∧
      st' = match body st.acc sibling with
        | .done acc => { st with unsent := rest, acc, exited := true }
        | .yield acc => { st with unsent := rest, acc }) ∨
    (st.unsent = [] ∧ st.closed = false ∧ st' = { st with closed := true }) ∨
    (st.closed = true ∧ st.exited = false ∧ st' = { st with exited := true }) := by
  obtain ⟨unsent, closed, acc, exited⟩ := st
  cases e <;> simp only [iterStep] at h
  · rcases unsent with _ | ⟨sibling, rest⟩ <;> cases exited <;>
      simp only [Option.some.injEq, reduceCtorEq] at h
    exact .inl ⟨sibling, rest, rfl, rfl, h.symm⟩
  · rcases unsent with _ | ⟨sibling, rest⟩ <;> cases closed <;>
      simp only [Option.some.injEq, reduceCtorEq] at h
    exact .inr (.inl ⟨rfl, rfl, h.symm⟩)
  · cases closed <;> cases exited <;> simp only [Option.some.injEq, reduceCtorEq] at h
    exact .inr (.inr ⟨rfl, rfl, h.symm⟩)

/-! ### Every run ends -/

/-- What is left to do: two steps for each sibling still to send, one for closing the
channel, one for leaving it. -/
def IterState.measure (st : IterState σ) : Nat :=
  2 * st.unsent.length + (if st.closed then 0 else 1) + (if st.exited then 0 else 1)

theorem measure_lt_of_iterStep (h : iterStep body st e = some st') :
    st'.measure < st.measure := by
  rcases iterStep_cases h with ⟨sibling, rest, hu, hx, rfl⟩ | ⟨hu, hc, rfl⟩ | ⟨hc, hx, rfl⟩
  · split <;> simp only [IterState.measure, hu, hx, List.length_cons, Bool.false_eq_true,
      if_true, if_false] <;> omega
  · simp [IterState.measure, hc]
  · simp [IterState.measure, hx]

/-- **Every run is finite**: it has at most `st.measure` events. -/
theorem iterRun_length_add_measure_le (events : List IterEvent)
    (h : iterRun body st events = some st') : events.length + st'.measure ≤ st.measure := by
  induction events generalizing st with
  | nil => cases h; simp
  | cons e events ih =>
    rw [iterRun_cons] at h
    obtain ⟨st₁, h₁, hrun⟩ := Option.bind_eq_some.1 h
    have := measure_lt_of_iterStep h₁
    have := ih hrun
    simp only [List.length_cons]
    omega

/-- **Every run can go on until it has ended.** -/
theorem exists_iterRun_ended (st : IterState σ) :
    ∃ events st', iterRun body st events = some st' ∧ IterEnded body st' := by
  by_cases hend : IterEnded body st
  · exact ⟨[], st, rfl, hend⟩
  · obtain ⟨e, he⟩ := not_forall.1 hend
    obtain ⟨st₁, h₁⟩ := Option.ne_none_iff_exists'.1 he
    obtain ⟨events, st', hrun, hend'⟩ := exists_iterRun_ended st₁
    exact ⟨e :: events, st', by rw [iterRun_cons, h₁]; exact hrun, hend'⟩
termination_by st.measure
decreasing_by exact measure_lt_of_iterStep h₁

/-! ### What a run computes -/

/-- What the rest of the run will compute: the loop's result and the siblings it will never
receive. -/
def IterState.outcome (body : σ → Sibling → ForInStep σ) (st : IterState σ) :
    σ × List Sibling :=
  if st.exited then (st.acc, st.unsent) else rangeLoop body st.acc st.unsent

/-- The invariant of a run that will compute `result`. -/
structure IterInv (body : σ → Sibling → ForInStep σ) (result : σ × List Sibling)
    (st : IterState σ) : Prop where
  outcome_eq : st.outcome body = result
  unsent_of_closed : st.closed = true → st.unsent = []

theorem iterInv_iterStart (siblingSet : SiblingSet) (init : σ) :
    IterInv body (rangeLoop body init siblingSet.siblings) (iterStart siblingSet init) :=
  ⟨rfl, nofun⟩

variable {result : σ × List Sibling}

theorem IterInv.step (h : IterInv body result st) (hs : iterStep body st e = some st') :
    IterInv body result st' := by
  rcases iterStep_cases hs with ⟨sibling, rest, hu, hx, rfl⟩ | ⟨hu, hc, rfl⟩ | ⟨hc, hx, rfl⟩
  · have hc : st.closed = false :=
      Bool.eq_false_iff.2 fun hcl => by simp [h.unsent_of_closed hcl] at hu
    have hout := h.outcome_eq
    simp only [IterState.outcome, hx, hu, rangeLoop, Bool.false_eq_true, if_false] at hout
    cases hb : body st.acc sibling <;> simp only [hb] at hout ⊢ <;>
      exact ⟨by simpa [IterState.outcome, hx] using hout, by simp [hc]⟩
  · exact ⟨h.outcome_eq, fun _ => hu⟩
  · have hout := h.outcome_eq
    simp only [IterState.outcome, hx, h.unsent_of_closed hc] at hout
    exact ⟨by simpa [IterState.outcome, h.unsent_of_closed hc] using hout,
      fun _ => h.unsent_of_closed hc⟩

theorem IterInv.run (h : IterInv body result st) (events : List IterEvent)
    (hrun : iterRun body st events = some st') : IterInv body result st' := by
  induction events generalizing st with
  | nil => cases hrun; exact h
  | cons e events ih =>
    rw [iterRun_cons] at hrun
    obtain ⟨st₁, h₁, hrun⟩ := Option.bind_eq_some.1 hrun
    exact ih (h.step h₁) hrun

/-- In a state where the run has ended, the loop has left the channel with the result, and
the goroutine has closed it exactly when nothing is left to send. -/
theorem IterInv.ended (h : IterInv body result st) (hend : IterEnded body st) :
    st.exited = true ∧ (st.acc, st.unsent) = result ∧ (st.closed = true ↔ st.unsent = []) := by
  have hclose : st.unsent = [] → st.closed = true := fun hu => by
    by_contra hc
    simpa [iterStep, hu, hc] using hend .close
  have hx : st.exited = true := by
    by_contra hx
    cases hu : st.unsent with
    | cons sibling rest => simpa [iterStep, hu, hx] using hend .send
    | nil => simpa [iterStep, hclose hu, hx] using hend .receiveClosed
  exact ⟨hx, by simpa [IterState.outcome, hx] using h.outcome_eq, h.unsent_of_closed, hclose⟩

/-- **A run that has ended has done what the loop does by itself**, and the goroutine has
finished exactly when the loop received every sibling. -/
theorem iterRun_ended (siblingSet : SiblingSet) (init : σ) (events : List IterEvent)
    (hrun : iterRun body (iterStart siblingSet init) events = some st)
    (hend : IterEnded body st) :
    st.exited = true ∧ (st.acc, st.unsent) = rangeLoop body init siblingSet.siblings ∧
      (st.closed = true ↔ st.unsent = []) :=
  ((iterInv_iterStart siblingSet init).run events hrun).ended hend

end Run

/-! ### `CanPurge` -/

/-- The body of `CanPurge`'s loop: `return false` at a sibling that is live or not older than
the cutoff. The loop's variable is what `CanPurge` returns once the loop is over. -/
def canPurgeBody (timestampCutoff : UInt64) (canPurge : Bool) (sibling : Sibling) :
    ForInStep Bool :=
  if !sibling.isTombstone || sibling.timestamp ≥ timestampCutoff then .done false
  else .yield canPurge

/-- `CanPurge(timestampCutoff)`. -/
def canPurge (siblingSet : SiblingSet) (timestampCutoff : UInt64) : Bool :=
  (rangeLoop (canPurgeBody timestampCutoff) true siblingSet.siblings).1

variable {t : UInt64}

theorem canPurgeBody_eq (acc : Bool) (sibling : Sibling) :
    canPurgeBody t acc sibling = if sibling.Purgeable t then .yield acc else .done false := by
  unfold canPurgeBody Sibling.Purgeable
  by_cases h : sibling.isTombstone = true ∧ sibling.timestamp < t
  · rw [if_neg (by simpa [UInt64.le_iff_toNat_le, UInt64.lt_iff_toNat_lt] using h), if_pos h]
  · rw [if_pos (by simpa [UInt64.le_iff_toNat_le, UInt64.lt_iff_toNat_lt, imp_iff_not_or]
      using h), if_neg h]

/-- `CanPurge` accepts exactly the sets of tombstones older than the cutoff. -/
theorem rangeLoop_canPurgeBody (l : List Sibling) :
    (rangeLoop (canPurgeBody t) true l).1 = decide (∀ s ∈ l, s.Purgeable t) ∧
      ((rangeLoop (canPurgeBody t) true l).2 = [] ↔ ∀ s ∈ l.dropLast, s.Purgeable t) := by
  induction l with
  | nil => simp [rangeLoop]
  | cons s rest ih =>
    have hstep : rangeLoop (canPurgeBody t) true (s :: rest) =
        if s.Purgeable t then rangeLoop (canPurgeBody t) true rest else (false, rest) := by
      by_cases hs : s.Purgeable t <;> simp [rangeLoop, canPurgeBody_eq, hs]
    by_cases hs : s.Purgeable t
    · rw [hstep, if_pos hs, ih.1, ih.2]
      cases rest <;> simp [hs]
    · rw [hstep, if_neg hs]
      cases rest <;> simp [hs]

/-- **`CanPurge` strands `Iter()`'s goroutine.** In a run that has ended, `CanPurge` has
returned its result, and the goroutine has sent every sibling and closed the channel exactly
when every sibling but the last one it sent is a tombstone older than the cutoff; otherwise
it waits in `ch <- sibling` with no receiver left. -/
theorem canPurge_iter_finishes_iff (siblingSet : SiblingSet) (timestampCutoff : UInt64)
    (events : List IterEvent) (st : IterState Bool)
    (hrun : iterRun (canPurgeBody timestampCutoff) (iterStart siblingSet true) events = some st)
    (hend : IterEnded (canPurgeBody timestampCutoff) st) :
    st.acc = siblingSet.canPurge timestampCutoff ∧
      (st.unsent = [] ∧ st.closed = true ↔
        ∀ s ∈ siblingSet.siblings.dropLast, s.Purgeable timestampCutoff) := by
  obtain ⟨-, hres, hclosed⟩ := iterRun_ended siblingSet true events hrun hend
  obtain ⟨hacc, hunsent⟩ := Prod.mk.inj hres
  refine ⟨hacc, ?_⟩
  rw [← (rangeLoop_canPurgeBody siblingSet.siblings).2, ← hunsent]
  exact ⟨And.left, fun hu => ⟨hu, hclosed.2 hu⟩⟩

/-- A live sibling met first: `CanPurge` returns `false` after one receive, and the goroutine
is left waiting to send the tombstone. -/
theorem canPurge_iter_finishes_iff_of_live_first :
    let live : Sibling := ⟨⟨⟨"r", 1⟩, .empty⟩, some [], 0⟩
    let tombstone : Sibling := ⟨⟨⟨"r", 2⟩, .empty⟩, none, 0⟩
    let st : IterState Bool := ⟨[tombstone], false, false, true⟩
    iterRun (canPurgeBody 1) (iterStart ⟨[live, tombstone]⟩ true) [.send] = some st ∧
      IterEnded (canPurgeBody 1) st ∧
      (st.acc = canPurge ⟨[live, tombstone]⟩ 1 ∧
        (st.unsent = [] ∧ st.closed = true ↔
          ∀ s ∈ [live, tombstone].dropLast, s.Purgeable 1)) := by
  intro live tombstone st
  have hend : IterEnded (canPurgeBody 1) st := fun e => by cases e <;> rfl
  exact ⟨rfl, hend, canPurge_iter_finishes_iff _ 1 [.send] st rfl hend⟩

end SiblingSet

end DeviceDB
