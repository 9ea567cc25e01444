import Mathlib.Data.List.Basic

/-!
# The garbage collector's goroutine

`gc.go` collects garbage in a goroutine that `Start` starts. The goroutine loops on a `select`
between `garbageCollector.done` and a new `time.After(gcInterval)` timer: on the timer it
sweeps every bucket and loops, on `done` it sets `done` to a new channel and returns. `Stop`
closes `done`.

The calls and the goroutines' steps interleave, each step atomic. A channel is the number
`make` gave it, and the state records which channels are closed. A `select` first evaluates its
operands: it reads `garbageCollector.done` and starts its timer. It then takes a ready case, at
random when both are: the done case once the channel it read is closed, the timer case once the
timer has fired. Neither the interval nor the scheduler is modelled, so the timer may have fired
by any poll, also by one that finds the channel closed. A sweep is one state of its goroutine;
the buckets, the interval and the purge age are left out.

* `stop_eq_none_iff_stopPending`: in every run, `Stop` panics on a closed channel exactly when
  the last `Stop` or renewal of `done` before it is a `Stop`. A `Stop` stays pending until a
  goroutine renews `done`, also when no goroutine runs, so a `Start` after it finds `done`
  closed.
* `stop_bounds_steps_by_timer`: in a run with one `Start`, a `Stop` that returned does not end
  the sweeps at once, since the timer may keep winning the `select`. Every step the goroutine
  takes after the `Stop` beyond four is paid for by a timer firing, three steps for each, and
  from every state after the `Stop` the goroutine can still return within four steps, none of
  them a timer firing. Each step lowers `stepsLeft` by one but the timer's, which raises it by
  two (`Solo`, `Stopped`, `step_stopped`).
-/

namespace DeviceDB

/-- Where a goroutine started by `Start` is. -/
inductive Routine
  /-- at the top of its `for` -/
  | looping
  /-- in the `select`, on the done channel it read and on its timer -/
  | selecting (done : Nat)
  /-- took the timer case and sweeps the buckets -/
  | sweeping
  /-- took the done case, before `garbageCollector.done = make(chan bool)` -/
  | received
  /-- returned -/
  | exited
  deriving DecidableEq, Repr

/-- A step a goroutine of `Start` takes in its loop. -/
inductive LoopStep
  /-- its `select` evaluates its operands: it reads `garbageCollector.done` and starts a timer -/
  | select
  /-- its `select` takes the done case, the channel having been closed -/
  | receiveDone
  /-- its `select` takes the timer case, the timer having fired, and it begins a sweep -/
  | timerFires
  /-- its sweep over `buckets.All()` ends, and it loops -/
  | sweepDone
  /-- it runs `garbageCollector.done = make(chan bool)` and returns -/
  | renewDone
  deriving DecidableEq, Repr

namespace Routine

/-- Where a goroutine at `r` goes by step `s` when `garbageCollector.done` is `done` and the
channels in `closed` are closed; `none` when it cannot take that step. The timer case is never
refused: its timer may have fired by then. -/
def next (done : Nat) (closed : List Nat) : Routine → LoopStep → Option Routine
  | .looping, .select => some (.selecting done)
  | .selecting c, .receiveDone => if c ∈ closed then some .received else none
  | .selecting _, .timerFires => some .sweeping
  | .sweeping, .sweepDone => some .looping
  | .received, .renewDone => some .exited
  | _, _ => none

theorem next_eq_some {done : Nat} {closed : List Nat} {r r' : Routine} {s : LoopStep} :
    r.next done closed s = some r' ↔
      (r = .looping ∧ s = .select ∧ r' = .selecting done) ∨
      (∃ c, r = .selecting c ∧ c ∈ closed ∧ s = .receiveDone ∧ r' = .received) ∨
      (∃ c, r = .selecting c ∧ s = .timerFires ∧ r' = .sweeping) ∨
      (r = .sweeping ∧ s = .sweepDone ∧ r' = .looping) ∨
      (r = .received ∧ s = .renewDone ∧ r' = .exited) := by
  unfold next; split <;> simp_all [eq_comm]

/-- How many steps the goroutine needs to return once a `Stop` is pending: a sweep under way
ends, the loop comes back to the `select`, which takes the done case, and `done` is renewed. -/
def stepsToExit : Routine → Nat
  | .sweeping => 4
  | .looping => 3
  | .selecting _ => 2
  | .received => 1
  | .exited => 0

end Routine

/-- `GarbageCollector`, its channels and the goroutines `Start` started. -/
structure GarbageCollector where
  /-- `garbageCollector.done` -/
  done : Nat
  /-- the channels closed so far -/
  closed : List Nat
  /-- the channel the next `make(chan bool)` returns -/
  nextChan : Nat
  /-- the goroutines, oldest first -/
  routines : List Routine
  deriving DecidableEq, Repr

/-- What can happen next: a call of `Start` or `Stop`, or step `s` of goroutine `i`. -/
inductive CollectorEvent
  | start
  | stop
  | loop (i : Nat) (s : LoopStep)
  deriving DecidableEq, Repr

/-- A step of a goroutine rather than a call. -/
def CollectorEvent.isLoopStep : CollectorEvent → Bool
  | .loop _ _ => true
  | _ => false

/-- A `select` that takes its timer case. -/
def CollectorEvent.isTimerFiring : CollectorEvent → Bool
  | .loop _ .timerFires => true
  | _ => false

namespace GarbageCollector

/-- `NewGarbageCollector`: `done` is a new channel. -/
def newGarbageCollector : GarbageCollector := ⟨0, [], 1, []⟩

/-- `Start()`: `go func() { for { ... } }()`. -/
def start (gc : GarbageCollector) : GarbageCollector :=
  { gc with routines := gc.routines ++ [.looping] }

/-- `Stop()`: `close(garbageCollector.done)`; `none` is the panic on closing a closed channel. -/
def stop (gc : GarbageCollector) : Option GarbageCollector :=
  if gc.done ∈ gc.closed then none else some { gc with closed := gc.done :: gc.closed }

/-- `garbageCollector.done = make(chan bool)`. -/
def renewDone (gc : GarbageCollector) : GarbageCollector :=
  { gc with done := gc.nextChan, nextChan := gc.nextChan + 1 }

/-- What step `s` writes besides its goroutine: only a renewal writes, to `done`. -/
def write (gc : GarbageCollector) : LoopStep → GarbageCollector
  | .renewDone => gc.renewDone
  | _ => gc

/-- One step; `none` when the event cannot happen now, or when `Stop` panics. -/
def step (gc : GarbageCollector) : CollectorEvent → Option GarbageCollector
  | .start => some gc.start
  | .stop => gc.stop
  | .loop i s => (gc.routines[i]?).bind fun r => (r.next gc.done gc.closed s).map fun r' =>
    { gc.write s with routines := gc.routines.set i r' }

/-- Events one after another; `none` once one cannot happen. -/
def run (gc : GarbageCollector) (events : List CollectorEvent) : Option GarbageCollector :=
  events.foldlM step gc

variable {gc gc' : GarbageCollector} {e : CollectorEvent} {i : Nat} {s : LoopStep}

@[simp] theorem write_closed : (gc.write s).closed = gc.closed := by cases s <;> rfl

@[simp] theorem write_routines : (gc.write s).routines = gc.routines := by cases s <;> rfl

theorem stop_eq_none_iff : gc.stop = none ↔ gc.done ∈ gc.closed := by
  unfold stop; split <;> simp_all

theorem stop_eq_some : gc.stop = some gc' ↔
    gc.done ∉ gc.closed ∧ gc' = { gc with closed := gc.done :: gc.closed } := by
  unfold stop; split <;> simp_all [eq_comm]

theorem step_loop : gc.step (.loop i s) = some gc' ↔ ∃ r r', gc.routines[i]? = some r ∧
    r.next gc.done gc.closed s = some r' ∧
      gc' = { gc.write s with routines := gc.routines.set i r' } := by
  simp only [step, Option.bind_eq_some, Option.map_eq_some']
  exact ⟨fun ⟨r, hr, r', hn, h⟩ => ⟨r, r', hr, hn, h.symm⟩,
    fun ⟨r, r', hr, hn, h⟩ => ⟨r, hr, r', hn, h.symm⟩⟩

theorem run_cons (events : List CollectorEvent) :
    gc.run (e :: events) = (gc.step e).bind (·.run events) := rfl

theorem run_cons_of_step {g : GarbageCollector} {events : List CollectorEvent}
    (h : gc.step e = some g) (h' : g.run events = some gc') : gc.run (e :: events) = some gc' := by
  rw [run_cons, h]; exact h'

theorem run_append (events events' : List CollectorEvent) :
    gc.run (events ++ events') = (gc.run events).bind (·.run events') :=
  List.foldlM_append _ _ _ _

/-- A call of `Start` adds a goroutine, and nothing else does. -/
theorem length_step (h : gc.step e = some gc') :
    gc'.routines.length = gc.routines.length + if e = .start then 1 else 0 := by
  cases e with
  | start => cases h; simp [start]
  | stop => obtain ⟨-, rfl⟩ := stop_eq_some.1 h; rfl
  | loop i s => obtain ⟨r, r', -, -, rfl⟩ := step_loop.1 h; simp

theorem length_run (events : List CollectorEvent) (gc : GarbageCollector)
    (h : gc.run events = some gc') :
    gc'.routines.length = gc.routines.length + events.count .start := by
  induction events generalizing gc with
  | nil => cases h; rfl
  | cons e events ih =>
    obtain ⟨gc₁, h₁, h⟩ := Option.bind_eq_some.1 h
    rw [ih gc₁ h, length_step h₁, List.count_cons]
    by_cases he : e = .start <;> simp [he]
    omega

/-! ### When `Stop` panics -/

/-- Whether a `Stop` is pending after `e`: a `Stop` makes one pending, a renewal of `done`
takes it, and every other event leaves it as it was. -/
def pendingAfter (pending : Bool) : CollectorEvent → Bool
  | .stop => true
  | .loop _ .renewDone => false
  | _ => pending

/-- A `Stop` is pending after `events`: the last `Stop` or renewal of `done` among them is a
`Stop`. -/
def stopPending (events : List CollectorEvent) : Bool :=
  events.foldl pendingAfter false

/-- Every channel the collector has read or closed came from `make`: none is `nextChan`. -/
structure Fresh (gc : GarbageCollector) : Prop where
  done_lt : gc.done < gc.nextChan
  closed_lt : ∀ c ∈ gc.closed, c < gc.nextChan

theorem fresh_newGarbageCollector : newGarbageCollector.Fresh :=
  ⟨Nat.zero_lt_one, fun _ h => nomatch h⟩

/-- One step keeps the channels fresh, and `done` is closed after it exactly when a `Stop` is
pending: a renewal's channel is new, hence open. -/
theorem step_fresh (h : gc.step e = some gc') (hf : gc.Fresh) :
    gc'.Fresh ∧ decide (gc'.done ∈ gc'.closed) = pendingAfter (decide (gc.done ∈ gc.closed)) e := by
  cases e with
  | start => cases h; exact ⟨⟨hf.1, hf.2⟩, rfl⟩
  | stop =>
    obtain ⟨-, rfl⟩ := stop_eq_some.1 h
    refine ⟨⟨hf.done_lt, fun c hc => ?_⟩, by simp [pendingAfter]⟩
    rcases List.mem_cons.1 hc with rfl | hc
    exacts [hf.done_lt, hf.closed_lt c hc]
  | loop i s =>
    obtain ⟨r, r', -, -, rfl⟩ := step_loop.1 h
    cases s
    case renewDone =>
      have hopen : gc.nextChan ∉ gc.closed := fun hc => Nat.lt_irrefl _ (hf.closed_lt _ hc)
      exact ⟨⟨Nat.lt_succ_self _, fun c hc => Nat.lt_succ_of_lt (hf.closed_lt c hc)⟩,
        by simpa [write, renewDone, pendingAfter] using hopen⟩
    all_goals exact ⟨⟨hf.1, hf.2⟩, rfl⟩

theorem run_fresh (events : List CollectorEvent) (gc : GarbageCollector) (hf : gc.Fresh)
    (h : gc.run events = some gc') : gc'.Fresh ∧
      decide (gc'.done ∈ gc'.closed) = events.foldl pendingAfter (decide (gc.done ∈ gc.closed)) := by
  induction events generalizing gc with
  | nil => cases h; exact ⟨hf, rfl⟩
  | cons e events ih =>
    obtain ⟨gc₁, h₁, h⟩ := Option.bind_eq_some.1 h
    obtain ⟨hf₁, hp₁⟩ := step_fresh h₁ hf
    rw [List.foldl_cons, ← hp₁]
    exact ih gc₁ hf₁ h

/-- **`Stop` panics exactly when a `Stop` is pending.** In every run, with any number of
`Start`s and in any interleaving, `close(garbageCollector.done)` finds the channel closed exactly
when the last `Stop` or renewal of `done` before it is a `Stop`. -/
theorem stop_eq_none_iff_stopPending (events : List CollectorEvent) (gc : GarbageCollector)
    (hrun : newGarbageCollector.run events = some gc) :
    gc.stop = none ↔ stopPending events = true := by
  have h := (run_fresh events _ fresh_newGarbageCollector hrun).2
  exact stop_eq_none_iff.trans (decide_eq_true_iff.symm.trans (by rw [h]; rfl))

/-- A goroutine takes the `Stop` and returns; the second `Stop` then closes the new channel. -/
theorem stop_eq_none_iff_stopPending_of_restarted_stop :
    ∃ gc, newGarbageCollector.run [.start, .loop 0 .select, .stop, .loop 0 .receiveDone,
        .loop 0 .renewDone] = some gc ∧
      (gc.stop = none ↔ stopPending [.start, .loop 0 .select, .stop, .loop 0 .receiveDone,
        .loop 0 .renewDone] = true) :=
  match h : newGarbageCollector.run [.start, .loop 0 .select, .stop, .loop 0 .receiveDone,
      .loop 0 .renewDone] with
  | some gc => ⟨gc, rfl, stop_eq_none_iff_stopPending _ gc h⟩
  | none => absurd h (by decide)

/-! ### One `Start`: after a `Stop`, only the timer keeps the goroutine sweeping -/

/-- What holds while one goroutine at most has been started: it waits on the current `done`
if it waits at all, and it took the done case only if `done` is closed. -/
structure Solo (gc : GarbageCollector) : Prop where
  length_le : gc.routines.length ≤ 1
  selecting_done : ∀ c, .selecting c ∈ gc.routines → c = gc.done
  received_closed : .received ∈ gc.routines → gc.done ∈ gc.closed

theorem solo_newGarbageCollector : newGarbageCollector.Solo :=
  ⟨Nat.zero_le _, fun _ h => (nomatch h), fun h => nomatch h⟩

/-- The lone goroutine, if there is one. -/
theorem Solo.routines_eq (h : gc.Solo) : gc.routines = [] ∨ ∃ r, gc.routines = [r] := by
  match hr : gc.routines, h.length_le with
  | [], _ => exact .inl rfl
  | [r], _ => exact .inr ⟨r, rfl⟩
  | _ :: _ :: _, hl => simp [hr] at hl

/-- A goroutine of a `Solo` state is the only one. -/
theorem Solo.eq_singleton {r : Routine} (hs : gc.Solo) (hr : gc.routines[i]? = some r) :
    i = 0 ∧ gc.routines = [r] := by
  obtain hnil | ⟨r₀, hr₀⟩ := hs.routines_eq
  · simp [hnil] at hr
  · rw [hr₀] at hr ⊢
    cases i <;> simp_all

theorem step_solo (h : gc.step e = some gc') (hs : gc.Solo) (hlen : e = .start → gc.routines = []) :
    gc'.Solo := by
  cases e with
  | start => cases h; simp only [hlen rfl, start]; exact ⟨by simp, by simp, by simp⟩
  | stop =>
    obtain ⟨-, rfl⟩ := stop_eq_some.1 h
    exact ⟨hs.length_le, hs.selecting_done, fun hr => .tail _ (hs.received_closed hr)⟩
  | loop i s =>
    obtain ⟨r, r', hr, hnext, rfl⟩ := step_loop.1 h
    obtain ⟨rfl, hr₀⟩ := hs.eq_singleton hr
    have hsel := hs.selecting_done
    simp only [hr₀, List.mem_singleton] at hsel
    simp only [hr₀, List.set_cons_zero]
    rcases Routine.next_eq_some.1 hnext with ⟨-, rfl, rfl⟩ | ⟨c, rfl, hc, rfl, rfl⟩ |
      ⟨c, rfl, rfl, rfl⟩ | ⟨-, rfl, rfl⟩ | ⟨rfl, rfl, rfl⟩
    · exact ⟨by simp, by simp [write], by simp⟩
    · exact ⟨by simp, by simp, fun _ => (hsel c rfl) ▸ hc⟩
    all_goals exact ⟨by simp, by simp, by simp⟩

/-- A `Stop` was taken: `done` is closed, or the goroutine has renewed it and returned. -/
def Stopped (gc : GarbageCollector) : Prop :=
  gc.done ∈ gc.closed ∨ gc.routines = [.exited]

/-- The steps the lone goroutine needs to return, or the one a `Start` may still start. -/
def stepsLeft (gc : GarbageCollector) : Nat :=
  match gc.routines with
  | [] => 3
  | r :: _ => r.stepsToExit

theorem stepsLeft_le (gc : GarbageCollector) : gc.stepsLeft ≤ 4 := by
  unfold stepsLeft
  match gc.routines with
  | [] => decide
  | r :: _ => cases r <;> simp [Routine.stepsToExit]

/-- Once a `Stop` was taken, a step of the lone goroutine lowers `stepsLeft` by one, but for a
timer firing, which begins a sweep and raises it by two; a call leaves it as it was. -/
theorem step_stopped (h : gc.step e = some gc') (hs : gc.Solo) (hst : gc.Stopped)
    (hlen : e = .start → gc.routines = []) :
    gc'.Stopped ∧ gc'.stepsLeft + (if e.isLoopStep then 1 else 0) ≤
      gc.stepsLeft + 3 * (if e.isTimerFiring then 1 else 0) := by
  cases e with
  | start =>
    cases h
    have hnil := hlen rfl
    exact ⟨hst.imp_right fun h => by simp [hnil] at h, by simp [stepsLeft, start, hnil,
      Routine.stepsToExit, CollectorEvent.isLoopStep, CollectorEvent.isTimerFiring]⟩
  | stop =>
    obtain ⟨-, rfl⟩ := stop_eq_some.1 h
    exact ⟨.inl (List.mem_cons_self _ _), by simp [stepsLeft, CollectorEvent.isLoopStep]⟩
  | loop i s =>
    obtain ⟨r, r', hr, hnext, rfl⟩ := step_loop.1 h
    obtain ⟨rfl, hr₀⟩ := hs.eq_singleton hr
    have hclosed : r ≠ .exited → gc.done ∈ gc.closed := fun hne =>
      hst.resolve_right fun h => hne (by simpa [hr₀] using h)
    simp only [Stopped, stepsLeft, hr₀, List.set_cons_zero, CollectorEvent.isLoopStep, if_true]
    rcases Routine.next_eq_some.1 hnext with ⟨rfl, rfl, rfl⟩ | ⟨c, rfl, -, rfl, rfl⟩ |
      ⟨c, rfl, rfl, rfl⟩ | ⟨rfl, rfl, rfl⟩ | ⟨rfl, rfl, rfl⟩
    -- every step but the renewal leaves `done` closed
    iterate 4
      exact ⟨.inl (hclosed nofun), by simp [Routine.stepsToExit, CollectorEvent.isTimerFiring]⟩
    exact ⟨.inr rfl, by simp [Routine.stepsToExit]⟩

/-- With one `Start` at most left to the run, a `Start` finds no goroutine, and one at most is
left after the step. -/
theorem count_start_step {events : List CollectorEvent} (h : gc.step e = some gc')
    (hlen : gc.routines.length + (e :: events).count .start ≤ 1) :
    (e = .start → gc.routines = []) ∧ gc'.routines.length + events.count .start ≤ 1 := by
  rw [List.count_cons] at hlen
  rw [length_step h]
  by_cases he : e = .start
  · subst he
    simp only [beq_self_eq_true, if_true] at hlen
    exact ⟨fun _ => List.length_eq_zero.1 (by omega), by simp only [if_true]; omega⟩
  · simp only [he, beq_iff_eq, if_false, Nat.add_zero] at hlen ⊢
    exact ⟨False.elim, hlen⟩

theorem run_solo (events : List CollectorEvent) (gc : GarbageCollector) (hs : gc.Solo)
    (hlen : gc.routines.length + events.count .start ≤ 1) (h : gc.run events = some gc') :
    gc'.Solo := by
  induction events generalizing gc with
  | nil => cases h; exact hs
  | cons e events ih =>
    obtain ⟨gc₁, h₁, h⟩ := Option.bind_eq_some.1 h
    obtain ⟨hstart, hlen₁⟩ := count_start_step h₁ hlen
    exact ih gc₁ (step_solo h₁ hs hstart) hlen₁ h

theorem run_stopped (events : List CollectorEvent) (gc : GarbageCollector) (hs : gc.Solo)
    (hst : gc.Stopped) (hlen : gc.routines.length + events.count .start ≤ 1)
    (h : gc.run events = some gc') :
    gc'.Stopped ∧ events.countP CollectorEvent.isLoopStep ≤
      gc.stepsLeft + 3 * events.countP CollectorEvent.isTimerFiring := by
  induction events generalizing gc with
  | nil => cases h; exact ⟨hst, Nat.zero_le _⟩
  | cons e events ih =>
    obtain ⟨gc₁, h₁, h⟩ := Option.bind_eq_some.1 h
    obtain ⟨hstart, hlen₁⟩ := count_start_step h₁ hlen
    obtain ⟨hst₁, hle⟩ := step_stopped h₁ hs hst hstart
    obtain ⟨hst', hcount⟩ := ih gc₁ (step_solo h₁ hs hstart) hst₁ hlen₁ h
    refine ⟨hst', ?_⟩
    rw [List.countP_cons, List.countP_cons]
    omega

/-- A step of the lone goroutine. -/
theorem step_lone {r r' : Routine} (hr : gc.routines = [r])
    (hn : r.next gc.done gc.closed s = some r') :
    gc.step (.loop 0 s) = some { gc.write s with routines := [r'] } :=
  step_loop.2 ⟨r, r', by simp [hr], hn, by simp [hr]⟩

/-- Once a `Stop` was taken, the lone goroutine has returned, or it can take a step toward its
`return` that is not a timer firing: the sweep under way ends, and the `select` takes the closed
channel. -/
theorem step_toward_exit (hs : gc.Solo) (hst : gc.Stopped) :
    (∀ r ∈ gc.routines, r = .exited) ∨ ∃ s gc', s ≠ .timerFires ∧
      gc.step (.loop 0 s) = some gc' ∧ gc'.stepsLeft + 1 = gc.stepsLeft := by
  obtain hnil | ⟨r, hr⟩ := hs.routines_eq
  · exact .inl (by simp [hnil])
  have hclosed : r ≠ .exited → gc.done ∈ gc.closed := fun hne =>
    hst.resolve_right fun h => hne (by simpa [hr] using h)
  cases r with
  | exited => exact .inl (by simp [hr])
  | received =>
    exact .inr ⟨.renewDone, _, nofun, step_lone hr rfl,
      by simp [stepsLeft, hr, Routine.stepsToExit]⟩
  | selecting c =>
    obtain rfl := hs.selecting_done c (by simp [hr])
    exact .inr ⟨.receiveDone, _, nofun, step_lone hr (if_pos (hclosed nofun)),
      by simp [stepsLeft, hr, Routine.stepsToExit]⟩
  | looping =>
    exact .inr ⟨.select, _, nofun, step_lone hr rfl,
      by simp [stepsLeft, hr, Routine.stepsToExit]⟩
  | sweeping =>
    exact .inr ⟨.sweepDone, _, nofun, step_lone hr rfl,
      by simp [stepsLeft, hr, Routine.stepsToExit]⟩

/-- Once a `Stop` was taken, the lone goroutine can return within `stepsLeft` steps, none of
them a timer firing. -/
theorem exists_run_exited (hs : gc.Solo) (hst : gc.Stopped) :
    ∃ steps : List LoopStep, .timerFires ∉ steps ∧ steps.length ≤ gc.stepsLeft ∧
      ∃ gc', gc.run (steps.map (.loop 0)) = some gc' ∧ ∀ r ∈ gc'.routines, r = .exited := by
  generalize hn : gc.stepsLeft = n
  induction n generalizing gc with
  | zero =>
    rcases step_toward_exit hs hst with hx | ⟨_, _, -, -, hleft⟩
    · exact ⟨[], by simp, Nat.zero_le _, gc, rfl, hx⟩
    · omega
  | succ n ih =>
    rcases step_toward_exit hs hst with hx | ⟨s, gc₁, hs₁, h₁, hleft⟩
    · exact ⟨[], by simp, Nat.zero_le _, gc, rfl, hx⟩
    obtain ⟨steps, hno, hlen, gc', hrun, hx⟩ :=
      ih (step_solo h₁ hs nofun) (step_stopped h₁ hs hst nofun).1 (by omega)
    exact ⟨s :: steps, by simp [Ne.symm hs₁, hno], by simp; omega, gc',
      run_cons_of_step h₁ hrun, hx⟩

/-- **With one `Start`, after a `Stop` only the timer keeps the goroutine going.** In every run
from `NewGarbageCollector` with one call of `Start` at most, the goroutine takes at most four
steps after a `Stop` that returned, and three more for each timer firing: a `select` may take
its timer rather than the closed channel, and begin another sweep. From every state after the
`Stop`, the goroutine can still return within four steps, none of them a timer firing. -/
theorem stop_bounds_steps_by_timer (pre post : List CollectorEvent) (gc : GarbageCollector)
    (hrun : newGarbageCollector.run (pre ++ .stop :: post) = some gc)
    (hstart : (pre ++ .stop :: post).count .start ≤ 1) :
    post.countP CollectorEvent.isLoopStep ≤ 4 + 3 * post.countP CollectorEvent.isTimerFiring ∧
      ∃ steps : List LoopStep, .timerFires ∉ steps ∧ steps.length ≤ 4 ∧
        ∃ gc', gc.run (steps.map (.loop 0)) = some gc' ∧ ∀ r ∈ gc'.routines, r = .exited := by
  rw [run_append] at hrun
  obtain ⟨gc₁, h₁, hrun⟩ := Option.bind_eq_some.1 hrun
  obtain ⟨gc₂, h₂, hrun⟩ := Option.bind_eq_some.1 hrun
  rw [List.count_append, List.count_cons] at hstart
  have hlen₁ : gc₁.routines.length = pre.count .start := by
    simpa [newGarbageCollector] using length_run pre _ h₁
  have hs₁ : gc₁.Solo :=
    run_solo pre _ solo_newGarbageCollector (by simp [newGarbageCollector]; omega) h₁
  obtain ⟨-, rfl⟩ := stop_eq_some.1 h₂
  have hs₂ : Solo { gc₁ with closed := gc₁.done :: gc₁.closed } :=
    ⟨hs₁.length_le, hs₁.selecting_done, fun _ => List.mem_cons_self _ _⟩
  have hlen₂ : gc₁.routines.length + post.count .start ≤ 1 := by
    simp only [hlen₁]; simp at hstart; omega
  obtain ⟨hst, hcount⟩ := run_stopped post _ hs₂ (.inl (List.mem_cons_self _ _)) hlen₂ hrun
  obtain ⟨steps, hno, hsteps, hexit⟩ :=
    exists_run_exited (run_solo post _ hs₂ hlen₂ hrun) hst
  exact ⟨hcount.trans (Nat.add_le_add_right (stepsLeft_le _) _), steps, hno,
    hsteps.trans (stepsLeft_le gc), hexit⟩

/-- A `Stop` during a `select`: the timer wins once, the goroutine sweeps, and its next
`select` is under way. -/
theorem stop_bounds_steps_by_timer_of_sweep_after_stop :
    ∃ gc, newGarbageCollector.run ([.start, .loop 0 .select, .stop, .loop 0 .timerFires,
        .loop 0 .sweepDone, .loop 0 .select]) = some gc ∧
      [CollectorEvent.start, .loop 0 .select, .stop, .loop 0 .timerFires, .loop 0 .sweepDone,
          .loop 0 .select].count .start ≤ 1 ∧
      [CollectorEvent.loop 0 .timerFires, .loop 0 .sweepDone, .loop 0 .select].countP
          CollectorEvent.isLoopStep ≤
        4 + 3 * [CollectorEvent.loop 0 .timerFires, .loop 0 .sweepDone, .loop 0 .select].countP
          CollectorEvent.isTimerFiring ∧
      ∃ steps : List LoopStep, .timerFires ∉ steps ∧ steps.length ≤ 4 ∧
        ∃ gc', gc.run (steps.map (.loop 0)) = some gc' ∧ ∀ r ∈ gc'.routines, r = .exited :=
  match h : newGarbageCollector.run ([.start, .loop 0 .select, .stop, .loop 0 .timerFires,
      .loop 0 .sweepDone, .loop 0 .select]) with
  | some gc => ⟨gc, rfl, by decide, stop_bounds_steps_by_timer [.start, .loop 0 .select]
      [.loop 0 .timerFires, .loop 0 .sweepDone, .loop 0 .select] gc h (by decide)⟩
  | none => absurd h (by decide)

end GarbageCollector

end DeviceDB
