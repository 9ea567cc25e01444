import DeviceDB.Go.Basic

/-!
# The transfer proposer

`transfer/transfer_proposer.go` proposes to take partition replicas over, one proposal per
call of `QueueTransferProposal(partition, replica, after)`. The call stores a fresh canceler
for the proposal in `transferCancelers[partition][replica]` and starts a goroutine that waits
in a `select` for `after` or for its context to be cancelled; on `after` it calls
`ClusterCommand` and then, under the lock, removes its canceler if the map still holds it.

The methods run under the proposer's lock, so each is one atomic step, and the goroutines'
steps interleave with them. A goroutine is a `Proposal`: where it is in its body, whether a
receive from `after` is ready, and whether its context has been cancelled. A canceler is a
pointer allocated by one call, so it is that call's proposal index. `select` may take any
ready case. The `result` channel and the command's arguments are left out.
-/

namespace DeviceDB

/-- Where a proposal's goroutine is. -/
inductive ProposalPc
  /-- in the `select` on `after` and `ctx.Done()` -/
  | selecting
  /-- took `after` and called `ClusterCommand`, which has not returned -/
  | commanding
  /-- took `ctx.Done()` and returned -/
  | returned
  /-- ran the cleanup under the lock -/
  | finished
  deriving DecidableEq, Repr

/-- One call of `QueueTransferProposal` and its goroutine. -/
structure Proposal where
  partition : UInt64
  replica : UInt64
  /-- a receive from `after` is ready -/
  afterReady : Bool
  /-- the canceler's `Cancel()` has run -/
  ctxDone : Bool
  pc : ProposalPc
  deriving DecidableEq, Repr

/-- `TransferProposer`, with the goroutines its calls started, oldest first. -/
structure TransferProposer where
  transferCancelers : GoMap UInt64 (GoMap UInt64 Nat)
  proposals : List Proposal
  deriving DecidableEq

namespace TransferProposer

/-- `NewTransferProposer`. -/
def newTransferProposer : TransferProposer := ⟨.empty, []⟩

/-- `transferCancelers[partition][replica]`, if there is one. -/
def cancelerAt (tp : TransferProposer) (partition replica : UInt64) : Option Nat :=
  (tp.transferCancelers.get? partition).bind (·.get? replica)

/-- `canceler.Cancel()` for the canceler of proposal `i`. -/
def cancel (tp : TransferProposer) (i : Nat) : TransferProposer :=
  { tp with proposals := tp.proposals.modify (fun q => { q with ctxDone := true }) i }

/-- `delete(transferCancelers[partition], replica)`, and the partition's map once it is
empty: the last lines of both `cancelTransferProposal` and the goroutine's cleanup. -/
def removeCanceler (transferCancelers : GoMap UInt64 (GoMap UInt64 Nat))
    (partition replica : UInt64) : GoMap UInt64 (GoMap UInt64 Nat) :=
  match transferCancelers.get? partition with
  | none => transferCancelers
  | some cancelers =>
    let cancelers := cancelers.delete replica
    if cancelers.len = 0 then transferCancelers.delete partition
    else transferCancelers.set partition cancelers

/-- `QueueTransferProposal(partition, replica, after)`: register a new canceler, replacing
the one stored for the replica, and start the proposal. -/
def queueTransferProposal (tp : TransferProposer) (partition replica : UInt64) :
    TransferProposer :=
  let canceler := tp.proposals.length
  let cancelers := (tp.transferCancelers.get? partition).getD .empty
  { transferCancelers := tp.transferCancelers.set partition (cancelers.set replica canceler)
    proposals := tp.proposals ++ [⟨partition, replica, false, false, .selecting⟩] }

/-- `cancelTransferProposal(partition, replica)`. -/
def cancelTransferProposal (tp : TransferProposer) (partition replica : UInt64) :
    TransferProposer :=
  let tp' := match tp.cancelerAt partition replica with
    | some canceler => tp.cancel canceler
    | none => tp
  { tp' with transferCancelers := removeCanceler tp.transferCancelers partition replica }

/-- `CancelTransferProposals(partition)`: the loop visits every replica the partition's map
holds when it starts, and each iteration deletes only the replica it visits. -/
def cancelTransferProposals (tp : TransferProposer) (partition : UInt64) : TransferProposer :=
  (((tp.transferCancelers.get? partition).map GoMap.keys).getD []).foldl
    (fun tp replica => tp.cancelTransferProposal partition replica) tp

/-- `PendingProposals(partition)`. -/
def pendingProposals (tp : TransferProposer) (partition : UInt64) : Nat :=
  ((tp.transferCancelers.get? partition).map GoMap.len).getD 0

/-- `QueuedProposals()`: a set of replicas for each partition of `transferCancelers`. -/
def queuedProposals (tp : TransferProposer) : GoMap UInt64 (GoMap UInt64 Bool) :=
  tp.transferCancelers.entries.foldl (fun allProposals entry =>
    allProposals.set entry.1 (entry.2.keys.foldl (fun replicas replica =>
      replicas.set replica true) .empty)) .empty

/-- Move proposal `i`'s goroutine to `pc`. -/
def setPc (tp : TransferProposer) (i : Nat) (pc : ProposalPc) : TransferProposer :=
  { tp with proposals := tp.proposals.modify (fun q => { q with pc }) i }

/-- The goroutine's cleanup for proposal `i` of `(partition, replica)`: remove the canceler
only if the map still holds this proposal's. -/
def cleanup (tp : TransferProposer) (i : Nat) (partition replica : UInt64) :
    TransferProposer :=
  if tp.cancelerAt partition replica = some i then
    { tp with transferCancelers := removeCanceler tp.transferCancelers partition replica }
  else tp

end TransferProposer

/-- What can happen next: a method call, `after` becoming ready, or a step of a goroutine. -/
inductive ProposerEvent
  | queueTransferProposal (partition replica : UInt64)
  | cancelTransferProposal (partition replica : UInt64)
  | cancelTransferProposals (partition : UInt64)
  /-- `after` of proposal `i` becomes ready -/
  | fireAfter (i : Nat)
  /-- proposal `i`'s `select` takes `<-after`, and the goroutine calls `ClusterCommand` -/
  | takeAfter (i : Nat)
  /-- proposal `i`'s `select` takes `<-ctx.Done()`, and the goroutine returns -/
  | takeDone (i : Nat)
  /-- proposal `i`'s `ClusterCommand` returns, and the goroutine cleans up -/
  | finishCommand (i : Nat)
  deriving DecidableEq, Repr

namespace TransferProposer

/-- One step; `none` when the event cannot happen now. -/
def step (tp : TransferProposer) : ProposerEvent → Option TransferProposer
  | .queueTransferProposal partition replica => some (tp.queueTransferProposal partition replica)
  | .cancelTransferProposal partition replica =>
    some (tp.cancelTransferProposal partition replica)
  | .cancelTransferProposals partition => some (tp.cancelTransferProposals partition)
  | .fireAfter i => (tp.proposals[i]?).map fun _ =>
    { tp with proposals := tp.proposals.modify (fun q => { q with afterReady := true }) i }
  | .takeAfter i => match tp.proposals[i]? with
    | some q => if q.pc = .selecting ∧ q.afterReady then some (tp.setPc i .commanding) else none
    | none => none
  | .takeDone i => match tp.proposals[i]? with
    | some q => if q.pc = .selecting ∧ q.ctxDone then some (tp.setPc i .returned) else none
    | none => none
  | .finishCommand i => match tp.proposals[i]? with
    | some q =>
      if q.pc = .commanding then some ((tp.setPc i .finished).cleanup i q.partition q.replica)
      else none
    | none => none

/-- Events one after another; `none` once one cannot happen. -/
def run (tp : TransferProposer) (events : List ProposerEvent) : Option TransferProposer :=
  events.foldlM step tp

end TransferProposer

/-! ### What each step does to the map and to the goroutines -/

namespace TransferProposer

variable {tp tp' : TransferProposer} {p p' r r' : UInt64} {i j : Nat}

/-- `removeCanceler` forgets the canceler of `(partition, replica)` and no other. -/
theorem bind_get?_removeCanceler (tc : GoMap UInt64 (GoMap UInt64 Nat)) :
    ((removeCanceler tc p r).get? p').bind (·.get? r') =
      if p' = p ∧ r' = r then none else (tc.get? p').bind (·.get? r') := by
  unfold removeCanceler
  cases h : tc.get? p with
  | none => by_cases hp : p' = p <;> simp_all
  | some cancelers =>
    dsimp only
    by_cases hp : p' = p
    · subst hp
      split
      · have := GoMap.len_eq_zero_iff.1 ‹_› r'
        by_cases hr : r' = r <;> simp_all
      · by_cases hr : r' = r <;> simp_all
    · split <;> simp [hp]

/-- `removeCanceler` leaves no partition with an empty map. -/
theorem len_pos_removeCanceler {tc : GoMap UInt64 (GoMap UInt64 Nat)}
    (h : ∀ p cancelers, tc.get? p = some cancelers → 0 < cancelers.len) (p r : UInt64) :
    ∀ p' cancelers, (removeCanceler tc p r).get? p' = some cancelers → 0 < cancelers.len := by
  intro p' cancelers hp'
  unfold removeCanceler at hp'
  split at hp'
  · exact h p' cancelers hp'
  · dsimp only at hp'
    split at hp' <;> rename_i hlen
    · by_cases hp : p' = p
      · simp [hp] at hp'
      · exact h p' cancelers (by simpa [hp] using hp')
    · by_cases hp : p' = p
      · simp only [hp, GoMap.get?_set, if_true, Option.some.injEq] at hp'
        exact hp' ▸ Nat.pos_of_ne_zero hlen
      · exact h p' cancelers (by simpa [hp] using hp')

@[simp] theorem cancelerAt_queueTransferProposal :
    (tp.queueTransferProposal p r).cancelerAt p' r' =
      if p' = p ∧ r' = r then some tp.proposals.length else tp.cancelerAt p' r' := by
  unfold cancelerAt queueTransferProposal
  by_cases hp : p' = p
  · subst hp
    cases tp.transferCancelers.get? p' <;> by_cases hr : r' = r <;> simp [hr]
  · simp [hp]

theorem len_pos_queueTransferProposal
    (h : ∀ p cancelers, tp.transferCancelers.get? p = some cancelers → 0 < cancelers.len) :
    ∀ p' cancelers, (tp.queueTransferProposal p r).transferCancelers.get? p' = some cancelers →
      0 < cancelers.len := by
  intro p' cancelers hp'
  by_cases hp : p' = p
  · simp only [queueTransferProposal, hp, GoMap.get?_set, if_true, Option.some.injEq] at hp'
    exact hp' ▸ GoMap.len_pos_iff.2 ⟨r, by simp⟩
  · exact h p' cancelers (by simpa [queueTransferProposal, hp] using hp')

@[simp] theorem proposals_queueTransferProposal :
    (tp.queueTransferProposal p r).proposals = tp.proposals ++ [⟨p, r, false, false, .selecting⟩] :=
  rfl

@[simp] theorem transferCancelers_cancelTransferProposal :
    (tp.cancelTransferProposal p r).transferCancelers =
      removeCanceler tp.transferCancelers p r := by
  unfold cancelTransferProposal
  split <;> rfl

theorem getElem?_cancelTransferProposal : (tp.cancelTransferProposal p r).proposals[j]? =
    (tp.proposals[j]?).map fun q =>
      if tp.cancelerAt p r = some j then { q with ctxDone := true } else q := by
  unfold cancelTransferProposal cancel
  split <;> rename_i h <;> simp [List.getElem?_modify, h]

@[simp] theorem transferCancelers_setPc (pc : ProposalPc) :
    (tp.setPc i pc).transferCancelers = tp.transferCancelers := rfl

@[simp] theorem cancelerAt_setPc (pc : ProposalPc) :
    (tp.setPc i pc).cancelerAt p r = tp.cancelerAt p r := rfl

theorem getElem?_setPc (pc : ProposalPc) : (tp.setPc i pc).proposals[j]? =
    (tp.proposals[j]?).map fun q => if i = j then { q with pc } else q :=
  List.getElem?_modify ..

@[simp] theorem proposals_cleanup : (tp.cleanup i p r).proposals = tp.proposals := by
  unfold cleanup
  split <;> rfl

theorem transferCancelers_cleanup : (tp.cleanup i p r).transferCancelers =
    if tp.cancelerAt p r = some i then removeCanceler tp.transferCancelers p r
    else tp.transferCancelers := by
  unfold cleanup
  split <;> rfl

/-! #### The goroutines' steps, inverted -/

theorem step_fireAfter : tp.step (.fireAfter i) = some tp' ↔ (tp.proposals[i]?).isSome ∧
    tp' = { tp with proposals := tp.proposals.modify (fun q => { q with afterReady := true }) i } := by
  cases h : tp.proposals[i]? <;> simp [step, h, eq_comm]

theorem step_takeAfter : tp.step (.takeAfter i) = some tp' ↔ ∃ q, tp.proposals[i]? = some q ∧
    q.pc = .selecting ∧ q.afterReady ∧ tp' = tp.setPc i .commanding := by
  simp only [step]
  cases tp.proposals[i]? with
  | none => simp
  | some q =>
    simp only [Option.some.injEq, exists_eq_left']
    split <;> rename_i hq
    · simpa [hq] using eq_comm
    · exact ⟨(fun h => nomatch h), fun ⟨h₁, h₂, _⟩ => absurd ⟨h₁, h₂⟩ hq⟩

theorem step_takeDone : tp.step (.takeDone i) = some tp' ↔ ∃ q, tp.proposals[i]? = some q ∧
    q.pc = .selecting ∧ q.ctxDone ∧ tp' = tp.setPc i .returned := by
  simp only [step]
  cases tp.proposals[i]? with
  | none => simp
  | some q =>
    simp only [Option.some.injEq, exists_eq_left']
    split <;> rename_i hq
    · simpa [hq] using eq_comm
    · exact ⟨(fun h => nomatch h), fun ⟨h₁, h₂, _⟩ => absurd ⟨h₁, h₂⟩ hq⟩

theorem step_finishCommand : tp.step (.finishCommand i) = some tp' ↔ ∃ q,
    tp.proposals[i]? = some q ∧ q.pc = .commanding ∧
      tp' = (tp.setPc i .finished).cleanup i q.partition q.replica := by
  simp only [step]
  cases tp.proposals[i]? with
  | none => simp
  | some q =>
    simp only [Option.some.injEq, exists_eq_left']
    split <;> rename_i hq
    · simpa [hq] using eq_comm
    · exact ⟨(fun h => nomatch h), fun ⟨h₁, _⟩ => absurd h₁ hq⟩

theorem run_cons (e : ProposerEvent) (events : List ProposerEvent) :
    tp.run (e :: events) = (tp.step e).bind (·.run events) := rfl

end TransferProposer

end DeviceDB
