import DeviceDB.Data.Iter

/-!
# The hash of a key's sibling set

`SiblingSet.Hash(key)` is the 128-bit digest the Merkle tree keeps for one key: the XOR of the
siblings' hashes, received over `Iter()`, with the key's own hash mixed in. The `Hash` type,
`NewHash` and `Sibling.Hash` are declared outside the source files. A `Hash` is modelled as
its two 64-bit halves, which `Low()` and `High()` read, and the two hash functions are
parameters: every statement here holds for every choice of them.

* `hash_some`: `Hash(key)` is the XOR `h` of the siblings' hashes, with `NewHash(key)` mixed in
  exactly when both halves of `h` are nonzero.
* `hash_iter_always_finishes`: its loop never returns early, so, unlike `CanPurge`'s, it never
  strands `Iter()`'s goroutine: every run is short, can always go on to an end, and every end
  has the goroutine finished and the XOR computed.
* `hash_omits_key`: a nonzero `h` with one zero half is returned as it is, without the key,
  where the specification has `H(key) ⊕ …` for every key with siblings.
-/

namespace DeviceDB

/-- Modelled from the spec: a 128-bit digest, as its low and high 64-bit halves. -/
structure Hash where
  low : UInt64
  high : UInt64
  deriving DecidableEq, Repr

namespace Hash

/-- `Hash{[2]uint64{0, 0}}`, the zero value of `Hash`. -/
def zero : Hash := ⟨0, 0⟩

/-- Modelled from the spec: `Xor`, half by half. -/
def xor (a b : Hash) : Hash := ⟨a.low ^^^ b.low, a.high ^^^ b.high⟩

private theorem eq_zero_of_xor_eq_self {a b : UInt64} (h : a ^^^ b = a) : b = 0 := by
  apply UInt64.eq_of_toBitVec_eq
  have h' : a.toBitVec ^^^ b.toBitVec = a.toBitVec := congrArg UInt64.toBitVec h
  calc b.toBitVec = a.toBitVec ^^^ (a.toBitVec ^^^ b.toBitVec) := by
        rw [← BitVec.xor_assoc, BitVec.xor_self, BitVec.zero_xor]
    _ = a.toBitVec ^^^ a.toBitVec := by rw [h']
    _ = (0 : UInt64).toBitVec := BitVec.xor_self

/-- Mixing in a digest changes the result unless the digest is zero. -/
theorem xor_eq_self {a b : Hash} (h : a.xor b = a) : b = zero := by
  obtain ⟨low, high⟩ := b
  have hl : a.low ^^^ low = a.low := congrArg Hash.low h
  have hh : a.high ^^^ high = a.high := congrArg Hash.high h
  rw [zero, eq_zero_of_xor_eq_self hl, eq_zero_of_xor_eq_self hh]

private theorem xor_right_comm_uInt64 (a b c : UInt64) : a ^^^ b ^^^ c = a ^^^ c ^^^ b := by
  apply UInt64.eq_of_toBitVec_eq
  show a.toBitVec ^^^ b.toBitVec ^^^ c.toBitVec = a.toBitVec ^^^ c.toBitVec ^^^ b.toBitVec
  rw [BitVec.xor_assoc, BitVec.xor_comm b.toBitVec, ← BitVec.xor_assoc]

/-- Digests can be mixed in in any order. -/
theorem xor_right_comm (a b c : Hash) : (a.xor b).xor c = (a.xor c).xor b := by
  simp only [xor, xor_right_comm_uInt64]

end Hash

namespace SiblingSet

section Hash

variable (siblingHash : Sibling → Hash) (newHash : List UInt8 → Hash)

/-- The XOR of the siblings' hashes, in order. -/
def xorHashes (siblings : List Sibling) : Hash :=
  siblings.foldl (fun result sibling => result.xor (siblingHash sibling)) Hash.zero

/-- The body of `Hash`'s loop: `result = result.Xor(sibling.Hash())`. -/
def hashBody (result : Hash) (sibling : Sibling) : ForInStep Hash :=
  .yield (result.xor (siblingHash sibling))

/-- `Hash(key)` of a `*SiblingSet`, which may be `nil`. -/
def hash (siblingSet : Option SiblingSet) (key : List UInt8) : Hash :=
  match siblingSet with
  | none => Hash.zero
  | some siblingSet =>
    let result := (rangeLoop (hashBody siblingHash) Hash.zero siblingSet.siblings).1
    if result.low ≠ 0 ∧ result.high ≠ 0 then result.xor (newHash key) else result

variable {siblingHash newHash}

/-- `Hash`'s loop receives every sibling. -/
theorem rangeLoop_hashBody (acc : Hash) (siblings : List Sibling) :
    rangeLoop (hashBody siblingHash) acc siblings =
      (siblings.foldl (fun result sibling => result.xor (siblingHash sibling)) acc, []) := by
  induction siblings generalizing acc with
  | nil => rfl
  | cons sibling rest ih => exact ih _

/-- **`Hash(key)`**: the XOR `h` of the siblings' hashes, with the key's hash mixed in when
both halves of `h` are nonzero. -/
theorem hash_some (siblingSet : SiblingSet) (key : List UInt8) :
    hash siblingHash newHash (some siblingSet) key =
      if (xorHashes siblingHash siblingSet.siblings).low ≠ 0 ∧
          (xorHashes siblingHash siblingSet.siblings).high ≠ 0 then
        (xorHashes siblingHash siblingSet.siblings).xor (newHash key)
      else xorHashes siblingHash siblingSet.siblings := by
  simp only [hash, rangeLoop_hashBody, xorHashes]

/-- `Hash`'s loop never leaves the channel early: in every run that has ended, `Iter()`'s
goroutine has sent every sibling and closed the channel. -/
theorem hashBody_iter_finishes (siblingSet : SiblingSet) (events : List IterEvent)
    (st : IterState Hash)
    (hrun : iterRun (hashBody siblingHash) (iterStart siblingSet Hash.zero) events = some st)
    (hend : IterEnded (hashBody siblingHash) st) :
    st.acc = xorHashes siblingHash siblingSet.siblings ∧ st.unsent = [] ∧ st.closed = true := by
  obtain ⟨-, hres, hclosed⟩ := iterRun_ended siblingSet Hash.zero events hrun hend
  rw [rangeLoop_hashBody] at hres
  obtain ⟨hacc, hunsent⟩ := Prod.mk.inj hres
  exact ⟨hacc, hunsent, hclosed.2 hunsent⟩

/-- **`Hash` never strands `Iter()`'s goroutine.** Every run of `Hash`'s loop over `Iter()`, in
any interleaving, takes at most two events per sibling and two more; it can always go on until
it has ended; and however it goes on, at its end the goroutine has sent every sibling and closed
the channel, and the loop holds the XOR of the siblings' hashes. -/
theorem hash_iter_always_finishes (siblingSet : SiblingSet) (events : List IterEvent)
    (st : IterState Hash)
    (hrun : iterRun (hashBody siblingHash) (iterStart siblingSet Hash.zero) events = some st) :
    events.length ≤ 2 * siblingSet.siblings.length + 2 ∧
      (∃ events' st', iterRun (hashBody siblingHash) st events' = some st' ∧
        IterEnded (hashBody siblingHash) st') ∧
      ∀ events' st', iterRun (hashBody siblingHash) st events' = some st' →
        IterEnded (hashBody siblingHash) st' →
          st'.acc = xorHashes siblingHash siblingSet.siblings ∧ st'.unsent = [] ∧
            st'.closed = true := by
  have hlen := iterRun_length_add_measure_le events hrun
  simp only [IterState.measure, iterStart, Bool.false_eq_true, if_false] at hlen
  refine ⟨by omega, exists_iterRun_ended st, fun events' st' h hend => ?_⟩
  -- the whole run, from `Iter()` on, has ended
  exact hashBody_iter_finishes siblingSet (events ++ events') st'
    (by rw [iterRun_append, hrun]; exact h) hend

/-- One sibling, sent and received: the goroutine still has to close the channel. -/
theorem hash_iter_always_finishes_of_one_sibling :
    let siblingSet : SiblingSet := ⟨[⟨⟨⟨"r", 1⟩, .empty⟩, some [1], 0⟩]⟩
    let hashOf : Sibling → Hash := fun _ => ⟨1, 2⟩
    ∃ st, iterRun (hashBody hashOf) (iterStart siblingSet Hash.zero) [.send] = some st ∧
      [IterEvent.send].length ≤ 2 * siblingSet.siblings.length + 2 ∧
      (∃ events' st', iterRun (hashBody hashOf) st events' = some st' ∧
        IterEnded (hashBody hashOf) st') ∧
      ∀ events' st', iterRun (hashBody hashOf) st events' = some st' →
        IterEnded (hashBody hashOf) st' →
          st'.acc = xorHashes hashOf siblingSet.siblings ∧ st'.unsent = [] ∧
            st'.closed = true := by
  intro siblingSet hashOf
  exact ⟨_, rfl, hash_iter_always_finishes siblingSet [.send] _ rfl⟩

/-- **`Hash` leaves the key out of a digest with a zero half.** When one half of the XOR `h`
of the siblings' hashes is zero, `Hash(key)` is `h` itself, and differs from
`h ⊕ NewHash(key)` whenever `NewHash(key)` is nonzero; for a nonzero `h` that is a digest the
key is missing from. -/
theorem hash_omits_key (siblingSet : SiblingSet) (key : List UInt8)
    (hhalf : (xorHashes siblingHash siblingSet.siblings).low = 0 ∨
      (xorHashes siblingHash siblingSet.siblings).high = 0)
    (hkey : newHash key ≠ Hash.zero) :
    hash siblingHash newHash (some siblingSet) key = xorHashes siblingHash siblingSet.siblings ∧
      hash siblingHash newHash (some siblingSet) key ≠
        (xorHashes siblingHash siblingSet.siblings).xor (newHash key) := by
  have hcode : hash siblingHash newHash (some siblingSet) key =
      xorHashes siblingHash siblingSet.siblings := by
    rw [hash_some, if_neg fun h => hhalf.elim h.1 h.2]
  exact ⟨hcode, fun h => hkey (Hash.xor_eq_self (hcode ▸ h).symm)⟩

end Hash

/-- One sibling whose hash has a zero low half, so that the XOR is nonzero with a zero half,
and a key whose hash is nonzero. -/
theorem hash_omits_key_of_low_half :
    let sibling : Sibling := ⟨⟨⟨"r", 1⟩, .empty⟩, some [1], 0⟩
    xorHashes (fun _ => ⟨0, 1⟩) [sibling] ≠ Hash.zero ∧
      ((xorHashes (fun _ => ⟨0, 1⟩) [sibling]).low = 0 ∨
        (xorHashes (fun _ => ⟨0, 1⟩) [sibling]).high = 0) ∧
      (⟨1, 1⟩ : Hash) ≠ Hash.zero ∧
      (hash (fun _ => ⟨0, 1⟩) (fun _ => ⟨1, 1⟩) (some ⟨[sibling]⟩) [107] =
          xorHashes (fun _ => ⟨0, 1⟩) [sibling] ∧
        hash (fun _ => ⟨0, 1⟩) (fun _ => ⟨1, 1⟩) (some ⟨[sibling]⟩) [107] ≠
          (xorHashes (fun _ => ⟨0, 1⟩) [sibling]).xor ⟨1, 1⟩) := by
  intro sibling
  have hne : xorHashes (fun _ => ⟨0, 1⟩) [sibling] ≠ Hash.zero := by decide
  have hhalf : (xorHashes (fun _ => ⟨0, 1⟩) [sibling]).low = 0 ∨
      (xorHashes (fun _ => ⟨0, 1⟩) [sibling]).high = 0 := .inl (by decide)
  have hkey : (⟨1, 1⟩ : Hash) ≠ Hash.zero := by decide
  exact ⟨hne, hhalf, hkey,
    @hash_omits_key (fun _ => ⟨0, 1⟩) (fun _ => ⟨1, 1⟩) ⟨[sibling]⟩ [107] hhalf hkey⟩

end SiblingSet

end DeviceDB
