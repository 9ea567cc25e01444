import DeviceDB.Go.Basic

/-!
# Dotted version vectors

`siblingSet.go` compares sibling clocks with `HappenedBefore` and `Equals`, reads them with
`MaxDot` and `Replicas`, and builds new ones with `NewDVV(NewDot(replica, s+1), context)`.
The clock type and these methods are declared outside the source files, so they are
modelled here from §3 of the specification: a DVV is a dot `(replicaID, counter)` together
with a context `map[string]uint64`, and

  `A ≺ B` iff `A.context[r] ≤ B.context[r]` for every `r` (absent = 0),
  `A.dot.counter ≤ B.context[A.dot.replicaID]`, and one of these inequalities is strict.

Equality is componentwise, absent context entries again reading as `0`.

Both relations quantify over every replica ID; `happenedBefore_iff_keys` and
`equals_iff_keys` cut the quantifiers down to the keys of the two contexts, which is what
makes them decidable and the model executable.

What the merge proofs of `SiblingSet.sync` need of the clock order is collected at the end:
`≺` is transitive (`HappenedBefore.trans`), `Equals` is an equivalence, and `≺` reads
through `Equals` on either side (`HappenedBefore.of_equals_left`, `of_equals_right`).
-/

namespace DeviceDB

/-- Modelled from the spec: a dot, one event `(replicaID, counter)` issued by a replica. -/
structure Dot where
  replicaID : String
  counter : UInt64
  deriving DecidableEq, Repr

/-- Modelled from the spec: a dotted version vector, the new event `dot` together with the
causal history `context` its writer had observed. -/
structure DVV where
  dot : Dot
  context : GoMap String UInt64
  deriving DecidableEq

namespace DVV

/-- `context[r]`: the context entry of `r`, absent entries reading as `0`. -/
def ctx (c : DVV) (r : String) : UInt64 := c.context.read r

/-- Modelled from the spec (§3): the happens-before order `a ≺ b` on clocks. -/
def HappenedBefore (a b : DVV) : Prop :=
  (∀ r, a.ctx r ≤ b.ctx r) ∧ a.dot.counter ≤ b.ctx a.dot.replicaID ∧
    ((∃ r, a.ctx r < b.ctx r) ∨ a.dot.counter < b.ctx a.dot.replicaID)

/-- Modelled from the spec (§3): componentwise equality of clocks. -/
def Equals (a b : DVV) : Prop :=
  a.dot = b.dot ∧ ∀ r, a.ctx r = b.ctx r

/-- Modelled from the spec: `MaxDot(r)`, the largest counter the clock records for `r`, from
its dot when the dot is `r`'s and from its context. -/
def maxDot (c : DVV) (r : String) : UInt64 :=
  if c.dot.replicaID = r ∧ c.ctx r < c.dot.counter then c.dot.counter else c.ctx r

/-- Modelled from the spec: `Replicas()`, every replica the clock mentions, each once. -/
def replicas (c : DVV) : List String :=
  if c.dot.replicaID ∈ c.context.keys then c.context.keys
  else c.context.keys ++ [c.dot.replicaID]

/-- A clock as `Event` builds it: its dot lies beyond its own context entry for the dot's
replica. -/
def WellFormed (c : DVV) : Prop := c.ctx c.dot.replicaID < c.dot.counter

instance (c : DVV) : Decidable c.WellFormed := inferInstanceAs (Decidable (_ < _))

variable {a b c : DVV} {r : String}

/-- A well-formed clock does not happen before itself: its dot lies beyond its own entry. -/
theorem WellFormed.not_happenedBefore_self (h : c.WellFormed) : ¬ c.HappenedBefore c :=
  fun hc => absurd h (UInt64.not_lt.2 hc.2.1)

theorem ctx_eq_zero (h : r ∉ c.context.keys) : c.ctx r = 0 := by
  simp [ctx, GoMap.read, GoMap.get?_eq_none_iff.2 h]

theorem happenedBefore_iff_keys : a.HappenedBefore b ↔
    (∀ r ∈ a.context.keys, a.ctx r ≤ b.ctx r) ∧ a.dot.counter ≤ b.ctx a.dot.replicaID ∧
      ((∃ r ∈ b.context.keys, a.ctx r < b.ctx r) ∨ a.dot.counter < b.ctx a.dot.replicaID) := by
  refine and_congr ⟨fun h r _ => h r, fun h r => ?_⟩ (and_congr Iff.rfl (or_congr ?_ Iff.rfl))
  · by_cases hr : r ∈ a.context.keys
    · exact h r hr
    · simp [ctx_eq_zero hr, UInt64.le_iff_toNat_le]
  · refine ⟨fun ⟨r, hr⟩ => ⟨r, ?_, hr⟩, fun ⟨r, _, hr⟩ => ⟨r, hr⟩⟩
    by_contra hb
    simp [ctx_eq_zero hb, UInt64.lt_iff_toNat_lt] at hr

instance (a b : DVV) : Decidable (a.HappenedBefore b) :=
  decidable_of_iff _ happenedBefore_iff_keys.symm

theorem equals_iff_keys : a.Equals b ↔
    a.dot = b.dot ∧ ∀ r ∈ a.context.keys ++ b.context.keys, a.ctx r = b.ctx r := by
  refine and_congr Iff.rfl ⟨fun h r _ => h r, fun h r => ?_⟩
  by_cases hr : r ∈ a.context.keys ++ b.context.keys
  · exact h r hr
  · simp only [List.mem_append, not_or] at hr
    rw [ctx_eq_zero hr.1, ctx_eq_zero hr.2]

instance (a b : DVV) : Decidable (a.Equals b) :=
  decidable_of_iff _ equals_iff_keys.symm

/-! ### `MaxDot` and `Replicas` -/

theorem ctx_le_maxDot (c : DVV) (r : String) : c.ctx r ≤ c.maxDot r := by
  unfold maxDot
  split
  · next h => exact UInt64.le_iff_toNat_le.2 (Nat.le_of_lt h.2)
  · exact UInt64.le_refl _

theorem counter_le_maxDot (c : DVV) : c.dot.counter ≤ c.maxDot c.dot.replicaID := by
  unfold maxDot
  split
  · exact UInt64.le_refl _
  · next h => simpa using h

theorem mem_replicas : r ∈ c.replicas ↔ r ∈ c.context.keys ∨ r = c.dot.replicaID := by
  unfold replicas
  split
  · next h => exact ⟨.inl, fun h' => h'.elim id (· ▸ h)⟩
  · simp

/-! ### The clock order -/

/-- `≺` is transitive: each inequality chains, and the strict one survives. -/
theorem HappenedBefore.trans (hab : a.HappenedBefore b) (hbc : b.HappenedBefore c) :
    a.HappenedBefore c := by
  obtain ⟨hab₁, hab₂, hab₃⟩ := hab
  obtain ⟨hbc₁, -, -⟩ := hbc
  simp only [HappenedBefore, UInt64.le_iff_toNat_le, UInt64.lt_iff_toNat_lt] at *
  have hd := hbc₁ a.dot.replicaID
  refine ⟨fun r => (hab₁ r).trans (hbc₁ r), hab₂.trans hd, ?_⟩
  rcases hab₃ with ⟨r, hr⟩ | hr
  · exact .inl ⟨r, hr.trans_le (hbc₁ r)⟩
  · exact .inr (hr.trans_le hd)

@[refl] theorem Equals.refl (a : DVV) : a.Equals a := ⟨rfl, fun _ => rfl⟩

@[symm] theorem Equals.symm (h : a.Equals b) : b.Equals a :=
  ⟨h.1.symm, fun r => (h.2 r).symm⟩

theorem Equals.trans (hab : a.Equals b) (hbc : b.Equals c) : a.Equals c :=
  ⟨hab.1.trans hbc.1, fun r => (hab.2 r).trans (hbc.2 r)⟩

/-- `≺` only reads the components `Equals` compares, on its left. -/
theorem HappenedBefore.of_equals_left (hab : a.Equals b) (hbc : b.HappenedBefore c) :
    a.HappenedBefore c := by
  obtain ⟨hd, hctx⟩ := hab
  simpa only [HappenedBefore, hd, hctx] using hbc

/-- `≺` only reads the components `Equals` compares, on its right. -/
theorem HappenedBefore.of_equals_right (hab : a.HappenedBefore b) (hbc : b.Equals c) :
    a.HappenedBefore c := by
  obtain ⟨-, hctx⟩ := hbc
  simpa only [HappenedBefore, hctx] using hab

/-- `b` covers `a`: `a ≺ b`, or the two clocks are equal. This is what `Sync` drops one of
our siblings for. -/
def CoveredBy (a b : DVV) : Prop := a.HappenedBefore b ∨ a.Equals b

theorem HappenedBefore.trans_coveredBy (hab : a.HappenedBefore b) (hbc : b.CoveredBy c) :
    a.HappenedBefore c :=
  hbc.elim hab.trans hab.of_equals_right

theorem CoveredBy.trans_happenedBefore (hab : a.CoveredBy b) (hbc : b.HappenedBefore c) :
    a.HappenedBefore c :=
  hab.elim (·.trans hbc) (HappenedBefore.of_equals_left · hbc)

theorem CoveredBy.trans (hab : a.CoveredBy b) (hbc : b.CoveredBy c) : a.CoveredBy c :=
  hab.elim (fun h => .inl (h.trans_coveredBy hbc))
    (fun h => hbc.elim (fun h' => .inl (HappenedBefore.of_equals_left h h'))
      (fun h' => .inr (h.trans h')))

end DVV

end DeviceDB
