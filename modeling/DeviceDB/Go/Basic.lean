import Mathlib.Data.List.Basic

/-!
# Go maps, slices and runtime panics

The Go sources keep all of their state in built-in maps and slices. This module fixes
how the development reads them.

* `GoMap κ ν` is a `map[κ]ν`: its entries in the order a `range` loop visits them, under
  pairwise distinct keys. Go randomises that order at every loop, so no theorem of the
  development may depend on it; every statement over a `GoMap` quantifies over all entry
  lists, hence over all iteration orders.
* A map *variable* can also be `nil`. It reads as the empty map, `delete` on it does
  nothing, and an assignment to it panics. Such variables are `Option (GoMap κ ν)`, with
  `none` for `nil`, and are only used where the code can meet a `nil` map.
* Slices are lists indexed by an unsigned 64-bit index; reading or writing past the end
  panics.

`GoPanic` names the run-time panics the modelled code can raise. A computation that may
panic lives in `Except GoPanic`.

The access lemmas (`get?_set`, `get?_delete`, `get?_eq_some_iff`, `mem_keys`) are the only
facts later modules use about a map; none of them unfolds `set` or `delete` again.
-/

/-! ### Unsigned 64-bit comparisons, read on `toNat` -/

namespace UInt64

theorem le_iff_toNat_le {a b : UInt64} : a ≤ b ↔ a.toNat ≤ b.toNat := Iff.rfl

theorem lt_iff_toNat_lt {a b : UInt64} : a < b ↔ a.toNat < b.toNat := Iff.rfl

protected theorem zero_le (a : UInt64) : 0 ≤ a := Nat.zero_le _

theorem toNat_inj {a b : UInt64} : a.toNat = b.toNat ↔ a = b := ⟨toNat.inj, congrArg _⟩

protected theorem lt_of_lt_of_le {a b c : UInt64} (h₁ : a < b) (h₂ : b ≤ c) : a < c :=
  Nat.lt_of_lt_of_le h₁ h₂

protected theorem lt_of_le_of_lt {a b c : UInt64} (h₁ : a ≤ b) (h₂ : b < c) : a < c :=
  Nat.lt_of_le_of_lt h₁ h₂

protected theorem le_of_lt {a b : UInt64} (h : a < b) : a ≤ b := Nat.le_of_lt h

end UInt64

namespace DeviceDB

/-- The run-time panics of the modelled Go code. -/
inductive GoPanic
  /-- `m[k] = v` on a `nil` map. -/
  | assignmentToNilMap
  /-- A field access or method call through a `nil` pointer. -/
  | nilPointerDereference
  /-- `xs[i]` with `i ≥ len(xs)`. -/
  | indexOutOfRange
  deriving DecidableEq, Repr

/-- Results of calls that may panic are compared when runs are evaluated. -/
instance instDecidableEqExcept {ε α : Type} [DecidableEq ε] [DecidableEq α] :
    DecidableEq (Except ε α)
  | .error a, .error b =>
    if h : a = b then isTrue (h ▸ rfl) else isFalse fun he => h (Except.error.inj he)
  | .ok a, .ok b => if h : a = b then isTrue (h ▸ rfl) else isFalse fun he => h (Except.ok.inj he)
  | .error _, .ok _ => isFalse nofun
  | .ok _, .error _ => isFalse nofun

/-- A Go `map[κ]ν`: its entries in `range` order, under distinct keys. -/
structure GoMap (κ ν : Type) where
  entries : List (κ × ν)
  nodupKeys : (entries.map Prod.fst).Nodup
  deriving DecidableEq

namespace GoMap

variable {κ ν : Type} [DecidableEq κ]

/-- `make(map[κ]ν)`. -/
def empty : GoMap κ ν := ⟨[], List.nodup_nil⟩

/-- The keys, in iteration order. -/
def keys (m : GoMap κ ν) : List κ := m.entries.map Prod.fst

/-- `v, ok := m[k]`: the value stored under `k`, `none` when `ok` is false. -/
def get? (m : GoMap κ ν) (k : κ) : Option ν := m.entries.lookup k

/-- `m[k]` on a map of `uint64`s: the zero value `0` when `k` is absent. -/
def read (m : GoMap κ UInt64) (k : κ) : UInt64 := (m.get? k).getD 0

/-- `len(m)`. -/
def len (m : GoMap κ ν) : Nat := m.entries.length

private theorem nodup_filter_keys (m : GoMap κ ν) (k : κ) :
    ((m.entries.filter fun e => e.1 ≠ k).map Prod.fst).Nodup :=
  m.nodupKeys.sublist ((List.filter_sublist _).map _)

/-- `delete(m, k)`. -/
def delete (m : GoMap κ ν) (k : κ) : GoMap κ ν :=
  ⟨m.entries.filter fun e => e.1 ≠ k, nodup_filter_keys m k⟩

/-- `m[k] = v`. Where the new entry goes in iteration order is immaterial. -/
def set (m : GoMap κ ν) (k : κ) (v : ν) : GoMap κ ν :=
  ⟨(k, v) :: m.entries.filter (fun e => e.1 ≠ k), by
    refine List.nodup_cons.2 ⟨fun hk => ?_, nodup_filter_keys m k⟩
    obtain ⟨e, he, rfl⟩ := List.mem_map.1 hk
    exact (of_decide_eq_true (List.mem_filter.1 he).2) rfl⟩

variable {m : GoMap κ ν} {k k' : κ} {v : ν}

private theorem lookup_cons' (a : κ) (b : ν) (l : List (κ × ν)) :
    ((a, b) :: l).lookup k = if k = a then some b else l.lookup k := by
  by_cases h : k = a
  · subst h; simp
  · simp [List.lookup_cons, beq_false_of_ne h, h]

private theorem lookup_filter (l : List (κ × ν)) :
    (l.filter fun e => e.1 ≠ k).lookup k' = if k' = k then none else l.lookup k' := by
  induction l with
  | nil => split <;> rfl
  | cons e l ih =>
    obtain ⟨a, b⟩ := e
    rw [List.filter_cons]
    by_cases ha : a = k
    · subst ha
      simp only [ne_eq, not_true_eq_false, decide_False, ih, lookup_cons']
      split <;> simp_all
    · simp only [ne_eq, ha, not_false_eq_true, decide_True, ite_true, lookup_cons', ih]
      by_cases hk : k' = a <;> simp_all

@[simp] theorem get?_empty : (empty : GoMap κ ν).get? k = none := rfl

omit [DecidableEq κ] in
@[simp] theorem len_empty : (empty : GoMap κ ν).len = 0 := rfl

@[simp] theorem get?_delete : (m.delete k).get? k' = if k' = k then none else m.get? k' :=
  lookup_filter m.entries

@[simp] theorem get?_set : (m.set k v).get? k' = if k' = k then some v else m.get? k' := by
  by_cases h : k' = k <;> simp only [get?, set, lookup_cons', lookup_filter, h, if_true, if_false]

theorem get?_eq_some_iff : m.get? k = some v ↔ (k, v) ∈ m.entries := by
  obtain ⟨l, hl⟩ := m
  simp only [get?]
  induction l with
  | nil => simp
  | cons e l ih =>
    obtain ⟨a, b⟩ := e
    obtain ⟨ha, hl⟩ := List.nodup_cons.1 hl
    by_cases hk : k = a
    · subst hk
      have : (k, v) ∉ l := fun h => ha (List.mem_map.2 ⟨_, h, rfl⟩)
      simp [lookup_cons', this, eq_comm]
    · simp [lookup_cons', hk, ih hl]

theorem mem_keys : k ∈ m.keys ↔ (m.get? k).isSome := by
  simp only [keys, List.mem_map, Option.isSome_iff_exists, get?_eq_some_iff]
  exact ⟨fun ⟨⟨a, b⟩, h, ha⟩ => ⟨b, ha ▸ h⟩, fun ⟨b, h⟩ => ⟨_, h, rfl⟩⟩

theorem get?_eq_none_iff : m.get? k = none ↔ k ∉ m.keys := by
  simp [mem_keys, Option.isNone_iff_eq_none]

omit [DecidableEq κ] in
/-- The length of a map counts its keys. -/
theorem len_eq_keys_length : m.len = m.keys.length := by simp [len, keys]

theorem len_pos_iff : 0 < m.len ↔ ∃ k, (m.get? k).isSome := by
  rw [len_eq_keys_length, List.length_pos_iff_exists_mem]
  simp [mem_keys]

theorem len_eq_zero_iff : m.len = 0 ↔ ∀ k, m.get? k = none := by
  simpa [Option.isNone_iff_eq_none] using (len_pos_iff (m := m)).not

/-- Setting every key of a list to one value, as a `range` loop that collects a set does. -/
theorem get?_foldl_set_const (ks : List κ) (acc : GoMap κ ν) (v : ν) :
    (ks.foldl (fun m k => m.set k v) acc).get? k = if k ∈ ks then some v else acc.get? k := by
  induction ks generalizing acc with
  | nil => simp
  | cons k' ks ih =>
    by_cases h : k = k'
    · subst h
      simp [ih]
    · simp [ih, h]

/-- Copying the entries of a map with distinct keys, through `f`, into another. -/
theorem get?_foldl_set_entries {ν' : Type} (l : List (κ × ν)) (hl : (l.map Prod.fst).Nodup)
    (acc : GoMap κ ν') (f : ν → ν') :
    (l.foldl (fun m e => m.set e.1 (f e.2)) acc).get? k =
      match l.lookup k with
      | some v => some (f v)
      | none => acc.get? k := by
  induction l generalizing acc with
  | nil => rfl
  | cons e l ih =>
    obtain ⟨a, b⟩ := e
    obtain ⟨ha, hl⟩ := List.nodup_cons.1 hl
    rw [List.foldl_cons, ih hl, lookup_cons']
    by_cases hk : k = a
    · subst hk
      have : l.lookup k = none := List.lookup_eq_none_iff.2 fun e he => by
        simpa using fun hk => ha (List.mem_map.2 ⟨e, he, (eq_of_beq hk).symm⟩)
      simp [this]
    · simp [hk]

end GoMap

/-! ### Map variables that may be `nil` -/

/-- A Go map variable: a map, or `nil` (`none`). -/
abbrev MapVar (κ ν : Type) := Option (GoMap κ ν)

namespace MapVar

variable {κ ν : Type} [DecidableEq κ]

/-- `v, ok := m[k]`: a `nil` map has no entries. -/
def get? (m : MapVar κ ν) (k : κ) : Option ν := m.bind (·.get? k)

/-- `m[k] = v`: panics on a `nil` map. -/
def assign (m : MapVar κ ν) (k : κ) (v : ν) : Except GoPanic (MapVar κ ν) :=
  match m with
  | none => .error .assignmentToNilMap
  | some m => .ok (some (m.set k v))

/-- `delete(m, k)`: does nothing on a `nil` map. -/
def delete (m : MapVar κ ν) (k : κ) : MapVar κ ν := m.map (·.delete k)

/-- `len(m)`: `0` for `nil`. -/
def len (m : MapVar κ ν) : Nat := (m.map GoMap.len).getD 0

/-- The entries a `range` loop visits: none for `nil`. -/
def entries (m : MapVar κ ν) : List (κ × ν) := (m.map GoMap.entries).getD []

variable {m m' : MapVar κ ν} {k k' : κ} {v : ν}

@[simp] theorem get?_none : get? (none : MapVar κ ν) k = none := rfl

@[simp] theorem get?_some {g : GoMap κ ν} : get? (some g) k = g.get? k := rfl

theorem assign_eq_ok : assign m k v = .ok m' ↔ ∃ g, m = some g ∧ m' = some (g.set k v) := by
  cases m <;> simp [assign, eq_comm]

@[simp] theorem get?_delete : get? (delete m k) k' = if k' = k then none else get? m k' := by
  cases m <;> simp [delete]

@[simp] theorem isSome_delete : (delete m k).isSome = m.isSome := by
  cases m <;> rfl

theorem mem_entries : (k, v) ∈ entries m ↔ get? m k = some v := by
  cases m <;> simp [entries, GoMap.get?_eq_some_iff]

theorem mem_map_fst_entries : k ∈ (entries m).map Prod.fst ↔ (get? m k).isSome := by
  simp [Option.isSome_iff_exists, mem_entries]

theorem len_pos_iff : 0 < len m ↔ ∃ k, (get? m k).isSome := by
  cases m <;> simp [len, GoMap.len_pos_iff]

theorem len_eq_zero_iff : len m = 0 ↔ ∀ k, get? m k = none := by
  cases m <;> simp [len, GoMap.len_eq_zero_iff]

end MapVar

/-! ### Slices -/

section Slice

variable {α : Type}

/-- `xs[i]`, panicking past the end. -/
def sliceGet (xs : List α) (i : UInt64) : Except GoPanic α :=
  match xs[i.toNat]? with
  | some a => .ok a
  | none => .error .indexOutOfRange

/-- `xs[i] = a`, panicking past the end. -/
def sliceSet (xs : List α) (i : UInt64) (a : α) : Except GoPanic (List α) :=
  if i.toNat < xs.length then .ok (xs.set i.toNat a) else .error .indexOutOfRange

theorem sliceGet_eq_ok {xs : List α} {i : UInt64} {a : α} :
    sliceGet xs i = .ok a ↔ xs[i.toNat]? = some a := by
  cases h : xs[i.toNat]? <;> simp [sliceGet, h]

theorem sliceSet_eq_ok {xs ys : List α} {i : UInt64} {a : α} :
    sliceSet xs i a = .ok ys ↔ i.toNat < xs.length ∧ ys = xs.set i.toNat a := by
  unfold sliceSet; split <;> simp_all [eq_comm]

end Slice

end DeviceDB
