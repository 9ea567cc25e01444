import DeviceDB.Cluster.State

/-!
# What one call changes

`AssignToken`, `AssignPartitionReplica` and `RemoveNode` keep the nodes' own sets in step
with the tables by hand: every write to `Tokens` or to a `Holder` comes with a
`takeToken`/`relinquishToken` or a `takePartitionReplica`/`relinquishPartitionReplica` on
the nodes concerned. This module states what each call changes, from any state whose sets
mirror the tables.

* `Mirrors`: every node's sets mirror `Tokens` and `Partitions`, every nonzero owner and
  holder is a node, and no node keeps an empty set of replicas for a partition.
  `Consistent` adds what the calls need to run as written: `0`, the tables' nobody, is no
  node, and every node's maps are made.
* Under `Consistent` the tables decide every membership (`Consistent.ownsToken_iff_owner`,
  `Consistent.holdsReplica_iff_holder`), and a state whose tables decide its memberships is
  consistent (`Consistent.of_owner_holder`). What a call does to the memberships therefore
  follows from what it does to the tables and to the node set.
* `TokenMoved`, `ReplicaMoved`, `NodeRemoved`: the effect of a call on the tables, the
  nodes and the memberships, and nothing else. Each keeps `Consistent`
  (`TokenMoved.consistent`, ...).
* `Consistent.assignToken`, `Consistent.assignPartitionReplica`, `Consistent.removeNode`: from
  a consistent state each call either returns an error and changes nothing, or has exactly its
  effect; `consistent_calls` (in `Ownership`) puts the three together.
-/

namespace DeviceDB

namespace ClusterState

/-- `token ∈ Nodes[node].Tokens`, for a node of the ring. -/
def OwnsToken (cs : ClusterState) (node token : UInt64) : Prop :=
  ∃ nc ∈ cs.nodes.get? node, nc.OwnsToken token

/-- `replica ∈ Nodes[node].PartitionReplicas[partition]`, for a node of the ring. -/
def HoldsReplica (cs : ClusterState) (node partition replica : UInt64) : Prop :=
  ∃ nc ∈ cs.nodes.get? node, nc.HoldsReplica partition replica

instance (cs : ClusterState) (node token : UInt64) : Decidable (cs.OwnsToken node token) :=
  inferInstanceAs (Decidable (∃ nc ∈ cs.nodes.get? node, nc.OwnsToken token))

instance (cs : ClusterState) (node partition replica : UInt64) :
    Decidable (cs.HoldsReplica node partition replica) :=
  inferInstanceAs (Decidable (∃ nc ∈ cs.nodes.get? node, nc.HoldsReplica partition replica))

variable {cs cs' : ClusterState} {n node token partition replica t p r : UInt64}
  {nc : NodeConfig}

theorem ownsToken_of_get? (hn : cs.nodes.get? n = some nc) :
    cs.OwnsToken n t ↔ nc.OwnsToken t := by
  simp [OwnsToken, hn]

theorem holdsReplica_of_get? (hn : cs.nodes.get? n = some nc) :
    cs.HoldsReplica n p r ↔ nc.HoldsReplica p r := by
  simp [HoldsReplica, hn]

/-- The ownership invariant, as the tables and the nodes' sets state it. -/
structure Mirrors (cs : ClusterState) : Prop where
  /-- `Partitions` is a `Partitions × ReplicationFactor` table. -/
  shape : cs.partitions.map List.length =
    List.replicate cs.clusterSettings.partitions.toNat cs.clusterSettings.replicationFactor.toNat
  /-- A node owns exactly the tokens `Tokens` assigns to it. -/
  ownsToken_iff : ∀ (n : UInt64) (nc : NodeConfig) (t : UInt64), cs.nodes.get? n = some nc →
    (nc.OwnsToken t ↔ cs.tokens[t.toNat]? = some n)
  /-- A node holds exactly the replicas whose `Holder` it is. -/
  holdsReplica_iff : ∀ (n : UInt64) (nc : NodeConfig) (p r : UInt64),
    cs.nodes.get? n = some nc → (nc.HoldsReplica p r ↔ holderAt cs.partitions p r = some n)
  /-- Every owner but nobody is a node. -/
  owner_mem : ∀ (t n : UInt64), cs.tokens[t.toNat]? = some n → n ≠ 0 →
    (cs.nodes.get? n).isSome
  /-- Every holder but nobody is a node. -/
  holder_mem : ∀ (p r n : UInt64), holderAt cs.partitions p r = some n → n ≠ 0 →
    (cs.nodes.get? n).isSome
  /-- No node keeps an empty set of replicas for a partition. -/
  len_pos : ∀ (n : UInt64) (nc : NodeConfig) (p : UInt64) (replicas : MapVar UInt64 Bool),
    cs.nodes.get? n = some nc → MapVar.get? nc.partitionReplicas p = some replicas →
      0 < MapVar.len replicas

/-- `Mirrors`, and what the calls need to run as written. -/
structure Consistent (cs : ClusterState) extends cs.Mirrors : Prop where
  /-- `0`, which the tables use for nobody, is no node. -/
  zero_not_mem : cs.nodes.get? 0 = none
  /-- Every node's two maps are made. -/
  made : ∀ (n : UInt64) (nc : NodeConfig), cs.nodes.get? n = some nc →
    nc.tokens.isSome ∧ nc.partitionReplicas.isSome

theorem Consistent.wellFormed (h : cs.Consistent) (hn : cs.nodes.get? n = some nc) :
    nc.WellFormed :=
  ⟨(h.made n nc hn).1, (h.made n nc hn).2, fun p replicas => h.len_pos n nc p replicas hn⟩

private theorem ne_zero_of_get? (hzero : cs.nodes.get? 0 = none)
    (hn : cs.nodes.get? n = some nc) : n ≠ 0 := by
  rintro rfl
  simp [hzero] at hn

/-! ### The tables decide the memberships -/

/-- **Under the invariant, `Tokens` decides who owns a token.** -/
theorem Consistent.ownsToken_iff_owner (h : cs.Consistent) :
    cs.OwnsToken n t ↔ cs.tokens[t.toNat]? = some n ∧ n ≠ 0 := by
  constructor
  · rintro ⟨nc, hn, ht⟩
    exact ⟨(h.ownsToken_iff n nc t hn).1 ht, ne_zero_of_get? h.zero_not_mem hn⟩
  · rintro ⟨ht, h0⟩
    obtain ⟨nc, hn⟩ := Option.isSome_iff_exists.1 (h.owner_mem t n ht h0)
    exact ⟨nc, hn, (h.ownsToken_iff n nc t hn).2 ht⟩

/-- **Under the invariant, `Partitions` decides who holds a replica.** -/
theorem Consistent.holdsReplica_iff_holder (h : cs.Consistent) :
    cs.HoldsReplica n p r ↔ holderAt cs.partitions p r = some n ∧ n ≠ 0 := by
  constructor
  · rintro ⟨nc, hn, hr⟩
    exact ⟨(h.holdsReplica_iff n nc p r hn).1 hr, ne_zero_of_get? h.zero_not_mem hn⟩
  · rintro ⟨hr, h0⟩
    obtain ⟨nc, hn⟩ := Option.isSome_iff_exists.1 (h.holder_mem p r n hr h0)
    exact ⟨nc, hn, (h.holdsReplica_iff n nc p r hn).2 hr⟩

/-- A state whose tables decide its memberships, and whose node configurations can be
written to, is consistent. -/
theorem Consistent.of_owner_holder
    (hshape : cs.partitions.map List.length = List.replicate
      cs.clusterSettings.partitions.toNat cs.clusterSettings.replicationFactor.toNat)
    (hzero : cs.nodes.get? 0 = none)
    (hwf : ∀ n nc, cs.nodes.get? n = some nc → nc.WellFormed)
    (hown : ∀ n t, cs.OwnsToken n t ↔ cs.tokens[t.toNat]? = some n ∧ n ≠ 0)
    (hhold : ∀ n p r, cs.HoldsReplica n p r ↔ holderAt cs.partitions p r = some n ∧ n ≠ 0) :
    cs.Consistent where
  shape := hshape
  ownsToken_iff n nc t hn := by
    rw [← ownsToken_of_get? hn, hown, and_iff_left (ne_zero_of_get? hzero hn)]
  holdsReplica_iff n nc p r hn := by
    rw [← holdsReplica_of_get? hn, hhold, and_iff_left (ne_zero_of_get? hzero hn)]
  owner_mem t n ht h0 := by
    obtain ⟨nc, hn, -⟩ := (hown n t).2 ⟨ht, h0⟩
    exact Option.isSome_iff_exists.2 ⟨nc, hn⟩
  holder_mem p r n hr h0 := by
    obtain ⟨nc, hn, -⟩ := (hhold n p r).2 ⟨hr, h0⟩
    exact Option.isSome_iff_exists.2 ⟨nc, hn⟩
  len_pos n nc _ _ hn := (hwf n nc hn).len_pos _ _
  zero_not_mem := hzero
  made n nc hn := ⟨(hwf n nc hn).tokens_isSome, (hwf n nc hn).partitionReplicas_isSome⟩

/-! ### The effect of each call -/

/-- `cs'` is `cs` after `token` moved to `node`: `Tokens[token]` is `node`, the token is in
`node`'s set and in no other, and nothing else changed. -/
structure TokenMoved (cs cs' : ClusterState) (node token : UInt64) : Prop where
  tokens_eq : cs'.tokens = cs.tokens.set token.toNat node
  partitions_eq : cs'.partitions = cs.partitions
  clusterSettings_eq : cs'.clusterSettings = cs.clusterSettings
  address_eq : ∀ n, (cs'.nodes.get? n).map NodeConfig.address =
    (cs.nodes.get? n).map NodeConfig.address
  ownsToken_iff : ∀ n t, cs'.OwnsToken n t ↔ if t = token then n = node else cs.OwnsToken n t
  holdsReplica_iff : ∀ n p r, cs'.HoldsReplica n p r ↔ cs.HoldsReplica n p r

/-- `cs'` is `cs` after replica `replica` of `partition` moved to `node`: its `Holder` is
`node`, the replica is in `node`'s set and in no other, and nothing else changed. -/
structure ReplicaMoved (cs cs' : ClusterState) (partition replica node : UInt64) : Prop where
  tokens_eq : cs'.tokens = cs.tokens
  withoutHolders_eq : withoutHolders cs'.partitions = withoutHolders cs.partitions
  holderAt_eq : ∀ p r, holderAt cs'.partitions p r =
    if p = partition ∧ r = replica then some node else holderAt cs.partitions p r
  clusterSettings_eq : cs'.clusterSettings = cs.clusterSettings
  address_eq : ∀ n, (cs'.nodes.get? n).map NodeConfig.address =
    (cs.nodes.get? n).map NodeConfig.address
  ownsToken_iff : ∀ n t, cs'.OwnsToken n t ↔ cs.OwnsToken n t
  holdsReplica_iff : ∀ n p r, cs'.HoldsReplica n p r ↔
    if p = partition ∧ r = replica then n = node else cs.HoldsReplica n p r

/-- `cs'` is `cs` after `node` left: its configuration is gone, exactly the tokens it owned
and the replicas it held now belong to nobody, and nothing else changed. -/
structure NodeRemoved (cs cs' : ClusterState) (node : UInt64) : Prop where
  get?_nodes : ∀ n, cs'.nodes.get? n = if n = node then none else cs.nodes.get? n
  tokens_length : cs'.tokens.length = cs.tokens.length
  getElem?_tokens : ∀ t : UInt64, cs'.tokens[t.toNat]? =
    if cs.tokens[t.toNat]? = some node then some 0 else cs.tokens[t.toNat]?
  withoutHolders_eq : withoutHolders cs'.partitions = withoutHolders cs.partitions
  holderAt_eq : ∀ p r, holderAt cs'.partitions p r =
    if holderAt cs.partitions p r = some node then some 0 else holderAt cs.partitions p r
  clusterSettings_eq : cs'.clusterSettings = cs.clusterSettings

/-- An entry that `RemoveNode(node)` clears names a node exactly when it named one other
than `node` before. -/
private theorem cleared_iff {old : Option UInt64} {node m : UInt64} :
    ((if old = some node then some 0 else old) = some m ∧ m ≠ 0) ↔
      m ≠ node ∧ old = some m ∧ m ≠ 0 := by
  by_cases h : old = some node
  · simp only [h, if_true, Option.some.injEq]
    exact ⟨fun ⟨h0, hm⟩ => absurd h0.symm hm, fun ⟨hm, he, _⟩ => absurd he hm.symm⟩
  · rw [if_neg h]
    exact ⟨fun ⟨he, hm⟩ => ⟨fun hmn => h (hmn ▸ he), he, hm⟩, fun ⟨_, he, hm⟩ => ⟨he, hm⟩⟩

theorem NodeRemoved.consistent (hm : cs.NodeRemoved cs' node) (h : cs.Consistent) :
    cs'.Consistent := by
  have hget : ∀ m mc, cs'.nodes.get? m = some mc → cs.nodes.get? m = some mc := fun m mc hm' => by
    rw [hm.get?_nodes] at hm'
    split at hm'
    · cases hm'
    · exact hm'
  have hmem : ∀ m (P : NodeConfig → Prop), (∃ mc ∈ cs'.nodes.get? m, P mc) ↔
      m ≠ node ∧ ∃ mc ∈ cs.nodes.get? m, P mc := fun m P => by
    rw [hm.get?_nodes]
    by_cases hmn : m = node <;> simp [hmn]
  refine .of_owner_holder ?_ (by simp [hm.get?_nodes, h.zero_not_mem])
    (fun m mc hm' => h.wellFormed (hget m mc hm')) (fun m t => ?_) (fun m p r => ?_)
  · rw [hm.clusterSettings_eq, map_length_of_withoutHolders hm.withoutHolders_eq, h.shape]
  · rw [OwnsToken, hmem, ← OwnsToken, h.ownsToken_iff_owner, hm.getElem?_tokens, cleared_iff]
  · rw [HoldsReplica, hmem, ← HoldsReplica, h.holdsReplica_iff_holder, hm.holderAt_eq,
      cleared_iff]

private theorem eq_iff_some_eq {node m : UInt64} (hnode : node ≠ 0) :
    m = node ↔ some node = some m ∧ m ≠ 0 :=
  ⟨fun h => ⟨congrArg some h.symm, h ▸ hnode⟩, fun h => (Option.some.inj h.1).symm⟩

theorem TokenMoved.consistent (hm : cs.TokenMoved cs' node token) (h : cs.Consistent)
    (hnode : node ≠ 0) (ht : token.toNat < cs.tokens.length)
    (hwf : ∀ n nc, cs'.nodes.get? n = some nc → nc.WellFormed) : cs'.Consistent := by
  refine .of_owner_holder ?_ (Option.map_eq_none'.1 ((hm.address_eq 0).trans
    (by simp [h.zero_not_mem]))) hwf (fun m t => ?_) (fun m p r => ?_)
  · rw [hm.partitions_eq, hm.clusterSettings_eq, h.shape]
  · rw [hm.ownsToken_iff, hm.tokens_eq]
    by_cases htt : t = token
    · rw [if_pos htt, htt, List.getElem?_set_self ht, eq_iff_some_eq hnode]
    · rw [if_neg htt, List.getElem?_set_ne fun he => htt (UInt64.toNat_inj.1 he.symm),
        h.ownsToken_iff_owner]
  · rw [hm.holdsReplica_iff, hm.partitions_eq, h.holdsReplica_iff_holder]

theorem ReplicaMoved.consistent (hm : cs.ReplicaMoved cs' partition replica node)
    (h : cs.Consistent) (hnode : node ≠ 0)
    (hwf : ∀ n nc, cs'.nodes.get? n = some nc → nc.WellFormed) : cs'.Consistent := by
  refine .of_owner_holder ?_ (Option.map_eq_none'.1 ((hm.address_eq 0).trans
    (by simp [h.zero_not_mem]))) hwf (fun m t => ?_) (fun m p r => ?_)
  · rw [hm.clusterSettings_eq, map_length_of_withoutHolders hm.withoutHolders_eq, h.shape]
  · rw [hm.ownsToken_iff, hm.tokens_eq, h.ownsToken_iff_owner]
  · rw [hm.holdsReplica_iff, hm.holderAt_eq]
    split_ifs
    · exact eq_iff_some_eq hnode
    · exact h.holdsReplica_iff_holder

/-! ### The calls -/

section Reassign

variable {nodes : GoMap UInt64 NodeConfig} {nc' : NodeConfig} {c : UInt64 → Prop}
  [DecidablePred c] {f : NodeConfig → NodeConfig}

/-- How an assign call rewrites the node map: `node` gets `nc'`, the nodes `c` selects are
mapped by `f`, and every other node stays. -/
private theorem exists_mem_reassigned
    (hget : ∀ m, nodes.get? m = if m = node then some nc'
      else if c m then (cs.nodes.get? m).map f else cs.nodes.get? m)
    (P : NodeConfig → Prop) (m : UInt64) :
    (∃ mc ∈ nodes.get? m, P mc) ↔ if m = node then P nc'
      else if c m then ∃ mc ∈ cs.nodes.get? m, P (f mc) else ∃ mc ∈ cs.nodes.get? m, P mc := by
  rw [hget]
  split_ifs <;> simp

private theorem address_reassigned
    (hget : ∀ m, nodes.get? m = if m = node then some nc'
      else if c m then (cs.nodes.get? m).map f else cs.nodes.get? m)
    (hn : cs.nodes.get? node = some nc) (haddr : nc'.address = nc.address)
    (hf : ∀ mc, (f mc).address = mc.address) (m : UInt64) :
    (nodes.get? m).map NodeConfig.address = (cs.nodes.get? m).map NodeConfig.address := by
  rw [hget]
  split_ifs with h₁
  · simp [h₁, hn, haddr]
  · simp [Option.map_map, Function.comp_def, hf]
  · rfl

private theorem wellFormed_reassigned (h : cs.Consistent)
    (hget : ∀ m, nodes.get? m = if m = node then some nc'
      else if c m then (cs.nodes.get? m).map f else cs.nodes.get? m)
    (hwf : nc'.WellFormed) (hf : ∀ mc, mc.WellFormed → (f mc).WellFormed) (m : UInt64)
    (mc : NodeConfig) (hm : nodes.get? m = some mc) : mc.WellFormed := by
  rw [hget] at hm
  split_ifs at hm
  · exact Option.some.inj hm ▸ hwf
  · obtain ⟨mc₀, hm₀, rfl⟩ := Option.map_eq_some'.1 hm
    exact hf _ (h.wellFormed hm₀)
  · exact h.wellFormed hm

end Reassign

/-- **`AssignToken` from a consistent state**: an error that changes nothing, or the token
moved to `node`. -/
theorem Consistent.assignToken (h : cs.Consistent) (node token : UInt64) :
    if token.toNat < cs.tokens.length ∧ (cs.nodes.get? node).isSome then
      ∃ cs', cs.assignToken node token = .ok (cs', none) ∧ cs.TokenMoved cs' node token ∧
        cs'.Consistent
    else ∃ e, cs.assignToken node token = .ok (cs, some e) := by
  split
  case isFalse hin =>
    exact assignToken_eq_error
      ((not_and_or.1 hin).imp Nat.le_of_not_lt Option.not_isSome_iff_eq_none.1)
  case isTrue hin =>
  obtain ⟨ht, hsome⟩ := hin
  obtain ⟨nc, hn⟩ := Option.isSome_iff_exists.1 hsome
  have hown := List.getElem?_eq_getElem ht
  obtain ⟨nc', hwf', haddr, hown', hholds', nodes, hcall, hget⟩ := assignToken_ok ht hn
    (h.wellFormed hn) fun owner ho h0 => by
      obtain ⟨oc, hoc⟩ := Option.isSome_iff_exists.1 (h.owner_mem token owner ho h0)
      exact ⟨oc, hoc, h.wellFormed hoc⟩
  have hm : cs.TokenMoved { cs with nodes, tokens := cs.tokens.set token.toNat node } node
      token := by
    refine ⟨rfl, rfl, rfl, address_reassigned hget hn haddr fun _ => rfl, fun m t => ?_,
      fun m p r => ?_⟩
    · rw [OwnsToken, exists_mem_reassigned hget]
      by_cases htt : t = token
      · -- only `node` owns the token now: its old owner is the node `c` selects
        subst htt
        rw [if_pos rfl]
        split_ifs with h₁ h₂
        · exact iff_of_true ((hown' _).2 (.inl rfl)) h₁
        · simp [h₁]
        · rw [← OwnsToken, h.ownsToken_iff_owner, hown]
          exact ⟨fun ⟨he, hm0⟩ => (h₂ ⟨(Option.some.inj he).symm, hm0⟩).elim, (h₁ · |>.elim)⟩
      · rw [if_neg htt]
        split_ifs with h₁
        · rw [hown', h₁, ownsToken_of_get? hn, or_iff_right htt]
        · simp [htt, OwnsToken]
        · rfl
    · rw [HoldsReplica, exists_mem_reassigned hget]
      split_ifs with h₁
      · rw [hholds', h₁, holdsReplica_of_get? hn]
      · simp only [NodeConfig.holdsReplica_relinquishToken]
        rfl
      · rfl
  exact ⟨_, hcall, hm, hm.consistent h (ne_zero_of_get? h.zero_not_mem hn) ht
    (wellFormed_reassigned h hget hwf' fun _ hmc => hmc.relinquishToken token)⟩

/-- **`AssignPartitionReplica` from a consistent state**: an error that changes nothing, or the
replica moved to `node`. -/
theorem Consistent.assignPartitionReplica (h : cs.Consistent) (partition replica node : UInt64) :
    if (holderAt cs.partitions partition replica).isSome ∧ (cs.nodes.get? node).isSome then
      ∃ cs', cs.assignPartitionReplica partition replica node = .ok (cs', none) ∧
        cs.ReplicaMoved cs' partition replica node ∧ cs'.Consistent
    else ∃ e, cs.assignPartitionReplica partition replica node = .ok (cs, some e) := by
  split
  case isFalse hin =>
    exact assignPartitionReplica_eq_error
      ((not_and_or.1 hin).imp Bool.eq_false_iff.2 Option.not_isSome_iff_eq_none.1)
  case isTrue hin =>
  obtain ⟨hp, hsome⟩ := hin
  obtain ⟨nc, hn⟩ := Option.isSome_iff_exists.1 hsome
  obtain ⟨nc', hwf', haddr, htok', hholds', nodes, partitions, hcall, hwithout, hholderAt, hget⟩ :=
    assignPartitionReplica_ok hp hn (h.wellFormed hn) fun holder ho h0 => by
      obtain ⟨hc, hhc⟩ := Option.isSome_iff_exists.1 (h.holder_mem _ _ holder ho h0)
      exact ⟨hc, hhc, h.wellFormed hhc⟩
  have hm : cs.ReplicaMoved { cs with nodes, partitions } partition replica node := by
    refine ⟨rfl, hwithout, hholderAt, rfl,
      address_reassigned hget hn haddr fun _ => NodeConfig.address_relinquishPartitionReplica,
      fun m t => ?_, fun m p r => ?_⟩
    · rw [OwnsToken, exists_mem_reassigned hget]
      split_ifs with h₁
      · rw [h₁, ownsToken_of_get? hn, NodeConfig.OwnsToken, htok']
        rfl
      · simp only [NodeConfig.ownsToken_relinquishPartitionReplica]
        rfl
      · rfl
    · rw [HoldsReplica, exists_mem_reassigned hget]
      by_cases hpr : p = partition ∧ r = replica
      · -- only `node` holds the replica now: its old holder is the node `c` selects
        rw [if_pos hpr]
        obtain ⟨rfl, rfl⟩ := hpr
        split_ifs with h₁ h₂
        · exact iff_of_true ((hholds' _ _).2 (.inl ⟨rfl, rfl⟩)) h₁
        · simp [h₁, NodeConfig.holdsReplica_relinquishPartitionReplica]
        · rw [← HoldsReplica, h.holdsReplica_iff_holder]
          exact ⟨(h₂ · |>.elim), (h₁ · |>.elim)⟩
      · rw [if_neg hpr]
        split_ifs with h₁
        · rw [hholds', h₁, holdsReplica_of_get? hn, or_iff_right hpr]
        · simp [hpr, HoldsReplica, NodeConfig.holdsReplica_relinquishPartitionReplica]
        · rfl
  exact ⟨_, hcall, hm, hm.consistent h (ne_zero_of_get? h.zero_not_mem hn)
    (wellFormed_reassigned h hget hwf' fun _ hmc => hmc.relinquishPartitionReplica _ _)⟩

/-- An entry that names no node is left alone by `RemoveNode(node)` of a node that is not
there: it cannot name `node`, unless `node` is `0`. -/
private theorem cleared_of_not_mem {old : Option UInt64} {node : UInt64}
    (h : old = some node → node = 0) : (if old = some node then some 0 else old) = old := by
  split
  · rename_i ho
    rw [ho, h ho]
  · rfl

/-- **`RemoveNode` from a consistent state** removes the node and clears exactly what it
owned and held. -/
theorem Consistent.removeNode (h : cs.Consistent) (node : UInt64) :
    ∃ cs', cs.removeNode node = .ok cs' ∧ cs.NodeRemoved cs' node ∧ cs'.Consistent := by
  suffices ∃ cs', cs.removeNode node = .ok cs' ∧ cs.NodeRemoved cs' node from
    let ⟨cs', hcall, hm⟩ := this
    ⟨cs', hcall, hm, hm.consistent h⟩
  cases hn : cs.nodes.get? node with
  | none =>
    refine ⟨cs, by simp [ClusterState.removeNode, hn, pure, Except.pure],
      ⟨fun m => ?_, rfl, fun t => ?_, rfl, fun p r => ?_, rfl⟩⟩
    · split
      · rename_i hm
        rw [hm, hn]
      · rfl
    · exact (cleared_of_not_mem fun ht => by
        by_contra h0
        simpa [hn] using h.owner_mem t node ht h0).symm
    · exact (cleared_of_not_mem fun hr => by
        by_contra h0
        simpa [hn] using h.holder_mem p r node hr h0).symm
  | some nc =>
    obtain ⟨tokens, partitions, hcall, hlen, htok, hwithout, hholder⟩ := removeNode_ok hn
      (fun t ht => (List.getElem?_eq_some_iff.1 ((h.ownsToken_iff _ _ t hn).1 ht)).1)
      (fun p r hr => by simp [(h.holdsReplica_iff _ _ p r hn).1 hr])
    refine ⟨_, hcall, ⟨fun m => GoMap.get?_delete, hlen, fun t => ?_, hwithout, fun p r => ?_, rfl⟩⟩
    · rw [htok]
      exact if_congr (h.ownsToken_iff node nc t hn) rfl rfl
    · rw [hholder]
      exact if_congr (h.holdsReplica_iff node nc p r hn) rfl rfl

end ClusterState

end DeviceDB
