import DeviceDB.Cluster.Frame

/-!
# Ownership of tokens and replicas

Every node's configuration mirrors the two tables: a node's `Tokens` are exactly the tokens
that `Tokens` assigns to it, and its `PartitionReplicas` exactly the replicas whose `Holder`
it is in `Partitions`. `OwnershipInvariant` states this together with the shape of the
tables, and the facts about the node maps that keep the methods from panicking.

* `ownershipInvariant_Initialize`: `Initialize` on a state with no nodes establishes it.
* `OwnershipInvariant.addNode`, `.removeNode`, `.assignToken`, `.assignPartitionReplica`:
  each call keeps it and does not panic, as long as an `AddNode` that adds a node gives a
  configuration with made, empty maps (`ClusterOp.FreshAt`). An `AddNode` the code ignores, of
  node ID `0` or of a node already there, may give any configuration. The invariant is
  `Consistent` and the length of `Tokens` (`OwnershipInvariant.consistent`), so the last three
  follow from what each call changes (`Consistent.removeNode`, ...), and `addNode` from the
  tables deciding the memberships of the new node set (`Consistent.of_owner_holder`).
* `run_initialize_ownershipInvariant`: hence no run from an initialized state in which every
  node added comes with fresh maps (`FreshAdds`) panics, and every state it reaches satisfies
  the invariant.
* `consistent_calls`: from a consistent state every call either returns an error and
  changes nothing, or has exactly its effect, and the state it leaves is consistent.
* `mirrors_not_enough`: `Mirrors` alone does not give this. A node with `nil` maps makes
  `AssignToken` write to a `nil` map, and a node `0` owns every token nobody owns, so
  `AssignToken` leaves the token in its set as well as in the new owner's.
* `run_addNode_unfresh_panics`: without that condition runs panic. A configuration with
  `nil` maps, as Go's zero value has, makes the next `AssignToken` to its node write to a
  `nil` map; one whose `Tokens` already names a token past the end of `Tokens` makes
  `RemoveNode` index past the end.
-/

namespace DeviceDB

namespace NodeConfig

/-- A configuration whose two maps are made and empty. -/
def Fresh (nodeConfig : NodeConfig) : Prop :=
  nodeConfig.tokens = some .empty ∧ nodeConfig.partitionReplicas = some .empty

instance (nodeConfig : NodeConfig) : Decidable nodeConfig.Fresh :=
  inferInstanceAs (Decidable (_ ∧ _))

variable {nc : NodeConfig}

theorem Fresh.wellFormed (h : nc.Fresh) : nc.WellFormed :=
  ⟨by simp [h.1], by simp [h.2], fun _ _ hp => by simp [h.2] at hp⟩

theorem Fresh.not_ownsToken (h : nc.Fresh) (t : UInt64) : ¬ nc.OwnsToken t := by
  simp [OwnsToken, h.1]

theorem Fresh.not_holdsReplica (h : nc.Fresh) (p r : UInt64) : ¬ nc.HoldsReplica p r := by
  simp [HoldsReplica, h.2]

end NodeConfig

namespace ClusterOp

/-- The call, made on `clusterState`, gives a fresh configuration if it is an `AddNode` that
adds a node. `AddNode` ignores a configuration whose node ID is `0` or already a node. -/
def FreshAt (clusterState : ClusterState) : ClusterOp → Prop
  | .addNode nodeConfig => nodeConfig.address.nodeID ≠ 0 →
    clusterState.nodes.get? nodeConfig.address.nodeID = none → nodeConfig.Fresh
  | _ => True

instance (clusterState : ClusterState) : (op : ClusterOp) → Decidable (op.FreshAt clusterState)
  | .addNode _ => inferInstanceAs (Decidable (_ → _ → _))
  | .removeNode _ | .assignToken _ _ | .assignPartitionReplica _ _ _ => isTrue trivial

end ClusterOp

namespace ClusterState

/-- The ownership invariant. -/
structure OwnershipInvariant (cs : ClusterState) : Prop where
  /-- `Tokens` has an entry for every partition. -/
  tokens_length : cs.tokens.length = cs.clusterSettings.partitions.toNat
  /-- `Partitions` is a `Partitions × ReplicationFactor` table. -/
  shape : cs.partitions.map List.length =
    List.replicate cs.clusterSettings.partitions.toNat cs.clusterSettings.replicationFactor.toNat
  /-- `0` stands for nobody, and is no node. -/
  zero_not_mem : cs.nodes.get? 0 = none
  /-- Every node's maps are made, and no partition of a node is left without a replica. -/
  wellFormed : ∀ (n : UInt64) (nc : NodeConfig), cs.nodes.get? n = some nc → nc.WellFormed
  /-- A node owns exactly the tokens `Tokens` assigns to it. -/
  ownsToken_iff : ∀ (n : UInt64) (nc : NodeConfig) (t : UInt64), cs.nodes.get? n = some nc →
    (nc.OwnsToken t ↔ cs.tokens[t.toNat]? = some n)
  /-- A node holds exactly the replicas whose `Holder` it is. -/
  holdsReplica_iff : ∀ (n : UInt64) (nc : NodeConfig) (p r : UInt64),
    cs.nodes.get? n = some nc → (nc.HoldsReplica p r ↔ holderAt cs.partitions p r = some n)
  /-- Every owner but nobody is a node. -/
  owner_mem : ∀ (t n : UInt64), cs.tokens[t.toNat]? = some n → n ≠ 0 →
    (cs.nodes.get? n).isSome
  /-- Every holder but nobody is a node. -/
  holder_mem : ∀ (p r n : UInt64), holderAt cs.partitions p r = some n → n ≠ 0 →
    (cs.nodes.get? n).isSome

variable {cs : ClusterState}

/-- The ownership invariant is `Consistent` together with the length of `Tokens`. -/
theorem OwnershipInvariant.consistent (h : cs.OwnershipInvariant) : cs.Consistent where
  shape := h.shape
  ownsToken_iff := h.ownsToken_iff
  holdsReplica_iff := h.holdsReplica_iff
  owner_mem := h.owner_mem
  holder_mem := h.holder_mem
  len_pos n nc _ _ hn := (h.wellFormed n nc hn).len_pos _ _
  zero_not_mem := h.zero_not_mem
  made n nc hn :=
    ⟨(h.wellFormed n nc hn).tokens_isSome, (h.wellFormed n nc hn).partitionReplicas_isSome⟩

theorem Consistent.ownershipInvariant (h : cs.Consistent)
    (hlen : cs.tokens.length = cs.clusterSettings.partitions.toNat) : cs.OwnershipInvariant :=
  ⟨hlen, h.shape, h.zero_not_mem, fun _ _ hn => h.wellFormed hn, h.ownsToken_iff,
    h.holdsReplica_iff, h.owner_mem, h.holder_mem⟩

/-! ### `Initialize` -/

theorem holderAt_mem {ps : List (List PartitionReplica)} {p r n : UInt64}
    (h : holderAt ps p r = some n) : ∃ row ∈ ps, ∃ x ∈ row, x.holder = n := by
  simp only [holderAt, Option.map_eq_some', Option.bind_eq_bind, Option.bind_eq_some,
    List.getElem?_eq_some_iff] at h
  obtain ⟨x, ⟨row, ⟨hp, rfl⟩, ⟨hr, rfl⟩⟩, rfl⟩ := h
  exact ⟨_, List.getElem_mem hp, _, List.getElem_mem hr, rfl⟩

theorem ownershipInvariant_Initialize (hnodes : cs.nodes = .empty)
    (hs : cs.clusterSettings.areInitialized = true) : cs.Initialize.OwnershipInvariant := by
  have hinit : cs.Initialize = { cs with
      tokens := List.replicate cs.clusterSettings.partitions.toNat 0
      partitions := (List.range cs.clusterSettings.partitions.toNat).map fun partition =>
        (List.range cs.clusterSettings.replicationFactor.toNat).map fun replica =>
          ⟨UInt64.ofNat partition, UInt64.ofNat replica, 0⟩ } := by
    simp [Initialize, hs]
  rw [hinit]
  refine ⟨by simp, by simp [Function.comp_def], by simp [hnodes], by simp [hnodes],
    by simp [hnodes], by simp [hnodes], fun t n ht hn => ?_, fun p r n hp hn => ?_⟩
  · simp only [List.getElem?_replicate] at ht
    split at ht <;> simp_all
  · obtain ⟨row, hrow, x, hx, rfl⟩ := holderAt_mem hp
    simp only [List.mem_map, List.mem_range] at hrow
    obtain ⟨_, -, rfl⟩ := hrow
    simp only [List.mem_map, List.mem_range] at hx
    obtain ⟨_, -, rfl⟩ := hx
    exact absurd rfl hn

/-! ### One call -/

section Step

variable {nc : NodeConfig}

theorem OwnershipInvariant.addNode (h : cs.OwnershipInvariant)
    (hfresh : nc.address.nodeID ≠ 0 → cs.nodes.get? nc.address.nodeID = none → nc.Fresh) :
    (cs.addNode nc).OwnershipInvariant := by
  unfold ClusterState.addNode
  split
  · exact h
  split
  · exact h
  rename_i h0 hmem
  have hnone : cs.nodes.get? nc.address.nodeID = none := by simpa using hmem
  have hnc := hfresh h0 hnone
  refine Consistent.ownershipInvariant (Consistent.of_owner_holder h.shape
    (by simp [Ne.symm h0, h.zero_not_mem]) (fun n mc hn => ?_) (fun n t => ?_) (fun n p r => ?_))
    h.tokens_length
  · rw [GoMap.get?_set] at hn
    split at hn
    · exact Option.some.inj hn ▸ hnc.wellFormed
    · exact h.wellFormed n mc hn
  -- nothing is assigned to the new node
  · rw [OwnsToken, GoMap.get?_set]
    split_ifs with hn
    · subst hn
      simpa [hnc.not_ownsToken, hnone] using h.owner_mem t nc.address.nodeID
    · exact h.consistent.ownsToken_iff_owner
  · rw [HoldsReplica, GoMap.get?_set]
    split_ifs with hn
    · subst hn
      simpa [hnc.not_holdsReplica, hnone] using h.holder_mem p r nc.address.nodeID
    · exact h.consistent.holdsReplica_iff_holder

theorem OwnershipInvariant.removeNode (h : cs.OwnershipInvariant) (node : UInt64) :
    ∃ cs', cs.removeNode node = .ok cs' ∧ cs'.OwnershipInvariant := by
  obtain ⟨cs', hcall, hm, hc⟩ := h.consistent.removeNode node
  exact ⟨cs', hcall, hc.ownershipInvariant
    (by rw [hm.tokens_length, hm.clusterSettings_eq, h.tokens_length])⟩

theorem OwnershipInvariant.assignToken (h : cs.OwnershipInvariant) (node token : UInt64) :
    ∃ cs' e, cs.assignToken node token = .ok (cs', e) ∧ cs'.OwnershipInvariant := by
  have hcall := h.consistent.assignToken node token
  split at hcall
  · obtain ⟨cs', hcall, hm, hc⟩ := hcall
    exact ⟨cs', none, hcall, hc.ownershipInvariant
      (by rw [hm.tokens_eq, List.length_set, hm.clusterSettings_eq, h.tokens_length])⟩
  · obtain ⟨e, hcall⟩ := hcall
    exact ⟨cs, some e, hcall, h⟩

theorem OwnershipInvariant.assignPartitionReplica (h : cs.OwnershipInvariant)
    (partition replica node : UInt64) :
    ∃ cs' e, cs.assignPartitionReplica partition replica node = .ok (cs', e) ∧
      cs'.OwnershipInvariant := by
  have hcall := h.consistent.assignPartitionReplica partition replica node
  split at hcall
  · obtain ⟨cs', hcall, hm, hc⟩ := hcall
    exact ⟨cs', none, hcall, hc.ownershipInvariant
      (by rw [hm.tokens_eq, hm.clusterSettings_eq, h.tokens_length])⟩
  · obtain ⟨e, hcall⟩ := hcall
    exact ⟨cs, some e, hcall, h⟩

/-- **One call keeps the invariant and does not panic.** -/
theorem OwnershipInvariant.apply (h : cs.OwnershipInvariant) (op : ClusterOp)
    (hop : op.FreshAt cs) :
    ∃ cs', op.apply cs = .ok cs' ∧ cs'.OwnershipInvariant := by
  cases op with
  | addNode nc => exact ⟨_, rfl, h.addNode hop⟩
  | removeNode node => exact h.removeNode node
  | assignToken node token =>
    obtain ⟨cs', e, hcall, h'⟩ := h.assignToken node token
    exact ⟨cs', by simp [ClusterOp.apply, hcall, Functor.map, Except.map], h'⟩
  | assignPartitionReplica partition replica node =>
    obtain ⟨cs', e, hcall, h'⟩ := h.assignPartitionReplica partition replica node
    exact ⟨cs', by simp [ClusterOp.apply, hcall, Functor.map, Except.map], h'⟩

end Step

/-! ### Runs -/

/-- Every call of the run that adds a node, from `clusterState` on, gives a fresh
configuration. -/
def FreshAdds : ClusterState → List ClusterOp → Prop
  | _, [] => True
  | clusterState, op :: ops => op.FreshAt clusterState ∧
    match op.apply clusterState with
    | .ok clusterState => FreshAdds clusterState ops
    | .error _ => True

instance decFreshAdds : (clusterState : ClusterState) → (ops : List ClusterOp) →
    Decidable (FreshAdds clusterState ops)
  | _, [] => isTrue trivial
  | clusterState, op :: ops =>
    have : Decidable (match op.apply clusterState with
        | .ok clusterState => FreshAdds clusterState ops
        | .error _ => True) :=
      match op.apply clusterState with
      | .ok clusterState => decFreshAdds clusterState ops
      | .error _ => isTrue trivial
    inferInstanceAs (Decidable (_ ∧ _))

theorem OwnershipInvariant.run (h : cs.OwnershipInvariant) (ops : List ClusterOp)
    (hfresh : FreshAdds cs ops) : ∃ cs', run cs ops = .ok cs' ∧ cs'.OwnershipInvariant := by
  induction ops generalizing cs with
  | nil => exact ⟨cs, rfl, h⟩
  | cons op ops ih =>
    obtain ⟨hop, hrest⟩ := hfresh
    obtain ⟨cs₁, h₁, hinv₁⟩ := h.apply op hop
    rw [h₁] at hrest
    rw [run_cons ops h₁]
    exact ih hinv₁ hrest

/-- **No run from an initialized state panics, and every state it reaches satisfies the
ownership invariant**, as long as every `AddNode` that adds a node gives a configuration with
made, empty maps. -/
theorem run_initialize_ownershipInvariant (cs : ClusterState) (hnodes : cs.nodes = .empty)
    (hs : cs.clusterSettings.areInitialized = true) (ops : List ClusterOp)
    (hfresh : FreshAdds cs.Initialize ops) :
    ∃ cs', run cs.Initialize ops = .ok cs' ∧ cs'.OwnershipInvariant :=
  (ownershipInvariant_Initialize hnodes hs).run ops hfresh

/-- A node joins with fresh maps; two `AddNode`s with `nil` maps are ignored, one for the
same node and one for node `0`; the node takes a token and a replica, and leaves. -/
theorem run_initialize_ownershipInvariant_of_join_leave :
    (⟨.empty, [], [], ⟨2, 2⟩⟩ : ClusterState).nodes = .empty ∧
      (⟨.empty, [], [], ⟨2, 2⟩⟩ : ClusterState).clusterSettings.areInitialized = true ∧
      FreshAdds (Initialize ⟨.empty, [], [], ⟨2, 2⟩⟩)
        [.addNode ⟨⟨1⟩, some .empty, some .empty⟩, .addNode ⟨⟨1⟩, none, none⟩,
          .addNode ⟨⟨0⟩, none, none⟩, .assignToken 1 0, .assignPartitionReplica 1 0 1,
          .removeNode 1] ∧
      ∃ cs', run (Initialize ⟨.empty, [], [], ⟨2, 2⟩⟩)
          [.addNode ⟨⟨1⟩, some .empty, some .empty⟩, .addNode ⟨⟨1⟩, none, none⟩,
            .addNode ⟨⟨0⟩, none, none⟩, .assignToken 1 0, .assignPartitionReplica 1 0 1,
            .removeNode 1] = .ok cs' ∧
        cs'.OwnershipInvariant :=
  ⟨rfl, rfl, by decide,
    run_initialize_ownershipInvariant ⟨.empty, [], [], ⟨2, 2⟩⟩ rfl rfl _ (by decide)⟩

/-- **Unfresh configurations panic.** With `nil` maps, `AssignToken` to the new node writes to
a `nil` map; with a `Tokens` that already names token `5` of a one-token ring, `RemoveNode`
indexes past the end of `Tokens`. -/
theorem run_addNode_unfresh_panics :
    run (Initialize ⟨.empty, [], [], ⟨1, 1⟩⟩) [.addNode ⟨⟨1⟩, none, none⟩, .assignToken 1 0] =
        .error .assignmentToNilMap ∧
      run (Initialize ⟨.empty, [], [], ⟨1, 1⟩⟩)
          [.addNode ⟨⟨1⟩, some ⟨[(5, true)], by decide⟩, some .empty⟩, .removeNode 1] =
        .error .indexOutOfRange := by
  decide

/-! ### Every call from a consistent state -/

/-- **Every call from a consistent state either returns an error and changes nothing, or has
exactly its effect; and the state it leaves is consistent.** `AssignToken` moves the token to
`node`, `AssignPartitionReplica` moves the replica to `node`, and `RemoveNode` removes the
node and clears exactly the tokens it owned and the replicas it held. -/
theorem consistent_calls (cs : ClusterState) (h : cs.Consistent)
    (node token partition replica : UInt64) :
    (if token.toNat < cs.tokens.length ∧ (cs.nodes.get? node).isSome then
        ∃ cs', cs.assignToken node token = .ok (cs', none) ∧ cs.TokenMoved cs' node token ∧
          cs'.Consistent
      else ∃ e, cs.assignToken node token = .ok (cs, some e)) ∧
    (if (holderAt cs.partitions partition replica).isSome ∧ (cs.nodes.get? node).isSome then
        ∃ cs', cs.assignPartitionReplica partition replica node = .ok (cs', none) ∧
          cs.ReplicaMoved cs' partition replica node ∧ cs'.Consistent
      else ∃ e, cs.assignPartitionReplica partition replica node = .ok (cs, some e)) ∧
    ∃ cs', cs.removeNode node = .ok cs' ∧ cs.NodeRemoved cs' node ∧ cs'.Consistent :=
  ⟨h.assignToken node token, h.assignPartitionReplica partition replica node, h.removeNode node⟩

/-- Two nodes that have joined with fresh maps: node `2` owns token `0` and holds replica `0` of
partition `0`, node `1` owns token `1` and holds replica `0` of partition `1`. Node `1` takes
the token and the replica of node `2`, and leaves with what it had. -/
theorem consistent_calls_of_two_nodes :
    ∃ cs, run (Initialize ⟨.empty, [], [], ⟨1, 2⟩⟩)
        [.addNode ⟨⟨1⟩, some .empty, some .empty⟩, .addNode ⟨⟨2⟩, some .empty, some .empty⟩,
          .assignToken 2 0, .assignPartitionReplica 0 0 2, .assignToken 1 1,
          .assignPartitionReplica 1 0 1] = .ok cs ∧
      cs.Consistent ∧
      (if (0 : UInt64).toNat < cs.tokens.length ∧ (cs.nodes.get? 1).isSome then
          ∃ cs', cs.assignToken 1 0 = .ok (cs', none) ∧ cs.TokenMoved cs' 1 0 ∧ cs'.Consistent
        else ∃ e, cs.assignToken 1 0 = .ok (cs, some e)) ∧
      (if (holderAt cs.partitions 0 0).isSome ∧ (cs.nodes.get? 1).isSome then
          ∃ cs', cs.assignPartitionReplica 0 0 1 = .ok (cs', none) ∧
            cs.ReplicaMoved cs' 0 0 1 ∧ cs'.Consistent
        else ∃ e, cs.assignPartitionReplica 0 0 1 = .ok (cs, some e)) ∧
      ∃ cs', cs.removeNode 1 = .ok cs' ∧ cs.NodeRemoved cs' 1 ∧ cs'.Consistent := by
  obtain ⟨cs, hrun, hinv⟩ := (ownershipInvariant_Initialize
    (show (⟨.empty, [], [], ⟨1, 2⟩⟩ : ClusterState).nodes = .empty from rfl) rfl).run
    [.addNode ⟨⟨1⟩, some .empty, some .empty⟩,
      .addNode ⟨⟨2⟩, some .empty, some .empty⟩, .assignToken 2 0, .assignPartitionReplica 0 0 2,
      .assignToken 1 1, .assignPartitionReplica 1 0 1] (by decide)
  exact ⟨cs, hrun, hinv.consistent, consistent_calls cs hinv.consistent 1 0 0 0⟩

/-- Entry `t` of a one-entry table. -/
private theorem getElem?_singleton_toNat {α : Type} {a : α} {t : UInt64} :
    [a][t.toNat]? = if t = 0 then some a else none := by
  by_cases ht : t = 0
  · simp [ht]
  · have : t.toNat ≠ 0 := fun h => ht (UInt64.toNat_inj.1 h)
    simp [List.getElem?_cons, ht, this]

/-- The holder in a one-replica table. -/
private theorem holderAt_singleton {h p r : UInt64} :
    holderAt [[⟨0, 0, h⟩]] p r = if p = 0 ∧ r = 0 then some h else none := by
  unfold holderAt
  by_cases hp : p = 0 <;> by_cases hr : r = 0 <;> simp [getElem?_singleton_toNat, hp, hr]

/-- **`Mirrors` alone is not enough.** A node whose maps are `nil`, as a `NodeConfig` built
without them has, makes `AssignToken` to it write to a `nil` map. And with a node `0`, the
invariant makes it own every token nobody owns: `AssignToken` of such a token to node `1`
leaves it in the sets of both nodes. -/
theorem mirrors_not_enough :
    (∃ cs : ClusterState, cs.Mirrors ∧ cs.assignToken 1 0 = .error .assignmentToNilMap) ∧
    ∃ cs : ClusterState, cs.Mirrors ∧ ∃ cs', cs.assignToken 1 0 = .ok (cs', none) ∧
      cs'.OwnsToken 0 0 ∧ cs'.OwnsToken 1 0 := by
  refine ⟨⟨⟨GoMap.empty.set 1 ⟨⟨1⟩, none, none⟩, [0], [[⟨0, 0, 0⟩]], ⟨1, 1⟩⟩, ?_, by decide⟩,
    ⟨⟨(GoMap.empty.set 0 ⟨⟨0⟩, some (GoMap.empty.set 0 true),
        some (GoMap.empty.set 0 (some (GoMap.empty.set 0 true)))⟩).set 1
        ⟨⟨1⟩, some .empty, some .empty⟩, [0], [[⟨0, 0, 0⟩]], ⟨1, 1⟩⟩, ?_, _, rfl, by decide⟩⟩
  all_goals refine ⟨rfl, fun n nc t hn => ?_, fun n nc p r hn => ?_, fun t n ht h0 => ?_,
    fun p r n hr h0 => ?_, fun n nc p rs hn hp => ?_⟩
  all_goals simp only [GoMap.get?_set, GoMap.get?_empty, getElem?_singleton_toNat,
    holderAt_singleton] at *
  all_goals split_ifs at * <;> simp only [Option.some.injEq, reduceCtorEq] at * <;> subst_vars <;>
    simp_all [NodeConfig.OwnsToken, NodeConfig.HoldsReplica]
  -- the one inner map of node `0` holds a replica
  obtain ⟨-, rfl⟩ := hp
  decide

end ClusterState

end DeviceDB
