import DeviceDB.Go.Basic

/-!
# Cluster state

`cloud/cluster/state.go` keeps the ring: the nodes and their configurations, the owner of
each token, and the holder of each partition replica. Every node configuration mirrors the
tables in two maps of its own, `Tokens` and `PartitionReplicas`, which the state updates
alongside the tables.

The model keeps the Go data as it is, with the run-time failures the code can meet:

* a node's two maps, and the inner maps of `PartitionReplicas`, may be `nil` (`MapVar`);
  writing to a `nil` map panics;
* `Tokens` and `Partitions` are slices indexed by `uint64`, and indexing past their end
  panics;
* `Nodes[n]` for a missing `n` is a `nil` pointer, and calling a method through it panics.

Every method that can panic returns `Except GoPanic`; `AssignToken` and
`AssignPartitionReplica` also return the state after the call together with the error they
return, if any. `Nodes` itself is never `nil` here: a `nil` `Nodes` reads and deletes as the
empty map, and `AddNode` makes it before writing, which is what `GoMap.empty` does.
Pointers are values: `Initialize` allocates every `*PartitionReplica` separately, and
`AddNode` stores the address of its own copy of the configuration, so no two slots share one.
The two maps of a configuration are references in Go; here they belong to their
configuration, which is exact as long as no two configurations given to `AddNode` share a map.
-/

namespace DeviceDB

/-- The errors of the cluster state's methods. `ENoSuchNode` is declared elsewhere in the
package. -/
inductive ClusterError
  | ENoSuchPartition
  | ENoSuchToken
  | ENoSuchReplica
  | ENoSuchNode
  deriving DecidableEq, Repr

/-- `PartitionReplica`: replica `Replica` of partition `Partition`, stored by the node
`Holder` (`0`: nobody). -/
structure PartitionReplica where
  partition : UInt64
  replica : UInt64
  holder : UInt64
  deriving DecidableEq, Repr

/-- The part of a node's `PeerAddress` the cluster state reads. -/
structure PeerAddress where
  nodeID : UInt64
  deriving DecidableEq, Repr

/-- `NodeConfig`: the tokens a node owns and the partition replicas it holds, as sets
(`map[uint64]bool` and `map[uint64]map[uint64]bool`). -/
structure NodeConfig where
  address : PeerAddress
  tokens : MapVar UInt64 Bool
  partitionReplicas : MapVar UInt64 (MapVar UInt64 Bool)
  deriving DecidableEq

/-- `ClusterSettings`. -/
structure ClusterSettings where
  replicationFactor : UInt64
  partitions : UInt64
  deriving DecidableEq, Repr

/-- `AreInitialized()`. -/
def ClusterSettings.areInitialized (s : ClusterSettings) : Bool :=
  s.replicationFactor != 0 && s.partitions != 0

/-- `ClusterState`. -/
structure ClusterState where
  nodes : GoMap UInt64 NodeConfig
  tokens : List UInt64
  partitions : List (List PartitionReplica)
  clusterSettings : ClusterSettings
  deriving DecidableEq

namespace NodeConfig

/-- `takePartitionReplica(partition, replica)`: make the inner map if the partition has
none, then add the replica to it. -/
def takePartitionReplica (nodeConfig : NodeConfig) (partition replica : UInt64) :
    Except GoPanic NodeConfig := do
  let partitionReplicas ← match MapVar.get? nodeConfig.partitionReplicas partition with
    | some _ => pure nodeConfig.partitionReplicas
    | none => MapVar.assign nodeConfig.partitionReplicas partition (some GoMap.empty)
  let replicas ← MapVar.assign ((MapVar.get? partitionReplicas partition).getD none) replica true
  -- the inner map is a reference in Go: storing it back stands for updating it in place
  let partitionReplicas ← MapVar.assign partitionReplicas partition replicas
  pure { nodeConfig with partitionReplicas }

/-- `relinquishPartitionReplica(partition, replica)`: remove the replica, and the partition
once it has no replica left. -/
def relinquishPartitionReplica (nodeConfig : NodeConfig) (partition replica : UInt64) :
    NodeConfig :=
  match MapVar.get? nodeConfig.partitionReplicas partition with
  | none => nodeConfig
  | some replicas =>
    let replicas := MapVar.delete replicas replica
    if MapVar.len replicas = 0 then
      { nodeConfig with
        partitionReplicas := MapVar.delete nodeConfig.partitionReplicas partition }
    else
      { nodeConfig with
        partitionReplicas := nodeConfig.partitionReplicas.map (·.set partition replicas) }

/-- `relinquishToken(token)`. -/
def relinquishToken (nodeConfig : NodeConfig) (token : UInt64) : NodeConfig :=
  { nodeConfig with tokens := MapVar.delete nodeConfig.tokens token }

/-- `takeToken(token)`. -/
def takeToken (nodeConfig : NodeConfig) (token : UInt64) : Except GoPanic NodeConfig := do
  let tokens ← MapVar.assign nodeConfig.tokens token true
  pure { nodeConfig with tokens }

/-- `token ∈ nodeConfig.Tokens`. -/
def OwnsToken (nodeConfig : NodeConfig) (token : UInt64) : Prop :=
  (MapVar.get? nodeConfig.tokens token).isSome

/-- `replica ∈ nodeConfig.PartitionReplicas[partition]`. -/
def HoldsReplica (nodeConfig : NodeConfig) (partition replica : UInt64) : Prop :=
  ((MapVar.get? nodeConfig.partitionReplicas partition).bind (MapVar.get? · replica)).isSome

instance (nodeConfig : NodeConfig) (token : UInt64) : Decidable (nodeConfig.OwnsToken token) :=
  inferInstanceAs (Decidable (_ = true))

instance (nodeConfig : NodeConfig) (partition replica : UInt64) :
    Decidable (nodeConfig.HoldsReplica partition replica) :=
  inferInstanceAs (Decidable (_ = true))


/-- A configuration whose maps can all be written to: both are made, and every inner map of
`PartitionReplicas` is made and holds a replica. -/
structure WellFormed (nodeConfig : NodeConfig) : Prop where
  tokens_isSome : nodeConfig.tokens.isSome
  partitionReplicas_isSome : nodeConfig.partitionReplicas.isSome
  len_pos : ∀ partition replicas,
    MapVar.get? nodeConfig.partitionReplicas partition = some replicas → 0 < MapVar.len replicas

variable {nc nc' : NodeConfig} {t t' p p' r r' : UInt64}

/-! #### Tokens -/

@[simp] theorem ownsToken_relinquishToken :
    (nc.relinquishToken t).OwnsToken t' ↔ t' ≠ t ∧ nc.OwnsToken t' := by
  by_cases h : t' = t <;> simp [OwnsToken, relinquishToken, h]

@[simp] theorem holdsReplica_relinquishToken :
    (nc.relinquishToken t).HoldsReplica p r ↔ nc.HoldsReplica p r := Iff.rfl

@[simp] theorem address_relinquishToken : (nc.relinquishToken t).address = nc.address := rfl

theorem WellFormed.relinquishToken (h : nc.WellFormed) (t : UInt64) :
    (nc.relinquishToken t).WellFormed := by
  obtain ⟨g, hg⟩ := Option.isSome_iff_exists.1 h.tokens_isSome
  exact ⟨by simp [NodeConfig.relinquishToken, MapVar.delete, hg], h.partitionReplicas_isSome,
    h.len_pos⟩

theorem takeToken_eq_ok : nc.takeToken t = .ok nc' ↔
    ∃ g, nc.tokens = some g ∧ nc' = { nc with tokens := some (g.set t true) } := by
  cases h : nc.tokens <;>
    simp [takeToken, MapVar.assign, h, bind, Except.bind, pure, Except.pure, eq_comm]

theorem ownsToken_of_takeToken (h : nc.takeToken t = .ok nc') :
    nc'.OwnsToken t' ↔ t' = t ∨ nc.OwnsToken t' := by
  obtain ⟨g, hg, rfl⟩ := takeToken_eq_ok.1 h
  by_cases ht : t' = t <;> simp [OwnsToken, hg, ht]

theorem partitionReplicas_of_takeToken (h : nc.takeToken t = .ok nc') :
    nc'.partitionReplicas = nc.partitionReplicas := by
  obtain ⟨g, -, rfl⟩ := takeToken_eq_ok.1 h
  rfl

theorem address_of_takeToken (h : nc.takeToken t = .ok nc') : nc'.address = nc.address := by
  obtain ⟨g, -, rfl⟩ := takeToken_eq_ok.1 h
  rfl

theorem WellFormed.takeToken (h : nc.WellFormed) (t : UInt64) :
    ∃ nc', nc.takeToken t = .ok nc' ∧ nc'.WellFormed := by
  obtain ⟨g, hg⟩ := Option.isSome_iff_exists.1 h.tokens_isSome
  exact ⟨_, takeToken_eq_ok.2 ⟨g, hg, rfl⟩, ⟨rfl, h.partitionReplicas_isSome, h.len_pos⟩⟩


/-! #### Partition replicas -/

@[simp] theorem tokens_relinquishPartitionReplica :
    (nc.relinquishPartitionReplica p r).tokens = nc.tokens := by
  unfold relinquishPartitionReplica
  split
  · rfl
  · dsimp only
    split <;> rfl

@[simp] theorem address_relinquishPartitionReplica :
    (nc.relinquishPartitionReplica p r).address = nc.address := by
  unfold relinquishPartitionReplica
  split
  · rfl
  · dsimp only
    split <;> rfl

@[simp] theorem ownsToken_relinquishPartitionReplica :
    (nc.relinquishPartitionReplica p r).OwnsToken t ↔ nc.OwnsToken t := by
  simp [OwnsToken]

theorem holdsReplica_relinquishPartitionReplica :
    (nc.relinquishPartitionReplica p r).HoldsReplica p' r' ↔
      ¬ (p' = p ∧ r' = r) ∧ nc.HoldsReplica p' r' := by
  unfold relinquishPartitionReplica HoldsReplica
  cases hp : MapVar.get? nc.partitionReplicas p with
  | none => by_cases h : p' = p <;> simp_all
  | some replicas =>
    obtain ⟨g, hg⟩ : ∃ g, nc.partitionReplicas = some g := by
      cases h : nc.partitionReplicas <;> simp_all
    simp only [hg, MapVar.get?_some] at hp ⊢
    by_cases h : p' = p
    · subst h
      split
      · -- the partition's last replica goes, and the partition with it
        rename_i hlen
        have hr := (MapVar.len_eq_zero_iff.1 hlen) r'
        rw [MapVar.get?_delete] at hr
        by_cases hrr : r' = r <;> simp_all [MapVar.delete]
      · by_cases hrr : r' = r <;> simp_all
    · split <;> simp [MapVar.delete, h]

theorem WellFormed.relinquishPartitionReplica (h : nc.WellFormed) (p r : UInt64) :
    (nc.relinquishPartitionReplica p r).WellFormed := by
  obtain ⟨g, hg⟩ := Option.isSome_iff_exists.1 h.partitionReplicas_isSome
  unfold NodeConfig.relinquishPartitionReplica
  split
  · exact h
  · dsimp only
    split
    · refine ⟨h.tokens_isSome, by simp [MapVar.delete, hg], fun p' replicas' hp' => ?_⟩
      by_cases hpp : p' = p
      · simp [hpp] at hp'
      · exact h.len_pos p' replicas' (by simpa [hpp] using hp')
    · rename_i hlen
      refine ⟨h.tokens_isSome, by simp [hg], fun p' replicas' hp' => ?_⟩
      by_cases hpp : p' = p
      · simp only [hg, hpp, Option.map_some', MapVar.get?_some, GoMap.get?_set, if_true,
          Option.some.injEq] at hp'
        rw [← hp']
        omega
      · exact h.len_pos p' replicas' (by simpa [hg, hpp] using hp')

theorem WellFormed.takePartitionReplica (h : nc.WellFormed) (p r : UInt64) :
    ∃ nc', nc.takePartitionReplica p r = .ok nc' ∧ nc'.WellFormed ∧ nc'.address = nc.address ∧
      nc'.tokens = nc.tokens ∧
      ∀ p' r', nc'.HoldsReplica p' r' ↔ (p' = p ∧ r' = r) ∨ nc.HoldsReplica p' r' := by
  obtain ⟨g, hg⟩ := Option.isSome_iff_exists.1 h.partitionReplicas_isSome
  -- the inner map written is the partition's own, or a new one when it has none
  obtain ⟨g', inner, hcall, hg', hinner⟩ : ∃ (g' : GoMap UInt64 (MapVar UInt64 Bool))
      (inner : GoMap UInt64 Bool), nc.takePartitionReplica p r =
        .ok { nc with partitionReplicas := some (g'.set p (some (inner.set r true))) } ∧
      (∀ p', p' ≠ p → g'.get? p' = g.get? p') ∧
      ∀ r', inner.get? r' = MapVar.get? ((g.get? p).getD none) r' := by
    cases hp : g.get? p with
    | none =>
      refine ⟨g.set p (some .empty), .empty, ?_, by simp +contextual, by simp⟩
      simp only [NodeConfig.takePartitionReplica, hg, MapVar.get?_some, hp]
      simp [MapVar.assign, bind, Except.bind, pure, Except.pure]
    | some replicas =>
      cases replicas with
      | none => exact absurd (h.len_pos p none (by simp [hg, hp])) (by simp [MapVar.len])
      | some inner =>
        refine ⟨g, inner, ?_, fun _ _ => rfl, by simp⟩
        simp only [NodeConfig.takePartitionReplica, hg, MapVar.get?_some, hp]
        simp [MapVar.assign, bind, Except.bind, pure, Except.pure, hp]
  refine ⟨_, hcall, ⟨h.tokens_isSome, rfl, fun p' replicas hp' => ?_⟩, rfl, rfl, fun p' r' => ?_⟩
  · by_cases hpp : p' = p
    · simp only [hpp, MapVar.get?_some, GoMap.get?_set, if_true, Option.some.injEq] at hp'
      exact hp' ▸ MapVar.len_pos_iff.2 ⟨r, by simp⟩
    · exact h.len_pos p' replicas (by simpa [hg, hpp, hg' p' hpp] using hp')
  · unfold HoldsReplica
    by_cases hpp : p' = p
    · subst hpp
      by_cases hrr : r' = r <;> cases hp : g.get? p' <;> simp_all
    · simp [hg, hpp, hg' p' hpp]

/-! #### The entries `RemoveNode` ranges over -/

theorem ownsToken_iff_mem_entries :
    nc.OwnsToken t ↔ t ∈ (MapVar.entries nc.tokens).map Prod.fst :=
  MapVar.mem_map_fst_entries.symm

theorem holdsReplica_iff_mem_entries : nc.HoldsReplica p r ↔
    ∃ e ∈ MapVar.entries nc.partitionReplicas, p = e.1 ∧ r ∈ (MapVar.entries e.2).map Prod.fst := by
  constructor
  · intro h
    obtain ⟨replicas, hp, hr⟩ : ∃ replicas, MapVar.get? nc.partitionReplicas p = some replicas ∧
        (MapVar.get? replicas r).isSome := by
      cases hp : MapVar.get? nc.partitionReplicas p <;> simp_all [HoldsReplica]
    exact ⟨(p, replicas), MapVar.mem_entries.2 hp, rfl, MapVar.mem_map_fst_entries.2 hr⟩
  · rintro ⟨⟨p, replicas⟩, he, rfl, hr⟩
    simp [HoldsReplica, MapVar.mem_entries.1 he, MapVar.mem_map_fst_entries.1 hr]

end NodeConfig

namespace ClusterState

/-- `Partitions[partition][replica].Holder`, when both indices are in range. -/
def holderAt (partitions : List (List PartitionReplica)) (partition replica : UInt64) :
    Option UInt64 :=
  (partitions[partition.toNat]? >>= (·[replica.toNat]?)).map PartitionReplica.holder

/-- `Partitions[partition][replica].Holder = holder`, panicking out of range. -/
def setHolder (partitions : List (List PartitionReplica)) (partition replica holder : UInt64) :
    Except GoPanic (List (List PartitionReplica)) := do
  let replicas ← sliceGet partitions partition
  let partitionReplica ← sliceGet replicas replica
  let replicas ← sliceSet replicas replica { partitionReplica with holder }
  sliceSet partitions partition replicas

/-- The table with every `Holder` set to `0`: what a call that only moves replicas keeps. -/
def withoutHolders (partitions : List (List PartitionReplica)) : List (List PartitionReplica) :=
  partitions.map (·.map ({ · with holder := 0 }))

/-! ### The replica table -/

section Table

variable {ps ps' : List (List PartitionReplica)} {p p' r r' : UInt64}

theorem map_length_of_withoutHolders (h : withoutHolders ps' = withoutHolders ps) :
    ps'.map List.length = ps.map List.length := by
  simpa [withoutHolders, Function.comp_def] using congrArg (List.map List.length) h

theorem isSome_holderAt :
    (holderAt ps p r).isSome ↔ ∃ n, (ps.map List.length)[p.toNat]? = some n ∧ r.toNat < n := by
  unfold holderAt
  cases hp : ps[p.toNat]? <;> simp [hp, Option.isSome_iff_ne_none]

theorem setHolder_ok (h : (holderAt ps p r).isSome) (holder : UInt64) :
    ∃ ps', setHolder ps p r holder = .ok ps' ∧ withoutHolders ps' = withoutHolders ps ∧
      ∀ p' r', holderAt ps' p' r' =
        if p' = p ∧ r' = r then some holder else holderAt ps p' r' := by
  obtain ⟨n, hn, hr⟩ := isSome_holderAt.1 h
  obtain ⟨row, hrow, rfl⟩ := Option.map_eq_some'.1 (List.getElem?_map .. ▸ hn)
  obtain ⟨x, hx⟩ : ∃ x, row[r.toNat]? = some x := ⟨_, List.getElem?_eq_getElem hr⟩
  obtain ⟨hp, hrow'⟩ := List.getElem?_eq_some_iff.1 hrow
  refine ⟨ps.set p.toNat (row.set r.toNat { x with holder }), ?_, ?_, fun p' r' => ?_⟩
  · simp [setHolder, sliceGet_eq_ok.2 hrow, sliceGet_eq_ok.2 hx, sliceSet_eq_ok.2 ⟨hr, rfl⟩,
      sliceSet_eq_ok.2 ⟨hp, rfl⟩, bind, Except.bind]
  · have hrow_eq : (row.set r.toNat { x with holder }).map ({ · with holder := 0 }) =
        row.map ({ · with holder := 0 }) := by
      refine List.ext_getElem? fun j => ?_
      by_cases hj : r.toNat = j
      · subst hj
        simp [List.getElem?_set, hr, (List.getElem?_eq_some_iff.1 hx).2]
      · simp [List.getElem?_set, hj]
    refine List.ext_getElem? fun i => ?_
    by_cases hi : p.toNat = i
    · subst hi
      simp [withoutHolders, List.getElem?_set, hp, hrow', hrow_eq]
    · simp [withoutHolders, List.getElem?_set, hi]
  · unfold holderAt
    by_cases hpp : p' = p
    · subst hpp
      by_cases hrr : r' = r
      · subst hrr
        simp [List.getElem?_set, hp, hr]
      · have : r.toNat ≠ r'.toNat := fun h => hrr (UInt64.toNat_inj.1 h.symm)
        simp [List.getElem?_set, hp, hrr, hrow, this]
    · have : p.toNat ≠ p'.toNat := fun h => hpp (UInt64.toNat_inj.1 h.symm)
      simp [List.getElem?_set, hpp, this]

end Table

/-- `AddNode(nodeConfig)`: add a node under a fresh, nonzero ID; otherwise nothing. -/
def addNode (clusterState : ClusterState) (nodeConfig : NodeConfig) : ClusterState :=
  if nodeConfig.address.nodeID = 0 then clusterState
  else if (clusterState.nodes.get? nodeConfig.address.nodeID).isSome then clusterState
  else { clusterState with
    nodes := clusterState.nodes.set nodeConfig.address.nodeID nodeConfig }

/-- One iteration of `RemoveNode`'s first loop: the node relinquishes `replica` of
`partition`, which nobody holds any more. -/
def releaseReplica (partition : UInt64) (acc : NodeConfig × List (List PartitionReplica))
    (replica : UInt64 × Bool) : Except GoPanic (NodeConfig × List (List PartitionReplica)) := do
  let nodeConfig := acc.1.relinquishPartitionReplica partition replica.1
  let partitions ← setHolder acc.2 partition replica.1 0
  pure (nodeConfig, partitions)

/-- One iteration of `RemoveNode`'s second loop: the node relinquishes `token`, which nobody
owns any more. -/
def releaseToken (acc : NodeConfig × List UInt64) (token : UInt64 × Bool) :
    Except GoPanic (NodeConfig × List UInt64) := do
  let nodeConfig := acc.1.relinquishToken token.1
  let tokens ← sliceSet acc.2 token.1 0
  pure (nodeConfig, tokens)

/-- `RemoveNode(node)`. The loops range over the node's own maps while relinquishing from
them; each iteration deletes only the entry it visits, so every entry is visited, as in a
loop over the entries the maps had when it started. -/
def removeNode (clusterState : ClusterState) (node : UInt64) : Except GoPanic ClusterState :=
  match clusterState.nodes.get? node with
  | none => pure clusterState
  | some nodeConfig => do
    let (nodeConfig, partitions) ← (MapVar.entries nodeConfig.partitionReplicas).foldlM
      (fun acc entry => (MapVar.entries entry.2).foldlM (releaseReplica entry.1) acc)
      (nodeConfig, clusterState.partitions)
    let (_, tokens) ← (MapVar.entries nodeConfig.tokens).foldlM releaseToken
      (nodeConfig, clusterState.tokens)
    pure { clusterState with nodes := clusterState.nodes.delete node, tokens, partitions }

/-! ### `RemoveNode`'s loops

Each loop is a fold whose step panics only on an index out of range; as long as every entry
indexes the table, the fold succeeds and sets the visited places to `0`. -/

theorem foldlM_releaseReplica (partition : UInt64) (replicas : List (UInt64 × Bool))
    (nc : NodeConfig) (ps : List (List PartitionReplica))
    (h : ∀ e ∈ replicas, (holderAt ps partition e.1).isSome) :
    ∃ nc' ps', replicas.foldlM (releaseReplica partition) (nc, ps) = .ok (nc', ps') ∧
      nc'.tokens = nc.tokens ∧ withoutHolders ps' = withoutHolders ps ∧
      ∀ p r, holderAt ps' p r =
        if p = partition ∧ r ∈ replicas.map Prod.fst then some 0 else holderAt ps p r := by
  induction replicas generalizing nc ps with
  | nil => exact ⟨nc, ps, rfl, rfl, rfl, by simp⟩
  | cons e replicas ih =>
    obtain ⟨ps₁, hset, hshape₁, hholder₁⟩ := setHolder_ok (h e (.head _)) 0
    obtain ⟨nc', ps', hloop, htok, hshape, hholder⟩ :=
      ih (nc.relinquishPartitionReplica partition e.1) ps₁ fun e' he' => by
        rw [hholder₁]
        split
        · rfl
        · exact h e' (.tail _ he')
    refine ⟨nc', ps', ?_, by simp [htok], hshape.trans hshape₁, fun p r => ?_⟩
    · simpa [releaseReplica, hset, bind, Except.bind, pure, Except.pure] using hloop
    · rw [hholder, hholder₁, ← ite_or]
      exact if_congr (by rw [List.map_cons, List.mem_cons]; tauto) rfl rfl

theorem foldlM_releaseReplicas (partitionReplicas : List (UInt64 × MapVar UInt64 Bool))
    (nc : NodeConfig) (ps : List (List PartitionReplica))
    (h : ∀ e ∈ partitionReplicas, ∀ f ∈ MapVar.entries e.2, (holderAt ps e.1 f.1).isSome) :
    ∃ nc' ps', partitionReplicas.foldlM
        (fun acc entry => (MapVar.entries entry.2).foldlM (releaseReplica entry.1) acc) (nc, ps) =
        .ok (nc', ps') ∧
      nc'.tokens = nc.tokens ∧ withoutHolders ps' = withoutHolders ps ∧
      ∀ p r, holderAt ps' p r =
        if ∃ e ∈ partitionReplicas, p = e.1 ∧ r ∈ (MapVar.entries e.2).map Prod.fst then some 0
        else holderAt ps p r := by
  induction partitionReplicas generalizing nc ps with
  | nil => exact ⟨nc, ps, rfl, rfl, rfl, by simp⟩
  | cons e rest ih =>
    obtain ⟨nc₁, ps₁, hloop₁, htok₁, hshape₁, hholder₁⟩ :=
      foldlM_releaseReplica e.1 (MapVar.entries e.2) nc ps (h e (.head _))
    obtain ⟨nc', ps', hloop, htok, hshape, hholder⟩ := ih nc₁ ps₁ fun e' he' f hf => by
      rw [hholder₁]
      split
      · rfl
      · exact h e' (.tail _ he') f hf
    refine ⟨nc', ps', by simp [hloop₁, hloop, bind, Except.bind], htok.trans htok₁,
      hshape.trans hshape₁, fun p r => ?_⟩
    rw [hholder, hholder₁, ← ite_or]
    refine if_congr ?_ rfl rfl
    simp only [List.mem_cons, or_and_right, exists_or, exists_eq_left]
    exact or_comm

theorem foldlM_releaseToken (owned : List (UInt64 × Bool)) (nc : NodeConfig)
    (tokens : List UInt64) (h : ∀ e ∈ owned, e.1.toNat < tokens.length) :
    ∃ nc' tokens', owned.foldlM releaseToken (nc, tokens) = .ok (nc', tokens') ∧
      tokens'.length = tokens.length ∧
      ∀ i, tokens'[i]? = if i ∈ owned.map (·.1.toNat) then some 0 else tokens[i]? := by
  induction owned generalizing nc tokens with
  | nil => exact ⟨nc, tokens, rfl, rfl, by simp⟩
  | cons e rest ih =>
    obtain ⟨nc', tokens', hloop, hlen, hget⟩ := ih (nc.relinquishToken e.1)
      (tokens.set e.1.toNat 0) fun e' he' => by simpa using h e' (.tail _ he')
    refine ⟨nc', tokens', ?_, by simp [hlen], fun i => ?_⟩
    · simpa [releaseToken, sliceSet_eq_ok.2 ⟨h e (.head _), rfl⟩, bind, Except.bind, pure,
        Except.pure] using hloop
    · rw [hget, List.getElem?_set, if_congr Iff.rfl (if_pos (h e (.head _))) rfl, ← ite_or]
      exact if_congr (by rw [List.map_cons, List.mem_cons, eq_comm (a := i)]; tauto) rfl rfl

/-- **`RemoveNode` of a node whose tokens and replicas index the tables**: the node goes,
and exactly the tokens it owned and the replicas it held are set to `0`. -/
theorem removeNode_ok {cs : ClusterState} {node : UInt64} {nc : NodeConfig}
    (hn : cs.nodes.get? node = some nc)
    (htokens : ∀ t, nc.OwnsToken t → t.toNat < cs.tokens.length)
    (hreplicas : ∀ p r, nc.HoldsReplica p r → (holderAt cs.partitions p r).isSome) :
    ∃ tokens partitions,
      cs.removeNode node = .ok { cs with nodes := cs.nodes.delete node, tokens, partitions } ∧
      tokens.length = cs.tokens.length ∧
      (∀ t : UInt64, tokens[t.toNat]? = if nc.OwnsToken t then some 0 else cs.tokens[t.toNat]?) ∧
      withoutHolders partitions = withoutHolders cs.partitions ∧
      ∀ p r, holderAt partitions p r =
        if nc.HoldsReplica p r then some 0 else holderAt cs.partitions p r := by
  obtain ⟨nc₁, ps, hloop₁, htok₁, hshape, hholder⟩ :=
    foldlM_releaseReplicas (MapVar.entries nc.partitionReplicas) nc cs.partitions
      fun e he f hf => hreplicas e.1 f.1 (NodeConfig.holdsReplica_iff_mem_entries.2
        ⟨e, he, rfl, List.mem_map_of_mem _ hf⟩)
  obtain ⟨nc₂, tokens, hloop₂, hlen, hget⟩ :=
    foldlM_releaseToken (MapVar.entries nc₁.tokens) nc₁ cs.tokens
      fun e he => htokens e.1 (NodeConfig.ownsToken_iff_mem_entries.2
        (List.mem_map_of_mem _ (htok₁ ▸ he)))
  refine ⟨tokens, ps, ?_, hlen, fun t => ?_, hshape, fun p r => ?_⟩
  · simp [removeNode, hn, hloop₁, hloop₂, bind, Except.bind, pure, Except.pure]
  · rw [hget, htok₁]
    refine if_congr ?_ rfl rfl
    rw [NodeConfig.ownsToken_iff_mem_entries,
      ← List.mem_map_of_injective (f := UInt64.toNat) fun _ _ => UInt64.toNat.inj, List.map_map]
    rfl
  · rw [hholder]
    exact if_congr NodeConfig.holdsReplica_iff_mem_entries.symm rfl rfl

/-- `AssignToken(node, token)`: the state after the call, and the error it returns. -/
def assignToken (clusterState : ClusterState) (node token : UInt64) :
    Except GoPanic (ClusterState × Option ClusterError) :=
  if clusterState.tokens.length ≤ token.toNat then pure (clusterState, some .ENoSuchToken)
  else match clusterState.nodes.get? node with
  | none => pure (clusterState, some .ENoSuchNode)
  | some _ => do
    let currentOwner ← sliceGet clusterState.tokens token
    let nodes ← if currentOwner ≠ 0 then
        match clusterState.nodes.get? currentOwner with
        | some owner => pure (clusterState.nodes.set currentOwner (owner.relinquishToken token))
        | none => throw .nilPointerDereference
      else pure clusterState.nodes
    let tokens ← sliceSet clusterState.tokens token node
    match nodes.get? node with
    | some nodeConfig => do
      let nodeConfig ← nodeConfig.takeToken token
      pure ({ clusterState with nodes := nodes.set node nodeConfig, tokens }, none)
    | none => throw .nilPointerDereference

/-- `AssignPartitionReplica(partition, replica, node)`: the state after the call, and the
error it returns. -/
def assignPartitionReplica (clusterState : ClusterState) (partition replica node : UInt64) :
    Except GoPanic (ClusterState × Option ClusterError) :=
  if clusterState.partitions.length ≤ partition.toNat then
    pure (clusterState, some .ENoSuchPartition)
  else do
    let replicas ← sliceGet clusterState.partitions partition
    match clusterState.nodes.get? node with
    | none => pure (clusterState, some .ENoSuchNode)
    | some _ =>
      if replicas.length ≤ replica.toNat then pure (clusterState, some .ENoSuchReplica)
      else do
        let currentHolder := (← sliceGet replicas replica).holder
        let nodes ← if currentHolder ≠ 0 then
            match clusterState.nodes.get? currentHolder with
            | some holder => pure (clusterState.nodes.set currentHolder
                (holder.relinquishPartitionReplica partition replica))
            | none => throw .nilPointerDereference
          else pure clusterState.nodes
        let partitions ← setHolder clusterState.partitions partition replica node
        match nodes.get? node with
        | some nodeConfig => do
          let nodeConfig ← nodeConfig.takePartitionReplica partition replica
          pure ({ clusterState with nodes := nodes.set node nodeConfig, partitions }, none)
        | none => throw .nilPointerDereference

/-- **`AssignToken` when the nodes it writes to have writable maps**: `Tokens[token]` becomes
`node`, the token moves from its current owner's set to `node`'s, and no other configuration
changes. -/
theorem assignToken_ok {cs : ClusterState} {node token : UInt64} {nc : NodeConfig}
    (ht : token.toNat < cs.tokens.length) (hn : cs.nodes.get? node = some nc)
    (hwf : nc.WellFormed) (howner : ∀ owner, cs.tokens[token.toNat]? = some owner → owner ≠ 0 →
      ∃ oc, cs.nodes.get? owner = some oc ∧ oc.WellFormed) :
    ∃ nc', nc'.WellFormed ∧ nc'.address = nc.address ∧
      (∀ t, nc'.OwnsToken t ↔ t = token ∨ nc.OwnsToken t) ∧
      (∀ p r, nc'.HoldsReplica p r ↔ nc.HoldsReplica p r) ∧
      ∃ nodes, cs.assignToken node token =
          .ok ({ cs with nodes, tokens := cs.tokens.set token.toNat node }, none) ∧
        ∀ m, nodes.get? m = if m = node then some nc'
          else if m = cs.tokens[token.toNat] ∧ m ≠ 0 then
            (cs.nodes.get? m).map (·.relinquishToken token)
          else cs.nodes.get? m := by
  have hown : cs.tokens[token.toNat]? = some cs.tokens[token.toNat] := List.getElem?_eq_getElem ht
  -- `node` once the current owner has relinquished the token
  obtain ⟨nc₁, hnc₁, hwf₁, haddr₁, hown₁, hparts₁⟩ : ∃ nc₁, nc₁ =
        (if node = cs.tokens[token.toNat] ∧ node ≠ 0 then nc.relinquishToken token else nc) ∧
      nc₁.WellFormed ∧ nc₁.address = nc.address ∧
      (∀ t, t = token ∨ nc₁.OwnsToken t ↔ t = token ∨ nc.OwnsToken t) ∧
      nc₁.partitionReplicas = nc.partitionReplicas := by
    split_ifs
    · exact ⟨_, rfl, hwf.relinquishToken token, rfl, fun t => by
        rw [NodeConfig.ownsToken_relinquishToken]; tauto, rfl⟩
    · exact ⟨_, rfl, hwf, rfl, fun _ => .rfl, rfl⟩
  obtain ⟨nc', htake, hwf'⟩ := hwf₁.takeToken token
  refine ⟨nc', hwf', (NodeConfig.address_of_takeToken htake).trans haddr₁,
    fun t => (NodeConfig.ownsToken_of_takeToken htake).trans (hown₁ t), fun p r => ?_, ?_⟩
  · simp only [NodeConfig.HoldsReplica, NodeConfig.partitionReplicas_of_takeToken htake, hparts₁]
  have hcode : ¬ cs.tokens.length ≤ token.toNat := by omega
  by_cases h0 : cs.tokens[token.toNat] = 0
  · rw [if_neg fun h => h.2 (h.1.trans h0)] at hnc₁
    refine ⟨cs.nodes.set node nc', ?_, fun m => ?_⟩
    · simp [assignToken, hcode, hn, sliceGet_eq_ok.2 hown, h0, sliceSet_eq_ok.2 ⟨ht, rfl⟩,
        ← hnc₁, htake, bind, Except.bind, pure, Except.pure]
    · simp [h0]
  · obtain ⟨oc, hoc, -⟩ := howner _ hown h0
    have hget₁ : (cs.nodes.set cs.tokens[token.toNat] (oc.relinquishToken token)).get? node =
        some nc₁ := by
      by_cases h : node = cs.tokens[token.toNat]
      · have : oc = nc := Option.some.inj ((h ▸ hoc).symm.trans hn)
        simp [hnc₁, h, h0, this]
      · simp [hnc₁, h, hn]
    refine ⟨(cs.nodes.set cs.tokens[token.toNat] (oc.relinquishToken token)).set node nc', ?_,
      fun m => ?_⟩
    · simp [assignToken, hcode, hn, sliceGet_eq_ok.2 hown, h0, hoc, sliceSet_eq_ok.2 ⟨ht, rfl⟩,
        hget₁, htake, bind, Except.bind, pure, Except.pure]
    · by_cases hm : m = cs.tokens[token.toNat] <;> simp [hm, h0, hoc]

/-- **`AssignPartitionReplica` when the nodes it writes to have writable maps**: the replica's
`Holder` becomes `node`, the replica moves from its current holder's set to `node`'s, and no
other configuration changes. -/
theorem assignPartitionReplica_ok {cs : ClusterState} {partition replica node : UInt64}
    {nc : NodeConfig} (hp : (holderAt cs.partitions partition replica).isSome)
    (hn : cs.nodes.get? node = some nc) (hwf : nc.WellFormed)
    (hholder : ∀ holder, holderAt cs.partitions partition replica = some holder → holder ≠ 0 →
      ∃ hc, cs.nodes.get? holder = some hc ∧ hc.WellFormed) :
    ∃ nc', nc'.WellFormed ∧ nc'.address = nc.address ∧ nc'.tokens = nc.tokens ∧
      (∀ p r, nc'.HoldsReplica p r ↔ (p = partition ∧ r = replica) ∨ nc.HoldsReplica p r) ∧
      ∃ nodes partitions, cs.assignPartitionReplica partition replica node =
          .ok ({ cs with nodes, partitions }, none) ∧
        withoutHolders partitions = withoutHolders cs.partitions ∧
        (∀ p r, holderAt partitions p r =
          if p = partition ∧ r = replica then some node else holderAt cs.partitions p r) ∧
        ∀ m, nodes.get? m = if m = node then some nc'
          else if holderAt cs.partitions partition replica = some m ∧ m ≠ 0 then
            (cs.nodes.get? m).map (·.relinquishPartitionReplica partition replica)
          else cs.nodes.get? m := by
  obtain ⟨n, hn', hr⟩ := isSome_holderAt.1 hp
  obtain ⟨row, hrow, rfl⟩ := Option.map_eq_some'.1 (List.getElem?_map .. ▸ hn')
  obtain ⟨x, hx⟩ : ∃ x, row[replica.toNat]? = some x := ⟨_, List.getElem?_eq_getElem hr⟩
  have hhold : holderAt cs.partitions partition replica = some x.holder := by
    simp [holderAt, hrow, hx]
  have hlen : ¬ cs.partitions.length ≤ partition.toNat := fun h => by
    simp [List.getElem?_eq_none h] at hrow
  -- `node` once the current holder has relinquished the replica
  obtain ⟨nc₁, hnc₁, hwf₁, haddr₁, htok₁, hholds₁⟩ : ∃ nc₁, nc₁ =
        (if node = x.holder ∧ node ≠ 0 then nc.relinquishPartitionReplica partition replica
          else nc) ∧
      nc₁.WellFormed ∧ nc₁.address = nc.address ∧ nc₁.tokens = nc.tokens ∧
      ∀ p r, (p = partition ∧ r = replica) ∨ nc₁.HoldsReplica p r ↔
        (p = partition ∧ r = replica) ∨ nc.HoldsReplica p r := by
    split_ifs
    · refine ⟨_, rfl, hwf.relinquishPartitionReplica partition replica, by simp, by simp,
        fun p r => ?_⟩
      rw [NodeConfig.holdsReplica_relinquishPartitionReplica]
      tauto
    · exact ⟨_, rfl, hwf, rfl, rfl, fun _ _ => .rfl⟩
  obtain ⟨nc', htake, hwf', haddr', htok', hholds'⟩ := hwf₁.takePartitionReplica partition replica
  obtain ⟨ps', hset, hshape, hholder'⟩ := setHolder_ok hp node
  refine ⟨nc', hwf', haddr'.trans haddr₁, htok'.trans htok₁,
    fun p r => (hholds' p r).trans (hholds₁ p r), ?_⟩
  have hcode : ¬ row.length ≤ replica.toNat := by omega
  by_cases h0 : x.holder = 0
  · rw [if_neg fun h => h.2 (h.1.trans h0)] at hnc₁
    refine ⟨cs.nodes.set node nc', ps', ?_, hshape, hholder', fun m => ?_⟩
    · simp [assignPartitionReplica, hlen, hn, sliceGet_eq_ok.2 hrow, sliceGet_eq_ok.2 hx, hcode,
        h0, hset, ← hnc₁, htake, bind, Except.bind, pure, Except.pure]
    · simp [hhold, h0, eq_comm]
  · obtain ⟨hc, hhc, -⟩ := hholder _ hhold h0
    have hget₁ : (cs.nodes.set x.holder (hc.relinquishPartitionReplica partition replica)).get?
        node = some nc₁ := by
      by_cases h : node = x.holder
      · have : hc = nc := Option.some.inj ((h ▸ hhc).symm.trans hn)
        simp [hnc₁, h, h0, this]
      · simp [hnc₁, h, hn]
    refine ⟨(cs.nodes.set x.holder (hc.relinquishPartitionReplica partition replica)).set node nc',
      ps', ?_, hshape, hholder', fun m => ?_⟩
    · simp [assignPartitionReplica, hlen, hn, sliceGet_eq_ok.2 hrow, sliceGet_eq_ok.2 hx, hcode,
        h0, hhc, hset, hget₁, htake, bind, Except.bind, pure, Except.pure]
    · by_cases hm : m = x.holder <;> simp [hhold, hm, h0, hhc, eq_comm]

/-- `AssignToken` of a token out of range or for a missing node returns an error and changes
nothing. -/
theorem assignToken_eq_error {cs : ClusterState} {node token : UInt64}
    (h : cs.tokens.length ≤ token.toNat ∨ cs.nodes.get? node = none) :
    ∃ e, cs.assignToken node token = .ok (cs, some e) := by
  unfold assignToken
  by_cases ht : cs.tokens.length ≤ token.toNat
  · simp [ht, pure, Except.pure]
  · simp [ht, h.resolve_left ht, pure, Except.pure]

/-- `AssignPartitionReplica` of a replica out of range or for a missing node returns an error
and changes nothing. -/
theorem assignPartitionReplica_eq_error {cs : ClusterState} {partition replica node : UInt64}
    (h : (holderAt cs.partitions partition replica).isSome = false ∨ cs.nodes.get? node = none) :
    ∃ e, cs.assignPartitionReplica partition replica node = .ok (cs, some e) := by
  unfold assignPartitionReplica
  by_cases hp : cs.partitions.length ≤ partition.toNat
  · simp [hp, pure, Except.pure]
  · have hrow := List.getElem?_eq_getElem (Nat.lt_of_not_le hp)
    simp only [hp, if_false, sliceGet_eq_ok.2 hrow, bind, Except.bind]
    cases hn : cs.nodes.get? node with
    | none => simp [pure, Except.pure]
    | some _ =>
      have hr : cs.partitions[partition.toNat].length ≤ replica.toNat := by
        by_contra hr
        have : (holderAt cs.partitions partition replica).isSome :=
          isSome_holderAt.2 ⟨_, by simp [hrow], Nat.lt_of_not_le hr⟩
        simp_all
      simp [hr, pure, Except.pure]

/-- `Initialize()` (the lower-case name is a Lean keyword): once the settings are initialized, `Partitions` tokens owned by nobody and
a `Partitions × ReplicationFactor` table of replicas held by nobody. -/
def Initialize (clusterState : ClusterState) : ClusterState :=
  if !clusterState.clusterSettings.areInitialized then clusterState
  else { clusterState with
    tokens := List.replicate clusterState.clusterSettings.partitions.toNat 0
    partitions := (List.range clusterState.clusterSettings.partitions.toNat).map fun partition =>
      (List.range clusterState.clusterSettings.replicationFactor.toNat).map fun replica =>
        ⟨UInt64.ofNat partition, UInt64.ofNat replica, 0⟩ }

end ClusterState

/-! ### Runs

A client of the state calls its mutating methods in any order; a run stops at the first
panic. The errors the assign methods return leave the state as it was. -/

/-- A call of one of the state's mutating methods. -/
inductive ClusterOp
  | addNode (nodeConfig : NodeConfig)
  | removeNode (node : UInt64)
  | assignToken (node token : UInt64)
  | assignPartitionReplica (partition replica node : UInt64)
  deriving DecidableEq

/-- The state after a call. -/
def ClusterOp.apply : ClusterOp → ClusterState → Except GoPanic ClusterState
  | .addNode nodeConfig, clusterState => pure (clusterState.addNode nodeConfig)
  | .removeNode node, clusterState => clusterState.removeNode node
  | .assignToken node token, clusterState => (·.1) <$> clusterState.assignToken node token
  | .assignPartitionReplica partition replica node, clusterState =>
    (·.1) <$> clusterState.assignPartitionReplica partition replica node

namespace ClusterState

/-- The calls one after another, from `clusterState`. -/
def run (clusterState : ClusterState) (ops : List ClusterOp) : Except GoPanic ClusterState :=
  ops.foldlM (fun clusterState op => op.apply clusterState) clusterState

@[simp] theorem run_nil (cs : ClusterState) : run cs [] = .ok cs := rfl

theorem run_cons {cs cs' : ClusterState} {op : ClusterOp} (ops : List ClusterOp)
    (h : op.apply cs = .ok cs') : run cs (op :: ops) = run cs' ops := by
  simp [run, h, bind, Except.bind]

end ClusterState

end DeviceDB
