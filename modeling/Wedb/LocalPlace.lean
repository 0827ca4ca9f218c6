/-
The place of the local node, which is its id, address and port, under the operations of a cluster
manager. It never changes, except that a MEET can overwrite it: one that gives the id of the local
node and another address, and one that gives its address and an unknown id.
-/

import Wedb.ClusterEpochs

namespace Wedb.Cluster

open ClusterConfig List

/-- The id, address and port of the local node. -/
def ClusterConfig.localPlace (config : ClusterConfig) : Option (Option Bytes × Bytes × Nat) :=
  (config.workers.map Worker.place)[localWorkerId]?

namespace ClusterManager

/-- The operations that leave the local place: not a MEET with the local id or the local address
only. -/
def Spares (manager : ClusterManager) : Operation → Prop
  | .meet address port nodeId => ∀ name ∈ nodeId, ∀ worker ∈ manager.config.workers[localWorkerId]?,
      (GoesBy name worker → address = worker.address ∧ port = worker.port) ∧
        (manager.config.getWorkerIdFromNodeId name = 0 →
          ¬(address = worker.address ∧ port = worker.port))
  | _ => True

variable {manager : ClusterManager}

theorem localPlace_modify {config : ClusterConfig} {worker : Worker}
    (located : config.workers[localWorkerId]? = some worker) {index : Nat}
    {change : Worker → Worker}
    (keeps : index = localWorkerId → (change worker).place = worker.place) :
    localPlace { config with workers := config.workers.modify index change } =
      config.localPlace := by
  simp only [localPlace, getElem?_map, getElem?_modify, located, Option.map_some, Option.map_eq_map]
  split_ifs with same
  · rw [keeps same]
  · rfl

theorem tryMeet_localPlace (manned : 2 ≤ manager.config.workers.length) {address : Bytes}
    {port : Nat} {nodeId : Option Bytes} (spares : manager.Spares (.meet address port nodeId)) :
    (manager.tryMeet address port nodeId).2.config.localPlace = manager.config.localPlace := by
  obtain ⟨worker, -, located⟩ := exists_local manned
  unfold tryMeet
  dsimp only
  split_ifs with existing
  · refine localPlace_modify located fun atLocal => ?_
    cases nodeId with
    | none => cases existing
    | some name =>
      obtain ⟨found, here, goesBy⟩ := getWorkerId_found (Nat.ne_of_gt existing)
      rw [show manager.config.getWorkerIdFromNodeId name = localWorkerId from atLocal] at here
      obtain rfl := Option.some.inj (located.symm.trans here)
      obtain ⟨rfl, rfl⟩ := (spares name rfl worker located).1 goesBy
      rfl
  · split
    · rename_i position found
      refine localPlace_modify located fun atLocal => ?_
      cases nodeId with
      | none => rfl
      | some name =>
        refine absurd ?_ ((spares name rfl worker located).2 (Nat.eq_zero_of_not_pos existing))
        obtain ⟨inside, matching, -⟩ := findIdx?_eq_some_iff_getElem.mp found
        grind [localWorkerId]
    · unfold addWorker
      rw [if_neg (not_not.mpr (Nat.eq_zero_of_not_pos existing))]
      grind [accept, localPlace, localWorkerId]

theorem apply_localPlace (sound : manager.config.Sound) {operation : Operation}
    (spares : manager.Spares operation) :
    (manager.apply operation).config.localPlace = manager.config.localPlace := by
  by_cases meets : ∃ address port nodeId, operation = .meet address port nodeId
  · obtain ⟨address, port, nodeId, rfl⟩ := meets
    exact tryMeet_localPlace sound.manned spares
  have modified : ∀ change, (∀ worker : Worker, (change worker).place = worker.place) →
      ∀ {config : ClusterConfig}, (config.modifyLocal change).localPlace = config.localPlace :=
    fun _ keeps _ => congrArg (·[localWorkerId]?) (map_modify_of_keeps _ _ _ keeps)
  have renumbered (config : ClusterConfig) (epoch) :
      (config.setLocalEpoch epoch).localPlace = config.localPlace :=
    modified (fun worker => { worker with configEpoch := epoch }) fun _ => rfl
  have workers := (apply_follows sound operation).workers
  generalize (manager.apply operation).config = after at workers ⊢
  obtain ⟨slotMap, table⟩ := after
  dsimp only at workers
  cases workers with
  | edited same =>
    have placed (workers : List Worker) : localPlace ⟨slotMap, workers⟩ =
        ((workers.map Worker.identity).map Prod.fst)[localWorkerId]? := by
      rw [map_map]
      rfl
    exact (placed table).trans ((congrArg (fun cards => (cards.map Prod.fst)[localWorkerId]?)
      same).trans (placed _).symm)
  | raised raises change placed epoch => exact modified change placed
  | started alone unset positive => exact renumbered _ _
  | removed index behind =>
    simp only [localPlace, getElem?_map]
    exact congrArg (Option.map _) (getElem?_eraseIdx_of_lt behind)
  | heard =>
    rename_i clock packet
    have heard := processPacket_heard manager.gossip clock packet sound
    have same : (manager.gossip.processPacket clock manager.config packet).config.localPlace =
        manager.config.localPlace := by
      simp only [localPlace, getElem?_map, heard.localWorker]
    refine Eq.trans ?_ same
    unfold resolveEpochCollision
    split_ifs
    · exact renumbered _ _
    · rfl
  | moved | named | added => exact absurd ⟨_, _, _, rfl⟩ meets

/-- In every history in which each MEET spares it, the local node keeps its place. -/
theorem history_keeps_localPlace (worker : Worker) (operations : List Operation)
    (spares : Throughout Spares (initialised worker) operations) :
    ∀ state ∈ (initialised worker).states operations,
      state.config.localPlace = some worker.place := by
  have kept := states_induction
    (fun state => state.config.Sound ∧ state.config.localPlace = some worker.place)
    (fun _ operation spared good => ⟨apply_sound good.1 operation,
      (apply_localPlace good.1 spared).trans good.2⟩) spares ⟨initialised_sound worker, rfl⟩
  exact fun state member => (kept state member).2

theorem history_keeps_localPlace_meet :
    Throughout Spares (initialised (primaryOf [97] 1)) [.meet [49] 7000 (some [98])] ∧
      ∀ state ∈ (initialised (primaryOf [97] 1)).states [.meet [49] 7000 (some [98])],
        state.config.localPlace = some (primaryOf [97] 1).place := by
  have spares : Throughout Spares (initialised (primaryOf [97] 1))
      [.meet [49] 7000 (some [98])] := by
    refine ⟨?_, trivial⟩
    rintro _ ⟨⟩ _ ⟨⟩
    refine ⟨?_, fun _ => by decide⟩
    rintro ⟨_, ⟨⟩, close⟩
    exact absurd close (by decide)
  exact ⟨spares, history_keeps_localPlace _ _ spares⟩

/-- A MEET with the local address renames the local node, and one with the local id moves it. -/
theorem meet_overwrites_local :
    let start := initialised { primaryOf [97] 1 with address := [49], port := 7000 }
    (start.apply (.meet [49] 7000 (some [98]))).config.localPlace = some (some [98], [49], 7000) ∧
      (start.apply (.meet [50] 7001 (some [65]))).config.localPlace =
        some (some [97], [50], 7001) := by
  decide +kernel

end ClusterManager

end Wedb.Cluster
