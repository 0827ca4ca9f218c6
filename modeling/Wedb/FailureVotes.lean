/-
The votes on failing nodes. A report is kept under the sender's spelling of both names, while the
roles of voters are looked up regardless of case.
-/

import Wedb.ClusterHistory
import Mathlib.Data.List.Nodup

namespace Wedb.Cluster

open List GossipTracker ClusterConfig

variable {nodeId voter : Bytes}

abbrev Sayings := List (Bytes × GossipNodeSection)

def GossipNodeSection.failing (entry : GossipNodeSection) : Bool := entry.isPfail || entry.isFail

def concerns (voter nodeId : Bytes) (saying : Bytes × GossipNodeSection) : Bool :=
  eqIgnoreAsciiCase saying.1 voter && eqIgnoreAsciiCase saying.2.nodeId nodeId

/-- The last word of `voter` on the node is that it fails. -/
def Suspects (said : Sayings) (voter nodeId : Bytes) : Prop :=
  ∃ saying ∈ said.find? (concerns voter nodeId), saying.2.failing = true

instance (said : Sayings) (voter nodeId : Bytes) : Decidable (Suspects said voter nodeId) :=
  inferInstanceAs (Decidable (∃ saying ∈ said.find? (concerns voter nodeId),
    saying.2.failing = true))

theorem Suspects.cons_of_other {said : Sayings} {saying : Bytes × GossipNodeSection}
    (suspects : Suspects said voter nodeId) (other : concerns voter nodeId saying = false) :
    Suspects (saying :: said) voter nodeId := by
  unfold Suspects
  rw [find?_cons_of_neg (by simp [other])]
  exact suspects

variable {entry : GossipNodeSection}

theorem suspects_cons_self {said : Sayings}
    (failing : entry.failing = true) : Suspects ((voter, entry) :: said) voter entry.nodeId := by
  refine ⟨(voter, entry), ?_, failing⟩
  exact find?_cons_of_pos (by simp [concerns, eqIgnoreAsciiCase])

namespace ClusterManager

def hear (said : Sayings) : Operation → Sayings
  | .mergeGossip _ packet =>
    (packet.sections.map fun entry => (packet.header.senderId, entry)).reverse ++ said
  | _ => said

/-- The operations in which every section counts: gossip of few sections, on nodes spelled in one
way and not banned. -/
def Attended (spellings : Set Bytes) (manager : ClusterManager) : Operation → Prop
  | .mergeGossip _ packet => packet.sections.length ≤ maxGossipSections ∧
    ∀ name ∈ packet.names, name ∈ spellings ∧ manager.gossip.banList name = none
  | .markNodePfail _ | .clearNodePfail _ | .evaluateFailStatus => True
  | _ => False

end ClusterManager

/-- No two spellings differ in case only. -/
def OneSpelling (spellings : Set Bytes) : Prop :=
  ∀ name ∈ spellings, ∀ other ∈ spellings, eqIgnoreAsciiCase name other = true → name = other

namespace GossipTracker

variable {tracker : GossipTracker} {sender : Bytes} {entry : GossipNodeSection}

def reports (tracker : GossipTracker) (nodeId : Bytes) : List Bytes :=
  (tracker.pfailReports nodeId).getD []

theorem reports_update {after : GossipTracker} {voters : Option (List Bytes)}
    (updated : after.pfailReports = Function.update tracker.pfailReports nodeId voters)
    (other : Bytes) :
    after.reports other = if other = nodeId then voters.getD [] else tracker.reports other := by
  rw [reports, updated, Function.update_apply]
  split_ifs <;> rfl

theorem reports_vote (nodeId : Bytes) : (tracker.vote sender entry).reports nodeId =
      if nodeId = entry.nodeId then
        if entry.failing then (tracker.reports nodeId).insert sender
        else (tracker.reports nodeId).erase sender
      else tracker.reports nodeId := by
  change (if entry.failing then _ else _ : GossipTracker).reports nodeId = _
  split_ifs with failing same same
  · rw [reports_update rfl, if_pos same, same]
    rfl
  · rw [reports_update rfl, if_neg same]
  · rw [reports_update rfl, if_pos same, same, reports]
    cases tracker.pfailReports entry.nodeId <;> rfl
  · rw [reports_update rfl, if_neg same]

theorem nodup_reports_vote (once : (tracker.reports nodeId).Nodup) :
    ((tracker.vote sender entry).reports nodeId).Nodup := by
  rw [reports_vote]
  split_ifs
  · exact once.insert
  · exact once.erase sender
  · exact once

theorem mem_reports_vote (once : (tracker.reports nodeId).Nodup) :
    voter ∈ (tracker.vote sender entry).reports nodeId ↔
      if sender = voter ∧ entry.nodeId = nodeId then entry.failing = true
      else voter ∈ tracker.reports nodeId := by
  rw [reports_vote]
  obtain rfl | same := eq_or_ne entry.nodeId nodeId
  · obtain rfl | isSender := eq_or_ne sender voter
    · cases entry.failing <;> simp [once.mem_erase_iff]
    · cases entry.failing <;> simp [once.mem_erase_iff, isSender, Ne.symm isSender]
  · simp [same, Ne.symm same]

theorem banList_vote : (tracker.vote sender entry).banList = tracker.banList := by
  unfold vote
  split_ifs <;> rfl

theorem isBanned_of_unlisted (unlisted : tracker.banList nodeId = none) (now : Nat) :
    tracker.isBanned nodeId now = (false, tracker) := by
  simp only [isBanned, unlisted]

end GossipTracker

structure Founded (spellings : Set Bytes) (own : Option Bytes) (said : Sayings)
    (voter nodeId : Bytes) : Prop where
  spelled : voter ∈ spellings ∧ nodeId ∈ spellings
  heard : ¬(voter = [] ∨ own = some voter)
  considered : ¬(nodeId = [] ∨ nodeId = voter ∨ own = some nodeId)
  suspects : Suspects said voter nodeId

/-- The local node has its name, names have one spelling, and votes are kept rightly and once. -/
structure Faithful (spellings : Set Bytes) (own : Option Bytes) (said : Sayings)
    (config : ClusterConfig) (tracker : GossipTracker) : Prop where
  first : config.names[0]? = some own
  spelled : ∀ name, some name ∈ config.names → name ∈ spellings
  once : ∀ nodeId, (tracker.reports nodeId).Nodup
  founded : ∀ nodeId, ∀ voter ∈ tracker.reports nodeId, Founded spellings own said voter nodeId

variable {spellings : Set Bytes} {own : Option Bytes} {said : Sayings} {config : ClusterConfig}
  {tracker : GossipTracker}

theorem Founded.cons (distinct : OneSpelling spellings) {sender : Bytes}
    (known : sender ∈ spellings ∧ entry.nodeId ∈ spellings)
    (founded : Founded spellings own said voter nodeId)
    (other : ¬(sender = voter ∧ entry.nodeId = nodeId)) :
    Founded spellings own ((sender, entry) :: said) voter nodeId := by
  refine { founded with suspects := founded.suspects.cons_of_other ?_ }
  refine Bool.eq_false_iff.mpr fun same => other ?_
  obtain ⟨first, second⟩ := Bool.and_eq_true_iff.mp same
  exact ⟨distinct _ known.1 _ founded.spelled.1 first,
    distinct _ known.2 _ founded.spelled.2 second⟩

namespace Faithful

section

variable (faithful : Faithful spellings own said config tracker)

include faithful

theorem names_congr {after : ClusterConfig} (same : after.names = config.names) :
    Faithful spellings own said after tracker :=
  { faithful with first := same ▸ faithful.first, spelled := same ▸ faithful.spelled }

theorem fewer {after : GossipTracker}
    (sublist : ∀ nodeId, (after.reports nodeId).Sublist (tracker.reports nodeId)) :
    Faithful spellings own said config after :=
  { faithful with
    once := fun nodeId => (faithful.once nodeId).sublist (sublist nodeId)
    founded := fun nodeId voter member =>
      faithful.founded nodeId voter ((sublist nodeId).subset member) }

theorem localWorker : ∃ worker, config.workers[1]? = some worker ∧ worker.nodeId = own := by
  have first := faithful.first
  rw [getElem?_names] at first
  exact Option.map_eq_some_iff.mp first

theorem localNodeId : config.localNodeId = own := by
  obtain ⟨worker, located, named⟩ := faithful.localWorker
  change config.workers[1]?.bind Worker.nodeId = own
  rw [located, Option.bind_some, named]

theorem mergeWorkerRef {info : WorkerMeta} (spelled : ∀ name ∈ info.nodeId, name ∈ spellings)
    (confirm : Bool) :
    Faithful spellings own said (config.mergeWorkerRef info confirm).2 tracker := by
  obtain ⟨worker, located, -⟩ := faithful.localWorker
  have manned : 2 ≤ config.workers.length := (List.getElem?_eq_some_iff.mp located).1
  rcases names_mergeWorkerRef manned info confirm with same | ⟨newId, new, -, grown⟩
  · exact faithful.names_congr same
  · refine { faithful with first := ?_, spelled := fun name member => ?_ }
    · rw [grown, List.getElem?_append_left (List.getElem?_eq_some_iff.mp faithful.first).1]
      exact faithful.first
    · rw [grown, mem_append, mem_singleton] at member
      rcases member with known | isNew
      · exact faithful.spelled name known
      · exact Option.some.inj isNew ▸ spelled newId new

end

section

variable (distinct : OneSpelling spellings)

include distinct

variable {sender : Bytes} {entry : GossipNodeSection}

theorem skip (known : sender ∈ spellings ∧ entry.nodeId ∈ spellings)
    (faithful : Faithful spellings own said config tracker)
    (passed : (sender = [] ∨ own = some sender) ∨
      entry.nodeId = [] ∨ entry.nodeId = sender ∨ own = some entry.nodeId) :
    Faithful spellings own ((sender, entry) :: said) config tracker := by
  refine { faithful with founded := fun nodeId voter member => ?_ }
  have founded := faithful.founded nodeId voter member
  refine founded.cons distinct known ?_
  rintro ⟨rfl, rfl⟩
  exact passed.elim founded.heard founded.considered

theorem vote (known : sender ∈ spellings ∧ entry.nodeId ∈ spellings)
    (heard : ¬(sender = [] ∨ own = some sender))
    (considered : ¬(entry.nodeId = [] ∨ entry.nodeId = sender ∨ own = some entry.nodeId))
    (faithful : Faithful spellings own said config tracker) :
    Faithful spellings own ((sender, entry) :: said) config (tracker.vote sender entry) := by
  refine ⟨faithful.first, faithful.spelled, fun nodeId => nodup_reports_vote (faithful.once nodeId),
    fun nodeId voter member => ?_⟩
  rw [mem_reports_vote (faithful.once nodeId)] at member
  split_ifs at member with settled
  · obtain ⟨rfl, rfl⟩ := settled
    exact ⟨known, heard, considered, suspects_cons_self member⟩
  · exact (faithful.founded nodeId voter member).cons distinct known settled

theorem takeSection {state : Merge} {sender : Bytes} {item : GossipNodeSection × Nat}
    (known : sender ∈ spellings ∧ item.1.nodeId ∈ spellings)
    (unlisted : state.tracker.banList item.1.nodeId = none)
    (heard : ¬(sender = [] ∨ own = some sender))
    (faithful : Faithful spellings own said state.config state.tracker) :
    let after := state.takeSection sender item
    Faithful spellings own ((sender, item.1) :: said) after.config after.tracker ∧
      after.tracker.banList = state.tracker.banList := by
  unfold Merge.takeSection
  dsimp only
  rw [faithful.localNodeId, isBanned_of_unlisted unlisted]
  split_ifs with passed
  · exact ⟨faithful.skip distinct known (.inr passed), rfl⟩
  · contradiction
  · have isSpelled : ∀ name ∈ item.1.toMeta.nodeId, name ∈ spellings :=
      fun name isNamed => Option.some.inj isNamed ▸ known.2
    exact ⟨(faithful.mergeWorkerRef isSpelled false).vote distinct known heard passed, banList_vote⟩

theorem takeSections {sender : Bytes} (isKnown : sender ∈ spellings)
    (heard : ¬(sender = [] ∨ own = some sender)) {items : List (GossipNodeSection × Nat)}
    {state : Merge}
    (known : ∀ item ∈ items, item.1.nodeId ∈ spellings ∧ state.tracker.banList item.1.nodeId = none)
    (faithful : Faithful spellings own said state.config state.tracker) :
    let after := items.foldl (Merge.takeSection sender) state
    Faithful spellings own ((items.map fun item => (sender, item.1)).reverse ++ said)
      after.config after.tracker := by
  induction items generalizing state said with
  | nil => exact faithful
  | cons item rest ih =>
    obtain ⟨named, unlisted⟩ := known item mem_cons_self
    obtain ⟨taken, bans⟩ := faithful.takeSection distinct ⟨isKnown, named⟩ unlisted heard
    rw [map_cons, reverse_cons, append_assoc]
    exact ih (fun other member => bans ▸ known other (mem_cons_of_mem _ member)) taken

theorem skipAll (isKnown : sender ∈ spellings)
    (passed : sender = [] ∨ own = some sender) {entries : List GossipNodeSection}
    (known : ∀ entry ∈ entries, entry.nodeId ∈ spellings)
    (faithful : Faithful spellings own said config tracker) :
    Faithful spellings own ((entries.map fun entry => (sender, entry)).reverse ++ said)
      config tracker := by
  induction entries generalizing said with
  | nil => exact faithful
  | cons entry rest ih =>
    rw [map_cons, reverse_cons, append_assoc]
    exact ih (fun other member => known other (mem_cons_of_mem _ member))
      (faithful.skip distinct ⟨isKnown, known entry mem_cons_self⟩ (.inl passed))

theorem processPacket {manager : ClusterManager} {packet : GossipPacket} {clock : Nat → Nat}
    (attended : manager.Attended spellings (.mergeGossip clock packet))
    (faithful : Faithful spellings own said manager.config manager.gossip) :
    let merged := manager.gossip.processPacket clock manager.config packet
    Faithful spellings own (ClusterManager.hear said (.mergeGossip clock packet))
      merged.config merged.tracker := by
  obtain ⟨short, known⟩ := attended
  have whole : packet.considered = packet.sections := take_of_length_le short
  have sender := known _ mem_cons_self
  have entries entry (member : entry ∈ packet.sections) :=
    known entry.nodeId (mem_cons_of_mem _ (mem_map_of_mem (whole ▸ member)))
  unfold GossipTracker.processPacket
  dsimp only
  rw [isBanned_of_unlisted sender.2, faithful.localNodeId, whole]
  by_cases passed : packet.header.senderId = [] ∨ own = some packet.header.senderId
  · have skipped := faithful.skipAll distinct sender.1 passed
      fun entry member => (entries entry member).1
    split_ifs with unnamed ignored
    · exact skipped
    · exact skipped
    · exact absurd passed (not_or.mpr ⟨unnamed, fun isOwn => ignored (.inr isOwn)⟩)
  · obtain ⟨named, foreign⟩ := not_or.mp passed
    rw [if_neg named, if_neg (not_or.mpr ⟨Bool.false_ne_true, foreign⟩)]
    have isSpelled : ∀ name ∈ packet.header.toMeta.nodeId, name ∈ spellings :=
      fun name isNamed => Option.some.inj isNamed ▸ sender.1
    have recorded := faithful.mergeWorkerRef isSpelled true
    let start := Merge.takeSender packet.header manager.gossip manager.config
    have begun : Faithful spellings own said start.config start.tracker ∧
        start.tracker = manager.gossip := by
      unfold start Merge.takeSender
      split_ifs
      · exact ⟨recorded.names_congr (names_mergeSenderSlots _ _ _ _), rfl⟩
      · exact ⟨recorded, rfl⟩
    have times : packet.sections.length ≤
        ((List.range packet.sections.length).map fun index => clock (index + 1)).length := by simp
    generalize (List.range packet.sections.length).map (fun index => clock (index + 1)) = clocks
      at times ⊢
    have items : ∀ item ∈ packet.sections.zip clocks, item.1.nodeId ∈ spellings ∧
        start.tracker.banList item.1.nodeId = none :=
      fun item member => begun.2 ▸ entries item.1 (of_mem_zip member).1
    have merged := takeSections distinct sender.1 passed items begun.1
    have all := congrArg (List.map fun entry => (packet.header.senderId, entry)) (map_fst_zip times)
    rw [map_map, Function.comp_def] at all
    rwa [all] at merged

end

end Faithful

def GossipTracker.ownVote (tracker : GossipTracker) (config : ClusterConfig) (nodeId : Bytes) :
    Nat :=
  if config.isPrimary && tracker.localPfails.contains nodeId then 1 else 0

/-- The votes of other nodes that are counted. -/
def GossipTracker.voters (tracker : GossipTracker) (config : ClusterConfig) (nodeId : Bytes) :
    List Bytes :=
  (tracker.reports nodeId).filter fun voter => config.getNodeRoleFromNodeId voter = .primary

/-- An evaluation leaves the votes, and the nodes it reports have enough of them. -/
structure Counted (tracker : GossipTracker) (config : ClusterConfig)
    (found : List Bytes × GossipTracker) : Prop where
  reports : found.2.pfailReports = tracker.pfailReports
  marks : found.2.localPfails = tracker.localPfails
  enough : ∀ nodeId ∈ found.1, config.getPrimaryCount / 2 + 1 ≤
    tracker.ownVote config nodeId + (tracker.voters config nodeId).length

theorem Counted.evaluateWorker {found : List Bytes × GossipTracker}
    (counted : Counted tracker config found) (worker : Worker) :
    Counted tracker config (evaluateWorker config found worker) := by
  unfold GossipTracker.evaluateWorker
  cases worker.nodeId with
  | none => exact counted
  | some nodeId =>
    change Counted tracker config (if found.2.failNodes.contains nodeId then found
      else if config.getPrimaryCount / 2 + 1 ≤ found.2.ownVote config nodeId +
        (found.2.voters config nodeId).length then _ else found)
    split_ifs with failed majority
    · exact counted
    · refine { counted with enough := fun other member => ?_ }
      rw [GossipTracker.ownVote, GossipTracker.voters, GossipTracker.reports,
        counted.reports, counted.marks] at majority
      rcases mem_append.mp member with before | new
      · exact counted.enough other before
      · exact mem_singleton.mp new ▸ majority
    · exact counted

theorem counted_evaluateFailStatus (tracker : GossipTracker) (config : ClusterConfig) :
    Counted tracker config (tracker.evaluateFailStatus config) :=
  List.foldlRecOn _ _ ⟨rfl, rfl, fun _ member => absurd member not_mem_nil⟩
    fun _ counted worker _ => counted.evaluateWorker worker

namespace ClusterManager

variable {manager : ClusterManager}

theorem apply_faithful (distinct : OneSpelling spellings) {operation : Operation}
    (attended : manager.Attended spellings operation)
    (faithful : Faithful spellings own said manager.config manager.gossip) :
    let after := manager.apply operation
    Faithful spellings own (hear said operation) after.config after.gossip := by
  have edited known nodeId change (keeps : ∀ worker, (change worker).identity = worker.identity) :
      (modifyWorker known nodeId change).names = known.names :=
    names_of_identity (modifyWorker_identity _ _ _ keeps)
  cases operation with
  | mergeGossip clock packet =>
    refine (faithful.processPacket distinct attended).names_congr ?_
    unfold ClusterManager.apply tryMergeGossip resolveEpochCollision
    dsimp only
    split_ifs
    · exact names_setLocalEpoch _
    · rfl
  | markNodePfail nodeId => exact faithful.fewer fun _ => List.Sublist.refl _
  | clearNodePfail nodeId =>
    refine (faithful.fewer fun other => ?_).names_congr (edited _ _ _ fun _ => rfl)
    have removed : (manager.clearNodePfail nodeId).gossip.reports other =
        if other = nodeId then (none : Option (List Bytes)).getD []
        else manager.gossip.reports other :=
      reports_update rfl other
    rw [ClusterManager.apply, removed]
    split_ifs
    · exact nil_sublist _
    · exact List.Sublist.refl _
  | evaluateFailStatus =>
    have same := (counted_evaluateFailStatus manager.gossip manager.config).reports
    have kept : Faithful spellings own said manager.config manager.evaluateFailStatus.2.gossip :=
      faithful.fewer fun nodeId => by
        rw [GossipTracker.reports, GossipTracker.reports, ← congrFun same nodeId]
        exact List.Sublist.refl _
    exact List.foldlRecOn (motive := fun known => Faithful spellings own said known _) _ _ kept
      fun _ holds _ _ => holds.names_congr (edited _ _ _ fun _ => rfl)
  | _ => exact attended.elim

theorem run_faithful (distinct : OneSpelling spellings) {operations : List Operation}
    (attended : manager.Throughout (Attended spellings) operations)
    (faithful : Faithful spellings own said manager.config manager.gossip) :
    let after := operations.foldl ClusterManager.apply manager
    Faithful spellings own (operations.foldl hear said) after.config after.gossip := by
  induction operations generalizing manager said with
  | nil => exact faithful
  | cons operation rest ih => exact ih attended.2 (apply_faithful distinct attended.1 faithful)

def IsPrimary (config : ClusterConfig) (nodeId : Bytes) : Prop :=
  ∃ worker ∈ config.workers.drop 2, worker.nodeId = some nodeId ∧ worker.role = .primary

theorem isPrimary_of_role (distinct : OneSpelling spellings)
    (faithful : Faithful spellings own said config tracker) (spelled : voter ∈ spellings)
    (foreign : own ≠ some voter) (role : config.getNodeRoleFromNodeId voter = .primary) :
    IsPrimary config voter := by
  unfold getNodeRoleFromNodeId at role
  dsimp only at role
  split_ifs at role with unknown
  obtain ⟨worker, located, name, named, same⟩ := getWorkerId_found unknown
  generalize config.getWorkerIdFromNodeId voter = index at *
  obtain ⟨index, rfl⟩ := Nat.exists_eq_succ_of_ne_zero unknown
  have listed : config.names[index]? = some (some name) := by
    rw [getElem?_names, located, Option.map_some, named]
  have isVoter : name = voter :=
    distinct name (faithful.spelled name (mem_of_getElem? listed)) voter spelled same
  subst isVoter
  cases index with
  | zero =>
    rw [faithful.first] at listed
    exact absurd (Option.some.inj listed) foreign
  | succ index =>
    rw [located] at role
    refine ⟨worker, mem_of_getElem? (i := index) ?_, named, role⟩
    rw [getElem?_drop, Nat.add_comm]
    exact located

/-- A node is reported as failed only when a majority of the primaries hold it failed, by the local
mark and the last words of distinct others. -/
theorem failed_of_majority (manager : ClusterManager) (manned : 2 ≤ manager.config.workers.length)
    (fresh : ∀ nodeId, manager.gossip.pfailReports nodeId = none) {spellings : Set Bytes}
    (distinct : OneSpelling spellings)
    (spelled : ∀ name, some name ∈ manager.config.names → name ∈ spellings)
    (operations : List Operation) (attended : manager.Throughout (Attended spellings) operations) :
    let state := operations.foldl ClusterManager.apply manager
    ∀ nodeId ∈ state.evaluateFailStatus.1, ∃ voters : List Bytes,
      voters.Pairwise (fun voter other => eqIgnoreAsciiCase voter other = false) ∧
      (∀ voter ∈ voters, IsPrimary state.config voter ∧ state.config.localNodeId ≠ some voter ∧
        Suspects (operations.foldl hear []) voter nodeId) ∧
      state.config.getPrimaryCount / 2 + 1 ≤
        (if state.config.isPrimary && state.gossip.localPfails.contains nodeId then 1 else 0) +
          voters.length := by
  intro state nodeId failed
  have first : manager.config.names[0]? = some manager.config.localNodeId := by
    rw [ClusterConfig.getElem?_names, ClusterConfig.localNodeId, localWorkerId,
      List.getElem?_eq_getElem manned, Option.map_some, Option.bind_some]
  have faithful : Faithful spellings manager.config.localNodeId (operations.foldl hear [])
      state.config state.gossip := by
    refine run_faithful distinct attended ⟨first, spelled, ?_, ?_⟩ <;>
      simp [GossipTracker.reports, fresh]
  have founded voter (member : voter ∈ state.gossip.voters state.config nodeId) :=
    faithful.founded nodeId voter (List.mem_of_mem_filter member)
  have foreign voter (member : voter ∈ state.gossip.voters state.config nodeId) :=
    (not_or.mp (founded voter member).heard).2
  refine ⟨state.gossip.voters state.config nodeId, ?_, fun voter member => ⟨?_, ?_, ?_⟩, ?_⟩
  · refine ((faithful.once nodeId).filter _).imp_of_mem fun first second differ => ?_
    refine Bool.eq_false_iff.mpr fun same => differ ?_
    exact distinct _ (founded _ first).spelled.1 _ (founded _ second).spelled.1 same
  · exact isPrimary_of_role distinct faithful (founded voter member).spelled.1
      (foreign voter member) (of_decide_eq_true (List.mem_filter.mp member).2)
  · rw [faithful.localNodeId]
    exact foreign voter member
  · exact (founded voter member).suspects
  · exact (counted_evaluateFailStatus state.gossip state.config).enough nodeId failed

def ofThree : ClusterManager where
  config := { ClusterConfig.new with
    workers := [.unassigned, primaryOf [97] 1, primaryOf [98] 2, primaryOf [99] 3] }
  gossip := .new

def accusation (senderId : Bytes) (role : NodeRole) : GossipPacket where
  header := { (claimOf 2 []).header with senderId := senderId, senderRole := role }
  sections := [⟨[99], [], 0, .primary, 3, true, false, none, none⟩]

theorem failed_of_majority_ofThree :
    let operations : List Operation :=
      [.markNodePfail [99], .mergeGossip (fun _ => 0) (accusation [98] .primary)]
    (operations.foldl ClusterManager.apply ofThree).evaluateFailStatus.1 = [[99]] ∧
      ∃ voters : List Bytes, 2 ≤ 1 + voters.length ∧
        ∀ voter ∈ voters, Suspects (operations.foldl hear []) voter [99] := by
  intro operations
  have reported : (operations.foldl ClusterManager.apply ofThree).evaluateFailStatus.1 =
      [[99]] := by decide +kernel
  let known : List Bytes := [[97], [98], [99]]
  have distinct : OneSpelling {name | name ∈ known} :=
    (by decide : ∀ name ∈ known, ∀ other ∈ known, eqIgnoreAsciiCase name other = true →
      name = other)
  have named : ∀ name ∈ ofThree.config.names, ∀ id ∈ name, id ∈ known := by decide
  have packet : ∀ name ∈ (accusation [98] .primary).names, name ∈ known := by decide
  obtain ⟨voters, -, suspect, count⟩ := failed_of_majority ofThree (by decide) (fun _ => rfl)
    distinct (fun name member => named _ member name rfl) operations
    ⟨trivial, ⟨by decide, fun name member => ⟨packet name member, rfl⟩⟩, trivial⟩ [99]
    (reported ▸ List.mem_cons_self)
  have primaries : (operations.foldl ClusterManager.apply ofThree).config.getPrimaryCount = 3 := by
    decide +kernel
  rw [primaries] at count
  exact ⟨reported, voters, count.trans (Nat.add_le_add_right (by split_ifs <;> decide) _),
    fun voter member => (suspect voter member).2.2⟩

/-- Packets of a primary and of a replica of its name in capitals count as two votes. -/
theorem spelling_votes_twice :
    let operations : List Operation := [.mergeGossip (fun _ => 0) (accusation [98] .primary),
      .mergeGossip (fun _ => 0) (accusation [66] .replica)]
    let state := operations.foldl ClusterManager.apply ofThree
    state.evaluateFailStatus.1 = [[99]] ∧ state.config.getPrimaryCount / 2 + 1 = 2 ∧
      state.gossip.localPfails = [] ∧
      ((state.config.workers.drop 1).filter fun worker => worker.role = .primary ∧
        ∃ name ∈ worker.nodeId, Suspects (operations.foldl hear []) name [99]).length = 1 := by
  decide +kernel

end ClusterManager

end Wedb.Cluster
