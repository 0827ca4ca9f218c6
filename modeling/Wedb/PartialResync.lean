/-
What a replica receives when its request to continue is granted on the range of the log, while the
bytes are taken from the backlog ring, which is smaller.
-/

import Wedb.Backlog
import Wedb.KeyValueServer
import Wedb.Connection

namespace Wedb.Repl

open ReplicationBacklog

def Stream.segment (stream : Stream) (first last : Nat) : List (Option UInt8) :=
  (List.range (last - first)).map fun steps => stream (first + steps)

namespace Recorded

variable {recorded : Recorded} {offset : Nat}

theorem Faithful.readBacklog_held (faithful : recorded.Faithful)
    (word : recorded.manager.backlog.buf.length < 2 ^ 64)
    (held : recorded.manager.backlog.firstByteOffset ≤ offset) :
    (recorded.manager.readBacklog offset (2 ^ 64 - 1)).map some =
      recorded.stream.segment offset recorded.manager.history.replicationOffset := by
  rw [Stream.segment, ← faithful.offset_eq]
  by_cases range : recorded.manager.backlog.isOffsetInRange offset
  · have bounds := of_decide_eq_true range
    have capacity := faithful.wellFormed.histLen_le
    have length := length_readBytes faithful.wellFormed range (2 ^ 64 - 1)
    rw [firstByteOffset] at bounds
    rw [Nat.min_eq_right (by omega)] at length
    rw [faithful.readBacklog, ReplicationManager.readBacklog, length]
  · have empty : recorded.manager.backlog.masterReplOffset - offset = 0 := by
      rw [isOffsetInRange, decide_eq_true_eq] at range
      rw [firstByteOffset] at held range
      omega
    rw [ReplicationManager.readBacklog, readBytes_out_of_range (Bool.eq_false_iff.mpr range), empty]
    rfl

theorem readBacklog_forgotten
    (forgotten : offset < recorded.manager.backlog.firstByteOffset) (maxBytes : Nat) :
    recorded.manager.readBacklog offset maxBytes = [] :=
  readBytes_out_of_range (decide_eq_false fun inside => Nat.not_le.mpr forgotten inside.2.1)

theorem firstByteOffset_appendStream {manager : ReplicationManager} {data : Bytes} {capacity : Nat}
    (wellFormed : manager.backlog.WellFormed) (origin : manager.backlog.masterReplOffset = 0)
    (sized : manager.backlog.buf.length = capacity) (long : capacity + offset < data.length)
    (word : data.length < 2 ^ 64) :
    offset < (manager.appendStream data).1.backlog.firstByteOffset := by
  have held := (wellFormed.feed data).histLen_le
  rw [wellFormed.feed_length, sized] at held
  show offset < (manager.backlog.feed data).firstByteOffset
  rw [firstByteOffset, feed_masterReplOffset _ (List.ne_nil_of_length_pos (Nat.zero_lt_of_lt long)),
    origin, Nat.zero_add, Nat.mod_eq_of_lt word]
  omega

theorem stream_appended (manager : ReplicationManager) {data : Bytes} {index : Nat}
    (inside : index < data.length) :
    ((start manager).run [.appendStream data]).stream
      (manager.history.replicationOffset + index) = data[index]? := by
  refine (if_pos ⟨Nat.le_add_right _ _, Nat.add_lt_add_left inside _⟩).trans ?_
  exact congrArg (data[·]?) (Nat.add_sub_cancel_left _ _)

theorem Faithful.segment_forgotten (faithful : recorded.Faithful)
    (forgotten : offset < recorded.manager.backlog.firstByteOffset) :
    recorded.stream.segment offset recorded.manager.history.replicationOffset ≠ [] := by
  rw [← faithful.offset_eq, Stream.segment]
  rw [firstByteOffset] at forgotten
  intro empty
  have length := congrArg List.length empty
  rw [List.length_map, List.length_range, List.length_nil] at length
  omega

end Recorded

end Wedb.Repl

namespace Wedb.Server

open Resp Repl

variable {World : Type}

theorem psyncReply_granted {context : ServerContext World} {replid granted : ReplId}
    {offset : Int} {startOffset : Nat}
    (grants : handlePsync context.repl replid.bytes offset context.hlogBegin context.hlogTail =
      .ok (.partialResync granted startOffset)) :
    psyncReply context replid offset = bytesOf "+CONTINUE " ++ granted.bytes ++ crlf ++
      context.repl.readBacklog startOffset (2 ^ 64 - 1) := by
  rw [psyncReply, grants]
  exact List.append_assoc _ _ _

/-- After a run in step, a granted request is answered with the whole stream from the offset on
exactly when the ring holds that offset. -/
theorem continue_sends_stream_iff (context : ServerContext World) (capacity : Nat)
    (word : capacity < 2 ^ 64) (role : NodeRole) (history : ReplicationHistory)
    (operations : List Operation)
    (aligned : AlignedRun (.withBacklog capacity role history) operations)
    (ran : context.repl =
      ((Recorded.start (.withBacklog capacity role history)).run operations).manager)
    (replid : ReplId) (offset : Int) (granted : ReplId) (startOffset : Nat)
    (grants : handlePsync context.repl replid.bytes offset context.hlogBegin context.hlogTail =
      .ok (.partialResync granted startOffset)) :
    (∃ sent, psyncReply context replid offset =
        bytesOf "+CONTINUE " ++ granted.bytes ++ crlf ++ sent ∧
      sent.map some =
        ((Recorded.start (.withBacklog capacity role history)).run operations).stream.segment
          startOffset context.repl.history.replicationOffset) ↔
      context.repl.backlog.firstByteOffset ≤ startOffset := by
  have faithful := (Recorded.faithful_start capacity role history).run operations aligned
  have size := (Recorded.faithful_start capacity role history).run_capacity operations aligned
  have bounded : ((Recorded.start (.withBacklog capacity role history)).run
      operations).manager.backlog.buf.length < 2 ^ 64 := by
    rw [size]
    show (List.replicate (max capacity 1024) (0 : UInt8)).length < 2 ^ 64
    rw [List.length_replicate]
    omega
  rw [psyncReply_granted grants, ran]
  constructor
  · rintro ⟨sent, reply, exact⟩
    refine Nat.le_of_not_lt fun forgotten => faithful.segment_forgotten forgotten ?_
    rw [Recorded.readBacklog_forgotten forgotten] at reply
    rw [← exact, ← List.append_cancel_left reply]
    rfl
  · intro held
    exact ⟨_, rfl, faithful.readBacklog_held bounded held⟩

def replicating (manager : ReplicationManager) (hlogTail : Nat) : ServerContext Unit :=
  { KeyValueServer.context false [] fun _ => .empty with repl := manager, hlogTail }

theorem continue_sends_two_bytes :
    let after := (Recorded.start (.withBacklog 0 .primary (.new .empty 0))).run
      [.appendStream (.replicate 64 96), .appendStream [97, 98]]
    let context := replicating after.manager 100
    (∃ sent, psyncReply context .empty 64 =
        bytesOf "+CONTINUE " ++ ReplId.empty.bytes ++ crlf ++ sent ∧
      sent.map some = after.stream.segment 64 context.repl.history.replicationOffset) ∧
    context.repl.history.replicationOffset = 66 :=
  ⟨(continue_sends_stream_iff (replicating ((Recorded.start (.withBacklog 0 .primary
    (.new .empty 0))).run [.appendStream (.replicate 64 96), .appendStream [97, 98]]).manager 100)
    0 (by decide) .primary (.new .empty 0) [.appendStream (.replicate 64 96),
    .appendStream [97, 98]] (by decide +kernel) rfl .empty 64 .empty 64 rfl).mpr
    (by decide +kernel), by decide +kernel⟩

/-- The log begins at 64. After one byte more than the ring holds from there on, a replica at the
beginning of the log is sent nothing. -/
theorem continue_skips_evicted_bytes :
    let data : Bytes := .replicate (65 + ReplicationManager.defaultBacklogSize) 97
    let after := (Recorded.start (.withHistory .primary (.new .empty 0))).run [.appendStream data]
    let context := replicating after.manager (2 ^ 21)
    handlePsync context.repl ReplId.empty.bytes 64 context.hlogBegin context.hlogTail =
        .ok (.partialResync .empty 64) ∧
      psyncReply context .empty 64 = bytesOf "+CONTINUE " ++ ReplId.empty.bytes ++ crlf ∧
      after.stream 64 = some 97 := by
  intro data after context
  have grants : handlePsync context.repl ReplId.empty.bytes 64 context.hlogBegin
      context.hlogTail = .ok (.partialResync .empty 64) := rfl
  have length : data.length = 65 + ReplicationManager.defaultBacklogSize := List.length_replicate
  have forgotten : 64 < after.manager.backlog.firstByteOffset := by
    refine Recorded.firstByteOffset_appendStream
      ((ReplicationBacklog.wellFormed_new _).setMasterOffset 0) rfl List.length_replicate ?_ ?_ <;>
    · rw [length]
      decide
  have reply := psyncReply_granted grants
  rw [show context.repl.readBacklog 64 (2 ^ 64 - 1) = [] from
    Recorded.readBacklog_forgotten forgotten _, List.append_nil] at reply
  have inside : 64 < data.length := by rw [length]; decide
  refine ⟨grants, reply, ?_⟩
  exact (Recorded.stream_appended (.withHistory .primary (.new .empty 0)) inside).trans
    (List.getElem?_replicate_of_lt (Nat.lt_add_right _ (by decide)))

end Wedb.Server
