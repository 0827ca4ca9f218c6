/-
The synchronous fast path of the key-value commands against the asynchronous dispatcher. They agree
except where a fast path takes an expired key for a live one: GET looks at the time to live only
while it is in memory, the bit commands, STRLEN, INCR and DECR not at all.
-/

import Wedb.KvDispatch

namespace Wedb.Server

open Kv Object Redis Resp Fallible

section

variable {session : StoreSession} {context : DecodeContext}

theorem logicalStore_upsert_purge (now : Nat) (store : Store) (key value : Bytes)
    (absent : (store key).liveCollection = none)
    (gone : (session.purge now store key key).liveCollection = none) :
    logicalStore now (session.upsert (session.purge now store key) key value) =
      logicalStore now (session.upsert store key value) := by
  funext other
  by_cases same : other = key
  · rw [same, logicalStore_upsert_self, logicalStore_upsert_self, absent, gone]
  · rw [logicalStore_upsert_other _ _ _ _ _ _ same, logicalStore_upsert_other _ _ _ _ _ _ same,
      logicalStore_purge]

variable (context) in
def residentString (slot : Slot) : Option Bytes :=
  match slot.data with
  | some record =>
    if record.region.resident && !looksLikeObject context record.value then some record.value
    else none
  | none => none

def mutableBytes (slot : Slot) : Option Bytes :=
  match slot.data with
  | some ⟨bytes, .mutable⟩ => some bytes
  | _ => none

variable {slot : Slot} {bytes key edited token : Bytes}

theorem data_of_mutableBytes (found : mutableBytes slot = some bytes) :
    slot.data = some ⟨bytes, .mutable⟩ := by
  unfold mutableBytes at found
  split at found
  · rename_i present
    rw [present, Option.some.inj found]
  · cases found

def ColdExpired (now : Nat) (slot : Slot) : Prop :=
  ∃ record, slot.ttl = some record ∧ record.region.resident = false ∧ record.value ≤ now

theorem ColdExpired.expired {now : Nat} (cold : ColdExpired now slot) : slot.expired now := by
  obtain ⟨record, found, -, past⟩ := cold
  simp [Slot.expired, found, past]

theorem stringView_residentString
    (live : slot.expired context.now = false) (found : residentString context slot = some bytes) :
    stringView context slot = .ok (some bytes) := by
  unfold residentString at found
  split at found
  · rename_i record data
    split at found
    · rename_i plain
      rw [Bool.and_eq_true, Bool.not_eq_true'] at plain
      have value : slot.bytes = some bytes := by rw [Slot.bytes, data, ← found]; rfl
      rw [← Option.some.inj found] at value ⊢
      simp only [stringView, live, value, plain.2, Bool.false_eq_true, if_false]
    · cases found
  · cases found

section

variable (store : Store) (key : Bytes)

theorem tryReadStringInMemory_cases : (∃ bytes, residentString context (store key) = some bytes ∧
      tryReadStringInMemory session context store key = .ok (some (some bytes))) ∨
    (residentString context (store key) = none ∧
      (tryReadStringInMemory session context store key = .ok none ∨
        tryReadStringInMemory session context store key = .error .wrongType)) := by
  unfold tryReadStringInMemory residentString
  cases found : (store key).data with
  | none =>
    cases probe : session.probeData store key with
    | hit value => exact absurd probe (session.probeData_none store key value found)
    | unknown => exact .inr ⟨rfl, .inl rfl⟩
    | absent => exact .inr ⟨rfl, .inl rfl⟩
  | some record =>
    cases resident : record.region.resident with
    | false =>
      rw [session.probeData_cold store key record found resident]
      exact .inr ⟨if_neg (by rw [resident]; exact Bool.false_ne_true), .inl rfl⟩
    | true =>
      rw [session.probeData_resident store key record found resident]
      dsimp only
      rw [resident]
      cases looksLikeObject context record.value with
      | false => exact .inl ⟨record.value, rfl, rfl⟩
      | true => exact .inr ⟨rfl, .inr rfl⟩

theorem fastRead_eq (present : Bytes → Bytes) (absent : Bytes) :
    fastRead session context store key present absent =
      match residentString context (store key) with
      | some bytes => ⟨true, present bytes, store⟩
      | none => .needsAsync store := by
  unfold fastRead
  rcases tryReadStringInMemory_cases store key with ⟨bytes, found, read⟩ | ⟨none, read | read⟩
  · rw [read, found]
  · rw [read, none]
  · rw [read, none]

theorem fastEdit_eq (edit : Bytes → Option Bytes)
    (answer : Bytes → Bytes) : fastEdit session store key edit answer =
      match mutableBytes (store key) with
      | none => .needsAsync store
      | some bytes =>
        match edit bytes with
        | none => .needsAsync store
        | some edited => ⟨true, answer bytes, Function.update store key
            { store key with data := some ⟨edited, .mutable⟩ }⟩ := by
  unfold fastEdit
  cases found : mutableBytes (store key) with
  | some bytes =>
    rw [session.tryModifyInPlace_mutable store key edit bytes (data_of_mutableBytes found)]
    dsimp only
    cases edit bytes <;> rfl
  | none =>
    have outside : ∀ bytes, (store key).data ≠ some ⟨bytes, .mutable⟩ := by
      intro bytes data
      rw [mutableBytes, data] at found
      cases found
    rw [session.tryModifyInPlace_skipped store key edit outside]

theorem syncTtlExpired_eq_false_iff : syncTtlExpired session context store key = some false ↔
      ((store key).expired context.now = false ∨ ColdExpired context.now (store key)) := by
  unfold syncTtlExpired
  cases found : (store key).ttl with
  | none =>
    have live : (store key).expired context.now = false := Slot.expired_of_ttl_none found _
    cases probe : session.probeTtl store key with
    | hit value => exact absurd probe (session.probeTtl_none store key value found)
    | unknown => simp [live]
    | absent => simp [live]
  | some record =>
    have expired : (store key).expired context.now = decide (record.value ≤ context.now) := by
      simp [Slot.expired, found]
    cases resident : record.region.resident with
    | false =>
      rw [session.probeTtl_cold store key record found resident, expired]
      by_cases past : record.value ≤ context.now
      · simp only [true_iff]
        exact .inr ⟨record, found, resident, past⟩
      · simp [past]
    | true =>
      rw [session.probeTtl_resident store key record found resident, expired]
      have warm : ¬ColdExpired context.now (store key) := by
        rintro ⟨other, same, cold, -⟩
        rw [found] at same
        rw [← Option.some.inj same, resident] at cold
        cases cold
      simp [warm]

/-- What a fast path owes the dispatcher: nothing happened, or the same reply and visible store. -/
def Agree (now : Nat) (store : Store) (fast : FastOutcome) (slow : Bytes × Store) : Prop :=
  if fast.handled then
    fast.reply = slow.1 ∧ logicalStore now fast.store = logicalStore now slow.2
  else fast.reply = [] ∧ fast.store = store

theorem agree_needsAsync (now : Nat) (slow : Bytes × Store) :
    Agree now store (.needsAsync store) slow := ⟨rfl, rfl⟩

variable (session context) in
theorem agree_fastRead_iff (answer : Option Bytes → Bytes) : Agree context.now store
        (fastRead session context store key (fun bytes => answer (some bytes)) (answer none))
        (replyOf ((answer <$> readString session context key).run store)) ↔
      ¬((store key).expired context.now ∧ ∃ bytes, residentString context (store key) = some bytes ∧
          answer (some bytes) ≠ answer none) := by
  rw [fastRead_eq, map_run, readString_run]
  cases found : residentString context (store key) with
  | none =>
    refine iff_of_true (agree_needsAsync _ _ _) ?_
    rintro ⟨-, bytes, impossible, -⟩
    cases impossible
  | some bytes =>
    cases expired : (store key).expired context.now with
    | false =>
      rw [stringView_residentString expired found, session.purge_of_live expired]
      simp [Agree, replyOf, Except.map]
    | true =>
      have view : stringView context (store key) = .ok none := by simp [stringView, expired]
      rw [view]
      simp only [Agree, replyOf, Except.map, if_true, logicalStore_purge, and_true, true_and,
        Option.some.injEq, exists_eq_left', ne_eq, not_not]

variable (session context) in
theorem agree_fastEdit_iff (edit : Bytes → Option Bytes)
    (answer : Bytes → Bytes) (slow : Bytes × Store)
    (onLive : (store key).expired context.now = false → ∀ bytes edited,
      mutableBytes (store key) = some bytes → edit bytes = some edited →
        slow = (answer bytes, Function.update store key
          { store key with data := some ⟨edited, .mutable⟩ }))
    (onExpired : (store key).expired context.now → ∃ base value,
      slow.2 = session.upsert base key value) :
    Agree context.now store (fastEdit session store key edit answer) slow ↔
      ¬((store key).expired context.now ∧
        ∃ bytes, mutableBytes (store key) = some bytes ∧ (edit bytes).isSome) := by
  rw [fastEdit_eq]
  cases found : mutableBytes (store key) with
  | none =>
    refine iff_of_true (agree_needsAsync _ _ _) ?_
    rintro ⟨-, bytes, impossible, -⟩
    cases impossible
  | some bytes =>
    dsimp only
    cases written : edit bytes with
    | none =>
      refine iff_of_true (agree_needsAsync _ _ _) ?_
      rintro ⟨-, other, same, accepted⟩
      rw [← Option.some.inj same, written] at accepted
      cases accepted
    | some edited =>
      cases expired : (store key).expired context.now with
      | false =>
        rw [onLive expired bytes edited found written]
        simp [Agree]
      | true =>
        obtain ⟨base, value, after⟩ := onExpired expired
        refine iff_of_false ?_ (not_not.mpr ⟨rfl, bytes, rfl, by rw [written]; rfl⟩)
        rintro ⟨-, same⟩
        have lost := congrFun same key
        rw [after, logicalStore_upsert_self, logicalStore_expired] at lost
        · cases lost
        · dsimp only
          rw [Function.update_self]
          exact expired

end

variable {store : Store} {increment : Int}

theorem incrby_inPlace (live : (store key).expired context.now = false)
    (found : mutableBytes (store key) = some bytes)
    (written : incrementEdit increment bytes = some edited) :
    replyOf ((writeInteger <$> incrby session context key increment).run store) =
      (incrementReply increment bytes, Function.update store key
        { store key with data := some ⟨edited, .mutable⟩ }) := by
  obtain ⟨new, sum, -⟩ := Option.bind_eq_some_iff.mp written
  have expired := expiredByTag_run session context store key
  rw [live, session.purge_of_live live] at expired
  have inPlace := session.tryModifyInPlace_mutable store key (incrementEdit increment) bytes
    (data_of_mutableBytes found)
  rw [written] at inPlace
  rw [map_run, incrby, bind_ok expired]
  simp only [Bool.false_eq_true, if_false]
  rw [bind_ok (total_ok inPlace)]
  simp only [sum, pure_run, incrementReply]
  rfl

theorem incrby_expired (expired : (store key).expired context.now) :
    (incrby session context key increment).run store =
      (.ok increment, session.upsert (session.purge context.now store key) key
        (formatInt increment)) := by
  have tagged := expiredByTag_run session context store key
  rw [expired] at tagged
  rw [incrby, bind_ok tagged]
  rfl

variable {bit : Bool}

theorem setbit_inPlace {offset : Nat} (live : (store key).expired context.now = false)
    (found : mutableBytes (store key) = some bytes)
    (written : bitEdit offset bit bytes = some edited) :
    (setbit session context key offset bit).run store =
      (.ok (bitAt offset bytes), Function.update store key
        { store key with data := some ⟨edited, .mutable⟩ }) := by
  have expired := expiredByTag_run session context store key
  rw [live, session.purge_of_live live] at expired
  have inPlace := session.tryModifyInPlace_mutable store key (bitEdit offset bit) bytes
    (data_of_mutableBytes found)
  rw [written] at inPlace
  rw [setbit, bind_ok expired]
  simp only [Bool.false_eq_true, if_false]
  rw [bind_ok (total_ok inPlace)]
  rfl

theorem setbit_expired {offset : Nat} (expired : (store key).expired context.now) :
    (setbit session context key offset bit).run store =
      (.ok (bitAt offset (List.replicate (offset / 8 + 1) 0)),
        session.upsert (session.purge context.now store key) key
          (writeBit offset bit (List.replicate (offset / 8 + 1) 0))) := by
  have tagged := expiredByTag_run session context store key
  rw [expired] at tagged
  have absent := readString_run session context (session.purge context.now store key) key
  have view : stringView context (session.purge context.now store key key) = .ok none := by
    rw [session.purge_of_expired expired]
    have vacant := session.vacate_self store key
    simp [stringView, vacant.expired, vacant.bytes, vacant.collection]
  rw [view, session.purge_purge] at absent
  rw [setbit, bind_ok tagged, if_pos rfl, setbitSlow, bind_ok absent]
  rfl

theorem readBitParsed_of_readBitExact
    (exact : readBitExact token = some bit) : readBitParsed token = some bit := by
  unfold readBitExact at exact
  split_ifs at exact with zero one
  · rw [zero, ← exact]
    decide
  · rw [one, ← exact]
    decide

section

variable (store : Store) (key : Bytes)

theorem agree_get_iff : Agree context.now store (fastKv session context .get [key] store)
        (replyOf ((executeKv session context .get [key]).run store)) ↔
      ¬(ColdExpired context.now (store key) ∧ (residentString context (store key)).isSome) := by
  have read := agree_fastRead_iff session context store key bulkOrNull
  simp only [fastKv, executeKv]
  by_cases answered : syncTtlExpired session context store key = some false
  · rw [if_pos answered]
    refine read.trans (not_congr ?_)
    constructor
    · rintro ⟨expired, bytes, found, -⟩
      rcases (syncTtlExpired_eq_false_iff store key).mp answered with live | cold
      · rw [live] at expired
        cases expired
      · exact ⟨cold, by rw [found]; rfl⟩
    · rintro ⟨cold, found⟩
      obtain ⟨bytes, found⟩ := Option.isSome_iff_exists.mp found
      exact ⟨cold.expired, bytes, found, writeBulkString_ne_writeNull bytes⟩
  · rw [if_neg answered]
    refine iff_of_true (agree_needsAsync _ _ _) ?_
    rintro ⟨cold, -⟩
    exact answered ((syncTtlExpired_eq_false_iff store key).mpr (.inr cold))

theorem agree_strlen_iff : Agree context.now store (fastKv session context .strlen [key] store)
        (replyOf ((executeKv session context .strlen [key]).run store)) ↔
      ¬((store key).expired context.now ∧
        ∃ bytes, residentString context (store key) = some bytes ∧ bytes ≠ []) := by
  have slow : executeKv session context .strlen [key] =
      (fun found => writeInteger ((found.map List.length).getD 0 : Nat)) <$>
        readString session context key := by
    simp only [executeKv, strlen, bind_pure_comp, Functor.map_map]
  rw [slow]
  refine (agree_fastRead_iff session context store key
    fun found => writeInteger ((found.map List.length).getD 0 : Nat)).trans ?_
  refine not_congr (and_congr_right fun _ => exists_congr fun bytes => and_congr_right fun _ => ?_)
  constructor
  · rintro differ rfl
    exact differ rfl
  · intro nonempty same
    exact nonempty (List.length_eq_zero_iff.mp (writeInteger_natCast_injective same))

theorem agree_getbit_iff (key token : Bytes) :
    Agree context.now store (fastKv session context .getbit [key, token] store)
        (replyOf ((executeKv session context .getbit [key, token]).run store)) ↔
      ¬∃ offset, readBitOffset token = some offset ∧ (store key).expired context.now ∧
        ∃ bytes, residentString context (store key) = some bytes ∧ bitAt offset bytes ≠ 0 := by
  simp only [fastKv, executeKv]
  cases parsed : readBitOffset token with
  | none => simp [Agree, replyOf]
  | some offset =>
    have slow : (fun bit : Nat => writeInteger bit) <$> getbit session context key offset =
        (fun found => writeInteger ((found.map (bitAt offset)).getD 0 : Nat)) <$>
          readString session context key := by
      simp only [getbit, bind_pure_comp, Functor.map_map]
    dsimp only
    rw [slow]
    refine (agree_fastRead_iff session context store key
      fun found => writeInteger ((found.map (bitAt offset)).getD 0 : Nat)).trans (not_congr ?_)
    simp only [Option.some.injEq, exists_eq_left']
    refine and_congr_right fun _ => exists_congr fun bytes => and_congr_right fun _ => ?_
    refine not_congr ⟨fun same => writeInteger_natCast_injective same, fun zero => ?_⟩
    simp only [Option.map_some, Option.getD_some, zero]
    rfl

theorem agree_increment_iff (increment : Int) : Agree context.now store
        (fastEdit session store key (incrementEdit increment) (incrementReply increment))
        (replyOf ((writeInteger <$> incrby session context key increment).run store)) ↔
      ¬((store key).expired context.now ∧ ∃ bytes,
        mutableBytes (store key) = some bytes ∧ (incrementEdit increment bytes).isSome) := by
  refine agree_fastEdit_iff session context store key _ _ _ ?_ ?_
  · intro live bytes edited found written
    exact incrby_inPlace live found written
  · intro expired
    refine ⟨session.purge context.now store key, formatInt increment, ?_⟩
    rw [map_run, incrby_expired expired]
    rfl

theorem setbit_reply_ne (offset : Nat) (bit : Bool) :
    writeError bitNotInteger ≠ (replyOf (((fun old : Nat => writeInteger old) <$>
      setbit session context key offset bit).run store)).1 := by
  rw [map_run]
  rcases (setbit session context key offset bit).run store with ⟨error | old, after⟩
  · show writeError bitNotInteger ≠ writeError (errorText error)
    cases error <;> decide
  · exact (writeInteger_ne_writeError _ _).symm

theorem agree_setbit_iff (key token bitToken : Bytes) :
    Agree context.now store (fastKv session context .setbit [key, token, bitToken] store)
        (replyOf ((executeKv session context .setbit [key, token, bitToken]).run store)) ↔
      ¬∃ offset, readBitOffset token = some offset ∧
        if (readBitExact bitToken).isSome then
          (store key).expired context.now ∧
            ∃ bytes, mutableBytes (store key) = some bytes ∧ offset / 8 < bytes.length
        else (readBitParsed bitToken).isSome := by
  simp only [fastKv, executeKv]
  cases parsed : readBitOffset token with
  | none => simp [Agree, replyOf]
  | some offset =>
    simp only [Option.some.injEq, exists_eq_left']
    cases exactly : readBitExact bitToken with
    | none =>
      cases loosely : readBitParsed bitToken with
      | none => simp [Agree, replyOf]
      | some bit =>
        refine iff_of_false ?_ (by simp)
        rintro ⟨same, -⟩
        exact setbit_reply_ne store key offset bit same
    | some bit =>
      rw [readBitParsed_of_readBitExact exactly]
      have accepted : ∀ bytes : Bytes, (bitEdit offset bit bytes).isSome ↔
          offset / 8 < bytes.length := by
        intro bytes
        by_cases inside : offset / 8 < bytes.length <;> simp [bitEdit, inside]
      simp only [Option.isSome_some, if_true, ← accepted]
      refine agree_fastEdit_iff session context store key _ _ _ ?_ ?_
      · intro live bytes edited found written
        rw [map_run, setbit_inPlace live found written]
        rfl
      · intro expired
        refine ⟨session.purge context.now store key,
          writeBit offset bit (List.replicate (offset / 8 + 1) 0), ?_⟩
        rw [map_run, setbit_expired expired]
        rfl

theorem agree_set (key value : Bytes) :
    Agree context.now store (fastKv session context .set [key, value] store)
      (replyOf ((executeKv session context .set [key, value]).run store)) := by
  simp only [fastKv]
  split
  · rename_i answered
    have absent := session.checkObjectMetaFast_false store key answered
    have gone : (session.purge context.now store key key).liveCollection = none := by
      rcases purge_slot_cases session context store key with ⟨-, same⟩ | ⟨-, vacant⟩
      · rw [same]
        exact absent
      · exact vacant.collection
    cases written : session.tryUpsertSync store key value with
    | none => exact agree_needsAsync _ _ _
    | some after =>
      show Agree _ _ _ (replyOf ((executeSet session context key value {}).run store))
      rw [executeSet_plain value gone, session.tryUpsertSync_eq store key value after written]
      exact ⟨rfl, (logicalStore_upsert_purge context.now store key value absent gone).symm⟩
  · exact agree_needsAsync _ _ _

theorem agree_del : Agree context.now store (fastKv session context .del [key] store)
      (replyOf ((executeKv session context .del [key]).run store)) := by
  simp only [fastKv]
  cases deleted : session.tryDeleteSync context.now store key with
  | none => exact agree_needsAsync _ _ _
  | some result =>
    obtain ⟨existed, after⟩ := result
    have same := (session.tryDeleteSync_eq context.now store key _ deleted).symm
    have slow : (deleteAll session context [key]).run store =
        (.ok ((if existed then 1 else 0) + 0), after) := by
      rw [deleteAll, bind_ok (total_ok same)]
      rfl
    show Agree _ _ _ (replyOf ((_ <$> deleteAll session context [key]).run store))
    rw [map_run, slow]
    refine ⟨?_, rfl⟩
    cases existed <;> rfl

end

variable (context) in
/-- The states and arguments on which a fast path differs from the dispatcher. -/
def Diverges (command : KvCommand) (args : List Bytes) (store : Store) : Prop :=
  match command, args with
  | .get, [key] => ColdExpired context.now (store key) ∧ (residentString context (store key)).isSome
  | .strlen, [key] => (store key).expired context.now = true ∧
      ∃ bytes, residentString context (store key) = some bytes ∧ bytes ≠ []
  | .getbit, [key, token] => ∃ offset, readBitOffset token = some offset ∧
      (store key).expired context.now = true ∧
        ∃ bytes, residentString context (store key) = some bytes ∧ bitAt offset bytes ≠ 0
  | .incr, [key] => (store key).expired context.now = true ∧
      ∃ bytes, mutableBytes (store key) = some bytes ∧ (incrementEdit 1 bytes).isSome
  | .decr, [key] => (store key).expired context.now = true ∧
      ∃ bytes, mutableBytes (store key) = some bytes ∧ (incrementEdit (-1) bytes).isSome
  | .setbit, [key, token, bitToken] => ∃ offset, readBitOffset token = some offset ∧
      if (readBitExact bitToken).isSome then
        (store key).expired context.now = true ∧
          ∃ bytes, mutableBytes (store key) = some bytes ∧ offset / 8 < bytes.length
      else (readBitParsed bitToken).isSome
  | _, _ => False

/-- Past the gates the two paths agree exactly where no fast path diverges. -/
theorem agree_fastKv_iff (command : KvCommand) (args : List Bytes) (store : Store) :
    Agree context.now store (fastKv session context command args store)
        (replyOf ((executeKv session context command args).run store)) ↔
      ¬Diverges context command args store := by
  have handedOver : ∀ slow, Agree context.now store (.needsAsync store) slow ↔ ¬False :=
    fun slow => iff_of_true (agree_needsAsync _ _ _) not_false
  cases command with
  | get =>
    rcases args with _ | ⟨key, _ | ⟨second, rest⟩⟩
    · exact handedOver _
    · exact agree_get_iff store key
    · exact handedOver _
  | set =>
    rcases args with _ | ⟨key, _ | ⟨value, _ | ⟨third, rest⟩⟩⟩
    · exact handedOver _
    · exact handedOver _
    · exact iff_of_true (agree_set store key value) not_false
    · exact handedOver _
  | del =>
    rcases args with _ | ⟨key, _ | ⟨second, rest⟩⟩
    · exact iff_of_true ⟨rfl, rfl⟩ not_false
    · exact iff_of_true (agree_del store key) not_false
    · exact handedOver _
  | incr =>
    rcases args with _ | ⟨key, _ | ⟨second, rest⟩⟩
    · exact handedOver _
    · exact agree_increment_iff store key 1
    · exact handedOver _
  | decr =>
    rcases args with _ | ⟨key, _ | ⟨second, rest⟩⟩
    · exact handedOver _
    · exact agree_increment_iff store key (-1)
    · exact handedOver _
  | setbit =>
    rcases args with _ | ⟨key, _ | ⟨token, _ | ⟨bitToken, _ | ⟨fourth, rest⟩⟩⟩⟩
    · exact handedOver _
    · exact handedOver _
    · exact handedOver _
    · exact agree_setbit_iff store key token bitToken
    · exact handedOver _
  | getbit =>
    rcases args with _ | ⟨key, _ | ⟨token, _ | ⟨third, rest⟩⟩⟩
    · exact handedOver _
    · exact handedOver _
    · exact agree_getbit_iff store key token
    · exact handedOver _
  | strlen =>
    rcases args with _ | ⟨key, _ | ⟨second, rest⟩⟩
    · exact handedOver _
    · exact agree_strlen_iff store key
    · exact handedOver _

/-- The synchronous dispatcher hands over without a trace or does what the asynchronous one does,
exactly when a gate refuses or the fast path does not diverge. -/
theorem tryDispatchSync_agrees_iff (session : StoreSession) (context : DecodeContext)
    (permission : Permission) (command : KvCommand) (args : List Bytes) (store : Store) :
    Agree context.now store (tryDispatchSync session context permission command args store)
        (dispatch session context permission command args store) ↔
      (gateError permission command.respCommand args).isSome ∨
        ¬Diverges context command args store := by
  unfold tryDispatchSync dispatch
  cases refused : gateError permission command.respCommand args with
  | some text => simp [Agree]
  | none =>
    rw [agree_fastKv_iff]
    simp

/-- A key that expired a millisecond ago still answers STRLEN on the fast path. -/
theorem strlen_expired_disagrees :
    let store := singleton (bytesOf "k") ⟨some ⟨bytesOf "abc", .mutable⟩, some ⟨9, .mutable⟩, none⟩
    (tryDispatchSync .reference ⟨10, fun _ => false⟩ ⟨true, true⟩ .strlen [bytesOf "k"]
        store).handled = true ∧
      (tryDispatchSync .reference ⟨10, fun _ => false⟩ ⟨true, true⟩ .strlen [bytesOf "k"]
        store).reply = writeInteger 3 ∧
      (dispatch .reference ⟨10, fun _ => false⟩ ⟨true, true⟩ .strlen [bytesOf "k"] store).1 =
        writeInteger 0 :=
  ⟨rfl, rfl, rfl⟩

end

end Wedb.Server
