/-
Are concurrent string commands on one key atomic? They read the key, compute, and write in a
separate operation, unless an increment is made in place. In between another session may write the
key, and its write is lost.
-/

import Mathlib.Algebra.BigOperators.Group.Finset.Basic
import Wedb.Linearization
import Wedb.StringAccess

namespace Wedb.Redis

open Kv Object Resp StringProgram

/-- What the string commands depend on: the visible string, and whether a collection is live. -/
structure KeyView where
  value : Option Bytes
  collection : Bool

def keyView (now : Nat) (slot : Slot) : KeyView :=
  ⟨(slot.contents.visible now).value, (slot.contents.visible now).collection.isSome⟩

variable {slot : Slot}

theorem keyView_live {now : Nat} (live : slot.expired now = false) :
    keyView now slot = ⟨slot.bytes, slot.liveCollection.isSome⟩ := by
  rw [keyView, Contents.visible, Slot.contents_expired, live]
  rfl

theorem keyView_expired {now : Nat} (expired : slot.expired now) :
    keyView now slot = ⟨none, false⟩ := by
  rw [keyView, Contents.visible, Slot.contents_expired, expired]
  rfl

theorem keyView_vacant (vacant : slot.Vacant) (now : Nat) : keyView now slot = ⟨none, false⟩ := by
  rw [keyView_live (vacant.expired now), vacant.bytes, vacant.collection]
  rfl

section

variable (session : StoreSession) (now : Nat) (store : Store) (key : Bytes)

theorem keyView_purge :
    keyView now (session.purge now store key key) = keyView now (store key) := by
  have same := congrFun (logicalStore_purge session now store key) key
  unfold logicalStore at same
  rw [keyView, same]
  rfl

theorem read_fst : (session.read now store key).1 = (keyView now (store key)).value := by
  rw [session.read_eq]
  cases expired : (store key).expired now with
  | true => rw [keyView_expired expired]; rfl
  | false => rw [keyView_live expired]; rfl

theorem loadMeta_fst : ((session.loadMeta now store key).1.any fun metadata =>
    decide (0 < metadata.size)) = (keyView now (store key)).collection := by
  rw [session.loadMeta_eq]
  cases expired : (store key).expired now with
  | true => rw [keyView_expired expired]; rfl
  | false =>
    rw [keyView_live expired, Slot.liveCollection_isSome]
    rfl

theorem loadMeta_snd : (session.loadMeta now store key).2 = session.purge now store key := by
  rw [session.loadMeta_eq, StoreSession.purge]
  split <;> rfl

theorem checkExpired_snd :
    (session.checkExpired now store key).2 = session.purge now store key := by
  rw [session.checkExpired_eq, StoreSession.purge]
  split <;> rfl

theorem checkExpired_fst : (session.checkExpired now store key).1 = (store key).expired now := by
  rw [session.checkExpired_eq]
  cases (store key).expired now <;> rfl

variable {now store key}

theorem keyView_edit (live : (store key).expired now = false) (value : Bytes) :
    keyView now { store key with data := some ⟨value, .mutable⟩ } =
      ⟨some value, (keyView now (store key)).collection⟩ := by
  rw [keyView_live live]
  exact keyView_live live

theorem keyView_upsert (live : (store key).expired now = false) (value : Bytes) :
    keyView now (session.upsert store key value key) =
      ⟨some value, (keyView now (store key)).collection⟩ := by
  rw [session.upsert_self, keyView_live live]
  exact keyView_live (Slot.expired_of_ttl_none rfl now)

end

inductive StringCall
  | incrby (increment : Int64)
  | append (suffix : Bytes)
  | getset (value : Bytes)
  | getdel

inductive StringReply
  | integer (value : Int)
  | length (length : Nat)
  | value (old : Option Bytes)
  deriving DecidableEq

def storedInteger : Option Bytes → Option Int
  | none => some 0
  | some bytes => parseStoredInteger bytes

variable (context : DecodeContext)

def KeyView.string (view : KeyView) : Except CommandError (Option Bytes) :=
  match view.value with
  | some bytes => if looksLikeObject context bytes then .error .wrongType else .ok (some bytes)
  | none => if view.collection then .error .wrongType else .ok none

def StringCall.effect : StringCall → Option Bytes →
    Except CommandError (StringReply × Option Bytes)
  | .incrby increment, old =>
    match (storedInteger old).bind fun number => asInt64 (number + increment.toInt) with
    | some new => .ok (.integer new, some (formatInt new))
    | none => .error .notInteger
  | .append suffix, old =>
    .ok (.length (old.getD [] ++ suffix).length, some (old.getD [] ++ suffix))
  | .getset value, old => .ok (.value old, some value)
  | .getdel, old => .ok (.value old, none)

def KeyView.put (view : KeyView) : Option Bytes → KeyView
  | some value => ⟨some value, view.collection⟩
  | none => ⟨none, false⟩

def StringCall.meaning (call : StringCall) (view : KeyView) :
    Except CommandError StringReply × KeyView :=
  match view.string context with
  | .error error => (.error error, view)
  | .ok old =>
    match call.effect old with
    | .error error => (.error error, view)
    | .ok (reply, new) => (.ok reply, view.put new)

def StringCall.program :
    StringCall → Program StringAccess StringAccess.Answer (Except CommandError StringReply)
  | .incrby increment =>
    (StringProgram.incrby context increment.toInt >>= fun value => pure (.integer value) :
      StringProgram StringReply).run
  | .append suffix =>
    (StringProgram.append context suffix >>= fun length => pure (.length length) :
      StringProgram StringReply).run
  | .getset value =>
    (StringProgram.getset context value >>= fun old => pure (.value old) :
      StringProgram StringReply).run
  | .getdel =>
    (StringProgram.getdel context >>= fun old => pure (.value old) : StringProgram StringReply).run

variable {view : KeyView}

/-- What a call knows: that the key is not expired, and what it last saw. -/
structure StringNote where
  live : Bool
  looked : Option KeyView

/-- What stays of an earlier look: no collection appears, and one without a string stays. -/
structure Lasting (view current : KeyView) : Prop where
  plain : view.collection = false → current.collection = false
  typed : view = ⟨none, true⟩ → current = ⟨none, true⟩

theorem Lasting.refl (view : KeyView) : Lasting view view := ⟨id, id⟩

theorem Lasting.trans {first second third : KeyView} (earlier : Lasting first second)
    (later : Lasting second third) : Lasting first third :=
  ⟨later.plain ∘ earlier.plain, later.typed ∘ earlier.typed⟩

theorem lasting_put (string : view ≠ ⟨none, true⟩) (value : Option Bytes) :
    Lasting view (view.put value) := by
  refine ⟨fun plain => ?_, fun typed => absurd typed string⟩
  cases value with
  | some value => exact plain
  | none => rfl

/-- How the calls take notes. A write relies on the last look. -/
def stringDiscipline (session : StoreSession) (now : Nat) (key : Bytes) :
    Discipline StringAccess Store StringNote KeyView where
  seen store := keyView now (store key)
  blank := ⟨false, none⟩
  write op store note :=
    match op with
    | .hasTtlTag => { note with live := note.live || !session.hasTtlTag store key }
    | .checkExpired | .readWith => ⟨true, some (keyView now (store key))⟩
    | .tryModifyInPlace _ => { note with looked := some (keyView now (store key)) }
    | .tryModifyWithSlack _ | .loadMeta | .upsert _ | .delete => note
  holds note store := (note.live = true → (store key).expired now = false) ∧
    ∀ view, note.looked = some view → Lasting view (keyView now (store key))
  fresh note store := ∀ view, note.looked = some view → keyView now (store key) = view
  relies op store :=
    match op with
    | .upsert _ | .delete => True
    | .tryModifyWithSlack value => (session.tryModifyWithSlack store key value).1 = true
    | _ => False
  guarantee before after := ((before key).expired now = false → (after key).expired now = false) ∧
      Lasting (keyView now (before key)) (keyView now (after key))
  holds_blank _ := ⟨fun live => absurd live Bool.false_ne_true, fun _ looked => nomatch looked⟩
  fresh_blank _ _ looked := nomatch looked
  holds_of_guarantee _ _ _ guarantee holds := ⟨fun live => guarantee.1 (holds.1 live),
      fun view looked => (holds.2 view looked).trans guarantee.2⟩

section

variable (session : StoreSession) (context : DecodeContext) (key : Bytes) {call : StringCall}

abbrev StringPending (call : StringCall) (program : StringProgram StringReply)
    (note : StringNote) : Prop :=
  Pending (stringDiscipline session context.now key)
    (StringAccess.perform session context.now key) (call.meaning context) program.run note

abbrev StringSettled (result : Except CommandError StringReply)
    (program : StringProgram StringReply) (note : StringNote) : Prop :=
  Settled (stringDiscipline session context.now key)
    (StringAccess.perform session context.now key) result program.run note

/-- A call that goes on from a look: it took effect there, or has still to do so. -/
def Follows (call : StringCall) (view : KeyView) (program : StringProgram StringReply)
    (note : StringNote) : Prop :=
  (∃ result, call.meaning context view = (result, view) ∧
    StringSettled session context key result program note) ∨
  StringPending session context key call program note

variable {session context key}

variable {reply : StringReply} {next : Option Bytes → StringProgram StringReply}

theorem guarantee_purge (store : Store) : (stringDiscipline session context.now key).guarantee
    store (session.purge context.now store key) := by
  refine ⟨fun _ => session.purge_self_live context.now store key, ?_⟩
  rw [keyView_purge]
  exact Lasting.refl _

variable {store : Store}

theorem holds_looked (live : (store key).expired context.now = false)
    (same : keyView context.now (store key) = view) :
    (stringDiscipline session context.now key).holds ⟨true, some view⟩ store := by
  refine ⟨fun _ => live, fun looked found => ?_⟩
  cases found
  rw [same]
  exact Lasting.refl _

variable {value bytes : Bytes}

theorem pending_upsert (string : view ≠ ⟨none, true⟩)
    (means : call.meaning context view = (.ok reply, view.put (some value))) :
    StringPending session context key call
      (StringProgram.access (.upsert value) >>= fun _ => pure reply) ⟨true, some view⟩ := by
  intro store holds fresh
  have live := holds.1 rfl
  have same : keyView context.now (store key) = view := fresh trivial view rfl
  have after :
      keyView context.now (session.upsert store key value key) = view.put (some value) := by
    rw [keyView_upsert session live, same]
    rfl
  have guarantee : (stringDiscipline session context.now key).guarantee store
      (session.upsert store key value) := by
    refine ⟨fun _ => ?_, ?_⟩
    · rw [session.upsert_self]
      exact Slot.expired_of_ttl_none rfl _
    · rw [after, same]
      exact lasting_put string _
  refine ⟨guarantee, (stringDiscipline session context.now key).holds_of_guarantee _ _ _
    guarantee holds, .inl ⟨.ok reply, ?_, rfl⟩⟩
  show call.meaning context (keyView context.now (store key)) =
    (.ok reply, keyView context.now (session.upsert store key value key))
  rw [same, after, means]

theorem pending_delete (string : view ≠ ⟨none, true⟩)
    (means : call.meaning context view = (.ok reply, view.put none)) :
    StringPending session context key call
      (StringProgram.access .delete >>= fun _ => pure reply) ⟨true, some view⟩ := by
  intro store holds fresh
  have same : keyView context.now (store key) = view := fresh trivial view rfl
  have vacant := session.vacate_self store key
  have after : keyView context.now (session.vacate store key key) = view.put none :=
    keyView_vacant vacant _
  have guarantee : (stringDiscipline session context.now key).guarantee store
      (session.vacate store key) := by
    refine ⟨fun _ => vacant.expired _, ?_⟩
    rw [after, same]
    exact lasting_put string _
  have deleted : (StringAccess.perform session context.now key .delete store).2 =
      session.vacate store key := session.delete_eq _ _ _
  rw [deleted]
  refine ⟨guarantee, (stringDiscipline session context.now key).holds_of_guarantee _ _ _
    guarantee holds, .inl ⟨.ok reply, ?_, rfl⟩⟩
  show call.meaning context (keyView context.now (store key)) =
    (.ok reply, keyView context.now (session.vacate store key key))
  rw [same, after, means]

theorem perform_loadMeta
    (holds : (stringDiscipline session context.now key).holds ⟨true, some view⟩ store) :
    StringAccess.perform session context.now key .loadMeta store =
      ((session.loadMeta context.now store key).1, store) := by
  have live : (store key).expired context.now = false := holds.1 rfl
  exact Prod.ext rfl (by
    show (session.loadMeta context.now store key).2 = store
    rw [loadMeta_snd, session.purge_of_live live])

theorem afterMeta_plain (plain : view.collection = false)
    (holds : (stringDiscipline session context.now key).holds ⟨true, some view⟩ store) :
    afterMeta next (session.loadMeta context.now store key).1 = next none := by
  have still := (holds.2 view rfl).plain plain
  rw [← loadMeta_fst session] at still
  rw [afterMeta, still]
  rfl

theorem afterMeta_typed
    (holds : (stringDiscipline session context.now key).holds ⟨true, some ⟨none, true⟩⟩ store) :
    afterMeta next (session.loadMeta context.now store key).1 = throw .wrongType := by
  have still := congrArg KeyView.collection ((holds.2 _ rfl).typed rfl)
  rw [← loadMeta_fst session] at still
  rw [afterMeta, still]
  rfl

theorem settled_typed (next : Option Bytes → StringProgram StringReply) :
    StringSettled session context key (.error .wrongType)
      (StringProgram.access .loadMeta >>= afterMeta next)
      ⟨true, some ⟨none, true⟩⟩ := by
  intro store holds
  rw [perform_loadMeta holds]
  refine ⟨⟨id, Lasting.refl _⟩, rfl, holds, ?_⟩
  show StringSettled session context key _ (afterMeta next _) _
  rw [afterMeta_typed holds]
  rfl

theorem follows_afterMeta (follows : Follows session context key call ⟨none, false⟩ (next none)
      ⟨true, some ⟨none, false⟩⟩) :
    Follows session context key call ⟨none, false⟩
      (StringProgram.access .loadMeta >>= afterMeta next)
      ⟨true, some ⟨none, false⟩⟩ := by
  rcases follows with ⟨result, means, settled⟩ | pending
  · refine .inl ⟨result, means, fun store holds => ?_⟩
    rw [perform_loadMeta holds]
    refine ⟨⟨id, Lasting.refl _⟩, rfl, holds, ?_⟩
    show StringSettled session context key _ (afterMeta next _) _
    rw [afterMeta_plain rfl holds]
    exact settled
  · refine .inr fun store holds _ => ?_
    rw [perform_loadMeta holds]
    refine ⟨⟨id, Lasting.refl _⟩, holds, .inr ⟨rfl, id, ?_⟩⟩
    show StringPending session context key call (afterMeta next _) _
    rw [afterMeta_plain rfl holds]
    exact pending

theorem follows_afterRead (continues : ∀ view old, view.string context = .ok old →
      Follows session context key call view (next old) ⟨true, some view⟩) (view : KeyView) :
    Follows session context key call view (afterRead context next view.value)
      ⟨true, some view⟩ := by
  have fails : ∀ error, view.string context = .error error →
      call.meaning context view = (.error error, view) := by
    intro error string
    rw [StringCall.meaning, string]
  obtain ⟨_ | bytes, collection⟩ := view
  · cases collection with
    | true => exact .inl ⟨_, fails .wrongType rfl, settled_typed next⟩
    | false => exact follows_afterMeta (continues ⟨none, false⟩ none rfl)
  · dsimp only [afterRead]
    by_cases object : looksLikeObject context bytes
    · rw [if_pos object]
      exact .inl ⟨_, fails .wrongType (if_pos object), rfl⟩
    · rw [if_neg object]
      exact continues _ _ (if_neg object)

variable (note : StringNote)

theorem pending_readString (continues : ∀ view old, view.string context = .ok old →
      Follows session context key call view (next old) ⟨true, some view⟩) :
    StringPending session context key call (StringProgram.readString context >>= next) note := by
  rw [readString_bind]
  intro store _ _
  have read : StringAccess.perform session context.now key .readWith store =
      ((keyView context.now (store key)).value, session.purge context.now store key) :=
    Prod.ext (read_fst session _ _ _) (session.read_snd _ _ _)
  have same := keyView_purge session context.now store key
  rw [read]
  refine ⟨guarantee_purge store, holds_looked (session.purge_self_live _ _ _) same, ?_⟩
  rcases follows_afterRead continues (keyView context.now (store key)) with
    ⟨result, means, settled⟩ | pending
  · refine .inl ⟨result, ?_, settled⟩
    show call.meaning context _ = (result, keyView context.now (session.purge _ store key key))
    rw [same]
    exact means
  · refine .inr ⟨same, fun _ looked found => ?_, pending⟩
    cases found
    exact same

variable {old : Option Bytes}

section

variable (string : view.string context = .ok old)

include string

theorem KeyView.string_ok : view.value = old ∧ view ≠ ⟨none, true⟩ := by
  obtain ⟨_ | bytes, collection⟩ := view
  · cases collection with
    | true => cases string
    | false => exact ⟨Except.ok.inj string, fun typed => nomatch typed⟩
  · unfold KeyView.string at string
    dsimp only at string
    split at string
    · cases string
    · exact ⟨Except.ok.inj string, fun typed => nomatch typed⟩

theorem StringCall.meaning_ok {new : Option Bytes} (effect : call.effect old = .ok (reply, new)) :
    call.meaning context view = (.ok reply, view.put new) := by
  rw [StringCall.meaning, string]
  dsimp only
  rw [effect]

theorem StringCall.meaning_error {error : CommandError} (effect : call.effect old = .error error) :
    call.meaning context view = (.error error, view) := by
  rw [StringCall.meaning, string]
  dsimp only
  rw [effect]

theorem follows_upsert {value : Bytes} (effect : call.effect old = .ok (reply, some value)) :
    Follows session context key call view
      (StringProgram.access (.upsert value) >>= fun _ => pure reply) ⟨true, some view⟩ :=
  .inr (pending_upsert (KeyView.string_ok string).2 (StringCall.meaning_ok string effect))

end

theorem pending_append (suffix : Bytes) (note : StringNote) :
    StringPending session context key (.append suffix)
      (StringProgram.append context suffix >>= fun length => pure (.length length)) note := by
  unfold StringProgram.append
  rw [bind_assoc]
  refine pending_readString note fun view old string => ?_
  cases old with
  | none => exact follows_upsert string rfl
  | some bytes => exact follows_upsert string rfl

theorem pending_getset (value : Bytes) (note : StringNote) :
    StringPending session context key (.getset value)
      (StringProgram.getset context value >>= fun old => pure (.value old)) note := by
  unfold StringProgram.getset
  rw [bind_assoc]
  exact pending_readString note fun view old string => follows_upsert string rfl

theorem pending_getdel : StringPending session context key .getdel
    (StringProgram.getdel context >>= fun old => pure (.value old)) note := by
  unfold StringProgram.getdel
  rw [bind_assoc]
  refine pending_readString note fun view old string => ?_
  have means : StringCall.meaning context .getdel view = (.ok (.value old), view.put none) :=
    StringCall.meaning_ok string rfl
  cases old with
  | none =>
    have absent : view.put none = view := by
      obtain ⟨_ | bytes, _ | _⟩ := view
      · rfl
      · exact absurd rfl (KeyView.string_ok string).2
      · exact nomatch (KeyView.string_ok string).1
      · exact nomatch (KeyView.string_ok string).1
    rw [absent] at means
    exact .inl ⟨_, means, rfl⟩
  | some bytes => exact .inr (pending_delete (KeyView.string_ok string).2 means)

variable {increment : Int64} {number new : Int}

theorem effect_incrby (stored : storedInteger old = some number)
    (sum : asInt64 (number + increment.toInt) = some new) :
    (StringCall.incrby increment).effect old = .ok (.integer new, some (formatInt new)) := by
  rw [StringCall.effect, stored, Option.bind_some, sum]

theorem follows_stored_sum (string : view.string context = .ok old)
    (stored : storedInteger old = some number) :
    Follows session context key (.incrby increment) view
      ((match asInt64 (number + increment.toInt) with
        | none => throw .notInteger
        | some new => do
          StringProgram.access (.upsert (formatInt new))
          return new : StringProgram Int) >>= fun value => pure (.integer value))
      ⟨true, some view⟩ := by
  cases sum : asInt64 (number + increment.toInt) with
  | none =>
    refine .inl ⟨_, StringCall.meaning_error string ?_, rfl⟩
    rw [StringCall.effect, stored, Option.bind_some, sum]
  | some new => exact follows_upsert string (effect_incrby stored sum)

theorem pending_incrbySlow : StringPending session context key
    (.incrby increment) (StringProgram.incrbySlow context increment.toInt >>= fun value =>
      pure (.integer value)) note := by
  unfold StringProgram.incrbySlow
  rw [bind_assoc]
  refine pending_readString note fun view old string => ?_
  cases old with
  | none => exact follows_stored_sum string rfl
  | some bytes =>
    cases parsed : parseStoredInteger bytes with
    | none =>
      dsimp only
      rw [parsed]
      refine .inl ⟨_, StringCall.meaning_error string ?_, rfl⟩
      rw [StringCall.effect, storedInteger, parsed, Option.bind_none]
    | some number =>
      dsimp only
      rw [parsed]
      exact follows_stored_sum string parsed

theorem meaning_incremented {collection : Bool}
    (sum : incremented increment.toInt bytes = some new) :
    (StringCall.incrby increment).meaning context ⟨some bytes, collection⟩ =
      (.ok (.integer new), ⟨some (formatInt new), collection⟩) := by
  obtain ⟨number, parsed, sum⟩ := Option.bind_eq_some_iff.mp sum
  have string : KeyView.string context ⟨some bytes, collection⟩ = .ok (some bytes) :=
    if_neg (Bool.eq_false_iff.mp (looksLikeObject_integer parsed))
  exact StringCall.meaning_ok string (effect_incrby parsed sum)

variable (session) in
theorem takesEffect_edit (live : (store key).expired context.now = false)
    (found : (keyView context.now (store key)).value = some bytes)
    (sum : incremented increment.toInt bytes = some new) :
    (stringDiscipline session context.now key).guarantee store (Function.update store key
        { store key with data := some ⟨formatInt new, .mutable⟩ }) ∧
      (StringCall.incrby increment).meaning context (keyView context.now (store key)) =
        (.ok (.integer new), keyView context.now (Function.update store key
          { store key with data := some ⟨formatInt new, .mutable⟩ } key)) := by
  have after := keyView_edit live (formatInt new)
  have view : keyView context.now (store key) =
      ⟨some bytes, (keyView context.now (store key)).collection⟩ := by
    rw [← found]
  refine ⟨⟨fun _ => ?_, ?_⟩, ?_⟩
  · rw [Function.update_self]
    exact live
  · rw [Function.update_self, after]
    refine lasting_put ?_ (some (formatInt new))
    rw [view]
    exact fun typed => nomatch typed
  · rw [Function.update_self, after, view]
    exact meaning_incremented sum

theorem pending_slack {collection : Bool} (sum : incremented increment.toInt bytes = some new) :
    StringPending session context key (.incrby increment)
      ((StringProgram.access (.tryModifyWithSlack (formatInt new)) >>= fun written =>
        if written then pure new else StringProgram.incrbySlow context increment.toInt) >>=
          fun value => pure (.integer value)) ⟨true, some ⟨some bytes, collection⟩⟩ := by
  intro store holds fresh
  have live : (store key).expired context.now = false := holds.1 rfl
  rcases session.tryModifyWithSlack_eq store key (formatInt new) with failed | ⟨-, written⟩
  · rw [StringAccess.perform, failed]
    exact ⟨⟨id, Lasting.refl _⟩, holds, .inr ⟨rfl, id, pending_incrbySlow _⟩⟩
  · have relied : (stringDiscipline session context.now key).relies
        (.tryModifyWithSlack (formatInt new)) store := by
      show (session.tryModifyWithSlack store key (formatInt new)).1
      rw [written]
    have same : keyView context.now (store key) = ⟨some bytes, collection⟩ := fresh relied _ rfl
    obtain ⟨guarantee, means⟩ := takesEffect_edit session live (congrArg KeyView.value same) sum
    rw [StringAccess.perform, written]
    exact ⟨guarantee, (stringDiscipline session context.now key).holds_of_guarantee _ _ _
      guarantee holds, .inl ⟨_, means, rfl⟩⟩

theorem pending_incrbyLive {looked : Option KeyView} : StringPending session context key
    (.incrby increment) (incrbyLive context increment.toInt >>= fun value =>
      pure (.integer value)) ⟨true, looked⟩ := by
  unfold incrbyLive
  rw [bind_assoc]
  intro store holds _
  have live : (store key).expired context.now = false := holds.1 rfl
  have looks : (stringDiscipline session context.now key).holds
      ⟨true, some (keyView context.now (store key))⟩ store := holds_looked live rfl
  have fresh : (stringDiscipline session context.now key).fresh
      ⟨true, some (keyView context.now (store key))⟩ store := fun _ found => Option.some.inj found
  by_cases inPlace : ∃ bytes, (store key).data = some ⟨bytes, .mutable⟩
  · obtain ⟨bytes, found⟩ := inPlace
    have value : (keyView context.now (store key)).value = some bytes := by
      rw [keyView_live live, Slot.bytes, found]
      rfl
    have performed := session.tryModifyInPlace_mutable store key
      (incrementEdit increment.toInt) bytes found
    cases edit : incrementEdit increment.toInt bytes with
    | some edited =>
      obtain ⟨new, sum, same⟩ := Option.bind_eq_some_iff.mp edit
      have text : edited = formatInt new := by
        split at same
        · exact (Option.some.inj same).symm
        · cases same
      rw [edit, text] at performed
      obtain ⟨guarantee, means⟩ := takesEffect_edit session live value sum
      rw [StringAccess.perform, performed]
      refine ⟨guarantee, (stringDiscipline session context.now key).holds_of_guarantee _ _ _
        guarantee looks, .inl ⟨_, means, ?_⟩⟩
      show StringSettled session context key _
        (afterInPlace context increment.toInt (.edited bytes) >>= _) _
      rw [afterInPlace, sum]
      rfl
    | none =>
      rw [edit] at performed
      rw [StringAccess.perform, performed]
      refine ⟨⟨id, Lasting.refl _⟩, looks, .inr ⟨rfl, fun _ => fresh, ?_⟩⟩
      show StringPending session context key _
        (afterInPlace context increment.toInt (.declined bytes) >>= _)
        ⟨true, some (keyView context.now (store key))⟩
      rw [afterInPlace]
      cases sum : incremented increment.toInt bytes with
      | none => exact pending_incrbySlow _
      | some new =>
        have view : keyView context.now (store key) =
            ⟨some bytes, (keyView context.now (store key)).collection⟩ := by
          rw [← value]
        rw [view]
        exact pending_slack sum
  · rw [StringAccess.perform, session.tryModifyInPlace_skipped store key _ fun bytes found =>
      inPlace ⟨bytes, found⟩]
    exact ⟨⟨id, Lasting.refl _⟩, looks, .inr ⟨rfl, fun _ => fresh, pending_incrbySlow _⟩⟩

theorem pending_checkExpired : StringPending session context key
    (.incrby increment) (StringProgram.access .checkExpired >>= fun expired =>
      (if expired then do
          StringProgram.access (.upsert (formatInt increment.toInt))
          return increment.toInt
        else incrbyLive context increment.toInt) >>=
        fun value => pure (.integer value)) note := by
  intro store _ _
  have performed : StringAccess.perform session context.now key .checkExpired store =
      ((store key).expired context.now, session.purge context.now store key) :=
    Prod.ext (checkExpired_fst session _ _ _) (checkExpired_snd session _ _ _)
  have same := keyView_purge session context.now store key
  rw [performed]
  refine ⟨guarantee_purge store, holds_looked (session.purge_self_live _ _ _) same,
    .inr ⟨same, fun _ _ found => same.trans (Option.some.inj found), ?_⟩⟩
  cases expired : (store key).expired context.now with
  | false => exact pending_incrbyLive
  | true =>
    show StringPending session context key _ _ ⟨true, some (keyView context.now (store key))⟩
    rw [keyView_expired expired]
    have sum : asInt64 (0 + increment.toInt) = some increment.toInt := by
      rw [Int.zero_add]
      exact if_pos ⟨Int64.le_toInt increment, Int64.toInt_lt increment⟩
    have absent : KeyView.string context ⟨none, false⟩ = .ok none := rfl
    exact pending_upsert (fun typed => nomatch typed)
      (StringCall.meaning_ok absent (effect_incrby rfl sum))

theorem pending_incrby : StringPending session context key (.incrby increment)
    (StringProgram.incrby context increment.toInt >>= fun value => pure (.integer value))
    (stringDiscipline session context.now key).blank := by
  unfold StringProgram.incrby StringProgram.expiredByTag
  rw [bind_assoc, bind_assoc]
  intro store holds _
  have performed : StringAccess.perform session context.now key .hasTtlTag store =
      (session.hasTtlTag store key, store) := rfl
  have noted : (stringDiscipline session context.now key).write .hasTtlTag store
      (stringDiscipline session context.now key).blank =
      ⟨!session.hasTtlTag store key, none⟩ := rfl
  rw [performed, noted]
  cases tag : session.hasTtlTag store key with
  | true => exact ⟨⟨id, Lasting.refl _⟩, holds, .inr ⟨rfl, id, pending_checkExpired _⟩⟩
  | false =>
    have live := live_of_hasTtlTag session context tag
    exact ⟨⟨id, Lasting.refl _⟩, ⟨fun _ => live, fun _ found => (nomatch found)⟩,
      .inr ⟨rfl, fun _ _ found => (nomatch found), pending_incrbyLive⟩⟩

theorem pending_program (call : StringCall) : Pending (stringDiscipline session context.now key)
      (StringAccess.perform session context.now key) (call.meaning context) (call.program context)
      (stringDiscipline session context.now key).blank := by
  cases call with
  | incrby increment => exact pending_incrby
  | append suffix => exact pending_append suffix _
  | getset value => exact pending_getset value _
  | getdel => exact pending_getdel _

theorem storedInteger_meaning {after : KeyView}
    (means : (StringCall.incrby increment).meaning context view = (.ok reply, after)) :
    storedInteger after.value =
      (storedInteger view.value).map fun number => number + increment.toInt := by
  cases string : view.string context with
  | error error =>
    rw [StringCall.meaning, string] at means
    exact nomatch (Prod.mk.inj means).1
  | ok old =>
    rw [(KeyView.string_ok string).1]
    cases sum : (storedInteger old).bind fun number => asInt64 (number + increment.toInt) with
    | none =>
      have effect : (StringCall.incrby increment).effect old = .error .notInteger := by
        rw [StringCall.effect, sum]
      rw [StringCall.meaning_error string effect] at means
      exact nomatch (Prod.mk.inj means).1
    | some new =>
      obtain ⟨number, stored, sum⟩ := Option.bind_eq_some_iff.mp sum
      rw [StringCall.meaning_ok string (effect_incrby stored sum)] at means
      have left : view.put (some (formatInt new)) = after := (Prod.mk.inj means).2
      have same : number + increment.toInt = new := by
        unfold asInt64 at sum
        split at sum
        · exact Option.some.inj sum
        · cases sum
      rw [← left, stored]
      show parseStoredInteger (formatInt new) = some (number + increment.toInt)
      rw [parseStoredInteger_formatInt, ← same, sum, same]

variable (session context key) in
theorem storedInteger_serial {ι : Type} (increments : ι → Int64) (order : List ι) (store : Store)
    (successful : ∀ result ∈ (serial (StringAccess.perform session context.now key)
      (fun call => (StringCall.incrby (increments call)).program context) order store).1,
      ∃ reply, result = .ok reply) :
    storedInteger (keyView context.now
      ((serial (StringAccess.perform session context.now key)
        (fun call => (StringCall.incrby (increments call)).program context) order store).2
          key)).value =
      (storedInteger (keyView context.now (store key)).value).map fun number =>
        number + (order.map fun call => (increments call).toInt).sum := by
  induction order generalizing store with
  | nil =>
    simp [serial]
  | cons call order ih =>
    obtain ⟨reply, first⟩ := successful _ List.mem_cons_self
    have begins : Pending (stringDiscipline session context.now key) _ _ _ _ :=
      pending_program (.incrby (increments call))
    have means := begins.run ((stringDiscipline session context.now key).holds_blank store)
      ((stringDiscipline session context.now key).fresh_blank store)
    rw [first] at means
    have step := storedInteger_meaning means
    have rest := ih (((StringCall.incrby (increments call)).program context).run
      (StringAccess.perform session context.now key) store).2
      fun result member => successful result (List.mem_cons_of_mem _ member)
    rw [List.map_cons, List.sum_cons]
    refine rest.trans ((congrArg _ step).trans ?_)
    rw [Option.map_map]
    refine congrArg (Option.map · _) (funext fun number => ?_)
    exact Int.add_assoc _ _ _

end

abbrev StringCalls (ι : Type) := Calls StringAccess StringAccess.Answer
  (Except CommandError StringReply) Store StringNote ι

/-- Concurrent calls on one key, every write of which finds the key as last seen, end like a serial
order, and successful increments add up. -/
theorem stringCalls_serial {ι : Type} [Fintype ι] [DecidableEq ι] (session : StoreSession)
    (context : DecodeContext) (key : Bytes) (calls : ι → StringCall) (store : Store)
    (after : StringCalls ι)
    (runs : Calls.Runs (StringAccess.perform session context.now key)
      (stringDiscipline session context.now key).write ⟨false, none⟩
      (Unraced (stringDiscipline session context.now key))
      (Calls.start (fun call => (calls call).program context) ⟨false, none⟩ store) after)
    (finished : ∀ call, (after.rest call).result?.isSome) :
    (∃ order : List ι, order.Nodup ∧ (∀ call, call ∈ order) ∧
      (serial (StringAccess.perform session context.now key)
          (fun call => (calls call).program context) order store).1.map some =
        order.map (fun call => (after.rest call).result?) ∧
      (logicalStore context.now (serial (StringAccess.perform session context.now key)
          (fun call => (calls call).program context) order store).2 key).value =
        (logicalStore context.now after.state key).value) ∧
    ∀ increments : ι → Int64, (∀ call, calls call = .incrby (increments call)) →
      (∀ call, ∃ reply, (after.rest call).result? = some (.ok reply)) →
      storedInteger (logicalStore context.now after.state key).value =
        (storedInteger (logicalStore context.now store key).value).map fun number =>
          number + ∑ call, (increments call).toInt := by
  obtain ⟨order, nodup, all, results, seen⟩ :=
    serial_of_unraced (fun call => pending_program (calls call)) runs finished
  have value := congrArg KeyView.value seen
  refine ⟨⟨order, nodup, all, results, value⟩, fun increments same successful => ?_⟩
  have incrbys : (fun call => (calls call).program context) =
      fun call => (StringCall.incrby (increments call)).program context :=
    funext fun call => by rw [same]
  rw [incrbys] at results value
  have total : ∑ call, (increments call).toInt =
      (order.map fun call => (increments call).toInt).sum := by
    have univ : order.toFinset = Finset.univ :=
      Finset.eq_univ_of_forall fun call => List.mem_toFinset.mpr (all call)
    rw [← univ, List.sum_toFinset _ nodup]
  have added := storedInteger_serial session context key increments order store
    fun result member => by
      have listed := List.mem_map_of_mem (f := some) member
      rw [results] at listed
      obtain ⟨call, -, returned⟩ := List.mem_map.mp listed
      obtain ⟨reply, ok⟩ := successful call
      rw [ok] at returned
      exact ⟨reply, (Option.some.inj returned).symm⟩
  rw [total]
  exact (congrArg storedInteger value).symm.trans added

/-- Two increments of the key `k` by one. -/
def twoIncrements (_ : Bool) : StringCall := .incrby 1

/-- The second increment has begun before the first one runs, and finds its result. -/
theorem twoIncrements_add : ∃ after : StringCalls Bool,
    (after.rest false).result? = some (.ok (.integer 1)) ∧
    (after.rest true).result? = some (.ok (.integer 2)) ∧
    storedInteger (logicalStore 0 after.state (bytesOf "k")).value = some 2 := by
  refine ⟨_, ?_, ?_, ((stringCalls_serial .reference ⟨0, fun _ => false⟩ (bytesOf "k")
    twoIncrements (fun _ => Slot.empty) _
    (.next true (.next false (.next false (.next false (.next false (.next false (.next true
      (.refl _) (unraced_of_rest rfl ?_) rfl) (unraced_of_rest rfl ?_) rfl)
      (unraced_of_rest rfl ?_) rfl) (unraced_of_rest rfl ?_) rfl) (unraced_of_rest rfl ?_) rfl)
      (unraced_of_rest rfl ?_) rfl) (unraced_of_rest rfl ?_) rfl) ?_).2 (fun _ => 1)
    (fun _ => rfl) ?_).trans rfl⟩
  · rfl
  · rfl
  · exact False.elim
  · exact False.elim
  · exact False.elim
  · exact False.elim
  · exact False.elim
  · exact fun _ _ looked => Option.some.inj looked
  · exact False.elim
  · rintro (_ | _) <;> rfl
  · rintro (_ | _)
    · exact ⟨_, rfl⟩
    · exact ⟨_, rfl⟩

/-- Two increments that both read before either writes: both answer one, and one is stored. -/
theorem twoIncrements_lose : ∃ after : StringCalls Bool,
    Calls.Runs (StringAccess.perform .reference 0 (bytesOf "k"))
      (stringDiscipline .reference 0 (bytesOf "k")).write ⟨false, none⟩ (fun _ _ => True)
      (Calls.start (fun call => (twoIncrements call).program ⟨0, fun _ => false⟩) ⟨false, none⟩
        fun _ => Slot.empty) after ∧
    (after.rest false).result? = some (.ok (.integer 1)) ∧
    (after.rest true).result? = some (.ok (.integer 1)) ∧
    (logicalStore 0 after.state (bytesOf "k")).value = some (bytesOf "1") ∧
    ∀ first, (serial (StringAccess.perform .reference 0 (bytesOf "k"))
      (fun call => (twoIncrements call).program ⟨0, fun _ => false⟩) [first, !first]
      fun _ => Slot.empty).1 = [.ok (.integer 1), .ok (.integer 2)] := by
  refine ⟨_, .next true (.next false (.next true (.next true (.next true (.next true (.next false
    (.next false (.next false (.next false (.refl _) trivial rfl) trivial rfl) trivial rfl)
    trivial rfl) trivial rfl) trivial rfl) trivial rfl) trivial rfl) trivial rfl) trivial rfl,
    rfl, rfl, rfl, ?_⟩
  rintro (_ | _) <;> rfl

end Wedb.Redis
