/-
The two tables that say which arguments of a command are keys: `extract_keys`, for routing and EXEC,
and `QueuedCommand::for_each_key`, for shared and exclusive locks.
-/

import Wedb.CommandSyntax
import Wedb.ServerSession

namespace Wedb.Server

open Resp List

inductive LockType
  | shared
  | exclusive
  deriving DecidableEq

/-- `usize::MAX`. -/
def usizeMax : Nat := 2 ^ 64 - 1

def readKeyCount (digits : Bytes) : Option Nat :=
  if digits = [] then none
  else digits.foldlM (fun count digit =>
    if 48 ≤ digit ∧ digit ≤ 57 then
      some (min (min (count * 10) usizeMax + (digit.toNat - 48)) usizeMax)
    else none) 0

def keysAfterNumkeys (args : List Bytes) (start : Nat) : List Bytes :=
  match args[start]?.bind readKeyCount with
  | none => []
  | some count => (args.take (min (start + 1 + count) usizeMax)).drop (start + 1)

def isStoreWord (word : Bytes) : Bool :=
  eqIgnoreAsciiCase word (bytesOf "STORE") || eqIgnoreAsciiCase word (bytesOf "STOREDIST")

/-- The arguments that follow one of the two words. -/
def storeTargets : List Bytes → List Bytes
  | word :: target :: rest =>
    if isStoreWord word then target :: storeTargets (target :: rest)
    else storeTargets (target :: rest)
  | _ => []

def afterKeysWord : List Bytes → Option (List Bytes)
  | [] => none
  | word :: rest =>
    match afterKeysWord rest with
    | some keys => some keys
    | none => if eqIgnoreAsciiCase word (bytesOf "KEYS") then some rest else none

def lockAll (lock : LockType) (keys : List Bytes) : List (Bytes × LockType) :=
  keys.map fun key => (key, lock)

def QueuedCommand.forEachKey (item : QueuedCommand) : List (Bytes × LockType) :=
  let own : LockType := if item.cmd.isWrite then .exclusive else .shared
  match item.args with
  | [] => []
  | first :: rest =>
    match item.cmd with
    | .mget | .sdiff | .sinter | .sunion | .ssubscribe => lockAll .shared item.args
    | .pfcount => lockAll .exclusive item.args
    | .del | .unlink | .exists => lockAll own item.args
    | .mset | .msetnx => lockAll .exclusive (everySecond item.args)
    | .rename | .renamenx | .rpoplpush | .lmove | .blmove | .brpoplpush | .smove =>
      (first, .exclusive) :: lockAll .exclusive (rest.take 1)
    | .sdiffstore | .sinterstore | .sunionstore | .pfmerge =>
      (first, .exclusive) :: lockAll .shared rest
    | .zdiffstore | .zinterstore | .zunionstore =>
      (first, .exclusive) :: lockAll .shared (keysAfterNumkeys item.args 1)
    | .zrangestore | .geosearchstore =>
      match rest with
      | source :: _ => [(first, .exclusive), (source, .shared)]
      | [] => []
    | .bitop | .bitopAnd | .bitopOr | .bitopXor | .bitopNot | .bitopDiff =>
      match rest with
      | target :: sources => (target, .exclusive) :: lockAll .shared sources
      | [] => []
    | .georadius | .georadiusbymember =>
      (first, .shared) :: lockAll .exclusive (storeTargets rest)
    | .blpop | .brpop | .bzpopmin | .bzpopmax => lockAll .exclusive item.args.dropLast
    | .migrate =>
      match rest with
      | _ :: key :: rest =>
        (key, .exclusive) :: lockAll .exclusive ((afterKeysWord rest).getD [])
      | _ => []
    | .lmpop | .zmpop => lockAll .exclusive (keysAfterNumkeys item.args 0)
    | .blmpop | .bzmpop | .eval | .evalsha => lockAll .exclusive (keysAfterNumkeys item.args 1)
    | .zdiff | .zinter | .zunion | .zintercard | .sintercard =>
      lockAll .shared (keysAfterNumkeys item.args 0)
    | .lcs => (first, .shared) :: lockAll .shared (rest.take 1)
    | .objectEncoding | .objectFreq | .objectIdletime | .objectRefcount =>
      lockAll .shared (rest.take 1)
    | .coscan => []
    | cmd => if cmd.isData then [(first, own)] else []

@[simp] theorem map_fst_lockAll (lock : LockType) (keys : List Bytes) :
    (lockAll lock keys).map Prod.fst = keys := by
  simp [lockAll, Function.comp_def]

/-- The keys of `CommandKeys` as a list. -/
def CommandKeys.toList : CommandKeys → List Bytes
  | .none => []
  | .single key => [key]
  | .several keys => keys

/-- The layout of arguments: what the dispatcher routes and then what the transaction locks. -/
inductive KeyLayout
  | all
  | first
  | firstTwo
  | firstTwoOrOne
  | allButLast
  | allButFirst
  | everySecond
  | storing
  | migrated
  | allOrCounted
  | allOrTargetCounted
  | allOrAllButFirst
  | noneOrAll
  | noneOrFirst
  | noneOrFirstTwo
  | noneOrSecond
  | noneOrCounted (start : Nat)
  | none

def keyLayout : RespCommand → KeyLayout
  | .del | .exists | .mget | .unlink | .sinter | .sunion | .sdiff | .sinterstore | .sunionstore
  | .sdiffstore | .pfcount | .pfmerge => .all
  | .zrangestore | .geosearchstore => .firstTwo
  | .rename | .renamenx | .blmove | .brpoplpush | .smove => .firstTwoOrOne
  | .blpop | .brpop | .bzpopmin | .bzpopmax => .allButLast
  | .bitop => .allButFirst
  | .mset | .msetnx => .everySecond
  | .georadius | .georadiusbymember => .storing
  | .migrate => .migrated
  | .zunion | .zinter | .zdiff => .allOrCounted
  | .zunionstore | .zinterstore | .zdiffstore => .allOrTargetCounted
  | .bitopAnd | .bitopOr | .bitopXor | .bitopNot | .bitopDiff => .allOrAllButFirst
  | .ssubscribe => .noneOrAll
  | .lmove | .rpoplpush | .lcs => .noneOrFirstTwo
  | .objectEncoding | .objectFreq | .objectIdletime | .objectRefcount => .noneOrSecond
  | .lmpop | .zmpop | .zintercard | .sintercard => .noneOrCounted 0
  | .blmpop | .bzmpop | .eval | .evalsha => .noneOrCounted 1
  | .coscan => .none
  | cmd => if hasSingleKey cmd then .first else if cmd.isData then .noneOrFirst else .none

namespace KeyLayout

variable (layout : KeyLayout)

def routed (args : List Bytes) : List Bytes :=
  match layout with
  | .all | .allOrCounted | .allOrTargetCounted | .allOrAllButFirst => args
  | .first => args.take 1
  | .firstTwo | .firstTwoOrOne => (firstTwoKeys args).toList
  | .allButLast => args.dropLast
  | .allButFirst => args.tail
  | .everySecond =>
    if args.length / 2 ≤ 8 then (Server.everySecond args).take (args.length / 2)
    else Server.everySecond args
  | .storing => args.take 1 ++ (storeTarget args).toList
  | .migrated => ((args.drop 2).take 1).filter (· ≠ [])
  | .noneOrAll | .noneOrFirst | .noneOrFirstTwo | .noneOrSecond | .noneOrCounted _
  | .none => []

def locked (args : List Bytes) : List Bytes :=
  match layout with
  | .all | .noneOrAll => args
  | .first | .noneOrFirst => args.take 1
  | .firstTwo => (firstTwoKeys args).toList
  | .firstTwoOrOne | .noneOrFirstTwo => args.take 2
  | .allButLast => args.dropLast
  | .allButFirst | .allOrAllButFirst => args.tail
  | .everySecond => Server.everySecond args
  | .storing => args.take 1 ++ storeTargets args.tail
  | .migrated => (args.drop 2).take 1 ++ (afterKeysWord (args.drop 3)).getD []
  | .allOrCounted => keysAfterNumkeys args 0
  | .allOrTargetCounted => args.take 1 ++ keysAfterNumkeys args 1
  | .noneOrSecond => args.tail.take 1
  | .noneOrCounted start => keysAfterNumkeys args start
  | .none => []

/-- The condition on the arguments under which both tables name the same keys. -/
def Agrees (args : List Bytes) : Prop :=
  match layout with
  | .all | .first | .firstTwo | .allButLast | .allButFirst | .none => True
  | .firstTwoOrOne => args.length ≠ 1
  | .everySecond =>
    args.length % 2 = 0 ∨ 18 ≤ args.length ∨
      ∃ last ∈ args.getLast?, last ∈ Server.everySecond args.dropLast
  | .storing =>
    ∀ key ∈ args.head?, (∀ target ∈ storeTargets args.tail,
        target = key ∨ (storeTargets args.tail).getLast? = some target) ∧
      (isStoreWord key → storeTargets args.tail = [] → ∀ next ∈ args.tail.head?, next = key)
  | .migrated =>
    ∀ key ∈ args[2]?, key ≠ [] ∧ ∀ other ∈ (afterKeysWord (args.drop 3)).getD [], other = key
  | .allOrCounted => ∀ token ∈ args, token ∈ keysAfterNumkeys args 0
  | .allOrTargetCounted =>
    ∀ token ∈ args.tail, args.head? = some token ∨ token ∈ keysAfterNumkeys args 1
  | .allOrAllButFirst => ∀ target ∈ args.head?, target ∈ args.tail
  | .noneOrAll | .noneOrFirst | .noneOrFirstTwo => args = []
  | .noneOrSecond => args.length ≤ 1
  | .noneOrCounted start => keysAfterNumkeys args start = []

end KeyLayout

theorem toList_pairKeys (first : Bytes) (rest : List Bytes) : (if rest = [] then CommandKeys.none
      else if (first :: rest).length / 2 ≤ 8 then
        .several ((everySecond (first :: rest)).take ((first :: rest).length / 2))
      else .several (everySecond (first :: rest))).toList =
      KeyLayout.everySecond.routed (first :: rest) := by
  obtain rfl | alone := eq_or_ne rest []
  · simp [KeyLayout.routed, CommandKeys.toList]
  · rw [if_neg alone]
    exact apply_ite CommandKeys.toList _ _ _

theorem toList_storeKeys (first : Bytes) (rest : List Bytes) :
    (match storeTarget (first :: rest) with
      | some target => CommandKeys.several [first, target]
      | none => .single first).toList = KeyLayout.storing.routed (first :: rest) := by
  cases found : storeTarget (first :: rest) <;> simp [KeyLayout.routed, CommandKeys.toList, found]

theorem toList_migrateKey (host port key : Bytes) (rest : List Bytes) :
    (if key = [] then CommandKeys.none else .single key).toList =
      KeyLayout.migrated.routed (host :: port :: key :: rest) := by
  by_cases empty : key = [] <;> simp [KeyLayout.routed, CommandKeys.toList, empty]

theorem toList_extractKeys (cmd : RespCommand) (args : List Bytes) :
    (extractKeys cmd args).toList = (keyLayout cmd).routed args := by
  match args with
  | [] => cases cmd <;> rfl
  | [first] =>
    cases cmd <;> first
      | rfl
      | exact toList_pairKeys first []
  | [first, second] =>
    cases cmd <;> first
      | rfl
      | exact toList_pairKeys first [second]
      | exact toList_storeKeys first [second]
  | first :: second :: third :: rest =>
    cases cmd <;> first
      | rfl
      | exact toList_pairKeys first (second :: third :: rest)
      | exact toList_storeKeys first (second :: third :: rest)
      | exact toList_migrateKey first second third rest

theorem map_fst_forEachKey (cmd : RespCommand) (args : List Bytes) :
    (QueuedCommand.forEachKey ⟨cmd, args⟩).map Prod.fst = (keyLayout cmd).locked args := by
  match args with
  | [] => cases cmd <;> rfl
  | [first] =>
    cases cmd <;> first
      | rfl
      | exact map_fst_lockAll ..
  | [first, second] =>
    cases cmd <;> first
      | rfl
      | exact map_fst_lockAll ..
      | exact congrArg (List.cons first) (map_fst_lockAll ..)
  | first :: second :: third :: rest =>
    cases cmd <;> first
      | rfl
      | exact map_fst_lockAll ..
      | exact congrArg (List.cons _) (map_fst_lockAll ..)

variable (args : List Bytes)

theorem same_nil_iff (keys : List Bytes) : (∀ key, key ∈ ([] : List Bytes) ↔ key ∈ keys) ↔
    keys = [] := by
  simp [eq_nil_iff_forall_not_mem]

theorem same_iff_of_subset {all some : List Bytes} (part : some ⊆ all) :
    (∀ key, key ∈ all ↔ key ∈ some) ↔ ∀ key ∈ all, key ∈ some :=
  ⟨fun same key => (same key).mp, fun whole key => ⟨whole key, fun inside => part inside⟩⟩

theorem keysAfterNumkeys_subset (start : Nat) : keysAfterNumkeys args start ⊆ args := by
  unfold keysAfterNumkeys
  split
  · exact nil_subset args
  · exact List.Subset.trans (drop_subset _ _) (take_subset _ _)

theorem same_firstTwoOrOne_iff :
    (∀ key, key ∈ (firstTwoKeys args).toList ↔ key ∈ args.take 2) ↔ args.length ≠ 1 := by
  match args with
  | [] => simp [firstTwoKeys, CommandKeys.toList]
  | [only] => simp [firstTwoKeys, CommandKeys.toList]
  | first :: second :: rest => simp [firstTwoKeys, CommandKeys.toList]

theorem same_targetCounted_iff :
    (∀ key, key ∈ args ↔ key ∈ args.take 1 ++ keysAfterNumkeys args 1) ↔
      ∀ token ∈ args.tail, args.head? = some token ∨ token ∈ keysAfterNumkeys args 1 := by
  rw [same_iff_of_subset (append_subset.mpr ⟨take_subset _ _, keysAfterNumkeys_subset args 1⟩)]
  cases args with
  | nil => simp
  | cons target rest =>
    constructor
    · intro whole token inRest
      have named := whole token (mem_cons_of_mem target inRest)
      simpa [eq_comm] using named
    · intro whole token inArgs
      rcases mem_cons.mp inArgs with rfl | inRest
      · simp
      · simpa [eq_comm] using whole token inRest

theorem same_allButFirst_iff :
    (∀ key, key ∈ args ↔ key ∈ args.tail) ↔ ∀ target ∈ args.head?, target ∈ args.tail := by
  rw [same_iff_of_subset (tail_sublist args |>.subset)]
  cases args with
  | nil => simp
  | cons target rest => simp +contextual

theorem everySecond_concat {keys : List Bytes} (even : keys.length % 2 = 0) (last : Bytes) :
    everySecond (keys ++ [last]) = everySecond keys ++ [last] := by
  fun_induction everySecond keys with
  | case1 => rfl
  | case2 item => simp at even
  | case3 item value rest ih =>
    have evenRest : rest.length % 2 = 0 := by
      simp only [length_cons] at even
      omega
    simp [everySecond, ih evenRest]

theorem length_everySecond (keys : List Bytes) :
    (everySecond keys).length = (keys.length + 1) / 2 := by
  fun_induction everySecond keys with
  | case1 => rfl
  | case2 item => simp
  | case3 item value rest ih => simp [ih]; omega

theorem same_everySecond_iff :
    (∀ key, key ∈ (if args.length / 2 ≤ 8 then (everySecond args).take (args.length / 2)
        else everySecond args) ↔ key ∈ everySecond args) ↔
      (args.length % 2 = 0 ∨ 18 ≤ args.length ∨
        ∃ last ∈ args.getLast?, last ∈ everySecond args.dropLast) := by
  by_cases fits : args.length / 2 ≤ 8
  swap
  · have many : 18 ≤ args.length := by omega
    simp [fits, many]
  rw [if_pos fits]
  rcases Nat.mod_two_eq_zero_or_one args.length with even | odd
  · have whole : (everySecond args).take (args.length / 2) = everySecond args :=
      take_of_length_le (by rw [length_everySecond]; omega)
    simp [whole, even]
  · obtain ⟨pairs, last, rfl⟩ : ∃ pairs last, args = pairs ++ [last] :=
      (eq_nil_or_concat' args).resolve_left (by rintro rfl; simp at odd)
    have length : (pairs ++ [last]).length = pairs.length + 1 := by simp
    rw [length] at fits odd ⊢
    have even : pairs.length % 2 = 0 := by omega
    have half : (pairs.length + 1) / 2 = (everySecond pairs).length :=
      (length_everySecond pairs).symm
    have few : ¬ 18 ≤ pairs.length + 1 := by omega
    rw [everySecond_concat even, half, take_left]
    simp [odd, few]

theorem storeTargets_cons (word : Bytes) (rest : List Bytes) : storeTargets (word :: rest) =
      (if isStoreWord word then rest.head?.toList else []) ++ storeTargets rest := by
  cases rest with
  | nil => simp [storeTargets]
  | cons target rest => by_cases store : isStoreWord word <;> simp [storeTargets, store]

theorem storeTarget_eq_getLast? : storeTarget args = (storeTargets args).getLast? := by
  fun_induction storeTarget args with
  | case1 word target rest later found ih =>
    rw [storeTargets_cons, getLast?_append, ← ih, found]
    rfl
  | case2 word target rest missing store ih =>
    have isStore : isStoreWord word := store
    rw [storeTargets_cons, getLast?_append, ← ih, missing, isStore]
    rfl
  | case3 word target rest missing other ih =>
    have notStore : isStoreWord word = false := by simpa [isStoreWord] using other
    rw [storeTargets_cons, getLast?_append, ← ih, missing, notStore]
    rfl
  | case4 args short =>
    match args with
    | [] => rfl
    | [word] => rfl
    | word :: target :: rest => exact absurd rfl (short word target rest)

theorem same_storing_iff : (∀ key, key ∈ args.take 1 ++ (storeTarget args).toList ↔
        key ∈ args.take 1 ++ storeTargets args.tail) ↔
      ∀ key ∈ args.head?, (∀ target ∈ storeTargets args.tail,
          target = key ∨ (storeTargets args.tail).getLast? = some target) ∧
        (isStoreWord key → storeTargets args.tail = [] → ∀ next ∈ args.tail.head?, next = key) := by
  cases args with
  | nil => simp [storeTarget, storeTargets]
  | cons key rest =>
    rw [storeTarget_eq_getLast?, storeTargets_cons, getLast?_append]
    simp only [take_succ_cons, take_zero, tail_cons, head?_cons]
    rcases eq_nil_or_concat' (storeTargets rest) with none | ⟨earlier, last, targets⟩
    · by_cases store : isStoreWord key <;> cases rest <;> simp [none, store]
    · rw [targets]
      simp only [getLast?_append, getLast?_singleton, Option.some_or,
        Option.toList_some, singleton_append, mem_cons, mem_append,
        not_mem_nil, or_false, Option.mem_some_iff, forall_eq']
      constructor
      · intro same
        refine ⟨fun target inTargets => ?_, by simp⟩
        rcases (same target).mpr (.inr inTargets) with isKey | isLast
        · exact .inl isKey
        · exact .inr (by rw [isLast])
      · rintro ⟨named, -⟩ token
        constructor
        · rintro (isKey | isLast)
          · exact .inl isKey
          · exact .inr (.inr isLast)
        · rintro (isKey | inTargets)
          · exact .inl isKey
          · rcases named token inTargets with isKey | isLast
            · exact .inl isKey
            · exact .inr (Option.some.inj isLast).symm

theorem same_migrated_iff : (∀ key, key ∈ ((args.drop 2).take 1).filter (· ≠ []) ↔
        key ∈ (args.drop 2).take 1 ++ (afterKeysWord (args.drop 3)).getD []) ↔
      ∀ key ∈ args[2]?, key ≠ [] ∧
        ∀ other ∈ (afterKeysWord (args.drop 3)).getD [], other = key := by
  match args with
  | [] | [_] | [_, _] => simp [afterKeysWord]
  | _ :: _ :: key :: rest => 
    by_cases empty : key = []
    · -- the transaction names the empty key, the dispatcher does not
      simp only [drop_succ_cons, drop_zero, take_succ_cons, take_zero, empty]
      simpa using ⟨[], fun absurdity => absurd rfl absurdity⟩
    · simp [empty]

theorem KeyLayout.same_iff_agrees (layout : KeyLayout) (args : List Bytes) :
    (∀ key, key ∈ layout.routed args ↔ key ∈ layout.locked args) ↔ layout.Agrees args := by
  cases layout with
  | all | first | firstTwo | allButLast | allButFirst | none =>
    exact iff_of_true (fun key => Iff.rfl) trivial
  | firstTwoOrOne => exact same_firstTwoOrOne_iff args
  | everySecond => exact same_everySecond_iff args
  | storing => exact same_storing_iff args
  | migrated => exact same_migrated_iff args
  | allOrCounted => exact same_iff_of_subset (keysAfterNumkeys_subset args 0)
  | allOrTargetCounted => exact same_targetCounted_iff args
  | allOrAllButFirst => exact same_allButFirst_iff args
  | noneOrAll => exact same_nil_iff args
  | noneOrFirst => exact (same_nil_iff (args.take 1)).trans (by simp [Agrees])
  | noneOrFirstTwo => exact (same_nil_iff (args.take 2)).trans (by simp [Agrees])
  | noneOrSecond =>
    refine (same_nil_iff (args.tail.take 1)).trans ?_
    match args with
    | [] | [_] => simp [Agrees]
    | _ :: _ :: _ => simp [Agrees]
  | noneOrCounted start => exact same_nil_iff (keysAfterNumkeys args start)

/-- The dispatcher and the transaction name the same keys exactly when the arguments meet the
condition of the layout. -/
theorem extractKeys_eq_forEachKey_iff (cmd : RespCommand) (args : List Bytes) :
    (∀ key, key ∈ (extractKeys cmd args).toList ↔
        key ∈ (QueuedCommand.forEachKey ⟨cmd, args⟩).map Prod.fst) ↔
      (keyLayout cmd).Agrees args := by
  rw [toList_extractKeys, map_fst_forEachKey]
  exact (keyLayout cmd).same_iff_agrees args

/-- The dispatcher knows neither key of LMOVE, and takes the number of keys of ZUNION for one. -/
theorem extractKeys_misses_lmove : (RespCommand.lmove.isData ∧
      validateCommandSyntax (fun _ => true) .lmove
        [bytesOf "a", bytesOf "b", bytesOf "LEFT", bytesOf "RIGHT"] = some (.ok ()) ∧
      (extractKeys .lmove
        [bytesOf "a", bytesOf "b", bytesOf "LEFT", bytesOf "RIGHT"]).toList = [] ∧
      QueuedCommand.forEachKey
        ⟨.lmove, [bytesOf "a", bytesOf "b", bytesOf "LEFT", bytesOf "RIGHT"]⟩ =
        [(bytesOf "a", .exclusive), (bytesOf "b", .exclusive)]) ∧
    (RespCommand.zunion.isData ∧ validateCommandSyntax (fun _ => true) .zunion
        [bytesOf "2", bytesOf "a", bytesOf "b"] = some (.ok ()) ∧
      (extractKeys .zunion [bytesOf "2", bytesOf "a", bytesOf "b"]).toList =
        [bytesOf "2", bytesOf "a", bytesOf "b"] ∧
      QueuedCommand.forEachKey ⟨.zunion, [bytesOf "2", bytesOf "a", bytesOf "b"]⟩ =
        [(bytesOf "a", .shared), (bytesOf "b", .shared)]) := by
  refine ⟨⟨?_, ?_, ?_, ?_⟩, ?_, ?_, ?_, ?_⟩ <;> rfl

end Wedb.Server
