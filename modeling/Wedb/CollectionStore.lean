/-
The store of collections when its calls do not overlap: a map from keys to collections. Histories of
calls compute this, so a broker that holds its lock meets a plain map.
-/

import Wedb.MemoryStore

namespace Wedb.Collections

open Resp Function

abbrev Contents (Score : Type) := Bytes → Option (CollectionObject Score)

def MoveOutcome.carried : MoveOutcome → Multiset Bytes
  | .moved item _ => {item}
  | _ => 0

/-- What `try_move_item` makes of an outcome. -/
def MoveOutcome.item {Score : Type} (srcKey : Bytes) (failOnSrcMismatch : Bool) :
    MoveOutcome → Option (CollectionItemResult Score)
  | .notFound => none
  | .srcMismatch => if failOnSrcMismatch then some .typeMismatch else none
  | .dstMismatch => some .typeMismatch
  | .moved item _ => some (.single srcKey item)

namespace Contents

variable {Score : Type} [LinearOrder Score] (contents : Contents Score)

def mutate (key : Bytes) (edit : Edit Score)
    (emptied : edit.Answer → Bool) : Option edit.Answer × Contents Score :=
  match contents key with
  | none => (none, contents)
  | some collection =>
    let applied := edit.apply collection
    (some applied.1,
      Function.update contents key (if emptied applied.1 then none else some applied.2))

/-- `pop_outcome` run alone. -/
def popOutcome (key : Bytes) (cmd : RespCommand)
    (args : List Bytes) : Except StoreError (PopOutcome Score) × Contents Score :=
  match popPlan cmd args with
  | none => (.error (.unsupportedCommand cmd), contents)
  | some plan =>
    match plan.kind with
    | .list =>
      let popped := contents.mutate key (.popList plan.front plan.count) (leftEmpty (α := Bytes))
      (.ok (popWith (plan.listResult key) popped.1), popped.2)
    | .sortedSet =>
      let popped := contents.mutate key (.popSortedSet plan.front plan.count)
        (leftEmpty (α := Score × Bytes))
      (.ok (popWith (plan.sortedSetResult key) popped.1), popped.2)

/-- `try_pop_item` run alone. -/
def tryPopItem (key : Bytes) (cmd : RespCommand) (args : List Bytes) (failOnMismatch : Bool) :
    Except StoreError (Option (CollectionItemResult Score)) × Contents Score :=
  let popped := contents.popOutcome key cmd args
  (popped.1.map (PopOutcome.item failOnMismatch), popped.2)

omit [LinearOrder Score] in
/-- `try_move_item` run alone. -/
def tryMoveItem (srcKey dstKey : Bytes) (srcDir dstDir : Direction) (failOnSrcMismatch : Bool) :
    Except StoreError (Option (CollectionItemResult Score)) × Contents Score :=
  match contents srcKey with
  | none => (.ok none, contents)
  | some source =>
    if srcKey = dstKey then
      let (outcome, after) := moveWithin srcDir dstDir source
      (.ok (outcome.item srcKey failOnSrcMismatch),
        match outcome with
        | .moved _ srcEmptied =>
          Function.update contents srcKey (if srcEmptied then none else some after)
        | _ => contents)
    else
      let target := (contents dstKey).getD (.list [])
      let (outcome, sourceAfter, targetAfter) := moveAcross srcDir dstDir source target
      (.ok (outcome.item srcKey failOnSrcMismatch),
        match outcome with
        | .moved _ srcEmptied =>
          Function.update
            (Function.update contents srcKey (if srcEmptied then none else some sourceAfter))
            dstKey (some targetAfter)
        | _ => contents)

/-- An addition to the collection of a key, which is made where there is none. -/
def insert (key : Bytes) (kind : CollectionKind) (edit : Edit Score)
    (count : edit.Answer → Option Nat) : Except StoreError Nat × Contents Score :=
  let collection := (contents key).getD kind.empty
  if collection.kind = kind then
    let applied := edit.apply collection
    ((count applied.1).elim (.error .wrongType) .ok, update contents key (some applied.2))
  else (.error .wrongType, contents)

/-- A pop of one element. -/
def popOne {α : Type} (popped : Option (Option (List α × Bool)) × Contents Score) :
    Option α × Contents Score :=
  popped.map firstItem id

def perform : StoreOp Score → StoreAnswer Score × Contents Score
  | .pushListLeft key value =>
    (contents.insert key .list (.pushList value true) id).map .length id
  | .pushListRight key value =>
    (contents.insert key .list (.pushList value false) id).map .length id
  | .popListLeft key =>
    (popOne (contents.mutate key (.popList true 1) leftEmpty)).map .value id
  | .popListRight key =>
    (popOne (contents.mutate key (.popList false 1) leftEmpty)).map .value id
  | .zadd key score member =>
    (contents.insert key .sortedSet (.addMember score member) id).map .length id
  | .zpopMin key =>
    (popOne (contents.mutate key (.popSortedSet true 1) leftEmpty)).map .scored id
  | .zpopMax key =>
    (popOne (contents.mutate key (.popSortedSet false 1) leftEmpty)).map .scored id
  | .tryPopItem key cmd args failOnMismatch =>
    (contents.tryPopItem key cmd args failOnMismatch).map .item id
  | .tryMoveItem srcKey dstKey srcDir dstDir failOnSrcMismatch =>
    (contents.tryMoveItem srcKey dstKey srcDir dstDir failOnSrcMismatch).map .item id

/-- Operations one after the other on the map. -/
def performAll : List (StoreOp Score) → Contents Score → List (StoreAnswer Score) × Contents Score
  | [], contents => ([], contents)
  | op :: ops, contents =>
    let (answer, after) := contents.perform op
    let (answers, last) := performAll ops after
    (answer :: answers, last)

end Contents

namespace SharedStore

variable {Score : Type} {store : SharedStore Score} {key : Bytes} {number : Nat}
variable {entry : StoreEntry Score}

def content (store : SharedStore Score) : Contents Score := fun key =>
  (store.find key).bind fun number => store.entries[number]?.map StoreEntry.collection

def Leads (store : SharedStore Score) (key : Bytes) (number : Nat) (entry : StoreEntry Score) :
    Prop :=
  store.entries[number]? = some entry ∧ entry.linked = true ∧ entry.key = key

/-- One entry at most is linked under a key. -/
def Unambiguous (store : SharedStore Score) : Prop :=
  ∀ key first second entry other, store.Leads key first entry → store.Leads key second other →
    first = second

theorem exists_of_find (found : store.find key = some number) :
    ∃ entry, store.Leads key number entry := by
  obtain ⟨inside, holds, -⟩ := List.findIdx?_eq_some_iff_getElem.mp found
  refine ⟨store.entries[number], List.getElem?_eq_getElem inside, ?_⟩
  simpa using holds

theorem not_leads_of_find (missing : store.find key = none) : ¬store.Leads key number entry := by
  rintro ⟨here, linked, same⟩
  have outside := List.findIdx?_eq_none_iff.mp missing entry (List.mem_of_getElem? here)
  simp [linked, same] at outside

theorem content_eq_none (missing : store.find key = none) : store.content key = none := by
  simp [content, missing]

theorem content_eq (found : store.find key = some number) (leads : store.Leads key number entry) :
    store.content key = some entry.collection := by
  simp [content, found, leads.1]

theorem content_of_not_leads (none : ∀ number entry, ¬store.Leads key number entry) :
    store.content key = Option.none := by
  cases found : store.find key with
  | none => exact content_eq_none found
  | some number =>
    obtain ⟨entry, leads⟩ := exists_of_find found
    exact absurd leads (none number entry)

theorem Leads.ne (old : store.Leads key number entry) {other : Bytes} {place : Nat}
    {found : StoreEntry Score} (leads : store.Leads other place found) (different : other ≠ key) :
    place ≠ number := by
  rintro rfl
  have one := Option.some.inj (old.1.symm.trans leads.1)
  exact different (leads.2.2.symm.trans (one ▸ old.2.2))

namespace Unambiguous

variable {after : SharedStore Score} (unambiguous : store.Unambiguous)
include unambiguous

theorem find_eq (leads : store.Leads key number entry) : store.find key = some number := by
  cases found : store.find key with
  | none => exact absurd leads (not_leads_of_find found)
  | some other =>
    obtain ⟨otherEntry, otherLeads⟩ := exists_of_find found
    rw [unambiguous key other number otherEntry entry otherLeads leads]

/-- A linked entry gives the collection of its key. -/
theorem content_of_leads (leads : store.Leads key number entry) :
    store.content key = some entry.collection :=
  content_eq (unambiguous.find_eq leads) leads

theorem content_congr (unambiguousAfter : after.Unambiguous)
    (same : ∀ number entry, after.Leads key number entry ↔ store.Leads key number entry) :
    after.content key = store.content key := by
  cases found : store.find key with
  | none =>
    rw [content_eq_none found, content_of_not_leads fun number entry leads =>
      not_leads_of_find found ((same number entry).mp leads)]
  | some number =>
    obtain ⟨entry, leads⟩ := exists_of_find found
    rw [unambiguous.content_of_leads leads,
      unambiguousAfter.content_of_leads ((same number entry).mpr leads)]

theorem rebind {linked : Option (Nat × StoreEntry Score)}
    (here : ∀ number entry, after.Leads key number entry ↔ linked = some (number, entry))
    (elsewhere : ∀ other ≠ key, ∀ number entry,
      after.Leads other number entry ↔ store.Leads other number entry) :
    after.Unambiguous ∧ after.content =
      update store.content key (linked.map fun found => found.2.collection) := by
  have unambiguousAfter : after.Unambiguous := by
    intro other first second entry otherEntry firstLeads secondLeads
    obtain rfl | same := eq_or_ne other key
    · have one := ((here _ _).mp firstLeads).symm.trans ((here _ _).mp secondLeads)
      exact (Prod.mk.inj (Option.some.inj one)).1
    · exact unambiguous other first second entry otherEntry
        ((elsewhere other same _ _).mp firstLeads) ((elsewhere other same _ _).mp secondLeads)
  refine ⟨unambiguousAfter, funext fun other => ?_⟩
  obtain rfl | same := eq_or_ne other key
  · rw [update_self]
    cases linked with
    | none => exact content_of_not_leads fun number entry leads => by cases (here _ _).mp leads
    | some found => exact unambiguousAfter.content_of_leads ((here _ _).mpr rfl)
  · rw [update_of_ne same]
    exact unambiguous.content_congr unambiguousAfter (elsewhere other same)

variable {collection : CollectionObject Score}

theorem append (missing : store.find key = none)
    (entries : after.entries = store.entries ++ [⟨key, true, collection⟩]) :
    after.Unambiguous ∧ after.Leads key store.entries.length ⟨key, true, collection⟩ ∧
      (∀ other number entry, store.Leads other number entry → after.Leads other number entry) ∧
      after.content = update store.content key (some collection) := by
  have leads other number entry : after.Leads other number entry ↔ store.Leads other number entry ∨
        other = key ∧
          some (store.entries.length, ⟨key, true, collection⟩) = some (number, entry) := by
    unfold Leads
    rw [entries]
    grind
  obtain ⟨unambiguousAfter, content⟩ := unambiguous.rebind
    (fun number entry => (leads key number entry).trans
      ⟨fun either => either.elim (fun old => absurd old (not_leads_of_find missing)) And.right,
        fun new => .inr ⟨rfl, new⟩⟩)
    fun other different number entry => (leads other number entry).trans
      (or_iff_left fun new => different new.1)
  exact ⟨unambiguousAfter, (leads _ _ _).mpr (.inr ⟨rfl, rfl⟩),
    fun other number entry old => (leads _ _ _).mpr (.inl old), content⟩

theorem set (old : store.Leads key number entry)
    (entries : after.entries = store.entries.set number { entry with collection }) :
    after.Unambiguous ∧ after.Leads key number { entry with collection } ∧
      (∀ other place found, place ≠ number → store.Leads other place found →
        after.Leads other place found) ∧
      after.content = update store.content key (some collection) := by
  have leads other place found :
      after.Leads other place found ↔ place ≠ number ∧ store.Leads other place found ∨
        other = key ∧ some (number, { entry with collection }) = some (place, found) := by
    have here := old
    unfold Leads at here ⊢
    rw [entries]
    grind
  obtain ⟨unambiguousAfter, content⟩ := unambiguous.rebind
    (fun place found => (leads key place found).trans ⟨fun either => either.elim
          (fun other => absurd (unambiguous _ _ _ _ _ other.2 old) other.1) And.right,
        fun new => .inr ⟨rfl, new⟩⟩)
    fun other different place found => (leads other place found).trans
      ⟨fun either => either.elim And.right fun new => absurd new.1 different,
        fun here => .inl ⟨old.ne here different, here⟩⟩
  exact ⟨unambiguousAfter, (leads _ _ _).mpr (.inr ⟨rfl, rfl⟩),
    fun other place found different here => (leads _ _ _).mpr (.inl ⟨different, here⟩), content⟩

theorem unlink (old : store.Leads key number entry)
    (entries : after.entries = store.entries.modify number fun entry =>
      { entry with linked := false }) :
    after.Unambiguous ∧ after.content = update store.content key none := by
  have leads other place found :
      after.Leads other place found ↔ place ≠ number ∧ store.Leads other place found := by
    have here := old
    unfold Leads at here ⊢
    rw [entries]
    grind
  have nothing place found : after.Leads key place found ↔
      (none : Option (Nat × StoreEntry Score)) = some (place, found) := by
    rw [leads]
    exact iff_of_false (fun both => both.1 (unambiguous _ _ _ _ _ both.2 old))
      fun wrong => by cases wrong
  refine unambiguous.rebind nothing fun other different place found => ?_
  rw [leads]
  exact ⟨And.right, fun here => ⟨old.ne here different, here⟩⟩

end Unambiguous

end SharedStore

section

variable {Score : Type}

def MoveOutcome.tidy (srcKey dstKey : Bytes) (createdDst : Bool) (contents : Contents Score) :
    MoveOutcome → Contents Score
  | .moved _ srcEmptied => if srcEmptied then Function.update contents srcKey none else contents
  | _ => if createdDst then Function.update contents dstKey none else contents

variable {srcDir dstDir : Direction} {collection source target : CollectionObject Score}

theorem moveWithin_unmoved (nothing : (moveWithin srcDir dstDir collection).1.carried = 0) :
    (moveWithin srcDir dstDir collection).2 = collection := by
  cases collection with
  | sortedSet items => rfl
  | list items =>
    unfold moveWithin at nothing ⊢
    dsimp only at nothing ⊢
    split at nothing
    · rfl
    · simp [MoveOutcome.carried] at nothing

theorem moveAcross_unmoved (nothing : (moveAcross srcDir dstDir source target).1.carried = 0) :
    (moveAcross srcDir dstDir source target).2 = (source, target) := by
  cases source with
  | sortedSet items => rfl
  | list items =>
    cases target with
    | sortedSet others => rfl
    | list others =>
      unfold moveAcross at nothing ⊢
      dsimp only at nothing ⊢
      split at nothing
      · rfl
      · simp [MoveOutcome.carried] at nothing

variable {contents : Contents Score}

theorem tidy_across {srcKey dstKey : Bytes} (target : CollectionObject Score) (createdDst : Bool)
    (different : srcKey ≠ dstKey)
    (sourceHere : contents srcKey = some source)
    (targetHere : contents dstKey = if createdDst then none else some target)
    (srcDir dstDir : Direction) :
    let outcome := moveAcross srcDir dstDir source target
    outcome.1.tidy srcKey dstKey createdDst (update
        (update contents srcKey (some outcome.2.1)) dstKey (some outcome.2.2)) =
      match outcome.1 with
      | .moved _ srcEmptied =>
        update (update contents srcKey (if srcEmptied then none else some outcome.2.1))
          dstKey (some outcome.2.2)
      | _ => contents := by
  intro outcome
  have unmoved : outcome.1.carried = 0 → outcome.2 = (source, target) := moveAcross_unmoved
  obtain ⟨result, sourceAfter, targetAfter⟩ := outcome
  have stays (nothing : result.carried = 0) : (if createdDst then update (update
          (update contents srcKey (some sourceAfter)) dstKey (some targetAfter))
          dstKey none
        else update (update contents srcKey (some sourceAfter)) dstKey
          (some targetAfter)) = contents := by
    obtain ⟨rfl, rfl⟩ := Prod.mk.inj (unmoved nothing)
    rw [← sourceHere, update_eq_self]
    cases createdDst with
    | false =>
      have here : contents dstKey = some targetAfter := targetHere
      rw [if_neg Bool.false_ne_true, ← here, update_eq_self]
    | true =>
      have here : contents dstKey = none := targetHere
      rw [if_pos rfl, update_idem, ← here, update_eq_self]
  cases result with
  | notFound => exact stays rfl
  | srcMismatch => exact stays rfl
  | dstMismatch => exact stays rfl
  | moved item srcEmptied =>
    cases srcEmptied with
    | false => rfl
    | true =>
      show update (update (update contents srcKey (some sourceAfter))
        dstKey (some targetAfter)) srcKey none = update (update contents srcKey
          none) dstKey (some targetAfter)
      rw [update_comm (Ne.symm different), update_idem]

theorem tidy_within {key : Bytes} (here : contents key = some collection) :
    (moveWithin srcDir dstDir collection).1.tidy key key false
        (update contents key (some (moveWithin srcDir dstDir collection).2)) =
      match (moveWithin srcDir dstDir collection).1 with
      | .moved _ srcEmptied =>
        update contents key
          (if srcEmptied then none else some (moveWithin srcDir dstDir collection).2)
      | _ => contents := by
  have unmoved : (moveWithin srcDir dstDir collection).1.carried = 0 →
      (moveWithin srcDir dstDir collection).2 = collection := moveWithin_unmoved
  generalize moveWithin srcDir dstDir collection = outcome at unmoved ⊢
  obtain ⟨result, after⟩ := outcome
  dsimp only at unmoved ⊢
  have stays (nothing : result.carried = 0) : update contents key (some after) = contents := by
    rw [unmoved nothing, ← here, update_eq_self]
  cases result with
  | notFound => exact stays rfl
  | srcMismatch => exact stays rfl
  | dstMismatch => exact stays rfl
  | moved item srcEmptied =>
    cases srcEmptied with
    | false => rfl
    | true => exact update_idem _ _ _

end

open SharedStore StoreCall

variable {Score : Type} [LinearOrder Score] {α β : Type} {store : SharedStore Score}

def RunsTo (call : StoreCall Score α) (store : SharedStore Score)
    (expected : α × Contents Score) : Prop :=
  (call.run MapStep.exec store).1 = expected.1 ∧
    (call.run MapStep.exec store).2.content = expected.2 ∧
    (call.run MapStep.exec store).2.Unambiguous

variable {expected : α × Contents Score}

theorem RunsTo.step {step : MapStep Score} {next : step.Answer → StoreCall Score α}
    {answer : step.Answer} (answered : step.answer store = answer)
    (rest : RunsTo (next answer) (step.effect store) expected) :
    RunsTo (Program.call step >>= next) store expected := by
  subst answered
  exact rest

theorem RunsTo.map {call : StoreCall Score α} (runs : RunsTo call store expected) (next : α → β) :
    RunsTo (call >>= fun value => pure (next value)) store (next expected.1, expected.2) := by
  unfold RunsTo
  rw [Program.run_bind]
  exact ⟨congrArg next runs.1, runs.2⟩

theorem RunsTo.bind {call : StoreCall Score α} {next : α → StoreCall Score β}
    {first : α × Contents Score} {expected : β × Contents Score} (runs : RunsTo call store first)
    (rest : ∀ after : SharedStore Score, after.Unambiguous → after.content = first.2 →
      RunsTo (next first.1) after expected) : RunsTo (call >>= next) store expected := by
  unfold RunsTo
  rw [Program.run_bind, runs.1]
  exact rest _ runs.2.2 runs.2.1

variable (unambiguous : store.Unambiguous)
include unambiguous

theorem RunsTo.done {contents : Contents Score} (content : store.content = contents) (answer : α) :
    RunsTo (pure answer : StoreCall Score α) store (answer, contents) :=
  ⟨rfl, content, unambiguous⟩

variable {key srcKey dstKey : Bytes} {number src dst : Nat} {entry source target : StoreEntry Score}

theorem remove_runsTo (leads : store.Leads key number entry) (answer : α) :
    RunsTo (do remove key; return answer) store (answer, update store.content key none) := by
  have found := unambiguous.find_eq leads
  have effect : ((MapStep.remove key : MapStep Score).effect store).entries =
      store.entries.modify number fun entry => { entry with linked := false } := by
    simp only [MapStep.effect, found]
  obtain ⟨unambiguousAfter, content⟩ := unambiguous.unlink leads effect
  exact RunsTo.step rfl (RunsTo.done unambiguousAfter content answer)

omit unambiguous in
theorem read_answer (leads : store.Leads key number entry) :
    (MapStep.read number : MapStep Score).answer store = entry.collection := by
  simp only [MapStep.answer, leads.1]
  rfl

theorem write_effect (leads : store.Leads key number entry) (edit : Edit Score) :
    (MapStep.write number edit).answer store = (edit.apply entry.collection).1 ∧
      ((MapStep.write number edit).effect store).Unambiguous ∧
      ((MapStep.write number edit).effect store).Leads key number
        { entry with collection := (edit.apply entry.collection).2 } ∧
      ((MapStep.write number edit).effect store).content =
        update store.content key (some (edit.apply entry.collection).2) := by
  have effect : ((MapStep.write number edit).effect store).entries = store.entries.set number
      { entry with collection := (edit.apply entry.collection).2 } := by
    simp only [MapStep.effect, leads.1]
  obtain ⟨unambiguousAfter, leadsAfter, -, content⟩ := unambiguous.set leads effect
  refine ⟨?_, unambiguousAfter, leadsAfter, content⟩
  simp only [MapStep.answer, leads.1]
  rfl

theorem getOrInsert_effect (missing : store.find key = none) (kind : CollectionKind) :
    (MapStep.getOrInsert key kind : MapStep Score).answer store = store.entries.length ∧
      ((MapStep.getOrInsert key kind).effect store).Unambiguous ∧
      ((MapStep.getOrInsert key kind).effect store).Leads key store.entries.length
        ⟨key, true, kind.empty⟩ ∧
      (∀ other number entry, store.Leads other number entry →
        ((MapStep.getOrInsert key kind).effect store).Leads other number entry) ∧
      ((MapStep.getOrInsert key kind).effect store).content =
        update store.content key (some kind.empty) := by
  have effect : ((MapStep.getOrInsert key kind).effect store).entries =
      store.entries ++ [⟨key, true, kind.empty⟩] := by
    simp only [MapStep.effect, missing]
  refine ⟨?_, unambiguous.append missing effect⟩
  simp only [MapStep.answer, missing]
  rfl

variable (key : Bytes)

theorem mutate_runsTo (edit : Edit Score) (emptied : edit.Answer → Bool) :
    RunsTo (mutate key edit emptied) store (store.content.mutate key edit emptied) := by
  unfold mutate Contents.mutate
  cases found : store.find key with
  | none =>
    rw [content_eq_none found]
    exact RunsTo.step found (RunsTo.done unambiguous rfl none)
  | some number =>
    obtain ⟨entry, leads⟩ := exists_of_find found
    rw [content_eq found leads]
    obtain ⟨answered, unambiguousAfter, leadsAfter, content⟩ := write_effect unambiguous leads edit
    refine RunsTo.step found (RunsTo.step answered ?_)
    dsimp only
    split
    · have removed := remove_runsTo unambiguousAfter leadsAfter
        (some (edit.apply entry.collection).1)
      rw [content, update_idem] at removed
      exact removed
    · exact RunsTo.done unambiguousAfter content _

theorem popOutcome_runsTo (cmd : RespCommand) (args : List Bytes) :
    RunsTo (popOutcome key cmd args) store (store.content.popOutcome key cmd args) := by
  unfold popOutcome Contents.popOutcome
  cases popPlan cmd args with
  | none => exact RunsTo.done unambiguous rfl _
  | some plan =>
    dsimp only
    cases plan.kind with
    | list =>
      exact (mutate_runsTo unambiguous key (.popList plan.front plan.count) leftEmpty).map
        fun popped => Except.ok (popWith (plan.listResult key) popped)
    | sortedSet =>
      exact (mutate_runsTo unambiguous key (.popSortedSet plan.front plan.count) leftEmpty).map
        fun popped => Except.ok (popWith (plan.sortedSetResult key) popped)

theorem tryPopItem_runsTo (cmd : RespCommand) (args : List Bytes) (failOnMismatch : Bool) :
    RunsTo (tryPopItem key cmd args failOnMismatch) store
      (store.content.tryPopItem key cmd args failOnMismatch) :=
  (popOutcome_runsTo unambiguous key cmd args).map (Except.map (PopOutcome.item failOnMismatch))

theorem finishMove_runsTo (createdDst : Bool)
    (srcLeads : store.Leads srcKey src source) (dstLeads : store.Leads dstKey dst target)
    (outcome : MoveOutcome)
    (fresh : createdDst → outcome.carried = 0 → target.collection = .list [])
    (failOnSrcMismatch : Bool) :
    RunsTo (finishMove srcKey dstKey failOnSrcMismatch createdDst dst outcome) store
      (.ok (outcome.item srcKey failOnSrcMismatch),
        outcome.tidy srcKey dstKey createdDst store.content) := by
  have reaped (answer : Except StoreError (Option (CollectionItemResult Score)))
      (nothing : outcome.carried = 0) :
      RunsTo (do reapDst createdDst dst dstKey; return answer) store
        (answer, if createdDst then update store.content dstKey none
          else store.content) := by
    cases createdDst with
    | false => exact RunsTo.done unambiguous rfl answer
    | true =>
      have answered : (MapStep.read dst : MapStep Score).answer store = .list [] := by
        simp only [MapStep.answer, dstLeads.1, Option.elim, fresh rfl nothing]
        rfl
      exact RunsTo.step answered (remove_runsTo unambiguous dstLeads answer)
  cases outcome with
  | notFound => exact reaped _ rfl
  | srcMismatch => exact reaped _ rfl
  | dstMismatch => exact reaped _ rfl
  | moved item srcEmptied =>
    cases srcEmptied with
    | false => exact RunsTo.done unambiguous rfl _
    | true => exact remove_runsTo unambiguous srcLeads _

theorem across_runsTo (createdDst : Bool)
    (srcLeads : store.Leads srcKey src source) (dstLeads : store.Leads dstKey dst target)
    (different : srcKey ≠ dstKey) (fresh : createdDst → target.collection = .list [])
    (srcDir dstDir : Direction) (failOnSrcMismatch : Bool) :
    let outcome := moveAcross srcDir dstDir source.collection target.collection
    RunsTo (do
        let outcome ← across src dst srcDir dstDir
        finishMove srcKey dstKey failOnSrcMismatch createdDst dst outcome) store
      (.ok (outcome.1.item srcKey failOnSrcMismatch), outcome.1.tidy srcKey dstKey createdDst
          (update (update store.content srcKey (some outcome.2.1)) dstKey (some outcome.2.2))) := by
  intro outcome
  have apart : src ≠ dst := by
    rintro rfl
    have one := Option.some.inj (srcLeads.1.symm.trans dstLeads.1)
    exact different (srcLeads.2.2.symm.trans ((congrArg StoreEntry.key one).trans dstLeads.2.2))
  have answered : (MapStep.moveAcross src dst srcDir dstDir).answer store = outcome.1 := by
    simp only [MapStep.answer, srcLeads.1, dstLeads.1]
    exact if_neg apart
  have effect : ((MapStep.moveAcross src dst srcDir dstDir).effect store).entries =
      (store.entries.set src { source with collection := outcome.2.1 }).set dst
        { target with collection := outcome.2.2 } := by
    simp only [MapStep.effect, srcLeads.1, dstLeads.1, if_neg apart]
    rfl
  let middle : SharedStore Score :=
    { store with entries := store.entries.set src { source with collection := outcome.2.1 } }
  have entriesMiddle : middle.entries =
    store.entries.set src { source with collection := outcome.2.1 } := rfl
  obtain ⟨unambiguousMiddle, srcMiddle, othersMiddle, contentMiddle⟩ :=
    unambiguous.set srcLeads entriesMiddle
  obtain ⟨unambiguousAfter, dstAfter, othersAfter, contentAfter⟩ :=
    unambiguousMiddle.set (othersMiddle _ _ _ (Ne.symm apart) dstLeads) effect
  rw [← contentMiddle, ← contentAfter]
  refine RunsTo.step answered (finishMove_runsTo unambiguousAfter createdDst
    (othersAfter _ _ _ apart srcMiddle) dstAfter outcome.1 (fun created nothing => ?_)
    failOnSrcMismatch)
  have same : outcome.2 = (source.collection, target.collection) := moveAcross_unmoved nothing
  rw [same]
  exact fresh created

theorem tryMoveItem_runsTo (srcKey dstKey : Bytes)
    (srcDir dstDir : Direction) (failOnSrcMismatch : Bool) :
    RunsTo (tryMoveItem srcKey dstKey srcDir dstDir failOnSrcMismatch) store
      (store.content.tryMoveItem srcKey dstKey srcDir dstDir failOnSrcMismatch) := by
  unfold tryMoveItem Contents.tryMoveItem
  cases srcFound : store.find srcKey with
  | none =>
    rw [content_eq_none srcFound]
    exact RunsTo.step srcFound (RunsTo.done unambiguous rfl (Except.ok none))
  | some src =>
    obtain ⟨source, srcLeads⟩ := exists_of_find srcFound
    have sourceHere := content_eq srcFound srcLeads
    rw [sourceHere]
    refine RunsTo.step srcFound ?_
    dsimp only
    obtain rfl | same := eq_or_ne srcKey dstKey
    · rw [if_pos rfl, if_pos rfl]
      obtain ⟨answered, unambiguousAfter, leadsAfter, content⟩ :=
        write_effect unambiguous srcLeads (.moveWithin srcDir dstDir)
      have runs := finishMove_runsTo unambiguousAfter false leadsAfter leadsAfter
        (moveWithin srcDir dstDir source.collection).1 (fun wrong => by cases wrong)
        failOnSrcMismatch
      refine RunsTo.step answered ?_
      rw [content] at runs
      dsimp only [Edit.apply] at runs
      rw [tidy_within sourceHere] at runs
      exact runs
    · rw [if_neg same, if_neg same]
      cases dstFound : store.find dstKey with
      | some dst =>
        obtain ⟨target, dstLeads⟩ := exists_of_find dstFound
        have targetHere := content_eq dstFound dstLeads
        have runs := across_runsTo unambiguous false srcLeads dstLeads same
          (fun wrong => by cases wrong) srcDir dstDir failOnSrcMismatch
        have tidied := tidy_across target.collection false same sourceHere targetHere srcDir dstDir
        refine RunsTo.step dstFound ?_
        rw [targetHere]
        dsimp only [Option.getD_some] at runs tidied ⊢
        rw [← tidied]
        exact runs
      | none =>
        have targetHere := content_eq_none dstFound
        obtain ⟨answered, unambiguousAfter, dstAfter, others, content⟩ :=
          getOrInsert_effect unambiguous dstFound .list
        have runs := across_runsTo unambiguousAfter true
          (others _ _ _ srcLeads) dstAfter same (fun _ => rfl) srcDir dstDir failOnSrcMismatch
        have tidied := tidy_across (.list []) true same sourceHere targetHere srcDir dstDir
        refine RunsTo.step dstFound (RunsTo.step answered ?_)
        rw [targetHere]
        dsimp only [Option.getD_none] at runs tidied ⊢
        rw [content, update_comm (Ne.symm same), update_idem] at runs
        rw [← tidied]
        exact runs

theorem pushListSide_runsTo (key value : Bytes) (front : Bool) :
    RunsTo (pushListSide key value front) store
      (store.content.insert key .list (.pushList value front) id) := by
  unfold Contents.insert
  cases found : store.find key with
  | none =>
    rw [content_eq_none found]
    obtain ⟨number, unambiguousMade, leads, -, made⟩ := getOrInsert_effect unambiguous found .list
    obtain ⟨answered, unambiguousAfter, -, content⟩ :=
      write_effect unambiguousMade leads (.pushList value front)
    rw [made, update_idem] at content
    exact RunsTo.step found (RunsTo.step number (RunsTo.step (read_answer leads)
      (RunsTo.step answered (RunsTo.done unambiguousAfter content _))))
  | some number =>
    obtain ⟨entry, leads⟩ := exists_of_find found
    rw [content_eq found leads]
    obtain ⟨answered, unambiguousAfter, -, content⟩ :=
      write_effect unambiguous leads (.pushList value front)
    have read := read_answer leads
    generalize entry.collection = collection at answered content read
    cases collection with
    | list items =>
      exact RunsTo.step found (RunsTo.step read (RunsTo.step read
        (RunsTo.step answered (RunsTo.done unambiguousAfter content _))))
    | sortedSet items =>
      exact RunsTo.step found (RunsTo.step read (RunsTo.done unambiguous rfl _))

variable (key : Bytes)

theorem zadd_runsTo (score : Score) (member : Bytes) : RunsTo (zadd key score member) store
      (store.content.insert key .sortedSet (.addMember score member) id) := by
  unfold Contents.insert
  cases found : store.find key with
  | none =>
    rw [content_eq_none found]
    obtain ⟨number, unambiguousMade, leads, -, made⟩ :=
      getOrInsert_effect unambiguous found .sortedSet
    obtain ⟨answered, unambiguousAfter, -, content⟩ :=
      write_effect unambiguousMade leads (.addMember score member)
    rw [made, update_idem] at content
    exact RunsTo.step found (RunsTo.step number
      (RunsTo.step answered (RunsTo.done unambiguousAfter content _)))
  | some number =>
    obtain ⟨entry, leads⟩ := exists_of_find found
    rw [content_eq found leads]
    obtain ⟨answered, unambiguousAfter, -, content⟩ :=
      write_effect unambiguous leads (.addMember score member)
    have read := read_answer leads
    generalize entry.collection = collection at answered content read
    cases collection with
    | list items => exact RunsTo.step found (RunsTo.step read (RunsTo.done unambiguous rfl _))
    | sortedSet items =>
      exact RunsTo.step found (RunsTo.step read
        (RunsTo.step answered (RunsTo.done unambiguousAfter content _)))

theorem popListSide_runsTo (front : Bool) : RunsTo (popListSide key front) store
      (Contents.popOne (store.content.mutate key (.popList front 1) leftEmpty)) :=
  (mutate_runsTo unambiguous key (.popList front 1) leftEmpty).map firstItem

theorem zpopSide_runsTo (max : Bool) : RunsTo (zpopSide key max) store
      (Contents.popOne (store.content.mutate key (.popSortedSet (!max) 1) leftEmpty)) :=
  (mutate_runsTo unambiguous key (.popSortedSet (!max) 1) leftEmpty).map firstItem

theorem perform_runsTo (op : StoreOp Score) :
    RunsTo op.steps store (store.content.perform op) := by
  cases op with
  | pushListLeft key value =>
    exact (pushListSide_runsTo unambiguous key value true).map StoreAnswer.length
  | pushListRight key value =>
    exact (pushListSide_runsTo unambiguous key value false).map StoreAnswer.length
  | popListLeft key =>
    exact (popListSide_runsTo unambiguous key true).map StoreAnswer.value
  | popListRight key =>
    exact (popListSide_runsTo unambiguous key false).map StoreAnswer.value
  | zadd key score member => exact (zadd_runsTo unambiguous key score member).map StoreAnswer.length
  | zpopMin key => exact (zpopSide_runsTo unambiguous key false).map StoreAnswer.scored
  | zpopMax key => exact (zpopSide_runsTo unambiguous key true).map StoreAnswer.scored
  | tryPopItem key cmd args failOnMismatch =>
    exact (tryPopItem_runsTo unambiguous key cmd args failOnMismatch).map StoreAnswer.item
  | tryMoveItem srcKey dstKey srcDir dstDir failOnSrcMismatch =>
    exact (tryMoveItem_runsTo unambiguous srcKey dstKey srcDir dstDir failOnSrcMismatch).map
      StoreAnswer.item

theorem threadSteps_runsTo (ops : List (StoreOp Score)) :
    RunsTo (threadSteps ops) store (Contents.performAll ops store.content) := by
  induction ops generalizing store with
  | nil => exact RunsTo.done unambiguous rfl _
  | cons op ops ih =>
    unfold threadSteps
    rw [List.mapM_cons]
    refine (perform_runsTo unambiguous op).bind fun after unambiguousAfter content => ?_
    have rest := (ih unambiguousAfter).map (List.cons (store.content.perform op).1)
    rw [content] at rest
    exact rest

omit unambiguous in
/-- Whatever one thread asks of a new store is answered as by a map from keys to collections, and
the store keeps what the map does. -/
theorem history_refines_map (ops : List (StoreOp Score)) :
    ((threadSteps ops).run MapStep.exec SharedStore.new).1 =
        (Contents.performAll ops fun _ => none).1 ∧
      ((threadSteps ops).run MapStep.exec SharedStore.new).2.content =
        (Contents.performAll ops fun _ => none).2 := by
  have unambiguous : (SharedStore.new : SharedStore Score).Unambiguous := by
    rintro key first second entry other ⟨found, -⟩
    cases found
  have runs := threadSteps_runsTo unambiguous ops
  exact ⟨runs.1, runs.2.1⟩

end Wedb.Collections
