/-
What the broker hands out. The store gives an observer something exactly where the key holds
elements of its kind, unless a move leads to a sorted set.
-/

import Wedb.ExactBroker

namespace Wedb.Collections

open Resp Function
open List hiding getElem?_eq_some_iff

variable {Score : Type}

def CollectionObject.size : CollectionObject Score → Nat
  | .list items => items.length
  | .sortedSet items => items.length

def available (contents : Contents Score) (key : Bytes) (kind : CollectionKind) : Nat :=
  match contents key with
  | none => 0
  | some collection => if collection.kind = kind then collection.size else 0

def kindAt (contents : Contents Score) (key : Bytes) : Option CollectionKind :=
  (contents key).map CollectionObject.kind

/-- Nothing was added, and no key changed its kind. -/
structure Shrinks (after before : Contents Score) : Prop where
  available_le : ∀ key kind, available after key kind ≤ available before key kind
  kindAt_of : ∀ key kind, kindAt after key = some kind → kindAt before key = some kind

theorem Shrinks.refl (contents : Contents Score) : Shrinks contents contents :=
  ⟨fun _ _ => le_rfl, fun _ _ same => same⟩

variable {last middle first left right after before : Contents Score}

theorem Shrinks.trans (later : Shrinks last middle)
    (earlier : Shrinks middle first) : Shrinks last first :=
  ⟨fun key kind => (later.available_le key kind).trans (earlier.available_le key kind),
    fun key kind same => earlier.kindAt_of key kind (later.kindAt_of key kind same)⟩

variable {key : Bytes}

theorem available_congr (same : left key = right key)
    (kind : CollectionKind) : available left key kind = available right key kind := by
  unfold available
  rw [same]

theorem kindAt_congr (same : left key = right key) :
    kindAt left key = kindAt right key := congrArg _ same

variable {contents : Contents Score}

theorem Shrinks.update {collection : CollectionObject Score} (here : contents key = some collection)
    {rest : Option (CollectionObject Score)}
    (smaller : ∀ left, rest = some left →
      left.kind = collection.kind ∧ left.size ≤ collection.size) :
    Shrinks (update contents key rest) contents := by
  constructor
  · intro other kind
    obtain rfl | same := eq_or_ne other key
    · unfold available
      rw [update_self, here]
      cases rest with
      | none => exact Nat.zero_le _
      | some left =>
        obtain ⟨sameKind, le⟩ := smaller left rfl
        dsimp only
        rw [sameKind]
        split
        · exact le
        · exact le_rfl
    · exact (available_congr (update_of_ne same _ _) kind).le
  · intro other kind
    obtain rfl | same := eq_or_ne other key
    · unfold kindAt
      rw [update_self, here]
      cases rest with
      | none => exact fun wrong => by cases wrong
      | some left =>
        intro kindLeft
        rw [Option.map_some, ← (smaller left rfl).1]
        exact kindLeft
    · exact fun found => (kindAt_congr (update_of_ne same rest contents)).symm.trans found

theorem takeEnd_length {α : Type} (front : Bool) (count : Nat) (items : List α) :
    (takeEnd front count items).1.length = min count items.length ∧
      (takeEnd front count items).2.length = items.length - count := by
  unfold takeEnd
  split <;> simp

def Observer.kind (observer : Observer Score) : Option CollectionKind :=
  match observer.target with
  | some _ => some .list
  | none => (popPlan observer.cmd observer.args).map PopPlan.kind

variable {plan : PopPlan}

theorem popPlan_count {cmd : RespCommand} {args : List Bytes}
    (planned : popPlan cmd args = some plan) : 1 ≤ plan.count := by
  unfold popPlan at planned
  split at planned <;> cases planned <;> simp [parseCount]

theorem popPlan_cmd {cmd : RespCommand} {args : List Bytes}
    (planned : popPlan cmd args = some plan) : cmd ≠ .blmove ∧ cmd ≠ .brpoplpush := by
  constructor <;> rintro rfl <;> cases planned

section

variable {contents : Contents Score} {key : Bytes} {kind : CollectionKind}
variable {collection : CollectionObject Score}

theorem available_of_ne (here : contents key = some collection) (other : collection.kind ≠ kind) :
    available contents key kind = 0 := by
  simp [available, here, other]

theorem available_of_eq (here : contents key = some collection) (same : collection.kind = kind) :
    available contents key kind = collection.size := by
  simp [available, here, same]

theorem popWith_cases {α : Type} (result : List α → Option (CollectionItemResult Score))
    (left : CollectionObject Score) (failOnMismatch : Bool) {taken rest : List α} {count : Nat}
    {popped : Except StoreError (Option (CollectionItemResult Score)) × Contents Score}
    (unfolded : popped =
      (.ok (PopOutcome.item failOnMismatch (popWith result (some (some (taken, rest.isEmpty))))),
        update contents key (if rest.isEmpty then none else some left)))
    (empty : result [] = none)
    (found : ∀ item items, ∃ given, result (item :: items) = some given ∧ given.found)
    (here : contents key = some collection) (atLeast : 1 ≤ count)
    (sameKind : left.kind = collection.kind) (leftSize : left.size = rest.length)
    (lengths : taken.length = min count collection.size ∧ rest.length = collection.size - count) :
    Shrinks popped.2 contents ∧ (available contents key collection.kind = 0 ∧ popped.1 = .ok none ∨
        available contents key collection.kind ≠ 0 ∧
          available popped.2 key collection.kind < available contents key collection.kind ∧
          ∃ given, popped.1 = .ok (some given) ∧ given.found) := by
  subst unfolded
  have afterSize : available (update contents key
      (if rest.isEmpty then none else some left)) key collection.kind = rest.length := by
    cases rest with
    | nil => simp [available]
    | cons first others =>
      rw [← leftSize]
      exact available_of_eq (update_self _ _ _) sameKind
  rw [afterSize, available_of_eq here rfl]
  refine ⟨Shrinks.update here fun rest same => ?_, ?_⟩
  · split at same
    · cases same
    · cases same
      exact ⟨sameKind, by omega⟩
  · cases taken with
    | nil =>
      have none : collection.size = 0 := by simp at lengths; omega
      exact .inl ⟨none, by simp [popWith, empty, PopOutcome.item]⟩
    | cons item items =>
      obtain ⟨given, same, isFound⟩ := found item items
      have some : collection.size ≠ 0 := by simp at lengths; omega
      exact .inr ⟨some, by omega, given, by simp [popWith, same, PopOutcome.item], isFound⟩

/-- A move that succeeds: an element goes from one list to another, or stays in its list. -/
structure Carries (after before : Contents Score) (src dst : Bytes) : Prop where
  source : available before src .list ≠ 0
  target : kindAt before dst ≠ some .sortedSet
  within : src = dst → Shrinks after before
  left : src ≠ dst → available after src .list + 1 = available before src .list
  gained : src ≠ dst → available after dst .list = available before dst .list + 1
  kinds : src ≠ dst → kindAt after dst = some .list ∧
    ∀ kind, kindAt after src = some kind → kind = .list
  others : ∀ key, key ≠ src → key ≠ dst → after key = before key

theorem pushEnd_length {α : Type} (dir : Direction) (item : α) (items : List α) :
    (pushEnd dir item items).length = items.length + 1 := by
  cases dir <;> simp [pushEnd]

variable {items after rest others args : List Bytes}

theorem available_list (here : contents key = some (.list items)) :
    available contents key .list = items.length :=
  available_of_eq here rfl

theorem carries_within (here : contents key = some (.list items))
    (sameLength : after.length = items.length) (nonempty : items.length ≠ 0) :
    Carries (update contents key (some (.list after))) contents key key where
  source := by rwa [available_list here]
  target := by simp [kindAt, here, CollectionObject.kind]
  within _ := Shrinks.update here fun left same => by
    cases same
    exact ⟨rfl, sameLength.le⟩
  left different := absurd rfl different
  gained different := absurd rfl different
  kinds different := absurd rfl different
  others other different _ := update_of_ne different _ _

theorem carries_across {srcKey dstKey : Bytes}
    (different : srcKey ≠ dstKey) (here : contents srcKey = some (.list items))
    (there : (contents dstKey).getD (.list []) = .list others)
    (restLength : rest.length + 1 = items.length) (afterLength : after.length = others.length + 1) :
    Carries (update (update contents srcKey
      (if rest.isEmpty then none else some (.list rest))) dstKey (some (.list after)))
      contents srcKey dstKey where
  source := by
    rw [available_list here]
    omega
  target := by
    cases target : contents dstKey with
    | none => simp [kindAt, target]
    | some collection =>
      rw [target, Option.getD_some] at there
      simp [kindAt, target, there, CollectionObject.kind]
  within same := absurd same different
  left _ := by
    rw [available_list here, available_congr (update_of_ne different _ _)]
    cases rest with
    | nil => simpa [available, CollectionObject.size] using restLength
    | cons first others => simpa [available, CollectionObject.size, CollectionObject.kind]
        using restLength
  gained _ := by
    rw [available_list (update_self _ _ _)]
    cases target : contents dstKey with
    | none =>
      rw [target, Option.getD_none] at there
      cases there
      simpa [available, target, CollectionObject.size] using afterLength
    | some collection =>
      rw [target, Option.getD_some] at there
      subst there
      rw [available_list target]
      exact afterLength
  kinds _ := by
    refine ⟨by simp [kindAt, CollectionObject.kind], fun kind found => ?_⟩
    rw [kindAt_congr (update_of_ne different _ _)] at found
    cases rest with
    | nil => simp [kindAt] at found
    | cons first others =>
      simp only [kindAt, update_self] at found
      cases found
      rfl
  others other source target := by
    rw [update_of_ne target, update_of_ne source]

theorem tryMoveItem_cases (contents : Contents Score) (srcKey dstKey : Bytes)
    (srcDir dstDir : Direction) (failOnSrcMismatch : Bool) :
    let moved := contents.tryMoveItem srcKey dstKey srcDir dstDir failOnSrcMismatch
    (available contents srcKey .list = 0 ∧ moved = (.ok none, contents)) ∨
      (moved = (.ok (some .typeMismatch), contents) ∧
        (failOnSrcMismatch ∨ kindAt contents dstKey = some .sortedSet)) ∨
      (Carries moved.2 contents srcKey dstKey ∧
        ∃ result, moved.1 = .ok (some result) ∧ result.found) := by
  intro moved
  cases sourceHere : contents srcKey with
  | none =>
    refine .inl ⟨by simp [available, sourceHere], ?_⟩
    simp only [moved, Contents.tryMoveItem, sourceHere]
  | some source =>
    cases source with
    | sortedSet items =>
      have mismatched : moved =
          (.ok (MoveOutcome.srcMismatch.item srcKey failOnSrcMismatch), contents) := by
        simp only [moved, Contents.tryMoveItem, sourceHere]
        split <;> rfl
      rw [mismatched]
      cases failOnSrcMismatch with
      | false => exact .inl ⟨available_of_ne sourceHere (fun wrong => by cases wrong), rfl⟩
      | true => exact .inr (.inl ⟨rfl, .inl rfl⟩)
    | list items =>
      have size : available contents srcKey .list = items.length := available_list sourceHere
      have lengths := takeEnd_length (srcDir == .left) 1 items
      obtain rfl | same := eq_or_ne srcKey dstKey
      · cases took : takeEnd (srcDir == .left) 1 items with
        | mk taken rest =>
          rw [took] at lengths
          cases taken with
          | nil =>
            refine .inl ⟨by simp at lengths; omega, ?_⟩
            simp only [moved, Contents.tryMoveItem, sourceHere, if_true, moveWithin, took]
            rfl
          | cons item others =>
            have nonempty : (pushEnd dstDir item rest).isEmpty = false := by
              cases dstDir <;> simp [pushEnd]
            have unfolded : moved = (.ok (some (.single srcKey item)), update contents
                srcKey (some (.list (pushEnd dstDir item rest)))) := by
              simp only [moved, Contents.tryMoveItem, sourceHere, if_true, moveWithin, took,
                nonempty]
              rfl
            have nonempty : items.length ≠ 0 := by simp at lengths; omega
            have left : rest.length = items.length - 1 := lengths.2
            rw [unfolded]
            refine .inr (.inr ⟨carries_within sourceHere ?_ nonempty, _, rfl, rfl⟩)
            rw [pushEnd_length]
            omega
      · cases target : (contents dstKey).getD (.list []) with
        | sortedSet others =>
          refine .inr (.inl ⟨?_, .inr ?_⟩)
          · simp only [moved, Contents.tryMoveItem, sourceHere, if_neg same, target, moveAcross]
            rfl
          · cases there : contents dstKey with
            | none => simp [there] at target
            | some collection =>
              rw [there, Option.getD_some] at target
              simp [kindAt, there, target, CollectionObject.kind]
        | list others =>
          cases took : takeEnd (srcDir == .left) 1 items with
          | mk taken rest =>
            rw [took] at lengths
            cases taken with
            | nil =>
              refine .inl ⟨by simp at lengths; omega, ?_⟩
              simp only [moved, Contents.tryMoveItem, sourceHere, if_neg same, target, moveAcross,
                took]
              rfl
            | cons item carried =>
              have unfolded : moved = (.ok (some (.single srcKey item)), update
                  (update contents srcKey (if rest.isEmpty then none else some (.list rest))) dstKey
                  (some (.list (pushEnd dstDir item others)))) := by
                simp only [moved, Contents.tryMoveItem, sourceHere, if_neg same, target,
                  moveAcross, took]
                rfl
              have nonempty : items.length ≠ 0 := by simp at lengths; omega
              have left : rest.length = items.length - 1 := lengths.2
              rw [unfolded]
              exact .inr (.inr ⟨carries_across same sourceHere target (by omega)
                (pushEnd_length dstDir item others), _, rfl, rfl⟩)

variable [LinearOrder Score]

theorem tryPopItem_cases {cmd : RespCommand} {plan : PopPlan}
    (planned : popPlan cmd args = some plan) (contents : Contents Score) (key : Bytes)
    (failOnMismatch : Bool) :
    let popped := contents.tryPopItem key cmd args failOnMismatch
    Shrinks popped.2 contents ∧ (available contents key plan.kind = 0 ∧
          (popped.1 = .ok none ∨ failOnMismatch ∧ popped.1 = .ok (some .typeMismatch)) ∨
        available contents key plan.kind ≠ 0 ∧
          available popped.2 key plan.kind < available contents key plan.kind ∧
          ∃ result, popped.1 = .ok (some result) ∧ result.found) := by
  intro popped
  have atLeast := popPlan_count planned
  have mismatched : PopOutcome.item failOnMismatch (.mismatch : PopOutcome Score) = none ∨
      failOnMismatch ∧
        PopOutcome.item failOnMismatch (.mismatch : PopOutcome Score) = some .typeMismatch := by
    cases failOnMismatch
    · exact .inl rfl
    · exact .inr ⟨rfl, rfl⟩
  cases here : contents key with
  | none =>
    have unfolded : popped = (.ok none, contents) := by
      simp only [popped, Contents.tryPopItem, Contents.popOutcome, planned]
      cases plan.kind <;> simp only [Contents.mutate, here] <;> rfl
    rw [unfolded]
    exact ⟨Shrinks.refl _, .inl ⟨by simp [available, here], .inl rfl⟩⟩
  | some collection =>
    by_cases same : collection.kind = plan.kind
    · rw [← same]
      cases collection with
      | list items =>
        refine (popWith_cases (plan.listResult key) (.list (takeEnd plan.front plan.count items).2)
          failOnMismatch ?_ rfl (fun item items => ⟨_, rfl, by split <;> rfl⟩) here atLeast rfl rfl
          (takeEnd_length plan.front plan.count items)).imp_right
          (Or.imp_left (And.imp_right .inl))
        simp only [popped, Contents.tryPopItem, Contents.popOutcome, planned, ← same]
        simp only [CollectionObject.kind, Contents.mutate, here]
        rfl
      | sortedSet items =>
        refine (popWith_cases (plan.sortedSetResult key)
          (.sortedSet (takeEnd plan.front plan.count items).2) failOnMismatch ?_ rfl
          (fun item items => ⟨_, rfl, by split <;> rfl⟩) here atLeast rfl rfl
          (takeEnd_length plan.front plan.count items)).imp_right
          (Or.imp_left (And.imp_right .inl))
        simp only [popped, Contents.tryPopItem, Contents.popOutcome, planned, ← same]
        simp only [CollectionObject.kind, Contents.mutate, here]
        rfl
    · have unfolded : popped = (.ok (PopOutcome.item failOnMismatch .mismatch), contents) := by
        have stays : update contents key (some collection) = contents := by
          rw [← here, update_eq_self]
        simp only [popped, Contents.tryPopItem, Contents.popOutcome, planned]
        cases collection <;> cases kind : plan.kind <;> first
          | exact absurd kind.symm same
          | simp only [Contents.mutate, here]
            exact congrArg (Prod.mk _) stays
      rw [unfolded]
      exact ⟨Shrinks.refl _, .inl ⟨available_of_ne here same,
        mismatched.imp (congrArg Except.ok) (And.imp_right (congrArg Except.ok))⟩⟩

end

inductive Given (contents : Contents Score) (key : Bytes) (observer : Observer Score)
    (failOnMismatch : Bool) (answer : Except StoreError (Option (CollectionItemResult Score)))
    (after : Contents Score) : Prop
  | nothing (none : ∀ kind, observer.kind = some kind → available contents key kind = 0)
      (shrinks : Shrinks after contents) (unanswered : ∀ result, answer ≠ .ok (some result))
  | mismatch (answered : answer = .ok (some .typeMismatch)) (shrinks : Shrinks after contents)
      (cause : failOnMismatch = true ∨ ∃ dst ends, observer.target = some (dst, ends) ∧
        kindAt contents dst = some .sortedSet)
  | popped (result : CollectionItemResult Score) (kind : CollectionKind)
      (sameKind : observer.kind = some kind) (answered : answer = .ok (some result))
      (stays : observer.forward result = none) (shrinks : Shrinks after contents)
      (fewer : available after key kind < available contents key kind)
  | moved (result : CollectionItemResult Score) (dst : Bytes) (ends : Direction × Direction)
      (target : observer.target = some (dst, ends)) (answered : answer = .ok (some result))
      (forward : observer.forward result = some dst) (carries : Carries after contents key dst)

variable {observer : Observer Score}

theorem Observer.forward_of_target {dst : Bytes}
    {ends : Direction × Direction} (target : observer.target = some (dst, ends))
    {result : CollectionItemResult Score} (found : result.found) :
    observer.forward result = some dst := by
  unfold Observer.target at target
  unfold Observer.forward
  split at target <;> cases target <;> simp_all

theorem Observer.forward_of_plan (planned : popPlan observer.cmd observer.args = some plan)
    (result : CollectionItemResult Score) : observer.forward result = none := by
  obtain ⟨notBlmove, notBrpoplpush⟩ := popPlan_cmd planned
  simp [Observer.forward, notBlmove, notBrpoplpush]

theorem popForObserver_given [LinearOrder Score] (contents : Contents Score) (key : Bytes)
    (observer : Observer Score) (failOnMismatch : Bool) :
    Given contents key observer failOnMismatch
      (popForObserver contents key observer failOnMismatch).1
      (popForObserver contents key observer failOnMismatch).2 := by
  unfold popForObserver
  cases target : observer.target with
  | some move =>
    obtain ⟨dst, ends⟩ := move
    dsimp only
    have kind : observer.kind = some .list := by simp [Observer.kind, target]
    obtain ⟨none, unfolded⟩ | ⟨unfolded, cause⟩ | ⟨carries, result, answered, found⟩ :=
      tryMoveItem_cases contents key dst ends.1 ends.2 failOnMismatch
    · rw [unfolded]
      refine .nothing (fun other same => ?_) (Shrinks.refl _) (fun _ wrong => by cases wrong)
      cases kind.symm.trans same
      exact none
    · rw [unfolded]
      exact .mismatch rfl (Shrinks.refl _)
        (cause.imp_right fun sortedSet => ⟨dst, ends, target, sortedSet⟩)
    · exact .moved result dst ends target answered (Observer.forward_of_target target found) carries
  | none =>
    cases planned : popPlan observer.cmd observer.args with
    | none =>
      have kind : observer.kind = none := by simp [Observer.kind, target, planned]
      have unfolded : contents.tryPopItem key observer.cmd observer.args failOnMismatch =
          (.error (.unsupportedCommand observer.cmd), contents) := by
        simp only [Contents.tryPopItem, Contents.popOutcome, planned]
        rfl
      rw [unfolded]
      exact .nothing (fun other same => by rw [kind] at same; cases same) (Shrinks.refl _)
        (fun _ wrong => by cases wrong)
    | some plan =>
      have kind : observer.kind = some plan.kind := by simp [Observer.kind, target, planned]
      obtain ⟨shrinks, ⟨none, answer⟩ | ⟨some, fewer, result, answered, found⟩⟩ :=
        tryPopItem_cases planned contents key failOnMismatch
      · obtain answered | ⟨fails, answered⟩ := answer
        · refine .nothing (fun other same => ?_) shrinks (fun result wrong => ?_)
          · cases kind.symm.trans same
            exact none
          · rw [answered] at wrong
            cases wrong
        · exact .mismatch answered shrinks (.inl fails)
      · exact .popped result plan.kind kind answered (Observer.forward_of_plan planned result)
          shrinks fewer

namespace Broker

/-- Every receptive observer is in the queue of each of its keys, a queue holds only those of its
key, and they wait for one kind. -/
structure Sound (broker : Broker Score) : Prop where
  queued : ∀ {number observer key}, broker.observers[number]? = some observer →
    observer.isReceptive = true → key ∈ observer.keys →
      ∃ waiters, broker.queues.lookup key = some waiters ∧ number ∈ waiters
  named : ∀ {key waiters number}, broker.queues.lookup key = some waiters → number ∈ waiters →
    ∃ observer, broker.observers[number]? = some observer ∧ key ∈ observer.keys
  alike : ∀ observer ∈ broker.observers, ∀ other ∈ broker.observers,
    observer.isReceptive = true → other.isReceptive = true →
      ∀ key ∈ observer.keys, key ∈ other.keys → observer.kind = other.kind

/-- No waiting move leads to a sorted set. -/
def Open (broker : Broker Score) : Prop :=
  ∀ observer ∈ broker.observers, observer.isReceptive = true →
    ∀ move ∈ observer.target, kindAt broker.contents move.1 ≠ some .sortedSet

instance (broker : Broker Score) : Decidable broker.Open :=
  inferInstanceAs (Decidable (∀ observer ∈ broker.observers, _))

/-- Nobody waits at `key` for something it has. -/
def Calm (broker : Broker Score) (key : Bytes) : Prop :=
  ∀ observer ∈ broker.observers, observer.isReceptive = true → key ∈ observer.keys →
    ∀ kind, observer.kind = some kind → available broker.contents key kind = 0

end Broker

theorem couldConsume_eq_false [LinearOrder Score]
    (none : ∀ kind, observer.kind = some kind → available contents key kind = 0) :
    couldConsume contents key observer = false := by
  unfold couldConsume
  cases popForObserver_given contents key observer false with
  | nothing _ _ unanswered =>
    split
    · rename_i result answered
      exact absurd answered (unanswered result)
    · rfl
  | mismatch answered =>
    rw [answered]
    rfl
  | popped result kind sameKind _ _ _ fewer =>
    rw [none kind sameKind] at fewer
    omega
  | moved result dst ends target _ _ carries =>
    exact absurd (none .list (by simp [Observer.kind, target])) carries.source

theorem Broker.quiet_of_calm [LinearOrder Score] {broker : Broker Score}
    (calm : ∀ key, broker.Calm key) : broker.Quiet :=
  fun observer inside receptive key registered =>
    couldConsume_eq_false fun kind same => calm key observer inside receptive registered kind same

theorem Carries.kindAt_of {src dst key : Bytes}
    (carries : Carries after before src dst) (sortedSet : kindAt after key = some .sortedSet) :
    kindAt before key = some .sortedSet := by
  by_cases within : src = dst
  · exact (carries.within within).kindAt_of key _ sortedSet
  · obtain ⟨list, kinds⟩ := carries.kinds within
    obtain rfl | isDst := eq_or_ne key dst
    · rw [list] at sortedSet
      cases sortedSet
    · obtain rfl | isSrc := eq_or_ne key src
      · cases kinds _ sortedSet
      · rw [← kindAt_congr (carries.others key isSrc isDst)]
        exact sortedSet

theorem available_of_kindAt {kind other : CollectionKind}
    (here : kindAt contents key = some kind) (different : kind ≠ other) :
    available contents key other = 0 := by
  unfold kindAt at here
  cases found : contents key with
  | none => simp [available, found]
  | some collection =>
    rw [found, Option.map_some, Option.some.injEq] at here
    exact available_of_ne found (here ▸ different)

namespace Broker

/-- The observers later: receptive ones are as they were, and nobody is registered on other keys. -/
structure Later (after before : Broker Score) : Prop where
  length : after.observers.length = before.observers.length
  same : ∀ (number : Nat) (observer : Observer Score), after.observers[number]? = some observer →
    ∃ earlier, before.observers[number]? = some earlier ∧ observer.keys = earlier.keys ∧
      (observer.isReceptive = true → observer = earlier)

section

variable {before after : Broker Score} {key : Bytes}

theorem Later.of_eq (same : after.observers = before.observers) : Later after before :=
  ⟨congrArg List.length same, fun _ observer here => ⟨observer, same ▸ here, rfl, fun _ => rfl⟩⟩

theorem Later.trans {last : Broker Score} (second : Later last after) (first : Later after before) :
    Later last before := by
  refine ⟨second.length.trans first.length, fun number observer here => ?_⟩
  obtain ⟨middle, middleHere, sameKeys, same⟩ := second.same number observer here
  obtain ⟨earlier, earlierHere, earlierKeys, earlierSame⟩ := first.same number middle middleHere
  refine ⟨earlier, earlierHere, sameKeys.trans earlierKeys, fun receptive => ?_⟩
  have middleSame := same receptive
  rw [middleSame]
  exact earlierSame (middleSame ▸ receptive)

variable {observer ended : Observer Score}

theorem Later.mem (later : Later after before)
    (inside : observer ∈ after.observers) (receptive : observer.isReceptive) :
    observer ∈ before.observers := by
  obtain ⟨number, here⟩ := mem_iff_getElem?.mp inside
  obtain ⟨earlier, earlierHere, -, same⟩ := later.same number observer here
  rw [same receptive]
  exact mem_of_getElem? earlierHere

variable {number : Nat}

theorem Later.registered (later : Later after before)
    (registered : ∃ observer, before.observers[number]? = some observer ∧ key ∈ observer.keys) :
    ∃ observer, after.observers[number]? = some observer ∧ key ∈ observer.keys := by
  obtain ⟨observer, here, inside⟩ := registered
  have bound : number < after.observers.length := later.length ▸ (getElem?_eq_some_iff.mp here).1
  obtain ⟨earlier, earlierHere, sameKeys, -⟩ := later.same number _ (getElem?_eq_getElem bound)
  cases here.symm.trans earlierHere
  exact ⟨_, getElem?_eq_getElem bound, sameKeys ▸ inside⟩

theorem Calm.of_le (calm : before.Calm key) (later : Later after before)
    (le : ∀ kind, available after.contents key kind ≤ available before.contents key kind) :
    after.Calm key := fun observer inside receptive registered kind same =>
  Nat.le_zero.mp ((le kind).trans
    (calm observer (later.mem inside receptive) receptive registered kind same).le)

theorem Open.of_kindAt (isOpen : before.Open) (later : Later after before)
    (kinds : ∀ key, kindAt after.contents key = some .sortedSet →
      kindAt before.contents key = some .sortedSet) : after.Open :=
  fun observer inside receptive move target sortedSet =>
    isOpen observer (later.mem inside receptive) receptive move target (kinds move.1 sortedSet)

variable {waiters rest : List Nat}

theorem Sound.replace (sound : before.Sound) (later : Later after before)
    (queue : before.queues.lookup key = some waiters)
    (queues : after.queues = before.queues.insert key rest) (fewer : rest ⊆ waiters)
    (kept : ∀ (number : Nat) (observer : Observer Score), number ∈ waiters →
      after.observers[number]? = some observer → observer.isReceptive → number ∈ rest) :
    after.Sound where
  queued := by
    intro number observer other here receptive registered
    obtain ⟨earlier, earlierHere, -, same⟩ := later.same number observer here
    have unchanged := same receptive
    subst unchanged
    obtain ⟨old, oldQueue, inside⟩ := sound.queued earlierHere receptive registered
    rw [queues]
    obtain rfl | sameKey := eq_or_ne other key
    · cases queue.symm.trans oldQueue
      exact ⟨rest, AList.lookup_insert _, kept number observer inside here receptive⟩
    · exact ⟨old, (AList.lookup_insert_ne sameKey).trans oldQueue, inside⟩
  named := by
    intro other found number lookup inside
    rw [queues] at lookup
    obtain rfl | sameKey := eq_or_ne other key
    · rw [AList.lookup_insert] at lookup
      cases lookup
      exact later.registered (sound.named queue (fewer inside))
    · rw [AList.lookup_insert_ne sameKey] at lookup
      exact later.registered (sound.named lookup inside)
  alike := fun observer inside other otherInside receptive otherReceptive =>
    sound.alike observer (later.mem inside receptive) other (later.mem otherInside otherReceptive)
      receptive otherReceptive

theorem Sound.collect (sound : before.Sound) (key : Bytes) : (before.collect key).Sound := by
  unfold Broker.collect
  split
  · rename_i empty
    refine ⟨fun here receptive registered => ?_, fun lookup inside => ?_, sound.alike⟩
    · obtain ⟨waiters, queue, inside⟩ := sound.queued here receptive registered
      refine ⟨waiters, ?_, inside⟩
      rw [AList.lookup_erase_ne fun same => ?_, queue]
      subst same
      rw [empty] at queue
      cases queue
      cases inside
    · rename_i other waiters number
      obtain rfl | same := eq_or_ne other key
      · rw [AList.lookup_erase] at lookup
        cases lookup
      · rw [AList.lookup_erase_ne same] at lookup
        exact sound.named lookup inside
  · exact sound

variable (broker : Broker Score)

theorem collect_contents (key : Bytes) : (broker.collect key).contents = broker.contents := by
  unfold Broker.collect
  split <;> rfl

theorem collect_observers (key : Bytes) : (broker.collect key).observers = broker.observers := by
  unfold Broker.collect
  split <;> rfl

theorem receptive_iff {broker : Broker Score} : broker.receptive number ↔
      ∃ observer, broker.observers[number]? = some observer ∧ observer.isReceptive := by
  unfold receptive
  cases broker.observers[number]? <;> simp

theorem Later.set (here : before.observers[number]? = some observer) {status : Status Score}
    (ended : status.isWaiting = false)
    (observers : after.observers = before.observers.set number { observer with status }) :
    Later after before := by
  refine ⟨by rw [observers, length_set], fun other found foundHere => ?_⟩
  rw [observers, getElem?_set] at foundHere
  obtain rfl | same := eq_or_ne number other
  · obtain ⟨inside, -⟩ := getElem?_eq_some_iff.mp here
    simp only [if_true, inside, Option.some.injEq] at foundHere
    subst foundHere
    exact ⟨observer, here, rfl, fun receptive => by simp [Observer.isReceptive, ended] at receptive⟩
  · rw [if_neg same] at foundHere
    exact ⟨found, foundHere, rfl, fun _ => rfl⟩

theorem receptiveCount_set
    (here : before.observers[number]? = some observer) (receptive : observer.isReceptive)
    (gone : ended.isReceptive = false)
    (observers : after.observers = before.observers.set number ended) :
    after.receptiveCount < before.receptiveCount := by
  obtain ⟨inside, same⟩ := getElem?_eq_some_iff.mp here
  unfold receptiveCount
  have positive : 0 < before.observers.countP Observer.isReceptive :=
    countP_pos_iff.mpr ⟨observer, mem_of_getElem? here, receptive⟩
  rw [observers, countP_set inside, same, receptive, gone]
  simp only [if_true, Bool.false_eq_true, if_false]
  omega

/-- At most one observer waits at `key`. -/
def Lone (key : Bytes) : Prop :=
  ∀ (first second : Nat) (observer other : Observer Score),
    broker.observers[first]? = some observer → broker.observers[second]? = some other →
      observer.isReceptive = true → other.isReceptive = true → key ∈ observer.keys →
        key ∈ other.keys → first = second

def Ended (after before : Broker Score) (key : Bytes) : Prop :=
  ∃ (number : Nat) (observer : Observer Score), before.observers[number]? = some observer ∧
    observer.isReceptive = true ∧ key ∈ observer.keys ∧
      ∀ later, after.observers[number]? = some later → later.isReceptive = false

theorem Ended.later {last : Broker Score} (ended : Ended after before key)
    (later : Later last after) : Ended last before key := by
  obtain ⟨number, observer, here, receptive, registered, gone⟩ := ended
  refine ⟨number, observer, here, receptive, registered, fun lastObserver lastHere => ?_⟩
  obtain ⟨earlier, earlierHere, -, same⟩ := later.same number lastObserver lastHere
  rw [← Bool.not_eq_true]
  intro stillReceptive
  have unchanged := same stillReceptive
  rw [unchanged, gone earlier earlierHere] at stillReceptive
  cases stillReceptive

theorem Ended.calm (ended : Ended after before key) (later : Later after before)
    (lone : before.Lone key) : after.Calm key := by
  intro observer inside receptive registered
  obtain ⟨number, first, here, firstReceptive, firstRegistered, gone⟩ := ended
  obtain ⟨other, otherHere⟩ := mem_iff_getElem?.mp inside
  obtain ⟨earlier, earlierHere, -, same⟩ := later.same other observer otherHere
  have unchanged := same receptive
  subst unchanged
  obtain rfl := lone number other first observer here earlierHere firstReceptive receptive
    firstRegistered registered
  rw [gone observer otherHere] at receptive
  cases receptive

inductive HeadCase (before : Broker Score) (key : Bytes) :
    Bool × Option Bytes × Broker Score → Prop
  | idle {after : Broker Score} (sound : after.Sound)
      (observers : after.observers = before.observers)
      (shrinks : Shrinks after.contents before.contents) (calm : after.Calm key) :
      HeadCase before key (false, none, after)
  | popped {after : Broker Score} (kind : CollectionKind) (sound : after.Sound)
      (later : Later after before) (ended : Ended after before key)
      (fewer : after.receptiveCount < before.receptiveCount)
      (shrinks : Shrinks after.contents before.contents)
      (waited : ∀ observer ∈ before.observers, observer.isReceptive = true →
        key ∈ observer.keys → observer.kind = some kind)
      (less : available after.contents key kind < available before.contents key kind) :
      HeadCase before key (true, none, after)
  | moved {after : Broker Score} (dst : Bytes) (sound : after.Sound) (later : Later after before)
      (ended : Ended after before key)
      (fewer : after.receptiveCount < before.receptiveCount)
      (head : ∃ observer ∈ before.observers, observer.isReceptive = true ∧ key ∈ observer.keys ∧
        observer.kind = some .list)
      (waited : ∀ observer ∈ before.observers, observer.isReceptive = true →
        key ∈ observer.keys → observer.kind = some .list)
      (carries : Carries after.contents before.contents key dst) :
      HeadCase before key (true, some dst, after)

structure Served (after before : Broker Score) (key : Bytes) (assigned : Bool) : Prop where
  sound : after.Sound
  isOpen : after.Open
  later : Later after before
  others : ∀ other, other ≠ key → before.Calm other → after.Calm other
  calm : before.Calm key → after.Calm key
  ended : assigned = false → after.Calm key
  single : (∀ kind, available before.contents key kind ≤ 1) → after.Calm key
  lone : before.Lone key → after.Calm key
  count_le : after.receptiveCount ≤ before.receptiveCount
  count_lt : assigned = true → after.receptiveCount < before.receptiveCount

theorem Calm.collect {broker : Broker Score} {other : Bytes} (calm : broker.Calm other)
    (key : Bytes) : (broker.collect key).Calm other := by
  unfold Calm at calm ⊢
  rw [collect_contents, collect_observers]
  exact calm

theorem Served.collect {assigned : Bool} (served : Served after before key assigned) :
    Served (after.collect key) before key assigned where
  sound := served.sound.collect key
  isOpen := by
    unfold Open
    rw [collect_contents, collect_observers]
    exact served.isOpen
  later := (Later.of_eq (collect_observers after key)).trans served.later
  others other different calm := (served.others other different calm).collect key
  calm calm := (served.calm calm).collect key
  ended none := (served.ended none).collect key
  single one := (served.single one).collect key
  lone lone := (served.lone lone).collect key
  count_le := by
    unfold receptiveCount
    rw [collect_observers]
    exact served.count_le
  count_lt assigned := by
    unfold receptiveCount
    rw [collect_observers]
    exact served.count_lt assigned

theorem calm_or_single {dst : Bytes} (carries : Carries after.contents before.contents key dst)
    (later : Later after before) (different : key ≠ dst) (calm : before.Calm dst) :
    after.Calm dst ∨ ∀ kind, available after.contents dst kind ≤ 1 := by
  have noSortedSet : available after.contents dst .sortedSet = 0 :=
    available_of_kindAt (carries.kinds different).1 (fun wrong => by cases wrong)
  by_cases waited : ∃ observer ∈ after.observers, observer.isReceptive ∧
      dst ∈ observer.keys ∧ observer.kind = some .list
  · obtain ⟨observer, inside, receptive, registered, list⟩ := waited
    have empty := calm observer (later.mem inside receptive) receptive registered .list list
    refine .inr fun kind => ?_
    cases kind with
    | list => rw [carries.gained different, empty]
    | sortedSet => rw [noSortedSet]; exact Nat.zero_le 1
  · refine .inl fun observer inside receptive registered kind same => ?_
    cases kind with
    | list => exact absurd ⟨observer, inside, receptive, registered, same⟩ waited
    | sortedSet => exact noSortedSet

theorem Sound.calm_of_empty (sound : before.Sound) (empty : before.queues.entries.isEmpty)
    (key : Bytes) : before.Calm key := by
  intro observer inside receptive registered
  obtain ⟨number, here⟩ := mem_iff_getElem?.mp inside
  obtain ⟨waiters, queue, -⟩ := sound.queued here receptive registered
  have found := AList.mem_lookup_iff.mp queue
  rw [isEmpty_iff.mp empty] at found
  cases found

variable [LinearOrder Score]

theorem assignHead_cases (sound : before.Sound) (isOpen : before.Open)
    (queue : before.queues.lookup key = some waiters) :
    HeadCase before key (before.assignHead key waiters) := by
  have dropped : waiters.dropWhile (fun number => !before.receptive number) ⊆ waiters :=
    (dropWhile_suffix _).subset
  have live number observer (inside : number ∈ waiters)
      (here : before.observers[number]? = some observer)
      (receptive : observer.isReceptive) :
      number ∈ waiters.dropWhile fun number => !before.receptive number := by
    rw [← takeWhile_append_dropWhile (p := fun number => !before.receptive number)
      (l := waiters), mem_append] at inside
    refine inside.resolve_left fun taken => ?_
    have dead := all_eq_true.mp all_takeWhile number taken
    rw [receptive_iff.mpr ⟨observer, here, receptive⟩] at dead
    cases dead
  unfold assignHead
  cases rest : waiters.dropWhile fun number => !before.receptive number with
  | nil =>
    rw [rest] at live
    refine .idle (sound.replace (Later.of_eq rfl) queue rfl (nil_subset _)
      fun number observer inside here receptive => live number observer inside here receptive) rfl
      (Shrinks.refl _) fun observer inside receptive registered => ?_
    obtain ⟨number, here⟩ := mem_iff_getElem?.mp inside
    obtain ⟨others, otherQueue, number_mem⟩ := sound.queued here receptive registered
    cases queue.symm.trans otherQueue
    cases live number observer number_mem here receptive
  | cons number others =>
    rw [rest] at dropped live
    have alive : before.receptive number := by
      have nonempty : waiters.dropWhile (fun number => !before.receptive number) ≠ [] := by
        rw [rest]
        exact cons_ne_nil _ _
      simpa [rest] using head_dropWhile_not _ nonempty
    obtain ⟨observer, here, receptive⟩ := receptive_iff.mp alive
    have inside : observer ∈ before.observers := mem_of_getElem? here
    have registered : key ∈ observer.keys := by
      obtain ⟨found, foundHere, inside⟩ := sound.named queue (dropped mem_cons_self)
      cases here.symm.trans foundHere
      exact inside
    have sameKind other (otherInside : other ∈ before.observers)
        (otherReceptive : other.isReceptive) (otherRegistered : key ∈ other.keys) :
        other.kind = observer.kind :=
      (sound.alike observer inside other otherInside receptive otherReceptive key registered
        otherRegistered).symm
    dsimp only
    rw [here]
    dsimp only
    have given := popForObserver_given before.contents key observer false
    generalize popForObserver before.contents key observer false = pop at given
    obtain ⟨answer, contents⟩ := pop
    have assigned result :
        let after : Broker Score :=
          ⟨contents, before.observers.set number { observer with status := .resultSet result },
            before.queues.insert key others⟩
        after.Sound ∧ Later after before ∧ Ended after before key ∧
          after.receptiveCount < before.receptiveCount := by
      intro after
      have later : Later after before := Later.set here rfl rfl
      have ended : after.observers[number]? = some { observer with status := .resultSet result } :=
        getElem?_set_self (getElem?_eq_some_iff.mp here).1
      refine ⟨sound.replace later queue rfl
        (fun _ inside => dropped (mem_cons_of_mem number inside))
        fun other found otherInside foundHere foundReceptive => ?_, later,
        ⟨number, observer, here, receptive, registered, fun found foundHere => ?_⟩,
        receptiveCount_set here receptive rfl rfl⟩
      swap
      · cases ended.symm.trans foundHere
        rfl
      obtain ⟨earlier, earlierHere, -, same⟩ := later.same other found foundHere
      have unchanged := same foundReceptive
      subst unchanged
      have waits := live other found otherInside earlierHere foundReceptive
      refine (mem_cons.mp waits).resolve_left fun sameNumber => ?_
      subst sameNumber
      cases ended.symm.trans foundHere
      cases foundReceptive
    cases given with
    | nothing none shrinks unanswered =>
      split
      · rename_i result after same
        cases same
        exact absurd rfl (unanswered result)
      · rename_i same
        cases same
        refine .idle (sound.replace (Later.of_eq rfl) queue rfl dropped live) rfl shrinks
          fun other otherInside otherReceptive otherRegistered kind kindSame => ?_
        have zero := none kind
          ((sameKind other otherInside otherReceptive otherRegistered).symm.trans kindSame)
        exact Nat.le_zero.mp ((shrinks.available_le key kind).trans zero.le)
    | mismatch answered shrinks cause =>
      obtain wrong | ⟨dst, ends, target, sortedSet⟩ := cause
      · cases wrong
      · exact absurd sortedSet (isOpen observer inside receptive (dst, ends) target)
    | popped result kind kindSame answered stays shrinks fewer =>
      subst answered
      dsimp only
      rw [stays]
      obtain ⟨soundAfter, later, ended, count⟩ := assigned result
      exact .popped kind soundAfter later ended count shrinks
        (fun other otherInside otherReceptive otherRegistered =>
          (sameKind other otherInside otherReceptive otherRegistered).trans kindSame) fewer
    | moved result dst ends target answered forward carries =>
      subst answered
      dsimp only
      rw [forward]
      have list : observer.kind = some .list := by simp [Observer.kind, target]
      obtain ⟨soundAfter, later, ended, count⟩ := assigned result
      exact .moved dst soundAfter later ended count ⟨observer, inside, receptive, registered, list⟩
        (fun other otherInside otherReceptive otherRegistered =>
          (sameKind other otherInside otherReceptive otherRegistered).trans list) carries

theorem tryAssign_served (fuel : Nat) (key : Bytes) (before : Broker Score)
    (sound : before.Sound) (isOpen : before.Open) (enough : before.receptiveCount < fuel) :
    Served (tryAssign fuel key before).2 before key (tryAssign fuel key before).1 := by
  induction fuel generalizing key before with
  | zero => omega
  | succ fuel ih =>
    unfold tryAssign
    cases queue : before.queues.lookup key with
    | none =>
      have nobody : before.Calm key := fun observer inside receptive registered => by
        obtain ⟨number, here⟩ := mem_iff_getElem?.mp inside
        obtain ⟨waiters, other, -⟩ := sound.queued here receptive registered
        rw [queue] at other
        cases other
      exact ⟨sound, isOpen, Later.of_eq rfl, fun _ _ => id, id, fun _ => nobody, fun _ => nobody,
        fun _ => nobody, le_rfl, fun wrong => by cases wrong⟩
    | some waiters =>
      have head := assignHead_cases sound isOpen queue
      dsimp only
      revert head
      generalize before.assignHead key waiters = outcome
      intro head
      cases head with
      | @idle after soundAfter observers shrinks calm =>
        have later : Later after before := Later.of_eq observers
        refine Served.collect ⟨soundAfter,
          isOpen.of_kindAt later fun other => shrinks.kindAt_of other .sortedSet,
          later, fun other _ calm => calm.of_le later (shrinks.available_le other), fun _ => calm,
          fun _ => calm, fun _ => calm, fun _ => calm, ?_, fun wrong => by cases wrong⟩
        unfold receptiveCount
        rw [observers]
      | @popped after kind soundAfter later ended fewer shrinks waited less =>
        dsimp only
        refine Served.collect ⟨soundAfter,
          isOpen.of_kindAt later fun other => shrinks.kindAt_of other .sortedSet,
          later, fun other _ calm => calm.of_le later (shrinks.available_le other),
          fun calm => calm.of_le later (shrinks.available_le key), fun wrong => (by cases wrong),
          fun one observer inside receptive registered other same => ?_, ended.calm later,
          fewer.le, fun _ => fewer⟩
        have kindSame := waited observer (later.mem inside receptive) receptive registered
        cases kindSame.symm.trans same
        have atMost := one kind
        omega
      | @moved after dst soundAfter later ended fewer head waited carries =>
        have openAfter : after.Open := isOpen.of_kindAt later fun other => carries.kindAt_of
        have rest := ih dst after soundAfter openAfter (by omega)
        have fewerRest := rest.count_le
        dsimp only
        refine Served.collect ⟨rest.sound, rest.isOpen, rest.later.trans later,
          fun other different calm => ?_, fun calm => ?_, fun wrong => (by cases wrong),
          fun one => ?_, (ended.later rest.later).calm (rest.later.trans later), by omega,
          fun _ => by omega⟩
        · obtain rfl | isDst := eq_or_ne other dst
          · exact (calm_or_single carries later (Ne.symm different) calm).elim rest.calm rest.single
          · refine rest.others other isDst (calm.of_le later fun kind => ?_)
            exact (available_congr (carries.others other different isDst) kind).le
        · obtain ⟨observer, inside, receptive, registered, list⟩ := head
          exact absurd (calm observer inside receptive registered .list list) carries.source
        · obtain rfl | within := eq_or_ne key dst
          · exact rest.single fun kind =>
              ((carries.within rfl).available_le key kind).trans (one kind)
          · refine rest.others key within fun observer inside receptive registered kind same => ?_
            have kindSame := waited observer (later.mem inside receptive) receptive registered
            cases kindSame.symm.trans same
            have left := carries.left within
            have atMost := one .list
            omega

theorem tryAssignLocked_served (sound : before.Sound) (isOpen : before.Open) (key : Bytes) :
    Served (before.tryAssignLocked key).2 before key (before.tryAssignLocked key).1 :=
  tryAssign_served _ key before sound isOpen (Nat.lt_succ_self _)

structure Settled (after before : Broker Score) (key : Bytes) : Prop where
  sound : after.Sound
  later : Later after before
  others : ∀ other, other ≠ key → before.Calm other → after.Calm other
  calm : after.Calm key

theorem assignAll_settled (fuel : Nat) (key : Bytes) (before : Broker Score)
    (sound : before.Sound) (isOpen : before.Open) (enough : before.receptiveCount < fuel) :
    Settled (assignAll key fuel before) before key := by
  induction fuel generalizing before with
  | zero => omega
  | succ fuel ih =>
    have served := tryAssignLocked_served sound isOpen key
    unfold assignAll
    revert served
    generalize before.tryAssignLocked key = outcome
    obtain ⟨assigned, after⟩ := outcome
    intro served
    cases assigned with
    | false => exact ⟨served.sound, served.later, served.others, served.ended rfl⟩
    | true =>
      have fewer : after.receptiveCount < before.receptiveCount := served.count_lt rfl
      have rest := ih after served.sound served.isOpen (by omega)
      exact ⟨rest.sound, rest.later.trans served.later, fun other different calm =>
          rest.others other different (served.others other different calm),
        rest.calm⟩

end

end Broker

end Wedb.Collections
