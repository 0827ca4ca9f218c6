/-
When can an observer sleep on an element it could have? The broker asks only the head of a queue,
serves one observer for an update reported once, and fails where a move leads to a sorted set.
-/

import Wedb.BrokerService

namespace Wedb.Collections

open Resp List

variable {Score : Type}

namespace Broker

section

variable {before after : Broker Score} {key : Bytes}

/-- Nobody waits for something that is there. -/
structure Healthy (broker : Broker Score) : Prop where
  sound : broker.Sound
  calm : ∀ key, broker.Calm key

theorem Sound.of_later (sound : before.Sound) (later : Later after before)
    (queues : after.queues = before.queues) : after.Sound where
  queued := by
    intro number observer key here receptive registered
    obtain ⟨earlier, earlierHere, -, same⟩ := later.same number observer here
    have unchanged := same receptive
    subst unchanged
    rw [queues]
    exact sound.queued earlierHere receptive registered
  named lookup inside := later.registered (sound.named (queues ▸ lookup) inside)
  alike observer inside other otherInside receptive otherReceptive :=
    sound.alike observer (later.mem inside receptive) other (later.mem otherInside otherReceptive)
      receptive otherReceptive

variable {number : Nat}

theorem Later.modify {change : Observer Score → Observer Score}
    (observers : after.observers = before.observers.modify number change)
    (keys : ∀ observer, (change observer).keys = observer.keys)
    (ends : ∀ observer, (change observer).isReceptive → change observer = observer) :
    Later after before := by
  refine ⟨by rw [observers, length_modify], fun other found here => ?_⟩
  rw [observers, getElem?_modify] at here
  cases earlier : before.observers[other]? with
  | none => simp [earlier] at here
  | some observer =>
    simp only [earlier, Option.map_eq_map, Option.map_some, Option.some.injEq] at here
    refine ⟨observer, rfl, ?_⟩
    split at here
    · subst here
      exact ⟨keys observer, ends observer⟩
    · subst here
      exact ⟨rfl, fun _ => rfl⟩

theorem Healthy.of_later (healthy : before.Healthy) (later : Later after before)
    (queues : after.queues = before.queues)
    (shrinks : Shrinks after.contents before.contents) : after.Healthy :=
  ⟨healthy.sound.of_later later queues,
    fun key => (healthy.calm key).of_le later (shrinks.available_le key)⟩

variable {status : Status Score} (broker : Broker Score)

theorem settle_later (number : Nat)
    (ended : status.isWaiting = false) : Later (broker.settle number status) broker := by
  have modified : (broker.settle number status).observers =
    broker.observers.modify number (Observer.settle status) := rfl
  refine Later.modify modified (fun observer => ?_) (fun observer receptive => ?_)
  · unfold Observer.settle
    split <;> rfl
  · unfold Observer.settle at receptive ⊢
    split at receptive
    · simp [Observer.isReceptive, ended] at receptive
    · rename_i waiting
      rw [if_neg waiting]

theorem settle_gone (number : Nat) (ended : status.isWaiting = false) :
    (broker.settle number status).receptive number = false := by
  unfold receptive settle
  rw [getElem?_modify]
  cases broker.observers[number]? with
  | none => rfl
  | some observer =>
    simp only [if_true, Option.map_eq_map, Option.map_some, Option.any_some]
    unfold Observer.settle
    split
    · simp [Observer.isReceptive, ended]
    · rename_i waiting
      simp [Observer.isReceptive, waiting]

theorem Healthy.retain (healthy : before.Healthy) {keep : Nat → Bool}
    (kept : ∀ number, before.receptive number → keep number) (keys : List Bytes) :
    (keys.foldl (Broker.retain keep) before).Healthy := by
  induction keys generalizing before with
  | nil => exact healthy
  | cons key keys ih =>
    rw [foldl_cons, Broker.retain]
    split
    · exact ih healthy kept
    · rename_i waiters queue
      have sound : (before.setQueue key (waiters.filter keep)).Sound :=
        healthy.sound.replace (Later.of_eq rfl) queue rfl (filter_subset_self _)
          fun other observer inside here receptive =>
            mem_filter.mpr ⟨inside, kept other (receptive_iff.mpr ⟨observer, here, receptive⟩)⟩
      have calm other : (before.setQueue key (waiters.filter keep)).Calm other := healthy.calm other
      refine ih ⟨sound.collect key, fun other => (calm other).collect key⟩ fun number waits => ?_
      unfold receptive at waits
      rw [collect_observers] at waits
      exact kept number waits

theorem Healthy.timeout (healthy : before.Healthy)
    (ended : status.isWaiting = false) (keys : List Bytes) :
    (keys.foldl (deregisterObserver number) (before.settle number status)).Healthy := by
  have settled : (before.settle number status).Healthy :=
    healthy.of_later (before.settle_later number ended) rfl (Shrinks.refl _)
  refine settled.retain (fun other waits => decide_eq_true (?_ : other ≠ number)) keys
  rintro rfl
  rw [before.settle_gone other ended] at waits
  cases waits

variable [LinearOrder Score]

inductive Probed (before : Contents Score) (observer : Observer Score)
    (result : CollectionItemResult Score) (after : Contents Score) : Prop
  | stays (forward : observer.forward result = none) (shrinks : Shrinks after before)
  | moved (middle : Contents Score) (key dst : Bytes) (forward : observer.forward result = some dst)
      (shrinks : Shrinks middle before) (carries : Carries after middle key dst)

theorem popAtOnce_cases (before : Contents Score) (key : Bytes) (observer : Observer Score) :
    let pop := popAtOnce before key observer
    pop.1 = none ∧ Shrinks pop.2 before ∧
        (∀ kind, observer.kind = some kind → available pop.2 key kind = 0) ∨
      ∃ result, pop.1 = some result ∧ Probed before observer result pop.2 := by
  have given := popForObserver_given before key observer true
  unfold popAtOnce
  generalize popForObserver before key observer true = pop at given ⊢
  obtain ⟨answer, after⟩ := pop
  cases given with
  | nothing none shrinks unanswered =>
    split
    · rename_i result _ same
      cases same
      exact absurd rfl (unanswered result)
    · rename_i same
      cases same
      exact .inl ⟨rfl, shrinks, fun kind same =>
        Nat.le_zero.mp ((shrinks.available_le key kind).trans (none kind same).le)⟩
  | mismatch answered shrinks =>
    cases answered
    exact .inr ⟨_, rfl, .stays rfl shrinks⟩
  | popped result kind sameKind answered stays shrinks fewer =>
    cases answered
    exact .inr ⟨_, rfl, .stays stays shrinks⟩
  | moved result dst ends target answered forward carries =>
    cases answered
    exact .inr ⟨_, rfl, .moved _ key dst forward (Shrinks.refl _) carries⟩

theorem probeKey_cases (sound : before.Sound) (observer : Observer Score) (key : Bytes) :
    let probed := before.probeKey observer key
    probed.2.Sound ∧ probed.2.observers = before.observers ∧
      (probed.1 = none ∧ Shrinks probed.2.contents before.contents ∧
          ((∃ other ∈ before.observers, other.isReceptive ∧ key ∈ other.keys) ∨
            ∀ kind, observer.kind = some kind → available probed.2.contents key kind = 0) ∨
        ∃ result, probed.1 = some result ∧
          Probed before.contents observer result probed.2.contents) := by
  have outcome := popAtOnce_cases before.contents key observer
  unfold probeKey
  generalize popAtOnce before.contents key observer = pop at outcome ⊢
  obtain ⟨answer, contents⟩ := pop
  have found : answer = none ∧ Shrinks contents before.contents ∧
      ((∃ other ∈ before.observers, other.isReceptive ∧ key ∈ other.keys) ∨
        ∀ kind, observer.kind = some kind → available contents key kind = 0) ∨
      ∃ result, answer = some result ∧ Probed before.contents observer result contents :=
    outcome.imp_left (And.imp_right (And.imp_right .inr))
  cases queue : before.queues.lookup key with
  | none => exact ⟨sound.of_later (Later.of_eq rfl) rfl, rfl, found⟩
  | some waiters =>
    dsimp only
    cases live : waiters.filter before.receptive with
    | nil =>
      have cleared : Sound { before.setQueue key [] with contents } := by
        refine sound.replace (Later.of_eq rfl) queue rfl (nil_subset _)
          fun number waiting inside here receptive => ?_
        rw [← live]
        exact mem_filter.mpr ⟨inside, receptive_iff.mpr ⟨waiting, here, receptive⟩⟩
      dsimp only
      split
      · refine ⟨cleared.collect key, collect_observers _ key, ?_⟩
        rw [collect_contents]
        exact found
      · exact ⟨cleared, rfl, found⟩
    | cons number earlier =>
      dsimp only
      rw [← live]
      have waits := mem_filter.mp (live ▸ mem_cons_self : number ∈ waiters.filter _)
      obtain ⟨other, here, receptive⟩ := receptive_iff.mp waits.2
      obtain ⟨_, sameHere, registered⟩ := sound.named queue waits.1
      cases here.symm.trans sameHere
      refine ⟨sound.replace (Later.of_eq rfl) queue rfl (filter_subset_self _)
        fun number waiting inside here receptive => mem_filter.mpr
          ⟨inside, receptive_iff.mpr ⟨waiting, here, receptive⟩⟩, rfl, .inl ⟨rfl,
        Shrinks.refl _, .inl ⟨other, mem_of_getElem? here, receptive, registered⟩⟩⟩

theorem probeKeys_cases (sound : before.Sound) (observer : Observer Score) (keys : List Bytes) :
    let probed := probeKeys observer keys before
    probed.2.Sound ∧ probed.2.observers = before.observers ∧
      (probed.1 = none ∧ Shrinks probed.2.contents before.contents ∧ (∀ key ∈ keys,
            (∃ other ∈ before.observers, other.isReceptive ∧ key ∈ other.keys) ∨
              ∀ kind, observer.kind = some kind → available probed.2.contents key kind = 0) ∨
        ∃ result, probed.1 = some result ∧
          Probed before.contents observer result probed.2.contents) := by
  induction keys generalizing before with
  | nil => exact ⟨sound, rfl, .inl ⟨rfl, Shrinks.refl _, fun key wrong => by cases wrong⟩⟩
  | cons key keys ih =>
    unfold probeKeys
    obtain ⟨soundAfter, observers, outcome⟩ := probeKey_cases sound observer key
    revert soundAfter observers outcome
    generalize before.probeKey observer key = probed
    obtain ⟨answer, middle⟩ := probed
    intro soundMiddle observers outcome
    cases answer with
    | some result =>
      obtain ⟨wrong, -⟩ | hit := outcome
      · cases wrong
      · exact ⟨soundMiddle, observers, .inr hit⟩
    | none =>
      obtain ⟨-, shrinks, first⟩ | ⟨result, wrong, -⟩ := outcome
      · obtain ⟨soundAfter, sameObservers, rest⟩ := ih soundMiddle
        have same := sameObservers.trans observers
        refine ⟨soundAfter, same, ?_⟩
        obtain ⟨none, shrinksAfter, others⟩ | ⟨result, answered, found⟩ := rest
        · refine .inl ⟨none, shrinksAfter.trans shrinks, fun other inside => ?_⟩
          rw [observers] at others
          obtain rfl | inside := mem_cons.mp inside
          · exact first.imp_right fun nothing kind sameKind => Nat.le_zero.mp
              ((shrinksAfter.available_le other kind).trans (nothing kind sameKind).le)
          · exact others other inside
        · refine .inr ⟨result, answered, ?_⟩
          cases found with
          | stays forward shrinksAfter => exact .stays forward (shrinksAfter.trans shrinks)
          | moved moving key dst forward shrinksAfter carries =>
            exact .moved moving key dst forward (shrinksAfter.trans shrinks) carries
      · cases wrong

omit [LinearOrder Score] in
theorem available_le_of_carries {after before : Contents Score} {src dst other : Bytes}
    (carries : Carries after before src dst) (different : other ≠ dst) (kind : CollectionKind) :
    available after other kind ≤ available before other kind := by
  by_cases within : src = dst
  · exact (carries.within within).available_le other kind
  · obtain rfl | isSrc := eq_or_ne other src
    · cases kind with
      | list =>
        have left := carries.left within
        omega
      | sortedSet =>
        refine le_of_eq_of_le ?_ (Nat.zero_le _)
        cases found : kindAt after other with
        | none =>
          have missing : after other = none := by simpa [kindAt] using found
          simp [available, missing]
        | some kind =>
          cases (carries.kinds within).2 kind found
          exact available_of_kindAt found fun wrong => by cases wrong
    · exact (available_congr (carries.others other isSrc different) kind).le

theorem Healthy.carried (healthy : before.Healthy) (isOpen : before.Open)
    (observers : after.observers = before.observers) (queues : after.queues = before.queues)
    {src dst : Bytes} (carries : Carries after.contents before.contents src dst) :
    (after.tryAssignLocked dst).2.Healthy := by
  have later : Later after before := Later.of_eq observers
  have served := tryAssignLocked_served (healthy.sound.of_later later queues)
    (isOpen.of_kindAt later fun _ => carries.kindAt_of) dst
  refine ⟨served.sound, fun other => ?_⟩
  obtain rfl | isDst := eq_or_ne other dst
  · by_cases within : src = other
    · exact served.calm ((healthy.calm other).of_le later
        ((carries.within within).available_le other))
    · exact (calm_or_single carries later within (healthy.calm other)).elim served.calm
        served.single
  · exact served.others other isDst ((healthy.calm other).of_le later
      (available_le_of_carries carries isDst))

omit [LinearOrder Score] in
theorem Healthy.append_ended (healthy : before.Healthy) {ended : Observer Score}
    (gone : ended.isReceptive = false)
    (observers : after.observers = before.observers ++ [ended])
    (queues : after.queues = before.queues)
    (shrinks : Shrinks after.contents before.contents) : after.Healthy := by
  have old observer (inside : observer ∈ after.observers)
      (receptive : observer.isReceptive) : observer ∈ before.observers := by
    rw [observers, mem_append, mem_singleton] at inside
    refine inside.resolve_right fun same => ?_
    rw [same, gone] at receptive
    cases receptive
  refine ⟨⟨?_, ?_, ?_⟩, fun key observer inside receptive registered kind same => ?_⟩
  · intro number observer key here receptive registered
    rw [observers, getElem?_append] at here
    rw [queues]
    split at here
    · exact healthy.sound.queued here receptive registered
    · rw [getElem?_singleton] at here
      split at here
      · cases here
        rw [gone] at receptive
        cases receptive
      · cases here
  · intro key waiters number lookup inside
    obtain ⟨observer, here, registered⟩ := healthy.sound.named (queues ▸ lookup) inside
    refine ⟨observer, ?_, registered⟩
    rw [observers, List.getElem?_append_left (List.getElem?_eq_some_iff.mp here).1]
    exact here
  · exact fun observer inside other otherInside receptive otherReceptive =>
      healthy.sound.alike observer (old observer inside receptive) other
        (old other otherInside otherReceptive) receptive otherReceptive
  · exact Nat.le_zero.mp ((shrinks.available_le key kind).trans
      (healthy.calm key observer (old observer inside receptive) receptive registered kind same).le)

omit [LinearOrder Score] in
theorem pushBack_queues (number : Nat) (keys : List Bytes) (before : Broker Score) :
    let after := keys.foldl (pushBack number) before
    after.observers = before.observers ∧ after.contents = before.contents ∧
      (∀ key waiters, before.queues.lookup key = some waiters →
        ∃ longer, after.queues.lookup key = some longer ∧ waiters ⊆ longer) ∧
      (∀ key ∈ keys, ∃ waiters, after.queues.lookup key = some waiters ∧ number ∈ waiters) ∧
      ∀ key waiters other, after.queues.lookup key = some waiters → other ∈ waiters →
        other = number ∧ key ∈ keys ∨
          ∃ earlier, before.queues.lookup key = some earlier ∧ other ∈ earlier := by
  induction keys generalizing before with
  | nil =>
    exact ⟨rfl, rfl, fun _ waiters found => ⟨waiters, found, List.Subset.refl _⟩,
      fun _ wrong => (by cases wrong),
      fun _ waiters _ found inside => .inr ⟨waiters, found, inside⟩⟩
  | cons first keys ih =>
    obtain ⟨observers, contents, longer, joined, named⟩ := ih (pushBack number before first)
    have atFirst : (pushBack number before first).queues.lookup first =
        some ((before.queues.lookup first).getD [] ++ [number]) := AList.lookup_insert _
    have elsewhere key (different : key ≠ first) :
        (pushBack number before first).queues.lookup key = before.queues.lookup key :=
      AList.lookup_insert_ne different
    refine ⟨observers, contents, fun key waiters found => ?_, fun key inside => ?_,
      fun key waiters other found inside => ?_⟩
    · obtain rfl | same := eq_or_ne key first
      · rw [found] at atFirst
        obtain ⟨last, lastFound, subset⟩ := longer key _ atFirst
        exact ⟨last, lastFound, fun _ inside => subset (mem_append_left _ inside)⟩
      · exact longer key waiters ((elsewhere key same).trans found)
    · obtain rfl | inside := mem_cons.mp inside
      · obtain ⟨last, lastFound, subset⟩ := longer key _ atFirst
        exact ⟨last, lastFound, subset (mem_append_right _ (mem_singleton_self _))⟩
      · exact joined key inside
    · obtain ⟨rfl, registered⟩ | ⟨earlier, earlierFound, earlierInside⟩ :=
        named key waiters other found inside
      · exact .inl ⟨rfl, mem_cons_of_mem _ registered⟩
      · obtain rfl | same := eq_or_ne key first
        · rw [atFirst] at earlierFound
          cases earlierFound
          obtain old | isNew := mem_append.mp earlierInside
          · cases queue : before.queues.lookup key with
            | none => simp [queue] at old
            | some waiters => exact .inr ⟨waiters, rfl, by simpa [queue] using old⟩
          · exact .inl ⟨mem_singleton.mp isNew, mem_cons_self⟩
        · exact .inr ⟨earlier, (elsewhere key same).symm.trans earlierFound, earlierInside⟩

omit [LinearOrder Score] in
theorem Healthy.mount (healthy : before.Healthy) {observer : Observer Score}
    (alike : ∀ other ∈ before.observers, other.isReceptive →
      ∀ key ∈ observer.keys, key ∈ other.keys → other.kind = observer.kind)
    (nothing : ∀ key ∈ observer.keys, ∀ kind, observer.kind = some kind →
      available before.contents key kind = 0) :
    (observer.keys.foldl (pushBack before.observers.length)
      { before with observers := before.observers ++ [observer] }).Healthy := by
  obtain ⟨observers, contents, longer, joined, named⟩ := pushBack_queues before.observers.length
    observer.keys { before with observers := before.observers ++ [observer] }
  refine ⟨⟨?_, ?_, ?_⟩, ?_⟩
  · intro number found key here receptive registered
    rw [observers, getElem?_append] at here
    split at here
    · obtain ⟨waiters, queue, inside⟩ := healthy.sound.queued here receptive registered
      obtain ⟨last, lastQueue, subset⟩ := longer key waiters queue
      exact ⟨last, lastQueue, subset inside⟩
    · rename_i beyond
      rw [getElem?_singleton] at here
      split at here
      · rename_i last
        cases here
        have same : number = before.observers.length := by omega
        rw [same]
        exact joined key registered
      · cases here
  · intro key waiters number queue inside
    rw [observers]
    obtain ⟨rfl, registered⟩ | ⟨earlier, earlierQueue, earlierInside⟩ :=
      named key waiters number queue inside
    · exact ⟨observer, by simp, registered⟩
    · obtain ⟨found, here, registered⟩ := healthy.sound.named earlierQueue earlierInside
      refine ⟨found, ?_, registered⟩
      rw [List.getElem?_append_left (List.getElem?_eq_some_iff.mp here).1]
      exact here
  · intro first firstInside second secondInside firstReceptive secondReceptive key firstKey
      secondKey
    rw [observers, mem_append, mem_singleton] at firstInside secondInside
    obtain firstInside | rfl := firstInside
    · obtain secondInside | rfl := secondInside
      · exact healthy.sound.alike first firstInside second secondInside firstReceptive
          secondReceptive key firstKey secondKey
      · exact alike first firstInside firstReceptive key secondKey firstKey
    · obtain secondInside | rfl := secondInside
      · exact (alike second secondInside secondReceptive key firstKey secondKey).symm
      · rfl
  · intro key found inside receptive registered kind same
    rw [contents]
    rw [observers, mem_append, mem_singleton] at inside
    obtain inside | rfl := inside
    · exact healthy.calm key found inside receptive registered kind same
    · exact nothing key registered kind same

/-- The events after which nobody sleeps: observers register behind their kind, a waiting move leads
to no sorted set, and an update reported once leaves at most one element or observer. -/
def Orderly : BrokerEvent Score → Prop
  | .register cmd args keys =>
    broker.Open ∧ ∀ observer ∈ broker.observers, observer.isReceptive = true →
      ∀ key ∈ keys, key ∈ observer.keys →
        observer.kind = (Observer.new cmd args keys : Observer Score).kind
  | .update key collection whole =>
    Open { broker with contents := Function.update broker.contents key collection } ∧
      (whole = true ∨ (∀ held ∈ collection, held.size ≤ 1) ∨ broker.Lone key)
  | _ => True

section

variable (healthy : before.Healthy)

include healthy

theorem Healthy.register {cmd : RespCommand} {args keys : List Bytes}
    (orderly : before.Orderly (.register cmd args keys)) :
    (before.initializeObserver (.new cmd args keys)).Healthy := by
  obtain ⟨isOpen, alike⟩ := orderly
  obtain ⟨sound, observers, outcome⟩ := probeKeys_cases healthy.sound (.new cmd args keys) keys
  unfold initializeObserver
  generalize same : (Observer.new cmd args keys : Observer Score) = observer at *
  have sameKeys : observer.keys = keys := by rw [← same]; rfl
  subst sameKeys
  generalize probeKeys observer observer.keys before = probed at sound observers outcome ⊢
  obtain ⟨answer, middle⟩ := probed
  have unchanged : Later middle before := Later.of_eq observers
  obtain ⟨rfl, shrinks, nothing⟩ | ⟨result, rfl, found⟩ := outcome
  · have healthyMiddle : middle.Healthy :=
      ⟨sound, fun key => (healthy.calm key).of_le unchanged (shrinks.available_le key)⟩
    refine healthyMiddle.mount (fun other inside => alike other (observers ▸ inside))
      fun key registered kind sameKind => ?_
    obtain ⟨other, inside, receptive, otherRegistered⟩ | none := nothing key registered
    · refine Nat.le_zero.mp ((shrinks.available_le key kind).trans (le_of_eq ?_))
      refine healthy.calm key other inside receptive otherRegistered kind ?_
      exact (alike other inside receptive key registered otherRegistered).trans sameKind
    · exact none kind sameKind
  · dsimp only
    have gone : ({ observer with status := .resultSet result } : Observer Score).isReceptive =
        false := rfl
    cases found with
    | stays forward shrinks =>
      rw [forward]
      have healthyMiddle : middle.Healthy :=
        ⟨sound, fun key => (healthy.calm key).of_le unchanged (shrinks.available_le key)⟩
      exact healthyMiddle.append_ended gone rfl rfl (Shrinks.refl _)
    | moved contents key dst forward shrinks carries =>
      rw [forward]
      -- the broker as it is just before the element is carried
      let still : Broker Score := { middle with contents }
      have healthyStill : still.Healthy :=
        ⟨sound.of_later (Later.of_eq rfl) rfl, fun key => (healthy.calm key).of_le
          ((Later.of_eq rfl : Later still middle).trans unchanged) (shrinks.available_le key)⟩
      let joined : Broker Score := { still with
          observers := middle.observers ++ [{ observer with status := .resultSet result }] }
      have healthyJoined : joined.Healthy := healthyStill.append_ended gone rfl rfl (Shrinks.refl _)
      have openJoined : joined.Open := by
        intro other inside receptive move target sortedSet
        have old : other ∈ before.observers := by
          rw [← observers]
          refine (mem_append.mp inside).resolve_right fun last => ?_
          rw [mem_singleton.mp last, gone] at receptive
          cases receptive
        exact isOpen other old receptive move target (shrinks.kindAt_of move.1 _ sortedSet)
      let carried : Broker Score := { joined with contents := middle.contents }
      have observers : carried.observers = joined.observers := rfl
      exact healthyJoined.carried openJoined observers rfl carries

theorem Healthy.update {key : Bytes}
    {collection : Option (CollectionObject Score)} {whole : Bool}
    (orderly : before.Orderly (.update key collection whole)) :
    (before.handle (.update key collection whole)).Healthy := by
  obtain ⟨isOpen, reported⟩ := orderly
  let written : Broker Score :=
    { before with contents := Function.update before.contents key collection }
  have later : Later written before := Later.of_eq rfl
  have sound : written.Sound := healthy.sound.of_later later rfl
  have others other (different : other ≠ key) : written.Calm other :=
    (healthy.calm other).of_le later fun kind =>
      (available_congr (Function.update_of_ne different _ _) kind).le
  cases whole with
  | true =>
    show (written.handleCollectionUpdateAll key).Healthy
    unfold handleCollectionUpdateAll
    split
    · rename_i empty
      exact ⟨sound, fun other => sound.calm_of_empty empty other⟩
    · have settled := assignAll_settled _ key written sound isOpen (Nat.lt_succ_self _)
      refine ⟨settled.sound, fun other => ?_⟩
      by_cases same : other = key
      · exact same ▸ settled.calm
      · exact settled.others other same (others other same)
  | false =>
    show (written.handleCollectionUpdate key).2.Healthy
    unfold handleCollectionUpdate
    split
    · rename_i empty
      exact ⟨sound, fun other => sound.calm_of_empty empty other⟩
    · have served := tryAssignLocked_served sound isOpen key
      refine ⟨served.sound, fun other => ?_⟩
      obtain rfl | same := eq_or_ne other key
      · obtain wrong | few | lone := reported
        · cases wrong
        · refine served.single fun kind => ?_
          have here : written.contents other = collection := Function.update_self _ _ _
          unfold available
          rw [here]
          cases collection with
          | none => exact Nat.zero_le 1
          | some held =>
            dsimp only
            split
            · exact few held rfl
            · exact Nat.zero_le 1
        · exact served.lone lone
      · exact served.others other same (others other same)

theorem Healthy.handle {event : BrokerEvent Score}
    (orderly : before.Orderly event) : (before.handle event).Healthy := by
  cases event with
  | register cmd args keys => exact healthy.register orderly
  | update key collection whole => exact healthy.update orderly
  | timeout number =>
    cases found : before.observers[number]? with
    | none => simpa only [Broker.handle, found] using healthy
    | some observer =>
      simpa only [Broker.handle, found] using healthy.timeout rfl observer.keys
  | unblock number result =>
    exact healthy.of_later (before.settle_later number rfl) rfl (Shrinks.refl _)
  | disposed number =>
    exact healthy.of_later (before.settle_later number rfl) rfl (Shrinks.refl _)
  | dropped number =>
    have later : Later (before.handle (.dropped number)) before := by
      have modified : (before.handle (.dropped number)).observers =
        before.observers.modify number fun observer => { observer with connected := false } := rfl
      refine Later.modify modified (fun _ => rfl) (fun observer receptive => ?_)
      simp [Observer.isReceptive] at receptive
    exact healthy.of_later later rfl (Shrinks.refl _)
  | clean => exact healthy.retain (fun _ => id) before.queues.keys

def AllOrderly (broker : Broker Score) : List (BrokerEvent Score) → Prop
  | [] => True
  | event :: events => broker.Orderly event ∧ (broker.handle event).AllOrderly events

theorem Healthy.run {events : List (BrokerEvent Score)}
    (orderly : before.AllOrderly events) : (before.run events).Healthy := by
  induction events generalizing before with
  | nil => exact healthy
  | cons event events ih => exact ih (healthy.handle orderly.1) orderly.2

end

omit [LinearOrder Score] in
theorem healthy_new : (new : Broker Score).Healthy where
  sound := ⟨fun here => by simp [new] at here, fun found => by simp [new] at found,
    fun _ inside => by simp [new] at inside⟩
  calm _ _ inside := by simp [new] at inside

/-- In every orderly run no observer ever sleeps on an element it could consume. -/
theorem quiet_of_allOrderly {events : List (BrokerEvent Score)}
    (orderly : (new : Broker Score).AllOrderly events) : ((new : Broker Score).run events).Quiet :=
  quiet_of_calm (healthy_new.run orderly).calm

end

end Broker

/-- Two observers of one kind, a move among them, and an update reported to the end. -/
theorem quiet_with_move : ((Broker.new : Broker Nat).run
      [.register .blmove [bytesOf "d", bytesOf "LEFT", bytesOf "RIGHT"] [bytesOf "k"],
        .register .blpop [] [bytesOf "k", bytesOf "d"],
        .update (bytesOf "k") (some (.list [bytesOf "a", bytesOf "b"])) true]).Quiet := by
  refine Broker.quiet_of_allOrderly ⟨⟨?_, ?_⟩, ⟨?_, ?_⟩, ⟨?_, .inl rfl⟩, trivial⟩ <;>
    decide +kernel

/-- Behind an observer of a list, one of a sorted set sleeps while the set has an element. -/
theorem bzpopmin_sleeps_behind_blpop : ¬((Broker.new : Broker Nat).run
      [.register .blpop [] [bytesOf "k"], .register .bzpopmin [] [bytesOf "k"],
        .update (bytesOf "k") (some (.sortedSet [(1, bytesOf "m")])) true]).Quiet := by
  decide +kernel

end Wedb.Collections
