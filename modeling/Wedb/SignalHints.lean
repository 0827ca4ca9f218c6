/-
Lost signals. A signal for a key without a queue is dropped, since the first client to register
there is told to look anyhow; but the clients after it are not.
-/

import Wedb.Broker

namespace Wedb.Blocking

open Resp Function Broker List Option

namespace Broker

def collected (state : QueueState) : Option QueueState := if state.gcAble then none else some state

def expire (number : Nat) (broker : Broker) : Broker where
  observers := broker.observers.modify number fun observer =>
    if observer.isReceptive then { observer with status := .resultSet .empty } else observer
  queues := broker.queues

def deregisterObserver (number : Nat) (keys : List Bytes) (broker : Broker) : Broker where
  observers := broker.observers
  queues key := (broker.queues key).bind fun state =>
    if keys.contains key then
      collected { state with waiters := state.waiters.filter (· ≠ number) }
    else some state

def cleanKeysToObservers (broker : Broker) : Broker where
  observers := broker.observers
  queues key := (broker.queues key).bind fun state =>
    collected { state with waiters := state.waiters.filter (receptive broker.observers) }

end Broker

/-- The elements of each key, the broker, the pushes without a signal, and the clients told that
have not looked. A settled key was found empty since its queue was made. -/
structure Floor where
  elements : Bytes → Nat
  broker : Broker
  unsent : Bytes → Nat
  told : Bytes → Nat
  settled : Bytes → Bool

inductive HintEvent
  | push (key : Bytes) (count : Nat)
  | notify (key : Bytes) (count : Nat)
  | look (key : Bytes)
  | register (cmd : RespCommand) (keys : List Bytes)
  | retry (key : Bytes)
  | expire (number : Nat)
  | deregister (number : Nat) (keys : List Bytes)
  | clean

variable (queue : Option QueueState)

def waitersOf : List Nat := queue.elim [] QueueState.waiters

def pendingOf : Nat := queue.elim 0 QueueState.pendingSignals

namespace Floor

def start : Floor := ⟨fun _ => 0, ⟨[], fun _ => none⟩, fun _ => 0, fun _ => 0, fun _ => false⟩

variable (floor : Floor)

def withBroker (broker : Broker) : Floor :=
  { floor with
    broker := broker
    settled := fun key => floor.settled key && (broker.queues key).isSome }

def pop (key : Bytes) : Floor :=
  { floor with
    elements := update floor.elements key (floor.elements key - 1)
    settled := if floor.elements key = 0 then
      update floor.settled key (floor.broker.queues key).isSome
    else floor.settled }

def reached (key : Bytes) (count : Nat) : Nat :=
  match floor.broker.queues key with
  | none => 0
  | some state => count - (deliver key count state.waiters floor.broker.observers).1

/-- One step. A signal follows a push, and a client looks again after it was told to. -/
def step : HintEvent → Floor
  | .push key count =>
    { floor with
      elements := update floor.elements key (floor.elements key + count)
      unsent := update floor.unsent key (floor.unsent key + count) }
  | .notify key count =>
    if count ≤ floor.unsent key then
      { floor.withBroker (floor.broker.notifyWaiters key count) with
        unsent := update floor.unsent key (floor.unsent key - count)
        told := update floor.told key (floor.told key + floor.reached key count) }
    else floor
  | .look key => floor.pop key
  | .register cmd keys =>
    match floor.broker.getCollectionItem cmd keys with
    | (some (.keyUpdate key), broker) =>
      { floor.withBroker broker with
        told := update floor.told key (floor.told key + 1) }
    | (_, broker) => floor.withBroker broker
  | .retry key =>
    if 0 < floor.told key then
      { floor.pop key with told := update floor.told key (floor.told key - 1) }
    else floor
  | .expire number => floor.withBroker (floor.broker.expire number)
  | .deregister number keys => floor.withBroker (floor.broker.deregisterObserver number keys)
  | .clean => floor.withBroker floor.broker.cleanKeysToObservers

/-- A client registers only on keys without a queue or settled, and no count overflows. -/
def attentive : HintEvent → Bool
  | .register _ keys => keys.all fun key => (floor.broker.queues key).isNone || floor.settled key
  | .notify key count => pendingOf (floor.broker.queues key) + count < 2 ^ 64
  | _ => true

def attends : Floor → List HintEvent → Bool
  | _, [] => true
  | floor, event :: rest => floor.attentive event && attends (floor.step event) rest

end Floor

/-- Each settled key has a token for each element, and nobody waits in front of arrivals. -/
structure Floor.Sound (floor : Floor) : Prop where
  covered : ∀ key, floor.settled key = true → (floor.broker.queues key).isSome = true ∧
    floor.elements key ≤ floor.unsent key + floor.told key + pendingOf (floor.broker.queues key)
  quiet : ∀ key, ∀ number ∈ waitersOf (floor.broker.queues key),
    receptive floor.broker.observers number = true →
      floor.settled key = true ∧ pendingOf (floor.broker.queues key) = 0
  bounded : ∀ key, ∀ number ∈ waitersOf (floor.broker.queues key),
    number < floor.broker.observers.length

/-- A queue gains no observers, and no arrivals while it has some. Its arrivals are those before,
with those gained and without those given out. -/
structure Passes (gained given : Nat) (old queue : Option QueueState) : Prop where
  waiters : ∀ number ∈ waitersOf queue, number ∈ waitersOf old ∧ gained = 0
  most : pendingOf queue ≤ pendingOf old + gained
  least : old.isSome = true → queue.isSome = true → pendingOf old + gained ≤ pendingOf queue + given

theorem passes_refl : Passes 0 0 queue queue :=
  ⟨fun _ waits => ⟨waits, rfl⟩, le_rfl, fun _ _ => le_rfl⟩

theorem passes_none (gained : Nat) (queue : Option QueueState) : Passes gained 0 queue none :=
  ⟨fun _ waits => absurd waits not_mem_nil, Nat.zero_le _, nofun⟩

theorem passes_collected (state : QueueState) (stays : Nat → Bool) : Passes 0 0 (some state)
      (collected { state with waiters := state.waiters.filter stays }) := by
  unfold collected
  split_ifs
  · exact passes_none 0 _
  · exact ⟨fun _ waits => ⟨mem_of_mem_filter waits, rfl⟩, le_rfl, fun _ _ => le_rfl⟩

variable {queue old next : Option QueueState} {number count gained given : Nat}

theorem isSome_of_waits (waits : number ∈ waitersOf queue) : queue.isSome := by
  cases queue with
  | none => exact absurd waits not_mem_nil
  | some state => rfl

variable {floor : Floor} {key : Bytes}

theorem Floor.Sound.step_broker (sound : floor.Sound) (after : Broker)
    (count : after.observers.length = floor.broker.observers.length)
    (mono : ∀ number, receptive after.observers number → receptive floor.broker.observers number)
    (gained given : Bytes → Nat) {unsent told : Bytes → Nat}
    (passes : ∀ key, Passes (gained key) (given key) (floor.broker.queues key) (after.queues key))
    (tokens : ∀ key, (floor.broker.queues key).isSome →
      floor.unsent key + floor.told key + given key ≤ unsent key + told key + gained key) :
    Floor.Sound { floor.withBroker after with unsent := unsent, told := told } := by
  refine ⟨fun key settled => ?_, fun key number waits free => ?_, fun key number waits => ?_⟩
  · obtain ⟨settled, left⟩ := Bool.and_eq_true_iff.mp settled
    obtain ⟨known, enough⟩ := sound.covered key settled
    have kept := (passes key).least known left
    have spent := tokens key known
    refine ⟨left, ?_⟩
    dsimp only [Floor.withBroker]
    omega
  · obtain ⟨waited, nothing⟩ := (passes key).waiters number waits
    have most := (passes key).most
    obtain ⟨settled, none⟩ := sound.quiet key number waited (mono number free)
    refine ⟨Bool.and_eq_true_iff.mpr ⟨settled, isSome_of_waits waits⟩, ?_⟩
    dsimp only [Floor.withBroker]
    omega
  · exact (sound.bounded key number ((passes key).waiters number waits).1).trans_eq count.symm

theorem Floor.Sound.clean (sound : floor.Sound) :
    (floor.withBroker floor.broker.cleanKeysToObservers).Sound := by
  refine sound.step_broker floor.broker.cleanKeysToObservers rfl (fun _ => id) (fun _ => 0)
    (fun _ => 0) (fun key => ?_) fun _ _ => le_rfl
  unfold cleanKeysToObservers
  dsimp only
  cases floor.broker.queues key with
  | none => exact passes_refl none
  | some state => exact passes_collected state _

theorem Floor.Sound.deregister (sound : floor.Sound) (number : Nat) (keys : List Bytes) :
    (floor.withBroker (floor.broker.deregisterObserver number keys)).Sound := by
  refine sound.step_broker (floor.broker.deregisterObserver number keys) rfl (fun _ => id)
    (fun _ => 0) (fun _ => 0) (fun key => ?_) fun _ _ => le_rfl
  unfold deregisterObserver
  dsimp only
  cases floor.broker.queues key with
  | none => exact passes_refl none
  | some state =>
    rw [bind_some]
    split_ifs
    · exact passes_collected state _
    · exact passes_refl _

theorem Floor.Sound.expire (sound : floor.Sound) (number : Nat) :
    (floor.withBroker (floor.broker.expire number)).Sound := by
  refine sound.step_broker (floor.broker.expire number) (length_modify ..)
    (fun other free => ?_) (fun _ => 0) (fun _ => 0) (fun key => passes_refl _) fun _ _ => le_rfl
  unfold receptive at free ⊢
  rw [Broker.expire, getElem?_modify] at free
  cases known : floor.broker.observers[other]? with
  | none => simp [known] at free
  | some observer =>
    by_cases isIt : number = other
    · cases waiting : observer.isReceptive <;> simp_all
    · simpa [known, isIt] using free

theorem deliver_spec (key : Bytes) (count : Nat) (waiters : List Nat) (observers : List Observer) :
    let found := deliver key count waiters observers
    found.1 ≤ count ∧ (0 < found.1 → found.2.1 = []) ∧
      (∀ number ∈ found.2.1, number ∈ waiters) ∧ found.2.2.length = observers.length ∧
      ∀ number, receptive found.2.2 number → receptive observers number := by
  induction waiters generalizing count observers with
  | nil => cases count <;> simp [deliver]
  | cons first rest ih =>
    cases count with
    | zero => simp [deliver]
    | succ count =>
      unfold deliver
      split_ifs with free
      · obtain ⟨less, drained, fewer, length, mono⟩ :=
          ih count (observers.modify first (Observer.signal key))
        refine ⟨Nat.le_succ_of_le less, drained, fun number member =>
          mem_cons_of_mem _ (fewer number member), length.trans (length_modify ..),
          fun number still => ?_⟩
        have before := mono number still
        rw [receptive_modify_signal] at before
        exact (Bool.and_eq_true_iff.mp before).1
      · obtain ⟨less, drained, fewer, rest⟩ := ih (count + 1) observers
        exact ⟨less, drained, fun number member => mem_cons_of_mem _ (fewer number member), rest⟩

variable (observers : List Observer)

theorem passes_deliver {state : QueueState} (fits : state.pendingSignals + count < 2 ^ 64) :
    let found := deliver key count state.waiters observers
    let after : QueueState := ⟨found.2.1, min (state.pendingSignals + found.1) (2 ^ 64 - 1)⟩
    Passes found.1 0 (some state) (if after.gcAble then none else some after) := by
  intro found after
  obtain ⟨less, drained, fewer, -⟩ := deliver_spec key count state.waiters observers
  replace less : found.1 ≤ count := less
  split_ifs
  · exact passes_none _ _
  · refine ⟨fun number waits => ⟨fewer number waits, ?_⟩, ?_, fun _ _ => ?_⟩
    · by_contra some
      have empty : found.2.1 = [] := drained (Nat.pos_of_ne_zero some)
      replace waits : number ∈ found.2.1 := waits
      rw [empty] at waits
      exact absurd waits not_mem_nil
    · exact min_le_left ..
    · change state.pendingSignals + found.1 ≤ min (state.pendingSignals + found.1) (2 ^ 64 - 1) + 0
      omega

theorem notifyWaiters_spec (broker : Broker) (key : Bytes) (count : Nat)
    (fits : pendingOf (broker.queues key) + count < 2 ^ 64) :
    let left := (broker.queues key).elim 0 fun state =>
      (deliver key count state.waiters broker.observers).1
    let after := broker.notifyWaiters key count
    after.observers.length = broker.observers.length ∧ (∀ number, receptive after.observers number →
        receptive broker.observers number) ∧
      ∀ other, Passes (if other = key then left else 0) 0 (broker.queues other)
        (after.queues other) := by
  unfold notifyWaiters
  by_cases zero : count = 0
  · rw [if_pos zero]
    refine ⟨rfl, fun _ => id, fun other => ?_⟩
    have nothing : ((broker.queues key).elim 0 fun state =>
        (deliver key count state.waiters broker.observers).1) = 0 := by
      cases broker.queues key <;> simp [zero, deliver]
    rw [nothing, ite_self]
    exact passes_refl _
  · rw [if_neg zero]
    cases queue : broker.queues key with
    | none =>
      refine ⟨rfl, fun _ => id, fun other => ?_⟩
      rw [elim_none, ite_self]
      exact passes_refl _
    | some state =>
      obtain ⟨-, -, -, length, mono⟩ := deliver_spec key count state.waiters broker.observers
      refine ⟨length, mono, fun other => ?_⟩
      rw [elim_some]
      obtain rfl | same := eq_or_ne other key
      · rw [if_pos rfl, queue]
        simpa only [update_self] using passes_deliver broker.observers (by rwa [queue] at fits)
      · rw [if_neg same]
        simpa only [update_of_ne same] using passes_refl _

theorem Floor.Sound.notify (sound : floor.Sound)
    (fits : pendingOf (floor.broker.queues key) + count < 2 ^ 64)
    (sent : count ≤ floor.unsent key) :
    Floor.Sound { floor.withBroker (floor.broker.notifyWaiters key count) with
      unsent := update floor.unsent key (floor.unsent key - count)
      told := update floor.told key (floor.told key + floor.reached key count) } := by
  obtain ⟨length, mono, passes⟩ := notifyWaiters_spec floor.broker key count fits
  refine sound.step_broker _ length mono _ (fun _ => 0) passes fun other known => ?_
  obtain rfl | same := eq_or_ne other key
  · obtain ⟨state, queue⟩ := isSome_iff_exists.mp known
    have less := (deliver_spec other count state.waiters floor.broker.observers).1
    rw [update_self, update_self, if_pos rfl, reached, queue, elim_some]
    dsimp only at less ⊢
    omega
  · rw [update_of_ne same, update_of_ne same, if_neg same]

theorem Passes.trans (first : Passes 0 0 old queue) (stays : old.isSome → queue.isSome)
    (second : Passes gained given queue next) : Passes gained given old next where
  waiters number waits := by
    obtain ⟨waited, nothing⟩ := second.waiters number waits
    exact ⟨(first.waiters number waited).1, nothing⟩
  most := second.most.trans (Nat.add_le_add_right first.most gained)
  least known left := by
    have kept := first.least known (stays known)
    have more := second.least (stays known) left
    omega

def probed (observers : List Observer) (queue : Option QueueState) : Bool × QueueState :=
  let state := queue.getD ⟨[], 0⟩
  let waiters := state.waiters.filter (receptive observers)
  let hit := waiters.isEmpty && decide (0 < state.pendingSignals)
  (queue.isNone || hit, ⟨waiters, if hit then state.pendingSignals - 1 else state.pendingSignals⟩)

theorem probeKey_eq (broker : Broker) (key : Bytes) :
    broker.probeKey key = ((probed broker.observers (broker.queues key)).1, { broker with
        queues := update broker.queues key
          (some (probed broker.observers (broker.queues key)).2) }) := by
  unfold probeKey probed
  cases broker.queues key <;> rfl

theorem passes_probed (queue : Option QueueState) :
    Passes 0 (if (probed observers queue).1 = true then 1 else 0) queue
      (some (probed observers queue).2) := by
  cases queue with
  | none => exact ⟨fun _ waits => absurd waits not_mem_nil, Nat.zero_le _, nofun⟩
  | some state =>
    refine ⟨fun number waits => ⟨mem_of_mem_filter waits, rfl⟩, ?_, fun _ _ => ?_⟩
    all_goals
      simp only [pendingOf, probed, elim_some, getD_some, isNone_some, Bool.false_or]
      split_ifs <;> omega

theorem probed_nothing {observers : List Observer} (nothing : (probed observers queue).1 = false) :
    queue.isSome ∧ (pendingOf queue = 0 ∨
      ∃ number ∈ waitersOf queue, receptive observers number) := by
  obtain ⟨known, missed⟩ := Bool.or_eq_false_iff.mp nothing
  obtain ⟨state, rfl⟩ := isSome_iff_exists.mp (isNone_eq_false_iff.mp known)
  refine ⟨rfl, ?_⟩
  by_cases crowded : ∃ number ∈ state.waiters, receptive observers number
  · exact .inr crowded
  · simp_all [pendingOf]

theorem probeKeys_spec (keys : List Bytes) (broker : Broker) :
    (broker.probeKeys keys).2.observers = broker.observers ∧
      (∀ other, ((broker.queues other).isSome → ((broker.probeKeys keys).2.queues other).isSome) ∧
        Passes 0 (if (broker.probeKeys keys).1 = some other then 1 else 0)
          (broker.queues other) ((broker.probeKeys keys).2.queues other)) ∧
      ((broker.probeKeys keys).1 = none →
        ∀ key ∈ keys, (probed broker.observers (broker.queues key)).1 = false) := by
  induction keys generalizing broker with
  | nil =>
    exact ⟨rfl, fun other => ⟨id, passes_refl _⟩, fun _ _ inside => absurd inside not_mem_nil⟩
  | cons first rest ih =>
    have passes := passes_probed broker.observers (broker.queues first)
    have stays : ∀ other, (broker.queues other).isSome → (update broker.queues first
          (some (probed broker.observers (broker.queues first)).2) other).isSome := by
      intro other known
      obtain rfl | same := eq_or_ne other first
      · simp
      · simpa [same] using known
    unfold probeKeys
    rw [probeKey_eq]
    cases found : (probed broker.observers (broker.queues first)).1 with
    | true =>
      refine ⟨rfl, fun other => ⟨stays other, ?_⟩, fun none => absurd none (some_ne_none _)⟩
      obtain rfl | same := eq_or_ne first other
      · simpa [found] using passes
      · simpa [same, Ne.symm same] using passes_refl _
    | false =>
      obtain ⟨length, later, silent⟩ := ih { broker with
        queues := update broker.queues first
          (some (probed broker.observers (broker.queues first)).2) }
      refine ⟨length, fun other => ⟨fun known => (later other).1 (stays other known),
        Passes.trans ?_ (stays other) (later other).2⟩, fun none key inside => ?_⟩
      · obtain rfl | same := eq_or_ne first other
        · simpa [found] using passes
        · simpa [Ne.symm same] using passes_refl _
      · by_cases same : first = key
        · exact same ▸ found
        · have missed := silent none key ((mem_cons.mp inside).resolve_left (Ne.symm same))
          simpa [Ne.symm same] using missed

theorem foldl_pushBack_spec (number : Nat) (key : Bytes) (keys : List Bytes) (broker : Broker) :
    (keys.foldl (pushBack number) broker).observers = broker.observers ∧
      pendingOf ((keys.foldl (pushBack number) broker).queues key) = pendingOf (broker.queues key) ∧
      ∀ other ∈ waitersOf ((keys.foldl (pushBack number) broker).queues key),
        other ∈ waitersOf (broker.queues key) ∨ other = number ∧ key ∈ keys := by
  induction keys generalizing broker with
  | nil => exact ⟨rfl, rfl, fun other waits => .inl waits⟩
  | cons first rest ih =>
    obtain ⟨length, pending, waiters⟩ := ih (broker.pushBack number first)
    rw [foldl_cons]
    refine ⟨length, pending.trans ?_, fun other waits => ?_⟩
    · obtain rfl | same := eq_or_ne key first
      · cases queue : broker.queues key <;> simp [pushBack, pendingOf, queue]
      · simp [pushBack, same]
    · rcases waiters other waits with before | ⟨isIt, later⟩
      · obtain rfl | same := eq_or_ne key first
        · cases queue : broker.queues key <;> simp_all [pushBack, waitersOf]
        · exact .inl (by simpa [pushBack, same] using before)
      · exact .inr ⟨isIt, mem_cons_of_mem _ later⟩

theorem Floor.Sound.wait {after : Broker} (sound : (floor.withBroker after).Sound)
    (stays : ∀ key, floor.settled key → (after.queues key).isSome)
    {keys : List Bytes}
    (ready : ∀ key ∈ keys, floor.settled key ∧ pendingOf (after.queues key) = 0)
    (cmd : RespCommand) :
    (floor.withBroker (keys.foldl (pushBack after.observers.length)
      { after with observers := after.observers ++ [.new cmd] })).Sound := by
  have spec := fun key => foldl_pushBack_spec after.observers.length key keys
    { after with observers := after.observers ++ [.new cmd] }
  generalize keys.foldl _ _ = final at spec
  have length : final.observers.length = after.observers.length + 1 := by
    rw [(spec []).1, length_append, length_singleton]
  refine ⟨fun key settled => ?_, fun key number waits free => ?_, fun key number waits => ?_⟩
  · obtain ⟨settled, left⟩ := Bool.and_eq_true_iff.mp settled
    obtain ⟨-, enough⟩ := sound.covered key (Bool.and_eq_true_iff.mpr ⟨settled, stays key settled⟩)
    exact ⟨left, enough.trans_eq (congrArg _ (spec key).2.1.symm)⟩
  · suffices held : floor.settled key ∧ pendingOf (after.queues key) = 0 from
      ⟨Bool.and_eq_true_iff.mpr ⟨held.1, isSome_of_waits waits⟩, (spec key).2.1.trans held.2⟩
    rcases (spec key).2.2 number waits with before | ⟨rfl, inside⟩
    · have known : number < after.observers.length := sound.bounded key number before
      replace free : final.observers[number]?.any Observer.isReceptive := free
      rw [(spec key).1, getElem?_append_left known] at free
      obtain ⟨settled, none⟩ := sound.quiet key number before free
      exact ⟨(Bool.and_eq_true_iff.mp settled).1, none⟩
    · exact ready key inside
  · refine lt_of_lt_of_eq ?_ length.symm
    rcases (spec key).2.2 number waits with before | ⟨rfl, -⟩
    · exact (sound.bounded key number before).trans (Nat.lt_succ_self _)
    · exact Nat.lt_succ_self _

theorem Floor.Sound.register (sound : floor.Sound) {cmd : RespCommand} {keys : List Bytes}
    (attentive : floor.attentive (.register cmd keys)) :
    (floor.step (.register cmd keys)).Sound := by
  obtain ⟨same, kept, nothing⟩ := probeKeys_spec keys floor.broker
  cases probe : floor.broker.probeKeys keys with
  | mk hit after =>
    rw [probe] at same kept nothing
    have mono : ∀ number, receptive after.observers number →
        receptive floor.broker.observers number := by
      rw [same]
      exact fun _ => id
    have between := @Floor.Sound.step_broker floor sound after (congrArg _ same) mono (fun _ => 0)
    cases hit with
    | some key =>
      simp only [Floor.step, getCollectionItem, probe]
      refine between _ (fun other => (kept other).2) fun other _ => ?_
      obtain rfl | isIt := eq_or_ne other key
      · simp [Floor.withBroker, Nat.add_assoc]
      · simp [isIt, Ne.symm isIt, Floor.withBroker]
    | none =>
      simp only [Floor.step, getCollectionItem, probe]
      refine (between (fun _ => 0) (fun other => (kept other).2) fun _ _ => le_rfl).wait
        (fun key settled => (kept key).1 (sound.covered key settled).1) (fun key inside => ?_) cmd
      obtain ⟨known, quiet⟩ := probed_nothing (nothing rfl key inside)
      have settled : floor.settled key := by
        have allowed := all_eq_true.mp attentive key inside
        rw [isSome_iff_ne_none] at known
        simpa [known] using allowed
      refine ⟨settled, Nat.le_zero.mp ((kept key).2.most.trans_eq ?_)⟩
      rcases quiet with none | ⟨number, waits, free⟩
      · exact none
      · exact (sound.quiet key number waits free).2

theorem Floor.Sound.pop (sound : floor.Sound) (key : Bytes) {told : Bytes → Nat}
    (spent : ∀ other, floor.told other ≤ told other + if other = key then 1 else 0) :
    Floor.Sound { floor.pop key with told := told } := by
  refine ⟨fun other settled => ?_, fun other number waits free => ?_, sound.bounded⟩
  · have fewer := spent other
    obtain rfl | same := eq_or_ne other key
    · by_cases empty : floor.elements other = 0
      · simp_all [Floor.pop]
      · replace settled : floor.settled other := by simpa [Floor.pop, empty] using settled
        obtain ⟨known, enough⟩ := sound.covered other settled
        refine ⟨known, ?_⟩
        simp only [Floor.pop, update_self, if_true] at fewer ⊢
        omega
    · have was : floor.settled other := by
        unfold Floor.pop at settled
        split_ifs at settled <;> simp_all
      obtain ⟨known, enough⟩ := sound.covered other was
      refine ⟨known, ?_⟩
      simp only [Floor.pop, update_of_ne same, same, if_false] at fewer ⊢
      omega
  · obtain ⟨settled, none⟩ := sound.quiet other number waits free
    refine ⟨?_, none⟩
    have known := (sound.covered other settled).1
    unfold Floor.pop
    obtain rfl | same := eq_or_ne other key
    · split_ifs <;> simp_all
    · split_ifs <;> simp_all

theorem Floor.Sound.step (sound : floor.Sound) {event : HintEvent}
    (attentive : floor.attentive event) : (floor.step event).Sound := by
  cases event with
  | push key count =>
    refine ⟨fun other settled => ?_, sound.quiet, sound.bounded⟩
    obtain ⟨known, enough⟩ := sound.covered other settled
    refine ⟨known, ?_⟩
    obtain rfl | same := eq_or_ne other key
    · simp only [Floor.step, update_self]
      omega
    · simpa only [Floor.step, update_of_ne same] using enough
  | notify key count =>
    simp only [Floor.step]
    split_ifs with sent
    · exact sound.notify (of_decide_eq_true attentive) sent
    · exact sound
  | look key => exact sound.pop key fun other => Nat.le_add_right _ _
  | register cmd keys => exact sound.register attentive
  | retry key =>
    simp only [Floor.step]
    split_ifs with told
    · refine sound.pop key fun other => ?_
      obtain rfl | same := eq_or_ne other key
      · simp only [update_self, if_true]
        omega
      · simp [same]
    · exact sound
  | expire number => exact sound.expire number
  | deregister number keys => exact sound.deregister number keys
  | clean => exact sound.clean

theorem Floor.Sound.run {events : List HintEvent} (sound : floor.Sound)
    (attends : floor.attends events) : (events.foldl Floor.step floor).Sound := by
  induction events generalizing floor with
  | nil => exact sound
  | cons event rest ih =>
    obtain ⟨attentive, later⟩ := Bool.and_eq_true_iff.mp attends
    exact ih (sound.step attentive) later

theorem Floor.sound_start : Floor.start.Sound := ⟨nofun, fun _ _ waits => absurd waits not_mem_nil,
    fun _ _ waits => absurd waits not_mem_nil⟩

/-- In an attentive run nobody sleeps on a key with elements once all signals are sent and all
clients told have looked. -/
theorem no_lost_wakeup {events : List HintEvent} (attends : Floor.start.attends events = true)
    {key : Bytes} (sent : (events.foldl Floor.step .start).unsent key = 0)
    (looked : (events.foldl Floor.step .start).told key = 0) {number : Nat}
    (waits : number ∈ waitersOf ((events.foldl Floor.step .start).broker.queues key))
    (sleeps : receptive (events.foldl Floor.step .start).broker.observers number = true) :
    (events.foldl Floor.step .start).elements key = 0 := by
  have sound := Floor.sound_start.run attends
  obtain ⟨settled, none⟩ := sound.quiet key number waits sleeps
  have enough := (sound.covered key settled).2
  omega

def twoRounds (key : Bytes) : List HintEvent :=
  [.look key, .register .blpop [key], .retry key, .register .blpop [key], .push key 1,
    .notify key 1, .retry key, .register .blpop [key], .retry key, .register .blpop [key]]

theorem no_lost_wakeup_twoRounds :
    1 ∈ waitersOf (((twoRounds [7]).foldl Floor.step .start).broker.queues [7]) ∧
      ((twoRounds [7]).foldl Floor.step .start).elements [7] = 0 :=
  ⟨by decide +kernel, @no_lost_wakeup (twoRounds [7]) (by decide +kernel) [7] (by decide +kernel)
    (by decide +kernel) 1 (by decide +kernel) (by decide +kernel)⟩

/-- Two clients find a key empty and two elements come: one client takes one, the other sleeps. -/
theorem second_registration_sleeps :
    let floor := List.foldl Floor.step .start
      [.look [7], .look [7], .push [7] 2, .notify [7] 2, .register .blpop [[7]], .retry [7],
        .register .blpop [[7]]]
    floor.unsent [7] = 0 ∧ floor.told [7] = 0 ∧ 0 ∈ waitersOf (floor.broker.queues [7]) ∧
      receptive floor.broker.observers 0 = true ∧ floor.elements [7] = 1 := by
  decide +kernel

end Wedb.Blocking
