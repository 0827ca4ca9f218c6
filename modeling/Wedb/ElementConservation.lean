/-
When does the store of collections lose an element? A pop that empties a collection removes its key
after it has released the lock.
-/

import Mathlib.Algebra.Order.BigOperators.Group.List
import Mathlib.Data.Multiset.OrderedMonoid
import Mathlib.Tactic.Abel
import Wedb.CollectionStore

namespace Wedb.Collections

open Multiset List

variable {Score : Type}

def CollectionObject.elements : CollectionObject Score → Multiset Bytes
  | .list items => items
  | .sortedSet items => (items.map Prod.snd : List Bytes)

@[simp] theorem CollectionKind.elements_empty (kind : CollectionKind) :
    (kind.empty : CollectionObject Score).elements = 0 := by
  cases kind <;> rfl

variable {α : Type}

theorem takeEnd_perm (front : Bool) (count : Nat) (items : List α) :
    ((takeEnd front count items).2 ++ (takeEnd front count items).1).Perm items := by
  unfold takeEnd
  split
  · exact perm_append_comm.trans (by rw [take_append_drop])
  · refine List.Perm.trans (List.Perm.append_right _ (reverse_perm _)) ?_
    refine perm_append_comm.trans ?_
    rw [take_append_drop]
    exact reverse_perm items

theorem pushEnd_perm (dir : Direction) (item : α) (items : List α) :
    (pushEnd dir item items).Perm (item :: items) := by
  cases dir with
  | left => exact List.Perm.refl _
  | right => exact perm_append_singleton item items

theorem takeEnd_one {front : Bool} {items taken rest : List α} {item : α}
    (took : takeEnd front 1 items = (item :: taken, rest)) : (item :: rest).Perm items := by
  have short : (takeEnd front 1 items).1.length ≤ 1 := by
    unfold takeEnd
    split <;> exact (length_take_le _ _)
  have whole := takeEnd_perm front 1 items
  rw [took] at short whole
  obtain rfl : taken = [] := length_eq_zero_iff.mp (by simpa using short)
  exact (perm_append_singleton item rest).symm.trans whole

section

variable [LinearOrder Score]

theorem insertMember_perm (score : Score) (member : Bytes) (items : List (Score × Bytes)) :
    (insertMember score member items).Perm ((score, member) :: items) := by
  refine perm_middle.trans ?_
  rw [takeWhile_append_dropWhile]

theorem addMember_elements (score : Score) (member : Bytes) (items : List (Score × Bytes)) :
    (((addMember score member items).2.map Prod.snd : List Bytes) : Multiset Bytes) =
      (items.map Prod.snd : List Bytes) +
        if (addMember score member items).1 = 1 then {member} else 0 := by
  have inserted others :
      (((insertMember score member others).map Prod.snd : List Bytes) : Multiset Bytes) =
        (others.map Prod.snd : List Bytes) + {member} := by
    rw [add_comm, singleton_add, cons_coe]
    exact coe_eq_coe.mpr ((insertMember_perm score member others).map Prod.snd)
  unfold addMember
  split
  · rename_i entry found
    split
    · simp
    · have same : entry.2 = member := by simpa using List.find?_some found
      obtain ⟨old, before, after, -, oldSame, whole, erased⟩ :=
        exists_of_eraseP (p := fun entry => entry.2 == member)
          (mem_of_find?_eq_some found) (by simpa using same)
      have oldMember : old.2 = member := by simpa using oldSame
      rw [inserted, erased, whole]
      simp only [List.map_append, List.map_cons, oldMember, ← coe_add,
        ← cons_coe, ← singleton_add, zero_ne_one, if_false, add_zero]
      abel
  · dsimp only
    rw [inserted, if_pos rfl]

theorem Edit.balanced (edit : Edit Score) (collection : CollectionObject Score) :
    (edit.apply collection).2.elements + edit.returned (edit.apply collection).1 =
      collection.elements + edit.pushed (edit.apply collection).1 := by
  cases edit with
  | pushList value front =>
    cases collection with
    | sortedSet items => rfl
    | list items =>
      show ((pushEnd _ value items : List Bytes) : Multiset Bytes) + 0 = items + {value}
      rw [add_zero, add_comm, singleton_add, cons_coe]
      exact coe_eq_coe.mpr (pushEnd_perm _ value items)
  | addMember score member =>
    cases collection with
    | list items => rfl
    | sortedSet items =>
      show (((Collections.addMember score member items).2.map Prod.snd : List Bytes) :
        Multiset Bytes) + 0 = _
      rw [add_zero]
      exact addMember_elements score member items
  | popList front count =>
    cases collection with
    | sortedSet items => rfl
    | list items =>
      show (((takeEnd front count items).2 : List Bytes) : Multiset Bytes) +
        ((takeEnd front count items).1 : List Bytes) = items + 0
      rw [add_zero, coe_add]
      exact coe_eq_coe.mpr (takeEnd_perm front count items)
  | popSortedSet front count =>
    cases collection with
    | list items => rfl
    | sortedSet items =>
      show (((takeEnd front count items).2.map Prod.snd : List Bytes) : Multiset Bytes) +
        ((takeEnd front count items).1.map Prod.snd : List Bytes) =
          (items.map Prod.snd : List Bytes) + 0
      rw [add_zero, coe_add, ← map_append]
      exact coe_eq_coe.mpr ((takeEnd_perm front count items).map Prod.snd)
  | moveWithin srcDir dstDir =>
    show (Collections.moveWithin srcDir dstDir collection).2.elements + 0 = collection.elements + 0
    cases collection with
    | sortedSet items => rfl
    | list items =>
      unfold Collections.moveWithin
      dsimp only
      split
      · rfl
      · rename_i item taken rest took
        exact congrArg (· + 0) (coe_eq_coe.mpr
          ((pushEnd_perm dstDir item rest).trans (takeEnd_one took)))

omit [LinearOrder Score] in
theorem Edit.returned_eq_zero (edit : Edit Score) (answer : edit.Answer)
    (pushes : edit.pushed answer ≠ 0) : edit.returned answer = 0 := by
  cases edit with
  | pushList value front => rfl
  | addMember score member => rfl
  | moveWithin srcDir dstDir => rfl
  | popList front count => exact absurd rfl pushes
  | popSortedSet front count => exact absurd rfl pushes

omit [LinearOrder Score] in
theorem moveAcross_elements (srcDir dstDir : Direction) (source target : CollectionObject Score) :
    let outcome := moveAcross srcDir dstDir source target
    source.elements = outcome.2.1.elements + outcome.1.carried ∧
      outcome.2.2.elements = target.elements + outcome.1.carried := by
  cases source with
  | sortedSet items => exact ⟨(add_zero _).symm, (add_zero _).symm⟩
  | list items =>
    cases target with
    | sortedSet others => exact ⟨(add_zero _).symm, (add_zero _).symm⟩
    | list others =>
      unfold moveAcross
      dsimp only
      split
      · exact ⟨(add_zero _).symm, (add_zero _).symm⟩
      · rename_i item taken rest took
        constructor
        · show (items : Multiset Bytes) = rest + {item}
          rw [add_comm, singleton_add, cons_coe]
          exact coe_eq_coe.mpr (takeEnd_one took).symm
        · show ((pushEnd dstDir item others : List Bytes) : Multiset Bytes) = others + {item}
          rw [add_comm, singleton_add, cons_coe]
          exact coe_eq_coe.mpr (pushEnd_perm dstDir item others)

end

variable (weight : StoreEntry Score → Multiset Bytes)

def weigh (entries : List (StoreEntry Score)) : Multiset Bytes :=
  (entries.map weight).sum

variable {entries : List (StoreEntry Score)} {number src dst : Nat}

variable {entry source target : StoreEntry Score}

theorem weigh_set (here : entries[number]? = some entry) (after : StoreEntry Score) :
    weigh weight (entries.set number after) + weight entry =
      weigh weight entries + weight after := by
  induction entries generalizing number with
  | nil => cases here
  | cons first rest ih =>
    cases number with
    | zero =>
      obtain rfl : first = entry := by simpa using here
      simp only [weigh, List.set_cons_zero, List.map_cons, List.sum_cons]
      abel
    | succ number =>
      have others := @ih number (by simpa using here)
      simp only [weigh, List.set_cons_succ, List.map_cons, List.sum_cons] at others ⊢
      rw [add_assoc, others, add_assoc]

theorem weight_eq_zero {weight : StoreEntry Score → Multiset Bytes}
    (here : entries[number]? = some entry)
    (none : weigh weight entries = 0) : weight entry = 0 :=
  sum_eq_zero_iff.mp none _ (mem_map_of_mem (mem_of_getElem? here))

theorem weigh_set_set (sourceHere : entries[src]? = some source)
    (targetHere : entries[dst]? = some target) (different : src ≠ dst)
    (sourceAfter targetAfter : StoreEntry Score) :
    weigh weight ((entries.set src sourceAfter).set dst targetAfter) +
        (weight source + weight target) =
      weigh weight entries + (weight sourceAfter + weight targetAfter) := by
  have stays : (entries.set src sourceAfter)[dst]? = some target := by
    rw [getElem?_set_ne different, targetHere]
  have first := weigh_set weight sourceHere sourceAfter
  have second := weigh_set weight stays targetAfter
  rw [add_comm (weight source), ← add_assoc, second, ← add_assoc, ← first]
  abel

theorem modify_eq_set {items : List α} {item : α} (change : α → α)
    (here : items[number]? = some item) :
    items.modify number change = items.set number (change item) := by
  rw [modify_eq_set_getElem?, here]
  rfl

def reachable (entry : StoreEntry Score) : Multiset Bytes :=
  if entry.linked then entry.collection.elements else 0

def unreachable (entry : StoreEntry Score) : Multiset Bytes :=
  if entry.linked then 0 else entry.collection.elements

namespace SharedStore

variable (store : SharedStore Score)

def stored : Multiset Bytes := weigh reachable store.entries

def lost : Multiset Bytes := weigh unreachable store.entries

/-- No element is lost and none appears: what is stored and what pops returned is what was
pushed. -/
def Conserved : Prop :=
  store.stored + store.returned = store.pushed

instance (store : SharedStore Score) : Decidable store.Conserved :=
  inferInstanceAs (Decidable (_ = _))

/-- The account of the elements, those out of reach included. -/
def Balanced : Prop :=
  weigh (fun entry => entry.collection.elements) store.entries + store.returned = store.pushed

theorem weigh_elements (entries : List (StoreEntry Score)) :
    weigh (fun entry => entry.collection.elements) entries =
      weigh reachable entries + weigh unreachable entries := by
  induction entries with
  | nil => rfl
  | cons first rest ih =>
    simp only [weigh, List.map_cons, List.sum_cons] at ih ⊢
    rw [ih]
    unfold reachable unreachable
    split <;> abel

theorem Balanced.conserved_iff {store : SharedStore Score} (balanced : store.Balanced) :
    store.Conserved ↔ store.lost = 0 := by
  unfold Balanced at balanced
  rw [weigh_elements, add_right_comm] at balanced
  unfold Conserved stored lost
  rw [← balanced]
  exact ⟨fun same => by simpa using same, fun none => by simp [none]⟩

end SharedStore

def CollectionObject.isEmpty : CollectionObject Score → Bool
  | .list items => items.isEmpty
  | .sortedSet items => items.isEmpty

theorem CollectionObject.isEmpty_iff (collection : CollectionObject Score) :
    collection.isEmpty ↔ collection.elements = 0 := by
  cases collection <;> simp [isEmpty, elements]

def Edit.adds : Edit Score → CollectionObject Score → Bool
  | .pushList _ _, .list _ => true
  | .addMember _ member, .sortedSet items => !items.any fun entry => entry.2 == member
  | _, _ => false

def carries : CollectionObject Score → CollectionObject Score → Bool
  | .list source, .list _ => !source.isEmpty
  | _, _ => false

/-- The steps that lose nothing: into linked entries, and removals of empty ones. -/
def MapStep.Safe : MapStep Score → SharedStore Score → Prop
  | .get _, _ => True
  | .getOrInsert _ _, _ => True
  | .read _, _ => True
  | .remove key, store => ∀ number entry, store.find key = some number →
      store.entries[number]? = some entry → entry.collection.isEmpty
  | .write number edit, store => ∀ entry, store.entries[number]? = some entry →
      edit.adds entry.collection → entry.linked
  | .moveAcross src dst _ _, store => ∀ source target, store.entries[src]? = some source →
      store.entries[dst]? = some target → src ≠ dst →
        carries source.collection target.collection → target.linked

section

variable [LinearOrder Score]

theorem Edit.adds_iff (edit : Edit Score) (collection : CollectionObject Score) :
    edit.adds collection ↔ edit.pushed (edit.apply collection).1 ≠ 0 := by
  cases edit with
  | pushList value front => cases collection <;> simp [adds, pushed, apply]
  | popList front count => cases collection <;> simp [adds, pushed]
  | popSortedSet front count => cases collection <;> simp [adds, pushed]
  | moveWithin srcDir dstDir => cases collection <;> simp [adds, pushed]
  | addMember score member =>
    cases collection with
    | list items => simp [adds, pushed, apply]
    | sortedSet items =>
      simp only [adds, pushed, apply, Collections.addMember]
      cases found : items.find? fun entry => entry.2 == member with
      | none => simpa using found
      | some entry =>
        have inside := mem_of_find?_eq_some found
        have same : entry.2 = member := by simpa using find?_some found
        have any : items.any (fun entry => entry.2 == member) :=
          any_eq_true.mpr ⟨entry, inside, by simpa using same⟩
        rw [any]
        dsimp only
        split <;> simp

omit [LinearOrder Score] in
theorem carries_iff (srcDir dstDir : Direction) (source target : CollectionObject Score) :
    carries source target ↔ (moveAcross srcDir dstDir source target).1.carried ≠ 0 := by
  cases source with
  | sortedSet items => simp [carries, moveAcross, MoveOutcome.carried]
  | list items =>
    cases target with
    | sortedSet others => simp [carries, moveAcross, MoveOutcome.carried]
    | list others =>
      unfold moveAcross
      dsimp only
      split
      · rename_i rest took
        have short : (takeEnd (srcDir == Direction.left) 1 items).1 = [] := by rw [took]
        have none : items = [] := by
          unfold takeEnd at short
          split at short <;> simpa using short
        simp [carries, MoveOutcome.carried, none]
      · rename_i item taken rest took
        have some : items ≠ [] := fun none => by
          have whole := takeEnd_one took
          rw [none] at whole
          exact cons_ne_nil _ _ whole.eq_nil
        simp [carries, MoveOutcome.carried, some]

variable {store : SharedStore Score}

theorem MapStep.balanced_effect (step : MapStep Score)
    (balanced : store.Balanced) : (step.effect store).Balanced := by
  unfold SharedStore.Balanced at balanced ⊢
  fun_cases MapStep.effect step store with
  | case1 => exact balanced
  | case2 => exact balanced
  | case3 =>
    rw [← balanced]
    simp [weigh]
  | case4 => exact balanced
  | case5 key _ number found =>
    obtain ⟨entry, here⟩ := SharedStore.exists_of_find found
    rw [← balanced, modify_eq_set _ here.1]
    exact congrArg (· + _) (add_right_cancel (weigh_set _ here.1 { entry with linked := false }))
  | case6 => exact balanced
  | case7 => exact balanced
  | case8 number edit _ entry here answer after applied =>
    have exchanged := weigh_set (fun entry => entry.collection.elements) here
      { entry with collection := after }
    have kept := edit.balanced entry.collection
    rw [applied] at kept
    dsimp only at exchanged kept ⊢
    rw [← balanced]
    refine add_right_cancel (b := entry.collection.elements) ?_
    rw [add_right_comm, exchanged, add_add_add_comm, kept]
    abel
  | case9 => exact balanced
  | case10 src dst srcDir dstDir _ source target targetHere sourceHere different outcome sourceAfter
      targetAfter applied =>
    have exchanged := weigh_set_set (fun entry => entry.collection.elements) sourceHere
      targetHere different { source with collection := sourceAfter }
      { target with collection := targetAfter }
    have kept := moveAcross_elements srcDir dstDir source.collection target.collection
    rw [applied] at kept
    rw [← balanced]
    refine congrArg (· + _) (add_right_cancel (exchanged.trans ?_))
    rw [kept.1, kept.2]
    abel
  | case11 => exact balanced

theorem MapStep.lost_effect_iff (step : MapStep Score)
    (none : store.lost = 0) : (step.effect store).lost = 0 ↔ step.Safe store := by
  unfold SharedStore.lost at none ⊢
  fun_cases MapStep.effect step store with
  | case1 => exact iff_of_true none trivial
  | case2 => exact iff_of_true none trivial
  | case3 key kind _ _ =>
    refine iff_of_true ?_ trivial
    have fresh : unreachable (⟨key, true, kind.empty⟩ : StoreEntry Score) = 0 := rfl
    simpa [weigh, fresh] using none
  | case4 key _ missing =>
    refine iff_of_true none fun number entry found => ?_
    rw [missing] at found
    cases found
  | case5 key _ number found =>
    obtain ⟨entry, here, linked, -⟩ := SharedStore.exists_of_find found
    have exchanged := weigh_set unreachable here { entry with linked := false }
    have before : unreachable entry = 0 := if_pos linked
    have after : unreachable { entry with linked := false } = entry.collection.elements := rfl
    rw [none, before, after, add_zero, zero_add] at exchanged
    rw [modify_eq_set _ here, exchanged, ← CollectionObject.isEmpty_iff]
    constructor
    · intro empty other otherEntry otherFound otherHere
      obtain rfl := Option.some.inj (found.symm.trans otherFound)
      obtain rfl := Option.some.inj (here.symm.trans otherHere)
      exact empty
    · intro safe
      exact safe number entry found here
  | case6 => exact iff_of_true none trivial
  | case7 number edit _ missing =>
    refine iff_of_true none fun entry here => ?_
    rw [missing] at here
    cases here
  | case8 number edit _ entry here answer after applied =>
    have exchanged := weigh_set unreachable here { entry with collection := after }
    have nothing := weight_eq_zero here none
    have kept := edit.balanced entry.collection
    have adds := edit.adds_iff entry.collection
    rw [applied] at kept adds
    rw [none, nothing, add_zero, zero_add] at exchanged
    rw [exchanged]
    have safe : (MapStep.write number edit).Safe store ↔
        (edit.adds entry.collection → entry.linked) := by
      constructor
      · exact fun safe => safe entry here
      · intro safe other otherHere
        obtain rfl := Option.some.inj (here.symm.trans otherHere)
        exact safe
    rw [safe, adds]
    by_cases linked : entry.linked
    · exact iff_of_true (if_pos linked) fun _ => linked
    · rw [unreachable, if_neg linked] at nothing ⊢
      rw [nothing, zero_add] at kept
      simp only [linked, Bool.false_eq_true, imp_false, not_not]
      constructor
      · intro gone
        by_contra pushes
        rw [edit.returned_eq_zero answer pushes, gone] at kept
        exact pushes kept.symm
      · intro pushesNothing
        rw [pushesNothing] at kept
        exact (add_eq_zero.mp kept).1
  | case9 =>
    exact iff_of_true none fun _ _ _ _ different => absurd rfl different
  | case10 src dst srcDir dstDir _ source target targetHere sourceHere different outcome sourceAfter
      targetAfter applied =>
    have exchanged := weigh_set_set unreachable sourceHere targetHere different
      { source with collection := sourceAfter } { target with collection := targetAfter }
    have kept := moveAcross_elements srcDir dstDir source.collection target.collection
    have carriesIff := carries_iff srcDir dstDir source.collection target.collection
    have sourceNothing := weight_eq_zero sourceHere none
    have targetNothing := weight_eq_zero targetHere none
    rw [applied] at kept carriesIff
    rw [none, sourceNothing, targetNothing, add_zero, zero_add, add_zero] at exchanged
    dsimp only at exchanged kept carriesIff ⊢
    rw [exchanged]
    have safe : (MapStep.moveAcross src dst srcDir dstDir).Safe store ↔
        (carries source.collection target.collection → target.linked) := by
      constructor
      · exact fun safe => safe source target sourceHere targetHere different
      · intro safe otherSource otherTarget otherSourceHere otherTargetHere _
        obtain rfl := Option.some.inj (sourceHere.symm.trans otherSourceHere)
        obtain rfl := Option.some.inj (targetHere.symm.trans otherTargetHere)
        exact safe
    have sourceGone : unreachable { source with collection := sourceAfter } = 0 := by
      by_cases linked : source.linked
      · exact if_pos linked
      · rw [unreachable, if_neg linked] at sourceNothing ⊢
        rw [sourceNothing] at kept
        exact (add_eq_zero.mp kept.1.symm).1
    rw [safe, sourceGone, zero_add, carriesIff]
    by_cases linked : target.linked
    · exact iff_of_true (if_pos linked) fun _ => linked
    · rw [unreachable, if_neg linked] at targetNothing ⊢
      rw [targetNothing, zero_add] at kept
      simp only [linked, Bool.false_eq_true, imp_false, not_not]
      rw [kept.2]
  | case11 src dst srcDir dstDir _ missing =>
    exact iff_of_true none fun source target sourceHere targetHere =>
      (missing source target sourceHere targetHere).elim

end

section

variable [LinearOrder Score] {ι : Type} [DecidableEq ι]

abbrev StoreThreads (Score ι : Type) :=
  Calls (MapStep Score) MapStep.Answer (List (StoreAnswer Score)) (SharedStore Score) Unit ι

namespace StoreThreads

def start (threads : ι → List (StoreOp Score)) : StoreThreads Score ι :=
  Calls.start (fun thread => threadSteps (threads thread)) () .new

variable (calls : StoreThreads Score ι)

def turn (thread : ι) : StoreThreads Score ι :=
  (calls.advance MapStep.exec (fun _ _ _ => ()) () thread).getD calls

omit [LinearOrder Score] [DecidableEq ι] in
def SafeTurn (thread : ι) : Prop :=
  match calls.rest thread with
  | .done _ => True
  | .step step _ => step.Safe calls.state

def AlwaysConserved (calls : StoreThreads Score ι) : List ι → Prop
  | [] => calls.state.Conserved
  | thread :: schedule => calls.state.Conserved ∧ (calls.turn thread).AlwaysConserved schedule

instance decidableAlwaysConserved : (schedule : List ι) → (calls : StoreThreads Score ι) →
    Decidable (calls.AlwaysConserved schedule)
  | [], calls => inferInstanceAs (Decidable calls.state.Conserved)
  | thread :: schedule, calls =>
    @instDecidableAnd _ _ inferInstance (decidableAlwaysConserved schedule (calls.turn thread))

def AllSafe (calls : StoreThreads Score ι) : List ι → Prop
  | [] => True
  | thread :: schedule => calls.SafeTurn thread ∧ (calls.turn thread).AllSafe schedule

theorem turn_cases (thread : ι) :
    ((calls.turn thread).state = calls.state ∧ calls.SafeTurn thread) ∨
      ∃ step : MapStep Score, (calls.turn thread).state = step.effect calls.state ∧
        (calls.SafeTurn thread ↔ step.Safe calls.state) := by
  unfold turn SafeTurn Calls.advance
  cases calls.rest thread with
  | done answers => exact .inl ⟨rfl, trivial⟩
  | step step next => exact .inr ⟨step, rfl, Iff.rfl⟩

/-- From a balanced store the elements stay conserved exactly as long as the turns are safe. -/
theorem alwaysConserved_iff_of_balanced (schedule : List ι) (calls : StoreThreads Score ι)
    (balanced : calls.state.Balanced) (none : calls.state.lost = 0) :
    calls.AlwaysConserved schedule ↔ calls.AllSafe schedule := by
  induction schedule generalizing calls with
  | nil => exact iff_of_true (balanced.conserved_iff.mpr none) trivial
  | cons thread schedule ih =>
    have conserved := balanced.conserved_iff.mpr none
    unfold AlwaysConserved AllSafe
    obtain ⟨same, safe⟩ | ⟨step, effect, safe⟩ := calls.turn_cases thread
    · have rest := ih (calls.turn thread) (same ▸ balanced) (same ▸ none)
      simp only [conserved, safe, true_and, rest]
    · have afterwards : (calls.turn thread).state.Balanced := effect ▸ step.balanced_effect balanced
      have lost : (calls.turn thread).state.lost = 0 ↔ calls.SafeTurn thread := by
        rw [effect, safe]
        exact step.lost_effect_iff none
      by_cases kept : (calls.turn thread).state.lost = 0
      · simp only [conserved, lost.mp kept, true_and]
        exact ih _ afterwards kept
      · refine iff_of_false (fun always => kept ?_) (fun safe => kept (lost.mpr safe.1))
        refine afterwards.conserved_iff.mp ?_
        cases schedule with
        | nil => exact always.2
        | cons next schedule => exact always.2.1

/-- For any threads and order of steps, the elements are conserved throughout exactly where every
element goes into a linked entry and every removed entry is empty. -/
theorem alwaysConserved_iff (threads : ι → List (StoreOp Score)) (schedule : List ι) :
    (start threads).AlwaysConserved schedule ↔ (start threads).AllSafe schedule :=
  alwaysConserved_iff_of_balanced schedule _ rfl rfl

end StoreThreads

end

/-- The value `b` is pushed between the pop of `a` and the removal of the key, and is lost. -/
theorem push_lost_by_remove : ¬(StoreThreads.start fun first : Bool =>
        if first then
          ([.pushListRight (bytesOf "k") (bytesOf "a"), .popListLeft (bytesOf "k")] :
            List (StoreOp Nat))
        else [.pushListRight (bytesOf "k") (bytesOf "b")]).AlwaysConserved
      [true, true, true, true, true, true, false, false, false, false, true] := by
  decide +kernel

end Wedb.Collections
