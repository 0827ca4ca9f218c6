/-
The beam search of the vector index. An expansion compares neighbours with the farthest result,
which it reads again only after a result is dropped.
-/

import Mathlib.Data.Fintype.Card
import Mathlib.Data.List.Sort
import Mathlib.Data.Prod.Lex
import Mathlib.Data.Finset.Dedup

namespace Wedb.Vector

open List

/-- The thread-local marks: the generation, and for each node the last one that met it. -/
structure Marks (size : Nat) where
  epoch : Nat
  touched : Fin size → Nat
  bounded : ∀ node, touched node ≤ epoch

namespace Marks

variable {size : Nat} (marks : Marks size)

def clear : Marks size where
  epoch := 1
  touched _ := 0
  bounded _ := Nat.zero_le 1

def next : Marks size where
  epoch := marks.epoch + 1
  touched := marks.touched
  bounded node := (marks.bounded node).trans (Nat.le_succ _)

def advance : Marks size := if marks.epoch = 4294967295 then clear else marks.next

variable (node : Fin size)

def visited : Bool := marks.touched node = marks.epoch

def visit : Marks size where
  epoch := marks.epoch
  touched := Function.update marks.touched node marks.epoch
  bounded other := by
    rw [Function.update_apply]
    split_ifs
    · exact le_rfl
    · exact marks.bounded other

theorem visited_visit (node other : Fin size) :
    (marks.visit node).visited other = (decide (other = node) || marks.visited other) := by
  unfold visited visit
  by_cases same : other = node
  · simp [same]
  · simp [same, Function.update_of_ne]

theorem visited_advance : marks.advance.visited node = false := by
  unfold visited advance
  split_ifs
  · rfl
  · exact decide_eq_false (Nat.ne_of_lt (Nat.lt_succ_of_le (marks.bounded node)))

end Marks

/-- A search: the heaps as sorted lists, and the nodes whose distance was computed. -/
structure Beam (size : Nat) where
  marks : Marks size
  candidates : List (Fin size) := []
  results : List (Fin size) := []
  evaluated : List (Fin size) := []

variable {size : Nat} {δ : Type} [LinearOrder δ] (links : Fin size → List (Fin size))
  (dist : Fin size → δ) (infinity : δ) (ef : Nat)

def rank (node : Fin size) : δ ×ₗ Fin size := toLex (dist node, node)

namespace Beam

variable (beam : Beam size)

/-- A node whose distance is computed and that is put on both heaps. -/
def push (node : Fin size) : Beam size where
  marks := beam.marks.visit node
  candidates := beam.candidates.orderedInsert (Order.Preimage (rank dist) (· ≤ ·)) node
  results := beam.results.orderedInsert (Order.Preimage (rank dist) (· ≥ ·)) node
  evaluated := node :: beam.evaluated

def pass (node : Fin size) : Beam size :=
  { beam with marks := beam.marks.visit node, evaluated := node :: beam.evaluated }

def plant (seed : Fin size) : Beam size :=
  if beam.marks.visited seed then beam else beam.push dist seed

def consider (state : Beam size × δ) (node : Fin size) : Beam size × δ :=
  let (beam, worst) := state
  if beam.marks.visited node then state
  else if beam.results.length < ef ∨ dist node < worst then
    let pushed := beam.push dist node
    if ef < pushed.results.length then
      let dropped := pushed.results.tail
      ({ pushed with results := dropped }, (dropped.head?.map dist).getD infinity)
    else (pushed, worst)
  else (beam.pass node, worst)

def expand : Option (Beam size) :=
  match beam.candidates, beam.results with
  | nearest :: rest, farthest :: _ =>
    if dist farthest < dist nearest then none
    else some ((links nearest).foldl (consider dist infinity ef)
      ({ beam with candidates := rest }, dist farthest)).1
  | _, _ => none

def search : Nat → Beam size
  | 0 => beam
  | rounds + 1 => ((search rounds).expand links dist infinity ef).getD (search rounds)

end Beam

def planted (marks : Marks size) (seeds : List (Fin size)) : Beam size :=
  seeds.foldl (Beam.plant dist) { marks := marks.advance }

/-- `greedy_with`, with as many rounds as there are nodes. -/
def greedyWith (marks : Marks size) (seeds : List (Fin size)) : Beam size :=
  (planted dist marks seeds).search links dist infinity ef size

def Beam.answer (beam : Beam size) : List (Fin size × δ) :=
  beam.results.reverse.map fun node => (node, dist node)

/-- The results are the nearest of the nodes whose distance was computed. -/
structure Keeps (beam : Beam size) : Prop where
  seen : ∀ node, beam.marks.visited node = true ↔ node ∈ beam.evaluated
  once : beam.evaluated.Nodup
  sorted : beam.results.Pairwise (Order.Preimage (rank dist) (· ≥ ·))
  size : beam.results.length = min ef beam.evaluated.length
  nearest : ∃ lost, beam.evaluated.Perm (beam.results ++ lost) ∧
    ∀ near ∈ beam.results, ∀ far ∈ lost, dist near ≤ dist far

variable {links dist infinity ef} {beam : Beam size} {node : Fin size}

theorem dist_le_of_rank {near far : Fin size} (order : rank dist near ≤ rank dist far) :
    dist near ≤ dist far := by
  rcases (Prod.Lex.toLex_le_toLex).mp order with less | ⟨same, -⟩
  · exact less.le
  · exact same.le

def fresh (beam : Beam size) (nodes : List (Fin size)) : Nat :=
  (nodes.toFinset \ beam.evaluated.toFinset).card

namespace Keeps

variable {others : List (Fin size)} {farthest : Fin size}

section

variable (keeps : Keeps dist ef beam)

include keeps

theorem seen_cons (other : Fin size) :
    (beam.marks.visit node).visited other ↔ other ∈ node :: beam.evaluated := by
  rw [Marks.visited_visit, Bool.or_eq_true, decide_eq_true_iff, keeps.seen, mem_cons]

section

variable (new : beam.marks.visited node = false)

include new

theorem once_cons : (node :: beam.evaluated).Nodup := by
  refine nodup_cons.mpr ⟨fun member => ?_, keeps.once⟩
  rw [(keeps.seen node).mpr member] at new
  cases new

theorem push (room : beam.results.length < ef) : Keeps dist ef (beam.push dist node) := by
  obtain ⟨lost, all, -⟩ := keeps.nearest
  have few : beam.results.length = beam.evaluated.length := by
    have := keeps.size
    omega
  have none : lost = [] := by
    have count := all.length_eq
    rw [length_append] at count
    exact length_eq_zero_iff.mp (by omega)
  subst none
  have inserted := beam.results.perm_orderedInsert (Order.Preimage (rank dist) (· ≥ ·)) node
  refine ⟨keeps.seen_cons, keeps.once_cons new, keeps.sorted.orderedInsert _ _, ?_, [], ?_, ?_⟩
  · change (List.orderedInsert _ _ _).length = min ef (beam.evaluated.length + 1)
    rw [orderedInsert_length]
    omega
  · rw [append_nil] at all ⊢
    exact (all.cons node).trans inserted.symm
  · exact fun _ _ _ absent => absurd absent not_mem_nil

theorem swap (held : beam.results = farthest :: others)
    (full : beam.results.length = ef) (closer : dist node < dist farthest) :
    Keeps dist ef { beam.push dist node with results := (beam.push dist node).results.tail } := by
  obtain ⟨lost, all, farther⟩ := keeps.nearest
  have inserted := beam.results.perm_orderedInsert (Order.Preimage (rank dist) (· ≥ ·)) node
  have sorted := keeps.sorted.orderedInsert node
  have count := keeps.size
  unfold Beam.push
  generalize beam.results.orderedInsert (Order.Preimage (rank dist) (· ≥ ·)) node = pushed
    at inserted sorted ⊢
  cases pushed with
  | nil => exact absurd inserted.symm (cons_ne_nil _ _ ∘ List.Perm.eq_nil)
  | cons dropped kept =>
    obtain ⟨most, rest⟩ := pairwise_cons.mp sorted
    have same := inserted.length_eq
    simp only [length_cons] at same
    refine ⟨keeps.seen_cons, keeps.once_cons new, rest, ?_, dropped :: lost, ?_, ?_⟩
    · change kept.length = min ef (beam.evaluated.length + 1)
      omega
    · rw [tail_cons]
      exact ((all.cons node).trans (inserted.symm.append_right lost)).trans perm_middle.symm
    · intro near isKept far isLost
      rcases mem_cons.mp isLost with rfl | before
      · exact dist_le_of_rank (most near isKept)
      · rcases mem_cons.mp (inserted.subset (mem_cons_of_mem _ isKept)) with rfl | old
        · exact closer.le.trans (farther farthest (held ▸ mem_cons_self) far before)
        · exact farther near old far before

theorem pass (held : beam.results = farthest :: others)
    (full : beam.results.length = ef) (farther : ¬dist node < dist farthest) :
    Keeps dist ef (beam.pass node) := by
  obtain ⟨lost, all, nearer⟩ := keeps.nearest
  have count := keeps.size
  have most := (pairwise_cons.mp (held ▸ keeps.sorted)).1
  refine ⟨keeps.seen_cons, keeps.once_cons new, keeps.sorted, ?_, node :: lost, ?_, ?_⟩
  · change beam.results.length = min ef (beam.evaluated.length + 1)
    omega
  · exact (all.cons node).trans perm_middle.symm
  · intro near isResult far isLost
    rcases mem_cons.mp isLost with rfl | before
    · refine le_trans ?_ (not_lt.mp farther)
      rcases mem_cons.mp (held ▸ isResult) with rfl | other
      · exact le_rfl
      · exact dist_le_of_rank (most near other)
    · exact nearer near isResult far before

end

variable {nodes : List (Fin size)}

theorem fill (infinity worst : δ) (room : beam.results.length + fresh beam nodes ≤ ef) :
    Keeps dist ef (nodes.foldl (Beam.plant dist) beam) ∧
      nodes.foldl (Beam.consider dist infinity ef) (beam, worst) =
        (nodes.foldl (Beam.plant dist) beam, worst) := by
  induction nodes generalizing beam with
  | nil => exact ⟨keeps, rfl⟩
  | cons node rest ih =>
    rw [foldl_cons, foldl_cons, Beam.plant, Beam.consider]
    cases new : beam.marks.visited node with
    | true =>
      have fewer : fresh beam rest ≤ fresh beam (node :: rest) := by
        refine Finset.card_le_card (Finset.sdiff_subset_sdiff ?_ le_rfl)
        rw [toFinset_cons]
        exact Finset.subset_insert _ _
      rw [if_pos rfl, if_pos rfl]
      exact ih keeps (by omega)
    | false =>
      have less : fresh (beam.push dist node) rest < fresh beam (node :: rest) := by
        have unseen : node ∉ beam.evaluated := (nodup_cons.mp (keeps.once_cons new)).1
        refine Finset.card_lt_card (Finset.ssubset_iff_of_subset ?_ |>.mpr ⟨node, ?_, ?_⟩)
        · intro other member
          simp only [Beam.push, Finset.mem_sdiff, mem_toFinset, mem_cons, not_or] at member ⊢
          exact ⟨.inr member.1, member.2.2⟩
        · simp [unseen]
        · simp [Beam.push]
      have length : (beam.push dist node).results.length = beam.results.length + 1 :=
        orderedInsert_length _ _ _
      have some : beam.results.length < ef := by omega
      rw [if_neg Bool.false_ne_true, if_neg Bool.false_ne_true, if_pos (.inl some),
        if_neg (by omega)]
      exact ih (keeps.push new some) (by omega)

theorem replace (held : beam.results = farthest :: others) (full : beam.results.length = ef) :
    Keeps dist ef (nodes.foldl (Beam.consider dist infinity ef) (beam, dist farthest)).1 := by
  induction nodes generalizing beam farthest others with
  | nil => exact keeps
  | cons node rest ih =>
    have length : (beam.push dist node).results.length = beam.results.length + 1 :=
      orderedInsert_length _ _ _
    have some : 0 < beam.results.length := held ▸ Nat.succ_pos _
    rw [foldl_cons, Beam.consider]
    dsimp only
    split_ifs with visited near exceeded
    · exact ih keeps held full
    · have closer : dist node < dist farthest := near.resolve_left (by omega)
      have swapped := keeps.swap (Bool.eq_false_iff.mpr visited) held full closer
      have tail := (beam.push dist node).results.length_tail
      cases kept : (beam.push dist node).results.tail with
      | nil =>
        rw [kept, length_nil] at tail
        omega
      | cons next others =>
        rw [kept] at swapped tail
        exact ih swapped rfl (by dsimp only; omega)
    · omega
    · exact ih (keeps.pass (Bool.eq_false_iff.mpr visited) held full fun less =>
        near (.inr less)) held full

end

end Keeps

variable {rounds : Nat}

/-- The expansion that comes next finds the results full, or has room for all new neighbours. -/
def Roomy (links : Fin size → List (Fin size)) (ef : Nat) (beam : Beam size) : Prop :=
  ∀ nearest ∈ beam.candidates.head?, beam.results.length = ef ∨
    beam.results.length + fresh beam (links nearest) ≤ ef

theorem Keeps.expand (keeps : Keeps dist ef beam) (roomy : Roomy links ef beam)
    {next : Beam size} (expanded : beam.expand links dist infinity ef = some next) :
    Keeps dist ef next := by
  unfold Beam.expand at expanded
  split at expanded
  · rename_i nearest rest farthest others waiting held
    split_ifs at expanded
    cases expanded
    have popped : Keeps dist ef { beam with candidates := rest } := { keeps with }
    rcases roomy nearest (by rw [waiting]; rfl) with full | room
    · exact popped.replace held full
    · obtain ⟨filled, same⟩ := popped.fill infinity (dist farthest) room
      rw [same]
      exact filled
  · cases expanded

/-- Every node seen was a candidate at most once: this many rounds are paid for. -/
def Paid (rounds : Nat) (beam : Beam size) : Prop :=
  rounds + beam.candidates.length ≤ beam.evaluated.length

theorem Paid.push (paid : Paid rounds beam) (node : Fin size) :
    Paid rounds (beam.push dist node) := by
  have length : (beam.push dist node).candidates.length = beam.candidates.length + 1 :=
    orderedInsert_length _ _ _
  unfold Paid at paid ⊢
  rw [length]
  exact Nat.succ_le_succ paid

theorem Paid.consider {nodes : List (Fin size)} {worst : δ} (paid : Paid rounds beam) :
    Paid rounds (nodes.foldl (Beam.consider dist infinity ef) (beam, worst)).1 := by
  refine List.foldlRecOn (motive := fun state : Beam size × δ => Paid rounds state.1) _ _ paid ?_
  rintro ⟨beam, worst⟩ paid node -
  rw [Beam.consider]
  dsimp only
  split_ifs
  · exact paid
  · exact paid.push node
  · exact paid.push node
  · exact Nat.le_succ_of_le paid

theorem Paid.expand (paid : Paid rounds beam) {next : Beam size}
    (expanded : beam.expand links dist infinity ef = some next) : Paid (rounds + 1) next := by
  unfold Beam.expand at expanded
  split at expanded
  · rename_i nearest rest farthest others waiting held
    split_ifs at expanded
    cases expanded
    refine Paid.consider ?_
    unfold Paid at paid ⊢
    rw [waiting, length_cons] at paid
    dsimp only
    omega
  · cases expanded

theorem Keeps.search (keeps : Keeps dist ef beam) (paid : Paid 0 beam)
    (roomy : ∀ before < rounds, Roomy links ef (beam.search links dist infinity ef before)) :
    let found := beam.search links dist infinity ef rounds
    Keeps dist ef found ∧ (found.expand links dist infinity ef = none ∨ Paid rounds found) := by
  induction rounds with
  | zero => exact ⟨keeps, .inr paid⟩
  | succ rounds ih =>
    obtain ⟨kept, ended⟩ := ih fun before earlier => roomy before (Nat.lt_succ_of_lt earlier)
    rw [Beam.search]
    cases expanded : (beam.search links dist infinity ef rounds).expand links dist infinity ef with
    | none => exact ⟨kept, .inl expanded⟩
    | some next =>
      refine ⟨kept.expand (roomy rounds (Nat.lt_succ_self rounds)) expanded, .inr ?_⟩
      exact (ended.resolve_left (by rw [expanded]; exact Option.some_ne_none next)).expand expanded

/-- The search ends by itself and returns the nearest `ef` of the nodes it saw, or all, by distance.
-/
theorem greedyWith_nearest (links : Fin size → List (Fin size)) (dist : Fin size → δ)
    (infinity : δ) (marks : Marks size) (seeds : List (Fin size)) (ef : Nat)
    (wide : seeds.toFinset.card ≤ ef)
    (roomy : ∀ rounds < size,
      Roomy links ef ((planted dist marks seeds).search links dist infinity ef rounds)) :
    let found := greedyWith links dist infinity ef marks seeds
    let answer := found.answer dist
    found.expand links dist infinity ef = none ∧ found.evaluated.Nodup ∧
      answer.length = min ef found.evaluated.length ∧ answer.Pairwise (·.2 ≤ ·.2) ∧
      (∀ near ∈ answer, near.2 = dist near.1) ∧
      ∃ lost, found.evaluated.Perm (answer.map Prod.fst ++ lost) ∧
        ∀ near ∈ answer, ∀ far ∈ lost, near.2 ≤ dist far := by
  intro found answer
  have blank : Keeps dist ef ({ marks := marks.advance } : Beam size) :=
    ⟨by simp [Marks.visited_advance], List.nodup_nil, List.Pairwise.nil, by simp, [], by simp⟩
  have room : 0 + fresh ({ marks := marks.advance } : Beam size) seeds ≤ ef := by simpa [fresh]
  obtain ⟨start, same⟩ := blank.fill infinity infinity room
  have paid : Paid 0 (planted dist marks seeds) := by
    have none : Paid 0 ({ marks := marks.advance } : Beam size) := Nat.zero_le _
    have considered : Paid 0 (seeds.foldl (Beam.consider dist infinity ef)
      ({ marks := marks.advance }, infinity)).1 := none.consider
    rwa [same] at considered
  have result : Keeps dist ef found ∧ (found.expand links dist infinity ef = none ∨
    Paid size found) := start.search paid roomy
  obtain ⟨keeps, ended⟩ := result
  have names : answer.map Prod.fst = found.results.reverse := by
    simp [answer, Beam.answer, Function.comp_def]
  have entry near (member : near ∈ answer) : near.1 ∈ found.results ∧ near.2 = dist near.1 := by
    obtain ⟨node, isResult, rfl⟩ := List.mem_map.mp member
    exact ⟨List.mem_reverse.mp isResult, rfl⟩
  obtain ⟨lost, all, nearer⟩ := keeps.nearest
  refine ⟨?_, keeps.once, ?_, ?_, fun near member => (entry near member).2,
    lost, ?_, fun near member far isLost => ?_⟩
  · refine ended.elim id fun spent => ?_
    have count : found.evaluated.length ≤ size := by
      simpa using keeps.once.length_le_card
    have none : found.candidates = [] := by
      unfold Paid at spent
      exact List.length_eq_zero_iff.mp (by omega)
    rw [Beam.expand, none]
  · rw [← keeps.size]
    simp [answer, Beam.answer]
  · refine List.pairwise_map.mpr (List.pairwise_reverse.mpr (keeps.sorted.imp ?_))
    exact fun order => dist_le_of_rank order
  · rw [names]
    exact all.trans (found.results.reverse_perm.symm.append_right lost)
  · rw [(entry near member).2]
    exact nearer near.1 (entry near member).1 far isLost

def fork (node : Fin 3) : List (Fin 3) := if node = 0 then [1, 2] else []

def forkDist (node : Fin 3) : Nat := if node = 0 then 1 else if node = 1 then 5 else 3

theorem greedyWith_nearest_fork :
    (greedyWith fork forkDist 9 3 .clear [0]).expand fork forkDist 9 3 = none :=
  (greedyWith_nearest fork forkDist 9 .clear [0] 3 (by decide) (by unfold Roomy; decide)).1

/-- Node 2 is measured after the results are full and compared with a stale bound. -/
theorem nearer_neighbour_lost :
    let found := greedyWith fork forkDist 9 2 .clear [0]
    found.answer forkDist = [(0, 1), (1, 5)] ∧ 2 ∈ found.evaluated ∧ forkDist 2 < 5 := by
  decide

end Wedb.Vector
