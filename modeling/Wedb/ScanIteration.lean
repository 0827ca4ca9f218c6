/-
What a full iteration of HSCAN, SSCAN and ZSCAN returns. Sorted sets are scanned completely, and so
are flattened sets and hashes of which no two names share a digest.

In a compact set or hash a scan without a pattern is one with the pattern `*`, which does not match
the empty name, so that an empty name is never returned. A compact hash is moreover scanned to the
end only if two pages hold what matches.
-/

import Wedb.CollectionScan

namespace Wedb.Redis

open List hiding set getElem?_eq_some_iff

section

variable {found : Bytes → Bool} {limit cursor total : Nat}

theorem sscanLoop_eq (members items : List Bytes) (index : Nat) (room : items.length < limit)
    (inside : cursor - index ≤ members.length) :
    sscanLoop found limit cursor total index members items =
      let (full, position, items) :=
        fill found limit (members.drop (cursor - index)) (max index cursor) items
      (if full then nextCursor total position else 0, items) := by
  induction members generalizing index items with
  | nil => grind [sscanLoop, fill]
  | cons member rest ih =>
    rw [sscanLoop]
    by_cases early : index < cursor
    · obtain ⟨skip, eq⟩ : ∃ skip, cursor - index = skip + 1 := ⟨cursor - index - 1, by omega⟩
      have next := ih items (index + 1) room
      grind
    · have next := fun items room => ih items (index + 1) room (by omega)
      rw [Nat.sub_eq_zero_of_le (by omega)] at next ⊢
      rw [max_eq_left (by omega)] at next ⊢
      grind [fill, nextCursor]

variable (found) {limit scanned batch : Nat}

theorem windows_sscan (positive : 0 < limit) (members : List Bytes) :
    Windows (fun cursor => if members.length ≤ cursor then (0, [])
        else sscanLoop found limit cursor members.length 0 members []) members found := by
  refine windows_fill positive fun cursor => ?_
  by_cases past : members.length ≤ cursor
  · exact .inl ⟨past, if_pos past⟩
  · rw [if_neg past, sscanLoop_eq _ _ _ positive (Nat.le_of_not_le past), Nat.zero_max]
    grind

theorem zscanLoop_eq (entries : List (Bytes × UInt64)) (room : scanned < batch)
    (items : List (Bytes × UInt64)) :
    zscanLoop found batch (entries.map some) scanned items =
      (scanned + min (batch - scanned) entries.length,
        items ++ (entries.take (batch - scanned)).filter fun entry => found entry.1) := by
  induction entries generalizing scanned items with
  | nil => simp [zscanLoop]
  | cons entry rest ih =>
    obtain ⟨left, eq⟩ : ∃ left, batch - scanned = left + 1 := ⟨batch - scanned - 1, by omega⟩
    have shown : ∀ others, (if found entry.1 then items ++ [entry] else items) ++
            others.filter (fun entry => found entry.1) =
          items ++ (entry :: others).filter fun entry => found entry.1 := by
      intro others
      cases here : found entry.1 <;> simp [here]
    rw [map_cons, zscanLoop, eq, take_succ_cons, length_cons]
    by_cases full : batch ≤ scanned + 1
    · have none_left : left = 0 := by omega
      have nothing := shown []
      rw [filter_nil, append_nil] at nothing
      rw [if_pos full, none_left, take_zero, nothing]
      congr 1
    · have left_eq : batch - (scanned + 1) = left := by omega
      rw [if_neg full, ih (by omega), left_eq, shown]
      congr 1
      omega

theorem windows_zscan (positive : 0 < batch) (entries : List (Bytes × UInt64)) :
    Windows (fun cursor => if entries.length = 0 ∨ entries.length ≤ cursor then (0, [])
        else
          let page := zscanLoop found batch ((entries.map some).drop cursor) 0 []
          (if entries.length ≤ cursor + page.1 then 0 else cursor + page.1, page.2))
      entries fun entry => found entry.1 := by
  intro cursor
  dsimp only
  by_cases past : entries.length = 0 ∨ entries.length ≤ cursor
  · rw [if_pos past]
    exact ⟨0, rfl, .inl ⟨rfl, by omega⟩⟩
  · rw [if_neg past, ← map_drop, zscanLoop_eq found _ positive, Nat.zero_add, Nat.sub_zero,
      length_drop]
    refine ⟨batch, rfl, ?_⟩
    split_ifs <;> dsimp only <;> omega

end

section

variable {α : Type} {context : ScanContext} {index : ChunkIndex} {visit : Bytes → Option α}
variable {limit cursor : Nat}

variable {position chunkId : Nat} {name : Bytes} {state : ScanState α} {items : List α}
  {names : List Bytes}

def ChunkIndex.At (index : ChunkIndex) (position : Nat) (name : Bytes) : Prop :=
  ∃ id names element, id ≤ index.maxChunkId ∧ index.readChunk id = some names ∧
    names[element]? = some name ∧ position = id * chunkCapacity + element

def ChunkIndex.Distinct (context : ScanContext) (index : ChunkIndex) : Prop :=
  ∀ first second, index.Lists first → index.Lists second →
    context.fastHash128 first = context.fastHash128 second → first = second

theorem ChunkIndex.lists_iff (index : ChunkIndex) (name : Bytes) :
    index.Lists name ↔ ∃ position, index.At position name := by
  constructor
  · rintro ⟨id, names, small, read, member⟩
    obtain ⟨element, here⟩ := mem_iff_getElem?.mp member
    exact ⟨_, id, names, element, small, read, here, rfl⟩
  · rintro ⟨position, id, names, element, small, read, here, -⟩
    exact ⟨id, names, small, read, mem_of_getElem? here⟩

theorem ChunkIndex.At.chunk (placed : index.At position name) :
    position / chunkCapacity ≤ index.maxChunkId ∧ ∃ names,
      index.readChunk (position / chunkCapacity) = some names ∧
      names[position % chunkCapacity]? = some name := by
  obtain ⟨id, names, element, small, read, here, same⟩ := placed
  have short : element < chunkCapacity :=
    Nat.lt_of_lt_of_le (getElem?_eq_some_iff.mp here).1 (index.length_le id names read)
  have quotient : position / chunkCapacity = id := by
    rw [same]
    unfold chunkCapacity at short ⊢
    omega
  have remainder : position % chunkCapacity = element := by
    rw [same]
    unfold chunkCapacity at short ⊢
    omega
  rw [quotient, remainder]
  exact ⟨small, names, read, here⟩

structure Scanned (context : ScanContext) (index : ChunkIndex) (visit : Bytes → Option α)
    (limit cursor position : Nat) (state : ScanState α) : Prop where
  sound : ∀ item ∈ state.items, ∃ name, index.Lists name ∧ visit name = some item
  covers : ∀ place name item, cursor ≤ place → place < position → index.At place name →
    visit name = some item → item ∈ state.items
  seen : ∀ digest ∈ state.seen, ∃ name, index.Lists name ∧ context.fastHash128 name = digest ∧
    ∀ item, visit name = some item → item ∈ state.items
  room : state.items.length < limit

/-- A page shows listed names only, and all up to its next cursor. -/
structure Page (index : ChunkIndex) (visit : Bytes → Option α) (cursor : Nat)
    (page : Nat × List α) : Prop where
  sound : ∀ item ∈ page.2, ∃ name, index.Lists name ∧ visit name = some item
  covers : ∀ place name item, cursor ≤ place → (page.1 = 0 ∨ place < page.1) →
    index.At place name → visit name = some item → item ∈ page.2
  advances : page.1 = 0 ∨ cursor < page.1 ∧ page.1 ≤ (index.maxChunkId + 1) * chunkCapacity

variable {later place maxChunkId element total : Nat}

theorem Scanned.extend (scanned : Scanned context index visit limit cursor position state)
    (empty : ∀ place name, position ≤ place → place < later → cursor ≤ place →
      ¬index.At place name) : Scanned context index visit limit cursor later state where
  sound := scanned.sound
  covers place name item behind before placed visited := by
    by_cases early : place < position
    · exact scanned.covers place name item behind early placed visited
    · exact absurd placed (empty place name (Nat.le_of_not_lt early) before behind)
  seen := scanned.seen
  room := scanned.room

theorem ChunkIndex.At.unique {first second : Bytes} (one : index.At position first)
    (other : index.At position second) : second = first := by
  obtain ⟨-, names, read, here⟩ := one.chunk
  obtain ⟨-, others, readOther, there⟩ := other.chunk
  rw [read] at readOther
  cases readOther
  rw [here] at there
  exact (Option.some.inj there).symm

theorem Scanned.known (distinct : index.Distinct context)
    (scanned : Scanned context index visit limit cursor position state)
    (placed : index.At position name) (known : context.fastHash128 name ∈ state.seen) :
    Scanned context index visit limit cursor (position + 1) state where
  sound := scanned.sound
  covers place other item behind before there visited := by
    by_cases early : place < position
    · exact scanned.covers place other item behind early there visited
    · have here : place = position := by omega
      rw [here] at there
      rw [placed.unique there] at visited
      obtain ⟨same, listed, digest, collected⟩ := scanned.seen _ known
      have listedName := (index.lists_iff name).mpr ⟨position, placed⟩
      rw [distinct same name listed listedName digest] at collected
      exact collected item visited
  seen := scanned.seen
  room := scanned.room

section

variable (scanned : Scanned context index visit limit cursor position state)
  (placed : index.At position name)
  (more : ∀ item, item ∈ items ↔ item ∈ state.items ∨ visit name = some item)

include scanned placed more

theorem Scanned.covers_next (place : Nat) (other : Bytes) (item : α) (behind : cursor ≤ place)
    (before : place < position + 1) (there : index.At place other)
    (visited : visit other = some item) : item ∈ items := by
  rw [more]
  by_cases early : place < position
  · exact .inl (scanned.covers place other item behind early there visited)
  · have here : place = position := by omega
    rw [here] at there
    rw [placed.unique there] at visited
    exact .inr visited

theorem Scanned.sound_next : ∀ item ∈ items, ∃ name, index.Lists name ∧ visit name = some item := by
  intro item member
  rcases (more item).mp member with old | new
  · exact scanned.sound item old
  · exact ⟨name, (index.lists_iff name).mpr ⟨position, placed⟩, new⟩

theorem Scanned.next (room : items.length < limit) :
    Scanned context index visit limit cursor (position + 1)
      ⟨context.fastHash128 name :: state.seen, items⟩ where
  sound := scanned.sound_next placed more
  covers := scanned.covers_next placed more
  seen digest member := by
    rcases mem_cons.mp member with same | old
    · exact ⟨name, (index.lists_iff name).mpr ⟨position, placed⟩, same.symm,
        fun item visited => (more item).mpr (.inr visited)⟩
    · obtain ⟨other, listed, same, collected⟩ := scanned.seen digest old
      exact ⟨other, listed, same, fun item visited =>
        (more item).mpr (.inl (collected item visited))⟩
  room := room

end

theorem ChunkIndex.At.lt_chunk (placed : index.At place name)
    (read : index.readChunk chunkId = some names) (before : place < (chunkId + 1) * chunkCapacity) :
    place < chunkId * chunkCapacity + names.length := by
  obtain ⟨-, others, readOther, there⟩ := placed.chunk
  by_cases early : place < chunkId * chunkCapacity
  · omega
  · have quotient : place / chunkCapacity = chunkId := by
      unfold chunkCapacity at before early ⊢
      omega
    rw [quotient, read] at readOther
    cases readOther
    have inside := (getElem?_eq_some_iff.mp there).1
    unfold chunkCapacity at before early inside ⊢
    omega

theorem chunkCursor_cases (word : maxChunkId < 2 ^ 32)
    (small : chunkId ≤ maxChunkId) (inside : element < total) (short : total ≤ chunkCapacity) :
    chunkCursor maxChunkId chunkId element total = chunkId * chunkCapacity + (element + 1) ∨
    element + 1 = total ∧
      (chunkCursor maxChunkId chunkId element total = (chunkId + 1) * chunkCapacity ∧
          chunkId < maxChunkId ∨
        chunkCursor maxChunkId chunkId element total = 0 ∧ chunkId = maxChunkId) := by
  unfold chunkCursor saturate
  unfold chunkCapacity at short ⊢
  split
  · left
    omega
  · right
    refine ⟨by omega, ?_⟩
    split
    · left
      omega
    · right
      omega

theorem Scanned.full (small : chunkId ≤ index.maxChunkId)
    (read : index.readChunk chunkId = some names) (here : names[element]? = some name)
    (scanned : Scanned context index visit limit cursor (chunkId * chunkCapacity + element) state)
    (behind : cursor ≤ chunkId * chunkCapacity + element)
    (more : ∀ item, item ∈ items ↔ item ∈ state.items ∨ visit name = some item) :
    Page index visit cursor (chunkCursor index.maxChunkId chunkId element names.length, items) := by
  have placed : index.At (chunkId * chunkCapacity + element) name :=
    ⟨chunkId, names, element, small, read, here, rfl⟩
  have covered := scanned.covers_next placed more
  have inside : element < names.length := (getElem?_eq_some_iff.mp here).1
  have short := index.length_le chunkId names read
  have next := chunkCursor_cases index.maxChunkId_lt small inside short
  refine ⟨scanned.sound_next placed more, ?_, ?_⟩
  · intro place other item after ends there visited
    refine covered place other item after ?_ there visited
    rcases next with same | ⟨final, same⟩
    · omega
    · have before : place < (chunkId + 1) * chunkCapacity := by
        rcases same with ⟨same, -⟩ | ⟨-, last⟩
        · rw [same] at ends
          unfold chunkCapacity at ends ⊢
          omega
        · have bound := there.chunk.1
          unfold chunkCapacity at bound ⊢
          omega
      have shorter := there.lt_chunk read before
      omega
  · dsimp only
    unfold chunkCapacity at *
    rcases next with same | ⟨-, ⟨same, less⟩ | ⟨same, -⟩⟩ <;> omega

section

variable (distinct : index.Distinct context)

include distinct

theorem scanChunk_spec {skip : Nat}
    (small : chunkId ≤ index.maxChunkId) (read : index.readChunk chunkId = some names)
    (start : skip = 0 ∧ cursor ≤ chunkId * chunkCapacity ∨ cursor = chunkId * chunkCapacity + skip)
    (front rest : List Bytes) (split : names = front ++ rest) (state : ScanState α)
    (scanned : Scanned context index visit limit cursor
      (chunkId * chunkCapacity + front.length) state) :
    match scanChunk context visit limit skip
      (chunkCursor index.maxChunkId chunkId · names.length) front.length rest state with
    | .error page => Page index visit cursor page
    | .ok state => Scanned context index visit limit cursor
        (chunkId * chunkCapacity + names.length) state := by
  induction rest generalizing front state with
  | nil =>
    rw [split, append_nil]
    exact scanned
  | cons name rest ih =>
    have here : names[front.length]? = some name := by
      rw [split, getElem?_append_right (Nat.le_refl _), Nat.sub_self]
      rfl
    have placed : index.At (chunkId * chunkCapacity + front.length) name :=
      ⟨chunkId, names, front.length, small, read, here, rfl⟩
    have goOn := ih (front ++ [name]) (by rw [split, append_assoc]; rfl)
    rw [length_append, length_singleton, ← Nat.add_assoc] at goOn
    rw [scanChunk]
    by_cases early : front.length < skip
    · rw [if_pos early]
      refine goOn state (scanned.extend fun place other _ before behind _ => ?_)
      omega
    · rw [if_neg early]
      by_cases known : context.fastHash128 name ∈ state.seen
      · rw [if_pos known]
        exact goOn state (scanned.known distinct placed known)
      · rw [if_neg known]
        cases visited : visit name with
        | none =>
          refine goOn _ (scanned.next placed (fun item => ?_) scanned.room)
          rw [visited]
          simp
        | some item =>
          have more : ∀ other, other ∈ state.items ++ [item] ↔
              other ∈ state.items ∨ visit name = some other := by
            intro other
            rw [visited, mem_append, mem_singleton, Option.some_inj, eq_comm (a := item)]
          dsimp only
          by_cases full : limit ≤ (state.items ++ [item]).length
          · rw [if_pos full]
            exact scanned.full small read here (by omega) more
          · rw [if_neg full]
            exact goOn _ (scanned.next placed more (Nat.lt_of_not_le full))

theorem scanChunks_spec {number : Nat}
    (total : chunkId + number = index.maxChunkId + 1)
    (start : chunkId = cursor / chunkCapacity ∨ cursor < chunkId * chunkCapacity)
    (scanned : Scanned context index visit limit cursor (chunkId * chunkCapacity) state) :
    Page index visit cursor (scanChunks context index visit limit (cursor / chunkCapacity)
      (cursor % chunkCapacity) (List.range' chunkId number) state) := by
  induction number generalizing chunkId state with
  | zero =>
    refine ⟨scanned.sound, fun place name item behind _ placed visited => ?_, .inl rfl⟩
    refine scanned.covers place name item behind ?_ placed visited
    have bound := placed.chunk.1
    unfold chunkCapacity at bound ⊢
    omega
  | succ number ih =>
    have later : cursor < (chunkId + 1) * chunkCapacity := by
      unfold chunkCapacity at start ⊢
      omega
    have goOn : ∀ after, Scanned context index visit limit cursor
        ((chunkId + 1) * chunkCapacity) after → _ := fun after =>
      ih (by omega) (.inr later)
    rw [range'_succ, scanChunks]
    cases read : index.readChunk chunkId with
    | none =>
      refine goOn state (scanned.extend fun place name after before _ placed => ?_)
      obtain ⟨-, names, found, -⟩ := placed.chunk
      have quotient : place / chunkCapacity = chunkId := by
        unfold chunkCapacity at before after ⊢
        omega
      rw [quotient, read] at found
      cases found
    | some names =>
      dsimp only
      have begins : (if chunkId = cursor / chunkCapacity then cursor % chunkCapacity else 0) = 0 ∧
          cursor ≤ chunkId * chunkCapacity ∨ cursor = chunkId * chunkCapacity +
            (if chunkId = cursor / chunkCapacity then cursor % chunkCapacity else 0) := by
        by_cases first : chunkId = cursor / chunkCapacity
        · rw [if_pos first, first, Nat.mul_comm]
          exact .inr (Nat.div_add_mod cursor chunkCapacity).symm
        · rw [if_neg first]
          exact .inl ⟨rfl, Nat.le_of_lt (start.resolve_left first)⟩
      have spec := scanChunk_spec distinct (by omega) read begins [] names rfl state scanned
      revert spec
      cases scanChunk context visit limit _ _ 0 names state with
      | error page => exact id
      | ok after =>
        intro done
        refine goOn after (done.extend fun place name behind before _ placed => ?_)
        have shorter := placed.lt_chunk read before
        omega

theorem pages_scanFlattened (visit : Bytes → Option α) (count : Nat) :
    Pages (scanFlattened context index visit count)
      (fun position item => ∃ name, index.At position name ∧ visit name = some item)
      ((index.maxChunkId + 1) * chunkCapacity) := by
  have page : ∀ cursor, Page index visit cursor
      (scanFlattened context index visit count cursor) := by
    intro cursor
    unfold scanFlattened
    by_cases past : index.maxChunkId < cursor / chunkCapacity
    · rw [if_pos past]
      refine ⟨fun _ member => (nomatch member), ?_, .inl rfl⟩
      intro place name item behind _ placed _
      have bound := placed.chunk.1
      have ordered := Nat.div_le_div_right (c := chunkCapacity) behind
      omega
    · rw [if_neg past]
      refine scanChunks_spec distinct (by omega) (.inl rfl) ⟨?_, ?_, ?_, ?_⟩
      · exact fun _ member => nomatch member
      · intro place name item behind before
        have lower := Nat.div_mul_le_self cursor chunkCapacity
        omega
      · exact fun _ member => nomatch member
      · show 0 < scanLimit count
        unfold scanLimit
        split <;> omega
  refine ⟨?_, ?_, fun cursor => (page cursor).advances⟩
  · intro cursor item member
    obtain ⟨name, listed, visited⟩ := (page cursor).sound item member
    obtain ⟨position, placed⟩ := (index.lists_iff name).mp listed
    exact ⟨position, name, placed, visited⟩
  · rintro cursor position item behind ⟨name, placed, visited⟩ ends
    exact (page cursor).covers position name item behind ends placed visited

theorem fullScan_scanFlattened (visit : Bytes → Option α)
    (count : Nat) : FullScan (scanFlattened context index visit count)
      fun item => ∃ name, index.Lists name ∧ visit name = some item := by
  refine (pages_scanFlattened distinct visit count).fullScan.congr fun item => ?_
  constructor
  · rintro ⟨position, name, placed, visited⟩
    exact ⟨name, (index.lists_iff name).mpr ⟨position, placed⟩, visited⟩
  · rintro ⟨name, listed, visited⟩
    obtain ⟨position, placed⟩ := (index.lists_iff name).mp listed
    exact ⟨position, name, placed, visited⟩

end

end

section

variable {found : HashEntry → Bool} {limit : Nat}

variable {before after live : List HashEntry} {entry : HashEntry}

def HashEntry.item (entry : HashEntry) : Bytes × Bytes := (entry.field, entry.value)

variable (found limit) in
theorem hscanLoop_eq (entries items : List HashEntry) (position : Nat) :
    hscanLoop found limit position entries (items.map HashEntry.item) =
      let (full, place, items) := fill found limit entries position items
      (if full then nextCursor (position + entries.length) place else 0,
        items.map HashEntry.item) := by
  induction entries generalizing items position with
  | nil => rfl
  | cons entry rest ih =>
    have shown : items.map HashEntry.item ++ [(entry.field, entry.value)] =
        (items ++ [entry]).map HashEntry.item := by rw [map_append]; rfl
    rw [hscanLoop, fill, length_cons, Nat.add_comm rest.length, ← Nat.add_assoc]
    dsimp only
    rw [shown, ih, ih, length_map]
    by_cases here : found entry
    · by_cases full : limit ≤ (items ++ [entry]).length
      · simp only [if_pos here, if_pos full]
        cases rest <;> simp [nextCursor]
      · simp only [if_pos here, if_neg full]
    · simp only [here, Bool.false_eq_true, if_false]

theorem hscanLoop_few {entries : List HashEntry} (few : (entries.filter found).length < limit) :
    hscanLoop found limit 0 entries [] = (0, (entries.filter found).map HashEntry.item) := by
  have page := hscanLoop_eq found limit entries [] 0
  rwa [fill_few few] at page

theorem hscanLoop_full (matching : found entry) (count : (before.filter found).length + 1 = limit) :
    hscanLoop found limit 0 (before ++ entry :: after) [] =
      (if after.isEmpty then 0 else before.length + 1,
        ((before ++ [entry]).filter found).map HashEntry.item) := by
  have page := hscanLoop_eq found limit (before ++ entry :: after) [] 0
  rw [fill_full matching count] at page
  refine page.trans ?_
  cases after <;> simp [nextCursor]

def TwoPages (found : HashEntry → Bool) (limit : Nat) (live : List HashEntry) : Prop :=
  (live.filter found).length < 2 * limit ∨
    (live.filter found).length = 2 * limit ∧ live.getLast?.any found = true

theorem eq_nil_of_last (last : (before ++ entry :: after).getLast?.any found)
    (nothing : after.filter found = []) : after = [] := by
  rcases eq_nil_or_concat after with empty | ⟨others, final, same⟩
  · exact empty
  · rw [concat_eq_append] at same
    rw [same, ← cons_append, ← append_assoc, getLast?_concat] at last
    have member : final ∈ after.filter found := by
      rw [mem_filter, same]
      exact ⟨mem_append_right _ mem_cons_self, last⟩
    rw [nothing] at member
    cases member

theorem mem_items (entries : List HashEntry) (item : Bytes × Bytes) :
    item ∈ (entries.filter found).map HashEntry.item ↔
      ∃ entry ∈ entries, found entry ∧ item = entry.item := by
  rw [mem_map]
  constructor
  · rintro ⟨entry, member, same⟩
    obtain ⟨inside, matching⟩ := mem_filter.mp member
    exact ⟨entry, inside, matching, same.symm⟩
  · rintro ⟨entry, inside, matching, same⟩
    exact ⟨entry, mem_filter.mpr ⟨inside, matching⟩, same.symm⟩

theorem hscanLoop_second (positive : 0 < limit) (matching : found entry)
    (count : (before.filter found).length + 1 = limit)
    (fits : TwoPages found limit (before ++ entry :: after)) :
    hscanLoop found limit 0 after [] = (0, (after.filter found).map HashEntry.item) := by
  rcases few_or_split found positive after with few |
    ⟨middle, final, rest, split, finalMatching, finalCount⟩
  · exact hscanLoop_few few
  · have number : ((before ++ entry :: after).filter found).length =
        2 * limit + (rest.filter found).length := by
      rw [split, filter_append, filter_cons_of_pos matching,
        filter_append, filter_cons_of_pos finalMatching]
      simp only [length_append, length_cons]
      omega
    obtain ⟨exactly, last⟩ := fits.resolve_left (by omega)
    have whole : before ++ entry :: after = (before ++ entry :: middle) ++ final :: rest := by
      rw [split, append_assoc, cons_append]
    rw [whole] at last
    have ended : rest = [] := eq_nil_of_last last (eq_nil_of_length_eq_zero (by omega))
    have page : hscanLoop found limit 0 (middle ++ final :: rest) [] = _ :=
      hscanLoop_full finalMatching finalCount
    rw [← split, ended] at page
    rw [page, split, ended]
    rfl

theorem fullScan_compact (positive : 0 < limit) (fits : TwoPages found limit live) :
    FullScan (fun cursor => hscanLoop found limit 0 (live.drop cursor) [])
      fun item => ∃ entry ∈ live, found entry ∧ item = entry.item := by
  rcases few_or_split found positive live with few | ⟨before, entry, after, same, matching, count⟩
  · have page := hscanLoop_few few
    refine fullScan_of_first ?_ fun item => ?_
    · rw [drop_zero, page]
    · rw [drop_zero, page]
      exact mem_items live item
  · have first : hscanLoop found limit 0 (before ++ entry :: after) [] = _ :=
      hscanLoop_full matching count
    rw [same] at fits
    have second := hscanLoop_second positive matching count fits
    rw [← same] at first
    have rest : live.drop (before.length + 1) = after := by
      rw [same, drop_append, drop_eq_nil_of_le (Nat.le_succ _)]
      simp
    cases after with
    | nil =>
      refine fullScan_of_first ?_ fun item => ?_
      · rw [drop_zero, first]
        rfl
      · rw [drop_zero, first, ← same]
        exact mem_items live item
    | cons next after =>
      have last : hscanLoop found limit 0 (live.drop (before.length + 1)) [] =
          (0, ((next :: after).filter found).map HashEntry.item) := by
        rw [rest]
        exact second
      refine fullScan_of_second first last (fun item => ?_) (Nat.succ_ne_zero _)
      rw [← map_append, ← filter_append, append_assoc, singleton_append, ← same]
      exact mem_items live item

variable {wanted : Bytes × Bytes → Prop}

theorem not_fullScan_all (positive : 0 < limit)
    (all : ∀ entry ∈ live, found entry) (long : 2 * limit < live.length) :
    ¬FullScan (fun cursor => hscanLoop found limit 0 (live.drop cursor) []) wanted := by
  have page : ∀ cursor, cursor + limit < live.length →
      (hscanLoop found limit 0 (live.drop cursor) []).1 = limit := by
    intro cursor short
    have whole : ∀ entries : List HashEntry, (∀ entry ∈ entries, entry ∈ live) →
        entries.filter found = entries := fun entries inside =>
      filter_eq_self.mpr fun entry member => all entry (inside entry member)
    rcases few_or_split found positive (live.drop cursor) with few |
      ⟨before, entry, after, same, matching, count⟩
    · rw [whole _ fun entry => mem_of_mem_drop, length_drop] at few
      omega
    · have matched : before.filter found = before := whole before fun other member =>
        mem_of_mem_drop (by rw [same]; exact mem_append_left _ member)
      have total := congrArg List.length same
      rw [length_drop, length_append, length_cons] at total
      rw [same, hscanLoop_full matching count]
      rw [matched] at count
      cases after with
      | nil =>
        rw [length_nil] at total
        omega
      | cons next after => exact count
  have start := page 0 (by omega)
  refine not_fullScan {limit} (fun cursor member => ?_) ?_ ?_
  · obtain rfl : cursor = limit := member
    rw [page cursor (by omega)]
    exact ⟨by omega, rfl⟩
  · rw [start]
    omega
  · rw [start]
    rfl

theorem long_of_not_twoPages (positive : 0 < limit) (all : ∀ entry ∈ live, found entry)
    (long : ¬TwoPages found limit live) : 2 * limit < live.length := by
  have whole : live.filter found = live := filter_eq_self.mpr all
  unfold TwoPages at long
  rw [whole] at long
  by_contra short
  rcases Nat.lt_or_ge live.length (2 * limit) with less | enough
  · exact long (.inl less)
  · refine long (.inr ⟨by omega, ?_⟩)
    rcases eq_nil_or_concat live with empty | ⟨others, last, same⟩
    · rw [empty, length_nil] at enough
      omega
    · rw [concat_eq_append] at same
      rw [same, getLast?_concat]
      exact all last (by rw [same]; exact mem_append_right _ mem_cons_self)

theorem page_one {target : HashEntry} {place cursor : Nat} (there : live[place]? = some target)
    (matching : found target) (more : place + 1 < live.length) (early : cursor ≤ place) :
    (hscanLoop found 1 0 (live.drop cursor) []).1 ≠ 0 ∧
      cursor + (hscanLoop found 1 0 (live.drop cursor) []).1 ≤ place + 1 := by
  rcases few_or_split found Nat.one_pos (live.drop cursor) with few |
    ⟨before, entry, after, same, matched, count⟩
  · have member : target ∈ (live.drop cursor).filter found :=
      mem_filter.mpr ⟨mem_drop_of_getElem early there, matching⟩
    rw [eq_nil_of_length_eq_zero (Nat.lt_one_iff.mp few)] at member
    cases member
  · have inside : cursor + before.length ≤ place := by
      by_contra beyond
      have early : target ∈ before := by
        have shifted : (before ++ entry :: after)[place - cursor]? = some target := by
          rw [← same, getElem?_drop, Nat.add_sub_cancel' early]
          exact there
        rw [getElem?_append_left (by omega)] at shifted
        exact mem_of_getElem? shifted
      have member : target ∈ before.filter found := mem_filter.mpr ⟨early, matching⟩
      rw [eq_nil_of_length_eq_zero (Nat.succ.inj count)] at member
      cases member
    have total := congrArg List.length same
    rw [length_drop, length_append, length_cons] at total
    rw [same, hscanLoop_full matched count]
    cases after with
    | nil =>
      rw [length_nil] at total
      omega
    | cons next after =>
      show before.length + 1 ≠ 0 ∧ cursor + (before.length + 1) ≤ place + 1
      omega

theorem not_fullScan_one (long : ¬TwoPages found 1 live) :
    ¬FullScan (fun cursor => hscanLoop found 1 0 (live.drop cursor) []) wanted := by
  have many : 2 ≤ (live.filter found).length := Nat.le_of_not_lt fun few => long (.inl few)
  rcases few_or_split found Nat.two_pos live with few |
    ⟨before, target, after, same, matching, count⟩
  · omega
  · have there : live[before.length]? = some target := by
      rw [same, getElem?_append_right (Nat.le_refl _), Nat.sub_self]
      rfl
    have more : before.length + 1 < live.length := by
      rw [same, length_append, length_cons]
      cases after with
      | nil =>
        refine absurd (.inr ⟨?_, ?_⟩) long
        · rw [same, filter_append, filter_cons_of_pos matching]
          simp only [length_append, length_cons, filter_nil, length_nil]
          omega
        · rw [same, getLast?_concat]
          exact matching
      | cons next after =>
        rw [length_cons]
        omega
    obtain ⟨first, member⟩ : ∃ first, first ∈ before.filter found :=
      exists_mem_of_length_pos (by omega)
    obtain ⟨inside, firstMatching⟩ := mem_filter.mp member
    obtain ⟨place, here⟩ := mem_iff_getElem?.mp inside
    have short : place < before.length := (getElem?_eq_some_iff.mp here).1
    have located : live[place]? = some first := by
      rw [same, getElem?_append_left short]
      exact here
    obtain ⟨next, bound⟩ := page_one located firstMatching (by omega) (Nat.zero_le place)
    refine not_fullScan {cursor | 0 < cursor ∧ cursor ≤ before.length} ?_ next
      ⟨Nat.pos_of_ne_zero next, by omega⟩
    rintro cursor ⟨positive, early⟩
    obtain ⟨next, bound⟩ := page_one there matching more early
    exact ⟨next, Nat.pos_of_ne_zero next, by omega⟩

end

section

variable (context : ScanContext) (pattern : Option Bytes) (count : Nat)

/-- Without a pattern no name is empty. -/
def Named (names : List Bytes) : Prop := pattern = none → [] ∉ names

theorem named_iff {names : List Bytes} : Named pattern names ↔ ∀ name ∈ names,
    matchesPattern context pattern name → matchesOrStar context pattern name := by
  cases pattern with
  | none =>
    simp only [Named, matchesPattern, matchesOrStar, Option.getD_none, context.glob_star]
    refine ⟨fun named name member _ => ?_, fun shown _ empty => by simpa using shown [] empty⟩
    cases name with
    | nil => exact absurd member (named trivial)
    | cons => rfl
  | some pattern => exact iff_of_true nofun fun _ _ => id

theorem matchesPattern_of_star {name : Bytes} (shown : matchesOrStar context pattern name) :
    matchesPattern context pattern name := by
  cases pattern with
  | none => rfl
  | some pattern => exact shown

variable (payload : Option (List HashEntry))

def liveEntries : List HashEntry :=
  (payload.getD []).filter fun entry => alive context.now entry.expireAt

/-- A full iteration needs of a compact hash that two pages hold its matches and that no field is
empty where all are asked for, of a flattened one distinct digests. -/
def HScanFits : HashEncoding → Prop
  | .compact payload => TwoPages (fun entry => matchesOrStar context pattern entry.field)
      (scanLimit count) (liveEntries context payload) ∧
        Named pattern ((liveEntries context payload).map HashEntry.field)
  | .flattened hash => hash.index.Distinct context

def SScanFits : SetEncoding → Prop
  | .compact payload => Named pattern (payload.getD [])
  | .flattened set => set.index.Distinct context

theorem live_compact_iff (item : Bytes × Bytes) :
    (HashEncoding.compact payload).Live context.now item ∧ matchesPattern context pattern item.1 ↔
      ∃ entry ∈ liveEntries context payload, matchesPattern context pattern entry.field ∧
        item = entry.item := by
  constructor
  · rintro ⟨⟨entry, inside, living, rfl⟩, matching⟩
    exact ⟨entry, mem_filter.mpr ⟨inside, living⟩, matching, rfl⟩
  · rintro ⟨entry, member, matching, rfl⟩
    obtain ⟨inside, living⟩ := mem_filter.mp member
    exact ⟨⟨entry, inside, living, rfl⟩, matching⟩

theorem compact_iff_named :
    (∀ item, (∃ entry ∈ liveEntries context payload, matchesOrStar context pattern entry.field ∧
        item = entry.item) ↔
      (HashEncoding.compact payload).Live context.now item ∧
        matchesPattern context pattern item.1) ↔
      Named pattern ((liveEntries context payload).map HashEntry.field) := by
  simp only [live_compact_iff, named_iff context]
  constructor
  · intro same name member matching
    obtain ⟨entry, inside, rfl⟩ := mem_map.mp member
    obtain ⟨other, -, shown, eq⟩ := (same entry.item).mpr ⟨entry, inside, matching, rfl⟩
    have names : entry.field = other.field := congrArg Prod.fst eq
    rwa [names]
  · intro named item
    refine exists_congr fun entry => and_congr_right fun inside => and_congr_left fun _ =>
      ⟨matchesPattern_of_star context pattern, named _ (mem_map_of_mem inside)⟩

theorem visitField_eq_some (hash : FlattenedHash) (field : Bytes) (item : Bytes × Bytes) :
    visitField context pattern hash field = some item ↔ item.1 = field ∧
      (HashEncoding.flattened hash).Live context.now item ∧
        matchesPattern context pattern item.1 := by
  unfold visitField
  constructor
  · intro visited
    cases read : hash.readField field with
    | none =>
      rw [read] at visited
      cases visited
    | some raw =>
      cases decoded : decodeFieldValue raw with
      | none =>
        rw [read] at visited
        dsimp only at visited
        rw [decoded] at visited
        cases visited
      | some pair =>
        rw [read] at visited
        dsimp only at visited
        rw [decoded] at visited
        dsimp only at visited
        split at visited
        · rename_i living
          split at visited
          · rename_i matching
            cases visited
            exact ⟨rfl, ⟨raw, pair.1, read, decoded, living⟩, matching⟩
          · cases visited
        · cases visited
  · rintro ⟨same, ⟨raw, expireAt, read, decoded, living⟩, matching⟩
    rw [← same, read]
    dsimp only
    rw [decoded]
    dsimp only
    rw [if_pos living, if_pos matching]

theorem live_flattened_iff (hash : FlattenedHash) (item : Bytes × Bytes) :
    (∃ name, hash.index.Lists name ∧ visitField context pattern hash name = some item) ↔
      (HashEncoding.flattened hash).Live context.now item ∧
        matchesPattern context pattern item.1 := by
  constructor
  · rintro ⟨name, -, visited⟩
    exact ((visitField_eq_some context pattern hash name item).mp visited).2
  · rintro ⟨⟨raw, expireAt, read, decoded, living⟩, matching⟩
    exact ⟨item.1, hash.indexed item.1 raw read, (visitField_eq_some context pattern hash item.1
      item).mpr ⟨rfl, ⟨raw, expireAt, read, decoded, living⟩, matching⟩⟩

theorem member_flattened_iff (set : FlattenedSet) (member : Bytes) :
    (∃ name, set.index.Lists name ∧ visitMember context pattern set name = some member) ↔
      set.containsMember member ∧ matchesPattern context pattern member := by
  unfold visitMember
  constructor
  · rintro ⟨name, -, visited⟩
    split at visited
    · rename_i contained
      split at visited
      · rename_i matching
        cases visited
        exact ⟨contained, matching⟩
      · cases visited
    · cases visited
  · rintro ⟨contained, matching⟩
    exact ⟨member, set.indexed member contained, by rw [if_pos contained, if_pos matching]⟩

theorem hscan_full (hash : StoredHash) (fits : HScanFits context pattern count hash.encoding) :
    FullScan (fun cursor => hscan context pattern count cursor (some hash)) fun item =>
      hash.encoding.Live context.now item ∧ matchesPattern context pattern item.1 := by
  by_cases size : hash.size = 0
  · simp only [hscan, if_pos size]
    exact fullScan_nothing fun item live => hash.empty size context.now item live.1
  · simp only [hscan, if_neg size]
    cases encoding : hash.encoding with
    | compact payload =>
      rw [encoding] at fits
      have full := (fullScan_compact (scanLimit_pos count) fits.1).congr
        ((compact_iff_named context pattern payload).mpr fits.2)
      cases payload with
      | none =>
        refine fullScan_nothing ?_
        rintro item ⟨⟨entry, member, -⟩, -⟩
        cases member
      | some entries => exact full
    | flattened flat =>
      rw [encoding] at fits
      exact (fullScan_scanFlattened fits _ count).congr (live_flattened_iff context pattern flat)

theorem members_iff_named {members : List Bytes} :
    (∀ member, member ∈ members ∧ matchesOrStar context pattern member ↔
      member ∈ members ∧ matchesPattern context pattern member) ↔ Named pattern members := by
  rw [named_iff context]
  exact ⟨fun same member inside matching => ((same member).mpr ⟨inside, matching⟩).2,
    fun named member => and_congr_right fun inside =>
      ⟨matchesPattern_of_star context pattern, named member inside⟩⟩

theorem sscan_full (set : StoredSet) (fits : SScanFits context pattern set.encoding) :
    FullScan (fun cursor => sscan context pattern count cursor (some set)) fun member =>
      set.encoding.Live member ∧ matchesPattern context pattern member := by
  by_cases size : set.size = 0
  · simp only [sscan, if_pos size]
    exact fullScan_nothing fun member live => set.empty size member live.1
  · simp only [sscan, if_neg size]
    cases encoding : set.encoding with
    | compact payload =>
      rw [encoding] at fits
      cases payload with
      | none => exact fullScan_nothing fun member live => (nomatch live.1)
      | some members =>
        exact (windows_sscan (matchesOrStar context pattern) (scanLimit_pos count)
          members).fullScan.congr ((members_iff_named context pattern).mpr fits)
    | flattened flat =>
      rw [encoding] at fits
      exact (fullScan_scanFlattened fits _ count).congr (member_flattened_iff context pattern flat)

theorem sscan_full_only {set : StoredSet} {payload : Option (List Bytes)}
    (encoding : set.encoding = .compact payload)
    (full : FullScan (fun cursor => sscan context pattern count cursor (some set)) fun member =>
      set.encoding.Live member ∧ matchesPattern context pattern member) :
    SScanFits context pattern set.encoding := by
  rw [encoding] at full ⊢
  cases payload with
  | none => exact fun _ => not_mem_nil
  | some members =>
    by_cases size : set.size = 0
    · have empty := set.empty size
      rw [encoding] at empty
      exact fun _ => empty []
    · simp only [sscan, if_neg size, encoding] at full
      exact (members_iff_named context pattern).mp ((windows_sscan (matchesOrStar context pattern)
        (scanLimit_pos count) members).fullScan.unique full)

theorem exists_map_some {α : Type} {list : List (Option α)} (full : none ∉ list) :
    ∃ entries : List α, list = entries.map some := by
  induction list with
  | nil => exact ⟨[], rfl⟩
  | cons first rest ih =>
    obtain ⟨entries, same⟩ := ih fun member => full (mem_cons_of_mem _ member)
    cases first with
    | none => exact absurd mem_cons_self full
    | some entry => exact ⟨entry :: entries, by rw [same]; rfl⟩

theorem zscan_full (zset : StoredZSet context) :
    FullScan (fun cursor => zscan context pattern count cursor (some zset)) fun entry =>
      some entry ∈ zset.encoding.entries context ∧ matchesPattern context pattern entry.1 := by
  obtain ⟨entries, same⟩ := exists_map_some zset.decodes
  have size := zset.size_eq
  rw [same, length_map] at size
  have batch : 0 < max count 10 := by omega
  have windows := windows_zscan (matchesPattern context pattern) batch entries
  rw [← size] at windows
  simp only [zscan, same]
  refine windows.fullScan.congr fun entry => ?_
  simp

theorem hscan_full_only {hash : StoredHash} {payload : Option (List HashEntry)}
    (encoding : hash.encoding = .compact payload)
    (plain : count = 1 ∨ ∀ entry ∈ liveEntries context payload,
      matchesOrStar context pattern entry.field)
    (full : FullScan (fun cursor => hscan context pattern count cursor (some hash)) fun item =>
      hash.encoding.Live context.now item ∧ matchesPattern context pattern item.1) :
    HScanFits context pattern count hash.encoding := by
  have positive := scanLimit_pos count
  rw [encoding] at full ⊢
  show TwoPages _ _ _ ∧ Named _ _
  cases entries : liveEntries context payload with
  | nil => exact ⟨.inl (by rw [filter_nil, length_nil]; omega), fun _ => not_mem_nil⟩
  | cons first rest =>
    have size : hash.size ≠ 0 := by
      intro empty
      have member : first ∈ liveEntries context payload := by
        rw [entries]
        exact mem_cons_self
      obtain ⟨inside, living⟩ := mem_filter.mp member
      refine hash.empty empty context.now first.item ?_
      rw [encoding]
      exact ⟨first, inside, living, rfl⟩
    rw [← entries]
    cases payload with
    | none => cases entries
    | some payload =>
      simp only [hscan, if_neg size, encoding] at full
      have fits : TwoPages (fun entry => matchesOrStar context pattern entry.field)
          (scanLimit count) (liveEntries context (some payload)) := by
        by_contra long
        rcases plain with one | all
        · have limit : scanLimit count = 1 := by rw [one]; rfl
          rw [limit] at full long
          exact not_fullScan_one long full
        · exact not_fullScan_all positive all (long_of_not_twoPages positive all long) full
      exact ⟨fits, (compact_iff_named context pattern _).mp
        ((fullScan_compact positive fits).unique full)⟩

/-- A full iteration returns exactly the live items that match: of a sorted set always, of a
flattened collection when digests are distinct, of a compact set unless a pattern is left out and a
member is empty, of a compact hash when moreover two pages hold its matches. For compact sets that
is also necessary, and for compact hashes where a page holds one field or every live field
matches. -/
theorem scans_full : (∀ hash : StoredHash, HScanFits context pattern count hash.encoding →
      FullScan (fun cursor => hscan context pattern count cursor (some hash)) fun item =>
        hash.encoding.Live context.now item ∧ matchesPattern context pattern item.1 = true) ∧
    (∀ set : StoredSet, SScanFits context pattern set.encoding →
      FullScan (fun cursor => sscan context pattern count cursor (some set)) fun member =>
        set.encoding.Live member ∧ matchesPattern context pattern member = true) ∧
    (∀ zset : StoredZSet context,
      FullScan (fun cursor => zscan context pattern count cursor (some zset)) fun entry =>
        some entry ∈ zset.encoding.entries context ∧
          matchesPattern context pattern entry.1 = true) ∧
    (∀ (hash : StoredHash) (payload : Option (List HashEntry)), hash.encoding = .compact payload →
      (count = 1 ∨ ∀ entry ∈ liveEntries context payload,
        matchesOrStar context pattern entry.field = true) →
      (FullScan (fun cursor => hscan context pattern count cursor (some hash)) fun item =>
        hash.encoding.Live context.now item ∧ matchesPattern context pattern item.1 = true) →
      HScanFits context pattern count hash.encoding) ∧
    ∀ (set : StoredSet) (payload : Option (List Bytes)), set.encoding = .compact payload →
      (FullScan (fun cursor => sscan context pattern count cursor (some set)) fun member =>
        set.encoding.Live member ∧ matchesPattern context pattern member = true) →
      SScanFits context pattern set.encoding :=
  ⟨hscan_full context pattern count, sscan_full context pattern count,
    zscan_full context pattern count, fun _ _ encoding plain full =>
      hscan_full_only context pattern count encoding plain full, fun _ _ encoding full =>
      sscan_full_only context pattern count encoding full⟩

end

def openContext : ScanContext where
  glob _ name := !name.isEmpty
  glob_star _ := rfl
  fastHash128 _ := 0
  decodeScoreKey _ := none
  now := 0

def compactHash (fields : List Bytes) (_ : fields ≠ []) : StoredHash where
  size := fields.length
  encoding := .compact (some (fields.map fun field => ⟨field, field, none⟩))
  empty size := absurd (List.eq_nil_of_length_eq_zero size) ‹fields ≠ []›

/-- Two fields are scanned with pages of one field. -/
theorem scans_full_two : FullScan
    (fun cursor => hscan openContext none 1 cursor
      (some (compactHash [bytesOf "a", bytesOf "b"] (by decide)))) fun item =>
    (compactHash [bytesOf "a", bytesOf "b"] (by decide)).encoding.Live 0 item ∧
      matchesPattern openContext none item.1 = true :=
  (scans_full openContext none 1).1 _ ⟨.inr ⟨rfl, rfl⟩, fun _ => by decide⟩

/-- Three fields in pages of one: from cursor one the scan is handed cursor one again. -/
theorem hscan_three_loops : (hscan openContext none 1 0
      (some (compactHash [bytesOf "a", bytesOf "b", bytesOf "c"] (by decide)))).1 = 1 ∧
    (hscan openContext none 1 1
      (some (compactHash [bytesOf "a", bytesOf "b", bytesOf "c"] (by decide)))).1 = 1 ∧
    ¬FullScan (fun cursor => hscan openContext none 1 cursor
        (some (compactHash [bytesOf "a", bytesOf "b", bytesOf "c"] (by decide)))) fun item =>
      (compactHash [bytesOf "a", bytesOf "b", bytesOf "c"] (by decide)).encoding.Live 0 item ∧
        matchesPattern openContext none item.1 = true := by
  refine ⟨rfl, rfl, not_fullScan {1} (fun cursor member => ?_) (by decide) rfl⟩
  obtain rfl : cursor = 1 := member
  exact ⟨by decide, rfl⟩

end Wedb.Redis
