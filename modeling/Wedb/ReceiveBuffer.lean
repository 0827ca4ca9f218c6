/-
The buffer a connection reads into. Between reads it is emptied, slid to its beginning, exchanged
for a larger one or given back to the pool.

Whatever is done to it, the unparsed bytes are those received minus those skipped. A call for room
succeeds only with the room there, except where the maximum is the largest `usize` and the unparsed
bytes plus the room exceed it: the check saturates the sum, and the allocation behind it wraps it.
-/

import Wedb.Bytes

namespace Wedb.Net

open List

/-- A `Vec<u8>` with its capacity. -/
structure Buffer where
  bytes : Bytes
  capacity : Nat
  fits : bytes.length ≤ capacity

namespace Buffer

/-- A vector of a capacity after `extend_from_slice`. -/
def ofBytes (bytes : Bytes) (capacity : Nat) : Buffer :=
  ⟨bytes, max capacity bytes.length, Nat.le_max_right _ _⟩

variable (buffer : Buffer)

def clear : Buffer := ⟨[], buffer.capacity, Nat.zero_le _⟩

def dropFront (head : Nat) : Buffer where
  bytes := buffer.bytes.drop head
  capacity := buffer.capacity
  fits := (length_drop.trans_le (Nat.sub_le _ _)).trans buffer.fits

def free : Nat := buffer.capacity - buffer.bytes.length

end Buffer

/-- The pool, by the capacity of the empty vector it gives for a requested one. -/
structure LimitedFixedBufferPool where
  minAllocationSize : Nat
  grant : Nat → Nat
  le_grant : ∀ size, size ≤ grant size
  /-- A capacity is a `usize`. -/
  grant_lt : ∀ size < usizeRange, grant size < usizeRange
  minAllocationSize_lt : minAllocationSize < usizeRange

/-- `Error::BufferOverflow`. -/
structure BufferOverflow where
  needed : Nat
  maxSize : Nat

structure PooledReceiveBuffer where
  buf : Option Buffer
  head : Nat
  initialSize : Nat
  maxSize : Nat

namespace PooledReceiveBuffer

def new (pool : LimitedFixedBufferPool) (initialSize maxSize : Nat) : PooledReceiveBuffer where
  buf := some (.ofBytes [] (pool.grant (max initialSize pool.minAllocationSize)))
  head := 0
  initialSize := max initialSize pool.minAllocationSize
  maxSize := maxSize

variable (state : PooledReceiveBuffer)

def unparsedSlice : Bytes :=
  match state.buf with
  | none => []
  | some buf => if buf.bytes.length ≤ state.head then [] else buf.bytes.drop state.head

def freeTail : Nat := (state.buf.map Buffer.free).getD 0

def advance (bytes : Nat) : PooledReceiveBuffer := { state with head := state.head + bytes }

def put (buf : Buffer) (head : Nat) : PooledReceiveBuffer := { state with buf := some buf, head }

def slide : PooledReceiveBuffer :=
  match state.buf with
  | none => state
  | some buf =>
    if state.head = buf.bytes.length then state.put buf.clear 0
    else if 0 < state.head then state.put (buf.dropFront state.head) 0
    else state

def read (data : Bytes) : PooledReceiveBuffer :=
  let taken := state.buf.getD (.ofBytes [] 0)
  { state with buf := some (.ofBytes (taken.bytes ++ data) taken.capacity) }

variable (pool : LimitedFixedBufferPool)

def makeRoom (buf : Buffer) (head minReadSpace : Nat) : PooledReceiveBuffer :=
  let (buf, head) :=
    if buf.free < minReadSpace ∧ 0 < head then (buf.dropFront head, 0) else (buf, head)
  if buf.free < minReadSpace then
    let targetCap := min (max (buf.capacity * 2 % usizeRange)
      (wrappingAdd buf.bytes.length minReadSpace)) state.maxSize
    state.put (.ofBytes (buf.bytes.drop head) (pool.grant targetCap)) 0
  else state.put buf head

def reserve (buf : Buffer) (head minReadSpace : Nat) :
    Except BufferOverflow Unit × PooledReceiveBuffer :=
  let needed := min (buf.bytes.length - head + minReadSpace) (usizeRange - 1)
  if state.maxSize < needed then (.error ⟨needed, state.maxSize⟩, state.put buf head)
  else (.ok (), state.makeRoom pool buf head minReadSpace)

def ensureReadCapacity (minReadSpace : Nat) : Except BufferOverflow Unit × PooledReceiveBuffer :=
  match state.buf with
  | none => (.ok (), state)
  | some buf =>
    if state.head = buf.bytes.length then
      if minReadSpace ≤ buf.capacity then (.ok (), state.put buf.clear 0)
      else state.reserve pool buf.clear 0 minReadSpace
    else state.reserve pool buf state.head minReadSpace

def compact : PooledReceiveBuffer :=
  match state.buf with
  | none => state
  | some buf =>
    if state.head = buf.bytes.length then
      if state.initialSize * 2 % usizeRange < buf.capacity then
        state.put (.ofBytes [] (pool.grant state.initialSize)) 0
      else state.put buf.clear 0
    else if 0 < state.head ∧ buf.capacity / 2 ≤ state.head then state.slide
    else state

/-! ### The unparsed bytes -/

/-- The initial size and the maximum are a `usize`. -/
def Sized (initial maxSize : Nat) : Prop := initial < usizeRange ∧ maxSize < usizeRange

/-- The sizes are as given, the head lies inside the vector, the given bytes follow it, and the
capacity is a `usize` if the sizes are. -/
structure Shows (initial maxSize : Nat) (unparsed : Bytes) : Prop where
  held : ∃ buf, state.buf = some buf ∧ state.head ≤ buf.bytes.length ∧
    buf.bytes.drop state.head = unparsed ∧ (Sized initial maxSize → buf.capacity < usizeRange)
  sizes : state.initialSize = initial ∧ state.maxSize = maxSize

variable {state} {initial maxSize : Nat} {unparsed : Bytes}

theorem shows_new (initialSize maxSize : Nat) :
    (new pool initialSize maxSize).Shows (max initialSize pool.minAllocationSize) maxSize [] :=
  ⟨⟨_, rfl, Nat.zero_le _, rfl, fun sized =>
    Nat.max_lt.mpr ⟨pool.grant_lt _ sized.1, by decide⟩⟩, rfl, rfl⟩

theorem shows_put (sizes : state.initialSize = initial ∧ state.maxSize = maxSize) {buf : Buffer}
    (here : Sized initial maxSize → buf.capacity < usizeRange) :
    (state.put buf 0).Shows initial maxSize buf.bytes :=
  ⟨⟨_, rfl, Nat.zero_le _, rfl, here⟩, sizes⟩

section

variable (shows : state.Shows initial maxSize unparsed)

include shows

theorem Shows.unparsedSlice : state.unparsedSlice = unparsed := by
  obtain ⟨⟨buf, held, -, rfl, -⟩, -⟩ := shows
  rw [PooledReceiveBuffer.unparsedSlice, held]
  dsimp only
  split_ifs with parsed
  · exact (drop_eq_nil_of_le parsed).symm
  · rfl

theorem Shows.advance {bytes : Nat} (inside : bytes ≤ unparsed.length) :
    (state.advance bytes).Shows initial maxSize (unparsed.drop bytes) := by
  obtain ⟨⟨buf, held, behind, rfl, here⟩, sizes⟩ := shows
  rw [length_drop] at inside
  refine ⟨⟨buf, held, ?_, drop_drop.symm, here⟩, sizes⟩
  show state.head + bytes ≤ _
  omega

theorem Shows.read {data : Bytes} (legal : data.length ≤ state.freeTail) :
    (state.read data).Shows initial maxSize (unparsed ++ data) := by
  obtain ⟨⟨buf, held, behind, rfl, here⟩, sizes⟩ := shows
  have taken : state.buf.getD (.ofBytes [] 0) = buf := by rw [held]; rfl
  have room : data.length ≤ buf.capacity - buf.bytes.length := by
    rwa [freeTail, held] at legal
  have fits := buf.fits
  refine ⟨⟨_, rfl, ?_, ?_, fun sized => ?_⟩, sizes⟩
  · rw [taken]
    exact behind.trans (length_append.symm ▸ Nat.le_add_right _ _)
  · rw [taken]
    exact drop_append_of_le_length behind
  · rw [taken]
    refine Nat.max_lt.mpr ⟨here sized, length_append.trans_lt ?_⟩
    have := here sized
    omega

theorem Shows.slide : state.slide.Shows initial maxSize unparsed := by
  have unchanged := shows
  obtain ⟨⟨buf, held, behind, rfl, here⟩, sizes⟩ := shows
  rw [PooledReceiveBuffer.slide, held]
  dsimp only
  split_ifs with parsed front
  · rw [parsed, drop_length]
    exact shows_put sizes here
  · exact shows_put sizes here
  · exact unchanged

theorem Shows.compact : (state.compact pool).Shows initial maxSize unparsed := by
  have unchanged := shows
  obtain ⟨⟨buf, held, behind, rfl, here⟩, sizes⟩ := shows
  rw [PooledReceiveBuffer.compact, held]
  dsimp only
  split_ifs with parsed large far
  · rw [parsed, drop_length, sizes.1]
    exact shows_put sizes fun sized => Nat.max_lt.mpr ⟨pool.grant_lt _ sized.1, by decide⟩
  · rw [parsed, drop_length]
    exact shows_put sizes here
  · exact unchanged.slide
  · exact unchanged

/-- The unparsed bytes and the free tail are parts of one vector. -/
theorem Shows.freeTail_lt (sized : Sized initial maxSize) :
    unparsed.length + state.freeTail < usizeRange := by
  obtain ⟨⟨buf, held, -, rfl, here⟩, -⟩ := shows
  have here := here sized
  have fits := buf.fits
  rw [freeTail, held, Option.map_some, Option.getD_some, Buffer.free, length_drop]
  omega

end

/-! ### Room for the next read -/

section Room

variable {buf : Buffer} {head space : Nat}

theorem le_freeTail_grown {bytes : Bytes} {capacity : Nat}
    (within : bytes.length + space ≤ state.maxSize) (bounded : state.maxSize < usizeRange) :
    space ≤ (Buffer.ofBytes bytes (pool.grant
      (min (max capacity (wrappingAdd bytes.length space)) state.maxSize))).free := by
  have sum : wrappingAdd bytes.length space = bytes.length + space :=
    Nat.mod_eq_of_lt (Nat.lt_of_le_of_lt within bounded)
  have granted := pool.le_grant (min (max capacity (wrappingAdd bytes.length space)) state.maxSize)
  show space ≤ max _ bytes.length - bytes.length
  omega

theorem le_freeTail_makeRoom (within : buf.bytes.length - head + space ≤ state.maxSize)
    (bounded : state.maxSize < usizeRange) :
    space ≤ (state.makeRoom pool buf head space).freeTail := by
  unfold makeRoom
  dsimp only
  split_ifs with slid short short
  · rw [← length_drop] at within
    exact le_freeTail_grown pool within bounded
  · exact Nat.le_of_not_lt short
  · have beginning : head = 0 :=
      Nat.eq_zero_of_not_pos fun positive => slid ⟨short, positive⟩
    subst beginning
    exact le_freeTail_grown pool within bounded
  · exact Nat.le_of_not_lt short

section

variable (sizes : state.initialSize = initial ∧ state.maxSize = maxSize)

include sizes

theorem shows_grown {bytes : Bytes} (here : Sized initial maxSize → bytes.length < usizeRange)
    (size : Nat) : (state.put (.ofBytes bytes (pool.grant (min size state.maxSize))) 0).Shows
      initial maxSize bytes :=
  shows_put sizes fun sized => Nat.max_lt.mpr ⟨pool.grant_lt _
    ((Nat.min_le_right _ _).trans_lt (sizes.2.trans_lt sized.2)), here sized⟩

variable (behind : head ≤ buf.bytes.length)
  (here : Sized initial maxSize → buf.capacity < usizeRange)

include behind here

theorem shows_makeRoom :
    (state.makeRoom pool buf head space).Shows initial maxSize (buf.bytes.drop head) := by
  have shorter : Sized initial maxSize → (buf.bytes.drop head).length < usizeRange := fun sized =>
    length_drop.trans_lt ((Nat.sub_le _ _).trans_lt (buf.fits.trans_lt (here sized)))
  unfold makeRoom
  dsimp only
  split_ifs
  · exact shows_grown pool sizes shorter _
  · exact shows_put sizes here
  · exact shows_grown pool sizes shorter _
  · exact ⟨⟨buf, rfl, behind, rfl, here⟩, sizes⟩

theorem shows_reserve :
    (state.reserve pool buf head space).2.Shows initial maxSize (buf.bytes.drop head) := by
  unfold reserve
  dsimp only
  split_ifs
  · exact ⟨⟨buf, rfl, behind, rfl, here⟩, sizes⟩
  · exact shows_makeRoom pool sizes behind here

end

theorem Shows.ensureReadCapacity (shows : state.Shows initial maxSize unparsed) :
    (state.ensureReadCapacity pool space).2.Shows initial maxSize unparsed := by
  obtain ⟨⟨buf, held, behind, rfl, here⟩, sizes⟩ := shows
  rw [PooledReceiveBuffer.ensureReadCapacity, held]
  dsimp only
  split_ifs with parsed enough
  · rw [parsed, drop_length]
    exact shows_put sizes here
  · rw [parsed, drop_length]
    exact shows_reserve pool sizes (Nat.zero_le _) here
  · exact shows_reserve pool sizes behind here

/-- `ensure_read_capacity` finds space, or the maximum does not allow it for so many bytes. -/
def Answers (maxSize unparsed space : Nat)
    (outcome : Except BufferOverflow Unit × PooledReceiveBuffer) : Prop :=
  match outcome.1 with
  | .ok () => space ≤ outcome.2.freeTail
  | .error _ => maxSize < unparsed + space

theorem reserve_answers (same : state.maxSize = maxSize) (limit : maxSize < usizeRange)
    (fits : maxSize < usizeRange - 1 ∨ buf.bytes.length - head + space < usizeRange) :
    Answers maxSize (buf.bytes.length - head) space (state.reserve pool buf head space) := by
  unfold reserve
  dsimp only
  split_ifs with excessive
  · show maxSize < _
    omega
  · exact le_freeTail_makeRoom pool (by omega) (by omega)

theorem reserve_error {error : BufferOverflow}
    (failed : (state.reserve pool buf head space).1 = .error error) :
    state.maxSize < usizeRange - 1 := by
  unfold reserve at failed
  dsimp only at failed
  split_ifs at failed with excessive
  omega

theorem ensureReadCapacity_error {error : BufferOverflow}
    (failed : (state.ensureReadCapacity pool space).1 = .error error) :
    state.maxSize < usizeRange - 1 := by
  unfold ensureReadCapacity at failed
  split at failed
  · cases failed
  · split_ifs at failed
    · exact reserve_error pool failed
    · exact reserve_error pool failed

/-- A call for room is answered rightly unless the maximum is the largest `usize` and the sum
exceeds it. -/
theorem Shows.answers_iff (shows : state.Shows initial maxSize unparsed)
    (sized : Sized initial maxSize) :
    Answers maxSize unparsed.length space (state.ensureReadCapacity pool space) ↔
      maxSize < usizeRange - 1 ∨ unparsed.length + space < usizeRange := by
  constructor
  · intro answers
    have room := (@Shows.ensureReadCapacity state pool _ _ _ space shows).freeTail_lt sized
    unfold Answers at answers
    split at answers
    · exact .inr (by omega)
    · rename_i error failed
      exact .inl (shows.sizes.2 ▸ ensureReadCapacity_error pool failed)
  · intro fits
    obtain ⟨⟨buf, held, behind, rfl, -⟩, sizes⟩ := shows
    rw [length_drop] at fits
    rw [PooledReceiveBuffer.ensureReadCapacity, held, length_drop]
    dsimp only
    split_ifs with parsed enough
    · exact enough
    · rw [parsed, Nat.sub_self] at fits ⊢
      exact reserve_answers pool sizes.2 sized.2 fits
    · exact reserve_answers pool sizes.2 sized.2 fits

end Room

/-! ### Runs of operations -/

inductive Operation
  | ensureReadCapacity (pool : LimitedFixedBufferPool) (minReadSpace : Nat)
  | read (data : Bytes)
  | advance (bytes : Nat)
  | slide
  | compact (pool : LimitedFixedBufferPool)

namespace Operation

def apply (state : PooledReceiveBuffer) : Operation → PooledReceiveBuffer
  | ensureReadCapacity pool space => (state.ensureReadCapacity pool space).2
  | read data => state.read data
  | advance bytes => state.advance bytes
  | slide => state.slide
  | compact pool => state.compact pool

/-- A read stays inside the free tail, and no more is skipped than is there. -/
def Legal (state : PooledReceiveBuffer) : Operation → Prop
  | read data => data.length ≤ state.freeTail
  | advance bytes => bytes ≤ state.unparsedSlice.length
  | _ => True

def received : Operation → Bytes
  | read data => data
  | _ => []

def skipped : Operation → Nat
  | advance bytes => bytes
  | _ => 0

end Operation

def LegalRun (state : PooledReceiveBuffer) : List Operation → Prop
  | [] => True
  | operation :: rest => operation.Legal state ∧ LegalRun (operation.apply state) rest

variable {operation : Operation}

theorem Shows.apply (shows : state.Shows initial maxSize unparsed)
    (legal : operation.Legal state) : (operation.apply state).Shows initial maxSize
      ((unparsed ++ operation.received).drop operation.skipped) := by
  cases operation with
  | read data => exact shows.read legal
  | advance bytes =>
    exact (append_nil unparsed).symm ▸ shows.advance (shows.unparsedSlice ▸ legal)
  | ensureReadCapacity pool space => exact (append_nil _).symm ▸ shows.ensureReadCapacity pool
  | slide => exact (append_nil _).symm ▸ shows.slide
  | compact pool => exact (append_nil _).symm ▸ shows.compact pool

theorem Legal.skipped_le (shows : state.Shows initial maxSize unparsed)
    (legal : operation.Legal state) :
    operation.skipped ≤ (unparsed ++ operation.received).length := by
  cases operation with
  | advance bytes => exact (append_nil unparsed).symm ▸ shows.unparsedSlice ▸ legal
  | _ => exact Nat.zero_le _

theorem Shows.run {operations : List Operation} (shows : state.Shows initial maxSize unparsed)
    (legal : LegalRun state operations) :
    (operations.foldl Operation.apply state).Shows initial maxSize
      ((unparsed ++ operations.flatMap Operation.received).drop
        (operations.map Operation.skipped).sum) := by
  induction operations generalizing state unparsed with
  | nil => exact (append_nil unparsed).symm ▸ shows
  | cons operation rest ih =>
    have next := ih (shows.apply legal.1) legal.2
    rwa [← drop_append_of_le_length (Legal.skipped_le shows legal.1), drop_drop,
      append_assoc] at next

/-- After every legal run the unparsed bytes are those received minus those skipped, the head lies
inside the vector, and a call for room is answered rightly exactly if the maximum is not the largest
`usize` or the sum does not exceed it. -/
theorem run_keeps_unparsed (pool : LimitedFixedBufferPool) (initialSize maxSize : Nat)
    (operations : List Operation) (legal : LegalRun (new pool initialSize maxSize) operations) :
    let after := operations.foldl Operation.apply (new pool initialSize maxSize)
    after.unparsedSlice = (operations.flatMap Operation.received).drop
        (operations.map Operation.skipped).sum ∧
      (∃ buf ∈ after.buf, after.head ≤ buf.bytes.length) ∧
      (initialSize < usizeRange → maxSize < usizeRange → ∀ pool space,
        (Answers maxSize after.unparsedSlice.length space (after.ensureReadCapacity pool space) ↔
          maxSize < usizeRange - 1 ∨ after.unparsedSlice.length + space < usizeRange)) := by
  have shows := (shows_new pool initialSize maxSize).run legal
  refine ⟨shows.unparsedSlice, ?_, fun initial limit room space => ?_⟩
  · obtain ⟨⟨buf, held, behind, -⟩, -⟩ := shows
    exact ⟨buf, held, behind⟩
  · rw [shows.unparsedSlice]
    exact shows.answers_iff room ⟨Nat.max_lt.mpr ⟨initial, pool.minAllocationSize_lt⟩, limit⟩

def exactPool : LimitedFixedBufferPool := ⟨0, id, Nat.le_refl, fun _ small => small, by decide⟩

theorem run_keeps_unparsed_of_two_reads :
    let operations := [.read [1, 2], .advance 1, .ensureReadCapacity exactPool 3, .read [3, 4, 5]]
    let after := operations.foldl Operation.apply (new exactPool 2 (usizeRange - 1))
    after.unparsedSlice = [2, 3, 4, 5] ∧
      Answers (usizeRange - 1) 4 100 (after.ensureReadCapacity exactPool 100) := by
  obtain ⟨bytes, -, room⟩ := run_keeps_unparsed exactPool 2 (usizeRange - 1)
    [.read [1, 2], .advance 1, .ensureReadCapacity exactPool 3, .read [3, 4, 5]]
    ⟨Nat.le_refl 2, Nat.le_succ 1, trivial, Nat.le_refl 3, trivial⟩
  have answers := (room (by decide) (by decide) exactPool 100).mpr (.inr (by rw [bytes]; decide))
  rw [bytes] at answers
  exact ⟨bytes, answers⟩

/-- With the largest maximum, a call for the largest room succeeds with two bytes free. -/
theorem ensureReadCapacity_wraps :
    let state := (new exactPool 2 (usizeRange - 1)).read [1, 2]
    let outcome := state.ensureReadCapacity exactPool (usizeRange - 1)
    outcome.1 = .ok () ∧ outcome.2.freeTail = 2 :=
  ⟨rfl, rfl⟩

end PooledReceiveBuffer

end Wedb.Net
