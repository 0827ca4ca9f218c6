/-
The readers of RESP frames on a stream that is still arriving. An answer other than `Incomplete`
does not change when more bytes follow.
-/

import Mathlib.Data.List.TakeWhile
import Wedb.ParseState

namespace Wedb.Resp

open List

variable {digits sign : Bytes}

structure IsLine (sign digits tail : Bytes) : Prop where
  isSign : sign = [] ∨ sign = [45] ∨ sign = [43]
  onlyDigits : ∀ byte ∈ digits, isAsciiDigit byte = true
  ends : ∀ byte, tail.head? = some byte → isAsciiDigit byte = false
  unsigned : sign = [] → digits = [] → tail.head? ≠ some 45 ∧ tail.head? ≠ some 43

/-- How a line ends behind its digits: not yet, with a carriage return only, completely, or broken.
-/
inductive LineEnd
  | missing
  | half
  | proper
  | broken (byte : UInt8)
  | other (byte : UInt8)

def lineEnd : Bytes → LineEnd
  | [] => .missing
  | 13 :: [] => .half
  | 13 :: 10 :: _ => .proper
  | 13 :: byte :: _ => .broken byte
  | byte :: _ => .other byte

variable {byte : UInt8}

theorem lineEnd_of_broken (broken : byte ≠ 10) (others : Bytes) :
    lineEnd (13 :: byte :: others) = .broken byte := by
  rw [lineEnd]
  exact broken

theorem lineEnd_of_other (other : byte ≠ 13) (others : Bytes) :
    lineEnd (byte :: others) = .other byte := by
  unfold lineEnd
  split <;> simp_all

theorem lineEnd_cases (tail : Bytes) :
    tail = [] ∨ tail = [13] ∨ (∃ others, tail = 13 :: 10 :: others) ∨
      (∃ byte others, byte ≠ 10 ∧ tail = 13 :: byte :: others) ∨
      ∃ byte others, byte ≠ 13 ∧ tail = byte :: others := by
  rcases tail with _ | ⟨first, others⟩
  · exact .inl rfl
  obtain rfl | isReturn := eq_or_ne first 13
  · rcases others with _ | ⟨second, others⟩
    · exact .inr (.inl rfl)
    obtain rfl | isFeed := eq_or_ne second 10
    · exact .inr (.inr (.inl ⟨others, rfl⟩))
    · exact .inr (.inr (.inr (.inl ⟨second, others, isFeed, rfl⟩)))
  · exact .inr (.inr (.inr (.inr ⟨first, others, isReturn, rfl⟩)))

variable {tail : Bytes}

theorem lineEnd_append (arrived : tail ≠ []) (whole : tail ≠ [13]) (more : Bytes) :
    lineEnd (tail ++ more) = lineEnd tail := by
  rcases lineEnd_cases tail with rfl | rfl | ⟨others, rfl⟩ | ⟨byte, others, broken, rfl⟩ |
    ⟨byte, others, other, rfl⟩
  · exact absurd rfl arrived
  · exact absurd rfl whole
  · rfl
  · exact (lineEnd_of_broken broken _).trans (lineEnd_of_broken broken _).symm
  · exact (lineEnd_of_other other _).trans (lineEnd_of_other other _).symm

/-- What `scan_int_line` answers for the parts of a line. -/
def lineVerdict (sign digits : Bytes) (ending : LineEnd) : ReadResult Int :=
  if digits = [] then
    match ending with
    | .missing | .half | .broken _ => .error .incomplete
    | .proper => .error .notANumber
    | .other byte => .error (.unexpectedToken byte)
  else if 32 < (sign ++ digits).length then .error (.protocol "数字行过长")
  else
    match ending with
    | .missing | .half => .error .incomplete
    | .proper =>
      match tryReadInt64 (sign ++ digits) true with
      | .error error => .error error
      | .ok (value, consumed) =>
        if consumed = (sign ++ digits).length then .ok (value, (sign ++ digits).length)
        else .error .notANumber
    | .broken byte | .other byte => .error (.unexpectedToken byte)

theorem exists_isLine (rest : Bytes) :
    ∃ sign digits tail, IsLine sign digits tail ∧ rest = sign ++ digits ++ tail := by
  have cut : ∀ body : Bytes, body = body.takeWhile isAsciiDigit ++ body.dropWhile isAsciiDigit :=
    fun body => takeWhile_append_dropWhile.symm
  have digitsOnly : ∀ body : Bytes, ∀ byte ∈ body.takeWhile isAsciiDigit,
      isAsciiDigit byte := fun body byte inside => mem_takeWhile_imp inside
  have tailEnds : ∀ body : Bytes, ∀ byte, (body.dropWhile isAsciiDigit).head? = some byte →
      isAsciiDigit byte = false := by
    intro body byte first
    have found := head?_dropWhile_not isAsciiDigit body
    rw [first] at found
    simpa using found
  have signed : ∀ sign, sign = 45 ∨ sign = 43 → ∀ body,
      ∃ front digits tail, IsLine front digits tail ∧ sign :: body = front ++ digits ++ tail := by
    intro sign isSign body
    refine ⟨[sign], _, _, ⟨?_, digitsOnly body, tailEnds body, fun wrong => by cases wrong⟩, ?_⟩
    · rcases isSign with rfl | rfl <;> simp
    · rw [append_assoc, ← cut body]
      rfl
  by_cases isSign : ∃ sign body, rest = sign :: body ∧ (sign = 45 ∨ sign = 43)
  · obtain ⟨sign, body, rfl, isSign⟩ := isSign
    exact signed sign isSign body
  · refine ⟨[], _, _, ⟨.inl rfl, digitsOnly rest, tailEnds rest, fun _ noDigits => ?_⟩, cut rest⟩
    have whole : rest.dropWhile isAsciiDigit = rest := by
      conv_rhs => rw [cut rest, noDigits]
      rfl
    rw [whole]
    constructor
    · intro first
      obtain ⟨body, rfl⟩ := head?_eq_some_iff.mp first
      exact isSign ⟨45, body, rfl, .inl rfl⟩
    · intro first
      obtain ⟨body, rfl⟩ := head?_eq_some_iff.mp first
      exact isSign ⟨43, body, rfl, .inr rfl⟩

theorem IsLine.takeWhile_eq (line : IsLine sign digits tail) :
    (digits ++ tail).takeWhile isAsciiDigit = digits := by
  rw [takeWhile_append_of_pos line.onlyDigits]
  cases tail with
  | nil => rw [takeWhile_nil, append_nil]
  | cons byte tail =>
    rw [takeWhile_cons, line.ends byte rfl, if_neg Bool.false_ne_true, append_nil]

theorem scanIntLine_eq (line : IsLine sign digits tail) :
    scanIntLine (sign ++ digits ++ tail) = lineVerdict sign digits (lineEnd tail) := by
  unfold scanIntLine
  extract_lets signLength digitsEnd
  have signEq : signLength = sign.length := by
    rcases line.isSign with rfl | rfl | rfl
    · unfold signLength
      split
      · rename_i minus
        cases digits with
        | nil => exact absurd minus (line.unsigned rfl rfl).1
        | cons digit digits =>
          cases minus
          exact absurd (line.onlyDigits 45 mem_cons_self) (by decide)
      · rename_i plus
        cases digits with
        | nil => exact absurd plus (line.unsigned rfl rfl).2
        | cons digit digits =>
          cases plus
          exact absurd (line.onlyDigits 43 mem_cons_self) (by decide)
      · rfl
    · rfl
    · rfl
  have endEq : digitsEnd = (sign ++ digits).length := by
    unfold digitsEnd
    rw [signEq, append_assoc, drop_left, line.takeWhile_eq, length_append]
  have dropped : (sign ++ digits ++ tail).drop digitsEnd = tail := by
    rw [endEq, drop_left]
  have taken : (sign ++ digits ++ tail).take digitsEnd = sign ++ digits := by
    rw [endEq, take_left]
  have noDigits : digitsEnd = signLength ↔ digits = [] := by
    rw [endEq, signEq, length_append]
    exact ⟨fun same => length_eq_zero_iff.mp (by omega), fun same => by simp [same]⟩
  have bare : (sign ++ digits ++ tail).length = signLength ↔ digits = [] ∧ tail = [] := by
    rw [signEq, length_append, length_append]
    constructor
    · intro same
      exact ⟨length_eq_zero_iff.mp (by omega), length_eq_zero_iff.mp (by omega)⟩
    · rintro ⟨rfl, rfl⟩
      rfl
  rw [dropped, taken]
  clear_value digitsEnd signLength
  subst endEq
  unfold lineVerdict
  by_cases none : digits = []
  · rw [if_pos (noDigits.mpr none), if_pos none]
    by_cases empty : tail = []
    · rw [if_pos (bare.mpr ⟨none, empty⟩), empty]
      rfl
    · rw [if_neg fun same => empty (bare.mp same).2]
      rcases lineEnd_cases tail with rfl | rfl | ⟨others, rfl⟩ | ⟨byte, others, broken, rfl⟩ |
        ⟨byte, others, other, rfl⟩
      · exact absurd rfl empty
      · rfl
      · rfl
      · rw [lineEnd_of_broken broken]
        split <;> simp_all
      · rw [lineEnd_of_other other]
        split <;> simp_all
  · rw [if_neg fun same => none (bare.mp same).1, if_neg fun same => none (noDigits.mp same),
      if_neg none]
    rcases lineEnd_cases tail with rfl | rfl | ⟨others, rfl⟩ | ⟨byte, others, broken, rfl⟩ |
      ⟨byte, others, other, rfl⟩
    · rfl
    · rfl
    · rfl
    · rw [lineEnd_of_broken broken]
      split <;> simp_all
    · rw [lineEnd_of_other other]
      split <;> simp_all

/-- A reader whose answers, once it has enough bytes, do not depend on what follows. -/
def Stable {β : Type} (read : Bytes → Except RespError β) : Prop :=
  ∀ (input more : Bytes), read input ≠ .error .incomplete → read (input ++ more) = read input

variable {sign digits tail rest payload : Bytes}

theorem IsLine.append (line : IsLine sign digits tail)
    (nonempty : tail ≠ []) (more : Bytes) : IsLine sign digits (tail ++ more) := by
  obtain ⟨byte, others, rfl⟩ := exists_cons_of_ne_nil nonempty
  exact ⟨line.isSign, line.onlyDigits, line.ends, line.unsigned⟩

theorem lineVerdict_of_long (nonempty : digits ≠ []) (long : 32 < (sign ++ digits).length)
    (ending : LineEnd) : lineVerdict sign digits ending = .error (.protocol "数字行过长") := by
  unfold lineVerdict
  rw [if_neg nonempty, if_pos long]

theorem exists_isLine_of_digits (line : IsLine sign digits []) (nonempty : digits ≠ [])
    (more : Bytes) : ∃ others tail, IsLine sign (digits ++ others) tail ∧
        sign ++ digits ++ more = sign ++ (digits ++ others) ++ tail := by
  refine ⟨more.takeWhile isAsciiDigit, more.dropWhile isAsciiDigit,
    ⟨line.isSign, ?_, ?_, fun _ wrong => absurd (append_eq_nil_iff.mp wrong).1 nonempty⟩, ?_⟩
  · intro byte inside
    rcases mem_append.mp inside with inside | inside
    · exact line.onlyDigits byte inside
    · exact mem_takeWhile_imp inside
  · intro byte first
    have found := head?_dropWhile_not isAsciiDigit more
    rw [first] at found
    simpa using found
  · rw [← append_assoc sign digits, append_assoc (sign ++ digits), takeWhile_append_dropWhile]

theorem scanIntLine_stable : Stable scanIntLine := by
  intro input more decided
  obtain ⟨sign, digits, tail, line, rfl⟩ := exists_isLine input
  rw [scanIntLine_eq line] at decided ⊢
  by_cases long : digits ≠ [] ∧ 32 < (sign ++ digits).length
  · obtain ⟨nonempty, long⟩ := long
    rw [lineVerdict_of_long nonempty long]
    obtain rfl | empty := eq_or_ne tail []
    · obtain ⟨others, tail, longer, same⟩ := exists_isLine_of_digits line nonempty more
      rw [append_nil, same, scanIntLine_eq longer]
      refine lineVerdict_of_long (fun wrong => nonempty (append_eq_nil_iff.mp wrong).1) ?_ _
      simp only [length_append] at long ⊢
      omega
    · rw [append_assoc, scanIntLine_eq (line.append empty more), lineVerdict_of_long nonempty long]
  · have arrived : tail ≠ [] ∧ tail ≠ [13] := by
      constructor <;>
      · rintro rfl
        refine decided ?_
        unfold lineVerdict
        split_ifs with none short
        · rfl
        · exact absurd ⟨none, short⟩ long
        · rfl
    rw [append_assoc, scanIntLine_eq (line.append arrived.1 more),
      lineEnd_append arrived.1 arrived.2 more]

/-- A length header without digits: behind the sigil and any sign stands a carriage return without a
line feed. -/
def BrokenHeader (sigil : UInt8) (input : Bytes) : Prop :=
  ∃ (sign : Bytes) (byte : UInt8) (others : Bytes), (sign = [] ∨ sign = [45] ∨ sign = [43]) ∧
    byte ≠ 10 ∧ input = sigil :: (sign ++ 13 :: byte :: others)

/-- Some continuation makes the reader answer with an error other than `Incomplete`. -/
def Refusable {β : Type} (read : Bytes → Except RespError β) (input : Bytes) : Prop :=
  ∃ (more : Bytes) (error : RespError), error ≠ .incomplete ∧ read (input ++ more) = .error error

inductive Waits (read : Bytes → Except RespError β) (dead : Prop) (input : Bytes) : Prop
  | answers (value : Except RespError β) (decided : value ≠ .error .incomplete) (alive : ¬dead)
      (stays : ∀ more, read (input ++ more) = value)
  | refused (alive : ¬dead) (waits : read input = .error .incomplete)
      (refusable : Refusable read input)
  | stuck (isDead : dead) (waits : ∀ more, read (input ++ more) = .error .incomplete)

namespace Waits

variable {first : Bytes → Except RespError α} {read : Bytes → Except RespError β} {dead : Prop}

theorem of_stable (stable : Stable read)
    (waiting : read input = .error .incomplete → Refusable read input ∨ dead)
    (stuck : dead → ∀ more, read (input ++ more) = .error .incomplete) :
    Waits read dead input := by
  by_cases isDead : dead
  · exact .stuck isDead (stuck isDead)
  · by_cases waits : read input = .error .incomplete
    · exact .refused isDead waits ((waiting waits).resolve_right isDead)
    · exact .answers _ waits isDead fun more => stable input more waits

theorem stable (waits : Waits read dead input) (more : Bytes)
    (decided : read input ≠ .error .incomplete) : read (input ++ more) = read input := by
  cases waits with
  | answers value _ _ stays => rw [stays, ← stays [], append_nil]
  | refused _ waits => exact absurd waits decided
  | stuck _ waits => exact absurd (append_nil input ▸ waits []) decided

theorem congr {other : Bytes → Except RespError β} {start : Bytes} {same : Prop}
    (waits : Waits read dead input)
    (agree : ∀ more, other (start ++ more) = read (input ++ more)) (iff : same ↔ dead) :
    Waits other same start := by
  cases waits with
  | answers value decided alive stays =>
    exact .answers value decided (mt iff.mp alive) fun more => (agree more).trans (stays more)
  | refused alive waits refusable =>
    obtain ⟨more, error, decided, refused⟩ := refusable
    have here := agree []
    rw [append_nil, append_nil] at here
    exact .refused (mt iff.mp alive) (here.trans waits)
      ⟨more, error, decided, (agree more).trans refused⟩
  | stuck isDead waits =>
    exact .stuck (iff.mpr isDead) fun more => (agree more).trans (waits more)

theorem drop {skip : Nat} (inside : skip ≤ input.length)
    (waits : Waits read dead (input.drop skip)) :
    Waits (fun input => read (input.drop skip)) dead input :=
  waits.congr (fun _ => congrArg read (drop_append_of_le_length inside)) Iff.rfl

theorem bind {next : α → Bytes → Except RespError β} {later : α → Prop}
    (front : Waits first dead input)
    (rest : ∀ value, first input = .ok value → Waits (next value) (later value) input) :
    Waits (fun input => (first input).bind (next · input))
      (dead ∨ ∃ value, first input = .ok value ∧ later value) input := by
  cases front with
  | answers value decided alive stays =>
    have here : first input = value := by rw [← stays [], append_nil]
    cases value with
    | error error =>
      exact .answers (.error error) (fun wrong => decided (congrArg _ (Except.error.inj wrong)))
        (by simp [alive, here]) fun more => by rw [stays]; rfl
    | ok value =>
      exact (rest value here).congr (fun more => by rw [stays]; rfl) (by simp [alive, here])
  | refused alive waits refusable =>
    obtain ⟨more, error, decided, refused⟩ := refusable
    exact .refused (by simp [alive, waits]) (by rw [waits]; rfl)
      ⟨more, error, decided, by dsimp only; rw [refused]; rfl⟩
  | stuck isDead waits => exact .stuck (.inl isDead) fun more => by rw [waits]; rfl

theorem map {finish : α → Except RespError β} (front : Waits first dead input)
    (decided : ∀ value, finish value ≠ .error .incomplete) :
    Waits (fun input => (first input).bind finish) dead input := by
  have finished (value : α) : Waits (fun _ => finish value) False input :=
    .answers _ (decided value) not_false fun _ => rfl
  exact (front.bind fun value _ => finished value).congr (fun _ => rfl) (by simp)

end Waits

variable {expected : UInt8} {used : Nat} {input : Bytes}

theorem scanIntLine_minusOne (others : Bytes) :
    scanIntLine (bytesOf "-1\r\n" ++ others) = .ok (-1, 2) := by
  have line : IsLine [45] [49] (13 :: 10 :: others) :=
    ⟨.inr (.inl rfl), by decide, fun byte first => by cases first; rfl,
      fun wrong => by cases wrong⟩
  have bytes : bytesOf "-1\r\n" ++ others = [45] ++ [49] ++ 13 :: 10 :: others := rfl
  rw [bytes, scanIntLine_eq line]
  rfl

def headerOfLine (line : ReadResult Int) : ReadResult Int :=
  match line with
  | .error error => .error error
  | .ok (value, digitsEnd) =>
    if 2 ^ 31 ≤ value ∨ value < -2 ^ 31 then .error .integerOverflow
    else .ok (value, 1 + digitsEnd + 2)

theorem tryReadSignedLengthHeaderI32_cons (sigil : UInt8) (rest : Bytes) (expected : UInt8) :
    tryReadSignedLengthHeaderI32 (sigil :: rest) expected =
      if (sigil :: rest).length < 3 then .error .incomplete
      else if (sigil :: rest).take 3 = bytesOf "_\r\n" then .ok (-1, 3)
      else if sigil ≠ expected then .error (.unexpectedToken sigil)
      else headerOfLine (scanIntLine rest) := by
  unfold tryReadSignedLengthHeaderI32
  dsimp only
  by_cases null : rest.take 4 = bytesOf "-1\r\n"
  · rw [if_pos null]
    have line : scanIntLine rest = .ok (-1, 2) := by
      rw [← take_append_drop 4 rest, null, scanIntLine_minusOne]
    rw [line]
    rfl
  · rw [if_neg null]
    rfl

theorem headerOfLine_ne_incomplete {line : ReadResult Int}
    (decided : headerOfLine line ≠ .error .incomplete) : line ≠ .error .incomplete := by
  rintro rfl
  exact decided rfl

theorem tryReadSignedLengthHeaderI32_stable (expected : UInt8) :
    Stable fun input => tryReadSignedLengthHeaderI32 input expected := by
  intro input more decided
  cases input with
  | nil => exact absurd rfl decided
  | cons sigil rest =>
    simp only [cons_append, tryReadSignedLengthHeaderI32_cons] at decided ⊢
    by_cases short : (sigil :: rest).length < 3
    · rw [if_pos short] at decided
      exact absurd rfl decided
    have long : ¬(sigil :: (rest ++ more)).length < 3 := by
      simp only [length_cons, length_append] at short ⊢
      omega
    have front : (sigil :: (rest ++ more)).take 3 = (sigil :: rest).take 3 := by
      rw [← cons_append, take_append_of_le_length (by omega)]
    rw [if_neg long, front]
    split_ifs at decided ⊢ with null wrong
    · rfl
    · rfl
    · rw [scanIntLine_stable rest more (headerOfLine_ne_incomplete decided)]

def IsLetter (byte : UInt8) : Prop := 65 ≤ byte ∧ byte ≤ 90 ∨ 97 ≤ byte ∧ byte ≤ 122

instance : DecidablePred IsLetter := fun byte =>
  inferInstanceAs (Decidable (65 ≤ byte ∧ byte ≤ 90 ∨ 97 ≤ byte ∧ byte ≤ 122))

theorem not_isLetter_of_isAsciiDigit (digit : isAsciiDigit byte) : ¬IsLetter byte := by
  unfold IsLetter
  unfold isAsciiDigit at digit
  simp only [UInt8.le_iff_toNat_le, UInt8.reduceToNat, decide_eq_true_eq] at digit ⊢
  omega

variable {digitsEnd length headerLength count : Nat}

theorem scanIntLine_ok {value : Int} (read : scanIntLine rest = .ok (value, digitsEnd)) :
    ∃ number tail, rest = number ++ 13 :: 10 :: tail ∧ number.length = digitsEnd ∧
      0 < digitsEnd ∧ (∀ byte ∈ number, ¬IsLetter byte) ∧
      ∀ others, scanIntLine (number ++ 13 :: 10 :: others) = .ok (value, digitsEnd) := by
  obtain ⟨sign, digits, tail, line, rfl⟩ := exists_isLine rest
  rw [scanIntLine_eq line] at read
  have nonempty : digits ≠ [] := by
    rintro rfl
    unfold lineVerdict at read
    rw [if_pos rfl] at read
    split at read <;> cases read
  have proper : ∃ others, tail = 13 :: 10 :: others := by
    unfold lineVerdict at read
    rw [if_neg nonempty] at read
    rcases lineEnd_cases tail with rfl | rfl | proper | ⟨byte, others, broken, rfl⟩ |
      ⟨byte, others, other, rfl⟩
    · split_ifs at read
      cases read
    · split_ifs at read
      cases read
    · exact proper
    · rw [lineEnd_of_broken broken] at read
      split_ifs at read
    · rw [lineEnd_of_other other] at read
      split_ifs at read
  obtain ⟨others, rfl⟩ := proper
  have length : (sign ++ digits).length = digitsEnd := by
    have ending : lineEnd (13 :: 10 :: others) = .proper := rfl
    unfold lineVerdict at read
    rw [if_neg nonempty, ending] at read
    split_ifs at read
    dsimp only at read
    split at read
    · cases read
    · split_ifs at read
      cases read
      rfl
  refine ⟨sign ++ digits, others, rfl, length, ?_, ?_, ?_⟩
  · have := length_pos_iff.mpr nonempty
    rw [← length, length_append]
    omega
  · intro byte inside
    rcases mem_append.mp inside with inside | inside
    · rcases line.isSign with rfl | rfl | rfl
      · cases inside
      · rw [mem_singleton.mp inside]
        decide
      · rw [mem_singleton.mp inside]
        decide
    · exact not_isLetter_of_isAsciiDigit (line.onlyDigits byte inside)
  · intro more
    have longer : IsLine sign digits (13 :: 10 :: more) :=
      ⟨line.isSign, line.onlyDigits, line.ends, line.unsigned⟩
    rw [scanIntLine_eq longer]
    exact read

theorem tryReadSignedLengthHeaderI32_ok {value : Int} (noLetter : ¬IsLetter expected)
    (read : tryReadSignedLengthHeaderI32 input expected = .ok (value, used)) :
    ∃ head tail, input = head ++ tail ∧ head.length = used ∧
      (∀ byte ∈ head, ¬IsLetter byte) ∧ 3 ≤ used ∧ (value ≠ -1 → 4 ≤ used) ∧
      ∀ others, tryReadSignedLengthHeaderI32 (head ++ others) expected = .ok (value, used) := by
  cases input with
  | nil => cases read
  | cons sigil rest =>
    have same := tryReadSignedLengthHeaderI32_cons sigil rest expected
    rw [read] at same
    split_ifs at same with short null wrong
    · cases same
      refine ⟨bytesOf "_\r\n", (sigil :: rest).drop 3, ?_, rfl, by decide, le_rfl,
        fun wrong => absurd rfl wrong, fun others => rfl⟩
      rw [← null, take_append_drop]
    · obtain rfl := not_not.mp wrong
      cases line : scanIntLine rest with
      | error error =>
        rw [line] at same
        cases same
      | ok result =>
        obtain ⟨text, tail, rfl, length, positive, letters, stays⟩ := scanIntLine_ok line
        rw [line] at same
        unfold headerOfLine at same
        dsimp only at same
        split_ifs at same with range
        cases same
        refine ⟨sigil :: (text ++ [13, 10]), tail, by simp, by simp [length]; omega, ?_, by omega,
          fun _ => by omega, ?_⟩
        · intro byte inside
          simp only [mem_cons, mem_append, not_mem_nil, or_false] at inside
          rcases inside with rfl | inside | rfl | rfl
          · exact noLetter
          · exact letters byte inside
          · decide
          · decide
        · intro others
          have bytes : ∀ more, sigil :: (text ++ 13 :: 10 :: more) =
              (sigil :: (text ++ [13, 10])) ++ more := by simp
          have enough : 3 ≤ (sigil :: (text ++ [13, 10])).length := by
            simp only [length_cons, length_append]
            omega
          rw [bytes, take_append_of_le_length enough] at null
          rw [← bytes, tryReadSignedLengthHeaderI32_cons, if_neg, bytes,
            take_append_of_le_length enough, if_neg null, if_neg wrong, stays others]
          · unfold headerOfLine
            dsimp only
            rw [if_neg range]
          · simp only [length_cons, length_append]
            omega

theorem isLine_broken (isSign : sign = [] ∨ sign = [45] ∨ sign = [43])
    (others : Bytes) : IsLine sign [] (13 :: others) :=
  ⟨isSign, fun _ wrong => (by cases wrong), fun byte first => (by cases first; rfl),
    fun _ _ => ⟨by simp, by simp⟩⟩

theorem scanIntLine_of_broken {byte : UInt8}
    (isSign : sign = [] ∨ sign = [45] ∨ sign = [43]) (broken : byte ≠ 10) (others : Bytes) :
    scanIntLine (sign ++ 13 :: byte :: others) = .error .incomplete := by
  have read := scanIntLine_eq (isLine_broken isSign (byte :: others))
  rw [append_nil] at read
  rw [read, lineEnd_of_broken broken]
  rfl

theorem readDigits_ne_incomplete (value consumed : Nat) (input : Bytes) :
    readDigits value consumed input ≠ .error .incomplete := by
  induction input generalizing value consumed with
  | nil => rintro ⟨⟩
  | cons byte rest ih =>
    unfold readDigits
    dsimp only
    split_ifs
    · exact ih _ _
    · rintro ⟨⟩
    · rintro ⟨⟩

theorem tryReadInt64_ne_incomplete (line : IsLine sign digits tail)
    (nonempty : digits ≠ []) : tryReadInt64 (sign ++ digits) true ≠ .error .incomplete := by
  obtain ⟨digit, others, rfl⟩ := exists_cons_of_ne_nil nonempty
  have isDigit := line.onlyDigits digit mem_cons_self
  have scanned : tryReadUint64 (digit :: others) ≠ .error .incomplete := by
    unfold tryReadUint64
    dsimp only
    rw [if_pos isDigit]
    exact readDigits_ne_incomplete 0 0 _
  have behind : (sign ++ digit :: others).drop (tryReadSign (sign ++ digit :: others)).2.2 =
      digit :: others := by
    rcases line.isSign with rfl | rfl | rfl
    · rw [nil_append]
      have noSign : tryReadSign (digit :: others) = (false, false, 0) := by
        unfold tryReadSign
        split
        · rename_i minus
          cases minus
          cases isDigit
        · rename_i plus
          cases plus
          cases isDigit
        · rfl
      rw [noSign]
      rfl
    · rfl
    · rfl
  have whole : tryReadInt64Safe (sign ++ digit :: others) true ≠ .error .incomplete := by
    have present : (sign ++ digit :: others).isEmpty = false := by simp
    unfold tryReadInt64Safe
    dsimp only
    rw [behind, present, if_neg Bool.false_ne_true]
    simp only [isEmpty_cons, Bool.false_eq_true, if_false, Bool.not_true, Bool.false_and]
    cases read : tryReadUint64 (digit :: others) with
    | error error =>
      rw [read] at scanned
      intro same
      exact scanned (congrArg Except.error (Except.error.inj same))
    | ok result =>
      dsimp only
      split_ifs <;> rintro ⟨⟩
  unfold tryReadInt64
  cases read : tryReadInt64Safe (sign ++ digit :: others) true with
  | error error =>
    rw [read] at whole
    intro same
    exact whole (congrArg Except.error (Except.error.inj same))
  | ok result => rintro ⟨⟩

theorem scanIntLine_incomplete (incomplete : scanIntLine rest = .error .incomplete) :
    Refusable scanIntLine rest ∨ ∃ (sign : Bytes) (byte : UInt8) (others : Bytes),
      (sign = [] ∨ sign = [45] ∨ sign = [43]) ∧ byte ≠ 10 ∧
        rest = sign ++ 13 :: byte :: others := by
  obtain ⟨sign, digits, tail, line, rfl⟩ := exists_isLine rest
  rw [scanIntLine_eq line] at incomplete
  have short : digits ≠ [] → ¬32 < (sign ++ digits).length := by
    intro nonempty long
    rw [lineVerdict_of_long nonempty long] at incomplete
    cases incomplete
  rcases lineEnd_cases tail with rfl | rfl | ⟨others, rfl⟩ | ⟨byte, others, broken, rfl⟩ |
    ⟨byte, others, other, rfl⟩
  · -- no end has arrived: a letter is refused
    refine .inl ⟨[120], .unexpectedToken 120, by decide, ?_⟩
    have refused : IsLine sign digits [120] := ⟨line.isSign, line.onlyDigits,
      fun byte first => (by cases first; rfl), fun _ _ => ⟨by decide, by decide⟩⟩
    rw [append_nil, scanIntLine_eq refused]
    unfold lineVerdict
    split_ifs with none long
    · rfl
    · exact absurd long (short none)
    · rfl
  · by_cases none : digits = []
    · -- a line end without digits is refused
      subst none
      refine .inl ⟨[10], .notANumber, by decide, ?_⟩
      have ended := scanIntLine_eq (isLine_broken line.isSign [10])
      rw [append_assoc]
      exact ended
    · -- a carriage return behind digits must be followed by a line feed
      refine .inl ⟨[120], .unexpectedToken 120, by decide, ?_⟩
      rw [append_assoc, scanIntLine_eq (line.append (by decide) [120])]
      unfold lineVerdict
      rw [if_neg none, if_neg (short none)]
      rfl
  · -- a complete line is never incomplete
    exfalso
    have ending : lineEnd (13 :: 10 :: others) = .proper := rfl
    unfold lineVerdict at incomplete
    rw [ending] at incomplete
    split_ifs at incomplete with none long
    · cases incomplete
    · cases incomplete
    · have number := tryReadInt64_ne_incomplete line none
      dsimp only at incomplete
      split at incomplete
      · rename_i error failed
        rw [failed] at number
        exact number (congrArg Except.error (Except.error.inj incomplete))
      · split_ifs at incomplete
        cases incomplete
  · -- only without digits is a broken line incomplete
    have none : digits = [] := by
      by_contra nonempty
      unfold lineVerdict at incomplete
      rw [if_neg nonempty, if_neg (short nonempty), lineEnd_of_broken broken] at incomplete
      cases incomplete
    subst none
    exact .inr ⟨sign, byte, others, line.isSign, broken, by rw [append_nil]⟩
  · exfalso
    unfold lineVerdict at incomplete
    rw [lineEnd_of_other other] at incomplete
    split_ifs at incomplete
    · cases incomplete
    · cases incomplete
    · cases incomplete

theorem tryReadSignedLengthHeaderI32_of_broken (broken : BrokenHeader expected input)
    (notNull : expected ≠ 95) (more : Bytes) :
    tryReadSignedLengthHeaderI32 (input ++ more) expected = .error .incomplete := by
  obtain ⟨sign, byte, others, isSign, noFeed, rfl⟩ := broken
  rw [cons_append, tryReadSignedLengthHeaderI32_cons]
  have null : (expected :: (sign ++ 13 :: byte :: others ++ more)).take 3 ≠ bytesOf "_\r\n" := by
    intro same
    exact notNull (List.cons.inj same).1
  rw [if_neg null, if_neg (not_not.mpr rfl), append_assoc, cons_append,
    cons_append, scanIntLine_of_broken isSign noFeed]
  exact ite_self _

theorem Refusable.exists_long {β : Type} {read : Bytes → Except RespError β} (stable : Stable read)
    (refusable : Refusable read input) :
    ∃ (more : Bytes) (error : RespError), 2 ≤ more.length ∧ error ≠ .incomplete ∧
      read (input ++ more) = .error error := by
  obtain ⟨more, error, other, refused⟩ := refusable
  refine ⟨more ++ [0, 0], error, by simp, other, ?_⟩
  rw [← append_assoc, stable (input ++ more) [0, 0], refused]
  rw [refused]
  exact fun same => other (Except.error.inj same)

theorem headerOfLine_refuses {line : ReadResult Int} {error : RespError}
    (refused : line = .error error) : headerOfLine line = .error error := by
  rw [refused]
  rfl

theorem tryReadSignedLengthHeaderI32_incomplete (notNull : expected ≠ 95) (letter : expected ≠ 120)
    (incomplete : tryReadSignedLengthHeaderI32 input expected = .error .incomplete) :
    Refusable (tryReadSignedLengthHeaderI32 · expected) input ∨ BrokenHeader expected input := by
  rcases input with _ | ⟨sigil, rest⟩
  · refine .inl ⟨[120, 120, 120], .unexpectedToken 120, by decide, ?_⟩
    dsimp only
    rw [nil_append, tryReadSignedLengthHeaderI32_cons, if_neg (by decide),
      if_neg (by decide), if_pos (Ne.symm letter)]
  rw [tryReadSignedLengthHeaderI32_cons] at incomplete
  obtain rfl | same := eq_or_ne sigil expected
  · have null : ∀ others, (sigil :: others).take 3 ≠ bytesOf "_\r\n" :=
      fun others wrong => notNull (List.cons.inj wrong).1
    rw [if_neg (null rest), if_neg (not_not.mpr rfl)] at incomplete
    have scanned : Refusable scanIntLine rest ∨ BrokenHeader sigil (sigil :: rest) := by
      by_cases unread : scanIntLine rest = .error .incomplete
      · refine (scanIntLine_incomplete unread).imp_right ?_
        rintro ⟨sign, byte, others, isSign, broken, rfl⟩
        exact ⟨sign, byte, others, isSign, broken, rfl⟩
      · cases read : scanIntLine rest with
        | error error =>
          refine .inl ⟨[], error, fun wrong => unread (by rw [read, wrong]), ?_⟩
          rw [append_nil, read]
        | ok result =>
          -- a number was read, so its line end has arrived and the header is not too short
          obtain ⟨number, tail, rfl, -⟩ := scanIntLine_ok read
          exfalso
          rw [read, if_neg] at incomplete
          · unfold headerOfLine at incomplete
            dsimp only at incomplete
            split_ifs at incomplete
            cases incomplete
          · simp only [length_cons, length_append]
            omega
    refine scanned.imp_left fun refusable => ?_
    obtain ⟨more, error, long, other, refused⟩ := refusable.exists_long scanIntLine_stable
    refine ⟨more, error, other, ?_⟩
    dsimp only
    rw [cons_append, tryReadSignedLengthHeaderI32_cons, if_neg, if_neg (null _),
      if_neg (not_not.mpr rfl), headerOfLine_refuses refused]
    simp only [length_cons, length_append]
    omega
  · -- the wrong sigil is refused as soon as three bytes are there
    have short : (sigil :: rest).length < 3 := by
      by_contra long
      split_ifs at incomplete
      cases incomplete
    refine .inl ⟨[120, 120], .unexpectedToken sigil, by rintro ⟨⟩, ?_⟩
    dsimp only
    rw [cons_append, tryReadSignedLengthHeaderI32_cons, if_neg, if_neg, if_pos same]
    · rcases rest with _ | ⟨byte, rest⟩
      · intro wrong
        cases wrong
      · have empty : rest = [] := by
          simp only [length_cons] at short
          exact length_eq_zero_iff.mp (by omega)
        subst empty
        intro wrong
        cases wrong
    · simp only [length_cons, length_append]
      omega

theorem header_waits (notNull : expected ≠ 95) (letter : expected ≠ 120) (input : Bytes) :
    Waits (tryReadSignedLengthHeaderI32 · expected) (BrokenHeader expected input) input :=
  .of_stable (tryReadSignedLengthHeaderI32_stable expected)
    (tryReadSignedLengthHeaderI32_incomplete notNull letter)
    fun broken => tryReadSignedLengthHeaderI32_of_broken broken notNull

structure HeaderFront (head : Bytes) (used : Nat) : Prop where
  length : head.length = used
  long : 3 ≤ used
  letters : ∀ byte ∈ head, ¬IsLetter byte

theorem tryReadSignedLengthHeader_ok {length : Option Nat} (noLetter : ¬IsLetter expected)
    (read : tryReadSignedLengthHeader input expected = .ok (length, used)) :
    ∃ head tail, input = head ++ tail ∧ HeaderFront head used ∧ (length ≠ none → 4 ≤ used) ∧
      ∀ others, tryReadSignedLengthHeader (head ++ others) expected = .ok (length, used) := by
  unfold tryReadSignedLengthHeader at read
  split at read
  · cases read
  · rename_i value consumed first
    obtain ⟨head, tail, rfl, size, letters, long, digit, stays⟩ :=
      tryReadSignedLengthHeaderI32_ok noLetter first
    have consumedEq : consumed = used ∧ (length ≠ none → value ≠ -1) := by
      split_ifs at read
      · cases read
        exact ⟨rfl, fun wrong => absurd rfl wrong⟩
      · cases read
        exact ⟨rfl, fun _ => by omega⟩
    obtain ⟨rfl, notNull⟩ := consumedEq
    refine ⟨head, tail, rfl, ⟨size, long, letters⟩, fun some => digit (notNull some),
      fun others => ?_⟩
    simp only [tryReadSignedLengthHeader, stays others]
    exact read

theorem tryReadUnsignedLengthHeader_ok (noLetter : ¬IsLetter expected)
    (read : tryReadUnsignedLengthHeader input expected = .ok (length, used)) :
    ∃ head tail, input = head ++ tail ∧ HeaderFront head used ∧ 4 ≤ used ∧
      ∀ others, tryReadUnsignedLengthHeader (head ++ others) expected = .ok (length, used) := by
  unfold tryReadUnsignedLengthHeader at read
  split at read
  · cases read
  · rename_i value consumed first
    obtain ⟨head, tail, rfl, size, letters, long, digit, stays⟩ :=
      tryReadSignedLengthHeaderI32_ok noLetter first
    have consumedEq : consumed = used ∧ value ≠ -1 := by
      split_ifs at read
      cases read
      exact ⟨rfl, by omega⟩
    obtain ⟨rfl, notNull⟩ := consumedEq
    refine ⟨head, tail, rfl, ⟨size, long, letters⟩, digit notNull, fun others => ?_⟩
    simp only [tryReadUnsignedLengthHeader, stays others]
    exact read

theorem payloadAfterHeader_stable (headerLength length : Nat) :
    Stable fun input => payloadAfterHeader input headerLength length := by
  intro input more decided
  unfold payloadAfterHeader at decided ⊢
  by_cases short : input.length < headerLength + length + 2
  · simp only [if_pos short] at decided
    exact absurd rfl decided
  · have long : ¬(input ++ more).length < headerLength + length + 2 := by
      rw [length_append]
      omega
    have behind : headerLength + length ≤ input.length := by omega
    have front : headerLength ≤ input.length := by omega
    have payload : length ≤ (input.drop headerLength).length := by
      rw [length_drop]
      omega
    simp only [if_neg short, if_neg long, drop_append_of_le_length behind,
      drop_append_of_le_length front, take_append_of_le_length payload] at decided ⊢
    obtain ⟨first, rest, split⟩ : ∃ first rest, input.drop (headerLength + length) =
        first :: rest := exists_cons_of_length_pos (by rw [length_drop]; omega)
    obtain ⟨second, rest, rfl⟩ : ∃ second others, rest = second :: others := by
      refine exists_cons_of_length_pos ?_
      have total := congrArg List.length split
      rw [length_drop, length_cons] at total
      omega
    rw [split]
    by_cases proper : first = 13 ∧ second = 10
    · obtain ⟨rfl, rfl⟩ := proper
      rfl
    · simp only [cons_append]
      split <;> split <;> simp_all

theorem payloadAfterHeader_ok (read : payloadAfterHeader input headerLength length = .ok payload) :
    headerLength + length + 2 ≤ input.length ∧ payload = (input.drop headerLength).take length ∧
      ∃ rest, input.drop (headerLength + length) = 13 :: 10 :: rest := by
  unfold payloadAfterHeader at read
  split_ifs at read with short
  split at read
  · rename_i rest split
    cases read
    exact ⟨by omega, rfl, rest, split⟩
  · cases read
  · cases read

theorem payloadAfterHeader_append (head payload others : Bytes) :
    payloadAfterHeader (head ++ payload ++ 13 :: 10 :: others) head.length payload.length =
      .ok payload := by
  unfold payloadAfterHeader
  have size : head.length + payload.length = (head ++ payload).length := by
    rw [length_append]
  rw [if_neg (by simp only [length_append, length_cons]; omega), size, drop_left]
  simp only [append_assoc, drop_left, take_left]

theorem payloadAfterHeader_incomplete
    (incomplete : payloadAfterHeader input headerLength length = .error .incomplete) :
    Refusable (payloadAfterHeader · headerLength length) input := by
  have short : input.length < headerLength + length + 2 := by
    by_contra long
    unfold payloadAfterHeader at incomplete
    rw [if_neg long] at incomplete
    split at incomplete
    · cases incomplete
    · cases incomplete
    · rename_i empty
      have := congrArg List.length empty
      rw [length_drop, length_nil] at this
      omega
  -- letters up to the place of the line feed
  obtain ⟨missing, total⟩ : ∃ missing, headerLength + length + 1 = input.length + missing :=
    ⟨headerLength + length + 1 - input.length, by omega⟩
  let more : Bytes := List.replicate (missing + 1) 120
  have size : (input ++ more).length = headerLength + length + 2 := by
    simp only [more, length_append, length_replicate]
    omega
  obtain ⟨first, second, split⟩ : ∃ first second,
      (input ++ more).drop (headerLength + length) = [first, second] :=
    length_eq_two.mp (by rw [length_drop, size]; omega)
  have letter : second = 120 := by
    have place : (input ++ more)[headerLength + length + 1]? = some 120 := by
      rw [total, getElem?_append_right (by omega), Nat.add_sub_cancel_left]
      exact getElem?_replicate_of_lt (Nat.lt_succ_self missing)
    have same := congrArg (·[1]?) split
    rw [getElem?_drop, place] at same
    exact (Option.some.inj same).symm
  refine ⟨more, .unexpectedToken first, by rintro ⟨⟩, ?_⟩
  unfold payloadAfterHeader
  dsimp only
  rw [if_neg (by omega), split, letter]
  split
  · rename_i wrong
    cases wrong
  · rename_i same
    rw [(List.cons.inj same).1]
  · rename_i wrong
    cases wrong

theorem trySliceWithLengthHeader_waits (input : Bytes) :
    Waits trySliceWithLengthHeader (BrokenHeader 36 input) input := by
  have payload (header : Int × Nat) : Waits (fun input =>
      if header.1 < 0 then .error (.invalidLength header.1)
      else if maxArgumentLengthBytes < header.1.toNat then .error (.invalidLength header.1.toNat)
      else (payloadAfterHeader input header.2 header.1.toNat).bind fun payload =>
        .ok (payload, header.2 + header.1.toNat + 2)) False input := by
    split_ifs
    · exact .answers _ (by rintro ⟨⟩) not_false fun _ => rfl
    · exact .answers _ (by rintro ⟨⟩) not_false fun _ => rfl
    · refine Waits.map (.of_stable (payloadAfterHeader_stable _ _) ?_ False.elim) ?_
      · exact fun incomplete => .inl (payloadAfterHeader_incomplete incomplete)
      · rintro _ ⟨⟩
  have header := @header_waits 36 (by decide) (by decide) input
  refine (header.bind fun header _ => payload header).congr (fun more => ?_) (by simp)
  unfold trySliceWithLengthHeader tryReadUnsignedLengthHeader
  cases tryReadSignedLengthHeaderI32 (input ++ more) 36 with
  | error => rfl
  | ok header =>
    by_cases negative : header.1 < 0
    · simp [negative, Except.bind]
    · simp only [negative, if_false, Except.bind]
      split_ifs
      · rfl
      · cases payloadAfterHeader (input ++ more) header.2 header.1.toNat <;> rfl

theorem trySliceWithLengthHeader_ok (read : trySliceWithLengthHeader input = .ok (payload, used)) :
    ∃ head tail headerLength, input = head ++ payload ++ 13 :: 10 :: tail ∧
      HeaderFront head headerLength ∧ 4 ≤ headerLength ∧
      used = headerLength + payload.length + 2 ∧
      ∀ other more, other.length = payload.length →
        trySliceWithLengthHeader (head ++ other ++ 13 :: 10 :: more) = .ok (other, used) := by
  unfold trySliceWithLengthHeader at read
  cases header : tryReadUnsignedLengthHeader input 36 with
  | error error =>
    rw [header] at read
    cases read
  | ok result =>
    obtain ⟨length, headerLength⟩ := result
    obtain ⟨head, tail, rfl, front, long, stays⟩ :=
      tryReadUnsignedLengthHeader_ok (by decide) header
    rw [header] at read
    dsimp only at read
    split_ifs at read with fits
    split at read
    · cases read
    · rename_i body sliced
      cases read
      obtain ⟨enough, rfl, rest, behind⟩ := payloadAfterHeader_ok sliced
      have payload : (head ++ tail).drop headerLength = tail := by
        rw [← front.length, drop_left]
      have ending : tail.drop length = 13 :: 10 :: rest := by
        rw [← behind, ← drop_drop, payload]
      have taken : (tail.take length).length = length := by
        rw [length_append, front.length] at enough
        exact length_take_of_le (by omega)
      rw [payload, taken]
      refine ⟨head, rest, headerLength, ?_, front, long, rfl, ?_⟩
      · rw [append_assoc, ← ending, take_append_drop]
      · rintro other more rfl
        have again := stays (other ++ 13 :: 10 :: more)
        rw [← append_assoc] at again
        unfold trySliceWithLengthHeader
        rw [again]
        dsimp only
        rw [if_neg fits, ← front.length, payloadAfterHeader_append]

theorem trySliceWithLengthHeader_used_le
    (read : trySliceWithLengthHeader input = .ok (payload, used)) : used ≤ input.length := by
  obtain ⟨head, tail, headerLength, rfl, front, -, rfl, -⟩ := trySliceWithLengthHeader_ok read
  simp only [length_append, length_cons, front.length]
  omega

variable {arguments : List Bytes}

theorem readArguments_succ_ok (read : readArguments (count + 1) input = .ok (arguments, rest)) :
    ∃ sliced others, trySliceWithLengthHeader input = .ok sliced ∧
      readArguments count (input.drop sliced.2) = .ok (others, rest) ∧
      arguments = sliced.1 :: others := by
  unfold readArguments at read
  split at read
  · cases read
  · rename_i argument used first
    split at read
    · cases read
    · rename_i others left later
      cases read
      exact ⟨_, others, first, later, rfl⟩

theorem readArguments_suffix
    (read : readArguments count input = .ok (arguments, rest)) : rest <:+ input := by
  induction count generalizing input arguments with
  | zero =>
    cases read
    exact suffix_refl _
  | succ count ih =>
    obtain ⟨sliced, others, -, later, -⟩ := readArguments_succ_ok read
    exact (ih later).trans (drop_suffix _ _)

def takeArguments (count : Nat) (input : Bytes) : ReadResult (List Bytes) :=
  (readArguments count input).map fun (arguments, rest) => (arguments, input.length - rest.length)

theorem takeArguments_succ (count : Nat) (input : Bytes) : takeArguments (count + 1) input =
      (trySliceWithLengthHeader input).bind fun sliced =>
        (takeArguments count (input.drop sliced.2)).bind fun taken =>
          .ok (sliced.1 :: taken.1, sliced.2 + taken.2) := by
  unfold takeArguments
  rw [readArguments]
  cases sliced : trySliceWithLengthHeader input with
  | error => rfl
  | ok result =>
    have within := trySliceWithLengthHeader_used_le sliced
    cases read : readArguments count (input.drop result.2) with
    | error => simp [read, Except.map, Except.bind]
    | ok rest =>
      have shorter := (readArguments_suffix read).length_le
      rw [length_drop] at shorter
      simp only [read, Except.map, Except.bind, length_drop]
      congr 2
      omega

def BrokenArgument (count : Nat) (input : Bytes) : Prop :=
  ∃ (index : Nat) (arguments : List Bytes) (rest : Bytes), index < count ∧
    readArguments index input = .ok (arguments, rest) ∧ BrokenHeader 36 rest

theorem brokenArgument_succ : BrokenArgument (count + 1) input ↔
    BrokenHeader 36 input ∨ ∃ sliced, trySliceWithLengthHeader input = .ok sliced ∧
      BrokenArgument count (input.drop sliced.2) := by
  constructor
  · rintro ⟨_ | index, arguments, rest, before, read, broken⟩
    · cases read
      exact .inl broken
    · obtain ⟨sliced, others, first, later, -⟩ := readArguments_succ_ok read
      exact .inr ⟨sliced, first, index, others, rest, by omega, later, broken⟩
  · rintro (broken | ⟨sliced, first, index, arguments, rest, before, read, broken⟩)
    · exact ⟨0, [], input, Nat.succ_pos count, rfl, broken⟩
    · refine ⟨index + 1, sliced.1 :: arguments, rest, by omega, ?_, broken⟩
      simp only [readArguments, first, read]

theorem takeArguments_waits (count : Nat) (input : Bytes) :
    Waits (takeArguments count) (BrokenArgument count input) input := by
  induction count generalizing input with
  | zero =>
    refine .answers (.ok ([], 0)) (by rintro ⟨⟩) ?_ fun more => ?_
    · rintro ⟨_, _, _, wrong, -⟩
      cases wrong
    · simp [takeArguments, readArguments, Except.map]
  | succ count ih =>
    refine ((trySliceWithLengthHeader_waits input).bind fun sliced first =>
      ((ih _).drop (trySliceWithLengthHeader_used_le first)).map ?_).congr
        (fun more => takeArguments_succ count _) brokenArgument_succ
    rintro _ ⟨⟩

theorem findCrlf_stable (more : Bytes) (decided : findCrlf input ≠ .ok none) :
    findCrlf (input ++ more) = findCrlf input := by
  by_cases inside : (13 : UInt8) ∈ input
  · have before : input.idxOf 13 < input.length := idxOf_lt_length_of_mem inside
    have same : (input ++ more).idxOf 13 = input.idxOf 13 := idxOf_append_of_mem inside
    unfold findCrlf at decided ⊢
    rw [same, drop_append_of_le_length before.le]
    obtain ⟨first, rest, split⟩ : ∃ first rest, input.drop (input.idxOf 13) = first :: rest :=
      exists_cons_of_length_pos (by rw [length_drop]; omega)
    rw [split] at decided ⊢
    cases rest with
    | nil => exact absurd rfl decided
    | cons second rest =>
      obtain rfl | isFeed := eq_or_ne second 10
      · rfl
      · simp only [cons_append]
  · refine absurd ?_ decided
    unfold findCrlf
    rw [idxOf_eq_length inside, drop_length]

end Wedb.Resp
