/-
Requests as clients write them, an array of bulk strings. The parser takes the name of the
subcommand away from the arguments; the table of locks still counts it.
-/

import Wedb.KeyAgreement
import Wedb.PlainParser

namespace Wedb.Resp

open List

variable {number : Nat} {payload name spelling : Bytes}

def digitsFrom (value : Nat) (digits : Bytes) : Nat :=
  digits.foldl (fun value digit => value * 10 + (digit.toNat - 48)) value

theorem digitsFrom_cons (value : Nat) (digit : UInt8) (digits : Bytes) :
    digitsFrom value (digit :: digits) = digitsFrom (value * 10 + (digit.toNat - 48)) digits :=
  foldl_cons

theorem digitsValue_eq (digits : Bytes) : digitsValue digits = digitsFrom 0 digits := by
  rw [digitsValue, digitsFrom]

theorem le_digitsFrom (value : Nat) (digits : Bytes) : value ≤ digitsFrom value digits := by
  induction digits generalizing value with
  | nil => exact Nat.le_refl value
  | cons digit digits ih =>
    rw [digitsFrom_cons]
    exact Nat.le_trans (by omega) (ih _)

theorem readDigits_eq (input : Bytes) {value consumed : Nat} (low : value < 2 ^ 64)
    (short : consumed < 18 → value < 10 ^ consumed) :
    readDigits value consumed input =
      if digitsFrom value (input.takeWhile isAsciiDigit) < 2 ^ 64 then
        .ok (digitsFrom value (input.takeWhile isAsciiDigit),
          consumed + (input.takeWhile isAsciiDigit).length)
      else .error .integerOverflow := by
  induction input generalizing value consumed with
  | nil => exact (if_pos low).symm
  | cons byte rest ih =>
    rw [readDigits]
    by_cases digit : isAsciiDigit byte
    · have nine : byte.toNat - 48 ≤ 9 := by
        simp only [isAsciiDigit, decide_eq_true_eq, UInt8.le_iff_toNat_le,
          UInt8.reduceToNat] at digit
        omega
      rw [if_pos digit, takeWhile_cons_of_pos digit, digitsFrom_cons, length_cons]
      generalize byte.toNat - 48 = added at nine
      by_cases small : value * 10 + added < 2 ^ 64
      · rw [if_pos (.inr small), ih small, Nat.add_right_comm, Nat.add_assoc]
        intro early
        have bound := short (by omega)
        rw [Nat.pow_succ]
        omega
      · have late : ¬consumed < 18 := by
          intro early
          have bound := short early
          have few := Nat.pow_le_pow_right (show 0 < 10 by decide) (Nat.le_of_lt_succ early)
          omega
        have large := le_digitsFrom (value * 10 + added) (rest.takeWhile isAsciiDigit)
        rw [if_neg (not_or.mpr ⟨late, small⟩), if_neg (by omega)]
    · rw [if_neg digit, takeWhile_cons_of_neg digit]
      exact (if_pos low).symm

theorem tryReadUlong_eq (argument : Bytes) :
    tryReadUlong argument = (parseDigits argument).filter (· < 2 ^ 64) := by
  cases argument with
  | nil => rfl
  | cons first rest =>
    have whole : ((first :: rest).takeWhile isAsciiDigit).length = (first :: rest).length ↔
        (first :: rest).all isAsciiDigit := by
      rw [all_eq_true, ← takeWhile_eq_self_iff]
      exact ⟨fun same => ( takeWhile_prefix _).eq_of_length same, fun same => by rw [same]⟩
    rw [tryReadUlong, tryReadUint64, parseDigits, digitsValue_eq]
    by_cases digit : isAsciiDigit first
    · rw [if_pos digit, readDigits_eq _ (by decide) fun _ => by simp, Nat.zero_add]
      by_cases digital : (first :: rest).all isAsciiDigit
      · have filled : first :: rest ≠ [] ∧ (first :: rest).all isAsciiDigit = true :=
          ⟨cons_ne_nil _ _, digital⟩
        rw [if_pos filled, Option.filter_some, takeWhile_eq_self_iff.mpr (all_eq_true.mp digital)]
        by_cases small : digitsFrom 0 (first :: rest) < 2 ^ 64
        · rw [if_pos small, if_pos (decide_eq_true small)]
          exact if_pos rfl
        · rw [if_neg small, if_neg (by simpa using small)]
      · have partly : ¬(first :: rest ≠ [] ∧ (first :: rest).all isAsciiDigit = true) :=
          fun both => digital both.2
        rw [if_neg partly, Option.filter_none]
        split_ifs
        · exact if_neg (mt whole.mp digital)
        · rfl
    · simp [digit]

/-- An optional sign and digits, of which the first is zero only if it is the only one. -/
def numeral (text : Bytes) : Option Int :=
  let (negative, digits) :=
    match text with
    | 45 :: digits => (true, digits)
    | 43 :: digits => (false, digits)
    | digits => (false, digits)
  if 1 < digits.length ∧ digits.head? = some 48 then none
  else (parseDigits digits).map fun magnitude : Nat =>
    if negative then -(magnitude : Int) else magnitude

theorem numeral_eq (text : Bytes) :
    let digits := text.drop (tryReadSign text).2.2
    numeral text = if 1 < digits.length ∧ digits.head? = some 48 then none
      else (parseDigits digits).map fun magnitude : Nat =>
        if (tryReadSign text).2.1 then -(magnitude : Int) else magnitude := by
  unfold numeral tryReadSign
  split <;> simp_all

theorem tryReadLong_eq (argument : Bytes) :
    tryReadLong argument = (numeral argument).bind asInt64 := by
  obtain rfl | filled := eq_or_ne argument []
  · rfl
  have within : (tryReadSign argument).2.2 ≤ argument.length := by
    unfold tryReadSign
    split <;> simp
  have signed := numeral_eq argument
  have some : argument.isEmpty = false := by simpa using filled
  simp only [tryReadLong, tryReadInt64, tryReadInt64Safe, some, Bool.false_eq_true, if_false]
  generalize tryReadSign argument = sign at within signed
  obtain ⟨signRead, negative, cursor⟩ := sign
  dsimp only at within signed ⊢
  have size : argument.length = cursor + (argument.drop cursor).length := by
    rw [length_drop]
    omega
  simp only [wholeArgument, size, signed]
  generalize argument.drop cursor = digits
  clear signed size within
  obtain rfl | digital := eq_or_ne digits []
  · cases signRead <;> rfl
  have more : digits.isEmpty = false := by simpa using digital
  simp only [more, Bool.false_eq_true, if_false, Bool.not_false, Bool.true_and, Bool.and_eq_true,
    decide_eq_true_eq, beq_iff_eq]
  by_cases zero : 1 < digits.length ∧ digits.head? = Option.some 48
  · rw [if_pos zero, if_pos zero]
    rfl
  rw [if_neg zero, if_neg zero]
  have enough : ((parseDigits digits).map fun magnitude : Nat =>
      if negative then -(magnitude : Int) else magnitude).bind asInt64 =
      (tryReadUlong digits).bind fun magnitude =>
        asInt64 (if negative then -(magnitude : Int) else magnitude) := by
    rw [tryReadUlong_eq]
    cases parseDigits digits with
    | none => rfl
    | some value =>
      rw [Option.map_some, Option.bind_some, Option.filter_some]
      by_cases small : value < 2 ^ 64
      · rw [if_pos (decide_eq_true small), Option.bind_some]
      · rw [if_neg (small ∘ of_decide_eq_true), Option.bind_none]
        cases negative <;> exact if_neg (by omega)
  rw [enough, tryReadUlong]
  cases tryReadUint64 digits with
  | error error => rfl
  | ok result =>
    dsimp only
    by_cases whole : result.2 = digits.length
    · rw [if_pos whole, Option.bind_some, asInt64, whole]
      cases negative <;> split_ifs <;> first | rfl | omega | exact if_pos rfl
    · have partly : ¬cursor + result.2 = cursor + digits.length := by omega
      rw [if_neg whole]
      split_ifs <;> first | rfl | exact if_neg partly

/-- Every integer reader accepts the numerals in its range, and returns their values. -/
theorem integers_read (argument : Bytes) :
    readInt argument = ((numeral argument).filter fun value =>
        decide (-2 ^ 31 ≤ value ∧ value < 2 ^ 31)).elim (.error .notANumber) .ok ∧
      readLong argument = ((numeral argument).filter fun value =>
        decide (-2 ^ 63 ≤ value ∧ value < 2 ^ 63)).elim (.error .notANumber) .ok ∧
      readUlong argument =
        ((parseDigits argument).filter (· < 2 ^ 64)).elim (.error .notANumber) .ok := by
  have long : tryReadLong argument = (numeral argument).filter fun value =>
      decide (-2 ^ 63 ≤ value ∧ value < 2 ^ 63) := by
    rw [tryReadLong_eq]
    cases numeral argument with
    | none => rfl
    | some value => simp [asInt64, Option.filter_some]
  have int : tryReadInt argument = (tryReadLong argument).filter fun value =>
      decide (-2 ^ 31 ≤ value ∧ value < 2 ^ 31) := by
    unfold tryReadInt tryReadLong tryReadInt32 tryReadInt64 wholeArgument
    cases argument.isEmpty with
    | true => rfl
    | false =>
      cases tryReadInt64Safe argument false with
      | error error => rfl
      | ok result =>
        simp only [Bool.false_eq_true, if_false]
        split_ifs with fits whole
        · rw [Option.filter_some, if_pos (decide_eq_true fits)]
          exact if_pos whole
        · exact if_neg whole
        · rw [Option.filter_some, if_neg (by simpa using fits)]
        · rfl
  refine ⟨?_, by rw [readLong, long], by rw [readUlong, tryReadUlong_eq]⟩
  rw [readInt, int, long, Option.filter_filter]
  congr 2
  funext value
  rw [← Bool.decide_and]
  congr 1
  apply propext
  omega

structure Accepts {α : Type} (read : Except RespError α) (small : Prop) (value : α) : Prop where
  ok : small → read = .ok value
  refused : ¬small → ∃ error, read = .error error

theorem Accepts.of_ok {α : Type} {read : Except RespError α} {small : Prop} {value found : α}
    (accepts : Accepts read small value) (answered : read = .ok found) : small ∧ found = value := by
  by_cases fits : small
  · exact ⟨fits, Except.ok.inj (answered.symm.trans (accepts.ok fits))⟩
  · obtain ⟨error, refused⟩ := accepts.refused fits
    cases answered.symm.trans refused

theorem length_prependDigits_le {number bound fuel : Nat} (rest : Bytes) (enough : number < fuel)
    (small : number < 10 ^ (bound + 1)) :
    (prependDigits fuel number rest).length ≤ bound + 1 + rest.length := by
  induction fuel generalizing number bound rest with
  | zero => exact absurd enough (Nat.not_lt_zero _)
  | succ fuel ih =>
    rw [prependDigits]
    split_ifs with last
    · rw [length_cons]
      omega
    · cases bound with
      | zero => omega
      | succ bound =>
        rw [Nat.pow_succ] at small
        have shorter := ih (UInt8.ofNat (48 + number % 10) :: rest)
          (show number / 10 < fuel by omega) (show number / 10 < 10 ^ (bound + 1) by omega)
        rw [length_cons] at shorter
        omega

theorem tryReadSign_of_digit {first : UInt8} (digit : isAsciiDigit first) (rest : Bytes) :
    tryReadSign (first :: rest) = (false, false, 0) := by
  unfold tryReadSign
  split
  · rename_i same
    cases same
    cases digit
  · rename_i same
    cases same
    cases digit
  · rfl

theorem tryReadInt64_formatNat : Accepts (tryReadInt64 (formatNat number) true)
    (number < 2 ^ 63) ((number : Int), (formatNat number).length) := by
  obtain ⟨nonempty, digital, valued⟩ := formatNat_spec number
  generalize formatNat number = digits at nonempty valued digital ⊢
  cases digits with
  | nil => exact absurd rfl nonempty
  | cons first rest =>
    have every := all_eq_true.mp digital
    have digit := every first mem_cons_self
    have loop := @readDigits_eq (first :: rest) 0 0 (by decide) fun _ => by simp
    rw [takeWhile_eq_self_iff.mpr every, ← digitsValue_eq, valued, Nat.zero_add] at loop
    simp only [tryReadInt64, tryReadInt64Safe, isEmpty_cons, tryReadSign_of_digit digit, drop_zero,
      Bool.not_true, Bool.false_and, Bool.false_eq_true, if_false, tryReadUint64, digit, if_true,
      loop]
    refine ⟨fun small => ?_, fun large => ?_⟩
    · rw [if_pos (by omega)]
      dsimp only
      rw [if_neg (by omega), Nat.zero_add]
    · split_ifs
      · dsimp only
        rw [if_pos (by omega)]
        exact ⟨_, rfl⟩
      · exact ⟨_, rfl⟩

variable {rest : Bytes}

theorem scanIntLine_formatNat : Accepts (scanIntLine (formatNat number ++ 13 :: 10 :: rest))
    (number < 2 ^ 63) ((number : Int), (formatNat number).length) := by
  obtain ⟨nonempty, digital, -⟩ := formatNat_spec number
  have line : IsLine [] (formatNat number) (13 :: 10 :: rest) := by
    refine ⟨.inl rfl, all_eq_true.mp digital, fun byte first => ?_, fun _ empty => ?_⟩
    · cases first
      rfl
    · exact absurd empty nonempty
  have scanned := scanIntLine_eq line
  rw [nil_append] at scanned
  rw [scanned]
  unfold lineVerdict
  rw [if_neg nonempty, nil_append]
  refine ⟨fun small => ?_, fun large => ?_⟩
  · have bound : number < 10 ^ 19 := small.trans (by decide)
    have short : (formatNat number).length ≤ 32 :=
      (length_prependDigits_le [] (Nat.lt_succ_self _) bound).trans (by decide)
    rw [if_neg (Nat.not_lt.mpr short), tryReadInt64_formatNat.ok small]
    exact if_pos rfl
  · split_ifs
    · exact ⟨_, rfl⟩
    · obtain ⟨error, refused⟩ := tryReadInt64_formatNat.refused large
      rw [refused]
      exact ⟨error, rfl⟩

theorem tryReadSignedLengthHeaderI32_formatNat {sigil : UInt8} (other : sigil ≠ 95) :
    Accepts (tryReadSignedLengthHeaderI32 (sigil :: (formatNat number ++ 13 :: 10 :: rest)) sigil)
      (number < 2 ^ 31) ((number : Int), (formatNat number).length + 3) := by
  have filled : ¬(sigil :: (formatNat number ++ 13 :: 10 :: rest)).length < 3 := by
    simp
    omega
  rw [tryReadSignedLengthHeaderI32_cons, if_neg filled,
    if_neg (fun null => other (List.cons.inj null).1 : ¬_ = bytesOf _), if_neg (not_not.mpr rfl)]
  refine ⟨fun small => ?_, fun large => ?_⟩
  · rw [scanIntLine_formatNat.ok (small.trans (by decide)), headerOfLine, if_neg (by omega),
      Nat.add_comm 1, Nat.add_assoc]
  · by_cases fits : number < 2 ^ 63
    · rw [scanIntLine_formatNat.ok fits]
      exact ⟨_, if_pos (.inl (by omega))⟩
    · obtain ⟨error, refused⟩ := scanIntLine_formatNat.refused fits
      rw [refused]
      exact ⟨error, rfl⟩

theorem tryReadSignedLengthHeader_formatNat :
    Accepts (tryReadSignedLengthHeader (42 :: (formatNat number ++ 13 :: 10 :: rest)) 42)
      (number < 2 ^ 31) (some number, (formatNat number).length + 3) := by
  have header := @tryReadSignedLengthHeaderI32_formatNat number rest 42 (by decide)
  rw [tryReadSignedLengthHeader]
  refine ⟨fun small => ?_, fun large => ?_⟩
  · rw [header.ok small]
    exact if_neg (Int.not_lt.mpr (Int.natCast_nonneg _))
  · obtain ⟨error, refused⟩ := header.refused large
    rw [refused]
    exact ⟨error, rfl⟩

theorem trySliceWithLengthHeader_writeBulkString :
    Accepts (trySliceWithLengthHeader (writeBulkString payload ++ rest))
      (payload.length ≤ maxArgumentLengthBytes) (payload, (writeBulkString payload).length) := by
  let head := 36 :: (formatNat payload.length ++ [13, 10])
  have size : head.length = (formatNat payload.length).length + 3 := by
    simp [head]
  have written : writeBulkString payload ++ rest = head ++ payload ++ 13 :: 10 :: rest := by
    simp [writeBulkString, crlf, head]
  have header := @tryReadSignedLengthHeaderI32_formatNat payload.length
    (payload ++ 13 :: 10 :: rest) 36 (by decide)
  have shape : head ++ payload ++ 13 :: 10 :: rest =
      36 :: (formatNat payload.length ++ 13 :: 10 :: (payload ++ 13 :: 10 :: rest)) := by
    simp [head]
  rw [← shape] at header
  have used : head.length + payload.length + 2 = (writeBulkString payload).length := by
    simp [writeBulkString, crlf, head]
    omega
  rw [written, trySliceWithLengthHeader, tryReadUnsignedLengthHeader]
  by_cases fits : payload.length < 2 ^ 31
  · rw [header.ok fits, ← size]
    dsimp only
    rw [if_neg (Int.not_lt.mpr (Int.natCast_nonneg _)), Int.toNat_natCast]
    dsimp only
    refine ⟨fun small => ?_, fun large => ⟨_, if_pos (Nat.not_le.mp large)⟩⟩
    rw [if_neg (Nat.not_lt.mpr small), payloadAfterHeader_append, ← used]
  · obtain ⟨error, refused⟩ := header.refused fits
    rw [refused]
    exact ⟨fun small => absurd (small.trans_lt (by decide)) fits, fun _ => ⟨error, rfl⟩⟩

def writeItems (items : List Bytes) : Bytes := items.flatMap writeBulkString

def writeRequest (items : List Bytes) : Bytes := writeArrayHeader items.length ++ writeItems items

theorem readArguments_writeItems (items : List Bytes) :
    Accepts (readArguments items.length (writeItems items ++ rest))
      (∀ item ∈ items, item.length ≤ maxArgumentLengthBytes) (items, rest) := by
  induction items with
  | nil => exact ⟨fun _ => rfl, fun large => absurd (by simp) large⟩
  | cons item items ih =>
    have written : writeItems (item :: items) ++ rest =
        writeBulkString item ++ (writeItems items ++ rest) := by
      rw [writeItems, flatMap_cons, append_assoc]
      rfl
    have slice := @trySliceWithLengthHeader_writeBulkString item (writeItems items ++ rest)
    rw [written, length_cons, forall_mem_cons, readArguments]
    refine ⟨fun small => ?_, fun large => ?_⟩
    · rw [slice.ok small.1]
      dsimp only
      rw [drop_left, ih.ok small.2]
    · by_cases fits : item.length ≤ maxArgumentLengthBytes
      · rw [slice.ok fits]
        dsimp only
        obtain ⟨error, refused⟩ := ih.refused fun small => large ⟨fits, small⟩
        rw [drop_left, refused]
        exact ⟨error, rfl⟩
      · obtain ⟨error, refused⟩ := slice.refused fits
        rw [refused]
        exact ⟨error, rfl⟩

/-- A request is read as the command of its name, with its arguments, and used up, unless it is too
long. -/
theorem parseSessionCommand_writeRequest {cache : SessionMruCache} (reached : cache.Reachable)
    {name : Bytes} (items : List Bytes) (more : Bytes) {primary : RespCommand} {hasSub : Bool}
    (known : RespCommand.lookup name = some (primary, hasSub)) :
    Accepts (parseSessionCommand (writeRequest (name :: items) ++ more) cache).result
      (items.length < maxRespArrayLength ∧
        ∀ item ∈ name :: items, item.length ≤ maxArgumentLengthBytes)
      ⟨(settleCommand primary hasSub items).1, (settleCommand primary hasSub items).2,
        (writeRequest (name :: items)).length⟩ := by
  have header := @tryReadSignedLengthHeader_formatNat (items.length + 1)
    (writeBulkString name ++ (writeItems items ++ more))
  have slice := @trySliceWithLengthHeader_writeBulkString name (writeItems items ++ more)
  have arguments := @readArguments_writeItems more items
  let head := 42 :: (formatNat (items.length + 1) ++ [13, 10])
  have size : head.length = (formatNat (items.length + 1)).length + 3 := by
    simp [head]
  have written : writeRequest (name :: items) ++ more =
      head ++ (writeBulkString name ++ (writeItems items ++ more)) := by
    simp [writeRequest, writeArrayHeader, writeItems, crlf, head]
  have shape : 42 :: (formatNat (items.length + 1) ++
      13 :: 10 :: (writeBulkString name ++ (writeItems items ++ more))) =
      head ++ (writeBulkString name ++ (writeItems items ++ more)) := by
    simp [head]
  rw [shape, ← size] at header
  rw [parseSessionCommand_eq_plainCommand reached.sound, written]
  change Accepts (plainArray _) _ _
  have consumed : (head ++ (writeBulkString name ++ (writeItems items ++ more))).length -
      more.length = (writeRequest (name :: items)).length := by
    rw [← written, length_append, Nat.add_sub_cancel]
  rw [forall_mem_cons]
  refine ⟨fun small => ?_, fun large => ?_⟩
  · obtain ⟨few, short, sizes⟩ := small
    rw [plainArray, header.ok (Nat.lt_of_le_of_lt few (by decide))]
    dsimp only
    rw [if_neg (Nat.not_lt.mpr few), if_neg (Nat.succ_ne_zero _), Nat.add_sub_cancel, plainFrame,
      drop_left, slice.ok short]
    dsimp only
    rw [known]
    dsimp only
    rw [← length_append, ← append_assoc, drop_left, arguments.ok sizes, append_assoc]
    dsimp only
    rw [consumed]
  · rw [plainArray]
    by_cases fits : items.length + 1 < 2 ^ 31
    · rw [header.ok fits]
      dsimp only
      by_cases many : maxRespArrayLength < items.length + 1
      · exact ⟨_, if_pos many⟩
      rw [if_neg many, if_neg (Nat.succ_ne_zero _), Nat.add_sub_cancel, plainFrame, drop_left]
      by_cases short : name.length ≤ maxArgumentLengthBytes
      · rw [slice.ok short]
        dsimp only
        rw [known]
        dsimp only
        obtain ⟨error, refused⟩ :=
          arguments.refused fun sizes => large ⟨Nat.not_lt.mp many, short, sizes⟩
        rw [← length_append, ← append_assoc, drop_left, refused]
        exact ⟨error, rfl⟩
      · obtain ⟨error, refused⟩ := slice.refused short
        rw [refused]
        exact ⟨error, rfl⟩
    · obtain ⟨error, refused⟩ := header.refused fits
      rw [refused]
      exact ⟨error, rfl⟩

theorem lookup_of_spelling (spelled : eqIgnoreAsciiCase name spelling) :
    RespCommand.lookup name = RespCommand.lookup spelling :=
  lookupIgnoringCase_congr Acl.primaryDefinitions_upper (beq_iff_eq.mp spelled)

theorem lookup_listed : ∀ entry ∈ primaryDefinitions,
    RespCommand.lookup (bytesOf entry.1) = some entry.2 := by
  decide +kernel

theorem lookupSubcommand_listed : ∀ parent ∈ containers, ∀ entry ∈ parent.subcommands,
    parent.lookupSubcommand (bytesOf entry.1) = some entry.2 := by
  decide +kernel

/-- A request within the limits, with the name of a command, and of a subcommand where it has some,
in any case, is parsed as that command with its arguments, and exactly what was written is used up.
-/
theorem request_parsed {cache : SessionMruCache} (reached : cache.Reachable)
    {entry : String × RespCommand × Bool} (listed : entry ∈ primaryDefinitions) {name : Bytes}
    (spelled : eqIgnoreAsciiCase name (bytesOf entry.1)) (items : List Bytes) (more : Bytes)
    (few : items.length < maxRespArrayLength)
    (sizes : ∀ item ∈ name :: items, item.length ≤ maxArgumentLengthBytes) :
    let outcome := (parseSessionCommand (writeRequest (name :: items) ++ more) cache).result
    let written := (writeRequest (name :: items)).length
    (entry.2.2 = false → outcome = .ok ⟨entry.2.1, items, written⟩) ∧
      ∀ sub ∈ entry.2.1.subcommands, ∀ word rest, entry.2.2 = true → items = word :: rest →
        eqIgnoreAsciiCase word (bytesOf sub.1) → outcome = .ok ⟨sub.2, rest, written⟩ := by
  have known := (lookup_of_spelling spelled).trans (lookup_listed entry listed)
  have parsed := (parseSessionCommand_writeRequest reached items more known).ok ⟨few, sizes⟩
  refine ⟨fun plain => ?_, fun sub inside word rest container split same => ?_⟩
  · rwa [settleCommand_of_not_container (.inl plain)] at parsed
  · have found : entry.2.1.lookupSubcommand word = some sub.2 :=
      (lookupIgnoringCase_congr (Acl.subcommands_upper _) (beq_iff_eq.mp same)).trans
        (lookupSubcommand_listed _ (mem_containers (ne_nil_of_mem inside)) sub inside)
    simp only [container, split, settleCommand, found] at parsed
    rw [split]
    exact parsed

theorem get_parsed : (parseSessionCommand (writeRequest [bytesOf "get", [107]] ++ [42]) {}).result =
    .ok ⟨.get, [[107]], 20⟩ :=
  (@request_parsed {} .start ("GET", .get, false) (by decide +kernel) (bytesOf "get")
    (by decide +kernel) [[107]] [42] (by decide) (by decide +kernel)).1 rfl

end Wedb.Resp

namespace Wedb.Server

open Resp

inductive ContainerRequest
  | bitop (name op dest : Bytes) (sources : List Bytes)
  | object (name sub key : Bytes)

namespace ContainerRequest

def words : ContainerRequest → List Bytes
  | .bitop name op dest sources => name :: op :: dest :: sources
  | .object name sub key => [name, sub, key]

def Known : ContainerRequest → Prop
  | .bitop name op _ _ => eqIgnoreAsciiCase name (bytesOf "BITOP") = true ∧
    (RespCommand.bitop.lookupSubcommand op).isSome = true
  | .object name sub _ => eqIgnoreAsciiCase name (bytesOf "OBJECT") = true ∧
    (RespCommand.object.lookupSubcommand sub).isSome = true

/-- The target is locked exclusively, every source and the key of OBJECT shared. -/
def Covered (locks : List (Bytes × LockType)) : ContainerRequest → Prop
  | .bitop _ _ dest sources => (dest, .exclusive) ∈ locks ∧
    ∀ source ∈ sources, (source, .shared) ∈ locks
  | .object _ _ key => (key, .shared) ∈ locks

/-- The first source of BITOP is the target, which is a later source as well. -/
def Repeats : ContainerRequest → Prop
  | .bitop _ _ dest sources => ∃ later, sources = dest :: later ∧ dest ∈ later
  | .object _ _ _ => False

theorem forEachKey_bitop {op : Bytes} {sub : RespCommand}
    (known : RespCommand.bitop.lookupSubcommand op = some sub) (dest : Bytes)
    (sources : List Bytes) : QueuedCommand.forEachKey ⟨sub, dest :: sources⟩ =
      match sources with
      | first :: later => (first, .exclusive) :: lockAll .shared later
      | [] => [] := by
  obtain ⟨entry, listed, rfl⟩ := Acl.mem_of_lookupIgnoringCase known
  simp only [RespCommand.subcommands, bitopSubcommands, List.mem_cons, List.not_mem_nil,
    or_false] at listed
  rcases listed with rfl | rfl | rfl | rfl | rfl <;> rfl

theorem forEachKey_object {word : Bytes} {sub : RespCommand}
    (known : RespCommand.object.lookupSubcommand word = some sub) (key : Bytes) :
    QueuedCommand.forEachKey ⟨sub, [key]⟩ = [] := by
  obtain ⟨entry, listed, rfl⟩ := Acl.mem_of_lookupIgnoringCase known
  simp only [RespCommand.subcommands, objectSubcommands, List.mem_cons, List.not_mem_nil,
    or_false] at listed
  rcases listed with rfl | rfl | rfl | rfl | rfl <;> rfl

theorem mem_lockAll {lock other : LockType} {key : Bytes} {keys : List Bytes} :
    (key, other) ∈ lockAll lock keys ↔ key ∈ keys ∧ lock = other := by
  simp only [lockAll, List.mem_map, Prod.mk.injEq]
  constructor
  · rintro ⟨found, member, rfl, rfl⟩
    exact ⟨member, rfl⟩
  · rintro ⟨member, rfl⟩
    exact ⟨key, member, rfl, rfl⟩

/-- The locks of an accepted request cover its keys exactly if the first source of BITOP is the
target and a later source is as well; those of OBJECT never do. -/
theorem covered_iff_repeats {cache : SessionMruCache} (reached : cache.Reachable)
    (request : ContainerRequest) (known : request.Known) (more : Bytes) (parsed : Resp.Parsed)
    (accepted : (parseSessionCommand (writeRequest request.words ++ more) cache).result =
      .ok parsed) :
    request.Covered (QueuedCommand.forEachKey ⟨parsed.cmd, parsed.args⟩) ↔ request.Repeats := by
  cases request with
  | bitop name op dest sources =>
    obtain ⟨spelled, isSub⟩ := known
    obtain ⟨sub, found⟩ := Option.isSome_iff_exists.mp isSub
    have primary : RespCommand.lookup name = some (.bitop, true) :=
      (lookup_of_spelling spelled).trans (by decide +kernel)
    have read := ((parseSessionCommand_writeRequest reached _ more primary).of_ok accepted).2
    simp only [settleCommand, found] at read
    rw [read, forEachKey_bitop found]
    dsimp only [Covered, Repeats]
    cases sources with
    | nil => simp
    | cons first later =>
      simp only [List.mem_cons, Prod.mk.injEq, mem_lockAll, reduceCtorEq, and_true, and_false,
        or_false, false_or]
      constructor
      · rintro ⟨rfl, shared⟩
        exact ⟨later, rfl, shared dest (.inl rfl)⟩
      · rintro ⟨others, same, member⟩
        obtain ⟨rfl, rfl⟩ := List.cons.inj same
        refine ⟨rfl, fun source listed => ?_⟩
        rcases listed with rfl | listed
        · exact member
        · exact listed
  | object name sub key =>
    obtain ⟨spelled, isSub⟩ := known
    obtain ⟨cmd, found⟩ := Option.isSome_iff_exists.mp isSub
    have primary : RespCommand.lookup name = some (.object, true) :=
      (lookup_of_spelling spelled).trans (by decide +kernel)
    have read := ((parseSessionCommand_writeRequest reached _ more primary).of_ok accepted).2
    simp only [settleCommand, found] at read
    rw [read, forEachKey_object found]
    exact iff_of_false List.not_mem_nil not_false

/-- The request `BITOP AND d d d`. -/
def bitopTwice : ContainerRequest := .bitop (bytesOf "BITOP") (bytesOf "and") [100] [[100], [100]]

theorem covered_iff_repeats_bitopTwice :
    bitopTwice.Repeats ∧ bitopTwice.Covered (QueuedCommand.forEachKey
      ⟨.bitopAnd, [[100], [100], [100]]⟩) := by
  have repeats : bitopTwice.Repeats := ⟨[[100]], rfl, List.mem_singleton.mpr rfl⟩
  refine ⟨repeats, (covered_iff_repeats .start bitopTwice ?_ []
    ⟨.bitopAnd, [[100], [100], [100]], 45⟩ ?_).mpr repeats⟩
  · unfold bitopTwice Known
    decide +kernel
  · decide +kernel

/-- The target of `BITOP AND d s` is not locked, and the source is locked exclusively. -/
theorem bitop_locks_source :
    (parseSessionCommand (writeRequest [bytesOf "BITOP", bytesOf "AND", [100], [115]]) {}).result =
        .ok ⟨.bitopAnd, [[100], [115]], 38⟩ ∧
      QueuedCommand.forEachKey ⟨.bitopAnd, [[100], [115]]⟩ = [([115], .exclusive)] := by
  decide +kernel

end ContainerRequest

end Wedb.Server
