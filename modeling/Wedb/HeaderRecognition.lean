/-
The shortcuts of the command parser change nothing. Fixed patterns and cached slots are headers the
slow reader recognises, compared with the input up to case.
-/

import Wedb.CommandNames
import Wedb.FrameReading

namespace Wedb.Resp

open Acl List

variable {header : Header} {input : Bytes}

deriving instance DecidableEq for Header

/-- The header of a frame whose command has no subcommands, as the slow reader sees it. -/
def recognise (input : Bytes) : Option Header :=
  match tryReadSignedLengthHeader input 42 with
  | .ok (some arrayLength, headerLength) =>
    if maxRespArrayLength < arrayLength ∨ arrayLength = 0 then none
    else
      match trySliceWithLengthHeader (input.drop headerLength) with
      | .ok (name, used) =>
        match RespCommand.lookup name with
        | some (cmd, false) => some ⟨cmd, arrayLength - 1, headerLength + used⟩
        | _ => none
      | .error _ => none
  | _ => none

theorem eq_of_map_toAsciiUppercase_eq {bytes others : Bytes}
    (noLetters : ∀ byte ∈ bytes, ¬IsLetter byte)
    (same : others.map toAsciiUppercase = bytes.map toAsciiUppercase) : others = bytes := by
  induction bytes generalizing others with
  | nil => exact map_eq_nil_iff.mp same
  | cons byte bytes ih =>
    obtain ⟨other, rest, rfl, first, restSame⟩ := map_eq_cons_iff.mp same
    have noLetter : ¬IsLetter byte := noLetters byte mem_cons_self
    have fixed := toAsciiUppercase_eq_iff (fun capital => noLetter (.inl capital))
      (fun small => noLetter (.inr small))
    rw [(fixed byte).mpr rfl] at first
    rw [(fixed other).mp first, ih (fun byte inside =>
      noLetters byte (mem_cons_of_mem _ inside)) restSame]

section

variable (found : recognise input = some header)

include found

theorem recognise_cases : ∃ arrayLength headerLength name used cmd,
    tryReadSignedLengthHeader input 42 = .ok (some arrayLength, headerLength) ∧
      ¬(maxRespArrayLength < arrayLength ∨ arrayLength = 0) ∧
      trySliceWithLengthHeader (input.drop headerLength) = .ok (name, used) ∧
      RespCommand.lookup name = some (cmd, false) ∧
      header = ⟨cmd, arrayLength - 1, headerLength + used⟩ := by
  unfold recognise at found
  split at found
  · split_ifs at found with range
    split at found
    · split at found
      · cases found
        exact ⟨_, _, _, _, _, ‹_›, range, ‹_›, ‹_›, rfl⟩
      · cases found
    · cases found
  · cases found

theorem recognise_parts :
    ∃ front name tail, input = front ++ name ++ 13 :: 10 :: tail ∧
      header.len = (front ++ name).length + 2 ∧ (∀ byte ∈ front, ¬IsLetter byte) ∧
      ∀ other more, other.map toAsciiUppercase = name.map toAsciiUppercase →
        recognise (front ++ other ++ 13 :: 10 :: more) = some header := by
  obtain ⟨_, headerLength, name, used, cmd, counted, range, sliced, known, rfl⟩ :=
    recognise_cases found
  obtain ⟨count, rest, rfl, countFront, -, countStays⟩ :=
    tryReadSignedLengthHeader_ok (by decide) counted
  rw [← countFront.length, drop_left] at sliced
  obtain ⟨head, tail, nameLength, rfl, nameFront, -, rfl, nameStays⟩ :=
    trySliceWithLengthHeader_ok sliced
  refine ⟨count ++ head, name, tail, by simp only [append_assoc], ?_, ?_, ?_⟩
  · simp only [length_append, countFront.length, nameFront.length]
    omega
  · intro byte inside
    rcases mem_append.mp inside with inside | inside
    · exact countFront.letters byte inside
    · exact nameFront.letters byte inside
  · intro other more same
    have length : other.length = name.length := by
      simpa using congrArg List.length same
    have bytes : count ++ head ++ other ++ 13 :: 10 :: more =
        count ++ (head ++ other ++ 13 :: 10 :: more) := by
      simp only [append_assoc]
    have dropped : (count ++ (head ++ other ++ 13 :: 10 :: more)).drop headerLength =
        head ++ other ++ 13 :: 10 :: more := by
      rw [← countFront.length, drop_left]
    unfold recognise
    rw [bytes, countStays]
    dsimp only
    rw [if_neg range, dropped, nameStays other more length]
    dsimp only
    have lookup : RespCommand.lookup other = some (cmd, false) := by
      rw [← known]
      exact lookupIgnoringCase_congr primaryDefinitions_upper same
    rw [lookup]

theorem recognise_congr {other : Bytes}
    (same : (other.take header.len).map toAsciiUppercase =
      (input.take header.len).map toAsciiUppercase) : recognise other = some header := by
  obtain ⟨front, name, tail, rfl, length, letters, stays⟩ := recognise_parts found
  have taken : (front ++ name ++ 13 :: 10 :: tail).take header.len = front ++ name ++ [13, 10] := by
    rw [length, take_length_add_append]
    rfl
  rw [taken, append_assoc, map_append] at same
  obtain ⟨otherFront, rest, split, frontSame, restSame⟩ := map_eq_append_iff.mp same
  rw [map_append] at restSame
  obtain ⟨otherName, ending, rfl, nameSame, endingSame⟩ := map_eq_append_iff.mp restSame
  have endingEq : ending = [13, 10] := eq_of_map_toAsciiUppercase_eq (by decide) endingSame
  rw [eq_of_map_toAsciiUppercase_eq letters frontSame, endingEq] at split
  have whole : other = front ++ otherName ++ 13 :: 10 :: other.drop header.len := by
    conv_lhs => rw [← take_append_drop header.len other, split]
    simp
  rw [whole]
  exact stays otherName _ nameSame

theorem parseArrayCommand_of_recognise (mru : SessionMruCache) :
    (parseArrayCommand input mru).result =
      readRest input header.cmd [] header.count (input.drop header.len) := by
  obtain ⟨_, _, _, _, _, counted, range, sliced, known, rfl⟩ := recognise_cases found
  unfold parseArrayCommand
  rw [counted]
  dsimp only
  rw [if_neg fun wrong => range (.inl wrong), if_neg fun wrong => range (.inr wrong),
    sliced]
  dsimp only
  rw [known]
  dsimp only
  rw [if_neg (by simp)]

end

theorem length_loadU128Head (input : Bytes) : (loadU128Head input).length = 16 := by
  simp only [loadU128Head, length_append, length_take, length_replicate]
  omega

variable {word : Bytes} {first last length maxLen used : Nat}

theorem length_upperBytes (ordered : first ≤ last) :
    (upperBytes word first last).length = word.length := by
  simp only [upperBytes, length_append, length_map, length_take, length_drop]
  omega

theorem toAsciiUppercase_toAsciiUppercase (byte : UInt8) :
    toAsciiUppercase (toAsciiUppercase byte) = toAsciiUppercase byte := by
  refine toAsciiUppercase_of_not_lowercase ?_
  unfold isAsciiLowercase toAsciiUppercase
  split
  · rename_i lower
    simp only [UInt8.le_iff_toNat_le, UInt8.toNat_sub, UInt8.reduceToNat, decide_eq_false_iff_not]
      at lower ⊢
    omega
  · rename_i other
    simpa using other

theorem map_toAsciiUppercase_upperBytes (word : Bytes) (ordered : first ≤ last) :
    (upperBytes word first last).map toAsciiUppercase = word.map toAsciiUppercase := by
  have split : word = word.take first ++ (word.take last).drop first ++ word.drop last := by
    have front : word.take first = (word.take last).take first := by
      rw [take_take, Nat.min_eq_left ordered]
    rw [front, take_append_drop, take_append_drop]
  conv_rhs => rw [split]
  simp only [upperBytes, map_append, map_map]
  congr 2
  exact map_congr_left fun byte _ => toAsciiUppercase_toAsciiUppercase byte

theorem andWord_maskFor (full : word.length = 16) (range : 13 ≤ length ∧ length ≤ 16) :
    andWord word (maskFor length) = word.take length ++ List.replicate (16 - length) 0 := by
  have keep : ∀ bytes, andWord bytes (List.replicate bytes.length 255) = bytes := by
    intro bytes
    induction bytes with
    | nil => rfl
    | cons byte bytes ih =>
      have all : byte &&& 255 = byte := UInt8.and_neg_one
      simp only [andWord, length_cons, replicate_succ, zipWith_cons_cons, all]
      rw [← andWord, ih]
  have clear : ∀ bytes, andWord bytes (List.replicate bytes.length 0) =
      List.replicate bytes.length 0 := by
    intro bytes
    induction bytes with
    | nil => rfl
    | cons byte bytes ih =>
      have none : byte &&& 0 = 0 := UInt8.and_zero
      simp only [andWord, length_cons, replicate_succ, zipWith_cons_cons, none]
      rw [← andWord, ih]
  have taken : (word.take length).length = length := by
    rw [length_take]
    omega
  have left : (word.drop length).length = 16 - length := by
    rw [length_drop, full]
  unfold maskFor
  rw [if_pos range]
  conv_lhs => rw [← take_append_drop length word]
  unfold andWord at keep clear ⊢
  rw [zipWith_append (by rw [taken, length_replicate])]
  have first := keep (word.take length)
  have second := clear (word.drop length)
  rw [taken] at first
  rw [left] at second
  rw [first, second]

theorem take_loadU128Head (short : length ≤ 16) (enough : length ≤ input.length) :
    (loadU128Head input).take length = input.take length := by
  unfold loadU128Head
  rw [take_append_of_le_length (by rw [length_take]; omega), take_take, Nat.min_eq_left short]

theorem headerPatterns_recognised : ∀ group ∈ headerPatterns, (13 ≤ group.1 ∧ group.1 ≤ 16) ∧
    ∀ pattern ∈ group.2, (bytesOf pattern.1).length = group.1 ∧
      recognise (bytesOf pattern.1) = some ⟨pattern.2.1, pattern.2.2, group.1⟩ := by
  decide +kernel

theorem matchPatterns_ok (full : word.length = 16)
    (found : matchPatterns word maxLen = some header) :
    (13 ≤ header.len ∧ header.len ≤ 16) ∧ header.len ≤ maxLen ∧ ∃ pattern : Bytes,
      recognise pattern = some header ∧ word.take header.len = pattern.take header.len := by
  obtain ⟨group, inside, match_⟩ := exists_of_findSome?_eq_some found
  obtain ⟨length, patterns⟩ := group
  dsimp only at match_
  split_ifs at match_ with fits
  obtain ⟨pattern, searched, rfl⟩ := Option.map_eq_some_iff.mp match_
  obtain ⟨range, recognised⟩ := headerPatterns_recognised _ inside
  obtain ⟨patternLength, recognised⟩ := recognised pattern (mem_of_find?_eq_some searched)
  have equal := find?_some searched
  rw [beq_iff_eq, andWord_maskFor full range] at equal
  refine ⟨range, fits, bytesOf pattern.1, recognised, ?_⟩
  have front := congrArg (List.take length) equal
  rw [take_loadU128Head range.2 (by omega), take_append_of_le_length, take_take,
    Nat.min_self] at front
  · exact front
  · rw [length_take]
    omega

theorem simdFastParse_ok (found : simdFastParse input = some header) :
    recognise input = some header := by
  unfold simdFastParse at found
  split_ifs at found with guarded
  -- a word that is the head of the input up to case and matches a pattern
  have recognised : ∀ word, word.length = 16 →
      word.map toAsciiUppercase = (loadU128Head input).map toAsciiUppercase →
      matchPatterns word (min 16 input.length) = some header → recognise input = some header := by
    intro word full sameWord matched
    obtain ⟨range, fits, pattern, known, front⟩ := matchPatterns_ok full matched
    refine recognise_congr known ?_
    rw [← front, ← take_loadU128Head range.2 (by omega), map_take, map_take, sameWord]
  dsimp only at found
  split at found
  · rename_i matched
    cases found
    exact recognised _ (length_loadU128Head input) rfl matched
  · split_ifs at found
    have ordered : 8 ≤ min 16 input.length - 2 := by omega
    exact recognised _ ((length_upperBytes ordered).trans (length_loadU128Head input))
      (map_toAsciiUppercase_upperBytes _ ordered) found

def cacheWord (input : Bytes) : Bytes := upperBytes (loadU128Head input) 8 14

theorem length_cacheWord (input : Bytes) : (cacheWord input).length = 16 :=
  (length_upperBytes (by decide)).trans (length_loadU128Head input)

def MruSlot.Sound (slot : MruSlot) : Prop :=
  (13 ≤ slot.header.len ∧ slot.header.len ≤ 16) ∧ slot.mask = maskFor slot.header.len ∧
    ∃ origin, recognise origin = some slot.header ∧ slot.header.len ≤ origin.length ∧
      slot.pattern = andWord (cacheWord origin) slot.mask

theorem MruSlot.Sound.recognise {slot : MruSlot} (sound : slot.Sound)
    (covers : slot.covers input.length (cacheWord input)) :
    recognise input = some slot.header := by
  obtain ⟨range, mask, origin, known, long, pattern⟩ := sound
  unfold MruSlot.covers at covers
  rw [Bool.and_eq_true, decide_eq_true_eq, beq_iff_eq, pattern, mask,
    andWord_maskFor (length_cacheWord _) range,
    andWord_maskFor (length_cacheWord _) range] at covers
  have front : (cacheWord input).take slot.header.len = (cacheWord origin).take slot.header.len :=
    append_cancel_right covers.2
  have folded : ∀ bytes, slot.header.len ≤ bytes.length →
      (bytes.take slot.header.len).map toAsciiUppercase =
        ((cacheWord bytes).take slot.header.len).map toAsciiUppercase := by
    intro bytes enough
    rw [← take_loadU128Head range.2 enough, map_take, map_take, cacheWord,
      map_toAsciiUppercase_upperBytes _ (by decide)]
  refine recognise_congr known ?_
  rw [folded input covers.1, folded origin long, front]

namespace SessionMruCache

def Sound (cache : SessionMruCache) : Prop :=
  (∀ slot ∈ cache.mru0, slot.Sound) ∧ ∀ slot ∈ cache.mru1, slot.Sound

variable {cache : SessionMruCache}

theorem Sound.tryMatch (sound : cache.Sound) (input : Bytes) :
    (cache.tryMatch input).2.Sound ∧
      ∀ header ∈ (cache.tryMatch input).1, recognise input = some header := by
  obtain ⟨first, second⟩ := sound
  unfold SessionMruCache.tryMatch
  dsimp only
  split
  · exact ⟨⟨first, second⟩, fun _ wrong => by cases wrong⟩
  · rename_i slot0 held0
    split_ifs with short covers0
    · exact ⟨⟨first, second⟩, fun _ wrong => by cases wrong⟩
    · refine ⟨⟨first, second⟩, fun header same => ?_⟩
      cases same
      exact (first slot0 held0).recognise covers0
    · split
      · exact ⟨⟨first, second⟩, fun _ wrong => by cases wrong⟩
      · rename_i slot1 held1
        split_ifs with covers1
        · refine ⟨⟨fun slot same => ?_, fun slot same => ?_⟩, fun header same => ?_⟩
          · cases same
            exact second slot1 held1
          · cases same
            exact first slot0 held0
          · cases same
            exact (second slot1 held1).recognise covers1
        · exact ⟨⟨first, second⟩, fun _ wrong => by cases wrong⟩

theorem Sound.update (sound : cache.Sound)
    (known : header.len ≤ 16 → recognise input = some header) :
    (cache.update input header).Sound := by
  unfold SessionMruCache.update
  dsimp only
  split_ifs with skipped same0 same1
  · exact sound
  · exact sound
  · exact ⟨sound.2, sound.1⟩
  · refine ⟨fun slot same => ?_, sound.1⟩
    cases same
    have range : 13 ≤ header.len ∧ header.len ≤ 16 := by omega
    have long : header.len ≤ input.length := by omega
    exact ⟨range, rfl, input, known range.2, long, rfl⟩

end SessionMruCache

variable {cache : SessionMruCache}

theorem seven_le_used {payload : Bytes}
    (read : trySliceWithLengthHeader input = .ok (payload, used)) (nonempty : payload ≠ []) :
    7 ≤ used := by
  obtain ⟨head, tail, headerLength, -, -, long, rfl, -⟩ := trySliceWithLengthHeader_ok read
  have := length_pos_iff.mpr nonempty
  omega

theorem SessionMruCache.Sound.parseArrayCommand (sound : cache.Sound) (input : Bytes) :
    (parseArrayCommand input cache).mru.Sound := by
  unfold Resp.parseArrayCommand
  split
  · exact sound
  · exact sound
  · rename_i arrayLength headerLength counted
    split_ifs with large empty
    · exact sound
    · exact sound
    · split
      · exact sound
      · rename_i name used sliced
        split
        · exact sound
        · rename_i primary hasSub known
          dsimp only
          split_ifs with container
          · split
            · exact sound
            · rename_i next usedNext slicedNext
              split
              · rename_i sub knownSub
                refine sound.update fun short => ?_
                obtain ⟨-, -, -, -, long, -⟩ := tryReadSignedLengthHeader_ok (by decide) counted
                have four := long (by rintro ⟨⟩)
                have named : name ≠ [] := by
                  rintro rfl
                  cases known
                have nextNamed : next ≠ [] := by
                  rintro rfl
                  cases knownSub
                have first := seven_le_used sliced named
                have second := seven_le_used slicedNext nextNamed
                dsimp only at short
                omega
              · exact sound
          · exact sound
          · rename_i plain
            refine sound.update fun _ => ?_
            unfold recognise
            rw [counted]
            dsimp only
            rw [if_neg (not_or.mpr ⟨large, empty⟩), sliced]
            dsimp only
            rw [known]
            cases hasSub with
            | true => exact absurd rfl plain
            | false => rfl

theorem SessionMruCache.Sound.parseSessionCommand (sound : cache.Sound) (input : Bytes) :
    (parseSessionCommand input cache).mru.Sound := by
  have kept := (sound.tryMatch input).1
  unfold Resp.parseSessionCommand
  split
  · exact sound
  · split_ifs
    · exact sound
    · split
      · exact sound
      · split
        · rename_i matched
          rw [matched] at kept
          exact kept
        · rename_i missed
          rw [missed] at kept
          exact kept.parseArrayCommand _

theorem parseArrayCommand_result_congr (input : Bytes) (first second : SessionMruCache) :
    (parseArrayCommand input first).result = (parseArrayCommand input second).result := by
  unfold parseArrayCommand
  dsimp only
  repeat' (first | rfl | split)

theorem result_of_sound (sound : cache.Sound) (other : SessionMruCache)
    (array : input.head? = some 42) :
    (parseSessionCommand input cache).result = (parseArrayCommand input other).result := by
  obtain ⟨rest, rfl⟩ := head?_eq_some_iff.mp array
  unfold parseSessionCommand
  dsimp only
  rw [if_neg (not_not.mpr rfl)]
  split
  · rename_i header found
    exact (parseArrayCommand_of_recognise (simdFastParse_ok found) other).symm
  · split
    · rename_i header mru matched
      have known := (sound.tryMatch (42 :: rest)).2 header (by rw [matched]; rfl)
      exact (parseArrayCommand_of_recognise known other).symm
    · exact parseArrayCommand_result_congr _ _ _

/-- The caches of a session: empty at first, and after each call what the call leaves. -/
inductive SessionMruCache.Reachable : SessionMruCache → Prop
  | start : Reachable {}
  | call {cache : SessionMruCache} (reached : Reachable cache) (input : Bytes) :
    Reachable (parseSessionCommand input cache).mru

theorem SessionMruCache.Reachable.sound (reached : cache.Reachable) : cache.Sound := by
  induction reached with
  | start => exact ⟨fun _ wrong => (by cases wrong), fun _ wrong => (by cases wrong)⟩
  | call _ input ih => exact ih.parseSessionCommand input

/-- On an array frame the parser answers what the reader of array frames answers alone. -/
theorem parseSessionCommand_result_eq {cache : SessionMruCache} (reached : cache.Reachable)
    (alone : SessionMruCache) {input : Bytes} (array : input.head? = some 42) :
    (parseSessionCommand input cache).result = (parseArrayCommand input alone).result :=
  result_of_sound reached.sound alone array

/-- A cache that has seen one command recognises it in lower case. -/
theorem parseSessionCommand_result_eq_llen :
    ((parseSessionCommand (bytesOf "*2\r\n$4\r\nLLEN\r\n$1\r\nk\r\n") {}).mru.tryMatch
        (bytesOf "*2\r\n$4\r\nllen\r\n$1\r\nq\r\n")).1 = some ⟨.llen, 1, 14⟩ ∧
      (parseSessionCommand (bytesOf "*2\r\n$4\r\nllen\r\n$1\r\nq\r\n")
        (parseSessionCommand (bytesOf "*2\r\n$4\r\nLLEN\r\n$1\r\nk\r\n") {}).mru).result =
      (parseArrayCommand (bytesOf "*2\r\n$4\r\nllen\r\n$1\r\nq\r\n") {}).result :=
  ⟨by decide +kernel, parseSessionCommand_result_eq (.call .start _) {} (by decide)⟩

end Wedb.Resp
