/-
The line which describes a user is read back as the user, for every user that rules can make as long
as no rule breaks the record of commands or brings white space.
-/

import Wedb.CommandRecord

namespace Wedb.Acl

open Resp List User Text CommandPermissionSet

theorem hexValue_hexDigit {value : UInt8} (small : value < 16) (position : Nat) :
    ∃ byte, String.utf8EncodeChar (hexDigit value) = [byte] ∧
      hexValue byte position = .ok value := by
  have bound : value.toNat < 16 := small
  have self : UInt8.ofNat value.toNat = value := UInt8.ofNat_toNat
  rw [← self]
  generalize value.toNat = number at bound
  interval_cases number <;> exact ⟨_, rfl, rfl⟩

theorem isWhitespace_hexDigit {value : UInt8} (small : value < 16) :
    isWhitespace (hexDigit value) = false := by
  have bound : value.toNat < 16 := small
  have self : UInt8.ofNat value.toNat = value := UInt8.ofNat_toNat
  rw [← self]
  generalize value.toNat = number at bound
  interval_cases number <;> rfl

theorem halves_of_byte (byte : UInt8) :
    byte >>> 4 < 16 ∧ byte &&& 15 < 16 ∧ (byte >>> 4) <<< 4 ||| (byte &&& 15) = byte := by
  have every : ∀ number < 256, UInt8.ofNat number >>> 4 < 16 ∧ UInt8.ofNat number &&& 15 < 16 ∧
      (UInt8.ofNat number >>> 4) <<< 4 ||| (UInt8.ofNat number &&& 15) = UInt8.ofNat number := by
    decide +kernel
  have self : UInt8.ofNat byte.toNat = byte := UInt8.ofNat_toNat
  rw [← self]
  exact every byte.toNat byte.toNat_lt

theorem decodeHex_digits (hash : List UInt8) (position : Nat) :
    decodeHex position (Text.bytes (hash.flatMap fun (byte : UInt8) =>
      [hexDigit (byte >>> 4), hexDigit (byte &&& 15)])) = .ok hash := by
  induction hash generalizing position with
  | nil => rfl
  | cons byte rest ih =>
    obtain ⟨smallHigh, smallLow, whole⟩ := halves_of_byte byte
    obtain ⟨high, writtenHigh, readHigh⟩ := hexValue_hexDigit smallHigh position
    obtain ⟨low, writtenLow, readLow⟩ := hexValue_hexDigit smallLow (position + 1)
    have later := ih (position + 2)
    simp only [Text.bytes] at later
    simp only [Text.bytes, flatMap_cons, writtenHigh, writtenLow, cons_append,
      nil_append, decodeHex, readHigh, readLow, later]
    simp only [bind, Except.bind, pure, Except.pure, whole]

theorem length_bytes_digits (hash : List UInt8) : (Text.bytes (hash.flatMap fun (byte : UInt8) =>
      [hexDigit (byte >>> 4), hexDigit (byte &&& 15)])).length = 2 * hash.length := by
  induction hash with
  | nil => rfl
  | cons byte rest ih =>
    obtain ⟨smallHigh, smallLow, -⟩ := halves_of_byte byte
    obtain ⟨high, writtenHigh, -⟩ := hexValue_hexDigit smallHigh 0
    obtain ⟨low, writtenLow, -⟩ := hexValue_hexDigit smallLow 0
    simp only [Text.bytes] at ih
    simp only [Text.bytes, flatMap_cons, writtenHigh, writtenLow, cons_append,
      nil_append, length_cons, ih]
    omega

theorem fromHashHex_toHex (password : AclPassword) :
    AclPassword.fromHashHex password.toHex = .ok password := by
  have sized : password.toHex.bytes.length = 64 := by
    rw [AclPassword.toHex, length_bytes_digits, password.length_hash]
  have decoded : decodeHex 0 password.toHex.bytes = .ok password.hash :=
    decodeHex_digits password.hash 0
  unfold AclPassword.fromHashHex
  rw [dif_pos sized]
  split
  case h_1 hash success =>
    obtain rfl := Except.ok.inj (success.symm.trans decoded)
    rfl
  case h_2 failure failed => exact absurd (failed.symm.trans decoded) (by simp)

theorem solid_toHex (password : AclPassword) : password.toHex.Solid := by
  intro character inside
  obtain ⟨byte, -, digit⟩ := mem_flatMap.mp inside
  obtain ⟨smallHigh, smallLow, -⟩ := halves_of_byte byte
  simp only [mem_cons, not_mem_nil, or_false] at digit
  rcases digit with rfl | rfl
  · exact isWhitespace_hexDigit smallHigh
  · exact isWhitespace_hexDigit smallLow

theorem isWhitespace_of_isDigit {character : Char} (digit : character.isDigit) :
    isWhitespace character = false := by
  have bounds := @toNat_of_isAlphanum character (by simp [Char.isAlphanum, digit])
  exact isWhitespace_of_printable (by omega) (by omega)

theorem solid_toDigits (number : Nat) : Text.Solid (Nat.toDigits 10 number) := fun _ inside =>
  isWhitespace_of_isDigit (Nat.isDigit_of_mem_toDigits (by decide) (by decide) inside)

theorem isDigit_toLower (character : Char) : character.toLower.isDigit = character.isDigit :=
  forall_toLower (fun left right => right.isDigit = left.isDigit) (fun _ => rfl) (by decide)
    character

theorem toDigits_ne_word (number : Nat) {word rest : Text} {first : Char}
    (lower : word.toAsciiLowercase = first :: rest) (letter : first.isDigit = false) :
    Text.eqIgnoreAsciiCase (Nat.toDigits 10 number) word = false := by
  unfold Text.eqIgnoreAsciiCase
  rw [lower, beq_eq_false_iff_ne]
  intro same
  have inside : first ∈ toAsciiLowercase (Nat.toDigits 10 number) := by simp [same]
  obtain ⟨digit, written, rfl⟩ := mem_map.mp inside
  have numeric := Nat.isDigit_of_mem_toDigits (by decide) (by decide) written
  rw [isDigit_toLower, numeric] at letter
  exact absurd letter (by decide)

theorem parseNs_toDigits {number : UInt64} (lower : 1 ≤ number)
    (upper : number ≤ maxTenantNamespace) :
    parseNs (Nat.toDigits 10 number.toNat) = .ok (some number) := by
  have digits : ∀ character ∈ Nat.toDigits 10 number.toNat, character.isDigit :=
    fun _ inside => Nat.isDigit_of_mem_toDigits (by decide) (by decide) inside
  have read : parseStrictU64 (Nat.toDigits 10 number.toNat) = some number := by
    have small : number.toNat < 2 ^ 64 := number.toNat_lt
    simp only [parseStrictU64, Nat.ofDigitChars_ten_toDigits]
    rw [if_pos ⟨Nat.toDigits_ne_nil, all_eq_true.mpr digits, small⟩, UInt64.ofNat_toNat]
  have notNone := @toDigits_ne_word number.toNat (text "none") _ _ rfl rfl
  have notAll := @toDigits_ne_word number.toNat (text "all") _ _ rfl rfl
  simp only [parseNs, notNone, notAll, read, lower, upper, Bool.or_self, Bool.false_eq_true,
    if_false, and_self, if_true]

structure KeyPattern.Plain (entry : KeyPattern) : Prop where
  solid : entry.pattern.Solid
  used : entry.read = true ∨ entry.write = true
  partly : ¬(entry.pattern = text "*" ∧ entry.read = true ∧ entry.write = true)

/-- The fields of the user agree, hold no white space, and the record repeats the commands. -/
structure Describable (sha256 : Digest) (user : User) : Prop where
  named : user.name ≠ [] ∧ '#' ∉ user.name ∧ user.name.Solid
  bound : ∀ number, user.namespaceId = some number → 1 ≤ number ∧ number ≤ maxTenantNamespace
  nopass : user.nopass = true → user.passwords = []
  passwords : user.passwords.Nodup
  allkeys : user.allkeys = true → user.keyPatterns = [KeyPattern.all]
  keys : user.allkeys = false →
    (user.keyPatterns.map (·.pattern)).Nodup ∧ ∀ entry ∈ user.keyPatterns, entry.Plain
  allchannels : user.allchannels = true → user.channelPatterns = [text "*"]
  channels : user.allchannels = false →
    user.channelPatterns.Nodup ∧
      ∀ pattern ∈ user.channelPatterns, pattern.Solid ∧ pattern ≠ text "*"
  commands : Replayed sha256 user.commands

def namespaceWords : Option UInt64 → List Text
  | some number => [text "ns", Nat.toDigits 10 number.toNat]
  | none => []

def User.ruleWords (user : User) : List Text :=
  [if user.enabled then text "on" else text "off"] ++
    (if user.nopass then [text "nopass"] else []) ++
    namespaceWords user.namespaceId ++
    user.passwords.map (fun password => '#' :: password.toHex) ++
    (if user.allkeys then [text "~*"] else user.keyPatterns.map KeyPattern.rule) ++
    (if user.allchannels then [text "&*"] else user.channelPatterns.map ('&' :: ·)) ++
    user.commands.description.words

theorem flatMap_words_of_solid {texts : List Text}
    (solid : ∀ word ∈ texts, word.Solid ∧ word ≠ []) : texts.flatMap Text.words = texts := by
  have same : ∀ word ∈ texts, word.words = [word] := fun word inside =>
    words_of_solid (solid word inside).1 (solid word inside).2
  rw [flatMap_congr same]
  simp

theorem KeyPattern.Plain.solid_rule {entry : KeyPattern} (plain : entry.Plain) :
    entry.rule.Solid ∧ entry.rule ≠ [] := by
  obtain ⟨pattern, read, write⟩ := entry
  have used := plain.used
  have signs : (text "~").Solid ∧ (text "%R~").Solid ∧ (text "%W~").Solid := by decide
  cases read <;> cases write
  · simp at used
  · exact ⟨Text.Solid.append signs.2.2 plain.solid, by simp [KeyPattern.rule, text]⟩
  · exact ⟨Text.Solid.append signs.2.1 plain.solid, by simp [KeyPattern.rule, text]⟩
  · exact ⟨Text.Solid.append signs.1 plain.solid, by simp [KeyPattern.rule, text]⟩

section

variable {sha256 : Digest} {user : User}

theorem words_describe (user : User) : user.describe.words =
      (text "user").words ++ (user.name.words ++ user.rules.flatMap Text.words) := by
  obtain ⟨first, rest, listed⟩ : ∃ first rest, user.rules = first :: rest := by
    simp [User.rules]
  have tail := words_flatMap_space user.rules
  rw [listed, flatMap_cons, cons_append, words_space] at tail
  have spaced : user.describe =
      text "user" ++ ' ' :: (user.name ++ ' ' :: (first ++ rest.flatMap (' ' :: ·))) := by
    simp [describe, listed, text]
  rw [spaced, words_append_space, words_append_space, tail, listed]

theorem words_ns (number : Nat) :
    Text.words (text "ns " ++ Nat.toDigits 10 number) = [text "ns", Nat.toDigits 10 number] := by
  have word : (text "ns").words = [text "ns"] := by decide
  have spaced := words_append_space (text "ns") (Nat.toDigits 10 number)
  rwa [words_of_solid (solid_toDigits number) Nat.toDigits_ne_nil, word] at spaced

theorem Describable.flatMap_words (describable : Describable sha256 user) :
    user.rules.flatMap Text.words = user.ruleWords := by
  have passwords : (user.passwords.map fun password => '#' :: password.toHex).flatMap Text.words =
      user.passwords.map fun password => '#' :: password.toHex := by
    refine flatMap_words_of_solid fun word inside => ?_
    obtain ⟨password, -, rfl⟩ := mem_map.mp inside
    exact ⟨solid_cons (by decide) (solid_toHex password), by simp⟩
  have keys : (if user.allkeys then [text "~*"] else
      user.keyPatterns.map KeyPattern.rule).flatMap Text.words =
      if user.allkeys then [text "~*"] else user.keyPatterns.map KeyPattern.rule := by
    cases all : user.allkeys with
    | true => exact flatMap_words_of_solid (by decide : ∀ word ∈ [text "~*"], _)
    | false =>
      refine flatMap_words_of_solid fun word inside => ?_
      obtain ⟨entry, listed, rfl⟩ := mem_map.mp inside
      exact ((describable.keys all).2 entry listed).solid_rule
  have channels : (if user.allchannels then [text "&*"] else
      user.channelPatterns.map ('&' :: ·)).flatMap Text.words =
      if user.allchannels then [text "&*"] else user.channelPatterns.map ('&' :: ·) := by
    cases all : user.allchannels with
    | true => exact flatMap_words_of_solid (by decide : ∀ word ∈ [text "&*"], _)
    | false =>
      refine flatMap_words_of_solid fun word inside => ?_
      obtain ⟨pattern, listed, rfl⟩ := mem_map.mp inside
      exact ⟨solid_cons (by decide) ((describable.channels all).2 pattern listed).1, by simp⟩
  have enabled : [if user.enabled then text "on" else text "off"].flatMap Text.words =
      [if user.enabled then text "on" else text "off"] := by
    cases user.enabled <;> decide
  have nopass : (if user.nopass then [text "nopass"] else []).flatMap Text.words =
      if user.nopass then [text "nopass"] else [] := by
    cases user.nopass <;> decide
  unfold User.rules ruleWords
  cases user.namespaceId with
  | none =>
    simp only [flatMap_append, enabled, nopass, passwords, keys, channels,
      flatMap_words_words, flatMap_nil, namespaceWords]
  | some number =>
    simp only [flatMap_append, enabled, nopass, passwords, keys, channels, flatMap_words_words,
      flatMap_cons, flatMap_nil, words_ns, append_nil, namespaceWords]

theorem Turns.items {α : Type} (state : List α → User) (render : α → Text) (items : List α)
    (step : ∀ front item back, items = front ++ item :: back →
      Turns sha256 (state front) [render item] (state (front ++ [item]))) :
    Turns sha256 (state []) (items.map render) (state items) := by
  have from_ : ∀ back front, items = front ++ back →
      Turns sha256 (state front) (back.map render) (state items) := by
    intro back
    induction back with
    | nil =>
      intro front whole
      rw [whole, append_nil]
      exact Turns.nil _
    | cons item rest ih =>
      intro front whole
      have later := ih (front ++ [item]) (by simp [whole])
      exact (step front item rest whole).append later
  exact from_ items [] rfl

theorem turns_enabled (user : User) (on : Bool) :
    Turns sha256 user [if on then text "on" else text "off"] { user with enabled := on } := by
  cases on
  · exact Turns.of_op rfl rfl
  · exact Turns.of_op rfl rfl

theorem turns_nopass (empty : user.passwords = []) (unset : user.nopass = false) (nopass : Bool) :
    Turns sha256 user (if nopass then [text "nopass"] else []) { user with nopass := nopass } := by
  obtain ⟨name, bound, enabled, free, passwords, commands, allkeys, keys, allchannels, channels⟩ :=
    user
  cases empty
  cases unset
  cases nopass
  · exact Turns.nil _
  · exact Turns.of_op rfl rfl

theorem turns_namespace (unbound : user.namespaceId = none) {bound : Option UInt64}
    (tenant : ∀ number, bound = some number → 1 ≤ number ∧ number ≤ maxTenantNamespace) :
    Turns sha256 user (namespaceWords bound) { user with namespaceId := bound } := by
  cases bound with
  | none =>
    obtain ⟨name, space, enabled, free, passwords, commands, allkeys, keys, allchannels,
      channels⟩ := user
    cases unbound
    exact Turns.nil _
  | some number =>
    intro rest
    have read := parseNs_toDigits (tenant number rfl).1 (tenant number rfl).2
    have word : (text "ns").eqIgnoreAsciiCase (text "ns") = true := by decide
    rw [namespaceWords, cons_append, applyRules.eq_def]
    simp only [word, if_true, cons_append, nil_append, read]
    rfl

theorem not_mem_front {α : Type} {items front back : List α} {item : α} (distinct : items.Nodup)
    (whole : items = front ++ item :: back) : item ∉ front := by
  rw [whole] at distinct
  exact fun inside => (nodup_append.mp distinct).2.2 item inside item mem_cons_self rfl

theorem turns_passwords (empty : user.passwords = []) {passwords : List AclPassword}
    (distinct : passwords.Nodup) (required : user.nopass → passwords = []) :
    Turns sha256 user (passwords.map fun password => '#' :: password.toHex)
      { user with passwords := passwords } := by
  have start : user = { user with passwords := [] } := by rw [← empty]
  rw [start]
  refine Turns.items (fun front => { user with passwords := front }) _ passwords
    fun front password back whole => ?_
  have fresh := not_mem_front distinct whole
  have closed : user.nopass = false := by
    cases free : user.nopass with
    | false => rfl
    | true => simp [required free] at whole
  refine Turns.of_op (not_ns (by decide)) ?_
  rw [applyOp, ofRule_of_solid (solid_cons (by decide) (solid_toHex password))]
  simp only [AclOp.ofTrimmed, AclOp.apply, fromHashHex_toHex]
  simp [bind, Except.bind, pure, Except.pure, addPasswordHash, fresh, closed]

variable {entry : KeyPattern}

theorem KeyPattern.Plain.ofRule_rule (plain : entry.Plain) :
    AclOp.ofRule entry.rule = .keyPattern entry.pattern entry.read entry.write := by
  rw [ofRule_of_solid plain.solid_rule.1]
  obtain ⟨pattern, read, write⟩ := entry
  have used := plain.used
  have partly := plain.partly
  cases read <;> cases write
  · simp at used
  · rfl
  · rfl
  · have other : ¬pattern = ['*'] := fun star => partly ⟨star, rfl, rfl⟩
    show AclOp.ofTrimmed ('~' :: pattern) = _
    simp [AclOp.ofTrimmed]

theorem KeyPattern.Plain.rule_ne_ns (plain : entry.Plain) :
    entry.rule.eqIgnoreAsciiCase (text "ns") = false := by
  obtain ⟨pattern, read, write⟩ := entry
  have used := plain.used
  cases read <;> cases write
  · simp at used
  all_goals exact not_ns (by decide)

variable {allkeys allchannels read write grant : Bool} {patterns keys : List KeyPattern}

theorem turns_keys (none : user.keyPatterns = []) (some : user.allkeys = false)
    (all : allkeys → patterns = [KeyPattern.all])
    (plain : allkeys = false → (patterns.map (·.pattern)).Nodup ∧ ∀ entry ∈ patterns, entry.Plain) :
    Turns sha256 user (if allkeys then [text "~*"] else patterns.map KeyPattern.rule)
      { user with allkeys := allkeys, keyPatterns := patterns } := by
  obtain ⟨name, bound, enabled, free, passwords, commands, others, keys, allchannels, channels⟩ :=
    user
  cases none
  cases some
  cases allkeys with
  | true =>
    rw [all rfl]
    exact Turns.of_op rfl rfl
  | false =>
    obtain ⟨distinct, plainEntries⟩ := plain rfl
    refine Turns.items (fun front => User.mk name bound enabled free passwords commands false front
      allchannels channels) _ patterns fun front entry back whole => ?_
    have listed : entry ∈ patterns := by simp [whole]
    have fresh : entry.pattern ∉ front.map (·.pattern) :=
      not_mem_front distinct (by rw [whole, map_append, map_cons])
    have missing : front.find? (·.pattern = entry.pattern) = .none := by
      refine find?_eq_none.mpr fun other inside same => fresh ?_
      exact mem_map.mpr ⟨other, inside, by simpa using same⟩
    refine Turns.of_op (plainEntries entry listed).rule_ne_ns ?_
    rw [applyOp, (plainEntries entry listed).ofRule_rule]
    simp [AclOp.apply, addKeyPattern, (plainEntries entry listed).partly, missing]

theorem turns_channels (none : user.channelPatterns = [])
    (some : user.allchannels = false) {patterns : List Text}
    (all : allchannels → patterns = [text "*"])
    (plain : allchannels = false →
      patterns.Nodup ∧ ∀ pattern ∈ patterns, pattern.Solid ∧ pattern ≠ text "*") :
    Turns sha256 user (if allchannels then [text "&*"] else patterns.map ('&' :: ·))
      { user with allchannels := allchannels, channelPatterns := patterns } := by
  obtain ⟨name, bound, enabled, free, passwords, commands, allkeys, keys, others, channels⟩ := user
  cases none
  cases some
  cases allchannels with
  | true =>
    rw [all rfl]
    exact Turns.of_op rfl rfl
  | false =>
    obtain ⟨distinct, plainPatterns⟩ := plain rfl
    refine Turns.items (fun front => User.mk name bound enabled free passwords commands allkeys keys
      false front) _ patterns fun front pattern back whole => ?_
    obtain ⟨solid, partly⟩ := plainPatterns pattern (by simp [whole])
    have fresh := not_mem_front distinct whole
    have other : ¬pattern = ['*'] := partly
    refine Turns.of_op (not_ns (by decide)) ?_
    rw [applyOp, ofRule_of_solid (solid_cons (by decide) solid)]
    simp [AclOp.ofTrimmed, AclOp.apply, addChannelPattern, partly, fresh]

section

variable (describable : Describable sha256 user)

include describable

theorem Describable.turns : Turns sha256 (User.new user.name) user.ruleWords user := by
  have enabled := @turns_enabled sha256 (User.new user.name) user.enabled
  have nopass := enabled.append (turns_nopass rfl rfl user.nopass)
  have bound := nopass.append (turns_namespace rfl describable.bound)
  have passwords := bound.append (turns_passwords rfl describable.passwords describable.nopass)
  have keys := passwords.append (turns_keys rfl rfl describable.allkeys describable.keys)
  have channels := keys.append (turns_channels rfl rfl describable.allchannels describable.channels)
  exact channels.append (describable.commands user)

theorem Describable.parse_describe : parseRuleLine sha256 user.describe = .ok user := by
  have valid : validateUsername user.name = .ok () := by
    simp [validateUsername, describable.named.1, describable.named.2.1]
  have word : (text "user").words = [text "user"] := by decide
  have keyword : (text "user").eqIgnoreAsciiCase (text "user") = true := by decide
  unfold parseRuleLine
  rw [words_describe, word, words_of_solid describable.named.2.2 describable.named.1,
    describable.flatMap_words]
  simp only [cons_append, nil_append, keyword, valid, if_false, Bool.not_true, Bool.false_eq_true]
  exact describable.turns.applyRules_eq

theorem Describable.withCommands
    {commands : CommandPermissionSet} (replayed : Replayed sha256 commands) :
    Describable sha256 { user with commands := commands } :=
  { describable with commands := replayed }

end

theorem nodup_append_single {α : Type} {items : List α} {item : α} (distinct : items.Nodup)
    (fresh : item ∉ items) : (items ++ [item]).Nodup := by
  rw [← concat_eq_append]
  exact distinct.concat fresh

section

variable (describable : Describable sha256 user)

include describable

theorem Describable.addPassword (password : AclPassword) :
    Describable sha256 ({ user with nopass := false }.addPasswordHash password) := by
  unfold addPasswordHash
  split
  case isTrue => exact { describable with nopass := fun free => absurd free (by simp) }
  case isFalse fresh =>
    exact { describable with
      nopass := fun free => absurd free (by simp)
      passwords := nodup_append_single describable.passwords fresh }

theorem Describable.removePassword (password : AclPassword) :
    Describable sha256 (user.removePasswordHash password) :=
  { describable with
    nopass := fun free => by simp [removePasswordHash, describable.nopass free]
    passwords := describable.passwords.filter _ }

theorem Describable.setAllKeys : Describable sha256 user.setAllKeys := { describable with
    allkeys := fun _ => rfl
    keys := fun some => absurd some (by simp [User.setAllKeys]) }

theorem Describable.resetKeys : Describable sha256 user.resetKeys := { describable with
    allkeys := fun all => absurd all (by simp [User.resetKeys])
    keys := fun _ => by simp [User.resetKeys] }

end

theorem map_pattern_joinKeyPattern (pattern : Text) (read write : Bool) (keys : List KeyPattern) :
    (joinKeyPattern pattern read write keys).map (·.pattern) = keys.map (·.pattern) := by
  induction keys with
  | nil => rfl
  | cons entry rest ih =>
    unfold joinKeyPattern
    split
    · rfl
    · simp [ih]

variable {pattern name rule : Text}

theorem mem_joinKeyPattern (inside : entry ∈ joinKeyPattern pattern read write keys) :
    entry ∈ keys ∨ ∃ existing, keys.find? (·.pattern = pattern) = some existing ∧
      entry = { existing with
        read := existing.read || read, write := existing.write || write } := by
  induction keys with
  | nil => simp [joinKeyPattern] at inside
  | cons first rest ih =>
    unfold joinKeyPattern at inside
    split at inside
    case isTrue same =>
      rcases mem_cons.mp inside with rfl | later
      · exact .inr ⟨first, by simp [same], rfl⟩
      · exact .inl (mem_cons_of_mem first later)
    case isFalse other =>
      rcases mem_cons.mp inside with rfl | later
      · exact .inl mem_cons_self
      · rcases ih later with old | ⟨existing, found, joined⟩
        · exact .inl (mem_cons_of_mem first old)
        · exact .inr ⟨existing, by simp [other, found], joined⟩

section

variable (describable : Describable sha256 user)

include describable

theorem Describable.withKeys (some : user.allkeys = false) {keys : List KeyPattern}
    (distinct : (keys.map (·.pattern)).Nodup) (plain : ∀ entry ∈ keys, entry.Plain) :
    Describable sha256 { user with keyPatterns := keys } :=
  { describable with
    allkeys := fun all => absurd (some.symm.trans all) (by simp)
    keys := fun _ => ⟨distinct, plain⟩ }

theorem Describable.addKeyPattern {pattern : Text} {read write : Bool} (solid : pattern.Solid)
    (used : read ∨ write) :
    Describable sha256 (user.addKeyPattern pattern read write) := by
  unfold User.addKeyPattern
  split
  case isTrue => exact describable.setAllKeys
  case isFalse partly =>
    split
    case isTrue => exact describable
    case isFalse notAll =>
      have some : user.allkeys = false := by simpa using notAll
      obtain ⟨distinct, plain⟩ := describable.keys some
      split
      case h_1 existing found =>
        have joinedDistinct :
            ((joinKeyPattern pattern read write user.keyPatterns).map (·.pattern)).Nodup := by
          rwa [map_pattern_joinKeyPattern]
        have old : existing.Plain := plain existing (mem_of_find?_eq_some found)
        have same : existing.pattern = pattern := by simpa using find?_some found
        split
        case isTrue => exact describable.setAllKeys
        case isFalse joinedPartly =>
          refine describable.withKeys some joinedDistinct fun entry inside => ?_
          rcases mem_joinKeyPattern inside with before | ⟨other, again, rfl⟩
          · exact plain entry before
          · obtain rfl := Option.some.inj (found.symm.trans again)
            exact {
              solid := old.solid
              used := by
                simp only [Bool.or_eq_true]
                exact old.used.imp .inl .inl
              partly := by simpa [same] using joinedPartly }
      case h_2 missing =>
        refine describable.withKeys some ?_ fun entry inside => ?_
        · rw [map_append]
          refine nodup_append_single distinct fun inside => ?_
          obtain ⟨entry, listed, same⟩ := mem_map.mp inside
          exact absurd (find?_eq_none.mp missing entry listed) (by simp [same])
        · rcases mem_append.mp inside with before | single
          · exact plain entry before
          · obtain rfl := mem_singleton.mp single
            exact { solid := solid, used := used, partly := partly }

theorem Describable.setAllChannels : Describable sha256 user.setAllChannels := { describable with
    allchannels := fun _ => rfl
    channels := fun some => absurd some (by simp [User.setAllChannels]) }

theorem Describable.resetChannels : Describable sha256 user.resetChannels := { describable with
    allchannels := fun all => absurd all (by simp [User.resetChannels])
    channels := fun _ => by simp [User.resetChannels] }

theorem Describable.addChannelPattern {pattern : Text} (solid : pattern.Solid) :
    Describable sha256 (user.addChannelPattern pattern) := by
  unfold User.addChannelPattern
  split
  case isTrue => exact describable.setAllChannels
  case isFalse partly =>
    split
    case isTrue => exact describable
    case isFalse notAll =>
      split
      case isTrue => exact describable
      case isFalse fresh =>
        have some : user.allchannels = false := by simpa using notAll
        obtain ⟨distinct, plain⟩ := describable.channels some
        exact { describable with
          allchannels := fun all => absurd (some.symm.trans all) (by simp)
          channels := fun _ => ⟨nodup_append_single distinct fresh, fun other inside => by
            rcases mem_append.mp inside with before | single
            · exact plain other before
            · obtain rfl := mem_singleton.mp single
              exact ⟨solid, partly⟩⟩ }

theorem Describable.reset : Describable sha256 user.reset where
  named := describable.named
  bound := describable.bound
  nopass := fun _ => rfl
  passwords := nodup_nil
  allkeys := fun all => absurd all (by simp [User.reset])
  keys := fun _ => by simp [User.reset]
  allchannels := fun all => absurd all (by simp [User.reset])
  channels := fun _ => by simp [User.reset]
  commands := replayed_new

end

/-- The rule keeps the record: it forgets no custom command, does not name their scan, and brings no
white space. -/
def AclOp.keeps (user : User) : AclOp → Bool
  | .category true name => (lookupCategory name).all fun found =>
      decide (found.2 = catAll → user.commands.customAllowed = ∅)
  | .category false name => (lookupCategory name).all fun found =>
      decide ((found.2 = catAll ∨ user.commands.isEmpty = false ∧
        (user.commands.andnotBitsProtectNoauth found.2).isEmpty = true) →
        user.commands.customDenied = ∅)
  | .command true name => (parseCommandName name).all (· ≠ .coscan)
  | .command false name => (parseCommandName name).all fun cmd =>
      decide (cmd ≠ .coscan ∧
        (user.commands.isEmpty = false → (user.commands.clear cmd).isEmpty = true →
          user.commands.customDenied = ∅))
  | .keyPattern pattern _ _ => decide pattern.Solid
  | .channelPattern pattern => decide pattern.Solid
  | _ => true

/-- The rights that an operation gives to a key pattern, if it does, are not empty. -/
def AclOp.Useful : AclOp → Prop
  | .keyPattern _ read write => read = true ∨ write = true
  | _ => True

theorem useful_ite {condition : Prop} [Decidable condition] {yes no : AclOp} (first : yes.Useful)
    (second : no.Useful) : (if condition then yes else no).Useful := by
  split
  · exact first
  · exact second

theorem useful_ofWord (op : Text) : (AclOp.ofWord op).Useful := by
  iterate 11 refine useful_ite trivial ?_
  trivial

theorem useful_ofRule (rule : Text) : (AclOp.ofRule rule).Useful := by
  unfold AclOp.ofRule
  fun_cases AclOp.ofTrimmed rule.trim
  case case17 => exact useful_ofWord _
  all_goals first | trivial | exact .inl rfl | exact .inr rfl

variable {changed : User}

theorem Describable.category (describable : Describable sha256 user)
    (keeps : (AclOp.category grant name).keeps user)
    (applied : (AclOp.category grant name).apply sha256 user = .ok changed) :
    Describable sha256 changed := by
  cases grant with
  | true =>
    have added : (user.commands.addCategory name >>= fun commands =>
        pure { user with commands := commands }) = .ok changed := applied
    obtain ⟨commands, success, same⟩ := except_bind_ok added
    cases same
    refine describable.withCommands ?_
    cases found : lookupCategory name with
    | none => simp [addCategory, found] at success
    | some entry =>
      simp only [AclOp.keeps, found, Option.all_some, decide_eq_true_eq] at keeps
      exact describable.commands.addCategory found keeps success
  | false =>
    have removed : (user.commands.removeCategory name >>= fun commands =>
        pure { user with commands := commands }) = .ok changed := applied
    obtain ⟨commands, success, same⟩ := except_bind_ok removed
    cases same
    refine describable.withCommands ?_
    cases found : lookupCategory name with
    | none => simp [removeCategory, found] at success
    | some entry =>
      simp only [AclOp.keeps, found, Option.all_some, decide_eq_true_eq] at keeps
      exact describable.commands.removeCategory found (fun all => keeps (.inl all))
        (fun some none => keeps (.inr ⟨some, none⟩)) success

theorem Describable.command (describable : Describable sha256 user)
    (keeps : (AclOp.command grant name).keeps user)
    (applied : (AclOp.command grant name).apply sha256 user = .ok changed) :
    Describable sha256 changed := by
  obtain ⟨commands, success, same⟩ := except_bind_ok applied
  cases same
  refine describable.withCommands ?_
  cases parsed : parseCommandName name with
  | none => exact describable.commands.customCommand parsed success
  | some cmd =>
    have nameable := nameable_of_parseCommandName parsed
    simp only [applyCommandOp, parsed] at success
    cases success
    cases grant with
    | true =>
      simp only [AclOp.keeps, parsed, Option.all_some, decide_eq_true_eq] at keeps
      exact describable.commands.addCommand nameable keeps
    | false =>
      simp only [AclOp.keeps, parsed, Option.all_some, decide_eq_true_eq] at keeps
      exact describable.commands.removeCommand nameable keeps.1 keeps.2

theorem Describable.applyOp (describable : Describable sha256 user)
    (keeps : (AclOp.ofRule rule).keeps user)
    (applied : applyOp sha256 user rule = .ok changed) : Describable sha256 changed := by
  have useful := useful_ofRule rule
  unfold Acl.applyOp at applied
  generalize AclOp.ofRule rule = op at keeps applied useful
  cases op with
  | nothing =>
    cases applied
    exact describable
  | enable on =>
    cases applied
    exact { describable with }
  | nopass =>
    cases applied
    exact { describable with nopass := fun _ => rfl, passwords := nodup_nil }
  | resetpass =>
    cases applied
    exact { describable with nopass := fun _ => rfl, passwords := nodup_nil }
  | reset =>
    cases applied
    exact describable.reset
  | addPassword cleartext =>
    cases applied
    exact describable.addPassword _
  | removePassword cleartext =>
    cases applied
    exact describable.removePassword _
  | addHash hex =>
    obtain ⟨password, -, same⟩ := except_bind_ok applied
    cases same
    exact describable.addPassword password
  | removeHash hex =>
    obtain ⟨password, -, same⟩ := except_bind_ok applied
    cases same
    exact describable.removePassword password
  | category grant name =>
    exact describable.category keeps applied
  | command grant name =>
    exact describable.command keeps applied
  | allKeys =>
    cases applied
    exact describable.setAllKeys
  | resetKeys =>
    cases applied
    exact describable.resetKeys
  | keyPattern pattern read write =>
    cases applied
    exact describable.addKeyPattern (of_decide_eq_true keeps) useful
  | allChannels =>
    cases applied
    exact describable.setAllChannels
  | resetChannels =>
    cases applied
    exact describable.resetChannels
  | channelPattern pattern =>
    cases applied
    exact describable.addChannelPattern (of_decide_eq_true keeps)
  | unknown op =>
    cases applied

def keepsAll (sha256 : Digest) (user : User) : List Text → Bool
  | [] => true
  | rule :: rest =>
    if rule.eqIgnoreAsciiCase (text "ns") then
      match rest with
      | [] => true
      | value :: rest =>
        match parseNs value with
        | .ok bound => keepsAll sha256 { user with namespaceId := bound } rest
        | .error _ => true
    else (AclOp.ofRule rule).keeps user &&
      match Acl.applyOp sha256 user rule with
      | .ok changed => keepsAll sha256 changed rest
      | .error _ => true

theorem Describable.applyRules {user changed : User} {rules : List Text}
    (describable : Describable sha256 user) (keeps : keepsAll sha256 user rules)
    (applied : applyRules sha256 user rules = .ok changed) : Describable sha256 changed := by
  match rules with
  | [] =>
    cases applied
    exact describable
  | rule :: rest =>
    rw [applyRules.eq_def] at applied
    unfold keepsAll at keeps
    dsimp only at applied
    split at applied
    case isTrue binds =>
      rw [if_pos binds] at keeps
      cases rest with
      | nil => cases applied
      | cons value later =>
        obtain ⟨bound, parsed, success⟩ := except_bind_ok applied
        simp only [parsed] at keeps
        have bounded : Describable sha256 { user with namespaceId := bound } :=
          { describable with bound := tenant_of_parseNs parsed }
        exact bounded.applyRules keeps success
    case isFalse other =>
      obtain ⟨next, step, success⟩ := except_bind_ok applied
      simp only [if_neg other, step, Bool.and_eq_true] at keeps
      exact (describable.applyOp keeps.1 step).applyRules keeps.2 success

inductive Recorded (sha256 : Digest) : User → Prop
  | created {name : Text} {bound : Option UInt64} (valid : validateUsername name = .ok ())
    (solid : name.Solid)
    (tenant : ∀ number, bound = some number → 1 ≤ number ∧ number ≤ maxTenantNamespace) :
    Recorded sha256 { User.new name with namespaceId := bound }
  | default (password : Option AclPassword) : Recorded sha256 (User.defaultUser password)
  | setUser {user changed : User} {rules : List Text} : Recorded sha256 user →
    keepsAll sha256 user rules = true → applyRules sha256 user rules = .ok changed →
    Recorded sha256 changed

theorem describable_defaultUser (password : Option AclPassword) :
    Describable sha256 (defaultUser password) := by
  have base : Describable sha256
      { ({ User.new defaultUserName with enabled := true }.setAllKeys.setAllChannels) with
        commands := .all } := {
    named := by decide
    bound := fun number bound => nomatch bound
    nopass := fun _ => rfl
    passwords := nodup_nil
    allkeys := fun _ => rfl
    keys := fun some => absurd some (by decide)
    allchannels := fun _ => rfl
    channels := fun some => absurd some (by decide)
    commands := replayed_all }
  cases password with
  | none => exact { base with nopass := fun _ => rfl }
  | some password => exact base.addPassword password

theorem Recorded.describable (recorded : Recorded sha256 user) : Describable sha256 user := by
  induction recorded with
  | @created name bound valid solid tenant =>
    have named : name ≠ [] ∧ '#' ∉ name := by
      unfold validateUsername at valid
      split at valid
      case isTrue => cases valid
      case isFalse fine => simpa using fine
    exact {
      named := ⟨named.1, named.2, solid⟩
      bound := tenant
      nopass := fun _ => rfl
      passwords := nodup_nil
      allkeys := fun all => absurd all (by simp [User.new])
      keys := fun _ => by simp [User.new]
      allchannels := fun all => absurd all (by simp [User.new])
      channels := fun _ => by simp [User.new]
      commands := replayed_new }
  | default password => exact describable_defaultUser password
  | setUser _ keeps applied ih => exact ih.applyRules keeps applied

/-- Both users give every check the same answer. -/
structure SameAnswers (parsed user : User) : Prop where
  enabled : parsed.enabled = user.enabled
  passwords : parsed.passwords = user.passwords
  authenticate : ∀ password, parsed.authenticate password = user.authenticate password
  canExecute : ∀ cmd, parsed.canExecute cmd = user.canExecute cmd
  canExecuteCustom : ∀ genericCmd name,
    parsed.canExecuteCustom genericCmd name = user.canExecuteCustom genericCmd name

/-- The described user is read back with the same answers, if every rule kept the record. -/
theorem parseRuleLine_describe (recorded : Recorded sha256 user) :
    ∃ parsed, parseRuleLine sha256 user.describe = .ok parsed ∧ SameAnswers parsed user :=
  ⟨user, recorded.describable.parse_describe, rfl, rfl, fun _ => rfl, fun _ => rfl, fun _ _ => rfl⟩

end

def plainRules : List Text :=
  [text "on", text ">secret", text "ns", text "12", text "~key:*", text "+@read",
    text "-@dangerous"]

theorem parseRuleLine_describe_plainRules :
    ∃ user, applyRules zeroDigest (User.new (text "bob")) plainRules = .ok user ∧
      ∃ parsed, parseRuleLine zeroDigest user.describe = .ok parsed ∧ SameAnswers parsed user := by
  have keeps : keepsAll zeroDigest (User.new (text "bob")) plainRules = true := by decide +kernel
  have runs : (applyRules zeroDigest (User.new (text "bob")) plainRules).isOk = true := by
    decide +kernel
  have created : Recorded zeroDigest (User.new (text "bob")) :=
    @Recorded.created zeroDigest (text "bob") none (by decide) (by decide) (by simp)
  cases result : applyRules zeroDigest (User.new (text "bob")) plainRules with
  | error failure =>
    rw [result] at runs
    cases runs
  | ok user => exact ⟨user, rfl, parseRuleLine_describe (created.setUser keeps result)⟩

def answersOf (sha256 : Digest) (rules : List Text) (answer : User → Bool) :
    Except AclError (Bool × Bool) := do
  let user ← applyRules sha256 (User.new (text "bob")) rules
  let parsed ← parseRuleLine sha256 user.describe
  pure (answer user, answer parsed)

/-- The record forgets custom commands when all are granted or taken away, and misreads their scan.
-/
theorem parseRuleLine_forgets :
    answersOf zeroDigest [text "on", text "+foo", text "+@all", text "-@custom"]
        (·.canExecuteCustom .customObjCmd (text "foo")) = .ok (true, false) ∧
      answersOf zeroDigest [text "on", text "-foo", text "-@all", text "+@custom"]
        (·.canExecuteCustom .customObjCmd (text "foo")) = .ok (false, true) ∧
      answersOf zeroDigest [text "on", text "+customobjectscan"] (·.canExecute .coscan) =
        .ok (true, false) := by
  decide +kernel

end Wedb.Acl
