/-
What the rules need to know about the names of commands. The name under which a rule is recorded is
read back as the same command, except for the scan of custom objects.
-/

import Wedb.AclRules
import Wedb.Spelling

namespace Wedb.Resp

open List

theorem toAsciiUppercase_of_not_lowercase {byte : UInt8} (other : isAsciiLowercase byte = false) :
    toAsciiUppercase byte = byte := by
  have outside : ¬(97 ≤ byte ∧ byte ≤ 122) := by simpa [isAsciiLowercase] using other
  simp only [toAsciiUppercase, if_neg outside]

theorem map_toAsciiUppercase_of_none_lowercase {name : Bytes}
    (none : name.any isAsciiLowercase = false) : name.map toAsciiUppercase = name := by
  refine (map_congr_left fun byte inside => ?_).trans (map_id name)
  have other : isAsciiLowercase byte = false := by
    have all := any_eq_false.mp none byte inside
    simpa using all
  exact toAsciiUppercase_of_not_lowercase other

variable {α : Type}

variable {definitions table : List (String × α)}

theorem lookupIgnoringCase_eq (upper : ∀ definition ∈ definitions,
      (bytesOf definition.1).map toAsciiUppercase = bytesOf definition.1) (name : Bytes) :
    lookupIgnoringCase definitions name =
      if name = [] ∨ 24 < name.length then none
      else lookupCore definitions (name.map toAsciiUppercase) := by
  unfold lookupIgnoringCase
  split
  case isTrue => rfl
  case isFalse =>
    split
    case h_1 found search =>
      -- a name that was found as it was sent is in upper case already
      obtain ⟨definition, hit, -⟩ := Option.map_eq_some_iff.mp search
      have same : bytesOf definition.1 = name := by simpa using find?_some hit
      rw [← same, upper definition (mem_of_find?_eq_some hit), same, search]
    case h_2 search =>
      split
      case isTrue => rfl
      case isFalse none =>
        rw [map_toAsciiUppercase_of_none_lowercase (by simpa using none), search]

def containers : List RespCommand :=
  [.cluster, .client, .acl, .command, .config, .script, .latency, .slowlog, .module, .pubsub,
  .memory, .object, .bitop]

variable {parent : RespCommand}

theorem mem_containers (nonempty : parent.subcommands ≠ []) : parent ∈ containers := by
  revert nonempty
  unfold RespCommand.subcommands
  split <;> first | decide | exact fun nonempty => absurd rfl nonempty

inductive SpellsSubcommands :
    List RespCommand → List (RespCommand × List (Text × RespCommand)) → Prop
  | nil : SpellsSubcommands [] []
  | cons (parent : RespCommand) {spelled : List (Text × RespCommand)}
    {parents : List RespCommand} {others : List (RespCommand × List (Text × RespCommand))} :
    Spells parent.subcommands spelled → SpellsSubcommands parents others →
      SpellsSubcommands (parent :: parents) ((parent, spelled) :: others)

variable {parents : List RespCommand}

variable {all : List (RespCommand × List (Text × RespCommand))}

theorem SpellsSubcommands.exists_mem (spells : SpellsSubcommands parents all)
    (inside : parent ∈ parents) :
    ∃ spelled, (parent, spelled) ∈ all ∧ Spells parent.subcommands spelled := by
  induction spells with
  | nil => simp at inside
  | cons first table _ ih =>
    rcases mem_cons.mp inside with rfl | later
    · exact ⟨_, mem_cons_self, table⟩
    · obtain ⟨spelled, found, rest⟩ := ih later
      exact ⟨spelled, mem_cons_of_mem _ found, rest⟩

theorem lookupIgnoringCase_congr (upper : ∀ definition ∈ definitions,
      (bytesOf definition.1).map toAsciiUppercase = bytesOf definition.1) {first second : Bytes}
    (same : first.map toAsciiUppercase = second.map toAsciiUppercase) :
    lookupIgnoringCase definitions first = lookupIgnoringCase definitions second := by
  have length : first.length = second.length := by simpa using congrArg List.length same
  have empty : first = [] ↔ second = [] := by
    rw [← length_eq_zero_iff, ← length_eq_zero_iff, length]
  rw [lookupIgnoringCase_eq upper, lookupIgnoringCase_eq upper, same, length]
  simp only [empty]

theorem SpellsSubcommands.spells_of_mem (spells : SpellsSubcommands parents all)
    {table : RespCommand × List (Text × RespCommand)} (inside : table ∈ all) :
    Spells table.1.subcommands table.2 := by
  induction spells with
  | nil => simp at inside
  | cons first spelled _ ih =>
    rcases mem_cons.mp inside with rfl | later
    · exact spelled
    · exact ih later

def lookupGuarded {α : Type} (spelled : List (Text × α)) (name : Bytes) : Option α :=
  if name = [] ∨ 24 < name.length then none
  else lookupSpelled spelled (name.map toAsciiUppercase)

def isUpper (key : Text) : Bool := key.bytes.map toAsciiUppercase == key.bytes

variable {spelled : List (Text × α)}

theorem upper_of_spelled
    (spells : Spells table spelled) (upper : ∀ entry ∈ spelled, isUpper entry.1) :
    ∀ entry ∈ table, (bytesOf entry.1).map toAsciiUppercase = bytesOf entry.1 := by
  refine @Spells.forall_mem _ _ _
    (fun key _ => (Text.bytes key).map toAsciiUppercase = Text.bytes key) spells
    fun entry inside => ?_
  simpa [isUpper] using upper entry inside

theorem lookupIgnoringCase_spelled (spells : Spells table spelled)
    (upper : ∀ entry ∈ spelled, isUpper entry.1) (name : Bytes) :
    lookupIgnoringCase table name = lookupGuarded spelled name := by
  rw [lookupIgnoringCase_eq (upper_of_spelled spells upper)]
  unfold lookupGuarded lookupCore
  rw [spells.find_eq]

end Wedb.Resp

namespace Wedb.Acl

open Resp List

variable (primary : List (Text × RespCommand × Bool))

def parseSpelled
    (subs : List (RespCommand × List (Text × RespCommand))) (name : Text) : Option RespCommand :=
  match splitOnce '|' name with
  | some (parent, sub) =>
    (lookupGuarded primary parent.bytes).bind fun found =>
      (subs.find? fun table => table.1 = found.1).bind fun table =>
        (lookupGuarded table.2 sub.bytes).bind validCmd
  | none => (lookupGuarded primary name.bytes).bind fun found => validCmd found.1

def isRuleName (name : Text) : Bool :=
  !name.isEmpty && name.head? != some '@' &&
    name.all fun character => Nat.ble 33 character.toNat && Nat.ble character.toNat 126

/-- Every command that rules may use, but the scan of custom objects, is recorded under a name read
back as it. -/
def namesReadBack
    (subs : List (RespCommand × List (Text × RespCommand))) (names : List Text) : Bool :=
  (primary.map (·.2.1) ++ subs.flatMap (·.2.map (·.2))).all fun cmd =>
    (validCmd cmd).isNone || cmd == .coscan ||
      (parseSpelled primary subs (names.getD cmd.code []) == some cmd &&
        isRuleName (names.getD cmd.code []))

theorem exists_spelling : ∃ primary subs names,
    Spells primaryDefinitions primary ∧ SpellsSubcommands containers subs ∧
      SpellsList cmdNames names ∧
      (primary.all fun entry => isUpper entry.1) ∧
      (subs.all fun table => table.2.all fun entry => isUpper entry.1) ∧
      namesReadBack primary subs names := by
  apply Exists.intro
  apply Exists.intro
  apply Exists.intro
  refine ⟨?_, ?_, ?_, ?_, ?_, ?_⟩
  · dsimp only [primaryDefinitions]
    repeat (first | exact Spells.nil | apply Spells.cons)
  · unfold containers
    repeat
      apply SpellsSubcommands.cons
      · dsimp only [RespCommand.subcommands, clusterSubcommands, clientSubcommands,
          aclSubcommands, commandSubcommands, configSubcommands, scriptSubcommands,
          latencySubcommands, slowlogSubcommands, moduleSubcommands, pubsubSubcommands,
          memorySubcommands, objectSubcommands, bitopSubcommands]
        repeat (first | exact Spells.nil | apply Spells.cons)
    exact SpellsSubcommands.nil
  · dsimp only [cmdNames]
    repeat (first | exact SpellsList.nil | apply SpellsList.cons)
  · decide +kernel
  · decide +kernel
  · decide +kernel

theorem primaryDefinitions_upper : ∀ entry ∈ primaryDefinitions,
    (bytesOf entry.1).map toAsciiUppercase = bytesOf entry.1 := by
  obtain ⟨primary, subs, names, spells, -, -, upper, -, -⟩ := exists_spelling
  exact upper_of_spelled spells (all_eq_true.mp upper)

theorem subcommands_upper (parent : RespCommand) : ∀ entry ∈ parent.subcommands,
    (bytesOf entry.1).map toAsciiUppercase = bytesOf entry.1 := by
  obtain ⟨primary, subs, names, -, tables, -, -, upper, -⟩ := exists_spelling
  intro entry inside
  obtain ⟨spelled, found, spells⟩ := tables.exists_mem (mem_containers (ne_nil_of_mem inside))
  exact upper_of_spelled spells (all_eq_true.mp (all_eq_true.mp upper _ found)) entry inside

theorem lookupForAcls_congr {first second : Bytes}
    (same : first.map toAsciiUppercase = second.map toAsciiUppercase) :
    lookupForAcls first = lookupForAcls second := by
  unfold lookupForAcls RespCommand.lookup
  rw [lookupIgnoringCase_congr primaryDefinitions_upper same]

theorem toLower_eq_iff {sign : Char} (fixed : sign.toLower = sign)
    (plain : sign ∉ "abcdefghijklmnopqrstuvwxyz".toList) (character : Char) :
    character.toLower = sign ↔ character = sign := by
  constructor
  · intro lowered
    rcases Text.toLower_eq_or_mem character with same | letter
    · rw [← same, lowered]
    · exfalso
      have small : ∀ letter ∈ "ABCDEFGHIJKLMNOPQRSTUVWXYZ".toList,
          letter.toLower ∈ "abcdefghijklmnopqrstuvwxyz".toList := by decide
      exact plain (lowered ▸ small character letter)
  · rintro rfl
    exact fixed

variable (name : Text)

theorem splitOnce_toAsciiLowercase : splitOnce '|' name.toAsciiLowercase =
      (splitOnce '|' name).map fun parts =>
        (parts.1.toAsciiLowercase, parts.2.toAsciiLowercase) := by
  have bar : ((fun character => decide (character ≠ '|')) ∘ Char.toLower) =
      fun character => decide (character ≠ '|') := by
    funext character
    simp [@toLower_eq_iff '|' (by decide) (by decide)]
  unfold splitOnce Text.toAsciiLowercase
  rw [dropWhile_map, takeWhile_map, bar]
  cases name.dropWhile (fun character => decide (character ≠ '|')) <;> rfl

theorem length_bytes_toAsciiLowercase : name.toAsciiLowercase.bytes.length = name.bytes.length := by
  simpa using congrArg List.length (Text.bytes_toAsciiLowercase name)

theorem toAsciiUppercase_eq_iff {sign : UInt8} (capital : ¬(65 ≤ sign ∧ sign ≤ 90))
    (small : ¬(97 ≤ sign ∧ sign ≤ 122)) (byte : UInt8) :
    toAsciiUppercase byte = sign ↔ byte = sign := by
  unfold toAsciiUppercase
  split
  case isTrue letter =>
    constructor
    · rintro rfl
      exfalso
      simp only [UInt8.le_iff_toNat_le, UInt8.toNat_sub, UInt8.reduceToNat] at *
      omega
    · rintro rfl
      exact absurd letter small
  case isFalse => exact Iff.rfl

theorem map_toAsciiUppercase_comm {change : Bytes → Bytes} {first second : Bytes}
    (comm : ∀ bytes, (change bytes).map toAsciiUppercase = change (bytes.map toAsciiUppercase))
    (same : first.map toAsciiUppercase = second.map toAsciiUppercase) :
    (change first).map toAsciiUppercase = (change second).map toAsciiUppercase := by
  rw [comm, comm, same]

theorem lookupBarred_toAsciiLowercase : lookupBarred name.toAsciiLowercase = lookupBarred name := by
  have comm : ∀ bytes : Bytes,
      (bytes.map fun byte => if byte = 124 then 95 else byte).map toAsciiUppercase =
        (bytes.map toAsciiUppercase).map fun byte => if byte = 124 then 95 else byte := by
    intro bytes
    simp only [map_map]
    refine map_congr_left fun byte _ => ?_
    have bar := @toAsciiUppercase_eq_iff 124 (by decide) (by decide) byte
    by_cases isBar : byte = 124
    · simp [isBar, toAsciiUppercase]
    · simp [isBar, bar]
  have underscored := lookupForAcls_congr
    (map_toAsciiUppercase_comm comm (Text.bytes_toAsciiLowercase name))
  unfold lookupBarred
  rw [splitOnce_toAsciiLowercase, length_bytes_toAsciiLowercase, underscored]
  cases splitOnce '|' name with
  | none => rfl
  | some parts =>
    obtain ⟨parent, sub⟩ := parts
    have sameParent : RespCommand.lookup parent.toAsciiLowercase.bytes =
        RespCommand.lookup parent.bytes :=
      lookupIgnoringCase_congr primaryDefinitions_upper (Text.bytes_toAsciiLowercase parent)
    have sameSub : ∀ found, RespCommand.lookupSubcommand found sub.toAsciiLowercase.bytes =
        RespCommand.lookupSubcommand found sub.bytes := fun found =>
      lookupIgnoringCase_congr (subcommands_upper found) (Text.bytes_toAsciiLowercase sub)
    simp only [Option.map_some, Option.bind_some, sameParent, sameSub]

theorem lookupDotted_toAsciiLowercase : lookupDotted name.toAsciiLowercase = lookupDotted name := by
  have dot := @toAsciiUppercase_eq_iff 46 (by decide) (by decide)
  have comm : ∀ bytes : Bytes, (bytes.filter (· ≠ 46)).map toAsciiUppercase =
      (bytes.map toAsciiUppercase).filter (· ≠ 46) := by
    intro bytes
    rw [filter_map]
    congr 2
    funext byte
    simp [dot]
  have mem : ∀ bytes : Bytes, 46 ∈ bytes ↔ 46 ∈ bytes.map toAsciiUppercase := by
    intro bytes
    simp [dot]
  have undotted := lookupForAcls_congr
    (map_toAsciiUppercase_comm comm (Text.bytes_toAsciiLowercase name))
  have sameDot : 46 ∈ name.toAsciiLowercase.bytes ↔ 46 ∈ name.bytes := by
    rw [mem, Text.bytes_toAsciiLowercase, ← mem]
  unfold lookupDotted
  rw [length_bytes_toAsciiLowercase, undotted]
  simp only [sameDot]

theorem parseCommandName_toAsciiLowercase :
    parseCommandName name.toAsciiLowercase = parseCommandName name := by
  have empty : name.toAsciiLowercase = [] ↔ name = [] := by simp [Text.toAsciiLowercase]
  unfold parseCommandName lookupAlias
  rw [lookupBarred_toAsciiLowercase, lookupDotted_toAsciiLowercase,
    lookupForAcls_congr (Text.bytes_toAsciiLowercase name)]
  simp only [empty, Text.eqIgnoreAsciiCase_toAsciiLowercase]

variable {cmd : RespCommand} {name}

theorem mem_of_lookupIgnoringCase {α : Type} {definitions : List (String × α)} {name : Bytes}
    {value : α} (found : lookupIgnoringCase definitions name = some value) :
    ∃ entry ∈ definitions, entry.2 = value := by
  have inCore : ∀ key, lookupCore definitions key = some value →
      ∃ entry ∈ definitions, entry.2 = value := by
    intro key search
    obtain ⟨entry, hit, same⟩ := Option.map_eq_some_iff.mp search
    exact ⟨entry, mem_of_find?_eq_some hit, same⟩
  unfold lookupIgnoringCase at found
  split at found
  case isTrue => cases found
  case isFalse =>
    split at found
    case h_1 search => exact inCore _ (search.trans found)
    case h_2 =>
      split at found
      case isTrue => exact inCore _ found
      case isFalse => cases found

theorem orElse_cases {α : Type} {first second : Option α} {value : α}
    (found : (first <|> second) = some value) : first = some value ∨ second = some value := by
  cases first with
  | none => exact .inr found
  | some given => exact .inl found

theorem secondaryof_mem : ("SLAVEOF", RespCommand.secondaryof, false) ∈ primaryDefinitions := by
  repeat (first | exact mem_cons_self | apply mem_cons_of_mem)

structure Nameable (cmd : RespCommand) : Prop where
  valid : validCmd cmd = some cmd
  listed : (∃ entry ∈ primaryDefinitions, entry.2.1 = cmd) ∨
    ∃ parent : RespCommand, ∃ entry ∈ parent.subcommands, entry.2 = cmd

theorem eq_of_validCmd {found : RespCommand} (valid : validCmd found = some cmd) : found = cmd := by
  unfold validCmd at valid
  split at valid
  case isTrue => exact Option.some.inj valid
  case isFalse => cases valid

theorem nameable_of_lookupForAcls {name : Bytes} (found : lookupForAcls name = some cmd) :
    Nameable cmd := by
  obtain ⟨entry, search, valid⟩ := Option.bind_eq_some_iff.mp found
  obtain ⟨definition, inside, same⟩ := mem_of_lookupIgnoringCase search
  cases eq_of_validCmd valid
  exact ⟨valid, .inl ⟨definition, inside, by rw [same]⟩⟩

theorem nameable_of_lookupBarred (found : lookupBarred name = some cmd) : Nameable cmd := by
  obtain ⟨⟨parent, sub⟩, -, search⟩ := Option.bind_eq_some_iff.mp found
  rcases orElse_cases search with direct | underscored
  · obtain ⟨entry, -, search⟩ := Option.bind_eq_some_iff.mp direct
    obtain ⟨subcommand, search, valid⟩ := Option.bind_eq_some_iff.mp search
    obtain ⟨definition, inside, same⟩ := mem_of_lookupIgnoringCase search
    cases eq_of_validCmd valid
    exact ⟨valid, .inr ⟨entry.1, definition, inside, same⟩⟩
  · split at underscored
    case isTrue => exact nameable_of_lookupForAcls underscored
    case isFalse => cases underscored

theorem nameable_of_lookupDotted (found : lookupDotted name = some cmd) : Nameable cmd := by
  unfold lookupDotted at found
  split at found
  case isTrue => exact nameable_of_lookupForAcls found
  case isFalse => cases found

theorem nameable_of_lookupAlias (found : lookupAlias name = some cmd) : Nameable cmd := by
  unfold lookupAlias at found
  split at found
  case isTrue =>
    cases found
    exact ⟨rfl, .inl ⟨_, secondaryof_mem, rfl⟩⟩
  case isFalse =>
    split at found
    case isTrue =>
      cases found
      exact ⟨rfl, .inr ⟨.cluster, ("SETCONFIGEPOCH", .clusterSetconfigepoch),
        by simp [RespCommand.subcommands, clusterSubcommands], rfl⟩⟩
    case isFalse => cases found

theorem nameable_of_parseCommandName (parsed : parseCommandName name = some cmd) :
    Nameable cmd := by
  unfold parseCommandName at parsed
  split at parsed
  case isTrue => cases parsed
  case isFalse =>
    rcases orElse_cases parsed with barred | parsed
    · exact nameable_of_lookupBarred barred
    rcases orElse_cases parsed with plain | parsed
    · exact nameable_of_lookupForAcls plain
    rcases orElse_cases parsed with dotted | old
    · exact nameable_of_lookupDotted dotted
    · exact nameable_of_lookupAlias old

theorem parseCommandName_of_parseSpelled {primary : List (Text × RespCommand × Bool)}
    {subs : List (RespCommand × List (Text × RespCommand))}
    (spells : Spells primaryDefinitions primary) (tables : SpellsSubcommands containers subs)
    (upper : ∀ entry ∈ primary, isUpper entry.1)
    (upperSubs : ∀ table ∈ subs, ∀ entry ∈ table.2, isUpper entry.1)
    (parsed : parseSpelled primary subs name = some cmd) (nonempty : name ≠ []) :
    parseCommandName name = some cmd := by
  have lookup : ∀ key, RespCommand.lookup key = lookupGuarded primary key :=
    lookupIgnoringCase_spelled spells upper
  unfold parseSpelled at parsed
  unfold parseCommandName lookupBarred
  rw [if_neg nonempty]
  split at parsed
  case h_1 parent sub parts =>
    obtain ⟨found, parentFound, parsed⟩ := Option.bind_eq_some_iff.mp parsed
    obtain ⟨table, tableFound, parsed⟩ := Option.bind_eq_some_iff.mp parsed
    have inside := mem_of_find?_eq_some tableFound
    have sameParent : table.1 = found.1 := by simpa using find?_some tableFound
    have subFound : RespCommand.lookupSubcommand found.1 sub.bytes =
        lookupGuarded table.2 sub.bytes := by
      rw [← sameParent]
      exact lookupIgnoringCase_spelled (tables.spells_of_mem inside) (upperSubs table inside) _
    have direct : ((RespCommand.lookup parent.bytes).bind fun found =>
        (RespCommand.lookupSubcommand found.1 sub.bytes).bind validCmd) = some cmd := by
      rw [lookup, parentFound, Option.bind_some, subFound, parsed]
    rw [parts, Option.bind_some]
    dsimp only
    rw [direct]
    rfl
  case h_2 whole =>
    have plain : lookupForAcls name.bytes = some cmd := by
      unfold lookupForAcls
      rw [lookup, parsed]
    rw [whole, plain]
    rfl

theorem commandName_eq {names : List Text} (spells : SpellsList cmdNames names)
    (cmd : RespCommand) : commandName cmd = names.getD cmd.code [] := by
  unfold commandName text
  rw [spells.eq_map]
  simp only [getD_eq_getElem?_getD, getElem?_map]
  cases names[cmd.code]? <;> simp

theorem parseCommandName_commandName (nameable : Nameable cmd) (ordinary : cmd ≠ .coscan) :
    parseCommandName (commandName cmd) = some cmd ∧ isRuleName (commandName cmd) := by
  obtain ⟨primary, subs, names, spells, tables, spellsNames, upper, upperSubs, readBack⟩ :=
    exists_spelling
  have listed : cmd ∈ primary.map (·.2.1) ++ subs.flatMap (·.2.map (·.2)) := by
    rcases nameable.listed with ⟨entry, inside, same⟩ | ⟨parent, entry, inside, same⟩
    · rw [spells.eq_map] at inside
      obtain ⟨source, inSpelled, rfl⟩ := mem_map.mp inside
      exact mem_append_left _ (mem_map.mpr ⟨source, inSpelled, same⟩)
    · obtain ⟨spelled, found, table⟩ := tables.exists_mem (mem_containers (ne_nil_of_mem inside))
      rw [table.eq_map] at inside
      obtain ⟨source, inSpelled, rfl⟩ := mem_map.mp inside
      exact mem_append_right _ (mem_flatMap.mpr ⟨_, found, mem_map.mpr ⟨source, inSpelled, same⟩⟩)
  have checked := all_eq_true.mp readBack cmd listed
  simp only [nameable.valid, Option.isNone_some, Bool.false_or, Bool.or_eq_true, beq_iff_eq,
    ordinary, false_or, Bool.and_eq_true, ← commandName_eq spellsNames] at checked
  refine ⟨parseCommandName_of_parseSpelled spells tables (all_eq_true.mp upper)
    (fun table inside => all_eq_true.mp (all_eq_true.mp upperSubs table inside))
    checked.1 ?_, checked.2⟩
  intro empty
  rw [empty] at checked
  exact absurd checked.2 (by decide)

end Wedb.Acl
