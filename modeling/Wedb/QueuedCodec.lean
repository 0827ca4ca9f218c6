/-
The wire form of a queued command. It carries the name of the command, and decoding looks the name
up among the primary commands, so a command that is not found there under its own name comes back as
none: the subcommands, the commands without an entry, and those listed under another name.

* `fromSlice_asStr`: which commands are found under their own name.
* `decodeBitcode_encodeBitcode_iff`: these are the ones that survive the wire.
-/

import Wedb.RequestFrames
import Wedb.TransactionManager

namespace Wedb.Txn

open Resp Server

/-- What is encoded of a queued command. -/
structure QueuedCommandWire where
  cmd : String
  args : List Bytes
  isWrite : Bool

/-! ### The names on the wire -/

/-- The commands of the table of primary commands. -/
def tableCommands : List RespCommand := primaryDefinitions.map fun definition => definition.2.1

/-- The commands that the table lists under another name than `as_str` gives: "RI.CREATE" and so on,
and "CUSTOMOBJECTSCAN". -/
def renamedCommands : List RespCommand :=
  [.ricreate, .riset, .riget, .ridel, .rirange, .riscan, .riexists, .riconfig, .rimetrics, .coscan]

theorem listed_asStr : ∀ definition ∈ primaryDefinitions, definition.2.1 ∉ renamedCommands →
    definition.1 = definition.2.1.asStr ∨ definition.2.1 = .secondaryof := by
  decide +kernel

theorem fromSlice_asStr_of_mem {cmd : RespCommand} (listed : cmd ∈ tableCommands)
    (own : cmd ∉ renamedCommands) : RespCommand.fromSlice (bytesOf cmd.asStr) = some cmd := by
  obtain ⟨definition, inside, rfl⟩ := List.mem_map.mp listed
  rcases listed_asStr definition inside own with same | secondary
  · rw [← same, RespCommand.fromSlice, lookup_listed definition inside]
    rfl
  · rw [secondary]
    decide +kernel

theorem fromSlice_asStr_renamed : ∀ cmd ∈ renamedCommands,
    RespCommand.fromSlice (bytesOf cmd.asStr) ≠ some cmd := by
  decide +kernel

theorem fromSlice_asStr (cmd : RespCommand) :
    RespCommand.fromSlice (bytesOf cmd.asStr) = some cmd ↔
      cmd ∈ tableCommands ∧ cmd ∉ renamedCommands := by
  refine ⟨fun found => ⟨?_, fun renamed => fromSlice_asStr_renamed cmd renamed found⟩,
    fun listed => fromSlice_asStr_of_mem listed.1 listed.2⟩
  obtain ⟨value, looked, rfl⟩ := Option.map_eq_some_iff.mp found
  obtain ⟨entry, inside, rfl⟩ := Acl.mem_of_lookupIgnoringCase looked
  exact List.mem_map_of_mem inside

/-! ### The codec -/

section

variable {Code : Type}

def encodeBitcode (encode : QueuedCommandWire → Code) (item : QueuedCommand) : Code :=
  encode ⟨item.cmd.asStr, item.args, item.cmd.isWrite⟩

def decodeBitcode (decode : Code → Option QueuedCommandWire) (src : Code) :
    Option (QueuedCommand × Bool) := do
  let wire ← decode src
  return (⟨(RespCommand.fromSlice (bytesOf wire.cmd)).getD .none, wire.args⟩, wire.isWrite)

/-- A command that may be queued comes back exactly if the table of primary commands has it under
its own name. -/
theorem decodeBitcode_encodeBitcode_iff {encode : QueuedCommandWire → Code}
    {decode : Code → Option QueuedCommandWire}
    (faithful : ∀ wire, decode (encode wire) = some wire) (item : QueuedCommand)
    (allowed : isAllowedInTxn item.cmd) :
    decodeBitcode decode (encodeBitcode encode item) = some (item, item.cmd.isWrite) ↔
      item.cmd ∈ tableCommands ∧ item.cmd ∉ renamedCommands := by
  obtain ⟨cmd, args⟩ := item
  have known : cmd ≠ .none := by
    rintro rfl
    cases allowed
  rw [← fromSlice_asStr]
  simp only [decodeBitcode, encodeBitcode, faithful, Option.bind_eq_bind, Option.bind_some]
  cases RespCommand.fromSlice (bytesOf cmd.asStr) with
  | none => simpa using known.symm
  | some found => simp

theorem get_decoded : decodeBitcode some (encodeBitcode id ⟨.get, [[107]]⟩) =
    some (⟨.get, [[107]]⟩, false) :=
  (decodeBitcode_encodeBitcode_iff (fun _ => rfl) ⟨.get, [[107]]⟩ rfl).mpr (by decide +kernel)

/-- BITOP AND is not a primary command, so no command comes back. -/
theorem bitopAnd_not_decoded : isAllowedInTxn .bitopAnd ∧
    decodeBitcode some (encodeBitcode id ⟨.bitopAnd, [[107], [97]]⟩) =
      some (⟨.none, [[107], [97]]⟩, true) := by
  decide +kernel

end

end Wedb.Txn
