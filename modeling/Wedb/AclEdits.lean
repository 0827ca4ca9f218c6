/-
When does a rule that adds or removes a command or a category change exactly what it names? A
command shares one bit with its variants, but nothing leads from a container to its subcommands.
-/

import Wedb.CommandRecord

namespace Wedb.Acl

open Resp RespCommand

variable {cmd : RespCommand}

/-- A command of the server, not one of the two marks for none and for an unknown one. -/
def IsCommand (cmd : RespCommand) : Prop := cmd ≠ .none ∧ cmd ≠ .invalid

instance (cmd : RespCommand) : Decidable (IsCommand cmd) := by
  unfold IsCommand
  infer_instance

theorem IsCommand.code_range (command : IsCommand cmd) : 0 < cmd.code ∧ cmd.code < 1024 := by
  revert command
  cases cmd <;> decide

theorem IsCommand.normalizeForAcls (command : IsCommand cmd) : IsCommand cmd.normalizeForAcls := by
  unfold RespCommand.normalizeForAcls
  split
  case h_10 => exact command
  all_goals decide

theorem code_injective {first second : RespCommand} (firstCommand : IsCommand first)
    (secondCommand : IsCommand second) (same : first.code = second.code) : first = second := by
  unfold RespCommand.code at same
  rw [if_neg firstCommand.2, if_neg secondCommand.2] at same
  rw [← ofNat_ctorIdx first, same, ofNat_ctorIdx]

theorem variant_of_mem_expandForAcls {extra : RespCommand} (inside : extra ∈ cmd.expandForAcls) :
    IsCommand extra ∧ extra.normalizeForAcls ≠ extra := by
  unfold expandForAcls at inside
  split at inside
  case h_3 => cases inside
  all_goals
    revert extra
    decide

theorem normalizeForAcls_idem (cmd : RespCommand) :
    cmd.normalizeForAcls.normalizeForAcls = cmd.normalizeForAcls := by
  cases cmd <;> rfl

theorem isNoAuth_normalizeForAcls (cmd : RespCommand) :
    cmd.normalizeForAcls.isNoAuth = cmd.isNoAuth := by
  unfold normalizeForAcls
  split <;> rfl

theorem getLsbD_bit (index place : Nat) (inRange : place < 1024) :
    (bit index).getLsbD place = decide (place = index) := by
  simp only [bit, BitVec.getLsbD_shiftLeft, inRange, decide_true, Bool.true_and]
  by_cases before : place < index
  · simp [before, Nat.ne_of_lt before]
  · simp only [before, decide_false, Bool.not_false, Bool.true_and, BitVec.getLsbD_one]
    simp only [Nat.reduceLT, decide_true, Bool.true_and, decide_eq_decide]
    omega

theorem getLsbD_catAll {place : Nat} (inRange : place < 1024) : catAll.getLsbD place := by
  rw [catAll, BitVec.getLsbD_allOnes, decide_eq_true inRange]

theorem getLsbD_noAuthMask (command : IsCommand cmd) :
    noAuthMask.getLsbD cmd.code = cmd.isNoAuth := by
  have folded : ∀ (codes : List Nat) mask place, place < 1024 →
      (codes.foldl (fun mask code => mask ||| bit code) mask).getLsbD place =
        (mask.getLsbD place || decide (place ∈ codes)) := by
    intro codes
    induction codes with
    | nil => simp
    | cons code rest ih =>
      intro mask place inRange
      rw [List.foldl_cons, ih _ _ inRange, BitVec.getLsbD_or, getLsbD_bit _ _ inRange]
      simp [Bool.or_assoc]
  unfold noAuthMask
  rw [folded _ _ _ command.code_range.2]
  have code : cmd.code = cmd.ctorIdx := if_neg command.2
  simp only [List.mem_range'_1, BitVec.ofNat_eq_ofNat, BitVec.getLsbD_zero, Bool.false_or, code,
    isNoAuth]
  show decide (365 ≤ cmd.ctorIdx ∧ cmd.ctorIdx < 365 + (367 - 365 + 1)) =
    (decide (365 ≤ cmd.ctorIdx) && decide (cmd.ctorIdx ≤ 367))
  rw [← Bool.decide_and, decide_eq_decide]
  omega

namespace CommandPermissionSet

variable (set : CommandPermissionSet) {other : RespCommand}

theorem allow_eq (command : IsCommand cmd) :
    set.allow cmd = set.bits.getLsbD cmd.normalizeForAcls.code := by
  obtain ⟨positive, bounded⟩ := command.normalizeForAcls.code_range
  exact if_neg (by omega)

theorem getLsbD_setBitIdx {index place : Nat} (on : Bool) (positive : 0 < index)
    (bounded : index < 1024) (inRange : place < 1024) :
    (set.setBitIdx index on).bits.getLsbD place =
      if place = index then on else set.bits.getLsbD place := by
  unfold setBitIdx
  rw [if_pos ⟨positive, bounded⟩]
  cases on
  · simp only [Bool.false_eq_true, if_false, BitVec.getLsbD_and, BitVec.getLsbD_not,
      getLsbD_bit _ _ inRange, inRange, decide_true, Bool.true_and]
    by_cases same : place = index <;> simp [same]
  · simp only [if_true, BitVec.getLsbD_or, getLsbD_bit _ _ inRange]
    by_cases same : place = index <;> simp [same]

theorem allow_applyCommandBits (on : Bool) (command : IsCommand cmd)
    (otherCommand : IsCommand other) :
    (set.applyCommandBits cmd on).allow other =
      if other.normalizeForAcls = cmd.normalizeForAcls then on else set.allow other := by
  have inRange := otherCommand.normalizeForAcls.code_range.2
  obtain ⟨positive, bounded⟩ := command.normalizeForAcls.code_range
  have same : other.normalizeForAcls.code = cmd.normalizeForAcls.code ↔
      other.normalizeForAcls = cmd.normalizeForAcls :=
    ⟨code_injective otherCommand.normalizeForAcls command.normalizeForAcls, congrArg _⟩
  rw [allow_eq _ otherCommand, allow_eq _ otherCommand, ← if_congr same rfl rfl,
    ← getLsbD_setBitIdx set on positive bounded inRange, applyCommandBits]
  -- The codes of the variants are not normalised, so their bits are not the one asked for.
  refine List.foldlRecOn (motive := fun start : CommandPermissionSet =>
    start.bits.getLsbD other.normalizeForAcls.code = _) _ _ rfl fun start kept extra member => ?_
  obtain ⟨extraCommand, variant⟩ := variant_of_mem_expandForAcls member
  have apart : other.normalizeForAcls.code ≠ extra.code := by
    intro same
    apply variant
    rw [← code_injective otherCommand.normalizeForAcls extraCommand same]
    exact normalizeForAcls_idem other
  obtain ⟨positive, bounded⟩ := extraCommand.code_range
  rw [getLsbD_setBitIdx start on positive bounded inRange, if_neg apart, kept]

def permits (cmd : RespCommand) : Bool := cmd.isNoAuth || set.allow cmd

variable {after : CommandPermissionSet}

variable {set} in
theorem permits_congr (same : after.bits = set.bits) (cmd : RespCommand) :
    after.permits cmd = set.permits cmd := by
  unfold permits allow
  rw [same]

theorem allow_normalizeForAcls (cmd : RespCommand) :
    set.allow cmd.normalizeForAcls = set.allow cmd := by
  unfold allow
  rw [normalizeForAcls_idem]

theorem permits_addCommand (command : IsCommand cmd) (otherCommand : IsCommand other) :
    (set.addCommand cmd).permits other =
      if other.normalizeForAcls = cmd.normalizeForAcls then true else set.permits other := by
  have granted : (set.grant cmd.normalizeForAcls).permits other =
      if other.normalizeForAcls = cmd.normalizeForAcls then true else set.permits other := by
    unfold permits grant
    rw [set.allow_applyCommandBits true command.normalizeForAcls otherCommand,
      normalizeForAcls_idem]
    split <;> simp
  unfold addCommand
  dsimp only
  split
  case isTrue allowed =>
    -- the command is allowed already, and so are its variants
    split
    case isTrue same =>
      unfold permits
      rw [← set.allow_normalizeForAcls other, same, (Bool.and_eq_true_iff.mp allowed).1,
        Bool.or_true]
    case isFalse => rfl
  case isFalse =>
    split
    · exact granted
    · exact (permits_congr rfl other).trans granted

theorem permits_removeCommand (command : IsCommand cmd) (otherCommand : IsCommand other) :
    (set.removeCommand cmd).permits other =
      if other.normalizeForAcls = cmd.normalizeForAcls then other.isNoAuth
      else set.permits other := by
  have cleared : cmd.normalizeForAcls.isNoAuth = false →
      (set.clear cmd.normalizeForAcls).permits other =
        if other.normalizeForAcls = cmd.normalizeForAcls then other.isNoAuth
        else set.permits other := by
    intro guarded
    unfold permits clear
    rw [if_neg (by simp [guarded]),
      set.allow_applyCommandBits false command.normalizeForAcls otherCommand, normalizeForAcls_idem]
    split <;> simp
  have sameAuth : other.normalizeForAcls = cmd.normalizeForAcls →
      other.isNoAuth = cmd.isNoAuth := fun same => by
    rw [← isNoAuth_normalizeForAcls other, same, isNoAuth_normalizeForAcls]
  unfold removeCommand
  dsimp only
  split
  case isTrue free =>
    split
    case isTrue same => simp [permits, sameAuth same, free]
    case isFalse => rfl
  case isFalse guarded =>
    have guarded : cmd.normalizeForAcls.isNoAuth = false := by
      rw [isNoAuth_normalizeForAcls]
      simpa using guarded
    split
    case isTrue denied =>
      split
      case isTrue same =>
        have none : set.allow cmd.normalizeForAcls = false := by
          simp only [Bool.not_eq_true', Bool.or_eq_false_iff] at denied
          exact denied.1
        unfold permits
        rw [← set.allow_normalizeForAcls other, same, none, Bool.or_false]
      case isFalse => rfl
    case isFalse =>
      split
      · exact (permits_congr rfl other).trans (cleared guarded)
      · exact (permits_congr rfl other).trans (cleared guarded)

def inCategory (bits : Bitmap) (cmd : RespCommand) : Bool :=
  bits.getLsbD cmd.normalizeForAcls.code

theorem permits_addCategory {category name : Text} {bits : Bitmap}
    (found : lookupCategory category = some (name, bits))
    (added : set.addCategory category = .ok after) (otherCommand : IsCommand other) :
    after.permits other = if inCategory bits other then true else set.permits other := by
  have inRange := otherCommand.normalizeForAcls.code_range.2
  unfold addCategory at added
  simp only [found] at added
  unfold permits inCategory
  rw [allow_eq _ otherCommand, allow_eq _ otherCommand]
  split at added
  case isTrue everything =>
    obtain rfl := Except.ok.inj added
    rw [everything, getLsbD_catAll inRange, if_pos rfl]
    exact Bool.or_eq_true_iff.mpr (.inr (getLsbD_catAll inRange))
  case isFalse =>
    split at added
    case isTrue allowed =>
      cases added
      split
      case isTrue inside =>
        have all : set.bits &&& bits = bits := by simpa [isCategoryAllAllowed] using allowed
        rw [← all, BitVec.getLsbD_and, Bool.and_eq_true_iff] at inside
        rw [inside.1, Bool.or_true]
      case isFalse => rfl
    case isFalse =>
      cases added
      simp only [appendCategoryOp, appendToken, orBits, BitVec.getLsbD_or]
      split
      case isTrue inside => simp [inside]
      case isFalse outside => simp [outside]

theorem permits_removeCategory {category name : Text} {bits : Bitmap}
    (found : lookupCategory category = some (name, bits))
    (removed : set.removeCategory category = .ok after) (otherCommand : IsCommand other) :
    after.permits other = if inCategory bits other then other.isNoAuth else set.permits other := by
  have normal := otherCommand.normalizeForAcls
  have inRange := normal.code_range.2
  have kept : (set.andnotBitsProtectNoauth bits).permits other =
      if inCategory bits other then other.isNoAuth else set.permits other := by
    unfold permits inCategory
    rw [allow_eq _ otherCommand, allow_eq _ otherCommand]
    simp only [andnotBitsProtectNoauth, BitVec.getLsbD_and, BitVec.getLsbD_not, inRange,
      decide_true, Bool.true_and, getLsbD_noAuthMask normal, isNoAuth_normalizeForAcls]
    cases other.isNoAuth <;> split <;> simp_all
  unfold removeCategory at removed
  simp only [found] at removed
  split at removed
  case isTrue everything =>
    cases removed
    unfold permits inCategory
    rw [allow_eq _ otherCommand, everything, getLsbD_catAll inRange, if_pos rfl]
    show (other.isNoAuth || (0#1024).getLsbD other.normalizeForAcls.code) = other.isNoAuth
    rw [BitVec.getLsbD_zero, Bool.or_false]
  case isFalse =>
    split at removed
    case isTrue none =>
      cases removed
      split
      case isTrue inside =>
        have empty : set.bits &&& bits = 0 := by
          simpa only [isCategoryAnyAllowed, ne_eq, Bool.not_eq_true', decide_eq_false_iff_not,
            not_not] using none
        have bit := congrArg (BitVec.getLsbD · other.normalizeForAcls.code) empty
        unfold inCategory at inside
        simp only [BitVec.getLsbD_and, inside, Bool.and_true, BitVec.ofNat_eq_ofNat,
          BitVec.getLsbD_zero] at bit
        unfold permits
        rw [allow_eq _ otherCommand, bit, Bool.or_false]
      case isFalse => rfl
    case isFalse =>
      split at removed
      · cases removed
        exact (permits_congr rfl other).trans kept
      · cases removed
        exact (permits_congr rfl other).trans kept

end CommandPermissionSet

/-- What a rule names with a `+` or a `-`. -/
inductive Named
  | command (cmd : RespCommand)
  | category (bits : Bitmap)

/-- Whether an operation adds or removes commands, and which. -/
def AclOp.named : AclOp → Option (Bool × Named)
  | .command grant name => (parseCommandName name).map fun cmd => (grant, .command cmd)
  | .category grant name => (lookupCategory name).map fun found => (grant, .category found.2)
  | _ => none

def subcommandsOf (cmd : RespCommand) : List RespCommand :=
  (cmd.subcommands.map Prod.snd).filter fun sub =>
    decide (sub.normalizeForAcls ≠ cmd.normalizeForAcls)

namespace Named

def covers : Named → RespCommand → Bool
  | .command cmd, other => other.normalizeForAcls = cmd.normalizeForAcls
  | .category bits, other => CommandPermissionSet.inCategory bits other

def subcommands : Named → List RespCommand
  | .command cmd => subcommandsOf cmd
  | .category _ => []

def Closure (named : Named) (cmd : RespCommand) : Prop :=
  named.covers cmd = true ∨ cmd ∈ named.subcommands

theorem isCommand_of_mem_subcommands {named : Named} {sub : RespCommand}
    (inside : sub ∈ named.subcommands) : IsCommand sub := by
  cases named with
  | category => cases inside
  | command cmd =>
    obtain ⟨listed, -⟩ := List.mem_filter.mp inside
    clear inside
    revert sub
    unfold RespCommand.subcommands
    split <;> decide

theorem not_covers_of_mem_subcommands {named : Named} {sub : RespCommand}
    (inside : sub ∈ named.subcommands) : named.covers sub = false := by
  cases named with
  | category => cases inside
  | command cmd =>
    obtain ⟨-, apart⟩ := List.mem_filter.mp inside
    simpa [covers] using apart

end Named

def User.permits (user : User) (cmd : RespCommand) : Bool :=
  { user with enabled := true }.canExecute cmd

theorem User.permits_eq (user : User) (cmd : RespCommand) :
    user.permits cmd = user.commands.permits cmd := rfl

/-- An exact edit gives or takes the closure of what it names, but for commands that need no
authentication. -/
def ExactEdit (before after : User) (grant : Bool) (named : Named) : Prop :=
  ∀ cmd, IsCommand cmd → (named.Closure cmd → after.permits cmd = (grant || cmd.isNoAuth)) ∧
      (¬named.Closure cmd → after.permits cmd = before.permits cmd)

theorem permits_of_apply {sha256 : Digest} {user after : User} {op : AclOp} {grant : Bool}
    {named : Named} (names : op.named = some (grant, named))
    (applied : op.apply sha256 user = .ok after) (command : IsCommand cmd) :
    after.permits cmd =
      if named.covers cmd then grant || cmd.isNoAuth else user.permits cmd := by
  simp only [User.permits_eq]
  match op with
  | .command sign name =>
    obtain ⟨found, parsed, same⟩ := Option.map_eq_some_iff.mp names
    cases same
    obtain ⟨notNone, notInvalid, -⟩ : found ≠ .none ∧ found ≠ .invalid ∧
        found.normalizeForAcls = found := by
      have valid := (nameable_of_parseCommandName parsed).valid
      unfold validCmd at valid
      split at valid
      · assumption
      · cases valid
    obtain ⟨commands, changed, same⟩ := except_bind_ok applied
    cases same
    simp only [CommandPermissionSet.applyCommandOp, parsed, Except.ok.injEq] at changed
    subst changed
    cases grant
    · simpa [Named.covers] using user.commands.permits_removeCommand ⟨notNone, notInvalid⟩ command
    · simpa [Named.covers] using user.commands.permits_addCommand ⟨notNone, notInvalid⟩ command
  | .category sign category =>
    obtain ⟨⟨name, bits⟩, found, same⟩ := Option.map_eq_some_iff.mp names
    cases same
    cases grant
    · obtain ⟨commands, changed, same⟩ := except_bind_ok applied
      cases same
      exact user.commands.permits_removeCategory found changed command
    · obtain ⟨commands, changed, same⟩ := except_bind_ok applied
      cases same
      exact user.commands.permits_addCategory found changed command

/-- An edit is exact exactly when the subcommands of what it names are already as they should be. -/
theorem exactEdit_iff {sha256 : Digest} {user after : User} {op : AclOp} {grant : Bool}
    {named : Named} (names : op.named = some (grant, named))
    (applied : op.apply sha256 user = .ok after) :
    ExactEdit user after grant named ↔
      ∀ sub ∈ named.subcommands, user.permits sub = (grant || sub.isNoAuth) := by
  constructor
  · intro exact sub inside
    have command := named.isCommand_of_mem_subcommands inside
    have kept := permits_of_apply names applied command
    rw [if_neg (by simp [named.not_covers_of_mem_subcommands inside])] at kept
    rw [← kept]
    exact (exact sub command).1 (.inr inside)
  · intro settled cmd command
    have changed := permits_of_apply names applied command
    constructor
    · rintro (covered | inside)
      · rw [changed, if_pos covered]
      · rw [changed, settled cmd inside, ite_self]
    · intro outside
      rw [changed, if_neg fun covered => outside (.inl covered)]

theorem apply_commandName (cmd : RespCommand) (nameable : Nameable cmd) (ordinary : cmd ≠ .coscan)
    (sha256 : Digest) (user : User) :
    (AclOp.command true (commandName cmd)).named = some (true, .command cmd) ∧
      (AclOp.command true (commandName cmd)).apply sha256 user =
        .ok { user with commands := user.commands.addCommand cmd } := by
  have parsed := (parseCommandName_commandName nameable ordinary).1
  simp only [AclOp.named, AclOp.apply, CommandPermissionSet.applyCommandOp, parsed]
  exact ⟨rfl, rfl⟩

theorem exactEdit_of_get :
    let user := User.new (text "alice")
    let after := { user with commands := user.commands.addCommand .get }
    (AclOp.command true (text "get")).apply zeroDigest user = .ok after ∧
      ExactEdit user after true (.command .get) := by
  obtain ⟨named, applied⟩ := apply_commandName .get ⟨rfl, .inl (by decide)⟩ (by decide)
    zeroDigest (User.new (text "alice"))
  exact ⟨applied, (@exactEdit_iff zeroDigest _ _ _ true (.command .get) named applied).mpr
    (by decide)⟩

/-- After `+config` a new user may not run CONFIG GET. -/
theorem config_leaves_subcommands :
    let user := User.new (text "alice")
    let op := AclOp.command true (text "config")
    op.named = some (true, .command .config) ∧ ∃ after, op.apply zeroDigest user = .ok after ∧
        ¬ExactEdit user after true (.command .config) := by
  obtain ⟨named, applied⟩ := apply_commandName .config ⟨rfl, .inl (by decide +kernel)⟩
    (by decide) zeroDigest (User.new (text "alice"))
  refine ⟨named, _, applied, fun exact => ?_⟩
  have command : IsCommand .configGet := by decide
  have granted := (exact .configGet command).1 (.inr (by decide +kernel))
  rw [permits_of_apply named applied command] at granted
  have empty : (User.new (text "alice")).commands.isEmpty = true := by
    simp [User.new, CommandPermissionSet.isEmpty, CommandPermissionSet.new]
  have denied : (User.new (text "alice")).permits .configGet = false := by
    rw [User.permits_eq, CommandPermissionSet.permits, allow_of_isEmpty empty]
    rfl
  rw [if_neg (by decide), denied] at granted
  cases granted

end Wedb.Acl
