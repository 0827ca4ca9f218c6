/-
The keys under which users of all namespaces are kept in one map: a prefix for the namespace and the
name. The prefix is a zero byte or the code of the next number, which tells its own length.
-/

import Wedb.AclRules

namespace Wedb.Acl

open List

def toBeBytes : Nat → Nat → Bytes
  | 0, _ => []
  | count + 1, value => toBeBytes count (value / 256) ++ [UInt8.ofNat (value % 256)]

def fromBeBytes (bytes : Bytes) : Nat := bytes.foldl (fun value byte => value * 256 + byte.toNat) 0

theorem length_toBeBytes (count value : Nat) : (toBeBytes count value).length = count := by
  induction count generalizing value with
  | zero => rfl
  | succ count ih => simp [toBeBytes, ih]

theorem fromBeBytes_toBeBytes (count value : Nat) :
    fromBeBytes (toBeBytes count value) = value % 256 ^ count := by
  induction count generalizing value with
  | zero => simp [toBeBytes, fromBeBytes, Nat.mod_one]
  | succ count ih =>
    have front := ih (value / 256)
    simp only [fromBeBytes] at front
    simp only [toBeBytes, fromBeBytes, foldl_append, foldl_cons, foldl_nil, front,
      UInt8.toNat_ofNat', Nat.mod_mod]
    rw [Nat.pow_succ', Nat.mod_mul]
    omega

/-- `NamespaceDbCodec::encode_varint`. The marks of a first byte do not overlap the number. -/
def encodeVarint (value : UInt64) : Bytes :=
  let number := value.toNat
  if number < 128 then [UInt8.ofNat number]
  else if number < 16512 then
    let offset := number - 128
    [UInt8.ofNat (0x80 + offset / 256), UInt8.ofNat (offset % 256)]
  else if number < 2113664 then
    let offset := number - 16512
    [UInt8.ofNat (0xC0 + offset / 65536), UInt8.ofNat (offset / 256 % 256),
      UInt8.ofNat (offset % 256)]
  else if number < 270549120 then
    let offset := number - 2113664
    [UInt8.ofNat (0xE0 + offset / 16777216), UInt8.ofNat (offset / 65536 % 256),
      UInt8.ofNat (offset / 256 % 256), UInt8.ofNat (offset % 256)]
  else 0xFF :: toBeBytes 8 number

def decodeVarint : Bytes → Option (UInt64 × Nat)
  | [] => none
  | first :: rest =>
    let high := first.toNat
    if high ≤ 0x7F then some (UInt64.ofNat high, 1)
    else if high ≤ 0xBF then
      match rest with
      | low :: _ => some (UInt64.ofNat (128 + (high % 64 * 256 + low.toNat)), 2)
      | _ => none
    else if high ≤ 0xDF then
      match rest with
      | middle :: low :: _ =>
        some (UInt64.ofNat (16512 + (high % 32 * 65536 + middle.toNat * 256 + low.toNat)), 3)
      | _ => none
    else if high ≤ 0xEF then
      match rest with
      | upper :: middle :: low :: _ =>
        some (UInt64.ofNat (2113664 + (high % 16 * 16777216 + upper.toNat * 65536 +
          middle.toNat * 256 + low.toNat)), 4)
      | _ => none
    else if high = 0xFF ∧ 8 ≤ rest.length ∧ 270549120 ≤ fromBeBytes (rest.take 8) then
      some (UInt64.ofNat (fromBeBytes (rest.take 8)), 9)
    else none

theorem toNat_ofNat_of_lt {number : Nat} (small : number < 256) :
    (UInt8.ofNat number).toNat = number := by
  rw [UInt8.toNat_ofNat', Nat.mod_eq_of_lt small]

theorem decodeVarint_encodeVarint (value : UInt64) (rest : Bytes) :
    decodeVarint (encodeVarint value ++ rest) = some (value, (encodeVarint value).length) := by
  have bound : value.toNat < 2 ^ 64 := value.toNat_lt
  have self : UInt64.ofNat value.toNat = value := UInt64.ofNat_toNat
  unfold encodeVarint
  dsimp only
  split
  case isTrue one =>
    have high := @toNat_ofNat_of_lt value.toNat (by omega)
    simp only [singleton_append, decodeVarint, high]
    rw [if_pos (by omega), self]
    rfl
  case isFalse =>
    split
    case isTrue two =>
      have high := @toNat_ofNat_of_lt (0x80 + (value.toNat - 128) / 256) (by omega)
      have low := @toNat_ofNat_of_lt ((value.toNat - 128) % 256) (by omega)
      simp only [cons_append, nil_append, decodeVarint, high, low]
      have number : 128 + ((0x80 + (value.toNat - 128) / 256) % 64 * 256 +
          (value.toNat - 128) % 256) = value.toNat := by omega
      rw [if_neg (by omega), if_pos (by omega), number, self]
      rfl
    case isFalse =>
      split
      case isTrue three =>
        have high := @toNat_ofNat_of_lt (0xC0 + (value.toNat - 16512) / 65536) (by omega)
        have middle := @toNat_ofNat_of_lt ((value.toNat - 16512) / 256 % 256) (by omega)
        have low := @toNat_ofNat_of_lt ((value.toNat - 16512) % 256) (by omega)
        simp only [cons_append, nil_append, decodeVarint, high, middle, low]
        have number : 16512 + ((0xC0 + (value.toNat - 16512) / 65536) % 32 * 65536 +
            (value.toNat - 16512) / 256 % 256 * 256 + (value.toNat - 16512) % 256) =
            value.toNat := by omega
        rw [if_neg (by omega), if_neg (by omega), if_pos (by omega), number, self]
        rfl
      case isFalse =>
        split
        case isTrue four =>
          have high := @toNat_ofNat_of_lt (0xE0 + (value.toNat - 2113664) / 16777216) (by omega)
          have upper := @toNat_ofNat_of_lt ((value.toNat - 2113664) / 65536 % 256) (by omega)
          have middle := @toNat_ofNat_of_lt ((value.toNat - 2113664) / 256 % 256) (by omega)
          have low := @toNat_ofNat_of_lt ((value.toNat - 2113664) % 256) (by omega)
          simp only [cons_append, nil_append, decodeVarint, high, upper, middle, low]
          have number : 2113664 + ((0xE0 + (value.toNat - 2113664) / 16777216) % 16 * 16777216 +
              (value.toNat - 2113664) / 65536 % 256 * 65536 +
              (value.toNat - 2113664) / 256 % 256 * 256 + (value.toNat - 2113664) % 256) =
              value.toNat := by omega
          rw [if_neg (by omega), if_neg (by omega), if_neg (by omega), if_pos (by omega), number,
            self]
          rfl
        case isFalse large =>
          have sized := length_toBeBytes 8 value.toNat
          have read : fromBeBytes ((toBeBytes 8 value.toNat ++ rest).take 8) = value.toNat := by
            rw [take_append_of_le_length (by omega), take_of_length_le (by omega),
              fromBeBytes_toBeBytes, Nat.mod_eq_of_lt (by omega)]
          have mark : (0xFF : UInt8).toNat = 255 := rfl
          simp only [cons_append, decodeVarint, mark, read]
          rw [if_neg (by omega), if_neg (by omega), if_neg (by omega), if_neg (by omega),
            if_pos ⟨trivial, by simp [sized], by omega⟩, self, length_cons, sized]

theorem encodeVarint_cons {value : UInt64} (positive : value ≠ 0) :
    ∃ first rest, encodeVarint value = first :: rest ∧ first ≠ 0 := by
  have above : value.toNat ≠ 0 := fun zero => positive (UInt64.toNat_inj.mp zero)
  have nonzero : ∀ {number}, number < 256 → number ≠ 0 → UInt8.ofNat number ≠ 0 := by
    intro number small other zero
    have back := toNat_ofNat_of_lt small
    rw [zero] at back
    exact other back.symm
  unfold encodeVarint
  dsimp only
  split
  case isTrue => exact ⟨_, _, rfl, nonzero (by omega) above⟩
  case isFalse =>
    split
    case isTrue => exact ⟨_, _, rfl, nonzero (by omega) (by omega)⟩
    case isFalse =>
      split
      case isTrue => exact ⟨_, _, rfl, nonzero (by omega) (by omega)⟩
      case isFalse =>
        split
        case isTrue => exact ⟨_, _, rfl, nonzero (by omega) (by omega)⟩
        case isFalse => exact ⟨_, _, rfl, by decide⟩

/-- `u64::MAX`. -/
def maxU64 : UInt64 := 18446744073709551615

/-- `n.saturating_add(1)`. -/
def nextNamespace (number : UInt64) : UInt64 := if number = maxU64 then maxU64 else number + 1

/-- `user_key`, and the key that `with_user_key` hands on. -/
def userKey (space : Option UInt64) (name : Text) : Bytes :=
  match space with
  | none => 0 :: name.bytes
  | some number => encodeVarint (nextNamespace number) ++ name.bytes

def fromUtf8 (bytes : Bytes) : Option Text :=
  (ByteArray.utf8Decode? bytes.toByteArray).map Array.toList

def decodeUserKey : Bytes → Option (Option UInt64 × Text)
  | [] => none
  | first :: rest =>
    if first = 0 then (fromUtf8 rest).map fun name => (none, name)
    else
      (decodeVarint (first :: rest)).bind fun (raw, length) =>
        (fromUtf8 ((first :: rest).drop length)).bind fun name =>
          if raw = 0 then none else some (some (raw - 1), name)

def decodeNs : Bytes → Option (Option UInt64)
  | [] => none
  | first :: rest =>
    if first = 0 then some none
    else (decodeVarint (first :: rest)).bind fun (raw, _) =>
      if raw = 0 then none else some (some (raw - 1))

def matchesNs (key : Bytes) : Option UInt64 → Bool
  | none => key.head? == some 0
  | some number => decodeNs key == some (some number)

theorem nextNamespace_ne_zero (number : UInt64) : nextNamespace number ≠ 0 := by
  unfold nextNamespace
  split
  case isTrue => decide
  case isFalse other =>
    intro zero
    have wrapped := congrArg UInt64.toNat zero
    have bound : number.toNat < 2 ^ 64 := number.toNat_lt
    have below : number.toNat ≠ 2 ^ 64 - 1 := fun top => other (UInt64.toNat_inj.mp top)
    simp only [UInt64.toNat_add, UInt64.reduceToNat] at wrapped
    omega

theorem nextNamespace_sub_one {number : UInt64} (inDomain : number ≠ maxU64) :
    nextNamespace number - 1 = number := by
  unfold nextNamespace
  rw [if_neg inDomain]
  simp

theorem decodeNs_userKey {space : Option UInt64} (inDomain : space ≠ some maxU64) (name : Text) :
    decodeNs (userKey space name) = some space := by
  cases space with
  | none => rfl
  | some number =>
    have positive := nextNamespace_ne_zero number
    have below : number ≠ maxU64 := fun top => inDomain (congrArg some top)
    obtain ⟨first, rest, code, nonzero⟩ := encodeVarint_cons positive
    have decoded := decodeVarint_encodeVarint (nextNamespace number) name.bytes
    unfold userKey
    dsimp only
    rw [code, cons_append] at decoded ⊢
    simp only [decodeNs, if_neg nonzero, decoded, Option.bind_some, if_neg positive,
      nextNamespace_sub_one below]

theorem head_userKey (space : Option UInt64) (name : Text) :
    ((userKey space name).head? == some 0) = space.isNone := by
  cases space with
  | none => rfl
  | some number =>
    obtain ⟨first, rest, code, nonzero⟩ := encodeVarint_cons (nextNamespace_ne_zero number)
    simp [userKey, code, nonzero]

theorem matchesNs_userKey {space : Option UInt64} (inDomain : space ≠ some maxU64) (name : Text)
    (other : Option UInt64) : matchesNs (userKey space name) other = decide (space = other) := by
  cases other with
  | none =>
    rw [matchesNs, head_userKey]
    cases space <;> rfl
  | some number =>
    rw [matchesNs, decodeNs_userKey inDomain, Bool.eq_iff_iff, beq_iff_eq, decide_eq_true_iff,
      Option.some.injEq]

end Wedb.Acl
