import Mathlib.Algebra.Ring.Nat
import Vaulthalla.Foundation.ByteString

namespace Vaulthalla
namespace Vault
namespace KeyAttestation

open Foundation

/-!
# Attestations of vault keys

An attestation is a signature of this node for the key check of one key version
of one vault.  The signed message ends in fields of fixed size, so it determines
the vault, the version and the key check: a signature that verifies for them was
made for them.

Key checks are hexadecimal texts of a keyed hash.  The hash and the verification
of a signature are functions of the host.
-/

/-! ## Messages -/

def kDomain : Str := str "vh-key-attest-v1"

def hexDigit (digit : UInt8) : Option Nat :=
  if 48 ≤ digit.toNat ∧ digit.toNat ≤ 57 then some (digit.toNat - 48)
  else if 97 ≤ digit.toNat ∧ digit.toNat ≤ 102 then some (digit.toNat - 87)
  else none

def hexBytes : Str -> Option Str
  | [] => some []
  | [_] => none
  | high :: low :: rest => do
      let first ← hexDigit high
      let second ← hexDigit low
      let others ← hexBytes rest
      return UInt8.ofNat (16 * first + second) :: others

/-- A key check is 32 lowercase hexadecimal digits. -/
def keyCheckBytes (check : Str) : Option Str :=
  if check.length = 32 then hexBytes check else none

/-- The last bytes of a number, the most significant one first. -/
def bigEndian (value : Nat) : Nat -> Str
  | 0 => []
  | count + 1 => UInt8.ofNat (value >>> (8 * count)) :: bigEndian value count

def message (nodeId : Str) (vaultId : UInt64) (version : UInt32) (keyCheckHex : Str) : Option Str :=
  if nodeId = [] then none
  else
    (keyCheckBytes keyCheckHex).map fun check =>
      kDomain ++ nodeId ++ bigEndian vaultId.toNat 8 ++ bigEndian version.toNat 4 ++ check

theorem length_bigEndian (value count : Nat) : (bigEndian value count).length = count := by
  induction count with
  | zero => rfl
  | succ count ih => rw [bigEndian, List.length_cons, ih]

theorem bigEndian_injective {first second count : Nat} (same : bigEndian first count = bigEndian second count) :
    first % 2 ^ (8 * count) = second % 2 ^ (8 * count) := by
  induction count with
  | zero => simp [Nat.mod_one]
  | succ count ih =>
    simp only [bigEndian, List.cons.injEq] at same
    have high : first >>> (8 * count) % 256 = second >>> (8 * count) % 256 := by
      have equal := congrArg UInt8.toNat same.1
      simpa using equal
    have low := ih same.2
    have split value : value % 2 ^ (8 * (count + 1)) =
        value % 2 ^ (8 * count) + 2 ^ (8 * count) * (value >>> (8 * count) % 256) := by
      rw [Nat.shiftRight_eq_div_pow, show 8 * (count + 1) = 8 * count + 8 from rfl, Nat.pow_add, Nat.mod_mul]
    rw [split, split, high, low]

variable {digit : UInt8} {value : Nat} {bytes text first second : Str} {publicKeys : List (Nat × Str)}

theorem hexDigit_eq_some (isDigit : hexDigit digit = some value) :
    (48 ≤ digit.toNat ∧ digit.toNat ≤ 57 ∧ value = digit.toNat - 48) ∨
      97 ≤ digit.toNat ∧ digit.toNat ≤ 102 ∧ value = digit.toNat - 87 := by
  unfold hexDigit at isDigit
  split at isDigit
  case isTrue isDecimal =>
    cases isDigit
    exact .inl ⟨isDecimal.1, isDecimal.2, rfl⟩
  case isFalse =>
    split at isDigit
    case isTrue isLetter =>
      cases isDigit
      exact .inr ⟨isLetter.1, isLetter.2, rfl⟩
    case isFalse => cases isDigit

theorem hexDigit_lt (isDigit : hexDigit digit = some value) : value < 16 := by
  have := hexDigit_eq_some isDigit
  omega

theorem hexDigit_injective {first second : UInt8} (isFirst : hexDigit first = some value)
    (isSecond : hexDigit second = some value) : first = second := by
  apply UInt8.toNat_inj.mp
  have := hexDigit_eq_some isFirst
  have := hexDigit_eq_some isSecond
  omega

theorem hexBytes_cons {high low : UInt8} {rest : Str} (read : hexBytes (high :: low :: rest) = some bytes) :
    Exists fun first => Exists fun second => Exists fun others => hexDigit high = some first ∧
      hexDigit low = some second ∧ hexBytes rest = some others ∧
        bytes = UInt8.ofNat (16 * first + second) :: others := by
  simp only [hexBytes, Option.bind_eq_bind, Option.bind_eq_some_iff] at read
  rcases read with ⟨first, isFirst, second, isSecond, others, isRest, isBytes⟩
  exact ⟨first, second, others, isFirst, isSecond, isRest, (Option.some.inj isBytes).symm⟩

theorem length_hexBytes (read : hexBytes text = some bytes) : text.length = 2 * bytes.length := by
  fun_induction hexBytes text generalizing bytes with
  | case1 =>
    cases read
    rfl
  | case2 => cases read
  | case3 high low rest ih =>
    rcases hexBytes_cons read with ⟨first, second, others, _, _, isRest, rfl⟩
    simp only [List.length_cons, ih isRest]
    omega

theorem hexBytes_injective (isFirst : hexBytes first = some bytes) (isSecond : hexBytes second = some bytes) :
    first = second := by
  induction bytes generalizing first second with
  | nil =>
    rw [List.eq_nil_of_length_eq_zero (length_hexBytes isFirst),
      List.eq_nil_of_length_eq_zero (length_hexBytes isSecond)]
  | cons byte rest ih =>
    match first, second with
    | high :: low :: others, high' :: low' :: others' =>
      rcases hexBytes_cons isFirst with ⟨a, b, tail, isHigh, isLow, isTail, isBytes⟩
      rcases hexBytes_cons isSecond with ⟨a', b', tail', isHigh', isLow', isTail', isBytes'⟩
      simp only [List.cons.injEq] at isBytes isBytes'
      rcases isBytes with ⟨isByte, rfl⟩
      rcases isBytes' with ⟨isByte', rfl⟩
      have sameByte := congrArg UInt8.toNat (isByte.symm.trans isByte')
      simp only [UInt8.toNat_ofNat'] at sameByte
      have := hexDigit_lt isHigh
      have := hexDigit_lt isLow
      have := hexDigit_lt isHigh'
      have := hexDigit_lt isLow'
      have sameHigh : a' = a := by omega
      have sameLow : b' = b := by omega
      subst sameHigh sameLow
      rw [hexDigit_injective isHigh isHigh', hexDigit_injective isLow isLow', ih isTail isTail']
    | [], _ | [_], _ => simp [hexBytes] at isFirst
    | _ :: _ :: _, [] | _ :: _ :: _, [_] => simp [hexBytes] at isSecond

theorem length_keyCheckBytes {check : Str} (read : keyCheckBytes check = some bytes) : bytes.length = 16 := by
  unfold keyCheckBytes at read
  split at read
  case isTrue isLong =>
    have := length_hexBytes read
    omega
  case isFalse => cases read

theorem keyCheckBytes_injective (isFirst : keyCheckBytes first = some bytes)
    (isSecond : keyCheckBytes second = some bytes) : first = second := by
  unfold keyCheckBytes at isFirst isSecond
  split at isFirst
  · split at isSecond
    · exact hexBytes_injective isFirst isSecond
    · cases isSecond
  · cases isFirst

/-- The message of a node determines what it attests. -/
theorem message_injective {nodeId : Str} {vault vault' : UInt64} {version version' : UInt32}
    (isFirst : message nodeId vault version first = some text)
    (isSecond : message nodeId vault' version' second = some text) :
    vault = vault' ∧ version = version' ∧ first = second := by
  unfold message at isFirst isSecond
  split at isFirst
  · cases isFirst
  case isFalse isNamed =>
    rw [if_neg isNamed] at isSecond
    rcases Option.map_eq_some_iff.mp isFirst with ⟨check, isCheck, rfl⟩
    rcases Option.map_eq_some_iff.mp isSecond with ⟨check', isCheck', same⟩
    -- the fields after the node have the same sizes on both sides
    have sameLength : check'.length = check.length := by
      rw [length_keyCheckBytes isCheck, length_keyCheckBytes isCheck']
    rcases List.append_inj' same sameLength with ⟨sameFields, rfl⟩
    rcases List.append_inj' sameFields (by rw [length_bigEndian, length_bigEndian]) with ⟨sameVault, sameVersion⟩
    rcases List.append_inj' sameVault (by rw [length_bigEndian, length_bigEndian]) with ⟨_, sameVault⟩
    have isVault := bigEndian_injective sameVault
    have isVersion := bigEndian_injective sameVersion
    rw [Nat.mod_eq_of_lt vault.toNat_lt, Nat.mod_eq_of_lt vault'.toNat_lt] at isVault
    rw [Nat.mod_eq_of_lt version.toNat_lt, Nat.mod_eq_of_lt version'.toNat_lt] at isVersion
    exact ⟨UInt64.toNat_inj.mp isVault.symm, UInt32.toNat_inj.mp isVersion.symm,
      keyCheckBytes_injective isCheck isCheck'⟩

/-! ## Verification -/

def kSignatureSize : Nat := 64
def kPublicKeySize : Nat := 32
def kMinKeyId : Nat := 1
def kMaxKeyId : Nat := 2147483647

structure Attestation where
  keyId : Nat
  signature : Str
deriving DecidableEq

inductive Verdict
  | valid
  /-- There is no signature. -/
  | missing
  /-- The id names no public key of this node. -/
  | unknownKey | badSignature
deriving DecidableEq

/-- What this host computes with its secrets and its libraries. -/
structure Host (Sealed : Type) where
  nodeId : Str
  /-- The key that a sealed row holds, unless it does not unseal under the vault master. -/
  unsealKey : Sealed -> Option Str
  keyCheck : Str -> Nat -> Nat -> Str
  /-- `crypto_sign_verify_detached`, by public key, message and signature -/
  verify : Str -> Str -> Str -> Bool
  /-- The public key belongs to a signing seed of this node. -/
  ownsKey : Str -> Bool
  /-- Base64 -/
  decode : Str -> Option Str

variable {Sealed : Type} (host : Host Sealed)

def Host.verifySignature (publicKey text signature : Str) : Bool :=
  publicKey.length == kPublicKeySize && signature.length == kSignatureSize && host.verify publicKey text signature

def Host.check (publicKeys : List (Nat × Str)) (attestation : Attestation) (vaultId version : Nat)
    (keyCheckHex : Str) : Verdict :=
  if attestation.signature.isEmpty then .missing
  else
    match publicKeys.lookup attestation.keyId with
    | none => .unknownKey
    | some publicKey =>
      match message host.nodeId (UInt64.ofNat vaultId) (UInt32.ofNat version) keyCheckHex with
      | none => .badSignature
      | some text =>
        if host.verifySignature publicKey text attestation.signature then .valid else .badSignature

/-- Two key checks are equal; a malformed one equals none. -/
def keyCheckEquals (first second : Str) : Bool :=
  first.length == 32 && second.length == 32 && first == second

theorem eq_of_keyCheckEquals (equal : keyCheckEquals first second) : first = second := by
  simp only [keyCheckEquals, Bool.and_eq_true, beq_iff_eq] at equal
  exact equal.2

/-- The signatures that verify under the node's own public keys are those it has made, for the messages of what it
has attested. -/
def Host.Genuine (attested : UInt64 -> UInt32 -> Str -> Prop) : Prop :=
  forall publicKey text signature, host.ownsKey publicKey = true ->
    host.verifySignature publicKey text signature = true ->
    Exists fun vaultId => Exists fun version => Exists fun check =>
      attested vaultId version check ∧ message host.nodeId vaultId version check = some text

theorem mem_of_lookup {keyId : Nat} {publicKey : Str} (found : publicKeys.lookup keyId = some publicKey) :
    (keyId, publicKey) ∈ publicKeys := by
  induction publicKeys with
  | nil => cases found
  | cons entry rest ih =>
    rw [List.lookup_cons] at found
    split at found
    case h_1 same =>
      cases found
      rw [eq_of_beq same]
      exact List.mem_cons_self
    case h_2 => exact List.mem_cons_of_mem entry (ih found)

/-- A valid attestation was made for this vault, version and key check. -/
theorem attested_of_check {host : Host Sealed} {attested : UInt64 -> UInt32 -> Str -> Prop}
    (genuine : host.Genuine attested) (isOwn : forall entry, entry ∈ publicKeys -> host.ownsKey entry.2)
    {attestation : Attestation} {vaultId version : Nat} {check : Str}
    (isValid : host.check publicKeys attestation vaultId version check = .valid) :
    attested (UInt64.ofNat vaultId) (UInt32.ofNat version) check := by
  unfold Host.check at isValid
  split at isValid
  · cases isValid
  split at isValid
  · cases isValid
  case h_2 publicKey isKey =>
    split at isValid
    · cases isValid
    case h_2 text isText =>
      split at isValid
      case isTrue verifies =>
        rcases genuine publicKey text attestation.signature (isOwn _ (mem_of_lookup isKey)) verifies with
          ⟨vault, signedVersion, signedCheck, isAttested, isMessage⟩
        rcases message_injective isText isMessage with ⟨rfl, rfl, rfl⟩
        exact isAttested
      case isFalse => cases isValid

end KeyAttestation
end Vault
end Vaulthalla
