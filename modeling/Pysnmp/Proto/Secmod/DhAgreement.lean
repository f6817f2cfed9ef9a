import Pysnmp.Foundation.BigEndian
import Pysnmp.Proto.Types

/-!
# The agreement on a key

`proto/secmod/rfc2786/__init__.py`: the parameters of a Diffie-Hellman agreement, the search for a
key pair whose public value fits, the shared secret and the key, and the value that a key change
sets. The numbers that `secrets.randbelow` draws are any sequence, cut to the bound. What the DER
decoder makes of a substrate is a parameter.

An agent splits the value in two, compares the first half with what it published and raises the
second half to its own private value (`installedKey`). Both sides come to one key, whatever the
parameters are (`installedKey_buildKeyChangeValue`).
-/

set_option autoImplicit false
set_option relaxedAutoImplicit false

namespace Pysnmp.Proto.Secmod.DhAgreement

open Foundation.BigEndian

/-! ### Errors -/

/-- What a `ValueError` of the module says. -/
inductive ValueError
  | malformedParameters (error : String)
  | trailingOctets
  | unusablePrime (prime : ℤ)
  | unusableBase (base : ℤ)
  | unusablePrivateValueLength (length : ℤ)
  | primeTooSmall (prime : ℕ)
  | cannotFit (width : ℕ)
  | noneInSteps (width : ℕ)
  | noneInDraws (width : ℕ)
  | peerOutOfRange
  | notALength (keyLength : ℤ)
  | secretTooShort (length : ℕ) (keyLength : ℤ)
  | emptyPublicValue
  | publicValueTooWide (own peer : ℕ)
  | notTwoPublicValues (length : ℕ)
  | otherColumn
  | noIndex
  | truncatedEngineID
  | malformedUserName
  | notOctets
  deriving DecidableEq, Repr

/-! ### Parameters -/

/-- `_DHParameter`, as the decoder delivers it. -/
structure DHParameter where
  prime : ℤ
  base : ℤ
  privateValueLength : Option ℤ

/-- `DHParameters`. -/
structure DHParameters where
  prime : ℕ
  base : ℕ
  privateValueLength : Option ℕ
  deriving DecidableEq, Repr

/-- The octets of the prime. -/
def DHParameters.primeLength (parameters : DHParameters) : ℕ :=
  octetLength parameters.prime

/-- `der_decoder.decode`, of a `_DHParameter`: the parameter and the octets that remain, or the text
of a `PyAsn1Error`. -/
abbrev DerDecoder := Octets → Except String (DHParameter × Octets)

/-- `decodeDHParameters`. -/
def decodeDHParameters (derDecode : DerDecoder) (substrate : Octets) :
    Except ValueError DHParameters :=
  match derDecode substrate with
  | .error error => .error (.malformedParameters error)
  | .ok (parameter, rest) =>
    if rest ≠ [] then .error .trailingOctets
    else if parameter.prime ≤ 3 then .error (.unusablePrime parameter.prime)
    else if ¬ (1 < parameter.base ∧ parameter.base < parameter.prime) then
      .error (.unusableBase parameter.base)
    else
      match parameter.privateValueLength with
      | none => .ok ⟨parameter.prime.toNat, parameter.base.toNat, none⟩
      | some length =>
        if ¬ (1 < length ∧ length ≤ parameter.prime.toNat.size) then
          .error (.unusablePrivateValueLength length)
        else .ok ⟨parameter.prime.toNat, parameter.base.toNat, some length.toNat⟩

/-! ### Key pairs -/

/-- `DHKeyPair`. -/
structure DHKeyPair where
  privateValue : ℕ
  publicValue : Octets
  deriving DecidableEq, Repr

/-- `_octetLength`. -/
def publicLength (value : ℕ) : ℕ :=
  max 1 (octetLength value)

/-- `_toOctets`, to the shortest width. -/
def toOctets (value : ℕ) : Octets :=
  toBytes (publicLength value) value

/-- The numbers drawn from `secrets`. -/
abbrev Secrets := ℕ → ℕ

/-- `secrets.randbelow`, at one of the draws. -/
def Secrets.randbelow (secrets : Secrets) (draw bound : ℕ) : ℕ :=
  secrets draw % bound

/-- The exponent that `generateKeyPair` picks. -/
def drawPrivateValue (secrets : Secrets) (parameters : DHParameters) (draw : ℕ) : ℕ :=
  match parameters.privateValueLength with
  | none => 2 + secrets.randbelow draw (parameters.prime - 3)
  | some length => 2 ^ (length - 1) + secrets.randbelow draw (2 ^ (length - 1))

/-- `generateKeyPair`. -/
def generateKeyPair (secrets : Secrets) (parameters : DHParameters) (draw : ℕ) :
    Except ValueError DHKeyPair :=
  if parameters.prime ≤ 3 then .error (.primeTooSmall parameters.prime)
  else
    let privateValue := drawPrivateValue secrets parameters draw
    .ok ⟨privateValue, toOctets (parameters.base ^ privateValue % parameters.prime)⟩

/-- `_FITTING_STEPS`. -/
def fittingSteps : ℕ := 2 ^ 20

/-- `_FITTING_DRAWS`. -/
def fittingDraws : ℕ := 8

/-- The top of the interval that the exponent is drawn from. -/
def upperBound (parameters : DHParameters) : ℕ :=
  match parameters.privateValueLength with
  | none => parameters.prime - 2
  | some length => 2 ^ length - 1

/-- How the walk from an exponent ends: with a key pair, without steps, or at the top of the
interval with the steps left. -/
inductive WalkEnd
  | found (keyPair : DHKeyPair)
  | outOfSteps
  | outOfInterval (steps : ℕ)
  deriving DecidableEq, Repr

/-- The `while` loop from an exponent and its public value. -/
def walk (parameters : DHParameters) (width : ℕ) (steps privateValue publicValue : ℕ) : WalkEnd :=
  if publicLength publicValue ≤ width then .found ⟨privateValue, toOctets publicValue⟩
  else
    match steps with
    | 0 => .outOfSteps
    | steps + 1 =>
      if upperBound parameters ≤ privateValue then .outOfInterval (steps + 1)
      else walk parameters width steps (privateValue + 1)
        (publicValue * parameters.base % parameters.prime)

/-- The `for` loop, with the draws and the steps left. -/
def drawFitting (secrets : Secrets) (parameters : DHParameters) (width : ℕ) :
    ℕ → ℕ → Except ValueError DHKeyPair
  | 0, _ => .error (.noneInDraws width)
  | draws + 1, steps => do
    let keyPair ← generateKeyPair secrets parameters (fittingDraws - (draws + 1))
    match walk parameters width steps keyPair.privateValue (fromBytes keyPair.publicValue) with
    | .found keyPair => pure keyPair
    | .outOfSteps => .error (.noneInSteps width)
    | .outOfInterval steps => drawFitting secrets parameters width draws steps

/-- `generateKeyPairFitting`. -/
def generateKeyPairFitting (secrets : Secrets) (parameters : DHParameters) (width : ℕ) :
    Except ValueError DHKeyPair :=
  if width < 1 then .error (.cannotFit width)
  else drawFitting secrets parameters width fittingDraws fittingSteps

/-! ### Secrets and keys -/

/-- `computeSharedSecret`. -/
def computeSharedSecret (parameters : DHParameters) (privateValue : ℕ) (peerPublic : Octets) :
    Except ValueError Octets :=
  let peer := fromBytes peerPublic
  if ¬ (1 < peer ∧ peer < parameters.prime - 1) then .error .peerOutOfRange
  else .ok (toBytes parameters.primeLength (peer ^ privateValue % parameters.prime))

/-- The last octets of a secret. -/
def lastOctets (sharedSecret : Octets) (keyLength : ℕ) : Octets :=
  sharedSecret.drop (sharedSecret.length - keyLength)

/-- `deriveKey`. -/
def deriveKey (sharedSecret : Octets) (keyLength : ℤ) : Except ValueError Octets :=
  if keyLength ≤ 0 then .error (.notALength keyLength)
  else if sharedSecret.length < keyLength then
    .error (.secretTooShort sharedSecret.length keyLength)
  else .ok (lastOctets sharedSecret keyLength.toNat)

/-! ### The value of a key change -/

/-- `buildKeyChangeValue`. -/
def buildKeyChangeValue (peerPublic ownPublic : Octets) : Except ValueError Octets :=
  if peerPublic = [] then .error .emptyPublicValue
  else if peerPublic.length < ownPublic.length then
    .error (.publicValueTooWide ownPublic.length peerPublic.length)
  else .ok (peerPublic ++
    (List.replicate (peerPublic.length - ownPublic.length) 0 ++ ownPublic))

/-- `splitKeyChangeValue`. -/
def splitKeyChangeValue (value : Octets) : Except ValueError (Octets × Octets) :=
  if value = [] ∨ value.length % 2 ≠ 0 then .error (.notTwoPublicValues value.length)
  else .ok (value.take (value.length / 2), value.drop (value.length / 2))

/-- `keyChangeInstance`. -/
def keyChangeInstance (column : Oid) (securityEngineId userName : Octets) : Oid :=
  column ++ [securityEngineId.length] ++ securityEngineId.map UInt8.toNat ++ [userName.length] ++
    userName.map UInt8.toNat

/-- `bytes`, of numbers. -/
def toBytesObject (numbers : List ℕ) : Except ValueError Octets :=
  if ∀ number ∈ numbers, number < 256 then .ok (numbers.map UInt8.ofNat) else .error .notOctets

/-- `parseKeyChangeInstance`. -/
def parseKeyChangeInstance (column keyInstance : Oid) : Except ValueError (Octets × Octets) :=
  if keyInstance.take column.length ≠ column then .error .otherColumn
  else
    match keyInstance.drop column.length with
    | [] => .error .noIndex
    | engineIdLength :: index =>
      let engineId := index.take engineIdLength
      if engineId.length ≠ engineIdLength then .error .truncatedEngineID
      else
        match index.drop engineIdLength with
        | [] => .error .truncatedEngineID
        | userNameLength :: rest =>
          let userName := rest.take userNameLength
          if userName.length ≠ userNameLength ∨ rest.length ≠ userNameLength then
            .error .malformedUserName
          else do
            let engineId ← toBytesObject engineId
            let userName ← toBytesObject userName
            pure (engineId, userName)

/-! ### The agent -/

/-- What an agent that has published a value installs, as a key of a length, when it applies a set:
it splits the value, compares the first half and completes the agreement with the second. -/
def installedKey (parameters : DHParameters) (privateValue : ℕ) (published : Octets)
    (keyLength : ℕ) (value : Octets) : Option Octets :=
  match splitKeyChangeValue value with
  | .error _ => none
  | .ok (own, managerPublic) =>
    if own = published then
      some (lastOctets (toBytes parameters.primeLength
        (fromBytes managerPublic ^ privateValue % parameters.prime)) keyLength)
    else none

/-! ### Key pairs fit -/

variable {secrets : Secrets} {parameters : DHParameters} {width : ℕ} {keyPair : DHKeyPair}

@[simp] theorem length_toOctets (value : ℕ) : (toOctets value).length = publicLength value :=
  length_toBytes _ _

@[simp] theorem fromBytes_toOctets (value : ℕ) : fromBytes (toOctets value) = value :=
  fromBytes_toBytes (lt_pow_of_octetLength_le (le_max_right _ _))

/-- The public value belongs to the private one and is at most as wide as is asked for. -/
structure IsFitting (parameters : DHParameters) (width : ℕ) (keyPair : DHKeyPair) : Prop where
  fromBytes_publicValue :
    fromBytes keyPair.publicValue = parameters.base ^ keyPair.privateValue % parameters.prime
  length_le : keyPair.publicValue.length ≤ width

/-- Each step multiplies by the base and raises the exponent by one. -/
theorem isFitting_of_walk {steps privateValue publicValue : ℕ}
    (hpublic : publicValue = parameters.base ^ privateValue % parameters.prime)
    (hwalk : walk parameters width steps privateValue publicValue = .found keyPair) :
    IsFitting parameters width keyPair := by
  induction steps generalizing privateValue publicValue with
  | zero =>
    rw [walk] at hwalk
    split_ifs at hwalk with hfits
    obtain rfl := WalkEnd.found.inj hwalk
    exact ⟨(fromBytes_toOctets publicValue).trans hpublic, (length_toOctets _).trans_le hfits⟩
  | succ steps ih =>
    rw [walk] at hwalk
    split_ifs at hwalk with hfits hupper
    · obtain rfl := WalkEnd.found.inj hwalk
      exact ⟨(fromBytes_toOctets publicValue).trans hpublic, (length_toOctets _).trans_le hfits⟩
    · refine ih ?_ hwalk
      rw [hpublic, pow_succ, Nat.mod_mul_mod]

theorem isFitting_of_drawFitting {draws steps : ℕ}
    (hdraw : drawFitting secrets parameters width draws steps = .ok keyPair) :
    IsFitting parameters width keyPair := by
  induction draws generalizing steps with
  | zero => cases hdraw
  | succ draws ih =>
    rw [drawFitting, generateKeyPair] at hdraw
    split_ifs at hdraw with hprime
    · cases hdraw
    · have hpublic := fromBytes_toOctets (parameters.base ^
        drawPrivateValue secrets parameters (fittingDraws - (draws + 1)) % parameters.prime)
      change (match walk parameters width steps _ _ with
        | .found keyPair => pure keyPair
        | .outOfSteps => Except.error (ValueError.noneInSteps width)
        | .outOfInterval steps => drawFitting secrets parameters width draws steps) = _ at hdraw
      split at hdraw
      · next found hwalk =>
        obtain rfl := Except.ok.inj hdraw
        exact isFitting_of_walk hpublic hwalk
      · cases hdraw
      · next left _ => exact ih hdraw

theorem isFitting_of_generateKeyPairFitting
    (hgenerate : generateKeyPairFitting secrets parameters width = .ok keyPair) :
    0 < width ∧ IsFitting parameters width keyPair := by
  rw [generateKeyPairFitting] at hgenerate
  split_ifs at hgenerate with hwidth
  exact ⟨not_lt.mp hwidth, isFitting_of_drawFitting hgenerate⟩

/-! ### Both sides come to one key -/

/-- A value for two halves of one width is split where they meet. -/
theorem splitKeyChangeValue_append {first second : Octets} (hne : first ≠ [])
    (hlength : second.length = first.length) :
    splitKeyChangeValue (first ++ second) = .ok (first, second) := by
  have hhalf : (first ++ second).length / 2 = first.length := by
    rw [List.length_append, hlength]
    omega
  have heven : ¬ (first ++ second = [] ∨ (first ++ second).length % 2 ≠ 0) := by
    rintro (hnil | hodd)
    · exact hne (List.append_eq_nil_iff.mp hnil).1
    · rw [List.length_append, hlength] at hodd
      omega
  rw [splitKeyChangeValue, if_neg heven, hhalf, List.take_left, List.drop_left]

/-- A public value that fits makes a value to set. -/
theorem buildKeyChangeValue_eq_ok {published : Octets} (hne : published ≠ [])
    (hlength : keyPair.publicValue.length ≤ published.length) :
    ∃ padded, buildKeyChangeValue published keyPair.publicValue = .ok (published ++ padded) ∧
      padded.length = published.length ∧ fromBytes padded = fromBytes keyPair.publicValue := by
  refine ⟨_, by rw [buildKeyChangeValue, if_neg hne, if_neg hlength.not_gt], ?_,
    fromBytes_replicate_append _ _⟩
  rw [List.length_append, List.length_replicate]
  omega

/-- The agent installs the key that was derived, under whatever private value is behind the value it
published. -/
theorem installedKey_buildKeyChangeValue {published value secret key : Octets} {keyLength : ℤ}
    {privateValue : ℕ} (hne : published ≠ [])
    (hfitting : IsFitting parameters published.length keyPair)
    (hpublished : fromBytes published = parameters.base ^ privateValue % parameters.prime)
    (hvalue : buildKeyChangeValue published keyPair.publicValue = .ok value)
    (hsecret : computeSharedSecret parameters keyPair.privateValue published = .ok secret)
    (hkey : deriveKey secret keyLength = .ok key) :
    installedKey parameters privateValue published keyLength.toNat value = some key := by
  obtain ⟨padded, hbuild, hpadded, hread⟩ := buildKeyChangeValue_eq_ok hne hfitting.length_le
  obtain rfl := Except.ok.inj (hbuild.symm.trans hvalue)
  rw [computeSharedSecret] at hsecret
  split_ifs at hsecret
  rw [deriveKey] at hkey
  split_ifs at hkey
  obtain rfl := Except.ok.inj hsecret
  obtain rfl := Except.ok.inj hkey
  have hagree : fromBytes padded ^ privateValue % parameters.prime =
      fromBytes published ^ keyPair.privateValue % parameters.prime := by
    rw [hread, hfitting.fromBytes_publicValue, hpublished, ← Nat.pow_mod, ← Nat.pow_mod,
      ← pow_mul, ← pow_mul, mul_comm]
  rw [installedKey, splitKeyChangeValue_append hne hpadded]
  simp only [if_pos, hagree]

/-! ### Instances -/

theorem toBytesObject_map (octets : Octets) :
    toBytesObject (octets.map UInt8.toNat) = .ok octets := by
  rw [toBytesObject, if_pos]
  · rw [List.map_map]
    congr 1
    refine (List.map_congr_left fun octet _ ↦ ?_).trans (List.map_id octets)
    exact UInt8.ofNat_toNat
  · intro number hnumber
    obtain ⟨octet, -, rfl⟩ := List.mem_map.mp hnumber
    exact octet.toNat_lt

/-- An instance that was built is taken apart again. -/
theorem parseKeyChangeInstance_keyChangeInstance (column : Oid)
    (securityEngineId userName : Octets) :
    parseKeyChangeInstance column (keyChangeInstance column securityEngineId userName) =
      .ok (securityEngineId, userName) := by
  have hshape : keyChangeInstance column securityEngineId userName =
      column ++ (securityEngineId.length ::
        (securityEngineId.map UInt8.toNat ++ userName.length :: userName.map UInt8.toNat)) := by
    simp [keyChangeInstance]
  have hlength : (securityEngineId.map UInt8.toNat).length = securityEngineId.length :=
    List.length_map _
  have htake : (securityEngineId.map UInt8.toNat ++
      userName.length :: userName.map UInt8.toNat).take securityEngineId.length =
      securityEngineId.map UInt8.toNat := List.take_left' hlength
  have hdrop : (securityEngineId.map UInt8.toNat ++
      userName.length :: userName.map UInt8.toNat).drop securityEngineId.length =
      userName.length :: userName.map UInt8.toNat := List.drop_left' hlength
  have hname : (userName.map UInt8.toNat).take userName.length = userName.map UInt8.toNat :=
    List.take_of_length_le (List.length_map _).le
  rw [parseKeyChangeInstance, hshape, List.take_left, List.drop_left, if_neg (not_not.mpr rfl)]
  simp only [htake, hdrop, hname, List.length_map, ne_eq, not_true_eq_false, or_self, if_false,
    toBytesObject_map]
  rfl

end Pysnmp.Proto.Secmod.DhAgreement
