import Mathlib.Data.List.Basic
import Mathlib.Tactic

/-!
# Modes of a block cipher

A block cipher is a permutation of the blocks of one size for each key. `cbcEncrypt` chains it over
the blocks of a string, each mixed with the ciphertext before it, and `cfbEncrypt` mixes each
segment of a string with the encryption of the ciphertext before it; the last segment may be short.
Both are defined by recursion on the number of blocks and undone by decryption with the same key and
initialization vector (`cbcDecrypt_cbcEncrypt`, `cfbDecrypt_cfbEncrypt`).
-/

set_option autoImplicit false
set_option relaxedAutoImplicit false

namespace Pysnmp.Foundation.BlockModes

/-- A block cipher, by key and block. -/
structure BlockCipher (size : ℕ) where
  encryptBlock : List UInt8 → List UInt8 → List UInt8
  decryptBlock : List UInt8 → List UInt8 → List UInt8
  length_encryptBlock : ∀ key block, block.length = size → (encryptBlock key block).length = size
  decryptBlock_encryptBlock : ∀ key block, block.length = size →
    decryptBlock key (encryptBlock key block) = block

/-! ### Mixing strings -/

/-- The octets of two strings mixed one by one, as many as both have. -/
def xorOctets (first second : List UInt8) : List UInt8 :=
  List.zipWith (· ^^^ ·) first second

@[simp] theorem length_xorOctets (first second : List UInt8) :
    (xorOctets first second).length = min first.length second.length :=
  List.length_zipWith

@[simp] theorem xorOctets_nil (second : List UInt8) : xorOctets [] second = [] :=
  List.zipWith_nil_left

/-- Mixing twice with a string that is long enough changes nothing. -/
theorem xorOctets_xorOctets_self {first second : List UInt8}
    (hlength : first.length ≤ second.length) :
    xorOctets (xorOctets first second) second = first := by
  induction first generalizing second with
  | nil => rfl
  | cons octet first ih =>
    cases second with
    | nil => exact absurd hlength (by simp)
    | cons other second =>
      have hrest : xorOctets (xorOctets first second) second = first :=
        ih (Nat.le_of_succ_le_succ hlength)
      change (octet ^^^ other ^^^ other) :: xorOctets (xorOctets first second) second = _
      rw [hrest, UInt8.xor_assoc, UInt8.xor_self, UInt8.xor_zero]

section Modes

variable {size : ℕ} (cipher : BlockCipher size) (key : List UInt8)

/-! ### Cipher block chaining -/

/-- The ciphertext of the first blocks of a string. -/
def cbcEncrypt : ℕ → List UInt8 → List UInt8 → List UInt8
  | 0, _, _ => []
  | blocks + 1, iv, plaintext =>
    let block := cipher.encryptBlock key (xorOctets (plaintext.take size) iv)
    block ++ cbcEncrypt blocks block (plaintext.drop size)

/-- The plaintext of the first blocks of a string. -/
def cbcDecrypt : ℕ → List UInt8 → List UInt8 → List UInt8
  | 0, _, _ => []
  | blocks + 1, iv, ciphertext =>
    xorOctets (cipher.decryptBlock key (ciphertext.take size)) iv ++
      cbcDecrypt blocks (ciphertext.take size) (ciphertext.drop size)

section CipherBlockChaining

variable {cipher key} {blocks : ℕ} {iv plaintext : List UInt8}

theorem length_take_of_blocks (hplaintext : plaintext.length = (blocks + 1) * size) :
    (plaintext.take size).length = size := by
  rw [List.length_take, hplaintext]
  exact min_eq_left (Nat.le_mul_of_pos_left size blocks.succ_pos)

theorem length_drop_of_blocks (hplaintext : plaintext.length = (blocks + 1) * size) :
    (plaintext.drop size).length = blocks * size := by
  rw [List.length_drop, hplaintext, Nat.succ_mul, Nat.add_sub_cancel]

theorem length_mixedBlock (hiv : iv.length = size)
    (hplaintext : plaintext.length = (blocks + 1) * size) :
    (xorOctets (plaintext.take size) iv).length = size := by
  rw [length_xorOctets, length_take_of_blocks hplaintext, hiv, min_self]

theorem length_cbcEncrypt (hiv : iv.length = size) (hplaintext : plaintext.length = blocks * size) :
    (cbcEncrypt cipher key blocks iv plaintext).length = blocks * size := by
  induction blocks generalizing iv plaintext with
  | zero => rw [Nat.zero_mul]; rfl
  | succ blocks ih =>
    have hblock := cipher.length_encryptBlock key _ (length_mixedBlock hiv hplaintext)
    rw [cbcEncrypt, List.length_append, hblock, ih hblock (length_drop_of_blocks hplaintext),
      Nat.succ_mul, Nat.add_comm]

/-- Decryption gives whole blocks back. -/
theorem cbcDecrypt_cbcEncrypt (hiv : iv.length = size)
    (hplaintext : plaintext.length = blocks * size) :
    cbcDecrypt cipher key blocks iv (cbcEncrypt cipher key blocks iv plaintext) = plaintext := by
  induction blocks generalizing iv plaintext with
  | zero =>
    rw [Nat.zero_mul] at hplaintext
    rw [List.length_eq_zero_iff.mp hplaintext]
    rfl
  | succ blocks ih =>
    have hmixed := length_mixedBlock hiv hplaintext
    have hblock := cipher.length_encryptBlock key _ hmixed
    have hlength : (plaintext.take size).length ≤ iv.length := by
      rw [length_take_of_blocks hplaintext, hiv]
    rw [cbcEncrypt, cbcDecrypt, List.take_left' hblock, List.drop_left' hblock,
      cipher.decryptBlock_encryptBlock key _ hmixed, xorOctets_xorOctets_self hlength,
      ih hblock (length_drop_of_blocks hplaintext), List.take_append_drop]

end CipherBlockChaining

/-! ### Cipher feedback -/

/-- The ciphertext of the first segments of a string. -/
def cfbEncrypt : ℕ → List UInt8 → List UInt8 → List UInt8
  | 0, _, _ => []
  | segments + 1, iv, plaintext =>
    let segment := xorOctets (plaintext.take size) (cipher.encryptBlock key iv)
    segment ++ cfbEncrypt segments segment (plaintext.drop size)

/-- The plaintext of the first segments of a string. -/
def cfbDecrypt : ℕ → List UInt8 → List UInt8 → List UInt8
  | 0, _, _ => []
  | segments + 1, iv, ciphertext =>
    xorOctets (ciphertext.take size) (cipher.encryptBlock key iv) ++
      cfbDecrypt segments (ciphertext.take size) (ciphertext.drop size)

section CipherFeedback

variable {cipher key} {segments : ℕ} {iv plaintext : List UInt8}

theorem cfbEncrypt_nil : cfbEncrypt cipher key segments iv [] = [] := by
  induction segments generalizing iv with
  | zero => rfl
  | succ segments ih =>
    rw [cfbEncrypt, List.take_nil, List.drop_nil, xorOctets_nil, List.nil_append]
    exact ih

theorem cfbDecrypt_nil : cfbDecrypt cipher key segments iv [] = [] := by
  induction segments generalizing iv with
  | zero => rfl
  | succ segments ih =>
    rw [cfbDecrypt, List.take_nil, List.drop_nil, xorOctets_nil, List.nil_append]
    exact ih

theorem length_segment (hiv : iv.length = size) :
    (xorOctets (plaintext.take size) (cipher.encryptBlock key iv)).length =
      min size plaintext.length := by
  rw [length_xorOctets, cipher.length_encryptBlock key iv hiv, List.length_take]
  exact min_eq_left (min_le_left _ _)

/-- The mixing of a segment is undone. -/
theorem xorOctets_segment (hiv : iv.length = size) :
    xorOctets (xorOctets (plaintext.take size) (cipher.encryptBlock key iv))
      (cipher.encryptBlock key iv) = plaintext.take size := by
  apply xorOctets_xorOctets_self
  rw [cipher.length_encryptBlock key iv hiv]
  exact List.length_take_le size plaintext

theorem length_drop_le (hplaintext : plaintext.length ≤ (segments + 1) * size) :
    (plaintext.drop size).length ≤ segments * size := by
  rw [List.length_drop]
  rw [Nat.succ_mul] at hplaintext
  exact Nat.sub_le_of_le_add hplaintext

/-- The ciphertext is as long as the plaintext. -/
theorem length_cfbEncrypt (hiv : iv.length = size)
    (hplaintext : plaintext.length ≤ segments * size) :
    (cfbEncrypt cipher key segments iv plaintext).length = plaintext.length := by
  induction segments generalizing iv plaintext with
  | zero =>
    rw [Nat.zero_mul, Nat.le_zero] at hplaintext
    rw [hplaintext]
    rfl
  | succ segments ih =>
    rw [cfbEncrypt, List.length_append, length_segment hiv]
    rcases le_or_gt size plaintext.length with hlong | hshort
    · have hsegment :
          (xorOctets (plaintext.take size) (cipher.encryptBlock key iv)).length = size := by
        rw [length_segment hiv, min_eq_left hlong]
      rw [ih hsegment (length_drop_le hplaintext), List.length_drop, min_eq_left hlong,
        Nat.add_sub_cancel' hlong]
    · rw [List.drop_eq_nil_of_le hshort.le, cfbEncrypt_nil, min_eq_right hshort.le]
      rfl

/-- Decryption gives a string back, whatever its length. -/
theorem cfbDecrypt_cfbEncrypt (hiv : iv.length = size)
    (hplaintext : plaintext.length ≤ segments * size) :
    cfbDecrypt cipher key segments iv (cfbEncrypt cipher key segments iv plaintext) =
      plaintext := by
  induction segments generalizing iv plaintext with
  | zero =>
    rw [Nat.zero_mul, Nat.le_zero] at hplaintext
    rw [List.length_eq_zero_iff.mp hplaintext]
    rfl
  | succ segments ih =>
    rw [cfbEncrypt, cfbDecrypt]
    rcases le_or_gt size plaintext.length with hlong | hshort
    · have hsegment :
          (xorOctets (plaintext.take size) (cipher.encryptBlock key iv)).length = size := by
        rw [length_segment hiv, min_eq_left hlong]
      rw [List.take_left' hsegment, List.drop_left' hsegment, xorOctets_segment hiv,
        ih hsegment (length_drop_le hplaintext), List.take_append_drop]
    · have hsegment :
          (xorOctets (plaintext.take size) (cipher.encryptBlock key iv)).length ≤ size := by
        rw [length_segment hiv]
        exact min_le_left _ _
      rw [List.drop_eq_nil_of_le hshort.le, cfbEncrypt_nil, List.append_nil,
        List.take_of_length_le hsegment, List.drop_eq_nil_of_le hsegment, cfbDecrypt_nil,
        xorOctets_segment hiv, List.append_nil, List.take_of_length_le hshort.le]

end CipherFeedback

end Modes

end Pysnmp.Foundation.BlockModes
