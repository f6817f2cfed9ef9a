import Pysnmp.Foundation.Repetition
import Pysnmp.Proto.Types

/-!
# Turning a passphrase into a key

`hashPassphrase` of `rfc3414/localkey.py` hashes one megabyte of the repeated passphrase. The octets
come from a ring buffer, a few copies of the passphrase that are longer than one block of 64
octets; a mark moves through it by one block a turn and wraps.

`hashPassphrase_feeds`: what the hash is fed is the beginning of the infinite repetition of the
passphrase, and no slice goes beyond the ring buffer.
-/

set_option autoImplicit false
set_option relaxedAutoImplicit false

namespace Pysnmp.Proto.Secmod.LocalKey

open Foundation.Repetition

/-- A hash function of `hashlib`: its objects, as they are made, updated and read. -/
structure HashFunc (η : Type) where
  new : η
  update : η → Octets → η
  digest : η → Octets

/-- How `hashPassphrase` fails. -/
inductive LocalKeyError
  | zeroDivisionError
  deriving DecidableEq, Repr

/-- The ring buffer: the passphrase, often enough to be longer than a block. -/
def ringBuffer (passphrase : Octets) : Octets :=
  (List.replicate (64 / passphrase.length + 1) passphrase).flatten

/-- The slices of the ring buffer that are hashed in one turn, start and stop. -/
def turnSlices (ringBufferLen mark : ℕ) : List (ℕ × ℕ) :=
  if mark + 64 < ringBufferLen then
    [(mark, mark + 64)]
  else
    [(mark, ringBufferLen), (0, mark + 64 - ringBufferLen)]

/-- The mark after a turn. -/
def nextMark (ringBufferLen mark : ℕ) : ℕ :=
  if mark + 64 < ringBufferLen then mark + 64 else mark + 64 - ringBufferLen

/-- The octets hashed in one turn. -/
def turnOctets (ringBuffer : Octets) (mark : ℕ) : Octets :=
  (turnSlices ringBuffer.length mark).flatMap fun bounds ↦ slice ringBuffer bounds.1 bounds.2

/-- The loop, for the turns that are left. -/
def hashTurns {η : Type} (hashFunc : HashFunc η) (ringBuffer : Octets) : ℕ → ℕ → η → η
  | 0, _, hasher => hasher
  | turns + 1, mark, hasher =>
    hashTurns hashFunc ringBuffer turns (nextMark ringBuffer.length mark)
      (hashFunc.update hasher (turnOctets ringBuffer mark))

/-- The password-to-key hash. -/
def hashPassphrase {η : Type} (passphrase : Octets) (hashFunc : HashFunc η) :
    Except LocalKeyError Octets :=
  if passphrase.length = 0 then
    .error .zeroDivisionError
  else
    .ok (hashFunc.digest (hashTurns hashFunc (ringBuffer passphrase) 16384 0 hashFunc.new))

/-- The slices that the loop takes in the turns that are left. -/
def slicesFrom (ringBufferLen : ℕ) : ℕ → ℕ → List (ℕ × ℕ)
  | 0, _ => []
  | turns + 1, mark =>
    turnSlices ringBufferLen mark ++ slicesFrom ringBufferLen turns (nextMark ringBufferLen mark)

/-- The slices that `hashPassphrase` takes of its ring buffer. -/
def hashedSlices (passphrase : Octets) : List (ℕ × ℕ) :=
  slicesFrom (ringBuffer passphrase).length 16384 0

/-- What the loop passes to the hash in the turns that are left, update by update. -/
def updatesFrom (ringBuffer : Octets) : ℕ → ℕ → List Octets
  | 0, _ => []
  | turns + 1, mark =>
    turnOctets ringBuffer mark :: updatesFrom ringBuffer turns (nextMark ringBuffer.length mark)

/-! ### One turn -/

section Turns

variable {ringBufferLen mark : ℕ}

theorem nextMark_eq_mod (hblock : 64 ≤ ringBufferLen) (hmark : mark < ringBufferLen) :
    nextMark ringBufferLen mark = (mark + 64) % ringBufferLen := by
  unfold nextMark
  split_ifs with hinside
  · exact (Nat.mod_eq_of_lt hinside).symm
  · have hle : ringBufferLen ≤ mark + 64 := Nat.le_of_not_lt hinside
    rw [Nat.mod_eq_sub_mod hle, Nat.mod_eq_of_lt (by omega)]

theorem nextMark_lt (hblock : 64 ≤ ringBufferLen) (hmark : mark < ringBufferLen) :
    nextMark ringBufferLen mark < ringBufferLen := by
  rw [nextMark_eq_mod hblock hmark]
  exact Nat.mod_lt _ (Nat.zero_lt_of_lt hmark)

theorem turnSlices_inside (hblock : 64 ≤ ringBufferLen) (hmark : mark < ringBufferLen) :
    ∀ bounds ∈ turnSlices ringBufferLen mark, bounds.1 ≤ bounds.2 ∧ bounds.2 ≤ ringBufferLen := by
  intro bounds hbounds
  unfold turnSlices at hbounds
  split_ifs at hbounds with hinside
  · obtain rfl := List.mem_singleton.mp hbounds
    exact ⟨Nat.le_add_right _ _, hinside.le⟩
  · rcases List.mem_pair.mp hbounds with rfl | rfl
    · exact ⟨hmark.le, le_rfl⟩
    · exact ⟨Nat.zero_le _, by omega⟩

/-- A turn hashes the next block of the repeated ring buffer. -/
theorem turnOctets_eq_segment {ringBuffer : Octets} (hring : ringBuffer ≠ [])
    (hblock : 64 ≤ ringBuffer.length) (hmark : mark < ringBuffer.length) :
    turnOctets ringBuffer mark = segment (repeated ringBuffer hring) mark 64 := by
  unfold turnOctets turnSlices
  have hcount : mark + 64 - mark = 64 := Nat.add_sub_cancel_left mark 64
  split_ifs with hinside
  · have hslice := segment_eq_slice hring (Nat.le_add_right mark 64) hinside.le
    rw [hcount] at hslice
    rw [List.flatMap_singleton]
    exact hslice.symm
  · have hslices := segment_eq_slice_append hring hmark.le (Nat.le_of_not_lt hinside) (by omega)
    rw [hcount] at hslices
    rw [List.flatMap_cons, List.flatMap_singleton]
    exact hslices.symm

end Turns

/-! ### All turns -/

theorem hashTurns_eq {η : Type} (hashFunc : HashFunc η) (ringBuffer : Octets) (turns mark : ℕ)
    (hasher : η) :
    hashTurns hashFunc ringBuffer turns mark hasher =
      (updatesFrom ringBuffer turns mark).foldl hashFunc.update hasher := by
  induction turns generalizing mark hasher with
  | zero => rfl
  | succ turns ih => exact ih _ _

theorem slicesFrom_inside {ringBufferLen : ℕ} (hblock : 64 ≤ ringBufferLen) (turns : ℕ) {mark : ℕ}
    (hmark : mark < ringBufferLen) :
    ∀ bounds ∈ slicesFrom ringBufferLen turns mark,
      bounds.1 ≤ bounds.2 ∧ bounds.2 ≤ ringBufferLen := by
  induction turns generalizing mark with
  | zero => exact fun bounds hbounds ↦ absurd hbounds List.not_mem_nil
  | succ turns ih =>
    intro bounds hbounds
    rcases List.mem_append.mp hbounds with hturn | hrest
    · exact turnSlices_inside hblock hmark bounds hturn
    · exact ih (nextMark_lt hblock hmark) bounds hrest

/-- The turns that are left hash the repeated ring buffer from the mark on. -/
theorem flatten_updatesFrom {ringBuffer : Octets} (hring : ringBuffer ≠ [])
    (hblock : 64 ≤ ringBuffer.length) (turns : ℕ) {mark : ℕ} (hmark : mark < ringBuffer.length) :
    (updatesFrom ringBuffer turns mark).flatten =
      segment (repeated ringBuffer hring) mark (64 * turns) := by
  induction turns generalizing mark with
  | zero => rfl
  | succ turns ih =>
    have hturns : 64 * (turns + 1) = 64 + 64 * turns := by ring
    rw [updatesFrom, List.flatten_cons, turnOctets_eq_segment hring hblock hmark,
      ih (nextMark_lt hblock hmark), nextMark_eq_mod hblock hmark, segment_mod, hturns, segment_add]

/-! ### The ring buffer -/

theorem length_ringBuffer (passphrase : Octets) :
    (ringBuffer passphrase).length = (64 / passphrase.length + 1) * passphrase.length := by
  rw [ringBuffer, List.length_flatten, List.map_replicate, List.sum_replicate, smul_eq_mul]

/-- The ring buffer is longer than a block, however long the passphrase is. -/
theorem lt_length_ringBuffer {passphrase : Octets} (hpassphrase : passphrase ≠ []) :
    64 < (ringBuffer passphrase).length := by
  rw [length_ringBuffer, Nat.mul_comm]
  exact Nat.lt_mul_div_succ 64 (List.length_pos_iff.mpr hpassphrase)

theorem ringBuffer_ne_nil {passphrase : Octets} (hpassphrase : passphrase ≠ []) :
    ringBuffer passphrase ≠ [] :=
  flatten_replicate_ne_nil hpassphrase _

theorem repeated_ringBuffer {passphrase : Octets} (hpassphrase : passphrase ≠ []) :
    repeated (ringBuffer passphrase) (ringBuffer_ne_nil hpassphrase) =
      repeated passphrase hpassphrase :=
  repeated_flatten_replicate hpassphrase _

/-- The hash is fed the first 1048576 octets of the passphrase repeated without end, in order, and
every slice is one of the ring buffer. -/
theorem hashPassphrase_feeds {passphrase : Octets} (hpassphrase : passphrase ≠ []) :
    (∃ updates : List Octets,
      updates.flatten = segment (repeated passphrase hpassphrase) 0 1048576 ∧
        ∀ (η : Type) (hashFunc : HashFunc η), hashPassphrase passphrase hashFunc =
          .ok (hashFunc.digest (updates.foldl hashFunc.update hashFunc.new))) ∧
      ∀ bounds ∈ hashedSlices passphrase,
        bounds.1 ≤ bounds.2 ∧ bounds.2 ≤ (ringBuffer passphrase).length := by
  have hlonger := lt_length_ringBuffer hpassphrase
  have hmark : 0 < (ringBuffer passphrase).length := Nat.zero_lt_of_lt hlonger
  refine ⟨⟨updatesFrom (ringBuffer passphrase) 16384 0, ?_, fun η hashFunc ↦ ?_⟩, ?_⟩
  · rw [flatten_updatesFrom (ringBuffer_ne_nil hpassphrase) hlonger.le 16384 hmark,
      repeated_ringBuffer]
  · rw [hashPassphrase, if_neg (mt List.length_eq_zero_iff.mp hpassphrase), hashTurns_eq]
  · exact slicesFrom_inside hlonger.le 16384 hmark

/-- A passphrase whose length does not divide the length of a block. -/
def maplesyrup : Octets := [109, 97, 112, 108, 101, 115, 121, 114, 117, 112]

theorem hashPassphrase_feeds_maplesyrup :
    (∃ updates : List Octets,
      updates.flatten = segment (repeated maplesyrup (by decide)) 0 1048576 ∧
        ∀ (η : Type) (hashFunc : HashFunc η), hashPassphrase maplesyrup hashFunc =
          .ok (hashFunc.digest (updates.foldl hashFunc.update hashFunc.new))) ∧
      ∀ bounds ∈ hashedSlices maplesyrup,
        bounds.1 ≤ bounds.2 ∧ bounds.2 ≤ (ringBuffer maplesyrup).length :=
  hashPassphrase_feeds (by decide)

end Pysnmp.Proto.Secmod.LocalKey
