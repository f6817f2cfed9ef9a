import Pysnmp.Foundation.Effect
import Pysnmp.Foundation.WrappingCounter

/-!
# The counters of identifiers

`Integer` of `nextid.py`: values are drawn from the front of a bank, and a block of values is put
behind it at every value that is a multiple of the threshold. The bank lasts until then
(`Stocked.step`), and what is drawn is a counter that wraps at the maximum: `maximum + 1` values in
a row are distinct. But only the first value of a block is compared with the maximum, and the rest
of it may be larger; `allocates_init_iff` says when that never happens.
-/

set_option autoImplicit false
set_option relaxedAutoImplicit false

namespace Pysnmp.NextId

open Foundation Foundation.Effect WrappingCounter

/-- What a draw may raise: the bank is empty, or the threshold is zero. -/
inductive IntegerError
  | indexError
  | zeroDivisionError
  deriving DecidableEq, Repr

/-- A generator of identifiers. -/
structure Integer where
  maximum : ℕ
  increment : ℕ
  threshold : ℕ
  bank : List ℕ
  deriving DecidableEq, Repr

namespace Integer

/-- `__init__`, with the value of `randbelow`. -/
def init (maximum increment start : ℕ) : Integer where
  maximum := maximum
  increment := min maximum increment
  threshold := min maximum increment / 2
  bank := List.range' start (min maximum increment)

/-- `pop(0)`. -/
def popFirst : Effect Integer IntegerError ℕ := do
  let integer ← get
  match integer.bank with
  | [] => raise .indexError
  | value :: bank => do
    modify fun integer ↦ { integer with bank := bank }
    pure value

/-- The block that is put behind a bank: it starts after the last value, or at zero where that would
exceed the maximum. -/
def block (integer : Integer) (last : ℕ) : List ℕ :=
  List.range' (if integer.maximum < last + 1 then 0 else last + 1) integer.threshold

/-- Put a block behind the bank. -/
def refill : Effect Integer IntegerError Unit := do
  let integer ← get
  match integer.bank.getLast? with
  | none => raise .indexError
  | some last => modify fun integer ↦ { integer with bank := integer.bank ++ integer.block last }

/-- `__call__`. -/
def call : Effect Integer IntegerError ℕ := do
  let value ← popFirst
  let integer ← get
  if integer.threshold = 0 then
    raise .zeroDivisionError
  else if value % integer.threshold ≠ 0 then
    pure value
  else do
    refill
    pure value

/-- The generator after a number of draws. -/
def afterDraws (integer : Integer) (n : ℕ) : Integer :=
  (fun integer ↦ (call.run integer).2)^[n] integer

/-- What comes of a draw, the first one being number zero. -/
def draw (integer : Integer) (n : ℕ) : Except IntegerError ℕ :=
  (call.run (integer.afterDraws n)).1

/-- The value at the front of the bank after a number of draws. -/
def counter (integer : Integer) (n : ℕ) : ℕ :=
  (integer.afterDraws n).bank.headD 0

/-- Every draw gives a value up to the maximum, and `maximum + 1` draws in a row give distinct
values. -/
structure Allocates (integer : Integer) : Prop where
  draw_le : ∀ n, ∃ value ≤ integer.maximum, integer.draw n = .ok value
  draw_ne : ∀ m n, m < n → n ≤ m + integer.maximum → integer.draw m ≠ integer.draw n

theorem afterDraws_zero (integer : Integer) : integer.afterDraws 0 = integer :=
  rfl

theorem afterDraws_succ (integer : Integer) (n : ℕ) :
    integer.afterDraws (n + 1) = (call.run (integer.afterDraws n)).2 :=
  Function.iterate_succ_apply' _ n integer

/-! ### A draw from a bank of two values at least -/

variable {integer : Integer} {value second : ℕ} {rest : List ℕ}

/-- What a draw puts behind a bank that was left without its first value. -/
def added (integer : Integer) (value : ℕ) (bank : List ℕ) : List ℕ :=
  if value % integer.threshold ≠ 0 then [] else integer.block (bank.getLast?.getD 0)

theorem call_run (hpos : 0 < integer.threshold) (hbank : integer.bank = value :: second :: rest) :
    call.run integer =
      (.ok value, { integer with
        bank := (second :: rest) ++ integer.added value (second :: rest) }) := by
  have hpop : popFirst.run integer = (.ok value, { integer with bank := second :: rest }) := by
    rw [popFirst, bind_run_of_ok (get_run integer), hbank]
    rfl
  rw [call, bind_run_of_ok hpop, bind_run_of_ok (get_run _), if_neg hpos.ne', added]
  by_cases hmultiple : value % integer.threshold ≠ 0
  · rw [if_pos hmultiple, if_pos hmultiple, List.append_nil, pure_run]
  · obtain ⟨last, hlast⟩ : ∃ last, (second :: rest).getLast? = some last :=
      ⟨_, List.getLast?_cons⟩
    have hrefill : refill.run { integer with bank := second :: rest } =
        (.ok (), { integer with bank := (second :: rest) ++ integer.block last }) := by
      rw [refill, bind_run_of_ok (get_run _)]
      simp only [hlast]
      rfl
    rw [if_neg hmultiple, if_neg hmultiple, bind_run_of_ok hrefill, hlast]
    rfl

/-- A block goes on from the last value of the bank. -/
theorem follows_of_head?_block {last first : ℕ} (hfirst : (integer.block last).head? = some first) :
    Follows integer.maximum last first := by
  unfold block at hfirst
  obtain ⟨hpos, hfirst⟩ : 0 < integer.threshold ∧
      (if integer.maximum < last + 1 then 0 else last + 1) = first := by
    cases hthreshold : integer.threshold with
    | zero =>
      rw [hthreshold] at hfirst
      cases hfirst
    | succ threshold =>
      rw [hthreshold, List.range'_succ] at hfirst
      exact ⟨threshold.succ_pos, Option.some.inj hfirst⟩
  rw [← hfirst]
  split_ifs with hexceeds
  · exact Or.inr ⟨rfl, Nat.le_of_lt_succ hexceeds⟩
  · exact Or.inl rfl

/-! ### The bank lasts until it is refilled -/

/-- How far a value is from the next multiple of the threshold. -/
def untilMultiple (threshold value : ℕ) : ℕ :=
  (threshold - value % threshold) % threshold

theorem untilMultiple_lt {threshold : ℕ} (hpos : 0 < threshold) (value : ℕ) :
    untilMultiple threshold value < threshold :=
  Nat.mod_lt _ hpos

@[simp] theorem untilMultiple_zero (threshold : ℕ) : untilMultiple threshold 0 = 0 := by
  rw [untilMultiple, Nat.zero_mod, Nat.sub_zero, Nat.mod_self]

/-- The value after one that is no multiple is nearer to the next one. -/
theorem untilMultiple_succ {threshold : ℕ} (hpos : 0 < threshold)
    (hvalue : value % threshold ≠ 0) :
    untilMultiple threshold (value + 1) + 1 = untilMultiple threshold value := by
  have hlt := Nat.mod_lt value hpos
  rw [untilMultiple, untilMultiple, ← Nat.mod_add_mod]
  generalize value % threshold = remainder at hvalue hlt
  rcases Nat.lt_or_ge (remainder + 1) threshold with hbelow | hreached
  · rw [Nat.mod_eq_of_lt hbelow, Nat.mod_eq_of_lt (by omega), Nat.mod_eq_of_lt (by omega)]
    omega
  · rw [show remainder + 1 = threshold by omega, Nat.mod_self, Nat.sub_zero, Nat.mod_self,
      show threshold - remainder = 1 by omega, Nat.mod_eq_of_lt (by omega)]

/-- A generator after `n` draws: the bank lasts until the next multiple of the threshold is drawn
and one value more, its values follow one another, and it ends where a block does. Zero is the first
value of all, or the first one of a block. -/
structure Stocked (n : ℕ) (integer : Integer) : Prop where
  threshold_pos : 0 < integer.threshold
  lasts : ∀ value ∈ integer.bank.head?,
    integer.threshold + 1 + untilMultiple integer.threshold value ≤ integer.bank.length
  nonempty : integer.bank ≠ []
  follows : integer.bank.IsChain (Follows integer.maximum)
  ends : ∃ blocks, n + integer.bank.length = integer.increment + blocks * integer.threshold
  starts : ∀ i, integer.bank[i]? = some 0 →
    n + i = 0 ∨ ∃ blocks, n + i = integer.increment + blocks * integer.threshold

/-- The bank of a stocked generator has two values at least, the second of which follows the
first. -/
theorem Stocked.exists_bank_eq {n : ℕ} (hstocked : Stocked n integer) :
    ∃ value second rest, integer.bank = value :: second :: rest ∧
      Follows integer.maximum value second := by
  match hbank : integer.bank with
  | [] => exact absurd hbank hstocked.nonempty
  | [value] =>
    have hlasts := hstocked.lasts value (by rw [hbank]; rfl)
    have hpos := hstocked.threshold_pos
    rw [hbank, List.length_singleton] at hlasts
    omega
  | value :: second :: rest =>
    have hfollows := hstocked.follows
    rw [hbank, List.isChain_cons_cons] at hfollows
    exact ⟨value, second, rest, rfl, hfollows.1⟩

theorem length_added (integer : Integer) (value : ℕ) (bank : List ℕ) :
    (integer.added value bank).length =
      if value % integer.threshold ≠ 0 then 0 else integer.threshold := by
  rw [added]
  split_ifs
  · rfl
  · exact List.length_range'

/-- What is added goes on from the last value of the bank. -/
theorem isChain_append_added (integer : Integer) (value : ℕ) {bank : List ℕ}
    (hfollows : bank.IsChain (Follows integer.maximum)) :
    (bank ++ integer.added value bank).IsChain (Follows integer.maximum) := by
  rw [added]
  split_ifs
  · rw [List.append_nil]
    exact hfollows
  · refine hfollows.append (isChain_range' _ _) fun last hlast first hfirst ↦ ?_
    rw [Option.mem_def.mp hlast, Option.getD_some] at hfirst
    exact follows_of_head?_block hfirst

/-- A zero that is added is the first value added. -/
theorem eq_zero_of_getElem?_added {bank : List ℕ} {i : ℕ}
    (hzero : (integer.added value bank)[i]? = some 0) : i = 0 := by
  rw [added] at hzero
  split_ifs at hzero
  · cases hzero
  · rw [block] at hzero
    obtain ⟨hlt, hvalue⟩ := List.getElem?_eq_some_iff.mp hzero
    rw [List.getElem_range'] at hvalue
    omega

section Step

variable {n : ℕ} (hstocked : Stocked n integer) (hbank : integer.bank = value :: second :: rest)
include hstocked hbank

/-- The bank lasts after a draw: nothing is added while the next multiple comes nearer. -/
theorem Stocked.lasts_after (hsecond : Follows integer.maximum value second) :
    integer.threshold + 1 + untilMultiple integer.threshold second ≤
      ((second :: rest) ++ integer.added value (second :: rest)).length := by
  have hpos := hstocked.threshold_pos
  have hlasts := hstocked.lasts value (by rw [hbank]; rfl)
  rw [hbank, List.length_cons, List.length_cons] at hlasts
  rw [List.length_append, List.length_cons, length_added]
  split_ifs with hmultiple
  · have hnear := untilMultiple_succ hpos hmultiple
    rcases hsecond with rfl | ⟨rfl, -⟩
    · omega
    · rw [untilMultiple_zero]
      omega
  · have hnear := untilMultiple_lt hpos second
    omega

theorem Stocked.ends_after :
    ∃ blocks, n + 1 + ((second :: rest) ++ integer.added value (second :: rest)).length =
      integer.increment + blocks * integer.threshold := by
  obtain ⟨blocks, hends⟩ := hstocked.ends
  rw [hbank, List.length_cons] at hends
  rw [List.length_append, length_added]
  split_ifs
  · exact ⟨blocks, by omega⟩
  · exact ⟨blocks + 1, by rw [Nat.add_mul, Nat.one_mul]; omega⟩

theorem Stocked.starts_after {i : ℕ}
    (hzero : ((second :: rest) ++ integer.added value (second :: rest))[i]? = some 0) :
    ∃ blocks, n + 1 + i = integer.increment + blocks * integer.threshold := by
  rcases Nat.lt_or_ge i (second :: rest).length with hkept | hadded
  · rw [List.getElem?_append_left hkept] at hzero
    have hstarts := hstocked.starts (i + 1) (by rw [hbank]; exact hzero)
    rcases hstarts with hfirst | ⟨blocks, hblocks⟩
    · omega
    · exact ⟨blocks, by omega⟩
  · rw [List.getElem?_append_right hadded] at hzero
    have hfirst := eq_zero_of_getElem?_added hzero
    obtain ⟨blocks, hends⟩ := hstocked.ends
    rw [hbank, List.length_cons] at hends
    exact ⟨blocks, by omega⟩

/-- A draw keeps a generator stocked. -/
theorem Stocked.after_call (hsecond : Follows integer.maximum value second) :
    Stocked (n + 1) { integer with
      bank := (second :: rest) ++ integer.added value (second :: rest) } where
  threshold_pos := hstocked.threshold_pos
  lasts := by
    rintro head ⟨⟩
    exact hstocked.lasts_after hbank hsecond
  nonempty := List.cons_ne_nil _ _
  follows := by
    have hfollows := hstocked.follows
    rw [hbank] at hfollows
    exact isChain_append_added integer value hfollows.tail
  ends := hstocked.ends_after hbank
  starts := fun _ hzero ↦ Or.inr (hstocked.starts_after hbank hzero)

end Step

/-- A generator of two values at least is stocked at the start. -/
theorem stocked_init {maximum increment : ℕ} (hincrement : 2 ≤ increment)
    (hmaximum : increment < maximum) (start : ℕ) : Stocked 0 (init maximum increment start) := by
  have hmin : min maximum increment = increment := min_eq_right hmaximum.le
  have hpos : 0 < increment / 2 := Nat.div_pos hincrement two_pos
  rw [init, hmin]
  refine ⟨hpos, ?_, ?_, isChain_range' start increment, ⟨0, ?_⟩, ?_⟩
  · intro value _
    have hnear := untilMultiple_lt hpos value
    change increment / 2 + 1 + untilMultiple (increment / 2) value ≤ _
    rw [List.length_range']
    omega
  · rw [Ne, List.range'_eq_nil_iff]
    omega
  · rw [List.length_range', Nat.zero_mul, Nat.zero_add, Nat.add_zero]
  · intro i hzero
    obtain ⟨hlt, hvalue⟩ := List.getElem?_eq_some_iff.mp hzero
    rw [List.getElem_range'] at hvalue
    omega

section Draws

variable (hstocked : Stocked 0 integer)
include hstocked

/-- A generator stays stocked, and draws change nothing but its bank. -/
theorem Stocked.afterDraws (n : ℕ) :
    ∃ bank, integer.afterDraws n = { integer with bank := bank } ∧
      Stocked n { integer with bank := bank } := by
  induction n with
  | zero => exact ⟨integer.bank, rfl, hstocked⟩
  | succ n ih =>
    obtain ⟨bank, hafter, hbefore⟩ := ih
    obtain ⟨value, second, rest, hbank, hsecond⟩ := hbefore.exists_bank_eq
    refine ⟨_, ?_, hbefore.after_call hbank hsecond⟩
    rw [afterDraws_succ, hafter, call_run hbefore.threshold_pos hbank]

/-- Every draw gives the value at the front of the bank. -/
theorem Stocked.draw_eq (n : ℕ) : integer.draw n = .ok (integer.counter n) := by
  obtain ⟨bank, hafter, hbefore⟩ := hstocked.afterDraws n
  obtain ⟨value, second, rest, hbank, -⟩ := hbefore.exists_bank_eq
  rw [draw, counter, hafter, call_run hbefore.threshold_pos hbank, hbank]
  rfl

/-- The values that are drawn are a counter that wraps. -/
theorem Stocked.counts : Counts integer.maximum integer.counter := by
  intro n
  obtain ⟨bank, hafter, hbefore⟩ := hstocked.afterDraws n
  obtain ⟨value, second, rest, hbank, hsecond⟩ := hbefore.exists_bank_eq
  rw [counter, counter, afterDraws_succ, hafter, call_run hbefore.threshold_pos hbank, hbank]
  exact hsecond

/-- Draws give distinct values, so all that can go wrong is that one exceeds the maximum. -/
theorem Stocked.allocates_iff : Allocates integer ↔ ∀ n, integer.counter n ≤ integer.maximum := by
  constructor
  · intro hallocates n
    obtain ⟨value, hle, hdraw⟩ := hallocates.draw_le n
    rw [hstocked.draw_eq] at hdraw
    cases hdraw
    exact hle
  · intro hle
    refine ⟨fun n ↦ ⟨integer.counter n, hle n, hstocked.draw_eq n⟩, fun m n hlt hnear heq ↦ ?_⟩
    rw [hstocked.draw_eq, hstocked.draw_eq] at heq
    exact hstocked.counts.ne hlt hnear (Except.ok.inj heq)

/-- A zero is drawn first of all or at the start of a block. -/
theorem Stocked.starts_of_counter_eq_zero {n : ℕ} (hzero : integer.counter n = 0) (hn : n ≠ 0) :
    ∃ blocks, n = integer.increment + blocks * integer.threshold := by
  obtain ⟨bank, hafter, hbefore⟩ := hstocked.afterDraws n
  obtain ⟨value, second, rest, hbank, -⟩ := hbefore.exists_bank_eq
  rw [counter, hafter, hbank] at hzero
  have hstarts := hbefore.starts 0 (by rw [hbank]; exact congrArg some hzero)
  exact hstarts.resolve_left hn

end Draws

/-! ### When no value exceeds the maximum -/

/-- The values of a bank do not exceed the maximum, and it ends below a multiple of the
threshold. -/
structure Aligned (integer : Integer) : Prop where
  le_maximum : ∀ value ∈ integer.bank, value ≤ integer.maximum
  dvd_succ : ∀ last ∈ integer.bank.getLast?, integer.threshold ∣ last + 1

/-- The block after a bank that is aligned is aligned too, if the threshold divides the number of
values. -/
theorem aligned_block {last : ℕ} (hpos : 0 < integer.threshold)
    (hdvd : integer.threshold ∣ integer.maximum + 1) (hlast : integer.threshold ∣ last + 1) :
    Aligned { integer with bank := integer.block last } := by
  obtain ⟨first, hfirst, hmultiple, hle⟩ : ∃ first,
      integer.block last = List.range' first integer.threshold ∧ integer.threshold ∣ first ∧
        first ≤ integer.maximum := by
    unfold block
    split_ifs with hexceeds
    · exact ⟨0, rfl, dvd_zero _, Nat.zero_le _⟩
    · exact ⟨last + 1, rfl, hlast, Nat.le_of_not_lt hexceeds⟩
  have hfits : first + integer.threshold ≤ integer.maximum + 1 := by
    obtain ⟨blocks, hblocks⟩ := hmultiple
    obtain ⟨allBlocks, hall⟩ := hdvd
    have hlt : blocks < allBlocks := by
      apply Nat.lt_of_mul_lt_mul_left (a := integer.threshold)
      omega
    calc first + integer.threshold = integer.threshold * (blocks + 1) := by
          rw [hblocks, Nat.mul_succ]
      _ ≤ integer.threshold * allBlocks := Nat.mul_le_mul_left _ hlt
      _ = integer.maximum + 1 := hall.symm
  refine ⟨fun value hmem ↦ ?_, fun blockLast hblockLast ↦ ?_⟩
  · rw [hfirst, List.mem_range'_1] at hmem
    change value ≤ integer.maximum
    omega
  · rw [hfirst, List.getLast?_range', if_neg hpos.ne'] at hblockLast
    cases hblockLast
    rw [Nat.sub_add_cancel (by omega)]
    exact Nat.dvd_add hmultiple (dvd_refl _)

/-- A draw keeps the bank aligned. -/
theorem Aligned.after_call (haligned : Aligned integer) (hpos : 0 < integer.threshold)
    (hdvd : integer.threshold ∣ integer.maximum + 1)
    (hbank : integer.bank = value :: second :: rest) :
    Aligned { integer with
      bank := (second :: rest) ++ integer.added value (second :: rest) } := by
  have hkept : Aligned { integer with bank := second :: rest } := by
    refine ⟨fun kept hmem ↦ haligned.le_maximum kept ?_, fun last hlast ↦ haligned.dvd_succ last ?_⟩
    · rw [hbank]
      exact List.mem_cons_of_mem value hmem
    · rw [hbank, List.getLast?_cons_cons]
      exact hlast
  rw [added]
  split_ifs
  · rw [List.append_nil]
    exact hkept
  · obtain ⟨last, hlast⟩ : ∃ last, (second :: rest).getLast? = some last :=
      ⟨_, List.getLast?_cons⟩
    have hblock := aligned_block hpos hdvd (hkept.dvd_succ last hlast)
    have hnonempty : integer.block last ≠ [] := by
      rw [block, Ne, List.range'_eq_nil_iff]
      exact hpos.ne'
    rw [hlast, Option.getD_some]
    refine ⟨fun kept hmem ↦ ?_, fun blockLast hblockLast ↦ hblock.dvd_succ blockLast ?_⟩
    · rcases List.mem_append.mp hmem with hbefore | hnew
      · exact hkept.le_maximum kept hbefore
      · exact hblock.le_maximum kept hnew
    · rwa [List.getLast?_append_of_ne_nil _ hnonempty] at hblockLast

/-- The generator stays aligned. -/
theorem Aligned.afterDraws (haligned : Aligned integer) (hstocked : Stocked 0 integer)
    (hdvd : integer.threshold ∣ integer.maximum + 1) (n : ℕ) :
    Aligned (integer.afterDraws n) := by
  induction n with
  | zero => exact haligned
  | succ n ih =>
    obtain ⟨bank, hafter, hbefore⟩ := hstocked.afterDraws n
    obtain ⟨value, second, rest, hbank, -⟩ := hbefore.exists_bank_eq
    rw [hafter] at ih
    rw [afterDraws_succ, hafter, call_run hbefore.threshold_pos hbank]
    exact ih.after_call hbefore.threshold_pos hdvd hbank

section Init

variable {maximum increment start : ℕ}

/-- The threshold of a generator whose maximum is larger than the increment. -/
theorem threshold_init (hmaximum : increment < maximum) (start : ℕ) :
    (init maximum increment start).threshold = increment / 2 := by
  rw [init, min_eq_right hmaximum.le]

/-- A generator allocates if blocks end at the maximum and the first bank ends where one does. -/
theorem allocates_init_of_dvd (hincrement : 2 ≤ increment) (hmaximum : increment < maximum)
    (hstart : start < maximum - increment) (hdvd : increment / 2 ∣ maximum + 1)
    (hend : increment / 2 ∣ start + increment) : Allocates (init maximum increment start) := by
  have hstocked := stocked_init hincrement hmaximum start
  have hthreshold := threshold_init hmaximum start
  have hmin : min maximum increment = increment := min_eq_right hmaximum.le
  have haligned : Aligned (init maximum increment start) := by
    refine ⟨fun value hmem ↦ ?_, fun last hlast ↦ ?_⟩
    · rw [init, hmin, List.mem_range'_1] at hmem
      change value ≤ maximum
      omega
    · rw [init, hmin, List.getLast?_range', if_neg (by omega)] at hlast
      cases hlast
      rw [hthreshold, Nat.sub_add_cancel (by omega)]
      exact hend
  rw [hstocked.allocates_iff]
  intro n
  obtain ⟨bank, hafter, hbefore⟩ := hstocked.afterDraws n
  obtain ⟨value, second, rest, hbank, -⟩ := hbefore.exists_bank_eq
  have hle := (haligned.afterDraws hstocked (hthreshold ▸ hdvd) n).le_maximum value
    (by rw [hafter, hbank]; exact List.mem_cons_self)
  rw [counter, hafter, hbank]
  rw [hafter] at hle
  exact hle

/-- Zero is drawn one after the maximum, where a block begins, and again `maximum + 1` draws later,
where another one does. -/
theorem dvd_of_allocates_init (hincrement : 2 ≤ increment) (hmaximum : increment < maximum)
    (hstart : start < maximum - increment) (hallocates : Allocates (init maximum increment start)) :
    increment / 2 ∣ maximum + 1 ∧ increment / 2 ∣ start + increment := by
  have hstocked := stocked_init hincrement hmaximum start
  have hmin : min maximum increment = increment := min_eq_right hmaximum.le
  have hfirst : (init maximum increment start).counter 0 = start := by
    rw [counter, afterDraws_zero, init, hmin, List.range'_eq_cons_iff.mpr ⟨rfl, by omega, rfl⟩]
    rfl
  have hmod := hstocked.counts.eq_mod (hstocked.allocates_iff.mp hallocates)
  rw [hfirst] at hmod
  -- the two draws after which the counter wraps
  have hstarts : ∀ wraps, ∃ blocks, maximum + 1 - start + wraps * (maximum + 1) =
      increment + blocks * (increment / 2) := by
    intro wraps
    have hzero : (init maximum increment start).counter
        (maximum + 1 - start + wraps * (maximum + 1)) = 0 := by
      rw [hmod, ← Nat.add_assoc, Nat.add_sub_cancel' (by omega)]
      change (maximum + 1 + wraps * (maximum + 1)) % (maximum + 1) = 0
      rw [Nat.add_mul_mod_self_right, Nat.mod_self]
    obtain ⟨blocks, hblocks⟩ := hstocked.starts_of_counter_eq_zero hzero (by omega)
    rw [threshold_init hmaximum, init, hmin] at hblocks
    exact ⟨blocks, hblocks⟩
  obtain ⟨blocks, hblocks⟩ := hstarts 0
  obtain ⟨later, hlater⟩ := hstarts 1
  have hall : increment / 2 ∣ maximum + 1 := by
    refine (Nat.dvd_add_right (Dvd.intro_left blocks rfl)).mp
      (⟨later, ?_⟩ : increment / 2 ∣ blocks * (increment / 2) + (maximum + 1))
    rw [Nat.mul_comm (increment / 2) later]
    omega
  refine ⟨hall, (Nat.dvd_add_right (Dvd.intro_left blocks rfl)).mp
    (?_ : increment / 2 ∣ blocks * (increment / 2) + (start + increment))⟩
  rw [show blocks * (increment / 2) + (start + increment) = maximum + 1 by omega]
  exact hall

/-- A generator with an increment of at least 2 and a larger maximum yields values up to its
maximum, `maximum + 1` distinct ones in a row, exactly if half the increment divides both
`maximum + 1` and the end of the first bank. -/
theorem allocates_init_iff (hincrement : 2 ≤ increment) (hmaximum : increment < maximum)
    (hstart : start < maximum - increment) :
    Allocates (init maximum increment start) ↔
      increment / 2 ∣ maximum + 1 ∧ increment / 2 ∣ start + increment :=
  ⟨dvd_of_allocates_init hincrement hmaximum hstart,
    fun hdvd ↦ allocates_init_of_dvd hincrement hmaximum hstart hdvd.1 hdvd.2⟩

end Init

theorem allocates_init_iff_128 :
    Allocates (init 16777215 256 128) ↔ 256 / 2 ∣ 16777215 + 1 ∧ 256 / 2 ∣ 128 + 256 :=
  allocates_init_iff (by norm_num) (by norm_num) (by norm_num)

/-- Half of the block after the first bank is above the maximum. -/
example : (init 10 8 1).draw 11 = .ok 12 := by decide

/-- The generator of message identifiers, whose first value is 1: the first block that ends above
the maximum is the last one before the wrap. -/
theorem not_allocates_init :
    ¬ ∀ maximum increment start, 2 ≤ increment → increment < maximum →
      start < maximum - increment → Allocates (init maximum increment start) := by
  intro hall
  have hallocates := hall 16777215 256 1 (by norm_num) (by norm_num) (by norm_num)
  have hend := (dvd_of_allocates_init (by norm_num) (by norm_num) (by norm_num) hallocates).2
  revert hend
  norm_num

end Integer

end Pysnmp.NextId
