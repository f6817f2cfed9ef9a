import Pysnmp.Foundation.Effect
import Pysnmp.Foundation.Numeral
import Pysnmp.Foundation.Run
import Pysnmp.Proto.Types

/-!
# Engine boots across restarts

What `SnmpEngine.__init__` of `entity/engine.py` does with `snmpEngineBoots` of an engine with a
given `snmpEngineID`: the counter is set from the file that the previous run has left, stepped and
stored again. A text that is no number fails the construction, and what comes after the largest
value is 1.

`everyStep_advances_iff`: in a row of restarts the counter always gets past that of the previous
run, or stays at the largest value, exactly if the file is readable to begin with and the restarts
end before the counter does.
-/

set_option autoImplicit false
set_option relaxedAutoImplicit false

namespace Pysnmp.Entity.EngineBoots

open Foundation Foundation.Effect Foundation.Numeral Proto

/-! ### The file -/

/-- How files are read as text on a host: an encoding that has the digits of ASCII, and what is
known of other characters. -/
structure Locale where
  decode : Octets → Option (List Char)
  characters : CharacterTable
  decode_digits : ∀ text : List Char, (∀ char ∈ text, char.isDigit) →
    decode (text.map fun char ↦ UInt8.ofNat char.toNat) = some text

/-- The exceptions of the construction. -/
inductive EngineError
  | osError
  | unicodeDecodeError
  | valueConstraintError
  | pyAsn1Error
  deriving DecidableEq, Repr

/-- A value of `snmpEngineBoots`. -/
abbrev SnmpEngineBoots := {value : ℤ // 1 ≤ value ∧ value ≤ 2147483647}

/-- The counter of an engine, and the content of its file. -/
structure Engine where
  snmpEngineBoots : SnmpEngineBoots
  boots : Option Octets

/-- Programs of the construction. -/
abbrev Construction (α : Type) := Effect Engine EngineError α

/-! ### `SnmpEngine.__init__` -/

/-- `clone` of the counter's type with a number. -/
def clone (value : ℤ) : Construction SnmpEngineBoots :=
  if hvalue : 1 ≤ value ∧ value ≤ 2147483647 then
    pure ⟨value, hvalue⟩
  else
    raise .valueConstraintError

/-- `clone` with a text, which has to be that of a number. -/
def cloneText (locale : Locale) (text : List Char) : Construction SnmpEngineBoots :=
  match readInt locale.characters maxStrDigits 10 text with
  | some value => clone value
  | none => raise .pyAsn1Error

/-- `read_text` of the file. -/
def readText (locale : Locale) : Construction (List Char) := do
  match ← gets fun engine ↦ engine.boots with
  | none => raise .osError
  | some octets =>
    match locale.decode octets with
    | none => raise .unicodeDecodeError
    | some text => pure text

/-- Set the counter. -/
def setBoots (snmpEngineBoots : SnmpEngineBoots) : Construction Unit :=
  modify fun engine ↦ { engine with snmpEngineBoots := snmpEngineBoots }

/-- `snmpEngineBoots.syntax += 1`. -/
def incrementBoots : Construction Unit := do
  let snmpEngineBoots ← gets fun engine ↦ engine.snmpEngineBoots
  let next ← clone (snmpEngineBoots.val + 1)
  setBoots next

/-- Set the counter from the file. -/
def loadBoots (locale : Locale) : Construction Unit := do
  let text ← readText locale
  let snmpEngineBoots ← cloneText locale text
  setBoots snmpEngineBoots

/-- Write the counter to the file. -/
def storeBoots : Construction Unit :=
  modify fun engine ↦ { engine with
    boots := some ((numeral 10 engine.snmpEngineBoots.val).map fun char ↦
      UInt8.ofNat char.toNat) }

/-- The part of `__init__` that is about the counter. -/
def init (locale : Locale) : Construction Unit := do
  incrementBoots
  handle (loadBoots locale) fun exception ↦
    match exception with
    | .osError | .unicodeDecodeError | .valueConstraintError => pure ()
    | .pyAsn1Error => raise .pyAsn1Error
  handle incrementBoots fun _ ↦ do
    let snmpEngineBoots ← clone 1
    setBoots snmpEngineBoots
  storeBoots

/-! ### Restarts -/

/-- A new engine, whose counter the MIB begins with 1. -/
def newEngine (boots : Option Octets) : Engine :=
  ⟨⟨1, by decide⟩, boots⟩

/-- The file after a restart. -/
def restart (locale : Locale) (boots : Option Octets) (_ : Unit) : Option Octets :=
  ((init locale).run (newEngine boots)).2.boots

/-- The number in a file, where it is a value of the counter. -/
def storedBoots (locale : Locale) (boots : Option Octets) : Option ℤ :=
  ((boots.bind locale.decode).bind (readInt locale.characters maxStrDigits 10)).filter
    fun value ↦ 1 ≤ value ∧ value ≤ 2147483647

/-- The construction succeeds, and if the previous run has left its counter in the file the new
counter is greater, or both are the largest value. -/
def Advances (locale : Locale) (boots : Option Octets) (_ : Unit) : Prop :=
  ∃ engine, (init locale).run (newEngine boots) = (.ok (), engine) ∧
    ∀ previous ∈ storedBoots locale boots, previous < engine.snmpEngineBoots.val ∨
      previous = 2147483647 ∧ engine.snmpEngineBoots.val = 2147483647

/-- The file has a text that is not that of a number. -/
def IsGarbage (locale : Locale) (boots : Option Octets) : Prop :=
  ∃ text, boots.bind locale.decode = some text ∧
    readInt locale.characters maxStrDigits 10 text = none

/-! ### One restart -/

section Restart

variable {locale : Locale} {boots : Option Octets}

/-- A file with a number that is a value of the counter, with one that is none, without a text, or
with garbage. -/
theorem loadBoots_run (engine : Engine) :
    (∃ value : SnmpEngineBoots, storedBoots locale engine.boots = some value.val ∧
        ¬ IsGarbage locale engine.boots ∧
        (loadBoots locale).run engine = (.ok (), { engine with snmpEngineBoots := value })) ∨
      (∃ exception, exception ≠ .pyAsn1Error ∧ storedBoots locale engine.boots = none ∧
        ¬ IsGarbage locale engine.boots ∧
        (loadBoots locale).run engine = (.error exception, engine)) ∨
      storedBoots locale engine.boots = none ∧ IsGarbage locale engine.boots ∧
        (loadBoots locale).run engine = (.error .pyAsn1Error, engine) := by
  have hread : ∀ exception, (readText locale).run engine = (.error exception, engine) →
      (loadBoots locale).run engine = (.error exception, engine) :=
    fun _ hrun ↦ bind_run_of_error hrun
  unfold storedBoots IsGarbage
  cases hboots : engine.boots with
  | none =>
    refine Or.inr (Or.inl ⟨.osError, by decide, rfl, ?_, hread _ ?_⟩)
    · rintro ⟨_, hnone, -⟩
      cases hnone
    · rw [readText, bind_run_of_ok (gets_run _ _), hboots]
      rfl
  | some octets =>
    rw [Option.bind_some]
    cases htext : locale.decode octets with
    | none =>
      refine Or.inr (Or.inl ⟨.unicodeDecodeError, by decide, rfl, ?_, hread _ ?_⟩)
      · rintro ⟨_, hnone, -⟩
        cases hnone
      · rw [readText, bind_run_of_ok (gets_run _ _), hboots]
        simp only [htext]
        rfl
    | some text =>
      have hrun : (readText locale).run engine = (.ok text, engine) := by
        rw [readText, bind_run_of_ok (gets_run _ _), hboots]
        simp only [htext]
        rfl
      rw [loadBoots, bind_run_of_ok hrun, cloneText, Option.bind_some]
      cases hnumber : readInt locale.characters maxStrDigits 10 text with
      | none => exact Or.inr (Or.inr ⟨rfl, ⟨text, rfl, hnumber⟩, rfl⟩)
      | some value =>
        have hreadable : ¬ ∃ other, some text = some other ∧
            readInt locale.characters maxStrDigits 10 other = none := by
          rintro ⟨other, hother, hnone⟩
          rw [← Option.some.inj hother, hnumber] at hnone
          cases hnone
        dsimp only
        unfold clone
        split_ifs with hvalue
        · refine Or.inl ⟨⟨value, hvalue⟩, by simp [hvalue], hreadable, ?_⟩
          rw [← hboots]
          rfl
        · exact Or.inr (Or.inl
            ⟨.valueConstraintError, by decide, by simpa using hvalue, hreadable, rfl⟩)

/-- The counter's successor, or 1 after the largest value. -/
theorem handle_incrementBoots_run (engine : Engine) :
    ∃ next : SnmpEngineBoots,
      (handle incrementBoots fun _ ↦ do
        let snmpEngineBoots ← clone 1
        setBoots snmpEngineBoots).run engine =
          (.ok (), { engine with snmpEngineBoots := next }) ∧
      (engine.snmpEngineBoots.val < 2147483647 → next.val = engine.snmpEngineBoots.val + 1) ∧
      (engine.snmpEngineBoots.val = 2147483647 → next.val = 1) := by
  obtain ⟨hone, hmax⟩ := engine.snmpEngineBoots.property
  by_cases hvalue : 1 ≤ engine.snmpEngineBoots.val + 1 ∧
      engine.snmpEngineBoots.val + 1 ≤ 2147483647
  · have hrun : incrementBoots.run engine =
        (.ok (), { engine with snmpEngineBoots := ⟨engine.snmpEngineBoots.val + 1, hvalue⟩ }) := by
      rw [incrementBoots, bind_run_of_ok (gets_run _ _), clone, dif_pos hvalue]
      rfl
    exact ⟨_, handle_run_of_ok hrun, fun _ ↦ rfl, fun hlast ↦ by omega⟩
  · have hrun : incrementBoots.run engine = (.error .valueConstraintError, engine) := by
      rw [incrementBoots, bind_run_of_ok (gets_run _ _), clone, dif_neg hvalue]
      rfl
    refine ⟨⟨1, by decide⟩, (handle_run_of_error hrun).trans rfl, fun hless ↦ by omega,
      fun _ ↦ rfl⟩

/-- The number the first value of the counter comes after. -/
def startingBoots (locale : Locale) (boots : Option Octets) : ℤ :=
  (storedBoots locale boots).getD 2

/-- What is written of a value of the counter is read as it. -/
theorem readable_numeral (value : SnmpEngineBoots) :
    storedBoots locale (some ((numeral 10 value.val).map fun char ↦
        UInt8.ofNat char.toNat)) = some value.val ∧
      ¬ IsGarbage locale (some ((numeral 10 value.val).map fun char ↦
        UInt8.ofNat char.toNat)) := by
  obtain ⟨hone, hmax⟩ := value.property
  have hdigits : ∀ char ∈ numeral 10 value.val, char.isDigit := by
    intro char hmem
    rw [numeral, if_neg (by omega)] at hmem
    exact Nat.isDigit_of_mem_toDigits (by decide) (by decide) hmem
  have hlength : (Nat.toDigits 10 value.val.natAbs).length ≤ maxStrDigits := by
    have hten : (Nat.toDigits 10 value.val.natAbs).length ≤ 10 := by
      rw [Nat.length_toDigits_le_iff (by decide) (by decide)]
      omega
    exact hten.trans (by decide)
  have hread : readInt locale.characters maxStrDigits 10 (numeral 10 value.val) =
      some value.val :=
    readInt_numeral (by decide) fun _ ↦ hlength
  have hdecode := locale.decode_digits _ hdigits
  constructor
  · rw [storedBoots, Option.bind_some, hdecode, Option.bind_some, hread]
    simp [hone, hmax]
  · rintro ⟨text, htext, hnone⟩
    rw [Option.bind_some, hdecode, Option.some.injEq] at htext
    rw [← htext, hread] at hnone
    cases hnone

/-- The construction fails on garbage; otherwise the counter is stepped and stored. -/
theorem init_run (locale : Locale) (boots : Option Octets) :
    IsGarbage locale boots ∧ (∃ engine, (init locale).run (newEngine boots) =
        (.error .pyAsn1Error, engine) ∧ engine.boots = boots) ∨
      ¬ IsGarbage locale boots ∧ ∃ engine, (init locale).run (newEngine boots) = (.ok (), engine) ∧
        engine.boots = some ((numeral 10 engine.snmpEngineBoots.val).map fun char ↦
          UInt8.ofNat char.toNat) ∧
        (startingBoots locale boots < 2147483647 →
          engine.snmpEngineBoots.val = startingBoots locale boots + 1) ∧
        (startingBoots locale boots = 2147483647 → engine.snmpEngineBoots.val = 1) := by
  have hfirst : incrementBoots.run (newEngine boots) = (.ok (), ⟨⟨2, by decide⟩, boots⟩) := rfl
  have hfinish : ∀ value : SnmpEngineBoots, value.val = startingBoots locale boots →
      ∃ engine, (do
          handle incrementBoots fun _ ↦ do
            let snmpEngineBoots ← clone 1
            setBoots snmpEngineBoots
          storeBoots).run ⟨value, boots⟩ = (.ok (), engine) ∧
        engine.boots = some ((numeral 10 engine.snmpEngineBoots.val).map fun char ↦
          UInt8.ofNat char.toNat) ∧
        (startingBoots locale boots < 2147483647 →
          engine.snmpEngineBoots.val = startingBoots locale boots + 1) ∧
        (startingBoots locale boots = 2147483647 → engine.snmpEngineBoots.val = 1) := by
    intro value hvalue
    obtain ⟨next, hrun, hless, hlast⟩ := handle_incrementBoots_run ⟨value, boots⟩
    rw [bind_run_of_ok hrun, ← hvalue]
    exact ⟨_, rfl, rfl, hless, hlast⟩
  rw [init, bind_run_of_ok hfirst]
  rcases @loadBoots_run locale ⟨⟨2, by decide⟩, boots⟩ with
    ⟨value, hstored, hreadable, hload⟩ | ⟨exception, hcaught, hstored, hreadable, hload⟩ |
    ⟨-, hgarbage, hload⟩
  · rw [bind_run_of_ok (handle_run_of_ok hload)]
    have hstarting : startingBoots locale boots = value.val := by
      rw [startingBoots, hstored, Option.getD_some]
    exact Or.inr ⟨hreadable, hfinish value hstarting.symm⟩
  · have hhandled : (handle (loadBoots locale) fun exception ↦
        match exception with
        | .osError | .unicodeDecodeError | .valueConstraintError => pure ()
        | .pyAsn1Error => raise .pyAsn1Error).run ⟨⟨2, by decide⟩, boots⟩ =
          (.ok (), ⟨⟨2, by decide⟩, boots⟩) := by
      rw [handle_run_of_error hload]
      cases exception with
      | osError | unicodeDecodeError | valueConstraintError => rfl
      | pyAsn1Error => exact absurd rfl hcaught
    rw [bind_run_of_ok hhandled]
    have hstarting : startingBoots locale boots = 2 := by
      rw [startingBoots, hstored, Option.getD_none]
    exact Or.inr ⟨hreadable, hfinish ⟨2, by decide⟩ hstarting.symm⟩
  · exact Or.inl ⟨hgarbage, _, bind_run_of_error (handle_run_of_error hload), rfl⟩

end Restart

/-! ### Rows of restarts -/

section Restarts

variable {locale : Locale} {boots : Option Octets}

theorem storedBoots_bounds {previous : ℤ} (hstored : storedBoots locale boots = some previous) :
    1 ≤ previous ∧ previous ≤ 2147483647 := by
  rw [storedBoots, Option.filter_eq_some_iff] at hstored
  exact of_decide_eq_true hstored.2

/-- The counter goes on from what is stored, if it is not at its end. -/
theorem startingBoots_cases (locale : Locale) (boots : Option Octets) :
    startingBoots locale boots < 2147483647 ∨
      startingBoots locale boots = 2147483647 ∧ storedBoots locale boots = some 2147483647 := by
  unfold startingBoots
  cases hstored : storedBoots locale boots with
  | none => exact Or.inl (by decide)
  | some previous =>
    obtain ⟨-, hmax⟩ := storedBoots_bounds hstored
    rw [Option.getD_some]
    rcases hmax.lt_or_eq with hless | heq
    · exact Or.inl hless
    · exact Or.inr ⟨heq, by rw [heq]⟩

/-- A restart brings the counter forward exactly if the file can be read and the counter is not at
its end. -/
theorem advances_iff :
    Advances locale boots () ↔
      ¬ IsGarbage locale boots ∧ startingBoots locale boots < 2147483647 := by
  rcases init_run locale boots with
    ⟨hgarbage, engine, hrun, -⟩ | ⟨hreadable, engine, hrun, -, hstepped, hlast⟩
  · refine iff_of_false ?_ fun hboth ↦ hboth.1 hgarbage
    rintro ⟨_, hok, -⟩
    rw [hrun] at hok
    cases hok
  · rcases startingBoots_cases locale boots with hless | ⟨hend, hstored⟩
    · refine iff_of_true ⟨engine, hrun, fun previous hprevious ↦ Or.inl ?_⟩ ⟨hreadable, hless⟩
      have hstarting : startingBoots locale boots = previous := by
        rw [startingBoots, hprevious, Option.getD_some]
      rw [hstepped hless, hstarting]
      exact lt_add_one previous
    · refine iff_of_false ?_ fun hboth ↦ hboth.2.ne hend
      rintro ⟨other, hok, hadvances⟩
      obtain rfl : engine = other := by
        rw [hrun] at hok
        exact (Prod.mk.inj hok).2
      have hone := hlast hend
      rcases hadvances 2147483647 hstored with hmore | ⟨-, hstays⟩ <;> omega

/-- It leaves the new counter in the file. -/
theorem restart_of_less (hreadable : ¬ IsGarbage locale boots)
    (hless : startingBoots locale boots < 2147483647) :
    ¬ IsGarbage locale (restart locale boots ()) ∧
      startingBoots locale (restart locale boots ()) = startingBoots locale boots + 1 := by
  rcases init_run locale boots with ⟨hgarbage, -⟩ | ⟨-, engine, hrun, hfile, hstepped, -⟩
  · exact absurd hgarbage hreadable
  · obtain ⟨hstored, hnext⟩ := @readable_numeral locale engine.snmpEngineBoots
    rw [restart, hrun, hfile]
    refine ⟨hnext, ?_⟩
    rw [startingBoots, hstored, Option.getD_some, hstepped hless]

/-- In a row of restarts the counter is always brought forward exactly if the file can be read at
first, and the restarts are no more than the counter has values left. -/
theorem everyStep_advances_iff (locale : Locale) (boots : Option Octets) (restarts : List Unit) :
    EveryStep (restart locale) (Advances locale) boots restarts ↔
      restarts = [] ∨ ¬ IsGarbage locale boots ∧
        startingBoots locale boots + restarts.length ≤ 2147483647 := by
  induction restarts generalizing boots with
  | nil => exact iff_of_true trivial (Or.inl rfl)
  | cons _ restarts ih =>
    rw [EveryStep, advances_iff, ih, or_iff_right (List.cons_ne_nil _ _), List.length_cons]
    push_cast
    constructor
    · rintro ⟨⟨hreadable, hless⟩, hrest⟩
      refine ⟨hreadable, ?_⟩
      rcases hrest with hnil | ⟨-, hfits⟩
      · rw [hnil, List.length_nil]
        push_cast
        omega
      · rw [(restart_of_less hreadable hless).2] at hfits
        omega
    · rintro ⟨hreadable, hfits⟩
      have hless : startingBoots locale boots < 2147483647 := by omega
      obtain ⟨hnext, hstarting⟩ := restart_of_less hreadable hless
      refine ⟨⟨hreadable, hless⟩, Or.inr ⟨hnext, ?_⟩⟩
      rw [hstarting]
      omega

end Restarts

/-! ### The end of the counter -/

/-- A host that reads ASCII only, and knows no characters beyond it. -/
def asciiLocale : Locale where
  decode := fun octets ↦
    if octets.all fun octet ↦ octet < 128 then
      some (octets.map fun octet ↦ Char.ofNat octet.toNat)
    else
      none
  characters := ⟨fun _ ↦ false, fun _ ↦ none⟩
  decode_digits := by
    intro text hdigits
    have hascii : ∀ char ∈ text, char.toNat < 128 := by
      intro char hmem
      have hdigit := hdigits char hmem
      simp only [Char.isDigit, Bool.and_eq_true, decide_eq_true_eq] at hdigit
      have hnine : char.toNat ≤ 57 := hdigit.2
      omega
    have hall : (text.map fun char ↦ UInt8.ofNat char.toNat).all (· < 128) = true := by
      rw [List.all_map, List.all_eq_true]
      intro char hmem
      have hsmall := hascii char hmem
      simp only [Function.comp_apply, decide_eq_true_eq, UInt8.lt_iff_toNat_lt,
        UInt8.toNat_ofNat', show (128 : UInt8).toNat = 128 from rfl]
      omega
    rw [if_pos hall, List.map_map, Option.some.injEq]
    have hsame : ∀ char ∈ text, ((fun octet : UInt8 ↦ Char.ofNat octet.toNat) ∘
        fun char ↦ UInt8.ofNat char.toNat) char = id char := by
      intro char hmem
      have hsmall := hascii char hmem
      rw [Function.comp_apply, UInt8.toNat_ofNat', Nat.mod_eq_of_lt (by omega), Char.ofNat_toNat,
        id]
    rw [List.map_congr_left hsame, List.map_id]

/-- The file of an engine that has come to the largest value. -/
def lastBoots : Option Octets :=
  some [50, 49, 52, 55, 52, 56, 51, 54, 52, 55]

/-- It begins again with 1. -/
theorem not_everyStep_advances :
    ¬ ∀ (locale : Locale) (boots : Option Octets) (restarts : List Unit),
      EveryStep (restart locale) (Advances locale) boots restarts := by
  intro hall
  obtain ⟨⟨engine, hrun, hadvances⟩, -⟩ := hall asciiLocale lastBoots [()]
  have hstored : storedBoots asciiLocale lastBoots = some 2147483647 := by decide
  have hone : ((init asciiLocale).run (newEngine lastBoots)).2.snmpEngineBoots.val = 1 := by
    decide
  rw [hrun] at hone
  change engine.snmpEngineBoots.val = 1 at hone
  rcases hadvances _ hstored with hmore | ⟨-, hstays⟩
  · omega
  · omega

end Pysnmp.Entity.EngineBoots
