import Pysnmp.Foundation.Loop
import Pysnmp.Proto.Secmod.DhAgreement

/-!
# The search for a fitting key pair, and the agreement

`generateKeyPairFitting` of `proto/secmod/rfc2786/__init__.py` as it runs, turn by turn, with what
it has spent: the calls of `generateKeyPair` and the modular multiplications. It ends within its
budget (`fittingSearch_within_budget`) with what `DhAgreement` says it returns, and the private
value it returns lies in the interval that one draw is made from. Two sides whose public values are
powers of the base come to one secret of the width of the prime.
-/

set_option autoImplicit false
set_option relaxedAutoImplicit false

namespace Pysnmp.Proto.Secmod.DhSearch

open Foundation.BigEndian Foundation.Loop DhAgreement

/-! ### The search turn by turn -/

/-- A search under way: what it has spent and, in the walk, the exponent and its public value. -/
structure Search where
  draws : ℕ
  multiplications : ℕ
  walking : Option (ℕ × ℕ)

/-- A search that has ended. -/
structure Spent where
  draws : ℕ
  multiplications : ℕ
  result : Except ValueError DHKeyPair

/-- A turn of the `for` loop, up to its `while`. -/
def drawTurn (secrets : Secrets) (parameters : DHParameters) (width draws multiplications : ℕ) :
    Search ⊕ Spent :=
  if fittingDraws ≤ draws then .inr ⟨draws, multiplications, .error (.noneInDraws width)⟩
  else
    match generateKeyPair secrets parameters draws with
    | .error error => .inr ⟨draws, multiplications, .error error⟩
    | .ok keyPair =>
      .inl ⟨draws + 1, multiplications,
        some (keyPair.privateValue, fromBytes keyPair.publicValue)⟩

/-- A turn of the `while` loop. -/
def walkTurn (parameters : DHParameters) (width draws multiplications : ℕ)
    (privateValue publicValue : ℕ) : Search ⊕ Spent :=
  if publicLength publicValue ≤ width then
    .inr ⟨draws, multiplications, .ok ⟨privateValue, toOctets publicValue⟩⟩
  else if fittingSteps ≤ multiplications then
    .inr ⟨draws, multiplications, .error (.noneInSteps width)⟩
  else if upperBound parameters ≤ privateValue then .inl ⟨draws, multiplications, none⟩
  else
    .inl ⟨draws, multiplications + 1,
      some (privateValue + 1, publicValue * parameters.base % parameters.prime)⟩

/-- A turn of either loop. -/
def searchTurn (secrets : Secrets) (parameters : DHParameters) (width : ℕ) :
    Search → Search ⊕ Spent
  | ⟨draws, multiplications, none⟩ => drawTurn secrets parameters width draws multiplications
  | ⟨draws, multiplications, some (privateValue, publicValue)⟩ =>
    walkTurn parameters width draws multiplications privateValue publicValue

/-- `generateKeyPairFitting`, in a number of turns. -/
def fittingSearch (secrets : Secrets) (parameters : DHParameters) (width turns : ℕ) :
    Option Spent :=
  if width < 1 then some ⟨0, 0, .error (.cannotFit width)⟩
  else within (searchTurn secrets parameters width) turns ⟨0, 0, none⟩

/-- The turns that suffice. -/
def searchTurns : ℕ :=
  2 * fittingDraws + fittingSteps + 1

section Search

variable {secrets : Secrets} {parameters : DHParameters} {width : ℕ}

/-- What is left of the search. -/
def Search.remaining (search : Search) : ℕ :=
  2 * (fittingDraws - search.draws) + (fittingSteps - search.multiplications) +
    if search.walking.isSome then 1 else 0

/-- What becomes of a walk. -/
def afterWalk (secrets : Secrets) (parameters : DHParameters) (width draws : ℕ) :
    WalkEnd → Except ValueError DHKeyPair
  | .found keyPair => .ok keyPair
  | .outOfSteps => .error (.noneInSteps width)
  | .outOfInterval steps => drawFitting secrets parameters width draws steps

/-- What the rest of the search comes to. -/
def Search.outcome (secrets : Secrets) (parameters : DHParameters) (width : ℕ) :
    Search → Except ValueError DHKeyPair
  | ⟨draws, multiplications, none⟩ =>
    drawFitting secrets parameters width (fittingDraws - draws) (fittingSteps - multiplications)
  | ⟨draws, multiplications, some (privateValue, publicValue)⟩ =>
    afterWalk secrets parameters width (fittingDraws - draws)
      (walk parameters width (fittingSteps - multiplications) privateValue publicValue)

theorem drawFitting_of_lt {draws : ℕ} (hdraws : draws < fittingDraws) (steps : ℕ) :
    drawFitting secrets parameters width (fittingDraws - draws) steps =
      (generateKeyPair secrets parameters draws >>= fun keyPair ↦
        afterWalk secrets parameters width (fittingDraws - (draws + 1))
          (walk parameters width steps keyPair.privateValue (fromBytes keyPair.publicValue))) := by
  have hleft : fittingDraws - draws = fittingDraws - (draws + 1) + 1 := by omega
  have hindex : fittingDraws - (fittingDraws - (draws + 1) + 1) = draws := by omega
  rw [hleft, drawFitting, hindex]
  rfl

theorem walk_of_lt {multiplications privateValue publicValue : ℕ}
    (hsteps : multiplications < fittingSteps) (hfits : ¬ publicLength publicValue ≤ width) :
    walk parameters width (fittingSteps - multiplications) privateValue publicValue =
      if upperBound parameters ≤ privateValue then .outOfInterval (fittingSteps - multiplications)
      else walk parameters width (fittingSteps - (multiplications + 1)) (privateValue + 1)
        (publicValue * parameters.base % parameters.prime) := by
  have hleft : fittingSteps - multiplications = fittingSteps - (multiplications + 1) + 1 := by
    omega
  rw [hleft, walk, if_neg hfits]

/-- A search is within its budget. -/
def Search.WithinBudget (search : Search) : Prop :=
  search.draws ≤ fittingDraws ∧ search.multiplications ≤ fittingSteps

/-- A turn that goes on leaves less to do, and what the search comes to is as before. -/
theorem searchTurn_inl {search next : Search} (hbudget : search.WithinBudget)
    (hturn : searchTurn secrets parameters width search = .inl next) :
    next.WithinBudget ∧
      next.outcome secrets parameters width = search.outcome secrets parameters width ∧
      next.remaining < search.remaining := by
  obtain ⟨draws, multiplications, walking⟩ := search
  obtain ⟨hdraws, hsteps⟩ := hbudget
  simp only at hdraws hsteps
  cases walking with
  | none =>
    rw [searchTurn, drawTurn] at hturn
    split_ifs at hturn with hover
    have hlt : draws < fittingDraws := not_le.mp hover
    cases hpair : generateKeyPair secrets parameters draws with
    | error error =>
      rw [hpair] at hturn
      cases hturn
    | ok keyPair =>
      rw [hpair] at hturn
      obtain rfl := Sum.inl.inj hturn
      refine ⟨⟨hlt, hsteps⟩, ?_, ?_⟩
      · rw [Search.outcome, Search.outcome, drawFitting_of_lt hlt, hpair]
        rfl
      · simp only [Search.remaining, Option.isSome_some, Option.isSome_none, if_true]
        grind
  | some place =>
    obtain ⟨privateValue, publicValue⟩ := place
    rw [searchTurn, walkTurn] at hturn
    split_ifs at hturn with hfits hover hupper
    · have hlt : multiplications < fittingSteps := not_le.mp hover
      obtain rfl := Sum.inl.inj hturn
      refine ⟨⟨hdraws, hsteps⟩, ?_, ?_⟩
      · rw [Search.outcome, Search.outcome, walk_of_lt hlt hfits, if_pos hupper]
        rfl
      · simp only [Search.remaining, Option.isSome_some, Option.isSome_none, if_true]
        grind
    · have hlt : multiplications < fittingSteps := not_le.mp hover
      obtain rfl := Sum.inl.inj hturn
      refine ⟨⟨hdraws, hlt⟩, ?_, ?_⟩
      · rw [Search.outcome, Search.outcome, walk_of_lt hlt hfits, if_neg hupper]
      · simp only [Search.remaining, Option.isSome_some, if_true]
        grind

/-- A turn that ends the search ends it with what it comes to, and spends nothing more. -/
theorem searchTurn_inr {search : Search} {spent : Spent}
    (hturn : searchTurn secrets parameters width search = .inr spent) :
    spent = ⟨search.draws, search.multiplications,
      search.outcome secrets parameters width⟩ := by
  obtain ⟨draws, multiplications, walking⟩ := search
  cases walking with
  | none =>
    rw [searchTurn, drawTurn] at hturn
    split_ifs at hturn with hover
    · have hnone : fittingDraws - draws = 0 := Nat.sub_eq_zero_of_le hover
      obtain rfl := Sum.inr.inj hturn
      rw [Search.outcome, hnone, drawFitting]
    · cases hpair : generateKeyPair secrets parameters draws with
      | error error =>
        rw [hpair] at hturn
        obtain rfl := Sum.inr.inj hturn
        rw [Search.outcome, drawFitting_of_lt (not_le.mp hover), hpair]
        rfl
      | ok keyPair =>
        rw [hpair] at hturn
        cases hturn
  | some place =>
    obtain ⟨privateValue, publicValue⟩ := place
    rw [searchTurn, walkTurn] at hturn
    split_ifs at hturn with hfits hover
    · obtain rfl := Sum.inr.inj hturn
      rw [Search.outcome, walk.eq_def, if_pos hfits, afterWalk]
    · have hnone : fittingSteps - multiplications = 0 := Nat.sub_eq_zero_of_le hover
      obtain rfl := Sum.inr.inj hturn
      rw [Search.outcome, hnone, walk, if_neg hfits, afterWalk]

/-- The search ends within its draws and steps, with the result of the function. -/
theorem fittingSearch_within_budget (secrets : Secrets) (parameters : DHParameters) (width : ℕ) :
    ∃ spent, fittingSearch secrets parameters width searchTurns = some spent ∧
      spent.draws ≤ fittingDraws ∧ spent.multiplications ≤ fittingSteps ∧
      spent.result = generateKeyPairFitting secrets parameters width := by
  rw [fittingSearch, generateKeyPairFitting]
  split_ifs with hwidth
  · exact ⟨_, rfl, Nat.zero_le _, Nat.zero_le _, rfl⟩
  · refine @within_of_measure _ _ _
      (fun search ↦ search.WithinBudget ∧ search.outcome secrets parameters width =
        drawFitting secrets parameters width fittingDraws fittingSteps)
      Search.remaining _ (fun search next hsearch hturn ↦ ?_) (fun search spent hsearch hturn ↦ ?_)
      _ ⟨⟨Nat.zero_le _, Nat.zero_le _⟩, rfl⟩ _ (Nat.lt_succ_self _)
    · obtain ⟨hbudget, houtcome, hlower⟩ := searchTurn_inl hsearch.1 hturn
      exact ⟨⟨hbudget, houtcome.trans hsearch.2⟩, hlower⟩
    · rw [searchTurn_inr hturn]
      exact ⟨hsearch.1.1, hsearch.1.2, hsearch.2⟩

end Search

/-! ### Private values -/

/-- The interval of private values: the length is that of the value in bits, where there is one. -/
def IsPrivate (parameters : DHParameters) (privateValue : ℕ) : Prop :=
  match parameters.privateValueLength with
  | none => 2 ≤ privateValue ∧ privateValue ≤ parameters.prime - 2
  | some length => 2 ^ (length - 1) ≤ privateValue ∧ privateValue < 2 ^ length

/-- What the code's parser checks of parameters. -/
structure IsAccepted (parameters : DHParameters) : Prop where
  prime : 3 < parameters.prime
  privateValueLength : ∀ length ∈ parameters.privateValueLength, 1 < length

theorem isAccepted_of_decodeDHParameters {derDecode : DerDecoder} {substrate : Octets}
    {parameters : DHParameters}
    (hdecode : decodeDHParameters derDecode substrate = .ok parameters) :
    IsAccepted parameters := by
  rw [decodeDHParameters] at hdecode
  cases hder : derDecode substrate with
  | error error =>
    rw [hder] at hdecode
    cases hdecode
  | ok decoded =>
    obtain ⟨parameter, rest⟩ := decoded
    rw [hder] at hdecode
    simp only at hdecode
    split_ifs at hdecode with hrest hprime hbase
    have hlarge : 3 < parameter.prime.toNat := by omega
    cases hlength : parameter.privateValueLength with
    | none =>
      rw [hlength] at hdecode
      obtain rfl := Except.ok.inj hdecode
      exact ⟨hlarge, fun length hmem ↦ by cases hmem⟩
    | some length =>
      rw [hlength] at hdecode
      simp only at hdecode
      split_ifs at hdecode with hsize
      obtain rfl := Except.ok.inj hdecode
      refine ⟨hlarge, fun other hmem ↦ ?_⟩
      obtain rfl := Option.some.inj hmem
      omega

section Interval

variable {secrets : Secrets} {parameters : DHParameters} {width : ℕ} {keyPair : DHKeyPair}

theorem isPrivate_drawPrivateValue (haccepted : IsAccepted parameters) (draw : ℕ) :
    IsPrivate parameters (drawPrivateValue secrets parameters draw) := by
  have hprime := haccepted.prime
  rw [IsPrivate, drawPrivateValue]
  cases hlength : parameters.privateValueLength with
  | none =>
    have hlt : secrets.randbelow draw (parameters.prime - 3) < parameters.prime - 3 :=
      Nat.mod_lt _ (by omega)
    exact ⟨Nat.le_add_right _ _, by simp only; omega⟩
  | some length =>
    have hbit := haccepted.privateValueLength length hlength
    have hlt : secrets.randbelow draw (2 ^ (length - 1)) < 2 ^ (length - 1) :=
      Nat.mod_lt _ (Nat.two_pow_pos _)
    have htop : 2 ^ length = 2 ^ (length - 1) + 2 ^ (length - 1) := by
      rw [← mul_two, ← pow_succ, Nat.sub_add_cancel (by omega)]
    exact ⟨Nat.le_add_right _ _, by simp only; omega⟩

/-- Below the top of the interval the next number is in it too. -/
theorem IsPrivate.succ {privateValue : ℕ} (hprivate : IsPrivate parameters privateValue)
    (hupper : ¬ upperBound parameters ≤ privateValue) :
    IsPrivate parameters (privateValue + 1) := by
  rw [IsPrivate] at hprivate ⊢
  rw [upperBound] at hupper
  cases hlength : parameters.privateValueLength with
  | none =>
    rw [hlength] at hprivate hupper
    simp only at hprivate hupper ⊢
    omega
  | some length =>
    rw [hlength] at hprivate hupper
    simp only at hprivate hupper ⊢
    omega

theorem isPrivate_of_walk {steps privateValue publicValue : ℕ}
    (hprivate : IsPrivate parameters privateValue)
    (hwalk : walk parameters width steps privateValue publicValue = .found keyPair) :
    IsPrivate parameters keyPair.privateValue := by
  induction steps generalizing privateValue publicValue with
  | zero =>
    rw [walk] at hwalk
    split_ifs at hwalk with hfits
    obtain rfl := WalkEnd.found.inj hwalk
    exact hprivate
  | succ steps ih =>
    rw [walk] at hwalk
    split_ifs at hwalk with hfits hupper
    · obtain rfl := WalkEnd.found.inj hwalk
      exact hprivate
    · exact ih (hprivate.succ hupper) hwalk

theorem isPrivate_of_drawFitting (haccepted : IsAccepted parameters) {draws steps : ℕ}
    (hdraws : draws ≤ fittingDraws)
    (hdraw : drawFitting secrets parameters width draws steps = .ok keyPair) :
    IsPrivate parameters keyPair.privateValue := by
  induction draws generalizing steps with
  | zero => cases hdraw
  | succ draws ih =>
    have hgenerate : generateKeyPair secrets parameters (fittingDraws - (draws + 1)) =
        .ok ⟨drawPrivateValue secrets parameters (fittingDraws - (draws + 1)), _⟩ :=
      if_neg haccepted.prime.not_ge
    rw [drawFitting, hgenerate] at hdraw
    change (match walk parameters width steps _ _ with
      | .found keyPair => pure keyPair
      | .outOfSteps => Except.error (ValueError.noneInSteps width)
      | .outOfInterval steps => drawFitting secrets parameters width draws steps) = _ at hdraw
    split at hdraw
    · next found hwalk =>
      obtain rfl := Except.ok.inj hdraw
      exact isPrivate_of_walk (isPrivate_drawPrivateValue haccepted _) hwalk
    · cases hdraw
    · next left _ => exact ih (by omega) hdraw

end Interval

/-! ### The agreement -/

/-- Each side raises the other's power of the base to its own exponent. -/
theorem computeSharedSecret_agree {parameters : DHParameters} {a b : ℕ}
    {managerPublic agentPublic managerSecret agentSecret : Octets}
    (hmanagerPublic : fromBytes managerPublic = parameters.base ^ a % parameters.prime)
    (hagentPublic : fromBytes agentPublic = parameters.base ^ b % parameters.prime)
    (hmanager : computeSharedSecret parameters a agentPublic = .ok managerSecret)
    (hagent : computeSharedSecret parameters b managerPublic = .ok agentSecret) :
    managerSecret = agentSecret ∧ managerSecret.length = parameters.primeLength := by
  rw [computeSharedSecret] at hmanager hagent
  split_ifs at hmanager hagent
  obtain rfl := Except.ok.inj hmanager
  obtain rfl := Except.ok.inj hagent
  refine ⟨?_, length_toBytes _ _⟩
  rw [hagentPublic, hmanagerPublic, ← Nat.pow_mod, ← Nat.pow_mod, ← pow_mul, ← pow_mul,
    mul_comm]

/-- A key change agrees, and its search gives fitting pairs and ends. -/
theorem keyChange_agrees {derDecode : DerDecoder} {substrate : Octets}
    {parameters : DHParameters}
    (hdecode : decodeDHParameters derDecode substrate = .ok parameters) :
    (∀ a b managerPublic agentPublic managerSecret agentSecret,
      fromBytes managerPublic = parameters.base ^ a % parameters.prime →
      fromBytes agentPublic = parameters.base ^ b % parameters.prime →
      computeSharedSecret parameters a agentPublic = .ok managerSecret →
      computeSharedSecret parameters b managerPublic = .ok agentSecret →
      managerSecret = agentSecret ∧ managerSecret.length = parameters.primeLength ∧
        ∀ keyLength, deriveKey managerSecret keyLength = deriveKey agentSecret keyLength) ∧
    (∀ secrets width keyPair, generateKeyPairFitting secrets parameters width = .ok keyPair →
      fromBytes keyPair.publicValue =
          parameters.base ^ keyPair.privateValue % parameters.prime ∧
        IsPrivate parameters keyPair.privateValue ∧ keyPair.publicValue.length ≤ width) ∧
    ∀ secrets width, ∃ spent,
      fittingSearch secrets parameters width searchTurns = some spent ∧
        spent.draws ≤ fittingDraws ∧ spent.multiplications ≤ fittingSteps ∧
        spent.result = generateKeyPairFitting secrets parameters width := by
  refine ⟨?_, ?_, fun secrets width ↦ fittingSearch_within_budget secrets parameters width⟩
  · intro a b managerPublic agentPublic managerSecret agentSecret hmanagerPublic hagentPublic
      hmanager hagent
    obtain ⟨rfl, hlength⟩ :=
      computeSharedSecret_agree hmanagerPublic hagentPublic hmanager hagent
    exact ⟨rfl, hlength, fun _ ↦ rfl⟩
  · intro secrets width keyPair hgenerate
    have hfitting := (isFitting_of_generateKeyPairFitting hgenerate).2
    rw [generateKeyPairFitting] at hgenerate
    split_ifs at hgenerate
    exact ⟨hfitting.fromBytes_publicValue,
      isPrivate_of_drawFitting (isAccepted_of_decodeDHParameters hdecode) le_rfl hgenerate,
      hfitting.length_le⟩

/-- The decoder on two integers of one octet each. -/
def sampleDerDecode : DerDecoder
  | [0x30, 6, 2, 1, prime, 2, 1, base] => .ok (⟨prime.toNat, base.toNat, none⟩, [])
  | _ => .error "malformed"

def sampleParameters : DHParameters := ⟨23, 5, none⟩

/-- The exponents 6 and 15 over the prime 23, with 5^6 = 8 and 5^15 = 19 modulo it. -/
theorem keyChange_agrees_sample :
    decodeDHParameters sampleDerDecode [0x30, 6, 2, 1, 23, 2, 1, 5] = .ok sampleParameters ∧
      computeSharedSecret sampleParameters 6 [19] = .ok [2] ∧
      computeSharedSecret sampleParameters 15 [8] = .ok [2] ∧
      ([2] : Octets).length = sampleParameters.primeLength ∧
      ∃ spent, fittingSearch (fun _ ↦ 4) sampleParameters 1 searchTurns = some spent ∧
        spent.draws ≤ fittingDraws ∧ spent.multiplications ≤ fittingSteps ∧
        spent.result = generateKeyPairFitting (fun _ ↦ 4) sampleParameters 1 := by
  have hdecode : decodeDHParameters sampleDerDecode [0x30, 6, 2, 1, 23, 2, 1, 5] =
      .ok sampleParameters := rfl
  have hmanager : computeSharedSecret sampleParameters 6 [19] = .ok [2] := by decide
  have hagent : computeSharedSecret sampleParameters 15 [8] = .ok [2] := by decide
  obtain ⟨hagree, -, hsearch⟩ := keyChange_agrees hdecode
  obtain ⟨-, hlength, -⟩ :=
    hagree 6 15 [8] [19] [2] [2] (by decide) (by decide) hmanager hagent
  exact ⟨hdecode, hmanager, hagent, hlength, hsearch _ 1⟩

end Pysnmp.Proto.Secmod.DhSearch
