import Interledger.IlpPacket.Errors
import Interledger.Stream.MultiplyDivide
import Interledger.Stream.SendPacket
import Mathlib.Data.Nat.Cast.Order.Field
import Mathlib.Data.Nat.Digits.Lemmas
import Mathlib.Data.Rat.Floor
import Mathlib.Tactic.FieldSimp
import Mathlib.Tactic.Positivity

/-!
# The exchange rate of a connection

`determineExchangeRate` of `ilp-protocol-stream/src/connection.ts`, with `sendTestPacketVolley` and
`sendTestPacket`. Packets that cannot be fulfilled are sent, of five amounts at first. The receiver rejects those
that reach it and says what has arrived. A connector that rejects one as too large says what it takes, which is
tried in the next volley.

## Main results

* `determineExchangeRate_sound` — on any path, the rate is that of a packet that reached the receiver, the one
  with the most digits of its volley;
* `determineExchangeRate_accurate` — on a path with a constant rate, the rate is found to as many digits as asked
  for, if the path lets an amount through that has them.
-/

namespace Interledger.Stream

open Interledger.Ilp Long

/-- `TEST_PACKET_MAX_ATTEMPTS`. -/
def testPacketMaxAttempts : ℕ := 15

/-- The amounts of the first volley. -/
def firstTestPacketAmounts : List Long := [1, 1000, 1000000, 1000000000, 1000000000000]

/-- `countDigits`. Zero has none. -/
def countDigits (value : Long) : ℕ := (Nat.digits 10 value.toNat).length

/-- `minLongs`, never of an empty list. -/
def minLongs : List Long → Long
  | [] => maxUnsignedValue
  | value :: values => values.foldl minLong value

/-! ### Test packets -/

/-- What becomes of a test packet before its timer goes off. -/
inductive TestOutcome
  /-- It cannot be sent, or `plugin.sendData` rejects. -/
  | failed
  | timedOut
  | replied (data : ResponseData)
  deriving DecidableEq

/-- What `sendTestPacket` resolves to: nothing, the packet of the receiver, or a Reject of another node. -/
inductive TestReply
  | null
  | packet (responsePacket : Packet)
  | reject (ilpReject : IlpReject)
  deriving DecidableEq

/-- What surrounds test packets. Each has the number of its attempt, and its place in the volley. -/
structure TestEnvironment where
  decryptAndDeserialize : Buffer → Option Packet
  /-- The sequence number of the request. -/
  sequence : (attempts index : ℕ) → Long
  sendData : (attempts index : ℕ) → (amount : Long) → TestOutcome
  /-- Whether `rateRetryTimer.wait` resolves, which it does unless the connection is terminated. -/
  wait : (attempts : ℕ) → Bool

namespace TestEnvironment

variable (env : TestEnvironment)

/-- `sendTestPacket`, which throws (`none`) when the reply is neither a Reject nor missing, or does not answer
the request. -/
def sendTestPacket (attempts index : ℕ) (amount : Long) : Option TestReply :=
  match env.sendData attempts index amount with
  | .failed => none
  | .timedOut => some .null
  | .replied (.fulfill _) => none
  | .replied (.invalid _) => none
  | .replied (.reject ilpReject) =>
    if ilpReject.code = .f99ApplicationError ∧ ilpReject.data ≠ [] then
      match env.decryptAndDeserialize ilpReject.data with
      | none => none
      | some responsePacket =>
        if responsePacket.sequence ≠ env.sequence attempts index then none
        else if responsePacket.ilpPacketType ≠ .reject then none
        else some (.packet responsePacket)
    else some (.reject ilpReject)

/-- The test packets of a volley from a place on, with what they resolve to. `Promise.all` rejects when one of
them does. -/
def sendTestPackets (attempts : ℕ) : (index : ℕ) → List Long → Option (List (Long × TestReply))
  | _, [] => some []
  | index, sourceAmount :: testPacketAmounts => do
    let result ← env.sendTestPacket attempts index sourceAmount
    let results ← sendTestPackets attempts (index + 1) testPacketAmounts
    pure ((sourceAmount, result) :: results)

end TestEnvironment

/-- What a result tells about the maximum packet amount. -/
def TestReply.maxPacketAmount (sourceAmount : Long) : TestReply → Long
  | .reject ilpReject =>
    if ilpReject.code = .f08AmountTooLarge then
      match CongestionController.receivedAndMaximumAmount ilpReject.data with
      | none => maxUnsignedValue
      | some (receivedAmount, maximumAmount) =>
        (multiplyDivideFloor sourceAmount maximumAmount receivedAmount).getD maxUnsignedValue
    else maxUnsignedValue
  | _ => maxUnsignedValue

/-- `TestVolleyResult`. -/
structure TestVolleyResult where
  maxDigits : ℕ
  exchangeRate : Rational
  maxPacketAmounts : List Long
  packetErrors : List (Long × IlpErrorCode)
  deriving DecidableEq

namespace TestVolleyResult

/-- One result more. Of results with as many digits, the last one counts. A rate needs a source amount. -/
def add (acc : TestVolleyResult) : Long × TestReply → Option TestVolleyResult
  | (_, .null) => some acc
  | (sourceAmount, .reject ilpReject) =>
    some { acc with packetErrors := acc.packetErrors ++ [(sourceAmount, ilpReject.code)] }
  | (sourceAmount, .packet responsePacket) =>
    if h : sourceAmount = 0 then none
    else if countDigits responsePacket.prepareAmount ≥ acc.maxDigits then
      some { acc with
        maxDigits := countDigits responsePacket.prepareAmount
        exchangeRate := ⟨responsePacket.prepareAmount, sourceAmount, h⟩ }
    else some acc

/-- The amounts that connectors have said, each of them once. -/
def uniqueAmounts (amounts : List Long) : List Long :=
  amounts.foldl (fun acc curr => if curr ∈ acc then acc else acc ++ [curr]) []

/-- The amounts that are tried next. -/
def testPacketAmounts (result : TestVolleyResult) : List Long :=
  uniqueAmounts (result.maxPacketAmounts.filter fun amount => amount ≠ maxUnsignedValue)

/-- `reducedPacketAmount`: two thirds of the smallest amount that brought an error. -/
def reducedPacketAmount (result : TestVolleyResult) : Long :=
  let smallestPacketAmount := (result.packetErrors.map Prod.fst).foldl minLong maxUnsignedValue
  smallestPacketAmount - smallestPacketAmount / 3

/-- Some errors are temporary. -/
def isTemporary (result : TestVolleyResult) : Bool := result.packetErrors.any fun error => error.2.isTemporary

end TestVolleyResult

/-- What `determineExchangeRate` throws. -/
inductive RateError
  /-- A test packet has thrown. -/
  | testPacket
  /-- "Cannot send. Path has a Maximum Packet Amount of 0" -/
  | maximumPacketAmount
  /-- "Connection terminated before rate could be determined." -/
  | terminated
  /-- "Unable to establish connection, no packets meeting the minimum exchange precision" -/
  | precision
  deriving DecidableEq

namespace TestEnvironment

variable (env : TestEnvironment)

/-- `sendTestPacketVolley`. -/
def sendTestPacketVolley (attempts : ℕ) (testPacketAmounts : List Long) : Option TestVolleyResult := do
  let results ← env.sendTestPackets attempts 0 testPacketAmounts
  results.foldlM TestVolleyResult.add
    { maxDigits := 0
      exchangeRate := .uzero
      maxPacketAmounts := results.map fun p => p.2.maxPacketAmount p.1
      packetErrors := [] }

/-- The `while` loop of `determineExchangeRate`, with the attempts that are left, and the `throw` after it. -/
def determineLoop (minExchangeRatePrecision : ℕ) : (left attempts : ℕ) → List Long → CongestionController →
    Except RateError Rational × CongestionController
  | 0, _, _, congestion => (.error .precision, congestion)
  | left + 1, attempts, testPacketAmounts, congestion =>
    if testPacketAmounts = [] then (.error .precision, congestion)
    else
      match env.sendTestPacketVolley attempts testPacketAmounts with
      | none => (.error .testPacket, congestion)
      | some result =>
        let congestion := congestion.setMaximumAmounts
          (minLongs (result.maxPacketAmounts ++ [congestion.getMaximumPacketAmount]))
        if congestion.getMaximumPacketAmount = 0 then (.error .maximumPacketAmount, congestion)
        else if result.maxDigits ≥ minExchangeRatePrecision then (.ok result.exchangeRate, congestion)
        else if result.isTemporary then
          if env.wait attempts then
            determineLoop minExchangeRatePrecision left (attempts + 1)
              (result.testPacketAmounts ++ [result.reducedPacketAmount]) congestion
          else (.error .terminated, congestion)
        else determineLoop minExchangeRatePrecision left (attempts + 1) result.testPacketAmounts congestion

/-- `determineExchangeRate`. -/
def determineExchangeRate (minExchangeRatePrecision : ℕ) (congestion : CongestionController) :
    Except RateError Rational × CongestionController :=
  env.determineLoop minExchangeRatePrecision testPacketMaxAttempts 0 firstTestPacketAmounts congestion

end TestEnvironment

/-! ### Volleys -/

section Volleys

variable {env : TestEnvironment}

theorem TestEnvironment.map_fst_of_sendTestPackets {attempts index : ℕ} {amounts : List Long}
    {results : List (Long × TestReply)} (h : env.sendTestPackets attempts index amounts = some results) :
    results.map Prod.fst = amounts := by
  induction amounts generalizing index results with
  | nil =>
    obtain rfl := Option.some.inj h
    rfl
  | cons amount amounts ih =>
    obtain ⟨result, -, h⟩ := Option.bind_eq_some_iff.mp h
    obtain ⟨rest, h_rest, h⟩ := Option.bind_eq_some_iff.mp h
    obtain rfl := Option.some.inj h
    rw [List.map_cons, ih h_rest]

/-- Each result is what a test packet resolves to. -/
theorem TestEnvironment.of_mem_sendTestPackets {attempts index : ℕ} {amounts : List Long}
    {results : List (Long × TestReply)} (h : env.sendTestPackets attempts index amounts = some results)
    {p : Long × TestReply} (h_mem : p ∈ results) :
    ∃ i, env.sendTestPacket attempts i p.1 = some p.2 := by
  induction amounts generalizing index results with
  | nil =>
    obtain rfl := Option.some.inj h
    cases h_mem
  | cons amount amounts ih =>
    obtain ⟨result, h_result, h⟩ := Option.bind_eq_some_iff.mp h
    obtain ⟨rest, h_rest, h⟩ := Option.bind_eq_some_iff.mp h
    obtain rfl := Option.some.inj h
    obtain rfl | h_mem := List.mem_cons.mp h_mem
    · exact ⟨index, h_result⟩
    · exact ih h_rest h_mem

/-- All of them resolve unless one throws. -/
theorem TestEnvironment.sendTestPackets_isSome {attempts : ℕ} {amounts : List Long}
    (h : ∀ index, ∀ amount ∈ amounts, ∃ result, env.sendTestPacket attempts index amount = some result) (index : ℕ) :
    ∃ results, env.sendTestPackets attempts index amounts = some results := by
  induction amounts generalizing index with
  | nil => exact ⟨[], rfl⟩
  | cons amount amounts ih =>
    obtain ⟨result, h_result⟩ := h index amount List.mem_cons_self
    obtain ⟨results, h_results⟩ := ih (fun i a h_mem => h i a (List.mem_cons_of_mem _ h_mem)) (index + 1)
    refine ⟨(amount, result) :: results, ?_⟩
    unfold sendTestPackets
    rw [h_result, h_results]
    rfl

/-- A result of a volley: the rate is that of a packet with the most digits, if there is one with any. -/
structure TestVolleyResult.Sums (result : TestVolleyResult) (results : List (Long × TestReply)) : Prop where
  found : 0 < result.maxDigits → ∃ amount responsePacket, (amount, .packet responsePacket) ∈ results ∧
    result.exchangeRate.a = responsePacket.prepareAmount ∧ result.exchangeRate.b = amount ∧
    countDigits responsePacket.prepareAmount = result.maxDigits
  most : ∀ amount responsePacket, (amount, TestReply.packet responsePacket) ∈ results →
    countDigits responsePacket.prepareAmount ≤ result.maxDigits
  errors : ∀ error ∈ result.packetErrors, ∃ ilpReject, (error.1, TestReply.reject ilpReject) ∈ results ∧
    ilpReject.code = error.2

/-- One result more. -/
theorem TestVolleyResult.Sums.add {acc result : TestVolleyResult} {results : List (Long × TestReply)}
    {p : Long × TestReply} (h : acc.Sums results) (h_add : acc.add p = some result) :
    result.Sums (results ++ [p]) ∧ result.maxPacketAmounts = acc.maxPacketAmounts := by
  have h_old {q : Long × TestReply} (h_mem : q ∈ results) : q ∈ results ++ [p] := List.mem_append_left _ h_mem
  -- what the earlier replies showed they still show
  have h_found (h_pos : 0 < acc.maxDigits) : ∃ amount responsePacket,
      (amount, TestReply.packet responsePacket) ∈ results ++ [p] ∧
        acc.exchangeRate.a = responsePacket.prepareAmount ∧ acc.exchangeRate.b = amount ∧
        countDigits responsePacket.prepareAmount = acc.maxDigits := by
    obtain ⟨amount, responsePacket, h_mem, h_rest⟩ := h.found h_pos
    exact ⟨amount, responsePacket, h_old h_mem, h_rest⟩
  have h_errors (error : Long × IlpErrorCode) (h_mem : error ∈ acc.packetErrors) : ∃ ilpReject,
      (error.1, TestReply.reject ilpReject) ∈ results ++ [p] ∧ ilpReject.code = error.2 := by
    obtain ⟨ilpReject, h_reject, h_code⟩ := h.errors error h_mem
    exact ⟨ilpReject, h_old h_reject, h_code⟩
  obtain ⟨sourceAmount, reply⟩ := p
  -- only a reply that tells what arrived may change the rate
  cases reply with
  | null =>
    obtain rfl := Option.some.inj h_add
    refine ⟨⟨h_found, fun amount responsePacket h_mem => ?_, h_errors⟩, rfl⟩
    obtain h_mem | h_mem := List.mem_append.mp h_mem
    · exact h.most amount responsePacket h_mem
    · cases List.mem_singleton.mp h_mem
  | reject ilpReject =>
    obtain rfl := Option.some.inj h_add
    refine ⟨⟨h_found, fun amount responsePacket h_mem => ?_, fun error h_mem => ?_⟩, rfl⟩
    · obtain h_mem | h_mem := List.mem_append.mp h_mem
      · exact h.most amount responsePacket h_mem
      · cases List.mem_singleton.mp h_mem
    · obtain h_mem | h_mem := List.mem_append.mp h_mem
      · exact h_errors error h_mem
      · obtain rfl := List.mem_singleton.mp h_mem
        exact ⟨ilpReject, List.mem_append_right _ (List.mem_singleton.mpr rfl), rfl⟩
  | packet responsePacket =>
    simp only [TestVolleyResult.add] at h_add
    by_cases h_zero : sourceAmount = 0
    · rw [dif_pos h_zero] at h_add
      cases h_add
    rw [dif_neg h_zero] at h_add
    by_cases h_more : countDigits responsePacket.prepareAmount ≥ acc.maxDigits
    · rw [if_pos h_more] at h_add
      obtain rfl := Option.some.inj h_add
      -- it has as many digits as the best so far, or more, and takes its place
      refine ⟨⟨fun _ => ?_, fun amount packet h_mem => ?_, h_errors⟩, rfl⟩
      · exact ⟨sourceAmount, responsePacket, List.mem_append_right _ (List.mem_singleton.mpr rfl), rfl, rfl, rfl⟩
      · obtain h_mem | h_mem := List.mem_append.mp h_mem
        · exact (h.most amount packet h_mem).trans h_more
        · cases List.mem_singleton.mp h_mem
          exact le_rfl
    · rw [if_neg h_more] at h_add
      obtain rfl := Option.some.inj h_add
      -- it has fewer digits, and the best stays
      refine ⟨⟨h_found, fun amount packet h_mem => ?_, h_errors⟩, rfl⟩
      obtain h_mem | h_mem := List.mem_append.mp h_mem
      · exact h.most amount packet h_mem
      · cases List.mem_singleton.mp h_mem
        exact (not_le.mp h_more).le

/-- All of the results. -/
theorem TestVolleyResult.Sums.foldlM {acc result : TestVolleyResult} {results more : List (Long × TestReply)}
    (h : acc.Sums results) (h_fold : more.foldlM TestVolleyResult.add acc = some result) :
    result.Sums (results ++ more) ∧ result.maxPacketAmounts = acc.maxPacketAmounts := by
  induction more generalizing acc results with
  | nil =>
    obtain rfl := Option.some.inj h_fold
    rw [List.append_nil]
    exact ⟨h, rfl⟩
  | cons p more ih =>
    rw [List.foldlM_cons] at h_fold
    obtain ⟨next, h_next, h_fold⟩ := Option.bind_eq_some_iff.mp h_fold
    obtain ⟨h_sums, h_amounts⟩ := h.add h_next
    obtain ⟨h_all, h_same⟩ := ih h_sums h_fold
    rw [List.append_assoc, List.singleton_append] at h_all
    exact ⟨h_all, h_same.trans h_amounts⟩

/-- **What a volley finds.** -/
theorem TestEnvironment.sums_of_sendTestPacketVolley {attempts : ℕ} {amounts : List Long} {result : TestVolleyResult}
    (h : env.sendTestPacketVolley attempts amounts = some result) :
    ∃ results, env.sendTestPackets attempts 0 amounts = some results ∧ result.Sums results ∧
      result.maxPacketAmounts = results.map fun p => p.2.maxPacketAmount p.1 := by
  obtain ⟨results, h_results, h_fold⟩ := Option.bind_eq_some_iff.mp h
  have h_none : TestVolleyResult.Sums
      { maxDigits := 0
        exchangeRate := .uzero
        maxPacketAmounts := results.map fun p => p.2.maxPacketAmount p.1
        packetErrors := [] } [] := by
    refine ⟨fun h_pos => absurd h_pos (Nat.lt_irrefl 0), ?_, ?_⟩
    · intro amount responsePacket h_mem
      cases h_mem
    · intro error h_mem
      cases h_mem
  obtain ⟨h_sums, h_amounts⟩ := h_none.foldlM h_fold
  exact ⟨results, h_results, h_sums, h_amounts⟩

end Volleys

/-! ### The loop -/

/-- The least of some amounts is one of them. -/
theorem foldl_minLong_mem (value : Long) (values : List Long) : values.foldl minLong value ∈ value :: values := by
  induction values generalizing value with
  | nil => exact List.mem_singleton.mpr rfl
  | cons next values ih =>
    rw [List.foldl_cons]
    obtain h_first | h_rest := List.mem_cons.mp (ih (minLong value next))
    · rw [h_first]
      unfold minLong
      split
      · exact List.mem_cons_self
      · exact List.mem_cons_of_mem _ List.mem_cons_self
    · exact List.mem_cons_of_mem _ (List.mem_cons_of_mem _ h_rest)

/-- The least of some amounts is no more than any of them. -/
theorem foldl_minLong_le {value amount : Long} {values : List Long} (h : amount ∈ value :: values) :
    values.foldl minLong value ≤ amount := by
  induction values generalizing value amount with
  | nil =>
    obtain rfl := List.mem_singleton.mp h
    exact BitVec.le_refl _
  | cons next values ih =>
    have h_both : minLong value next ≤ value ∧ minLong value next ≤ next := by
      unfold minLong
      split
      · next h_lt => exact ⟨BitVec.le_refl _, BitVec.le_of_lt h_lt⟩
      · next h_not => exact ⟨BitVec.not_lt.mp h_not, BitVec.le_refl _⟩
    rw [List.foldl_cons]
    obtain rfl | h := List.mem_cons.mp h
    · exact BitVec.le_trans (ih List.mem_cons_self) h_both.1
    · obtain rfl | h := List.mem_cons.mp h
      · exact BitVec.le_trans (ih List.mem_cons_self) h_both.2
      · exact ih (List.mem_cons_of_mem _ h)

theorem minLongs_mem {values : List Long} (h : values ≠ []) : minLongs values ∈ values := by
  cases values with
  | nil => exact absurd rfl h
  | cons value values => exact foldl_minLong_mem value values

theorem minLongs_le {values : List Long} {amount : Long} (h : amount ∈ values) : minLongs values ≤ amount := by
  cases values with
  | nil => cases h
  | cons value values => exact foldl_minLong_le h

namespace CongestionController

variable {cc : CongestionController}

/-- The maximum after a volley. -/
def afterVolley (cc : CongestionController) (result : TestVolleyResult) : CongestionController :=
  cc.setMaximumAmounts (minLongs (result.maxPacketAmounts ++ [cc.getMaximumPacketAmount]))

/-- It is the least that was said, or what it was before. -/
theorem getMaximumPacketAmount_afterVolley (cc : CongestionController) (result : TestVolleyResult) :
    (cc.afterVolley result).getMaximumPacketAmount =
      minLongs (result.maxPacketAmounts ++ [cc.getMaximumPacketAmount]) := by
  have h_le : minLongs (result.maxPacketAmounts ++ [cc.getMaximumPacketAmount]) ≤ cc.getMaximumPacketAmount :=
    minLongs_le (List.mem_append_right _ (List.mem_singleton.mpr rfl))
  have h_fixed : cc.getMaximumPacketAmount ≤ cc.fixedPacketAmount := by
    unfold getMaximumPacketAmount minLong
    split
    · next h_lt => exact BitVec.le_of_lt h_lt
    · exact BitVec.le_refl _
  unfold afterVolley setMaximumAmounts
  rw [getMaximumPacketAmount]
  unfold minLong
  split
  · rfl
  · next h_not => exact BitVec.le_antisymm (BitVec.not_lt.mp h_not) (BitVec.le_trans h_le h_fixed)

theorem getMaximumPacketAmount_afterVolley_le (cc : CongestionController) (result : TestVolleyResult) :
    (cc.afterVolley result).getMaximumPacketAmount ≤ cc.getMaximumPacketAmount := by
  rw [getMaximumPacketAmount_afterVolley]
  exact minLongs_le (List.mem_append_right _ (List.mem_singleton.mpr rfl))

end CongestionController

namespace TestEnvironment

variable {env : TestEnvironment} {precision left attempts : ℕ} {amounts : List Long}
  {cc cc' : CongestionController} {rate : Rational}

/-- An attempt whose volley comes back. -/
theorem determineLoop_succ {result : TestVolleyResult} (h_amounts : amounts ≠ [])
    (h_volley : env.sendTestPacketVolley attempts amounts = some result) :
    env.determineLoop precision (left + 1) attempts amounts cc =
      if (cc.afterVolley result).getMaximumPacketAmount = 0 then
        (.error .maximumPacketAmount, cc.afterVolley result)
      else if result.maxDigits ≥ precision then (.ok result.exchangeRate, cc.afterVolley result)
      else if result.isTemporary then
        if env.wait attempts then
          env.determineLoop precision left (attempts + 1) (result.testPacketAmounts ++ [result.reducedPacketAmount])
            (cc.afterVolley result)
        else (.error .terminated, cc.afterVolley result)
      else env.determineLoop precision left (attempts + 1) result.testPacketAmounts (cc.afterVolley result) := by
  rw [determineLoop, if_neg h_amounts, h_volley]
  rfl

/-- The maximum has only fallen, and to zero exactly if that is the error. -/
def Falls (cc : CongestionController) (found : Except RateError Rational × CongestionController) : Prop :=
  found.2.getMaximumPacketAmount ≤ cc.getMaximumPacketAmount ∧
    (found.1 = .error .maximumPacketAmount ↔ found.2.getMaximumPacketAmount = 0)

/-- Whatever else it ends with leaves the maximum. -/
theorem falls_of_ne {x : Except RateError Rational} (h_le : cc'.getMaximumPacketAmount ≤ cc.getMaximumPacketAmount)
    (h_pos : cc'.getMaximumPacketAmount ≠ 0) (h_x : x ≠ .error .maximumPacketAmount) : Falls cc (x, cc') :=
  ⟨h_le, fun h => absurd h h_x, fun h => absurd h h_pos⟩

/-- **The maximum only falls**, and falls to zero exactly when nothing can be sent. -/
theorem determineLoop_falls (h_max : cc.getMaximumPacketAmount ≠ 0) :
    Falls cc (env.determineLoop precision left attempts amounts cc) := by
  -- induction on the number of volleys that are left
  induction left generalizing attempts amounts cc with
  | zero => exact falls_of_ne (BitVec.le_refl _) h_max nofun
  | succ left ih =>
    by_cases h_amounts : amounts = []
    · rw [determineLoop, if_pos h_amounts]
      exact falls_of_ne (BitVec.le_refl _) h_max nofun
    cases h_volley : env.sendTestPacketVolley attempts amounts with
    | none =>
      rw [determineLoop, if_neg h_amounts, h_volley]
      exact falls_of_ne (BitVec.le_refl _) h_max nofun
    | some result =>
      -- a volley only lowers the maximum, and a maximum of zero ends the loop
      have h_le := cc.getMaximumPacketAmount_afterVolley_le result
      rw [determineLoop_succ h_amounts h_volley]
      by_cases h_zero : (cc.afterVolley result).getMaximumPacketAmount = 0
      · rw [if_pos h_zero]
        exact ⟨h_le, fun _ => h_zero, fun _ => rfl⟩
      have h_next {attempts : ℕ} {amounts : List Long} :
          Falls cc (env.determineLoop precision left attempts amounts (cc.afterVolley result)) := by
        obtain ⟨h_fall, h_iff⟩ := ih h_zero
        exact ⟨BitVec.le_trans h_fall h_le, h_iff⟩
      rw [if_neg h_zero]
      -- the rate is precise enough, or the volleys are repeated or go on
      split
      · exact falls_of_ne h_le h_zero nofun
      · split
        · split
          · exact h_next
          · exact falls_of_ne h_le h_zero nofun
        · exact h_next

/-- **The rate is that of a volley** that was precise enough. The amounts of all volleys have a property that
the first ones have, and those have that come of a volley. -/
theorem determineLoop_ok {P : Long → Prop}
    (h_next : ∀ attempts amounts result, (∀ amount ∈ amounts, P amount) →
      env.sendTestPacketVolley attempts amounts = some result →
        (∀ amount ∈ result.testPacketAmounts, P amount) ∧ (result.isTemporary = true → P result.reducedPacketAmount))
    (h_amounts : ∀ amount ∈ amounts, P amount)
    (h : (env.determineLoop precision left attempts amounts cc).1 = .ok rate) :
    ∃ i amounts result, i < attempts + left ∧ (∀ amount ∈ amounts, P amount) ∧
      env.sendTestPacketVolley i amounts = some result ∧ precision ≤ result.maxDigits ∧
      result.exchangeRate = rate := by
  -- induction on the volleys that are left; the loop ends with a rate after one that was precise
  induction left generalizing attempts amounts cc with
  | zero => cases h
  | succ left ih =>
    by_cases h_none : amounts = []
    · rw [determineLoop, if_pos h_none] at h
      cases h
    cases h_volley : env.sendTestPacketVolley attempts amounts with
    | none =>
      rw [determineLoop, if_neg h_none, h_volley] at h
      cases h
    | some result =>
      -- the amounts of the next volley come from this one
      obtain ⟨h_tested, h_reduced⟩ := h_next attempts amounts result h_amounts h_volley
      rw [determineLoop_succ h_none h_volley] at h
      split at h
      · cases h
      · split at h
        · next h_precise =>
          exact ⟨attempts, amounts, result, Nat.lt_add_of_pos_right (Nat.succ_pos left), h_amounts, h_volley,
            h_precise, Except.ok.inj h⟩
        · split at h
          · next h_temporary =>
            split at h
            · -- a temporary error, after which the volley is repeated with a smaller amount
              have h_all : ∀ amount ∈ result.testPacketAmounts ++ [result.reducedPacketAmount], P amount := by
                intro amount h_mem
                obtain h_mem | h_mem := List.mem_append.mp h_mem
                · exact h_tested amount h_mem
                · rw [List.mem_singleton.mp h_mem]
                  exact h_reduced h_temporary
              obtain ⟨i, amounts', result', h_lt, h_rest⟩ := ih h_all h
              exact ⟨i, amounts', result', by omega, h_rest⟩
            · cases h
          · obtain ⟨i, amounts', result', h_lt, h_rest⟩ := ih h_tested h
            exact ⟨i, amounts', result', by omega, h_rest⟩

/-- A packet of the receiver answers the test packet. -/
theorem of_sendTestPacket {attempts index : ℕ} {amount : Long} {responsePacket : Packet}
    (h : env.sendTestPacket attempts index amount = some (.packet responsePacket)) :
    ∃ ilpReject, env.sendData attempts index amount = .replied (.reject ilpReject) ∧
      env.decryptAndDeserialize ilpReject.data = some responsePacket ∧
      responsePacket.sequence = env.sequence attempts index := by
  unfold sendTestPacket at h
  -- only a Reject with data that decrypts tells what arrived
  cases h_data : env.sendData attempts index amount with
  | failed =>
    rw [h_data] at h
    cases h
  | timedOut =>
    rw [h_data] at h
    cases h
  | replied data =>
    rw [h_data] at h
    cases data with
    | fulfill response => cases h
    | invalid message => cases h
    | reject ilpReject =>
      simp only at h
      split at h
      · cases h_decrypt : env.decryptAndDeserialize ilpReject.data with
        | none =>
          rw [h_decrypt] at h
          cases h
        | some packet =>
          rw [h_decrypt] at h
          simp only at h
          split_ifs at h with h_sequence h_type
          obtain rfl := TestReply.packet.inj (Option.some.inj h)
          exact ⟨ilpReject, rfl, h_decrypt, not_not.mp h_sequence⟩
      · cases h

/-- **The rate is one that was seen.** On any path, with any replies in any volley, a rate that is found is the
ratio of what arrived to what was sent, for a test packet to which the receiver replied under the key of the
connection. It has as many digits as asked for, and no other packet of its volley has more. The maximum packet
amount only falls, and it falls to zero exactly when the connection fails because nothing can be sent. -/
theorem determineExchangeRate_sound (env : TestEnvironment) {precision : ℕ} (h_precision : 0 < precision)
    {cc : CongestionController} (h_max : cc.getMaximumPacketAmount ≠ 0) :
    (∀ rate, (env.determineExchangeRate precision cc).1 = .ok rate →
      ∃ attempts < testPacketMaxAttempts, ∃ index ilpReject responsePacket amounts results,
        env.sendData attempts index rate.b = .replied (.reject ilpReject) ∧
        env.decryptAndDeserialize ilpReject.data = some responsePacket ∧
        responsePacket.sequence = env.sequence attempts index ∧
        rate.a = responsePacket.prepareAmount ∧ precision ≤ countDigits rate.a ∧
        env.sendTestPackets attempts 0 amounts = some results ∧ rate.b ∈ amounts ∧
        ∀ amount packet, (amount, TestReply.packet packet) ∈ results →
          countDigits packet.prepareAmount ≤ countDigits rate.a) ∧
      (env.determineExchangeRate precision cc).2.getMaximumPacketAmount ≤ cc.getMaximumPacketAmount ∧
      ((env.determineExchangeRate precision cc).1 = .error .maximumPacketAmount ↔
        (env.determineExchangeRate precision cc).2.getMaximumPacketAmount = 0) := by
  refine ⟨fun rate h => ?_, determineLoop_falls h_max⟩
  -- nothing is needed of the amounts
  have h_any : ∀ attempts amounts result, (∀ amount ∈ amounts, True) →
      env.sendTestPacketVolley attempts amounts = some result →
        (∀ amount ∈ result.testPacketAmounts, True) ∧ (result.isTemporary = true → True) :=
    fun _ _ _ _ _ => ⟨fun _ _ => trivial, fun _ => trivial⟩
  -- the rate comes from the reply with the most digits of the last volley
  obtain ⟨attempts, amounts, result, h_lt, -, h_volley, h_precise, rfl⟩ :=
    determineLoop_ok h_any (fun _ _ => trivial) h
  rw [Nat.zero_add] at h_lt
  obtain ⟨results, h_results, h_sums, -⟩ := sums_of_sendTestPacketVolley h_volley
  obtain ⟨amount, responsePacket, h_mem, h_a, h_b, h_digits⟩ := h_sums.found (h_precision.trans_le h_precise)
  obtain ⟨index, h_sent⟩ := of_mem_sendTestPackets h_results h_mem
  obtain ⟨ilpReject, h_data, h_decrypt, h_sequence⟩ := of_sendTestPacket h_sent
  refine ⟨attempts, h_lt, index, ilpReject, responsePacket, amounts, results, ?_, h_decrypt, h_sequence, h_a, ?_,
    h_results, ?_, ?_⟩
  · rw [h_b]
    exact h_data
  · rw [h_a, h_digits]
    exact h_precise
  · rw [h_b, ← map_fst_of_sendTestPackets h_results]
    exact List.mem_map_of_mem h_mem
  · intro amount' packet' h_mem'
    rw [h_a, h_digits]
    exact h_sums.most amount' packet' h_mem'

/-- A receiver that has got three hundred units of every packet. -/
def sampleEnvironment : TestEnvironment where
  decryptAndDeserialize _ := some { sequence := 0, ilpPacketType := .reject, prepareAmount := 300, frames := [] }
  sequence _ _ := 0
  sendData _ _ _ := .replied (.reject ⟨.f99ApplicationError, [1]⟩)
  wait _ := true

/-- The rate is that of the last packet. -/
theorem determineExchangeRate_sound_sample : ∃ rate,
    (sampleEnvironment.determineExchangeRate 3 {}).1 = .ok rate ∧ rate.a = 300 ∧ 3 ≤ countDigits rate.a := by
  have h_found : (sampleEnvironment.determineExchangeRate 3 {}).1.toOption.map (fun rate => rate.a) = some 300 := by
    decide +kernel
  cases h : (sampleEnvironment.determineExchangeRate 3 {}).1 with
  | error e =>
    rw [h] at h_found
    cases h_found
  | ok rate =>
    rw [h] at h_found
    have h_precision : 0 < 3 := by decide
    have h_max : ({} : CongestionController).getMaximumPacketAmount ≠ 0 := by decide
    obtain ⟨h_sound, -⟩ := determineExchangeRate_sound sampleEnvironment h_precision h_max
    obtain ⟨-, -, -, -, -, -, -, -, -, -, -, h_digits, -⟩ := h_sound rate h
    exact ⟨rate, rfl, Option.some.inj h_found, h_digits⟩

end TestEnvironment

/-! ### Paths with a constant rate -/

/-- A path with a constant rate. A connector on it, which the packets reach at a rate of its own, takes no more
than a maximum amount. The largest test packet reaches it as `2 ^ 63` at most, for which `multiplyDivideFloor`
is right. -/
structure TestPath where
  rate : ℚ
  upstream : ℚ
  maximumAmount : Long
  rate_nonneg : 0 ≤ rate
  upstream_nonneg : 0 ≤ upstream
  upstream_le : upstream * 10 ^ 12 ≤ 2 ^ 63

/-- The amounts of the first volley, as numbers. -/
theorem map_toNat_firstTestPacketAmounts :
    firstTestPacketAmounts.map BitVec.toNat = [1, 1000, 1000000, 1000000000, 1000000000000] := by
  decide

/-- They are not too large, and none is zero. -/
theorem firstTestPacketAmounts_le : ∀ amount ∈ firstTestPacketAmounts, amount.toNat ≤ 10 ^ 12 := by
  intro amount h_mem
  have h_toNat := List.mem_map_of_mem (f := BitVec.toNat) h_mem
  rw [map_toNat_firstTestPacketAmounts] at h_toNat
  simp only [List.mem_cons, List.not_mem_nil, or_false] at h_toNat
  norm_num
  omega

theorem firstTestPacketAmounts_ne : ∀ amount ∈ firstTestPacketAmounts, amount ≠ 0 := by
  rintro amount h_mem rfl
  have h_toNat := List.mem_map_of_mem (f := BitVec.toNat) h_mem
  rw [map_toNat_firstTestPacketAmounts] at h_toNat
  simp at h_toNat

namespace TestPath

variable (path : TestPath) (amount : Long)

/-- What reaches the connector. -/
def received : ℕ := ⌊path.upstream * amount.toNat⌋₊

/-- What reaches the receiver, if the connector takes it. -/
def delivered : ℕ := ⌊path.rate * amount.toNat⌋₊

/-- The connector takes the packet. -/
def Takes : Prop := path.received amount ≤ path.maximumAmount.toNat

end TestPath

/-- Test packets follow the path: the receiver says what has arrived, and the connector what it takes. -/
structure TestEnvironment.Follows (env : TestEnvironment) (path : TestPath) : Prop where
  delivers : ∀ attempts index amount, amount.toNat ≤ 10 ^ 12 → path.Takes amount →
    ∃ responsePacket, env.sendTestPacket attempts index amount = some (.packet responsePacket) ∧
      responsePacket.prepareAmount.toNat = path.delivered amount
  refuses : ∀ attempts index amount, amount.toNat ≤ 10 ^ 12 → ¬path.Takes amount →
    ∃ ilpReject receivedAmount, env.sendTestPacket attempts index amount = some (.reject ilpReject) ∧
      ilpReject.code = .f08AmountTooLarge ∧
      CongestionController.receivedAndMaximumAmount ilpReject.data = some (receivedAmount, path.maximumAmount) ∧
      receivedAmount.toNat = path.received amount

section Paths

variable {path : TestPath} {amount : Long}

theorem TestPath.received_le (h : amount.toNat ≤ 10 ^ 12) : path.received amount ≤ 2 ^ 63 := by
  have h_amount : (amount.toNat : ℚ) ≤ 10 ^ 12 := by exact_mod_cast h
  have h_product : path.upstream * amount.toNat ≤ ((2 ^ 63 : ℕ) : ℚ) :=
    calc path.upstream * amount.toNat
      _ ≤ path.upstream * 10 ^ 12 := mul_le_mul_of_nonneg_left h_amount path.upstream_nonneg
      _ ≤ 2 ^ 63 := path.upstream_le
      _ = ((2 ^ 63 : ℕ) : ℚ) := by norm_num
  exact Nat.floor_le_of_le h_product

/-- **What a connector says is a good next amount**: it takes it, and no whole amount up to its maximum is
larger. -/
theorem TestPath.maxPacketAmount_spec {ilpReject : IlpReject} {receivedAmount : Long}
    (h_tested : amount.toNat ≤ 10 ^ 12) (h_refused : ¬path.Takes amount)
    (h_code : ilpReject.code = .f08AmountTooLarge)
    (h_data : CongestionController.receivedAndMaximumAmount ilpReject.data = some (receivedAmount, path.maximumAmount))
    (h_received : receivedAmount.toNat = path.received amount) :
    ((TestReply.reject ilpReject).maxPacketAmount amount).toNat ≤ 10 ^ 12 ∧
      path.Takes ((TestReply.reject ilpReject).maxPacketAmount amount) ∧
      ∀ n : ℕ, path.upstream * n ≤ path.maximumAmount.toNat →
        n ≤ ((TestReply.reject ilpReject).maxPacketAmount amount).toNat := by
  -- more arrived than the connector takes, so that the new amount is a quotient below the old one
  have h_more : path.maximumAmount.toNat < receivedAmount.toNat := by
    rw [h_received]
    exact not_le.mp h_refused
  have h_pos : 0 < receivedAmount.toNat := Nat.zero_lt_of_lt h_more
  have h_ne : receivedAmount ≠ 0 := by
    rintro rfl
    exact Nat.lt_irrefl 0 h_pos
  have h_small : receivedAmount.toNat ≤ 2 ^ 63 := by
    rw [h_received]
    exact received_le h_tested
  -- the quotient is below the amount
  have h_quotient_le : amount.toNat * path.maximumAmount.toNat / receivedAmount.toNat ≤ amount.toNat := by
    apply Nat.div_le_of_le_mul
    rw [Nat.mul_comm]
    exact Nat.mul_le_mul_right _ h_more.le
  have h_lt : amount.toNat * path.maximumAmount.toNat / receivedAmount.toNat < 2 ^ 64 :=
    h_quotient_le.trans_lt amount.isLt
  -- which is computed without overflow, since what arrived is at most `2 ^ 63`
  obtain ⟨quotient, h_floor, h_quotient⟩ :=
    (MultiplyDivideExact.of_fits h_ne ⟨.of_le h_pos h_small, .inl h_lt⟩).floor
  have h_value : (TestReply.reject ilpReject).maxPacketAmount amount = quotient := by
    simp only [TestReply.maxPacketAmount, if_pos h_code, h_data, h_floor, Option.getD_some]
  rw [saturate, Nat.min_eq_left (Nat.le_sub_one_of_lt h_lt)] at h_quotient
  rw [h_value, h_quotient]
  have h_positive : (0 : ℚ) < receivedAmount.toNat := by exact_mod_cast h_pos
  -- what arrived was rounded down
  have h_arrived : (receivedAmount.toNat : ℚ) ≤ path.upstream * amount.toNat := by
    rw [h_received]
    exact Nat.floor_le (mul_nonneg path.upstream_nonneg (Nat.cast_nonneg _))
  refine ⟨h_quotient_le.trans h_tested, ?_, fun n hn => ?_⟩
  · have h_above : path.upstream * amount.toNat < receivedAmount.toNat + 1 := by
      rw [h_received]
      exact Nat.lt_floor_add_one _
    have h_div : (quotient.toNat : ℚ) ≤ amount.toNat * path.maximumAmount.toNat / receivedAmount.toNat := by
      rw [h_quotient]
      exact_mod_cast Nat.cast_div_le
    have h_ratio : (path.maximumAmount.toNat : ℚ) / receivedAmount.toNat < 1 := by
      rw [div_lt_one h_positive]
      exact_mod_cast h_more
    -- what arrives of it exceeds the maximum by less than one
    have h_next : path.upstream * quotient.toNat < path.maximumAmount.toNat + 1 :=
      calc path.upstream * quotient.toNat
        _ ≤ path.upstream * (amount.toNat * path.maximumAmount.toNat / receivedAmount.toNat) :=
            mul_le_mul_of_nonneg_left h_div path.upstream_nonneg
        _ = path.upstream * amount.toNat * (path.maximumAmount.toNat / receivedAmount.toNat) := by ring
        _ ≤ (receivedAmount.toNat + 1) * (path.maximumAmount.toNat / receivedAmount.toNat) :=
            mul_le_mul_of_nonneg_right h_above.le (by positivity)
        _ = path.maximumAmount.toNat + path.maximumAmount.toNat / receivedAmount.toNat := by
            field_simp
        _ < path.maximumAmount.toNat + 1 := by linarith
    unfold Takes received
    -- so that it is taken
    have h_floor_lt : ⌊path.upstream * quotient.toNat⌋₊ < path.maximumAmount.toNat + 1 := by
      rw [Nat.floor_lt (mul_nonneg path.upstream_nonneg (Nat.cast_nonneg _))]
      exact_mod_cast h_next
    exact Nat.le_of_lt_succ h_floor_lt
  · rw [Nat.le_div_iff_mul_le h_pos]
    -- an amount that is taken is not above the quotient
    have h_cross : (n : ℚ) * receivedAmount.toNat ≤ amount.toNat * path.maximumAmount.toNat :=
      calc (n : ℚ) * receivedAmount.toNat
        _ ≤ n * (path.upstream * amount.toNat) := mul_le_mul_of_nonneg_left h_arrived (Nat.cast_nonneg _)
        _ = path.upstream * n * amount.toNat := by ring
        _ ≤ path.maximumAmount.toNat * amount.toNat := mul_le_mul_of_nonneg_right hn (Nat.cast_nonneg _)
        _ = amount.toNat * path.maximumAmount.toNat := mul_comm _ _
    exact_mod_cast h_cross

/-- As many digits as the power of ten is a lower bound. -/
theorem le_countDigits_iff {precision : ℕ} (h_precision : 0 < precision) {value : Long} :
    precision ≤ countDigits value ↔ 10 ^ (precision - 1) ≤ value.toNat := by
  obtain ⟨k, rfl⟩ := Nat.exists_eq_succ_of_ne_zero h_precision.ne'
  unfold countDigits
  rw [Nat.succ_le_iff, Nat.lt_digits_length_iff (by norm_num), Nat.succ_eq_add_one, Nat.add_sub_cancel]

/-- The amounts that are tried next are those that were said. -/
theorem TestVolleyResult.mem_testPacketAmounts {result : TestVolleyResult} :
    amount ∈ result.testPacketAmounts ↔ amount ∈ result.maxPacketAmounts ∧ amount ≠ maxUnsignedValue := by
  have h_unique (values acc : List Long) :
      amount ∈ values.foldl (fun acc curr => if curr ∈ acc then acc else acc ++ [curr]) acc ↔
        amount ∈ acc ∨ amount ∈ values := by
    induction values generalizing acc with
    | nil => simp
    | cons value values ih =>
      rw [List.foldl_cons, ih]
      by_cases h_mem : value ∈ acc
      · rw [if_pos h_mem, List.mem_cons]
        constructor
        · rintro (h | h)
          · exact .inl h
          · exact .inr (.inr h)
        · rintro (h | rfl | h)
          · exact .inl h
          · exact .inl h_mem
          · exact .inr h
      · rw [if_neg h_mem, List.mem_append, List.mem_singleton, List.mem_cons, or_assoc]
  unfold testPacketAmounts uniqueAmounts
  rw [h_unique, List.mem_filter, decide_eq_true_eq]
  simp only [List.not_mem_nil, false_or]

namespace TestEnvironment

variable {env : TestEnvironment} {attempts : ℕ} {amounts : List Long} {result : TestVolleyResult}

/-- A packet of the receiver is what has arrived. -/
theorem Follows.of_packet (h : env.Follows path) {index : ℕ} {responsePacket : Packet} (h_tested : amount.toNat ≤ 10 ^ 12)
    (h_sent : env.sendTestPacket attempts index amount = some (.packet responsePacket)) :
    responsePacket.prepareAmount.toNat = path.delivered amount := by
  by_cases h_takes : path.Takes amount
  · obtain ⟨packet, h_packet, h_amount⟩ := h.delivers attempts index amount h_tested h_takes
    obtain rfl := TestReply.packet.inj (Option.some.inj (h_packet.symm.trans h_sent))
    exact h_amount
  · obtain ⟨ilpReject, -, h_reject, -⟩ := h.refuses attempts index amount h_tested h_takes
    cases h_reject.symm.trans h_sent

/-- **What is tried next** is taken. Errors are not temporary. -/
theorem Follows.next (h : env.Follows path) (h_tested : ∀ amount ∈ amounts, amount.toNat ≤ 10 ^ 12)
    (h_volley : env.sendTestPacketVolley attempts amounts = some result) :
    (∀ amount ∈ result.testPacketAmounts, amount.toNat ≤ 10 ^ 12 ∧ path.Takes amount ∧
      ∀ n : ℕ, path.upstream * n ≤ path.maximumAmount.toNat → n ≤ amount.toNat) ∧ result.isTemporary = false := by
  obtain ⟨results, h_results, h_sums, h_amounts⟩ := sums_of_sendTestPacketVolley h_volley
  -- every reply is to one of the amounts
  have h_mem {p : Long × TestReply} (hp : p ∈ results) : p.1.toNat ≤ 10 ^ 12 := by
    apply h_tested
    rw [← map_fst_of_sendTestPackets h_results]
    exact List.mem_map_of_mem hp
  constructor
  · intro amount h_next
    -- an amount of the next volley comes from an F08, and the connector takes it
    obtain ⟨h_said, h_known⟩ := TestVolleyResult.mem_testPacketAmounts.mp h_next
    rw [h_amounts] at h_said
    obtain ⟨p, hp, rfl⟩ := List.mem_map.mp h_said
    obtain ⟨index, h_sent⟩ := of_mem_sendTestPackets h_results hp
    by_cases h_takes : path.Takes p.1
    · obtain ⟨packet, h_packet, -⟩ := h.delivers attempts index p.1 (h_mem hp) h_takes
      rw [Option.some.inj (h_sent.symm.trans h_packet)] at h_known
      exact absurd rfl h_known
    · obtain ⟨ilpReject, received, h_reject, h_code, h_data, h_received⟩ :=
        h.refuses attempts index p.1 (h_mem hp) h_takes
      rw [Option.some.inj (h_sent.symm.trans h_reject)]
      exact TestPath.maxPacketAmount_spec (h_mem hp) h_takes h_code h_data h_received
  · apply Bool.eq_false_iff.mpr
    intro h_temporary
    -- and F08 is the only error on the path
    obtain ⟨error, h_error, h_code⟩ := List.any_eq_true.mp h_temporary
    obtain ⟨ilpReject, h_reject, h_same⟩ := h_sums.errors error h_error
    obtain ⟨index, h_sent⟩ := of_mem_sendTestPackets h_results h_reject
    by_cases h_takes : path.Takes error.1
    · obtain ⟨packet, h_packet, -⟩ := h.delivers attempts index error.1 (h_mem h_reject) h_takes
      cases h_packet.symm.trans h_sent
    · obtain ⟨reject, -, h_refused, h_f08, -⟩ := h.refuses attempts index error.1 (h_mem h_reject) h_takes
      obtain rfl := TestReply.reject.inj (Option.some.inj (h_refused.symm.trans h_sent))
      rw [← h_same, h_f08] at h_code
      exact absurd h_code (by decide)

/-- Results of amounts that are not zero add up. -/
theorem foldlM_add_isSome {results : List (Long × TestReply)} (h : ∀ p ∈ results, p.1 ≠ 0) (acc : TestVolleyResult) :
    ∃ result, results.foldlM TestVolleyResult.add acc = some result := by
  induction results generalizing acc with
  | nil => exact ⟨acc, rfl⟩
  | cons p results ih =>
    have h_add : ∃ next, acc.add p = some next := by
      obtain ⟨sourceAmount, reply⟩ := p
      cases reply with
      | null => exact ⟨_, rfl⟩
      | reject ilpReject => exact ⟨_, rfl⟩
      | packet responsePacket =>
        simp only [TestVolleyResult.add, dif_neg (h _ List.mem_cons_self)]
        split
        · exact ⟨_, rfl⟩
        · exact ⟨_, rfl⟩
    obtain ⟨next, h_next⟩ := h_add
    obtain ⟨result, h_result⟩ := ih (fun q hq => h q (List.mem_cons_of_mem _ hq)) next
    refine ⟨result, ?_⟩
    rw [List.foldlM_cons, h_next]
    exact h_result

/-- A volley of amounts that are not zero comes back, -/
theorem Follows.volley (h : env.Follows path) (h_tested : ∀ amount ∈ amounts, amount.toNat ≤ 10 ^ 12)
    (h_pos : ∀ amount ∈ amounts, amount ≠ 0) (attempts : ℕ) :
    ∃ result, env.sendTestPacketVolley attempts amounts = some result := by
  have h_each (index : ℕ) (amount : Long) (h_mem : amount ∈ amounts) :
      ∃ result, env.sendTestPacket attempts index amount = some result := by
    by_cases h_takes : path.Takes amount
    · obtain ⟨packet, h_packet, -⟩ := h.delivers attempts index amount (h_tested amount h_mem) h_takes
      exact ⟨_, h_packet⟩
    · obtain ⟨ilpReject, -, h_reject, -⟩ := h.refuses attempts index amount (h_tested amount h_mem) h_takes
      exact ⟨_, h_reject⟩
  obtain ⟨results, h_results⟩ := sendTestPackets_isSome h_each 0
  have h_nonzero (p : Long × TestReply) (hp : p ∈ results) : p.1 ≠ 0 := by
    apply h_pos
    rw [← map_fst_of_sendTestPackets h_results]
    exact List.mem_map_of_mem hp
  obtain ⟨result, h_result⟩ := foldlM_add_isSome h_nonzero
    { maxDigits := 0
      exchangeRate := .uzero
      maxPacketAmounts := results.map fun p => p.2.maxPacketAmount p.1
      packetErrors := [] }
  refine ⟨result, ?_⟩
  unfold sendTestPacketVolley
  rw [h_results]
  exact h_result

/-- and finds no fewer digits than those of an amount that is taken, or the amount is refused and there is one to
try next. -/
theorem Follows.of_mem (h : env.Follows path) (h_tested : ∀ amount ∈ amounts, amount.toNat ≤ 10 ^ 12)
    (h_volley : env.sendTestPacketVolley attempts amounts = some result) (h_mem : amount ∈ amounts) :
    (path.Takes amount ∧ ∃ value : Long, value.toNat = path.delivered amount ∧ countDigits value ≤ result.maxDigits) ∨
      (¬path.Takes amount ∧ ∃ next, next ∈ result.testPacketAmounts) := by
  obtain ⟨results, h_results, h_sums, h_amounts⟩ := sums_of_sendTestPacketVolley h_volley
  rw [← map_fst_of_sendTestPackets h_results] at h_mem
  obtain ⟨p, hp, rfl⟩ := List.mem_map.mp h_mem
  have h_le : p.1.toNat ≤ 10 ^ 12 := by
    apply h_tested
    rw [← map_fst_of_sendTestPackets h_results]
    exact h_mem
  obtain ⟨index, h_sent⟩ := of_mem_sendTestPackets h_results hp
  by_cases h_takes : path.Takes p.1
  · obtain ⟨packet, h_packet, h_amount⟩ := h.delivers attempts index p.1 h_le h_takes
    refine .inl ⟨h_takes, packet.prepareAmount, h_amount, ?_⟩
    apply h_sums.most p.1 packet
    rw [← Option.some.inj (h_sent.symm.trans h_packet)]
    exact hp
  · obtain ⟨ilpReject, received, h_reject, h_code, h_data, h_received⟩ :=
      h.refuses attempts index p.1 h_le h_takes
    obtain ⟨h_next, -, -⟩ := TestPath.maxPacketAmount_spec h_le h_takes h_code h_data h_received
    refine .inr ⟨h_takes, (TestReply.reject ilpReject).maxPacketAmount p.1,
      TestVolleyResult.mem_testPacketAmounts.mpr ⟨?_, ?_⟩⟩
    · rw [h_amounts, ← Option.some.inj (h_sent.symm.trans h_reject)]
      exact List.mem_map_of_mem hp
    · intro h_max
      rw [h_max, toNat_maxUnsignedValue] at h_next
      omega

/-- The maximum stays positive while there is an amount that the connector takes. -/
theorem Follows.getMaximumPacketAmount_ne (h : env.Follows path) {n : ℕ} (h_n : 0 < n)
    (h_taken : path.upstream * n ≤ path.maximumAmount.toNat) (h_tested : ∀ amount ∈ amounts, amount.toNat ≤ 10 ^ 12)
    (h_volley : env.sendTestPacketVolley attempts amounts = some result) {cc : CongestionController}
    (h_max : cc.getMaximumPacketAmount ≠ 0) : (cc.afterVolley result).getMaximumPacketAmount ≠ 0 := by
  rw [CongestionController.getMaximumPacketAmount_afterVolley]
  have h_mem : minLongs (result.maxPacketAmounts ++ [cc.getMaximumPacketAmount]) ∈
      result.maxPacketAmounts ++ [cc.getMaximumPacketAmount] := minLongs_mem (by simp)
  intro h_zero
  rw [h_zero] at h_mem
  obtain h_mem | h_mem := List.mem_append.mp h_mem
  · have h_next := TestVolleyResult.mem_testPacketAmounts.mpr ⟨h_mem, by decide⟩
    obtain ⟨-, -, h_large⟩ := (h.next h_tested h_volley).1 0 h_next
    exact Nat.lt_irrefl 0 (h_n.trans_le (h_large n h_taken))
  · exact h_max (List.mem_singleton.mp h_mem).symm

/-- Enough arrives of an amount, and of any that is larger. -/
theorem precise_of_le {precision n : ℕ} (h_precision : 0 < precision)
    (h_enough : (10 : ℚ) ^ (precision - 1) ≤ path.rate * n) (h_le : n ≤ amount.toNat) {value : Long}
    (h_value : value.toNat = path.delivered amount) : precision ≤ countDigits value := by
  rw [le_countDigits_iff h_precision, h_value]
  apply Nat.le_floor
  calc (((10 ^ (precision - 1) : ℕ)) : ℚ)
    _ = 10 ^ (precision - 1) := by norm_num
    _ ≤ path.rate * n := h_enough
    _ ≤ path.rate * amount.toNat := mul_le_mul_of_nonneg_left (by exact_mod_cast h_le) path.rate_nonneg

/-- **The rate of a path is found**, within two volleys, if an amount up to the largest one tested and up to the
maximum of the connector delivers as many digits as asked for. -/
theorem Follows.isFound (h : env.Follows path) {precision n : ℕ} (h_precision : 0 < precision) (h_n : 0 < n)
    (h_small : n ≤ 10 ^ 12) (h_taken : path.upstream * n ≤ path.maximumAmount.toNat)
    (h_enough : (10 : ℚ) ^ (precision - 1) ≤ path.rate * n) {cc : CongestionController}
    (h_max : cc.getMaximumPacketAmount ≠ 0) : ∃ rate, (env.determineExchangeRate precision cc).1 = .ok rate := by
  -- the first volley comes to a result, and leaves room for packets
  obtain ⟨result, h_volley⟩ := h.volley firstTestPacketAmounts_le firstTestPacketAmounts_ne 0
  have h_left := h.getMaximumPacketAmount_ne h_n h_taken firstTestPacketAmounts_le h_volley h_max
  unfold determineExchangeRate testPacketMaxAttempts
  have h_nonempty : firstTestPacketAmounts ≠ [] := List.cons_ne_nil _ _
  rw [determineLoop_succ h_nonempty h_volley, if_neg h_left]
  -- either it is precise enough at once
  by_cases h_precise : result.maxDigits ≥ precision
  · rw [if_pos h_precise]
    exact ⟨_, rfl⟩
  -- or the second is, with the amounts that the connector named
  obtain ⟨h_next, h_final⟩ := h.next firstTestPacketAmounts_le h_volley
  rw [if_neg h_precise, h_final, if_neg Bool.false_ne_true]
  -- the largest amount of the first volley was refused
  have h_last : (1000000000000 : Long) ∈ firstTestPacketAmounts := by simp [firstTestPacketAmounts]
  obtain ⟨-, value, h_value, h_digits⟩ | ⟨-, next, h_mem⟩ :=
    h.of_mem firstTestPacketAmounts_le h_volley h_last
  · have h_power : (10 : ℕ) ^ 12 = 1000000000000 := by norm_num
    have h_toNat : (1000000000000 : Long).toNat = 1000000000000 := by decide
    rw [h_power, ← h_toNat] at h_small
    exact absurd ((precise_of_le h_precision h_enough h_small h_value).trans h_digits) h_precise
  -- these are small and not zero, so that the second volley comes to a result too
  have h_second : ∀ amount ∈ result.testPacketAmounts, amount.toNat ≤ 10 ^ 12 := fun amount h_amount =>
    (h_next amount h_amount).1
  have h_pos : ∀ amount ∈ result.testPacketAmounts, amount ≠ 0 := by
    rintro amount h_amount rfl
    exact Nat.lt_irrefl 0 (h_n.trans_le ((h_next 0 h_amount).2.2 n h_taken))
  obtain ⟨result', h_volley'⟩ := h.volley h_second h_pos 1
  have h_left' := h.getMaximumPacketAmount_ne h_n h_taken h_second h_volley' h_left
  rw [determineLoop_succ (List.ne_nil_of_mem h_mem) h_volley', if_neg h_left']
  -- the largest amount that is taken delivers enough digits
  have h_precise' : result'.maxDigits ≥ precision := by
    obtain ⟨-, h_takes, h_large⟩ := h_next next h_mem
    obtain ⟨-, value, h_value, h_digits⟩ | ⟨h_refused, -⟩ := h.of_mem h_second h_volley' h_mem
    · exact (precise_of_le h_precision h_enough (h_large n h_taken) h_value).trans h_digits
    · exact absurd h_takes h_refused
  rw [if_pos h_precise']
  exact ⟨_, rfl⟩

/-- **A constant rate is found to the digits asked for.** A rate that is found is not above that of the path, and
falls short of it by less than one part in `10 ^ (precision - 1)`. It is found if an amount up to `10 ^ 12`, and
up to the maximum of the connector, delivers as many digits. -/
theorem determineExchangeRate_accurate (h : env.Follows path) {precision : ℕ} (h_precision : 0 < precision)
    {cc : CongestionController} (h_max : cc.getMaximumPacketAmount ≠ 0) :
    (∀ rate, (env.determineExchangeRate precision cc).1 = .ok rate →
      (rate.a.toNat : ℚ) / rate.b.toNat ≤ path.rate ∧
        path.rate - rate.a.toNat / rate.b.toNat < path.rate / 10 ^ (precision - 1)) ∧
    ∀ n : ℕ, 0 < n → n ≤ 10 ^ 12 → path.upstream * n ≤ path.maximumAmount.toNat →
      (10 : ℚ) ^ (precision - 1) ≤ path.rate * n →
      ∃ rate, (env.determineExchangeRate precision cc).1 = .ok rate := by
  refine ⟨fun rate h_rate => ?_, fun n h_n h_small h_taken h_enough =>
    h.isFound h_precision h_n h_small h_taken h_enough h_max⟩
  -- no test packet is larger than those of the first volley
  have h_next : ∀ attempts amounts result, (∀ amount ∈ amounts, amount.toNat ≤ 10 ^ 12) →
      env.sendTestPacketVolley attempts amounts = some result →
        (∀ amount ∈ result.testPacketAmounts, amount.toNat ≤ 10 ^ 12) ∧
          (result.isTemporary = true → result.reducedPacketAmount.toNat ≤ 10 ^ 12) := by
    intro attempts amounts result h_tested h_volley
    obtain ⟨h_amounts, h_final⟩ := h.next h_tested h_volley
    refine ⟨fun amount h_mem => (h_amounts amount h_mem).1, fun h_temporary => ?_⟩
    rw [h_final] at h_temporary
    cases h_temporary
  -- the rate was measured with a packet that was delivered
  obtain ⟨attempts, amounts, result, -, h_tested, h_volley, h_precise, rfl⟩ :=
    determineLoop_ok (P := fun amount => amount.toNat ≤ 10 ^ 12) h_next firstTestPacketAmounts_le h_rate
  obtain ⟨results, h_results, h_sums, -⟩ := sums_of_sendTestPacketVolley h_volley
  obtain ⟨amount, packet, h_mem, h_a, h_b, h_digits⟩ := h_sums.found (h_precision.trans_le h_precise)
  obtain ⟨index, h_sent⟩ := of_mem_sendTestPackets h_results h_mem
  have h_amount : amount.toNat ≤ 10 ^ 12 := by
    apply h_tested
    rw [← map_fst_of_sendTestPackets h_results]
    exact List.mem_map_of_mem h_mem
  have h_delivered := h.of_packet h_amount h_sent
  have h_pos : 0 < result.exchangeRate.b.toNat := toNat_pos result.exchangeRate.b_ne
  rw [h_b] at h_pos
  rw [h_a, h_b]
  have h_positive : (0 : ℚ) < amount.toNat := by exact_mod_cast h_pos
  -- what it delivered is the rate times its amount, rounded down
  have h_floor : (packet.prepareAmount.toNat : ℚ) ≤ path.rate * amount.toNat := by
    rw [h_delivered]
    exact Nat.floor_le (mul_nonneg path.rate_nonneg (Nat.cast_nonneg _))
  have h_next_floor : path.rate * amount.toNat < packet.prepareAmount.toNat + 1 := by
    rw [h_delivered]
    exact Nat.lt_floor_add_one _
  -- and it is large enough for the rounding to matter little
  have h_large : (10 : ℚ) ^ (precision - 1) ≤ packet.prepareAmount.toNat := by
    rw [← h_digits] at h_precise
    exact_mod_cast (le_countDigits_iff h_precision).mp h_precise
  constructor
  · rw [div_le_iff₀ h_positive]
    exact h_floor
  · rw [lt_div_iff₀ (by positivity)]
    -- what is missing of a unit, in units of the source
    have h_missing : path.rate - packet.prepareAmount.toNat / amount.toNat < 1 / amount.toNat := by
      rw [lt_div_iff₀ h_positive, sub_mul, div_mul_cancel₀ _ h_positive.ne']
      linarith
    calc (path.rate - packet.prepareAmount.toNat / amount.toNat) * 10 ^ (precision - 1)
      _ < 1 / amount.toNat * 10 ^ (precision - 1) := mul_lt_mul_of_pos_right h_missing (by positivity)
      _ ≤ 1 / amount.toNat * (path.rate * amount.toNat) :=
          mul_le_mul_of_nonneg_left (h_large.trans h_floor) (by positivity)
      _ = path.rate := by
          field_simp

end TestEnvironment

/-- Nodes that answer as the path says. The receiver writes the amount in its data. -/
def TestPath.environment (path : TestPath) : TestEnvironment where
  decryptAndDeserialize data := (readUInt64 data).map fun p =>
    { sequence := 0, ilpPacketType := .reject, prepareAmount := BitVec.ofNat 64 p.1, frames := [] }
  sequence _ _ := 0
  sendData _ _ amount := .replied (.reject
    (if path.received amount ≤ path.maximumAmount.toNat then
      ⟨.f99ApplicationError, Bytes.toBytes 8 (path.delivered amount)⟩
    else
      ⟨.f08AmountTooLarge, Bytes.toBytes 8 (path.received amount) ++ Bytes.toBytes 8 path.maximumAmount.toNat⟩))
  wait _ := true

theorem TestPath.environment_follows (path : TestPath) (h_rate : path.rate * 10 ^ 12 < 2 ^ 64) :
    path.environment.Follows path where
  delivers attempts index amount h_tested h_takes := by
    have h_amount : (amount.toNat : ℚ) ≤ 10 ^ 12 := by exact_mod_cast h_tested
    have h_lt : path.delivered amount < 2 ^ 64 := by
      rw [delivered, Nat.floor_lt (mul_nonneg path.rate_nonneg (Nat.cast_nonneg _))]
      calc path.rate * amount.toNat
        _ ≤ path.rate * 10 ^ 12 := mul_le_mul_of_nonneg_left h_amount path.rate_nonneg
        _ < 2 ^ 64 := h_rate
        _ = ((2 ^ 64 : ℕ) : ℚ) := by norm_num
    have h_read := IlpPacket.readUInt64_toBytes h_lt []
    rw [List.append_nil] at h_read
    have h_data : Bytes.toBytes 8 (path.delivered amount) ≠ [] := by
      intro h_empty
      have h_length := Bytes.length_toBytes 8 (path.delivered amount)
      rw [h_empty] at h_length
      cases h_length
    refine ⟨⟨0, .reject, BitVec.ofNat 64 (path.delivered amount), []⟩, ?_, ?_⟩
    · unfold TestEnvironment.sendTestPacket environment
      simp only [if_pos (show path.received amount ≤ path.maximumAmount.toNat from h_takes), ne_eq, h_data,
        not_false_eq_true, and_self, if_true, h_read, Option.map_some, not_true_eq_false, if_false]
    · rw [BitVec.toNat_ofNat, Nat.mod_eq_of_lt h_lt]
  refuses attempts index amount h_tested h_refused := by
    have h_received : path.received amount < 2 ^ 64 := (received_le h_tested).trans_lt (by norm_num)
    refine ⟨⟨.f08AmountTooLarge, Bytes.toBytes 8 (path.received amount) ++ Bytes.toBytes 8 path.maximumAmount.toNat⟩,
      BitVec.ofNat 64 (path.received amount), ?_, rfl, ?_, ?_⟩
    · unfold TestEnvironment.sendTestPacket environment
      have h_code : Ilp.IlpErrorCode.f08AmountTooLarge ≠ .f99ApplicationError := by decide
      simp only [if_neg (show ¬path.received amount ≤ path.maximumAmount.toNat from h_refused), h_code, false_and,
        if_false]
    · have h_first := IlpPacket.readUInt64_toBytes h_received (Bytes.toBytes 8 path.maximumAmount.toNat)
      have h_second := IlpPacket.readUInt64_toBytes path.maximumAmount.isLt []
      rw [List.append_nil] at h_second
      unfold CongestionController.receivedAndMaximumAmount
      rw [h_first]
      change ((readUInt64 (Bytes.toBytes 8 path.maximumAmount.toNat)).bind fun p =>
        some (BitVec.ofNat 64 (path.received amount), BitVec.ofNat 64 p.1)) = _
      rw [h_second, Option.bind_some, BitVec.ofNat_toNat, BitVec.setWidth_eq]
    · rw [BitVec.toNat_ofNat, Nat.mod_eq_of_lt h_received]

/-- Three tenths, behind a connector that takes five thousand units. -/
theorem TestEnvironment.determineExchangeRate_accurate_tenths : ∃ (path : TestPath) (rate : Rational),
    path.rate = 3 / 10 ∧ path.maximumAmount = 5000 ∧ (path.environment.determineExchangeRate 3 {}).1 = .ok rate ∧
      (rate.a.toNat : ℚ) / rate.b.toNat ≤ 3 / 10 ∧ 3 / 10 - (rate.a.toNat : ℚ) / rate.b.toNat < 3 / 1000 := by
  let path : TestPath :=
    { rate := 3 / 10
      upstream := 1
      maximumAmount := 5000
      rate_nonneg := by norm_num
      upstream_nonneg := by norm_num
      upstream_le := by norm_num }
  have h_rate : path.rate * 10 ^ 12 < 2 ^ 64 := by
    change (3 / 10 : ℚ) * 10 ^ 12 < 2 ^ 64
    norm_num
  have h_precision : 0 < 3 := by decide
  have h_max : ({} : CongestionController).getMaximumPacketAmount ≠ 0 := by decide
  obtain ⟨h_accurate, h_found⟩ := determineExchangeRate_accurate (path.environment_follows h_rate) h_precision h_max
  have h_maximum : (5000 : Long).toNat = 5000 := by decide
  have h_taken : path.upstream * ((5000 : ℕ) : ℚ) ≤ path.maximumAmount.toNat := by
    change (1 : ℚ) * ((5000 : ℕ) : ℚ) ≤ ((5000 : Long).toNat : ℚ)
    rw [h_maximum, one_mul]
  have h_enough : (10 : ℚ) ^ (3 - 1) ≤ path.rate * ((5000 : ℕ) : ℚ) := by
    change (10 : ℚ) ^ (3 - 1) ≤ 3 / 10 * ((5000 : ℕ) : ℚ)
    norm_num
  obtain ⟨rate, h_ok⟩ := h_found 5000 (by norm_num) (by norm_num) h_taken h_enough
  obtain ⟨h_le, h_close⟩ := h_accurate rate h_ok
  refine ⟨path, rate, rfl, rfl, h_ok, h_le, ?_⟩
  have h_bound : path.rate / 10 ^ (3 - 1) = 3 / 1000 := by
    change (3 / 10 : ℚ) / 10 ^ (3 - 1) = 3 / 1000
    norm_num
  rw [← h_bound]
  exact h_close

end Paths

end Interledger.Stream
