import Interledger.Stream.IncomingHold
import Interledger.Stream.MultiplyDivide
import Mathlib.Algebra.Order.BigOperators.Group.List

/-!
# Splitting a payment among streams

`Connection.handlePrepare` divides the amount of a packet among the streams by the shares of the
`StreamMoney` frames. Each stream is due its share rounded down, so that less than one unit for each
frame is credited to none.

The shares add up to any 64-bit total, and `multiplyDivideFloor` loses remainders by divisors above
`2 ^ 63`, so that the streams may get less than that.

## Main results

* `splits_floors` — the rule, for shares of any whole;
* `amounts_of_fulfilled` — the amounts of a packet that is fulfilled;
* `fulfilled_splits_iff` — when they follow the rule.
-/

namespace Interledger.Stream

open Interledger.Ilp Interledger.Action Long

/-! ### Shares of a whole -/

/-- Each part is its share of the whole, rounded down. The parts do not exceed the whole, and less than
one unit for each is left. -/
structure Splits (whole : ℕ) (shares parts : List ℕ) : Prop where
  floors : parts = shares.map fun share => whole * share / shares.sum
  sum_le : parts.sum ≤ whole
  left_lt : whole - parts.sum < shares.length

section Shares

variable (whole total : ℕ) (shares : List ℕ)

/-- Quotients and remainders of all shares. -/
theorem sum_div_add_sum_mod :
    total * (shares.map fun share => whole * share / total).sum +
      (shares.map fun share => whole * share % total).sum = whole * shares.sum := by
  induction shares with
  | nil => simp
  | cons share shares ih =>
    have h_div := Nat.div_add_mod (whole * share) total
    simp only [List.map_cons, List.sum_cons, Nat.mul_add]
    omega

/-- All remainders together are less than the total for each share. -/
theorem sum_mod_add_length_le (h : 0 < total) :
    (shares.map fun share => whole * share % total).sum + shares.length ≤ total * shares.length := by
  induction shares with
  | nil => simp
  | cons share shares ih =>
    have h_mod := Nat.mod_lt (whole * share) h
    simp only [List.map_cons, List.sum_cons, List.length_cons, Nat.mul_add]
    omega

/-- **Rounding down** follows the rule. -/
theorem splits_floors (h : 0 < shares.sum) :
    Splits whole shares (shares.map fun share => whole * share / shares.sum) := by
  have h_sum := sum_div_add_sum_mod whole shares.sum shares
  have h_mod := sum_mod_add_length_le whole shares.sum shares h
  have h_le : (shares.map fun share => whole * share / shares.sum).sum ≤ whole := by
    apply Nat.le_of_mul_le_mul_left _ h
    calc shares.sum * (shares.map fun share => whole * share / shares.sum).sum
        ≤ whole * shares.sum := by omega
      _ = shares.sum * whole := Nat.mul_comm _ _
  refine ⟨rfl, h_le, ?_⟩
  -- what is left, in units of the total, is the sum of the remainders
  have h_length : 0 < shares.length := by
    cases shares with
    | nil => exact absurd h (lt_irrefl 0)
    | cons share shares => exact Nat.succ_pos _
  apply Nat.lt_of_mul_lt_mul_left (a := shares.sum)
  rw [Nat.mul_sub, Nat.mul_comm shares.sum whole]
  omega

/-- Parts that are rounded down follow the rule, and no others. -/
theorem splits_iff (parts : List ℕ) (h : 0 < shares.sum) :
    Splits whole shares parts ↔ parts = shares.map fun share => whole * share / shares.sum := by
  constructor
  · exact Splits.floors
  · rintro rfl
    exact splits_floors whole shares h

end Shares

/-! ### The frames -/

/-- The streams of the frames that carry money, with their shares. -/
def moneyFrames : List Frame → List (StreamId × Long)
  | [] => []
  | .streamMoney id shares :: frames => (id.toStreamId, shares) :: moneyFrames frames
  | _ :: frames => moneyFrames frames

/-- The shares of the frames that carry money. -/
def moneyShares (frames : List Frame) : List ℕ := (moneyFrames frames).map fun p => p.2.toNat

/-- The total of the shares, while it does not overflow. -/
theorem toNat_totalMoneyShares {frames : List Frame} {sum total : Long}
    (h : totalMoneyShares frames sum = some total) :
    total.toNat = sum.toNat + (moneyShares frames).sum := by
  induction frames generalizing sum with
  | nil =>
    cases h
    rfl
  | cons frame frames ih =>
    cases frame with
    | streamMoney id shares =>
      rw [totalMoneyShares] at h
      split at h
      · cases h
      · next h_fits =>
        rw [overflow_checkedAdd, not_le] at h_fits
        rw [ih h, toNat_checkedAdd, Nat.min_eq_left (Nat.le_sub_one_of_lt h_fits)]
        exact Nat.add_assoc _ _ _
    | _ => exact ih h

variable {App : Type} {env : Environment App} {request : Request} {prepare : IlpPrepare}
  {outcome : Outcome} {amounts : List (StreamId × Long)} {c c' : Connection App}

/-- What a frame adds to the amounts, if it passes. -/
theorem checkFrame_amounts {totalShares : Long} {amounts' : List (StreamId × Long)} {frame : Frame}
    (h : (checkFrame request totalShares amounts frame : Run App _).exec c = (.ok amounts', c')) :
    c' = c ∧ amounts' = amounts ++ (moneyFrames [frame]).map fun p =>
      (p.1, (multiplyDivideFloor request.prepare.amount p.2 totalShares).getD 0) := by
  cases frame with
  | streamMoney id shares =>
    simp only [checkFrame] at h
    cases h_share : multiplyDivideFloor request.prepare.amount shares totalShares with
    | none =>
      rw [h_share] at h
      cases h
    | some streamAmount =>
      rw [h_share] at h
      simp only at h
      rw [exec_bind_ok (exec_get c)] at h
      cases h_record : c.record? id.toStreamId with
      | none =>
        rw [h_record] at h
        cases h
      | some s =>
        rw [h_record] at h
        simp only at h
        split at h
        · cases h
        split at h
        · cases h
        cases h
        refine ⟨rfl, ?_⟩
        simp only [moneyFrames, List.map_cons, List.map_nil, h_share, Option.getD_some]
  | _ =>
    cases h
    exact ⟨rfl, (List.append_nil amounts).symm⟩

theorem moneyFrames_cons (frame : Frame) (frames : List Frame) :
    moneyFrames (frame :: frames) = moneyFrames [frame] ++ moneyFrames frames := by
  cases frame <;> rfl

/-- **The amounts of a packet that passes the checks**: for each frame with money the share of the
amount that `multiplyDivideFloor` finds. -/
theorem check_amounts (h : (check env request).exec c = (.ok amounts, c')) :
    ∃ totalShares, totalMoneyShares request.packet.frames 0 = some totalShares ∧
      amounts = (moneyFrames request.packet.frames).map fun p =>
        (p.1, (multiplyDivideFloor request.prepare.amount p.2 totalShares).getD 0) := by
  unfold check at h
  split at h
  · cases h
  cases h_total : totalMoneyShares request.packet.frames 0 with
  | none =>
    rw [h_total] at h
    cases h
  | some totalShares =>
    rw [h_total] at h
    refine ⟨totalShares, rfl, ?_⟩
    -- the amounts so far stand in front
    suffices h_all : ∀ (frames : List Frame) (before : List (StreamId × Long)) (c c' : Connection App),
        (foldEach (checkFrame request totalShares) before frames : Run App _).exec c = (.ok amounts, c') →
        amounts = before ++ (moneyFrames frames).map fun p =>
          (p.1, (multiplyDivideFloor request.prepare.amount p.2 totalShares).getD 0) from
      h_all _ [] c c' h
    intro frames
    induction frames with
    | nil =>
      intro before c c' h
      cases h
      exact (List.append_nil _).symm
    | cons frame frames ih =>
      intro before c c' h
      obtain ⟨before', c₁, h_frame, h_rest⟩ := exec_bind_eq_ok.mp h
      obtain ⟨-, rfl⟩ := checkFrame_amounts h_frame
      rw [ih _ _ _ h_rest, moneyFrames_cons frame frames, List.map_append, List.append_assoc]

/-! ### Packets that are fulfilled -/

/-- `handlePrepare` returns: the packet is accepted with these amounts, which are then credited to the
streams in this order. -/
def Fulfilled (env : Environment App) (prepare : IlpPrepare) (outcome : Outcome) (c : Connection App)
    (request : Request) (amounts : List (StreamId × Long)) : Prop :=
  ∃ c₁ response c', (accept env prepare).exec c = (.ok (request, amounts), c₁) ∧
    (respond env outcome request amounts).exec c₁ = (.ok response, c')

theorem exists_fulfilled_iff :
    (∃ response c', (handlePrepare env prepare outcome).exec c = (.ok response, c')) ↔
      ∃ request amounts, Fulfilled env prepare outcome c request amounts := by
  unfold handlePrepare
  constructor
  · rintro ⟨response, c', h⟩
    obtain ⟨⟨request, amounts⟩, c₁, h_accept, h_respond⟩ := exec_bind_eq_ok.mp h
    exact ⟨request, amounts, c₁, response, c', h_accept, h_respond⟩
  · rintro ⟨request, amounts, c₁, response, c', h_accept, h_respond⟩
    exact ⟨response, c', exec_bind_eq_ok.mpr ⟨_, c₁, h_accept, h_respond⟩⟩

/-- **The amounts of a packet that is fulfilled.** The shares do not overflow, and each frame with money
gets what `multiplyDivideFloor` finds. -/
theorem amounts_of_fulfilled (h : Fulfilled env prepare outcome c request amounts) :
    ∃ totalShares : Long, totalShares.toNat = (moneyShares request.packet.frames).sum ∧
      amounts = (moneyFrames request.packet.frames).map fun p =>
        (p.1, (multiplyDivideFloor prepare.amount p.2 totalShares).getD 0) := by
  obtain ⟨c₁, response, c', h_accept, -⟩ := h
  unfold accept at h_accept
  obtain ⟨_, c₂, -, h_accept⟩ := exec_bind_eq_ok.mp h_accept
  obtain ⟨request', c₃, h_receive, h_accept⟩ := exec_bind_eq_ok.mp h_accept
  obtain ⟨_, c₄, -, h_accept⟩ := exec_bind_eq_ok.mp h_accept
  obtain ⟨amounts', c₅, h_hold, h_accept⟩ := exec_bind_eq_ok.mp h_accept
  cases h_accept
  obtain ⟨rfl, -⟩ := receive_ok h_receive
  unfold checkAndHold at h_hold
  obtain ⟨amounts', c₆, h_check, h_hold⟩ := exec_bind_eq_ok.mp h_hold
  obtain ⟨_, c₇, -, h_hold⟩ := exec_bind_eq_ok.mp h_hold
  cases h_hold
  obtain ⟨totalShares, h_total, h_amounts⟩ := check_amounts h_check
  refine ⟨totalShares, ?_, h_amounts⟩
  rw [toNat_totalMoneyShares h_total]
  exact Nat.zero_add _

/-- A share of the amount is at most the amount. -/
theorem share_lt {amount share total : ℕ} (h_amount : amount < 2 ^ 64) (h : share ≤ total) :
    amount * share / total < 2 ^ 64 := by
  apply lt_of_le_of_lt _ h_amount
  calc amount * share / total ≤ amount * total / total := Nat.div_le_div_right (Nat.mul_le_mul_left _ h)
    _ ≤ amount := Nat.div_le_of_le_mul (by rw [Nat.mul_comm])

/-- The rounded-down share that a frame is due comes out exactly while the remainders fit. -/
theorem floor_share_iff {amount share total : Long} (h_total : 0 < total.toNat)
    (h_share : share.toNat ≤ total.toNat) :
    ((multiplyDivideFloor amount share total).getD 0).toNat =
        amount.toNat * share.toNat / total.toNat ↔
      RemaindersFit total.toNat 0 share.toNat amount.toNat := by
  have h_ne : total ≠ 0 := by
    rintro rfl
    exact absurd h_total (lt_irrefl 0)
  have h_fits := share_lt amount.isLt h_share
  constructor
  · exact remaindersFit_of_floor h_ne h_fits
  · intro h_fit
    obtain ⟨l, h_floor, h_toNat⟩ := (MultiplyDivideExact.of_fits h_ne ⟨h_fit, .inl h_fits⟩).floor
    rw [h_floor, Option.getD_some, h_toNat, saturate, Nat.min_eq_left (Nat.le_sub_one_of_lt h_fits)]

/-- **When a packet is split by its shares.** The shares of a packet that is fulfilled add up to a
64-bit total. If that is positive, the amounts credited for its frames are the shares of its amount
rounded down, with less than one unit for each frame left, if and only if no division loses a
remainder. -/
theorem fulfilled_splits_iff (h : Fulfilled env prepare outcome c request amounts)
    (h_pos : 0 < (moneyShares request.packet.frames).sum) :
    (moneyShares request.packet.frames).sum < 2 ^ 64 ∧
      amounts.map Prod.fst = (moneyFrames request.packet.frames).map Prod.fst ∧
      (Splits prepare.amount.toNat (moneyShares request.packet.frames)
          (amounts.map fun p => p.2.toNat) ↔
        ∀ share ∈ moneyShares request.packet.frames,
          RemaindersFit (moneyShares request.packet.frames).sum 0 share prepare.amount.toNat) := by
  obtain ⟨totalShares, h_total, rfl⟩ := amounts_of_fulfilled h
  rw [← h_total] at h_pos ⊢
  refine ⟨totalShares.isLt, ?_, ?_⟩
  · rw [List.map_map]
    rfl
  · have h_le (p : StreamId × Long) (h_mem : p ∈ moneyFrames request.packet.frames) :
        p.2.toNat ≤ totalShares.toNat := by
      rw [h_total]
      exact List.le_sum_of_mem (List.mem_map_of_mem h_mem)
    rw [splits_iff _ _ _ (h_total ▸ h_pos), ← h_total, moneyShares, List.map_map, List.map_map,
      List.map_inj_left, List.forall_mem_map]
    -- frame by frame
    constructor
    · intro h_floors p h_mem
      exact (floor_share_iff h_pos (h_le p h_mem)).mp (h_floors p h_mem)
    · intro h_fit p h_mem
      exact (floor_share_iff h_pos (h_le p h_mem)).mpr (h_fit p h_mem)

/-- A connection whose stream 1 can receive anything. -/
def openConnection : Connection Unit where
  app := ()
  closed := false
  streams :=
    OrderedMap.empty.set (Long.toStreamId 1)
      { DataAndMoneyStream.created with receiveMax := maxUnsignedValue }

/-- A packet with money in two frames for stream 1. -/
def twoShares (first second : Long) : Packet where
  sequence := 1
  ilpPacketType := .prepare
  prepareAmount := 0
  frames := [.streamMoney 1 first, .streamMoney 1 second]

/-- 10 units by the shares 1 and 2: one unit is left. -/
theorem fulfilled_splits_one_two : ∃ request amounts,
    Fulfilled (plainEnvironment plainOpts (twoShares 1 2)).toEnvironment (plainPrepare 10) .resolves
      openConnection request amounts ∧
    amounts.map Prod.snd = [3, 6] ∧
    Splits 10 (moneyShares request.packet.frames) (amounts.map fun p => p.2.toNat) := by
  have h : Fulfilled (plainEnvironment plainOpts (twoShares 1 2)).toEnvironment (plainPrepare 10)
      .resolves openConnection _ _ := ⟨_, _, _, rfl, rfl⟩
  refine ⟨_, _, h, rfl, (fulfilled_splits_iff h (by decide)).2.2.mpr fun share _ => ?_⟩
  exact .of_le (by decide) (by decide)

/-- **A lost remainder**: of 2 units the shares `2 ^ 63` and 1 both get nothing, though one unit is due
to the first. -/
theorem fulfilled_not_splits : ∃ request amounts,
    Fulfilled (plainEnvironment plainOpts (twoShares 0x8000000000000000 1)).toEnvironment
      (plainPrepare 2) .resolves openConnection request amounts ∧
    amounts.map Prod.snd = [0, 0] ∧ moneyShares request.packet.frames = [2 ^ 63, 1] ∧
    ¬Splits 2 (moneyShares request.packet.frames) (amounts.map fun p => p.2.toNat) := by
  refine ⟨_, _, ⟨_, _, _, rfl, rfl⟩, rfl, rfl, fun h => ?_⟩
  exact absurd h.left_lt (by decide)

end Interledger.Stream
