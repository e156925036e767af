import BerzCoin.ConsensusParams
import BerzCoin.WhileLoop

/-! The money supply: the loops over halving eras agree with the sum over heights. -/
namespace BerzCoin
open WhileLoop

/-- `while current_height <= height`, over the total so far and the current height. -/
def totalSupplyTest (height : ℕ) (s : ℕ × ℕ) : Bool := s.2 ≤ height

def totalSupplyStep (params : ConsensusParams) (height : ℕ) (s : ℕ × ℕ) : ℕ × ℕ :=
  let total := s.1
  let currentHeight := s.2
  let subsidy := getBlockSubsidy currentHeight params
  let nextHalving := (currentHeight / params.subsidyHalvingInterval + 1) * params.subsidyHalvingInterval
  let blocks := min nextHalving (height + 1) - currentHeight
  (total + subsidy * blocks, nextHalving)

def getTotalSupply (height : ℕ) (params : ConsensusParams) (turns : ℕ) : Option ℕ :=
  (run (totalSupplyTest height) (totalSupplyStep params height) turns (0, 0)).map Prod.fst

/-- `while subsidy > 0`, over the total so far and the subsidy. -/
def maxSupplyTest (s : ℕ × ℕ) : Bool := 0 < s.2

def maxSupplyStep (params : ConsensusParams) (s : ℕ × ℕ) : ℕ × ℕ :=
  (s.1 + s.2 * params.subsidyHalvingInterval, s.2 / 2)

def getMaxSupply (params : ConsensusParams) (turns : ℕ) : Option ℕ :=
  (run maxSupplyTest (maxSupplyStep params) turns (0, params.initialSubsidy)).map Prod.fst

variable {params : ConsensusParams}

section totalSupply
variable (hpos : 1 ≤ params.subsidyHalvingInterval)
include hpos

lemma era_div {k i : ℕ} (hi : i < params.subsidyHalvingInterval) :
    (params.subsidyHalvingInterval * k + i) / params.subsidyHalvingInterval = k := by
  rw [Nat.mul_add_div hpos, Nat.div_eq_of_lt hi, Nat.add_zero]

/-- The subsidy is the same at every height of an era. -/
lemma getBlockSubsidy_era {k i : ℕ} (hi : i < params.subsidyHalvingInterval) :
    getBlockSubsidy (params.subsidyHalvingInterval * k + i) params =
      getBlockSubsidy (params.subsidyHalvingInterval * k) params := by
  have hfirst := era_div hpos (k := k) hpos
  rw [Nat.add_zero] at hfirst
  simp only [getBlockSubsidy, era_div hpos hi, hfirst]

/-- The heights of an era, up to any of them. -/
lemma subsidySum_era (k : ℕ) {blocks : ℕ} (hblocks : blocks ≤ params.subsidyHalvingInterval) :
    subsidySum params (params.subsidyHalvingInterval * k + blocks) =
      subsidySum params (params.subsidyHalvingInterval * k) +
        getBlockSubsidy (params.subsidyHalvingInterval * k) params * blocks := by
  induction blocks with
  | zero => rfl
  | succ i ih =>
    have hlast : subsidySum params (params.subsidyHalvingInterval * k + (i + 1)) =
        subsidySum params (params.subsidyHalvingInterval * k + i) +
          getBlockSubsidy (params.subsidyHalvingInterval * k + i) params :=
      Finset.sum_range_succ _ _
    rw [hlast, ih (by omega), getBlockSubsidy_era hpos (by omega), Nat.mul_succ, Nat.add_assoc]

/-- One turn of the loop adds the heights of one era. -/
lemma totalSupplyStep_era {height k : ℕ} (hk : params.subsidyHalvingInterval * k ≤ height) :
    totalSupplyStep params height
        (subsidySum params (params.subsidyHalvingInterval * k), params.subsidyHalvingInterval * k) =
      (subsidySum params (min (params.subsidyHalvingInterval * (k + 1)) (height + 1)),
        params.subsidyHalvingInterval * (k + 1)) := by
  have hera := era_div hpos (k := k) hpos
  rw [Nat.add_zero] at hera
  have hnext : (k + 1) * params.subsidyHalvingInterval =
      params.subsidyHalvingInterval * k + params.subsidyHalvingInterval := by ring
  unfold totalSupplyStep
  dsimp only
  rw [hera, hnext, Nat.mul_succ, ← subsidySum_era hpos k (by omega)]
  congr 2
  omega

/-- The states of the loop at its tests. -/
def totalSupplyAt (params : ConsensusParams) (height k : ℕ) : ℕ × ℕ :=
  (subsidySum params (min (params.subsidyHalvingInterval * k) (height + 1)),
    params.subsidyHalvingInterval * k)

lemma totalSupply_turn {height k : ℕ} (hk : k < height / params.subsidyHalvingInterval + 1) :
    totalSupplyTest height (totalSupplyAt params height k) = true ∧
      totalSupplyStep params height (totalSupplyAt params height k) =
        totalSupplyAt params height (k + 1) := by
  have hle : params.subsidyHalvingInterval * k ≤ height := by
    rw [Nat.mul_comm]
    exact (Nat.le_div_iff_mul_le hpos).1 (by omega)
  constructor
  · exact decide_eq_true hle
  · rw [totalSupplyAt, Nat.min_eq_left (by omega), totalSupplyStep_era hpos hle]
    rfl

lemma getTotalSupply_returns (height : ℕ) :
    Returns (getTotalSupply height params) (subsidySum params (height + 1)) := by
  have hend : height < params.subsidyHalvingInterval * (height / params.subsidyHalvingInterval + 1) :=
    Nat.lt_mul_div_succ height hpos
  have hstop : totalSupplyTest height
      (totalSupplyAt params height (height / params.subsidyHalvingInterval + 1)) = false :=
    decide_eq_false (Nat.not_le.2 hend)
  refine ⟨height / params.subsidyHalvingInterval + 1, ?_⟩
  intro turns hturns
  have hstart : totalSupplyAt params height 0 = (0, 0) := by
    simp [totalSupplyAt, subsidySum]
  rw [getTotalSupply, ← hstart,
    run_sequence (totalSupplyAt params height) (fun k hk => totalSupply_turn hpos hk) hstop hturns,
    totalSupplyAt, Nat.min_eq_right (by omega)]
  rfl

end totalSupply

/-- The states of the other loop, at its tests. -/
def maxSupplyAt (params : ConsensusParams) (k : ℕ) : ℕ × ℕ :=
  (∑ j ∈ Finset.range k, params.subsidyHalvingInterval * (params.initialSubsidy / 2 ^ j),
    params.initialSubsidy / 2 ^ k)

lemma maxSupply_turn {k : ℕ} (hk : k < Nat.size params.initialSubsidy) :
    maxSupplyTest (maxSupplyAt params k) = true ∧
      maxSupplyStep params (maxSupplyAt params k) = maxSupplyAt params (k + 1) := by
  have hpos : 0 < params.initialSubsidy / 2 ^ k :=
    Nat.div_pos (Nat.lt_size.1 hk) (by positivity)
  constructor
  · simpa [maxSupplyTest, maxSupplyAt] using hpos
  · rw [maxSupplyStep, maxSupplyAt, maxSupplyAt, Finset.sum_range_succ, Nat.div_div_eq_div_mul,
      ← pow_succ, Nat.mul_comm (_ / _)]

/-- The supply of all eras with a subsidy. -/
def maxSupply (params : ConsensusParams) : ℕ :=
  ∑ j ∈ Finset.range (Nat.size params.initialSubsidy),
    params.subsidyHalvingInterval * (params.initialSubsidy / 2 ^ j)

lemma getMaxSupply_returns (params : ConsensusParams) :
    Returns (getMaxSupply params) (maxSupply params) := by
  have hstop : maxSupplyTest (maxSupplyAt params (Nat.size params.initialSubsidy)) = false := by
    simpa [maxSupplyTest, maxSupplyAt] using Nat.div_eq_of_lt (Nat.lt_size_self _)
  refine ⟨Nat.size params.initialSubsidy, ?_⟩
  intro turns hturns
  have hstart : maxSupplyAt params 0 = (0, params.initialSubsidy) := by
    simp [maxSupplyAt]
  rw [getMaxSupply, ← hstart,
    run_sequence (maxSupplyAt params) (fun k hk => maxSupply_turn hk) hstop hturns]
  rfl

/-- Eras without a subsidy add nothing. -/
lemma sum_eras_le (params : ConsensusParams) (k : ℕ) :
    ∑ j ∈ Finset.range k, params.subsidyHalvingInterval * (params.initialSubsidy / 2 ^ j) ≤
      maxSupply params := by
  induction k with
  | zero => simp
  | succ k ih =>
    by_cases hk : k < Nat.size params.initialSubsidy
    · exact Finset.sum_le_sum_of_subset (Finset.range_mono hk)
    · have hlt : params.initialSubsidy < 2 ^ k := Nat.size_le.1 (by omega)
      rw [Finset.sum_range_succ, Nat.div_eq_of_lt hlt, Nat.mul_zero, Nat.add_zero]
      exact ih

lemma subsidySum_le_maxSupply (hpos : 1 ≤ params.subsidyHalvingInterval) (n : ℕ) :
    subsidySum params n ≤ maxSupply params :=
  calc subsidySum params n ≤ subsidySum params (params.subsidyHalvingInterval * n) :=
        subsidySum_mono params (Nat.le_mul_of_pos_left n hpos)
    _ ≤ ∑ j ∈ Finset.range n, params.subsidyHalvingInterval * (params.initialSubsidy / 2 ^ j) :=
        subsidySum_periods params hpos n
    _ ≤ maxSupply params := sum_eras_le params n

/-- The initial subsidy for a cap keeps the whole series below the cap. -/
lemma maxSupply_le {maxMoney : ℕ} (hpos : 1 ≤ params.subsidyHalvingInterval)
    (hmoney : 2 * params.subsidyHalvingInterval ≤ maxMoney)
    (hinitial : params.initialSubsidy =
      ConsensusParams.initialSubsidyForCap maxMoney params.subsidyHalvingInterval) :
    maxSupply params ≤ maxMoney := by
  have hinitial' : params.initialSubsidy = maxMoney / (2 * params.subsidyHalvingInterval) := by
    have hterms : 1 ≤ maxMoney / (2 * params.subsidyHalvingInterval) :=
      Nat.div_pos hmoney (by omega)
    rw [hinitial, ConsensusParams.initialSubsidyForCap,
      Nat.max_eq_right (by omega : 1 ≤ 2 * params.subsidyHalvingInterval), Nat.max_eq_right hterms]
  calc maxSupply params ≤ params.subsidyHalvingInterval * (2 * params.initialSubsidy) := by
        rw [maxSupply, ← Finset.mul_sum]
        exact Nat.mul_le_mul_left _ (sum_halvings_le _ _)
    _ = 2 * params.subsidyHalvingInterval * (maxMoney / (2 * params.subsidyHalvingInterval)) := by
        rw [hinitial']
        ring
    _ ≤ maxMoney := Nat.mul_div_le _ _

/-- A supply that adds up over the heights, grows, and stays below a maximum. -/
structure SupplySchedule (params : ConsensusParams) (maxMoney : ℕ) (total : ℕ → ℕ) (maximum : ℕ) :
    Prop where
  total_returns : ∀ height, Returns (getTotalSupply height params) (total height)
  maximum_returns : Returns (getMaxSupply params) maximum
  total_eq : ∀ height, total height = ∑ h ∈ Finset.range (height + 1), getBlockSubsidy h params
  monotone : Monotone total
  total_le : ∀ height, total height ≤ maximum
  maximum_le : maximum ≤ maxMoney

theorem exists_supplySchedule {maxMoney : ℕ} (hpos : 1 ≤ params.subsidyHalvingInterval)
    (hmoney : 2 * params.subsidyHalvingInterval ≤ maxMoney)
    (hinitial : params.initialSubsidy =
      ConsensusParams.initialSubsidyForCap maxMoney params.subsidyHalvingInterval) :
    ∃ total maximum, SupplySchedule params maxMoney total maximum := by
  refine ⟨fun height => subsidySum params (height + 1), maxSupply params, ?_⟩
  constructor
  · exact getTotalSupply_returns hpos
  · exact getMaxSupply_returns params
  · intro height
    rfl
  · intro height height' hle
    exact subsidySum_mono params (Nat.succ_le_succ hle)
  · intro height
    exact subsidySum_le_maxSupply hpos _
  · exact maxSupply_le hpos hmoney hinitial

theorem exists_supplySchedule_mainnet :
    ∃ total maximum, SupplySchedule ConsensusParams.mainnet MAX_MONEY total maximum :=
  exists_supplySchedule (by decide) (by decide) rfl

end BerzCoin
