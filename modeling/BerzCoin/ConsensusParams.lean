import BerzCoin.CryptoAddress

/-! Consensus parameters of the three networks, and the block subsidy. -/
namespace BerzCoin

def COIN : ℕ := 100000000
def MAX_SUPPLY_BERZ : ℕ := 2 ^ 24
def MAX_MONEY : ℕ := MAX_SUPPLY_BERZ * COIN
def HALVING_YEARS : ℕ := 4

/-- The project's own deployments, by their names in `custom_activation_heights`. -/
inductive CustomDeployment
  | SOFTFORK_BIP34_STRICT
  | HARDFORK_TX_V2
  deriving DecidableEq, Repr

/-- `coinbaseMaturity` is set from the configuration; its default is 100. -/
structure ConsensusParams where
  network : Network
  maxBlockSize : ℕ
  maxBlockWeight : ℕ
  maxBlockSigops : ℕ
  powTargetSpacing : ℕ
  powTargetTimespan : ℕ
  powLimit : ℕ
  powNoRetargeting : Bool
  initialSubsidy : ℕ
  subsidyHalvingInterval : ℕ
  bip34Height : ℕ
  segwitHeight : ℕ
  maxMoney : ℕ
  coinbaseMaturity : ℕ
  customActivationHeights : List (CustomDeployment × ℕ)
  genesisBits : UInt32 := 0x207FFFFF
  deriving DecidableEq, Repr

namespace ConsensusParams

def retargetIntervalBlocks (params : ConsensusParams) : ℕ :=
  max 1 (params.powTargetTimespan / max 1 params.powTargetSpacing)

def fourYearHalvingInterval (blockSpacingSeconds : ℕ) : ℕ :=
  max 1 (HALVING_YEARS * 365 * 24 * 60 * 60 / max 1 blockSpacingSeconds)

def initialSubsidyForCap (maxMoney halvingInterval : ℕ) : ℕ :=
  max 1 (maxMoney / max 1 (2 * halvingInterval))

def mainnet : ConsensusParams :=
  let spacing := 120
  let halvingInterval := fourYearHalvingInterval spacing
  { network := .mainnet
    maxBlockSize := 1000000
    maxBlockWeight := 4000000
    maxBlockSigops := 20000
    powTargetSpacing := spacing
    powTargetTimespan := 1209600
    powLimit := 0x7fffffffffffffffffffffffffffffffffffffffffffffffffffffffffffffff
    powNoRetargeting := false
    initialSubsidy := initialSubsidyForCap MAX_MONEY halvingInterval
    subsidyHalvingInterval := halvingInterval
    bip34Height := 227931
    segwitHeight := 481824
    maxMoney := MAX_MONEY
    coinbaseMaturity := 100
    customActivationHeights := [] }

def testnet : ConsensusParams :=
  { mainnet with
    network := .testnet
    initialSubsidy := initialSubsidyForCap mainnet.maxMoney mainnet.subsidyHalvingInterval
    bip34Height := 21111
    segwitHeight := 0 }

def regtest : ConsensusParams :=
  let halvingInterval := fourYearHalvingInterval 120
  { mainnet with
    network := .regtest
    powTargetSpacing := 120
    powTargetTimespan := 120 * 20
    powNoRetargeting := true
    subsidyHalvingInterval := halvingInterval
    initialSubsidy := initialSubsidyForCap mainnet.maxMoney halvingInterval
    bip34Height := 100000000
    segwitHeight := 0 }

/-- `is_consensus_feature_active` for a custom deployment: a name without a configured height
is never active. -/
def isConsensusFeatureActive (params : ConsensusParams) (deployment : CustomDeployment)
    (height : ℕ) : Bool :=
  match params.customActivationHeights.lookup deployment with
  | some activation => activation ≤ height
  | none => false

end ConsensusParams

/-- `for _ in range(halvings): subsidy //= 2`. -/
def halve : ℕ → ℕ → ℕ
  | 0, subsidy => subsidy
  | n + 1, subsidy => halve n (subsidy / 2)

def getBlockSubsidy (height : ℕ) (params : ConsensusParams) : ℕ :=
  let halvings := height / params.subsidyHalvingInterval
  if 64 ≤ halvings then 0 else halve halvings params.initialSubsidy

lemma halve_eq (n subsidy : ℕ) : halve n subsidy = subsidy / 2 ^ n := by
  induction n generalizing subsidy with
  | zero => simp [halve]
  | succ n ih => rw [halve, ih, Nat.div_div_eq_div_mul, pow_succ, Nat.mul_comm]

/-- The subsidies of the heights below `n`. -/
def subsidySum (params : ConsensusParams) (n : ℕ) : ℕ :=
  ∑ h ∈ Finset.range n, getBlockSubsidy h params

lemma getBlockSubsidy_le (height : ℕ) (params : ConsensusParams) :
    getBlockSubsidy height params ≤ params.initialSubsidy / 2 ^ (height / params.subsidyHalvingInterval) := by
  simp only [getBlockSubsidy]
  split_ifs
  · exact Nat.zero_le _
  · rw [halve_eq]

/-- The heights of one halving period add up to at most an interval of its subsidy. -/
lemma subsidySum_periods (params : ConsensusParams) (hpos : 0 < params.subsidyHalvingInterval)
    (k : ℕ) :
    subsidySum params (params.subsidyHalvingInterval * k) ≤
      ∑ j ∈ Finset.range k, params.subsidyHalvingInterval * (params.initialSubsidy / 2 ^ j) := by
  induction k with
  | zero => simp [subsidySum]
  | succ k ih =>
    have hsplit : subsidySum params (params.subsidyHalvingInterval * (k + 1)) =
        subsidySum params (params.subsidyHalvingInterval * k) +
          ∑ i ∈ Finset.range params.subsidyHalvingInterval,
            getBlockSubsidy (params.subsidyHalvingInterval * k + i) params := by
      rw [Nat.mul_succ, subsidySum, Finset.sum_range_add]
      rfl
    have hperiod : ∑ i ∈ Finset.range params.subsidyHalvingInterval,
        getBlockSubsidy (params.subsidyHalvingInterval * k + i) params ≤
        params.subsidyHalvingInterval * (params.initialSubsidy / 2 ^ k) := by
      calc ∑ i ∈ Finset.range params.subsidyHalvingInterval,
          getBlockSubsidy (params.subsidyHalvingInterval * k + i) params
          ≤ ∑ _i ∈ Finset.range params.subsidyHalvingInterval, params.initialSubsidy / 2 ^ k := by
            refine Finset.sum_le_sum ?_
            intro i hi
            have hlt := Finset.mem_range.1 hi
            have hdiv : (params.subsidyHalvingInterval * k + i) / params.subsidyHalvingInterval = k := by
              rw [Nat.mul_add_div hpos, Nat.div_eq_of_lt hlt, Nat.add_zero]
            have hle := getBlockSubsidy_le (params.subsidyHalvingInterval * k + i) params
            rwa [hdiv] at hle
        _ = params.subsidyHalvingInterval * (params.initialSubsidy / 2 ^ k) := by simp
    rw [hsplit, Finset.sum_range_succ]
    exact Nat.add_le_add ih hperiod

/-- A halving series stays below twice its first term. -/
lemma sum_halvings_le (a k : ℕ) : ∑ j ∈ Finset.range k, a / 2 ^ j ≤ 2 * a := by
  have hle (k : ℕ) : ∑ j ∈ Finset.range k, a / 2 ^ j + 2 * (a / 2 ^ k) ≤ 2 * a := by
    induction k with
    | zero => simp
    | succ k ih =>
      have hhalf : 2 * (a / 2 ^ (k + 1)) ≤ a / 2 ^ k := by
        rw [pow_succ, ← Nat.div_div_eq_div_mul]
        omega
      rw [Finset.sum_range_succ]
      omega
  exact (Nat.le_add_right _ _).trans (hle k)

lemma subsidySum_mono (params : ConsensusParams) {m n : ℕ} (h : m ≤ n) :
    subsidySum params m ≤ subsidySum params n :=
  Finset.sum_le_sum_of_subset (Finset.range_mono h)

theorem subsidySum_le (params : ConsensusParams) (hpos : 0 < params.subsidyHalvingInterval) (n : ℕ) :
    subsidySum params n ≤ params.subsidyHalvingInterval * (2 * params.initialSubsidy) := by
  have hn : n ≤ params.subsidyHalvingInterval * n := Nat.le_mul_of_pos_left n hpos
  calc subsidySum params n ≤ subsidySum params (params.subsidyHalvingInterval * n) :=
        subsidySum_mono params hn
    _ ≤ ∑ j ∈ Finset.range n, params.subsidyHalvingInterval * (params.initialSubsidy / 2 ^ j) :=
        subsidySum_periods params hpos n
    _ = params.subsidyHalvingInterval * ∑ j ∈ Finset.range n, params.initialSubsidy / 2 ^ j := by
        rw [Finset.mul_sum]
    _ ≤ params.subsidyHalvingInterval * (2 * params.initialSubsidy) :=
        Nat.mul_le_mul_left _ (sum_halvings_le _ _)

/-- The parameters of a network, up to what a configuration may change. -/
def Shipped (params : ConsensusParams) : Prop :=
  ∃ base ∈ [ConsensusParams.mainnet, ConsensusParams.testnet, ConsensusParams.regtest],
    ∃ maturity heights,
      params = { base with coinbaseMaturity := maturity, customActivationHeights := heights }

/-- The shipped networks issue at most `max_money`. -/
lemma subsidySum_le_maxMoney {params : ConsensusParams} (h : Shipped params) (n : ℕ) :
    subsidySum params n ≤ params.maxMoney := by
  obtain ⟨base, hbase, maturity, heights, rfl⟩ := h
  have hparams : 0 < base.subsidyHalvingInterval ∧
      base.subsidyHalvingInterval * (2 * base.initialSubsidy) ≤ base.maxMoney := by
    revert base
    decide
  exact (subsidySum_le _ hparams.1 n).trans hparams.2

end BerzCoin
