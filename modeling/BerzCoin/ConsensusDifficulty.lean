import BerzCoin.ConsensusCompact

/-! Retargeting and the work of a chain, over the compact codec. -/
namespace BerzCoin

namespace ProofOfWork
variable {params : ConsensusParams}

/-- The clamp bounds the time span of a window from both sides. -/
lemma clampTimespan_bounds (hspan : 4 ≤ params.powTargetTimespan) (timespan : ℤ) :
    params.powTargetTimespan / 4 ≤ clampTimespan params timespan ∧
      clampTimespan params timespan ≤ 4 * params.powTargetTimespan := by
  unfold clampTimespan
  dsimp only
  rw [Nat.max_eq_right (by omega), Nat.max_eq_right (by omega)]
  split_ifs with hlow hhigh
  · omega
  · omega
  · omega

/-- The new target before its encoding. -/
lemma newTarget_bounds (hspan : 4 ≤ params.powTargetTimespan)
    (hquarter : params.powTargetTimespan % 4 = 0) (target : ℕ) (timespan : ℤ) :
    target / 4 ≤ target * clampTimespan params timespan / params.powTargetTimespan ∧
      target * clampTimespan params timespan / params.powTargetTimespan ≤ 4 * target := by
  obtain ⟨hlow, hhigh⟩ := clampTimespan_bounds hspan timespan
  have hpos : 0 < params.powTargetTimespan := by omega
  constructor
  · rw [Nat.le_div_iff_mul_le hpos]
    have hspan' : params.powTargetTimespan = 4 * (params.powTargetTimespan / 4) := by omega
    calc target / 4 * params.powTargetTimespan
        = target / 4 * 4 * (params.powTargetTimespan / 4) := by rw [Nat.mul_assoc, ← hspan']
      _ ≤ target * (params.powTargetTimespan / 4) :=
          Nat.mul_le_mul_right _ (Nat.div_mul_le_self _ _)
      _ ≤ target * clampTimespan params timespan := Nat.mul_le_mul_left _ hlow
  · apply Nat.div_le_of_le_mul
    calc target * clampTimespan params timespan
        ≤ target * (4 * params.powTargetTimespan) := Nat.mul_le_mul_left _ hhigh
      _ = params.powTargetTimespan * (4 * target) := by ring

/-- One retarget, up to the error of the encoding. -/
lemma nextWorkRequired_bounds {first last : BlockHeader} {target : ℕ}
    (hbytes : params.powLimit < 2 ^ 256) (hspan : 4 ≤ params.powTargetTimespan)
    (hquarter : params.powTargetTimespan % 4 = 0)
    (htarget : decodeCompact params last.bits.toNat false = .ok target)
    (hlarge : 2 ^ 18 ≤ target) :
    ∃ t, decodeCompact params (nextWorkRequired params first last) false = .ok t ∧
      t ≤ min (4 * target) params.powLimit ∧ target / 4 - target / 4 / 2 ^ 15 ≤ t := by
  have hle := (decodeCompact_bounds htarget).2
  unfold nextWorkRequired
  dsimp only
  rw [getTarget_of_decodeCompact htarget, Nat.max_eq_right (by omega : 1 ≤ params.powTargetTimespan)]
  obtain ⟨hlow, hhigh⟩ := newTarget_bounds hspan hquarter target
    ((last.timestamp.toNat : ℤ) - first.timestamp.toNat)
  generalize target * clampTimespan params ((last.timestamp.toNat : ℤ) - first.timestamp.toNat) /
    params.powTargetTimespan = newTarget at hlow hhigh ⊢
  obtain ⟨t, hdecode, -, hbelow, herror, -⟩ :=
    roundTrips_of_le hbytes (by omega : max 1 (min newTarget params.powLimit) ≤ params.powLimit)
      (by omega)
  exact ⟨t, hdecode, by omega, by omega⟩

theorem getNextWorkRequired_bounds {headers : List BlockHeader} {last : BlockHeader}
    {height target : ℕ} (hlast : headers.getLast? = some last)
    (htarget : decodeCompact ConsensusParams.mainnet last.bits.toNat false = .ok target)
    (hlarge : 2 ^ 18 ≤ target)
    (hheight : (height + 1) % ConsensusParams.mainnet.retargetIntervalBlocks = 0) :
    ∃ t, decodeCompact ConsensusParams.mainnet
        (getNextWorkRequired ConsensusParams.mainnet headers height) false = .ok t ∧
      0 < t ∧ t ≤ min (4 * target) ConsensusParams.mainnet.powLimit ∧
      target / 4 - target / 4 / 2 ^ 15 ≤ t := by
  cases headers with
  | nil => simp at hlast
  | cons first rest =>
    rw [List.getLast?_eq_some_getLast (by simp), Option.some_inj] at hlast
    have hretarget : getNextWorkRequired ConsensusParams.mainnet (first :: rest) height =
        nextWorkRequired ConsensusParams.mainnet first last := by
      unfold getNextWorkRequired
      dsimp only
      rw [hlast, if_neg (by decide), if_neg (by simpa using hheight)]
    obtain ⟨t, hdecode, hhigh, hlow⟩ := @nextWorkRequired_bounds _ first last target
      (by decide) (by decide) (by decide) htarget hlarge
    rw [hretarget]
    exact ⟨t, hdecode, (decodeCompact_bounds hdecode).1, hhigh, hlow⟩

/-- A window that runs backwards in time, at the last height before a retarget. -/
def backwardWindow : List BlockHeader :=
  let header : BlockHeader :=
    { version := 1, prevBlockHash := [], merkleRoot := [], timestamp := 2000, bits := 0x1d00ffff,
      nonce := 0 }
  [header, { header with timestamp := 1000 }]

theorem getNextWorkRequired_backwardWindow :
    ∃ t, decodeCompact ConsensusParams.mainnet
        (getNextWorkRequired ConsensusParams.mainnet backwardWindow 10079) false = .ok t ∧
      0 < t ∧ t ≤ min (4 * (0xffff * 2 ^ 208)) ConsensusParams.mainnet.powLimit ∧
      0xffff * 2 ^ 208 / 4 - 0xffff * 2 ^ 208 / 4 / 2 ^ 15 ≤ t :=
  getNextWorkRequired_bounds rfl (by decide +kernel) (by decide) (by decide)

/-- A shift to the left by whole bytes is even; the other targets are small. -/
lemma shiftedCoefficient_cases (exponent : ℕ) {coefficient : ℕ} (h : coefficient < 2 ^ 23) :
    shiftedCoefficient exponent coefficient < 2 ^ 23 ∨
      shiftedCoefficient exponent coefficient % 2 = 0 := by
  unfold shiftedCoefficient
  split_ifs with hsmall
  · left
    apply lt_of_le_of_lt _ h
    rw [Nat.shiftRight_eq_div_pow]
    exact Nat.div_le_self _ _
  · right
    rw [Nat.shiftLeft_eq, show 8 * (exponent - 3) = (8 * (exponent - 3) - 1) + 1 by omega, pow_succ,
      ← mul_assoc]
    exact Nat.mul_mod_left _ 2

/-- The limit of the networks, which is odd, is no target. -/
lemma getTarget_lt {params : ConsensusParams} (bits : UInt32)
    (hlimit : params.powLimit = ConsensusParams.mainnet.powLimit) :
    getTarget params bits < params.powLimit := by
  have hvalue : params.powLimit = 2 ^ 255 - 1 := by
    rw [hlimit]
    rfl
  have hcoefficient : bits.toNat &&& 0x007fffff < 2 ^ 23 := Nat.and_lt_two_pow _ (by norm_num)
  unfold getTarget
  dsimp only
  split_ifs with hzero hnegative hoverflow habove
  · omega
  · omega
  · omega
  · omega
  · have hcases := shiftedCoefficient_cases (bits.toNat >>> 24) hcoefficient
    omega

end ProofOfWork

namespace ChainWork
open ProofOfWork
variable {params : ConsensusParams}

def calculateBlockWorkFromHeader (params : ConsensusParams) (header : BlockHeader) : ℕ :=
  calculateBlockWork params header.bits

def calculateChainWork (params : ConsensusParams) (headers : List BlockHeader) : ℕ :=
  headers.foldl (fun total header => total + calculateBlockWorkFromHeader params header) 0

lemma calculateBlockWork_pos {bits : UInt32}
    (hlimit : params.powLimit = ConsensusParams.mainnet.powLimit)
    (hpos : 0 < getTarget params bits) : 0 < calculateBlockWork params bits := by
  have hlt := getTarget_lt bits hlimit
  unfold calculateBlockWork
  dsimp only
  rw [if_neg (by omega)]
  exact Nat.div_pos (by omega) (by omega)

/-- The smaller of two accepted targets has at least the work of the other. -/
lemma calculateBlockWork_antitone {bits bits' : UInt32} (hpos : 0 < getTarget params bits)
    (hle : getTarget params bits ≤ getTarget params bits') :
    calculateBlockWork params bits' ≤ calculateBlockWork params bits := by
  unfold calculateBlockWork
  dsimp only
  rw [if_neg (by omega), if_neg (by omega)]
  apply Nat.div_le_div_left (by omega)
  omega

lemma foldl_calculateChainWork (headers : List BlockHeader) (total : ℕ) :
    headers.foldl (fun total header => total + calculateBlockWorkFromHeader params header) total =
      total + calculateChainWork params headers := by
  induction headers generalizing total with
  | nil => rfl
  | cons header rest ih =>
    rw [calculateChainWork, List.foldl_cons, List.foldl_cons, ih, ih (0 + _)]
    omega

lemma calculateChainWork_append (headers headers' : List BlockHeader) :
    calculateChainWork params (headers ++ headers') =
      calculateChainWork params headers + calculateChainWork params headers' := by
  rw [calculateChainWork, List.foldl_append, foldl_calculateChainWork]
  rfl

/-- A chain with work in each of its headers gains work with every header. -/
lemma calculateChainWork_take_lt {headers : List BlockHeader}
    (hpos : ∀ header ∈ headers, 0 < calculateBlockWork params header.bits) {i j : ℕ} (hij : i < j)
    (hj : j ≤ headers.length) :
    calculateChainWork params (headers.take i) < calculateChainWork params (headers.take j) := by
  induction j with
  | zero => omega
  | succ j ih =>
    have hget : headers[j]? = some headers[j] := List.getElem?_eq_getElem hj
    have hwork := hpos _ (List.mem_of_getElem? hget)
    have hlast : calculateChainWork params [headers[j]] = calculateBlockWork params headers[j].bits := by
      simp [calculateChainWork, calculateBlockWorkFromHeader]
    rw [List.take_succ_eq_append_getElem hj, calculateChainWork_append, hlast]
    rcases Nat.lt_succ_iff_lt_or_eq.1 hij with hlt | rfl
    · have hprefix := ih hlt (by omega)
      omega
    · omega

/-- What chain selection asks of the work: accepted bits are those of a header field, their work
is positive and grows as the target shrinks, and a chain gains work with every header. -/
structure Grows (params : ConsensusParams) : Prop where
  fits : ∀ bits t, decodeCompact params bits false = .ok t → bits < 2 ^ 32
  positive : ∀ (bits : UInt32) t, decodeCompact params bits.toNat false = .ok t →
    1 ≤ calculateBlockWork params bits
  antitone : ∀ (bits bits' : UInt32) t t', decodeCompact params bits.toNat false = .ok t →
    decodeCompact params bits'.toNat false = .ok t' → t ≤ t' →
    calculateBlockWork params bits' ≤ calculateBlockWork params bits
  strict : ∀ headers : List BlockHeader,
    (∀ header ∈ headers, ∃ t, decodeCompact params header.bits.toNat false = .ok t) →
    ∀ i j, i < j → j ≤ headers.length →
    calculateChainWork params (headers.take i) < calculateChainWork params (headers.take j)
  additive : ∀ headers headers' : List BlockHeader,
    calculateChainWork params (headers ++ headers') =
      calculateChainWork params headers + calculateChainWork params headers'

lemma lt_of_decodeCompact {bits t : ℕ} (h : decodeCompact params bits false = .ok t) :
    bits < 2 ^ 32 := by
  unfold decodeCompact at h
  dsimp only at h
  rw [Nat.shiftRight_eq_div_pow] at h
  split_ifs at h with hzero hnegative hoverflow
  omega

lemma powLimit_of_shipped (h : Shipped params) :
    params.powLimit = ConsensusParams.mainnet.powLimit := by
  obtain ⟨base, hbase, maturity, heights, rfl⟩ := h
  have hlimit : base.powLimit = ConsensusParams.mainnet.powLimit := by
    revert base
    decide
  exact hlimit

theorem grows_of_shipped (h : Shipped params) : Grows params := by
  have hlimit := powLimit_of_shipped h
  have hpositive : ∀ (bits : UInt32) t, decodeCompact params bits.toNat false = .ok t →
      1 ≤ calculateBlockWork params bits := by
    intro bits t hdecode
    apply calculateBlockWork_pos hlimit
    rw [getTarget_of_decodeCompact hdecode]
    exact (decodeCompact_bounds hdecode).1
  constructor
  · intro bits t hdecode
    exact lt_of_decodeCompact hdecode
  · exact hpositive
  · intro bits bits' t t' hdecode hdecode' hle
    apply calculateBlockWork_antitone
    · rw [getTarget_of_decodeCompact hdecode]
      exact (decodeCompact_bounds hdecode).1
    · rwa [getTarget_of_decodeCompact hdecode, getTarget_of_decodeCompact hdecode']
  · intro headers haccepted i j hij hj
    apply calculateChainWork_take_lt _ hij hj
    intro header hmem
    obtain ⟨t, hdecode⟩ := haccepted header hmem
    exact hpositive _ _ hdecode
  · exact calculateChainWork_append

theorem grows_mainnet : Grows ConsensusParams.mainnet :=
  grows_of_shipped ⟨ConsensusParams.mainnet, by simp, 100, [], rfl⟩

end ChainWork
end BerzCoin
