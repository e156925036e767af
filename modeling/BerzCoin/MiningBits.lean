import BerzCoin.ChainValidation

/-! The difficulty of the next block. The miner, the block assembler, the RPC handlers and the
validator each pick the headers of the retarget window on their own. -/
namespace BerzCoin

/-- `getHeader` is `chainstate.get_header`. -/
def MiningNode.getNextBits (params : ConsensusParams) (getHeader : ℕ → Option BlockHeader)
    (bestHeader : BlockHeader) (height : ℕ) : ℕ :=
  if height = 0 then params.genesisBits.toNat
  else if params.powNoRetargeting then bestHeader.bits.toNat
  else
    let interval := max 1 params.retargetIntervalBlocks
    if height % interval ≠ 0 then bestHeader.bits.toNat
    else if height < interval then bestHeader.bits.toNat
    else
      match (List.range' (height - interval) interval).mapM getHeader with
      | none => bestHeader.bits.toNat
      | some headers => ProofOfWork.getNextWorkRequired params headers (height - 1)

/-- The headers at the heights from `start` up to the tip; heights without a header are left out. -/
def windowHeaders (getHeader : ℕ → Option BlockHeader) (bestHeight interval : ℕ) : List BlockHeader :=
  let start := bestHeight - (interval - 1)
  (List.range' start (bestHeight + 1 - start)).filterMap getHeader

def BlockAssembler.getNextBits (params : ConsensusParams) (getHeader : ℕ → Option BlockHeader)
    (bestHeight : ℕ) : ℕ :=
  let interval := params.retargetIntervalBlocks
  let headers := windowHeaders getHeader bestHeight interval
  if headers.length < interval then
    match headers.getLast? with
    | some last => last.bits.toNat
    | none => params.genesisBits.toNat
  else ProofOfWork.getNextWorkRequired params headers bestHeight

def MiningHandlers.nextBits (params : ConsensusParams) (getHeader : ℕ → Option BlockHeader)
    (bestHeight : ℕ) (tipHeader : BlockHeader) : ℕ :=
  let interval := params.retargetIntervalBlocks
  let headers := windowHeaders getHeader bestHeight interval
  if headers.length < interval then tipHeader.bits.toNat
  else ProofOfWork.getNextWorkRequired params headers bestHeight

/-- What the next block has to show after a main chain. -/
def nextBits (params : ConsensusParams) (chain : List BlockHeader) (tip : BlockHeader) : ℕ :=
  let interval := params.retargetIntervalBlocks
  if params.powNoRetargeting ∨ chain.length % interval ≠ 0 then tip.bits.toNat
  else
    match chain[chain.length - interval]? with
    | none => tip.bits.toNat
    | some first => ProofOfWork.nextWorkRequired params first tip

section window
variable {α : Type} {chain : List α} {get : ℕ → Option α}

/-- The headers of a window of the chain. -/
lemma mapM_window (hget : ∀ h < chain.length, get h = chain[h]?) {start count : ℕ}
    (hle : start + count ≤ chain.length) :
    (List.range' start count).mapM get = some ((chain.drop start).take count) := by
  induction count generalizing start with
  | zero => simp
  | succ count ih =>
    have hlt : start < chain.length := by omega
    have hhead : get start = some chain[start] := by
      rw [hget start hlt, List.getElem?_eq_getElem hlt]
    rw [List.range'_succ, List.mapM_cons, hhead, ih (by omega), List.drop_eq_getElem_cons hlt]
    rfl

lemma filterMap_window (hget : ∀ h < chain.length, get h = chain[h]?) {start count : ℕ}
    (hle : start + count ≤ chain.length) :
    (List.range' start count).filterMap get = (chain.drop start).take count := by
  induction count generalizing start with
  | zero => simp
  | succ count ih =>
    have hlt : start < chain.length := by omega
    have hhead : get start = some chain[start] := by
      rw [hget start hlt, List.getElem?_eq_getElem hlt]
    rw [List.range'_succ, List.filterMap_cons_some hhead, ih (by omega), List.drop_eq_getElem_cons hlt]
    rfl

end window

section chain
variable {params : ConsensusParams} {getHeader : ℕ → Option BlockHeader} {chain : List BlockHeader}
  {tip : BlockHeader}

lemma retargetIntervalBlocks_pos : 0 < params.retargetIntervalBlocks := by
  unfold ConsensusParams.retargetIntervalBlocks
  omega

/-- The last window of a chain decides over the bits of the next block. -/
lemma getNextWorkRequired_window (htip : chain.getLast? = some tip)
    (hle : params.retargetIntervalBlocks ≤ chain.length) :
    ProofOfWork.getNextWorkRequired params (chain.drop (chain.length - params.retargetIntervalBlocks))
      (chain.length - 1) = nextBits params chain tip := by
  have hpos := @retargetIntervalBlocks_pos params
  have hlt : chain.length - params.retargetIntervalBlocks < chain.length := by omega
  have hheight : chain.length - 1 + 1 = chain.length := by omega
  have hdrop := List.drop_eq_getElem_cons hlt
  have hlast : (chain.drop (chain.length - params.retargetIntervalBlocks)).getLast? = some tip := by
    rw [List.getLast?_drop, if_neg (Nat.not_le.2 hlt), htip]
  rw [hdrop, List.getLast?_eq_some_getLast (List.cons_ne_nil _ _)] at hlast
  have htip' := Option.some.inj hlast
  rw [hdrop]
  simp only [ProofOfWork.getNextWorkRequired, nextBits, htip', hheight, List.getElem?_eq_getElem hlt]
  split_ifs with hno hboundary hno' hno'
  · rfl
  · tauto
  · rfl
  · tauto
  · tauto
  · rfl

/-- Below one interval nothing is retargeted. -/
lemma nextBits_short (hlt : chain.length < params.retargetIntervalBlocks) (hpos : 0 < chain.length) :
    nextBits params chain tip = tip.bits.toNat := by
  rw [nextBits, if_pos]
  right
  rw [Nat.mod_eq_of_lt hlt]
  omega

variable (hheader : ∀ h < chain.length, getHeader h = chain[h]?) (htip : chain.getLast? = some tip)
include hheader htip

lemma windowHeaders_eq :
    windowHeaders getHeader (chain.length - 1) params.retargetIntervalBlocks =
      chain.drop (chain.length - params.retargetIntervalBlocks) := by
  have hpos := @retargetIntervalBlocks_pos params
  have hne : 0 < chain.length := by
    cases chain with
    | nil => cases htip
    | cons a l => exact Nat.succ_pos _
  have hstart : chain.length - 1 - (params.retargetIntervalBlocks - 1) =
      chain.length - params.retargetIntervalBlocks := by omega
  rw [windowHeaders, hstart, filterMap_window hheader (by omega), List.take_of_length_le]
  rw [List.length_drop]
  omega

lemma MiningNode.getNextBits_eq :
    MiningNode.getNextBits params getHeader tip chain.length = nextBits params chain tip := by
  have hpos := @retargetIntervalBlocks_pos params
  have hne : 0 < chain.length := by
    cases chain with
    | nil => cases htip
    | cons a l => exact Nat.succ_pos _
  have hinterval : max 1 params.retargetIntervalBlocks = params.retargetIntervalBlocks := by omega
  simp only [MiningNode.getNextBits, hinterval]
  split_ifs with hzero hno hboundary hshort
  · omega
  · rw [nextBits, if_pos (.inl hno)]
  · rw [nextBits, if_pos (.inr hboundary)]
  · rw [nextBits_short hshort hne]
  · rw [mapM_window hheader (by omega), List.take_of_length_le (by rw [List.length_drop]; omega)]
    exact getNextWorkRequired_window htip (by omega)

lemma BlockAssembler.getNextBits_eq :
    BlockAssembler.getNextBits params getHeader (chain.length - 1) = nextBits params chain tip := by
  have hne : 0 < chain.length := by
    cases chain with
    | nil => cases htip
    | cons a l => exact Nat.succ_pos _
  have hwindow := @windowHeaders_eq params getHeader chain tip hheader htip
  simp only [BlockAssembler.getNextBits, hwindow, List.length_drop]
  split_ifs with hshort
  · rw [List.getLast?_drop, if_neg (by omega), htip, nextBits_short (by omega) hne]
  · exact getNextWorkRequired_window htip (by omega)

lemma MiningHandlers.nextBits_eq :
    MiningHandlers.nextBits params getHeader (chain.length - 1) tip =
      BerzCoin.nextBits params chain tip := by
  have hne : 0 < chain.length := by
    cases chain with
    | nil => cases htip
    | cons a l => exact Nat.succ_pos _
  have hwindow := @windowHeaders_eq params getHeader chain tip hheader htip
  simp only [MiningHandlers.nextBits, hwindow, List.length_drop]
  split_ifs with hshort
  · rw [nextBits_short (by omega) hne]
  · exact getNextWorkRequired_window htip (by omega)

omit hheader in
lemma BlockValidator.expectedBitsForHeight_eq {b : BlockIndex} {prevEntry : BlockIndexEntry}
    (hindex : ∀ h < chain.length, (b.getBlockByHeight h).map BlockIndexEntry.header = chain[h]?)
    (hprev : prevEntry.header = tip) :
    BlockValidator.expectedBitsForHeight params b chain.length prevEntry =
      some (nextBits params chain tip) := by
  have hpos := @retargetIntervalBlocks_pos params
  have hne : 0 < chain.length := by
    cases chain with
    | nil => cases htip
    | cons a l => exact Nat.succ_pos _
  have hinterval : max 1 params.retargetIntervalBlocks = params.retargetIntervalBlocks := by omega
  simp only [BlockValidator.expectedBitsForHeight, hinterval, hprev]
  split_ifs with hzero hkeep
  · omega
  · rcases hkeep with hno | hboundary | hshort
    · rw [nextBits, if_pos (.inl hno)]
    · rw [nextBits, if_pos (.inr hboundary)]
    · rw [nextBits_short hshort hne]
  · simp only [not_or, not_not, Nat.not_lt] at hkeep
    obtain ⟨hno, hboundary, hle⟩ := hkeep
    have hheight : chain.length - 1 + 1 = chain.length := by omega
    have hwindow := getNextWorkRequired_window htip hle
    rw [BlockValidator.headersFrom, mapM_window hindex (by omega),
      List.take_of_length_le (by rw [List.length_drop]; omega)]
    rw [List.drop_eq_getElem_cons (by omega)] at hwindow ⊢
    simp only [ProofOfWork.getNextWorkRequired, hheight, hboundary, ne_eq, not_true_eq_false, if_false,
      hno] at hwindow
    simp only [← hwindow]
    rfl

end chain

/-- The four computations of the bits of the next block agree. -/
theorem nextBits_agree (params : ConsensusParams) (getHeader : ℕ → Option BlockHeader) (b : BlockIndex)
    (chain : List BlockHeader) (hne : chain ≠ []) (tipEntry : BlockIndexEntry)
    (htip : tipEntry.header = chain.getLast hne)
    (hheader : ∀ h < chain.length, getHeader h = chain[h]?)
    (hindex : ∀ h < chain.length, (b.getBlockByHeight h).map BlockIndexEntry.header = chain[h]?) :
    ∃ bits, MiningNode.getNextBits params getHeader (chain.getLast hne) chain.length = bits ∧
      BlockAssembler.getNextBits params getHeader (chain.length - 1) = bits ∧
      MiningHandlers.nextBits params getHeader (chain.length - 1) (chain.getLast hne) = bits ∧
      BlockValidator.expectedBitsForHeight params b chain.length tipEntry = some bits := by
  have hlast := List.getLast?_eq_some_getLast hne
  exact ⟨nextBits params chain (chain.getLast hne), MiningNode.getNextBits_eq hheader hlast,
    BlockAssembler.getNextBits_eq hheader hlast, MiningHandlers.nextBits_eq hheader hlast,
    BlockValidator.expectedBitsForHeight_eq hlast hindex htip⟩

/-! Two blocks and an interval of two blocks: the next block is at a boundary. -/
namespace RetargetExample

def params : ConsensusParams :=
  { ConsensusParams.mainnet with powTargetSpacing := 600, powTargetTimespan := 1200 }

def header (timestamp : UInt32) : BlockHeader := ⟨1, zeroHash, zeroHash, timestamp, 0x1f7fffff, 0⟩

def entry (height : ℕ) (timestamp : UInt32) : BlockIndexEntry :=
  ⟨height, [UInt8.ofNat height], header timestamp, 1, {.MAIN_CHAIN}⟩

def index : BlockIndex where
  index := (KeyedRows.empty.put [0] (entry 0 1000)).put [1] (entry 1 1500)
  heightIndex h := if h < 2 then some [UInt8.ofNat h] else none
  bestHeight := 1
  bestHash := some [1]

def chain : List BlockHeader := [header 1000, header 1500]

end RetargetExample

open RetargetExample in
theorem nextBits_agree_boundary :
    ∃ bits, MiningNode.getNextBits params (chain[·]?) (header 1500) 2 = bits ∧
      BlockAssembler.getNextBits params (chain[·]?) 1 = bits ∧
      MiningHandlers.nextBits params (chain[·]?) 1 (header 1500) = bits ∧
      BlockValidator.expectedBitsForHeight params index 2 (entry 1 1500) = some bits :=
  nextBits_agree params (chain[·]?) index chain (by decide) (entry 1 1500) rfl (by decide) (by decide)

end BerzCoin
