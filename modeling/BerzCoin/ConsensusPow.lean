import BerzCoin.ConsensusParams
import BerzCoin.CoreTransaction

/-! `ProofOfWork` and `ChainWork`: compact targets, retargeting and the work of a header. -/
namespace BerzCoin

namespace ProofOfWork
variable (params : ConsensusParams)

/-- The shift of the coefficient in a compact target. -/
def shiftedCoefficient (exponent coefficient : ℕ) : ℕ :=
  if exponent ≤ 3 then coefficient >>> (8 * (3 - exponent))
  else coefficient <<< (8 * (exponent - 3))

/-- `get_target`; 0 where `decode_compact` refuses the bits. -/
def getTarget (bits : UInt32) : ℕ :=
  let exponent := bits.toNat >>> 24
  let coefficient := bits.toNat &&& 0x007fffff
  let target := shiftedCoefficient exponent coefficient
  if coefficient = 0 then 0
  else if bits.toNat &&& 0x00800000 ≠ 0 then 0
  else if 34 < exponent ∨ (0xFF < coefficient ∧ 33 < exponent) ∨
      (0xFFFF < coefficient ∧ 32 < exponent) then 0
  else if params.powLimit < target then 0
  else target

/-- `validate`. -/
def validate (H : Hashlib) (header : BlockHeader) : Bool :=
  0 < getTarget params header.bits && header.isValidPow H (getTarget params header.bits)

def getBits (target : ℕ) : ℕ :=
  if target = 0 then 0
  else
    let target := min target params.powLimit
    let targetBytes := beBytes 32 target
    let i := (targetBytes.takeWhile (· = 0)).length
    if i = 32 then 0
    else
      let exponent := 32 - i
      let coefficient := beNat (slice targetBytes i 3)
      if 0x800000 ≤ coefficient then ((exponent + 1) <<< 24) ||| (coefficient >>> 8)
      else (exponent <<< 24) ||| coefficient

/-- The clamp of the time span to a quarter and four times the target span. -/
def clampTimespan (timespan : ℤ) : ℕ :=
  let targetSpan := params.powTargetTimespan
  let minTimespan := max 1 (targetSpan / 4)
  let maxTimespan := max 1 (targetSpan * 4)
  if timespan < minTimespan then minTimespan
  else if (maxTimespan : ℤ) < timespan then maxTimespan
  else timespan.toNat

/-- `get_next_work_required` at a retarget boundary, for the first and the last header of the
interval. -/
def nextWorkRequired (first last : BlockHeader) : ℕ :=
  let timespan := clampTimespan params ((last.timestamp.toNat : ℤ) - first.timestamp.toNat)
  let newTarget := getTarget params last.bits * timespan / max 1 params.powTargetTimespan
  getBits params (max 1 (min newTarget params.powLimit))

/-- `get_next_work_required` for the headers up to the tip at `height`. -/
def getNextWorkRequired (lastHeaders : List BlockHeader) (height : ℕ) : ℕ :=
  match lastHeaders with
  | [] => params.genesisBits.toNat
  | first :: rest =>
    let last := (first :: rest).getLast (List.cons_ne_nil first rest)
    if params.powNoRetargeting then last.bits.toNat
    else if (height + 1) % params.retargetIntervalBlocks ≠ 0 then last.bits.toNat
    else nextWorkRequired params first last

end ProofOfWork

namespace ChainWork

def calculateBlockWork (params : ConsensusParams) (bits : UInt32) : ℕ :=
  let target := ProofOfWork.getTarget params bits
  if target = 0 then 0 else params.powLimit / (target + 1)

end ChainWork
end BerzCoin
