import BerzCoin.ConsensusParams
import BerzCoin.CoreTransaction

/-! Version bits: the state of the deployments of a network, moved on by one call for the tip of a
chain. -/
namespace BerzCoin

inductive DeploymentState
  | DEFINED | STARTED | LOCKED_IN | ACTIVE | FAILED
  deriving DecidableEq, Repr

structure VersionBitsDeployment where
  name : String
  bit : ℕ
  startTime : ℕ
  timeout : ℕ
  minActivationHeight : ℕ := 0
  state : DeploymentState := .DEFINED
  sinceHeight : ℕ := 0
  deriving DecidableEq, Repr

/-- `get_deployment_definitions`. -/
def getDeploymentDefinitions : Network → List VersionBitsDeployment
  | .regtest =>
    [{ name := "testdummy", bit := 28, startTime := 0, timeout := 2147483647 },
      { name := "csv", bit := 0, startTime := 0, timeout := 2147483647 },
      { name := "segwit", bit := 1, startTime := 0, timeout := 2147483647 }]
  | _ =>
    [{ name := "testdummy", bit := 28, startTime := 1199145601, timeout := 1230767999 },
      { name := "csv", bit := 0, startTime := 1462060800, timeout := 1493596800 },
      { name := "segwit", bit := 1, startTime := 1479168000, timeout := 1510704000 }]

def VersionBitsDeployment.isSupported (d : VersionBitsDeployment) (version : ℕ) : Bool :=
  version.testBit d.bit

namespace VersionBitsTracker

def windowSize : ℕ := 2016

def threshold : ℕ := 1916

def updateDeploymentState (height time : ℕ) (versions : List ℕ) (d : VersionBitsDeployment) :
    VersionBitsDeployment :=
  match d.state with
  | .DEFINED =>
    if d.startTime ≤ time ∧ time < d.timeout then { d with state := .STARTED, sinceHeight := height }
    else d
  | .STARTED =>
    if d.timeout ≤ time then { d with state := .FAILED }
    else if versions.length < windowSize then d
    else if threshold ≤ versions.countP d.isSupported then
      { d with state := .LOCKED_IN, sinceHeight := height }
    else d
  | .LOCKED_IN =>
    if max (d.sinceHeight + windowSize) d.minActivationHeight ≤ height then { d with state := .ACTIVE }
    else d
  | .ACTIVE => d
  | .FAILED => d

def updateState (deployments : List VersionBitsDeployment) (height time : ℕ) (versions : List ℕ) :
    List VersionBitsDeployment :=
  deployments.map (updateDeploymentState height time versions)

/-- The deployment stays in its state at a tip. -/
def Waiting (height time : ℕ) (versions : List ℕ) (d : VersionBitsDeployment) : Prop :=
  match d.state with
  | .DEFINED => time < d.startTime ∨ d.timeout ≤ time
  | .STARTED => time < d.timeout ∧
      (versions.length < windowSize ∨ versions.countP d.isSupported < threshold)
  | .LOCKED_IN => height < max (d.sinceHeight + windowSize) d.minActivationHeight
  | .ACTIVE => True
  | .FAILED => True

lemma Waiting.updateDeploymentState {height time : ℕ} {versions : List ℕ}
    {d : VersionBitsDeployment} (h : Waiting height time versions d) :
    VersionBitsTracker.updateDeploymentState height time versions d = d := by
  unfold Waiting at h
  unfold VersionBitsTracker.updateDeploymentState
  cases hstate : d.state with
  | DEFINED =>
    simp only [hstate] at h ⊢
    rw [if_neg (by omega)]
  | STARTED =>
    simp only [hstate] at h ⊢
    rw [if_neg (by omega)]
    split
    · rfl
    · rw [if_neg (by omega)]
  | LOCKED_IN =>
    simp only [hstate] at h ⊢
    rw [if_neg (by omega)]
  | ACTIVE => rfl
  | FAILED => rfl

/-- Bits miners should set while a deployment is progressing. -/
def getSignalingMask (deployments : List VersionBitsDeployment) : ℕ :=
  deployments.foldl (fun mask d =>
    if d.state = .STARTED ∨ d.state = .LOCKED_IN then mask ||| (1 <<< d.bit) else mask) 0

def getBlockVersion (deployments : List VersionBitsDeployment) (baseVersion : ℕ) : ℕ :=
  baseVersion ||| getSignalingMask deployments

/-! The states as a function of a chain. -/

/-- The versions of the last window of a chain. -/
def recentVersions (chain : List BlockHeader) : List ℕ :=
  (chain.drop (chain.length - windowSize)).map fun header => header.version.toNat

/-- One update at the tip of a chain. -/
def updateAt (deployments : List VersionBitsDeployment) (chain : List BlockHeader) :
    List VersionBitsDeployment :=
  match chain.getLast? with
  | none => deployments
  | some tip =>
    updateState deployments (chain.length - 1) tip.timestamp.toNat (recentVersions chain)

lemma updateAt_of_waiting {deployments : List VersionBitsDeployment} {chain : List BlockHeader}
    (h : ∀ tip, chain.getLast? = some tip → ∀ d ∈ deployments,
      Waiting (chain.length - 1) tip.timestamp.toNat (recentVersions chain) d) :
    updateAt deployments chain = deployments := by
  rw [updateAt]
  split
  · rfl
  · rename_i tip htip
    rw [updateState]
    conv_rhs => rw [← List.map_id deployments]
    apply List.map_congr_left
    intro d hd
    exact (h tip htip d hd).updateDeploymentState

/-- One update for each block, the newest header first. -/
def statesAfterReversed (initial : List VersionBitsDeployment) :
    List BlockHeader → List VersionBitsDeployment
  | [] => initial
  | tip :: older => updateAt (statesAfterReversed initial older) (tip :: older).reverse

/-- The states after one update for each block of a chain. -/
def statesAfter (initial : List VersionBitsDeployment) (chain : List BlockHeader) :
    List VersionBitsDeployment :=
  statesAfterReversed initial chain.reverse

@[simp] lemma statesAfter_nil (initial : List VersionBitsDeployment) : statesAfter initial [] = initial :=
  rfl

lemma statesAfter_concat (initial : List VersionBitsDeployment) (chain : List BlockHeader)
    (tip : BlockHeader) :
    statesAfter initial (chain ++ [tip]) = updateAt (statesAfter initial chain) (chain ++ [tip]) := by
  simp [statesAfter, statesAfterReversed]

end VersionBitsTracker
end BerzCoin
