import BerzCoin.AppContext
import BerzCoin.ChainInvalidity

/-! `ChainState.initialize`: the block index is loaded, and an empty one gets the genesis block of
its network first. On regtest that block is made and stored, on the other networks its header is. -/
namespace BerzCoin
open Database BlockIndex

/-- The genesis fields of `ConsensusParams`, also those that the metadata files repeat. -/
structure GenesisMetadata where
  network : Network
  version : UInt32
  prevBlockHash : Bytes
  merkleRoot : Bytes
  timestamp : UInt32
  bits : UInt32
  nonce : UInt32
  hash : Bytes
  deriving DecidableEq

namespace ConsensusParams

def genesisTime : Network → UInt32
  | .mainnet => 1774569600
  | .testnet => 1774569660
  | .regtest => 1774569720

def genesisNonce : Network → UInt32
  | .mainnet => 24409
  | .testnet => 17146
  | .regtest => 25343

def genesisMerkleRoot : Network → Bytes
  | .mainnet => beBytes 32 0x2ed9e25352bd4cdbd52a7d5afc3b780f9dd5b2dd3425c66d8b8f1c45e72d74e2
  | .testnet => beBytes 32 0x50e9ba90db5c87178f43191d5d39f048593789a3f167b59b14887626479a5dbb
  | .regtest => beBytes 32 0xdc11f6262a71d2abf20588f8f537f8264f07432d3d539a482ade6756da7db514

def genesisBlockHash : Network → Bytes
  | .mainnet => beBytes 32 0x0000a2b00a878937fe2431db054cc73784721f63ee8bacffe1e0aa0612f01f25
  | .testnet => beBytes 32 0x0000a21d5c6616e56712e4e80ab1a3fb8d859bc386a54bf8e3cb3e104c96726f
  | .regtest => beBytes 32 0x0000febb790a74d4063fecb92bca9797baf04f499f1b0679cf942d746a4ff974

def genesisMetadata (params : ConsensusParams) : GenesisMetadata where
  network := params.network
  version := 1
  prevBlockHash := zeroHash
  merkleRoot := genesisMerkleRoot params.network
  timestamp := genesisTime params.network
  bits := params.genesisBits
  nonce := genesisNonce params.network
  hash := genesisBlockHash params.network

end ConsensusParams

def GenesisMetadata.header (metadata : GenesisMetadata) : BlockHeader where
  version := metadata.version
  prevBlockHash := metadata.prevBlockHash
  merkleRoot := metadata.merkleRoot
  timestamp := metadata.timestamp
  bits := metadata.bits
  nonce := metadata.nonce

namespace ProofOfWork

/-- The loop of `mine`, from a nonce on. -/
def mineFrom (H : Hashlib) (target : ℕ) (header : BlockHeader) : ℕ → ℕ → Option BlockHeader
  | 0, _ => none
  | tries + 1, nonce =>
    let tried := { header with nonce := UInt32.ofNat nonce }
    if tried.isValidPow H target then some tried else mineFrom H target header tries (nonce + 1)

/-- `mine`; `none` where the source returns `False`. -/
def mine (H : Hashlib) (params : ConsensusParams) (header : BlockHeader) (maxNonce : ℕ) :
    Option BlockHeader :=
  mineFrom H (getTarget params header.bits) header maxNonce 0

end ProofOfWork

namespace Node

/-- A node on an empty datadir. -/
def fresh (cacheSize : ℕ) (orphanage : Orphanage) : Node where
  session := ⟨⟨Tables.empty, none⟩, BlockIndex.empty⟩
  files := BlockFiles.init (fun _ => none) cacheSize
  bestHash := none
  bestHeight := -1
  bestChainwork := 0
  orphanage := orphanage

section genesis
variable (cfg : NodeConfig) (metadataFile : Option GenesisMetadata) (now : ℕ)

def raising {α : Type} : Except PyError α → NodeM α
  | .ok a => pure a
  | .error e => throw e

/-- `_load_and_validate_genesis_metadata`; the file may be missing or have other contents. -/
def loadAndValidateGenesisMetadata : Except PyError GenesisMetadata :=
  match metadataFile with
  | none => .error (.runtimeError "Missing genesis metadata file")
  | some got =>
    if got = cfg.params.genesisMetadata then .ok got
    else .error (.runtimeError "Genesis metadata mismatch")

def importGenesisHeaderAnchor : NodeM Unit := do
  let metadata ← raising (loadAndValidateGenesisMetadata cfg metadataFile)
  let header := metadata.header
  if header.hashHex cfg.crypto.toHashlib ≠ metadata.hash then
    throw (.runtimeError "Genesis header hash mismatch")
  raising (ConsensusRules.validateBlockHeader cfg.crypto.toHashlib cfg.params now header)
  onChain (HeaderChain.addHeader cfg.crypto.toHashlib header 0
    (ChainWork.calculateBlockWork cfg.params header.bits))

def genesisCoinbase : Transaction where
  version := 1
  vin := [⟨zeroHash, 0xFFFFFFFF, [0x01, 0x00], 0xFFFFFFFF, []⟩]
  vout := [⟨0, []⟩]
  locktime := 0

def syntheticHeader : BlockHeader where
  version := 1
  prevBlockHash := zeroHash
  merkleRoot := (merkleRoot cfg.crypto.toHashlib
    [genesisCoinbase.txid cfg.crypto.toHashlib]).getD zeroHash
  timestamp := ConsensusParams.genesisTime .regtest
  bits := cfg.params.genesisBits
  nonce := 0

def importSyntheticGenesisForRegtest : NodeM Unit := do
  match ProofOfWork.mine cfg.crypto.toHashlib cfg.params (syntheticHeader cfg) 5000000 with
  | none => throw (.runtimeError "Failed to mine synthetic regtest genesis")
  | some header =>
    let block : Block := ⟨header, [genesisCoinbase]⟩
    let tables ← onChain (execute (.query id))
    raising (ConsensusRules.validateBlock cfg.crypto.toHashlib cfg.params
      (lookupOutputValue tables) now block 0)
    onFiles (BlockFiles.writeBlock cfg.crypto.toHashlib block 0 now)

/-- `block_index.load`, and the tip that it chose. -/
def loadBest : NodeM Unit := do
  onChain BlockIndex.load
  let b ← onChain (BlockIndex.read id)
  modify fun node => { node with bestHeight := b.bestHeight, bestHash := b.bestHash }

def reloadBestFromIndex : NodeM Unit := do
  onChain BlockIndex.clear
  loadBest

/-- `initialize`. -/
def initializeChainState : NodeM Unit := do
  loadBest
  if (← get).bestHeight < 0 then
    if cfg.params.network = .regtest then importSyntheticGenesisForRegtest cfg now
    else importGenesisHeaderAnchor cfg metadataFile now
    reloadBestFromIndex
  let node ← get
  match node.bestHash.bind node.session.memory.getBlock with
  | none => return ()
  | some entry => modify fun node => { node with bestChainwork := entry.chainwork }

end genesis
end Node
end BerzCoin
