import BerzCoin.ChainHeaders
import BerzCoin.ConsensusRules
import BerzCoin.ProtocolMessages

/-! Header synchronisation: the locator of `BlockSync`, the `getheaders` handler and
`process_headers`. -/
namespace BerzCoin

/-- What of `ChainState` header synchronisation uses; `readBlockByHash` asks the block store. -/
structure SyncChain where
  blockIndex : BlockIndex
  bestHeight : ℤ
  headerChain : CachedHeaders
  readBlockByHash : Bytes → Option Block

namespace SyncChain
variable (chain : SyncChain)

def getBlockByHeight (height : ℕ) : Option Block :=
  match chain.blockIndex.getBlockByHeight height with
  | none => none
  | some entry => chain.readBlockByHash entry.blockHash

/-- Lookups fill the caches of the header chain. -/
def withHeaders {α : Type} (result : α × CachedHeaders) : α × SyncChain :=
  (result.1, { chain with headerChain := result.2 })

def getHeader (height : ℕ) : Option BlockHeader × SyncChain :=
  match chain.blockIndex.getBlockByHeight height with
  | none => (none, chain)
  | some entry => chain.withHeaders (chain.headerChain.getHeaderByHash entry.blockHash)

def getHeight (blockHash : Bytes) : Option ℕ × SyncChain :=
  chain.withHeaders (chain.headerChain.getHeight blockHash)

end SyncChain

namespace BlockSync
variable (H : Hashlib)

/-- The loop of `_build_locator`: the step doubles once more than ten hashes are there. -/
def locatorLoop (getBlock : ℕ → Option Block) : ℕ → ℤ → ℕ → List Bytes → List Bytes
  | 0, _, _, locator => locator
  | fuel + 1, height, step, locator =>
    if 0 ≤ height ∧ locator.length < 100 then
      let locator := match getBlock height.toNat with
        | none => locator
        | some block => locator ++ [block.header.hash H]
      let step := if 10 < locator.length then step * 2 else step
      locatorLoop getBlock fuel (height - step) step locator
    else locator

/-- `_build_locator`. The height goes down by at least one in each round. -/
def buildLocator (chain : SyncChain) : List Bytes :=
  let locator := locatorLoop H chain.getBlockByHeight (chain.bestHeight + 1).toNat chain.bestHeight 1 []
  match chain.getBlockByHeight 0 with
  | none => locator
  | some genesis => locator ++ [genesis.header.hash H]

/-- The height after the first known block of the locator; 0 if there is none. -/
def startHeight (chain : SyncChain) : List Bytes → ℕ × SyncChain
  | [] => (0, chain)
  | locatorHash :: rest =>
    match chain.getHeight locatorHash with
    | (some h, chain) => (h + 1, chain)
    | (none, chain) => startHeight chain rest

/-- The headers at the given heights that are found. -/
def collectHeaders (chain : SyncChain) : List ℕ → List Bytes × SyncChain
  | [] => ([], chain)
  | h :: heights =>
    match chain.getHeader h with
    | (none, chain) => collectHeaders chain heights
    | (some header, chain) =>
      let (headers, chain) := collectHeaders chain heights
      (header.serialize :: headers, chain)

/-- The `getheaders` handler. -/
def answerGetheaders (chain : SyncChain) (req : GetHeadersMessage) : HeadersMessage × SyncChain :=
  let (start, chain) := startHeight chain req.blockLocatorHashes
  let stop := (min (chain.bestHeight + 1) (start + 2000)).toNat
  let (headers, chain) := collectHeaders chain (List.range' start (stop - start))
  (⟨headers⟩, chain)

/-- The client's `getheaders`, the server's `headers`, and what the client reads of it. -/
def exchangeHeaders (client server : SyncChain) : Except PyError (List Bytes) := do
  let request : GetHeadersMessage := { blockLocatorHashes := buildLocator H client }
  let (req, _) ← GetHeadersMessage.deserialize request.serialize 0
  let (reply, _) := answerGetheaders server req
  let (message, _) ← HeadersMessage.deserialize reply.serialize 0
  return message.headers

variable (params : ConsensusParams)

/-- The headers from the place `i` on, until one is invalid. -/
def storeHeaders (now : ℕ) : SyncChain → ℕ → List BlockHeader → SyncChain × Except PyError Unit
  | chain, _, [] => (chain, .ok ())
  | chain, i, header :: rest =>
    let height := (chain.bestHeight + 1 + i).toNat
    let (_, chain) := if height = 0 then (none, chain) else chain.getHeader (height - 1)
    match ConsensusRules.validateBlockHeader H params now header with
    | .error e => (chain, .error e)
    | .ok () =>
      let chainwork := ChainWork.calculateBlockWork params header.bits
      storeHeaders now { chain with
        headerChain := chain.headerChain.addHeader H header height chainwork } (i + 1) rest

/-- `process_headers`, up to the requests it sends at its end. -/
def processHeaders (now : ℕ) (chain : SyncChain) (headers : List Bytes) :
    SyncChain × Except PyError Unit :=
  match headers.mapM fun data => BlockHeader.deserialize data 0 with
  | .error e => (chain, .error e)
  | .ok parsed => storeHeaders H params now chain 0 (parsed.map Prod.fst)

end BlockSync

/-! A genesis header and a header on top of it. -/
namespace HeaderExample

def headerOn (prevBlockHash : Bytes) (timestamp nonce : UInt32) : BlockHeader :=
  { version := 1
    prevBlockHash
    merkleRoot := zeroHash
    timestamp
    bits := 0x207fffff
    nonce }

def genesis : BlockHeader := headerOn zeroHash 1000 0

def genesisHash : ℕ := 0x3dcb75bd89c5146815ddc0d1d7314cb74619fdf72bfd6a733784a15bffb61dbb

def genesisKey : Bytes := (beBytes 32 genesisHash).reverse

def child : BlockHeader := headerOn genesisKey 1001 3

def childHash : ℕ := 0x398fd315e9b135c6032760051ea5b240696a554955c1531fbd1c562c2fe1df45

def childKey : Bytes := (beBytes 32 childHash).reverse

def hashlib : Hashlib := Hashlib.padded <| Hashlib.ofDoubleDigests [
  (genesis.serialize,
    0x1c87ad378f939631187f0dad9d340115791f20890e5cff10057e4188f26a32b9, genesisHash),
  (child.serialize,
    0xefd3cf3354e85e9f38746d32267dff00175319c7203bae2f763ed39e42fbceb6, childHash)]

/-- The row of a header that on a chain from genesis has the given height. -/
def rowAt (height : ℕ) (header : BlockHeader) : HeaderRow :=
  { height, header, chainwork := some (height + 1), isValid := true, statusFlags := {.HEADER, .VALID} }

def entryAt (height : ℕ) (blockHash : Bytes) (header : BlockHeader) : BlockIndexEntry :=
  ⟨height, blockHash, header, height + 1, {.HEADER, .BLOCK, .VALID, .MAIN_CHAIN}⟩

/-- A node that has the given blocks, from genesis on, as its main chain. -/
def nodeWith (blocks : List (Bytes × BlockHeader)) : SyncChain :=
  let entries := blocks.zipIdx.map fun p => entryAt p.2 p.1.1 p.1.2
  { blockIndex :=
      { index := entries.foldl (fun index entry => index.put entry.blockHash entry) KeyedRows.empty
        heightIndex := BlockIndex.chainMap entries
        bestHeight := blocks.length - 1
        bestHash := blocks.getLast?.map Prod.fst }
    bestHeight := blocks.length - 1
    headerChain :=
      { rows := blocks.zipIdx.foldl (fun rows p => rows.put p.1.1 (rowAt p.2 p.1.2)) KeyedRows.empty }
    readBlockByHash := fun blockHash => (blocks.lookup blockHash).map fun header => ⟨header, []⟩ }

def genesisNode : SyncChain := nodeWith [(genesisKey, genesis)]

def childNode : SyncChain := nodeWith [(genesisKey, genesis), (childKey, child)]

end HeaderExample
end BerzCoin
