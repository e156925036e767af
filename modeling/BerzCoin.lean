import BerzCoin.Bytes
import BerzCoin.BigEndian
import BerzCoin.OrderedMatching
import BerzCoin.ModularPower
import BerzCoin.CoreSerialization
import BerzCoin.CoreTransaction
import BerzCoin.CoreReaders
import BerzCoin.CoreTransactionCodec
import BerzCoin.CoreBlockCodec
import BerzCoin.ProtocolMessages
import BerzCoin.ProtocolMessagesCodec
import BerzCoin.ProtocolVersionCodec
import BerzCoin.ChunkedReader
import BerzCoin.ScriptOpcodes
import BerzCoin.ScriptSigchecks
import BerzCoin.CryptoSecp256k1
import BerzCoin.CryptoSecp256k1Field
import BerzCoin.CryptoSecp256k1Group
import BerzCoin.CryptoSecp256k1Signing
import BerzCoin.CryptoKeys
import BerzCoin.CryptoSignatures
import BerzCoin.ScriptSighash
import BerzCoin.ScriptTaprootSighash
import BerzCoin.ScriptEngine
import BerzCoin.ScriptMultisig
import BerzCoin.ScriptTapscript
import BerzCoin.ScriptVerify
import BerzCoin.ScriptBoundary
import BerzCoin.ScriptStackOps
import BerzCoin.ScriptRedeem
import BerzCoin.ScriptVerifyForms
import BerzCoin.ScriptPushes
import BerzCoin.ScriptConditionals
import BerzCoin.ScriptSkips
import BerzCoin.Topological
import BerzCoin.Lineage
import BerzCoin.KeyedRows
import BerzCoin.UndoLog
import BerzCoin.ParentPath
import BerzCoin.WhileLoop
import BerzCoin.SqlConnection
import BerzCoin.StorageDatabase
import BerzCoin.StorageInside
import BerzCoin.CryptoAddress
import BerzCoin.Numerals
import BerzCoin.XorRegister
import BerzCoin.CryptoBase58
import BerzCoin.CryptoBech32Groups
import BerzCoin.CryptoBech32
import BerzCoin.CryptoAddressIndex
import BerzCoin.ProtocolCodec
import BerzCoin.P2pPeer
import BerzCoin.P2pFraming
import BerzCoin.ProtocolCommands
import BerzCoin.StorageTables
import BerzCoin.ChainBlockIndex
import BerzCoin.StorageBlocks
import BerzCoin.ValidationConnect
import BerzCoin.ValidationEffects
import BerzCoin.ValidationOps
import BerzCoin.ValidationRoundTrip
import BerzCoin.ValidationAtomic
import BerzCoin.ChainReorg
import BerzCoin.ChainReorgFrame
import BerzCoin.ChainIndexShape
import BerzCoin.ChainReorgSteps
import BerzCoin.ChainReorgAtomic
import BerzCoin.ChainReorgPreflight
import BerzCoin.StorageGrowth
import BerzCoin.ChainReorgDryRun
import BerzCoin.ChainAncestry
import BerzCoin.ChainReorgContext
import BerzCoin.ChainReorgReports
import BerzCoin.ConsensusParams
import BerzCoin.ConsensusPow
import BerzCoin.ConsensusCompact
import BerzCoin.ConsensusDifficulty
import BerzCoin.ConsensusSubsidy
import BerzCoin.ConsensusSequenceLocks
import BerzCoin.ChainValidation
import BerzCoin.ChainSupply
import BerzCoin.ChainOverwrite
import BerzCoin.StorageBlockFiles
import BerzCoin.ChainTimelock
import BerzCoin.P2pOrphanage
import BerzCoin.ConsensusRules
import BerzCoin.PairTree
import BerzCoin.ConsensusMerkle
import BerzCoin.CoreMerkleTree
import BerzCoin.AppOnBlock
import BerzCoin.AppPipeline
import BerzCoin.AppRuns
import BerzCoin.AppRejected
import BerzCoin.AppContext
import BerzCoin.AppStored
import BerzCoin.MempoolPolicy
import BerzCoin.MempoolPushes
import BerzCoin.ScriptStandard
import BerzCoin.Mempool
import BerzCoin.MempoolBooks
import BerzCoin.MempoolLinks
import BerzCoin.MempoolRejection
import BerzCoin.MempoolPackages
import BerzCoin.MempoolLineage
import BerzCoin.MempoolAdmission
import BerzCoin.MempoolClosure
import BerzCoin.MempoolConfirmation
import BerzCoin.MempoolReconcile
import BerzCoin.MempoolTemplate
import BerzCoin.AppReconcile
import BerzCoin.MiningBits
import BerzCoin.Quorum
import BerzCoin.P2pAuthority
import BerzCoin.WalletAddresses
import BerzCoin.P2pAdmission
import BerzCoin.P2pAdmissionRuns
import BerzCoin.ChainHeaders
import BerzCoin.P2pSync
import BerzCoin.P2pHeaderLinks
import BerzCoin.P2pHeaderExchange
import BerzCoin.P2pCompact
import BerzCoin.MiningTemplate
import BerzCoin.MiningAgreement
import BerzCoin.MempoolStandardOutputs
import BerzCoin.ConsensusVersionbits
import BerzCoin.AppVersionbits
import BerzCoin.AppVersionbitsRuns
import BerzCoin.P2pCandidates
import BerzCoin.P2pJoinHandlers
import BerzCoin.P2pInbound
import BerzCoin.ChainHeaderLookups
import BerzCoin.OperationRuns
import BerzCoin.StateInvariant
import BerzCoin.ChainTips
import BerzCoin.ChainWalks
import BerzCoin.ChainMainChain
import BerzCoin.ChainInvalidity
import BerzCoin.WalletKeys
import BerzCoin.WalletDerivation
import BerzCoin.WalletManager
import BerzCoin.WalletSpending
import BerzCoin.WalletIdentity
import BerzCoin.AppGenesis
import BerzCoin.AppGenesisRuns
import BerzCoin.AppGenesisStart
import BerzCoin.AppSelfCheck
import BerzCoin.AppReindex
import BerzCoin.SubsetSums
import BerzCoin.WalletCoinSelection
import BerzCoin.WalletCoinAccounts
import BerzCoin.P2pOrphanageRuns
import BerzCoin.P2pAddrman
import BerzCoin.IndexerAddresses
import BerzCoin.IndexerTransactions
import BerzCoin.P2pBans
import BerzCoin.P2pPeerScoring
import BerzCoin.WalletFunding
import BerzCoin.SlidingWindow
import BerzCoin.P2pLimits
import BerzCoin.KeyedGroups
import BerzCoin.P2pRotation
import BerzCoin.ScriptNumbers
import BerzCoin.CoreLocality
import BerzCoin.UndoHistory
import BerzCoin.ValidationSufficient
import BerzCoin.StorageTwins
import BerzCoin.ChainTwins
import BerzCoin.ChainRerun
import BerzCoin.AppReplies
import BerzCoin.ChainLedger
import BerzCoin.ChainLedgerReorg
import BerzCoin.ChainLedgerSupply
import BerzCoin.AppLedger
import BerzCoin.AppLedgerRuns
import BerzCoin.GraphSearch
import BerzCoin.MempoolCapacity
import BerzCoin.MempoolReplacement
import BerzCoin.DuplexLink
import BerzCoin.P2pHandshake
import BerzCoin.P2pHandshakeTurns
import BerzCoin.P2pHandshakeRuns
import BerzCoin.P2pOrphanageChain
import BerzCoin.AppArrival
import BerzCoin.AppBestWork
import BerzCoin.UndoTaken
import BerzCoin.ChainSpending
import BerzCoin.AppSpending
import BerzCoin.WindowMedian
import BerzCoin.ChainContext
import BerzCoin.AppValidity
import BerzCoin.ScriptBounds
