import Kyneto.Evm.Basic
import Kyneto.Evm.Run
import Kyneto.Evm.Erc20
import Kyneto.StorageToken
import Kyneto.ProviderRegistry
import Kyneto.StorageMarketplace.Basic
import Kyneto.StorageMarketplace.Effect
import Kyneto.StorageMarketplace.Solvency
import Kyneto.StorageMarketplace.Shards
import Kyneto.StorageMarketplace.Inert
import Kyneto.StorageMarketplace.Ledger
import Kyneto.StorageMarketplace.Escrow
import Kyneto.CapacityPledge
import Kyneto.PaymentDistributor.Basic
import Kyneto.PaymentDistributor.Usage
import Kyneto.Evm.Keccak
import Kyneto.Evm.MerkleProof
import Kyneto.ProofVerifier.Basic
import Kyneto.ProofVerifier.Effect
import Kyneto.ProofVerifier.Commitment
import Kyneto.ProofVerifier.Position
import Kyneto.ProviderDaemon
import Kyneto.ProofVerifier.LifeCycle
import Kyneto.ProofVerifier.Replay
import Kyneto.ProofVerifier.Misses
import Kyneto.Coding.Blocks
import Kyneto.Coding.ReedSolomon
import Kyneto.ShardManager.Basic
import Kyneto.ShardManager.RoundTrip
import Kyneto.ShardManager.Repair
import Kyneto.PaymentDistributor.Solvency
import Kyneto.PaymentDistributor.Settlement
import Kyneto.PaymentDistributor.Repeats
import Kyneto.CapacityPledge.Collateral
import Kyneto.PaymentProcessor.Basic
import Kyneto.PaymentProcessor.Periods
import Kyneto.ProviderRegistry.Standing
import Kyneto.SlashingManager.Basic
import Kyneto.SlashingManager.Effect
import Kyneto.SlashingManager.Appeals
import Kyneto.SlashingManager.Standing
import Kyneto.SlashingManager.Deployed
import Kyneto.Database
import Kyneto.HealthMonitor.Basic
import Kyneto.BlockchainListener.Basic
import Kyneto.HealthMonitor.Silence
import Kyneto.BlockchainListener.Ingestion
import Kyneto.BlockchainListener.Mirror
import Kyneto.RepairService.Basic
import Kyneto.RepairService.Once
import Kyneto.DealOrchestrator.Basic
import Kyneto.HealthMonitor.Queue
import Kyneto.RepairService.Failure
import Kyneto.DealOrchestrator.Healing
import Kyneto.RestApi.Basic
import Kyneto.RestApi.Status
import Kyneto.RestApi.Expiry
import Kyneto.RestApi.Creation
import Kyneto.ProviderDaemon.Messages
import Kyneto.UptimeMonitor.Basic
import Kyneto.UptimeMonitor.Outages
import Kyneto.Evm.Abi
import Kyneto.ProofGenerator
import Kyneto.BlockchainListener.Reputation
import Kyneto.StorageToken.Supply
import Kyneto.PaymentDistributor.Earnings
import Kyneto.StorageMarketplace.Indexes
import Kyneto.StorageMarketplace.Retrievals
import Kyneto.PaymentProcessor.Bonuses
import Kyneto.StorageMarketplace.Terms
import Kyneto.ProviderDaemon.Polling
import Kyneto.Indexer
import Kyneto.RestApi.Keys
import Kyneto.RestApi.Signatures
import Kyneto.Encryption
import Kyneto.RestApi.Cancellation
import Kyneto.ProofVerifier.Difficulty
import Kyneto.RestApi.Download
import Kyneto.ShardManager.FastPath
import Kyneto.SlashingManager.Window
import Kyneto.StorageMarketplace.Completions
import Kyneto.StorageMarketplace.Renewal
import Kyneto.CapacityPledge.Penalty
import Kyneto.ProviderRegistry.Eligible
import Kyneto.SlashingManager.Multiplier
import Kyneto.TokenVesting
import Kyneto.TokenVesting.Release
import Kyneto.Dashboard.Approval
import Kyneto.DealOrchestrator.Diversity
import Kyneto.DealOrchestrator.Selection
import Kyneto.Encryption.Ecies
import Kyneto.TokenVesting.Revocation
import Kyneto.StorageToken.Batch
import Kyneto.StorageMarketplace.SwapAndPop
import Kyneto.ProviderDaemon.Sectors
import Kyneto.Js.Number
import Kyneto.StorageVault
import Kyneto.Coding.Sha256
import Kyneto.Sidecar.Models
import Kyneto.Pandas.Series
import Kyneto.Sidecar.Features
import Kyneto.Graph.Walk
import Kyneto.Kubo.Pinner
import Kyneto.Kubo.GarbageCollection
import Kyneto.Kubo.Node
import Kyneto.ProviderDaemon.Blocks
import Kyneto.Kubo.PinVerify
import Kyneto.Kubo.Routers
import Kyneto.Kubo.Refs
import Kyneto.TokenVesting.Solvency
import Kyneto.RestApi.Relay
import Kyneto.BlockchainListener.Pledges
import Kyneto.Kubo.OnlyOne
import Kyneto.Kubo.Streams
