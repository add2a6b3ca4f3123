import HiveChain.Lib.OrdMap
import HiveChain.Lib.EState
import HiveChain.Lib.ParentMap
import HiveChain.Lib.KeyedList
import HiveChain.Lib.SharePool
import HiveChain.Lib.Digits
import HiveChain.Lib.Bits
import HiveChain.Lib.SqrtApprox
import HiveChain.Lib.Sorting
import HiveChain.Lib.FinNumerals
import HiveChain.Chainbase.Index
import HiveChain.Chainbase.Record
import HiveChain.Chainbase.Session
import HiveChain.Chainbase.Undo
import HiveChain.Chain.Witness
import HiveChain.Chain.WitnessSpec
import HiveChain.Chain.WitnessInv
import HiveChain.Chain.Market
import HiveChain.Chain.MarketSpec
import HiveChain.Chain.MarketBook
import HiveChain.Chain.Dhf
import HiveChain.Chain.Escrow
import HiveChain.Chain.EscrowSpec
import HiveChain.Chain.EscrowProtocol
import HiveChain.Chain.EscrowRuns
import HiveChain.Chain.Savings
import HiveChain.Chain.SavingsSpec
import HiveChain.Chain.WithdrawRoutes
import HiveChain.Chain.RecurrentTransfers
import HiveChain.Chain.RecurrentSpec
import HiveChain.Chain.WitnessCounts
import HiveChain.Chain.Counters
import HiveChain.Chain.DelayedVoting
import HiveChain.Chain.DelayedVotingSpec
import HiveChain.Chain.Vesting
import HiveChain.Chain.VestingSpec
import HiveChain.Chain.ResourceDynamics
import HiveChain.Chain.ResourceDynamicsSpec
import HiveChain.Chain.Participation
import HiveChain.Chain.ParticipationSpec
import HiveChain.Chain.Manabar
import HiveChain.Chain.ManabarSpec
import HiveChain.Chain.RewardCurve
import HiveChain.Chain.RewardCurveSpec
import HiveChain.Chain.RcCurve
import HiveChain.Chain.RcCurveSpec
import HiveChain.Chain.FeedHistory
import HiveChain.Chain.FeedHistorySpec
import HiveChain.Chain.Inflation
import HiveChain.Chain.InflationSpec
import HiveChain.Chain.ForkDatabase
import HiveChain.Chain.ForkDatabaseSpec
import HiveChain.Chain.ForkDatabaseRuns
import HiveChain.Chain.ForkDatabaseOrder
import HiveChain.Protocol.AssetSymbol
import HiveChain.Protocol.AssetSymbolSpec
import HiveChain.Protocol.LegacyAsset
import HiveChain.Protocol.LegacyAssetSpec
import HiveChain.Protocol.FixedString
import HiveChain.Protocol.FixedStringSpec
