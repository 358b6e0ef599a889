import Moola.Machine
import Moola.AccrualView
import Moola.Exit
import Moola.Seizure
import Moola.NetValue
import Moola.Earnings
import Moola.DebtGrowth
import Moola.Effects
import Moola.Debts
import Moola.Visibility
import Moola.GracePeriod
import Moola.Clock
import Moola.Rates
import Moola.NoInterest
import Moola.Configurator
import Moola.WithdrawalCheck
import Moola.Underflow
import Moola.StableSupply
import Moola.BadDebtRecords
import Moola.Script
import Moola.Adapters
import Moola.Spending
import Moola.SeizedValue
import Moola.BorrowingPower
import Moola.RateCurve
import Moola.Compounding
import Moola.LossSharing
import Moola.IndexPositivity
import Moola.FlashLoans
import Moola.RepayDelegation
import Moola.AutoRepay
import Moola.Solvency
import Moola.ScaledConversions
import Moola.ConfigurationFields
import Moola.ReserveList
import Moola.UserBitmap
import Moola.AccrualBalance
import Moola.Pause
import Moola.Freeze
import Moola.Administration
import Moola.ScriptOutcome
import Moola.AddressesProvider
import Moola.Permits
import Moola.Budgets
import Moola.FlashLiquidation
import Moola.Holders
import Moola.Listings
import Moola.BlockOrder
