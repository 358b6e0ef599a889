import Mathlib.Tactic.TypeStar

/-! The reasons for which a call reverts. `message` is the text the contracts
revert with: the codes of the `Errors` library, the texts of SafeMath and of the
tokens, and the empty text of a call to an address without code. -/

namespace Moola

inductive Revert
  | callerNotPoolAdmin
  | borrowAllowanceNotEnough
  | vlInvalidAmount
  | vlNoActiveReserve
  | vlReserveFrozen
  | vlNotEnoughAvailableUserBalance
  | vlTransferNotAllowed
  | vlBorrowingNotEnabled
  | vlInvalidInterestRateModeSelected
  | vlCollateralBalanceIs0
  | vlHealthFactorLowerThanLiquidationThreshold
  | vlCollateralCannotCoverNewBorrow
  | vlStableBorrowingNotEnabled
  | vlCollateralSameAsBorrowingCurrency
  | vlAmountBiggerThanMaxLoanSizeStable
  | vlNoDebtOfSelectedType
  | vlNoExplicitAmountToRepayOnBehalf
  | vlNoStableRateLoanInReserve
  | vlNoVariableRateLoanInReserve
  | vlUnderlyingBalanceNotGreaterThan0
  | vlDepositAlreadyInUse
  | lpInterestRateRebalanceConditionsNotMet
  | lpLiquidationCallFailed
  | lpCallerNotLendingPoolConfigurator
  | rlReserveAlreadyInitialized
  | lpcReserveLiquidityNot0
  | lpcInvalidConfiguration
  | lpcmHealthFactorNotBelowThreshold
  | lpcmCollateralCannotBeLiquidated
  | lpcmSpecifiedCurrencyNotBorrowedByUser
  | lpcmNotEnoughLiquidityToLiquidate
  | rcInvalidLtv
  | rcInvalidLiqThreshold
  | rcInvalidLiqBonus
  | rcInvalidDecimals
  | rcInvalidReserveFactor
  | mathMultiplicationOverflow
  | mathDivisionByZero
  | rlLiquidityIndexOverflow
  | rlVariableBorrowIndexOverflow
  | rlLiquidityRateOverflow
  | rlVariableBorrowRateOverflow
  | rlStableBorrowRateOverflow
  | ctInvalidMintAmount
  | ctInvalidBurnAmount
  | lpIsPaused
  | lpNoMoreReservesAllowed
  | lpInvalidFlashLoanExecutorReturn
  | vlInconsistentFlashloanParams
  | ulInvalidIndex
  | lpNotContract
  | sdtStableDebtOverflow
  | sdtBurnExceedsBalance
  | safeMathAdditionOverflow
  | safeMathSubtractionOverflow
  | safeMathMultiplicationOverflow
  | safeMathDivisionByZero
  | mintToTheZeroAddress
  | burnFromTheZeroAddress
  | burnAmountExceedsBalance
  | transferFromTheZeroAddress
  | transferToTheZeroAddress
  | transferAmountExceedsBalance
  | transferAmountExceedsAllowance
  | approveFromTheZeroAddress
  | approveToTheZeroAddress
  | safeErc20CallFailed
  | gracePeriod
  | notAContract
  | noSuchFunction
  | invalidEnumValue
  | callerMustBeLendingPool
  | onlyThisContractCanCallFlashloan
  | wrongPathProvided
  | slippageTooHigh
  | maxAmountToSwapExceedMaxSlippage
  | indexOutOfRange
  | externalFailure
  | requirementFailed
  | lpcCallerNotEmergencyAdmin
  | ownableCallerIsNotTheOwner
  | ownableNewOwnerIsTheZeroAddress
  | alreadyInitialized
  | notEnoughMooForAdvantagers
  | poolSyncFailed
  | shouldNotAllowTransfers
  | shouldNotAllowBorrow
  | shouldNotAllowWithdraw
  | shouldNotAllowDeposits
  | shouldNotAllowLiquidationCall
  | invalidRevertReasonForLiquidation
  | liquidationShouldBeAllowed
  | poolDidNotPause
  | invalidOwner
  | invalidExpiration
  | invalidSignature
  | callerIsNotWhitelisted
  | maxHealthFactorBelowMin
  | healthFactorNotBelowMin
  | healthFactorNotIncreased
  deriving DecidableEq, Repr

def Revert.message : Revert → String
  | .callerNotPoolAdmin => "33"
  | .borrowAllowanceNotEnough => "59"
  | .vlInvalidAmount => "1"
  | .vlNoActiveReserve => "2"
  | .vlReserveFrozen => "3"
  | .vlNotEnoughAvailableUserBalance => "5"
  | .vlTransferNotAllowed => "6"
  | .vlBorrowingNotEnabled => "7"
  | .vlInvalidInterestRateModeSelected => "8"
  | .vlCollateralBalanceIs0 => "9"
  | .vlHealthFactorLowerThanLiquidationThreshold => "10"
  | .vlCollateralCannotCoverNewBorrow => "11"
  | .vlStableBorrowingNotEnabled => "12"
  | .vlCollateralSameAsBorrowingCurrency => "13"
  | .vlAmountBiggerThanMaxLoanSizeStable => "14"
  | .vlNoDebtOfSelectedType => "15"
  | .vlNoExplicitAmountToRepayOnBehalf => "16"
  | .vlNoStableRateLoanInReserve => "17"
  | .vlNoVariableRateLoanInReserve => "18"
  | .vlUnderlyingBalanceNotGreaterThan0 => "19"
  | .vlDepositAlreadyInUse => "20"
  | .lpInterestRateRebalanceConditionsNotMet => "22"
  | .lpLiquidationCallFailed => "23"
  | .lpCallerNotLendingPoolConfigurator => "27"
  | .rlReserveAlreadyInitialized => "32"
  | .lpcReserveLiquidityNot0 => "34"
  | .lpcInvalidConfiguration => "75"
  | .lpcmHealthFactorNotBelowThreshold => "42"
  | .lpcmCollateralCannotBeLiquidated => "43"
  | .lpcmSpecifiedCurrencyNotBorrowedByUser => "44"
  | .lpcmNotEnoughLiquidityToLiquidate => "45"
  | .rcInvalidLtv => "67"
  | .rcInvalidLiqThreshold => "68"
  | .rcInvalidLiqBonus => "69"
  | .rcInvalidDecimals => "70"
  | .rcInvalidReserveFactor => "71"
  | .mathMultiplicationOverflow => "48"
  | .mathDivisionByZero => "50"
  | .rlLiquidityIndexOverflow => "51"
  | .rlVariableBorrowIndexOverflow => "52"
  | .rlLiquidityRateOverflow => "53"
  | .rlVariableBorrowRateOverflow => "54"
  | .rlStableBorrowRateOverflow => "55"
  | .ctInvalidMintAmount => "56"
  | .ctInvalidBurnAmount => "58"
  | .lpIsPaused => "64"
  | .lpNoMoreReservesAllowed => "65"
  | .lpInvalidFlashLoanExecutorReturn => "66"
  | .vlInconsistentFlashloanParams => "73"
  | .ulInvalidIndex => "77"
  | .lpNotContract => "78"
  | .sdtStableDebtOverflow => "79"
  | .sdtBurnExceedsBalance => "80"
  | .safeMathAdditionOverflow => "SafeMath: addition overflow"
  | .safeMathSubtractionOverflow => "SafeMath: subtraction overflow"
  | .safeMathMultiplicationOverflow => "SafeMath: multiplication overflow"
  | .safeMathDivisionByZero => "SafeMath: division by zero"
  | .mintToTheZeroAddress => "ERC20: mint to the zero address"
  | .burnFromTheZeroAddress => "ERC20: burn from the zero address"
  | .burnAmountExceedsBalance => "ERC20: burn amount exceeds balance"
  | .transferFromTheZeroAddress => "ERC20: transfer from the zero address"
  | .transferToTheZeroAddress => "ERC20: transfer to the zero address"
  | .transferAmountExceedsBalance => "ERC20: transfer amount exceeds balance"
  | .transferAmountExceedsAllowance => "ERC20: transfer amount exceeds allowance"
  | .approveFromTheZeroAddress => "ERC20: approve from the zero address"
  | .approveToTheZeroAddress => "ERC20: approve to the zero address"
  | .safeErc20CallFailed => "SafeERC20: low-level call failed"
  | .gracePeriod => "The protocol is on grace period and it only allows deposit and repay."
  | .notAContract => ""
  | .noSuchFunction => ""
  | .invalidEnumValue => ""
  | .callerMustBeLendingPool => "CALLER_MUST_BE_LENDING_POOL"
  | .onlyThisContractCanCallFlashloan => "Only this contract can call flashloan"
  | .wrongPathProvided => "Wrong path provided"
  | .slippageTooHigh => "slippage too high"
  | .maxAmountToSwapExceedMaxSlippage => "maxAmountToSwap exceed max slippage"
  | .indexOutOfRange => ""
  | .externalFailure => ""
  | .requirementFailed => ""
  | .lpcCallerNotEmergencyAdmin => "76"
  | .ownableCallerIsNotTheOwner => "Ownable: caller is not the owner"
  | .ownableNewOwnerIsTheZeroAddress => "Ownable: new owner is the zero address"
  | .alreadyInitialized => "Contract instance has already been initialized"
  | .notEnoughMooForAdvantagers => "MoolaFix: not enough MOO for transferMooToAdvantagers"
  | .poolSyncFailed =>
    "MoolaFix:transferMceloFromAndDepositMooToPool: mCELO-MOO pool sync failed."
  | .shouldNotAllowTransfers => "Should not allow transfers"
  | .shouldNotAllowBorrow => "Should not allow borrow"
  | .shouldNotAllowWithdraw => "Should not allow withdraw"
  | .shouldNotAllowDeposits => "Should not allow deposits"
  | .shouldNotAllowLiquidationCall => "Should not allow liquidationCall"
  | .invalidRevertReasonForLiquidation => "Invalid revert reason for liquidation"
  | .liquidationShouldBeAllowed => "Liquidation should be allowed"
  | .poolDidNotPause => "Pool did not pause"
  | .invalidOwner => "INVALID_OWNER"
  | .invalidExpiration => "INVALID_EXPIRATION"
  | .invalidSignature => "INVALID_SIGNATURE"
  | .callerIsNotWhitelisted => "Caller is not whitelisted"
  | .maxHealthFactorBelowMin => "maxHealthFactor should be more or equal than minHealthFactor"
  | .healthFactorNotBelowMin => "User health factor must be less than minHealthFactor for user"
  | .healthFactorNotIncreased => "User health factor was not increased or more than maxHealthFactor"

end Moola
