import Moola.Debts
import Moola.Rates
import Moola.WriteOff

/-! The bad debts that MoolaFix records: two rounds of repayments take off them what the pool
was paid, and the write-off burns the rest. -/

namespace Moola

open Guard WadRayMath

namespace MoolaFix

def CELO : Address := 0x471EcE3750Da237f93B8E339c536989b8978a438
def cUSD : Address := 0x765DE816845861e75A25fCA122bb6898B8B1282a
def cEUR : Address := 0xD8763CBa276a3738E6DE85b4b3bF5fDed6D6cA73
def cREAL : Address := 0xe8537a3d056DA446677B9E9d6c5dB704EaAb4787
def MOO : Address := 0x17700282592D6917F6A73D0bF8AcCf4D578c131e
def exploiterAddress : Address := 0x5DAE2C3d5a9f35bFaf36A2E6edD07c477f57789e

def uint96 (n : ℕ) : ℕ := n % 2 ^ 96

/-- A record of `Mem`, whose debt has the type `uint96`. -/
structure Entry extends Debt where
  debt_lt : debt < 2 ^ 96

def Entry.reduce (e : Entry) (amount : ℕ) : Tx Entry := do
  let debt ← SafeMath.sub e.debt amount
  return ⟨⟨e.account, uint96 debt⟩, Nat.mod_lt _ (by norm_num)⟩

structure Mem where
  celo : List Entry
  ceur : List Entry

/-- The record at `length - 1`; the arrays of the source are not empty. -/
def reduceLast : List Entry → ℕ → Tx (List Entry)
  | [], _ => .error .indexOutOfRange
  | [e], amount => do
    let e ← e.reduce amount
    return [e]
  | e :: e' :: es, amount => do
    let es ← reduceLast (e' :: es) amount
    return e :: es

def celoRepayAmount : ℕ := 8126913980204805125286141
def cusdRepayAmount : ℕ := 644523140000000000000000
def ceurRepayAmount : ℕ := 765106120000000000000000

variable (env : Env) (fix asset : Address)

def firstRoundRepay (w : World) (mem : Mem) : Tx (World × Mem) := do
  let (w, _) ← LendingPool.repay env w fix CELO celoRepayAmount 2 exploiterAddress
  let (w, _) ← LendingPool.repay env w fix cUSD cusdRepayAmount 2 exploiterAddress
  let (w, _) ← LendingPool.repay env w fix cEUR ceurRepayAmount 2 exploiterAddress
  let celo ← reduceLast mem.celo celoRepayAmount
  let ceur ← reduceLast mem.ceur ceurRepayAmount
  return (w, ⟨celo, ceur⟩)

def repayMode (w : World) (accountDebt amountLeft rateMode : ℕ) (account : Address) :
    Tx (World × ℕ) :=
  if accountDebt > 0 then LendingPool.repay env w fix asset amountLeft rateMode account
  else .ok (w, 0)

def repayOneAccountBadDebt (w : World) (account : Address) (totalAmount : ℕ) :
    Tx (World × ℕ) := do
  let accountVariableDebt ←
    VariableDebtToken.balanceOf w.impl env.timestamp (w.reserves asset) account
  let (w, variableRepaid) ← repayMode env fix asset w accountVariableDebt totalAmount 2 account
  let amountLeft ← SafeMath.sub totalAmount variableRepaid
  if amountLeft > 0 then
    let accountStableDebt ← StableDebtToken.balanceOf env.timestamp (w.reserves asset) account
    let (w, stableRepaid) ← repayMode env fix asset w accountStableDebt amountLeft 1 account
    let totalRepaid ← SafeMath.add variableRepaid stableRepaid
    return (w, totalRepaid)
  else return (w, variableRepaid)

/-- The loop over the records of an asset that cannot be repaid in full. -/
def repayRecords (w : World) (totalAvailableAmount : ℕ) : List Entry → Tx (World × List Entry)
  | [] => .ok (w, [])
  | e :: es =>
    if totalAvailableAmount = 0 then .ok (w, e :: es)
    else do
      let repayAmount := if e.debt > totalAvailableAmount then totalAvailableAmount else e.debt
      let (w, repaidAmount) ← repayOneAccountBadDebt env fix asset w e.account repayAmount
      let totalAvailableAmount ← SafeMath.sub totalAvailableAmount repaidAmount
      let e ← e.reduce repaidAmount
      let (w, es) ← repayRecords w totalAvailableAmount es
      return (w, e :: es)

/-- The loop over the debts of an asset that is repaid in full. -/
def repayDebts (w : World) : List Debt → Tx World
  | [] => .ok w
  | d :: ds => do
    let (w, _) ← repayOneAccountBadDebt env fix asset w d.account d.debt
    repayDebts w ds

def cusdBadDebts : List Debt :=
  [⟨0x63826928e81E7b7421928A27fe43Aa24779bD534, 1474784263319849839⟩,
    ⟨0x35526705230f795C5ed433891952a25c5aefB861, 336098358142651401⟩,
    ⟨0x2D678940F979815f6B3E65816697Bc7093CDf374, 145225770570570508⟩,
    ⟨0x7C5BA47745c42dA90Fc777FF349E8Ae3f7688ca5, 155516562655215208⟩,
    ⟨0xf4788fF714729F15A233233241806217a3b4eb54, 1680172534170049014⟩,
    ⟨0xb13f760bEf3cDd7aF3Fdbc6455243B0512E673bb, 513046386072598241⟩,
    ⟨0x200c815702b0376befe68c2c71701929799063c1, 1775720222188384203⟩,
    ⟨0x64a35288bbc2b113f979893921a6832993324644, 286216933397485949⟩,
    ⟨0xDBe729650e697E04e99345E568f450c443a10309, 4532056329935100228⟩,
    ⟨0xdE5D3956160AC0a6F12Cf80632fdCe4b9BDA4837, 1695318783751585387⟩,
    ⟨0x8BAbBbd8a1Fbc600f27761b571e451a4D5AE1756, 6897050963106151329⟩,
    ⟨0xc278C9D375bC453B38006eA339325E462C2D9C60, 51026934351617644061⟩,
    ⟨0x0C266223C8dB48cA1238103f5bD8772146F860a3, 197336643700190304⟩,
    ⟨0xD9215a154Cb0148451fD418da07D8842F3cd7e59, 403384730405633595⟩,
    ⟨0x5C22CE6FCAaab070054bBe17e963c58543D04d93, 472124328189291684740⟩,
    ⟨0x720E5D6f26A2780c0015580CAcCD28FE1E3D89cF, 319968324803052809⟩,
    ⟨0xF38560b3EF42A677f9155569D5214802C3415fF5, 114961302065122736295⟩,
    ⟨exploiterAddress, 644578143432907564741586⟩]

def crealBadDebts : List Debt :=
  [⟨0xB5d3a65803E87756c997679453DD9d92556314e2, 289570977399798342⟩,
    ⟨0xF38560b3EF42A677f9155569D5214802C3415fF5, 170282258987749346387⟩]

def mooBadDebts : List Debt :=
  [⟨0xA0BdA5d71291f391A71bF2d695b4Ea620AC7B0E6, 65611162059784683624⟩,
    ⟨0x7B167C2Ca7A13757331B2F124EB52a46d43C416C, 137073872284927792⟩,
    ⟨0x9eb664b0f2278aed42BE6F35EB58Da1C4C470952, 11022806534770056168733⟩,
    ⟨0xB5d3a65803E87756c997679453DD9d92556314e2, 308486916923631318⟩,
    ⟨0xdfdc7300AB9Ef82BB413805d6Dcea23Df07fdc10, 593472974527412096⟩,
    ⟨0xD9215a154Cb0148451fD418da07D8842F3cd7e59, 70935039656090390506⟩,
    ⟨0xAc4B966e4e01662DccA10f96a05415d31efCB761, 595431985255603069⟩,
    ⟨0xdFe8bbBB231e1C5dB90d2d8dfE95CE07f2113F3e, 42027134246275478731⟩,
    ⟨0x97F8A86531Cdbe33c94921Fe8b497955b19887Fa, 9710815065905166657⟩,
    ⟨0x60dE7F647dF2448eF17b9E0123411724De6e373D, 2112970618556644040⟩,
    ⟨0x7930C009F33cd6324529c34728C2EE8BD2c06b69, 165154580783568248⟩,
    ⟨0xF38560b3EF42A677f9155569D5214802C3415fF5, 1485062165177141974589⟩,
    ⟨0x1Df15534d350377732944e5bCE2FE65C5aE6766D, 1857856435642747156059627⟩,
    ⟨0x37F9b381B74B2Ebd0EF38EDf2B9d99946b44B8A5, 5203769781467740524⟩,
    ⟨0x54dA11a90d36F292B3a995D1A447dFE6923cF454, 5079058256740697062⟩,
    ⟨exploiterAddress, 251787209718779806092340⟩]

def secondRoundRepay (w : World) (mem : Mem) : Tx (World × Mem) := do
  let (w, celo) ← repayRecords env fix CELO w ((w.reserves CELO).underlying.ledger.balances fix)
    mem.celo
  let (w, ceur) ← repayRecords env fix cEUR w ((w.reserves cEUR).underlying.ledger.balances fix)
    mem.ceur
  let w ← repayDebts env fix cUSD w cusdBadDebts
  let w ← repayDebts env fix cREAL w crealBadDebts
  let w ← repayDebts env fix MOO w mooBadDebts
  return (w, ⟨celo, ceur⟩)

def Mem.writeOffBadDebt (w : World) (mem : Mem) : Tx (World × ℕ × ℕ) := do
  let celo ← MoolaFix.writeOffBadDebt env fix CELO ⟨w, 0, 0⟩ (mem.celo.map Entry.toDebt)
  let ceur ← MoolaFix.writeOffBadDebt env fix cEUR ⟨celo.world, 0, 0⟩ (mem.ceur.map Entry.toDebt)
  return (ceur.world, celo.badDebtBurnt, ceur.badDebtBurnt)

variable {env fix asset}

inductive DebtReduced (now : ℕ) (account : Address) (amount : ℕ) (r r' : Reserve) : Prop
  | ofVariable : rayQuotient amount r'.data.variableBorrowIndex ≠ 0 →
      (∃ h, r'.variableDebtToken.ledger = r.variableDebtToken.ledger.debit account
        (rayQuotient amount r'.data.variableBorrowIndex) h) →
      r'.stableDebtToken = r.stableDebtToken → DebtReduced now account amount r r'
  | ofStable {current : ℕ} :
      StableDebtToken.accrued now r.stableDebtToken account = .ok current → amount ≤ current →
      r'.stableDebtToken.balances =
        write r.stableDebtToken.balances account (current - amount) →
      r'.variableDebtToken = r.variableDebtToken → DebtReduced now account amount r r'

/-- A repayment: what it takes off the debt of an account moves from the payer to the pool. -/
structure Repaid (env : Env) (payer asset account : Address) (w : World) (amount : ℕ)
    (w' : World) : Prop where
  reduced : DebtReduced env.timestamp account amount (w.reserves asset) (w'.reserves asset)
  charged : ∃ h, (w'.reserves asset).underlying.ledger =
    (w.reserves asset).underlying.ledger.move payer (w.reserves asset).data.aTokenAddress amount h
  others : ∀ a ≠ asset, w'.reserves a = w.reserves a

/-- A write-off: nobody pays for what it takes off the debt of an account. -/
structure Burned (env : Env) (asset account : Address) (w : World) (amount : ℕ) (w' : World) :
    Prop where
  reduced : DebtReduced env.timestamp account amount (w.reserves asset) (w'.reserves asset)
  unpaid : (w'.reserves asset).underlying = (w.reserves asset).underlying
  others : ∀ a ≠ asset, w'.reserves a = w.reserves a

/-- The debts that the tokens of an asset show; a view that fails shows none. -/
def shownVariableDebt (env : Env) (asset : Address) (w : World) (account : Address) : ℕ :=
  (VariableDebtToken.balanceOf w.impl env.timestamp (w.reserves asset) account).toOption.getD 0

def shownStableDebt (env : Env) (asset : Address) (w : World) (account : Address) : ℕ :=
  (StableDebtToken.balanceOf env.timestamp (w.reserves asset) account).toOption.getD 0

/-- What a repayment and a write-off share: the debt of an account is paid back by `n`. The
underlying becomes `t`. -/
def PaysBack (env : Env) (sender asset account : Address) (amount rateMode : ℕ) (w : World)
    (n : ℕ) (w' : World) : Prop :=
  ∃ p t, LendingPool.payback env w sender asset amount rateMode account = .ok p ∧
    n = p.paybackAmount ∧ w' = p.world.setReserve asset (p.reserve.withUnderlying t)

variable {w w' : World} {sender account other : Address} {amount rateMode n debt : ℕ}
  {r r' : Reserve}

theorem burnDebt_reduced {mode : InterestRateMode}
    (h : LendingPool.burnDebt env r mode account amount = .ok r') :
    DebtReduced env.timestamp account amount r r' ∧ r'.data = r.data := by
  unfold LendingPool.burnDebt at h
  split at h
  case isTrue =>
    obtain ⟨-, current, t, hacc, hle, rfl, hbalances, -, -⟩ := StableDebtToken.burn_ok h
    exact ⟨.ofStable hacc hle hbalances rfl, rfl⟩
  case isFalse =>
    obtain ⟨-, -, -, hscaled, hle, rfl⟩ := VariableDebtToken.burn_ok h
    exact ⟨.ofVariable hscaled ⟨hle, rfl⟩ rfl, rfl⟩

theorem DebtReduced.congr {now : ℕ} {r₁ r₁' : Reserve} (h : DebtReduced now account amount r r')
    (hv : r₁.variableDebtToken = r.variableDebtToken)
    (hs : r₁.stableDebtToken = r.stableDebtToken)
    (hv' : r₁'.variableDebtToken = r'.variableDebtToken)
    (hs' : r₁'.stableDebtToken = r'.stableDebtToken)
    (hindex : r₁'.data.variableBorrowIndex = r'.data.variableBorrowIndex) :
    DebtReduced now account amount r₁ r₁' := by
  cases h with
  | ofVariable hscaled hledger hstable =>
    refine .ofVariable (hindex ▸ hscaled) ?_ (by rw [hs', hs, hstable])
    rw [hv', hv, hindex]
    exact hledger
  | ofStable hacc hle hbalances hvariable =>
    refine .ofStable (hs ▸ hacc) hle ?_ (by rw [hv', hv, hvariable])
    rw [hs', hs, hbalances]

theorem payback_reduced {p : LendingPool.Payback}
    (h : LendingPool.payback env w sender asset amount rateMode account = .ok p) :
    DebtReduced env.timestamp account p.paybackAmount (w.reserves asset) p.reserve ∧
      p.reserve.underlying = (w.reserves asset).underlying ∧
      p.reserve.data.aTokenAddress = (w.reserves asset).data.aTokenAddress ∧
      LendingPool.OnlyFlags w p.world := by
  obtain ⟨_, _, mode, r₁, r₂, -, -, -, -, -, h₁, h₂, h₃, -, hw⟩ := LendingPool.payback_ok h
  obtain ⟨hv, hs⟩ := LendingPool.updateState_debts h₁
  have haddress := (Reserve.updateState_evolves h₁).aTokenAddress
  obtain ⟨hreduced, hdata⟩ := burnDebt_reduced h₂
  obtain ⟨rates, hr⟩ := ReserveLogic.updateInterestRates_ok h₃
  obtain ⟨hflags, -⟩ := LendingPool.applyIf_setBorrowing_ok hw
  rw [hr]
  refine ⟨hreduced.congr hv.symm hs.symm rfl rfl rfl, ?_, ?_, hflags⟩
  · exact (Reserve.burnDebt_underlying h₂).trans (Reserve.updateState_underlying h₁)
  · rw [Reserve.withData_data, ReserveData.withRates_aTokenAddress, hdata, haddress]

theorem repay_repaid
    (h : LendingPool.repay env w sender asset amount rateMode account = .ok (w', n)) :
    Repaid env sender asset account w n w' ∧ w'.impl = w.impl := by
  obtain ⟨p, t, hp, rfl, ht, rfl⟩ := LendingPool.repay_ok h
  obtain ⟨hreduced, hunderlying, haddress, hflags⟩ := payback_reduced hp
  obtain ⟨hle, hledger⟩ := ERC20.transferFrom_ok ht
  refine ⟨⟨?_, ?_, ?_⟩, hflags.impl⟩
  · rw [World.setReserve_reserves_self]
    exact hreduced.congr rfl rfl rfl rfl rfl
  · rw [World.setReserve_reserves_self, ← haddress, ← hunderlying]
    exact ⟨hle, hledger⟩
  · intro a ha
    rw [World.setReserve_reserves_of_ne ha, hflags.reserves]

theorem writeOff_burned
    (h : LendingPool.writeOff env w sender asset amount rateMode account = .ok (w', n)) :
    Burned env asset account w n w' := by
  obtain ⟨-, p, hp, rfl, rfl⟩ := LendingPool.writeOff_ok h
  obtain ⟨hreduced, hunderlying, -, hflags⟩ := payback_reduced hp
  refine ⟨?_, ?_, ?_⟩
  · rwa [World.setReserve_reserves_self]
  · rwa [World.setReserve_reserves_self]
  · intro a ha
    rw [World.setReserve_reserves_of_ne ha, hflags.reserves]

theorem shownVariableDebt_of_ok (h : VariableDebtToken.balanceOf w.impl env.timestamp
    (w.reserves asset) account = .ok debt) : shownVariableDebt env asset w account = debt := by
  rw [shownVariableDebt, h]
  rfl

theorem shownStableDebt_of_ok
    (h : StableDebtToken.balanceOf env.timestamp (w.reserves asset) account = .ok debt) :
    shownStableDebt env asset w account = debt := by
  rw [shownStableDebt, h]
  rfl

theorem repay_paysBack
    (h : LendingPool.repay env w sender asset amount rateMode account = .ok (w', n)) :
    PaysBack env sender asset account amount rateMode w n w' := by
  obtain ⟨p, t, hp, rfl, -, rfl⟩ := LendingPool.repay_ok h
  exact ⟨p, t, hp, rfl, rfl⟩

theorem writeOff_paysBack
    (h : LendingPool.writeOff env w sender asset amount rateMode account = .ok (w', n)) :
    PaysBack env sender asset account amount rateMode w n w' := by
  obtain ⟨-, p, hp, rfl, rfl⟩ := LendingPool.writeOff_ok h
  exact ⟨p, p.reserve.underlying, hp, rfl, rfl⟩

namespace PaysBack

theorem variable_amount (h : PaysBack env sender asset account amount 2 w n w') :
    n ≠ 0 ∧ ∃ debt, VariableDebtToken.balanceOf w.impl env.timestamp (w.reserves asset) account =
      .ok debt ∧ n = min amount debt := by
  obtain ⟨p, t, hp, rfl, -⟩ := h
  obtain ⟨_, debt, mode, r₁, r₂, -, hdebt, hmode, -, hpaid, -, h₂, -⟩ := LendingPool.payback_ok hp
  obtain rfl : mode = .variable := (Except.ok.inj hmode).symm
  refine ⟨?_, debt, hdebt, hpaid⟩
  obtain ⟨-, -, -, hscaled, -⟩ := VariableDebtToken.burn_ok h₂
  intro hzero
  exact hscaled (by simp [hzero, rayQuotient])

theorem stable_amount (h : PaysBack env sender asset account amount 1 w n w') :
    n ≠ 0 ∧ n = min amount (shownStableDebt env asset w account) := by
  obtain ⟨p, t, hp, rfl, -⟩ := h
  obtain ⟨stableDebt, _, mode, r₁, r₂, hstable, -, hmode, hvalid, hpaid, -⟩ :=
    LendingPool.payback_ok hp
  obtain rfl : mode = .stable := (Except.ok.inj hmode).symm
  rw [if_pos rfl] at hpaid
  rw [shownStableDebt_of_ok hstable]
  refine ⟨?_, hpaid⟩
  simp only [ValidationLogic.validateRepay, bind_ok, exists_unit, require_ok] at hvalid
  obtain ⟨-, hamount, hdebt, -⟩ := hvalid
  have hpositive : 0 < stableDebt := by simpa using hdebt
  omega

theorem reduces_stable (htime : env.timestamp < 2 ^ 40)
    (h : PaysBack env sender asset account amount 1 w n w') :
    shownStableDebt env asset w account = shownStableDebt env asset w' account + n ∧
      (w'.reserves asset).variableDebtToken = (w.reserves asset).variableDebtToken := by
  obtain ⟨hn, -⟩ := h.stable_amount
  obtain ⟨p, t, hp, rfl, rfl⟩ := h
  obtain ⟨_, _, mode, r₁, r₂, hshown, -, hmode, -, -, h₁, h₂, h₃, -⟩ := LendingPool.payback_ok hp
  obtain rfl : mode = .stable := (Except.ok.inj hmode).symm
  obtain ⟨hvtoken, hstoken⟩ := LendingPool.updateState_debts h₁
  have haddress := (Reserve.updateState_evolves h₁).stableDebtTokenAddress
  rw [LendingPool.burnDebt, if_pos rfl] at h₂
  obtain ⟨current, hcurrent, hle, hleft⟩ := StableDebtToken.burn_leaves htime hn h₂
  obtain ⟨-, _, t', -, -, rfl, -⟩ := StableDebtToken.burn_ok h₂
  obtain ⟨rates, hr⟩ := ReserveLogic.updateInterestRates_ok h₃
  rw [hstoken] at hcurrent
  obtain ⟨htoken, -⟩ := StableDebtToken.balanceOf_ok.mp hshown
  constructor
  · rw [shownStableDebt_of_ok (StableDebtToken.balanceOf_ok.mpr ⟨htoken, hcurrent⟩),
      shownStableDebt_of_ok (StableDebtToken.balanceOf_ok.mpr ⟨?_, ?_⟩)]
    · exact (Nat.sub_add_cancel hle).symm
    · rw [World.setReserve_reserves_self, hr]
      exact haddress ▸ htoken
    · rw [World.setReserve_reserves_self, hr]
      exact hleft
  · rw [World.setReserve_reserves_self, hr]
    exact hvtoken

theorem reduces_variable (h : PaysBack env sender asset account amount 2 w n w') :
    (w.reserves asset).variableDebtToken.ledger.balances account =
        (w'.reserves asset).variableDebtToken.ledger.balances account +
          rayQuotient n (w'.reserves asset).data.variableBorrowIndex ∧
      (w'.reserves asset).data.variableBorrowIndex ≠ 0 := by
  obtain ⟨p, t, hp, rfl, rfl⟩ := h
  obtain ⟨_, _, mode, r₁, r₂, -, -, hmode, -, -, h₁, h₂, h₃, -⟩ := LendingPool.payback_ok hp
  obtain rfl : mode = .variable := (Except.ok.inj hmode).symm
  obtain ⟨hvtoken, -⟩ := LendingPool.updateState_debts h₁
  obtain ⟨-, -, hindex, -, hburn, rfl⟩ := VariableDebtToken.burn_ok h₂
  obtain ⟨rates, hr⟩ := ReserveLogic.updateInterestRates_ok h₃
  rw [World.setReserve_reserves_self, hr]
  refine ⟨?_, hindex⟩
  rw [← hvtoken]
  simp only [Reserve.withUnderlying_variableDebtToken, Reserve.withUnderlying_data,
    Reserve.withData_data, Reserve.withData_variableDebtToken, Reserve.withDebtLedger_data,
    Reserve.withDebtLedger_variableDebtToken_ledger, ReserveData.withRates_variableBorrowIndex,
    Ledger.debit_balances, if_true]
  exact (Nat.sub_add_cancel hburn).symm

theorem reduces_variable_keeps (h : PaysBack env sender asset account amount 2 w n w') :
    shownStableDebt env asset w' other = shownStableDebt env asset w other := by
  obtain ⟨p, t, hp, rfl, rfl⟩ := h
  obtain ⟨_, _, mode, r₁, r₂, -, -, hmode, -, -, h₁, h₂, h₃, -⟩ := LendingPool.payback_ok hp
  obtain rfl : mode = .variable := (Except.ok.inj hmode).symm
  have hstable := (LendingPool.updateState_debts h₁).2
  have haddress := (Reserve.updateState_evolves h₁).stableDebtTokenAddress
  obtain ⟨-, -, -, -, hs, rfl⟩ := VariableDebtToken.burn_ok h₂
  obtain ⟨rates, hr⟩ := ReserveLogic.updateInterestRates_ok h₃
  rw [shownStableDebt, World.setReserve_reserves_self, hr]
  simp only [StableDebtToken.balanceOf, Reserve.withUnderlying_data, Reserve.withData_data,
    ReserveData.withRates_stableDebtTokenAddress, Reserve.withDebtLedger_data, haddress,
    Reserve.withUnderlying_stableDebtToken, Reserve.withData_stableDebtToken,
    Reserve.withDebtLedger_stableDebtToken, hstable, shownStableDebt]

end PaysBack

theorem reduce_ok {e e' : Entry} (h : e.reduce amount = .ok e') :
    e'.account = e.account ∧ e.debt = e'.debt + amount := by
  simp only [Entry.reduce, bind_ok, SafeMath.sub_ok, pure_ok] at h
  obtain ⟨_, ⟨hle, rfl⟩, rfl⟩ := h
  have hlossless : uint96 (e.debt - amount) = e.debt - amount :=
    Nat.mod_eq_of_lt ((Nat.sub_le _ _).trans_lt e.debt_lt)
  refine ⟨rfl, ?_⟩
  change e.debt = uint96 (e.debt - amount) + amount
  rw [hlossless, Nat.sub_add_cancel hle]

def populateMem : Mem where
  celo := [⟨⟨0x0C266223C8dB48cA1238103f5bD8772146F860a3, 126987237838906220⟩, by norm_num⟩,
    ⟨⟨exploiterAddress, 10576392878544270729781152⟩, by norm_num⟩]
  ceur := [⟨⟨0x0699aA97868209C2c9fBd48214Cc084e6E59117a, 6342870585715428175⟩, by norm_num⟩,
    ⟨⟨0x7C5BA47745c42dA90Fc777FF349E8Ae3f7688ca5, 154793934591756377⟩, by norm_num⟩,
    ⟨⟨0xE312D7d632F147c0C4963F2B1c14D010971C11A9, 22273657728307716488537⟩, by norm_num⟩,
    ⟨⟨0x9aD4779B7f952060ddC300F531819e9Ed859b57C, 176699836249279146⟩, by norm_num⟩,
    ⟨⟨0x0C266223C8dB48cA1238103f5bD8772146F860a3, 127301702231891590⟩, by norm_num⟩,
    ⟨⟨0x276FCe7A3521a4e3492F1E8e5feB835eB0b13096, 48049952992641588129⟩, by norm_num⟩,
    ⟨⟨exploiterAddress, 765165853429229290723260⟩, by norm_num⟩]

end MoolaFix

end Moola
