import Moola.Administration
import Moola.Lib.WeakRun
import Moola.Script

/-! The privileged part of the script of MoolaFix, as a plan. A run of the script is the steps of
the plan in their order, and between them calls that any account could make. So who is in charge
afterwards, which parameters are set and from whom aTokens are taken can be read off the plan. -/

namespace Moola

open Guard ReserveConfigurationMap LendingPoolConfigurator

namespace MoolaFix

/-- A step that an ordinary account could not make. -/
inductive Deed
  | setEmergencyAdmin (admin : Address)
  | setPoolAdmin (admin : Address)
  | transferOwnership (newOwner : Address)
  | setLendingPoolImpl (impl : PoolImpl)
  | setPoolPause (val : Bool)
  | updateAToken (asset : Address) (impl : ATokenImpl)
  | configure (asset : Address) (settings : List Setter)
  | transferForMoolaFix (asset holder : Address) (amount : ℕ)

def markets : List Address := [CELO, cUSD, cEUR, cREAL, MOO]

def Deed.takeFrom (asset : Address) (g : IllGain) : Deed :=
  .transferForMoolaFix asset g.account g.gain

variable (env : Env) (fix : Address)

def takeControlDeeds : List Deed :=
  [.setEmergencyAdmin fix, .setPoolAdmin fix, .setLendingPoolImpl .withUpdateLiquidityIndex] ++
    (markets.map fun asset => .configure asset [.reserveFactor 0]) ++ [.setPoolPause false] ++
    markets.map fun asset => .updateAToken asset .withTransferForMoolaFix

def ownedWalletDeeds : List Deed :=
  [.transferForMoolaFix CELO ownedWallet 1655727647999204334996,
    .transferForMoolaFix cUSD ownedWallet 3792807757762638659755,
    .transferForMoolaFix cEUR ownedWallet 78104307936956667012,
    .transferForMoolaFix cREAL ownedWallet 48578966742446084975]

def exploiterDeeds : List Deed :=
  [.transferForMoolaFix CELO mooBorrower 447386386370725523222,
    .transferForMoolaFix CELO 0xeDFc4dD20A77Dd5E802724576E822Fe1A9Cf27e3 1998218281124763710708]

def collectDeeds : List Deed :=
  ownedWalletDeeds ++ exploiterDeeds ++ advantagersMcelo.map (Deed.takeFrom CELO) ++
    [.transferForMoolaFix CELO mCeloMooPool 675929253603686065263591]

def settleBadDebtDeeds : List Deed :=
  .transferForMoolaFix MOO exploiterAddress 5667837247900688785843099 ::
    markets.map fun asset => .updateAToken asset .aToken

def riskParameters (ltv threshold bonus : ℕ) : List Setter :=
  [.ltv ltv, .liquidationThreshold threshold, .liquidationBonus bonus]

def reconfigureDeeds : List Deed :=
  [.configure CELO (riskParameters 6500 7000 10500),
      .configure cEUR (riskParameters 4500 5000 11000),
      .configure cREAL (riskParameters 1 1 11000), .configure MOO (riskParameters 1 1 11000)] ++
    markets.map fun asset => .configure asset [.reserveFactor 1000]

def beginGracePeriodDeeds : List Deed :=
  [.configure MOO [.frozen true], .setLendingPoolImpl .withGracePeriod]

def handOverDeeds : List Deed :=
  [.setPoolPause true, .setEmergencyAdmin ownedWallet, .setPoolAdmin ownedWallet,
    .transferOwnership ownedWallet]

def plan : List Deed :=
  takeControlDeeds fix ++ collectDeeds ++ settleBadDebtDeeds ++ reconfigureDeeds ++
    beginGracePeriodDeeds ++ handOverDeeds

def Deed.Done (c c' : Chain) : Deed → Prop
  | .setEmergencyAdmin admin => MoolaFix.setEmergencyAdmin fix c admin = .ok c'
  | .setPoolAdmin admin => MoolaFix.setPoolAdmin fix c admin = .ok c'
  | .transferOwnership newOwner => MoolaFix.transferOwnership fix c newOwner = .ok c'
  | .setLendingPoolImpl impl => MoolaFix.setLendingPoolImpl fix c impl = .ok c'
  | .setPoolPause val => MoolaFix.setPoolPause env fix c val = .ok c'
  | .updateAToken asset impl => MoolaFix.updateAToken env fix c asset ownedWallet impl = .ok c'
  | .configure asset settings =>
    ∃ w, Stores (c.adminEnv env) c.world asset settings w ∧ c' = { c with world := w }
  | .transferForMoolaFix asset holder amount =>
    transferToMoolaFix env fix c asset holder amount = .ok c'

/-- The calls of the script on the pool and the tokens: on its own positions, and on the debts of
others only to reduce them. -/
def OwnCall : Call → Prop
  | .deposit .. | .withdraw .. | .repay .. | .writeOff .. | .transfer .. | .underlyingTransfer .. =>
    True
  | .updateLiquidtyIndexForLoss .. => True
  | .borrow _ _ _ onBehalfOf => onBehalfOf = fix
  | _ => False

def OwnCalls : World → World → Prop :=
  Relation.ReflTransGen fun w w' => ∃ call, OwnCall fix call ∧ exec env w fix call = .ok w'

/-- A call of the script that is not in the plan. -/
def Ordinary (c c' : Chain) : Prop :=
  ∃ call w, OwnCall fix call ∧ exec (c.adminEnv env) c.world fix call = .ok w ∧
    c' = { c with world := w }

/-- The deeds of a list in their order, with calls of the script between them. -/
def Performs : List Deed → Chain → Chain → Prop :=
  WeakRun (Ordinary env fix) fun deed c c' => deed.Done env fix c c'

variable {env fix} {c c₁ c' : Chain} {w w₁ w' : World} {asset : Address}

theorem OwnCall.not_onlyConfigurator {call : Call} (h : OwnCall fix call) :
    call.onlyConfigurator = false := by
  cases call with
  | initReserve => cases h
  | setReserveInterestRateStrategyAddress => cases h
  | setConfiguration => cases h
  | setPause => cases h
  | _ => rfl

theorem OwnCall.byUser {call : Call} (h : OwnCall fix call) : ByUser env fix call := by
  refine .of_user h.not_onlyConfigurator fun impl himpl => ?_
  subst himpl
  exact h

namespace OwnCalls

theorem repay {account : Address} {amount rateMode n : ℕ}
    (h : LendingPool.repay env w fix asset amount rateMode account = .ok (w', n)) :
    OwnCalls env fix w w' :=
  .single ⟨.repay asset amount rateMode account, trivial, map_ok.mpr ⟨_, h, rfl⟩⟩

theorem writeOff {account : Address} {amount rateMode n : ℕ}
    (h : LendingPool.writeOff env w fix asset amount rateMode account = .ok (w', n)) :
    OwnCalls env fix w w' :=
  .single ⟨.writeOff asset amount rateMode account, trivial, map_ok.mpr ⟨_, h, rfl⟩⟩

theorem firstRoundRepay {mem mem' : Mem}
    (h : firstRoundRepay env fix w mem = .ok (w', mem')) : OwnCalls env fix w w' := by
  simp only [MoolaFix.firstRoundRepay, bind_ok, pure_ok, Prod.mk.injEq] at h
  obtain ⟨⟨w₁, _⟩, h₁, ⟨w₂, _⟩, h₂, ⟨w₃, _⟩, h₃, _, -, _, -, rfl, -⟩ := h
  exact ((repay h₁).trans (repay h₂)).trans (repay h₃)

theorem repayMode {account : Address} {debt left rateMode n : ℕ}
    (h : repayMode env fix asset w debt left rateMode account = .ok (w', n)) :
    OwnCalls env fix w w' := by
  unfold MoolaFix.repayMode at h
  split at h
  · exact repay h
  · rw [← (Prod.mk.inj (Except.ok.inj h)).1]
    exact .refl

theorem repayOneAccountBadDebt {account : Address} {total n : ℕ}
    (h : repayOneAccountBadDebt env fix asset w account total = .ok (w', n)) :
    OwnCalls env fix w w' := by
  simp only [MoolaFix.repayOneAccountBadDebt, bind_ok] at h
  obtain ⟨_, -, ⟨w₁, _⟩, h₁, left, -, h⟩ := h
  split at h
  · simp only [bind_ok, pure_ok, Prod.mk.injEq] at h
    obtain ⟨_, -, ⟨w₂, _⟩, h₂, _, -, rfl, -⟩ := h
    exact (repayMode h₁).trans (repayMode h₂)
  · rw [← (Prod.mk.inj (Except.ok.inj h)).1]
    exact repayMode h₁

theorem repayRecords {es es' : List Entry} {total : ℕ}
    (h : repayRecords env fix asset w total es = .ok (w', es')) : OwnCalls env fix w w' := by
  induction es generalizing w total es' with
  | nil =>
    rw [← (Prod.mk.inj (Except.ok.inj h)).1]
    exact .refl
  | cons e es ih =>
    unfold MoolaFix.repayRecords at h
    split at h
    · rw [← (Prod.mk.inj (Except.ok.inj h)).1]
      exact .refl
    · simp only [bind_ok, pure_ok, Prod.mk.injEq] at h
      obtain ⟨⟨w₁, _⟩, h₁, _, -, _, -, ⟨w₂, _⟩, h₂, rfl, -⟩ := h
      exact (repayOneAccountBadDebt h₁).trans (ih h₂)

theorem repayDebts {ds : List Debt} (h : repayDebts env fix asset w ds = .ok w') :
    OwnCalls env fix w w' := by
  induction ds generalizing w with
  | nil =>
    rw [← Except.ok.inj h]
    exact .refl
  | cons d ds ih =>
    obtain ⟨⟨w₁, _⟩, h₁, h⟩ := bind_ok.mp h
    exact (repayOneAccountBadDebt h₁).trans (ih h)

theorem secondRoundRepay {mem mem' : Mem}
    (h : secondRoundRepay env fix w mem = .ok (w', mem')) : OwnCalls env fix w w' := by
  simp only [MoolaFix.secondRoundRepay, bind_ok, pure_ok, Prod.mk.injEq] at h
  obtain ⟨⟨w₁, _⟩, h₁, ⟨w₂, _⟩, h₂, w₃, h₃, w₄, h₄, w₅, h₅, rfl, -⟩ := h
  exact ((((repayRecords h₁).trans (repayRecords h₂)).trans (repayDebts h₃)).trans
    (repayDebts h₄)).trans (repayDebts h₅)

theorem writeOffMode {account : Address} {debt left rateMode n : ℕ}
    (h : writeOffMode env fix asset w debt left rateMode account = .ok (w', n)) :
    OwnCalls env fix w w' := by
  unfold MoolaFix.writeOffMode at h
  split at h
  · exact writeOff h
  · rw [← (Prod.mk.inj (Except.ok.inj h)).1]
    exact .refl

theorem burnOneAccountBadDebt {account : Address} {total n : ℕ}
    (h : burnOneAccountBadDebt env fix asset w account total = .ok (w', n)) :
    OwnCalls env fix w w' := by
  unfold MoolaFix.burnOneAccountBadDebt at h
  split at h
  · rw [← (Prod.mk.inj (Except.ok.inj h)).1]
    exact .refl
  · simp only [bind_ok] at h
    obtain ⟨_, -, ⟨w₁, _⟩, h₁, left, -, h⟩ := h
    split at h
    · simp only [bind_ok, pure_ok, Prod.mk.injEq] at h
      obtain ⟨_, -, ⟨w₂, _⟩, h₂, _, -, rfl, -⟩ := h
      exact (writeOffMode h₁).trans (writeOffMode h₂)
    · rw [← (Prod.mk.inj (Except.ok.inj h)).1]
      exact writeOffMode h₁

theorem writeOffBadDebt {s s' : BadDebtBurnt} {entries : List Debt}
    (h : MoolaFix.writeOffBadDebt env fix asset s entries = .ok s') :
    OwnCalls env fix s.world s'.world := by
  induction entries generalizing s with
  | nil =>
    rw [← Except.ok.inj h]
    exact .refl
  | cons entry entries ih =>
    simp only [MoolaFix.writeOffBadDebt, bind_ok] at h
    obtain ⟨⟨w₁, _⟩, h₁, _, -, h⟩ := h
    exact (burnOneAccountBadDebt h₁).trans (ih h)

theorem writeOffMem {mem : Mem} {celo ceur : ℕ}
    (h : mem.writeOffBadDebt env fix w = .ok (w', celo, ceur)) : OwnCalls env fix w w' := by
  simp only [Mem.writeOffBadDebt, bind_ok, pure_ok, Prod.mk.injEq] at h
  obtain ⟨s₁, h₁, s₂, h₂, rfl, -, -⟩ := h
  have hceur := writeOffBadDebt h₂
  exact (writeOffBadDebt h₁).trans hceur

theorem performs (h : OwnCalls (c.adminEnv env) fix c.world w) :
    Performs env fix [] c { c with world := w } := by
  induction h with
  | refl => exact .done c
  | @tail w₁ w' _ hcall ih =>
    obtain ⟨call, hown, h⟩ := hcall
    exact ih.append (.quietly ⟨call, w', hown, h, rfl⟩)

end OwnCalls

namespace Performs

theorem append {l l' : List Deed} (h : Performs env fix l c c₁) (h' : Performs env fix l' c₁ c') :
    Performs env fix (l ++ l') c c' := WeakRun.append h h'

theorem single {deed : Deed} (h : deed.Done env fix c c') : Performs env fix [deed] c c' :=
  WeakRun.single h

theorem run {call : Call} (h : c.run env fix call = .ok c') (hown : OwnCall fix call) :
    Performs env fix [] c c' := by
  obtain ⟨w, hw, rfl⟩ := run_ok h
  exact .quietly ⟨call, w, hown, hw, rfl⟩

theorem runAll {calls : List Call} (h : c.runAll env fix calls = .ok c')
    (hown : ∀ call ∈ calls, OwnCall fix call) : Performs env fix [] c c' := by
  induction calls generalizing c with
  | nil =>
    rw [← Except.ok.inj h]
    exact .done c
  | cons call calls ih =>
    obtain ⟨c₁, h₁, h⟩ := bind_ok.mp h
    have hfirst := run h₁ (hown call List.mem_cons_self)
    exact hfirst.append (ih h fun x hx => hown x (List.mem_cons_of_mem call hx))

theorem setReserveFactor {n : ℕ} (h : setReserveFactor env fix c asset n = .ok c') :
    Performs env fix [.configure asset [.reserveFactor n]] c c' := by
  obtain ⟨w, hw, he⟩ := bind_ok.mp h
  exact .single ⟨w, setReserveFactor_stores hw, (pure_ok.mp he).symm⟩

theorem setReserveParams {ltv threshold bonus : ℕ}
    (h : setReserveParams env fix c asset ltv threshold bonus = .ok c') :
    Performs env fix [.configure asset (riskParameters ltv threshold bonus)] c c' := by
  obtain ⟨w, hw, he⟩ := bind_ok.mp h
  exact .single ⟨w, (configureReserveAsCollateral_stores hw).2, (pure_ok.mp he).symm⟩

theorem setReserveFactors {n : ℕ} (h : setReserveFactors env fix c n = .ok c') :
    Performs env fix (markets.map fun asset => .configure asset [.reserveFactor n]) c c' := by
  simp only [MoolaFix.setReserveFactors, bind_ok] at h
  obtain ⟨c₁, h₁, c₂, h₂, c₃, h₃, c₄, h₄, h⟩ := h
  have hall := (setReserveFactor h₁).append ((setReserveFactor h₂).append
    ((setReserveFactor h₃).append ((setReserveFactor h₄).append (setReserveFactor h))))
  exact hall

theorem setMtokenImpl {impl : ATokenImpl} (h : setMtokenImpl env fix c impl = .ok c') :
    Performs env fix (markets.map fun asset => .updateAToken asset impl) c c' := by
  simp only [MoolaFix.setMtokenImpl, bind_ok] at h
  obtain ⟨c₁, h₁, c₂, h₂, c₃, h₃, c₄, h₄, h⟩ := h
  exact .labelled h₁ (.labelled h₂ (.labelled h₃ (.labelled h₄ (.single h))))

theorem takeControl (h : takeControl env fix c = .ok c') :
    Performs env fix (takeControlDeeds fix) c c' := by
  simp only [MoolaFix.takeControl, bind_ok] at h
  obtain ⟨c₁, h₁, c₂, h₂, c₃, h₃, c₄, h₄, c₅, h₅, h⟩ := h
  have hcontrol : Performs env fix [.setEmergencyAdmin fix, .setPoolAdmin fix,
      .setLendingPoolImpl .withUpdateLiquidityIndex] c c₃ :=
    .labelled h₁ (.labelled h₂ (.single h₃))
  have hunpaused : Performs env fix [.setPoolPause false] c₄ c₅ := .single h₅
  exact ((hcontrol.append (setReserveFactors h₄)).append hunpaused).append (setMtokenImpl h)

theorem transferMceloFromAdvantagers {gs : List IllGain}
    (h : transferMceloFromAdvantagers env fix c gs = .ok c') :
    Performs env fix (gs.map (Deed.takeFrom CELO)) c c' := by
  induction gs generalizing c with
  | nil =>
    rw [← Except.ok.inj h]
    exact .done c
  | cons g gs ih =>
    obtain ⟨c₁, h₁, h⟩ := bind_ok.mp h
    exact .labelled h₁ (ih h)

theorem taken {holder : Address} {amount : ℕ}
    (h : transferToMoolaFix env fix c asset holder amount = .ok c') :
    Performs env fix [.transferForMoolaFix asset holder amount] c c' := .single h

theorem transferTokensFromOwnedWallet (h : transferTokensFromOwnedWallet env fix c = .ok c') :
    Performs env fix ownedWalletDeeds c c' := by
  simp only [MoolaFix.transferTokensFromOwnedWallet, bind_ok] at h
  obtain ⟨c₁, h₁, c₂, h₂, c₃, h₃, h⟩ := h
  exact (taken h₁).append ((taken h₂).append ((taken h₃).append (taken h)))

theorem transferMceloFromExploiter (h : transferMceloFromExploiter env fix c = .ok c') :
    Performs env fix exploiterDeeds c c' := by
  obtain ⟨c₁, h₁, h⟩ := bind_ok.mp h
  exact (taken h₁).append (taken h)

theorem transferMooToAdvantagers (h : transferMooToAdvantagers env fix c = .ok c') :
    Performs env fix [] c c' := by
  refine runAll (bind_unit_ok.mp h).2 fun call hcall => ?_
  obtain ⟨g, -, rfl⟩ := List.mem_map.mp hcall
  trivial

theorem transferMceloFromAndDepositMooToPool {sync : Tx Unit}
    (h : transferMceloFromAndDepositMooToPool env fix c sync = .ok c') :
    Performs env fix [.transferForMoolaFix CELO mCeloMooPool 675929253603686065263591] c c' := by
  simp only [MoolaFix.transferMceloFromAndDepositMooToPool, bind_ok] at h
  obtain ⟨c₁, h₁, c₂, h₂, h⟩ := h
  cases sync with
  | error e => cases h
  | ok =>
    rw [← Except.ok.inj h]
    exact (taken h₁).append (run h₂ trivial)

theorem collect {sync : Tx Unit} (h : collect env fix c sync = .ok c') :
    Performs env fix collectDeeds c c' := by
  simp only [MoolaFix.collect, bind_ok] at h
  obtain ⟨c₁, h₁, c₂, h₂, c₃, h₃, c₄, h₄, c₅, h₅, h⟩ := h
  have hrepay : Performs env fix [] c₁ c₂ := run h₂ trivial
  have hmoo := transferMooToAdvantagers h₅
  exact (((transferTokensFromOwnedWallet h₁).append hrepay).append
    (transferMceloFromExploiter h₃)).append (transferMceloFromAdvantagers h₄) |>.append
    (hmoo.append (transferMceloFromAndDepositMooToPool h))

theorem settleBadDebt (h : settleBadDebt env fix c = .ok c') :
    Performs env fix settleBadDebtDeeds c c' := by
  simp only [MoolaFix.settleBadDebt, bind_ok] at h
  obtain ⟨⟨w₁, mem₁⟩, h₁, c₂, h₂, ⟨w₃, mem₃⟩, h₃, ⟨w₄, celo, ceur⟩, h₄, c₅, h₅, c₆, h₆, c₇, h₇,
    h⟩ := h
  have hfirst := (OwnCalls.firstRoundRepay h₁).performs
  have hwithdrawn := runAll h₂ (by simp [OwnCall])
  have hsecond := (OwnCalls.secondRoundRepay h₃).performs
  have hwrittenOff := OwnCalls.performs (c := { c₂ with world := w₃ }) (OwnCalls.writeOffMem h₄)
  have hbefore : Performs env fix [] c { c₂ with world := w₄ } :=
    ((hfirst.append hwithdrawn).append hsecond).append hwrittenOff
  have hmoo : Performs env fix [] c₅ c₆ := run h₆ trivial
  have hindexes := runAll h (by simp [OwnCall])
  exact hbefore.append ((taken h₅).append (hmoo.append ((setMtokenImpl h₇).append hindexes)))

theorem reconfigure (h : reconfigure env fix c = .ok c') :
    Performs env fix reconfigureDeeds c c' := by
  simp only [MoolaFix.reconfigure, bind_ok] at h
  obtain ⟨c₁, h₁, c₂, h₂, c₃, h₃, c₄, h₄, c₅, h₅, h⟩ := h
  have hrisk := (setReserveParams h₁).append ((setReserveParams h₂).append
    ((setReserveParams h₃).append (setReserveParams h₄)))
  have hchecked := runAll h (by simp [OwnCall])
  exact (hrisk.append (setReserveFactors h₅)).append hchecked

theorem testFrozenMoo (h : testFrozenMoo env fix c = .ok c') : Performs env fix [] c c' := by
  simp only [MoolaFix.testFrozenMoo, bind_ok, exists_unit, pure_ok] at h
  obtain ⟨c₁, h₁, -, -, -, rfl⟩ := h
  exact runAll h₁ (by simp [OwnCall])

theorem testGracePeriodActions (h : testGracePeriodActions env fix c = .ok c') :
    Performs env fix [] c c' := by
  simp only [MoolaFix.testGracePeriodActions, bind_ok, exists_unit, pure_ok] at h
  obtain ⟨c₁, h₁, c₂, h₂, -, -, -, -, rfl⟩ := h
  exact (run h₁ trivial).append (run h₂ trivial)

theorem beginGracePeriod (h : beginGracePeriod env fix c = .ok c') :
    Performs env fix beginGracePeriodDeeds c c' := by
  simp only [MoolaFix.beginGracePeriod, bind_ok] at h
  obtain ⟨c₁, h₁, c₂, h₂, c₃, h₃, c₄, h₄, h⟩ := h
  obtain ⟨w, hw, he⟩ := bind_ok.mp h₂
  have hfrozen : Performs env fix [.configure MOO [.frozen true]] c₁ c₂ :=
    .single ⟨w, freezeReserve_stores hw, (pure_ok.mp he).symm⟩
  have himpl : Performs env fix [.setLendingPoolImpl .withGracePeriod] c₃ c₄ := .single h₄
  have hdeposit : Performs env fix [] c c₁ := run h₁ trivial
  exact ((hdeposit.append hfrozen).append (testFrozenMoo h₃)).append
    (himpl.append (testGracePeriodActions h))

theorem handOver (h : handOver env fix c = .ok c') : Performs env fix handOverDeeds c c' := by
  simp only [MoolaFix.handOver, bind_ok, exists_unit] at h
  obtain ⟨c₁, h₁, -, c₂, h₂, c₃, h₃, c₄, h₄, c₅, h₅, c₆, h₆, h⟩ := h
  have hrights : Performs env fix handOverDeeds c c₄ :=
    .labelled h₁ (.labelled h₂ (.labelled h₃ (.single h₄)))
  have hrest : Performs env fix [] c₄ c' :=
    (run h₅ trivial).append ((run h₆ trivial).append (run h trivial))
  have hall := hrights.append hrest
  exact hall

theorem execute {caller : Address} {sync : Tx Unit}
    (h : execute env fix c caller sync = .ok c') : Performs env fix (plan fix) c c' := by
  simp only [MoolaFix.execute, bind_ok, exists_unit, pure_ok] at h
  obtain ⟨-, c₁, h₁, c₂, h₂, c₃, h₃, c₄, h₄, c₅, h₅, c₆, h₆, -, rfl⟩ := h
  exact (((((takeControl h₁).append (collect h₂)).append (settleBadDebt h₃)).append
    (reconfigure h₄)).append (beginGracePeriod h₅)).append (handOver h₆)

end Performs

end MoolaFix

end Moola
