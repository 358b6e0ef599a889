import Moola.ScriptPlan

/-! What the script of MoolaFix leaves behind, read off its plan: who is in charge, which
implementations run, what the configuration of every asset says, and that nobody outside a short
list of accounts loses anything. -/

namespace Moola

open Guard ReserveConfigurationMap LendingPoolConfigurator

namespace MoolaFix

variable {env : Env} {fix : Address} {c c₁ c' : Chain} {w w₁ w' : World} {asset : Address}

/-- All that a step of the plan changes, once its checks have passed. -/
def Deed.Changes (env : Env) (fix : Address) (c c' : Chain) : Deed → Prop
  | .setEmergencyAdmin admin => c' = { c with emergencyAdmin := admin }
  | .setPoolAdmin admin => c' = { c with poolAdmin := admin }
  | .transferOwnership newOwner => c' = { c with providerOwner := newOwner }
  | .setLendingPoolImpl impl => c' = { c with world := { c.world with impl } }
  | .setPoolPause val => c' = { c with world := { c.world with paused := val } }
  | .updateAToken asset impl =>
    let r := c.world.reserves asset
    let treasury := if impl = .aToken then ownedWallet else r.aToken.treasury
    c' = { c with
      world := c.world.setReserve asset { r with aToken := { r.aToken with treasury := treasury } }
      aTokenImpl := write c.aTokenImpl asset impl }
  | .configure asset settings => ∃ configuration,
    (c.world.reserves asset).data.configuration.applyAll settings = .ok configuration ∧
    c' = { c with world := c.world.setReserve asset ((c.world.reserves asset).withData
      { (c.world.reserves asset).data with configuration }) }
  | .transferForMoolaFix asset holder amount => ∃ w,
    exec (c.adminEnv env) c.world holder (.transfer asset fix amount) = .ok w ∧
      c' = { c with world := w }

theorem Deed.Done.changes {deed : Deed} (h : deed.Done env fix c c') :
    deed.Changes env fix c c' := by
  cases deed with
  | setEmergencyAdmin admin => exact (pure_ok.mp (bind_unit_ok.mp h).2).symm
  | setPoolAdmin admin => exact (pure_ok.mp (bind_unit_ok.mp h).2).symm
  | transferOwnership newOwner =>
    simp only [Deed.Done, MoolaFix.transferOwnership, bind_unit_ok, pure_ok] at h
    exact h.2.2.symm
  | setLendingPoolImpl impl =>
    simp only [Deed.Done, MoolaFix.setLendingPoolImpl, bind_unit_ok, pure_ok] at h
    exact h.2.2.symm
  | setPoolPause val =>
    simp only [Deed.Done, MoolaFix.setPoolPause, Chain.onWorld, LendingPool.setPause, bind_ok,
      exists_unit, pure_ok] at h
    obtain ⟨-, w, ⟨-, rfl⟩, rfl⟩ := h
    rfl
  | updateAToken asset impl =>
    simp only [Deed.Done, MoolaFix.updateAToken, bind_unit_ok, pure_ok] at h
    exact h.2.2.2.symm
  | configure asset settings =>
    obtain ⟨w, ⟨configuration, hset, hw⟩, rfl⟩ := h
    rw [setConfiguration_ok hw]
    exact ⟨configuration, hset, rfl⟩
  | transferForMoolaFix asset holder amount =>
    simp only [Deed.Done, transferToMoolaFix, Chain.onWorld, bind_ok, exists_unit, pure_ok] at h
    obtain ⟨-, -, w, hw, rfl⟩ := h
    exact ⟨w, hw, rfl⟩

structure Rights where
  fixOwner : Address
  providerOwner : Address
  poolAdmin : Address
  emergencyAdmin : Address
  impl : PoolImpl
  paused : Bool
  aTokenImpl : Address → ATokenImpl
  treasury : Address → Address

def Chain.rights (c : Chain) : Rights where
  fixOwner := c.fixOwner
  providerOwner := c.providerOwner
  poolAdmin := c.poolAdmin
  emergencyAdmin := c.emergencyAdmin
  impl := c.world.impl
  paused := c.world.paused
  aTokenImpl := c.aTokenImpl
  treasury a := (c.world.reserves a).aToken.treasury

def Rights.grant (r : Rights) : Deed → Rights
  | .setEmergencyAdmin admin => { r with emergencyAdmin := admin }
  | .setPoolAdmin admin => { r with poolAdmin := admin }
  | .transferOwnership newOwner => { r with providerOwner := newOwner }
  | .setLendingPoolImpl impl => { r with impl }
  | .setPoolPause val => { r with paused := val }
  | .updateAToken asset impl =>
    { r with
      aTokenImpl := write r.aTokenImpl asset impl
      treasury := if impl = .aToken then write r.treasury asset ownedWallet else r.treasury }
  | .configure .. | .transferForMoolaFix .. => r

theorem write_same {α : Type} (f : Address → α) (a : Address) : write f a (f a) = f := by
  funext x
  rw [write_apply]
  split_ifs with hx
  · rw [hx]
  · rfl

theorem setReserve_treasury (r : Reserve) :
    (fun a => ((w.setReserve asset r).reserves a).aToken.treasury) =
      write (fun a => (w.reserves a).aToken.treasury) asset r.aToken.treasury := by
  funext a
  by_cases ha : a = asset
  · subst ha
    rw [World.setReserve_reserves_self, write_self]
  · rw [World.setReserve_reserves_of_ne ha, write_of_ne _ _ ha]

theorem rights_of_world (h : c.world.SameTerms w) : { c with world := w }.rights = c.rights := by
  have htreasury : (fun a => (w.reserves a).aToken.treasury) =
      fun a => (c.world.reserves a).aToken.treasury := funext fun a => (h.reserves a).treasury
  simp only [Chain.rights, h.impl, h.paused, htreasury]

theorem Ordinary.sameTerms (h : Ordinary env fix c c') : c.world.SameTerms c'.world := by
  obtain ⟨call, w, hown, hw, rfl⟩ := h
  exact .exec hown.byUser hw

theorem Ordinary.rights (h : Ordinary env fix c c') : c'.rights = c.rights := by
  have hterms := h.sameTerms
  obtain ⟨call, w, -, -, rfl⟩ := h
  exact rights_of_world hterms

theorem Deed.Changes.rights {deed : Deed} (h : deed.Changes env fix c c') :
    c'.rights = c.rights.grant deed := by
  cases deed with
  | updateAToken asset impl =>
    rw [show c' = _ from h]
    simp only [Chain.rights, Rights.grant, setReserve_treasury, World.setReserve_impl,
      World.setReserve_paused]
    split_ifs with haToken
    · rfl
    · rw [write_same fun a => (c.world.reserves a).aToken.treasury]
  | configure asset settings =>
    obtain ⟨configuration, -, rfl⟩ := h
    simp only [Chain.rights, Rights.grant, setReserve_treasury, World.setReserve_impl,
      World.setReserve_paused, Reserve.withData]
    rw [write_same fun a => (c.world.reserves a).aToken.treasury]
  | transferForMoolaFix asset holder amount =>
    obtain ⟨w, hw, rfl⟩ := h
    exact rights_of_world (.exec (.of_user rfl (by simp)) hw)
  | _ =>
    rw [show c' = _ from h]
    rfl

def Chain.parameters (c : Chain) (asset : Address) : Field → ℕ :=
  (c.world.reserves asset).data.configuration.get

def assign (p : Field → ℕ) (settings : List Setter) : Field → ℕ :=
  settings.foldl (fun p s => Function.update p s.field s.value) p

def settingsOf (asset : Address) : List Deed → List Setter
  | [] => []
  | .configure a settings :: deeds =>
    (if a = asset then settings else []) ++ settingsOf asset deeds
  | _ :: deeds => settingsOf asset deeds

theorem Deed.Changes.parameters {deed : Deed} (h : deed.Changes env fix c c') (x : Address) :
    c'.parameters x = assign (c.parameters x) (settingsOf x [deed]) := by
  cases deed with
  | updateAToken asset impl =>
    rw [show c' = _ from h]
    by_cases hx : x = asset
    · subst hx
      simp only [Chain.parameters, World.setReserve_reserves_self, settingsOf, assign,
        List.foldl_nil]
    · simp only [Chain.parameters, World.setReserve_reserves_of_ne hx, settingsOf, assign,
        List.foldl_nil]
  | configure asset settings =>
    obtain ⟨configuration, hset, rfl⟩ := h
    by_cases hx : x = asset
    · subst hx
      simp only [Chain.parameters, World.setReserve_reserves_self, settingsOf, assign, if_true,
        List.append_nil]
      exact get_applyAll hset
    · have hne : asset ≠ x := fun he => hx he.symm
      simp only [Chain.parameters, World.setReserve_reserves_of_ne hx, settingsOf, assign,
        if_neg hne, List.append_nil, List.foldl_nil]
  | transferForMoolaFix asset holder amount =>
    obtain ⟨w, hw, rfl⟩ := h
    have hterms := World.SameTerms.exec (.of_user rfl (by simp)) hw
    simp only [Chain.parameters, (hterms.reserves x).configuration, settingsOf, assign,
      List.foldl_nil]
  | _ =>
    rw [show c' = _ from h]
    rfl

theorem settingsOf_cons (x : Address) (deed : Deed) (deeds : List Deed) :
    settingsOf x (deed :: deeds) = settingsOf x [deed] ++ settingsOf x deeds := by
  cases deed with
  | configure asset settings => simp only [settingsOf, List.append_nil]
  | _ => rfl

theorem assign_append (p : Field → ℕ) (ss ss' : List Setter) :
    assign p (ss ++ ss') = assign (assign p ss) ss' := List.foldl_append

theorem Performs.parameters {deeds : List Deed} (h : Performs env fix deeds c c') (x : Address) :
    c'.parameters x = assign (c.parameters x) (settingsOf x deeds) := by
  induction h with
  | done => rfl
  | silent hs _ ih =>
    rw [ih]
    simp only [Chain.parameters, (hs.sameTerms.reserves x).configuration]
  | labelled hd _ ih => rw [ih, hd.changes.parameters x, ← assign_append, ← settingsOf_cons]

theorem Performs.rights {deeds : List Deed} (h : Performs env fix deeds c c') :
    c'.rights = deeds.foldl Rights.grant c.rights :=
  WeakRun.view Chain.rights Rights.grant (fun _ _ hs => hs.rights)
    (fun _ _ _ hd => hd.changes.rights) h

def decided (asset : Address) : List Setter :=
  if asset = CELO then riskParameters 6500 7000 10500 ++ [.reserveFactor 1000]
  else if asset = cUSD then [.reserveFactor 1000]
  else if asset = cEUR then riskParameters 4500 5000 11000 ++ [.reserveFactor 1000]
  else if asset = cREAL then riskParameters 1 1 11000 ++ [.reserveFactor 1000]
  else if asset = MOO then riskParameters 1 1 11000 ++ [.reserveFactor 1000, .frozen true]
  else []

theorem settingsOf_append (x : Address) (deeds deeds' : List Deed) :
    settingsOf x (deeds ++ deeds') = settingsOf x deeds ++ settingsOf x deeds' := by
  induction deeds with
  | nil => rfl
  | cons deed deeds ih =>
    rw [List.cons_append, settingsOf_cons, settingsOf_cons x deed deeds, ih, List.append_assoc]

theorem settingsOf_eq_nil {deeds : List Deed} {x : Address}
    (h : ∀ deed ∈ deeds, settingsOf x [deed] = []) : settingsOf x deeds = [] := by
  induction deeds with
  | nil => rfl
  | cons deed deeds ih =>
    rw [settingsOf_cons, h deed List.mem_cons_self,
      ih fun d hd => h d (List.mem_cons_of_mem deed hd), List.append_nil]

theorem collectDeeds_transfer : ∀ deed ∈ collectDeeds, ∃ asset holder amount,
    deed = .transferForMoolaFix asset holder amount := by
  intro deed hdeed
  simp only [collectDeeds, ownedWalletDeeds, exploiterDeeds, List.mem_append, List.mem_cons,
    List.not_mem_nil, or_false, List.mem_map] at hdeed
  obtain (((rfl | rfl | rfl | rfl) | rfl | rfl) | ⟨g, -, rfl⟩) | rfl := hdeed <;>
    exact ⟨_, _, _, rfl⟩

theorem settingsOf_plan (x : Address) : settingsOf x (plan fix) =
    settingsOf x (markets.map fun asset => .configure asset [.reserveFactor 0]) ++
      settingsOf x (reconfigureDeeds ++ beginGracePeriodDeeds) := by
  have htaken : settingsOf x (takeControlDeeds fix) =
      settingsOf x (markets.map fun asset => .configure asset [.reserveFactor 0]) := by
    have hupgrade : settingsOf x
        (markets.map fun asset => .updateAToken asset .withTransferForMoolaFix) = [] :=
      settingsOf_eq_nil (by simp [settingsOf])
    have hcontrol : settingsOf x [.setEmergencyAdmin fix, .setPoolAdmin fix,
        .setLendingPoolImpl .withUpdateLiquidityIndex] = [] :=
      settingsOf_eq_nil (by simp [settingsOf])
    have hunpause : settingsOf x [.setPoolPause false] = [] := rfl
    rw [takeControlDeeds, settingsOf_append, settingsOf_append, settingsOf_append, hupgrade,
      hcontrol, hunpause, List.append_nil, List.append_nil, List.nil_append]
  have hcollect : settingsOf x collectDeeds = [] := by
    refine settingsOf_eq_nil fun deed hdeed => ?_
    obtain ⟨asset, holder, amount, rfl⟩ := collectDeeds_transfer deed hdeed
    rfl
  have hsettle : settingsOf x settleBadDebtDeeds = [] :=
    settingsOf_eq_nil (by simp [settleBadDebtDeeds, settingsOf])
  have hover : settingsOf x handOverDeeds = [] :=
    settingsOf_eq_nil (by simp [handOverDeeds, settingsOf])
  simp only [plan, settingsOf_append, htaken, hcollect, hsettle, hover, List.append_nil,
    List.append_assoc, List.nil_append]

/-- The factor that the script starts with is overwritten, so the last settings decide. -/
theorem assign_plan (p : Field → ℕ) (x : Address) :
    assign p (settingsOf x (plan fix)) = assign p (decided x) := by
  rw [settingsOf_plan]
  by_cases hx : x ∈ markets
  · simp only [markets, List.mem_cons, List.not_mem_nil, or_false] at hx
    obtain rfl | rfl | rfl | rfl | rfl := hx <;> funext f <;> cases f <;> rfl
  · simp only [markets, List.mem_cons, List.not_mem_nil, or_false, not_or] at hx
    obtain ⟨hcelo, hcusd, hceur, hcreal, hmoo⟩ := hx
    simp only [markets, List.map_cons, List.map_nil, reconfigureDeeds, beginGracePeriodDeeds,
      List.cons_append, List.nil_append, settingsOf, decided, if_neg hcelo, if_neg hcusd,
      if_neg hceur, if_neg hcreal, if_neg hmoo, if_neg (Ne.symm hcelo), if_neg (Ne.symm hcusd),
      if_neg (Ne.symm hceur), if_neg (Ne.symm hcreal), if_neg (Ne.symm hmoo)]

theorem rights_unchanged {deeds : List Deed} (r : Rights)
    (h : ∀ deed ∈ deeds, ∀ r : Rights, r.grant deed = r) : deeds.foldl Rights.grant r = r := by
  induction deeds with
  | nil => rfl
  | cons deed deeds ih =>
    rw [List.foldl_cons, h deed List.mem_cons_self,
      ih fun d hd => h d (List.mem_cons_of_mem deed hd)]

theorem rights_upgraded (r : Rights) (impl : ATokenImpl) :
    (markets.map fun asset => Deed.updateAToken asset impl).foldl Rights.grant r =
      { r with
        aTokenImpl := fun a => if a ∈ markets then impl else r.aTokenImpl a
        treasury := fun a =>
          if impl = .aToken ∧ a ∈ markets then ownedWallet else r.treasury a } := by
  have himpl : write (write (write (write (write r.aTokenImpl CELO impl) cUSD impl) cEUR impl)
      cREAL impl) MOO impl = fun a => if a ∈ markets then impl else r.aTokenImpl a := by
    funext a
    simp only [write_apply, markets, List.mem_cons, List.not_mem_nil, or_false]
    split_ifs <;> simp_all
  have htreasury : write (write (write (write (write r.treasury CELO ownedWallet) cUSD ownedWallet)
      cEUR ownedWallet) cREAL ownedWallet) MOO ownedWallet =
        fun a => if a ∈ markets then ownedWallet else r.treasury a := by
    funext a
    simp only [write_apply, markets, List.mem_cons, List.not_mem_nil, or_false]
    split_ifs <;> simp_all
  rw [← himpl]
  cases impl with
  | aToken =>
    simp only [true_and, ← htreasury]
    rfl
  | _ => simp [markets, Rights.grant]

theorem plan_rights (r : Rights) : (plan fix).foldl Rights.grant r =
    { fixOwner := r.fixOwner
      providerOwner := ownedWallet
      poolAdmin := ownedWallet
      emergencyAdmin := ownedWallet
      impl := .withGracePeriod
      paused := true
      aTokenImpl := fun a => if a ∈ markets then .aToken else r.aTokenImpl a
      treasury := fun a => if a ∈ markets then ownedWallet else r.treasury a } := by
  have hcollect (r : Rights) : collectDeeds.foldl Rights.grant r = r := by
    refine rights_unchanged r fun deed hdeed r => ?_
    obtain ⟨asset, holder, amount, rfl⟩ := collectDeeds_transfer deed hdeed
    rfl
  have hfactors (n : ℕ) (r : Rights) :
      (markets.map fun asset => Deed.configure asset [.reserveFactor n]).foldl Rights.grant r = r :=
    rights_unchanged r (by simp [Rights.grant])
  have hreconfigure (r : Rights) : reconfigureDeeds.foldl Rights.grant r = r :=
    rights_unchanged r (by simp [reconfigureDeeds, Rights.grant])
  simp only [plan, takeControlDeeds, settleBadDebtDeeds, beginGracePeriodDeeds, handOverDeeds,
    List.foldl_append, List.foldl_cons, List.foldl_nil, hcollect, hfactors, hreconfigure,
    rights_upgraded, Rights.grant, true_and, reduceCtorEq, false_and, if_false]
  congr 1
  funext a
  split_ifs <;> rfl

/-- The reserves that are listed, with their tokens and strategies. -/
structure SameListing (c c' : Chain) : Prop where
  reservesList : c'.world.reservesList = c.world.reservesList
  reservesCount : c'.world.reservesCount = c.world.reservesCount
  aTokenAddress : ∀ a, (c'.world.reserves a).data.aTokenAddress =
    (c.world.reserves a).data.aTokenAddress
  strategy : ∀ a, (c'.world.reserves a).data.interestRateStrategyAddress =
    (c.world.reserves a).data.interestRateStrategyAddress
  id : ∀ a, (c'.world.reserves a).data.id = (c.world.reserves a).data.id

namespace SameListing

theorem refl (c : Chain) : SameListing c c := ⟨rfl, rfl, fun _ => rfl, fun _ => rfl, fun _ => rfl⟩

theorem trans (h₁ : SameListing c c₁) (h₂ : SameListing c₁ c') : SameListing c c' where
  reservesList := h₂.reservesList.trans h₁.reservesList
  reservesCount := h₂.reservesCount.trans h₁.reservesCount
  aTokenAddress a := (h₂.aTokenAddress a).trans (h₁.aTokenAddress a)
  strategy a := (h₂.strategy a).trans (h₁.strategy a)
  id a := (h₂.id a).trans (h₁.id a)

theorem of_sameTerms (h : c.world.SameTerms c'.world) : SameListing c c' where
  reservesList := h.reservesList
  reservesCount := h.reservesCount
  aTokenAddress a := (h.reserves a).aTokenAddress
  strategy a := (h.reserves a).interestRateStrategyAddress
  id a := (h.reserves a).id

theorem of_setReserve {r : Reserve} (hc : c'.world = c.world.setReserve asset r)
    (haToken : r.data.aTokenAddress = (c.world.reserves asset).data.aTokenAddress)
    (hstrategy : r.data.interestRateStrategyAddress =
      (c.world.reserves asset).data.interestRateStrategyAddress)
    (hid : r.data.id = (c.world.reserves asset).data.id) : SameListing c c' := by
  have hall {α : Type} (f : Reserve → α) (hf : f r = f (c.world.reserves asset)) (a : Address) :
      f (c'.world.reserves a) = f (c.world.reserves a) := by
    rw [hc]
    by_cases ha : a = asset
    · subst ha
      rw [World.setReserve_reserves_self, hf]
    · rw [World.setReserve_reserves_of_ne ha]
  exact ⟨by rw [hc, World.setReserve_reservesList], by rw [hc, World.setReserve_reservesCount],
    hall (·.data.aTokenAddress) haToken, hall (·.data.interestRateStrategyAddress) hstrategy,
    hall (·.data.id) hid⟩

end SameListing

theorem Deed.Changes.sameListing {deed : Deed} (h : deed.Changes env fix c c') :
    SameListing c c' := by
  cases deed with
  | updateAToken asset impl => exact .of_setReserve (congrArg Chain.world h) rfl rfl rfl
  | configure asset settings =>
    obtain ⟨configuration, -, h⟩ := h
    exact .of_setReserve (congrArg Chain.world h) rfl rfl rfl
  | transferForMoolaFix asset holder amount =>
    obtain ⟨w, hw, rfl⟩ := h
    exact .of_sameTerms (World.SameTerms.exec (.of_user rfl (by simp)) hw)
  | _ =>
    rw [show c' = _ from h]
    exact ⟨rfl, rfl, fun _ => rfl, fun _ => rfl, fun _ => rfl⟩

theorem Performs.sameListing {deeds : List Deed} (h : Performs env fix deeds c c') :
    SameListing c c' :=
  WeakRun.relates SameListing .refl (fun _ _ _ => .trans) (fun _ _ hs => .of_sameTerms hs.sameTerms)
    h fun _ _ _ _ hd => hd.changes.sameListing

/-- The state that the script leaves to the owned wallet. -/
structure HandedOver (c c' : Chain) : Prop where
  owner : c'.providerOwner = ownedWallet ∧ c'.fixOwner = c.fixOwner
  admins : c'.poolAdmin = ownedWallet ∧ c'.emergencyAdmin = ownedWallet
  pool : c'.world.impl = .withGracePeriod ∧ c'.world.paused = true
  aTokens : ∀ asset ∈ markets, c'.aTokenImpl asset = .aToken ∧
    (c'.world.reserves asset).aToken.treasury = ownedWallet
  otherTokens : ∀ asset ∉ markets, c'.aTokenImpl asset = c.aTokenImpl asset ∧
    (c'.world.reserves asset).aToken.treasury = (c.world.reserves asset).aToken.treasury
  parameters : ∀ asset, c'.parameters asset = assign (c.parameters asset) (decided asset)
  listing : SameListing c c'

/-- Whatever the state it starts from, a script that succeeds leaves the owned wallet in charge of
everything, the pool paused in its grace period, plain aTokens again, and in the configuration of
every asset exactly the parameters that it decides. Nobody can take aTokens without an allowance
any more. -/
theorem execute_hands_over {caller : Address} {sync : Tx Unit}
    (h : execute env fix c caller sync = .ok c') : HandedOver c c' ∧
      ∀ asset ∈ markets, ∀ env fix holder amount,
        transferToMoolaFix env fix c' asset holder amount = .error .noSuchFunction := by
  have hperforms := Performs.execute h
  have hrights : c'.rights = _ := hperforms.rights.trans (plan_rights c.rights)
  have htoken (asset : Address) : c'.aTokenImpl asset =
      if asset ∈ markets then .aToken else c.aTokenImpl asset :=
    congrFun (congrArg Rights.aTokenImpl hrights) asset
  have htreasury (asset : Address) : (c'.world.reserves asset).aToken.treasury =
      if asset ∈ markets then ownedWallet else (c.world.reserves asset).aToken.treasury :=
    congrFun (congrArg Rights.treasury hrights) asset
  refine ⟨{
      owner := ⟨congrArg Rights.providerOwner hrights, congrArg Rights.fixOwner hrights⟩
      admins := ⟨congrArg Rights.poolAdmin hrights, congrArg Rights.emergencyAdmin hrights⟩
      pool := ⟨congrArg Rights.impl hrights, congrArg Rights.paused hrights⟩
      aTokens := fun asset ha => ⟨by rw [htoken, if_pos ha], by rw [htreasury, if_pos ha]⟩
      otherTokens := fun asset ha => ⟨by rw [htoken, if_neg ha], by rw [htreasury, if_neg ha]⟩
      parameters := fun asset => ?_
      listing := hperforms.sameListing }, fun asset ha env fix holder amount => ?_⟩
  · rw [hperforms.parameters, assign_plan]
  · have hplain : c'.aTokenImpl asset ≠ .withTransferForMoolaFix := by simp [htoken, ha]
    rw [transferToMoolaFix, require, if_neg hplain]
    rfl

theorem execute_hands_over_sample : ∃ c, execute fixEnv 12 fixChain ownedWallet (.ok ()) = .ok c ∧
    HandedOver fixChain c := by
  obtain ⟨c, h, -⟩ := bind_ok.mp fixChain_executes
  exact ⟨c, h, (execute_hands_over h).1⟩

def givers : List Address :=
  [ownedWallet, mooBorrower, 0xeDFc4dD20A77Dd5E802724576E822Fe1A9Cf27e3, mCeloMooPool,
    exploiterAddress] ++ advantagersMcelo.map IllGain.account

def Deed.TakesFrom (user : Address) : Deed → Prop
  | .transferForMoolaFix _ holder _ => holder = user
  | _ => False

theorem plan_takesFrom {user : Address} {deed : Deed} (hdeed : deed ∈ plan fix)
    (h : deed.TakesFrom user) : user ∈ givers := by
  cases deed with
  | transferForMoolaFix asset holder amount =>
    simp only [plan, takeControlDeeds, collectDeeds, ownedWalletDeeds, exploiterDeeds,
      settleBadDebtDeeds, reconfigureDeeds, beginGracePeriodDeeds, handOverDeeds, Deed.takeFrom,
      List.mem_append, List.mem_cons, List.not_mem_nil, or_false, List.mem_map, reduceCtorEq,
      false_or, and_false, exists_false, Deed.transferForMoolaFix.injEq] at hdeed
    have huser : holder = user := h
    subst huser
    have hmember : (holder = ownedWallet ∨ holder = mooBorrower ∨
        holder = 0xeDFc4dD20A77Dd5E802724576E822Fe1A9Cf27e3 ∨ holder = mCeloMooPool ∨
        holder = exploiterAddress) ∨ ∃ g ∈ advantagersMcelo, g.account = holder := by
      obtain (((hwallet | ⟨-, hh, -⟩ | ⟨-, hh, -⟩) | ⟨g, hg, -, hh, -⟩) | ⟨-, hh, -⟩) |
        ⟨-, hh, -⟩ := hdeed
      · obtain ⟨-, hh, -⟩ | ⟨-, hh, -⟩ | ⟨-, hh, -⟩ | ⟨-, hh, -⟩ := hwallet <;>
          exact .inl (.inl hh)
      · exact .inl (.inr (.inl hh))
      · exact .inl (.inr (.inr (.inl hh)))
      · exact .inr ⟨g, hg, hh⟩
      · exact .inl (.inr (.inr (.inr (.inl hh))))
      · exact .inl (.inr (.inr (.inr (.inr hh))))
    simpa only [givers, List.mem_append, List.mem_cons, List.not_mem_nil, or_false,
      List.mem_map] using hmember
  | _ => cases h

theorem spares_of_setReserve {user : Address} {r : Reserve}
    (hledger : r.aToken.ledger = (w.reserves asset).aToken.ledger)
    (hs : r.stableDebtToken = (w.reserves asset).stableDebtToken)
    (hv : r.variableDebtToken = (w.reserves asset).variableDebtToken)
    (haddress : r.data.stableDebtTokenAddress = (w.reserves asset).data.stableDebtTokenAddress) :
    World.Spares env user w (w.setReserve asset r) where
  deposit x := by
    by_cases hx : x = asset
    · subst hx
      rw [World.setReserve_reserves_self, hledger]
    · rw [World.setReserve_reserves_of_ne hx]
  debt x mode := by
    by_cases hx : x = asset
    · subst hx
      rw [World.setReserve_reserves_self]
      exact .of_eq (Reserve.owed_congr haddress (by rw [hs]) (by rw [hv]))
    · rw [World.setReserve_reserves_of_ne hx]
      exact .refl _

theorem Ordinary.spares {user : Address} (h : Ordinary env fix c c')
    (hstored : env.timestamp < 2 ^ 40) (hfix : fix ≠ user) :
    World.Spares env user c.world c'.world := by
  obtain ⟨call, w, hown, hw, rfl⟩ := h
  have htime : (c.adminEnv env).timestamp < 2 ^ 40 := hstored
  rcases World.Spares.exec hown.not_onlyConfigurator htime hfix hw with hspares |
    ⟨_, _, _, rfl⟩ | ⟨_, _, _, rfl⟩ | ⟨_, _, _, _, rfl⟩
  · exact ⟨hspares.deposit, hspares.debt⟩
  · exact absurd (show user = fix from hown).symm hfix
  · cases hown
  · cases hown

theorem Deed.Changes.spares {user : Address} {deed : Deed} (h : deed.Changes env fix c c')
    (hstored : env.timestamp < 2 ^ 40) (hdeed : ¬deed.TakesFrom user) :
    World.Spares env user c.world c'.world := by
  cases deed with
  | updateAToken asset impl =>
    rw [show c' = _ from h]
    exact spares_of_setReserve rfl rfl rfl rfl
  | configure asset settings =>
    obtain ⟨configuration, -, rfl⟩ := h
    exact spares_of_setReserve rfl rfl rfl rfl
  | transferForMoolaFix asset holder amount =>
    obtain ⟨w, hw, rfl⟩ := h
    have htime : (c.adminEnv env).timestamp < 2 ^ 40 := hstored
    have huser : (Call.transfer asset fix amount).onlyConfigurator = false := rfl
    rcases World.Spares.exec huser htime hdeed hw with hspares | ⟨_, _, _, h⟩ | ⟨_, _, _, h⟩ |
      ⟨_, _, _, _, h⟩
    · exact ⟨hspares.deposit, hspares.debt⟩
    · cases h
    · cases h
    · cases h
  | _ =>
    rw [show c' = _ from h]
    exact .of_reserves rfl

/-- A script that succeeds takes from nobody else: an account that is not on its list has at least
the scaled aTokens it had, in every reserve, and owes at most what it owed, in every mode. -/
theorem execute_spares_bystanders {caller user : Address} {sync : Tx Unit}
    (h : execute env fix c caller sync = .ok c') (hstored : env.timestamp < 2 ^ 40)
    (hfix : user ≠ fix) (huser : user ∉ givers) : World.Spares env user c.world c'.world := by
  refine WeakRun.relates (fun c c' => World.Spares env user c.world c'.world)
    (fun c => .of_reserves rfl) (fun _ _ _ => .trans)
    (fun _ _ hs => hs.spares hstored (Ne.symm hfix)) (Performs.execute h)
    fun deed hdeed _ _ hd => hd.changes.spares hstored fun htakes => ?_
  exact huser (plan_takesFrom hdeed htakes)

theorem execute_spares_bystanders_sample : ∃ c,
    execute fixEnv 12 fixChain ownedWallet (.ok ()) = .ok c ∧
      World.Spares fixEnv 11 fixChain.world c.world := by
  obtain ⟨c, h, -⟩ := bind_ok.mp fixChain_executes
  exact ⟨c, h, execute_spares_bystanders h (by decide) (by decide) (by decide)⟩

end MoolaFix

end Moola
