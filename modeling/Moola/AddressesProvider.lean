import Moola.Proxy
import Moola.Script

/-! LendingPoolAddressesProvider and the proxies that it creates for the pool and the configurator,
among arbitrary callers who deploy contracts and proxies of their own. In every state the proxies
that the provider created are initialized for it, nobody can initialize them again, and only its
owner replaces what runs behind them, by ever higher revisions. -/

namespace Moola

open Guard

/-- What the two implementations write when they are initialized: the pool its provider and its
limits, the configurator its provider and its pool. -/
structure PoolStorage where
  addressesProvider : Address
  pool : Address
  maxStableRateBorrowSizePercent : ℕ
  flashLoanPremiumTotal : ℕ
  maxNumberOfReserves : ℕ
  deriving DecidableEq

/-- The argument of `initialize(address)`, and the pool that this provider names. -/
structure InitializeArgs where
  provider : Address
  lendingPool : Address

def RecordsProvider (args : InitializeArgs) (s : PoolStorage) : Prop :=
  s.addressesProvider = args.provider

abbrev PoolCode := Code PoolStorage InitializeArgs RecordsProvider

def PoolImpl.code (impl : PoolImpl) : PoolCode :=
  .versioned
    { getRevision := impl.revision
      body := fun args s => .ok { s with
        addressesProvider := args.provider
        maxStableRateBorrowSizePercent := 2500
        flashLoanPremiumTotal := 9
        maxNumberOfReserves := 128 }
      body_records := fun _ _ _ h => by rw [← Except.ok.inj h]; rfl }

def LendingPoolConfigurator.code : PoolCode :=
  .versioned
    { getRevision := 1
      body := fun args s =>
        .ok { s with addressesProvider := args.provider, pool := args.lendingPool }
      body_records := fun _ _ _ h => by rw [← Except.ok.inj h]; rfl }

/-- The provider, the contracts of the chain, and the events `ProxyCreated`. -/
structure AddressesProvider where
  self : Address
  owner : Address
  addresses : ℕ → Address
  codes : Address → Option PoolCode
  proxies : Address → Option (Proxy PoolStorage)
  proxyCreated : List (ℕ × Address)

namespace AddressesProvider

def lendingPool : ℕ := 0x4c454e44494e475f504f4f4c0000000000000000000000000000000000000000
def lendingPoolConfigurator : ℕ :=
  0x4c454e44494e475f504f4f4c5f434f4e464947555241544f5200000000000000
def poolAdmin : ℕ := 0x504f4f4c5f41444d494e00000000000000000000000000000000000000000000
def emergencyAdmin : ℕ := 0x454d455247454e43595f41444d494e0000000000000000000000000000000000
def lendingPoolCollateralManager : ℕ :=
  0x434f4c4c41544552414c5f4d414e414745520000000000000000000000000000
def priceOracle : ℕ := 0x50524943455f4f5241434c450000000000000000000000000000000000000000
def lendingRateOracle : ℕ := 0x4c454e44494e475f524154455f4f5241434c4500000000000000000000000000

variable (s : AddressesProvider)

def onlyOwner (sender : Address) : Except ProxyRevert Unit :=
  require (s.owner = sender) .callerIsNotTheOwner

def emptyStorage : PoolStorage := ⟨0, 0, 0, 0, 0⟩

def initializeArgs : InitializeArgs := ⟨s.self, s.addresses lendingPool⟩

/-- `_updateImpl`, where `fresh` is the address of the proxy if one is created. -/
def updateImpl (fresh : Address) (id : ℕ) (newAddress : Address) :
    Except ProxyRevert AddressesProvider := do
  if s.addresses id = 0 then
    let p ← (Proxy.deployed s.self emptyStorage).initializeProxy s.codes newAddress
      (some s.initializeArgs)
    return { s with
      proxies := write s.proxies fresh (some p)
      addresses := write s.addresses id fresh
      proxyCreated := (id, fresh) :: s.proxyCreated }
  else
    match s.proxies (s.addresses id) with
    | none => .error .requirementFailed
    | some p =>
      let p ← p.upgradeToAndCall s.codes s.self newAddress s.initializeArgs
      return { s with proxies := write s.proxies (s.addresses id) (some p) }

def setAddress (id : ℕ) (newAddress : Address) : AddressesProvider :=
  { s with addresses := write s.addresses id newAddress }

inductive Call
  | setAddressAsProxy (id : ℕ) (implementationAddress : Address)
  | setAddress (id : ℕ) (newAddress : Address)
  | setLendingPoolImpl (pool : Address)
  | setLendingPoolConfiguratorImpl (configurator : Address)
  | setLendingPoolCollateralManager (manager : Address)
  | setPoolAdmin (admin : Address)
  | setEmergencyAdmin (emergencyAdmin : Address)
  | setPriceOracle (priceOracle : Address)
  | setLendingRateOracle (lendingRateOracle : Address)
  | transferOwnership (newOwner : Address)
  | renounceOwnership

def Call.execute (sender fresh : Address) (call : Call) : Except ProxyRevert AddressesProvider := do
  s.onlyOwner sender
  match call with
  | .setAddressAsProxy id implementationAddress => s.updateImpl fresh id implementationAddress
  | .setAddress id newAddress => return s.setAddress id newAddress
  | .setLendingPoolImpl pool => s.updateImpl fresh lendingPool pool
  | .setLendingPoolConfiguratorImpl configurator =>
    s.updateImpl fresh lendingPoolConfigurator configurator
  | .setLendingPoolCollateralManager manager =>
    return s.setAddress lendingPoolCollateralManager manager
  | .setPoolAdmin admin => return s.setAddress poolAdmin admin
  | .setEmergencyAdmin admin => return s.setAddress emergencyAdmin admin
  | .setPriceOracle oracle => return s.setAddress priceOracle oracle
  | .setLendingRateOracle oracle => return s.setAddress lendingRateOracle oracle
  | .transferOwnership newOwner =>
    require (newOwner ≠ 0) .newOwnerIsTheZeroAddress
    return { s with owner := newOwner }
  | .renounceOwnership => return { s with owner := 0 }

def Unused (a : Address) : Prop :=
  a ≠ 0 ∧ a ≠ s.self ∧ s.proxies a = none ∧ s.codes a = none

/-- A step of the chain. A contract gets an address that was unused, and the provider calls proxies
only by its own functions. -/
inductive Step : Address → AddressesProvider → AddressesProvider → Prop
  | call {s s' : AddressesProvider} {sender fresh : Address} {call : Call} :
      s.Unused fresh → call.execute s sender fresh = .ok s' → Step sender s s'
  | proxy {s : AddressesProvider} {sender a : Address} {p p' : Proxy PoolStorage}
      {call : Proxy.Call InitializeArgs} : sender ≠ s.self → s.proxies a = some p →
      call.execute s.codes p sender = .ok p' →
      Step sender s { s with proxies := write s.proxies a (some p') }
  | deployProxy {s : AddressesProvider} {sender fresh : Address} (admin : Address) :
      s.Unused fresh →
      Step sender s
        { s with proxies := write s.proxies fresh (some (Proxy.deployed admin emptyStorage)) }
  | deployCode {s : AddressesProvider} {sender fresh : Address} (code : PoolCode) :
      s.Unused fresh → Step sender s { s with codes := write s.codes fresh (some code) }

def RunBy (allowed : Address → Prop) : AddressesProvider → AddressesProvider → Prop :=
  Relation.ReflTransGen fun s s' => ∃ sender, allowed sender ∧ Step sender s s'

abbrev Run : AddressesProvider → AddressesProvider → Prop := RunBy fun _ => True

def deployed (self owner : Address) : AddressesProvider where
  self := self
  owner := owner
  addresses _ := 0
  codes _ := none
  proxies _ := none
  proxyCreated := []

def Reachable (s : AddressesProvider) : Prop := ∃ self owner, Run (deployed self owner) s

/-- A proxy of the provider that is initialized for it, by what runs behind it. -/
def Genuine (a : Address) : Prop :=
  ∃ p args, s.proxies a = some p ∧ p.admin = s.self ∧ args.provider = s.self ∧
    p.Settled s.codes args

variable {s} {s₁ s' : AddressesProvider} {sender fresh a : Address} {id : ℕ}

/-- The provider has a proxy where it says it created one, no code sits at the zero address, and
every proxy that it created is genuine. -/
structure Inv (s : AddressesProvider) : Prop where
  noCode : s.codes 0 = none
  genuine : ∀ e ∈ s.proxyCreated, s.Genuine e.2

/-- What becomes of a proxy: it stays, or a higher revision is installed. -/
def Kept (a : Address) (s s' : AddressesProvider) : Prop :=
  ∀ p, s.proxies a = some p → ∃ p', s'.proxies a = some p' ∧ p'.admin = p.admin ∧
    (p' = p ∨ p.lastInitializedRevision < p'.lastInitializedRevision)

namespace Kept

theorem of_eq (h : s'.proxies a = s.proxies a) : Kept a s s' :=
  fun p hp => ⟨p, h.trans hp, rfl, .inl rfl⟩

theorem trans (h₁ : Kept a s s₁) (h₂ : Kept a s₁ s') : Kept a s s' := by
  intro p hp
  obtain ⟨p₁, hp₁, hadmin₁, hrevision₁⟩ := h₁ p hp
  obtain ⟨p', hp', hadmin₂, hrevision₂⟩ := h₂ p₁ hp₁
  refine ⟨p', hp', hadmin₂.trans hadmin₁, ?_⟩
  obtain rfl | hlt₂ := hrevision₂
  · exact hrevision₁
  · obtain rfl | hlt₁ := hrevision₁
    · exact .inr hlt₂
    · exact .inr (hlt₁.trans hlt₂)

end Kept

/-- All that a call on the provider does: it creates a proxy, upgrades one, or writes its own
storage. -/
inductive Change (s : AddressesProvider) (fresh : Address) : AddressesProvider → Prop
  | created {id : ℕ} {target : Address} {p : Proxy PoolStorage} :
      (Proxy.deployed s.self emptyStorage).initializeProxy s.codes target
        (some s.initializeArgs) = .ok p →
      Change s fresh { s with
        proxies := write s.proxies fresh (some p)
        addresses := write s.addresses id fresh
        proxyCreated := (id, fresh) :: s.proxyCreated }
  | upgraded {a target : Address} {p p' : Proxy PoolStorage} : s.proxies a = some p →
      p.upgradeToAndCall s.codes s.self target s.initializeArgs = .ok p' →
      Change s fresh { s with proxies := write s.proxies a (some p') }
  | stored (owner : Address) (addresses : ℕ → Address) :
      Change s fresh { s with owner, addresses }

theorem updateImpl_change {target : Address} (h : s.updateImpl fresh id target = .ok s') :
    s.Change fresh s' := by
  unfold updateImpl at h
  split at h
  · obtain ⟨p, hp, h⟩ := bind_ok.mp h
    rw [← pure_ok.mp h]
    exact .created hp
  · split at h
    · cases h
    · rename_i p hp
      obtain ⟨p', hp', h⟩ := bind_ok.mp h
      rw [← pure_ok.mp h]
      exact .upgraded hp hp'

theorem Call.execute_change {call : Call} (h : call.execute s sender fresh = .ok s') :
    s.owner = sender ∧ s.Change fresh s' := by
  obtain ⟨howner, h⟩ := bind_unit_ok.mp h
  refine ⟨require_ok.mp howner, ?_⟩
  cases call with
  | setAddressAsProxy id target => exact updateImpl_change h
  | setLendingPoolImpl pool => exact updateImpl_change h
  | setLendingPoolConfiguratorImpl configurator => exact updateImpl_change h
  | transferOwnership newOwner =>
    rw [← pure_ok.mp (bind_unit_ok.mp h).2]
    exact .stored newOwner s.addresses
  | renounceOwnership =>
    rw [← pure_ok.mp h]
    exact .stored 0 s.addresses
  | _ =>
    rw [← pure_ok.mp h]
    exact .stored s.owner _

theorem created_settles {target : Address} {p : Proxy PoolStorage} (hcode : s.codes 0 = none)
    (h : (Proxy.deployed s.self emptyStorage).initializeProxy s.codes target
      (some s.initializeArgs) = .ok p) :
    p.Settled s.codes s.initializeArgs ∧ p.admin = s.self := by
  obtain ⟨hsettled, hadmin, -⟩ := Proxy.install_settles hcode rfl (bind_unit_ok.mp h).2
  exact ⟨hsettled, hadmin⟩

theorem upgraded_settles {target : Address} {p p' : Proxy PoolStorage} {args : InitializeArgs}
    (hcode : s.codes 0 = none) (hp : p.Settled s.codes args) (hadmin : p.admin = s.self)
    (h : p.upgradeToAndCall s.codes s.self target s.initializeArgs = .ok p') :
    p'.Settled s.codes s.initializeArgs ∧ p'.admin = p.admin ∧
      p.lastInitializedRevision < p'.lastInitializedRevision := by
  rw [Proxy.upgradeToAndCall, if_pos hadmin.symm] at h
  exact Proxy.install_settles hcode hp.initializing h

/-- A step keeps a genuine proxy genuine, and replaces its implementation only by one of a higher
revision, on behalf of the owner. -/
theorem Step.genuine (hstep : Step sender s s') (hcode : s.codes 0 = none) (ha : s.Genuine a) :
    s'.Genuine a ∧ Kept a s s' ∧ (sender ≠ s.owner → s'.proxies a = s.proxies a) := by
  obtain ⟨p, args, hp, hadmin, hargs, hsettled⟩ := ha
  cases hstep with
  | @call _ _ _ fresh call hfresh h =>
    obtain ⟨howner, hchange⟩ := call.execute_change h
    cases hchange with
    | @created id target q hq =>
      have hne : a ≠ fresh := by
        rintro rfl
        rw [hfresh.2.2.1] at hp
        cases hp
      have hsame : write s.proxies fresh (some q) a = s.proxies a := write_of_ne _ _ hne
      exact ⟨⟨p, args, hsame.trans hp, hadmin, hargs, hsettled⟩, .of_eq hsame, fun _ => hsame⟩
    | @upgraded x target q q' hq hq' =>
      by_cases hx : a = x
      · subst hx
        rw [hp] at hq
        cases hq
        obtain ⟨hnew, hadmin', hlt⟩ := upgraded_settles hcode hsettled hadmin hq'
        refine ⟨⟨q', _, write_self _ _ _, hadmin'.trans hadmin, rfl, hnew⟩, fun p₁ hp₁ => ?_,
          fun hne => absurd howner.symm hne⟩
        rw [hp] at hp₁
        cases hp₁
        exact ⟨q', write_self _ _ _, hadmin', .inr hlt⟩
      · have hsame : write s.proxies x (some q') a = s.proxies a := write_of_ne _ _ hx
        exact ⟨⟨p, args, hsame.trans hp, hadmin, hargs, hsettled⟩, .of_eq hsame, fun _ => hsame⟩
    | stored => exact ⟨⟨p, args, hp, hadmin, hargs, hsettled⟩, .of_eq rfl, fun _ => rfl⟩
  | @proxy _ _ x q q' call hsender hq h =>
    have hsame : write s.proxies x (some q') a = s.proxies a := by
      by_cases hx : a = x
      · subst hx
        rw [hp] at hq
        cases hq
        rw [write_self, hp, hsettled.stranger (hadmin ▸ hsender) h]
      · exact write_of_ne _ _ hx
    exact ⟨⟨p, args, hsame.trans hp, hadmin, hargs, hsettled⟩, .of_eq hsame, fun _ => hsame⟩
  | @deployProxy _ _ fresh admin hfresh =>
    have hne : a ≠ fresh := by
      rintro rfl
      rw [hfresh.2.2.1] at hp
      cases hp
    have hsame : write s.proxies fresh (some (Proxy.deployed admin emptyStorage)) a =
        s.proxies a := write_of_ne _ _ hne
    exact ⟨⟨p, args, hsame.trans hp, hadmin, hargs, hsettled⟩, .of_eq hsame, fun _ => hsame⟩
  | @deployCode _ _ fresh code hfresh =>
    obtain ⟨i, hi, hrevision⟩ := hsettled.revision
    have hne : p.implementation ≠ fresh := by
      intro he
      rw [he, hfresh.2.2.2] at hi
      cases hi
    have hcodes : write s.codes fresh (some code) p.implementation = some (.versioned i) := by
      rw [write_of_ne _ _ hne, hi]
    refine ⟨⟨p, args, hp, hadmin, hargs, hsettled.implementation, ⟨i, hcodes, hrevision⟩,
      hsettled.initializing, hsettled.records⟩, .of_eq rfl, fun _ => rfl⟩

theorem Step.codes_zero (hstep : Step sender s s') (hcode : s.codes 0 = none) :
    s'.codes 0 = none := by
  cases hstep with
  | @call _ _ _ fresh call hfresh h =>
    obtain ⟨-, hchange⟩ := call.execute_change h
    cases hchange <;> exact hcode
  | @deployCode _ _ fresh code hfresh =>
    exact (write_of_ne _ _ (Ne.symm hfresh.1)).trans hcode
  | _ => exact hcode

theorem Step.logged (hstep : Step sender s s') (hcode : s.codes 0 = none)
    {e : ℕ × Address} (he : e ∈ s'.proxyCreated) : e ∈ s.proxyCreated ∨ s'.Genuine e.2 := by
  cases hstep with
  | @call _ _ _ fresh call hfresh h =>
    obtain ⟨-, hchange⟩ := call.execute_change h
    cases hchange with
    | @created id target q hq =>
      obtain rfl | hmem := List.mem_cons.mp he
      · obtain ⟨hsettled, hadmin⟩ := created_settles hcode hq
        exact .inr ⟨q, _, write_self _ _ _, hadmin, rfl, hsettled⟩
      · exact .inl hmem
    | _ => exact .inl he
  | _ => exact .inl he

theorem Step.proxyCreated (hstep : Step sender s s') {e : ℕ × Address}
    (he : e ∈ s.proxyCreated) : e ∈ s'.proxyCreated := by
  cases hstep with
  | @call _ _ _ fresh call hfresh h =>
    obtain ⟨-, hchange⟩ := call.execute_change h
    cases hchange with
    | created => exact List.mem_cons_of_mem _ he
    | _ => exact he
  | _ => exact he

theorem Inv.step (h : s.Inv) (hstep : Step sender s s') : s'.Inv where
  noCode := hstep.codes_zero h.noCode
  genuine e he := by
    obtain hold | hnew := hstep.logged h.noCode he
    · exact (hstep.genuine h.noCode (h.genuine e hold)).1
    · exact hnew

theorem Inv.run {allowed : Address → Prop} (h : s.Inv) (hrun : RunBy allowed s s') : s'.Inv := by
  induction hrun with
  | refl => exact h
  | tail _ hs ih =>
    obtain ⟨sender, -, hstep⟩ := hs
    exact ih.step hstep

theorem Reachable.inv (h : s.Reachable) : s.Inv := by
  obtain ⟨self, owner, hrun⟩ := h
  exact Inv.run ⟨rfl, by simp [deployed]⟩ hrun

/-- Whatever the owner and anybody else did so far, every proxy that the provider created runs an
implementation that initialized it, names this provider, and refuses to be initialized again,
whoever asks. -/
theorem created_proxies_initialized (h : s.Reachable) {id : ℕ} {a : Address}
    (ha : (id, a) ∈ s.proxyCreated) : ∃ p i, s.proxies a = some p ∧ p.admin = s.self ∧
      s.codes p.implementation = some (.versioned i) ∧
      p.lastInitializedRevision = i.getRevision ∧ p.storage.addressesProvider = s.self ∧
      ∀ sender args, p.callInitialize s.codes sender args = .error .fallbackFromAdmin ∨
        p.callInitialize s.codes sender args = .error .alreadyInitialized := by
  obtain ⟨p, args, hp, hadmin, hargs, hsettled⟩ := h.inv.genuine _ ha
  obtain ⟨i, hi, hrevision⟩ := hsettled.revision
  exact ⟨p, i, hp, hadmin, hi, hrevision, hsettled.records.trans hargs,
    hsettled.callInitialize_refused⟩

theorem Step.stored (hstep : Step sender s s') (hne : sender ≠ s.owner) :
    s'.owner = s.owner ∧ s'.addresses = s.addresses := by
  cases hstep with
  | @call _ _ _ fresh call hfresh h => exact absurd (call.execute_change h).1.symm hne
  | _ => exact ⟨rfl, rfl⟩

/-- A proxy that the provider created is never dropped, and its implementation is replaced only by
one of a higher revision; as long as the owner does nothing it does not change at all, nor do the
owner and the addresses. -/
theorem created_proxies_upgraded {allowed : Address → Prop} (h : s.Reachable)
    (hrun : RunBy allowed s s') {id : ℕ} {a : Address} (ha : (id, a) ∈ s.proxyCreated) :
    (id, a) ∈ s'.proxyCreated ∧ Kept a s s' ∧
      ((∀ sender, allowed sender → sender ≠ s.owner) →
        s'.owner = s.owner ∧ s'.addresses = s.addresses ∧ s'.proxies a = s.proxies a) := by
  induction hrun with
  | refl => exact ⟨ha, .of_eq rfl, fun _ => ⟨rfl, rfl, rfl⟩⟩
  | @tail s₁ s' hrun hs ih =>
    obtain ⟨sender, hsender, hstep⟩ := hs
    obtain ⟨hmem, hkept, hidle⟩ := ih
    have hinv : s₁.Inv := h.inv.run hrun
    obtain ⟨-, hkept', hsame⟩ := hstep.genuine hinv.noCode (hinv.genuine _ hmem)
    refine ⟨hstep.proxyCreated hmem, hkept.trans hkept', fun hallowed => ?_⟩
    obtain ⟨howner, haddresses, hproxies⟩ := hidle hallowed
    have hne : sender ≠ s₁.owner := howner ▸ hallowed sender hsender
    obtain ⟨howner', haddresses'⟩ := hstep.stored hne
    exact ⟨howner'.trans howner, haddresses'.trans haddresses, (hsame hne).trans hproxies⟩

/-- The script of MoolaFix sees of an installation the owner and the two revisions. On a proxy that
the provider created this decides whether the installation succeeds. -/
theorem setLendingPoolImpl_agrees {c : MoolaFix.Chain} {target : Address} {current impl : PoolImpl}
    {p : Proxy PoolStorage} {args : InitializeArgs} (ha : s.addresses lendingPool ≠ 0)
    (hp : s.proxies (s.addresses lendingPool) = some p) (hadmin : p.admin = s.self)
    (hsettled : p.Settled s.codes args) (hcurrent : s.codes p.implementation = some current.code)
    (htarget : s.codes target = some impl.code) (howner : c.providerOwner = s.owner)
    (himpl : c.world.impl = current) :
    (∃ c', MoolaFix.setLendingPoolImpl sender c impl = .ok c') ↔
      ∃ s', (Call.setLendingPoolImpl target).execute s sender fresh = .ok s' := by
  have hrevision : p.lastInitializedRevision = current.revision := by
    obtain ⟨i, hi, hrevision⟩ := hsettled.revision
    rw [hcurrent, PoolImpl.code, Option.some.injEq, Code.versioned.injEq] at hi
    rw [hrevision, ← hi]
  have hupgrade := hsettled.upgradeToAndCall_ok_iff s.initializeArgs htarget
    fun _ => ⟨_, rfl⟩
  rw [hadmin, hrevision] at hupgrade
  have hprovider : (∃ s', (Call.setLendingPoolImpl target).execute s sender fresh = .ok s') ↔
      s.owner = sender ∧ ∃ p', p.upgradeToAndCall s.codes s.self target s.initializeArgs =
        .ok p' := by
    simp [Call.execute, onlyOwner, updateImpl, ha, hp]
  rw [hprovider, hupgrade]
  simp [MoolaFix.setLendingPoolImpl, MoolaFix.onlyProviderOwner, howner, himpl]

def sampleProvider : AddressesProvider :=
  { deployed 1 7 with
    codes := write (write (fun _ => none) 50 (some PoolImpl.lendingPool.code)) 51
      (some PoolImpl.withGracePeriod.code) }

theorem sampleProvider_reachable : sampleProvider.Reachable := by
  have hfirst : Step 7 (deployed 1 7) { deployed 1 7 with
      codes := write (fun _ => none) 50 (some PoolImpl.lendingPool.code) } :=
    .deployCode _ ⟨by decide, by decide, rfl, rfl⟩
  have hsecond : Step 7 { deployed 1 7 with
      codes := write (fun _ => none) 50 (some PoolImpl.lendingPool.code) } sampleProvider :=
    .deployCode _ ⟨by decide, by decide, rfl, rfl⟩
  exact ⟨1, 7, (Relation.ReflTransGen.single ⟨7, trivial, hfirst⟩).tail ⟨7, trivial, hsecond⟩⟩

theorem sampleProvider_upgrades : (do
    let s ← (Call.setLendingPoolImpl 50).execute sampleProvider 7 60
    let s' ← (Call.setLendingPoolImpl 51).execute s 7 61
    return (s.proxyCreated, (s.self, s.owner), (s.proxies 61).isNone && (s.codes 61).isNone,
      (s.proxies 60).map Proxy.lastInitializedRevision,
      (s'.proxies 60).map Proxy.lastInitializedRevision)) =
    .ok ([(lendingPool, 60)], (1, 7), true, some 3, some 5) := by
  decide +kernel

theorem created_proxies_initialized_sample : ∃ (s : AddressesProvider) (p : Proxy PoolStorage),
    s.proxies 60 = some p ∧
    p.storage.addressesProvider = 1 ∧ p.lastInitializedRevision = 3 := by
  obtain ⟨s, h, hrest⟩ := bind_ok.mp sampleProvider_upgrades
  obtain ⟨s', -, hrest⟩ := bind_ok.mp hrest
  simp only [pure_ok, Prod.mk.injEq] at hrest
  obtain ⟨hlog, ⟨hself, -⟩, -, hrevision, -⟩ := hrest
  obtain ⟨self, owner, hrun⟩ := sampleProvider_reachable
  have hinstall : Step 7 sampleProvider s := .call ⟨by decide, by decide, rfl, rfl⟩ h
  have hreach : s.Reachable := ⟨self, owner, hrun.tail ⟨7, trivial, hinstall⟩⟩
  obtain ⟨p, i, hp, -, -, -, hprovider, -⟩ :=
    created_proxies_initialized hreach (show (lendingPool, 60) ∈ s.proxyCreated by simp [hlog])
  rw [hp] at hrevision
  exact ⟨s, p, hp, hprovider.trans hself, Option.some.inj hrevision⟩

/-- An upgrade by the owner, and before it what a stranger does. -/
theorem created_proxies_upgraded_sample : ∃ (s s₁ s' : AddressesProvider)
    (p p' : Proxy PoolStorage), s.proxies 60 = some p ∧ s'.proxies 60 = some p' ∧
      p.lastInitializedRevision = 3 ∧ p'.lastInitializedRevision = 5 ∧ p'.admin = p.admin ∧
      RunBy (· = 8) s s₁ ∧ s₁.proxies 61 = some (Proxy.deployed 8 emptyStorage) ∧
      s₁.owner = s.owner ∧ s₁.addresses = s.addresses ∧ s₁.proxies 60 = s.proxies 60 := by
  obtain ⟨s, h, hrest⟩ := bind_ok.mp sampleProvider_upgrades
  obtain ⟨s', h', hrest⟩ := bind_ok.mp hrest
  simp only [pure_ok, Prod.mk.injEq] at hrest
  obtain ⟨hlog, ⟨hself, howner⟩, hfree, hrevision, hrevision'⟩ := hrest
  obtain ⟨hproxy, hcode⟩ := Bool.and_eq_true_iff.mp hfree
  obtain ⟨self, owner, hrun⟩ := sampleProvider_reachable
  have hinstall : Step 7 sampleProvider s := .call ⟨by decide, by decide, rfl, rfl⟩ h
  have hreach : s.Reachable := ⟨self, owner, hrun.tail ⟨7, trivial, hinstall⟩⟩
  have hmem : (lendingPool, 60) ∈ s.proxyCreated := by simp [hlog]
  have hunused : s.Unused 61 :=
    ⟨by decide, by simp [hself], Option.isNone_iff_eq_none.mp hproxy,
      Option.isNone_iff_eq_none.mp hcode⟩
  have hupgrade : Run s s' := .single ⟨7, trivial, .call hunused h'⟩
  have hstranger : RunBy (· = 8) s { s with
      proxies := write s.proxies 61 (some (Proxy.deployed 8 emptyStorage)) } :=
    .single ⟨8, rfl, .deployProxy 8 hunused⟩
  obtain ⟨p, hp, hp3⟩ := Option.map_eq_some_iff.mp hrevision
  obtain ⟨-, hkept, -⟩ := created_proxies_upgraded hreach hupgrade hmem
  obtain ⟨p', hp', hadmin, -⟩ := hkept p hp
  rw [hp'] at hrevision'
  obtain ⟨-, -, hidle⟩ := created_proxies_upgraded hreach hstranger hmem
  have hothers : ∀ sender, sender = 8 → sender ≠ s.owner := by
    rintro sender rfl
    rw [howner]
    decide
  have hdeployed : write s.proxies 61 (some (Proxy.deployed 8 emptyStorage)) 61 =
      some (Proxy.deployed 8 emptyStorage) := write_self _ _ _
  exact ⟨s, _, s', p, p', hp, hp', hp3, Option.some.inj hrevision', hadmin, hstranger,
    hdeployed, hidle hothers⟩

end AddressesProvider

end Moola
