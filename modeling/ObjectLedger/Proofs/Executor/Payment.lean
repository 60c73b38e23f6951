import ObjectLedger.Executor.Serial
import ObjectLedger.Proofs.Resolve.Pipeline

/-!
# Which coins pay

A serial executor pays with the coin in the fee slot of its cache, when the sender pays and the caller
named no coins; nobody asks whether the transaction uses that coin. Coins that the gas stage chooses are
not used by the transaction.
-/

namespace ObjectLedger

namespace Pipeline

variable {σ : Type} {o : BuildOptions σ} {peer : σ} {tx tx' : Transaction} {memory : NameMemory}
  {config : ResolverConfig} {registry : IntentRegistry σ}

theorem Ran.payment (h : Ran memory config registry o peer tx tx') (hkind : o.kindOnly = false)
    (hregistry : registry.BuiltIn) (hinputs : tx.inputs.length ≤ UInt16.size) :
    ∃ payment, tx'.gas.payment = some payment ∧ (tx.gas.payment = some payment ∨
      tx.gas.payment = none ∧ ∀ ref ∈ payment, ref.objectId ∉ CoinRequest.usedIds tx'.inputs) := by
  obtain ⟨-, -, commands, -, hnamed⟩ := resolveNames_eq_ok h.names
  obtain ⟨inputs, hcompleted, -⟩ := resolveObjects_eq_ok h.objects
  have hgas : h.completed.gas = tx.gas := by
    have hkept := gas_of_resolveIntents hregistry (hnamed ▸ hinputs) h.intents
    rw [hcompleted, hkept, hnamed]
  rcases resolveGas_eq_ok h.gas with ⟨hkind', -⟩ | ⟨payment, gas, hfinal, hkeeps, hpayment, hfree⟩
  · rw [hkind] at hkind'
    cases hkind'
  · rw [hgas] at hkeeps hfree
    rw [hfinal]
    refine ⟨payment, hpayment, ?_⟩
    cases hset : tx.gas.payment with
    | none => exact .inr ⟨rfl, hfree hset⟩
    | some set =>
      have hset' := hkeeps.payment set hset
      exact .inl (hset'.symm.trans hpayment)

end Pipeline

namespace SerialExecutor

variable {σ : Type} {e : SerialExecutor σ} {tx : Transaction} {w : World σ} {bytes : List UInt8}
  {memory : NameMemory} {config : ResolverConfig} {registry : IntentRegistry σ}

theorem build_eq_ok (h : (e.build tx w).1 = .ok bytes) :
    ∃ built, (e.inner.pipeline.run (e.inner.buildOptions (some e.defaultBudget)) (e.prepare tx) w).1 =
        .ok built ∧ built.encode = .ok bytes := by
  have hbuild := (Except.mapError_eq_ok _).mp h
  unfold CachingExecutor.build Pipeline.build at hbuild
  rcases hrun : e.inner.pipeline.run (e.inner.buildOptions (some e.defaultBudget)) (e.prepare tx) w with
    ⟨e' | built, p, w'⟩
  · rw [hrun] at hbuild
    cases hbuild
  · rw [hrun] at hbuild
    exact ⟨built, rfl, (Except.mapError_eq_ok _).mp hbuild⟩

theorem payment_prepare (hpayment : tx.gas.payment = none) :
    (e.prepare tx).inputs = tx.inputs ∧
      ((e.prepare tx).gas.payment = none ∨
        ∃ fee, e.inner.cache.feeObject = some fee ∧ (e.prepare tx).gas.payment = some [fee] ∧
          (e.prepare tx).gasOwner = some e.signer.address) := by
  unfold prepare
  simp only
  split_ifs with hpays
  · cases hfee : e.inner.cache.feeObject with
    | none => exact ⟨rfl, .inl hpayment⟩
    | some fee => exact ⟨rfl, .inr ⟨fee, rfl, rfl, hpays.1⟩⟩
  · exact ⟨rfl, .inl hpayment⟩

/-- **What pays for a transaction.** When the caller named no coins, a transaction that is built is paid
with the coin in the fee slot alone, if there is one and the sender pays, and else with coins that are
not among its inputs. -/
theorem payment_build (hpipeline : e.inner.pipeline = .standardWith memory config registry)
    (hregistry : registry.BuiltIn) (hvalid : tx.validate = .ok ()) (hpayment : tx.gas.payment = none)
    (h : (e.build tx w).1 = .ok bytes) :
    ∃ (built : Transaction) (payment : List ObjectRef), built.encode = .ok bytes ∧
      built.gas.payment = some payment ∧
      ((∃ fee, e.inner.cache.feeObject = some fee ∧ payment = [fee] ∧
          (e.prepare tx).gasOwner = some e.signer.address) ∨
        ∀ ref ∈ payment, ref.objectId ∉ CoinRequest.usedIds built.inputs) := by
  obtain ⟨built, hrun, hencode⟩ := build_eq_ok h
  rw [hpipeline] at hrun
  obtain ⟨hran⟩ := Pipeline.ran_of_run hrun
  obtain ⟨hinputs, hprepared⟩ := payment_prepare (e := e) hpayment
  have hlen : (e.prepare tx).inputs.length ≤ UInt16.size := by
    rw [hinputs]
    exact (Transaction.validate_eq_ok.mp hvalid).1
  obtain ⟨payment, hbuilt, hset⟩ := hran.payment rfl hregistry hlen
  refine ⟨built, payment, hencode, hbuilt, ?_⟩
  -- The payment was set before the pipeline ran, and then from the slot, or the gas stage chose it.
  rcases hset with hset | ⟨-, hfree⟩
  · rcases hprepared with hnone | ⟨fee, hfee, hsome, howner⟩
    · rw [hnone] at hset
      cases hset
    · rw [hsome] at hset
      cases hset
      exact .inl ⟨fee, hfee, rfl, howner⟩
  · exact .inr hfree

def coinAt (n : UInt64) : ObjectRef := ⟨.ofUInt64 n, 1, ⟨.zero⟩⟩

/-- An executor whose sender has two native coins, of which one may be in the fee slot. -/
def payer (fee : Option ObjectRef) : SerialExecutor Unit where
  inner := {
    ledger := { submit := fun _ _ _ => ((.ok ⟨⟨.zero⟩, []⟩, 0), ()), fetch := fun _ _ _ => (.ok none, ()) }
    lookup := some {
      objects := fun ids _ => (.ok (ids.map fun _ => none), ())
      packages := fun _ _ => (.ok [], ())
      gasPrice := fun _ => (.ok 1, ())
      coins := fun _ _ _ => (.ok [⟨coinAt 77, 1000⟩, ⟨coinAt 78, 1000⟩], ()) }
    pipeline := .standardWith [] {} .standard
    cache := { feeObject := fee } }
  signer := ⟨.ofUInt64 1, fun _ _ => (.ok ⟨[]⟩, ())⟩
  defaultBudget := 100
  inclusion := {}

def transfer : Transaction where
  inputs := [.object (.owned (coinAt 77)), .pure [1]]
  commands := [.transferObjects [.input 0] (.input 1)]

/-- The transfer, paid by the sender with a coin. -/
def transferPaidWith (ref : ObjectRef) : Transaction :=
  { transfer with
    sender := some (.ofUInt64 1)
    gas := ⟨some [ref], some (.ofUInt64 1), some 1, some 100⟩ }

theorem exists_bytes_of_encode {r : Except ExecutorError (List UInt8)} {built : Transaction}
    (h : r = built.encode.mapError fun fault => .build (.encode fault))
    (hok : built.encode.isOk = true) : ∃ bytes, r = .ok bytes ∧ built.encode = .ok bytes := by
  obtain ⟨bytes, hencode⟩ := Except.exists_of_isOk hok
  rw [hencode] at h
  exact ⟨bytes, h, hencode⟩

theorem payment_build_transfer :
    (payer none).inner.pipeline = .standardWith [] {} .standard ∧
      (IntentRegistry.standard : IntentRegistry Unit).BuiltIn ∧ transfer.validate = .ok () ∧
      transfer.gas.payment = none ∧
      ∃ bytes, ((payer none).build transfer ⟨(), {}, 0⟩).1 = .ok bytes ∧
        ∃ (built : Transaction) (payment : List ObjectRef), built.encode = .ok bytes ∧
          built.gas.payment = some payment ∧
          ((∃ fee, (payer none).inner.cache.feeObject = some fee ∧ payment = [fee] ∧
              ((payer none).prepare transfer).gasOwner = some (payer none).signer.address) ∨
            ∀ ref ∈ payment, ref.objectId ∉ CoinRequest.usedIds built.inputs) := by
  have hregistry : (IntentRegistry.standard : IntentRegistry Unit).BuiltIn := by
    intro name handler h
    unfold IntentRegistry.get? IntentRegistry.standard IntentRegistry.insert IntentRegistry.empty at h
    rw [Table.insert, Table.get?_cons] at h
    split_ifs at h
    · exact .inl (Option.some.inj h).symm
    · cases h
  have hvalid : transfer.validate = .ok () := by decide +kernel
  have hbuild : ((payer none).build transfer ⟨(), {}, 0⟩).1 =
      (transferPaidWith (coinAt 78)).encode.mapError fun fault => .build (.encode fault) := by
    decide +kernel
  obtain ⟨bytes, hbytes, -⟩ := exists_bytes_of_encode hbuild (by decide +kernel)
  exact ⟨rfl, hregistry, hvalid, rfl, bytes, hbytes, payment_build rfl hregistry hvalid rfl hbytes⟩

/-- The coin in the fee slot pays although it is transferred by the transaction, and although there is
another coin. -/
theorem build_transfer_of_fee :
    ∃ bytes, ((payer (some (coinAt 77))).build transfer ⟨(), {}, 0⟩).1 = .ok bytes ∧
      (transferPaidWith (coinAt 77)).encode = .ok bytes ∧ transfer.gas.payment = none ∧
      (transferPaidWith (coinAt 77)).gas.payment = some [coinAt 77] ∧
      (coinAt 77).objectId ∈ CoinRequest.usedIds (transferPaidWith (coinAt 77)).inputs := by
  have hbuild : ((payer (some (coinAt 77))).build transfer ⟨(), {}, 0⟩).1 =
      (transferPaidWith (coinAt 77)).encode.mapError fun fault => .build (.encode fault) := by
    decide +kernel
  obtain ⟨bytes, hbytes, hencode⟩ := exists_bytes_of_encode hbuild (by decide +kernel)
  exact ⟨bytes, hbytes, hencode, rfl, rfl, List.mem_singleton.mpr rfl⟩

end SerialExecutor

end ObjectLedger
