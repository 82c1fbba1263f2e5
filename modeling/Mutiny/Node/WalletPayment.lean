import Mutiny.Node.PoolRestore
import Mutiny.Node.RpcSubmit

/-!
# Payments built by the wallet

The wallet of the node pays from the outputs of one licence: it takes spendable outputs in
order of age until they cover the amount and the estimated fee, adds a change output, signs
every input and checks the result.  {lit}`send` and {lit}`buy` put the transaction into the
pool without another validation.

Main result:

- Theorem {lit}`wallet_payments_validate`: that is the case exactly when 1024 of the oldest
  outputs cover it.
-/

namespace Mutiny

open Result Lists

/-- An amount as the node prints it, in whole coins with eight decimals. -/
def formatMut (strikes : UInt64) : String :=
  let decimals := toString (strikes % strikesPerMut)
  toString (strikes / strikesPerMut) ++ "." ++
    String.ofList (List.replicate (8 - decimals.length) '0') ++ decimals

/-! ## Weights -/

/-- A transaction with a number of inputs that stands for one that is not built yet. -/
def placeholderTx (inputCount : Nat) (outputs : List TxOutput) : TransactionV1 where
  core :=
    { version := 1
      networkId := devnetNetworkId
      validFromEpoch := 1
      expiryEpoch := 0
      inputs := (List.range inputCount).map fun i =>
        .outpoint ⟨Bytes.toB32 (List.replicate 32 (UInt8.ofNat i)), UInt16.ofNat i⟩
      outputs := outputs }
  witnesses := (List.range inputCount).map fun _ => WitnessV1.pubkeyHash 0 0

/-- An output that stands for one that is not built yet. -/
def placeholderOutput (outputType : UInt8) : TxOutput := ⟨1, outputType, List.replicate 32 0⟩

/-- The weight of a payment. -/
def estimateSendWeight (inputCount outputCount : Nat) : Except String Nat := do
  reject (inputCount = 0 ∨ outputCount = 0 ∨ 2 < outputCount) "invalid send weight shape"
  .ok (placeholderTx inputCount
    ((List.range outputCount).map fun _ => placeholderOutput outputPubkeyHash)).serializedLen

/-- The weight of a purchase. -/
def estimateLicensePurchaseWeight (inputCount : Nat) (withChange : Bool) : Except String Nat := do
  reject (inputCount = 0) "invalid native purchase input shape"
  .ok (placeholderTx inputCount (placeholderOutput outputLicensePayment ::
    if withChange then [placeholderOutput outputPubkeyHash] else [])).serializedLen

/-- The base fee of a transaction of an estimated weight. -/
def estimatedFee (rate : UInt64) (weight : Nat → Except String Nat) (inputCount : Nat) :
    Except String UInt64 := do
  let estimated ← weight inputCount
  (requiredBaseFee rate estimated).mapError TxError.message

/-! ## Selection -/

/-- The order in which the wallet spends: by height, transaction and index. -/
def SpentBefore (a b : UtxoState) : Prop :=
  a.creationHeight < b.creationHeight ∨
    (a.creationHeight = b.creationHeight ∧
      (a.txid.text < b.txid.text ∨ (a.txid = b.txid ∧ a.outputIndex ≤ b.outputIndex)))

instance : DecidableRel SpentBefore := fun a b => by
  unfold SpentBefore
  infer_instance

/-- Whether the wallet may spend an output of an address in the next block. -/
def isSpendable (s : DevnetState) (address : Bytes32) (u : UtxoState) : Bool :=
  u.outputType == outputPubkeyHash && (decode32 u.payload).toOption == some address &&
    u.spendableAtHeight (s.height + 1) && !(mempoolReservedInputs s).contains u.place

/-- The outputs of an address that the wallet may spend, in its order. -/
def spendableOutputs (s : DevnetState) (address : Bytes32) : List UtxoState :=
  (s.utxos.filter (isSpendable s address)).insertionSort SpentBefore

/-- The loop over the candidates, with the outputs taken so far and their sum. -/
def selectCoins (rate : UInt64) (weight : Nat → Except String Nat) (amount : UInt64) :
    List UtxoState → List UtxoState → UInt64 → Except String (List UtxoState × UInt64)
  | [], selected, total => .ok (selected, total)
  | utxo :: candidates, selected, total => do
    let total ← addStrikes "balance overflow" total utxo.amountStrikes
    let selected := selected ++ [utxo]
    let fee ← estimatedFee rate weight selected.length
    if amount.saturatingAdd fee ≤ total then .ok (selected, total)
    else selectCoins rate weight amount candidates selected total

/-- The words in which the two payments report the same errors. -/
structure PaymentTexts where
  need : String
  underpaid : UInt64 → UInt64 → String
  failed : String

def sendTexts : PaymentTexts where
  need := "need at least "
  underpaid fee base := "internal fee construction error: actual fee " ++ toString fee ++
    " below Base Fee " ++ toString base
  failed := "self-verification failed: "

def purchaseTexts : PaymentTexts where
  need := "need "
  underpaid _ _ := "internal native license purchase fee construction error"
  failed := "native purchase self-verification failed: "

/-- The outputs that pay for an amount, and the change. -/
def fundPayment (rate : UInt64) (weight : Nat → Except String Nat) (amount : UInt64)
    (need : String) (candidates : List UtxoState) : Except String (List UtxoState × UInt64) := do
  let (selected, total) ← selectCoins rate weight amount candidates [] 0
  reject (selected = []) "no spendable UTXOs; coinbase rewards require 16-block maturity"
  let feeTwo ← estimatedFee rate weight selected.length
  reject (total < amount.saturatingAdd feeTwo)
    ("insufficient spendable balance: have " ++ formatMut total ++ " MUT, " ++ need ++
      formatMut amount ++ " MUT plus fee")
  -- the subtraction wraps where the sum above saturates; the sum of the outputs then overflows
  .ok (selected, total - amount - feeTwo)

section Building

variable [Crypto]

/-! ## Signing -/

/-- The unsigned payment: the output paid for, then the change, if there is any. -/
def paymentCore (networkId : UInt32) (epoch : UInt64) (selected : List UtxoState)
    (payment : TxOutput) (change : UInt64) (changeAddress : Bytes32) : TransactionCoreV1 where
  version := 1
  networkId := networkId
  validFromEpoch := epoch
  expiryEpoch := 0
  inputs := selected.map fun u => .outpoint u.outpoint
  outputs := payment ::
    if 0 < change then [⟨change, outputPubkeyHash, Bytes.b32 changeAddress⟩] else []

/-- Every input is signed. -/
def signPayment (sk : Bytes32) (selected : List UtxoState) (core : TransactionCoreV1) :
    TransactionV1 where
  core := core
  witnesses := selected.zipIdx.map fun (u, i) =>
    WitnessV1.pubkeyHash (Crypto.publicKey sk)
      (Crypto.sign sk (Bytes.b32 (sighashAll core.txid (UInt16.ofNat i) u.prevout)))

/-- A signature is checked. -/
def selfVerify (failed : String) (txid : Bytes32) (entry : (UtxoState × WitnessV1) × Nat) :
    Except String Unit := do
  let ((utxo, witness), i) := entry
  let address ← decode32 utxo.payload
  (verifyPubkeyHashWitness address (sighashAll txid (UInt16.ofNat i) utxo.prevout)
    witness).mapError fun e => failed ++ e.message

/-- The checks of the signed payment: its fee and its own signatures.  The result is the fee
and the base fee. -/
def checkPayment (rate : UInt64) (selected : List UtxoState) (tx : TransactionV1)
    (underpaid : UInt64 → UInt64 → String) (failed : String) :
    Except String (UInt64 × UInt64) := do
  let actualBase ← (requiredBaseFee rate tx.serializedLen).mapError TxError.message
  let inputSum ← (selected.map (·.amountStrikes)).foldlM (addStrikes "input sum overflow") 0
  let outputSum ←
    (tx.core.outputs.map (·.amountStrikes)).foldlM (addStrikes "output sum overflow") 0
  let actualFee ← okOr (inputSum.checkedSub outputSum) "fee underflow"
  reject (actualFee < actualBase) (underpaid actualFee actualBase)
  (selected.zip tx.witnesses).zipIdx.forM (selfVerify failed tx.txid)
  .ok (actualFee, actualBase)

/-- The record of a payment in the pool. -/
def pendingPayment (tx : TransactionV1) (selected : List UtxoState) (fees : UInt64 × UInt64)
    (fromLicense toLicense : Nat) (amount : UInt64) : PendingTxState where
  txid := tx.txid
  wtxid := tx.wtxid
  validFromEpoch := tx.core.validFromEpoch
  expiryEpoch := tx.core.expiryEpoch
  inputs := selected.map UtxoState.place
  outputs := tx.core.outputs
  witnesses := tx.witnesses
  feeStrikes := fees.1
  baseFeeStrikes := fees.2
  fromLicense := UInt8.ofNat fromLicense
  toLicense := UInt8.ofNat toLicense
  amountStrikes := amount

/-- A payment from the outputs of an address.  The key is asked for once the outputs are
found. -/
def buildPayment (s : DevnetState) (networkId : UInt32) (weight : Nat → Except String Nat)
    (texts : PaymentTexts) (address : Bytes32) (payment : TxOutput)
    (signer : Except String Bytes32) (fromLicense toLicense : Nat) :
    Except String PendingTxState := do
  let (selected, change) ← fundPayment s.baseFeeRateQ32 weight payment.amountStrikes texts.need
    (spendableOutputs s address)
  let sk ← signer
  let tx := signPayment sk selected
    (paymentCore networkId (nextMineableEpoch s) selected payment change address)
  let fees ← checkPayment s.baseFeeRateQ32 selected tx texts.underpaid texts.failed
  .ok (pendingPayment tx selected fees fromLicense toLicense payment.amountStrikes)

/-! ## The two payments -/

/-- A payment to another licence. -/
def createSendTransactionWithSigner (s : DevnetState) (fromLicense toLicense : Nat)
    (amount : UInt64) (sk : Bytes32) : Except String PendingTxState := do
  reject (amount = 0) "amount must be greater than zero"
  let sender ← okOr s.licenses[fromLicense]? "license number out of range"
  let receiver ← okOr s.licenses[toLicense]? "license number out of range"
  reject (Crypto.publicKey sk ≠ sender.ownerPublicKey)
    "provided signing key does not match the current on-chain owner authority"
  buildPayment s s.networkId (estimateSendWeight · 2) sendTexts sender.paymentAddressId
    ⟨amount, outputPubkeyHash, Bytes.b32 receiver.paymentAddressId⟩ (.ok sk) fromLicense toLicense

/-- The licences that queued purchases with a pooled payment will add. -/
def pendingNativeLicenseCount (s : DevnetState) : Except String Nat :=
  s.pendingProtocolOperations.foldlM (fun acc pending =>
    if pending.requiredTxid.any fun txid => s.mempool.any fun t => t.txid == txid then do
      let op ← pending.decoded
      if op.opType ≠ opLicensePurchaseMut ∨ op.opVersion ≠ 1 then .ok acc
      else do
        let purchase ← decodeNativePurchaseOperation op
        .ok (acc + purchase.manifest.licenses.length)
    else .ok acc) 0

/-- The known owner key of a Devnet licence. -/
def devOwnerSigningKeyForLicense (license : LicenseState) : Option Bytes32 :=
  (devSlots.find? fun slot => Crypto.publicKey (devSeed slot) == license.ownerPublicKey).map devSeed

/-- The manifest entry of one key of the Devnet wallet. -/
def devManifestEntry (index : Nat) : Except String LicenseManifestEntryV1 := do
  reject (256 ≤ index) "Devnet license index overflow"
  let key := Crypto.publicKey (devSeed (UInt8.ofNat index))
  .ok { ownerPublicKey := key, miningPublicKey := key }

/-- The nonce of a purchase. -/
def devPurchaseNonce (s : DevnetState) (nextIndex payer count : Nat) : Bytes32 :=
  sha256Domain Domains.mutLicenseManifest
    [Bytes.ascii "DEVNET-NATIVE-PURCHASE-NONCE", Bytes.b32 s.tipHash,
      Bytes.u64 (nextMineableEpoch s), Bytes.u32 (UInt32.ofNat nextIndex), [UInt8.ofNat payer],
      [UInt8.ofNat count]]

/-- A purchase of licences. -/
def createNativeLicensePurchase (s : DevnetState) (payer count : Nat) :
    Except String (PendingTxState × PendingProtocolOperationState × List Bytes32 × UInt64) := do
  reject (count = 0 ∨ 32 < count) "Build 5.0 Devnet purchase count must be 1..=32"
  let payerLicense ← okOr s.licenses[payer]? "payer license number out of range"
  let pendingLicenseCount ← pendingNativeLicenseCount s
  let nextIndex := s.licenses.length + pendingLicenseCount
  reject (255 < nextIndex + count)
    "Build 5.0 local deterministic Devnet wallet fixture supports at most 255 generated license keys; validated protocol state itself has no 255-license consensus cap"
  let priceEach := max (subsidy (nextMineableEpoch s)) 1
  let paymentAmount ← okOr (priceEach.checkedMul (UInt64.ofNat count))
    "license purchase amount overflow"
  let entries ← (List.range count).mapM fun offset => devManifestEntry (nextIndex + offset)
  let manifest : MutLicenseManifestV1 :=
    { version := 1
      networkId := devnetNetworkId
      purchaseNonce := devPurchaseNonce s nextIndex payer count
      licenses := entries }
  let manifestHash ← manifest.manifestHash.mapError ProtocolError.message
  let payment ← buildPayment s devnetNetworkId (estimateLicensePurchaseWeight · true) purchaseTexts
    payerLicense.paymentAddressId
    ⟨paymentAmount, outputLicensePayment, Bytes.b32 manifestHash⟩
    (okOr (devOwnerSigningKeyForLicense payerLicense)
      "local Devnet wallet does not hold the current owner private key for the payer Mining License")
    payer payer
  let purchase : LicensePurchaseMutV1 :=
    { paymentTxid := payment.txid, paymentOutputIndex := 0, manifest := manifest }
  let operation ← purchase.operation.mapError ProtocolError.message
  .ok (payment, { operation := operation.encode, requiredTxid := some payment.txid },
    purchase.licenseIds, priceEach)

end Building

/-! ## What is selected -/

/-- Outputs that cover an amount and the estimated fee of spending them all. -/
def Covered (rate : UInt64) (weight : Nat → Except String Nat) (amount : UInt64)
    (coins : List UtxoState) : Prop :=
  ∃ fee, estimatedFee rate weight coins.length = .ok fee ∧
    amount.toNat + fee.toNat ≤ utxoSupply coins

theorem utxoSupply_concat (coins : List UtxoState) (u : UtxoState) :
    utxoSupply (coins ++ [u]) = utxoSupply coins + u.amountStrikes.toNat := by
  simp [utxoSupply]

variable {weight : Nat → Except String Nat} {rate amount : UInt64}
  {candidates selected : List UtxoState}

/-- The loop stops at the first prefix that is covered, or takes all. -/
theorem selectCoins_shortest {total sum : UInt64} {taken : List UtxoState}
    (h : selectCoins rate weight amount candidates selected total = .ok (taken, sum))
    (htotal : total.toNat = utxoSupply selected) :
    ∃ n ≤ candidates.length, taken = selected ++ candidates.take n ∧
      sum.toNat = utxoSupply taken ∧
      ∀ m, 0 < m → m < n → ¬Covered rate weight amount (selected ++ candidates.take m) := by
  induction candidates generalizing selected total with
  | nil =>
    simp only [selectCoins, Except.ok.injEq, Prod.mk.injEq] at h
    rcases h with ⟨rfl, rfl⟩
    exact ⟨0, Nat.le_refl 0, by simp, htotal, by omega⟩
  | cons u candidates ih =>
    simp only [selectCoins, ok_rules, addStrikes, UInt64.checkedAdd_eq_some] at h
    rcases h with ⟨total', htotal', fee, hfee, hrest⟩
    have hsum : total'.toNat = utxoSupply (selected ++ [u]) := by
      rw [utxoSupply_concat, ← htotal, htotal']
    by_cases hstop : amount.saturatingAdd fee ≤ total'
    · rw [if_pos hstop, Except.ok.injEq, Prod.mk.injEq] at hrest
      rcases hrest with ⟨rfl, rfl⟩
      exact ⟨1, by simp, by simp, hsum, by omega⟩
    · rw [if_neg hstop] at hrest
      rcases ih hrest hsum with ⟨n, hn, htaken, hvalue, hshort⟩
      have hshift : ∀ m, selected ++ (u :: candidates).take (m + 1) =
          (selected ++ [u]) ++ candidates.take m := by
        simp
      refine ⟨n + 1, Nat.succ_le_succ hn, by rw [htaken, hshift], hvalue, ?_⟩
      intro m hpos hm
      rcases Nat.exists_eq_succ_of_ne_zero (Nat.pos_iff_ne_zero.mp hpos) with ⟨m, rfl⟩
      rw [Nat.succ_eq_add_one, hshift]
      rcases Nat.eq_zero_or_pos m with rfl | hm'
      · -- the prefix of this turn: the test against the saturated sum has failed
        rintro ⟨fee', hfee', hcovers⟩
        rw [List.take_zero, List.append_nil] at hfee' hcovers
        rw [hfee, Except.ok.injEq] at hfee'
        rw [← hsum, ← hfee'] at hcovers
        apply hstop
        rw [UInt64.le_iff_toNat_le, UInt64.toNat_saturatingAdd]
        omega
      · exact hshort m hm' (by omega)

/-- What funds a payment: a prefix of the candidates, no shorter one being covered. -/
theorem fundPayment_shortest {change : UInt64} {need : String}
    (h : fundPayment rate weight amount need candidates = .ok (selected, change)) :
    selected ≠ [] ∧ (∃ n ≤ candidates.length, selected = candidates.take n ∧
        ∀ m, 0 < m → m < n → ¬Covered rate weight amount (candidates.take m)) ∧
      ∃ total fee : UInt64, total.toNat = utxoSupply selected ∧
        estimatedFee rate weight selected.length = .ok fee ∧
        amount.saturatingAdd fee ≤ total ∧ change = total - amount - fee := by
  simp only [fundPayment, ok_rules, Prod.mk.injEq, Prod.exists, UInt64.not_lt] at h
  rcases h with ⟨taken, total, hselect, _, hsome, fee, hfee, _, henough, rfl, rfl⟩
  rcases selectCoins_shortest hselect rfl with ⟨n, hn, htaken, hvalue, hshort⟩
  simp only [List.nil_append] at htaken hshort
  exact ⟨hsome, ⟨n, hn, htaken, hshort⟩, total, fee, hvalue, hfee, henough, rfl⟩

theorem perm_spendableOutputs (s : DevnetState) (address : Bytes32) :
    (spendableOutputs s address).Perm (s.utxos.filter (isSpendable s address)) :=
  List.perm_insertionSort _ _

variable {s : DevnetState} {address : Bytes32}

theorem mem_spendableOutputs {u : UtxoState} :
    u ∈ spendableOutputs s address ↔ u ∈ s.utxos ∧ isSpendable s address u = true := by
  rw [(perm_spendableOutputs s address).mem_iff, List.mem_filter]

theorem nodup_spendableOutputs (h : (s.utxos.map UtxoState.outpoint).Nodup) (address : Bytes32) :
    ((spendableOutputs s address).map UtxoState.outpoint).Nodup := by
  rw [((perm_spendableOutputs s address).map _).nodup_iff]
  exact h.sublist (List.filter_sublist.map _)

/-! ## What is validated -/

section Validation

variable [Crypto] {selected : List UtxoState}

omit [Crypto] in
/-- Inputs made from a list, paired with witnesses and places. -/
theorem forall₂_inputs {P : (UtxoState × WitnessV1) × Nat → Prop} {witnesses : List WitnessV1}
    {start : Nat} (hlength : witnesses.length = selected.length)
    (h : ∀ e ∈ (selected.zip witnesses).zipIdx start, P e) :
    List.Forall₂ (fun (entry : (TxInput × WitnessV1) × Nat) u =>
        entry.1.1 = .outpoint u.outpoint ∧ P ((u, entry.1.2), entry.2))
      (((selected.map fun u => TxInput.outpoint u.outpoint).zip witnesses).zipIdx start)
      selected := by
  induction selected generalizing witnesses start with
  | nil => exact .nil
  | cons u selected ih =>
    cases witnesses with
    | nil => simp at hlength
    | cons w witnesses =>
      simp only [List.zip_cons_cons, List.zipIdx_cons, List.forall_mem_cons] at h
      simp only [List.map_cons, List.zip_cons_cons, List.zipIdx_cons]
      exact .cons ⟨rfl, h.1⟩ (ih (Nat.succ.inj hlength) h.2)

theorem selfVerify_eq_ok {failed : String} {txid : Bytes32}
    {entry : (UtxoState × WitnessV1) × Nat} :
    selfVerify failed txid entry = .ok () ↔
      ∃ address, decode32 entry.1.1.payload = .ok address ∧
        verifyPubkeyHashWitness address
          (sighashAll txid (UInt16.ofNat entry.2) entry.1.1.prevout) entry.1.2 = .ok () := by
  simp only [selfVerify, ok_rules]

theorem checkPayment_eq_ok {rate fee baseFee : UInt64} {tx : TransactionV1}
    {underpaid : UInt64 → UInt64 → String} {failed : String} :
    checkPayment rate selected tx underpaid failed = .ok (fee, baseFee) ↔
      requiredBaseFee rate tx.serializedLen = .ok baseFee ∧
        utxoSupply selected < 2 ^ 64 ∧ outputsValue tx.core.outputs < 2 ^ 64 ∧
        fee.toNat + outputsValue tx.core.outputs = utxoSupply selected ∧ baseFee ≤ fee ∧
        ∀ e ∈ (selected.zip tx.witnesses).zipIdx, selfVerify failed tx.txid e = .ok () := by
  simp only [checkPayment, ok_rules, addStrikes_foldlM_eq_ok, UInt64.checkedSub_eq_some, forM_eq_ok,
    UInt64.not_lt, Prod.mk.injEq, List.map_map, UInt64.toNat_zero, Nat.zero_add]
  constructor
  · rintro ⟨base, hbase, inputSum, hinputs, outputSum, houtputs, fee', hfee, _, hpaid, _, hverify,
      rfl, rfl⟩
    have hin : inputSum.toNat = utxoSupply selected := hinputs
    have hout : outputSum.toNat = outputsValue tx.core.outputs := houtputs
    have hinLt := inputSum.toNat_lt
    have houtLt := outputSum.toNat_lt
    exact ⟨hbase, by omega, by omega, by omega, hpaid, hverify⟩
  · rintro ⟨hbase, hin, hout, hbalance, hpaid, hverify⟩
    refine ⟨baseFee, hbase, UInt64.ofNat (utxoSupply selected), UInt64.toNat_ofNat_of_lt' hin,
      UInt64.ofNat (outputsValue tx.core.outputs), UInt64.toNat_ofNat_of_lt' hout, fee, ?_, (),
      hpaid, (), hverify, rfl, rfl⟩
    rw [UInt64.toNat_ofNat_of_lt' hin, UInt64.toNat_ofNat_of_lt' hout]
    omega

/-- What a built payment is: the selection covers it, and the checks of the wallet hold. -/
structure BuiltPayment (s : DevnetState) (networkId : UInt32) (weight : Nat → Except String Nat)
    (address : Bytes32) (payment : TxOutput) (selected : List UtxoState) (change : UInt64)
    (p : PendingTxState) : Prop where
  selection : ∃ n ≤ (spendableOutputs s address).length,
    selected = (spendableOutputs s address).take n ∧ ∀ m, 0 < m → m < n →
      ¬Covered s.baseFeeRateQ32 weight payment.amountStrikes ((spendableOutputs s address).take m)
  covered : Covered s.baseFeeRateQ32 weight payment.amountStrikes selected
  nonempty : selected ≠ []
  core : (p.toTransactionForNetwork networkId).core =
    paymentCore networkId (nextMineableEpoch s) selected payment change address
  ids : p.txid = (p.toTransactionForNetwork networkId).txid ∧
    p.wtxid = (p.toTransactionForNetwork networkId).wtxid
  witnesses : p.witnesses.length = selected.length
  required : requiredBaseFee s.baseFeeRateQ32 (p.toTransactionForNetwork networkId).serializedLen =
    .ok p.baseFeeStrikes
  balance : p.feeStrikes.toNat + outputsValue p.outputs = utxoSupply selected
  paid : p.baseFeeStrikes ≤ p.feeStrikes
  signed : ∀ e ∈ (selected.zip p.witnesses).zipIdx, ∃ address,
    decode32 e.1.1.payload = .ok address ∧
      verifyPubkeyHashWitness address
        (sighashAll (p.toTransactionForNetwork networkId).txid (UInt16.ofNat e.2) e.1.1.prevout)
        e.1.2 = .ok ()

variable {networkId : UInt32} {payment : TxOutput} {address : Bytes32}

omit [Crypto] in
/-- Where the sum of amount and fee saturates, the change wraps around and the outputs are
worth more than any amount. -/
theorem sum_of_change {amount fee total change : UInt64} {epoch : UInt64}
    (henough : amount.saturatingAdd fee ≤ total) (hchange : change = total - amount - fee)
    (hamount : payment.amountStrikes = amount)
    (hsum : outputsValue (paymentCore networkId epoch selected payment change address).outputs <
      2 ^ 64) :
    amount.toNat + fee.toNat ≤ total.toNat := by
  rw [UInt64.le_iff_toNat_le, UInt64.toNat_saturatingAdd] at henough
  by_contra hmore
  have hamountLt := amount.toNat_lt
  have hfeeLt := fee.toNat_lt
  have htotalLt := total.toNat_lt
  have hwrapped : change.toNat = 2 ^ 64 + total.toNat - amount.toNat - fee.toNat := by
    rw [hchange, UInt64.toNat_sub, UInt64.toNat_sub]
    omega
  have hpos : 0 < change := by
    rw [UInt64.lt_iff_toNat_lt, hwrapped, UInt64.toNat_zero]
    omega
  simp only [paymentCore, if_pos hpos, outputsValue, List.map_cons, List.map_nil, List.sum_cons,
    List.sum_nil, hamount, hwrapped] at hsum
  omega

theorem buildPayment_eq_ok {s : DevnetState} {weight : Nat → Except String Nat}
    {texts : PaymentTexts} {signer : Except String Bytes32} {fromLicense toLicense : Nat}
    {p : PendingTxState}
    (h : buildPayment s networkId weight texts address payment signer fromLicense toLicense =
      .ok p) :
    ∃ selected change, BuiltPayment s networkId weight address payment selected change p := by
  simp only [buildPayment, ok_rules, Prod.exists] at h
  rcases h with ⟨selected, change, hfund, sk, -, fee, baseFee, hcheck, rfl⟩
  rcases fundPayment_shortest hfund with ⟨hsome, hselection, total, fee', htotal, hfee', henough,
    hchange⟩
  rcases checkPayment_eq_ok.mp hcheck with ⟨hrequired, -, hsum, hbalance, hpaid, hverify⟩
  have hcovers := sum_of_change henough hchange rfl hsum
  have htx : (pendingPayment (signPayment sk selected
      (paymentCore networkId (nextMineableEpoch s) selected payment change address)) selected
      (fee, baseFee) fromLicense toLicense payment.amountStrikes).toTransactionForNetwork networkId =
      signPayment sk selected
        (paymentCore networkId (nextMineableEpoch s) selected payment change address) := by
    simp [pendingPayment, PendingTxState.toTransactionForNetwork, PendingTxState.outpoints,
      signPayment, paymentCore, UtxoState.outpoint]
  refine ⟨selected, change, ⟨hselection, ⟨fee', hfee', by omega⟩, hsome, by rw [htx]; rfl,
    by rw [htx]; exact ⟨rfl, rfl⟩, by simp [pendingPayment, signPayment], by rw [htx]; exact hrequired,
    hbalance, hpaid, ?_⟩⟩
  rw [htx]
  exact fun e he => selfVerify_eq_ok.mp (hverify e he)

namespace BuiltPayment

variable {s : DevnetState} {weight : Nat → Except String Nat} {address : Bytes32}
  {payment : TxOutput} {selected : List UtxoState} {change : UInt64} {p : PendingTxState}
  {operations : List ProtocolOperationV1} {networkId : UInt32}

theorem mem_spendable (h : BuiltPayment s networkId weight address payment selected change p)
    {u : UtxoState} (hu : u ∈ selected) : u ∈ s.utxos ∧ isSpendable s address u = true := by
  rcases h.selection with ⟨n, -, hselected, -⟩
  rw [hselected] at hu
  exact mem_spendableOutputs.mp (List.mem_of_mem_take hu)

theorem distinct (h : BuiltPayment s networkId weight address payment selected change p)
    (hutxos : (s.utxos.map UtxoState.outpoint).Nodup) :
    (selected.map UtxoState.outpoint).Nodup := by
  rcases h.selection with ⟨n, -, hselected, -⟩
  rw [hselected]
  exact (nodup_spendableOutputs hutxos address).sublist ((List.take_sublist n _).map _)

/-- The payment is a valid spend of the outputs it selects. -/
theorem validSpend (h : BuiltPayment s s.networkId weight address payment selected change p)
    (hutxos : (s.utxos.map UtxoState.outpoint).Nodup) (hpayment : ValidOutput payment)
    (hlower : ∀ u ∈ selected, u.txid.IsLower) :
    ValidSpend s.baseFeeRateQ32 s.utxos (s.height + 1) (p.toTransactionForNetwork s.networkId)
      selected p.feeStrikes p.baseFeeStrikes := by
  have houtputs : p.outputs =
      (paymentCore s.networkId (nextMineableEpoch s) selected payment change address).outputs := by
    rw [← h.core]
    rfl
  refine ⟨?_, h.distinct hutxos, ?_, ?_, h.balance, h.required, h.paid⟩
  · have hentries : ∀ e ∈ (selected.zip p.witnesses).zipIdx,
        SpendsInput s.utxos (s.height + 1) (p.toTransactionForNetwork s.networkId).txid
          ((.outpoint e.1.1.outpoint, e.1.2), e.2) e.1.1 := by
      intro e he
      have hmem : e.1.1 ∈ selected :=
        (List.of_mem_zip (List.fst_mem_of_mem_zipIdx he)).1
      rcases h.mem_spendable hmem with ⟨hfound, hspendable⟩
      simp only [isSpendable, Bool.and_eq_true, beq_iff_eq] at hspendable
      exact ⟨rfl, (findUtxo_outpoint_iff hutxos hfound).mpr (hlower _ hmem), hspendable.1.2,
        hspendable.1.1.1, h.signed e he⟩
    rw [h.core]
    refine List.Forall₂.imp ?_ (forall₂_inputs h.witnesses hentries)
    rintro ⟨⟨input, witness⟩, i⟩ u ⟨hinput, hspends⟩
    cases hinput
    exact hspends
  · rw [h.core]
    intro o ho
    simp only [paymentCore, List.mem_cons] at ho
    rcases ho with rfl | ho
    · exact hpayment
    · by_cases hchange : 0 < change
      · rw [if_pos hchange, List.mem_singleton] at ho
        rw [ho]
        exact ⟨(UInt64.pos_iff_ne_zero).mp hchange, Or.inl rfl, Bytes.length_be _ _⟩
      · simp [if_neg hchange] at ho
  · rw [h.core]
    simp only [paymentCore, List.length_cons]
    split <;> simp

/-- The outputs that a valid payment spends are found, so their texts are in lower case. -/
theorem isLower_of_validSpend
    (h : BuiltPayment s s.networkId weight address payment selected change p)
    (hutxos : (s.utxos.map UtxoState.outpoint).Nodup) {spent : List UtxoState}
    {height fee baseFee : UInt64} (hspend : ValidSpend s.baseFeeRateQ32 s.utxos height
      (p.toTransactionForNetwork s.networkId) spent fee baseFee) :
    ∀ u ∈ selected, u.txid.IsLower := by
  have hinputs : (p.toTransactionForNetwork s.networkId).core.inputs =
      selected.map fun u => .outpoint u.outpoint := by
    rw [h.core]
    rfl
  have hwitnesses : (p.toTransactionForNetwork s.networkId).witnesses.length =
      (p.toTransactionForNetwork s.networkId).core.inputs.length := by
    rw [hinputs, List.length_map]
    exact h.witnesses
  intro u hu
  have hinput : TxInput.outpoint u.outpoint ∈ spent.map fun u => .outpoint u.outpoint := by
    rw [← hspend.inputs_eq hwitnesses, hinputs]
    exact List.mem_map_of_mem hu
  rcases List.mem_map.mp hinput with ⟨u', hu', hsame⟩
  rw [TxInput.outpoint.injEq] at hsame
  have hfound := SpendsInput.found_of_forall hspend.inputs u' hu'
  have hmem := (h.mem_spendable hu).1
  rw [List.inj_on_of_nodup_map hutxos (Keyed.mem_of_lookup hfound) hmem hsame] at hfound
  exact (findUtxo_outpoint_iff hutxos hmem).mp hfound

/-- Of all the checks of a block, only the one on the number of inputs and the search for the
outputs can fail. -/
theorem validates_iff (h : BuiltPayment s s.networkId weight address payment selected change p)
    (hutxos : (s.utxos.map UtxoState.outpoint).Nodup) (hpayment : ValidOutput payment)
    (hordinary : ∀ op ∈ operations, op.opType ≠ opDividendClaim) :
    (∃ result, validateAndApplyMempool { s with mempool := [p] } s.utxos (nextMineableEpoch s)
        (s.height + 1) operations = .ok result) ↔
      selected.length ≤ 1024 ∧ ∀ u ∈ selected, u.txid.IsLower := by
  have hinputs : (p.toTransactionForNetwork s.networkId).core.inputs.length = selected.length := by
    rw [h.core]
    simp [paymentCore]
  constructor
  · rintro ⟨result, hvalid⟩
    rcases validateAndApplyList_singleton.mp hvalid with ⟨v, hv, -⟩
    rcases (validateAndApplyPending_ordinary_eq_ok hordinary).mp hv with
      ⟨henvelope, spent, hspend, -⟩
    exact ⟨hinputs ▸ (witnesses_of_checkEnvelope henvelope).2,
      h.isLower_of_validSpend hutxos hspend⟩
  · rintro ⟨hcount, hlower⟩
    have henvelope : checkEnvelope s.networkId (nextMineableEpoch s) p
        (p.toTransactionForNetwork s.networkId) = .ok () := by
      simp only [checkEnvelope, ok_rules, not_or, not_lt, not_not, hinputs]
      refine ⟨(), ⟨h.ids.1.symm, h.ids.2.symm⟩, (), ⟨rfl, rfl⟩, (), ?_, (), ?_, h.witnesses⟩
      · rw [h.core]
        simp [paymentCore]
      · rw [h.core]
        refine ⟨by simp [paymentCore, h.nonempty], by simp [paymentCore], hcount, ?_⟩
        simp only [paymentCore, List.length_cons]
        split <;> simp
    have hv := (validateAndApplyPending_ordinary_eq_ok (s := { s with mempool := [p] })
      (v := ⟨p, _, p.feeStrikes, p.baseFeeStrikes⟩) hordinary).mpr
      ⟨henvelope, selected, h.validSpend hutxos hpayment hlower, rfl, rfl, rfl⟩
    exact ⟨([_], _), validateAndApplyList_singleton.mpr ⟨_, hv, rfl⟩⟩

/-- The selection has at most a number of outputs, all in lower case, exactly when so many
such candidates cover the payment. -/
theorem length_le_iff (h : BuiltPayment s networkId weight address payment selected change p)
    (hweight : ∀ w, weight 0 ≠ .ok w) {limit : Nat} :
    (selected.length ≤ limit ∧ ∀ u ∈ selected, u.txid.IsLower) ↔ ∃ n ≤ limit,
      Covered s.baseFeeRateQ32 weight payment.amountStrikes
          ((spendableOutputs s address).take n) ∧
        ∀ u ∈ (spendableOutputs s address).take n, u.txid.IsLower := by
  rcases h.selection with ⟨k, hk, hselected, hshort⟩
  have hlength : selected.length = k := by
    rw [hselected, List.length_take_of_le hk]
  constructor
  · rintro ⟨hle, hlower⟩
    refine ⟨k, hlength ▸ hle, ?_⟩
    rw [← hselected]
    exact ⟨h.covered, hlower⟩
  · rintro ⟨n, hn, hcovered, hlower⟩
    have hpos : 0 < n := by
      rcases Nat.eq_zero_or_pos n with rfl | hpos
      · rcases hcovered with ⟨fee, hfee, -⟩
        simp only [estimatedFee, bind_eq_ok, List.take_zero, List.length_nil] at hfee
        rcases hfee with ⟨w, hw, -⟩
        exact absurd hw (hweight w)
      · exact hpos
    have hle : k ≤ n := by
      by_contra hmore
      exact hshort n hpos (by omega) hcovered
    refine ⟨by omega, ?_⟩
    intro u hu
    rw [hselected] at hu
    exact hlower u ((List.take_prefix_take_left hle).subset hu)

end BuiltPayment

end Validation

/-! ## What is estimated -/

/-- The length of a number on the wire. -/
def varuintSize (n : Nat) : Nat := (encodeVaruint (UInt64.ofNat n)).length

/-- The weight of a transaction that spends to keys: 34 bytes an input, 42 an output and 98 a
witness. -/
theorem serializedLen_payment {t : TransactionV1} (spent : List OutPoint)
    (hinputs : t.core.inputs = spent.map .outpoint)
    (houtputs : ∀ o ∈ t.core.outputs, o.payload.length = 32)
    (hwitnesses : ∀ w ∈ t.witnesses, w.payload.length = 96) :
    t.serializedLen = 22 + varuintSize spent.length + 34 * spent.length +
      varuintSize t.core.outputs.length + 42 * t.core.outputs.length + 98 * t.witnesses.length := by
  have hin : (t.core.inputs.flatMap TxInput.encodeCore).length = 34 * spent.length := by
    rw [hinputs, List.flatMap_map]
    exact length_flatMap_const fun o _ => by
      simp [TxInput.encodeCore, OutPoint.encode, Bytes.length_be]
  have hout : (t.core.outputs.flatMap TxOutput.encode).length = 42 * t.core.outputs.length :=
    length_flatMap_const fun o ho => by
      have hvar : (encodeVaruint 32).length = 1 := by decide
      simp [TxOutput.encode, encodeVar, Bytes.length_be, houtputs o ho, hvar]
  have hwit : (t.witnesses.flatMap WitnessV1.encode).length = 98 * t.witnesses.length :=
    length_flatMap_const fun w hw => by
      have hvar : (encodeVaruint 96).length = 1 := by decide
      simp [WitnessV1.encode, encodeVar, hwitnesses w hw, hvar]
  have hcount : t.core.inputs.length = spent.length := by
    rw [hinputs, List.length_map]
  simp only [TransactionV1.serializedLen, TransactionV1.encodeFull, TransactionCoreV1.encode,
    List.length_append, Bytes.length_be, hin, hout, hwit, hcount, varuintSize]
  omega

theorem payload_pubkeyHash (publicKey : Bytes32) (signature : Bytes64) :
    (WitnessV1.pubkeyHash publicKey signature).payload.length = 96 := by
  simp [WitnessV1.pubkeyHash, Bytes.length_be]

/-- The weight of a payment with a number of inputs and two outputs. -/
def paymentWeight (inputCount : Nat) : Nat := 107 + varuintSize inputCount + 132 * inputCount

variable {inputCount : Nat}

theorem serializedLen_placeholder {a b : UInt8} :
    (placeholderTx inputCount [placeholderOutput a, placeholderOutput b]).serializedLen =
      paymentWeight inputCount := by
  rw [serializedLen_payment ((List.range inputCount).map fun i =>
      ⟨Bytes.toB32 (List.replicate 32 (UInt8.ofNat i)), UInt16.ofNat i⟩)
    (by simp [placeholderTx]) (by simp [placeholderTx, placeholderOutput])
    (by simp [placeholderTx, payload_pubkeyHash])]
  have hvar : varuintSize 2 = 1 := by decide
  simp [placeholderTx, hvar, paymentWeight]
  omega

theorem estimateSendWeight_two (h : inputCount ≠ 0) :
    estimateSendWeight inputCount 2 = .ok (paymentWeight inputCount) := by
  rw [estimateSendWeight, reject_of_not (by simp [h])]
  exact congrArg Except.ok serializedLen_placeholder

theorem estimateLicensePurchaseWeight_change (h : inputCount ≠ 0) :
    estimateLicensePurchaseWeight inputCount true = .ok (paymentWeight inputCount) := by
  rw [estimateLicensePurchaseWeight, reject_of_not h]
  exact congrArg Except.ok serializedLen_placeholder

theorem paymentWeight_mono {m n : Nat} (h : m ≤ n) : paymentWeight m ≤ paymentWeight n := by
  rcases Nat.eq_or_lt_of_le h with rfl | hlt
  · exact Nat.le_refl _
  · have hm : varuintSize m ≤ 10 := length_writeVaruint_le 10 _
    have hn : 0 < varuintSize n := length_encodeVaruint_pos _
    simp only [paymentWeight]
    omega

theorem requiredBaseFee_mono {fee : UInt64} {w w' : Nat} (hw : w ≤ w')
    (h : requiredBaseFee rate w' = .ok fee) :
    ∃ fee', requiredBaseFee rate w = .ok fee' ∧ fee' ≤ fee := by
  simp only [requiredBaseFee, ok_rules, not_le] at h ⊢
  rcases h with ⟨_, hproduct, _, hfee, rfl⟩
  have hle : rate.toNat * w ≤ rate.toNat * w' := Nat.mul_le_mul_left _ hw
  refine ⟨_, ⟨(), by omega, (), by omega, rfl⟩, ?_⟩
  rw [UInt64.le_iff_toNat_le, UInt64.toNat_ofNat_of_lt' (by simp only [UInt64.size]; omega),
    UInt64.toNat_ofNat_of_lt' (by simp only [UInt64.size]; omega)]
  omega

/-- A weight function that is the weight of a payment. -/
def WeighsPayments (weight : Nat → Except String Nat) : Prop :=
  (∀ w, weight 0 ≠ .ok w) ∧ ∀ n, n ≠ 0 → weight n = .ok (paymentWeight n)

theorem weighsPayments_send : WeighsPayments (estimateSendWeight · 2) :=
  ⟨by simp [estimateSendWeight, reject_of], fun _ => estimateSendWeight_two⟩

theorem weighsPayments_purchase : WeighsPayments (estimateLicensePurchaseWeight · true) :=
  ⟨by simp [estimateLicensePurchaseWeight, reject_of], fun _ => estimateLicensePurchaseWeight_change⟩

theorem estimatedFee_eq_ok {fee : UInt64} (hweight : WeighsPayments weight) {n : Nat} :
    estimatedFee rate weight n = .ok fee ↔
      n ≠ 0 ∧ requiredBaseFee rate (paymentWeight n) = .ok fee := by
  simp only [estimatedFee, ok_rules]
  by_cases hn : n = 0
  · subst hn
    simp [hweight.1]
  · simp [hweight.2 n hn, hn]

/-- Where all candidates together cover the amount, the loop ends with a covered selection. -/
theorem selectCoins_of_covered {total : UInt64} (hweight : WeighsPayments weight)
    (htotal : total.toNat = utxoSupply selected) (hsome : candidates ≠ [])
    (hbound : utxoSupply (selected ++ candidates) < 2 ^ 64)
    (hcovered : Covered rate weight amount (selected ++ candidates)) :
    ∃ taken sum fee, selectCoins rate weight amount candidates selected total = .ok (taken, sum) ∧
      taken ≠ [] ∧ estimatedFee rate weight taken.length = .ok fee ∧
      amount.saturatingAdd fee ≤ sum := by
  induction candidates generalizing selected total with
  | nil => exact absurd rfl hsome
  | cons u candidates ih =>
    have hshift : selected ++ u :: candidates = (selected ++ [u]) ++ candidates := by simp
    rw [hshift] at hbound hcovered
    have hsupply : utxoSupply (selected ++ [u]) ≤ utxoSupply ((selected ++ [u]) ++ candidates) := by
      simp [utxoSupply]
    have htotal' : (UInt64.ofNat (utxoSupply (selected ++ [u]))).toNat =
        utxoSupply (selected ++ [u]) := UInt64.toNat_ofNat_of_lt' (by simp only [UInt64.size]; omega)
    have hadd : addStrikes "balance overflow" total u.amountStrikes =
        .ok (UInt64.ofNat (utxoSupply (selected ++ [u]))) := by
      rw [addStrikes, okOr_eq_ok, UInt64.checkedAdd_eq_some, htotal', utxoSupply_concat, htotal]
    have hfee : ∃ fee, estimatedFee rate weight (selected ++ [u]).length = .ok fee := by
      rcases hcovered with ⟨fee, hfee, -⟩
      have hlarger := ((estimatedFee_eq_ok hweight).mp hfee).2
      have hle : (selected ++ [u]).length ≤ ((selected ++ [u]) ++ candidates).length := by simp
      rcases requiredBaseFee_mono (paymentWeight_mono hle) hlarger with ⟨fee', hfee', -⟩
      exact ⟨fee', (estimatedFee_eq_ok hweight).mpr ⟨by simp, hfee'⟩⟩
    rcases hfee with ⟨fee, hfee⟩
    simp only [selectCoins, hadd, hfee, ok_bind]
    by_cases hstop : amount.saturatingAdd fee ≤ UInt64.ofNat (utxoSupply (selected ++ [u]))
    · rw [if_pos hstop]
      exact ⟨_, _, fee, rfl, by simp, hfee, hstop⟩
    · rw [if_neg hstop]
      refine ih htotal' ?_ hbound hcovered
      rintro rfl
      rw [List.append_nil] at hcovered
      rcases hcovered with ⟨fee', hfee', henough⟩
      rw [hfee, Except.ok.injEq] at hfee'
      apply hstop
      rw [UInt64.le_iff_toNat_le, UInt64.toNat_saturatingAdd, htotal', hfee']
      omega

section Completeness

variable [Crypto]

theorem length_witnesses_signPayment (sk : Bytes32) (selected : List UtxoState)
    (core : TransactionCoreV1) : (signPayment sk selected core).witnesses.length = selected.length := by
  simp [signPayment]

variable {address : Bytes32} {networkId : UInt32} {selected : List UtxoState} {payment : TxOutput}
  {sk : Bytes32}

/-- The signed payment weighs no more than the estimate with change. -/
theorem serializedLen_signPayment_le {epoch change : UInt64}
    (hpayload : payment.payload.length = 32) :
    (signPayment sk selected
      (paymentCore networkId epoch selected payment change address)).serializedLen ≤
        paymentWeight selected.length := by
  rw [serializedLen_payment (selected.map UtxoState.outpoint)
    (by simp [signPayment, paymentCore]) ?_ ?_, length_witnesses_signPayment, List.length_map]
  · have hone : varuintSize 1 = 1 := by decide
    have htwo : varuintSize 2 = 1 := by decide
    simp only [signPayment, paymentCore, paymentWeight]
    split
    · simp only [List.length_cons, List.length_nil, Nat.zero_add, htwo]
      omega
    · simp only [List.length_cons, List.length_nil, Nat.zero_add, hone]
      omega
  · simp only [signPayment, paymentCore, List.forall_mem_cons]
    refine ⟨hpayload, ?_⟩
    split <;> simp [Bytes.length_be]
  · intro w hw
    simp only [signPayment, List.mem_map] at hw
    rcases hw with ⟨⟨u, i⟩, -, rfl⟩
    exact payload_pubkeyHash _ _

omit [Crypto] in
/-- The fee of a payment whose change does not wrap is the estimated one. -/
theorem outputsValue_paymentCore {amount fee total change : UInt64} {epoch : UInt64}
    (henough : amount.toNat + fee.toNat ≤ total.toNat) (hchange : change = total - amount - fee)
    (hamount : payment.amountStrikes = amount) :
    fee.toNat + outputsValue
      (paymentCore networkId epoch selected payment change address).outputs = total.toNat := by
  have hvalue : change.toNat = total.toNat - amount.toNat - fee.toNat := by
    have htotal := total.toNat_lt
    rw [hchange, UInt64.toNat_sub, UInt64.toNat_sub]
    omega
  simp only [paymentCore, outputsValue]
  by_cases hpos : 0 < change
  · simp only [if_pos hpos, List.map_cons, List.map_nil, List.sum_cons, List.sum_nil, hamount]
    omega
  · rw [UInt64.lt_iff_toNat_lt, UInt64.toNat_zero] at hpos
    simp only [UInt64.lt_iff_toNat_lt, UInt64.toNat_zero, if_neg hpos, List.map_cons,
      List.map_nil, List.sum_cons, List.sum_nil, hamount]
    omega

omit [Crypto] in
theorem payload_of_isSpendable {s : DevnetState} {u : UtxoState}
    (h : isSpendable s address u = true) : decode32 u.payload = .ok address := by
  simp only [isSpendable, Bool.and_eq_true, beq_iff_eq] at h
  rcases h with ⟨⟨⟨-, haddress⟩, -⟩, -⟩
  cases hdecode : decode32 u.payload with
  | error e => simp [hdecode, Except.toOption] at haddress
  | ok a =>
    simp only [hdecode, Except.toOption, Option.some.injEq] at haddress
    rw [haddress]

/-- Every signature of a key is accepted for an address. -/
def SignsFor (sk address : Bytes32) : Prop :=
  ∀ digest, verifyPubkeyHashWitness address digest
    (.pubkeyHash (Crypto.publicKey sk) (Crypto.sign sk (Bytes.b32 digest))) = .ok ()

theorem signsFor_of_owner (haddress : addressId (Crypto.publicKey sk) = address)
    (hkey : Crypto.validPublicKey (Crypto.publicKey sk) = true)
    (hsigns : ∀ message,
      Crypto.verify (Crypto.publicKey sk) message (Crypto.sign sk message) = true) :
    SignsFor sk address := by
  intro digest
  have htake : (WitnessV1.pubkeyHash (Crypto.publicKey sk)
      (Crypto.sign sk (Bytes.b32 digest))).payload.take 32 = Bytes.b32 (Crypto.publicKey sk) :=
    List.take_left' (Bytes.length_be _ _)
  have hdrop : (WitnessV1.pubkeyHash (Crypto.publicKey sk)
      (Crypto.sign sk (Bytes.b32 digest))).payload.drop 32 =
        Bytes.b64 (Crypto.sign sk (Bytes.b32 digest)) :=
    List.drop_left' (Bytes.length_be _ _)
  rw [verifyPubkeyHashWitness, htake, hdrop, Bytes.toB32_b32, Bytes.toB64_b64,
    payload_pubkeyHash]
  simp [reject_of_not, haddress, hkey, hsigns, WitnessV1.pubkeyHash]

/-- What the owner signs passes the wallet's own check. -/
theorem selfVerify_signPayment {failed : String} {core : TransactionCoreV1}
    (hpayload : ∀ u ∈ selected, decode32 u.payload = .ok address)
    (hsigner : SignsFor sk address) :
    ∀ e ∈ (selected.zip (signPayment sk selected core).witnesses).zipIdx,
      selfVerify failed (signPayment sk selected core).txid e = .ok () := by
  rintro ⟨⟨u, w⟩, i⟩ he
  rw [selfVerify_eq_ok]
  rw [List.mem_zipIdx_iff_getElem?, List.getElem?_zip_eq_some] at he
  rcases he with ⟨hu, hw⟩
  refine ⟨address, hpayload u (List.mem_of_getElem? hu), ?_⟩
  have hwitness : w = .pubkeyHash (Crypto.publicKey sk) (Crypto.sign sk
      (Bytes.b32 (sighashAll core.txid (UInt16.ofNat i) u.prevout))) := by
    simp only at hu hw
    simp [signPayment, List.getElem?_map, List.getElem?_zipIdx, hu] at hw
    exact hw.symm
  rw [hwitness]
  exact hsigner _

/-- The estimate is never below the real base fee: the owner of an address can build every
payment that its outputs cover. -/
theorem buildPayment_of_covered {s : DevnetState} {weight : Nat → Except String Nat}
    {texts : PaymentTexts} {fromLicense toLicense : Nat} (hweight : WeighsPayments weight)
    (hpayload : payment.payload.length = 32)
    (hsigner : SignsFor sk address)
    (hbound : utxoSupply (spendableOutputs s address) < 2 ^ 64 - 1)
    (hcovered : Covered s.baseFeeRateQ32 weight payment.amountStrikes
      (spendableOutputs s address)) :
    ∃ p, buildPayment s networkId weight texts address payment (.ok sk) fromLicense toLicense =
      .ok p := by
  have hsome : spendableOutputs s address ≠ [] := by
    rcases hcovered with ⟨fee, hfee, -⟩
    have := ((estimatedFee_eq_ok hweight).mp hfee).1
    rwa [ne_eq, List.length_eq_zero_iff] at this
  have hempty : (0 : UInt64).toNat = utxoSupply [] := rfl
  rcases selectCoins_of_covered hweight hempty hsome (by rw [List.nil_append]; omega)
    hcovered with ⟨selected, total, fee, hselect, htaken, hfee, henough⟩
  rcases selectCoins_shortest hselect rfl with ⟨n, -, hselected, htotal, -⟩
  rw [List.nil_append] at hselected
  have hspendable : ∀ u ∈ selected, isSpendable s address u = true := by
    intro u hu
    rw [hselected] at hu
    exact (mem_spendableOutputs.mp (List.mem_of_mem_take hu)).2
  have hexact : payment.amountStrikes.toNat + fee.toNat ≤ total.toNat := by
    have hle : utxoSupply selected ≤ utxoSupply (spendableOutputs s address) := by
      rw [hselected]
      exact ((List.take_sublist n _).map _).sum_le_sum (by simp)
    rw [UInt64.le_iff_toNat_le, UInt64.toNat_saturatingAdd] at henough
    omega
  have hfund : fundPayment s.baseFeeRateQ32 weight payment.amountStrikes texts.need
      (spendableOutputs s address) = .ok (selected, total - payment.amountStrikes - fee) := by
    simp only [fundPayment, hselect, ok_bind, reject_of_not htaken, hfee,
      reject_of_not (UInt64.not_lt.mpr henough)]
  rcases requiredBaseFee_mono (serializedLen_signPayment_le hpayload)
    ((estimatedFee_eq_ok hweight).mp hfee).2 with ⟨baseFee, hbase, hpaid⟩
  have hbalance : fee.toNat + outputsValue (signPayment sk selected (paymentCore networkId
      (nextMineableEpoch s) selected payment (total - payment.amountStrikes - fee)
      address)).core.outputs = utxoSupply selected :=
    htotal ▸ outputsValue_paymentCore hexact rfl rfl
  have htotalLt := total.toNat_lt
  simp only [buildPayment, ok_rules, Prod.exists]
  refine ⟨_, selected, _, hfund, sk, rfl, fee, baseFee, checkPayment_eq_ok.mpr ?_, rfl⟩
  exact ⟨hbase, by omega, by omega, hbalance, hpaid,
    selfVerify_signPayment (fun u hu => payload_of_isSpendable (hspendable u hu)) hsigner⟩

end Completeness

/-! ## Both payments -/

theorem operation_of_purchase {purchase : LicensePurchaseMutV1} {op : ProtocolOperationV1}
    (h : purchase.operation = .ok op) :
    op.opType = opLicensePurchaseMut ∧ decodeProtocolOperationBytes op.encode = .ok op := by
  simp only [LicensePurchaseMutV1.operation, MutLicenseManifestV1.encode,
    MutLicenseManifestV1.validate, ok_rules, not_or, not_lt] at h
  rcases h with ⟨_, ⟨_, ⟨-, -, hcount⟩, rfl⟩, rfl⟩
  refine ⟨rfl, decodeProtocolOperationBytes_encode ?_⟩
  have hentries : (purchase.manifest.licenses.flatMap LicenseManifestEntryV1.encode).length =
      64 * purchase.manifest.licenses.length := by
    simp [List.length_flatMap, LicenseManifestEntryV1.encode, Bytes.length_be, Nat.mul_comm]
  have hvaruint := fun v : UInt64 => length_writeVaruint_le 10 v.toNat
  simp only [encodeVar, encodeVaruint, List.length_append, Bytes.length_be, hentries]
  have := hvaruint (UInt64.ofNat (2 + (4 + (32 + (4 + 64 * purchase.manifest.licenses.length)))))
  omega

/-- The amount a purchase pays. -/
def purchaseAmount (s : DevnetState) (count : Nat) : UInt64 :=
  max (subsidy (nextMineableEpoch s)) 1 * UInt64.ofNat count

theorem purchaseAmount_of_checked {count : Nat} (hpos : count ≠ 0) (hcount : count ≤ 32)
    (h : amount.toNat =
      (max (subsidy (nextMineableEpoch s)) 1).toNat * (UInt64.ofNat count).toNat) :
    amount = purchaseAmount s count ∧ amount ≠ 0 := by
  have hprice : 1 ≤ (max (subsidy (nextMineableEpoch s)) 1).toNat := by
    rw [UInt64.toNat_max, UInt64.toNat_one]
    exact Nat.le_max_right _ _
  have hnumber : (UInt64.ofNat count).toNat = count := by
    rw [UInt64.toNat_ofNat']
    omega
  constructor
  · have hlt := amount.toNat_lt
    rw [← UInt64.toNat_inj, purchaseAmount, UInt64.toNat_mul, ← h, Nat.mod_eq_of_lt hlt]
  · rw [← UInt64.toNat_inj.ne, h, hnumber, UInt64.toNat_zero]
    exact Nat.mul_ne_zero (by omega) hpos

/-- At most 1024 of the outputs an address may spend, taken in the wallet's order, cover an
amount and their own fee, and their transactions are stored in lower case. -/
def PaidByFew (s : DevnetState) (weight : Nat → Except String Nat) (amount : UInt64)
    (address : Bytes32) : Prop :=
  ∃ n ≤ 1024, Covered s.baseFeeRateQ32 weight amount ((spendableOutputs s address).take n) ∧
    ∀ u ∈ (spendableOutputs s address).take n, u.txid.IsLower

/-- A payment the wallet builds on a checked Devnet state is valid in the next block exactly
when few enough outputs, which the block finds by the text of their transaction, pay for it. -/
theorem wallet_payments_validate [Crypto] {s : DevnetState} (hnetwork : s.networkId = devnetNetworkId)
    (hcheck : checkState s = .ok ()) :
    (∀ fromLicense toLicense amount sk p, ∀ sender ∈ s.licenses[fromLicense]?,
      createSendTransactionWithSigner s fromLicense toLicense amount sk = .ok p →
        ((∃ result, validateAndApplyMempool { s with mempool := [p] } s.utxos (nextMineableEpoch s)
            (s.height + 1) [] = .ok result) ↔
          PaidByFew s (estimateSendWeight · 2) amount sender.paymentAddressId)) ∧
    ∀ payer count p pendingOp ids price, ∀ payerLicense ∈ s.licenses[payer]?,
      createNativeLicensePurchase s payer count = .ok (p, pendingOp, ids, price) →
        ∃ op, pendingOp.decoded = .ok op ∧
          ((∃ result, validateAndApplyMempool { s with mempool := [p] } s.utxos
              (nextMineableEpoch s) (s.height + 1) [op] = .ok result) ↔
            PaidByFew s (estimateLicensePurchaseWeight · true) (purchaseAmount s count)
              payerLicense.paymentAddressId) := by
  have hutxos := (checkState_eq_ok.mp hcheck).outpoints_nodup
  constructor
  · intro fromLicense toLicense amount sk p sender hsender hsend
    simp only [createSendTransactionWithSigner, ok_rules] at hsend
    rcases hsend with ⟨_, hamount, sender', hsender', receiver, -, _, -, hbuild⟩
    cases hsender'.symm.trans hsender
    rcases buildPayment_eq_ok hbuild with ⟨selected, change, hbuilt⟩
    have hpayment : ValidOutput ⟨amount, outputPubkeyHash, Bytes.b32 receiver.paymentAddressId⟩ :=
      ⟨hamount, Or.inl rfl, Bytes.length_be _ _⟩
    rw [hbuilt.validates_iff hutxos hpayment (by simp)]
    exact hbuilt.length_le_iff weighsPayments_send.1
  · intro payer count p pendingOp ids price payerLicense hpayer hpurchase
    simp only [createNativeLicensePurchase, ok_rules, Prod.mk.injEq,
      UInt64.checkedMul_eq_some] at hpurchase
    rcases hpurchase with ⟨_, hcount, payerLicense', hpayer', _, -, _, -, paymentAmount, hamount,
      entries, -, manifestHash, -, p', hbuild, op, hoperation, rfl, rfl, -, -⟩
    cases hpayer'.symm.trans hpayer
    rw [← hnetwork] at hbuild
    rcases buildPayment_eq_ok hbuild with ⟨selected, change, hbuilt⟩
    rcases operation_of_purchase hoperation with ⟨htype, hdecoded⟩
    rcases purchaseAmount_of_checked (by omega) (by omega) hamount with ⟨hexact, hpositive⟩
    have hpayment : ValidOutput ⟨paymentAmount, outputLicensePayment, Bytes.b32 manifestHash⟩ :=
      ⟨hpositive, Or.inr rfl, Bytes.length_be _ _⟩
    have hordinary : ∀ o ∈ [op], o.opType ≠ opDividendClaim := by
      simp only [List.mem_singleton, forall_eq, htype]
      decide
    refine ⟨op, hdecoded, ?_⟩
    rw [hbuilt.validates_iff hutxos hpayment hordinary, ← hexact]
    exact hbuilt.length_le_iff weighsPayments_purchase.1

/-! ## A crowded wallet -/

/-- The outputs of a checked state may be replaced by others of the same treasury: with the root
computed anew the state is a checked one. -/
theorem CheckedState.exists_with_utxos [Crypto] (h : CheckedState s) {utxos : List UtxoState}
    {issued : UInt64} (htreasury : utxos.filter Dividends.isTreasuryControlled =
      s.utxos.filter Dividends.isTreasuryControlled)
    (hkeys : (utxos.map fun u => utxoKey u.txid.bytes u.outputIndex).Nodup)
    (hsupply : utxoSupply utxos = issued.toNat) :
    ∃ root, CheckedState { s with
      utxos := utxos, totalIssuedStrikes := issued, currentStateRoot := root } := by
  have hprotocol : ∀ count bitmap, computeProtocolStateRoot s utxos count bitmap =
      computeProtocolStateRoot s s.utxos count bitmap := by
    intro count bitmap
    rw [computeProtocolStateRoot, computeProtocolStateRoot, Dividends.treasuryState,
      Dividends.treasuryState, Dividends.treasuryTotal, Dividends.treasuryTotal, htreasury]
  have hutxos : ∃ utxoRoot, computeUtxoRoot utxos = .ok utxoRoot := by
    simp only [computeUtxoRoot, ok_rules, insertEntries_eq_ok, List.map_map]
    exact ⟨_, _, ⟨hkeys, by simp, rfl⟩, rfl⟩
  have hroot : ∃ root, computeStateRoot s
      { s.rootInputs with utxos := utxos, totalIssued := issued } = .ok root := by
    have hold := h.root
    simp only [computeStateRoot, ok_rules] at hold ⊢
    rcases hutxos with ⟨utxoRoot, hutxos⟩
    rcases hold with ⟨_, -, licenseRoot, hlicense, paymentRoot, hpayment, protocolRoot, hold, -⟩
    exact ⟨_, utxoRoot, hutxos, licenseRoot, hlicense, paymentRoot, hpayment, protocolRoot,
      (hprotocol _ _).trans hold, rfl⟩
  rcases hroot with ⟨root, hroot⟩
  have hdividends : Dividends.checkState { s with
      utxos := utxos, totalIssuedStrikes := issued, currentStateRoot := root } = .ok () := by
    have hold := h.dividends
    rw [Dividends.checkState, Dividends.treasuryTotal] at hold ⊢
    rw [htreasury]
    exact hold
  exact ⟨root, h.identity, h.words, h.tip, h.height, h.registry, h.entries, h.nativePayments,
    h.bitcoinPayments, h.bitcoinHeaders, h.punishment, hdividends, h.presence, h.historical, hsupply,
    hroot⟩

theorem isPrefixOf_append_false {p a : Bytes} (rest : Bytes)
    (h : (p.take a.length).isPrefixOf a = false) : p.isPrefixOf (a ++ rest) = false := by
  rw [Bool.eq_false_iff, ne_eq, List.isPrefixOf_iff_prefix] at h ⊢
  intro hprefix
  have htake := hprefix.take a.length
  rw [List.take_left] at htake
  exact h htake

theorem isPrefixOf_append_true {p a : Bytes} (rest : Bytes) (h : p.isPrefixOf a = true) :
    p.isPrefixOf (a ++ rest) = true := by
  rw [List.isPrefixOf_iff_prefix] at h ⊢
  exact h.trans (List.prefix_append a rest)

section Evaluation

attribute [local instance] devnetCrypto

theorem sha256_utxoKey (rest : Bytes) : Crypto.sha256 (Domains.utxoKey ++ rest) =
    BitVec.ofNat 256 (Bytes.beNat (Domains.utxoKey ++ rest) % (2 ^ 256 - 189)) := by
  have hother : ∀ p ∈ [Domains.genesisId, Domains.txLeaf, Domains.stateRoot, Domains.blockId],
      p.isPrefixOf (Domains.utxoKey ++ rest) = false := by
    have hdiffer : ∀ p ∈ [Domains.genesisId, Domains.txLeaf, Domains.stateRoot, Domains.blockId],
        (p.take Domains.utxoKey.length).isPrefixOf Domains.utxoKey = false := by decide
    exact fun p hp => isPrefixOf_append_false rest (hdiffer p hp)
  have htagged : (Bytes.ascii "MUTINY").isPrefixOf (Domains.utxoKey ++ rest) = true :=
    isPrefixOf_append_true rest (by decide)
  simp only [List.forall_mem_cons] at hother
  rcases hother with ⟨hgenesis, hleaf, hstate, hblock, -⟩
  change (if _ then _ else if _ then _ else if _ then _ else if _ then _ else if _ then _ else _) = _
  rw [hgenesis, hleaf, hstate, hblock, htagged]
  rfl

theorem toNat_utxoKey (txid : Bytes32) (index : UInt16) : (utxoKey txid index).toNat =
    (Bytes.beNat Domains.utxoKey * 256 ^ 34 + (txid.toNat * 65536 + index.toNat)) % (2 ^ 256 - 189) := by
  rw [utxoKey, sha256Domain, sha256_utxoKey]
  simp only [Bytes.beNat_append, List.flatten_cons, List.flatten_nil, List.append_nil, List.length_append, Bytes.length_be]
  rw [Bytes.beNat_be_of_lt txid.isLt, Bytes.beNat_be_of_lt (v := index.toNat) index.toNat_lt]
  rw [BitVec.toNat_ofNat]
  exact Nat.mod_eq_of_lt (lt_trans (Nat.mod_lt _ (by decide)) (by decide))

/-- One of many outputs of ten coins. -/
def crowdedCoin (address : Bytes32) (i : Nat) : UtxoState where
  txid := .encode (BitVec.ofNat 256 i)
  outputIndex := 0
  amountStrikes := 1000000000
  outputType := outputPubkeyHash
  payload := Bytes.b32 address
  creationEpoch := 0
  creationHeight := 0
  coinbase := false

def crowdedCoins (address : Bytes32) : List UtxoState := (List.range 1025).map (crowdedCoin address)

def crowdedState (l : LicenseState) (root : Bytes32) : DevnetState :=
  { walletState l with
    utxos := crowdedCoins l.paymentAddressId
    totalIssuedStrikes := 1025000000000
    currentStateRoot := root }

theorem nodup_keys_crowdedCoins (address : Bytes32) :
    ((crowdedCoins address).map fun u => utxoKey u.txid.bytes u.outputIndex).Nodup := by
  have hword : ∀ i < 1025, (BitVec.ofNat 256 i).toNat = i := by
    intro i hi
    rw [BitVec.toNat_ofNat, Nat.mod_eq_of_lt (lt_trans hi (by decide))]
  rw [crowdedCoins, List.map_map]
  refine List.nodup_range.map_on ?_
  intro i hi j hj h
  rw [List.mem_range] at hi hj
  have hmod := congrArg BitVec.toNat h
  simp only [Function.comp_apply, toNat_utxoKey, crowdedCoin, HexText.bytes_encode, hword i hi,
    hword j hj, UInt16.toNat_zero, Nat.add_zero] at hmod
  exact eq_of_add_mod_eq (n := 1025) (by decide) (by decide) hi hj hmod

theorem supply_of_amounts {coins : List UtxoState}
    (h : ∀ u ∈ coins, u.amountStrikes = 1000000000) :
    utxoSupply coins = 1000000000 * coins.length := by
  have hmap : coins.map (fun u => u.amountStrikes.toNat) = coins.map fun _ => 1000000000 :=
    List.map_congr_left fun u hu => by rw [h u hu]; rfl
  rw [utxoSupply, hmap]
  simp [Nat.mul_comm]

theorem treasury_crowdedCoins (address : Bytes32) :
    (crowdedCoins address).filter Dividends.isTreasuryControlled = [] := by
  rw [List.filter_eq_nil_iff]
  intro u hu
  rcases List.mem_map.mp hu with ⟨i, -, rfl⟩
  simp [Dividends.isTreasuryControlled, crowdedCoin, outputPubkeyHash, outputTreasury,
    outputLicensePayment]

theorem perm_crowdedCoins (l : LicenseState) (root : Bytes32) :
    (spendableOutputs (crowdedState l root) l.paymentAddressId).Perm
      (crowdedCoins l.paymentAddressId) := by
  have hpool : mempoolReservedInputs (crowdedState l root) = [] := rfl
  have hall : ∀ u ∈ crowdedCoins l.paymentAddressId,
      isSpendable (crowdedState l root) l.paymentAddressId u = true := by
    intro u hu
    rcases List.mem_map.mp hu with ⟨i, -, rfl⟩
    simp [isSpendable, crowdedCoin, decode32, reject_of_not, Bytes.length_be, Bytes.toB32_b32,
      Except.toOption, UtxoState.spendableAtHeight, hpool]
  have hperm := perm_spendableOutputs (crowdedState l root) l.paymentAddressId
  have hutxos : (crowdedState l root).utxos = crowdedCoins l.paymentAddressId := by
    simp only [crowdedState]
  rwa [hutxos, List.filter_eq_self.mpr hall] at hperm

/-- The outputs of the crowded wallet, in whatever order. -/
theorem supply_crowded (l : LicenseState) (root : Bytes32) (n : Nat) :
    utxoSupply ((spendableOutputs (crowdedState l root) l.paymentAddressId).take n) =
      1000000000 * min n 1025 := by
  have hperm := perm_crowdedCoins l root
  rw [supply_of_amounts, List.length_take, hperm.length_eq, crowdedCoins, List.length_map,
    List.length_range]
  intro u hu
  rcases List.mem_map.mp (hperm.mem_iff.mp (List.mem_of_mem_take hu)) with ⟨i, -, rfl⟩
  rfl

theorem requiredBaseFee_crowded :
    requiredBaseFee 4294967296 (paymentWeight 1025) = .ok 135409 := by
  decide +kernel

/-- The address of a licence with 1025 outputs of ten coins: the wallet builds a payment that
needs all of them, and no block can contain it. -/
theorem crowded_wallet_payment_fails :
    ∃ (s : DevnetState) (amount : UInt64) (sk : Bytes32) (p : PendingTxState),
      s.networkId = devnetNetworkId ∧ checkState s = .ok () ∧
      createSendTransactionWithSigner s 0 0 amount sk = .ok p ∧
      ∀ result, validateAndApplyMempool { s with mempool := [p] } s.utxos (nextMineableEpoch s)
        (s.height + 1) [] ≠ .ok result := by
  have hcheck : okAnd (okOr bootstrapLicenseStates.head? "no licence") (fun l =>
      decide (checkState (walletState l) = .ok () ∧
        addressId l.ownerPublicKey = l.paymentAddressId)) = true := by
    decide +kernel
  rcases exists_of_okAnd hcheck with ⟨l, -, htest⟩
  rw [decide_eq_true_iff] at htest
  rcases htest with ⟨hwallet, haddress⟩
  have hsupply : utxoSupply (crowdedCoins l.paymentAddressId) = (1025000000000 : UInt64).toNat := by
    rw [supply_of_amounts (by simp [crowdedCoins, crowdedCoin]), crowdedCoins, List.length_map,
      List.length_range]
    rfl
  rcases (checkState_eq_ok.mp hwallet).exists_with_utxos
    (treasury_crowdedCoins l.paymentAddressId) (nodup_keys_crowdedCoins l.paymentAddressId)
    hsupply with ⟨root, hchecked⟩
  have hlength : (spendableOutputs (crowdedState l root) l.paymentAddressId).length = 1025 := by
    rw [(perm_crowdedCoins l root).length_eq, crowdedCoins, List.length_map, List.length_range]
  have htotal := supply_crowded l root 1025
  rw [← hlength, List.take_length] at htotal
  have hcovered : Covered (crowdedState l root).baseFeeRateQ32 (estimateSendWeight · 2)
      1024000000001 (spendableOutputs (crowdedState l root) l.paymentAddressId) := by
    refine ⟨135409, (estimatedFee_eq_ok weighsPayments_send).mpr ⟨by omega, ?_⟩, ?_⟩
    · rw [hlength]
      exact requiredBaseFee_crowded
    · rw [htotal, hlength]
      decide
  have hpaid : ∃ p, buildPayment (crowdedState l root) devnetNetworkId (estimateSendWeight · 2)
      sendTexts l.paymentAddressId
      ⟨1024000000001, outputPubkeyHash, Bytes.b32 l.paymentAddressId⟩ (.ok l.ownerPublicKey) 0 0 =
        .ok p := by
    refine buildPayment_of_covered weighsPayments_send (Bytes.length_be _ _) ?_ ?_ hcovered
    · exact signsFor_of_owner haddress rfl fun _ => beq_self_eq_true _
    · rw [htotal, hlength]
      decide
  rcases hpaid with ⟨p, hp⟩
  refine ⟨crowdedState l root, 1024000000001, l.ownerPublicKey, p, rfl,
    checkState_eq_ok.mpr hchecked, ?_, ?_⟩
  · have hlicense : (crowdedState l root).licenses[0]? = some l := rfl
    have hkey : ¬Crypto.publicKey l.ownerPublicKey ≠ l.ownerPublicKey := fun h => h rfl
    rw [createSendTransactionWithSigner, reject_of_not (by decide), hlicense]
    simp only [okOr, ok_bind, reject_of_not hkey]
    exact hp
  · intro result hresult
    rcases buildPayment_eq_ok hp with ⟨selected, change, hbuilt⟩
    have hutxos : ((crowdedState l root).utxos.map UtxoState.outpoint).Nodup := hchecked.outpoints_nodup
    have hpositive : (1024000000001 : UInt64) ≠ 0 := by decide
    have hcount := (hbuilt.validates_iff hutxos ⟨hpositive, Or.inl rfl, Bytes.length_be _ _⟩
      (by simp)).mp ⟨result, hresult⟩
    rcases (hbuilt.length_le_iff weighsPayments_send.1).mp hcount with
      ⟨n, hn, ⟨fee, -, henough⟩, -⟩
    rw [supply_crowded] at henough
    have hamount : 1024000000001 + fee.toNat ≤ 1000000000 * min n 1025 := henough
    omega

/-- A wallet with three outputs: a payment spends two of them, and it is valid. -/
theorem wallet_payment_validates_pair :
    ∃ (s : DevnetState) (sk : Bytes32) (p : PendingTxState),
      s.networkId = devnetNetworkId ∧ checkState s = .ok () ∧
      createSendTransactionWithSigner s 0 0 1500000 sk = .ok p ∧ p.inputs.length = 2 ∧
      ∃ result, validateAndApplyMempool { s with mempool := [p] } s.utxos (nextMineableEpoch s)
        (s.height + 1) [] = .ok result := by
  have hcheck : okAnd (okOr bootstrapLicenseStates.head? "no licence") (fun l =>
      decide (checkState (walletState l) = .ok ()) &&
        okAnd (createSendTransactionWithSigner (walletState l) 0 0 1500000 l.ownerPublicKey)
          (fun p => p.inputs.length == 2) &&
        decide (estimatedFee (walletState l).baseFeeRateQ32 (estimateSendWeight · 2)
            ((spendableOutputs (walletState l) l.paymentAddressId).take 2).length = .ok 372 ∧
          1500372 ≤ utxoSupply
            ((spendableOutputs (walletState l) l.paymentAddressId).take 2) ∧
          ∀ u ∈ (spendableOutputs (walletState l) l.paymentAddressId).take 2,
            u.txid.IsLower)) = true := by
    decide +kernel
  rcases exists_of_okAnd hcheck with ⟨l, -, htest⟩
  simp only [Bool.and_eq_true, decide_eq_true_iff] at htest
  rcases htest with ⟨⟨hchecked, hbuilt⟩, hfee, henough, hlower⟩
  rcases exists_of_okAnd hbuilt with ⟨p, hp, hinputs⟩
  exact ⟨walletState l, l.ownerPublicKey, p, rfl, hchecked, hp, by simpa using hinputs,
    ((wallet_payments_validate rfl hchecked).1 0 0 1500000 l.ownerPublicKey p l rfl hp).mpr
      ⟨2, by decide, ⟨372, hfee, henough⟩, hlower⟩⟩

end Evaluation

end Mutiny
