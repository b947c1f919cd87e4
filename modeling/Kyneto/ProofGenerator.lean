import Kyneto.Database
import Kyneto.Evm.Abi
import Kyneto.Evm.Checksum
import Kyneto.ProofVerifier.Effect

/-!
# The proof generator

Every hour a pass of `generateChallenges` selects providers with active shards that have proved nothing for 24
hours, and asks the verifier for a challenge for each of them. A challenge is open for 26 hours, and neither the
pass nor the contract looks for one that is open (`createPoStChallenge_twice`).

Still there is never more than one (`openOnce_run`), for a reason of its own: the generator calls
`createPoStChallenge(uint256,address,uint256[])`, and the contract has a function of that name with four parameters.
Every transaction of the generator is refused (`refused_run`).

Passes overlap, and are cut at their waits. A transaction is mined at any time after it was sent, or never; anything can
fail. Others call the verifier as they like, but create no challenges.
-/

namespace Kyneto

open Evm

/-! ## The generator -/

def ProofGenerator.CHALLENGE_SECTORS : Nat := 10

/-- The function that the generator calls. -/
def createSignature : String := "createPoStChallenge(uint256,address,uint256[])"

/-- The functions of the contract that are no views. -/
def verifierSignatures : List String :=
  ["setPoRepDifficulty(uint256)", "submitPoRep(uint256,bytes32,bytes32,bytes)",
    "createPoStChallenge(uint256,address,uint256[],bytes32)", "submitPoSt(uint256,bytes32[],bytes32[][],bytes32)",
    "checkMissedPoSt(uint256)", "markNonceUsed(address,uint256)", "transferOwnership(address)", "renounceOwnership()"]

/-- How ethers encodes the arguments of the generator, how the contract decodes arguments, the account of the
generator, and the chain. -/
structure GeneratorEnv where
  encodeArgs : String → String → List Nat → Option Bytes
  decodeArgs : String → Bytes → Option ProofVerifier.Call
  wallet : Address
  wallet_ne_zero : wallet ≠ 0
  chainid : Nat

/-- The functions of the contract. -/
def GeneratorEnv.functions (env : GeneratorEnv) : List (External ProofVerifier.Call) :=
  verifierSignatures.map fun signature => ⟨signature, env.decodeArgs signature⟩

structure ChallengeTx where
  data : Bytes
  mined : Bool := false
  deriving DecidableEq, Repr

/-- What a pass has before it: the deals and providers that it goes through, and the transaction that it waits for. -/
inductive ChallengePass where
  | selecting
  | creating (todo : List (String × String)) (waiting : Option Nat)
  deriving DecidableEq, Repr

/-- The column `last_proof_at` of `providers` stands for itself. -/
structure GeneratorSystem where
  db : Database
  lastProofAt : String → Option Nat
  verifier : ProofVerifier
  txs : List ChallengeTx := []
  passes : List ChallengePass := []
  submitted : List Address := []     -- the events `PoStSubmitted` that the listener has not handled

inductive GeneratorEvent where
  | starts
  | selects (i : Nat) (rows : List (String × String))
  | sends (i : Nat) (leafIndices : List Nat)
  | waitReturns (i : Nat)
  | fails (i : Nat)
  | mines (txId : Nat) (lastBlockhash : Bytes32)
  | calls (a : ProofVerifier.Action)                    -- somebody else, a provider for instance
  | hears (k : Nat) (address : String)                  -- `handlePoStSubmitted` of the listener
  | othersWrite (db : Database)

/-- An event, with its time in seconds. -/
structure GeneratorAction where
  now : Nat
  event : GeneratorEvent

/-- The join of the query, without its limit. -/
def needChallenge (now : Nat) (db : Database) (lastProofAt : String → Option Nat) : List (String × String) :=
  ((db.shards.filter fun s => s.active = true ∧
    (∃ p ∈ db.providers, p.address = s.providerAddress) ∧
      (lastProofAt s.providerAddress).all (fun last => last + 24 * 60 * 60 < now) = true).map
    fun s => (s.dealId, s.providerAddress)).dedup

/-- Ten draws of `randomInt(0, 100)`. -/
def LeafDraws (leafIndices : List Nat) : Prop :=
  leafIndices.length = ProofGenerator.CHALLENGE_SECTORS ∧ ∀ i ∈ leafIndices, i < 100

instance (leafIndices : List Nat) : Decidable (LeafDraws leafIndices) := inferInstanceAs (Decidable (_ ∧ _))

def ProofVerifier.Call.creates : ProofVerifier.Call → Bool
  | .createPoStChallenge _ _ _ _ => true
  | _ => false

def ProofLog.submitter : ProofLog → Option Address
  | .PoStSubmitted _ provider => some provider
  | _ => none

namespace GeneratorSystem

variable (env : GeneratorEnv) (s : GeneratorSystem)

def setPass (i : Nat) (w : ChallengePass) : GeneratorSystem := { s with passes := s.passes.set i w }

def disabled : Tx (GeneratorSystem × List ProofLog) := .error (.reason "event not enabled")

/-- The verifier takes a call. -/
def takes (a : ProofVerifier.Action) : Tx (GeneratorSystem × List ProofLog) := do
  let (verifier, logs) ← s.verifier.step a
  return ({ s with verifier, submitted := s.submitted ++ logs.filterMap ProofLog.submitter }, logs)

/-- A transaction of the generator is mined. If it reverts, nothing else happens. -/
def mineTx (now txId : Nat) (lastBlockhash : Bytes32) (data : Bytes) : GeneratorSystem × List ProofLog :=
  let s := { s with txs := s.txs.set txId { data, mined := true } }
  match dispatch env.functions data with
  | none => (s, [])
  | some call =>
    match s.takes ⟨⟨⟨env.wallet, now⟩, env.chainid, lastBlockhash⟩, call, env.wallet_ne_zero⟩ with
    | .ok r => r
    | .error _ => (s, [])

/-- `createChallenge` sends its transaction; an argument that cannot be encoded is an error. -/
def sendTx (i : Nat) (dealId provider : String) (todo : List (String × String)) (leafIndices : List Nat) :
    GeneratorSystem :=
  match env.encodeArgs dealId provider leafIndices with
  | none => s.setPass i (.creating todo none)
  | some args =>
    { s with
      txs := s.txs ++ [{ data := calldata createSignature args }]
      passes := s.passes.set i (.creating todo (some s.txs.length)) }

def step (a : GeneratorAction) : Tx (GeneratorSystem × List ProofLog) :=
  match a.event with
  | .starts => .ok ({ s with passes := s.passes ++ [.selecting] }, [])
  | .selects i rows =>
    match s.passes[i]? with
    | some .selecting =>
      -- `LIMIT 50`, in no order
      let due := needChallenge a.now s.db s.lastProofAt
      if rows.Nodup ∧ rows ⊆ due ∧ rows.length = min 50 due.length then .ok (s.setPass i (.creating rows none), [])
      else disabled
    | _ => disabled
  | .sends i leafIndices =>
    match s.passes[i]? with
    | some (.creating ((dealId, provider) :: todo) none) =>
      if LeafDraws leafIndices then .ok (s.sendTx env i dealId provider todo leafIndices, []) else disabled
    | _ => disabled
  | .waitReturns i =>
    match s.passes[i]? with
    | some (.creating todo (some txId)) =>
      if s.txs[txId]?.any ChallengeTx.mined then .ok (s.setPass i (.creating todo none), []) else disabled
    | _ => disabled
  | .fails i =>
    match s.passes[i]? with
    | some .selecting | some (.creating [] none) => .ok (s.setPass i (.creating [] none), [])
    | some (.creating (_ :: todo) none) | some (.creating todo (some _)) => .ok (s.setPass i (.creating todo none), [])
    | none => disabled
  | .mines txId lastBlockhash =>
    match s.txs[txId]? with
    | some tx => if tx.mined = true then disabled else .ok (s.mineTx env a.now txId lastBlockhash tx.data)
    | none => disabled
  | .calls act => if act.time = a.now ∧ act.call.creates = false then s.takes act else disabled
  | .hears k address =>
    -- `UPDATE providers SET last_proof_at = NOW() WHERE address = $1`
    if k < s.submitted.length then
      .ok ({ s with
        lastProofAt := Function.update s.lastProofAt address (some a.now)
        submitted := s.submitted.eraseIdx k }, [])
    else disabled
  | .othersWrite db => .ok ({ s with db }, [])

end GeneratorSystem

/-! ## Open challenges -/

namespace ProofVerifier

/-- The challenge waits for an answer. -/
def OpenAt (v : ProofVerifier) (now id : Nat) : Prop :=
  id < v.challengeCount ∧ (v.postChallenges id).submitted = false ∧ now ≤ (v.postChallenges id).deadline

instance (v : ProofVerifier) (now : Nat) : DecidablePred (v.OpenAt now) := fun _ => inferInstanceAs (Decidable (_ ∧ _))

/-- **At most one open challenge** for a deal and a provider. -/
def OpenOnce (v : ProofVerifier) (now : Nat) : Prop :=
  ∀ i j, v.OpenAt now i → v.OpenAt now j → (v.postChallenges i).dealId = (v.postChallenges j).dealId →
    (v.postChallenges i).provider = (v.postChallenges j).provider → i = j

variable {v v' : ProofVerifier} {a : Action} {logs : List ProofLog} {now later : Nat}

theorem openOnce_deploy (msg : Msg) : (deploy msg).OpenOnce now := fun i _ hi => absurd hi.1 (Nat.not_lt_zero i)

theorem OpenAt.earlier {id : Nat} (h : v.OpenAt later id) (hle : now ≤ later) : v.OpenAt now id :=
  ⟨h.1, h.2.1, hle.trans h.2.2⟩

theorem OpenOnce.wait (h : v.OpenOnce now) (hle : now ≤ later) : v.OpenOnce later :=
  fun i j hi hj => h i j (hi.earlier hle) (hj.earlier hle)

/-- A call that creates no challenge leaves every challenge with its deal, its provider and its deadline, and opens
none. -/
theorem openAt_of_step (h : v.step a = .ok (v', logs)) (hcreates : a.call.creates = false) (now id : Nat) :
    (v'.postChallenges id).dealId = (v.postChallenges id).dealId ∧
      (v'.postChallenges id).provider = (v.postChallenges id).provider ∧ (v'.OpenAt now id → v.OpenAt now id) := by
  obtain ⟨msg, call, hzero⟩ := a
  cases step_effect h with
  | admin isAdmin same =>
    unfold OpenAt
    rw [same.postChallenges, same.challengeCount]
    exact ⟨rfl, rfl, fun hopen => hopen⟩
  | proved _ _ _ hpost hcount =>
    unfold OpenAt
    rw [hpost, hcount]
    exact ⟨rfl, rfl, fun hopen => hopen⟩
  | challenged => cases hcreates
  | @answered challengeId _ _ _ _ _ _ hpost hcount =>
    unfold OpenAt
    rw [hpost, hcount]
    rcases eq_or_ne id challengeId with rfl | hne
    · rw [Function.update_self]
      exact ⟨rfl, rfl, fun hopen => nomatch hopen.2.1⟩
    · rw [Function.update_of_ne hne]
      exact ⟨rfl, rfl, fun hopen => hopen⟩
  | @missed challengeId _ _ hpost hcount =>
    unfold OpenAt
    rw [hpost, hcount]
    rcases eq_or_ne id challengeId with rfl | hne
    · rw [Function.update_self]
      exact ⟨rfl, rfl, fun hopen => hopen⟩
    · rw [Function.update_of_ne hne]
      exact ⟨rfl, rfl, fun hopen => hopen⟩

/-- Then no other challenge is opened beside one that is open. -/
theorem OpenOnce.step (h : v.OpenOnce now) (hstep : v.step a = .ok (v', logs)) (hcreates : a.call.creates = false) :
    v'.OpenOnce now := by
  intro i j hi hj hdeal hprovider
  obtain ⟨hdeal_i, hprovider_i, hopen_i⟩ := openAt_of_step hstep hcreates now i
  obtain ⟨hdeal_j, hprovider_j, hopen_j⟩ := openAt_of_step hstep hcreates now j
  rw [hdeal_i, hdeal_j] at hdeal
  rw [hprovider_i, hprovider_j] at hprovider
  exact h i j (hopen_i hi) (hopen_j hj) hdeal hprovider

/-- The contract does not look: challenged twice within 26 hours, a provider has two open challenges for a deal. -/
theorem createPoStChallenge_twice {v'' : ProofVerifier} {msg msg' : BlockMsg} {dealId : Nat} {provider : Address}
    {leaves leaves' : List Nat} {commitment commitment' : Bytes32} {more : List ProofLog}
    (h : v.createPoStChallenge msg dealId provider leaves commitment = .ok (v', logs))
    (h' : v'.createPoStChallenge msg' dealId provider leaves' commitment' = .ok (v'', more))
    (hopen : msg'.timestamp ≤ msg.timestamp + POST_INTERVAL + GRACE_PERIOD) : ¬ v''.OpenOnce msg'.timestamp := by
  simp only [createPoStChallenge, bind_eq_ok, checkedAdd_eq_ok, pure_eq_ok, Prod.mk.injEq] at h h'
  obtain ⟨_, -, _, -, _, ⟨-, rfl⟩, _, ⟨-, rfl⟩, _, ⟨-, rfl⟩, rfl, -⟩ := h
  obtain ⟨_, -, _, -, _, ⟨-, rfl⟩, _, ⟨-, rfl⟩, _, ⟨-, rfl⟩, rfl, -⟩ := h'
  intro honce
  have hne : v.challengeCount ≠ v.challengeCount + 1 := by omega
  have hsame := honce v.challengeCount (v.challengeCount + 1)
  simp [OpenAt, setChallenge] at hsame
  omega

end ProofVerifier

/-! ## The transactions of the generator -/

section Runs

variable {env : GeneratorEnv} {s s' : GeneratorSystem} {a : GeneratorAction} {logs : List ProofLog}

/-- The contract has no function with the selector of the generator's. -/
theorem createSignature_unknown : ∀ signature ∈ verifierSignatures, selector signature ≠ selector createSignature := by
  decide +kernel

theorem dispatch_create (env : GeneratorEnv) (args : Bytes) :
    dispatch env.functions (calldata createSignature args) = none := by
  apply dispatch_unknown
  intro f hf
  obtain ⟨signature, hsignature, rfl⟩ := List.mem_map.mp hf
  exact createSignature_unknown signature hsignature

/-- Every transaction of the generator is a call of its function. -/
def Calls (s : GeneratorSystem) : Prop := ∀ tx ∈ s.txs, ∃ args, tx.data = calldata createSignature args

theorem mineTx_create (now txId : Nat) (lastBlockhash : Bytes32) (args : Bytes) :
    s.mineTx env now txId lastBlockhash (calldata createSignature args) =
      ({ s with txs := s.txs.set txId { data := calldata createSignature args, mined := true } }, []) := by
  unfold GeneratorSystem.mineTx
  rw [dispatch_create]

/-- What a step does to the verifier: nothing, or a call of somebody else that creates no challenge. -/
inductive VerifierStep (s s' : GeneratorSystem) (a : GeneratorAction) (logs : List ProofLog) : Prop
  | same (verifier : s'.verifier = s.verifier) (quiet : logs = [])
  | called {act : ProofVerifier.Action} (event : a.event = .calls act) (creates : act.call.creates = false)
      (done : s.verifier.step act = .ok (s'.verifier, logs))

/-- Sending a transaction adds a call that the wallet may make. -/
theorem sendTx_calls {i : Nat} {dealId provider : String} {todo : List (String × String)} {leafIndices : List Nat}
    (h : Calls s) :
    Calls (s.sendTx env i dealId provider todo leafIndices) ∧
      (s.sendTx env i dealId provider todo leafIndices).verifier = s.verifier := by
  unfold GeneratorSystem.sendTx
  split
  · exact ⟨h, rfl⟩
  · next args _ =>
    refine ⟨fun tx htx => ?_, rfl⟩
    rcases List.mem_append.mp htx with htx | htx
    · exact h tx htx
    · exact ⟨args, by rw [List.mem_singleton.mp htx]⟩

/-- Each step of the generator makes at most one call of the verifier, and that one is of the form it always
has. -/
theorem generator_step (h : Calls s) (hstep : s.step env a = .ok (s', logs)) :
    Calls s' ∧ VerifierStep s s' a logs := by
  obtain ⟨now, event⟩ := a
  cases event with
  -- starting, selecting, waiting and failing call nothing
  | starts =>
    cases hstep
    exact ⟨h, .same rfl rfl⟩
  | selects i rows =>
    simp only [GeneratorSystem.step] at hstep
    split at hstep
    · split at hstep
      · cases hstep
        exact ⟨h, .same rfl rfl⟩
      · cases hstep
    · cases hstep
  | sends i leafIndices =>
    simp only [GeneratorSystem.step] at hstep
    split at hstep
    · split at hstep
      · cases hstep
        -- a transaction is on its way, but not executed yet
        exact ⟨(sendTx_calls h).1, .same (sendTx_calls h).2 rfl⟩
      · cases hstep
    · cases hstep
  | waitReturns i =>
    simp only [GeneratorSystem.step] at hstep
    split at hstep
    · split at hstep
      · cases hstep
        exact ⟨h, .same rfl rfl⟩
      · cases hstep
    · cases hstep
  | fails i =>
    simp only [GeneratorSystem.step] at hstep
    split at hstep
    all_goals
      cases hstep
    all_goals
      exact ⟨h, .same rfl rfl⟩
  | mines txId lastBlockhash =>
    simp only [GeneratorSystem.step] at hstep
    split at hstep
    · next tx htx =>
      split at hstep
      · cases hstep
      -- what is on its way are calls of `createPoStChallenge` with three arguments, which the contract does not
      -- have
      · obtain ⟨args, hdata⟩ := h tx (List.mem_of_getElem? htx)
        rw [hdata, mineTx_create] at hstep
        cases hstep
        refine ⟨fun tx' htx' => ?_, .same rfl rfl⟩
        rcases List.mem_or_eq_of_mem_set htx' with htx' | rfl
        · exact h tx' htx'
        · exact ⟨args, rfl⟩
    · cases hstep
  | calls act =>
    simp only [GeneratorSystem.step] at hstep
    split at hstep
    · next hact =>
      simp only [GeneratorSystem.takes, bind_eq_ok, pure_eq_ok, Prod.exists, Prod.mk.injEq] at hstep
      obtain ⟨verifier, more, hdone, rfl, rfl⟩ := hstep
      -- somebody else calls the verifier
      exact ⟨h, .called rfl hact.2 hdone⟩
    · cases hstep
  | hears k address =>
    simp only [GeneratorSystem.step] at hstep
    split at hstep
    · cases hstep
      exact ⟨h, .same rfl rfl⟩
    · cases hstep
  | othersWrite db =>
    cases hstep
    exact ⟨h, .same rfl rfl⟩

/-- Nothing that the generator does changes the verifier. -/
theorem refused_run (env : GeneratorEnv) (db : Database) (lastProofAt : String → Option Nat) (verifier : ProofVerifier)
    (as : List GeneratorAction) :
    ∀ e ∈ history (GeneratorSystem.step env) { db, lastProofAt, verifier } as,
      (∀ act, e.act.event ≠ .calls act) → e.post.verifier = e.pre.verifier := by
  refine forall_history (I := Calls) ?_ ?_ as (meets_true _ as)
  · exact fun tx htx => nomatch htx
  · intro s a s' logs hcalls _ hstep
    obtain ⟨hcalls', heffect⟩ := generator_step hcalls hstep
    refine ⟨hcalls', fun hother => ?_⟩
    cases heffect with
    | same verifier _ => exact verifier
    | called event _ _ => exact absurd event (hother _)

/-- **At most one open challenge**, in every state that a run of the passes and of the providers reaches from a verifier
where it is so, and at every time from then on. It is so in a new verifier (`openOnce_deploy`). -/
theorem openOnce_run (env : GeneratorEnv) (db : Database) (lastProofAt : String → Option Nat) (verifier : ProofVerifier)
    (start : Nat) (hstart : verifier.OpenOnce start) (as : List GeneratorAction) (now : Nat) (hnow : start ≤ now) :
    (run (GeneratorSystem.step env) { db, lastProofAt, verifier } as).verifier.OpenOnce now := by
  have hrun := @run_induction _ _ _ (GeneratorSystem.step env) (fun s _ => Calls s ∧ s.verifier.OpenOnce now)
    (fun _ _ => True) { db, lastProofAt, verifier } ⟨nofun, hstart.wait hnow⟩ ?_ as (meets_true _ as)
  · exact hrun.2
  · intro s hist a s' logs ⟨hcalls, honce⟩ _ hstep
    obtain ⟨hcalls', heffect⟩ := generator_step hcalls hstep
    refine ⟨hcalls', ?_⟩
    cases heffect with
    | same verifier _ => exact verifier ▸ honce
    | called _ creates done => exact honce.step done creates

end Runs

/-! ### Two passes -/

namespace SmallGenerator

open SmallVerifier

def provider : String := hexAddress 2

/-- One deal, whose provider has proved nothing yet. -/
def db : Database where
  providers := [{ address := provider }]
  shards := [{ dealId := "0", providerAddress := provider, shardIndex := 0, shardCid := "QmShard" }]

def env : GeneratorEnv where
  encodeArgs dealId address leafIndices :=
    if dealId = "0" ∧ address = provider then
      some (packUint 0 ++ packUint 2 ++ packUint 96 ++ packUint leafIndices.length ++ leafIndices.flatMap packUint)
    else none
  decodeArgs signature _ := if signature = "renounceOwnership()" then some .renounceOwnership else none
  wallet := 1
  wallet_ne_zero := firstAccount_ne_zero
  chainid := 31337

/-- The owner has challenged the provider by hand. -/
def verifier : ProofVerifier :=
  run ProofVerifier.step (ProofVerifier.deploy ⟨1, 0⟩) [challenge (List.range CHALLENGE_SECTORS) 1000]

theorem challengeCount_verifier : verifier.challengeCount = 1 := by decide +kernel

/-- Two passes, an hour apart. -/
def twoPasses : List GeneratorAction :=
  [.starts, .selects 0 [("0", provider)], .sends 0 (List.range CHALLENGE_SECTORS), .mines 0 0, .waitReturns 0].map
      (⟨5000, ·⟩) ++
    [.starts, .selects 1 [("0", provider)], .sends 1 (List.range CHALLENGE_SECTORS), .mines 1 0, .waitReturns 1].map
      (⟨8600, ·⟩)

/-- Both transactions were mined, and the challenge of the owner is still the only one. -/
theorem twoPasses_openOnce :
    (run (GeneratorSystem.step env) { db, lastProofAt := fun _ => none, verifier } twoPasses).txs.map
        ChallengeTx.mined = [true, true] ∧
      (run (GeneratorSystem.step env) { db, lastProofAt := fun _ => none, verifier } twoPasses).verifier.OpenAt 8600 0 ∧
      (run (GeneratorSystem.step env) { db, lastProofAt := fun _ => none, verifier } twoPasses).verifier.OpenOnce
        8600 := by
  have hrun :
      (run (GeneratorSystem.step env) { db, lastProofAt := fun _ => none, verifier } twoPasses).txs.map
          ChallengeTx.mined = [true, true] ∧
        (run (GeneratorSystem.step env) { db, lastProofAt := fun _ => none, verifier } twoPasses).verifier.OpenAt
          8600 0 := by
    decide +kernel
  refine ⟨hrun.1, hrun.2, ?_⟩
  apply openOnce_run env db (fun _ => none) verifier 5000 ?_ twoPasses 8600 (by decide)
  intro i j hi hj _ _
  have hi_lt := hi.1
  have hj_lt := hj.1
  rw [challengeCount_verifier] at hi_lt hj_lt
  omega

end SmallGenerator

end Kyneto
