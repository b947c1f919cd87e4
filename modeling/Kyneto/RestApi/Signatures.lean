import Kyneto.RestApi.Keys

/-!
# What the signature of a key says

A wallet signs `store-key-<id>`, and the request has the key beside the signature. The message names the deal and says
nothing about the key. Only the client of a deal can have made the signature with which its key is written
(`keyChange_signed`); but who has seen such a request can write another key with the same signature, without a wallet.

Signatures are not forged: the account that a signature recovers to has signed the message before (`Unforged`).
-/

namespace Kyneto

open Evm Sql

/-! ## Wallets -/

/-- An account has signed a message. -/
structure Signed where
  account : Address
  message : String
  deriving DecidableEq, Repr

/-- Wallets sign; the API and the listener write to the table of deals. -/
inductive SigningEvent where
  | signs (account : Address) (message : String) (signature : BodyValue)
  | writes (event : KeyEvent)

/-- The database, and what the wallets have signed. -/
structure SignedStore where
  store : KeyStore
  signed : List Signed := []

def SignedStore.step (env : KeyEnv) (s : SignedStore) : SigningEvent → Tx (SignedStore × List Unit)
  | .signs account message signature => do
    require (env.verifyMessage message signature = some account) "not a signature of the account"
    return ({ s with signed := s.signed ++ [⟨account, message⟩] }, [])
  | .writes event => do
    let (store, logs) ← s.store.step env event
    return ({ s with store }, logs)

/-- The signature of a request recovers only to an account that has signed the message. Who sends the request is not
said: it may be somebody who has seen the signature. -/
def Unforged (env : KeyEnv) (s : SignedStore) : SigningEvent → Prop
  | .writes (.storeKey request) => ∀ account,
    env.verifyMessage (keyMessage request.dealId) request.signature = some account →
      ⟨account, keyMessage request.dealId⟩ ∈ s.signed
  | _ => True

/-- The account is the client of the deal, however its address is spelled. -/
def ClientOf (s : KeyStore) (dealId : String) (account : Address) : Prop :=
  ∃ r ∈ s.db.deals, r.dealId = dealId ∧ r.clientAddress.toLower = hexAddress account

/-- Whenever a request changes the key of a deal, the client has signed a message from which the key can be read. -/
def KeyBound (env : KeyEnv) (decode : (dealId message : String) → KeyColumns) (s : SignedStore)
    (as : List SigningEvent) : Prop :=
  ∀ e ∈ history (SignedStore.step env) s as, ∀ request, e.act = .writes (.storeKey request) →
    ∀ dealId, e.post.store.keys dealId ≠ e.pre.store.keys dealId →
      ∃ x ∈ e.pre.signed, ClientOf e.pre.store dealId x.account ∧
        decode dealId x.message = e.post.store.keys dealId

/-- Another key, with the address and the signature of a request. -/
structure Replays (request other : KeyRequest) : Prop where
  dealId : other.dealId = request.dealId
  clientAddress : other.clientAddress = request.clientAddress
  signature : other.signature = request.signature
  fields : other.encryptedKey.truthy = true ∧ other.encryptionIv.truthy = true ∧ other.encryptionAuthTag.truthy = true
  parameters : ∀ s ∈ [other.encryptedKey.prepared, other.encryptionIv.prepared, other.encryptionAuthTag.prepared],
    '\x00' ∉ s.toList

/-! ## What a request writes -/

section Requests

variable {env : KeyEnv} {request other : KeyRequest} {s : KeyStore}

/-- A refused request writes nothing. -/
theorem storeKey_of_refused (h : ¬ KeyAccepted env request) : (storeKey env request s).1 = s := by
  have hanswer : (storeKey env request s).2 ≠ .stored request.dealId := fun heq => h (accepted_of_stored heq)
  unfold storeKey at hanswer ⊢
  split
  · rfl
  · next hauthorization =>
    rw [if_neg hauthorization] at hanswer
    split
    · rfl
    · next hfields =>
      rw [if_neg hfields] at hanswer
      split
      · rfl
      · next hsigned =>
        rw [if_neg hsigned] at hanswer
        split
        · next hok =>
          rw [hok] at hanswer
          exact absurd rfl hanswer
        · rfl

theorem stored_keys (hown : OwnDeal s request) : (s.stored request).keys request.dealId = request.columns := by
  rw [KeyStore.stored, if_pos hown]
  exact Function.update_self ..

/-- A key changes only by a request that is accepted, for the deal that it names. -/
theorem accepted_of_changes {dealId : String} (h : (storeKey env request s).1.keys dealId ≠ s.keys dealId) :
    KeyAccepted env request ∧ OwnDeal s request ∧ dealId = request.dealId := by
  by_cases haccepted : KeyAccepted env request
  · rw [storeKey_of_accepted haccepted] at h
    by_cases hown : OwnDeal s request
    · refine ⟨haccepted, hown, ?_⟩
      by_contra hne
      apply h
      show (s.stored request).keys dealId = s.keys dealId
      rw [KeyStore.stored, if_pos hown]
      exact Function.update_of_ne hne _ _
    · rw [KeyStore.stored, if_neg hown] at h
      exact absurd rfl h
  · rw [storeKey_of_refused haccepted] at h
    exact absurd rfl h

/-- The signature of an accepted request recovers to the client of the deal. -/
theorem client_of_accepted (h : KeyAccepted env request) (hown : OwnDeal s request) : ∃ account,
    env.verifyMessage (keyMessage request.dealId) request.signature = some account ∧
      ClientOf s request.dealId account := by
  obtain ⟨account, text, hrecovers, haddress, htext⟩ := verifySignature_eq_true.mp h.signed
  obtain ⟨r, hr, hid, hclient⟩ := hown
  refine ⟨account, hrecovers, r, hr, hid, ?_⟩
  rw [hclient, haddress]
  show text.toLower.toLower = hexAddress account
  rw [htext, toLower_hexAddress]

/-- The signature says nothing about the key. -/
theorem accepted_of_replays (h : KeyAccepted env request) (hreplays : Replays request other) :
    KeyAccepted env other where
  authorization := by
    rw [hreplays.clientAddress, hreplays.signature]
    exact h.authorization
  fields := hreplays.fields
  signed := by
    rw [hreplays.dealId, hreplays.signature, hreplays.clientAddress]
    exact h.signed
  columns := h.columns
  parameters := by
    have hkey := hreplays.parameters
    have hrest := h.parameters
    simp only [List.forall_mem_cons] at hkey hrest ⊢
    obtain ⟨hkey, hiv, htag, -⟩ := hkey
    obtain ⟨-, -, -, hid, hclient, hnone⟩ := hrest
    rw [hreplays.dealId, hreplays.clientAddress]
    exact ⟨hkey, hiv, htag, hid, hclient, hnone⟩

/-- Whoever sends it, the other key is written. -/
theorem replay_stored (h : KeyAccepted env request) (hreplays : Replays request other) (hown : OwnDeal s request) :
    (storeKey env other s).2 = .stored request.dealId ∧
      (storeKey env other s).1.keys request.dealId = other.columns := by
  have hsame : OwnDeal s other := by
    unfold OwnDeal
    rw [hreplays.dealId, hreplays.clientAddress]
    exact hown
  rw [storeKey_of_accepted (accepted_of_replays h hreplays), ← hreplays.dealId]
  exact ⟨rfl, stored_keys hsame⟩

end Requests

/-! ## Runs -/

theorem SignedStore.step_storeKey {env : KeyEnv} {s s' : SignedStore} {request : KeyRequest} {logs : List Unit}
    (h : s.step env (.writes (.storeKey request)) = .ok (s', logs)) :
    s' = { s with store := (storeKey env request s.store).1 } :=
  (Prod.mk.inj (Except.ok.inj h)).1.symm

/-- The step that a request takes which is accepted, on the row of the signer. -/
theorem SignedStore.step_of_accepted {env : KeyEnv} {s : SignedStore} {request : KeyRequest}
    (h : KeyAccepted env request) (hown : OwnDeal s.store request) : s.step env (.writes (.storeKey request)) =
      .ok ({ s with store := { s.store with
        keys := Function.update s.store.keys request.dealId request.columns } }, []) := by
  show Except.ok (({ s with store := (storeKey env request s.store).1 } : SignedStore), ([] : List Unit)) = _
  rw [storeKey_of_accepted h, KeyStore.stored, if_pos hown]

/-- **Whose signature it is.** If a request changes the key of a deal, then it names the deal, the client of the deal
has signed `store-key-<id>`, and the key is what the request has. The signature does not fix it: any other key with the
same address and signature is written as well, as long as the row of the deal is there. -/
theorem keyChange_signed (env : KeyEnv) (s : KeyStore) (as : List SigningEvent)
    (h : Meets (SignedStore.step env) (Unforged env) { store := s } as) :
    ∀ e ∈ history (SignedStore.step env) { store := s } as, ∀ request, e.act = .writes (.storeKey request) →
      ∀ dealId, e.post.store.keys dealId ≠ e.pre.store.keys dealId →
        dealId = request.dealId ∧ e.post.store.keys dealId = request.columns ∧
          (∃ account, ClientOf e.pre.store dealId account ∧ ⟨account, keyMessage dealId⟩ ∈ e.pre.signed) ∧
          ∀ other, Replays request other → ∀ t, OwnDeal t request →
            (storeKey env other t).2 = .stored dealId ∧ (storeKey env other t).1.keys dealId = other.columns := by
  intro e he request hact dealId hchanges
  have hunforged := (meets_iff_history _ _).mp h e he
  have hok := history_ok he
  rw [hact] at hunforged hok
  have hpost := SignedStore.step_storeKey hok
  rw [hpost] at hchanges ⊢
  obtain ⟨haccepted, hown, rfl⟩ := accepted_of_changes hchanges
  obtain ⟨account, hrecovers, hclient⟩ := client_of_accepted haccepted hown
  refine ⟨rfl, ?_, ⟨account, hclient, hunforged account hrecovers⟩, ?_⟩
  · show (storeKey env request e.pre.store).1.keys request.dealId = request.columns
    rw [storeKey_of_accepted haccepted]
    exact stored_keys hown
  · intro other hreplays t ht
    exact replay_stored haccepted hreplays ht

namespace ReplayedKey

def env : KeyEnv := SmallKeys.env (.shipped fun _ => "")

/-- The account has a deal. -/
def store : KeyStore where
  db := { deals := [
    { dealId := "1", clientAddress := hexAddress 10, fileCid := "Qm", fileSizeGb := 1, totalCost := 100
      providerPayment := 95, protocolFee := 5 }] }

/-- It sends the key. -/
def request : KeyRequest := SmallKeys.request

/-- Somebody who has seen the request sends another one. -/
def replayed : KeyRequest := { request with encryptedKey := .text "0x00" }

def events : List SigningEvent :=
  [.signs 10 "store-key-1" (.text "0x5189"), .writes (.storeKey request), .writes (.storeKey replayed)]

/-- The account has signed. -/
def signed : SignedStore where
  store
  signed := [⟨10, "store-key-1"⟩]

theorem request_accepted : KeyAccepted env request := SmallKeys.request_accepted (by decide)

theorem replays : Replays request replayed where
  dealId := rfl
  clientAddress := rfl
  signature := rfl
  fields := by decide
  parameters := by decide +kernel

theorem ownDeal {s : KeyStore} (h : s.db = store.db) : OwnDeal s request := by
  refine ⟨store.db.deals.head (by decide), ?_, rfl, ?_⟩
  · rw [h]
    exact List.head_mem _
  · show hexAddress 10 = (hexAddress 10).toLower
    rw [toLower_hexAddress]

/-- The state after the first request. -/
def stored : SignedStore :=
  { signed with store := { store with keys := Function.update store.keys "1" request.columns } }

/-- The state after the second one. -/
def overwritten : SignedStore :=
  { signed with store := { store with keys := Function.update stored.store.keys "1" replayed.columns } }

theorem history_events : history (SignedStore.step env) { store } events =
    [⟨{ store }, .signs 10 "store-key-1" (.text "0x5189"), [], signed⟩,
      ⟨signed, .writes (.storeKey request), [], stored⟩, ⟨stored, .writes (.storeKey replayed), [], overwritten⟩] := by
  have hsigns : SignedStore.step env { store } (.signs 10 "store-key-1" (.text "0x5189")) = .ok (signed, []) := rfl
  have hrequest : SignedStore.step env signed (.writes (.storeKey request)) = .ok (stored, []) :=
    SignedStore.step_of_accepted request_accepted (ownDeal rfl)
  have hreplayed : SignedStore.step env stored (.writes (.storeKey replayed)) = .ok (overwritten, []) :=
    SignedStore.step_of_accepted (accepted_of_replays request_accepted replays) (ownDeal rfl)
  rw [events, history_cons_ok hsigns, history_cons_ok hrequest, history_cons_ok hreplayed]
  rfl

theorem stored_keys_one : stored.store.keys "1" = request.columns := by
  simp only [stored, Function.update_self]

theorem overwritten_keys_one : overwritten.store.keys "1" = replayed.columns := by
  simp only [overwritten, Function.update_self]

/-- The example is a run in which nobody forges a signature. -/
theorem meets_events : Meets (SignedStore.step env) (Unforged env) { store } events := by
  rw [meets_iff_history, history_events]
  intro e he
  have hsigned : ∀ account : Address, env.verifyMessage "store-key-1" (.text "0x5189") = some account →
      (⟨account, "store-key-1"⟩ : Signed) ∈ [(⟨10, "store-key-1"⟩ : Signed)] := by
    intro account haccount
    obtain rfl := Option.some.inj haccount
    exact List.mem_singleton_self _
  simp only [List.mem_cons, List.not_mem_nil, or_false] at he
  rcases he with rfl | rfl | rfl
  · trivial
  · exact hsigned
  · exact hsigned

/-- The first key is written, and then the other one, though the account has signed once. -/
theorem events_signed : Meets (SignedStore.step env) (Unforged env) { store } events ∧
    ∀ e ∈ history (SignedStore.step env) { store } events, ∀ request, e.act = .writes (.storeKey request) →
      ∀ dealId, e.post.store.keys dealId ≠ e.pre.store.keys dealId →
        dealId = request.dealId ∧ e.post.store.keys dealId = request.columns ∧
          (∃ account, ClientOf e.pre.store dealId account ∧ ⟨account, keyMessage dealId⟩ ∈ e.pre.signed) ∧
          ∀ other, Replays request other → ∀ t, OwnDeal t request →
            (storeKey env other t).2 = .stored dealId ∧ (storeKey env other t).1.keys dealId = other.columns :=
  ⟨meets_events, keyChange_signed env store events meets_events⟩

/-- Two different keys are written and one message is signed, so no way of reading keys from messages gives both. -/
theorem replayed_notBound : Meets (SignedStore.step env) (Unforged env) { store } events ∧
    ¬ ∃ decode, KeyBound env decode { store } events := by
  refine ⟨meets_events, ?_⟩
  rintro ⟨decode, hbound⟩
  unfold KeyBound at hbound
  rw [history_events] at hbound
  have hfirst := hbound ⟨signed, .writes (.storeKey request), [], stored⟩ (by simp) request rfl "1"
  have hsecond := hbound ⟨stored, .writes (.storeKey replayed), [], overwritten⟩ (by simp) replayed rfl "1"
  dsimp only at hfirst hsecond
  rw [stored_keys_one] at hfirst hsecond
  rw [overwritten_keys_one] at hsecond
  obtain ⟨x, hx, -, hread⟩ := hfirst (by decide +kernel)
  obtain ⟨y, hy, -, hreplayed⟩ := hsecond (by decide +kernel)
  obtain rfl := List.mem_singleton.mp hx
  obtain rfl := List.mem_singleton.mp hy
  exact absurd (hread.symm.trans hreplayed) (by decide +kernel)

end ReplayedKey

end Kyneto
