import Kyneto.Evm.Checksum
import Kyneto.ProviderDaemon

/-!
# Polling for challenges

Every 15 seconds the daemon asks for the number of the newest block, queries the `PoStChallengeCreated` events since the
block it has last come to, and answers those for its own wallet, one after the other. Only then does it write down how
far it has come. No poll waits for the one before, so a slow one can write an older block over a newer one.

Nothing is skipped all the same (`noneSkipped_run`): a poll starts behind a block up to which everything has been
handled, and it writes the end of its range when it has handled all of it.
-/

namespace Kyneto

open Evm

namespace ProviderDaemon

/-! ## The chain -/

/-- A `PoStChallengeCreated` event, and where on the chain it is. -/
structure ChallengeEvent where
  blockNumber : Nat
  index : Nat
  challengeId : Nat
  dealId : Nat
  provider : Address
  deriving DecidableEq, Repr

/-- The events of the verifier, block by block. -/
abbrev Chain := List (List ProofLog)

/-- The challenges created in a block. -/
def challengesIn (chain : Chain) (blockNumber : Nat) : List ChallengeEvent :=
  (chain[blockNumber]?.getD []).zipIdx.filterMap fun (log, index) =>
    match log with
    | .PoStChallengeCreated challengeId dealId provider => some { blockNumber, index, challengeId, dealId, provider }
    | _ => none

/-- `queryFilter` for `PoStChallengeCreated()` -/
def queryFilter (chain : Chain) (fromBlock toBlock : Nat) : List ChallengeEvent :=
  (List.range' fromBlock (toBlock + 1 - fromBlock)).flatMap (challengesIn chain)

/-- `provider.toLowerCase() === this.wallet.address.toLowerCase()` -/
def ChallengeEvent.isFor (e : ChallengeEvent) (wallet : Address) : Bool :=
  (toChecksum e.provider).toLower = (toChecksum wallet).toLower

/-! ## The daemon -/

/-- What a call of `pollPoStChallenges` is waiting for. -/
inductive Poll where
  | getBlockNumber
  | queryFilter (fromBlock toBlock : Nat)
  | handler (toBlock : Nat) (events : List ChallengeEvent)   -- the events after the one that is being handled
  deriving DecidableEq, Repr

/-- The chain, and the fields of the daemon that polling is about. `startBlock` is the block at which it started. -/
structure Polling where
  chain : Chain := []
  startBlock : Option Nat := none
  lastPolledBlock : Nat := 0
  polls : List Poll := []
  deriving DecidableEq, Repr

inductive PollingEvent where
  | mines (block : List ProofLog)
  | starts (block : Nat)
  | polls
  | blockNumber (i currentBlock : Nat)
  | queryReturns (i : Nat)
  | handlerReturns (i : Nat)
  | fails (i : Nat)   -- a call throws, and the `catch` ends the poll

namespace Polling

/-- The loop of the `i`-th poll, up to the next event that it handles. The step reports the event. -/
def advance (wallet : Address) (s : Polling) (i toBlock : Nat) (events : List ChallengeEvent) :
    Polling × List ChallengeEvent :=
  match events.dropWhile fun e => !e.isFor wallet with
  | event :: rest => ({ s with polls := s.polls.set i (.handler toBlock rest) }, [event])
  | [] => ({ s with lastPolledBlock := toBlock, polls := s.polls.eraseIdx i }, [])

def disabled : Tx (Polling × List ChallengeEvent) := .error (.reason "event not enabled")

/-- A node knows the blocks that there are, and answers a query with all events of the range. What
`handlePoStChallenge` does with an event does not matter to the poll: it throws nothing. -/
def step (wallet : Address) (s : Polling) : PollingEvent → Tx (Polling × List ChallengeEvent)
  | .mines block => .ok ({ s with chain := s.chain ++ [block] }, [])
  | .starts block => do
    require (s.startBlock = none ∧ block < s.chain.length) "event not enabled"
    return ({ s with startBlock := some block, lastPolledBlock := block, polls := s.polls ++ [.getBlockNumber] }, [])
  | .polls => do
    require (s.startBlock ≠ none) "event not enabled"
    return ({ s with polls := s.polls ++ [.getBlockNumber] }, [])
  | .blockNumber i currentBlock => do
    require (s.polls[i]? = some .getBlockNumber ∧ currentBlock < s.chain.length) "event not enabled"
    if currentBlock ≤ s.lastPolledBlock then return ({ s with polls := s.polls.eraseIdx i }, [])
    else return ({ s with polls := s.polls.set i (.queryFilter (s.lastPolledBlock + 1) currentBlock) }, [])
  | .queryReturns i =>
    match s.polls[i]? with
    | some (.queryFilter fromBlock toBlock) =>
      .ok (s.advance wallet i toBlock (ProviderDaemon.queryFilter s.chain fromBlock toBlock))
    | _ => disabled
  | .handlerReturns i =>
    match s.polls[i]? with
    | some (.handler toBlock events) => .ok (s.advance wallet i toBlock events)
    | _ => disabled
  | .fails i => .ok ({ s with polls := s.polls.eraseIdx i }, [])

end Polling

/-! ## What has been handled -/

abbrev PollingEntry := Entry Polling PollingEvent ChallengeEvent

/-- The events that have been passed to `handlePoStChallenge`. -/
def handled (hist : List PollingEntry) : List ChallengeEvent := hist.flatMap Entry.logs

/-- No challenge of the wallet is missing between the block at which the daemon started and the one it has come to. -/
def NoneSkipped (wallet : Address) (s : Polling) (hist : List PollingEntry) : Prop :=
  ∀ start, s.startBlock = some start → ∀ b, start < b → b ≤ s.lastPolledBlock →
    ∀ e ∈ challengesIn s.chain b, e.provider = wallet → e ∈ handled hist

theorem handled_snoc (hist : List PollingEntry) (e : PollingEntry) :
    handled (hist ++ [e]) = handled hist ++ e.logs := by
  simp [handled]

/-- Addresses are compared as strings in lower case, which tells them apart. -/
theorem isFor_iff {e : ChallengeEvent} {wallet : Address} : e.isFor wallet = true ↔ e.provider = wallet := by
  unfold ChallengeEvent.isFor
  rw [decide_eq_true_iff, toLower_toChecksum, toLower_toChecksum]
  constructor
  · exact hexAddress_inj
  · rintro rfl
    rfl

/-- A block that is there stays as it is. -/
theorem challengesIn_append {chain : Chain} {b : Nat} (hb : b < chain.length) (block : List ProofLog) :
    challengesIn (chain ++ [block]) b = challengesIn chain b := by
  unfold challengesIn
  rw [List.getElem?_append_left hb]

theorem mem_queryFilter {chain : Chain} {fromBlock toBlock b : Nat} {e : ChallengeEvent} (hfrom : fromBlock ≤ b)
    (hto : b ≤ toBlock) (he : e ∈ challengesIn chain b) : e ∈ queryFilter chain fromBlock toBlock := by
  unfold queryFilter
  rw [List.mem_flatMap]
  refine ⟨b, ?_, he⟩
  rw [List.mem_range'_1]
  omega

/-! ## Ranges of blocks -/

section Accounted

variable {wallet : Address} {chain : Chain} {start n : Nat} {done done' pending : List ChallengeEvent}

/-- The challenges of the wallet after `start` and up to `n` are done, or among those pending. -/
def Accounted (wallet : Address) (chain : Chain) (start : Nat) (done pending : List ChallengeEvent) (n : Nat) : Prop :=
  ∀ b, start < b → b ≤ n → ∀ e ∈ challengesIn chain b, e.provider = wallet → e ∈ done ∨ e ∈ pending

theorem accounted_start : Accounted wallet chain start done pending start := by
  intro b hlt hle
  omega

theorem Accounted.mono (h : Accounted wallet chain start done pending n) (hdone : done ⊆ done') :
    Accounted wallet chain start done' pending n := by
  intro b hlt hle e he hown
  rcases h b hlt hle e he hown with hmem | hmem
  · exact Or.inl (hdone hmem)
  · exact Or.inr hmem

theorem Accounted.mines (h : Accounted wallet chain start done pending n) (hn : n < chain.length)
    (block : List ProofLog) : Accounted wallet (chain ++ [block]) start done pending n := by
  intro b hlt hle e he hown
  rw [challengesIn_append (by omega)] at he
  exact h b hlt hle e he hown

/-- The query adds its range. -/
theorem Accounted.queryFilter (h : Accounted wallet chain start done [] n) (toBlock : Nat) :
    Accounted wallet chain start done (queryFilter chain (n + 1) toBlock) toBlock := by
  intro b hlt hle e he hown
  rcases Nat.lt_or_ge n b with hnew | hold
  · exact Or.inr (mem_queryFilter hnew hle he)
  · rcases h b hlt hold e he hown with hmem | hmem
    · exact Or.inl hmem
    · cases hmem

/-- The loop leaves out events of others only. -/
theorem mem_dropWhile_isFor {e : ChallengeEvent} {events : List ChallengeEvent} (he : e ∈ events)
    (hown : e.provider = wallet) : e ∈ events.dropWhile fun e => !e.isFor wallet := by
  rw [← List.takeWhile_append_dropWhile (p := fun e : ChallengeEvent => !e.isFor wallet) (l := events)] at he
  rcases List.mem_append.mp he with hskipped | hmem
  · have hother := List.mem_takeWhile_imp hskipped
    rw [isFor_iff.mpr hown] at hother
    cases hother
  · exact hmem

theorem Accounted.dropWhile (h : Accounted wallet chain start done pending n) :
    Accounted wallet chain start done (pending.dropWhile fun e => !e.isFor wallet) n := by
  intro b hlt hle e he hown
  rcases h b hlt hle e he hown with hmem | hmem
  · exact Or.inl hmem
  · exact Or.inr (mem_dropWhile_isFor hmem hown)

theorem Accounted.passes {event : ChallengeEvent} (h : Accounted wallet chain start done (event :: pending) n) :
    Accounted wallet chain start (done ++ [event]) pending n := by
  intro b hlt hle e he hown
  rcases h b hlt hle e he hown with hmem | hmem
  · exact Or.inl (List.mem_append_left _ hmem)
  · rcases List.mem_cons.mp hmem with rfl | hmem
    · exact Or.inl (List.mem_append_right _ (List.mem_singleton_self e))
    · exact Or.inr hmem

end Accounted

/-! ## The invariant -/

section Invariant

variable {wallet : Address} {s s' : Polling} {poll : Poll} {chain : Chain} {start : Nat}
  {done done' logs : List ChallengeEvent}

/-- What a poll relies on: the blocks before its range are done, and those of its range once it has handled the events
that it has read. -/
def Poll.Sound (wallet : Address) (chain : Chain) (start : Nat) (done : List ChallengeEvent) : Poll → Prop
  | .getBlockNumber => True
  | .queryFilter fromBlock toBlock =>
    toBlock < chain.length ∧ ∃ n < toBlock, fromBlock = n + 1 ∧ Accounted wallet chain start done [] n
  | .handler toBlock events => toBlock < chain.length ∧ Accounted wallet chain start done events toBlock

structure Polling.Sound (wallet : Address) (s : Polling) (start : Nat) (done : List ChallengeEvent) : Prop where
  known : s.lastPolledBlock < s.chain.length
  cursor : Accounted wallet s.chain start done [] s.lastPolledBlock
  polls : ∀ poll ∈ s.polls, poll.Sound wallet s.chain start done

theorem Poll.Sound.mono (h : poll.Sound wallet chain start done) (hdone : done ⊆ done') :
    poll.Sound wallet chain start done' := by
  cases poll with
  | getBlockNumber => trivial
  | queryFilter fromBlock toBlock =>
    obtain ⟨hknown, n, hn, hfrom, haccounted⟩ := h
    exact ⟨hknown, n, hn, hfrom, haccounted.mono hdone⟩
  | handler toBlock events => exact ⟨h.1, h.2.mono hdone⟩

theorem Poll.Sound.mines (h : poll.Sound wallet chain start done) (block : List ProofLog) :
    poll.Sound wallet (chain ++ [block]) start done := by
  have hlonger : chain.length < (chain ++ [block]).length := by simp
  cases poll with
  | getBlockNumber => trivial
  | queryFilter fromBlock toBlock =>
    obtain ⟨hknown, n, hn, hfrom, haccounted⟩ := h
    exact ⟨by omega, n, hn, hfrom, haccounted.mines (by omega) block⟩
  | handler toBlock events => exact ⟨by have := h.1; omega, h.2.mines h.1 block⟩

namespace Polling.Sound

theorem mines (h : s.Sound wallet start done) (block : List ProofLog) :
    Polling.Sound wallet { s with chain := s.chain ++ [block] } start done where
  known := by
    have hknown := h.known
    simp only [List.length_append, List.length_singleton]
    omega
  cursor := h.cursor.mines h.known block
  polls poll hpoll := (h.polls poll hpoll).mines block

/-- The polls change, and nothing else. -/
theorem withPolls (h : s.Sound wallet start done) {polls : List Poll}
    (hpolls : ∀ poll ∈ polls, poll ∈ s.polls ∨ poll.Sound wallet s.chain start done) :
    Polling.Sound wallet { s with polls := polls } start done where
  known := h.known
  cursor := h.cursor
  polls poll hpoll := by
    rcases hpolls poll hpoll with hold | hnew
    · exact h.polls poll hold
    · exact hnew

theorem erase (h : s.Sound wallet start done) (i : Nat) :
    Polling.Sound wallet { s with polls := s.polls.eraseIdx i } start done :=
  h.withPolls fun _ hpoll => Or.inl (List.mem_of_mem_eraseIdx hpoll)

theorem set (h : s.Sound wallet start done) (i : Nat) (hpoll : poll.Sound wallet s.chain start done) :
    Polling.Sound wallet { s with polls := s.polls.set i poll } start done := by
  apply h.withPolls
  intro q hq
  rcases List.mem_or_eq_of_mem_set hq with hq | rfl
  · exact Or.inl hq
  · exact Or.inr hpoll

theorem asks (h : s.Sound wallet start done) :
    Polling.Sound wallet { s with polls := s.polls ++ [.getBlockNumber] } start done := by
  apply h.withPolls
  intro q hq
  rcases List.mem_append.mp hq with hq | hq
  · exact Or.inl hq
  · obtain rfl := List.mem_singleton.mp hq
    exact Or.inr trivial

theorem mono (h : s.Sound wallet start done) (hdone : done ⊆ done') : s.Sound wallet start done' where
  known := h.known
  cursor := h.cursor.mono hdone
  polls poll hpoll := (h.polls poll hpoll).mono hdone

/-- A poll goes on with events that cover its range, to the next one or to its end. -/
theorem advance (h : s.Sound wallet start done) {i toBlock : Nat} {events : List ChallengeEvent}
    (hknown : toBlock < s.chain.length) (hevents : Accounted wallet s.chain start done events toBlock) :
    (s.advance wallet i toBlock events).1.Sound wallet start (done ++ (s.advance wallet i toBlock events).2) := by
  have hown := hevents.dropWhile
  unfold Polling.advance
  split
  · next event rest heq =>
    rw [heq] at hown
    apply (h.mono (List.subset_append_left done [event])).set
    exact ⟨hknown, hown.passes⟩
  · next heq =>
    rw [heq] at hown
    rw [List.append_nil]
    exact ⟨hknown, hown, (h.erase i).polls⟩

end Polling.Sound

/-- Before the start there are no polls, and after it all is well. -/
structure Polling.Valid (wallet : Address) (s : Polling) (done : List ChallengeEvent) : Prop where
  before : s.startBlock = none → s.polls = []
  after : ∀ start, s.startBlock = some start → s.Sound wallet start done

theorem advance_startBlock (i toBlock : Nat) (events : List ChallengeEvent) :
    (s.advance wallet i toBlock events).1.startBlock = s.startBlock := by
  unfold Polling.advance
  split <;> rfl

/-- A poll that goes on has been started. -/
theorem Polling.Valid.advance (h : s.Valid wallet done) {i toBlock : Nat} {events : List ChallengeEvent}
    (hpoll : s.polls[i]? = some poll)
    (hevents : ∀ start, s.Sound wallet start done →
      toBlock < s.chain.length ∧ Accounted wallet s.chain start done events toBlock) :
    (s.advance wallet i toBlock events).1.Valid wallet (done ++ (s.advance wallet i toBlock events).2) where
  before hstart := by
    rw [advance_startBlock] at hstart
    rw [h.before hstart] at hpoll
    cases hpoll
  after start hstart := by
    rw [advance_startBlock] at hstart
    have hsound := h.after start hstart
    obtain ⟨hknown, haccounted⟩ := hevents start hsound
    exact hsound.advance hknown haccounted

/-- What the polls have in hand stays sound at every step, whichever of them moves. -/
theorem valid_step {a : PollingEvent} (h : s.Valid wallet done) (hstep : s.step wallet a = .ok (s', logs)) :
    s'.Valid wallet (done ++ logs) := by
  cases a with
  -- a block more changes nothing that is in hand
  | mines block =>
    obtain ⟨rfl, rfl⟩ := Prod.mk.inj (Except.ok.inj hstep)
    rw [List.append_nil]
    exact ⟨h.before, fun start hstart => (h.after start hstart).mines block⟩
  | starts block =>
    simp only [Polling.step, bind_eq_ok, require_eq_ok, pure_eq_ok, Prod.mk.injEq] at hstep
    obtain ⟨_, ⟨hstart, hblock⟩, rfl, rfl⟩ := hstep
    constructor
    -- the first poll starts where the daemon has started
    · intro hnone
      cases hnone
    · intro start hsome
      obtain rfl := Option.some.inj hsome
      refine ⟨hblock, accounted_start, ?_⟩
      intro poll hpoll
      dsimp only at hpoll
      rw [h.before hstart, List.nil_append, List.mem_singleton] at hpoll
      subst hpoll
      trivial
  | polls =>
    simp only [Polling.step, bind_eq_ok, require_eq_ok, pure_eq_ok, Prod.mk.injEq] at hstep
    obtain ⟨_, hstart, rfl, rfl⟩ := hstep
    rw [List.append_nil]
    exact ⟨fun hnone => absurd hnone hstart, fun start hsome => (h.after start hsome).asks⟩
  | blockNumber i currentBlock =>
    simp only [Polling.step, bind_eq_ok, require_eq_ok] at hstep
    obtain ⟨_, ⟨hpoll, hblock⟩, hstep⟩ := hstep
    have hbefore : s.startBlock ≠ none := by
      intro hnone
      rw [h.before hnone] at hpoll
      cases hpoll
    -- the poll has seen no new block, or asks for the blocks up to the newest
    split at hstep
    · next hold =>
      obtain ⟨rfl, rfl⟩ := Prod.mk.inj (Except.ok.inj hstep)
      rw [List.append_nil]
      exact ⟨fun hnone => absurd hnone hbefore, fun start hsome => (h.after start hsome).erase i⟩
    · next hnew =>
      obtain ⟨rfl, rfl⟩ := Prod.mk.inj (Except.ok.inj hstep)
      rw [List.append_nil]
      refine ⟨fun hnone => absurd hnone hbefore, fun start hsome => ?_⟩
      have hsound := h.after start hsome
      apply hsound.set
      -- it asks from the block behind the cursor, so that no block is left out
      exact ⟨hblock, s.lastPolledBlock, by omega, rfl, hsound.cursor⟩
  | queryReturns i =>
    simp only [Polling.step] at hstep
    split at hstep
    · next fromBlock toBlock hpoll =>
      obtain ⟨rfl, rfl⟩ := Prod.mk.inj (Except.ok.inj hstep)
      apply h.advance hpoll
      -- the events are those of the blocks that were asked for
      intro start hsound
      obtain ⟨hknown, n, -, rfl, haccounted⟩ := hsound.polls _ (List.mem_of_getElem? hpoll)
      exact ⟨hknown, haccounted.queryFilter toBlock⟩
    · cases hstep
  | handlerReturns i =>
    simp only [Polling.step] at hstep
    split at hstep
    · next toBlock events hpoll =>
      obtain ⟨rfl, rfl⟩ := Prod.mk.inj (Except.ok.inj hstep)
      apply h.advance hpoll
      -- the cursor moves on when the handlers are through
      exact fun start hsound => hsound.polls _ (List.mem_of_getElem? hpoll)
    · cases hstep
  | fails i =>
    obtain ⟨rfl, rfl⟩ := Prod.mk.inj (Except.ok.inj hstep)
    -- a poll that fails leaves the cursor, and the next one asks again
    rw [List.append_nil]
    constructor
    · intro hnone
      show s.polls.eraseIdx i = []
      rw [h.before hnone, List.eraseIdx_nil]
    · exact fun start hsome => (h.after start hsome).erase i

end Invariant

/-- **No challenge is skipped**, whatever polls overlap, however long each takes and wherever one fails. -/
theorem noneSkipped_run (wallet : Address) (chain : Chain) (as : List PollingEvent) :
    NoneSkipped wallet (run (Polling.step wallet) { chain } as) (history (Polling.step wallet) { chain } as) := by
  have hvalid : (run (Polling.step wallet) { chain } as).Valid wallet
      (handled (history (Polling.step wallet) { chain } as)) := by
    refine run_induction (P := fun (s : Polling) hist => s.Valid wallet (handled hist)) ?_ ?_ as (meets_true _ as)
    · exact ⟨fun _ => rfl, nofun⟩
    · intro s hist a s' logs h _ hstep
      rw [handled_snoc]
      exact valid_step h hstep
  intro start hstart b hlt hle e he hown
  rcases (hvalid.after start hstart).cursor b hlt hle e he hown with hmem | hmem
  · exact hmem
  · cases hmem

/-- Two polls overlap, and the one that ends last writes the older block. -/
example :
    let overlap : List PollingEvent := [.mines [], .starts 0, .mines [], .blockNumber 0 1, .mines [], .polls,
      .blockNumber 1 2, .queryReturns 1]
    (run (Polling.step 7) {} overlap).lastPolledBlock = 2 ∧
      (run (Polling.step 7) {} (overlap ++ [.queryReturns 0])).lastPolledBlock = 1 := by
  decide

end ProviderDaemon

end Kyneto
