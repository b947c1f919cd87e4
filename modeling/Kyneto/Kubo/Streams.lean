import Kyneto.Evm.Run

/-!
# Forwarded streams

Of a forwarded stream, two goroutines copy one direction each, until an end or an error. Whoever comes to the end closes
both ends of the stream and deregisters it, and so does `ipfs p2p stream close` with the streams it has found before.
So a stream is deregistered several times, and in between others come and go.

The registry counts the streams of each peer and tags the peer for the connection manager. `streams_run` says that after
any run of fewer than 2 ^ 64 events the counts are right, exactly the peers with a stream are tagged, an open stream is
registered, and a closed one only as long as somebody is about to deregister it.
-/

namespace Kyneto

namespace Kubo

open Evm

variable {Peer : Type}

inductive Direction where
  | toLocal | toRemote
  deriving DecidableEq, Repr

/-- A stream with what is going on around it. -/
structure Stream where
  id : Nat
  isOpen : Bool := true                          -- both ends
  copying : Direction → Bool := fun _ => true
  picked : Nat := 0                              -- commands that have found it and will reset it
  closing : Nat := 0                             -- calls of `Close` and `Reset` that have not come to `Deregister`

/-- A stream in the map of the registry. -/
structure StreamInfo (Peer : Type) where
  id : Nat
  stream : Nat
  peer : Peer

structure StreamRegistry (Peer : Type) where
  allStreams : List Stream := []
  Streams : List (StreamInfo Peer) := []
  conns : Peer → Option Int := fun _ => none
  nextID : Nat := 0                              -- a `uint64`
  tagged : Peer → Bool := fun _ => false

inductive StreamEvent (Peer : Type) where
  | registers (peer : Peer)
  | copyEnds (k : Nat) (d : Direction)
  | picks (id : Option Nat)                      -- one stream, or all of them
  | resets (k : Nat)
  | deregisters (k : Nat)

namespace StreamRegistry

variable [DecidableEq Peer]

def Register (r : StreamRegistry Peer) (peer : Peer) : StreamRegistry Peer where
  allStreams := r.allStreams ++ [{ id := r.nextID }]
  Streams := r.Streams.filter (·.id ≠ r.nextID) ++ [⟨r.nextID, r.allStreams.length, peer⟩]
  conns := Function.update r.conns peer (some ((r.conns peer).getD 0 + 1))
  nextID := (r.nextID + 1) % 2 ^ 64
  tagged := Function.update r.tagged peer true

def Deregister (r : StreamRegistry Peer) (streamID : Nat) : StreamRegistry Peer :=
  match r.Streams.find? (·.id = streamID) with
  | none => r
  | some s =>
    let n := (r.conns s.peer).getD 0 - 1
    { r with
      Streams := r.Streams.filter (·.id ≠ streamID)
      conns := Function.update r.conns s.peer (if n < 1 then none else some n)
      tagged := if n < 1 then Function.update r.tagged s.peer false else r.tagged }

/-- One stream goes on. -/
def setStream (r : StreamRegistry Peer) (k : Nat) (s : Stream) : StreamRegistry Peer :=
  { r with allStreams := r.allStreams.set k s }

/-- The ends are closed, and `Deregister` is still to come. -/
def closeEnds (r : StreamRegistry Peer) (k : Nat) (s : Stream) : StreamRegistry Peer :=
  r.setStream k { s with isOpen := false, closing := s.closing + 1 }

/-- The streams that `ipfs p2p stream close` finds under the lock. -/
def picked (r : StreamRegistry Peer) (id : Option Nat) : List Nat :=
  (r.Streams.filter fun s => id = none ∨ id = some s.id).map StreamInfo.stream

def step (r : StreamRegistry Peer) : StreamEvent Peer → Tx (StreamRegistry Peer × List Unit)
  | .registers peer => .ok (r.Register peer, [])
  | .copyEnds k d =>
    match r.allStreams[k]? with
    | none => .error (.reason "no such stream")
    | some s => do
      require (s.copying d = true) "not copying"
      return (r.closeEnds k { s with copying := Function.update s.copying d false }, [])
  | .picks id =>
    let found := r.picked id
    .ok ({ r with allStreams := r.allStreams.mapIdx fun k s =>
      { s with picked := s.picked + found.count k } }, [])
  | .resets k =>
    match r.allStreams[k]? with
    | none => .error (.reason "no such stream")
    | some s => do
      require (0 < s.picked) "not picked"
      return (r.closeEnds k { s with picked := s.picked - 1 }, [])
  | .deregisters k =>
    match r.allStreams[k]? with
    | none => .error (.reason "no such stream")
    | some s => do
      require (0 < s.closing) "not closing"
      return ((r.setStream k { s with closing := s.closing - 1 }).Deregister s.id, [])

end StreamRegistry

/-! ## What every event keeps -/

def StreamRegistry.streamsOf [DecidableEq Peer] (r : StreamRegistry Peer) (peer : Peer) : Nat :=
  r.Streams.countP (·.peer = peer)

/-- The stream is in the map. -/
def StreamRegistry.Registered (r : StreamRegistry Peer) (k : Nat) : Prop := ∃ s ∈ r.Streams, s.stream = k

structure InOrder [DecidableEq Peer] (r : StreamRegistry Peer) : Prop where
  nextID : r.nextID = r.allStreams.length
  ids : ∀ (k : Nat) s, r.allStreams[k]? = some s → s.id = k
  infos : ∀ s ∈ r.Streams, s.id = s.stream ∧ s.stream < r.allStreams.length
  nodup : (r.Streams.map StreamInfo.id).Nodup
  conns : ∀ p, r.conns p = if r.streamsOf p = 0 then none else some (r.streamsOf p : Int)
  tagged : ∀ p, r.tagged p = true ↔ 0 < r.streamsOf p
  closing : ∀ (k : Nat) s, r.allStreams[k]? = some s → 0 < s.closing → s.isOpen = false
  isOpen : ∀ (k : Nat) s, r.allStreams[k]? = some s → s.isOpen = true → r.Registered k
  closed : ∀ (k : Nat) s, r.allStreams[k]? = some s → r.Registered k → s.isOpen = true ∨ 0 < s.closing

section Proofs

variable [DecidableEq Peer] {r r' : StreamRegistry Peer} {e : StreamEvent Peer} {peer p : Peer} {k : Nat} {s : Stream}
  {logs : List Unit}

theorem inOrder_empty : InOrder ({} : StreamRegistry Peer) where
  nextID := rfl
  ids k s h := by cases h
  infos s h := absurd h List.not_mem_nil
  nodup := List.nodup_nil
  conns p := rfl
  tagged p := iff_of_false Bool.false_ne_true (Nat.lt_irrefl 0)
  closing k s h := by cases h
  isOpen k s h := by cases h
  closed k s h := by cases h

/-- No stream is registered under an id that has not been given. -/
theorem filter_fresh (h : InOrder r) : r.Streams.filter (·.id ≠ r.nextID) = r.Streams := by
  refine List.filter_eq_self.mpr ?_
  intro s hs
  obtain ⟨hid, hlt⟩ := h.infos s hs
  rw [h.nextID, hid]
  exact decide_eq_true (Nat.ne_of_lt hlt)

/-- A stream that registers gets an identifier that no other stream has, and its peer the tag. -/
theorem inOrder_register (h : InOrder r) (hfits : r.allStreams.length + 1 < 2 ^ 64) (peer : Peer) :
    InOrder (r.Register peer) := by
  -- the new identifier is in use by nobody, so the map only grows
  have hstreams : (r.Register peer).Streams = r.Streams ++ [⟨r.nextID, r.allStreams.length, peer⟩] := by
    unfold StreamRegistry.Register
    rw [filter_fresh h]
  have hregistered : ∀ k, (r.Register peer).Registered k ↔ r.Registered k ∨ k = r.allStreams.length := by
    intro k
    unfold StreamRegistry.Registered
    rw [hstreams]
    simp only [List.mem_append, List.mem_singleton, or_and_right, exists_or, exists_eq_left, eq_comm]
  have hcount : ∀ p, (r.Register peer).streamsOf p = r.streamsOf p + if peer = p then 1 else 0 := by
    intro p
    unfold StreamRegistry.streamsOf
    rw [hstreams, List.countP_append, List.countP_singleton]
    simp only [decide_eq_true_eq]
  -- a stream of the list is an old one, or the new one
  have hold : ∀ {k s}, (r.Register peer).allStreams[k]? = some s →
      r.allStreams[k]? = some s ∨ k = r.allStreams.length ∧ s = { id := r.nextID } := by
    intro k s hs
    change (r.allStreams ++ [{ id := r.nextID }])[k]? = some s at hs
    rw [List.getElem?_append] at hs
    split at hs
    · exact Or.inl hs
    · next hge =>
      obtain ⟨hk, hs⟩ := List.getElem?_eq_some_iff.mp hs
      rw [List.length_singleton] at hk
      have hkeq : k = r.allStreams.length := by omega
      subst hkeq
      refine Or.inr ⟨rfl, ?_⟩
      simpa using hs.symm
  -- the fields of the invariant, in order: first the next identifier, which does not wrap
  constructor
  · change (r.nextID + 1) % 2 ^ 64 = (r.allStreams ++ [_]).length
    rw [h.nextID, List.length_append, List.length_singleton]
    exact Nat.mod_eq_of_lt hfits
  · intro k s hs
    rcases hold hs with hs | ⟨rfl, rfl⟩
    · exact h.ids k s hs
    · exact h.nextID
  · intro s hs
    rw [hstreams] at hs
    have hlength : (r.Register peer).allStreams.length = r.allStreams.length + 1 := List.length_append
    rw [hlength]
    rcases List.mem_append.mp hs with hs | hs
    · obtain ⟨hid, hlt⟩ := h.infos s hs
      exact ⟨hid, hlt.trans (Nat.lt_succ_self _)⟩
    · rw [List.mem_singleton.mp hs]
      exact ⟨h.nextID, Nat.lt_succ_self _⟩
  -- the identifiers are the places in the list, and this one is new
  · rw [hstreams, List.map_append, List.nodup_append]
    refine ⟨h.nodup, List.nodup_singleton _, ?_⟩
    rintro i hi j hj rfl
    obtain ⟨s, hs, rfl⟩ := List.mem_map.mp hi
    obtain ⟨hid, hlt⟩ := h.infos s hs
    have hj' : s.id = r.nextID := by simpa using hj
    rw [hid, h.nextID] at hj'
    exact Nat.ne_of_lt hlt hj'
  -- the connections of the peer are counted up, those of the others stay
  · intro p
    change Function.update r.conns peer _ p = _
    rw [hcount]
    by_cases hp : p = peer
    · subst hp
      rw [Function.update_self, h.conns]
      split <;> simp_all
    · rw [Function.update_of_ne hp, h.conns, if_neg (Ne.symm hp)]
      rfl
  · intro p
    change Function.update r.tagged peer true p = true ↔ _
    rw [hcount]
    by_cases hp : p = peer
    · subst hp
      simp
    · rw [Function.update_of_ne hp, h.tagged, if_neg (Ne.symm hp)]
      rfl
  -- the new stream is open, and has nothing to close
  · intro k s hs
    rcases hold hs with hs | ⟨rfl, rfl⟩
    · exact h.closing k s hs
    · intro hclosing
      cases hclosing
  · intro k s hs hopen
    rw [hregistered]
    rcases hold hs with hs | ⟨rfl, rfl⟩
    · exact Or.inl (h.isOpen k s hs hopen)
    · exact Or.inr rfl
  · intro k s hs hk
    rcases hold hs with hs | ⟨rfl, rfl⟩
    · rcases (hregistered k).mp hk with hk | rfl
      · exact h.closed k s hs hk
      · rw [List.getElem?_length] at hs
        cases hs
    · exact Or.inl rfl

/-- A stream goes on: it is not opened again, and nobody is about to deregister it while it is open. -/
structure Stream.Moves (s s' : Stream) : Prop where
  id : s'.id = s.id
  closing : 0 < s'.closing → s'.isOpen = false
  isOpen : s'.isOpen = true → s.isOpen = true

/-- Streams may move on as long as registered ones are open or closing. -/
theorem InOrder.of_streams {streams : List Stream} (h : InOrder r) (hlength : streams.length = r.allStreams.length)
    (hmoves : ∀ (k : Nat) s s', r.allStreams[k]? = some s → streams[k]? = some s' →
      s.Moves s' ∧ (r.Registered k → s.isOpen = true ∨ 0 < s.closing → s'.isOpen = true ∨ 0 < s'.closing)) :
    InOrder { r with allStreams := streams } := by
  have hback : ∀ {k : Nat} {s' : Stream}, streams[k]? = some s' → ∃ s, r.allStreams[k]? = some s ∧ s.Moves s' ∧
      (r.Registered k → s.isOpen = true ∨ 0 < s.closing → s'.isOpen = true ∨ 0 < s'.closing) := by
    intro k s' hs'
    have hk := (List.getElem?_eq_some_iff.mp hs').1
    rw [hlength] at hk
    exact ⟨_, List.getElem?_eq_getElem hk, hmoves k _ s' (List.getElem?_eq_getElem hk) hs'⟩
  refine ⟨h.nextID.trans hlength.symm, ?_, ?_, h.nodup, h.conns, h.tagged, ?_, ?_, ?_⟩
  · intro k s' hs'
    obtain ⟨s, hs, hmove, -⟩ := hback hs'
    exact hmove.id.trans (h.ids k s hs)
  · intro s hs
    show s.id = s.stream ∧ s.stream < streams.length
    rw [hlength]
    exact h.infos s hs
  · intro k s' hs'
    obtain ⟨s, hs, hmove, -⟩ := hback hs'
    exact hmove.closing
  · intro k s' hs' hopen
    obtain ⟨s, hs, hmove, -⟩ := hback hs'
    exact h.isOpen k s hs (hmove.isOpen hopen)
  · intro k s' hs' hk
    obtain ⟨s, hs, -, hclosed⟩ := hback hs'
    exact hclosed hk (h.closed k s hs hk)

/-- Whoever closes the ends is about to deregister. -/
theorem inOrder_closeEnds (h : InOrder r) (hs : r.allStreams[k]? = some s) {s' : Stream} (hid : s'.id = s.id) :
    InOrder (r.closeEnds k s') := by
  refine h.of_streams List.length_set ?_
  intro j t t' ht ht'
  -- the ends of this stream are closed now, which is all that the invariant asks of a stream about to
  -- deregister
  by_cases hjk : k = j
  · subst hjk
    rw [List.getElem?_set_self (List.getElem?_eq_some_iff.mp hs).1, Option.some.injEq] at ht'
    rw [hs, Option.some.injEq] at ht
    subst ht ht'
    exact ⟨⟨hid, fun _ => rfl, fun hopen => absurd hopen Bool.false_ne_true⟩, fun _ _ => Or.inr (Nat.succ_pos _)⟩
  -- the other streams are as they were
  · rw [List.getElem?_set_ne hjk, ht, Option.some.injEq] at ht'
    subst ht'
    exact ⟨⟨rfl, h.closing j t ht, id⟩, fun _ => id⟩

theorem inOrder_picks (h : InOrder r) (found : List Nat) :
    InOrder { r with allStreams := r.allStreams.mapIdx fun k s => { s with picked := s.picked + found.count k } } := by
  refine h.of_streams List.length_mapIdx ?_
  intro j t t' ht ht'
  rw [List.getElem?_mapIdx, ht, Option.map_some, Option.some.injEq] at ht'
  subst ht'
  exact ⟨⟨rfl, h.closing j t ht, id⟩, fun _ => id⟩

/-- Taking one stream out of a map without repeated ids. -/
theorem countP_filter_id {l : List (StreamInfo Peer)} {info : StreamInfo Peer} (hnodup : (l.map StreamInfo.id).Nodup)
    (hinfo : info ∈ l) (p : Peer) :
    (l.filter (·.id ≠ info.id)).countP (·.peer = p) + (if info.peer = p then 1 else 0) = l.countP (·.peer = p) := by
  induction l with
  | nil => cases hinfo
  | cons x l ih =>
    rw [List.map_cons, List.nodup_cons] at hnodup
    rcases List.mem_cons.mp hinfo with rfl | hinfo
    · have hrest : l.filter (·.id ≠ info.id) = l := by
        refine List.filter_eq_self.mpr fun y hy => decide_eq_true ?_
        intro heq
        exact hnodup.1 (heq ▸ List.mem_map_of_mem hy)
      rw [List.filter_cons_of_neg (by simp), hrest, List.countP_cons]
      simp only [decide_eq_true_eq]
    · have hne : x.id ≠ info.id := by
        intro heq
        exact hnodup.1 (heq ▸ List.mem_map_of_mem hinfo)
      rw [List.filter_cons_of_pos (by simpa using hne), List.countP_cons, List.countP_cons, ← ih hnodup.2 hinfo]
      omega

/-- A stream that is not open any more goes out of the map, if it is still there. -/
theorem inOrder_deregister (h : InOrder r) (hshut : ∀ s, r.allStreams[k]? = some s → s.isOpen = false) :
    InOrder (r.Deregister k) ∧ ¬ (r.Deregister k).Registered k := by
  unfold StreamRegistry.Deregister
  split
  -- somebody has deregistered it already: it is not in the map
  · next hnone =>
    refine ⟨h, ?_⟩
    rintro ⟨info, hinfo, rfl⟩
    exact List.find?_eq_none.mp hnone info hinfo (decide_eq_true (h.infos info hinfo).1)
  -- it is taken out, and counted off the connections of its peer
  · next info hfound =>
    have hinfo := List.mem_of_find?_eq_some hfound
    obtain rfl : info.id = k := by simpa using List.find?_some hfound
    have hcount : ∀ p, (r.Streams.filter (·.id ≠ info.id)).countP (·.peer = p) + (if info.peer = p then 1 else 0) =
        r.streamsOf p := countP_filter_id h.nodup hinfo
    have hself := hcount info.peer
    rw [if_pos rfl] at hself
    -- the peer has a counter, since this stream of it is still in the map
    have hconns : (r.conns info.peer).getD 0 = (r.streamsOf info.peer : Int) := by
      rw [h.conns, if_neg (by omega)]
      rfl
    -- the counter falls below 1 with the last stream of the peer, and only then
    have hlast : (r.conns info.peer).getD 0 - 1 < 1 ↔
        (r.Streams.filter (·.id ≠ info.id)).countP (·.peer = info.peer) = 0 := by
      rw [hconns]
      omega
    -- the fields that change are the map, the counters and the tags
    refine ⟨⟨h.nextID, h.ids, ?_, ?_, ?_, ?_, h.closing, ?_, ?_⟩, ?_⟩
    · intro s hs
      exact h.infos s (List.mem_filter.mp hs).1
    · exact (List.filter_sublist.map _).nodup h.nodup
    · intro p
      change Function.update r.conns info.peer
        (if (r.conns info.peer).getD 0 - 1 < 1 then none else some ((r.conns info.peer).getD 0 - 1)) p =
          if (r.Streams.filter (·.id ≠ info.id)).countP (·.peer = p) = 0 then none
          else some ((r.Streams.filter (·.id ≠ info.id)).countP (·.peer = p) : Int)
      -- the counter of this peer goes down, or away; the other counters stay
      by_cases hp : p = info.peer
      · subst hp
        rw [Function.update_self, if_congr hlast rfl rfl, hconns]
        split
        · rfl
        · congr 1
          omega
      · have hother := hcount p
        rw [if_neg (Ne.symm hp)] at hother
        rw [Function.update_of_ne hp, h.conns, ← hother]
        rfl
    · intro p
      change (if (r.conns info.peer).getD 0 - 1 < 1 then Function.update r.tagged info.peer false else r.tagged) p =
        true ↔ 0 < (r.Streams.filter (·.id ≠ info.id)).countP (·.peer = p)
      rw [if_congr hlast rfl rfl]
      -- the tag of the peer goes with its last stream
      by_cases hp : p = info.peer
      · subst hp
        split
        · next hzero =>
          rw [Function.update_self, hzero]
          decide
        · next hmore =>
          rw [h.tagged]
          omega
      · have hother := hcount p
        rw [if_neg (Ne.symm hp)] at hother
        have hsame : (if List.countP (·.peer = info.peer) (r.Streams.filter (·.id ≠ info.id)) = 0 then
            Function.update r.tagged info.peer false else r.tagged) p = r.tagged p := by
          split
          · exact Function.update_of_ne hp _ _
          · rfl
        rw [hsame, h.tagged, ← hother]
        rfl
    -- a stream that is open is another one, so it stays in the map
    · intro j t ht hopen
      obtain ⟨other, hother, rfl⟩ := h.isOpen j t ht hopen
      refine ⟨other, List.mem_filter.mpr ⟨hother, decide_eq_true ?_⟩, rfl⟩
      intro heq
      rw [← (h.infos other hother).1, heq] at ht
      rw [hshut t ht] at hopen
      cases hopen
    · rintro j t ht ⟨other, hother, rfl⟩
      exact h.closed _ t ht ⟨other, (List.mem_filter.mp hother).1, rfl⟩
    · rintro ⟨other, hother, hk⟩
      obtain ⟨hmem, hne⟩ := List.mem_filter.mp hother
      exact of_decide_eq_true hne ((h.infos other hmem).1.trans hk)

theorem deregister_allStreams (r : StreamRegistry Peer) (id : Nat) :
    (r.Deregister id).allStreams = r.allStreams := by
  unfold StreamRegistry.Deregister
  split <;> rfl

theorem setStream_deregister (s : Stream) (id : Nat) :
    (r.setStream k s).Deregister id = (r.Deregister id).setStream k s := by
  unfold StreamRegistry.Deregister
  show (match r.Streams.find? (·.id = id) with | none => _ | some s => _) = _
  split <;> rfl

/-- Every step of a stream, its peer or the registry keeps the order. -/
theorem inOrder_step (h : InOrder r) (hfits : r.allStreams.length + 1 < 2 ^ 64) (hstep : r.step e = .ok (r', logs)) :
    InOrder r' := by
  cases e with
  | registers peer =>
    cases hstep
    exact inOrder_register h hfits peer
  | copyEnds k d =>
    simp only [StreamRegistry.step] at hstep
    split at hstep
    · cases hstep
    · next s hs =>
      simp only [bind_eq_ok, require_eq_ok, pure_eq_ok, exists_const, Prod.mk.injEq] at hstep
      obtain ⟨-, rfl, -⟩ := hstep
      exact inOrder_closeEnds h hs rfl
  | picks id =>
    cases hstep
    exact inOrder_picks h _
  | resets k =>
    simp only [StreamRegistry.step] at hstep
    split at hstep
    · cases hstep
    · next s hs =>
      simp only [bind_eq_ok, require_eq_ok, pure_eq_ok, exists_const, Prod.mk.injEq] at hstep
      obtain ⟨-, rfl, -⟩ := hstep
      exact inOrder_closeEnds h hs rfl
  | deregisters k =>
    simp only [StreamRegistry.step] at hstep
    split at hstep
    · cases hstep
    · next s hs =>
      simp only [bind_eq_ok, require_eq_ok, pure_eq_ok, exists_const, Prod.mk.injEq] at hstep
      obtain ⟨hclosing, rfl, -⟩ := hstep
      -- a stream about to deregister has its ends closed
      have hshut := h.closing k s hs hclosing
      obtain ⟨hrest, hgone⟩ := @inOrder_deregister _ _ _ k h fun t ht => by
        rw [hs, Option.some.injEq] at ht
        exact ht ▸ hshut
      -- its own entry goes first, and then it has one deregistration less to come
      rw [h.ids k s hs, setStream_deregister]
      have hsame : (r.Deregister k).allStreams = r.allStreams := deregister_allStreams r k
      refine hrest.of_streams List.length_set ?_
      intro j t t' ht ht'
      by_cases hjk : k = j
      · subst hjk
        rw [hsame] at ht ht'
        rw [List.getElem?_set_self (List.getElem?_eq_some_iff.mp hs).1, Option.some.injEq] at ht'
        rw [hs, Option.some.injEq] at ht
        subst ht ht'
        exact ⟨⟨(h.ids k s hs).symm, fun _ => hshut, id⟩, fun hk => absurd hk hgone⟩
      · rw [List.getElem?_set_ne hjk, ht, Option.some.injEq] at ht'
        subst ht'
        exact ⟨⟨rfl, hrest.closing j t ht, id⟩, fun _ => id⟩

/-- A step makes one stream at most. -/
theorem length_step (hstep : r.step e = .ok (r', logs)) : r'.allStreams.length ≤ r.allStreams.length + 1 := by
  cases e with
  | registers peer =>
    cases hstep
    exact (List.length_append).le
  | copyEnds k _ | resets k =>
    simp only [StreamRegistry.step] at hstep
    split at hstep
    · cases hstep
    · simp only [bind_eq_ok, require_eq_ok, pure_eq_ok, exists_const, Prod.mk.injEq] at hstep
      obtain ⟨-, rfl, -⟩ := hstep
      exact List.length_set.le.trans (Nat.le_succ _)
  | picks id =>
    cases hstep
    exact List.length_mapIdx.le.trans (Nat.le_succ _)
  | deregisters k =>
    simp only [StreamRegistry.step] at hstep
    split at hstep
    · cases hstep
    · simp only [bind_eq_ok, require_eq_ok, pure_eq_ok, exists_const, Prod.mk.injEq] at hstep
      obtain ⟨-, rfl, -⟩ := hstep
      rw [deregister_allStreams]
      exact List.length_set.le.trans (Nat.le_succ _)

/-- The order holds in every run of fewer than 2^64 steps. -/
theorem inOrder_run (es : List (StreamEvent Peer)) (hes : es.length < 2 ^ 64) :
    InOrder (run StreamRegistry.step ({} : StreamRegistry Peer) es) ∧
      (run StreamRegistry.step ({} : StreamRegistry Peer) es).allStreams.length ≤ es.length := by
  induction es using List.reverseRecOn with
  | nil => exact ⟨inOrder_empty, Nat.le_refl 0⟩
  | append_singleton es e ih =>
    rw [List.length_append, List.length_singleton] at hes ⊢
    obtain ⟨hbefore, hle⟩ := ih (by omega)
    rw [run_snoc]
    cases hstep : (run StreamRegistry.step {} es).step e with
    | error err =>
      rw [exec_of_error hstep]
      exact ⟨hbefore, hle.trans (Nat.le_succ _)⟩
    | ok result =>
      obtain ⟨r', logs⟩ := result
      rw [exec_of_ok hstep]
      exact ⟨inOrder_step hbefore (by omega) hstep, (length_step hstep).trans (Nat.succ_le_succ hle)⟩

/-- **The registry after a run** of fewer than 2 ^ 64 events. The streams of every peer are counted, and the peers that
have one are tagged. What is open is registered, and what is registered is open, or about to be deregistered. -/
theorem streams_run (es : List (StreamEvent Peer)) (hes : es.length < 2 ^ 64)
    (hr : run StreamRegistry.step {} es = r) :
    (∀ p, r.conns p = if r.streamsOf p = 0 then none else some (r.streamsOf p : Int)) ∧
    (∀ p, r.tagged p = true ↔ 0 < r.streamsOf p) ∧
    ∀ (k : Nat) s, r.allStreams[k]? = some s →
      (s.isOpen = true → r.Registered k) ∧ (r.Registered k → s.isOpen = true ∨ 0 < s.closing) := by
  obtain ⟨h, -⟩ := inOrder_run es hes
  rw [hr] at h
  exact ⟨h.conns, h.tagged, fun k s hs => ⟨h.isOpen k s hs, h.closed k s hs⟩⟩

end Proofs

/-! ### Two streams of a peer -/

namespace SmallStreams

/-- The first stream ends in both directions while a command closes all. -/
def events : List (StreamEvent Nat) :=
  [.registers 5, .registers 5, .copyEnds 0 .toLocal, .picks none, .resets 0, .deregisters 0, .deregisters 0]

def registry : StreamRegistry Nat := run StreamRegistry.step {} events

/-- One stream is left, although the other one was deregistered twice. -/
theorem streams_small : registry.tagged 5 = true :=
  ((streams_run (r := registry) events (by decide) rfl).2.1 5).mpr (by decide)

end SmallStreams

end Kubo

end Kyneto
