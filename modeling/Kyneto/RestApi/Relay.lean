import Kyneto.ProviderDaemon.Messages

/-!
# The relay

The daemons of the providers keep a socket open to the server, register on it with an address, and join the room of the
provider. The server remembers the last socket of every provider in a map, and tells everybody with `provider:status`
who comes and goes. Requests for a provider go to the sockets in its room.

Whoever listens should know what a request would find: that a provider is online exactly if some socket is in its room.
The dashboard only takes the message for a reason to ask, and so the listener here is an abstract one that keeps what it
was told last. It always knows the map, but the map and the rooms go apart: when a provider is connected twice, which
happens whenever a daemon reconnects before the server has noticed that it was gone, and when a socket has registered
with several addresses, of which only one is taken out of the map when it leaves. `announced_along_iff` says when nobody
is told wrong.

That sockets get new identifiers, that nothing is heard of a socket before it connects and after it leaves, and that it
is in no room then, is what the library promises. The room of a socket of its own, which it adds, has no other use.
-/

namespace Kyneto

open Evm

abbrev SocketId := String

structure ProviderStatus where
  address : String
  online : Bool
  deriving DecidableEq, Repr

inductive SocketEvent where
  | connection (id : SocketId)
  | registerProvider (id : SocketId) (address : Option String)
  | subscribeDeal (id : SocketId) (dealId : String)
  | subscribeProvider (id : SocketId) (providerAddress : String)
  | disconnect (id : SocketId)
  deriving DecidableEq, Repr

/-- The sockets and the rooms they are in, and the map from providers to sockets in the order of its entries. -/
structure Relay where
  sockets : List SocketId := []
  rooms : List (SocketId × String) := []
  providerSockets : List (String × SocketId) := []
  deriving DecidableEq, Repr

namespace Relay

/-- A new key comes last, and a key that is there keeps its place. -/
def setSocket (address : String) (id : SocketId) : List (String × SocketId) → List (String × SocketId)
  | [] => [(address, id)]
  | (key, value) :: entries =>
    if key = address then (key, id) :: entries else (key, value) :: setSocket address id entries

def join (r : Relay) (id : SocketId) (room : String) : Relay :=
  { r with rooms := r.rooms.insert (id, room) }

def register (r : Relay) (id : SocketId) (address : String) : Relay × List ProviderStatus :=
  let providerAddress := address.toLower
  ({ r.join id (providerRoom address) with providerSockets := setSocket providerAddress id r.providerSockets },
    [⟨providerAddress, true⟩])

/-- The loop over the map ends at the first entry of the socket. -/
def leave (r : Relay) (id : SocketId) : Relay × List ProviderStatus :=
  let r := { r with sockets := r.sockets.filter (· ≠ id), rooms := r.rooms.filter (·.1 ≠ id) }
  match r.providerSockets.find? (·.2 = id) with
  | some (address, _) =>
    ({ r with providerSockets := r.providerSockets.filter (·.1 ≠ address) }, [⟨address, false⟩])
  | none => (r, [])

def handle (r : Relay) : SocketEvent → Relay × List ProviderStatus
  | .connection id => ({ r with sockets := id :: r.sockets }, [])
  | .registerProvider id (some address) => if address = "" then (r, []) else r.register id address
  | .registerProvider _ none => (r, [])
  | .subscribeDeal id dealId => (r.join id ("deal:" ++ dealId), [])
  | .subscribeProvider id providerAddress => (r.join id ("provider:" ++ providerAddress), [])
  | .disconnect id => r.leave id

/-- `GET /api/providers/:address/rpc/peer-id` has a socket to ask. -/
def Connected (r : Relay) (address : String) : Prop := ∃ id, (id, providerRoom address) ∈ r.rooms

end Relay

def SocketEvent.socket : SocketEvent → SocketId
  | .connection id | .registerProvider id _ | .subscribeDeal id _ | .subscribeProvider id _ | .disconnect id => id

/-- The library delivers the event. -/
def SocketEvent.Comes (r : Relay) : SocketEvent → Prop
  | .connection id => id ∉ r.sockets
  | e => e.socket ∈ r.sockets

instance (r : Relay) : (e : SocketEvent) → Decidable (e.Comes r)
  | .connection id => inferInstanceAs (Decidable (id ∉ r.sockets))
  | .registerProvider id _ => inferInstanceAs (Decidable (id ∈ r.sockets))
  | .subscribeDeal id _ => inferInstanceAs (Decidable (id ∈ r.sockets))
  | .subscribeProvider id _ => inferInstanceAs (Decidable (id ∈ r.sockets))
  | .disconnect id => inferInstanceAs (Decidable (id ∈ r.sockets))

/-- The provider whose entry a socket takes along when it leaves: the first of its entries. -/
def Relay.forgets (r : Relay) (id : SocketId) : Option String :=
  (r.providerSockets.find? (·.2 = id)).map Prod.fst

/-! ## The server and a listener -/

/-- The server, and what somebody was told last of every provider who has listened from the start. -/
structure RelaySystem where
  relay : Relay := {}
  announced : String → Bool := fun _ => false

def announce (announced : String → Bool) (messages : List ProviderStatus) : String → Bool :=
  messages.foldl (fun announced m => Function.update announced m.address m.online) announced

def RelaySystem.step (s : RelaySystem) (e : SocketEvent) : Tx (RelaySystem × List ProviderStatus) :=
  if e.Comes s.relay then
    let (relay, messages) := s.relay.handle e
    .ok (⟨relay, announce s.announced messages⟩, messages)
  else .error (.reason "no such socket")

/-- What is announced is what a request would find. -/
def AnnouncedRight (s : RelaySystem) : Prop := ∀ address, s.announced address.toLower = true ↔ s.relay.Connected address

/-- What is announced is what is in the map. -/
def AnnouncesMap (s : RelaySystem) : Prop :=
  ∀ key, s.announced key = true ↔ key ∈ s.relay.providerSockets.map Prod.fst

/-- A socket that leaves leaves nobody in the room of the provider whose entry it takes along, and somebody in any other
room of a provider that it is in. -/
def LeavesRight (s : RelaySystem) (e : SocketEvent) : Prop :=
  ∀ id, e = .disconnect id → ∀ address,
    if s.relay.forgets id = some address.toLower then
      ∀ other, (other, providerRoom address) ∈ s.relay.rooms → other = id
    else (id, providerRoom address) ∈ s.relay.rooms →
      ∃ other, (other, providerRoom address) ∈ s.relay.rooms ∧ other ≠ id

section Rooms

theorem subscription_ne_providerRoom (x address : String) :
    "deal:" ++ x ≠ providerRoom address ∧ "provider:" ++ x ≠ providerRoom address := by
  unfold providerRoom
  constructor <;>
  · intro h
    have hlists := congrArg String.toList h
    simp at hlists

end Rooms

/-- A registration adds its address to the map, and no other. -/
theorem mem_keys_setSocket {address key : String} {id : SocketId} {entries : List (String × SocketId)} :
    key ∈ (Relay.setSocket address id entries).map Prod.fst ↔ key = address ∨ key ∈ entries.map Prod.fst := by
  induction entries with
  | nil => simp [Relay.setSocket]
  | cons e entries ih =>
    obtain ⟨k, v⟩ := e
    rw [Relay.setSocket]
    split
    · next heq =>
      subst heq
      simp
    · simp only [List.map_cons, List.mem_cons, ih]
      exact or_left_comm

/-! ## What an event does -/

section Steps

variable {s s' : RelaySystem} {e : SocketEvent} {id : SocketId} {address : String}

/-- Events that leave the map and the rooms of the providers as they are. -/
theorem announced_same (hrooms : ∀ id address, (id, providerRoom address) ∈ s'.relay.rooms ↔
      (id, providerRoom address) ∈ s.relay.rooms)
    (hmap : s'.relay.providerSockets = s.relay.providerSockets) (hannounced : s'.announced = s.announced) :
    (AnnouncesMap s → AnnouncesMap s') ∧ (AnnouncedRight s → AnnouncedRight s') := by
  refine ⟨fun h => ?_, fun hright address => ?_⟩
  · unfold AnnouncesMap
    rw [hmap, hannounced]
    exact h
  · rw [hannounced, hright address]
    exact exists_congr fun id => (hrooms id address).symm

theorem rooms_join (r : Relay) (id other : SocketId) (room room' : String) :
    (other, room') ∈ (r.join id room).rooms ↔ other = id ∧ room' = room ∨ (other, room') ∈ r.rooms := by
  rw [Relay.join, List.mem_insert_iff, Prod.mk.injEq]

theorem announced_join {room : String} (hroom : ∀ address, room ≠ providerRoom address) :
    (AnnouncesMap s → AnnouncesMap { s with relay := s.relay.join id room }) ∧
      (AnnouncedRight s → AnnouncedRight { s with relay := s.relay.join id room }) := by
  refine announced_same (fun other address => ?_) rfl rfl
  rw [rooms_join]
  exact or_iff_right fun hsame => hroom address hsame.2.symm

/-- A provider that registers is announced, has an entry, and has a socket in its room. -/
theorem announced_register :
    (AnnouncesMap s →
      AnnouncesMap ⟨(s.relay.register id address).1, announce s.announced (s.relay.register id address).2⟩) ∧
    (AnnouncedRight s →
      AnnouncedRight ⟨(s.relay.register id address).1, announce s.announced (s.relay.register id address).2⟩) := by
  have hrooms : ∀ other room, (other, room) ∈ (s.relay.register id address).1.rooms ↔
      other = id ∧ room = providerRoom address ∨ (other, room) ∈ s.relay.rooms :=
    fun other room => rooms_join s.relay id other (providerRoom address) room
  have hself : announce s.announced (s.relay.register id address).2 address.toLower = true := Function.update_self ..
  have hother : ∀ key, key ≠ address.toLower →
      announce s.announced (s.relay.register id address).2 key = s.announced key :=
    fun _ hkey => Function.update_of_ne hkey ..
  refine ⟨fun h key => ?_, fun hright address' => ?_⟩
  · change announce s.announced (s.relay.register id address).2 key = true ↔
      key ∈ (Relay.setSocket address.toLower id s.relay.providerSockets).map Prod.fst
    rw [mem_keys_setSocket]
    by_cases hkey : key = address.toLower
    · rw [hkey]
      exact iff_of_true hself (Or.inl rfl)
    · rw [hother key hkey, h key]
      exact (or_iff_right hkey).symm
  · change announce s.announced (s.relay.register id address).2 address'.toLower = true ↔ _
    by_cases hkey : address'.toLower = address.toLower
    · rw [hkey]
      exact iff_of_true hself ⟨id, (hrooms _ _).mpr (Or.inl ⟨rfl, ProviderDaemon.providerRoom_eq_iff.mpr hkey⟩)⟩
    · rw [hother _ hkey, hright address']
      refine exists_congr fun other => ?_
      rw [hrooms]
      exact (or_iff_right fun hsame => hkey (ProviderDaemon.providerRoom_eq_iff.mp hsame.2)).symm

/-- The relay without a socket, before the map is looked at. -/
def Relay.without (r : Relay) (id : SocketId) : Relay :=
  { r with sockets := r.sockets.filter (· ≠ id), rooms := r.rooms.filter (·.1 ≠ id) }

theorem rooms_without (r : Relay) (id other : SocketId) (room : String) :
    (other, room) ∈ (r.without id).rooms ↔ (other, room) ∈ r.rooms ∧ other ≠ id := by
  simp [Relay.without, List.mem_filter]

/-- A socket leaves all rooms, and the map loses one entry or none. -/
theorem leave_eq (r : Relay) (id : SocketId) : r.leave id =
    match r.forgets id with
    | some key => ({ r.without id with providerSockets := r.providerSockets.filter (·.1 ≠ key) }, [⟨key, false⟩])
    | none => (r.without id, []) := by
  unfold Relay.leave Relay.forgets
  cases hfind : r.providerSockets.find? (·.2 = id) with
  | some e =>
    simp only [hfind]
    rfl
  | none =>
    simp only [hfind]
    rfl

/-- A provider that is not announced as gone is announced rightly exactly if somebody is left in its room where somebody
was in it. -/
theorem stays_right (hright : s.announced address.toLower = true ↔ s.relay.Connected address) :
    (s.announced address.toLower = true ↔
      ∃ other, (other, providerRoom address) ∈ s.relay.rooms ∧ other ≠ id) ↔
    ((id, providerRoom address) ∈ s.relay.rooms →
      ∃ other, (other, providerRoom address) ∈ s.relay.rooms ∧ other ≠ id) := by
  rw [hright]
  constructor
  · intro h hroom
    exact h.mp ⟨id, hroom⟩
  · intro h
    constructor
    · rintro ⟨other, hroom⟩
      by_cases hother : other = id
      · exact h (hother ▸ hroom)
      · exact ⟨other, hroom, hother⟩
    · rintro ⟨other, hroom, -⟩
      exact ⟨other, hroom⟩

/-- A disconnect keeps to the map, and keeps the announcements right exactly if it leaves the rooms right. -/
theorem announced_leave :
    (AnnouncesMap s → AnnouncesMap ⟨(s.relay.leave id).1, announce s.announced (s.relay.leave id).2⟩) ∧
    (AnnouncedRight s → (AnnouncedRight ⟨(s.relay.leave id).1, announce s.announced (s.relay.leave id).2⟩ ↔
      LeavesRight s (.disconnect id))) := by
  rw [leave_eq]
  unfold LeavesRight
  simp only [SocketEvent.disconnect.injEq, forall_eq']
  cases s.relay.forgets id with
  | some gone =>
    refine ⟨fun h key => ?_, fun hright => forall_congr' fun address => ?_⟩
    · change Function.update s.announced gone false key = true ↔
        key ∈ (s.relay.providerSockets.filter (·.1 ≠ gone)).map Prod.fst
      simp only [List.mem_map, List.mem_filter, decide_eq_true_eq]
      by_cases hkey : key = gone
      · rw [hkey, Function.update_self]
        refine iff_of_false Bool.false_ne_true ?_
        rintro ⟨e, ⟨-, hne⟩, heq⟩
        exact hne heq
      · rw [Function.update_of_ne hkey, h key, List.mem_map]
        refine exists_congr fun e => ?_
        constructor
        · rintro ⟨he, rfl⟩
          exact ⟨⟨he, hkey⟩, rfl⟩
        · rintro ⟨⟨he, -⟩, rfl⟩
          exact ⟨he, rfl⟩
    · change (Function.update s.announced gone false address.toLower = true ↔
        ∃ other, (other, providerRoom address) ∈ (s.relay.without id).rooms) ↔ _
      simp only [rooms_without, Option.some.injEq]
      by_cases hgone : gone = address.toLower
      · -- it is announced as gone, so nobody may be left
        subst hgone
        rw [Function.update_self, if_pos rfl]
        constructor
        · intro h other hroom
          by_contra hother
          exact Bool.false_ne_true (h.mpr ⟨other, hroom, hother⟩)
        · intro h
          refine iff_of_false Bool.false_ne_true ?_
          rintro ⟨other, hroom, hother⟩
          exact hother (h other hroom)
      · rw [Function.update_of_ne (Ne.symm hgone), if_neg hgone]
        exact stays_right (hright address)
  | none =>
    refine ⟨fun h => h, fun hright => forall_congr' fun address => ?_⟩
    change (s.announced address.toLower = true ↔
      ∃ other, (other, providerRoom address) ∈ (s.relay.without id).rooms) ↔ _
    simp only [rooms_without, reduceCtorEq, if_false]
    exact stays_right (hright address)

/-- What an event does that is no `disconnect`. -/
theorem announced_other (hevent : ∀ id, e ≠ .disconnect id)
    (h : (AnnouncesMap s → AnnouncesMap s') ∧ (AnnouncedRight s → AnnouncedRight s')) :
    (AnnouncesMap s → AnnouncesMap s') ∧ (AnnouncedRight s → (AnnouncedRight s' ↔ LeavesRight s e)) :=
  ⟨h.1, fun hright => iff_of_true (h.2 hright) fun id hleave => absurd hleave (hevent id)⟩

/-- The step lemma for both invariants, one case for each event. -/
theorem announced_step {messages : List ProviderStatus} (hstep : s.step e = .ok (s', messages)) :
    (AnnouncesMap s → AnnouncesMap s') ∧ (AnnouncedRight s → (AnnouncedRight s' ↔ LeavesRight s e)) := by
  have hsame : (AnnouncesMap s → AnnouncesMap s) ∧ (AnnouncedRight s → AnnouncedRight s) := ⟨id, id⟩
  unfold RelaySystem.step at hstep
  split at hstep
  · simp only [Except.ok.injEq, Prod.mk.injEq] at hstep
    obtain ⟨rfl, -⟩ := hstep
    cases e with
    | connection id => exact announced_other nofun (announced_same (fun _ _ => Iff.rfl) rfl rfl)
    | subscribeDeal id dealId =>
      exact announced_other nofun (announced_join fun address => (subscription_ne_providerRoom dealId address).1)
    | subscribeProvider id providerAddress =>
      exact announced_other nofun
        (announced_join fun address => (subscription_ne_providerRoom providerAddress address).2)
    | registerProvider id address =>
      cases address with
      | none => exact announced_other nofun hsame
      | some address =>
        simp only [Relay.handle]
        split
        · exact announced_other nofun hsame
        · exact announced_other nofun announced_register
    | disconnect id => exact announced_leave
  · cases hstep

/-- **What is announced of the providers** is always what is in the map. It is right all along exactly if every socket
that leaves leaves nobody in the room of the provider whose entry it takes along, and somebody in its other rooms. -/
theorem announced_along_iff (es : List SocketEvent) :
    Along RelaySystem.step AnnouncesMap {} es ∧
      (Along RelaySystem.step AnnouncedRight {} es ↔ Meets RelaySystem.step LeavesRight {} es) := by
  have hinit : AnnouncesMap {} := fun _ => iff_of_false Bool.false_ne_true List.not_mem_nil
  constructor
  · refine (along_iff_meets (I := fun _ => True) (C := fun _ _ => True) hinit trivial ?_ ?_ es).mpr (meets_true _ es)
    · exact fun _ _ _ _ _ _ => trivial
    · exact fun _ _ _ _ _ h hstep => iff_of_true ((announced_step hstep).1 h) trivial
  · refine along_iff_meets (I := fun _ => True) ?_ trivial ?_ ?_ es
    · exact fun address => iff_of_false Bool.false_ne_true fun ⟨_, hroom⟩ => absurd hroom List.not_mem_nil
    · exact fun _ _ _ _ _ _ => trivial
    · exact fun _ _ _ _ _ hright hstep => (announced_step hstep).2 hright

end Steps

/-! ### A daemon that is connected twice, and one with two addresses -/

namespace SmallRelay

/-- The daemon connects as `s1` and then as `s2`, and the second socket is closed. -/
def reconnects : List SocketEvent :=
  [.connection "s1", .registerProvider "s1" (some "0xPAT"), .connection "s2", .registerProvider "s2" (some "0xPAT"),
    .disconnect "s2"]

example : (run RelaySystem.step {} reconnects).announced "0xpat" = false ∧
    ("s1", "provider-rpc:0xpat") ∈ (run RelaySystem.step {} reconnects).relay.rooms := by
  decide +kernel

/-- A socket registers with two addresses and is closed. -/
def twoAddresses : List SocketEvent :=
  [.connection "s1", .registerProvider "s1" (some "0xPAT"), .registerProvider "s1" (some "0xSUE"), .disconnect "s1"]

example : (run RelaySystem.step {} twoAddresses).announced "0xsue" = true ∧
    (run RelaySystem.step {} twoAddresses).relay.rooms = [] := by
  decide +kernel

end SmallRelay

end Kyneto
