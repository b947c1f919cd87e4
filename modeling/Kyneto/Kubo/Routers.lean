import Mathlib.Data.List.Nodup
import Mathlib.Logic.Relation

/-!
# Routers from the configuration

Routers are configured by name, and a composable router names others. `parse` creates a router with all that it names,
creates none twice, and gives up where a router comes back to itself. The two maps that it keeps for this last longer
than the path it is on: `visited` until a method is done, `createdRouters` for all methods.

`routers_accepted_iff` says that this finds out what it is for: a configuration is accepted exactly if every method has
a router that can be built, and it is this one that the method gets, in whatever order the methods come. What tells
whether a router can be built is `Builds`, which knows nothing of the maps. By `http_provider_found_iff`, the search for
an HTTP router, which has no guard against loops, comes to an end in an accepted configuration.

The routers themselves are made by libraries.
-/

namespace Kyneto

namespace Kubo

/-! ## The configuration -/

structure HTTPRouterParams where
  endpoint : String
  maxProvideBatchSize : Int := 0
  maxProvideConcurrency : Int := 0
  deriving DecidableEq, Repr

structure DHTRouterParams where
  mode : String
  acceleratedDHTClient : Bool := false
  publicIPNetwork : Bool := false
  deriving DecidableEq, Repr

structure ConfigRouter where
  routerName : String
  timeout : Int := 0
  ignoreErrors : Bool := false
  executeAfter : Option Int := none
  deriving DecidableEq, Repr

/-- The two types of routers that have `ComposableRouterParams`. -/
inductive Composable where
  | sequential
  | parallel
  deriving DecidableEq, Repr

inductive RouterConfig where
  | http (params : HTTPRouterParams)
  | dht (params : DHTRouterParams)
  | composable (type : Composable) (routers : List ConfigRouter)
  | unknown (type : String)
  deriving DecidableEq, Repr

/-- A map, so only the first entry of a name counts. -/
abbrev Routers := List (String × RouterConfig)

/-! ## Routers -/

/-- How a composed router calls one of its routers; `executeAfter` is for parallel ones. -/
structure CallOptions where
  ignoreError : Bool
  timeout : Int
  executeAfter : Int
  deriving DecidableEq, Repr

/-- A router that a library has made of others, or by itself. -/
inductive Router (Base : Type) where
  | base (b : Base)
  | composed (type : Composable) (routers : List (Router Base × CallOptions))

inductive DHTMode where
  | auto
  | client
  | server
  deriving DecidableEq, Repr

structure RouterLibraries (Base : Type) where
  newHTTP : HTTPRouterParams → Except String Base
  newFullRT : Except String Base
  newDHT : Bool → DHTMode → Except String Base
  gomaxprocs : Int

inductive RouterError where
  | notFound (name : String)
  | loop (name : String)
  | unknownType (type : String)
  | paramNeeded (param type : String)
  | invalidMode (mode : String)
  | library (text : String)
  | missingMethod (name : String)
  | unsupportedMethod (name : String)
  | stuck                                  -- out of fuel; the source has no such error
  deriving DecidableEq, Repr

structure ParseState (Base : Type) where
  visited : List String := []
  createdRouters : List (String × Router Base) := []

section Definitions

variable {Base : Type} (libs : RouterLibraries Base) (cfg : Routers)

def HTTPRouterParams.fillDefaults (params : HTTPRouterParams) : HTTPRouterParams where
  endpoint := params.endpoint
  maxProvideBatchSize := if params.maxProvideBatchSize = 0 then 100 else params.maxProvideBatchSize
  maxProvideConcurrency := if params.maxProvideConcurrency = 0 then libs.gomaxprocs else params.maxProvideConcurrency

def libraryResult (x : Except String Base) : Except RouterError (Router Base) :=
  match x with
  | .ok b => .ok (.base b)
  | .error text => .error (.library text)

def httpRoutingFromConfig (params : HTTPRouterParams) : Except RouterError (Router Base) :=
  if params.endpoint = "" then .error (.paramNeeded "Endpoint" "http")
  else libraryResult (libs.newHTTP (params.fillDefaults libs))

def dhtRoutingFromConfig (params : DHTRouterParams) : Except RouterError (Router Base) :=
  if params.acceleratedDHTClient then libraryResult libs.newFullRT
  else
    match params.mode with
    | "auto" => libraryResult (libs.newDHT params.publicIPNetwork .auto)
    | "client" => libraryResult (libs.newDHT params.publicIPNetwork .client)
    | "server" => libraryResult (libs.newDHT params.publicIPNetwork .server)
    | mode => .error (.invalidMode mode)

def ConfigRouter.options (type : Composable) (c : ConfigRouter) : CallOptions where
  ignoreError := c.ignoreErrors
  timeout := c.timeout
  executeAfter := match type with
    | .parallel => c.executeAfter.getD 0
    | .sequential => 0

def compose (type : Composable) (routers : List ConfigRouter) (created : List (Router Base)) : Router Base :=
  .composed type (List.zipWith (fun r c => (r, c.options type)) created routers)

def ParseState.visit (st : ParseState Base) (name : String) : ParseState Base :=
  { st with visited := name :: st.visited }

def ParseState.create (st : ParseState Base) (name : String) (r : Router Base) : Router Base × ParseState Base :=
  (r, { st with createdRouters := (name, r) :: st.createdRouters })

/-- The loop of a composable router over the routers that it names. -/
def parseRouters (parse : String → ParseState Base → Except RouterError (Router Base × ParseState Base)) :
    List ConfigRouter → ParseState Base → Except RouterError (List (Router Base) × ParseState Base)
  | [], st => .ok ([], st)
  | cr :: routers, st => do
    let (ri, st) ← parse cr.routerName st
    let (created, st) ← parseRouters parse routers st
    return (ri :: created, st)

/-- The fuel is for the names that have not been visited. -/
def parse : Nat → String → ParseState Base → Except RouterError (Router Base × ParseState Base)
  | 0, _, _ => .error .stuck
  | fuel + 1, routerName, st =>
    match st.createdRouters.lookup routerName with
    | some r => .ok (r, st)
    | none =>
      if routerName ∈ st.visited then .error (.loop routerName)
      else
        let st := st.visit routerName
        match cfg.lookup routerName with
        | none => .error (.notFound routerName)
        | some (.http params) => do
          let router ← httpRoutingFromConfig libs params
          return st.create routerName router
        | some (.dht params) => do
          let router ← dhtRoutingFromConfig libs params
          return st.create routerName router
        | some (.composable type routers) => do
          let (created, st) ← parseRouters (parse fuel) routers st
          return st.create routerName (compose type routers created)
        | some (.unknown type) => .error (.unknownType type)

end Definitions

/-! ## Routers that can be built -/

section Builds

variable {Base : Type} {libs : RouterLibraries Base} {cfg : Routers} {name : String} {r r' : Router Base}

theorem mem_zip {α β : Type} {xs : List α} {ys : List β} {i : Nat} (hx : i < xs.length) (hy : i < ys.length) :
    (xs[i], ys[i]) ∈ xs.zip ys := by
  have hi : i < (xs.zip ys).length := by
    rw [List.length_zip]
    exact Nat.lt_min.mpr ⟨hx, hy⟩
  exact List.mem_iff_getElem.mpr ⟨i, hi, List.getElem_zip⟩

/-- A router that is configured, with all that it names. -/
inductive Builds (libs : RouterLibraries Base) (cfg : Routers) : String → Router Base → Prop where
  | http {name params r} : cfg.lookup name = some (.http params) → httpRoutingFromConfig libs params = .ok r →
      Builds libs cfg name r
  | dht {name params r} : cfg.lookup name = some (.dht params) → dhtRoutingFromConfig libs params = .ok r →
      Builds libs cfg name r
  | composable {name type routers created} : cfg.lookup name = some (.composable type routers) →
      created.length = routers.length → (∀ x ∈ routers.zip created, Builds libs cfg x.1.routerName x.2) →
      Builds libs cfg name (compose type routers created)

/-- The first router names the second. -/
def Names (cfg : Routers) (name other : String) : Prop :=
  ∃ type routers, cfg.lookup name = some (.composable type routers) ∧ ∃ c ∈ routers, c.routerName = other

/-- A router that can be built does not come back to itself. -/
theorem Builds.acyclic (h : Builds libs cfg name r) : ¬ Relation.TransGen (Names cfg) name name := by
  induction h with
  | http hcfg _ | dht hcfg _ =>
    intro hloop
    obtain ⟨b, ⟨_, _, hcfg', -⟩, -⟩ := Relation.TransGen.head'_iff.mp hloop
    rw [hcfg] at hcfg'
    cases hcfg'
  | @composable name type routers created hcfg hlength hall ih =>
    intro hloop
    obtain ⟨b, hnames, hback⟩ := Relation.TransGen.head'_iff.mp hloop
    obtain ⟨_, _, hcfg', c, hc, rfl⟩ := id hnames
    rw [hcfg] at hcfg'
    cases hcfg'
    obtain ⟨i, hi, rfl⟩ := List.getElem_of_mem hc
    have hi' : i < created.length := hlength ▸ hi
    exact ih (routers[i], created[i]) (mem_zip hi hi') (Relation.TransGen.tail' hback hnames)

/-- A name stands for one router. -/
theorem Builds.unique (h : Builds libs cfg name r) (h' : Builds libs cfg name r') : r = r' := by
  induction h generalizing r' with
  | http hcfg hr =>
    cases h' with
    | http hcfg' hr' =>
      rw [hcfg] at hcfg'
      cases hcfg'
      exact Except.ok.inj (hr.symm.trans hr')
    | dht hcfg' _ | composable hcfg' _ _ =>
      rw [hcfg] at hcfg'
      cases hcfg'
  | dht hcfg hr =>
    cases h' with
    | dht hcfg' hr' =>
      rw [hcfg] at hcfg'
      cases hcfg'
      exact Except.ok.inj (hr.symm.trans hr')
    | http hcfg' _ | composable hcfg' _ _ =>
      rw [hcfg] at hcfg'
      cases hcfg'
  | @composable name type routers created hcfg hlength hall ih =>
    cases h' with
    | http hcfg' _ | dht hcfg' _ =>
      rw [hcfg] at hcfg'
      cases hcfg'
    | @composable _ _ _ created' hcfg' hlength' hall' =>
      rw [hcfg] at hcfg'
      cases hcfg'
      have hsame : created = created' := by
        refine List.ext_getElem (hlength.trans hlength'.symm) fun i hi hi' => ?_
        have hir : i < routers.length := hlength ▸ hi
        exact ih (routers[i], created[i]) (mem_zip hir hi)
          (hall' (routers[i], created'[i]) (mem_zip hir hi'))
      rw [hsame]

end Builds

/-! ## What `parse` leaves behind -/

section Parse

variable {Base : Type} {libs : RouterLibraries Base} {cfg : Routers} {name : String} {r : Router Base}
variable {st st' st'' : ParseState Base}

def ParseState.Created (st : ParseState Base) (name : String) : Prop :=
  (st.createdRouters.lookup name).isSome

def ParseState.Sound (libs : RouterLibraries Base) (cfg : Routers) (st : ParseState Base) : Prop :=
  ∀ name r, st.createdRouters.lookup name = some r → Builds libs cfg name r

/-- A call that succeeds has created all that it visited. -/
structure ParseState.Extends (st st' : ParseState Base) : Prop where
  visited : ∀ name ∈ st.visited, name ∈ st'.visited
  created : ∀ name, st.Created name → st'.Created name
  done : ∀ name ∈ st'.visited, name ∉ st.visited → st'.Created name

theorem ParseState.Extends.refl (st : ParseState Base) : st.Extends st where
  visited _ h := h
  created _ h := h
  done _ h hnot := absurd h hnot

theorem ParseState.Extends.trans (h : st.Extends st') (h' : st'.Extends st'') : st.Extends st'' where
  visited name hname := h'.visited name (h.visited name hname)
  created name hname := h'.created name (h.created name hname)
  done name hname hnot := by
    by_cases hmid : name ∈ st'.visited
    · exact h'.created name (h.done name hmid hnot)
    · exact h'.done name hname hmid

theorem create_created_self : (st.create name r).2.Created name := by
  simp [ParseState.create, ParseState.Created]

theorem create_created {other : String} (h : st.Created other) : (st.create name r).2.Created other := by
  by_cases hother : other = name
  · rw [hother]
    exact create_created_self
  · have hne : (other == name) = false := by simpa using hother
    simpa only [ParseState.create, ParseState.Created, List.lookup_cons, hne] using h

theorem extends_create (h : (st.visit name).Extends st') : st.Extends (st'.create name r).2 where
  visited other hother := h.visited other (List.mem_cons_of_mem name hother)
  created other hother := create_created (h.created other hother)
  done other hother hnot := by
    by_cases hname : other = name
    · rw [hname]
      exact create_created_self
    · refine create_created (h.done other hother fun hvisit => ?_)
      cases List.mem_cons.mp hvisit with
      | inl heq => exact hname heq
      | inr hmem => exact hnot hmem

/-- A router that was built under its name may be noted. -/
theorem sound_create (hst : st.Sound libs cfg) (hr : Builds libs cfg name r) :
    (st.create name r).2.Sound libs cfg := by
  intro other r' hlookup
  simp only [ParseState.create, List.lookup_cons] at hlookup
  split at hlookup
  · rename_i heq
    cases hlookup
    rw [eq_of_beq heq]
    exact hr
  · exact hst other r' hlookup

theorem sound_visit (hst : st.Sound libs cfg) : (st.visit name).Sound libs cfg := hst

/-! ### What is created can be built -/

/-- What a call is to have done when it succeeds. -/
structure Creates (libs : RouterLibraries Base) (cfg : Routers) (name : String) (r : Router Base)
    (st st' : ParseState Base) : Prop where
  builds : Builds libs cfg name r
  sound : st'.Sound libs cfg
  extend : st.Extends st'

theorem Creates.create (hst : st'.Sound libs cfg) (hr : Builds libs cfg name r)
    (hext : (st.visit name).Extends st') : Creates libs cfg name r st (st'.create name r).2 where
  builds := hr
  sound := sound_create hst hr
  extend := extends_create hext

variable {parse' : String → ParseState Base → Except RouterError (Router Base × ParseState Base)}

/-- If every member is created, then so is the list. -/
theorem parseRouters_creates
    (hparse : ∀ name st r st', st.Sound libs cfg → parse' name st = .ok (r, st') → Creates libs cfg name r st st') :
    ∀ {routers : List ConfigRouter} {created : List (Router Base)} {st st' : ParseState Base}, st.Sound libs cfg →
      parseRouters parse' routers st = .ok (created, st') →
        created.length = routers.length ∧ (∀ x ∈ routers.zip created, Builds libs cfg x.1.routerName x.2) ∧
          st'.Sound libs cfg ∧ st.Extends st'
  | [], created, st, st', hst, h => by
    cases h
    exact ⟨rfl, fun x hx => absurd hx List.not_mem_nil, hst, .refl st⟩
  | cr :: routers, created, st, st', hst, h => by
    simp only [parseRouters] at h
    cases hfirst : parse' cr.routerName st with
    | error e =>
      rw [hfirst] at h
      cases h
    | ok first =>
      obtain ⟨ri, st₁⟩ := first
      rw [hfirst] at h
      have hone := hparse cr.routerName st ri st₁ hst hfirst
      cases hrest : parseRouters parse' routers st₁ with
      | error e =>
        simp only [hrest, bind, Except.bind] at h
        cases h
      | ok rest =>
        obtain ⟨others, st₂⟩ := rest
        simp only [hrest, bind, Except.bind, pure, Except.pure] at h
        cases h
        obtain ⟨hlength, hall, hsound, hext⟩ := parseRouters_creates hparse hone.sound hrest
        refine ⟨congrArg (· + 1) hlength, fun x hx => ?_, hsound, hone.extend.trans hext⟩
        cases List.mem_cons.mp hx with
        | inl heq =>
          rw [heq]
          exact hone.builds
        | inr hmem => exact hall x hmem

/-- A step of the recursion, by the type of the router. -/
theorem parse_succ_creates {fuel : Nat}
    (hparse : ∀ name st r st', st.Sound libs cfg → parse libs cfg fuel name st = .ok (r, st') →
      Creates libs cfg name r st st')
    (hst : st.Sound libs cfg) (h : parse libs cfg (fuel + 1) name st = .ok (r, st')) :
    Creates libs cfg name r st st' := by
  rw [parse] at h
  split at h
  · rename_i hlookup
    cases h
    exact ⟨hst name r hlookup, hst, .refl st⟩
  · split at h
    · cases h
    · cases hcfg : cfg.lookup name with
      | none =>
        simp only [hcfg] at h
        cases h
      | some router =>
        cases router with
        | http params =>
          simp only [hcfg] at h
          cases hr : httpRoutingFromConfig libs params with
          | error e =>
            rw [hr] at h
            cases h
          | ok router =>
            rw [hr] at h
            cases h
            exact .create (sound_visit hst) (.http hcfg hr) (.refl _)
        | dht params =>
          simp only [hcfg] at h
          cases hr : dhtRoutingFromConfig libs params with
          | error e =>
            rw [hr] at h
            cases h
          | ok router =>
            rw [hr] at h
            cases h
            exact .create (sound_visit hst) (.dht hcfg hr) (.refl _)
        | composable type routers =>
          simp only [hcfg] at h
          cases hrouters : parseRouters (parse libs cfg fuel) routers (st.visit name) with
          | error e =>
            rw [hrouters] at h
            cases h
          | ok res =>
            obtain ⟨created, st₁⟩ := res
            rw [hrouters] at h
            cases h
            obtain ⟨hlength, hall, hsound, hext⟩ := parseRouters_creates hparse (sound_visit hst) hrouters
            exact .create hsound (.composable hcfg hlength hall) hext
        | unknown type =>
          simp only [hcfg] at h
          cases h

theorem parse_creates : ∀ (fuel : Nat) (name : String) (st : ParseState Base) (r : Router Base)
    (st' : ParseState Base), st.Sound libs cfg → parse libs cfg fuel name st = .ok (r, st') →
      Creates libs cfg name r st st'
  | 0, _, _, _, _, _, h => by cases h
  | fuel + 1, _, _, _, _, hst, h => parse_succ_creates (parse_creates fuel) hst h

/-! ### What can be built is created -/

/-- Of what the router needs, all that has been visited is there. -/
def ParseState.Clear (cfg : Routers) (name : String) (st : ParseState Base) : Prop :=
  ∀ other, Relation.ReflTransGen (Names cfg) name other → other ∈ st.visited → st.Created other

theorem ParseState.Clear.extends (h : st.Clear cfg name) (hext : st.Extends st') : st'.Clear cfg name := by
  intro other hother hvisited
  by_cases hbefore : other ∈ st.visited
  · exact hext.created other (h other hother hbefore)
  · exact hext.done other hvisited hbefore

/-- The path to a router is not in the way of those that it names. -/
theorem ParseState.Clear.visit (h : st.Clear cfg name) (hacyclic : ¬ Relation.TransGen (Names cfg) name name)
    {other : String} (hother : Names cfg name other) : (st.visit name).Clear cfg other := by
  intro last hlast hvisited
  cases List.mem_cons.mp hvisited with
  | inl heq =>
    rw [heq] at hlast
    exact absurd (Relation.TransGen.head' hother hlast) hacyclic
  | inr hmem => exact h last (.head hother hlast) hmem

/-- The call gives the router, if it has the fuel. -/
def Gives (x : Except RouterError (Router Base × ParseState Base)) (r : Router Base) : Prop :=
  (∃ st', x = .ok (r, st')) ∨ x = .error .stuck

/-- If every member can be built, then the list is built. -/
theorem parseRouters_gives
    (hcreates : ∀ name st r st', st.Sound libs cfg → parse' name st = .ok (r, st') → Creates libs cfg name r st st') :
    ∀ {routers : List ConfigRouter} {created : List (Router Base)} {st : ParseState Base},
      created.length = routers.length →
      (∀ x ∈ routers.zip created, ∀ st : ParseState Base, st.Sound libs cfg → st.Clear cfg x.1.routerName →
        Gives (parse' x.1.routerName st) x.2) →
      st.Sound libs cfg → (∀ cr ∈ routers, st.Clear cfg cr.routerName) →
        (∃ st', parseRouters parse' routers st = .ok (created, st')) ∨ parseRouters parse' routers st = .error .stuck
  | [], [], st, _, _, _, _ => .inl ⟨st, rfl⟩
  | cr :: routers, ri :: created, st, hlength, hgives, hst, hclear => by
    have hfirst := hgives (cr, ri) List.mem_cons_self st hst (hclear cr List.mem_cons_self)
    cases hfirst with
    | inr hstuck =>
      right
      rw [parseRouters, hstuck]
      rfl
    | inl hok =>
      obtain ⟨st₁, hok⟩ := hok
      have hone := hcreates cr.routerName st ri st₁ hst hok
      have hrest := parseRouters_gives hcreates (Nat.succ.inj hlength)
        (fun x hx => hgives x (List.mem_cons_of_mem (cr, ri) hx)) hone.sound
        (fun other hother => (hclear other (List.mem_cons_of_mem cr hother)).extends hone.extend)
      cases hrest with
      | inr hstuck =>
        right
        simp only [parseRouters, hok, bind, Except.bind, hstuck]
      | inl hok' =>
        obtain ⟨st₂, hok'⟩ := hok'
        left
        exact ⟨st₂, by simp only [parseRouters, hok, bind, Except.bind, hok', pure, Except.pure]⟩

/-- A name that has a router already gives that router. -/
theorem parse_gives_of_fresh {fuel : Nat} (h : Builds libs cfg name r) (hst : st.Sound libs cfg)
    (hclear : st.Clear cfg name)
    (hfresh : st.createdRouters.lookup name = none → name ∉ st.visited → Gives (parse libs cfg (fuel + 1) name st) r) :
    Gives (parse libs cfg (fuel + 1) name st) r := by
  cases hlookup : st.createdRouters.lookup name with
  | some r' =>
    rw [(hst name r' hlookup).unique h] at hlookup
    left
    exact ⟨st, by rw [parse, hlookup]⟩
  | none =>
    refine hfresh hlookup fun hvisited => ?_
    have hcreated : st.Created name := hclear name .refl hvisited
    rw [ParseState.Created, hlookup] at hcreated
    exact absurd hcreated Bool.false_ne_true

/-- Every router that can be built is built, from every state without its name on the way. -/
theorem parse_gives (h : Builds libs cfg name r) : ∀ (fuel : Nat) (st : ParseState Base), st.Sound libs cfg →
    st.Clear cfg name → Gives (parse libs cfg fuel name st) r := by
  induction h with
  | @http name params r hcfg hr =>
    intro fuel st hst hclear
    cases fuel with
    | zero => exact .inr rfl
    | succ fuel =>
      refine parse_gives_of_fresh (.http hcfg hr) hst hclear fun hlookup hnot => .inl ?_
      simp only [parse, hlookup, if_neg hnot, hcfg, hr]
      exact ⟨_, rfl⟩
  | @dht name params r hcfg hr =>
    intro fuel st hst hclear
    cases fuel with
    | zero => exact .inr rfl
    | succ fuel =>
      refine parse_gives_of_fresh (.dht hcfg hr) hst hclear fun hlookup hnot => .inl ?_
      simp only [parse, hlookup, if_neg hnot, hcfg, hr]
      exact ⟨_, rfl⟩
  | @composable name type routers created hcfg hlength hall ih =>
    intro fuel st hst hclear
    cases fuel with
    | zero => exact .inr rfl
    | succ fuel =>
      have hbuilds : Builds libs cfg name (compose type routers created) := .composable hcfg hlength hall
      refine parse_gives_of_fresh hbuilds hst hclear fun hlookup hnot => ?_
      have hloop := parseRouters_gives (parse_creates fuel) hlength (fun x hx => ih x hx fuel) (sound_visit hst)
        (fun cr hcr => hclear.visit hbuilds.acyclic ⟨type, routers, hcfg, cr, hcr, rfl⟩)
      simp only [parse, hlookup, if_neg hnot, hcfg]
      cases hloop with
      | inl hok =>
        obtain ⟨st', hok⟩ := hok
        rw [hok]
        exact .inl ⟨_, rfl⟩
      | inr hstuck =>
        rw [hstuck]
        exact .inr rfl

/-! ### The fuel suffices -/

def ParseState.unvisited (cfg : Routers) (st : ParseState Base) : Nat :=
  ((cfg.map Prod.fst).filter (· ∉ st.visited)).length

theorem unvisited_le (hext : ∀ name ∈ st.visited, name ∈ st'.visited) : st'.unvisited cfg ≤ st.unvisited cfg := by
  refine (List.monotone_filter_right _ fun other hother => ?_).length_le
  simp only [decide_not, Bool.not_eq_true', decide_eq_false_iff_not] at hother ⊢
  exact fun hmem => hother (hext other hmem)

theorem mem_keys_of_lookup {β : Type} {l : List (String × β)} {b : β} (h : l.lookup name = some b) :
    name ∈ l.map Prod.fst := by
  obtain ⟨l₁, l₂, hl, -⟩ := List.lookup_eq_some_iff.mp h
  rw [hl]
  exact List.mem_map.mpr ⟨(name, b), List.mem_append_right l₁ List.mem_cons_self, rfl⟩

/-- Each visit leaves fewer names. -/
theorem unvisited_visit_lt {config : RouterConfig} (hcfg : cfg.lookup name = some config) (hnot : name ∉ st.visited) :
    (st.visit name).unvisited cfg < st.unvisited cfg := by
  have hmem : name ∈ cfg.map Prod.fst := mem_keys_of_lookup hcfg
  have hsub : (cfg.map Prod.fst).filter (· ∉ (st.visit name).visited) =
      ((cfg.map Prod.fst).filter (· ∉ st.visited)).filter (· ≠ name) := by
    rw [List.filter_filter]
    refine List.filter_congr fun other _ => ?_
    simp only [ParseState.visit, List.mem_cons, not_or, Bool.decide_and]
  rw [ParseState.unvisited, hsub]
  refine List.length_filter_lt_length_iff_exists.mpr ⟨name, List.mem_filter.mpr ⟨hmem, by simpa using hnot⟩, by simp⟩

theorem unvisited_le_length : st.unvisited cfg ≤ cfg.length := by
  have hnames : (cfg.map Prod.fst).length = cfg.length := List.length_map _
  exact hnames ▸ List.length_filter_le _ _

/-- With enough fuel for every member there is enough for the list. -/
theorem parseRouters_not_stuck {bound : Nat}
    (hcreates : ∀ name st r st', st.Sound libs cfg → parse' name st = .ok (r, st') → Creates libs cfg name r st st')
    (hparse : ∀ name (st : ParseState Base), st.Sound libs cfg → st.unvisited cfg < bound → 
      parse' name st ≠ .error .stuck) :
    ∀ (routers : List ConfigRouter) (st : ParseState Base), st.Sound libs cfg → st.unvisited cfg < bound →
      parseRouters parse' routers st ≠ .error .stuck
  | [], _, _, _ => fun h => by cases h
  | cr :: routers, st, hst, hbound => by
    intro h
    simp only [parseRouters] at h
    cases hfirst : parse' cr.routerName st with
    | error e =>
      rw [hfirst] at h
      cases h
      exact hparse cr.routerName st hst hbound hfirst
    | ok first =>
      obtain ⟨ri, st₁⟩ := first
      rw [hfirst] at h
      have hone := hcreates cr.routerName st ri st₁ hst hfirst
      have hrest := parseRouters_not_stuck hcreates hparse routers st₁ hone.sound
        (Nat.lt_of_le_of_lt (unvisited_le hone.extend.visited) hbound)
      cases hothers : parseRouters parse' routers st₁ with
      | error e =>
        simp only [hothers, bind, Except.bind] at h
        cases h
        exact hrest hothers
      | ok rest =>
        simp only [hothers, bind, Except.bind] at h
        cases h

theorem library_not_stuck {x : Except String Base} : libraryResult x ≠ .error .stuck := by
  cases x <;> exact fun h => by cases h

theorem http_not_stuck {params : HTTPRouterParams} : httpRoutingFromConfig libs params ≠ .error .stuck := by
  rw [httpRoutingFromConfig]
  split
  · exact fun h => by cases h
  · exact library_not_stuck

/-- The parameters of a DHT take no fuel. -/
theorem dht_not_stuck {params : DHTRouterParams} : dhtRoutingFromConfig libs params ≠ .error .stuck := by
  rw [dhtRoutingFromConfig]
  split
  · exact library_not_stuck
  · split
    · exact library_not_stuck
    · exact library_not_stuck
    · exact library_not_stuck
    · exact fun h => by cases h

theorem error_of_create {x : Except RouterError (Router Base)} {e : RouterError}
    (h : (do let router ← x; return st.create name router) = .error e) : x = .error e := by
  cases x with
  | error e' =>
    cases h
    rfl
  | ok router => cases h

/-- As much fuel as there are unvisited names is enough. -/
theorem parse_not_stuck : ∀ (fuel : Nat) (name : String) (st : ParseState Base), st.Sound libs cfg →
    st.unvisited cfg < fuel → parse libs cfg fuel name st ≠ .error .stuck
  | 0, _, _, _, hfuel => absurd hfuel (Nat.not_lt_zero _)
  | fuel + 1, name, st, hst, hfuel => by
    intro h
    rw [parse] at h
    split at h
    · cases h
    · split at h
      · cases h
      · rename_i hnot
        cases hcfg : cfg.lookup name with
        | none =>
          simp only [hcfg] at h
          cases h
        | some router =>
          have hless : (st.visit name).unvisited cfg < fuel :=
            Nat.lt_of_lt_of_le (unvisited_visit_lt hcfg hnot) (Nat.le_of_lt_succ hfuel)
          cases router with
          | http params =>
            simp only [hcfg] at h
            exact http_not_stuck (error_of_create h)
          | dht params =>
            simp only [hcfg] at h
            exact dht_not_stuck (error_of_create h)
          | composable type routers =>
            simp only [hcfg] at h
            have hloop := parseRouters_not_stuck (parse_creates fuel) (parse_not_stuck fuel) routers
              (st.visit name) (sound_visit hst) hless
            cases hrouters : parseRouters (parse libs cfg fuel) routers (st.visit name) with
            | error e =>
              rw [hrouters] at h
              cases h
              exact hloop hrouters
            | ok res =>
              rw [hrouters] at h
              cases h
          | unknown type =>
            simp only [hcfg] at h
            cases h

theorem clear_of_unvisited (hvisited : st.visited = []) : st.Clear cfg name := by
  intro other _ hother
  rw [hvisited] at hother
  exact absurd hother List.not_mem_nil

/-- With nothing visited yet, a router is made exactly if it can be built. -/
theorem parse_ok_of_builds (h : Builds libs cfg name r) (hst : st.Sound libs cfg) (hvisited : st.visited = []) :
    ∃ st', parse libs cfg (cfg.length + 1) name st = .ok (r, st') := by
  cases parse_gives h (cfg.length + 1) st hst (clear_of_unvisited hvisited) with
  | inl hok => exact hok
  | inr hstuck =>
    refine absurd hstuck (parse_not_stuck (cfg.length + 1) name st hst ?_)
    exact Nat.lt_succ_of_le unvisited_le_length

end Parse

/-! ## The methods -/

/-- A map, in the order in which its loop goes over it. -/
structure Methods where
  entries : List (String × String)
  nodup : (entries.map Prod.fst).Nodup

def MethodNameList : List String := ["provide", "find-peers", "find-providers", "get-ipns", "put-ipns"]

def Methods.Check (m : Methods) : Except RouterError Unit :=
  match MethodNameList.find? (fun mn => mn ∉ m.entries.map Prod.fst) with
  | some mn => .error (.missingMethod mn)
  | none =>
    match m.entries.find? (fun e => e.1 ∉ MethodNameList) with
    | some e => .error (.unsupportedMethod e.1)
    | none => .ok ()

structure Composer (Base : Type) where
  putValueRouter : Option (Router Base) := none
  getValueRouter : Option (Router Base) := none
  findPeersRouter : Option (Router Base) := none
  findProvidersRouter : Option (Router Base) := none
  provideRouter : Option (Router Base) := none

section Definitions

variable {Base : Type} (libs : RouterLibraries Base) (cfg : Routers)

def Composer.set (c : Composer Base) (mn : String) (router : Router Base) : Composer Base :=
  match mn with
  | "put-ipns" => { c with putValueRouter := some router }
  | "get-ipns" => { c with getValueRouter := some router }
  | "find-peers" => { c with findPeersRouter := some router }
  | "find-providers" => { c with findProvidersRouter := some router }
  | "provide" => { c with provideRouter := some router }
  | _ => c

def Composer.get (c : Composer Base) (mn : String) : Option (Router Base) :=
  match mn with
  | "put-ipns" => c.putValueRouter
  | "get-ipns" => c.getValueRouter
  | "find-peers" => c.findPeersRouter
  | "find-providers" => c.findProvidersRouter
  | "provide" => c.provideRouter
  | _ => none

def parseMethods : List (String × String) → List (String × Router Base) → Composer Base →
    Except RouterError (Composer Base)
  | [], _, finalRouter => .ok finalRouter
  | (mn, routerName) :: methods, createdRouters, finalRouter => do
    let (router, st) ← parse libs cfg (cfg.length + 1) routerName { createdRouters }
    parseMethods methods st.createdRouters (finalRouter.set mn router)

def Parse (methods : Methods) : Except RouterError (Composer Base) := do
  methods.Check
  parseMethods libs cfg methods.entries [] {}

end Definitions

section Methods

variable {Base : Type} {libs : RouterLibraries Base} {cfg : Routers} {methods : Methods} {c c' : Composer Base}

/-- All methods are there, and nothing else. -/
theorem check_ok_iff :
    methods.Check = .ok () ↔
      (∀ mn ∈ MethodNameList, mn ∈ methods.entries.map Prod.fst) ∧ ∀ e ∈ methods.entries, e.1 ∈ MethodNameList := by
  rw [Methods.Check]
  cases hmissing : MethodNameList.find? (fun mn => mn ∉ methods.entries.map Prod.fst) with
  | some mn =>
    refine iff_of_false (fun h => by cases h) fun h => ?_
    have hmn := List.find?_some hmissing
    exact absurd (h.1 mn (List.mem_of_find?_eq_some hmissing)) (by simpa using hmn)
  | none =>
    have hall : ∀ mn ∈ MethodNameList, mn ∈ methods.entries.map Prod.fst := by
      intro mn hmn
      simpa using List.find?_eq_none.mp hmissing mn hmn
    cases hunsupported : methods.entries.find? (fun e => e.1 ∉ MethodNameList) with
    | some e =>
      refine iff_of_false (fun h => by cases h) fun h => ?_
      have he := List.find?_some hunsupported
      exact absurd (h.2 e (List.mem_of_find?_eq_some hunsupported)) (by simpa using he)
    | none =>
      refine iff_of_true rfl ⟨hall, fun e he => ?_⟩
      simpa using List.find?_eq_none.mp hunsupported e he

theorem check_not_stuck : methods.Check ≠ .error .stuck := by
  rw [Methods.Check]
  split
  · exact fun h => by cases h
  · split <;> exact fun h => by cases h

theorem composer_get_set {mn other : String} {router : Router Base} (hmn : mn ∈ MethodNameList) :
    (c.set mn router).get other = if other = mn then some router else c.get other := by
  simp only [MethodNameList, List.mem_cons, List.not_mem_nil, or_false] at hmn
  rcases hmn with rfl | rfl | rfl | rfl | rfl <;>
  · simp only [Composer.set, Composer.get]
    split <;> simp_all

/-- A composer is what it does for the five methods. -/
theorem composer_ext (h : ∀ mn ∈ MethodNameList, c.get mn = c'.get mn) : c = c' := by
  have hprovide := h "provide" (by decide)
  have hpeers := h "find-peers" (by decide)
  have hproviders := h "find-providers" (by decide)
  have hgetIPNS := h "get-ipns" (by decide)
  have hputIPNS := h "put-ipns" (by decide)
  cases c
  cases c'
  simp only [Composer.get] at hprovide hpeers hproviders hgetIPNS hputIPNS
  rw [hprovide, hpeers, hproviders, hgetIPNS, hputIPNS]

/-- What the loop over the methods has done. -/
theorem parseMethods_ok : ∀ {entries : List (String × String)} {created : List (String × Router Base)}
    {c c' : Composer Base}, (∀ e ∈ entries, e.1 ∈ MethodNameList) → (entries.map Prod.fst).Nodup →
      ParseState.Sound libs cfg { createdRouters := created } → parseMethods libs cfg entries created c = .ok c' →
        (∀ e ∈ entries, ∃ r, Builds libs cfg e.2 r ∧ c'.get e.1 = some r) ∧
          ∀ mn, mn ∉ entries.map Prod.fst → c'.get mn = c.get mn
  | [], created, c, c', _, _, _, h => by
    cases h
    exact ⟨fun e he => absurd he List.not_mem_nil, fun _ _ => rfl⟩
  | (mn, routerName) :: entries, created, c, c', hnames, hnodup, hsound, h => by
    simp only [parseMethods] at h
    cases hfirst : parse libs cfg (cfg.length + 1) routerName { createdRouters := created } with
    | error e =>
      rw [hfirst] at h
      cases h
    | ok first =>
      obtain ⟨router, st⟩ := first
      rw [hfirst] at h
      have hone := parse_creates _ _ _ _ _ hsound hfirst
      have hmn := hnames (mn, routerName) List.mem_cons_self
      obtain ⟨hfresh, hnodup⟩ := List.nodup_cons.mp hnodup
      obtain ⟨hall, hrest⟩ := parseMethods_ok (fun e he => hnames e (List.mem_cons_of_mem _ he)) hnodup hone.sound h
      constructor
      · intro e he
        cases List.mem_cons.mp he with
        | inl heq =>
          refine ⟨router, heq ▸ hone.builds, ?_⟩
          rw [heq, hrest mn hfresh, composer_get_set hmn, if_pos rfl]
        | inr hmem => exact hall e hmem
      · intro other hother
        obtain ⟨hne, hnot⟩ := not_or.mp (mt List.mem_cons.mpr hother)
        rw [hrest other hnot, composer_get_set hmn, if_neg hne]

theorem parseMethods_total : ∀ {entries : List (String × String)} {created : List (String × Router Base)}
    {c : Composer Base}, (∀ e ∈ entries, ∃ r, Builds libs cfg e.2 r) →
      ParseState.Sound libs cfg { createdRouters := created } → ∃ c', parseMethods libs cfg entries created c = .ok c'
  | [], _, c, _, _ => ⟨c, rfl⟩
  | (mn, routerName) :: entries, created, c, hall, hsound => by
    obtain ⟨r, hr⟩ := hall (mn, routerName) List.mem_cons_self
    obtain ⟨st, hst⟩ := parse_ok_of_builds hr hsound rfl
    obtain ⟨c', hc'⟩ := parseMethods_total (fun e he => hall e (List.mem_cons_of_mem _ he))
      (parse_creates _ _ _ _ _ hsound hst).sound
    exact ⟨c', by simp only [parseMethods, hst]; exact hc'⟩

/-- The methods take no fuel of their own. -/
theorem parseMethods_not_stuck : ∀ {entries : List (String × String)} {created : List (String × Router Base)}
    {c : Composer Base}, ParseState.Sound libs cfg { createdRouters := created } →
      parseMethods libs cfg entries created c ≠ .error .stuck
  | [], _, _, _ => fun h => by cases h
  | (mn, routerName) :: entries, created, c, hsound => by
    intro h
    simp only [parseMethods] at h
    cases hfirst : parse libs cfg (cfg.length + 1) routerName { createdRouters := created } with
    | error e =>
      rw [hfirst] at h
      cases h
      exact parse_not_stuck _ _ _ hsound (Nat.lt_succ_of_le unvisited_le_length) hfirst
    | ok first =>
      rw [hfirst] at h
      exact parseMethods_not_stuck (parse_creates _ _ _ _ _ hsound hfirst).sound h

theorem sound_nil : ParseState.Sound libs cfg { createdRouters := [] } := by
  intro name r h
  cases h

/-- With a configuration that is accepted, each method has the router of its name. -/
theorem accepted_builds (h : Parse libs cfg methods = .ok c) :
    methods.Check = .ok () ∧ ∀ e ∈ methods.entries, ∃ r, Builds libs cfg e.2 r ∧ c.get e.1 = some r := by
  rw [Parse] at h
  cases hcheck : methods.Check with
  | error e =>
    rw [hcheck] at h
    cases h
  | ok _ =>
    rw [hcheck] at h
    exact ⟨rfl, (parseMethods_ok (check_ok_iff.mp hcheck).2 methods.nodup sound_nil h).1⟩

/-- What is made of a configuration does not depend on the order of the methods. -/
theorem accepted_of_builds (hcheck : methods.Check = .ok ())
    (h : ∀ e ∈ methods.entries, ∃ r, Builds libs cfg e.2 r ∧ c.get e.1 = some r) : Parse libs cfg methods = .ok c := by
  have hbuilds : ∀ e ∈ methods.entries, ∃ r, Builds libs cfg e.2 r := fun e he => (h e he).imp fun _ hr => hr.1
  obtain ⟨c', hc'⟩ := @parseMethods_total _ _ _ _ _ {} hbuilds sound_nil
  have hparse : Parse libs cfg methods = .ok c' := by
    rw [Parse, hcheck]
    exact hc'
  rw [hparse, Except.ok.injEq]
  refine composer_ext fun mn hmn => ?_
  obtain ⟨e, he, rfl⟩ := List.mem_map.mp ((check_ok_iff.mp hcheck).1 mn hmn)
  obtain ⟨r, hr, hget⟩ := h e he
  obtain ⟨r', hr', hget'⟩ := (accepted_builds hparse).2 e he
  rw [hget, hget', hr.unique hr']

/-- The fuel never runs out. -/
theorem parse_ends : Parse libs cfg methods ≠ .error .stuck := by
  intro h
  rw [Parse] at h
  cases hcheck : methods.Check with
  | error e =>
    rw [hcheck] at h
    cases h
    exact check_not_stuck hcheck
  | ok _ =>
    rw [hcheck] at h
    exact parseMethods_not_stuck sound_nil h

/-- Which configurations are accepted, and with which routers. -/
theorem routers_accepted_iff (methods : Methods) (c : Composer Base) :
    (Parse libs cfg methods = .ok c ↔
      methods.Check = .ok () ∧ ∀ e ∈ methods.entries, ∃ r, Builds libs cfg e.2 r ∧ c.get e.1 = some r) ∧
    Parse libs cfg methods ≠ .error .stuck :=
  ⟨⟨accepted_builds, fun h => accepted_of_builds h.1 h.2⟩, parse_ends⟩

end Methods

/-! ## Looking for an HTTP router -/

/-- The loop over the routers that a composable one names; it ends at the first that supports HTTP. -/
def anySupports (supports : String → Option Bool) : List ConfigRouter → Option Bool
  | [] => some false
  | cr :: routers =>
    match supports cr.routerName with
    | some true => some true
    | some false => anySupports supports routers
    | none => none

/-- Nothing stops this when routers name each other in a loop, except the fuel. -/
def routerSupportsHTTPProviding (cfg : Routers) : Nat → String → Option Bool
  | 0, _ => none
  | fuel + 1, routerName =>
    match cfg.lookup routerName with
    | none => some false
    | some (.http _) => some true
    | some (.composable _ routers) => anySupports (routerSupportsHTTPProviding cfg fuel) routers
    | some (.dht _) => some false
    | some (.unknown _) => some false

def HasHTTPProviderConfigured (cfg : Routers) (methods : Methods) (fuel : Nat) : Option Bool :=
  if cfg = [] then some false
  else
    match methods.entries.lookup "provide" with
    | none => some false
    | some routerName => routerSupportsHTTPProviding cfg fuel routerName

section Supports

variable {Base : Type} {libs : RouterLibraries Base} {cfg : Routers} {name : String} {r : Router Base}
variable {supports : String → Option Bool} {routers : List ConfigRouter}

/-- The router is an HTTP router, or has one below it. -/
def ReachesHTTP (cfg : Routers) (name : String) : Prop :=
  ∃ other params, Relation.ReflTransGen (Names cfg) name other ∧ cfg.lookup other = some (.http params)

/-- A composed router reaches HTTP through one of its members. -/
theorem reachesHTTP_composable {type : Composable} (hcfg : cfg.lookup name = some (.composable type routers)) :
    ReachesHTTP cfg name ↔ ∃ cr ∈ routers, ReachesHTTP cfg cr.routerName := by
  constructor
  · rintro ⟨other, params, hpath, hother⟩
    cases hpath.cases_head with
    | inl heq =>
      rw [← heq, hcfg] at hother
      cases hother
    | inr hstep =>
      obtain ⟨mid, ⟨type', routers', hcfg', cr, hcr, rfl⟩, hrest⟩ := hstep
      rw [hcfg] at hcfg'
      cases hcfg'
      exact ⟨cr, hcr, other, params, hrest, hother⟩
  · rintro ⟨cr, hcr, other, params, hpath, hother⟩
    exact ⟨other, params, .head ⟨type, routers, hcfg, cr, hcr, rfl⟩ hpath, hother⟩

/-- A DHT does not reach HTTP. -/
theorem not_reachesHTTP_dht {params : DHTRouterParams} (hcfg : cfg.lookup name = some (.dht params)) :
    ¬ ReachesHTTP cfg name := by
  rintro ⟨other, params', hpath, hother⟩
  cases hpath.cases_head with
  | inl heq =>
    rw [← heq, hcfg] at hother
    cases hother
  | inr hstep =>
    obtain ⟨mid, ⟨type, routers, hcfg', -⟩, -⟩ := hstep
    rw [hcfg] at hcfg'
    cases hcfg'

/-- Asked one after another, the members answer for the composed router. -/
theorem anySupports_eq
    (h : ∀ cr ∈ routers, ∃ b, supports cr.routerName = some b ∧ (b = true ↔ ReachesHTTP cfg cr.routerName)) :
    ∃ b, anySupports supports routers = some b ∧ (b = true ↔ ∃ cr ∈ routers, ReachesHTTP cfg cr.routerName) := by
  induction routers with
  | nil => exact ⟨false, rfl, by simp⟩
  | cons cr routers ih =>
    obtain ⟨b, hb, hiff⟩ := h cr List.mem_cons_self
    cases b with
    | true => exact ⟨true, by rw [anySupports, hb], iff_of_true rfl ⟨cr, List.mem_cons_self, hiff.mp rfl⟩⟩
    | false =>
      obtain ⟨b', hb', hiff'⟩ := ih fun other hother => h other (List.mem_cons_of_mem cr hother)
      refine ⟨b', by rw [anySupports, hb, hb'], ?_⟩
      rw [hiff', List.exists_mem_cons_iff]
      exact (or_iff_right fun hreaches => Bool.false_ne_true (hiff.mpr hreaches)).symm

/-- For a router that can be built the search ends, and the answer is right; the fuel is for what the path has not
visited, as it is for `parse`. -/
theorem supports_of_builds (h : Builds libs cfg name r) : ∀ (fuel : Nat) (st : ParseState Base),
    (∀ other, Relation.ReflTransGen (Names cfg) name other → other ∉ st.visited) → st.unvisited cfg < fuel →
      ∃ b, routerSupportsHTTPProviding cfg fuel name = some b ∧ (b = true ↔ ReachesHTTP cfg name) := by
  induction h with
  | @http name params r hcfg _ =>
    intro fuel st _ hfuel
    cases fuel with
    | zero => exact absurd hfuel (Nat.not_lt_zero _)
    | succ fuel =>
      refine ⟨true, by rw [routerSupportsHTTPProviding, hcfg], iff_of_true rfl ?_⟩
      exact ⟨name, params, .refl, hcfg⟩
  | @dht name params r hcfg _ =>
    intro fuel st _ hfuel
    cases fuel with
    | zero => exact absurd hfuel (Nat.not_lt_zero _)
    | succ fuel =>
      refine ⟨false, by rw [routerSupportsHTTPProviding, hcfg], iff_of_false Bool.false_ne_true ?_⟩
      exact not_reachesHTTP_dht hcfg
  | @composable name type routers created hcfg hlength hall ih =>
    intro fuel st hclear hfuel
    have hbuilds : Builds libs cfg name (compose type routers created) := .composable hcfg hlength hall
    cases fuel with
    | zero => exact absurd hfuel (Nat.not_lt_zero _)
    | succ fuel =>
      have hless : (st.visit name).unvisited cfg < fuel :=
        Nat.lt_of_lt_of_le (unvisited_visit_lt hcfg (hclear name .refl)) (Nat.le_of_lt_succ hfuel)
      rw [routerSupportsHTTPProviding, hcfg, reachesHTTP_composable hcfg]
      refine anySupports_eq fun cr hcr => ?_
      have hnames : Names cfg name cr.routerName := ⟨type, routers, hcfg, cr, hcr, rfl⟩
      obtain ⟨i, hi, rfl⟩ := List.getElem_of_mem hcr
      have hi' : i < created.length := hlength ▸ hi
      refine ih (routers[i], created[i]) (mem_zip hi hi') fuel (st.visit name) (fun other hother => ?_) hless
      rintro (_ | ⟨_, hmem⟩)
      · exact hbuilds.acyclic (Relation.TransGen.head' hnames hother)
      · exact hclear other (.head hnames hother) hmem

variable {methods : Methods} {c : Composer Base}

/-- Methods have one entry each. -/
theorem lookup_eq_of_mem {mn : String} (h : (mn, name) ∈ methods.entries) :
    methods.entries.lookup mn = some name := by
  obtain ⟨l₁, l₂, hl⟩ := List.append_of_mem h
  refine List.lookup_eq_some_iff.mpr ⟨l₁, l₂, hl, fun e he => ?_⟩
  have hnodup := methods.nodup
  rw [hl, List.map_append] at hnodup
  have hne : mn ≠ e.1 := by
    intro heq
    refine List.disjoint_of_nodup_append hnodup (List.mem_map_of_mem he) ?_
    exact heq ▸ List.mem_cons_self
  simpa using hne

/-- An accepted configuration is searched to the end, and provides over HTTP exactly if the router for `provide` has an
HTTP router below it. -/
theorem http_provider_found_iff (h : Parse libs cfg methods = .ok c) (fuel : Nat) (hfuel : cfg.length < fuel) :
    ∃ b, HasHTTPProviderConfigured cfg methods fuel = some b ∧
      (b = true ↔ ∃ name, ("provide", name) ∈ methods.entries ∧ ReachesHTTP cfg name) := by
  obtain ⟨hcheck, hall⟩ := accepted_builds h
  obtain ⟨e, he, hprovide⟩ := List.mem_map.mp ((check_ok_iff.mp hcheck).1 "provide" (by decide))
  obtain ⟨r, hr, -⟩ := hall e he
  have hlookup : methods.entries.lookup "provide" = some e.2 := lookup_eq_of_mem (hprovide ▸ he)
  have hcfg : cfg ≠ [] := by
    intro hnil
    rw [hnil] at hr
    cases hr with
    | http hcfg _ | dht hcfg _ | composable hcfg _ _ => cases hcfg
  obtain ⟨b, hb, hiff⟩ := supports_of_builds hr fuel {} (fun _ _ => List.not_mem_nil)
    (Nat.lt_of_le_of_lt unvisited_le_length hfuel)
  refine ⟨b, ?_, hiff.trans ?_⟩
  · rw [HasHTTPProviderConfigured, if_neg hcfg, hlookup]
    exact hb
  constructor
  · exact fun hreaches => ⟨e.2, hprovide ▸ he, hreaches⟩
  · rintro ⟨name, hname, hreaches⟩
    have hsame := lookup_eq_of_mem hname
    rw [hlookup] at hsame
    cases hsame
    exact hreaches

end Supports

/-! ## A small configuration -/

namespace SmallRouting

def libs : RouterLibraries String where
  newHTTP params := .ok params.endpoint
  newFullRT := .ok "fullrt"
  newDHT _ _ := .ok "dht"
  gomaxprocs := 8

def cfg : Routers :=
  [("both", .composable .parallel [{ routerName := "table" }, { routerName := "delegated" }]),
   ("delegated", .http { endpoint := "https://delegated-ipfs.dev" }),
   ("table", .dht { mode := "auto" })]

theorem methods_nodup : MethodNameList.Nodup := by decide

def methods : Methods where
  entries := MethodNameList.map fun mn => (mn, "both")
  nodup := methods_nodup

def both : Router String :=
  compose .parallel [{ routerName := "table" }, { routerName := "delegated" }]
    [.base "dht", .base "https://delegated-ipfs.dev"]

theorem parse_small : Parse libs cfg methods = .ok ⟨some both, some both, some both, some both, some both⟩ := by
  rfl

theorem http_provider_found_small :
    ∃ b, HasHTTPProviderConfigured cfg methods 4 = some b ∧
      (b = true ↔ ∃ name, ("provide", name) ∈ methods.entries ∧ ReachesHTTP cfg name) :=
  http_provider_found_iff parse_small 4 (by decide)

example : HasHTTPProviderConfigured cfg methods 4 = some true := by rfl

end SmallRouting

end Kubo

end Kyneto
