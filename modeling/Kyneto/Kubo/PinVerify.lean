import Kyneto.Kubo.Node

/-!
# `ipfs pin verify`

The check of a pin goes down all links of it, and keeps the result for every node that it has been at, for the rest of
the command. `pinVerify_reports` says that what it reports is nevertheless a statement about the pin alone: it is broken
exactly if some node below it cannot be had, and all such nodes are named, or none if the command is to be quiet. The
interface for programs has the same walk a second time: it refuses no identifier, reports every pin and goes on when
the stream of pins has an error.

The links of a block never lead back to it, since they are hashes of what they lead to. This is what a `Dag` is.
-/

namespace Kyneto

namespace Kubo

/-- Links go down. -/
structure Dag where
  links : Links
  height : Cid → Nat
  height_lt : ∀ {c d}, d ∈ links c.type c.hash → height d < height c

structure PinStatus where
  ok : Bool
  badNodes : List (Cid × String) := []
  deriving DecidableEq, Repr

/-- What the libraries answer to the command: the error for an identifier that is refused, and the links of a block or
the error instead. -/
structure PinCheck (dag : Dag) where
  validateCid : Cid → Option String
  getLinks : Cid → Except String (List Cid)
  eq_links : ∀ {c l}, getLinks c = .ok l → l = dag.links c.type c.hash
  explain : Bool                            -- not `--quiet`
  includeOk : Bool                          -- `--verbose`

abbrev Visited := List (Cid × PinStatus)

section Definitions

variable {dag : Dag} (check : PinCheck dag)

def PinCheck.linksOf (c : Cid) : Except String (List Cid) :=
  match check.validateCid c with
  | some text => .error text
  | none => check.getLinks c

/-- Why a node cannot be had. -/
def PinCheck.failure (c : Cid) : Option String :=
  match check.linksOf c with
  | .ok _ => none
  | .error text => some text

def PinCheck.broken (c : Cid) (text : String) : PinStatus where
  ok := false
  badNodes := if check.explain then [(c, text)] else []

def PinStatus.with (status res : PinStatus) : PinStatus :=
  if res.ok then status else { ok := false, badNodes := status.badNodes ++ res.badNodes }

/-- The fuel bounds the depth of the links. -/
def checkPin : Nat → Cid → Visited → Option (PinStatus × Visited)
  | 0, _, _ => none
  | fuel + 1, root, visited =>
    match visited.lookup root with
    | some status => some (status, visited)
    | none =>
      match check.linksOf root with
      | .error text => some (check.broken root text, (root, check.broken root text) :: visited)
      | .ok links => do
        let (status, visited) ← links.foldlM (fun (status, visited) lnk => do
          let (res, visited) ← checkPin fuel lnk visited
          return (status.with res, visited)) (⟨true, []⟩, visited)
        return (status, (root, status) :: visited)

/-- What is reported: the status of a pin, or the end of the stream of pins. -/
inductive PinVerifyRes where
  | pin (c : Cid) (status : PinStatus)
  | err (text : String)
  deriving DecidableEq, Repr

def pinVerify (visited : Visited) : PinStream → Option (List PinVerifyRes)
  | [] => some []
  | .error text :: _ => some [.err text]
  | .ok c :: pins => do
    let (status, visited) ← checkPin check (dag.height c + 1) c visited
    let rest ← pinVerify visited pins
    return if ¬ status.ok ∨ check.includeOk then .pin c status :: rest else rest

/-- `PinAPI.Verify` does not validate identifiers and names all bad nodes. -/
def PinCheck.api : PinCheck dag := { check with validateCid := fun _ => none, explain := true }

def Verify (visited : Visited) : PinStream → Option (List PinVerifyRes)
  | [] => some []
  | .error text :: pins => do
    let rest ← Verify visited pins
    return .err text :: rest
  | .ok c :: pins => do
    let (status, visited) ← checkPin check.api (dag.height c + 1) c visited
    let rest ← Verify visited pins
    return .pin c status :: rest

end Definitions

/-! ## What a status means -/

section Proofs

variable {dag : Dag} {check : PinCheck dag} {c d : Cid} {status res : PinStatus} {visited : Visited}

/-- The node is at the end of a path of links from `c`, all of whose nodes can be had. -/
inductive Below (check : PinCheck dag) : Cid → Cid → Prop where
  | refl (c : Cid) : Below check c c
  | link {c d e : Cid} : check.failure c = none → d ∈ dag.links c.type c.hash → Below check d e → Below check c e

/-- The status is that of the node. -/
structure Tells (check : PinCheck dag) (c : Cid) (status : PinStatus) : Prop where
  ok : status.ok = true ↔ ∀ d, Below check c d → check.failure d = none
  badNodes : check.explain = true →
    ∀ d text, (d, text) ∈ status.badNodes ↔ Below check c d ∧ check.failure d = some text
  quiet : check.explain = false → status.badNodes = []

theorem links_eq {l : List Cid} (h : check.linksOf c = .ok l) : l = dag.links c.type c.hash := by
  unfold PinCheck.linksOf at h
  split at h
  · cases h
  · exact check.eq_links h

/-- Below a node that cannot be had is only the node itself. -/
theorem below_of_failure {text : String} (h : check.failure c = some text) : Below check c d ↔ d = c := by
  constructor
  · intro hd
    cases hd with
    | refl => rfl
    | link hc =>
      rw [h] at hc
      cases hc
  · rintro rfl
    exact .refl _

/-- Below a node that can be had are the node and all that is below its links. -/
theorem below_of_links (h : check.failure c = none) :
    Below check c d ↔ d = c ∨ ∃ e ∈ dag.links c.type c.hash, Below check e d := by
  constructor
  · intro hd
    cases hd with
    | refl => exact Or.inl rfl
    | link _ he hd => exact Or.inr ⟨_, he, hd⟩
  · rintro (rfl | ⟨e, he, hd⟩)
    · exact .refl _
    · exact .link h he hd

/-- The status of a node that cannot be had is right. -/
theorem tells_broken {text : String} (h : check.failure c = some text) : Tells check c (check.broken c text) := by
  constructor
  · refine iff_of_false Bool.false_ne_true ?_
    intro hall
    have hself := hall c (.refl c)
    rw [h] at hself
    cases hself
  · intro hexplain d other
    rw [PinCheck.broken, if_pos hexplain, List.mem_singleton, below_of_failure h, Prod.mk.injEq]
    refine and_congr_right ?_
    rintro rfl
    rw [h, Option.some.injEq, eq_comm]
  · intro hquiet
    exact if_neg (Bool.eq_false_iff.mp hquiet)

/-- What the loop has gathered after some of the links. -/
structure Gathers (check : PinCheck dag) (links : List Cid) (status : PinStatus) : Prop where
  ok : status.ok = true ↔ ∀ e ∈ links, ∀ d, Below check e d → check.failure d = none
  badNodes : check.explain = true →
    ∀ d text, (d, text) ∈ status.badNodes ↔ (∃ e ∈ links, Below check e d) ∧ check.failure d = some text
  quiet : check.explain = false → status.badNodes = []

theorem gathers_nil (check : PinCheck dag) : Gathers check [] ⟨true, []⟩ where
  ok := by simp
  badNodes := by simp
  quiet _ := rfl

/-- The status after one more link has the bad nodes of all links so far. -/
theorem gathers_snoc {links : List Cid} {e : Cid} (h : Gathers check links status) (he : Tells check e res) :
    Gathers check (links ++ [e]) (status.with res) := by
  unfold PinStatus.with
  split
  · next hres =>
    have hfine := he.ok.mp hres
    constructor
    · rw [h.ok]
      simp only [List.mem_append, List.mem_singleton, or_imp, forall_and, forall_eq]
      exact (and_iff_left hfine).symm
    · intro hexplain d text
      rw [h.badNodes hexplain]
      refine and_congr_left fun hd => ⟨?_, ?_⟩
      · rintro ⟨x, hx, hbelow⟩
        exact ⟨x, List.mem_append_left _ hx, hbelow⟩
      · rintro ⟨x, hx, hbelow⟩
        rcases List.mem_append.mp hx with hx | hx
        · exact ⟨x, hx, hbelow⟩
        · -- nothing below a link with a good result fails
          obtain rfl := List.mem_singleton.mp hx
          rw [hfine d hbelow] at hd
          cases hd
    · exact h.quiet
  · next hres =>
    constructor
    · refine iff_of_false Bool.false_ne_true ?_
      intro hall
      exact hres (he.ok.mpr (hall e (List.mem_append_right _ List.mem_cons_self)))
    · intro hexplain d text
      rw [List.mem_append, h.badNodes hexplain, he.badNodes hexplain, ← or_and_right]
      refine and_congr_left fun _ => ?_
      simp only [List.mem_append, List.mem_singleton, or_and_right, exists_or, exists_eq_left]
    · intro hquiet
      show status.badNodes ++ res.badNodes = []
      rw [h.quiet hquiet, he.quiet hquiet, List.append_nil]

/-- When all links of a node have been gathered, and the node itself can be had, the status is that of the node. -/
theorem tells_of_gathers (h : check.failure c = none)
    (hlinks : Gathers check (dag.links c.type c.hash) status) : Tells check c status := by
  constructor
  · rw [hlinks.ok]
    constructor
    · intro hall d hd
      rcases (below_of_links h).mp hd with rfl | ⟨e, he, hd⟩
      · exact h
      · exact hall e he d hd
    · intro hall e he d hd
      exact hall d ((below_of_links h).mpr (Or.inr ⟨e, he, hd⟩))
  · intro hexplain d text
    rw [hlinks.badNodes hexplain, below_of_links h]
    refine and_congr_left fun hd => (or_iff_right ?_).symm
    rintro rfl
    rw [h] at hd
    cases hd
  · exact hlinks.quiet

/-- Whatever has been visited is right. -/
def AllTell (check : PinCheck dag) (visited : Visited) : Prop :=
  ∀ c status, visited.lookup c = some status → Tells check c status

theorem allTell_nil (check : PinCheck dag) : AllTell check [] := by
  intro c status h
  cases h

theorem allTell_cons (h : AllTell check visited) (hc : Tells check c status) :
    AllTell check ((c, status) :: visited) := by
  intro d other hd
  rw [List.lookup_cons] at hd
  split at hd
  · next heq =>
    obtain rfl := Option.some.inj hd
    exact beq_iff_eq.mp heq ▸ hc
  · exact h d other hd

/-- With fuel for the depth of its links, the check of a node comes to an end, and tells about this node and about all
that it has visited. -/
theorem checkPin_tells (fuel : Nat) (root : Cid) (hfuel : dag.height root < fuel) (h : AllTell check visited) :
    ∃ status visited', checkPin check fuel root visited = some (status, visited') ∧
      Tells check root status ∧ AllTell check visited' := by
  induction fuel generalizing root visited with
  | zero => exact absurd hfuel (Nat.not_lt_zero _)
  | succ fuel ih =>
    unfold checkPin
    split
    · next status hvisited => exact ⟨status, visited, rfl, h root status hvisited, h⟩
    · split
      · next text hlinks =>
        have hfailure : check.failure root = some text := by rw [PinCheck.failure, hlinks]
        exact ⟨_, _, rfl, tells_broken hfailure, allTell_cons h (tells_broken hfailure)⟩
      · next links hlinks =>
        have hfailure : check.failure root = none := by rw [PinCheck.failure, hlinks]
        obtain rfl := links_eq hlinks
        -- the loop over the links: what is done, what is still to come
        have hloop : ∀ (todo done : List Cid) (status : PinStatus) (visited : Visited),
            done ++ todo = dag.links root.type root.hash → Gathers check done status → AllTell check visited →
            ∃ status' visited', todo.foldlM (fun (st : PinStatus × Visited) lnk => do
                let (res, visited) ← checkPin check fuel lnk st.2
                return (st.1.with res, visited)) (status, visited) = some (status', visited') ∧
              Gathers check (dag.links root.type root.hash) status' ∧ AllTell check visited' := by
          intro todo
          induction todo with
          | nil =>
            intro done status visited hdone hstatus hvisited
            rw [List.append_nil] at hdone
            exact ⟨status, visited, rfl, hdone ▸ hstatus, hvisited⟩
          | cons lnk todo ihLoop =>
            intro done status visited hdone hstatus hvisited
            have hlnk : lnk ∈ dag.links root.type root.hash := hdone ▸ List.mem_append_right _ List.mem_cons_self
            have hheight : dag.height lnk < fuel := Nat.lt_of_lt_of_le (dag.height_lt hlnk) (Nat.le_of_lt_succ hfuel)
            obtain ⟨res, visited₁, hres, htells, hvisited₁⟩ := ih lnk hheight hvisited
            obtain ⟨status', visited', hrest, hstatus', hvisited'⟩ :=
              ihLoop (done ++ [lnk]) (status.with res) visited₁ (by simpa using hdone) (gathers_snoc hstatus htells)
                hvisited₁
            refine ⟨status', visited', ?_, hstatus', hvisited'⟩
            rw [List.foldlM_cons]
            simp only [hres]
            exact hrest
        obtain ⟨status, visited', hfold, hstatus, hvisited'⟩ := hloop _ [] _ visited rfl (gathers_nil check) h
        refine ⟨status, (root, status) :: visited', ?_, tells_of_gathers hfailure hstatus,
          allTell_cons hvisited' (tells_of_gathers hfailure hstatus)⟩
        simp only [hfold]
        rfl

/-- Everything below the node can be had. -/
def Sound (check : PinCheck dag) (c : Cid) : Prop := ∀ d, Below check c d → check.failure d = none

/-- What is reported about the pins of a stream. -/
structure Reports (check : PinCheck dag) (stream : PinStream) (out : List PinVerifyRes) : Prop where
  tells : ∀ c status, .pin c status ∈ out →
    .ok c ∈ stream ∧ Tells check c status ∧ (status.ok = false ∨ check.includeOk = true)
  all : (∀ e, .error e ∉ stream) →
    ∀ c, .ok c ∈ stream → check.includeOk = true ∨ ¬ Sound check c → ∃ status, .pin c status ∈ out

/-- The command goes on from results that are right already. -/
theorem pinVerify_from (check : PinCheck dag) (stream : PinStream) (h : AllTell check visited) :
    ∃ out, pinVerify check visited stream = some out ∧ Reports check stream out := by
  induction stream generalizing visited with
  | nil =>
    exact ⟨[], rfl, fun _ _ hmem => absurd hmem List.not_mem_nil, fun _ _ hmem => absurd hmem List.not_mem_nil⟩
  | cons pin stream ih =>
    cases pin with
    | error text =>
      refine ⟨[.err text], rfl, ?_, fun hstream => absurd List.mem_cons_self (hstream text)⟩
      intro c status hmem
      cases List.mem_singleton.mp hmem
    | ok c =>
      obtain ⟨status, visited', hcheck, htells, hvisited'⟩ := checkPin_tells _ c (Nat.lt_succ_self _) h
      obtain ⟨rest, hrest, hreports⟩ := ih hvisited'
      refine ⟨if ¬ status.ok ∨ check.includeOk then .pin c status :: rest else rest, ?_, ?_, ?_⟩
      · rw [pinVerify, hcheck]
        simp only [Option.bind_eq_bind, Option.bind_some, hrest]
        rfl
      · intro d other hmem
        have hold : .pin d other ∈ rest → .ok d ∈ (.ok c :: stream : PinStream) ∧ Tells check d other ∧
            (other.ok = false ∨ check.includeOk = true) := by
          intro hmem
          obtain ⟨hd, hrest⟩ := hreports.tells d other hmem
          exact ⟨List.mem_cons_of_mem _ hd, hrest⟩
        split at hmem
        · next hshown =>
          rcases List.mem_cons.mp hmem with heq | hmem
          · cases heq
            exact ⟨List.mem_cons_self, htells, hshown.imp_left Bool.eq_false_iff.mpr⟩
          · exact hold hmem
        · exact hold hmem
      · intro hstream d hd hshown
        rcases List.mem_cons.mp hd with hd | hd
        · cases hd
          have hif : ¬ status.ok = true ∨ check.includeOk = true :=
            hshown.symm.imp_left fun hbroken hok => hbroken (htells.ok.mp hok)
          exact ⟨status, by rw [if_pos hif]; exact List.mem_cons_self⟩
        · obtain ⟨other, hother⟩ := hreports.all (fun e he => hstream e (List.mem_cons_of_mem _ he)) d hd hshown
          refine ⟨other, ?_⟩
          split
          · exact List.mem_cons_of_mem _ hother
          · exact hother

/-- What the interface for programs answers to a pin of the stream. -/
inductive Answers (check : PinCheck dag) : Except String Cid → PinVerifyRes → Prop where
  | err (text : String) : Answers check (.error text) (.err text)
  | pin {c : Cid} {status : PinStatus} : Tells check c status → Answers check (.ok c) (.pin c status)

/-- So does the interface for programs. -/
theorem verify_from (check : PinCheck dag) (stream : PinStream) (h : AllTell check.api visited) :
    ∃ out, Verify check visited stream = some out ∧ List.Forall₂ (Answers check.api) stream out := by
  induction stream generalizing visited with
  | nil => exact ⟨[], rfl, .nil⟩
  | cons pin stream ih =>
    cases pin with
    | error text =>
      obtain ⟨rest, hrest, hanswers⟩ := ih h
      exact ⟨.err text :: rest, by rw [Verify, hrest]; rfl, .cons (.err text) hanswers⟩
    | ok c =>
      obtain ⟨status, visited', hcheck, htells, hvisited'⟩ := checkPin_tells _ c (Nat.lt_succ_self _) h
      obtain ⟨rest, hrest, hanswers⟩ := ih hvisited'
      refine ⟨.pin c status :: rest, ?_, .cons (.pin htells) hanswers⟩
      rw [Verify, hcheck]
      simp only [Option.bind_eq_bind, Option.bind_some, hrest]
      rfl

/-! ## What is broken -/

/-- The links of the block can be read: a raw block has none, whether it is there or not. -/
def Readable (blocks : List Multihash) (c : Cid) : Prop := c.type = rawCodec ∨ Available blocks c.hash

/-- A check that refuses no identifier and reads the links of the blocks of a node. -/
structure Local (check : PinCheck dag) (blocks : List Multihash) : Prop where
  validateCid : ∀ c, check.validateCid c = none
  getLinks : ∀ c, (∃ l, check.getLinks c = .ok l) ↔ Readable blocks c

theorem failure_eq_none {blocks : List Multihash} (h : Local check blocks) :
    check.failure c = none ↔ Readable blocks c := by
  rw [← h.getLinks, PinCheck.failure, PinCheck.linksOf, h.validateCid]
  cases check.getLinks c with
  | ok l => exact iff_of_true rfl ⟨l, rfl⟩
  | error text => exact iff_of_false (Option.some_ne_none text) (by rintro ⟨l, hl⟩; cases hl)

theorem Below.snoc {e : Cid} (h : Below check c d) (hd : check.failure d = none)
    (he : e ∈ dag.links d.type d.hash) : Below check c e := by
  induction h with
  | refl c => exact .link hd he (.refl e)
  | link hc hlink _ ih => exact .link hc hlink (ih hd he)

theorem Below.reach {roots : List Cid} (h : Below check c d)
    (hc : (linkGraph dag.links).Reach roots (fun _ => False) c) :
    (linkGraph dag.links).Reach roots (fun _ => False) d := by
  induction h with
  | refl => exact hc
  | link _ hlink _ ih => exact ih (.link hc hlink id)

/-- A check that reads the blocks of a node finds a pin sound exactly if all that is linked from it can be read. Of raw
leaves it does not see whether they are there. -/
theorem sound_iff_readable {blocks : List Multihash} (h : Local check blocks) :
    Sound check c ↔ ∀ k, (linkGraph dag.links).Reaches [c] (fun _ => False) k → Readable blocks k := by
  constructor
  · intro hsound k hk
    have hbelow : ∃ d, Below check c d ∧ d.toCidV1 = k := by
      refine hk.mem_of_closed (S := fun k => ∃ d, Below check c d ∧ d.toCidV1 = k) ?_ ?_
      · intro r hr _
        exact ⟨c, .refl c, congrArg Cid.toCidV1 (List.mem_singleton.mp hr).symm⟩
      · rintro k ⟨d, hd, hkey⟩ -
        exact ⟨d, hkey, fun e he _ => ⟨e, hd.snoc (hsound d hd) he, rfl⟩⟩
    obtain ⟨d, hd, rfl⟩ := hbelow
    rw [Readable, Cid.type_toCidV1, Cid.hash_toCidV1]
    exact (failure_eq_none h).mp (hsound d hd)
  · intro hreadable d hd
    rw [failure_eq_none h, Readable, ← d.type_toCidV1, ← d.hash_toCidV1]
    exact hreadable _ ⟨d, hd.reach (.root List.mem_cons_self id), rfl⟩

/-- **What `pin verify` reports.** The command comes to an end; every status is that of a pin, broken exactly if some
node below it cannot be had, with all such nodes; and no broken pin is left out. The interface for programs comes to an
end as well, and answers to every pin. -/
theorem pinVerify_reports (check : PinCheck dag) (stream : PinStream) :
    (∃ out, pinVerify check [] stream = some out ∧ Reports check stream out) ∧
      ∃ out, Verify check [] stream = some out ∧ List.Forall₂ (Answers check.api) stream out :=
  ⟨pinVerify_from check stream (allTell_nil check), verify_from check stream (allTell_nil check.api)⟩

/-- The command finds nothing broken exactly if all but raw leaves is there of what is pinned recursively. -/
theorem pinVerify_clean_iff {s : Repo} {stream : PinStream} (hlocal : Local check s.blocks)
    (hstream : stream.Of s.recursive) (hok : ∀ e, .error e ∉ stream) :
    ∃ out, pinVerify check [] stream = some out ∧
      ((∀ c status, .pin c status ∈ out → status.ok = true) ↔ ∀ c ∈ s.recursive,
        ∀ k, (linkGraph dag.links).Reaches [c] (fun _ => False) k → Readable s.blocks k) := by
  obtain ⟨out, hout, htells, hall⟩ := pinVerify_from check stream (allTell_nil check)
  refine ⟨out, hout, ?_, ?_⟩
  · intro hclean c hc
    rw [← sound_iff_readable hlocal]
    by_contra hbroken
    obtain ⟨status, hstatus⟩ := hall hok c (hstream.2 hok c hc) (Or.inr hbroken)
    exact hbroken ((htells c status hstatus).2.1.ok.mp (hclean c status hstatus))
  · intro hreadable c status hstatus
    obtain ⟨hmem, hstatusOk, -⟩ := htells c status hstatus
    exact hstatusOk.ok.mpr ((sound_iff_readable hlocal).mpr (hreadable c (hstream.1 c hmem)))

end Proofs

/-! ### A block that is missing -/

namespace SmallRepo

/-- Block 1 links to block 2, and block 3 to block 4. -/
def dag : Dag where
  links := links
  height c := if c.hash = 1 ∨ c.hash = 3 then 1 else 0
  height_lt {c d} h := by
    unfold links at h
    split at h
    · next hc =>
      obtain rfl := List.mem_singleton.mp h
      rw [if_pos (Or.inl hc)]
      decide
    · split at h
      · next hc =>
        obtain rfl := List.mem_singleton.mp h
        rw [if_pos (Or.inr hc)]
        decide
      · cases h

/-- The node has the first three blocks, and is asked without options. -/
def check : PinCheck dag where
  validateCid _ := none
  getLinks c := if c.type = rawCodec ∨ c.hash ∈ [1, 2, 3] then .ok (links c.type c.hash) else .error "not found"
  eq_links h := by
    split at h
    · exact (Except.ok.inj h).symm
    · cases h
  explain := true
  includeOk := false

/-- Block 1 and block 4 are pinned, and of block 4 the command says that it is missing. -/
theorem pinVerify_small : Tells check (.v1 dagProtobuf 4) ⟨false, [(.v1 dagProtobuf 4, "not found")]⟩ := by
  obtain ⟨⟨out, hout, hreports⟩, -⟩ := pinVerify_reports check [.ok (.v1 dagProtobuf 1), .ok (.v1 dagProtobuf 4)]
  have hout' : pinVerify check [] [.ok (.v1 dagProtobuf 1), .ok (.v1 dagProtobuf 4)] =
      some [.pin (.v1 dagProtobuf 4) ⟨false, [(.v1 dagProtobuf 4, "not found")]⟩] := by
    decide
  rw [hout', Option.some.injEq] at hout
  subst hout
  exact (hreports.tells _ _ List.mem_cons_self).2.1

end SmallRepo

end Kubo

end Kyneto
