import Kyneto.StorageToken.Supply

/-!
# Batches of transfers

A batch pays one recipient after the other, so a recipient may come up several times, and the sender may be one of
them. What a batch does when it goes through does not depend on the order (`transferEach_ok`); whether it goes through
does, as soon as the sender pays itself: the sender must hold such a payment for a moment, on top of all that has left
by then (`transferEach_succeeds_iff`).
-/

namespace Kyneto

open Evm

namespace StorageToken

/-! ## Sums over a batch -/

/-- All that a batch moves. -/
def total (pairs : List (Address × Nat)) : Nat := (pairs.map Prod.snd).sum

/-- What a batch sends to `a`. -/
def sentTo (a : Address) (pairs : List (Address × Nat)) : Nat := total (pairs.filter fun p => p.1 = a)

/-- What a batch of `src` sends to others. -/
def leaving (src : Address) (pairs : List (Address × Nat)) : Nat := total (pairs.filter fun p => p.1 ≠ src)

section Sums

variable {src a : Address} {p : Address × Nat} {pairs pairs' : List (Address × Nat)}

@[simp] theorem total_nil : total [] = 0 := rfl

@[simp] theorem total_cons : total (p :: pairs) = p.2 + total pairs := List.sum_cons

theorem total_append : total (pairs ++ pairs') = total pairs + total pairs' := by
  simp [total]

theorem total_zip {recipients : List Address} {amounts : List Nat} (h : recipients.length = amounts.length) :
    total (recipients.zip amounts) = amounts.sum := by
  rw [total, List.map_snd_zip (Nat.le_of_eq h.symm)]

@[simp] theorem sentTo_nil : sentTo a [] = 0 := rfl

theorem sentTo_cons : sentTo a (p :: pairs) = (if p.1 = a then p.2 else 0) + sentTo a pairs := by
  unfold sentTo
  by_cases h : p.1 = a <;> simp [h]

@[simp] theorem leaving_nil : leaving src [] = 0 := rfl

theorem leaving_cons : leaving src (p :: pairs) = (if p.1 = src then 0 else p.2) + leaving src pairs := by
  unfold leaving
  by_cases h : p.1 = src <;> simp [h]

theorem leaving_of_notMem (h : ∀ p ∈ pairs, p.1 ≠ src) : leaving src pairs = total pairs := by
  rw [leaving, List.filter_eq_self.mpr fun p hp => decide_eq_true (h p hp)]

theorem total_perm (h : pairs.Perm pairs') : total pairs = total pairs' := (h.map _).sum_eq

theorem sentTo_perm (h : pairs.Perm pairs') : sentTo a pairs = sentTo a pairs' := total_perm (h.filter _)

end Sums

/-! ## What a batch does -/

/-- The token after `src` paid all pairs of a batch. -/
def afterBatch (t : StorageToken) (src : Address) (pairs : List (Address × Nat)) : StorageToken :=
  { t with balanceOf := fun a => t.balanceOf a + sentTo a pairs - if a = src then total pairs else 0 }

section Batches

variable {t t' : StorageToken} {msg : Msg} {src : Address} {pairs pairs' : List (Address × Nat)}
  {recipients : List Address} {amounts : List Nat} {logs : List TokenLog}

theorem afterBatch_nil : t.afterBatch src [] = t := by
  simp [afterBatch]

/-- The first payment of a batch, and then the others. -/
theorem afterBatch_cons {dst : Address} {value : Nat} (hle : value ≤ t.balanceOf src) :
    ({ t with toErc20 := t.toErc20.move src dst value } : StorageToken).afterBatch src pairs =
      t.afterBatch src ((dst, value) :: pairs) := by
  have hbalance : ∀ a, (t.toErc20.move src dst value).balanceOf a + sentTo a pairs -
      (if a = src then total pairs else 0) =
        t.balanceOf a + sentTo a ((dst, value) :: pairs) -
          if a = src then total ((dst, value) :: pairs) else 0 := by
    intro a
    rw [sentTo_cons, total_cons]
    by_cases ha : a = src
    · subst ha
      rw [Erc20.balanceOf_move_src t.toErc20 dst hle]
      by_cases hd : dst = a
      · simp only [hd, if_true]
        omega
      · simp only [hd, if_true, if_false]
        omega
    · by_cases hd : dst = a
      · subst hd
        rw [Erc20.balanceOf_move_dst t.toErc20 value (Ne.symm ha)]
        simp only [ha, if_true, if_false]
        omega
      · have hrest : (t.toErc20.move src dst value).balanceOf a = t.balanceOf a := by
          simp [Erc20.move, Function.update_of_ne (Ne.symm hd), Function.update_of_ne ha]
        rw [hrest]
        simp only [ha, hd, if_false]
        omega
  unfold afterBatch
  rw [funext hbalance]
  rfl

/-- A batch that goes through: where the tokens went, and that the sender had what it sent. -/
theorem transferEach_ok (h : t.transferEach src pairs = .ok (t', logs)) :
    t' = t.afterBatch src pairs ∧ total pairs ≤ t.balanceOf src + sentTo src pairs ∧
      logs = pairs.map fun p => .Transfer src p.1 p.2 := by
  induction pairs generalizing t logs with
  | nil =>
    obtain ⟨rfl, rfl⟩ := Prod.mk.inj (Except.ok.inj h)
    exact ⟨afterBatch_nil.symm, Nat.zero_le _, rfl⟩
  | cons p rest ih =>
    obtain ⟨dst, value⟩ := p
    simp only [transferEach, bind_eq_ok, transfer_eq_ok, Prod.exists, Prod.mk.injEq, pure_eq_ok] at h
    obtain ⟨t₁, l₁, ⟨-, -, hle, rfl, rfl⟩, t₂, l₂, hrest, rfl, rfl⟩ := h
    obtain ⟨hstate, hcovered, hlogs⟩ := ih hrest
    refine ⟨hstate.trans (afterBatch_cons hle), ?_, ?_⟩
    · have hmoved := Erc20.balanceOf_move_src t.toErc20 dst hle
      rw [hmoved] at hcovered
      rw [total_cons, sentTo_cons]
      by_cases hd : dst = src
      · simp only [hd, if_true] at hcovered ⊢
        omega
      · simp only [hd, if_false] at hcovered ⊢
        omega
    · rw [hlogs]
      rfl

/-- The account balances after a batch, without subtraction. -/
theorem balanceOf_afterBatch (hcovered : total pairs ≤ t.balanceOf src + sentTo src pairs) (a : Address) :
    (t.afterBatch src pairs).balanceOf a + (if a = src then total pairs else 0) =
      t.balanceOf a + sentTo a pairs := by
  show t.balanceOf a + sentTo a pairs - (if a = src then total pairs else 0) + _ = _
  split
  · next ha =>
    subst ha
    exact Nat.sub_add_cancel hcovered
  · rfl

/-- The order of a batch does not change what it does. -/
theorem afterBatch_perm (h : pairs.Perm pairs') : t.afterBatch src pairs = t.afterBatch src pairs' := by
  unfold afterBatch
  simp only [sentTo_perm h, total_perm h]

/-! ## When a batch goes through -/

/-- What the sender needs after a payment, and before it. -/
theorem leaving_add_le_iff {dst : Address} {value n : Nat} (hle : value ≤ t.balanceOf src) :
    leaving src pairs + n ≤ (t.toErc20.move src dst value).balanceOf src ↔
      leaving src ((dst, value) :: pairs) + n ≤ t.balanceOf src := by
  rw [Erc20.balanceOf_move_src t.toErc20 dst hle, leaving_cons]
  by_cases hd : dst = src
  · simp only [hd, if_true]
    omega
  · simp only [hd, if_false]
    omega

/-- **When a batch goes through**: before each payment, the sender has it on top of what has left. -/
theorem transferEach_succeeds_iff :
    (∃ out, t.transferEach src pairs = .ok out) ↔
      ∀ before p, before ++ [p] <+: pairs →
        src ≠ 0 ∧ p.1 ≠ 0 ∧ leaving src before + p.2 ≤ t.balanceOf src := by
  induction pairs generalizing t with
  | nil => exact iff_of_true ⟨_, rfl⟩ forall_prefix_nil
  | cons p rest ih =>
    obtain ⟨dst, value⟩ := p
    rw [forall_prefix_cons]
    constructor
    · rintro ⟨out, h⟩
      simp only [transferEach, bind_eq_ok, transfer_eq_ok, Prod.exists, Prod.mk.injEq] at h
      obtain ⟨t₁, l₁, ⟨hsrc, hdst, hle, rfl, rfl⟩, t₂, l₂, hrest, -⟩ := h
      refine ⟨⟨hsrc, hdst, by rwa [leaving_nil, Nat.zero_add]⟩, ?_⟩
      intro before p hpre
      obtain ⟨-, hp, hcovered⟩ := ih.mp ⟨_, hrest⟩ before p hpre
      exact ⟨hsrc, hp, (leaving_add_le_iff hle).mp hcovered⟩
    · rintro ⟨⟨hsrc, hdst, hfirst⟩, hothers⟩
      have hle : value ≤ t.balanceOf src := by rwa [leaving_nil, Nat.zero_add] at hfirst
      have hrest : ∃ out, ({ t with toErc20 := t.toErc20.move src dst value } : StorageToken).transferEach src rest =
          .ok out := by
        apply ih.mpr
        intro before p hpre
        obtain ⟨-, hp, hcovered⟩ := hothers before p hpre
        exact ⟨hsrc, hp, (leaving_add_le_iff hle).mpr hcovered⟩
      obtain ⟨out, hrest⟩ := hrest
      exact ⟨_, bind_eq_ok.mpr ⟨_, transfer_eq_ok.mpr ⟨hsrc, hdst, hle, rfl⟩, bind_eq_ok.mpr ⟨_, hrest, rfl⟩⟩⟩

/-- If the sender is not paid itself, it only has to have the total. -/
theorem transferEach_succeeds_iff_total (hself : ∀ p ∈ pairs, p.1 ≠ src) :
    (∃ out, t.transferEach src pairs = .ok out) ↔
      (∀ p ∈ pairs, src ≠ 0 ∧ p.1 ≠ 0) ∧ total pairs ≤ t.balanceOf src := by
  rw [transferEach_succeeds_iff]
  constructor
  · intro h
    constructor
    · intro p hp
      obtain ⟨before, after, rfl⟩ := List.append_of_mem hp
      obtain ⟨hsrc, hdst, -⟩ := h before p ⟨after, by simp⟩
      exact ⟨hsrc, hdst⟩
    · induction pairs using List.reverseRecOn with
      | nil => exact Nat.zero_le _
      | append_singleton before p _ =>
        obtain ⟨-, -, hcovered⟩ := h before p (List.prefix_refl _)
        rw [leaving_of_notMem fun q hq => hself q (List.mem_append_left _ hq)] at hcovered
        rwa [total_append, total_cons, total_nil, Nat.add_zero]
  · rintro ⟨hvalid, htotal⟩ before p ⟨after, rfl⟩
    obtain ⟨hsrc, hdst⟩ := hvalid p (by simp)
    have hbefore : leaving src before = total before := leaving_of_notMem fun q hq => hself q (by simp [hq])
    rw [total_append, total_append, total_cons, total_nil] at htotal
    exact ⟨hsrc, hdst, by omega⟩

theorem batchTransfer_eq_ok {out : StorageToken × List TokenLog} :
    t.batchTransfer msg recipients amounts = .ok out ↔
      recipients.length = amounts.length ∧ recipients.length ≤ 100 ∧
        t.transferEach msg.sender (recipients.zip amounts) = .ok out := by
  simp only [batchTransfer, bind_eq_ok, require_eq_ok, exists_and_left, exists_const]

theorem batchTransfer_succeeds_iff (hlength : recipients.length = amounts.length)
    (hself : msg.sender ∉ recipients) :
    (∃ out, t.batchTransfer msg recipients amounts = .ok out) ↔
      (recipients.zip amounts).length ≤ 100 ∧
        (∀ p ∈ recipients.zip amounts, msg.sender ≠ 0 ∧ p.1 ≠ 0) ∧
        total (recipients.zip amounts) ≤ t.balanceOf msg.sender := by
  have hpairs : ∀ p ∈ recipients.zip amounts, p.1 ≠ msg.sender := by
    rintro ⟨dst, value⟩ hp rfl
    exact hself (List.of_mem_zip hp).1
  have hcount : (recipients.zip amounts).length = recipients.length := by
    rw [List.length_zip, ← hlength, Nat.min_self]
  rw [hcount, ← transferEach_succeeds_iff_total hpairs]
  simp only [batchTransfer_eq_ok, hlength, true_and, exists_and_left]

/-- **What a batch does**, with recipients that come up several times and the sender among them. -/
theorem batchTransfer_semantics (t : StorageToken) (msg : Msg) (recipients : List Address) (amounts : List Nat) :
    (∀ t' logs, t.batchTransfer msg recipients amounts = .ok (t', logs) →
      (∀ a, t'.balanceOf a + (if a = msg.sender then amounts.sum else 0) =
        t.balanceOf a + sentTo a (recipients.zip amounts)) ∧
      t'.totalSupply = t.totalSupply ∧ t'.allowance = t.allowance ∧
      ∀ recipients' amounts' t'' logs', (recipients.zip amounts).Perm (recipients'.zip amounts') →
        t.batchTransfer msg recipients' amounts' = .ok (t'', logs') → t'' = t' ∧ logs'.Perm logs) ∧
    (recipients.length = amounts.length → msg.sender ∉ recipients → ∀ recipients' amounts',
      recipients'.length = amounts'.length → (recipients.zip amounts).Perm (recipients'.zip amounts') →
      ((∃ out, t.batchTransfer msg recipients amounts = .ok out) ↔
        ∃ out, t.batchTransfer msg recipients' amounts' = .ok out)) ∧
    ∀ e, t.batchTransfer msg recipients amounts = .error e →
      exec act t ⟨msg, .batchTransfer recipients amounts⟩ = t := by
  refine ⟨?_, ?_, ?_⟩
  · intro t' logs h
    obtain ⟨hlength, -, heach⟩ := batchTransfer_eq_ok.mp h
    obtain ⟨rfl, hcovered, rfl⟩ := transferEach_ok heach
    refine ⟨?_, rfl, rfl, ?_⟩
    · rw [← total_zip hlength]
      exact balanceOf_afterBatch hcovered
    · intro recipients' amounts' t'' logs' hperm h'
      obtain ⟨-, -, heach'⟩ := batchTransfer_eq_ok.mp h'
      obtain ⟨rfl, -, rfl⟩ := transferEach_ok heach'
      exact ⟨(afterBatch_perm hperm).symm, (hperm.map _).symm⟩
  · intro hlength hself recipients' amounts' hlength' hperm
    have hself' : msg.sender ∉ recipients' := by
      intro hmem
      rw [← List.map_fst_zip (Nat.le_of_eq hlength')] at hmem
      obtain ⟨p, hp, hfst⟩ := List.mem_map.mp hmem
      exact hself (hfst ▸ (List.of_mem_zip (hperm.mem_iff.mpr hp)).1)
    rw [batchTransfer_succeeds_iff hlength hself, batchTransfer_succeeds_iff hlength' hself', hperm.length_eq,
      total_perm hperm]
    simp only [hperm.mem_iff]
  · intro e h
    exact exec_of_error h

end Batches

/-- A sender with ten tokens that pays ten to itself can do so first, and not after ten have left. -/
example :
    let t : StorageToken := { owner := 1, balanceOf := fun _ => 10 }
    (∃ out, t.batchTransfer ⟨1, 0⟩ [1, 2] [10, 10] = .ok out) ∧
      ¬ ∃ out, t.batchTransfer ⟨1, 0⟩ [2, 1] [10, 10] = .ok out := by
  constructor
  · exact ⟨_, eq_resultOf (by decide)⟩
  · rintro ⟨out, h⟩
    cases h

/-- The deployer pays itself and one account twice, and two accounts in either order. -/
theorem batchTransfer_deployed :
    (∃ t' logs, (deploy ⟨1, 0⟩).batchTransfer ⟨1, 0⟩ [2, 1, 2] [20, 10, 30] = .ok (t', logs) ∧
      t'.balanceOf 1 + 50 = INITIAL_SUPPLY ∧ t'.balanceOf 2 = 50 ∧ t'.totalSupply = INITIAL_SUPPLY) ∧
    ((∃ out, (deploy ⟨1, 0⟩).batchTransfer ⟨1, 0⟩ [2, 3] [20, 30] = .ok out) ↔
      ∃ out, (deploy ⟨1, 0⟩).batchTransfer ⟨1, 0⟩ [3, 2] [30, 20] = .ok out) ∧
    exec act (deploy ⟨1, 0⟩) ⟨⟨1, 0⟩, .batchTransfer [2] []⟩ = deploy ⟨1, 0⟩ := by
  refine ⟨?_, ?_, ?_⟩
  · have hok : revertOf ((deploy ⟨1, 0⟩).batchTransfer ⟨1, 0⟩ [2, 1, 2] [20, 10, 30]) = none := by decide
    obtain ⟨hbalance, hsupply, -, -⟩ :=
      (batchTransfer_semantics (deploy ⟨1, 0⟩) ⟨1, 0⟩ [2, 1, 2] [20, 10, 30]).1 _ _ (eq_resultOf hok)
    refine ⟨_, _, eq_resultOf hok, ?_, ?_, hsupply⟩
    · have hsender := hbalance 1
      change _ + 60 = INITIAL_SUPPLY + 10 at hsender
      omega
    · exact hbalance 2
  · exact (batchTransfer_semantics (deploy ⟨1, 0⟩) ⟨1, 0⟩ [2, 3] [20, 30]).2.1 rfl (by decide) [3, 2] [30, 20] rfl
      (by decide)
  · exact (batchTransfer_semantics (deploy ⟨1, 0⟩) ⟨1, 0⟩ [2] []).2.2 _ rfl

end StorageToken

end Kyneto
