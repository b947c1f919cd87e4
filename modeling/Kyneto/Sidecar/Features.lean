import Kyneto.Evm.Basic
import Kyneto.Pandas.Series

/-!
# The features of the machine learning sidecar

Three programs derive the same features from the record of a provider: the API for one record it is asked about, and
training and data preparation for whole tables. They agree on the stake for each GB. The utilization and the risk are
clipped in the tables and not by the API, so those agree exactly on the records that need no clipping
(`features_agree_iff`).

Numbers are exact here. A table has the rows `0`, `1`, …, as it has when it is read from a file or a database.
-/

namespace Kyneto

open Evm Pandas

namespace Sidecar

/-- The fields of a record that are read. -/
inductive RawField where
  | stake | capacityGb | uptimePct | postSuccessRate | proofMisses | slashingCount | avgLatency | utilizationGb
  deriving DecidableEq, Repr

/-- A value of a JSON object, as far as it matters here. -/
inductive JsonValue where
  | int (n : ℤ)
  | float (q : ℚ)
  | bool (b : Bool)
  | other  -- a string, a list, an object or null
  deriving DecidableEq

/-- A record in JSON. -/
abbrev Data := RawField → Option JsonValue

/-- `isinstance(v, int)`, and its value: a boolean counts as an integer. -/
def JsonValue.integer : JsonValue → Option ℚ
  | int n => some n
  | bool b => some (if b then 1 else 0)
  | _ => none

/-- `isinstance(v, (int, float))`, and its value. -/
def JsonValue.number : JsonValue → Option ℚ
  | float q => some q
  | v => v.integer

/-! ## The API -/

/-- A check of one field, made if the record has it. -/
structure Check where
  field : RawField
  holds : JsonValue → Bool
  message : String

/-- The value is of the type that is asked for, and in range. -/
def inRange (typed : JsonValue → Option ℚ) (range : ℚ → Bool) (v : JsonValue) : Bool := (typed v).any range

/-- The checks of `validate_input`, in order. -/
def checks : List Check :=
  [⟨.stake, inRange JsonValue.number fun q => 0 ≤ q, "stake must be a non-negative number"⟩,
    ⟨.capacityGb, inRange JsonValue.number fun q => 0 < q, "capacity_gb must be a positive number"⟩,
    ⟨.uptimePct, inRange JsonValue.number fun q => 0 ≤ q ∧ q ≤ 1, "uptime_pct must be between 0 and 1"⟩,
    ⟨.postSuccessRate, inRange JsonValue.number fun q => 0 ≤ q ∧ q ≤ 1, "post_success_rate must be between 0 and 1"⟩,
    ⟨.proofMisses, inRange JsonValue.integer fun q => 0 ≤ q, "proof_misses must be a non-negative integer"⟩,
    ⟨.slashingCount, inRange JsonValue.integer fun q => 0 ≤ q, "slashing_count must be a non-negative integer"⟩,
    ⟨.avgLatency, inRange JsonValue.number fun q => 0 ≤ q, "avg_latency must be a non-negative number"⟩,
    ⟨.utilizationGb, inRange JsonValue.number fun q => 0 ≤ q, "utilization_gb must be a non-negative number"⟩]

/-- `validate_input`, of an object or of anything else. -/
def validateInput : Option Data → Bool × String
  | none => (false, "Input must be a JSON object")
  | some data =>
    match checks.find? fun c => (data c.field).any fun v => !c.holds v with
    | some c => (false, c.message)
    | none => (true, "")

/-- `data.get(field, default)`, where a number is needed. -/
def getNumber (data : Data) (field : RawField) (default : ℚ) : Except String ℚ :=
  match data field with
  | none => .ok default
  | some v =>
    match v.number with
    | some q => .ok q
    | none => .error "TypeError"

structure Features where
  utilizationRatio : ℚ
  stakePerGb : ℚ
  riskScore : ℚ
  eventSuccessRate : JsonValue
  eventAvgLatency : JsonValue

def computeDerivedFeatures (data : Data) : Except String Features := do
  let utilizationGb ← getNumber data .utilizationGb 0
  let capacityGb ← getNumber data .capacityGb 1
  let stake ← getNumber data .stake 0
  let uptimePct ← getNumber data .uptimePct 1
  let postSuccessRate ← getNumber data .postSuccessRate 1
  let proofMisses ← getNumber data .proofMisses 0
  let slashingCount ← getNumber data .slashingCount 0
  return {
    utilizationRatio := utilizationGb / max capacityGb 1
    stakePerGb := stake / max capacityGb 1
    riskScore := (1 - uptimePct) * 30 + (1 - postSuccessRate) * 40 + proofMisses * 2 + slashingCount * 10
    eventSuccessRate := (data .postSuccessRate).getD (.int 1)
    eventAvgLatency := (data .avgLatency).getD (.int 100) }

/-! ## The tables -/

structure DataFrame where
  rows : Nat
  column : RawField → Option (Nat → Cell)
  providerId : Nat → String

/-- The cells of a column at the rows of the table. -/
def DataFrame.series (df : DataFrame) (cells : Nat → Cell) : Series := fun i =>
  if i < df.rows then some (cells i) else none

/-- `df.get(field, pd.Series(default))`. -/
def DataFrame.get (df : DataFrame) (field : RawField) (default : ℚ) : Series :=
  match df.column field with
  | some cells => df.series cells
  | none => Series.single default

/-- The cells of a series that is assigned to a column of the table. -/
def assigned (s : Series) : Nat → Cell := fun i => (s i).getD .nan

inductive ReliabilityTier where
  | platinum | gold | silver | bronze
  deriving DecidableEq, Repr

/-- `pd.cut` with the bins -1, 10, 25, 50 and 100. -/
def cutTier : Cell → Option ReliabilityTier
  | .num q =>
    if q ≤ -1 then none
    else if q ≤ 10 then some .platinum
    else if q ≤ 25 then some .gold
    else if q ≤ 50 then some .silver
    else if q ≤ 100 then some .bronze
    else none
  | _ => none

/-- The columns that both programs add to a table. -/
structure Derived where
  utilizationRatio : Nat → Cell
  stakePerGb : Nat → Cell
  riskScore : Nat → Cell
  reliabilityTier : Nat → Option ReliabilityTier

/-- `(1 - s) * weight`. -/
def lost (weight : ℚ) (s : Series) : Series := s.map fun x => ((Cell.num 1).sub x).mul (.num weight)

/-- `s * weight`. -/
def counted (weight : ℚ) (s : Series) : Series := s.map fun x => x.mul (.num weight)

/-- The risk score of both programs. -/
def riskSeries (uptime success misses slashes : Series) : Series :=
  ((((lost 30 uptime).align Cell.add (lost 40 success)).align Cell.add (counted 2 misses)).align Cell.add
    (counted 10 slashes)).map (Cell.clip 0 100)

/-- `derive_reliability_tier` of `train_models`. -/
def deriveReliabilityTier (df : DataFrame) : Derived :=
  let capacity := (df.get .capacityGb 1).map (Cell.clipLower 1)
  let utilizationRatio := (((df.get .utilizationGb 0).align Cell.div capacity).map (Cell.fillna 0)).map (Cell.clip 0 1)
  let stakePerGb := (((df.get .stake 0).align Cell.div capacity).map (Cell.replaceInf 0)).map (Cell.fillna 0)
  let riskScore := assigned (riskSeries (df.get .uptimePct 1) (df.get .postSuccessRate 1) (df.get .proofMisses 0)
    (df.get .slashingCount 0))
  { utilizationRatio := assigned utilizationRatio, stakePerGb := assigned stakePerGb, riskScore,
    reliabilityTier := fun i => cutTier (riskScore i) }

/-- One row of the events: whose it is, whether it was a success, and how long it took. -/
structure ProviderEvent where
  providerId : String
  success : Cell
  latencyMs : Cell

/-- The mean of the cells that are there. -/
def meanOf (cells : List Cell) : Cell :=
  let present := cells.filter (· ≠ .nan)
  (present.foldl Cell.add (.num 0)).div (.num present.length)

structure Engineered extends Derived where
  eventSuccessRate : Nat → Cell
  eventAvgLatency : Nat → Cell

/-- `df[field]`. -/
def DataFrame.require (df : DataFrame) (field : RawField) : Except String Series :=
  match df.column field with
  | some cells => .ok (df.series cells)
  | none => .error "KeyError"

/-- The mean over the events of each provider, with the table's own column where there is none. -/
def eventMean (df : DataFrame) (events : List ProviderEvent) (cell : ProviderEvent → Cell) (missing : Nat → Cell) :
    Nat → Cell := fun i =>
  match meanOf ((events.filter fun e => e.providerId = df.providerId i).map cell) with
  | .nan => missing i
  | mean => mean

/-- `engineer_features` of `prepare_data`. -/
def engineerFeatures (providers : DataFrame) (events : List ProviderEvent) : Except String Engineered := do
  let utilizationGb ← providers.require .utilizationGb
  let capacityGb ← providers.require .capacityGb
  let utilizationRatio := ((utilizationGb.align Cell.div capacityGb).map (Cell.fillna 0)).map (Cell.clip 0 1)
  let stake ← providers.require .stake
  let stakePerGb := ((stake.align Cell.div capacityGb).map (Cell.replaceInf 0)).map (Cell.fillna 0)
  let uptimePct ← providers.require .uptimePct
  let postSuccessRate ← providers.require .postSuccessRate
  let proofMisses ← providers.require .proofMisses
  let slashingCount ← providers.require .slashingCount
  let riskScore := assigned (riskSeries uptimePct postSuccessRate proofMisses slashingCount)
  let avgLatency ← providers.require .avgLatency
  let derived : Derived :=
    { utilizationRatio := assigned utilizationRatio, stakePerGb := assigned stakePerGb, riskScore,
      reliabilityTier := fun i => cutTier (riskScore i) }
  if events.isEmpty then
    return { derived with eventSuccessRate := assigned postSuccessRate, eventAvgLatency := assigned avgLatency }
  else
    return { derived with
      eventSuccessRate := eventMean providers events ProviderEvent.success fun _ => .num 1
      eventAvgLatency := eventMean providers events ProviderEvent.latencyMs (assigned avgLatency) }

/-! ## Records that are accepted -/

/-- The number in a field. -/
def value (data : Data) (field : RawField) : ℚ := ((data field).bind JsonValue.number).getD 0

/-- All fields are there, with numbers in the ranges that are checked. -/
structure Accepted (data : Data) : Prop where
  number : ∀ f, ∃ v, data f = some v ∧ v.number = some (value data f)
  stake : 0 ≤ value data .stake
  capacity : 0 < value data .capacityGb
  uptime : value data .uptimePct ≤ 1
  success : value data .postSuccessRate ≤ 1
  misses : 0 ≤ value data .proofMisses
  slashes : 0 ≤ value data .slashingCount
  utilization : 0 ≤ value data .utilizationGb

section Accepting

variable {data : Data}

/-- The check passes if every value that is there is within its bounds. -/
theorem validateInput_true_iff :
    (validateInput (some data)).1 = true ↔ ∀ c ∈ checks, ∀ v, data c.field = some v → c.holds v = true := by
  unfold validateInput
  simp only
  cases hfind : checks.find? fun c => (data c.field).any fun v => !c.holds v with
  | none =>
    rw [List.find?_eq_none] at hfind
    refine iff_of_true rfl ?_
    intro c hc v hv
    simpa [hv] using hfind c hc
  | some c =>
    refine iff_of_false (by simp) ?_
    intro hall
    have hsome := List.find?_some hfind
    obtain ⟨v, hv, hfails⟩ := (Option.any_eq_true _ _).mp hsome
    rw [hall c (List.mem_of_find?_eq_some hfind) v hv] at hfails
    cases hfails

theorem number_of_integer {v : JsonValue} {q : ℚ} (h : v.integer = some q) : v.number = some q := by
  cases v <;> simp_all [JsonValue.number, JsonValue.integer]

/-- What a check says about a field that is there. -/
theorem value_of_inRange {typed : JsonValue → Option ℚ} {range : ℚ → Bool} {f : RawField} {message : String}
    (htyped : ∀ v q, typed v = some q → v.number = some q) (hvalid : (validateInput (some data)).1 = true)
    (hpresent : (data f).isSome) (hcheck : ⟨f, inRange typed range, message⟩ ∈ checks) :
    (∃ v, data f = some v ∧ v.number = some (value data f)) ∧ range (value data f) = true := by
  obtain ⟨v, hv⟩ := Option.isSome_iff_exists.mp hpresent
  obtain ⟨q, hq, hrange⟩ := (Option.any_eq_true _ _).mp (validateInput_true_iff.mp hvalid _ hcheck v hv)
  have hnumber := htyped v q hq
  have hvalue : value data f = q := by rw [value, hv, Option.bind_some, hnumber, Option.getD_some]
  rw [hvalue]
  exact ⟨⟨v, hv, hnumber⟩, hrange⟩

/-- With all values there, a valid request is accepted. -/
theorem accepted_of_valid (hvalid : (validateInput (some data)).1 = true) (hpresent : ∀ f, (data f).isSome) :
    Accepted data := by
  have number (k) {f range message} (h : checks[k]? = some (Check.mk f (inRange JsonValue.number range) message)) :=
    value_of_inRange (fun _ _ h => h) hvalid (hpresent f) (List.mem_of_getElem? h)
  have integer (k) {f range message} (h : checks[k]? = some (Check.mk f (inRange JsonValue.integer range) message)) :=
    value_of_inRange (fun _ _ => number_of_integer) hvalid (hpresent f) (List.mem_of_getElem? h)
  obtain ⟨stake, hstake⟩ := number 0 rfl
  obtain ⟨capacity, hcapacity⟩ := number 1 rfl
  obtain ⟨uptime, huptime⟩ := number 2 rfl
  obtain ⟨success, hsuccess⟩ := number 3 rfl
  obtain ⟨misses, hmisses⟩ := integer 4 rfl
  obtain ⟨slashes, hslashes⟩ := integer 5 rfl
  obtain ⟨latency, -⟩ := number 6 rfl
  obtain ⟨utilization, hutilization⟩ := number 7 rfl
  simp only [decide_eq_true_eq] at *
  exact {
    number := fun f => by cases f <;> assumption
    stake := hstake
    capacity := hcapacity
    uptime := huptime.2
    success := hsuccess.2
    misses := hmisses
    slashes := hslashes
    utilization := hutilization }

end Accepting

/-! ## The features of a record -/

/-- The record needs no clipping: it uses no more than its capacity, and its misses and slashes weigh no more than its
uptime and its successes allow. -/
def InRange (data : Data) : Prop :=
  value data .utilizationGb ≤ max (value data .capacityGb) 1 ∧
    2 * value data .proofMisses + 10 * value data .slashingCount ≤
      30 + 30 * value data .uptimePct + 40 * value data .postSuccessRate

instance (data : Data) : Decidable (InRange data) := inferInstanceAs (Decidable (_ ∧ _))

/-- The risk of a record, before it is clipped. -/
def risk (data : Data) : ℚ :=
  (1 - value data .uptimePct) * 30 + (1 - value data .postSuccessRate) * 40 + value data .proofMisses * 2 +
    value data .slashingCount * 10

theorem risk_le_iff {data : Data} : risk data ≤ 100 ↔
    2 * value data .proofMisses + 10 * value data .slashingCount ≤
      30 + 30 * value data .uptimePct + 40 * value data .postSuccessRate := by
  unfold risk
  constructor <;> intro h <;> linarith

section Served

variable {data : Data} (h : Accepted data)
include h

theorem getNumber_eq (f : RawField) (default : ℚ) : getNumber data f default = .ok (value data f) := by
  obtain ⟨v, hv, hnumber⟩ := h.number f
  rw [getNumber, hv]
  simp only [hnumber]

/-- What the API computes. -/
theorem computeDerivedFeatures_eq : ∃ fs, computeDerivedFeatures data = .ok fs ∧
    fs.utilizationRatio = value data .utilizationGb / max (value data .capacityGb) 1 ∧
    fs.stakePerGb = value data .stake / max (value data .capacityGb) 1 ∧ fs.riskScore = risk data := by
  simp only [computeDerivedFeatures, getNumber_eq h, ok_bind]
  exact ⟨_, rfl, rfl, rfl, rfl⟩

theorem risk_nonneg : 0 ≤ risk data := by
  have := h.uptime
  have := h.success
  have := h.misses
  have := h.slashes
  unfold risk
  linarith

end Served

/-! ## The features of a row -/

/-- The row `i` of the table has the numbers of the record. -/
structure DataFrame.IsRecord (df : DataFrame) (i : Nat) (data : Data) : Prop where
  row : i < df.rows
  cell : ∀ f, ∃ cells, df.column f = some cells ∧ cells i = .num (value data f)

section Rows

variable {df : DataFrame} {i : Nat} {data : Data}

theorem DataFrame.IsRecord.get (h : df.IsRecord i data) (f : RawField) (default : ℚ) :
    df.get f default i = some (.num (value data f)) := by
  obtain ⟨cells, hcells, hcell⟩ := h.cell f
  rw [DataFrame.get, hcells]
  show (if i < df.rows then some (cells i) else none) = _
  rw [if_pos h.row, hcell]

theorem DataFrame.IsRecord.require (h : df.IsRecord i data) (f : RawField) :
    df.require f = .ok (df.get f 0) := by
  obtain ⟨cells, hcells, -⟩ := h.cell f
  rw [DataFrame.require, DataFrame.get, hcells]

theorem assigned_eq {s : Series} {x : Cell} (h : s i = some x) : assigned s i = x := by
  rw [assigned, h, Option.getD_some]

variable {s t : Series} {a b : ℚ}

theorem utilization_row (hs : s i = some (.num a)) (ht : t i = some (.num b)) (hb : b ≠ 0) :
    assigned (((s.align Cell.div t).map (Cell.fillna 0)).map (Cell.clip 0 1)) i = (Cell.num (a / b)).clip 0 1 := by
  have hdiv := Series.align_eq_some Cell.div hs ht
  rw [Cell.div_num a b hb] at hdiv
  exact assigned_eq (Series.map_eq_some _ (Series.map_eq_some _ hdiv))

theorem stake_row (hs : s i = some (.num a)) (ht : t i = some (.num b)) (hb : b ≠ 0) :
    assigned (((s.align Cell.div t).map (Cell.replaceInf 0)).map (Cell.fillna 0)) i = .num (a / b) := by
  have hdiv := Series.align_eq_some Cell.div hs ht
  rw [Cell.div_num a b hb] at hdiv
  exact assigned_eq (Series.map_eq_some _ (Series.map_eq_some _ hdiv))

/-- The risk of a row is the risk of its values, between 0 and 100. -/
theorem risk_row (h : df.IsRecord i data) (d d' d'' d''' : ℚ) :
    assigned (riskSeries (df.get .uptimePct d) (df.get .postSuccessRate d') (df.get .proofMisses d'')
      (df.get .slashingCount d''')) i = (Cell.num (risk data)).clip 0 100 := by
  have huptime := Series.map_eq_some (fun x => ((Cell.num 1).sub x).mul (.num 30)) (h.get .uptimePct d)
  have hsuccess := Series.map_eq_some (fun x => ((Cell.num 1).sub x).mul (.num 40)) (h.get .postSuccessRate d')
  have hmisses := Series.map_eq_some (fun x => x.mul (.num 2)) (h.get .proofMisses d'')
  have hslashes := Series.map_eq_some (fun x => x.mul (.num 10)) (h.get .slashingCount d''')
  have hsum := Series.align_eq_some Cell.add
    (Series.align_eq_some Cell.add (Series.align_eq_some Cell.add huptime hsuccess) hmisses) hslashes
  simp only [Cell.sub_num, Cell.mul_num, Cell.add_num] at hsum
  exact assigned_eq (Series.map_eq_some _ hsum)

/-- What a program writes at the row of a record, over the capacity it divides by. -/
structure RowOf (data : Data) (capacity : ℚ) (d : Derived) (i : Nat) : Prop where
  utilizationRatio : d.utilizationRatio i = (Cell.num (value data .utilizationGb / capacity)).clip 0 1
  stakePerGb : d.stakePerGb i = .num (value data .stake / capacity)
  riskScore : d.riskScore i = (Cell.num (risk data)).clip 0 100

theorem deriveReliabilityTier_row (h : df.IsRecord i data) :
    RowOf data (max (value data .capacityGb) 1) (deriveReliabilityTier df) i := by
  have hcapacity := Series.map_eq_some (Cell.clipLower 1) (h.get .capacityGb 1)
  rw [Cell.clipLower_num] at hcapacity
  have hpos : max (value data .capacityGb) 1 ≠ 0 := (lt_max_of_lt_right one_pos).ne'
  exact {
    utilizationRatio := utilization_row (h.get .utilizationGb 0) hcapacity hpos
    stakePerGb := stake_row (h.get .stake 0) hcapacity hpos
    riskScore := risk_row h 1 1 0 0 }

/-- Line by line, the pipeline computes the features from the values. -/
theorem engineerFeatures_row (h : df.IsRecord i data) (events : List ProviderEvent)
    (hpos : value data .capacityGb ≠ 0) :
    ∃ e, engineerFeatures df events = .ok e ∧ RowOf data (value data .capacityGb) e.toDerived i := by
  have hrow (e : Engineered) : e.utilizationRatio = _ → e.stakePerGb = _ → e.riskScore = _ →
      RowOf data (value data .capacityGb) e.toDerived i := fun hu hs hr => {
    utilizationRatio := hu ▸ utilization_row (h.get .utilizationGb 0) (h.get .capacityGb 0) hpos
    stakePerGb := hs ▸ stake_row (h.get .stake 0) (h.get .capacityGb 0) hpos
    riskScore := hr ▸ risk_row h 0 0 0 0 }
  simp only [engineerFeatures, h.require, ok_bind]
  split
  · exact ⟨_, rfl, hrow _ rfl rfl rfl⟩
  · exact ⟨_, rfl, hrow _ rfl rfl rfl⟩

end Rows

/-! ## Where the three agree -/

/-- The features of the API are those in the row of a table. -/
structure Agrees (fs : Features) (d : Derived) (i : Nat) : Prop where
  utilizationRatio : d.utilizationRatio i = .num fs.utilizationRatio
  stakePerGb : d.stakePerGb i = .num fs.stakePerGb
  riskScore : d.riskScore i = .num fs.riskScore

/-- Both computations agree exactly if the values are in the range that one of them cuts off. -/
theorem agrees_iff_inRange {data : Data} (h : Accepted data) {fs : Features} {d : Derived} {i : Nat}
    (hutilization : fs.utilizationRatio = value data .utilizationGb / max (value data .capacityGb) 1)
    (hstake : fs.stakePerGb = value data .stake / max (value data .capacityGb) 1) (hrisk : fs.riskScore = risk data)
    (hrow : RowOf data (max (value data .capacityGb) 1) d i) : Agrees fs d i ↔ InRange data := by
  have hpos : 0 < max (value data .capacityGb) 1 := lt_max_of_lt_right one_pos
  have hratio : d.utilizationRatio i = .num fs.utilizationRatio ↔
      value data .utilizationGb ≤ max (value data .capacityGb) 1 := by
    rw [hrow.utilizationRatio, hutilization, Cell.clip_eq_self_iff _ _ _ (div_nonneg h.utilization hpos.le),
      div_le_one hpos]
  have hscore : d.riskScore i = .num fs.riskScore ↔ risk data ≤ 100 := by
    rw [hrow.riskScore, hrisk, Cell.clip_eq_self_iff _ _ _ (risk_nonneg h)]
  constructor
  · intro hagrees
    exact ⟨hratio.mp hagrees.utilizationRatio, risk_le_iff.mp (hscore.mp hagrees.riskScore)⟩
  · intro hrange
    exact {
      utilizationRatio := hratio.mpr hrange.1
      stakePerGb := by rw [hrow.stakePerGb, hstake]
      riskScore := hscore.mpr (risk_le_iff.mpr hrange.2) }

/-- On a record that is accepted, the features of the API are those of both tables exactly if it needs no clipping. -/
theorem features_agree_iff (data : Data) (hvalid : (validateInput (some data)).1 = true)
    (hpresent : ∀ f, (data f).isSome) (df providers : DataFrame) (events : List ProviderEvent) (i j : Nat)
    (htrained : df.IsRecord i data) (hprepared : providers.IsRecord j data) :
    ∃ fs, computeDerivedFeatures data = .ok fs ∧
      ((Agrees fs (deriveReliabilityTier df) i ∧
        (1 ≤ value data .capacityGb → ∃ e, engineerFeatures providers events = .ok e ∧ Agrees fs e.toDerived j)) ↔
      InRange data) := by
  have haccepted := accepted_of_valid hvalid hpresent
  obtain ⟨fs, hfs, hutilization, hstake, hrisk⟩ := computeDerivedFeatures_eq haccepted
  have htraining := agrees_iff_inRange haccepted hutilization hstake hrisk (deriveReliabilityTier_row htrained)
  refine ⟨fs, hfs, fun hagree => htraining.mp hagree.1, fun hrange => ⟨htraining.mpr hrange, ?_⟩⟩
  intro hcapacity
  obtain ⟨e, he, hrow⟩ := engineerFeatures_row hprepared events haccepted.capacity.ne'
  rw [← max_eq_left hcapacity] at hrow
  exact ⟨e, he, (agrees_iff_inRange haccepted hutilization hstake hrisk hrow).mpr hrange⟩

/-- A table with one row, which is the record. -/
def DataFrame.ofRecord (data : Data) : DataFrame where
  rows := 1
  column := fun f => some fun _ => .num (value data f)
  providerId := fun _ => "provider"

theorem DataFrame.ofRecord_isRecord (data : Data) : (DataFrame.ofRecord data).IsRecord 0 data where
  row := one_pos
  cell := fun _ => ⟨_, rfl, rfl⟩

namespace SmallRecord

/-- A provider that was up half of the time and passed half of its challenges. -/
def record (misses slashes : ℤ) : Data
  | .stake => some (.int 1000)
  | .capacityGb => some (.int 100)
  | .uptimePct => some (.float (1 / 2))
  | .postSuccessRate => some (.float (1 / 2))
  | .proofMisses => some (.int misses)
  | .slashingCount => some (.int slashes)
  | .avgLatency => some (.int 100)
  | .utilizationGb => some (.int 40)

theorem record_present (misses slashes : ℤ) : ∀ f, (record misses slashes f).isSome := by
  intro f
  cases f <;> rfl

theorem record_valid {misses slashes : ℤ} (hmisses : 0 ≤ misses) (hslashes : 0 ≤ slashes) :
    (validateInput (some (record misses slashes))).1 = true := by
  rw [validateInput_true_iff]
  norm_num [checks, inRange, record, JsonValue.number, JsonValue.integer, hmisses, hslashes]

theorem three_misses_agree : ∃ fs, computeDerivedFeatures (record 3 0) = .ok fs ∧
    Agrees fs (deriveReliabilityTier (.ofRecord (record 3 0))) 0 ∧
    (1 ≤ value (record 3 0) .capacityGb →
      ∃ e, engineerFeatures (.ofRecord (record 3 0)) [] = .ok e ∧ Agrees fs e.toDerived 0) := by
  obtain ⟨fs, hfs, hagree⟩ := features_agree_iff (record 3 0) (record_valid (by decide) (by decide))
    (record_present 3 0) _ _ [] 0 0 (DataFrame.ofRecord_isRecord _) (DataFrame.ofRecord_isRecord _)
  refine ⟨fs, hfs, hagree.mpr ?_⟩
  norm_num [InRange, value, record, JsonValue.number, JsonValue.integer]

/-- With thirty misses and two slashes the API answers a risk of 115, where the table for training has 100. -/
theorem thirty_misses_differ : (validateInput (some (record 30 2))).1 = true ∧
    (∀ f, (record 30 2 f).isSome) ∧ (DataFrame.ofRecord (record 30 2)).IsRecord 0 (record 30 2) ∧
    ∃ fs, computeDerivedFeatures (record 30 2) = .ok fs ∧ fs.riskScore = 115 ∧
      (deriveReliabilityTier (.ofRecord (record 30 2))).riskScore 0 = .num 100 ∧
      ¬ Agrees fs (deriveReliabilityTier (.ofRecord (record 30 2))) 0 := by
  have hvalid : (validateInput (some (record 30 2))).1 = true := record_valid (by decide) (by decide)
  have hrecord := DataFrame.ofRecord_isRecord (record 30 2)
  have hrisk : risk (record 30 2) = 115 := by
    norm_num [risk, value, record, JsonValue.number, JsonValue.integer]
  obtain ⟨fs, hfs, -, -, hscore⟩ := computeDerivedFeatures_eq (accepted_of_valid hvalid (record_present 30 2))
  rw [hrisk] at hscore
  have htrained := (deriveReliabilityTier_row hrecord).riskScore
  rw [hrisk, Cell.clip_num, show min (max (115 : ℚ) 0) 100 = 100 by norm_num] at htrained
  refine ⟨hvalid, record_present 30 2, hrecord, fs, hfs, hscore, htrained, ?_⟩
  intro hagrees
  have hsame := hagrees.riskScore
  rw [htrained, hscore, Cell.num.injEq] at hsame
  norm_num at hsame

end SmallRecord

end Sidecar

end Kyneto
