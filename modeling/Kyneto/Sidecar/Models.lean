import Kyneto.Coding.Sha256
import Kyneto.Evm.Run

/-!
# The models of the machine learning sidecar

The sidecar serves up to five models. Training writes them into files; loading reads the files, compares the hash of
each with its entry in `MANIFEST.json`, and skips a file that does not match. Training leaves the manifest as it was.
So a model that is retrained is served, now and after a restart, exactly if its new file still has the hash of the old
one, or the manifest has no entry for it (`served_iff`). Otherwise the old model stays in memory until the process
ends, and none takes its place after that.

Unpickling is a function of the bytes of a file, so a model in memory stands as the bytes it was made from. Which
classes a pickle names, and whether they can be imported, is for the libraries to say; the classes that are allowed
are the sidecar's own.
-/

namespace Kyneto

open Evm Coding

namespace Sidecar

inductive ModelName where
  | failureCatboost | failureXgb | failureCart | reliabilityXgb | reliabilityCart
  deriving DecidableEq, Repr

/-- The files in `MODELS_DIR` that training writes. -/
inductive ModelFile where
  | catboostFailure | xgboostFailure | cartFailure | catboostReliability | xgboostReliability | cartReliability
  deriving DecidableEq, Repr

abbrev Files := ModelFile → Option Bytes

abbrev Models := ModelName → Option Bytes

def ModelName.filename : ModelName → ModelFile
  | failureCatboost => .catboostFailure
  | failureXgb => .xgboostFailure
  | failureCart => .cartFailure
  | reliabilityXgb => .xgboostReliability
  | reliabilityCart => .cartReliability

/-- The keys of `model_files`, in order. -/
def modelFiles : List ModelName := [.failureCatboost, .failureXgb, .failureCart, .reliabilityXgb, .reliabilityCart]

/-- What the `pickle` of the libraries says about bytes: the classes they name in order, whether a class can be
imported, and the error of bytes that are no pickle. -/
structure Pickle where
  classes : Bytes → List (String × String)
  importable : String → String → Bool
  malformed : Bytes → Option String

/-- What the process finds: its manifest, with the hash of each file listed, and its libraries. -/
structure Env where
  manifest : ModelFile → Option (BitVec 256)
  pickle : Pickle

/-! ## `RestrictedUnpickler` -/

def SAFE_BUILTINS : List String :=
  ["int", "float", "str", "bytes", "list", "dict", "tuple", "set", "frozenset", "slice"]

def SAFE_MODULES : List (String × List String) :=
  [("numpy.core.multiarray", ["_reconstruct", "scalar", "ndarray"]), ("numpy", ["ndarray", "dtype"]),
    ("pandas.core.frame", ["DataFrame"]), ("pandas.core.series", ["Series"]),
    ("sklearn.ensemble._forest", ["RandomForestClassifier", "RandomForestRegressor"]),
    ("sklearn.tree._tree", ["Tree"]), ("sklearn.tree", ["DecisionTreeClassifier", "DecisionTreeRegressor"]),
    ("xgboost.sklearn", ["XGBClassifier", "XGBRegressor"]), ("catboost", ["CatBoostClassifier", "CatBoostRegressor"]),
    ("_builtins", ["set", "frozenset", "slice"])]

def findClass (p : Pickle) (module name : String) : Except String Unit :=
  if module = "builtins" then
    if name ∈ SAFE_BUILTINS then .ok () else .error ("Unsafe builtin: " ++ name)
  else if name ∉ (SAFE_MODULES.lookup module).getD [] then
    .error ("Attempted to unpickle unauthorized class " ++ module ++ "." ++ name ++
      ". Possible code-execution attack via malicious model file.")
  else if p.importable module name then .ok () else .error ("cannot import " ++ module ++ "." ++ name)

def restrictedLoads (p : Pickle) (data : Bytes) : Except String Bytes := do
  (p.classes data).forM fun (module, name) => findClass p module name
  match p.malformed data with
  | some e => .error e
  | none => return data

/-! ## `load_models` -/

def verifyModelHash (data : Bytes) (expectedHash : BitVec 256) : Bool := sha256 data = expectedHash

/-- The file may be loaded: its hash is the one in the manifest, or the manifest has none. -/
def Env.passes (env : Env) (filename : ModelFile) (data : Bytes) : Bool :=
  match env.manifest filename with
  | some expectedHash => verifyModelHash data expectedHash
  | none => true

/-- One turn of the loop. An exception leaves the models as they are then. -/
def loadModel (env : Env) (files : Files) (models : Models) (name : ModelName) : Except Models Models :=
  match files name.filename with
  | none => .ok models
  | some raw =>
    if env.passes name.filename raw then
      match restrictedLoads env.pickle raw with
      | .ok model => .ok (Function.update models name (some model))
      | .error _ => .error models
    else .ok models

def loadModels (env : Env) (files : Files) (models : Models) : Except Models Models :=
  modelFiles.foldlM (loadModel env files) models

/-! ## `train_all` -/

/-- The models that a training run has made, as they are saved. -/
structure Trained where
  xgboost : Bytes
  cart : Bytes
  catboost : Option Bytes

/-- How the training pipeline goes: each of its parts may raise an exception, and each of the two trainings may skip
its models. -/
structure Pipeline where
  data : Except String Unit := .ok ()
  failure : Except String (Option Trained)
  reliability : Except String (Option Trained)

/-- Save what was trained in its three files. -/
def save (xgboost cart catboost : ModelFile) (trained : Option Trained) (files : Files) : Files :=
  match trained with
  | none => files
  | some t =>
    let files := Function.update files xgboost (some t.xgboost)
    let files := Function.update files cart (some t.cart)
    match t.catboost with
    | none => files
    | some model => Function.update files catboost (some model)

/-- An exception leaves the files as they are then. -/
def orRaise {α : Type} (files : Files) : Except String α → Except Files α
  | .ok a => .ok a
  | .error _ => .error files

def trainAll (p : Pipeline) (files : Files) : Except Files Files := do
  orRaise files p.data
  let failure ← orRaise files p.failure
  let files := save .xgboostFailure .cartFailure .catboostFailure failure files
  let reliability ← orRaise files p.reliability
  return save .xgboostReliability .cartReliability .catboostReliability reliability files

end Sidecar

/-! ## The process -/

open Sidecar

structure Sidecar where
  files : Files
  running : Bool := false
  models : Models := fun _ => none

namespace Sidecar

/-- `run_training`, and whether it got through without an exception. -/
def runTraining (env : Env) (s : Sidecar) (p : Pipeline) : Sidecar × Bool :=
  match trainAll p s.files with
  | .error files => ({ s with files }, false)
  | .ok files =>
    match loadModels env files s.models with
    | .error models => ({ s with files, models }, false)
    | .ok models => ({ s with files, models }, true)

/-- `main` in a new process, and whether its training got through if there was one. Only the models of the old
process are gone. -/
def main (env : Env) (s : Sidecar) (p : Pipeline) : Sidecar × Bool :=
  match loadModels env s.files fun _ => none with
  | .error _ => ({ files := s.files }, true)
  | .ok models =>
    let s : Sidecar := { files := s.files, running := true, models }
    if modelFiles.any fun name => (models name).isSome then (s, true) else s.runTraining env p

inductive Event where
  | runTraining (p : Pipeline)
  | restart (p : Pipeline)

/-- The trainings that succeed, and restarts. -/
def step (env : Env) (s : Sidecar) : Event → Tx (Sidecar × List Unit)
  | .runTraining p => do
    require (s.running = true) "not running"
    require ((s.runTraining env p).2 = true) "training failed"
    return ((s.runTraining env p).1, [])
  | .restart p => do
    require ((s.main env p).2 = true) "training failed"
    return ((s.main env p).1, [])

/-- Each model that is served is what its file holds, and a model that was served still is. -/
structure Served (e : Entry Sidecar Event Unit) : Prop where
  latest : ∀ name raw, e.post.models name = some raw → e.post.files name.filename = some raw
  kept : ∀ name, (e.pre.models name).isSome → (e.post.models name).isSome

/-! ## Loading -/

/-- The file of a model, if it is there and may be loaded. -/
def verified (env : Env) (files : Files) (name : ModelName) : Option Bytes :=
  (files name.filename).filter (env.passes name.filename)

/-- All files that may be loaded can be. -/
def Loadable (env : Env) (files : Files) : Prop :=
  ∀ name raw, verified env files name = some raw → restrictedLoads env.pickle raw = .ok raw

section Loading

variable {env : Env} {files : Files} {models models' : Models} {name : ModelName} {raw : Bytes} {l : List ModelName}

theorem mem_modelFiles (name : ModelName) : name ∈ modelFiles := by
  cases name <;> decide

theorem verified_eq_some :
    verified env files name = some raw ↔ files name.filename = some raw ∧ env.passes name.filename raw = true :=
  Option.filter_eq_some_iff

theorem restrictedLoads_ok {p : Pickle} {model : Bytes} (h : restrictedLoads p raw = .ok model) : model = raw := by
  obtain ⟨-, -, h⟩ := bind_eq_ok.mp h
  split at h
  · cases h
  · exact pure_eq_ok.mp h

/-- One turn of the loop: what passes is loaded, and the other models stay as they are. -/
theorem loadModel_eq_ok : loadModel env files models name = .ok models' ↔
    (∀ raw, verified env files name = some raw → restrictedLoads env.pickle raw = .ok raw) ∧
      models' = Function.update models name ((verified env files name).or (models name)) := by
  have hkept : verified env files name = none →
      (.ok models = (.ok models' : Except Models Models) ↔
        (∀ raw, verified env files name = some raw → restrictedLoads env.pickle raw = .ok raw) ∧
          models' = Function.update models name ((verified env files name).or (models name))) := by
    intro hnone
    simp [hnone, eq_comm]
  unfold loadModel
  cases hfile : files name.filename with
  | none => exact hkept (by rw [verified, hfile, Option.filter_none])
  | some raw =>
    by_cases hpass : env.passes name.filename raw = true
    · have hverified : verified env files name = some raw := verified_eq_some.mpr ⟨hfile, hpass⟩
      simp only [hpass, if_true, hverified, Option.some.injEq, forall_eq', Option.some_or]
      cases hload : restrictedLoads env.pickle raw with
      | error e => simp
      | ok model =>
        obtain rfl := restrictedLoads_ok hload
        simp [eq_comm]
    · simp only [hpass]
      apply hkept
      rw [verified, hfile, Option.filter_some_eq_none.mpr hpass]

/-- The loop over any list of models. -/
theorem loadEach_eq_ok : l.foldlM (loadModel env files) models = .ok models' ↔
    (∀ name ∈ l, ∀ raw, verified env files name = some raw → restrictedLoads env.pickle raw = .ok raw) ∧
      models' = fun name => if name ∈ l then (verified env files name).or (models name) else models name := by
  induction l generalizing models with
  | nil => simp [pure_eq_ok]
  | cons first rest ih =>
    rw [List.foldlM_cons, bind_eq_ok]
    simp only [loadModel_eq_ok, ih, List.forall_mem_cons]
    have hmodels : (fun name => if name ∈ rest then (verified env files name).or
        (Function.update models first ((verified env files first).or (models first)) name)
        else Function.update models first ((verified env files first).or (models first)) name) =
        fun name => if name ∈ first :: rest then (verified env files name).or (models name) else models name := by
      funext name
      by_cases hname : name = first
      · subst hname
        simp [← Option.or_assoc]
      · simp [hname]
    constructor
    · rintro ⟨_, ⟨hfirst, rfl⟩, hrest, rfl⟩
      exact ⟨⟨hfirst, hrest⟩, hmodels⟩
    · rintro ⟨⟨hfirst, hrest⟩, rfl⟩
      exact ⟨_, ⟨hfirst, rfl⟩, hrest, hmodels.symm⟩

theorem loadModels_eq_ok : loadModels env files models = .ok models' ↔
    Loadable env files ∧ models' = fun name => (verified env files name).or (models name) := by
  unfold loadModels Loadable
  simp only [loadEach_eq_ok, mem_modelFiles, if_true, forall_const]

end Loading

/-! ## Training -/

/-- The files a training run writes. -/
def Pipeline.writes (p : Pipeline) : Files :=
  match trainAll p fun _ => none with
  | .ok files | .error files => files

section Training

variable {env : Env} {s s' : Sidecar} {p : Pipeline} {files files' : Files}

/-- A model that was trained replaces its file, and the others stay. -/
theorem save_eq (xgboost cart catboost : ModelFile) (trained : Option Trained) (files : Files) (f : ModelFile) :
    save xgboost cart catboost trained files f =
      (save xgboost cart catboost trained (fun _ => none) f).or (files f) := by
  unfold save
  cases trained with
  | none => rfl
  | some t =>
    cases hcatboost : t.catboost with
    | none =>
      simp only [hcatboost, Function.update_apply]
      split_ifs <;> rfl
    | some model =>
      simp only [hcatboost, Function.update_apply]
      split_ifs <;> rfl

theorem orRaise_eq_ok {α : Type} {x : Except String α} {a : α} : orRaise files x = .ok a ↔ x = .ok a := by
  cases x <;> simp [orRaise]

/-- Training overwrites the files it writes, and no others. -/
theorem trainAll_ok (h : trainAll p files = .ok files') (f : ModelFile) : files' f = (p.writes f).or (files f) := by
  simp only [trainAll, bind_eq_ok, orRaise_eq_ok, pure_eq_ok] at h
  obtain ⟨u, hdata, failure, hfailure, reliability, hreliability, rfl⟩ := h
  have hempty : trainAll p (fun _ => none) = .ok (save .xgboostReliability .cartReliability .catboostReliability
      reliability (save .xgboostFailure .cartFailure .catboostFailure failure fun _ => none)) := by
    simp only [trainAll, bind_eq_ok, orRaise_eq_ok, pure_eq_ok]
    exact ⟨u, hdata, failure, hfailure, reliability, hreliability, rfl⟩
  rw [Pipeline.writes, hempty]
  simp only
  rw [save_eq, save_eq .xgboostFailure, save_eq .xgboostReliability _ _ _ (save _ _ _ _ _), Option.or_assoc]

/-- What a training that succeeds leaves in the files and in the models. -/
theorem runTraining_true (h : (s.runTraining env p).2 = true) :
    ∃ files, (∀ f, files f = (p.writes f).or (s.files f)) ∧ Loadable env files ∧
      (s.runTraining env p).1 =
        { s with files, models := fun name => (verified env files name).or (s.models name) } := by
  unfold runTraining at h ⊢
  cases htrain : trainAll p s.files with
  | error files =>
    rw [htrain] at h
    cases h
  | ok files =>
    rw [htrain] at h
    simp only at h ⊢
    cases hload : loadModels env files s.models with
    | error models =>
      rw [hload] at h
      cases h
    | ok models =>
      obtain ⟨hloadable, rfl⟩ := loadModels_eq_ok.mp hload
      exact ⟨files, trainAll_ok htrain, hloadable, rfl⟩

end Training

/-! ## What is served -/

/-- What is served is in the files and would be loaded again. -/
structure Good (env : Env) (s : Sidecar) : Prop where
  latest : ∀ name raw, s.models name = some raw → s.files name.filename = some raw
  passes : ∀ name raw, s.models name = some raw → env.passes name.filename raw = true
  loadable : s.running = true → Loadable env s.files
  stopped : s.running = false → ∀ name, s.models name = none

/-- Training writes for each model that is served a file that passes, or none. -/
def Reproduces (env : Env) (s : Sidecar) : Event → Prop
  | .runTraining p => ∀ name, (s.models name).isSome →
      ∀ raw, p.writes name.filename = some raw → env.passes name.filename raw = true
  | .restart _ => True

section Serving

variable {env : Env} {s s' : Sidecar} {p : Pipeline} {logs : List Unit}

/-- After a training the files of the models that are served decide. -/
theorem latest_runTraining_iff (hgood : Good env s) (h : (s.runTraining env p).2 = true) :
    (∀ name raw, (s.runTraining env p).1.models name = some raw →
        (s.runTraining env p).1.files name.filename = some raw) ↔
      ∀ name, (s.models name).isSome → ∀ raw, p.writes name.filename = some raw →
        env.passes name.filename raw = true := by
  obtain ⟨files, hfiles, -, hs⟩ := runTraining_true h
  rw [hs]
  constructor
  · intro hlatest name hserved raw hwrites
    obtain ⟨old, hold⟩ := Option.isSome_iff_exists.mp hserved
    have hfile : files name.filename = some raw := by rw [hfiles, hwrites, Option.some_or]
    by_contra hfails
    have hnone : verified env files name = none := by rw [verified, hfile, Option.filter_some_eq_none.mpr hfails]
    -- the old model is still there, and it passed
    have hsame := hlatest name old (by simp only [hnone, Option.none_or, hold])
    obtain rfl := Option.some.inj (hfile.symm.trans hsame)
    exact hfails (hgood.passes name raw hold)
  · intro hwrites name raw hmodel
    rcases Option.or_eq_some_iff.mp hmodel with hverified | ⟨hnone, hold⟩
    · exact (verified_eq_some.mp hverified).1
    · show files name.filename = some raw
      rw [hfiles]
      cases hwritten : p.writes name.filename with
      | none => rw [Option.none_or, hgood.latest name raw hold]
      | some new =>
        have hpass := hwrites name (Option.isSome_iff_exists.mpr ⟨raw, hold⟩) new hwritten
        have hverified : verified env files name = some new :=
          verified_eq_some.mpr ⟨by rw [hfiles, hwritten, Option.some_or], hpass⟩
        rw [hverified] at hnone
        cases hnone

theorem kept_runTraining (h : (s.runTraining env p).2 = true) (name : ModelName) (hserved : (s.models name).isSome) :
    ((s.runTraining env p).1.models name).isSome := by
  obtain ⟨files, -, -, hs⟩ := runTraining_true h
  rw [hs]
  simp [hserved]

/-- The service stays good if each model it has loaded is the one in the file. -/
theorem good_runTraining (hgood : Good env s) (hrunning : s.running = true) (h : (s.runTraining env p).2 = true)
    (hlatest : ∀ name raw, (s.runTraining env p).1.models name = some raw →
      (s.runTraining env p).1.files name.filename = some raw) : Good env (s.runTraining env p).1 := by
  obtain ⟨files, hfiles, hloadable, hs⟩ := runTraining_true h
  rw [hs] at hlatest ⊢
  refine ⟨hlatest, ?_, fun _ => hloadable, ?_⟩
  · intro name raw hmodel
    rcases Option.or_eq_some_iff.mp hmodel with hverified | ⟨-, hold⟩
    · exact (verified_eq_some.mp hverified).2
    · exact hgood.passes name raw hold
  · intro hstopped
    exact absurd (hrunning.symm.trans hstopped) (by decide)

/-- What a restart leaves: no process, the models whose files pass, or those of a first training. -/
theorem main_cases (h : (s.main env p).2 = true) :
    (¬ Loadable env s.files ∧ (s.main env p).1 = { files := s.files }) ∨
    (Loadable env s.files ∧ (s.main env p).1 = { files := s.files, running := true, models := verified env s.files }) ∨
    ∃ started : Sidecar, started = { files := s.files, running := true, models := fun _ => none } ∧
      Loadable env s.files ∧ (∀ name, verified env s.files name = none) ∧
      (started.runTraining env p).2 = true ∧ (s.main env p).1 = (started.runTraining env p).1 := by
  unfold main at h ⊢
  cases hload : loadModels env s.files fun _ => none with
  | error models =>
    refine Or.inl ⟨?_, rfl⟩
    intro hloadable
    rw [loadModels_eq_ok.mpr ⟨hloadable, rfl⟩] at hload
    cases hload
  | ok models =>
    obtain ⟨hloadable, hmodels⟩ := loadModels_eq_ok.mp hload
    obtain rfl : models = verified env s.files := by
      rw [hmodels]
      funext name
      exact Option.or_none
    rw [hload] at h
    simp only at h ⊢
    by_cases hany : (modelFiles.any fun name => (verified env s.files name).isSome) = true
    · rw [if_pos hany]
      exact Or.inr (Or.inl ⟨hloadable, rfl⟩)
    · rw [if_neg hany] at h ⊢
      have hnone : ∀ name, verified env s.files name = none := by
        intro name
        have hall := List.any_eq_false.mp (Bool.not_eq_true _ ▸ hany) name (mem_modelFiles name)
        simpa using hall
      have hempty : verified env s.files = fun _ => none := funext hnone
      refine Or.inr (Or.inr ⟨_, rfl, hloadable, hnone, ?_, ?_⟩)
      · rwa [hempty] at h
      · rw [hempty]

theorem isSome_verified (hgood : Good env s) {name : ModelName} (h : (s.models name).isSome) :
    (verified env s.files name).isSome := by
  obtain ⟨raw, hraw⟩ := Option.isSome_iff_exists.mp h
  have hverified := verified_eq_some.mpr ⟨hgood.latest name raw hraw, hgood.passes name raw hraw⟩
  exact Option.isSome_iff_exists.mpr ⟨raw, hverified⟩

theorem good_of_verified {files : Files} (h : Loadable env files) :
    Good env { files, running := true, models := verified env files } where
  latest _ _ hraw := (verified_eq_some.mp hraw).1
  passes _ _ hraw := (verified_eq_some.mp hraw).2
  loadable _ := h
  stopped hstopped := nomatch hstopped

theorem good_of_empty {files : Files} {running : Bool} (h : running = true → Loadable env files) :
    Good env { files, running, models := fun _ => none } where
  latest _ _ hraw := nomatch hraw
  passes _ _ hraw := nomatch hraw
  loadable := h
  stopped _ _ := rfl

/-- A restart serves what was served, from the files. -/
theorem restart_good (hgood : Good env s) (h : (s.main env p).2 = true) :
    Served ⟨s, .restart p, logs, (s.main env p).1⟩ ∧ Good env (s.main env p).1 := by
  rcases main_cases h with ⟨hnot, hs⟩ | ⟨hloadable, hs⟩ | ⟨started, hstarted, hloadable, hnone, htrained, hs⟩
  · have hstopped : s.running = false := by
      cases hrunning : s.running with
      | false => rfl
      | true => exact absurd (hgood.loadable hrunning) hnot
    rw [hs]
    refine ⟨⟨nofun, ?_⟩, good_of_empty nofun⟩
    intro name hserved
    simp [hgood.stopped hstopped name] at hserved
  · rw [hs]
    exact ⟨⟨fun name raw hraw => (verified_eq_some.mp hraw).1, fun name => isSome_verified hgood⟩,
      good_of_verified hloadable⟩
  · have hgood₀ : Good env started := hstarted ▸ good_of_empty fun _ => hloadable
    -- nothing is served when the training starts
    have hlatest := (latest_runTraining_iff hgood₀ htrained).mpr fun name hserved => by simp [hstarted] at hserved
    rw [hs]
    refine ⟨⟨hlatest, ?_⟩, good_runTraining hgood₀ (by rw [hstarted]) htrained hlatest⟩
    intro name hserved
    have hverified := isSome_verified hgood hserved
    simp [hnone name] at hverified

/-- **One training or restart**, where what is served is good. -/
theorem step_served_iff {e : Event} (hgood : Good env s) (h : s.step env e = .ok (s', logs)) :
    (Served ⟨s, e, logs, s'⟩ ↔ Reproduces env s e) ∧ (Served ⟨s, e, logs, s'⟩ → Good env s') := by
  cases e with
  | runTraining p =>
    simp only [step, bind_eq_ok, require_eq_ok, pure_eq_ok, Prod.mk.injEq] at h
    obtain ⟨-, hrunning, -, htrained, rfl, rfl⟩ := h
    refine ⟨?_, fun hserved => good_runTraining hgood hrunning htrained hserved.latest⟩
    rw [Reproduces, ← latest_runTraining_iff hgood htrained]
    exact ⟨Served.latest, fun hlatest => ⟨hlatest, kept_runTraining htrained⟩⟩
  | restart p =>
    simp only [step, bind_eq_ok, require_eq_ok, pure_eq_ok, Prod.mk.injEq] at h
    obtain ⟨-, htrained, rfl, rfl⟩ := h
    obtain ⟨hserved, hnext⟩ := @restart_good env s p [] hgood htrained
    exact ⟨iff_of_true hserved trivial, fun _ => hnext⟩

end Serving

/-- **Retrained models are served, exactly.** From the start of the first process on, whatever the files: after every
training and every restart the models served are the last ones written, and none is lost, if and only if training
writes for no model that is served a file that the manifest does not let pass. -/
theorem served_iff (env : Env) (files : Files) (es : List Event) :
    (∀ e ∈ history (step env) { files } es, Served e) ↔ Meets (step env) (Reproduces env) { files } es := by
  apply forall_history_iff (P := Good env)
  · exact good_of_empty nofun
  · exact fun s e s' logs hgood h => (step_served_iff hgood h).1
  · exact fun s e s' logs hgood hserved h => (step_served_iff hgood h).2 hserved

namespace SmallModels

/-- `pickle.dumps` of a dictionary with an `XGBClassifier` and its features; what comes after the opening of the list of
features differs. -/
def pickled (frame : BitVec 8) (features : Bytes) : Bytes :=
  [128, 4, 149, frame, 0, 0, 0, 0, 0, 0, 0] ++ [
    125, 148, 40, 140, 5, 109, 111, 100, 101, 108, 148, 140, 15, 120, 103, 98, 111, 111, 115, 116, 46, 115, 107,
    108, 101, 97, 114, 110, 148, 140, 13, 88, 71, 66, 67, 108, 97, 115, 115, 105, 102, 105, 101, 114, 148, 147,
    148, 41, 129, 148, 140, 8, 102, 101, 97, 116, 117, 114, 101, 115, 148, 93, 148] ++ features

/-- The only feature is `stake`. -/
def shipped : Bytes := pickled 74 [140, 5, 115, 116, 97, 107, 101, 148, 97, 117, 46]

/-- The features are `stake` and `risk_score`. -/
def retrained : Bytes := pickled 88 [
    40, 140, 5, 115, 116, 97, 107, 101, 148, 140, 10, 114, 105, 115, 107, 95, 115, 99, 111, 114, 101, 148, 101,
    117, 46]

/-- The manifest of the shipped model, and the entry of the repository for the other one that is trained with it. -/
def manifest : ModelFile → Option (BitVec 256)
  | .xgboostFailure => some 0x07a7c98f4c20fc70ae83a30dd41c4c371e6755b2e9f39eaeca3de29423f4aff8
  | .cartFailure => some 0xdef0ae8443aa374d1eca5418b4cbb73a64f6cf0e478bc8b87b9244e7bc8c9c31
  | _ => none

/-- Both pickles name one class, which is allowed. -/
def env : Env where
  manifest
  pickle :=
    { classes := fun _ => [("xgboost.sklearn", "XGBClassifier")], importable := fun _ _ => true,
      malformed := fun _ => none }

def files : Files
  | .xgboostFailure => some shipped
  | _ => none

/-- There is one reliability tier only, so those models are skipped. -/
def training : Pipeline where
  failure := .ok (some { xgboost := retrained, cart := retrained, catboost := none })
  reliability := .ok none

theorem files_match : ∀ f raw expectedHash, files f = some raw → manifest f = some expectedHash →
    verifyModelHash raw expectedHash = true := by
  intro f raw expectedHash hfile hmanifest
  cases f <;> cases hfile
  cases hmanifest
  decide +kernel

/-- Started from files that match, and trained, the process serves the old model, and after a restart none. -/
theorem retrained_not_served :
    (∀ f raw expectedHash, files f = some raw → env.manifest f = some expectedHash →
      verifyModelHash raw expectedHash = true) ∧
    (¬ ∀ e ∈ history (step env) { files } [.restart training, .runTraining training], Served e) ∧
    (run (step env) { files } [.restart training, .runTraining training]).models .failureXgb = some shipped ∧
    (run (step env) { files } [.restart training, .runTraining training, .restart training]).models .failureXgb =
      none := by
  refine ⟨files_match, ?_, by decide +kernel, by decide +kernel⟩
  intro hserved
  have hlatest : ∀ e ∈ history (step env) { files } [.restart training, .runTraining training],
      e.post.models .failureXgb = none ∨ e.post.files .xgboostFailure = e.post.models .failureXgb := by
    intro e he
    cases hmodel : e.post.models .failureXgb with
    | none => exact Or.inl rfl
    | some raw => exact Or.inr ((hserved e he).latest _ raw hmodel)
  revert hlatest
  decide +kernel

end SmallModels

end Sidecar

end Kyneto
