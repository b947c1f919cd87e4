import Kyneto.Evm.Keccak

/-!
# Calls as bytes

A transaction carries bytes. The first four of them say which function of the contract is called: they are the
beginning of the hash of its signature, its name with the types of its parameters. A contract without a fallback
function takes no other transaction.
-/

namespace Kyneto.Evm

/-- The bytes of a text in ASCII. -/
def ascii (text : String) : Bytes := text.toList.map fun c => BitVec.ofNat 8 c.toNat

def selector (signature : String) : Bytes := (packWord (keccak256 (ascii signature))).take 4

@[simp] theorem length_selector (signature : String) : (selector signature).length = 4 := by
  simp [selector]

/-- The calldata of a call, with its encoded arguments. -/
def calldata (signature : String) (args : Bytes) : Bytes := selector signature ++ args

/-- A function of a contract, which reads its arguments from the bytes after the selector. -/
structure External (γ : Type) where
  signature : String
  decodeArgs : Bytes → Option γ

variable {γ : Type} {functions : List (External γ)} {signature : String} {args : Bytes}

/-- The call that a contract takes some bytes for. -/
def dispatch (functions : List (External γ)) (data : Bytes) : Option γ :=
  match functions.find? fun f => selector f.signature = data.take 4 with
  | some f => f.decodeArgs (data.drop 4)
  | none => none

/-- A contract refuses a function that it does not have. -/
theorem dispatch_unknown (h : ∀ f ∈ functions, selector f.signature ≠ selector signature) :
    dispatch functions (calldata signature args) = none := by
  have hnone : functions.find? (fun f => selector f.signature = (calldata signature args).take 4) = none := by
    rw [List.find?_eq_none]
    intro f hf
    have htake : (calldata signature args).take 4 = selector signature := by
      unfold calldata
      rw [List.take_append_of_le_length (by simp)]
      simp
    simpa [htake] using h f hf
  unfold dispatch
  rw [hnone]

end Kyneto.Evm
