import HybridStream.Lib.Proc
import HybridStream.Py.Value

/-!
# `Hea.Operator` — the operator interface

`hea/execution/base_operator.py`. An operator class is given by what its methods do to the attributes `σ` of
an instance. A method that raises keeps what it wrote before (`Lib.Proc`); the clock readings a call takes
are its inputs.

The class also says whether it is CPU-bound and what an instance reports as its id and its type. An operator over a
stream of records is `run`, and `outcomes` has how each call ended: results about a class are about these two, and the
engine is connected with them where it calls `process`.
-/

namespace HybridStream
namespace Hea

open Lib Py

/-- The clock readings of one call: `time.monotonic()`, and `time.time()` by the number of earlier readings
    in the same call. -/
structure Clock (F : Type) where
  monotonic : F
  time      : Nat → F

/-- `BaseOperator`: a class of operators with attributes `σ`. -/
structure BaseOperator (F σ : Type) where
  operatorType : String
  operatorId   : σ → String
  process      : Clock F → Record F → Proc PyError σ (List (Record F))
  getState     : σ → Record F
  restoreState : Clock F → Record F → Proc PyError σ PUnit

namespace BaseOperator

variable {F σ : Type}

/-- The attributes after a history of `process` calls, raising or not. -/
def run (C : BaseOperator F σ) (s : σ) (stream : List (Clock F × Record F)) : σ :=
  stream.foldl (fun s e => ((C.process e.1 e.2).exec s).2) s

/-- What the calls of a history keep, the history keeps. -/
theorem run_keeps_of_mem {C : BaseOperator F σ} {I : σ → Prop} {stream : List (Clock F × Record F)}
    (h : ∀ e ∈ stream, (C.process e.1 e.2).Keeps I) {s : σ} (hs : I s) : I (C.run s stream) :=
  Proc.keeps_foldl (fun e : Clock F × Record F => C.process e.1 e.2) h hs

/-- What every call of `process` keeps, a whole history keeps. -/
theorem run_keeps {C : BaseOperator F σ} {I : σ → Prop} (h : ∀ clock record, (C.process clock record).Keeps I)
    (stream : List (Clock F × Record F)) {s : σ} (hs : I s) : I (C.run s stream) :=
  run_keeps_of_mem (fun e _ => h e.1 e.2) hs

theorem run_append (C : BaseOperator F σ) (s : σ) (xs ys : List (Clock F × Record F)) :
    C.run s (xs ++ ys) = C.run (C.run s xs) ys := List.foldl_append

/-- A class of operators that count their records and put out the count. -/
def counting (operatorId : String) : BaseOperator F Nat where
  operatorType := "Counting"
  operatorId _ := operatorId
  process _ _  := do
    modify (· + 1)
    let count ← get
    pure [Dict.ofList [("count", .int count)]]
  getState count := Dict.ofList [("count", .int count)]
  restoreState _ state := modify (fun count => match state.get "count" with
    | some (.int i) => i.toNat
    | _             => count)

end BaseOperator

end Hea
end HybridStream
