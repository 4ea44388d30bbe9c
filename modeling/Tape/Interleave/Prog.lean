import Mathlib.Logic.Basic

/-! # Programs over atomic operations

A client program is a tree of atomic operations: `call op next` hands `op` to a
shared machine and continues with whatever the machine answers.  Between two
operations of one program any number of operations of other programs may run, so
the tree fixes exactly the granularity at which programs interleave.

`Res op` is the type of answers to `op`; it may depend on the operation.
-/

namespace Tape.Interleave

/-- A program over operations `Op` that finally returns an `α`. -/
inductive Prog (Op : Type) (Res : Op → Type) (α : Type) where
  | ret (value : α)
  | call (op : Op) (next : Res op → Prog Op Res α)

namespace Prog

variable {Op : Type} {Res : Op → Type} {α β : Type}

/-- Run `program`, then continue with its result. -/
def bind : Prog Op Res α → (α → Prog Op Res β) → Prog Op Res β
  | .ret value, continuation => continuation value
  | .call op next, continuation => .call op fun answer => (next answer).bind continuation

instance : Monad (Prog Op Res) where
  pure := .ret
  bind := .bind

/-- The program that performs one operation and returns its answer. -/
def perform (op : Op) : Prog Op Res (Res op) := .call op .ret

/-- The operation the program performs next; `none` once it has returned. -/
def head? : Prog Op Res α → Option Op
  | .ret _ => none
  | .call op _ => some op

@[simp] theorem head?_ret (value : α) : (ret value : Prog Op Res α).head? = none := rfl

@[simp] theorem head?_call (op : Op) (next : Res op → Prog Op Res α) :
    (call op next).head? = some op := rfl

@[simp] theorem ret_bind (value : α) (continuation : α → Prog Op Res β) :
    (ret value).bind continuation = continuation value := rfl

@[simp] theorem call_bind (op : Op) (next : Res op → Prog Op Res α)
    (continuation : α → Prog Op Res β) :
    (call op next).bind continuation = call op fun answer => (next answer).bind continuation := rfl

@[simp] theorem pure_eq_ret (value : α) : (pure value : Prog Op Res α) = ret value := rfl

@[simp] theorem bind_eq_bind (program : Prog Op Res α) (continuation : α → Prog Op Res β) :
    program >>= continuation = program.bind continuation := rfl

@[simp] theorem perform_eq_call (op : Op) : (perform op : Prog Op Res (Res op)) = call op ret := rfl

end Prog

end Tape.Interleave
