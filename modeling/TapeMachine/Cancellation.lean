/-!
# Cancellation

A flag says that somebody has asked for work to stop. It is held through handles: copies of a
handle hold the same flag, and whoever holds one can raise it. A flag once raised stays raised.
-/

namespace TapeMachine

/-- Flags, and handles that hold them. Flags and handles are numbered from `0`. -/
structure CancellationPool where
  /-- Which flags are raised. -/
  raised : List Bool
  /-- The flag that each handle holds. -/
  handles : List Nat
  deriving DecidableEq

namespace CancellationPool

/-- No flag and no handle. -/
def empty : CancellationPool :=
  ⟨[], []⟩

/-- Adds a handle to a flag of its own, which is not raised. -/
def fresh (pool : CancellationPool) : CancellationPool :=
  ⟨pool.raised ++ [false], pool.handles ++ [pool.raised.length]⟩

/-- Adds a handle to the flag that handle `i` holds. -/
def copy (pool : CancellationPool) (i : Nat) : CancellationPool :=
  match pool.handles[i]? with
  | some flag => { pool with handles := pool.handles ++ [flag] }
  | none => pool

/-- Raises the flag that handle `i` holds. -/
def cancel (pool : CancellationPool) (i : Nat) : CancellationPool :=
  match pool.handles[i]? with
  | some flag => { pool with raised := pool.raised.set flag true }
  | none => pool

/-- Whether each handle sees its flag raised, in the order of the handles. -/
def seen (pool : CancellationPool) : List Bool :=
  pool.handles.map fun flag => pool.raised.getD flag false

end CancellationPool

end TapeMachine
