import StringBricks.Fault

/-!
# Traced computations

A computation that may end with a fault and that keeps the list of the arguments at which it called
a function it knows nothing about.
-/

set_option autoImplicit false

namespace StringBricks

/-- The calls of a computation, in order, and its result. -/
structure Traced (α β : Type) where
  calls : List α
  result : Except Fault β

namespace Traced

variable {α β γ : Type}

/-- A result without any call. -/
def ofResult (result : Except Fault β) : Traced α β := ⟨[], result⟩

/-- One call of `f` at `x`. -/
def call (f : α → Except Fault β) (x : α) : Traced α β := ⟨[x], f x⟩

/-- Goes on with the result, unless there was a fault. -/
protected def bind (m : Traced α β) (k : β → Traced α γ) : Traced α γ :=
  match m.result with
  | .ok b => ⟨m.calls ++ (k b).calls, (k b).result⟩
  | .error fault => ⟨m.calls, .error fault⟩

instance : Monad (Traced α) where
  pure b := ofResult (.ok b)
  bind := Traced.bind

/-- A value makes no calls. -/
@[simp] theorem calls_pure (b : β) : (pure b : Traced α β).calls = [] := rfl

/-- A value is its own result. -/
@[simp] theorem result_pure (b : β) : (pure b : Traced α β).result = .ok b := rfl

/-- After a step with a result, the calls of the next one follow. -/
theorem bind_of_ok {m : Traced α β} {b : β} (h : m.result = .ok b) (k : β → Traced α γ) :
    m >>= k = ⟨m.calls ++ (k b).calls, (k b).result⟩ := by
  show Traced.bind m k = _
  rw [Traced.bind, h]

/-- After a step that fails, nothing is called. -/
theorem bind_of_error {m : Traced α β} {fault : Fault} (h : m.result = .error fault)
    (k : β → Traced α γ) : m >>= k = ⟨m.calls, .error fault⟩ := by
  show Traced.bind m k = _
  rw [Traced.bind, h]

end Traced

end StringBricks
