import TurtleArt.Position

/-! What a rendering reports while it runs, and values that come with their reports. -/

namespace TurtleArt

inductive Event
  | definition (name : String) (recursions : Nat)
  /-- Generation `index` has been derived and takes `bytes` bytes of UTF-8. -/
  | generation (index bytes : Nat)
  | drawing (symbols movements side : Nat) (origin : Position)
  deriving DecidableEq, Repr

inductive Level
  | debug
  | trace
  deriving DecidableEq, Repr

def Event.level : Event → Level
  | definition .. | drawing .. => .debug
  | generation .. => .trace

structure Logged (α : Type) where
  value : α
  events : List Event := []

namespace Logged

instance : Monad Logged where
  pure a := ⟨a, []⟩
  bind x f :=
    let y := f x.value
    ⟨y.value, x.events ++ y.events⟩

def emit (e : Event) : Logged Unit :=
  ⟨(), [e]⟩

variable {α β : Type}

def report (x : Logged α) : List (Level × Event) :=
  x.events.map fun e => (e.level, e)

@[simp] theorem value_pure (a : α) : (pure a : Logged α).value = a := rfl

@[simp] theorem value_bind (x : Logged α) (f : α → Logged β) :
    (x >>= f).value = (f x.value).value := rfl

@[simp] theorem report_pure (a : α) : (pure a : Logged α).report = [] := rfl

end Logged
end TurtleArt
