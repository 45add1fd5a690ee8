/-!
Computations that leave a trail. What was noted before a failure is kept.
-/
namespace IdlGen

structure Trail (ω ε α : Type) where
  notes : List ω
  outcome : Except ε α

namespace Trail

variable {ω ε α β : Type}

def done (a : α) : Trail ω ε α := ⟨[], .ok a⟩

def andThen (first : Trail ω ε α) (next : α → Trail ω ε β) : Trail ω ε β :=
  match first.outcome with
  | .ok a => ⟨first.notes ++ (next a).notes, (next a).outcome⟩
  | .error e => ⟨first.notes, .error e⟩

instance : Monad (Trail ω ε) where
  pure := done
  bind := andThen

def note (entry : ω) : Trail ω ε Unit := ⟨[entry], .ok ()⟩

def lift (outcome : Except ε α) : Trail ω ε α := ⟨[], outcome⟩

def fail (e : ε) : Trail ω ε α := ⟨[], .error e⟩

/-- The trail of an alternative after a failure, with the notes before the failure. -/
def orElse (first : Trail ω ε α) (handle : ε → Trail ω ε α) : Trail ω ε α :=
  match first.outcome with
  | .ok a => ⟨first.notes, .ok a⟩
  | .error e => ⟨first.notes ++ (handle e).notes, (handle e).outcome⟩

instance : MonadExceptOf ε (Trail ω ε) where
  throw := fail
  tryCatch := orElse

end Trail
end IdlGen
