import RequestCompiler.Compile

/-!
# Holding a registry

A program that runs for long serves from a current registry and can load it again. A load
that succeeds replaces the whole registry at once; one that fails leaves it. A compiler is the
registry that was current when it was taken, so no later load changes what it answers.
-/

namespace RequestCompiler

/-- The registry that is served from. -/
structure Holder where
  current : Registry

namespace Holder

/-- The holder of a first load, if that succeeds. -/
def start {ε : Type} (load : Except ε Registry) : Except ε Holder := load.map Holder.mk

/-- The holder after another load, and the load's outcome. -/
def reload {ε : Type} (h : Holder) : Except ε Registry → Holder × Except ε Registry
  | .ok r => (⟨r⟩, .ok r)
  | .error e => (h, .error e)

/-- The compiler of the current registry. -/
def compiler (h : Holder) : Request → Except InvariantViolation Compilation := h.current.compile

end Holder

end RequestCompiler
