import ControlCodegen.Integrator.Basic

/-!
# `Integrator.Registry`: which integrators can be made

A registry has at most one constructor for each scheme. The integrators of an export come from a registry, so that a
program may leave schemes out or replace them.
-/

namespace ControlCodegen.Integrator

set_option autoImplicit false

/-- Makes an integrator when a scheme is asked for. -/
abbrev Constructor := Scheme → ModuleName → LinearSolver → Integrator

/-- The integrator of exactly the scheme asked for. -/
def standard : Constructor := fun scheme moduleName linearSolver => { scheme, moduleName, linearSolver }

/-- A constructor for some of the schemes. -/
structure Registry where
  constructor? : Scheme → Option Constructor

namespace Registry

def empty : Registry := ⟨fun _ => none⟩

/-- Every scheme is made by the standard constructor. -/
def builtin : Registry := ⟨fun _ => some standard⟩

def register (r : Registry) (scheme : Scheme) (make : Constructor) : Registry :=
  ⟨fun s => if s = scheme then some make else r.constructor? s⟩

def contains (r : Registry) (scheme : Scheme) : Bool := (r.constructor? scheme).isSome

/-- The schemes that can be made, in their usual order. -/
def schemes (r : Registry) : List Scheme := Choice.all.filter r.contains

def create (r : Registry) (scheme : Scheme) (moduleName : ModuleName) (linearSolver : LinearSolver) :
    Except Cause Integrator :=
  match r.constructor? scheme with
  | some make => .ok (make scheme moduleName linearSolver)
  | none => .error (.unregisteredScheme scheme)

end Registry

end ControlCodegen.Integrator
