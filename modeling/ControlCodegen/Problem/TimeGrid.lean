/-!
# `Problem.TimeGrid`: the time grid of a horizon

A grid lies between two times, and may give its points explicitly. Grids are defined over any numbers, so that what
holds of doubles and what holds of exact numbers can be compared; the program uses doubles.
-/

namespace ControlCodegen

set_option autoImplicit false

/-- The time grid of the horizon. -/
structure TimeGrid (R : Type) where
  start : R
  stop : R
  /-- Explicit grid points; without them the intervals are equally long. -/
  points : Option (List R) := none

namespace TimeGrid

/-- The grid where none is given: the unit interval. -/
def unit : TimeGrid Float where
  start := 0.0
  stop := 1.0

variable {R : Type}

/-- The lengths of the intervals between neighbouring points. -/
def differences [Sub R] (points : List R) : List R := List.zipWith (fun a b => b - a) points points.tail

def size [LT R] [DecidableLT R] [Neg R] [OfScientific R] (r : R) : R := if r < 0.0 then -r else r

/-- How far the length of an interval may be from the first one: `1e-10`, relative to the first if that is above 1. -/
def tolerance [LT R] [DecidableLT R] [Neg R] [Mul R] [OfScientific R] (first : R) : R :=
  1e-10 * (if 1.0 < size first then size first else 1.0)

/-- Whether all intervals are as long as the first, up to the tolerance. Fewer than three points leave nothing to
compare. -/
def isEquidistant [LT R] [DecidableLT R] [LE R] [DecidableLE R] [Neg R] [Sub R] [Mul R] [OfScientific R]
    (g : TimeGrid R) : Bool :=
  match g.points with
  | none => true
  | some points =>
    match differences points with
    | [] | [_] => true
    | first :: rest => (first :: rest).all fun d => size (d - first) ≤ tolerance first

end TimeGrid

end ControlCodegen
