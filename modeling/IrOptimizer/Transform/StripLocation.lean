import IrOptimizer.Pass.Basic

/-!
# Stripping locations

The pass removes the attribute that records where an operation was written.
-/

namespace IrOptimizer

/-- The key of the attribute that records a location. -/
def locationKey : String := "loc"

/-- The module without locations. -/
def Module.stripLocations (m : Module) : Module :=
  { m with ops := Operation.mapAttributesList (·.erase locationKey) m.ops }

/-- Drops locations from every operation. -/
def Pass.stripLocation : Pass where
  label := "StripLocation"
  description := "drop `loc` attributes from every operation"
  run := fun _ m => (m.stripLocations, .ok ())

end IrOptimizer
