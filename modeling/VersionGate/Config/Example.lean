import VersionGate.Config.Node

/-!
# An example

A small part whose values and modules are annotated for different versions. Of its two variant
modules exactly one stays, whatever the running version.
-/

namespace VersionGate.Config

/-- The example part, with the given text for its first value. -/
def examplePart (name : String) : Node where
  name := "PART"
  values := [
    ⟨"name", name⟩,
    ⟨"mass", "0.5"⟩,
    ⟨"bulkheadProfiles:KSP_VERSION[>≈1.2]", "size1"⟩,
    ⟨"tags:KSP_VERSION[<1.2]", "fuel tank"⟩]
  nodes := [
    { name := "MODULE"
      values := [⟨"name", "ModuleEngines"⟩, ⟨"EngineType:KSP_VERSION[>≈1.8]", "LiquidFuel"⟩] },
    { name := "MODULE:KSP_VERSION[<1.8]", values := [⟨"name", "ModulePartVariantsLegacy"⟩] },
    { name := "MODULE:KSP_VERSION[>≈1.8]", values := [⟨"name", "ModulePartVariants"⟩] },
    { name := "RESOURCE"
      values := [
        ⟨"name", "LiquidFuel"⟩,
        ⟨"amount", "90"⟩,
        ⟨"maxAmount:KSP_VERSION[1.8|1.9]", "90"⟩] }]

/-- The text of the first value of the example where none is given. -/
def exampleName : String := "exampleTank"

end VersionGate.Config
