import ControlCodegen.Plan.Session
import ControlCodegen.Version

/-!
# `Export.Header`: the common header

Every generated source includes the common header of its module. It has the real type, the constants of the plan as
macros, the two structs with the members that integrator and solver need, and the prototypes of all functions.
-/

namespace ControlCodegen.Export

open C

set_option autoImplicit false

/-- The members of a struct, those of the integrator first. -/
def members (plan : Plan) (owner : Struct) : List Member :=
  plan.integrator.members owner ++ plan.solver.members owner

/-- The prototypes, those of the integrator first. -/
def prototypes (plan : Plan) : List Prototype := plan.integrator.prototypes ++ plan.solver.prototypes

/-- The definition of a struct; C wants at least one member. -/
def structText (plan : Plan) (types : TypeNames) (owner : Struct) : String :=
  let typeName := owner.typeName plan.constants.moduleName
  let declared := Member.renderAll types (members plan owner)
  s!"typedef struct {typeName}_\n\x7b\n" ++
    (if declared.isEmpty then "int dummy;\n" else declared ++ "\n") ++
    s!"\x7d {typeName};\n\n"

/-- The definition of a macro under its description. -/
def macroText (c : Constants.Macro) : String := s!"/** {c.description} */\n#define {c.fullName} {c.value}\n"

/-- The definition of the real type, unless C has a type of that name. -/
def realTypeText (types : TypeNames) (singlePrecision : Bool) : String :=
  if types.real = "float" ∨ types.real = "double" then ""
  else
    let scalar := if singlePrecision then "float" else "double"
    s!"/** Scalar type of real numbers. */\ntypedef {scalar} {types.real};\n\n"

/-- The start of what C++ has to take as C. -/
def linkageStart : String :=
  "#ifndef __MATLAB__\n#ifdef __cplusplus\nextern \"C\"\n\x7b\n#endif /* __cplusplus */\n#endif /* __MATLAB__ */\n\n"

/-- The end of what C++ has to take as C. -/
def linkageEnd : String :=
  "#ifndef __MATLAB__\n#ifdef __cplusplus\n\x7d /* extern \"C\" */\n#endif /* __cplusplus */\n" ++
    "#endif /* __MATLAB__ */\n\n"

def externText (m : ModuleName) (owner : Struct) : String :=
  s!"extern {owner.typeName m} {owner.instanceName m};\n"

def headerText (plan : Plan) (types : TypeNames) : String :=
  let m := plan.constants.moduleName
  let guard := m.capitals ++ "_COMMON_H"
  notice "" ++
  s!"#ifndef {guard}\n#define {guard}\n\n" ++
  "#include <math.h>\n#include <string.h>\n" ++
  (if plan.constants.usesComplex then "#include <complex.h>\n" else "") ++ "\n" ++
  linkageStart ++
  realTypeText types plan.constants.singlePrecision ++
  String.join (plan.constants.macros.map macroText) ++ "\n" ++
  structText plan types .vars ++
  structText plan types .workspace ++
  Prototype.renderAll types (prototypes plan) ++ "\n\n" ++
  externText m .workspace ++
  externText m .vars ++ "\n" ++
  linkageEnd ++
  s!"#endif /* {guard} */\n"

end ControlCodegen.Export
