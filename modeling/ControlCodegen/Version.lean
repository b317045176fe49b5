/-!
# `Version`: what the program is called
-/

namespace ControlCodegen

set_option autoImplicit false

def programName : String := "ocpgen"

def version : String := "0.4.0"

/-- The lines at the top of every generated file. -/
def noticeLines : List String :=
  [s!"This file was auto-generated by {programName} {version}.", "Changes are overwritten by the next export."]

/-- The notice behind a comment token on each line, or in a block comment if the token is empty. -/
def notice (token : String) : String :=
  if token.isEmpty then "/*\n" ++ String.join (noticeLines.map fun l => s!" *    {l}\n") ++ " */\n\n"
  else String.join (noticeLines.map fun l => s!"{token} {l}\n") ++ "\n"

end ControlCodegen
