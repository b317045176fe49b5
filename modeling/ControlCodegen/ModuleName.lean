import ControlCodegen.Text.Blank

/-!
# `ModuleName`: the name of a generated module

Generated files, C symbols and struct types start with the module name, so it is a C identifier by construction.
`ModuleName.ofString` is the only way in from text.
-/

namespace ControlCodegen

set_option autoImplicit false

/-- ASCII letters and the underscore. -/
def isIdentifierHead (c : Char) : Bool := c.isAlpha || c = '_'

/-- ASCII letters, ASCII digits and the underscore. -/
def isIdentifierTail (c : Char) : Bool := c.isAlphanum || c = '_'

/-- Whether a text has the form `[A-Za-z_][A-Za-z0-9_]*`. -/
def isIdentifier (s : String) : Bool :=
  match s.toList with
  | [] => false
  | c :: cs => isIdentifierHead c && cs.all isIdentifierTail

/-- A C identifier that names a generated module. -/
structure ModuleName where
  text : String
  valid : isIdentifier text = true
  deriving DecidableEq, Repr

namespace ModuleName

/-- Why a text names no module. -/
inductive Error where
  | blank
  | notIdentifier (text : String)
  deriving DecidableEq, Repr

def Error.message : Error → String
  | .blank => "Module name cannot be empty"
  | .notIdentifier text => s!"Invalid module name '{text}'. Must be a C identifier ([A-Za-z_][A-Za-z0-9_]*)"

/-- The module of that name; a blank text and one that is no identifier are refused. -/
def ofString (s : String) : Except Error ModuleName :=
  if Text.allBlank s then .error .blank
  else if h : isIdentifier s = true then .ok ⟨s, h⟩
  else .error (.notIdentifier s)

/-- The name used where none is given. -/
def standard : ModuleName := ⟨"acado", by decide⟩

instance : Inhabited ModuleName := ⟨standard⟩

instance : ToString ModuleName := ⟨ModuleName.text⟩

/-- The name in capitals: the start of struct types and include guards. -/
def capitals (m : ModuleName) : String := m.text.map Char.toUpper

/-- The file `<module>_<role>.<ext>`. -/
def fileName (m : ModuleName) (role ext : String) : String := s!"{m.text}_{role}.{ext}"

def commonHeader (m : ModuleName) : String := m.fileName "common" "h"

theorem ofString_eq_ok_iff {s : String} {m : ModuleName} :
    ofString s = .ok m ↔ Text.allBlank s = false ∧ m.text = s := by
  obtain ⟨t, ht⟩ := m
  unfold ofString
  by_cases hb : Text.allBlank s = true
  · simp [hb]
  · by_cases hi : isIdentifier s = true
    · simpa [hb, hi] using (⟨Eq.symm, Eq.symm⟩ : s = t ↔ t = s)
    · simp only [hb, hi, Bool.false_eq_true, if_false, dite_false, reduceCtorEq, false_iff, not_and]
      rintro - rfl
      exact hi ht

end ModuleName

end ControlCodegen
