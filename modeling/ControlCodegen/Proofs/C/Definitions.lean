import ControlCodegen.C.SourceFile
import ControlCodegen.Proofs.C.Link
import ControlCodegen.Proofs.C.References

/-!
# `C.Definitions`: the functions that a source file defines

A function is defined where a line is a single opening brace, and its signature is the line above.

* `signatures` : the lines above such braces.
* `Item.signatures_lines` : in the lines of a program these are the signatures of its functions, in every style.
* `SourceFile.lines_add` : a source file has the lines of its program.
-/

namespace ControlCodegen.C

set_option autoImplicit false

/-! ## Signatures in lines -/

/-- The line that opens the body of a function. -/
def opening : String := "\x7b"

/-- The lines directly above an opening brace, where one line comes before all others. -/
def signaturesBelow (above : String) : List String → List String
  | [] => []
  | line :: lines => if line = opening then above :: signaturesBelow line lines else signaturesBelow line lines

/-- The lines directly above an opening brace. -/
def signatures (lines : List String) : List String := signaturesBelow "" lines

theorem signaturesBelow_append (above : String) (lines after : List String) :
    signaturesBelow above (lines ++ after) =
      signaturesBelow above lines ++ signaturesBelow (lines.getLastD above) after := by
  induction lines generalizing above with
  | nil => rfl
  | cons line lines ih =>
    rw [List.cons_append, signaturesBelow, signaturesBelow, ih, List.getLastD_cons]
    split
    · rfl
    · rfl

theorem signaturesBelow_of_notMem {above : String} {lines : List String} (h : opening ∉ lines) :
    signaturesBelow above lines = [] := by
  induction lines generalizing above with
  | nil => rfl
  | cons line lines ih =>
    rw [List.mem_cons, not_or] at h
    rw [signaturesBelow, if_neg (Ne.symm h.1)]
    exact ih h.2

/-! ## The lines of a program -/

/-- An opening brace has no part of two or more characters. -/
theorem Occurs.ne_opening {t line : String} (h : Occurs t line) (ht : 2 ≤ t.length) : line ≠ opening := by
  rintro rfl
  obtain ⟨a, b, heq⟩ := h
  have hlength := congrArg String.length heq
  have hone : opening.length = 1 := rfl
  rw [hone, String.length_append, String.length_append] at hlength
  omega

theorem indent_ne_opening (line : String) : indent line ≠ opening := by
  unfold indent
  split
  · rename_i hempty
    rw [String.isEmpty_iff.1 hempty]
    decide
  · exact ((Occurs.refl indentation).append_right line).ne_opening (by decide)

theorem signature_ne_opening (types : TypeNames) (f : Prototype) : f.signature types ≠ opening := by
  have hend : Occurs " )" (f.signature types) := (Occurs.refl _).append_left _
  exact hend.ne_opening (by decide)

theorem signaturesBelow_functionLines (above signature : String) (body : List String) (h : signature ≠ opening) :
    signaturesBelow above (functionLines signature body) = [signature] := by
  have hbody : opening ∉ body.map indent ++ ["\x7d", ""] := by
    rw [List.mem_append, not_or]
    refine ⟨?_, by decide⟩
    intro hmem
    obtain ⟨line, -, hline⟩ := List.mem_map.1 hmem
    exact indent_ne_opening line hline
  have hlines : functionLines signature body = signature :: opening :: (body.map indent ++ ["\x7d", ""]) := rfl
  rw [hlines, signaturesBelow, if_neg h, signaturesBelow, if_pos rfl, signaturesBelow_of_notMem hbody]

namespace Item

/-- No line of a comment or constant is an opening brace. -/
theorem opening_notMem_lines (st : Style) {item : Item} (h : functions [item] = []) : opening ∉ item.lines st := by
  cases item with
  | function f => cases h
  | blank => exact of_decide_eq_true rfl
  | comment text =>
    have hstart : Occurs "/* " ("/* " ++ text ++ " */") := ((Occurs.refl _).append_right text).append_right " */"
    exact fun hmem => hstart.ne_opening (by decide) (List.mem_singleton.1 hmem).symm
  | constants n vs =>
    intro hmem
    refine Occurs.ne_opening (t := "static const ") ?_ (by decide) (List.mem_singleton.1 hmem).symm
    iterate 8 apply Occurs.append_right
    exact .refl _
  | constant n v =>
    intro hmem
    refine Occurs.ne_opening (t := "static const ") ?_ (by decide) (List.mem_singleton.1 hmem).symm
    iterate 6 apply Occurs.append_right
    exact .refl _

theorem signaturesBelow_item (st : Style) (above : String) (item : Item) :
    signaturesBelow above (item.lines st) = (functions [item]).map fun f => f.prototype.signature st.types := by
  cases item with
  | function f => exact signaturesBelow_functionLines above _ _ (signature_ne_opening st.types f.prototype)
  | blank | comment text | constants n vs | constant n v =>
    exact signaturesBelow_of_notMem (opening_notMem_lines st rfl)

/-- The signatures that a program has below any line. -/
theorem signaturesBelow_lines (st : Style) (above : String) (items : List Item) :
    signaturesBelow above (items.flatMap (lines st)) =
      (functions items).map fun f => f.prototype.signature st.types := by
  induction items generalizing above with
  | nil => rfl
  | cons item items ih =>
    have hfunctions : functions (item :: items) = functions [item] ++ functions items :=
      functions_append [item] items
    rw [List.flatMap_cons, signaturesBelow_append, signaturesBelow_item, ih, hfunctions, List.map_append]

/-- What a program defines can be read off its lines. -/
theorem signatures_lines (st : Style) (items : List Item) :
    signatures (items.flatMap (lines st)) = (functions items).map fun f => f.prototype.signature st.types :=
  signaturesBelow_lines st "" items

end Item

/-- The lines of a program come behind those that are there. -/
theorem SourceFile.lines_add (file : SourceFile) (instanceName : Struct → String) (items : List Item) :
    (file.add instanceName items).lines = file.lines ++ items.flatMap (Item.lines (file.style instanceName)) := by
  induction items generalizing file with
  | nil => exact (List.append_nil _).symm
  | cons item items ih =>
    change ((file.addItem instanceName item).add instanceName items).lines = _
    rw [ih, List.flatMap_cons, ← List.append_assoc]
    rfl

end ControlCodegen.C
