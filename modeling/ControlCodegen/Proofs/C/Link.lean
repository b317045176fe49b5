import ControlCodegen.Proofs.C.Bounds
import Mathlib.Data.List.Induction

/-!
# `C.Link`: calls into a source file

* `Item.names` : the functions that a list of items defines.
* `Item.addAll_of_notMem` : a call of another function goes to what the file may call.
* `Item.addAll_function`, `addAll_getElem` : a call of a function runs it on top of the items before it.
* `Context.scope` : what may be called in a context is what ends well there.
-/

namespace ControlCodegen.C

set_option autoImplicit false

variable {R : Type} [Arithmetic R]

/-- The calls that end well in a context and keep certain properties of the integers in memory, beside some arrays. -/
def Context.scope {R : Type} (ctx : Context R) (E : Fault → Prop) (kept : ((Block → Nat → Int) → Prop) → Prop)
    (arrays : String → Option View) : Scope where
  size := ctx.size
  arrays := arrays
  callable f vs := ∀ I m, kept I → I m.ints → Meets E (ctx.call f vs m) fun r => I r.2.ints
  answering f vs := ∀ I m, kept I → I m.ints → Meets E (ctx.call f vs m) fun r => (∃ k, r.1 = .int k) ∧ I r.2.ints

omit [Arithmetic R] in
theorem Context.scope_serves {ctx : Context R} {E : Fault → Prop} {kept : ((Block → Nat → Int) → Prop) → Prop}
    {arrays : String → Option View} {I : (Block → Nat → Int) → Prop} (hI : kept I) :
    (ctx.scope E kept arrays).Serves E I ctx :=
  ⟨rfl, fun _ _ m h hm => h I m hI hm, fun _ _ m h hm => h I m hI hm⟩

namespace Item

theorem functions_append (items items' : List Item) :
    functions (items ++ items') = functions items ++ functions items' := List.filterMap_append

theorem functions_map_function (fs : List Function) : functions (fs.map .function) = fs := by
  induction fs with
  | nil => rfl
  | cons f fs ih =>
    rw [List.map_cons]
    exact congrArg (f :: ·) ih

/-- The names of the functions that items define. -/
def names (items : List Item) : List String := (functions items).map fun f => f.prototype.name

@[simp] theorem names_function_cons (f : Function) (items : List Item) :
    names (.function f :: items) = f.prototype.name :: names items := rfl

theorem names_map_function (fs : List Function) : names (fs.map .function) = fs.map fun f => f.prototype.name := by
  unfold names
  rw [functions_map_function]

theorem names_append (items items' : List Item) : names (items ++ items') = names items ++ names items' := by
  unfold names
  rw [functions_append, List.map_append]

/-- The constants and functions of a list of items, on top of those before it. -/
def addAll (size : Struct → String → Nat) (items : List Item) (file : Statics R × Calls R) : Statics R × Calls R :=
  items.foldl (Item.add size) file

variable {size : Struct → String → Nat} {file : Statics R × Calls R} {n : String}

theorem addAll_append (items items' : List Item) :
    addAll size (items ++ items') file = addAll size items' (addAll size items file) :=
  List.foldl_append

/-- A call goes past items that do not define the function. -/
theorem addAll_of_notMem {items : List Item} (h : n ∉ names items) : (addAll size items file).2 n = file.2 n := by
  induction items generalizing file with
  | nil => rfl
  | cons item items ih =>
    change (addAll size items (item.add size file)).2 n = _
    cases item with
    | function f =>
      rw [names_function_cons, List.mem_cons, not_or] at h
      rw [ih h.2]
      exact if_neg h.1
    | blank | comment text | constants name values | constant name value => exact ih h

/-- A call runs the function on top of the items before it. -/
theorem addAll_function {before after : List Item} {f : Function} (h : f.prototype.name ∉ names after) :
    (addAll size (before ++ .function f :: after) file).2 f.prototype.name =
      f.invoke ⟨size, (addAll size before file).2⟩ (addAll size before file).1 := by
  rw [addAll_append]
  change (addAll size after ((Item.function f).add size (addAll size before file))).2 _ = _
  rw [addAll_of_notMem h]
  exact if_pos rfl

/-- A call runs a function of the file, whatever comes before it. -/
theorem exists_addAll_function {items : List Item} (hnodup : (names items).Nodup) {f : Function}
    (hf : .function f ∈ items) : ∃ (ctx : Context R) (statics : Statics R),
      (addAll size items file).2 f.prototype.name = f.invoke ctx statics := by
  obtain ⟨before, after, rfl⟩ := List.append_of_mem hf
  rw [names_append, names_function_cons] at hnodup
  exact ⟨_, _, addAll_function (List.nodup_cons.1 (List.nodup_append.1 hnodup).2.1).1⟩

/-- Functions add no constants. -/
theorem statics_addAll_functions (fs : List Function) : (addAll size (fs.map .function) file).1 = file.1 := by
  induction fs generalizing file with
  | nil => rfl
  | cons f fs ih => exact ih

/-- A function among others of different names runs on top of those before it. -/
theorem addAll_getElem {fs : List Function} (hnodup : (fs.map fun f => f.prototype.name).Nodup) {i : Nat}
    (hi : i < fs.length) :
    (addAll size (fs.map .function) file).2 fs[i].prototype.name =
      fs[i].invoke ⟨size, (addAll size ((fs.take i).map .function) file).2⟩ file.1 := by
  have hsplit : fs.map Item.function = (fs.take i).map .function ++ .function fs[i] :: (fs.drop (i + 1)).map .function := by
    rw [← List.map_cons, ← List.map_append, ← List.drop_eq_getElem_cons hi, List.take_append_drop]
  have hafter : fs[i].prototype.name ∉ names ((fs.drop (i + 1)).map .function) := by
    rw [names_map_function]
    rw [← List.take_append_drop i fs, List.drop_eq_getElem_cons hi, List.map_append, List.map_cons] at hnodup
    exact (List.nodup_cons.1 (List.nodup_append.1 hnodup).2.1).1
  rw [hsplit, addAll_function hafter, statics_addAll_functions]

end Item

end ControlCodegen.C
