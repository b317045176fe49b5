import ControlCodegen.Proofs.C.Exchange
import ControlCodegen.Proofs.Template.Digest

/-!
# `Template.Bus`: the buses of the S-function

* `busDefinitions`, `busArrays` : the macros and the arrays in the header of the S-function.
* `busCopies` : the copies in its source.
* `exists_busHeader`, `exists_busSource` : the header and the source have these.
* `BusHeader.definitions_fill`, `BusHeader.filter_arrays`, `BusSource.copies_fill` : and so do their files.
-/

namespace ControlCodegen.Template

open C C.Preprocessor Text

set_option autoImplicit false

def literals (s : String) : List Piece := s.toList.map .literal

theorem fillWord_append (v : String → List Char) (a b : List Piece) : fillWord v (a ++ b) = fillWord v a ++ fillWord v b :=
  List.flatMap_append

theorem fillWord_literals (v : String → List Char) (s : String) : fillWord v (literals s) = s.toList := by
  unfold fillWord literals
  rw [List.flatMap_map]
  exact List.flatMap_singleton' _

/-- The macros of the header: one for each dimension and flag, and one for the backend. -/
def busDefinitions : List (List Piece × List Piece) :=
  busNames.map (fun name => (literals "SFUN_" ++ literals name, [.word name])) ++
    [(literals "SFUN_QP_SOLVER_" ++ [.word "QP_SOLVER"], literals "1")]

def ofMacro (name : String) : Expr := .name name.toList

/-- The guard of the header. -/
def busGuard : Guard Piece := ⟨.defined (.word "MODULE_PREFIX" :: literals "_SOLVER_SFUNCTION_H"), false⟩

/-- A guard that holds for one kind of weighting. -/
def whenWeighting (n : Nat) (holds : Bool) : Guard Piece :=
  ⟨.nonzero (.operation .eq (ofMacro "SFUN_WEIGHTING_MATRICES_TYPE") (.number n)), holds⟩

theorem isMet_whenWeighting {v : String → List Char} {macros : Macros} {n : Nat}
    (h : macros "SFUN_WEIGHTING_MATRICES_TYPE" = some n) (k : Nat) (holds : Bool) :
    ((whenWeighting k holds).fill v).isMet macros = (decide (n = k) == holds) := by
  change (decide ((decide ((macros (String.ofList "SFUN_WEIGHTING_MATRICES_TYPE".toList)).getD 0 = k)).toNat ≠ 0) == holds) = _
  rw [String.ofList_toList, h, Option.getD_some]
  by_cases hk : n = k <;> simp [hk]

/-- An array of a bus: its guards, what follows the capitals in the name of the bus, its name and its size. -/
structure BusArray where
  guards : List (Guard Piece)
  bus : String
  name : String
  size : Expr

/-- The arrays of the buses. -/
def busArrays : List BusArray :=
  let times (a b : Expr) : Expr := .operation .mul a b
  let n := ofMacro "SFUN_N"
  let nodes : Expr := .operation .add n (.number 1)
  let nx := ofMacro "SFUN_NX"
  let ny := ofMacro "SFUN_NY"
  let nyn := ofMacro "SFUN_NYN"
  [⟨[busGuard], "inputs", "x", times nodes nx⟩,
    ⟨[busGuard], "inputs", "u", times n (ofMacro "SFUN_NU")⟩,
    ⟨[whenSet "SFUN_NOD", busGuard], "inputs", "od", times nodes (ofMacro "SFUN_NOD")⟩,
    ⟨[busGuard], "inputs", "y", times n ny⟩,
    ⟨[busGuard], "inputs", "yN", nyn⟩,
    ⟨[whenWeighting 1 true, busGuard], "inputs", "W", times ny ny⟩,
    ⟨[whenWeighting 1 true, busGuard], "inputs", "WN", times nyn nyn⟩,
    ⟨[whenWeighting 2 true, whenWeighting 1 false, busGuard], "inputs", "W", times (times n ny) ny⟩,
    ⟨[whenWeighting 2 true, whenWeighting 1 false, busGuard], "inputs", "WN", times nyn nyn⟩,
    ⟨[whenSet "SFUN_INITIAL_STATE_FIXED", busGuard], "inputs", "x0", nx⟩,
    ⟨[whenSet "SFUN_USE_ARRIVAL_COST", busGuard], "inputs", "xAC", nx⟩,
    ⟨[whenSet "SFUN_USE_ARRIVAL_COST", busGuard], "inputs", "SAC", times nx nx⟩,
    ⟨[whenSet "SFUN_USE_ARRIVAL_COST", busGuard], "inputs", "WL", times nx nx⟩,
    ⟨[whenSet "SFUN_COMPUTE_COVARIANCE_MATRIX", busGuard], "output", "sigmaN", times nx nx⟩]

/-- A member that is copied: its guard, the pointer to its bus, what follows the capitals in the name of the bus, and its
name. -/
structure BusCopy where
  guards : List (Guard Piece)
  pointer : String
  bus : String
  name : String

/-- The copies, in the order of the source. -/
def busCopies : List BusCopy :=
  [⟨[], "in", "inputs", "x"⟩, ⟨[], "in", "inputs", "u"⟩, ⟨[whenSet "SFUN_NOD"], "in", "inputs", "od"⟩,
    ⟨[], "in", "inputs", "y"⟩, ⟨[], "in", "inputs", "yN"⟩,
    ⟨[whenOther "SFUN_WEIGHTING_MATRICES_TYPE" 0], "in", "inputs", "W"⟩,
    ⟨[whenOther "SFUN_WEIGHTING_MATRICES_TYPE" 0], "in", "inputs", "WN"⟩,
    ⟨[whenSet "SFUN_INITIAL_STATE_FIXED"], "in", "inputs", "x0"⟩,
    ⟨[whenSet "SFUN_USE_ARRIVAL_COST"], "in", "inputs", "xAC"⟩,
    ⟨[whenSet "SFUN_USE_ARRIVAL_COST"], "in", "inputs", "SAC"⟩,
    ⟨[whenSet "SFUN_USE_ARRIVAL_COST"], "in", "inputs", "WL"⟩,
    ⟨[whenSet "SFUN_COMPUTE_COVARIANCE_MATRIX"], "out", "output", "sigmaN"⟩]

def BusCopy.copy (c : BusCopy) : Guarded Piece (Copy Piece) where
  guards := c.guards
  item := {
    function := literals "memcpy"
    struct := .word "MODULE_NAME" :: literals "Variables"
    member := literals c.name
    bus := literals c.pointer
    field := literals c.name
    measure := literals "sizeof"
    measured := literals c.pointer
    part := literals c.name }

/-- What the header of the S-function declares. -/
structure BusHeader (source : Source Piece) : Prop where
  read : Template.sFunctionHeader.source? = some source
  definitions : source.definitions = busDefinitions
  fields : source.fields.map (fun f => (f.guards, f.item.struct, f.item.name, expr? f.item.size)) =
    busArrays.map fun a => (a.guards, .word "MODULE_PREFIX" :: literals a.bus, literals a.name, some a.size)

/-- What the source of the S-function copies. -/
structure BusSource (source : Source Piece) : Prop where
  read : Template.sFunctionSource.source? = some source
  copies : source.copies = busCopies.map BusCopy.copy
  pointers : ∀ c ∈ busCopies, (literals c.pointer, .word "MODULE_PREFIX" :: literals c.bus) ∈ source.pointers

/-- A closed text is read and looked at. -/
theorem exists_of_spells {t : Template} {ls : List (List Char)} (h : Spells t.lines ls) {p : Source Piece → Bool}
    (hp : (Source.read (outlineOf ls)).any p = true) : ∃ source, t.source? = some source ∧ p source = true := by
  rw [source?_of_spells h]
  cases hread : Source.read (outlineOf ls) with
  | none =>
    rw [hread] at hp
    cases hp
  | some source =>
    rw [hread] at hp
    exact ⟨source, rfl, hp⟩

set_option maxRecDepth 100000

theorem exists_busHeader : ∃ source, BusHeader source := by
  have h : ∃ source, Template.sFunctionHeader.source? = some source ∧
      decide (source.definitions = busDefinitions ∧
        source.fields.map (fun f => (f.guards, f.item.struct, f.item.name, expr? f.item.size)) =
          busArrays.map fun a => (a.guards, .word "MODULE_PREFIX" :: literals a.bus, literals a.name, some a.size)) =
      true := by
    apply exists_of_spells
    · simp only [lines, sFunctionHeaderLines]
      repeat' (first | exact Spells.nil | apply Spells.cons rfl)
    · decide +kernel
  obtain ⟨source, hread, hsource⟩ := h
  obtain ⟨hdefinitions, hfields⟩ := of_decide_eq_true hsource
  exact ⟨source, hread, hdefinitions, hfields⟩

theorem exists_busSource : ∃ source, BusSource source := by
  have h : ∃ source, Template.sFunctionSource.source? = some source ∧
      decide (source.copies = busCopies.map BusCopy.copy ∧
        ∀ c ∈ busCopies, (literals c.pointer, .word "MODULE_PREFIX" :: literals c.bus) ∈ source.pointers) = true := by
    apply exists_of_spells
    · simp only [lines, sFunctionSourceLines]
      repeat' (first | exact Spells.nil | apply Spells.cons rfl)
    · decide +kernel
  obtain ⟨source, hread, hsource⟩ := h
  obtain ⟨hcopies, hpointers⟩ := of_decide_eq_true hsource
  exact ⟨source, hread, hcopies, hpointers⟩

/-! ## Filled in -/

section

variable {v : String → List Char} {source : Source Piece}

theorem BusHeader.definitions_fill (h : BusHeader source) :
    (source.fill v).definitions = busNames.map (fun name => (("SFUN_" ++ name).toList, v name)) ++
      [("SFUN_QP_SOLVER_".toList ++ v "QP_SOLVER", "1".toList)] := by
  have hplace : ∀ name, fillWord v [.word name] = v name := fun name => List.append_nil _
  rw [Source.definitions_fill, h.definitions, busDefinitions, List.map_append, List.map_map, List.map_singleton]
  refine congrArg₂ (· ++ ·) (List.map_congr_left fun name _ => ?_) ?_
  · rw [Function.comp_apply, Prod.map_apply, fillWord_append, fillWord_literals, fillWord_literals, hplace,
      String.toList_append]
  · rw [Prod.map_apply, fillWord_append, fillWord_literals, fillWord_literals, hplace]

/-- Whether the guards of an array hold. -/
def BusArray.isMet (v : String → List Char) (macros : Macros) (a : BusArray) : Bool :=
  a.guards.all fun g => (g.fill v).isMet macros

/-- The arrays that are compiled. -/
theorem BusHeader.arrays_fill (h : BusHeader source) (macros : Macros) :
    (source.fill v).arrays macros = (busArrays.filter (BusArray.isMet v macros)).map fun a =>
      (v "MODULE_PREFIX" ++ a.bus.toList, a.name.toList, some (a.size.value macros)) := by
  have hsize : ∀ f ∈ source.fields, expr? (f.item.size.map (Lexeme.fill v)) = expr? f.item.size := by
    intro f hf
    have hmem := List.mem_map_of_mem (f := fun f => (f.guards, f.item.struct, f.item.name, expr? f.item.size)) hf
    rw [h.fields] at hmem
    obtain ⟨a, -, ha⟩ := List.mem_map.1 hmem
    have hexpr : expr? f.item.size = some a.size := (congrArg (fun t => t.2.2.2) ha).symm
    rw [expr?_fill hexpr, hexpr]
  let guarded (t : List (Guard Piece) × List Piece × List Piece × Option Expr) : Bool :=
    t.1.all fun g => (g.fill v).isMet macros
  let array (t : List (Guard Piece) × List Piece × List Piece × Option Expr) : List Char × List Char × Option Nat :=
    (fillWord v t.2.1, fillWord v t.2.2.1, t.2.2.2.map (Expr.value macros))
  calc (source.fill v).arrays macros
    _ = ((source.fields.map fun f => (f.guards, f.item.struct, f.item.name, expr? f.item.size)).filter guarded).map
        array := by
      unfold Source.arrays active
      rw [Source.fields_fill, List.filter_map, List.filter_map, List.map_map, List.map_map, List.map_map]
      have hguards : Guarded.isActive macros ∘ Guarded.fill v (Field.fill v) = guarded ∘ fun f =>
          (f.guards, f.item.struct, f.item.name, expr? f.item.size) := by
        funext f
        exact List.all_map
      rw [hguards]
      refine List.map_congr_left fun f hf => ?_
      change (_, _, (expr? (f.item.size.map (Lexeme.fill v))).map _) = _
      rw [hsize f (List.mem_of_mem_filter hf)]
      rfl
    _ = (busArrays.filter (BusArray.isMet v macros)).map fun a =>
        (v "MODULE_PREFIX" ++ a.bus.toList, a.name.toList, some (a.size.value macros)) := by
      rw [h.fields, List.filter_map, List.map_map]
      refine List.map_congr_left fun a _ => ?_
      change (v "MODULE_PREFIX" ++ fillWord v (literals a.bus), fillWord v (literals a.name), _) = _
      rw [fillWord_literals, fillWord_literals]
      rfl

/-- The values of the sizes that the array of a name has in a bus. -/
def busSizes (v : String → List Char) (macros : Macros) (bus name : String) : List Nat :=
  ((busArrays.filter fun a => a.bus = bus ∧ a.name = name).filter (BusArray.isMet v macros)).map fun a =>
    a.size.value macros

theorem BusHeader.filter_arrays (h : BusHeader source) (macros : Macros) (bus name : String) :
    ((source.fill v).arrays macros).filter (fun a => a.1 = v "MODULE_PREFIX" ++ bus.toList ∧ a.2.1 = name.toList) =
      (busSizes v macros bus name).map fun n => (v "MODULE_PREFIX" ++ bus.toList, name.toList, some n) := by
  have hnamed : ∀ a : BusArray, (v "MODULE_PREFIX" ++ a.bus.toList = v "MODULE_PREFIX" ++ bus.toList ∧
      a.name.toList = name.toList) ↔ a.bus = bus ∧ a.name = name := by
    intro a
    rw [List.append_cancel_left_eq, String.toList_inj, String.toList_inj]
  unfold busSizes
  rw [h.arrays_fill, List.filter_map, List.filter_filter, List.filter_filter, List.map_map]
  simp only [Function.comp_def, hnamed, Bool.and_comm]
  refine List.map_congr_left fun a ha => ?_
  obtain ⟨hbus, hname⟩ : a.bus = bus ∧ a.name = name := by
    have hp := (List.mem_filter.1 ha).2
    simp only [Bool.and_eq_true, decide_eq_true_eq] at hp
    exact hp.1
  rw [hbus, hname]

/-- Whether the guard of a copy holds. -/
def BusCopy.isMet (v : String → List Char) (macros : Macros) (c : BusCopy) : Bool :=
  c.guards.all fun g => (g.fill v).isMet macros

/-- A copy in the source of the S-function of a module. -/
def BusCopy.filled (m : List Char) (c : BusCopy) : Copy Char where
  function := "memcpy".toList
  struct := m ++ "Variables".toList
  member := c.name.toList
  bus := c.pointer.toList
  field := c.name.toList
  measure := "sizeof".toList
  measured := c.pointer.toList
  part := c.name.toList

/-- The copies that are compiled. -/
theorem BusSource.copies_fill (h : BusSource source) (macros : Macros) :
    active macros (source.fill v).copies =
      (busCopies.filter (BusCopy.isMet v macros)).map (BusCopy.filled (v "MODULE_NAME")) := by
  unfold active
  rw [Source.copies_fill, h.copies, List.filter_map, List.filter_map, List.map_map, List.map_map]
  have hguards : (Guarded.isActive macros ∘ Guarded.fill v (Copy.fill v)) ∘ BusCopy.copy = BusCopy.isMet v macros := by
    funext c
    exact List.all_map
  rw [hguards]
  refine List.map_congr_left fun c _ => ?_
  have hliterals : ∀ s, fillWord v (literals s) = s.toList := fillWord_literals v
  change (⟨fillWord v (literals "memcpy"), v "MODULE_NAME" ++ fillWord v (literals "Variables"),
    fillWord v (literals c.name), fillWord v (literals c.pointer), fillWord v (literals c.name),
    fillWord v (literals "sizeof"), fillWord v (literals c.pointer), fillWord v (literals c.name)⟩ : Copy Char) = _
  simp only [hliterals]
  rfl

/-- The pointer of a copy leads to its bus. -/
theorem BusSource.pointers_fill (h : BusSource source) (v : String → List Char) {c : BusCopy} (hc : c ∈ busCopies) :
    (c.pointer.toList, v "MODULE_PREFIX" ++ c.bus.toList) ∈ (source.fill v).pointers := by
  rw [Source.pointers_fill]
  refine List.mem_map.2 ⟨_, h.pointers c hc, ?_⟩
  change (fillWord v (literals c.pointer), v "MODULE_PREFIX" ++ fillWord v (literals c.bus)) = _
  rw [fillWord_literals, fillWord_literals]

end

end ControlCodegen.Template
