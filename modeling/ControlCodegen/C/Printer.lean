import ControlCodegen.C.Program
import ControlCodegen.Decimal.Scientific

/-!
# `C.Printer`: the text of generated C

A `Style` fixes what a file leaves open: the names of the number types, the digits of constants and the names of the
global structs. `Stmt.lines` and `Item.lines` write a program line by line, four blanks for each level. Parentheses
stand where the structure of an expression differs from the precedence of its operators.
-/

namespace ControlCodegen.C

set_option autoImplicit false

/-- How a file spells what its program leaves open. -/
structure Style where
  types : TypeNames := {}
  /-- Significant digits of constants. -/
  digits : Nat := 16
  instanceName : Struct → String

def indentation : String := "    "

/-- A line one level deeper; an empty line stays empty. -/
def indent (line : String) : String := if line.isEmpty then line else indentation ++ line

/-- A text in parentheses if it binds less tightly than its place needs. -/
def parenthesize (own needed : Nat) (text : String) : String := if own < needed then s!"({text})" else text

/-- A constant with the digits of the file. -/
def Style.constant (st : Style) (value : Float) : String := Decimal.literal st.digits value

def Ref.render (st : Style) : Ref → String
  | name n => n
  | member owner n => s!"{st.instanceName owner}.{n}"

/-- An integer expression at a place of some precedence: sums bind with 1, products with 2. -/
def IntExpr.render (st : Style) (needed : Nat) : IntExpr → String
  | lit n => toString n
  | var n => n
  | elem a i => s!"{a.render st}[{i.render st 0}]"
  | add a b => parenthesize 1 needed s!"{a.render st 1} + {b.render st 2}"
  | mul a b => parenthesize 2 needed s!"{a.render st 2} * {b.render st 3}"

def Cond.render (st : Style) : Cond → String
  | eq a b => s!"{a.render st 1} == {b.render st 1}"
  | ne a b => s!"{a.render st 1} != {b.render st 1}"
  | notNull p => s!"{p} != 0"
  | both a b => s!"{a.render st} && {b.render st}"

/-- A real expression at a place of some precedence: choices bind with 0, sums with 1, products with 2. -/
def RealExpr.render (st : Style) (needed : Nat) : RealExpr → String
  | literal v => st.constant v
  | whole n => s!"{n}.0"
  | scalar r => r.render st
  | elem a i => s!"{a.render st}[{i.render st 0}]"
  | add a b => parenthesize 1 needed s!"{a.render st 1} + {b.render st 2}"
  | sub a b => parenthesize 1 needed s!"{a.render st 1} - {b.render st 2}"
  | mul a b => parenthesize 2 needed s!"{a.render st 2} * {b.render st 3}"
  | div a b => parenthesize 2 needed s!"{a.render st 2} / {b.render st 3}"
  | abs a => s!"fabs({a.render st 0})"
  | choice c a b => parenthesize 0 needed s!"{c.render st} ? {a.render st 1} : {b.render st 1}"

def Test.render (st : Style) : Test → String
  | cond c => c.render st
  | greater a b => s!"{a.render st 1} > {b.render st 1}"
  | isZero a => s!"{a.render st 1} == 0.0"

def Arg.render (st : Style) : Arg → String
  | value e => e.render st 0
  | array a => a.render st
  | tail a i => s!"&({a.render st}[{i.render st 0}])"

def Call.render (st : Style) (c : Call) : String :=
  if c.args.isEmpty then s!"{c.function}( )"
  else s!"{c.function}( " ++ ", ".intercalate (c.args.map (Arg.render st)) ++ " )"

def Update.operator : Update → String
  | set => "="
  | add => "+="
  | sub => "-="
  | mul => "*="
  | div => "/="

def Target.render (st : Style) (t : Target) : String :=
  match t.index with
  | none => t.ref.render st
  | some i => s!"{t.ref.render st}[{i.render st 0}]"

/-- Whether a statement can stand without braces. -/
def Stmt.isSingle : Stmt → Bool
  | skip | seq _ _ | beside _ _ => false
  | _ => true

/-- A head and the lines of its body. -/
def Layout.lines (layout : Layout) (single : Bool) (head : String) (body : List String) : List String :=
  match if single then layout else .braces with
  | braces => [head ++ " \x7b"] ++ body.map indent ++ ["\x7d"]
  | inline => [head ++ " " ++ " ".intercalate body]
  | hanging => head :: body.map indent
  | flush => head :: body

def Stmt.lines (st : Style) : Stmt → List String
  | skip => []
  | seq a b => a.lines st ++ b.lines st
  | beside a b => [" ".intercalate (a.lines st ++ b.lines st)]
  | declareInts ns => ["int " ++ ", ".intercalate ns ++ ";"]
  | declareInt n e => [s!"int {n} = {e.render st 0};"]
  | declareResult n c => [s!"int {n} = {c.render st};"]
  | declareReal n none => [s!"{st.types.real} {n};"]
  | declareReal n (some e) => [s!"{st.types.real} {n} = {e.render st 0};"]
  | declareArray n length => [s!"{st.types.real} {n}[ {length} ];"]
  | ignore n => [s!"(void){n};"]
  | assign t u e => [s!"{t.render st} {u.operator} {e.render st 0};"]
  | assignInt t e => [s!"{t.render st} = {e.render st 0};"]
  | assignResult n c => [s!"{n} = {c.render st};"]
  | call c => [c.render st ++ ";"]
  | countUp i first bound layout body =>
    layout.lines body.isSingle s!"for ({i} = {first.render st 0}; {i} < {bound.render st 1}; ++{i})" (body.lines st)
  | countDown i last layout body =>
    layout.lines body.isSingle s!"for ({i} = {last} ; {i} >= 0; --{i})" (body.lines st)
  | when t layout body => layout.lines body.isSingle s!"if ({t.render st})" (body.lines st)
  | branch t yes no =>
    [s!"if ({t.render st}) \x7b"] ++ (yes.lines st).map indent ++ ["\x7d else \x7b"] ++ (no.lines st).map indent ++
      ["\x7d"]
  | returnInt e => [s!"return {e.render st 0};"]
  | returnReal e => [s!"return {e.render st 0};"]
  | returnTest t => [s!"return {t.render st};"]
  | returnResult c => [s!"return {c.render st};"]
  | clear owner => [s!"memset(&{st.instanceName owner}, 0, sizeof( {st.instanceName owner} ));"]

/-- The lines of a function definition, a blank line behind it. -/
def functionLines (signature : String) (body : List String) : List String :=
  [signature, "\x7b"] ++ body.map indent ++ ["\x7d", ""]

def Item.lines (st : Style) : Item → List String
  | blank => [""]
  | comment text => [s!"/* {text} */"]
  | constants n vs =>
    [s!"static const {st.types.real} {n}[ {vs.length} ] = \x7b " ++ ", ".intercalate (vs.map st.constant) ++ " \x7d;"]
  | constant n v => [s!"static const {st.types.real} {n} = {st.constant v};"]
  | function f => functionLines (f.prototype.signature st.types) (f.body.lines st)

end ControlCodegen.C
