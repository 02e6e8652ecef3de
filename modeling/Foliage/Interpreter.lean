import Foliage.Mesh
import Foliage.Population

/-!
# The interpreter

Executes a program, which is a list of symbols, on a turtle or on a population (`TurtleLike`) with a stack of saved
ones. A symbol that means nothing here (a nonterminal, an ornament when none is attached, guidance for a turtle without
a skeleton) is passed over and counted, or is a fault when the interpreter is strict.

A run stops at the first fault and leaves the turtle, the stack and the trace as they were before the faulty symbol.
-/

namespace Foliage

/-- What a program can drive. -/
class TurtleLike (τ : Type) (K : outParam Type) where
  /-- The turtle after an action. -/
  act : τ → Action K → τ × Trace K
  /-- The faces of a stamp at the pose of the turtle, if the stamp can give them. -/
  stamp? : τ → Stamp K → Option (List (Face K))
  /-- How a turtle steers, if turtles of this kind have anything to steer by. -/
  steer? : Option (τ → τ × Trace K)

/-- The turtle after it has steered, if it has anything to steer by. -/
def TurtleLike.consider? {τ K : Type} [TurtleLike τ K] (turtle : τ) : Option (τ × Trace K) :=
  TurtleLike.steer?.map fun steer => steer turtle

instance {K : Type} [Scalar K] : TurtleLike (Turtle K) K where
  act := Turtle.act
  stamp? := Turtle.stamp?
  steer? := none

instance {K : Type} [Scalar K] : TurtleLike (Population K) K where
  act := Population.act
  stamp? := Population.stamp?
  steer? := some Population.steer

/-- A turtle and those saved before it, the last one first. -/
structure Machine (τ : Type) where
  turtle : τ
  stack : List τ

/-- Why a run stops. -/
inductive Fault where
  /-- A turtle is to be restored but none is saved. -/
  | stackUnderflow
  /-- More turtles are to be saved than allowed. -/
  | stackOverflow (limit : Nat)
  /-- A symbol means nothing here. -/
  | unresolved (tag : Tag)
  /-- The ornament cannot give its faces: it lacks a vertex that one of its triangles names. -/
  | brokenOrnament
deriving Repr, DecidableEq

/-- Why and at which symbol, counted from zero, a run stops. -/
structure RunError where
  index : Nat
  fault : Fault
deriving Repr, DecidableEq

def RunError.message (e : RunError) : String :=
  match e.fault with
  | .stackUnderflow => "instruction stream error at symbol " ++ toString e.index ++ ": pop on empty stack"
  | .stackOverflow limit =>
    "instruction stream error at symbol " ++ toString e.index ++ ": stack depth limit of " ++ toString limit
      ++ " exceeded"
  | .unresolved tag =>
    "unresolved symbol " ++ tag.name ++ " at index " ++ toString e.index ++ "; derivation depth may be too small"
  | .brokenOrnament => "ornament without all its vertices at symbol " ++ toString e.index

/-- What a run has counted. -/
structure Report where
  executed : Nat
  faces : Nat
  unresolved : Nat
  /-- The most turtles that were on the stack after one was saved. -/
  maxDepth : Nat
deriving Repr, DecidableEq

def Report.zero : Report := ⟨0, 0, 0, 0⟩

/-- How programs are executed. -/
structure Interpreter (K : Type) where
  /-- The most turtles that may be on the stack. -/
  maxStackDepth : Nat
  /-- Symbols without a meaning are faults. -/
  strict : Bool
  /-- What an ornament symbol stamps. -/
  ornament : Option (Stamp K)

/-- Lenient, with a deep stack and without an ornament. -/
def Interpreter.standard {K : Type} : Interpreter K := ⟨4096, false, none⟩

/-- The settings of an interpreter in words. -/
def Interpreter.describe {K : Type} (it : Interpreter K) : String :=
  "Interpreter \x7b config: InterpreterConfig \x7b max_stack_depth: " ++ toString it.maxStackDepth
    ++ ", strict_symbols: " ++ toString it.strict ++ " \x7d, ornament: " ++ toString it.ornament.isSome ++ " \x7d"

/-- What a symbol does to a machine. -/
inductive Response (τ K : Type) where
  | done (machine : Machine τ) (trace : Trace K)
  | meaningless
  | fault (fault : Fault)

namespace Machine

variable {τ K : Type} [TurtleLike τ K]

def act (m : Machine τ) (action : Action K) : Response τ K :=
  let (turtle, trace) := TurtleLike.act m.turtle action
  .done { m with turtle } trace

end Machine

/-- A run under way: the machine, what was counted, the tags that were reported as meaningless, and the trace. -/
structure Progress (τ K : Type) where
  machine : Machine τ
  report : Report
  warned : List Tag
  trace : Trace K

/-- A finished run: the machine and the trace that it leaves, and its report or the fault that stopped it. -/
structure Run (τ K : Type) where
  machine : Machine τ
  trace : Trace K
  result : Except RunError Report

namespace Progress

variable {τ K : Type}

/-- The start of a run. -/
def start (m : Machine τ) : Progress τ K := ⟨m, .zero, [], .none⟩

/-- The number of symbols behind. -/
def index (p : Progress τ K) : Nat := p.report.executed + p.report.unresolved

/-- After an executed symbol of the given tag. -/
def executed : Progress τ K → Tag → Machine τ → Trace K → Progress τ K
  | ⟨_, report, warned, trace⟩, tag, machine, new => {
      machine
      report := {
        executed := report.executed + 1
        faces := report.faces + new.faces.size
        unresolved := report.unresolved
        maxDepth := if tag = .push then max report.maxDepth machine.stack.length else report.maxDepth }
      warned
      trace := trace ++ new }

/-- After a symbol that was passed over. The first one of a tag is reported. -/
def passedOver : Progress τ K → Tag → Progress τ K
  | ⟨machine, report, warned, trace⟩, tag => {
      machine
      report := { report with unresolved := report.unresolved + 1 }
      warned := if tag ∈ warned then warned else tag :: warned
      trace :=
        if tag ∈ warned then trace
        else trace ++ .ofEvent (.unresolved tag (report.executed + report.unresolved)) }

/-- The run that ends here, after all its symbols. -/
def finish (p : Progress τ K) : Run τ K where
  machine := p.machine
  trace := p.trace ++
    .ofEvent (.interpreted p.index p.report.faces p.report.unresolved p.report.maxDepth)
  result := .ok p.report

/-- The run that stops here. -/
def stop (p : Progress τ K) (fault : Fault) : Run τ K := ⟨p.machine, p.trace, .error ⟨p.index, fault⟩⟩

end Progress

/-- A picture: its mesh, the turtle at the end, and what was counted. -/
structure Drawing (τ K : Type) where
  mesh : Mesh K
  turtle : τ
  report : Report

namespace Interpreter

variable {τ K : Type} [TurtleLike τ K]

/-- What a symbol does. -/
def obey (it : Interpreter K) (x : Symbol K) (m : Machine τ) : Response τ K :=
  match x.tag with
  | .forward | .trunk => m.act (.forward x.amount)
  | .skip => m.act (.skip x.amount)
  | .turn t => m.act (.turn t x.amount)
  | .horiz => m.act .horiz
  | .startPoly => m.act .startPoly
  | .endPoly => m.act .endPoly
  | .setRadius =>
    match x.amount with
    | some radius => m.act (.setRadius radius)
    | none => .done m .none
  | .ornament =>
    match it.ornament with
    | none => .meaningless
    | some stamp =>
      match TurtleLike.stamp? m.turtle stamp with
      | some faces => .done m (.ofFaces faces)
      | none => .fault .brokenOrnament
  | .considerData =>
    match TurtleLike.consider? m.turtle with
    | some (turtle, trace) => .done { m with turtle } trace
    | none => .meaningless
  | .push =>
    if it.maxStackDepth ≤ m.stack.length then .fault (.stackOverflow it.maxStackDepth)
    else .done { m with stack := m.turtle :: m.stack } .none
  | .pop =>
    match m.stack with
    | [] => .fault .stackUnderflow
    | turtle :: stack => .done ⟨turtle, stack⟩ .none
  | .nonterminal _ => .meaningless

/-- A run after one more symbol, or the fault that stops it there. -/
def step (it : Interpreter K) (x : Symbol K) (p : Progress τ K) : Except Fault (Progress τ K) :=
  match it.obey x p.machine with
  | .done machine trace => .ok (p.executed x.tag machine trace)
  | .meaningless => if it.strict then .error (.unresolved x.tag) else .ok (p.passedOver x.tag)
  | .fault fault => .error fault

/-- The rest of a run. -/
def proceed (it : Interpreter K) : List (Symbol K) → Progress τ K → Run τ K
  | [], p => p.finish
  | x :: xs, p =>
    match it.step x p with
    | .ok p => it.proceed xs p
    | .error fault => p.stop fault

/-- The run of a program on a machine. -/
def run (it : Interpreter K) (program : List (Symbol K)) (m : Machine τ) : Run τ K := it.proceed program (.start m)

/-- The drawing that a program makes with a turtle and nothing saved, and the events on the way. -/
def draw (it : Interpreter K) (program : List (Symbol K)) (turtle : τ) :
    Except RunError (Drawing τ K) × Array (Event K) :=
  let run := it.run program ⟨turtle, []⟩
  (run.result.map fun report => ⟨.ofFaces run.trace.faces, run.machine.turtle, report⟩, run.trace.events)

end Interpreter

end Foliage
