import PlantGrammar.Derivation.Basic
import PlantGrammar.Preset
import PlantGrammar.Turtle.Walk

/-!
# Engines

An engine holds one grammar with the generations derived so far, the settings of
its turtle, and the tape that its choices are read from. Loading a grammar
forgets the one before; settings and tape go on.

An engine derives generations when they are first asked for, each from the
current word, and keeps them. A generation that is there is never derived again
and reads nothing from the tape. A drawing is a walk of a fresh turtle along one
generation.
-/
namespace PlantGrammar

structure Engine (α : Type) where
  rules : RuleSet
  generations : Generations
  settings : Settings α
  tape : RandomTape

/-- An engine after a call, with the events of the call and its answer. -/
structure Reply (α β : Type) where
  engine : Engine α
  events : List Event
  answer : β

namespace Engine

variable {α : Type}

/-- An engine without a grammar. -/
def start (settings : Settings α) (tape : RandomTape) : Engine α :=
  ⟨RuleSet.empty, Generations.empty, settings, tape⟩

def setAngle (engine : Engine α) (degrees : α) : Engine α :=
  { engine with settings := { engine.settings with angle := degrees } }

def setStep (engine : Engine α) (distance : α) : Engine α :=
  { engine with settings := { engine.settings with step := distance } }

/-- Forget all rules and generations. -/
def reset (engine : Engine α) : Engine α :=
  { engine with rules := RuleSet.empty, generations := Generations.empty }

/-- Add one line of a grammar. A blank line changes nothing and is reported. -/
def add (engine : Engine α) (raw : Word) : Reply α Unit :=
  match Line.parse? raw with
  | some (.rule key replacement) =>
      ⟨{ engine with rules := engine.rules.add key replacement }, [], ()⟩
  | some (.initiator word) =>
      ⟨{ engine with generations := engine.generations.addInitiator word }, [], ()⟩
  | none => ⟨engine, [.skippedLine raw], ()⟩

/-- Add lines one after the other. -/
def addAll (engine : Engine α) : List Word → Reply α Unit
  | [] => ⟨engine, [], ()⟩
  | raw :: rest =>
      let first := engine.add raw
      let others := first.engine.addAll rest
      { others with events := first.events ++ others.events }

/-- Put a new grammar in place of the one there is. -/
def load (engine : Engine α) (lines : List Word) : Reply α Unit :=
  let added := engine.reset.addAll lines
  let report := .loaded added.engine.rules.size (added.engine.generations.wordOr 0)
  { added with events := added.events ++ [report] }

/-- Load a grammar that is written line by line in one text. -/
def loadText (engine : Engine α) (text : Word) : Reply α Unit := engine.load text.lines

def loadPreset (engine : Engine α) (preset : Preset) : Reply α Unit := engine.load preset.lines

/-- Expand any word by the rules once. The generations stay as they are. -/
def expand (engine : Engine α) (word : Word) : Reply α (Except Fault Word) :=
  let drawn := engine.rules.expand word engine.tape
  ⟨{ engine with tape := drawn.tape }, [], drawn.outcome⟩

/-- Derive one more generation from the current word. -/
def derive (engine : Engine α) : Engine α × Except Fault Unit :=
  match engine.rules.expand engine.generations.current engine.tape with
  | ⟨.ok word, tape⟩ =>
      ({ engine with generations := engine.generations.addPass word, tape }, .ok ())
  | ⟨.error fault, tape⟩ => ({ engine with tape }, .error fault)

/-- Derive so many more generations, as far as there is no fault. -/
def deriveMany (engine : Engine α) : Nat → Engine α × Except Fault Unit
  | 0 => (engine, .ok ())
  | count + 1 =>
      match engine.derive with
      | (engine, .ok ()) => engine.deriveMany count
      | (engine, .error fault) => (engine, .error fault)

/-- The word of generation `n`, which is derived if it is not there. -/
def generation (engine : Engine α) (n : Nat) : Reply α (Except Fault Word) :=
  let known := engine.generations.size
  if n < known then ⟨engine, [], .ok (engine.generations.wordOr n)⟩
  else
    match engine.deriveMany (n + 1 - known) with
    | (engine, .ok ()) =>
        let report := .extended known n engine.generations.current.byteSize
        ⟨engine, [report], .ok (engine.generations.wordOr n)⟩
    | (engine, .error fault) => ⟨engine, [], .error fault⟩

variable [Scalar α] [Trigonometry α]

/-- Draw generation `n` behind what a skeleton holds. If the walk ends at a fault
the skeleton keeps what was drawn before it. -/
def trace (engine : Engine α) (n : Nat) (skeleton : Skeleton α) :
    Reply α (Skeleton α × Except Fault Unit) :=
  let derived := engine.generation n
  match derived.answer with
  | .ok word =>
      let reading := (Walk.start engine.settings skeleton).read word
      ⟨derived.engine, derived.events ++ reading.events, reading.walk.skeleton, reading.outcome⟩
  | .error fault => ⟨derived.engine, derived.events, skeleton, .error fault⟩

/-- Draw generation `n` on its own. -/
def grow (engine : Engine α) (n : Nat) : Reply α (Except Fault (Skeleton α)) :=
  let traced := engine.trace n Skeleton.empty
  ⟨traced.engine, traced.events, traced.answer.2.map fun _ => traced.answer.1⟩

end Engine
end PlantGrammar
