import PlantGrammar.Random.Tape
import PlantGrammar.Report
import PlantGrammar.Rule.RuleSet

/-!
# Expansion and the generations of a derivation

Every symbol that is a key gives way to one of its alternatives, and every other
symbol stays. Each symbol with a rule reads one word of the tape, even if it has
a single alternative; a symbol without one reads nothing.

The generations are kept in the order in which they arose. The current word is
the one that the next pass starts from. An initiator becomes the current word
and is kept behind the generations there are, so only the first one added has
the number zero; it counts as no pass.
-/
namespace PlantGrammar

/-- A tape after a reading, with what was made of it. -/
structure Drawn (β : Type) where
  outcome : Except Fault β
  tape : RandomTape

namespace RuleSet

/-- What one symbol becomes. -/
def replace (rules : RuleSet) (symbol : Symbol) (tape : RandomTape) : Drawn Word :=
  match rules.alternatives? [symbol] with
  | none => ⟨.ok [symbol], tape⟩
  | some [] => ⟨.error (.noAlternative [symbol]), tape⟩
  | some (first :: others) =>
      let i := Choice.index tape.head (others.length + 1)
      have inside : i < (first :: others).length := Choice.index_lt tape.head (Nat.succ_pos _)
      ⟨.ok ((first :: others).get ⟨i, inside⟩), tape.advance 1⟩

/-- Expand the rest of a word behind what is done. A symbol without an
alternative ends the pass, and the tape stays where it was read last. -/
def expandAfter (rules : RuleSet) (done : Array Symbol) : Word → RandomTape → Drawn Word
  | [], tape => ⟨.ok done.toList, tape⟩
  | symbol :: rest, tape =>
      match rules.replace symbol tape with
      | ⟨.ok replacement, tape⟩ => rules.expandAfter (done.appendList replacement) rest tape
      | ⟨.error fault, tape⟩ => ⟨.error fault, tape⟩

/-- Expand every symbol of a word, from left to right. -/
def expand (rules : RuleSet) (word : Word) (tape : RandomTape) : Drawn Word :=
  rules.expandAfter #[] word tape

@[simp] theorem expand_nil (rules : RuleSet) (tape : RandomTape) :
    rules.expand [] tape = ⟨.ok [], tape⟩ := rfl

private theorem expandAfter_eq (rules : RuleSet) (done : Array Symbol) (word : Word)
    (tape : RandomTape) :
    rules.expandAfter done word tape =
      ⟨(rules.expand word tape).outcome.map (done.toList ++ ·),
        (rules.expand word tape).tape⟩ := by
  induction word generalizing done tape with
  | nil => simp [expandAfter, Except.map]
  | cons symbol rest ih =>
      simp only [expand, expandAfter]
      rcases rules.replace symbol tape with ⟨fault | replacement, tape⟩
      · rfl
      · simp only [ih]
        cases (rules.expand rest tape).outcome <;> simp [Except.map]

/-- The first symbol is replaced first, and the rest goes on with the tape. -/
theorem expand_cons (rules : RuleSet) (symbol : Symbol) (rest : Word) (tape : RandomTape) :
    rules.expand (symbol :: rest) tape =
      match rules.replace symbol tape with
      | ⟨.ok replacement, tape⟩ =>
          ⟨(rules.expand rest tape).outcome.map (replacement ++ ·),
            (rules.expand rest tape).tape⟩
      | ⟨.error fault, tape⟩ => ⟨.error fault, tape⟩ := by
  rw [expand, expandAfter]
  rcases rules.replace symbol tape with ⟨fault | replacement, tape⟩
  · rfl
  · simp [expandAfter_eq]

end RuleSet

structure Generations where
  current : Word
  words : Array Word
  passes : Nat
  deriving DecidableEq, Repr

namespace Generations

def empty : Generations := ⟨[], #[], 0⟩

instance : Inhabited Generations := ⟨empty⟩

def size (g : Generations) : Nat := g.words.size

def isEmpty (g : Generations) : Bool := g.words.isEmpty

def word? (g : Generations) (n : Nat) : Option Word := g.words[n]?

/-- The word of generation `n`, or the empty word if it is not there yet. -/
def wordOr (g : Generations) (n : Nat) : Word := (g.word? n).getD []

def addInitiator (g : Generations) (word : Word) : Generations :=
  { g with current := word, words := g.words.push word }

/-- Keep the result of an expansion pass. -/
def addPass (g : Generations) (word : Word) : Generations :=
  { current := word, words := g.words.push word, passes := g.passes + 1 }

@[simp] theorem size_empty : empty.size = 0 := rfl

@[simp] theorem size_addInitiator (g : Generations) (word : Word) :
    (g.addInitiator word).size = g.size + 1 := by simp [addInitiator, size]

@[simp] theorem size_addPass (g : Generations) (word : Word) :
    (g.addPass word).size = g.size + 1 := by simp [addPass, size]

@[simp] theorem passes_addInitiator (g : Generations) (word : Word) :
    (g.addInitiator word).passes = g.passes := rfl

@[simp] theorem passes_addPass (g : Generations) (word : Word) :
    (g.addPass word).passes = g.passes + 1 := rfl

@[simp] theorem current_addInitiator (g : Generations) (word : Word) :
    (g.addInitiator word).current = word := rfl

@[simp] theorem current_addPass (g : Generations) (word : Word) :
    (g.addPass word).current = word := rfl

end Generations
end PlantGrammar
