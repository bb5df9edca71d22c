import PlantGrammar.Engine.Basic
import PlantGrammar.Proofs.Derivation.Productive

/-!
# What loading a grammar leaves

The initiators of a grammar become its first generations, in the order of the
lines, and no pass is counted. Its rule lines build the rule set. Settings and
tape of the engine go on, and nothing of an earlier grammar is left.
-/
namespace PlantGrammar

namespace Line

def initiator? : Line → Option Word
  | initiator word => some word
  | rule _ _ => none

/-- The words of the lines that are initiators, in the order of the lines. -/
def initiators (lines : List Word) : List Word :=
  lines.filterMap fun raw => (parse? raw).bind initiator?

/-- The word that the generations of a grammar arise from, empty if there is none. -/
def firstInitiator (lines : List Word) : Word := (initiators lines).headD []

end Line

namespace Generations

/-- The generations of a grammar before the first pass. The last initiator is the
current word. -/
def ofInitiators (words : List Word) : Generations :=
  ⟨words.getLast?.getD [], words.toArray, 0⟩

theorem foldl_addInitiator (words : List Word) (g : Generations) :
    words.foldl addInitiator g =
      ⟨words.getLast?.getD g.current, g.words ++ words.toArray, g.passes⟩ := by
  induction words generalizing g with
  | nil => simp
  | cons word words ih => simp [ih, addInitiator, List.getLast?_cons]

end Generations

namespace RuleSet

/-- The rules after one more line of a grammar. -/
def addLine (rules : RuleSet) (raw : Word) : RuleSet :=
  match Line.parse? raw with
  | some (.rule key replacement) => rules.add key replacement
  | _ => rules

/-- The rules of a grammar, whatever engine it is loaded into. -/
def ofLines (lines : List Word) : RuleSet := lines.foldl addLine empty

theorem Productive.addLine {rules : RuleSet} (h : rules.Productive) (raw : Word) :
    (rules.addLine raw).Productive := by
  unfold RuleSet.addLine
  split
  · exact h.add _ _
  · exact h

theorem productive_ofLines (lines : List Word) : (ofLines lines).Productive :=
  lines.foldlRecOn addLine productive_empty fun _ holds raw _ => holds.addLine raw

end RuleSet

namespace Engine

variable {α : Type}

theorem rules_addAll (engine : Engine α) (lines : List Word) :
    (engine.addAll lines).engine.rules = lines.foldl RuleSet.addLine engine.rules := by
  induction lines generalizing engine with
  | nil => rfl
  | cons raw rest ih =>
      have first : (engine.add raw).engine.rules = engine.rules.addLine raw := by
        unfold add RuleSet.addLine
        cases Line.parse? raw with
        | none => rfl
        | some line => cases line <;> rfl
      rw [List.foldl_cons, ← first]
      exact ih (engine.add raw).engine

theorem rules_load (engine : Engine α) (lines : List Word) :
    (engine.load lines).engine.rules = RuleSet.ofLines lines :=
  rules_addAll engine.reset lines

theorem generations_addAll (engine : Engine α) (lines : List Word) :
    (engine.addAll lines).engine.generations =
      (Line.initiators lines).foldl Generations.addInitiator engine.generations := by
  induction lines generalizing engine with
  | nil => rfl
  | cons raw rest ih =>
      change ((engine.add raw).engine.addAll rest).engine.generations = _
      rw [ih]
      cases h : Line.parse? raw with
      | none => simp [add, Line.initiators, h]
      | some line => cases line <;> simp [add, Line.initiators, Line.initiator?, h]

/-- Adding lines keeps whatever adding one line of them keeps. -/
theorem addAll_induction {motive : Engine α → Prop} {lines : List Word}
    (step : ∀ raw ∈ lines, ∀ engine, motive engine → motive (engine.add raw).engine)
    {engine : Engine α} (start : motive engine) : motive (engine.addAll lines).engine := by
  induction lines generalizing engine with
  | nil => exact start
  | cons raw rest ih =>
      have first : motive (engine.add raw).engine := step raw List.mem_cons_self engine start
      exact ih (fun later hmem => step later (List.mem_cons_of_mem raw hmem)) first

theorem settings_add (engine : Engine α) (raw : Word) :
    (engine.add raw).engine.settings = engine.settings := by
  unfold add
  split <;> rfl

theorem tape_add (engine : Engine α) (raw : Word) :
    (engine.add raw).engine.tape = engine.tape := by
  unfold add
  split <;> rfl

/-- One line changes the rules only if it is a rule line. -/
theorem rules_add (engine : Engine α) (raw : Word) :
    (engine.add raw).engine.rules = engine.rules ∨
      ∃ key replacement, Line.parse? raw = some (.rule key replacement) ∧
        (engine.add raw).engine.rules = engine.rules.add key replacement := by
  unfold add
  split
  · rename_i key replacement parsed
    exact .inr ⟨key, replacement, parsed, rfl⟩
  · exact .inl rfl
  · exact .inl rfl

theorem generations_load (engine : Engine α) (lines : List Word) :
    (engine.load lines).engine.generations = Generations.ofInitiators (Line.initiators lines) := by
  have fresh : engine.reset.generations = Generations.empty := rfl
  show (engine.reset.addAll lines).engine.generations = _
  rw [generations_addAll, Generations.foldl_addInitiator, fresh]
  simp [Generations.ofInitiators, Generations.empty]

@[simp] theorem settings_load (engine : Engine α) (lines : List Word) :
    (engine.load lines).engine.settings = engine.settings :=
  addAll_induction (motive := fun later => later.settings = engine.settings)
    (fun raw _ later same => (settings_add later raw).trans same) rfl

@[simp] theorem tape_load (engine : Engine α) (lines : List Word) :
    (engine.load lines).engine.tape = engine.tape :=
  addAll_induction (motive := fun later => later.tape = engine.tape)
    (fun raw _ later same => (tape_add later raw).trans same) rfl

/-- The rules of a loaded grammar have any property that the empty rule set has
and that its rule lines keep. -/
theorem rules_load_induction {motive : RuleSet → Prop} {lines : List Word} (engine : Engine α)
    (start : motive RuleSet.empty)
    (step : ∀ raw ∈ lines, ∀ key replacement, Line.parse? raw = some (.rule key replacement) →
      ∀ rules : RuleSet, motive rules → motive (rules.add key replacement)) :
    motive (engine.load lines).engine.rules := by
  refine addAll_induction (motive := fun later => motive later.rules) ?_ start
  intro raw hmem later holds
  rcases rules_add later raw with same | ⟨key, replacement, parsed, added⟩
  · rw [same]
    exact holds
  · rw [added]
    exact step raw hmem key replacement parsed later.rules holds

theorem productive_load (engine : Engine α) (lines : List Word) :
    (engine.load lines).engine.rules.Productive :=
  rules_load engine lines ▸ RuleSet.productive_ofLines lines

end Engine
end PlantGrammar
