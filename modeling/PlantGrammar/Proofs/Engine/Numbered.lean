import PlantGrammar.Proofs.Engine.History

/-!
# Properties that go with the number of a generation

A grammar with one initiator gives generation zero by its line and each later generation
by an expansion of the one before. So a property that depends on the number holds of
every generation if it holds of the initiator and an expansion leads from each number to
the next, whatever is asked of the engine in between.
-/
namespace PlantGrammar

namespace Generations

variable {P : Nat → Word → Prop}

/-- Each generation has the property of its number, and the current word is the last one. -/
structure Numbered (P : Nat → Word → Prop) (g : Generations) : Prop where
  words : ∀ n < g.size, P n (g.wordOr n)
  current : ∃ last, g.size = last + 1 ∧ P last g.current

theorem Numbered.addPass {g : Generations} (h : g.Numbered P) {word : Word}
    (hword : P g.size word) : (g.addPass word).Numbered P :=
  ⟨forall_wordOr_addPass h.words hword, g.size, size_addPass g word, hword⟩

theorem Numbered.ofInitiator {word : Word} (h : P 0 word) : (ofInitiators [word]).Numbered P := by
  refine ⟨fun n there => ?_, 0, rfl, h⟩
  obtain rfl : n = 0 := Nat.lt_one_iff.1 there
  exact h

end Generations

namespace Engine

variable {α : Type} {P : Nat → Word → Prop}

theorem answer_generation_of_numbered {engine : Engine α} (hp : engine.rules.Productive)
    (pass : ∀ (g : Generations) tape word later,
      engine.rules.expand g.current tape = ⟨.ok word, later⟩ →
      g.Numbered P → (g.addPass word).Numbered P)
    (h : engine.generations.Numbered P) (n : Nat) :
    ∃ word, (engine.generation n).answer = .ok word ∧ P n word := by
  have there : n < (engine.generation n).engine.generations.size := by
    rw [size_generation hp]
    omega
  have after : (engine.generation n).engine.generations.Numbered P := by
    rw [engine_generation]
    exact generations_deriveMany pass h _
  exact ⟨_, answer_generation hp n, after.words n there⟩

/-- Generation `n` of a loaded grammar with one initiator has the property of number `n`,
whatever was asked before, as long as the grammar was kept. -/
theorem generation_numbered [Scalar α] [Trigonometry α] {lines : List Word} {word : Word}
    (single : Line.initiators lines = [word]) (first : P 0 word)
    (step : ∀ n word tape result later,
      (RuleSet.ofLines lines).expand word tape = ⟨.ok result, later⟩ →
      P n word → P (n + 1) result)
    (engine : Engine α) {history : List (Request α)}
    (keeps : ∀ request ∈ history, request.keepsGrammar = true) (n : Nat) :
    ∃ word, (((engine.load lines).engine.serveAll history).1.generation n).answer = .ok word ∧
      P n word := by
  have start : (engine.load lines).engine.generations.Numbered P := by
    rw [generations_load, single]
    exact .ofInitiator first
  have pass : ∀ (g : Generations) tape word later,
      (engine.load lines).engine.rules.expand g.current tape = ⟨.ok word, later⟩ →
      g.Numbered P → (g.addPass word).Numbered P := by
    intro g tape word later expanded h
    obtain ⟨last, size, current⟩ := h.current
    rw [rules_load] at expanded
    exact h.addPass (size ▸ step last _ _ _ _ expanded current)
  obtain ⟨rules, numbered⟩ := serveAll_of_keepsGrammar pass start keeps
  have hp : ((engine.load lines).engine.serveAll history).1.rules.Productive :=
    rules ▸ productive_load engine lines
  rw [← rules] at pass
  exact answer_generation_of_numbered hp pass numbered n

end Engine
end PlantGrammar
