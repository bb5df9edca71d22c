import PlantGrammar.Proofs.Engine.Drawing

/-!
# Nothing is asked of an engine that it cannot derive

A key is only ever there with an alternative, so a choice always falls on one
and no expansion ends at a fault. A request that asks for words is answered with
words. One that asks for a drawing can end at a bracket without a partner, and
at nothing else.
-/
namespace PlantGrammar

/-- The fault that a request ended at, if it did. -/
def Answer.fault? {α : Type} : Answer α → Option Fault
  | .word (.error fault) => some fault
  | .traced _ (.error fault) => some fault
  | .grown (.error fault) => some fault
  | _ => none

namespace Engine

variable {α : Type}

theorem answer_expand {engine : Engine α} (h : engine.rules.Productive) (word : Word) :
    ∃ result, (engine.expand word).answer = .ok result := by
  obtain ⟨result, later, expanded⟩ := h.expand_ok word engine.tape
  refine ⟨result, ?_⟩
  show (engine.rules.expand word engine.tape).outcome = .ok result
  rw [expanded]

variable [Scalar α] [Trigonometry α]

theorem answer_trace_cases {engine : Engine α} (h : engine.rules.Productive) (n : Nat)
    (skeleton : Skeleton α) :
    (engine.trace n skeleton).answer.2 = .ok () ∨
      ∃ k, (engine.trace n skeleton).answer.2 = .error (.unmatchedBracket k) := by
  rw [answer_trace (answer_generation h n)]
  exact Walk.outcome_read_cases _ _

theorem answer_grow_cases {engine : Engine α} (h : engine.rules.Productive) (n : Nat) :
    (∃ drawn, (engine.grow n).answer = .ok drawn) ∨
      ∃ k, (engine.grow n).answer = .error (.unmatchedBracket k) := by
  rw [answer_grow (answer_generation h n)]
  rcases Walk.outcome_read_cases (Walk.start engine.settings Skeleton.empty)
      ((engine.generation n).engine.generations.wordOr n) with ended | ⟨k, stopped⟩
  · rw [ended]
    exact .inl ⟨_, rfl⟩
  · rw [stopped]
    exact .inr ⟨k, rfl⟩

/-- With productive rules a bracket without a partner is all a request can fail at. -/
theorem fault_of_serve {engine : Engine α} (h : engine.rules.Productive) {request : Request α}
    {fault : Fault} (failed : (engine.serve request).answer.fault? = some fault) :
    ∃ k, fault = .unmatchedBracket k := by
  cases request with
  | expand word =>
      obtain ⟨result, expanded⟩ := answer_expand h word
      change (Answer.word (engine.expand word).answer : Answer α).fault? = some fault at failed
      rw [expanded] at failed
      cases failed
  | generation n =>
      have answered := answer_generation h n
      change (Answer.word (engine.generation n).answer : Answer α).fault? = some fault at failed
      rw [answered] at failed
      cases failed
  | trace n skeleton =>
      change (Answer.traced (engine.trace n skeleton).answer.1
        (engine.trace n skeleton).answer.2).fault? = some fault at failed
      rcases answer_trace_cases h n skeleton with ended | ⟨k, stopped⟩
      · rw [ended] at failed
        cases failed
      · rw [stopped] at failed
        cases failed
        exact ⟨k, rfl⟩
  | grow n =>
      change (Answer.grown (engine.grow n).answer).fault? = some fault at failed
      rcases answer_grow_cases h n with ⟨drawn, ended⟩ | ⟨k, stopped⟩
      · rw [ended] at failed
        cases failed
      · rw [stopped] at failed
        cases failed
        exact ⟨k, rfl⟩
  | _ => cases failed

/-- After any history each key has an alternative. So expansions and generations
are answered with words, drawings end well or at a bracket without a partner, no
request ends at a missing alternative, and the choice for a symbol falls on an
alternative of it, whatever the tape says. -/
theorem requests_never_lack_alternative (settings : Settings α) (tape : RandomTape)
    (history : List (Request α)) :
    let reached := ((start settings tape).serveAll history).1
    (∀ key alternatives, reached.rules.alternatives? key = some alternatives →
      1 ≤ alternatives.length) ∧
    (∀ word, ∃ result, (reached.expand word).answer = .ok result) ∧
    (∀ n, ∃ word, (reached.generation n).answer = .ok word) ∧
    (∀ n skeleton, (reached.trace n skeleton).answer.2 = .ok () ∨
      ∃ k, (reached.trace n skeleton).answer.2 = .error (.unmatchedBracket k)) ∧
    (∀ n, (∃ drawn, (reached.grow n).answer = .ok drawn) ∨
      ∃ k, (reached.grow n).answer = .error (.unmatchedBracket k)) ∧
    (∀ request key, (reached.serve request).answer.fault? ≠ some (.noAlternative key)) ∧
    ∀ symbol alternatives, reached.rules.alternatives? [symbol] = some alternatives →
      ∀ choices : RandomTape,
        ∃ inside : Choice.index choices.head alternatives.length < alternatives.length,
          reached.rules.replace symbol choices =
            ⟨.ok alternatives[Choice.index choices.head alternatives.length],
              choices.advance 1⟩ := by
  intro reached
  have hp : reached.rules.Productive := productive_serveAll settings tape history
  have some_left : ∀ key alternatives,
      reached.rules.alternatives? key = some alternatives → alternatives ≠ [] := by
    rintro key _ found rfl
    exact hp key found
  refine ⟨?_, answer_expand hp, fun n => ⟨_, answer_generation hp n⟩,
    answer_trace_cases hp, answer_grow_cases hp, ?_, ?_⟩
  · intro key alternatives found
    exact List.length_pos_iff.2 (some_left key alternatives found)
  · intro request key failed
    obtain ⟨k, bracket⟩ := fault_of_serve hp failed
    cases bracket
  · intro symbol alternatives found choices
    exact RuleSet.replace_of_some found (some_left [symbol] alternatives found) choices

/-- A drawing that ended at a fault is behind, and the greatest word that a tape
can hold chooses among three alternatives. -/
theorem requests_never_lack_alternative_greatest_choice :
    let lines : List Word := ["A]".toList, "A -> x".toList, "A -> y".toList, "A -> z".toList]
    let reached : Engine Float32 :=
      ((start Settings.standard (RandomTape.start fun _ => 0)).serveAll
        [.load lines, .trace 1 Skeleton.empty]).1
    let choices := RandomTape.start fun _ => 0xffffffffffffffff
    let alternatives : List Word := ["x".toList, "y".toList, "z".toList]
    reached.rules.alternatives? ['A'] = some alternatives ∧
      ∃ inside : Choice.index choices.head alternatives.length < alternatives.length,
        reached.rules.replace 'A' choices =
          ⟨.ok alternatives[Choice.index choices.head alternatives.length],
            choices.advance 1⟩ := by
  intro lines reached choices alternatives
  have found : reached.rules.alternatives? ['A'] = some alternatives := by decide
  obtain ⟨_, _, _, _, _, _, chosen⟩ := requests_never_lack_alternative
    (Settings.standard : Settings Float32) (RandomTape.start fun _ => 0)
    [.load lines, .trace 1 Skeleton.empty]
  exact ⟨found, chosen 'A' alternatives found choices⟩

end Engine
end PlantGrammar
