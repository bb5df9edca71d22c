import PlantGrammar.Derivation.Basic

/-!
# Rule sets that leave no symbol without a replacement

A rule set is productive if each of its keys has an alternative. Adding rules
leads to no other kind. A productive rule set expands every word, whatever the
tape says, and each symbol either stays or becomes one of its alternatives.
-/
namespace PlantGrammar.RuleSet

def Productive (rules : RuleSet) : Prop := ∀ key, rules.alternatives? key ≠ some []

theorem productive_empty : empty.Productive := by
  intro key
  simp

theorem Productive.add {rules : RuleSet} (h : rules.Productive) (key replacement : Word) :
    (rules.add key replacement).Productive := by
  intro other
  rw [alternatives?_add]
  split
  · simp
  · exact h other

/-- A symbol without a rule stays, and the tape with it. -/
theorem replace_of_none {rules : RuleSet} {symbol : Symbol}
    (h : rules.alternatives? [symbol] = none) (tape : RandomTape) :
    rules.replace symbol tape = ⟨.ok [symbol], tape⟩ := by
  simp only [replace, h]

/-- A symbol with a rule becomes the alternative that the next word of the tape selects. -/
theorem replace_of_some {rules : RuleSet} {symbol : Symbol} {alternatives : List Word}
    (h : rules.alternatives? [symbol] = some alternatives) (hne : alternatives ≠ [])
    (tape : RandomTape) :
    ∃ inside : Choice.index tape.head alternatives.length < alternatives.length,
      rules.replace symbol tape =
        ⟨.ok (alternatives[Choice.index tape.head alternatives.length]), tape.advance 1⟩ := by
  cases alternatives with
  | nil => exact absurd rfl hne
  | cons first others =>
      refine ⟨Choice.index_lt tape.head (Nat.succ_pos _), ?_⟩
      simp only [replace, h]
      rfl

/-- What a symbol of a productive rule set becomes: itself, or an alternative of it. -/
theorem Productive.replace_ok {rules : RuleSet} (h : rules.Productive) (symbol : Symbol)
    (tape : RandomTape) :
    ∃ replacement later, rules.replace symbol tape = ⟨.ok replacement, later⟩ ∧
      (rules.alternatives? [symbol] = none ∧ replacement = [symbol] ∨
        ∃ alternatives, rules.alternatives? [symbol] = some alternatives ∧
          replacement ∈ alternatives) := by
  cases found : rules.alternatives? [symbol] with
  | none => exact ⟨[symbol], tape, replace_of_none found tape, .inl ⟨rfl, rfl⟩⟩
  | some alternatives =>
      have hne : alternatives ≠ [] := fun empty => h [symbol] (empty ▸ found)
      obtain ⟨inside, chosen⟩ := replace_of_some found hne tape
      exact ⟨_, _, chosen, .inr ⟨alternatives, rfl, List.getElem_mem inside⟩⟩

theorem expand_cons_of_replace {rules : RuleSet} {symbol : Symbol} {tape later : RandomTape}
    {replacement : Word} (h : rules.replace symbol tape = ⟨.ok replacement, later⟩)
    (rest : Word) :
    rules.expand (symbol :: rest) tape =
      ⟨(rules.expand rest later).outcome.map (replacement ++ ·),
        (rules.expand rest later).tape⟩ := by
  rw [expand_cons, h]

theorem Productive.expand_ok {rules : RuleSet} (h : rules.Productive) (word : Word)
    (tape : RandomTape) : ∃ result later, rules.expand word tape = ⟨.ok result, later⟩ := by
  induction word generalizing tape with
  | nil => exact ⟨[], tape, expand_nil rules tape⟩
  | cons symbol rest ih =>
      obtain ⟨replacement, next, chosen, _⟩ := h.replace_ok symbol tape
      obtain ⟨result, later, expanded⟩ := ih next
      refine ⟨replacement ++ result, later, ?_⟩
      rw [expand_cons_of_replace chosen, expanded]
      rfl

/-- An expansion takes its first symbol apart from the others, in this order. -/
theorem Productive.expand_cons_inv {rules : RuleSet} (h : rules.Productive) {symbol : Symbol}
    {rest result : Word} {tape later : RandomTape}
    (expanded : rules.expand (symbol :: rest) tape = ⟨.ok result, later⟩) :
    ∃ replacement next others, rules.replace symbol tape = ⟨.ok replacement, next⟩ ∧
      rules.expand rest next = ⟨.ok others, later⟩ ∧ result = replacement ++ others := by
  obtain ⟨replacement, next, chosen, _⟩ := h.replace_ok symbol tape
  obtain ⟨others, last, remaining⟩ := h.expand_ok rest next
  rw [expand_cons_of_replace chosen, remaining] at expanded
  cases expanded
  exact ⟨replacement, next, others, chosen, remaining, rfl⟩

end PlantGrammar.RuleSet
