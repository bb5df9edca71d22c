import PlantGrammar.Proofs.Engine.Deriving
import PlantGrammar.Proofs.Turtle.SideShoots

/-!
# Grammars whose brackets match

If the initiators and all replacements of symbols are balanced and the brackets
themselves have no rule, then an expansion puts balanced words in place of plain
symbols and keeps the depth of every bracket that was there. Every generation is
balanced, so it is drawn to its end, whatever the tape and the settings are.
-/
namespace PlantGrammar

/-- An initiator is balanced, and a rule for one symbol replaces a symbol other
than a bracket by a balanced word. No more is asked of rules that never match. -/
def Line.Balanced : Line → Prop
  | initiator word => word.Balanced
  | rule [symbol] replacement => (symbol ≠ '[' ∧ symbol ≠ ']') ∧ replacement.Balanced
  | rule _ _ => True

instance : DecidablePred Line.Balanced
  | .initiator word => inferInstanceAs (Decidable word.Balanced)
  | .rule [symbol] replacement =>
      inferInstanceAs (Decidable ((symbol ≠ '[' ∧ symbol ≠ ']') ∧ replacement.Balanced))
  | .rule [] _ => .isTrue trivial
  | .rule (_ :: _ :: _) _ => .isTrue trivial

def BalancedGrammar (lines : List Word) : Prop :=
  ∀ raw ∈ lines, ∀ line ∈ Line.parse? raw, line.Balanced

instance (lines : List Word) : Decidable (BalancedGrammar lines) :=
  inferInstanceAs (Decidable (∀ raw ∈ lines, ∀ line ∈ Line.parse? raw, line.Balanced))

theorem balancedGrammar_preset (preset : Preset) : BalancedGrammar preset.lines := by
  cases preset <;> decide

theorem BalancedGrammar.initiators {lines : List Word} (h : BalancedGrammar lines) :
    ∀ word ∈ Line.initiators lines, word.Balanced := by
  intro word hmem
  obtain ⟨raw, hraw, hword⟩ := List.mem_filterMap.1 hmem
  obtain ⟨line, parsed, found⟩ := Option.bind_eq_some_iff.1 hword
  have hline := h raw hraw line parsed
  cases line with
  | initiator other => cases found; exact hline
  | rule key replacement => cases found

namespace RuleSet

/-- Brackets stay, and other symbols become balanced words. -/
def Balanced (rules : RuleSet) : Prop :=
  ∀ symbol alternatives, rules.alternatives? [symbol] = some alternatives →
    (symbol ≠ '[' ∧ symbol ≠ ']') ∧ ∀ replacement ∈ alternatives, Word.Balanced replacement

theorem Balanced.add {rules : RuleSet} (h : rules.Balanced) {key replacement : Word}
    (hline : (Line.rule key replacement).Balanced) : (rules.add key replacement).Balanced := by
  intro symbol alternatives found
  rw [alternatives?_add] at found
  split at found
  · rename_i same
    subst same
    cases found
    refine ⟨hline.1, fun other hmem => ?_⟩
    rcases List.mem_append.1 hmem with old | new
    · cases known : rules.alternatives? [symbol] with
      | none => simp [known] at old
      | some olds =>
          rw [known] at old
          exact (h symbol olds known).2 other old
    · rw [List.mem_singleton.1 new]
      exact hline.2
  · exact h symbol alternatives found

/-- A replacement changes the depth just as its symbol does. -/
theorem Balanced.depthAfter?_replace {rules : RuleSet} (hb : rules.Balanced)
    (hp : rules.Productive) {symbol : Symbol} {tape later : RandomTape} {replacement : Word}
    (chosen : rules.replace symbol tape = ⟨.ok replacement, later⟩) (depth : Nat) :
    Word.depthAfter? depth replacement = Word.deepen? depth symbol := by
  obtain ⟨same, last, replaced, cases⟩ := hp.replace_ok symbol tape
  rw [replaced] at chosen
  cases chosen
  rcases cases with ⟨_, rfl⟩ | ⟨alternatives, found, hmem⟩
  · rw [Word.depthAfter?_cons]
    cases Word.deepen? depth symbol <;> rfl
  · obtain ⟨⟨hopen, hclose⟩, balanced⟩ := hb symbol alternatives found
    have stays : Word.deepen? depth symbol = some depth := by
      simp [Word.deepen?, hopen, hclose]
    rw [stays, (balanced replacement hmem).depthAfter?]

/-- An expansion keeps the depth at the end of a word, from any depth at its start. -/
theorem Balanced.depthAfter?_expand {rules : RuleSet} (hb : rules.Balanced)
    (hp : rules.Productive) {word result : Word} {tape later : RandomTape}
    (expanded : rules.expand word tape = ⟨.ok result, later⟩) (depth : Nat) :
    Word.depthAfter? depth result = Word.depthAfter? depth word := by
  induction word generalizing result tape depth with
  | nil => cases expanded; rfl
  | cons symbol rest ih =>
      obtain ⟨replacement, next, others, chosen, remaining, rfl⟩ := hp.expand_cons_inv expanded
      rw [Word.depthAfter?_append, hb.depthAfter?_replace hp chosen, Word.depthAfter?_cons]
      congr 1
      funext deeper
      exact ih remaining deeper

theorem Balanced.expand {rules : RuleSet} (hb : rules.Balanced) (hp : rules.Productive)
    {word result : Word} {tape later : RandomTape}
    (expanded : rules.expand word tape = ⟨.ok result, later⟩) (balanced : word.Balanced) :
    result.Balanced := by
  rw [Word.balanced_iff_depthAfter?, hb.depthAfter?_expand hp expanded]
  exact Word.balanced_iff_depthAfter?.1 balanced

end RuleSet

namespace Walk

variable {α : Type} [Scalar α] [Trigonometry α]

/-- A balanced word is read to its end and leaves the depth as it was. -/
theorem read_of_balanced (walk : Walk α) {word : Word} (balanced : word.Balanced) :
    (walk.read word).outcome = .ok () ∧ (walk.read word).walk.depth = walk.depth := by
  obtain ⟨shoot, rfl⟩ := Shoot.balanced_iff_exists_shoot.1 balanced
  have journey := Turtle.journey_word walk.turtle shoot
  constructor
  · rw [read_ok_iff, journey]
  · rw [depth, read_walk, journey]
    rfl

end Walk

namespace Engine

variable {α : Type}

theorem balanced_load (engine : Engine α) {lines : List Word} (h : BalancedGrammar lines) :
    (engine.load lines).engine.rules.Balanced := by
  have none_yet : RuleSet.empty.Balanced := by
    intro symbol alternatives found
    cases found
  exact rules_load_induction engine none_yet
    fun raw hmem key replacement parsed _ holds => holds.add (h raw hmem _ parsed)

theorem balanced_generation (engine : Engine α) {lines : List Word} (h : BalancedGrammar lines)
    (n : Nat) : ∃ word, ((engine.load lines).engine.generation n).answer = .ok word ∧
      word.Balanced := by
  have hp := productive_load engine lines
  have hb := balanced_load engine h
  have first : (engine.load lines).engine.generations.All Word.Balanced := by
    rw [generations_load]
    exact .ofInitiators Word.balanced_nil h.initiators
  refine ⟨_, answer_generation hp n, ?_⟩
  rw [engine_generation]
  exact (all_deriveMany (fun _ _ _ _ => hb.expand hp) first _).wordOr Word.balanced_nil n

variable [Scalar α] [Trigonometry α]

/-- All generations of a balanced grammar are balanced, and are drawn without a
fault by a turtle that has saved nothing in the end. The presets are such grammars. -/
theorem balanced_grammars_grow (engine : Engine α) :
    (∀ lines, BalancedGrammar lines → ∀ n,
      let loaded := (engine.load lines).engine
      ∃ word, (loaded.generation n).answer = .ok word ∧ word.Balanced ∧
        (∀ skeleton, (loaded.trace n skeleton).answer.2 = .ok () ∧
          ((Walk.start loaded.settings skeleton).read word).walk.depth = 0) ∧
        ∃ skeleton, (loaded.grow n).answer = .ok skeleton) ∧
    ∀ preset : Preset, BalancedGrammar preset.lines ∧
      ∀ n, ∃ skeleton, ((engine.loadPreset preset).engine.grow n).answer = .ok skeleton := by
  have grows : ∀ lines, BalancedGrammar lines → ∀ n,
      ∃ word, ((engine.load lines).engine.generation n).answer = .ok word ∧ word.Balanced ∧
        (∀ skeleton, ((engine.load lines).engine.trace n skeleton).answer.2 = .ok () ∧
          ((Walk.start (engine.load lines).engine.settings skeleton).read word).walk.depth = 0) ∧
        ∃ skeleton, ((engine.load lines).engine.grow n).answer = .ok skeleton := by
    intro lines h n
    obtain ⟨word, derived, balanced⟩ := balanced_generation engine h n
    have traced : ∀ skeleton, ((engine.load lines).engine.trace n skeleton).answer.2 = .ok () ∧
        ((Walk.start (engine.load lines).engine.settings skeleton).read word).walk.depth = 0 := by
      intro skeleton
      rw [answer_trace derived]
      exact Walk.read_of_balanced _ balanced
    exact ⟨word, derived, balanced, traced, _, answer_grow_of_ok (traced Skeleton.empty).1⟩
  refine ⟨grows, fun preset => ⟨balancedGrammar_preset preset, fun n => ?_⟩⟩
  obtain ⟨_, _, _, _, grown⟩ := grows preset.lines (balancedGrammar_preset preset) n
  exact grown

/-- Groups may be nested and empty, and a rule that never matches may be anything. -/
theorem balanced_grammars_grow_nested_groups :
    let lines : List Word :=
      ["[F]F".toList, "F -> F[-F[+F]]".toList, "F -> []".toList, "FF -> ]".toList]
    let fresh : Engine Float32 := start Settings.standard (RandomTape.start fun _ => 0)
    BalancedGrammar lines ∧
      ∃ skeleton, ((fresh.load lines).engine.grow 20).answer = .ok skeleton := by
  have balanced : BalancedGrammar
      ["[F]F".toList, "F -> F[-F[+F]]".toList, "F -> []".toList, "FF -> ]".toList] := by decide
  obtain ⟨grows, _⟩ := balanced_grammars_grow
    (start Settings.standard (RandomTape.start fun _ => 0) : Engine Float32)
  obtain ⟨_, _, _, _, grown⟩ := grows _ balanced 20
  exact ⟨balanced, grown⟩

end Engine
end PlantGrammar
