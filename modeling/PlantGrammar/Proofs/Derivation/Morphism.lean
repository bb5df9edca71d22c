import PlantGrammar.Proofs.Derivation.Productive
import PlantGrammar.Proofs.Rule.Keys

/-!
# Rule sets without a choice

If each symbol with a rule has a single alternative, an expansion puts one fixed
word in place of each symbol, so it is a morphism of words. Every symbol with a
rule still reads a word of the tape, but what it reads makes no difference.
-/
namespace PlantGrammar.RuleSet

/-- No symbol has a choice. Nothing is asked of keys that never match. -/
def Deterministic (rules : RuleSet) : Prop :=
  ∀ symbol alternatives, rules.alternatives? [symbol] = some alternatives →
    alternatives.length = 1

/-- The keys of one symbol decide it. -/
theorem deterministic_iff {rules : RuleSet} :
    rules.Deterministic ↔ ∀ key ∈ rules.keys, key.length = 1 →
      ∀ alternatives ∈ rules.alternatives? key, alternatives.length = 1 := by
  constructor
  · intro h key _ single alternatives found
    obtain ⟨symbol, rfl⟩ := List.length_eq_one_iff.1 single
    exact h symbol alternatives found
  · intro h symbol alternatives found
    exact h [symbol] (mem_keys_iff.2 ⟨alternatives, found⟩) rfl alternatives found

instance : DecidablePred Deterministic := fun _ => decidable_of_iff _ deterministic_iff.symm

/-- The first alternative of a symbol, or the symbol itself if it has no rule. -/
def imageOf (rules : RuleSet) (symbol : Symbol) : Word :=
  match rules.alternatives? [symbol] with
  | some (first :: _) => first
  | _ => [symbol]

/-- The images of the symbols of a word, one behind the other. -/
def image (rules : RuleSet) (word : Word) : Word := word.flatMap rules.imageOf

theorem image_cons (rules : RuleSet) (symbol : Symbol) (rest : Word) :
    rules.image (symbol :: rest) = rules.imageOf symbol ++ rules.image rest :=
  List.flatMap_cons

theorem image_append (rules : RuleSet) (u v : Word) :
    rules.image (u ++ v) = rules.image u ++ rules.image v := List.flatMap_append

theorem Deterministic.replace {rules : RuleSet} (h : rules.Deterministic) (symbol : Symbol)
    (tape : RandomTape) :
    ∃ later, rules.replace symbol tape = ⟨.ok (rules.imageOf symbol), later⟩ := by
  cases found : rules.alternatives? [symbol] with
  | none =>
      have stays : rules.imageOf symbol = [symbol] := by rw [imageOf, found]
      exact ⟨tape, by rw [stays, replace_of_none found]⟩
  | some alternatives =>
      obtain ⟨only, rfl⟩ := List.length_eq_one_iff.1 (h symbol alternatives found)
      have becomes : rules.imageOf symbol = only := by rw [imageOf, found]
      obtain ⟨inside, chosen⟩ := replace_of_some found (List.cons_ne_nil only []) tape
      exact ⟨tape.advance 1, by rw [chosen, becomes, List.getElem_singleton]⟩

/-- An expansion without a choice is the image of its word, whatever the tape says. -/
theorem Deterministic.expand {rules : RuleSet} (h : rules.Deterministic) (word : Word)
    (tape : RandomTape) : ∃ later, rules.expand word tape = ⟨.ok (rules.image word), later⟩ := by
  induction word generalizing tape with
  | nil => exact ⟨tape, expand_nil rules tape⟩
  | cons symbol rest ih =>
      obtain ⟨next, chosen⟩ := h.replace symbol tape
      obtain ⟨later, expanded⟩ := ih next
      refine ⟨later, ?_⟩
      rw [expand_cons_of_replace chosen, expanded, image_cons]
      rfl

end PlantGrammar.RuleSet
