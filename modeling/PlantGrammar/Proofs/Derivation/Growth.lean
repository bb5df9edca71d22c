import Mathlib.Tactic.Ring
import PlantGrammar.Proofs.Derivation.Morphism

/-!
# How many symbols an expansion makes

Without a choice, each occurrence of a symbol puts the same word into the image. So the
counts in the image are linear in the counts in the word, and a symbol without a rule adds
nothing but itself. Where there is a choice, a symbol all of whose alternatives hold
another one still makes that one occur.
-/
namespace PlantGrammar.RuleSet

variable {rules : RuleSet}

/-- Only these symbols are replaced, each as the only symbol of a key. -/
def Replaces (rules : RuleSet) (live : List Symbol) : Prop :=
  ∀ key ∈ rules.keys, key ∈ live.map fun symbol => [symbol]

instance (rules : RuleSet) (live : List Symbol) : Decidable (rules.Replaces live) :=
  inferInstanceAs (Decidable (∀ key ∈ rules.keys, key ∈ live.map fun symbol => [symbol]))

theorem Replaces.imageOf {live : List Symbol} (h : rules.Replaces live) {symbol : Symbol}
    (other : symbol ∉ live) : rules.imageOf symbol = [symbol] := by
  cases found : rules.alternatives? [symbol] with
  | none => rw [RuleSet.imageOf, found]
  | some alternatives =>
      have key := h [symbol] (mem_keys_iff.2 ⟨alternatives, found⟩)
      simp [other] at key

/-- One more symbol in front adds what it becomes. -/
theorem sum_count_cons {live : List Symbol} (nodup : live.Nodup) (symbol : Symbol) (rest : Word)
    (f : Symbol → Nat) :
    (live.map fun s => (symbol :: rest).count s * f s).sum =
      (if symbol ∈ live then f symbol else 0) + (live.map fun s => rest.count s * f s).sum := by
  induction live with
  | nil => rfl
  | cons s live ih =>
      obtain ⟨fresh, nodup⟩ := List.nodup_cons.1 nodup
      rw [List.map_cons, List.sum_cons, ih nodup, List.map_cons, List.sum_cons]
      by_cases same : symbol = s
      · subst same
        rw [if_neg fresh, if_pos List.mem_cons_self, List.count_cons_self]
        ring
      · rw [List.count_cons_of_ne same]
        simp only [List.mem_cons, same, false_or]
        ring

/-- The counts of the symbols that are replaced grow linearly. -/
theorem Replaces.count_image {live : List Symbol} (h : rules.Replaces live) (nodup : live.Nodup)
    {symbol : Symbol} (hmem : symbol ∈ live) (w : Word) :
    (rules.image w).count symbol =
      (live.map fun s => w.count s * (rules.imageOf s).count symbol).sum := by
  induction w with
  | nil => simp [image]
  | cons first rest ih =>
      rw [image_cons, List.count_append, ih, sum_count_cons nodup]
      congr 1
      split
      · rfl
      · rename_i other
        have apart : first ≠ symbol := fun same => other (same ▸ hmem)
        rw [h.imageOf other, List.count_singleton]
        simp [apart]

theorem Replaces.image_subset {live alphabet : List Symbol} (h : rules.Replaces live)
    (closed : rules.image live ⊆ alphabet) {w : Word} (hw : w ⊆ alphabet) :
    rules.image w ⊆ alphabet := by
  intro symbol hmem
  obtain ⟨source, there, made⟩ := List.mem_flatMap.1 hmem
  by_cases replaced : source ∈ live
  · exact closed (List.mem_flatMap.2 ⟨source, replaced, made⟩)
  · rw [h.imageOf replaced, List.mem_singleton] at made
    exact made ▸ hw there

/-- The first symbol has a rule, and all its alternatives hold the second one. -/
def Leads (rules : RuleSet) (symbol target : Symbol) : Prop :=
  ∃ alternatives ∈ rules.alternatives? [symbol], ∀ replacement ∈ alternatives,
    target ∈ replacement

theorem Leads.mem_expand (productive : rules.Productive) {symbol target : Symbol}
    (h : rules.Leads symbol target) {w result : Word} {tape later : RandomTape}
    (expanded : rules.expand w tape = ⟨.ok result, later⟩) (hmem : symbol ∈ w) :
    target ∈ result := by
  induction w generalizing result tape with
  | nil => cases hmem
  | cons first rest ih =>
      obtain ⟨replacement, next, others, chosen, remaining, rfl⟩ :=
        productive.expand_cons_inv expanded
      rcases List.mem_cons.1 hmem with rfl | behind
      · obtain ⟨same, last, replaced, cases⟩ := productive.replace_ok symbol tape
        rw [replaced] at chosen
        cases chosen
        obtain ⟨alternatives, found, each⟩ := h
        rcases cases with ⟨none_found, _⟩ | ⟨others, found', chosen⟩
        · rw [none_found] at found
          cases found
        · rw [found] at found'
          cases found'
          exact List.mem_append_left _ (each _ chosen)
      · exact List.mem_append_right _ (ih remaining behind)

end PlantGrammar.RuleSet
