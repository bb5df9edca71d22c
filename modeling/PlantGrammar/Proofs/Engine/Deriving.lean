import PlantGrammar.Engine.Basic
import PlantGrammar.Proofs.Engine.Loading

/-!
# Generations on request

An engine derives a generation when a request first needs it, always from the
current word. With productive rules this never fails, so a request only says how
many derivations there are to be. What is kept stays as it is, and new
generations come behind it.
-/
namespace PlantGrammar

namespace Generations

theorem wordOr_addPass (g : Generations) (word : Word) :
    (g.addPass word).wordOr g.size = word := by
  simp [addPass, wordOr, word?, size]

/-- A generation that is kept is still the same among more generations. -/
theorem wordOr_of_prefix {g later : Generations} (kept : g.words.toList <+: later.words.toList)
    {n : Nat} (there : n < g.size) : later.wordOr n = g.wordOr n := by
  obtain ⟨added, split⟩ := kept
  have there' : n < g.words.toList.length := by simpa [size] using there
  simp only [wordOr, word?, ← Array.getElem?_toList]
  rw [← split, List.getElem?_append_left there']

/-- What holds of each generation with its number holds after a pass, if it holds of the
new word with the next number. -/
theorem forall_wordOr_addPass {P : Nat → Word → Prop} {g : Generations} {word : Word}
    (h : ∀ n < g.size, P n (g.wordOr n)) (hword : P g.size word) :
    ∀ n < (g.addPass word).size, P n ((g.addPass word).wordOr n) := by
  intro n there
  rw [size_addPass] at there
  rcases Nat.lt_or_eq_of_le (Nat.le_of_lt_succ there) with old | rfl
  · have kept : g.words.toList <+: (g.addPass word).words.toList := by simp [Generations.addPass]
    have same := wordOr_of_prefix kept old
    rw [same]
    exact h n old
  · rw [wordOr_addPass]
    exact hword

/-- Every generation has a property, and so has the current word. -/
structure All (P : Word → Prop) (g : Generations) : Prop where
  current : P g.current
  words : ∀ word ∈ g.words, P word

theorem All.addInitiator {P : Word → Prop} {g : Generations} (h : g.All P) {word : Word}
    (hword : P word) : (g.addInitiator word).All P := by
  refine ⟨hword, fun other hmem => ?_⟩
  rcases Array.mem_push.1 hmem with old | rfl
  · exact h.words other old
  · exact hword

theorem All.addPass {P : Word → Prop} {g : Generations} (h : g.All P) {word : Word}
    (hword : P word) : (g.addPass word).All P := by
  have added := h.addInitiator hword
  exact ⟨added.current, added.words⟩

theorem All.ofInitiators {P : Word → Prop} {words : List Word} (hnil : P [])
    (hwords : ∀ word ∈ words, P word) : (ofInitiators words).All P := by
  constructor
  · cases last : words.getLast? with
    | none => simpa [Generations.ofInitiators, last] using hnil
    | some word =>
        have hmem := List.mem_of_getLast? last
        simpa [Generations.ofInitiators, last] using hwords word hmem
  · intro word hmem
    exact hwords word (by simpa [Generations.ofInitiators] using hmem)

theorem All.wordOr {P : Word → Prop} {g : Generations} (h : g.All P) (hnil : P []) (n : Nat) :
    P (g.wordOr n) := by
  rw [Generations.wordOr, word?]
  cases found : g.words[n]? with
  | none => exact hnil
  | some word => exact h.words word (Array.mem_of_getElem? found)

end Generations

namespace Engine

variable {α : Type}

@[simp] theorem rules_derive (engine : Engine α) : engine.derive.1.rules = engine.rules := by
  unfold derive
  rcases engine.rules.expand engine.generations.current engine.tape with ⟨fault | word, tape⟩ <;>
    rfl

@[simp] theorem settings_derive (engine : Engine α) :
    engine.derive.1.settings = engine.settings := by
  unfold derive
  rcases engine.rules.expand engine.generations.current engine.tape with ⟨fault | word, tape⟩ <;>
    rfl

/-- With productive rules a derivation adds the expansion of the current word. -/
theorem derive_of_productive {engine : Engine α} (h : engine.rules.Productive) :
    ∃ word tape, engine.rules.expand engine.generations.current engine.tape = ⟨.ok word, tape⟩ ∧
      engine.derive =
        ({ engine with generations := engine.generations.addPass word, tape }, .ok ()) := by
  obtain ⟨word, tape, expanded⟩ := h.expand_ok engine.generations.current engine.tape
  refine ⟨word, tape, expanded, ?_⟩
  rw [derive, expanded]

/-- Deriving keeps whatever one derivation keeps. -/
theorem deriveMany_induction {motive : Engine α → Prop}
    (step : ∀ engine, motive engine → motive engine.derive.1) (count : Nat) {engine : Engine α}
    (start : motive engine) : motive (engine.deriveMany count).1 := by
  induction count generalizing engine with
  | zero => exact start
  | succ count ih =>
      have next : motive engine.derive.1 := step engine start
      rw [deriveMany]
      cases h : engine.derive with
      | mk later outcome =>
          rw [h] at next
          cases outcome with
          | ok => exact ih next
          | error fault => exact next

@[simp] theorem rules_deriveMany (engine : Engine α) (count : Nat) :
    (engine.deriveMany count).1.rules = engine.rules :=
  deriveMany_induction (motive := fun later => later.rules = engine.rules)
    (fun later same => (rules_derive later).trans same) count rfl

@[simp] theorem settings_deriveMany (engine : Engine α) (count : Nat) :
    (engine.deriveMany count).1.settings = engine.settings :=
  deriveMany_induction (motive := fun later => later.settings = engine.settings)
    (fun later same => (settings_derive later).trans same) count rfl

theorem deriveMany_succ {engine : Engine α} (h : engine.rules.Productive) (count : Nat) :
    engine.deriveMany (count + 1) = engine.derive.1.deriveMany count := by
  obtain ⟨word, tape, _, derived⟩ := derive_of_productive h
  rw [deriveMany, derived]

theorem deriveMany_ok {engine : Engine α} (h : engine.rules.Productive) (count : Nat) :
    (engine.deriveMany count).2 = .ok () := by
  induction count generalizing engine with
  | zero => rfl
  | succ count ih =>
      rw [deriveMany_succ h]
      exact ih (by rwa [rules_derive])

theorem deriveMany_add {engine : Engine α} (h : engine.rules.Productive) (first second : Nat) :
    (engine.deriveMany (first + second)).1 =
      ((engine.deriveMany first).1.deriveMany second).1 := by
  induction first generalizing engine with
  | zero => rw [Nat.zero_add]; rfl
  | succ first ih =>
      rw [Nat.add_right_comm, deriveMany_succ h, deriveMany_succ h]
      exact ih (by rwa [rules_derive])

theorem size_deriveMany {engine : Engine α} (h : engine.rules.Productive) (count : Nat) :
    (engine.deriveMany count).1.generations.size = engine.generations.size + count := by
  induction count generalizing engine with
  | zero => rfl
  | succ count ih =>
      obtain ⟨word, tape, _, derived⟩ := derive_of_productive h
      rw [deriveMany_succ h, ih (by rwa [rules_derive]), derived, Generations.size_addPass]
      omega

theorem passes_deriveMany {engine : Engine α} (h : engine.rules.Productive) (count : Nat) :
    (engine.deriveMany count).1.generations.passes = engine.generations.passes + count := by
  induction count generalizing engine with
  | zero => rfl
  | succ count ih =>
      obtain ⟨word, tape, _, derived⟩ := derive_of_productive h
      rw [deriveMany_succ h, ih (by rwa [rules_derive]), derived, Generations.passes_addPass]
      omega

/-- The generations that are there stay, and new ones come behind them. -/
theorem words_prefix_deriveMany (engine : Engine α) (count : Nat) :
    engine.generations.words.toList <+: (engine.deriveMany count).1.generations.words.toList := by
  refine deriveMany_induction
    (motive := fun later => engine.generations.words.toList <+: later.generations.words.toList)
    ?_ count List.prefix_rfl
  intro later kept
  unfold derive
  rcases later.rules.expand later.generations.current later.tape with ⟨fault | word, tape⟩
  · exact kept
  · refine kept.trans ?_
    simp [Generations.addPass]

/-- Deriving keeps whatever an expansion of the current word keeps. -/
theorem generations_deriveMany {motive : Generations → Prop} {engine : Engine α}
    (step : ∀ g tape word later, engine.rules.expand g.current tape = ⟨.ok word, later⟩ →
      motive g → motive (g.addPass word))
    (start : motive engine.generations) (count : Nat) :
    motive (engine.deriveMany count).1.generations := by
  refine (deriveMany_induction
    (motive := fun later => later.rules = engine.rules ∧ motive later.generations)
    ?_ count ⟨rfl, start⟩).2
  rintro later ⟨same, holds⟩
  refine ⟨(rules_derive later).trans same, ?_⟩
  unfold derive
  cases expanded : later.rules.expand later.generations.current later.tape with
  | mk outcome tape =>
      cases outcome with
      | error fault => exact holds
      | ok word =>
          rw [same] at expanded
          exact step _ _ _ _ expanded holds

/-- Every generation has a property that the first ones have and that expansion keeps. -/
theorem all_deriveMany {P : Word → Prop} {engine : Engine α}
    (closed : ∀ word tape result later,
      engine.rules.expand word tape = ⟨.ok result, later⟩ → P word → P result)
    (first : engine.generations.All P) (count : Nat) :
    (engine.deriveMany count).1.generations.All P :=
  generations_deriveMany
    (fun _ _ _ _ expanded holds => holds.addPass (closed _ _ _ _ expanded holds.current))
    first count

theorem engine_generation (engine : Engine α) (n : Nat) :
    (engine.generation n).engine =
      (engine.deriveMany (n + 1 - engine.generations.size)).1 := by
  unfold generation
  by_cases known : n < engine.generations.size
  · have none_missing : n + 1 - engine.generations.size = 0 := by omega
    simp only [if_pos known, none_missing]
    rfl
  · simp only [if_neg known]
    rcases engine.deriveMany (n + 1 - engine.generations.size) with ⟨later, fault | ⟨⟩⟩ <;> rfl

theorem answer_generation {engine : Engine α} (h : engine.rules.Productive) (n : Nat) :
    (engine.generation n).answer =
      .ok ((engine.generation n).engine.generations.wordOr n) := by
  have derived := deriveMany_ok h (n + 1 - engine.generations.size)
  unfold generation
  by_cases known : n < engine.generations.size
  · simp only [if_pos known]
  · simp only [if_neg known]
    cases made : engine.deriveMany (n + 1 - engine.generations.size) with
    | mk later outcome =>
        rw [made] at derived
        cases outcome with
        | ok => rfl
        | error fault => simp at derived

theorem size_generation {engine : Engine α} (h : engine.rules.Productive) (n : Nat) :
    (engine.generation n).engine.generations.size = max engine.generations.size (n + 1) := by
  rw [engine_generation, size_deriveMany h]
  omega

/-- A generation has the same word whether others were asked for before it or not. Both
engines reach one that has derived enough for either, and it only adds words. -/
theorem answer_generation_deriveMany {engine : Engine α} (h : engine.rules.Productive)
    (count n : Nat) :
    ((engine.deriveMany count).1.generation n).answer = (engine.generation n).answer := by
  have hlater : (engine.deriveMany count).1.rules.Productive := by rwa [rules_deriveMany]
  have hfirst : (engine.generation n).engine.rules.Productive := by
    rwa [engine_generation, rules_deriveMany]
  have common : ((engine.deriveMany count).1.generation n).engine =
      ((engine.generation n).engine.deriveMany
        (count - (n + 1 - engine.generations.size))).1 := by
    rw [engine_generation, engine_generation, size_deriveMany h, ← deriveMany_add h,
      ← deriveMany_add h]
    congr 2
    omega
  have there : n < (engine.generation n).engine.generations.size := by
    rw [size_generation h]
    omega
  rw [answer_generation hlater, answer_generation h, common,
    Generations.wordOr_of_prefix (words_prefix_deriveMany _ _) there]

/-- Asking for a generation that is not there yet gives the new current word. -/
theorem answer_generation_of_size_le {engine : Engine α} (h : engine.rules.Productive) {n : Nat}
    (missing : engine.generations.size ≤ n) :
    (engine.generation n).answer =
      .ok (engine.deriveMany (n + 1 - engine.generations.size)).1.generations.current := by
  obtain ⟨k, rfl⟩ := Nat.exists_eq_add_of_le missing
  have count : engine.generations.size + k + 1 - engine.generations.size = k + 1 := by omega
  have hbefore : (engine.deriveMany k).1.rules.Productive := by rwa [rules_deriveMany]
  obtain ⟨word, tape, _, derived⟩ := derive_of_productive hbefore
  have last : (engine.deriveMany (k + 1)).1 = (engine.deriveMany k).1.derive.1 := by
    rw [deriveMany_add h k 1, deriveMany_succ hbefore]
    rfl
  rw [answer_generation h, engine_generation, count, last, derived, ← size_deriveMany h k,
    Generations.wordOr_addPass, Generations.current_addPass]

section Drawing

variable [Scalar α] [Trigonometry α]

@[simp] theorem engine_trace (engine : Engine α) (n : Nat) (skeleton : Skeleton α) :
    (engine.trace n skeleton).engine = (engine.generation n).engine := by
  unfold trace
  dsimp only
  split <;> rfl

@[simp] theorem engine_grow (engine : Engine α) (n : Nat) :
    (engine.grow n).engine = (engine.generation n).engine :=
  engine_trace engine n Skeleton.empty

/-- A drawing is the reading of a generation by a fresh turtle. -/
theorem answer_trace {engine : Engine α} {n : Nat} {word : Word}
    (h : (engine.generation n).answer = .ok word) (skeleton : Skeleton α) :
    (engine.trace n skeleton).answer =
      (((Walk.start engine.settings skeleton).read word).walk.skeleton,
        ((Walk.start engine.settings skeleton).read word).outcome) := by
  simp only [trace, h]

theorem answer_grow_of_ok {engine : Engine α} {n : Nat}
    (h : (engine.trace n Skeleton.empty).answer.2 = .ok ()) :
    (engine.grow n).answer = .ok (engine.trace n Skeleton.empty).answer.1 := by
  simp only [grow, h]
  rfl

end Drawing

end Engine
end PlantGrammar
