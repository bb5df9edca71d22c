import Mathlib.Logic.Function.Iterate
import PlantGrammar.Proofs.Derivation.Morphism
import PlantGrammar.Proofs.Engine.Drawing

/-!
# Grammars that need no tape

In a grammar without a choice each generation behind the initiators is the image of
the one before it. Other requests move the tape in between, but neither the rules nor
what is kept depends on it, so two engines with such a grammar cannot be told apart by
what they answer, whatever tapes they have and whatever they were asked before.
-/
namespace PlantGrammar

namespace Generations

variable {f : Word → Word} {series : Nat → Word} {g : Generations}

/-- The generations are the first words of a series that goes on, from the current
word, by a map. -/
structure Follows (f : Word → Word) (series : Nat → Word) (g : Generations) : Prop where
  words : ∀ n < g.size, g.wordOr n = series n
  next : f g.current = series g.size
  beyond : ∀ n, g.size ≤ n → series (n + 1) = f (series n)

theorem Follows.addPass (h : g.Follows f series) : (g.addPass (f g.current)).Follows f series := by
  refine ⟨forall_wordOr_addPass (P := fun n word => word = series n) h.words h.next, ?_, ?_⟩
  · rw [current_addPass, size_addPass, h.next, h.beyond g.size (Nat.le_refl g.size)]
  · intro n past
    rw [size_addPass] at past
    exact h.beyond n (by omega)

/-- The initiators in their order, and behind them what a map makes of the last one,
again and again. -/
def seriesOf (f : Word → Word) (words : List Word) (n : Nat) : Word :=
  words[n]?.getD (f^[n + 1 - words.length] (words.getLast?.getD []))

theorem seriesOf_of_length_le {words : List Word} {n : Nat} (past : words.length ≤ n) :
    seriesOf f words n = f^[n + 1 - words.length] (words.getLast?.getD []) := by
  rw [seriesOf, List.getElem?_eq_none past, Option.getD_none]

theorem follows_ofInitiators (f : Word → Word) (words : List Word) :
    (ofInitiators words).Follows f (seriesOf f words) := by
  have size : (ofInitiators words).size = words.length := rfl
  constructor
  · intro n there
    rw [size] at there
    rw [seriesOf, wordOr, word?]
    simp [ofInitiators, there]
  · rw [size, seriesOf_of_length_le (Nat.le_refl words.length), Nat.add_sub_cancel_left]
    rfl
  · intro n past
    rw [size] at past
    have count : n + 1 + 1 - words.length = n + 1 - words.length + 1 := by omega
    rw [seriesOf_of_length_le past, seriesOf_of_length_le (Nat.le_succ_of_le past), count,
      Function.iterate_succ_apply']

/-- With one initiator at most, generation `n` comes from it by `n` times the map. -/
theorem seriesOf_of_single (fixed : f [] = []) {words : List Word} (single : words.length ≤ 1)
    (n : Nat) : seriesOf f words n = f^[n] (words.headD []) := by
  match words, n with
  | [], n =>
      rw [seriesOf_of_length_le (Nat.zero_le n)]
      show f^[n + 1] [] = f^[n] []
      rw [Function.iterate_succ_apply, fixed]
  | [word], 0 => rfl
  | [word], n + 1 => rfl
  | _ :: _ :: _, _ => simp at single

end Generations

namespace Engine

variable {α : Type} {engine : Engine α} {series : Nat → Word}

/-- Without a choice an expansion of the current word is the next word of the series. -/
theorem follows_addPass (hd : engine.rules.Deterministic) (g : Generations) (tape : RandomTape)
    (word : Word) (later : RandomTape)
    (expanded : engine.rules.expand g.current tape = ⟨.ok word, later⟩)
    (h : g.Follows engine.rules.image series) :
    (g.addPass word).Follows engine.rules.image series := by
  obtain ⟨last, image⟩ := hd.expand g.current tape
  rw [image] at expanded
  cases expanded
  exact h.addPass

theorem follows_generation (hd : engine.rules.Deterministic)
    (h : engine.generations.Follows engine.rules.image series) (n : Nat) :
    (engine.generation n).engine.generations.Follows engine.rules.image series := by
  rw [engine_generation]
  exact generations_deriveMany (follows_addPass hd) h _

theorem answer_expand_of_deterministic (hd : engine.rules.Deterministic)
    (word : Word) : (engine.expand word).answer = .ok (engine.rules.image word) := by
  obtain ⟨later, expanded⟩ := hd.expand word engine.tape
  show (engine.rules.expand word engine.tape).outcome = _
  rw [expanded]

theorem answer_generation_of_follows (hp : engine.rules.Productive)
    (hd : engine.rules.Deterministic) (h : engine.generations.Follows engine.rules.image series)
    (n : Nat) : (engine.generation n).answer = .ok (series n) := by
  have there : n < (engine.generation n).engine.generations.size := by
    rw [size_generation hp]
    omega
  rw [answer_generation hp, (follows_generation hd h n).words n there]

variable [Scalar α] [Trigonometry α]

/-- Requests that keep the grammar leave its generations in their series. -/
theorem follows_serveAll (hd : engine.rules.Deterministic)
    (h : engine.generations.Follows engine.rules.image series) {history : List (Request α)}
    (keeps : ∀ request ∈ history, request.keepsGrammar = true) :
    (engine.serveAll history).1.rules = engine.rules ∧
      (engine.serveAll history).1.generations.Follows engine.rules.image series :=
  serveAll_of_keepsGrammar (follows_addPass hd) h keeps

/-- A grammar without a choice says what each generation is, in every engine that it is
loaded into. -/
theorem serveAll_load_of_deterministic {lines : List Word}
    (hd : (RuleSet.ofLines lines).Deterministic) (engine : Engine α)
    {history : List (Request α)} (keeps : ∀ request ∈ history, request.keepsGrammar = true) :
    let later := ((engine.load lines).engine.serveAll history).1
    later.rules = RuleSet.ofLines lines ∧ ∀ n, (later.generation n).answer =
      .ok (Generations.seriesOf (RuleSet.ofLines lines).image (Line.initiators lines) n) := by
  intro later
  have first : (engine.load lines).engine.generations.Follows (RuleSet.ofLines lines).image
      (Generations.seriesOf (RuleSet.ofLines lines).image (Line.initiators lines)) := by
    rw [generations_load]
    exact Generations.follows_ofInitiators _ _
  have grammar := rules_load engine lines
  rw [← grammar] at hd
  rw [← grammar] at first ⊢
  obtain ⟨rules, follows⟩ := follows_serveAll hd first keeps
  refine ⟨rules, fun n => ?_⟩
  have hp : later.rules.Productive := rules ▸ productive_load engine lines
  rw [← rules] at hd
  rw [← rules] at follows ⊢
  exact answer_generation_of_follows hp hd follows n

/-- Without a choice an expansion is the image of its word, and the image of two words
in a row is their images in a row. After the load of such a grammar with one initiator
at most, generation `n` is the initiator after `n` images, whatever was asked in between.
With any initiators, two engines with the grammar and the same settings give the same
words, drawings and faults, whatever their tapes are and whatever each was asked. -/
theorem deterministic_grammars_ignore_tape :
    (∀ engine : Engine α, engine.rules.Deterministic →
      (∀ word, (engine.expand word).answer = .ok (engine.rules.image word)) ∧
      ∀ u v, engine.rules.image (u ++ v) = engine.rules.image u ++ engine.rules.image v) ∧
    ∀ (engine : Engine α) (lines : List Word),
      let loaded := (engine.load lines).engine
      loaded.rules.Deterministic →
      ∀ history : List (Request α), (∀ request ∈ history, request.keepsGrammar = true) →
      let later := (loaded.serveAll history).1
      ((Line.initiators lines).length ≤ 1 → ∀ n, (later.generation n).answer =
        .ok (loaded.rules.image^[n] (Line.firstInitiator lines))) ∧
      ∀ (other : Engine α) (others : List (Request α)),
        (∀ request ∈ others, request.keepsGrammar = true) →
        let beside := ((other.load lines).engine.serveAll others).1
        beside.settings = later.settings → ∀ (n : Nat) (skeleton : Skeleton α) (word : Word),
          (beside.expand word).answer = (later.expand word).answer ∧
          (beside.generation n).answer = (later.generation n).answer ∧
          (beside.trace n skeleton).answer = (later.trace n skeleton).answer ∧
          (beside.grow n).answer = (later.grow n).answer := by
  refine ⟨fun engine hd => ⟨answer_expand_of_deterministic hd, engine.rules.image_append⟩, ?_⟩
  intro engine lines loaded hd history keeps later
  have grammar : loaded.rules = RuleSet.ofLines lines := rules_load engine lines
  rw [grammar] at hd ⊢
  obtain ⟨rules, derived⟩ := serveAll_load_of_deterministic hd engine keeps
  refine ⟨fun single n => ?_, ?_⟩
  · rw [derived n, Generations.seriesOf_of_single rfl single, Line.firstInitiator]
  intro other others keeps_others beside settings n skeleton word
  obtain ⟨rules_beside, derived_beside⟩ := serveAll_load_of_deterministic hd other keeps_others
  refine ⟨?_, ?_, ?_, ?_⟩
  · rw [answer_expand_of_deterministic (rules_beside ▸ hd),
      answer_expand_of_deterministic (rules ▸ hd), rules_beside, rules]
  · rw [derived_beside, derived]
  · rw [answer_trace (derived_beside n), answer_trace (derived n), settings]
  · rw [answer_grow (derived_beside n), answer_grow (derived n), settings]

/-- A key of two symbols has two alternatives, which is no choice. One engine has more
generations than the other, and another angle for a while. -/
theorem deterministic_grammars_ignore_tape_after_other_requests :
    let lines : List Word :=
      ["X".toList, "X -> F[+X]é".toList, "F -> FF".toList, "FX -> a".toList, "FX -> b".toList]
    let engine : Engine Float32 := start Settings.standard (RandomTape.start fun _ => 0)
    let other : Engine Float32 :=
      start Settings.standard (RandomTape.start fun _ => 0xffffffffffffffff)
    let history : List (Request Float32) := [.grow 1, .expand "X".toList]
    let others : List (Request Float32) :=
      [.setAngle 90.0, .trace 3 Skeleton.empty, .setAngle engine.settings.angle]
    let loaded := (engine.load lines).engine
    let later := (loaded.serveAll history).1
    let beside := ((other.load lines).engine.serveAll others).1
    loaded.rules.Deterministic ∧ beside.settings = later.settings ∧
      loaded.rules.image^[2] "X".toList = "FF[+F[+X]é]é".toList ∧
      (later.generation 2).answer = .ok "FF[+F[+X]é]é".toList ∧
      (beside.grow 2).answer = (later.grow 2).answer := by
  intro lines engine other history others loaded later beside
  have single : (Line.initiators lines).length ≤ 1 := by decide
  have hd : loaded.rules.Deterministic := by decide
  have keeps : ∀ request ∈ history, request.keepsGrammar = true := by
    simp [history, Request.keepsGrammar]
  have keeps_others : ∀ request ∈ others, request.keepsGrammar = true := by
    simp [others, Request.keepsGrammar]
  have settings : beside.settings = later.settings := by
    simp [beside, later, others, history, loaded, engine, other, serveAll, serve, Reply.map,
      engine_generation, expand, setAngle, start]
  have twice : loaded.rules.image^[2] "X".toList = "FF[+F[+X]é]é".toList := by decide
  obtain ⟨derived, beside_like⟩ :=
    deterministic_grammars_ignore_tape.2 engine lines hd history keeps
  obtain ⟨_, _, _, grown⟩ := beside_like other others keeps_others settings 2 Skeleton.empty []
  exact ⟨hd, settings, twice, (derived single 2).trans (congrArg Except.ok twice), grown⟩

end Engine
end PlantGrammar
