import PlantGrammar.Engine.Basic
import PlantGrammar.Proofs.Engine.Loading

/-!
# Which word of the tape a symbol reads

An expansion reads one word of the tape for each symbol that is a key, from left to
right, and none for any other symbol. So the word for a symbol lies as far ahead as
there are keys before the symbol, and the tape is left behind the word for the last
key. Two words in a row are expanded one after the other, and what the tape holds
beyond the last key has no say.
-/
namespace PlantGrammar

namespace RandomTape

/-- The word that is read after so many others. -/
def ahead (tape : RandomTape) (count : Nat) : UInt64 := tape.words (tape.position + count)

@[simp] theorem ahead_advance (tape : RandomTape) (m n : Nat) :
    (tape.advance m).ahead n = tape.ahead (m + n) := by
  simp [ahead, Nat.add_assoc]

end RandomTape

namespace RuleSet

variable {rules : RuleSet}

/-- Number of symbols of a word that are keys. -/
def keyCount (rules : RuleSet) (word : Word) : Nat :=
  word.countP fun symbol => rules.contains [symbol]

theorem keyCount_cons (rules : RuleSet) (symbol : Symbol) (rest : Word) :
    rules.keyCount (symbol :: rest) = rules.keyCount [symbol] + rules.keyCount rest := by
  show List.countP _ ([symbol] ++ rest) = _
  exact List.countP_append

theorem keyCount_of_none {symbol : Symbol} (h : rules.alternatives? [symbol] = none) :
    rules.keyCount [symbol] = 0 := by
  simp [keyCount, contains, h]

theorem keyCount_of_some {symbol : Symbol} {alternatives : List Word}
    (h : rules.alternatives? [symbol] = some alternatives) : rules.keyCount [symbol] = 1 := by
  simp [keyCount, contains, h]

/-- What a symbol becomes by a word of the tape: the alternative that this word
selects, or the symbol itself if it is no key. -/
def Yields (rules : RuleSet) (x : UInt64) (symbol : Symbol) (piece : Word) : Prop :=
  match rules.alternatives? [symbol] with
  | none => piece = [symbol]
  | some alternatives => alternatives[Choice.index x alternatives.length]? = some piece

theorem yields_of_none {symbol : Symbol} (h : rules.alternatives? [symbol] = none)
    {x : UInt64} {piece : Word} : rules.Yields x symbol piece ↔ piece = [symbol] := by
  rw [Yields, h]

theorem yields_of_some {symbol : Symbol} {alternatives : List Word}
    (h : rules.alternatives? [symbol] = some alternatives) {x : UInt64} {piece : Word} :
    rules.Yields x symbol piece ↔
      alternatives[Choice.index x alternatives.length]? = some piece := by
  rw [Yields, h]

/-- A word of the tape leaves no doubt, and a symbol that is no key does not look at it. -/
theorem Yields.unique {x y : UInt64} {symbol : Symbol} {p q : Word}
    (hp : rules.Yields x symbol p) (hq : rules.Yields y symbol q)
    (same : 0 < rules.keyCount [symbol] → x = y) : p = q := by
  cases found : rules.alternatives? [symbol] with
  | none =>
      rw [yields_of_none found] at hp hq
      rw [hp, hq]
  | some alternatives =>
      rw [keyCount_of_some found] at same
      rw [yields_of_some found, same Nat.one_pos] at hp
      rw [yields_of_some found, hp] at hq
      exact Option.some.inj hq

/-- What the symbols of a word become one by one. The word of the tape for a symbol
is the one that as many others come before as there are keys before the symbol. -/
structure Spells (rules : RuleSet) (tape : RandomTape) (word : Word) (pieces : List Word) :
    Prop where
  length_eq : pieces.length = word.length
  yields : ∀ i symbol piece, word[i]? = some symbol → pieces[i]? = some piece →
    rules.Yields (tape.ahead (rules.keyCount (word.take i))) symbol piece

theorem spells_nil (rules : RuleSet) (tape : RandomTape) : rules.Spells tape [] [] := by
  refine ⟨rfl, fun i symbol piece there _ => ?_⟩
  cases there

theorem Spells.cons {tape : RandomTape} {symbol : Symbol} {rest : Word} {piece : Word}
    {pieces : List Word} (first : rules.Yields tape.head symbol piece)
    (others : rules.Spells (tape.advance (rules.keyCount [symbol])) rest pieces) :
    rules.Spells tape (symbol :: rest) (piece :: pieces) := by
  refine ⟨congrArg (· + 1) others.length_eq, fun i other word hother hword => ?_⟩
  cases i with
  | zero =>
      cases hother
      cases hword
      exact first
  | succ i =>
      have later := others.yields i other word hother hword
      rw [RandomTape.ahead_advance] at later
      rw [List.take_succ_cons, keyCount_cons]
      exact later

/-- A symbol reads a word of the tape exactly if it is a key. -/
theorem Productive.replace_yields (h : rules.Productive) (symbol : Symbol) (tape : RandomTape) :
    ∃ piece, rules.Yields tape.head symbol piece ∧
      rules.replace symbol tape = ⟨.ok piece, tape.advance (rules.keyCount [symbol])⟩ := by
  cases found : rules.alternatives? [symbol] with
  | none =>
      refine ⟨[symbol], (yields_of_none found).2 rfl, ?_⟩
      rw [replace_of_none found, keyCount_of_none found, RandomTape.advance_zero]
  | some alternatives =>
      have hne : alternatives ≠ [] := fun empty => h [symbol] (empty ▸ found)
      obtain ⟨inside, chosen⟩ := replace_of_some found hne tape
      refine ⟨_, (yields_of_some found).2 (List.getElem?_eq_getElem inside), ?_⟩
      rw [chosen, keyCount_of_some found]

theorem Productive.expand_spells (h : rules.Productive) (word : Word) (tape : RandomTape) :
    ∃ pieces, rules.Spells tape word pieces ∧
      rules.expand word tape = ⟨.ok pieces.flatten, tape.advance (rules.keyCount word)⟩ := by
  induction word generalizing tape with
  | nil => exact ⟨[], spells_nil rules tape, rfl⟩
  | cons symbol rest ih =>
      obtain ⟨piece, yields, replaced⟩ := h.replace_yields symbol tape
      obtain ⟨pieces, spells, expanded⟩ := ih (tape.advance (rules.keyCount [symbol]))
      refine ⟨piece :: pieces, spells.cons yields, ?_⟩
      rw [expand_cons_of_replace replaced, expanded, RandomTape.advance_advance,
        ← keyCount_cons, List.flatten_cons]
      rfl

/-- Words in a row are expanded one after the other, unless the first one fails. -/
theorem expand_append (rules : RuleSet) (u v : Word) (tape : RandomTape) :
    rules.expand (u ++ v) tape =
      match rules.expand u tape with
      | ⟨.ok first, later⟩ =>
          ⟨(rules.expand v later).outcome.map (first ++ ·), (rules.expand v later).tape⟩
      | ⟨.error fault, later⟩ => ⟨.error fault, later⟩ := by
  induction u generalizing tape with
  | nil =>
      simp only [List.nil_append, expand_nil]
      rcases rules.expand v tape with ⟨fault | second, later⟩ <;> rfl
  | cons symbol u ih =>
      rw [List.cons_append, expand_cons, expand_cons]
      rcases rules.replace symbol tape with ⟨fault | piece, next⟩
      · rfl
      · simp only [ih]
        rcases rules.expand u next with ⟨fault | first, later⟩
        · rfl
        · simp only [Except.map]
          cases (rules.expand v later).outcome <;> simp

/-- Only as many words of the tape count as there are keys in the word. -/
theorem Productive.outcome_expand_congr (h : rules.Productive) {word : Word}
    {tape other : RandomTape}
    (same : ∀ j < rules.keyCount word, other.ahead j = tape.ahead j) :
    (rules.expand word other).outcome = (rules.expand word tape).outcome := by
  induction word generalizing tape other with
  | nil => rfl
  | cons symbol rest ih =>
      rw [keyCount_cons] at same
      obtain ⟨piece, yields, replaced⟩ := h.replace_yields symbol tape
      obtain ⟨piece', yields', replaced'⟩ := h.replace_yields symbol other
      have heads : 0 < rules.keyCount [symbol] → other.head = tape.head :=
        fun read => same 0 (Nat.add_pos_left read _)
      have pieces : piece' = piece := yields'.unique yields heads
      have tails : ∀ j < rules.keyCount rest,
          (other.advance (rules.keyCount [symbol])).ahead j =
            (tape.advance (rules.keyCount [symbol])).ahead j := by
        intro j hj
        rw [RandomTape.ahead_advance, RandomTape.ahead_advance]
        exact same _ (Nat.add_lt_add_left hj _)
      rw [expand_cons_of_replace replaced, expand_cons_of_replace replaced', pieces, ih tails]

end RuleSet

namespace Engine

variable {α : Type}

/-- An expansion puts together what the symbols become, each key by its own word of
the tape, and leaves the tape behind the words that it has read. So a word is expanded
part by part, and the words of the tape behind those that are read make no difference. -/
theorem keys_read_tape_in_order (engine : Engine α) (productive : engine.rules.Productive) :
    (∀ word, ∃ pieces, engine.rules.Spells engine.tape word pieces ∧
      engine.expand word =
        ⟨{ engine with tape := engine.tape.advance (engine.rules.keyCount word) }, [],
          .ok pieces.flatten⟩) ∧
    (∀ u v, ∃ first second, (engine.expand u).answer = .ok first ∧
      ((engine.expand u).engine.expand v).answer = .ok second ∧
      engine.expand (u ++ v) =
        ⟨((engine.expand u).engine.expand v).engine, [], .ok (first ++ second)⟩) ∧
    ∀ (word : Word) (tape : RandomTape),
      (∀ j < engine.rules.keyCount word, tape.ahead j = engine.tape.ahead j) →
      ({ engine with tape }.expand word).answer = (engine.expand word).answer := by
  refine ⟨fun word => ?_, fun u v => ?_, fun word tape same => ?_⟩
  · obtain ⟨pieces, spells, expanded⟩ := productive.expand_spells word engine.tape
    exact ⟨pieces, spells, by rw [expand, expanded]⟩
  · obtain ⟨first, later, before⟩ := productive.expand_ok u engine.tape
    obtain ⟨second, last, behind⟩ := productive.expand_ok v later
    refine ⟨first, second, ?_, ?_, ?_⟩
    · rw [expand, before]
    · rw [expand, expand, before]
      show (engine.rules.expand v later).outcome = _
      rw [behind]
    · simp only [expand, RuleSet.expand_append, before, behind]
      rfl
  · exact productive.outcome_expand_congr same

/-- Four of the five symbols are keys, one of them with a single alternative and one
with an empty one. The other tape differs from the fifth word on. -/
theorem keys_read_tape_in_order_single_and_empty :
    let lines : List Word :=
      ["∧ -> a".toList, "∧ -> b".toList, "∧ -> cc".toList, "é -> dd".toList, "X ->".toList]
    let engine : Engine Float32 := (load (start Settings.standard
      (RandomTape.cycle #[0, 0xffffffffffffffff])) lines).engine
    let tape := RandomTape.start fun n => if n < 4 then engine.tape.words n else 0x123456789
    let word := "∧é+X∧".toList
    engine.rules.Productive ∧ engine.rules.keyCount word = 4 ∧
      (engine.expand word).engine.tape = engine.tape.advance 4 ∧
      (engine.expand word).answer = .ok "add+cc".toList ∧
      ({ engine with tape }.expand word).answer = .ok "add+cc".toList := by
  intro lines engine tape word
  have productive : engine.rules.Productive := productive_load _ lines
  have keys : engine.rules.keyCount word = 4 := by decide
  have evaluated : (engine.expand word).answer.toOption = some "add+cc".toList := by
    decide +kernel
  obtain ⟨whole, _, others⟩ := keys_read_tape_in_order engine productive
  obtain ⟨pieces, _, expanded⟩ := whole word
  have answer : (engine.expand word).answer = .ok "add+cc".toList := by
    rw [expanded] at evaluated ⊢
    exact congrArg Except.ok (Option.some.inj evaluated)
  have same : ∀ j < engine.rules.keyCount word, tape.ahead j = engine.tape.ahead j := by
    rw [keys]
    decide
  refine ⟨productive, keys, ?_, answer, (others word tape same).trans answer⟩
  rw [expanded, keys]

end Engine
end PlantGrammar
