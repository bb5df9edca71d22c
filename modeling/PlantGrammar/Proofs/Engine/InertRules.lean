import PlantGrammar.Proofs.Engine.History

/-!
# Rules that never match

Only keys of one symbol are looked up, so a rule for any other key changes nothing.
Two engines are alike if they differ in such rules only. They stay alike, whatever
is asked of both, and give the same answers, since they read the same words of the
tape for the same choices.
-/
namespace PlantGrammar

namespace Line

/-- Whether the line is a rule for a key that is not one symbol. -/
def isInert (raw : Word) : Bool :=
  match parse? raw with
  | some (rule key _) => key.length ≠ 1
  | _ => false

/-- The lines of a grammar but for its inert rules. -/
def dropInert (lines : List Word) : List Word := lines.filter fun raw => !isInert raw

end Line

namespace RuleSet

/-- Each symbol has the same alternatives in both rule sets. -/
def Agree (r s : RuleSet) : Prop :=
  ∀ symbol, r.alternatives? [symbol] = s.alternatives? [symbol]

theorem Agree.replace {r s : RuleSet} (h : r.Agree s) (symbol : Symbol) (tape : RandomTape) :
    r.replace symbol tape = s.replace symbol tape := by
  unfold RuleSet.replace
  rw [h symbol]

theorem Agree.expand {r s : RuleSet} (h : r.Agree s) (word : Word) (tape : RandomTape) :
    r.expand word tape = s.expand word tape := by
  induction word generalizing tape with
  | nil => rfl
  | cons symbol rest ih =>
      rw [expand_cons, expand_cons, h.replace]
      rcases s.replace symbol tape with ⟨fault | replacement, later⟩
      · rfl
      · simp only [ih]

theorem Agree.add {r s : RuleSet} (h : r.Agree s) (key replacement : Word) :
    (r.add key replacement).Agree (s.add key replacement) := by
  intro symbol
  rw [alternatives?_add, alternatives?_add]
  split
  · rename_i same
    rw [← same, h symbol]
  · exact h symbol

theorem Agree.add_inert {r s : RuleSet} (h : r.Agree s) {key : Word} (inert : key.length ≠ 1)
    (replacement : Word) : (r.add key replacement).Agree s := by
  intro symbol
  rw [alternatives?_add, if_neg, h symbol]
  rintro rfl
  exact inert rfl

end RuleSet

/-- Two engines that differ in inert rules at most. -/
structure Engine.Alike {α : Type} (a b : Engine α) : Prop where
  rules : a.rules.Agree b.rules
  generations : a.generations = b.generations
  settings : a.settings = b.settings
  tape : a.tape = b.tape

/-- The same answer and the same events, from engines that are alike afterwards. -/
structure Reply.Alike {α β : Type} (p q : Reply α β) : Prop where
  engine : p.engine.Alike q.engine
  events : p.events = q.events
  answer : p.answer = q.answer

theorem Reply.Alike.map {α β γ : Type} {p q : Reply α β} (h : p.Alike q) (f : β → γ) :
    (p.map f).Alike (q.map f) :=
  ⟨h.engine, h.events, congrArg f h.answer⟩

namespace Engine

variable {α : Type} {a b : Engine α}

theorem Alike.refl (engine : Engine α) : engine.Alike engine :=
  ⟨fun _ => rfl, rfl, rfl, rfl⟩

theorem Alike.add (h : a.Alike b) (raw : Word) : (a.add raw).Alike (b.add raw) := by
  unfold Engine.add
  split
  · rename_i key replacement parsed
    exact ⟨⟨h.rules.add key replacement, h.generations, h.settings, h.tape⟩, rfl, rfl⟩
  · rename_i word parsed
    refine ⟨⟨h.rules, ?_, h.settings, h.tape⟩, rfl, rfl⟩
    show a.generations.addInitiator word = b.generations.addInitiator word
    rw [h.generations]
  · exact ⟨h, rfl, rfl⟩

/-- A grammar is put in place of whatever grammar there was. -/
theorem load_eq_of_same (settings : a.settings = b.settings) (tape : a.tape = b.tape)
    (lines : List Word) : a.load lines = b.load lines := by
  have fresh : a.reset = b.reset := by rw [reset, reset, settings, tape]
  rw [load, load, fresh]

theorem Alike.load (h : a.Alike b) (lines : List Word) : (a.load lines).Alike (b.load lines) := by
  rw [load_eq_of_same h.settings h.tape]
  exact ⟨.refl _, rfl, rfl⟩

theorem Alike.add_inert (h : a.Alike b) {raw : Word} (inert : Line.isInert raw = true) :
    (a.add raw).engine.Alike b := by
  unfold Line.isInert at inert
  split at inert
  · rename_i key replacement parsed
    have long : key.length ≠ 1 := of_decide_eq_true inert
    have added : (a.add raw).engine = { a with rules := a.rules.add key replacement } := by
      rw [Engine.add, parsed]
    rw [added]
    exact ⟨h.rules.add_inert long replacement, h.generations, h.settings, h.tape⟩
  · cases inert

/-- Lines leave an engine like the one that they leave without the inert rules. -/
theorem Alike.addAll_dropInert (h : a.Alike b) (lines : List Word) :
    (a.addAll lines).engine.Alike (b.addAll (Line.dropInert lines)).engine := by
  induction lines generalizing a b with
  | nil => exact h
  | cons raw rest ih =>
      cases inert : Line.isInert raw with
      | false =>
          have stays : Line.dropInert (raw :: rest) = raw :: Line.dropInert rest := by
            simp [Line.dropInert, inert]
          rw [stays]
          exact ih (h.add raw).engine
      | true =>
          have dropped : Line.dropInert (raw :: rest) = Line.dropInert rest := by
            simp [Line.dropInert, inert]
          rw [dropped]
          exact ih (h.add_inert inert)

theorem Alike.expand (h : a.Alike b) (word : Word) : (a.expand word).Alike (b.expand word) := by
  unfold Engine.expand
  rw [h.rules.expand, h.tape]
  exact ⟨⟨h.rules, h.generations, h.settings, rfl⟩, rfl, rfl⟩

theorem Alike.derive (h : a.Alike b) : a.derive.1.Alike b.derive.1 ∧ a.derive.2 = b.derive.2 := by
  unfold Engine.derive
  rw [h.rules.expand, h.generations, h.tape]
  rcases b.rules.expand b.generations.current b.tape with ⟨fault | word, tape⟩
  · exact ⟨⟨h.rules, rfl, h.settings, rfl⟩, rfl⟩
  · exact ⟨⟨h.rules, rfl, h.settings, rfl⟩, rfl⟩

theorem Alike.deriveMany (h : a.Alike b) (count : Nat) :
    (a.deriveMany count).1.Alike (b.deriveMany count).1 ∧
      (a.deriveMany count).2 = (b.deriveMany count).2 := by
  induction count generalizing a b with
  | zero => exact ⟨h, rfl⟩
  | succ count ih =>
      obtain ⟨next, same⟩ := h.derive
      rw [Engine.deriveMany, Engine.deriveMany]
      rcases ha : a.derive with ⟨first, outcome⟩
      rcases hb : b.derive with ⟨second, other⟩
      rw [ha, hb] at next same
      cases same
      cases outcome with
      | ok => exact ih next
      | error fault => exact ⟨next, rfl⟩

theorem Alike.generation (h : a.Alike b) (n : Nat) : (a.generation n).Alike (b.generation n) := by
  unfold Engine.generation
  rw [h.generations]
  dsimp only
  split
  · exact ⟨h, rfl, rfl⟩
  · obtain ⟨next, same⟩ := h.deriveMany (n + 1 - b.generations.size)
    rcases ha : a.deriveMany (n + 1 - b.generations.size) with ⟨first, outcome⟩
    rcases hb : b.deriveMany (n + 1 - b.generations.size) with ⟨second, other⟩
    rw [ha, hb] at next same
    cases same
    cases outcome with
    | ok =>
        have kept : first.generations = second.generations := next.generations
        refine ⟨next, ?_, ?_⟩
        · simp only [kept]
        · simp only [kept]
    | error fault => exact ⟨next, rfl, rfl⟩

variable [Scalar α] [Trigonometry α]

theorem Alike.trace (h : a.Alike b) (n : Nat) (skeleton : Skeleton α) :
    (a.trace n skeleton).Alike (b.trace n skeleton) := by
  obtain ⟨next, events, same⟩ := h.generation n
  unfold Engine.trace
  dsimp only
  rw [h.settings, events, same]
  cases (b.generation n).answer with
  | ok word => exact ⟨next, rfl, rfl⟩
  | error fault => exact ⟨next, rfl, rfl⟩

theorem Alike.grow (h : a.Alike b) (n : Nat) : (a.grow n).Alike (b.grow n) := by
  obtain ⟨next, events, same⟩ := h.trace n Skeleton.empty
  refine ⟨next, events, ?_⟩
  show (a.trace n Skeleton.empty).answer.2.map (fun _ => (a.trace n Skeleton.empty).answer.1) = _
  rw [same]
  rfl

/-- No request tells one engine from the other. -/
theorem Alike.serve (h : a.Alike b) (request : Request α) :
    (a.serve request).Alike (b.serve request) := by
  cases request with
  | setAngle degrees =>
      refine ⟨⟨h.rules, h.generations, ?_, h.tape⟩, rfl, rfl⟩
      show (a.setAngle degrees).settings = (b.setAngle degrees).settings
      rw [setAngle, setAngle, h.settings]
  | setStep distance =>
      refine ⟨⟨h.rules, h.generations, ?_, h.tape⟩, rfl, rfl⟩
      show (a.setStep distance).settings = (b.setStep distance).settings
      rw [setStep, setStep, h.settings]
  | reset => exact ⟨⟨fun _ => rfl, rfl, h.settings, h.tape⟩, rfl, rfl⟩
  | add line => exact (h.add line).map fun _ => (Answer.done : Answer α)
  | load lines => exact (h.load lines).map fun _ => (Answer.done : Answer α)
  | loadText text => exact (h.load text.lines).map fun _ => (Answer.done : Answer α)
  | loadPreset preset => exact (h.load preset.lines).map fun _ => (Answer.done : Answer α)
  | expand word => exact (h.expand word).map Answer.word
  | generation n => exact (h.generation n).map Answer.word
  | trace n skeleton =>
      exact (h.trace n skeleton).map fun answer => Answer.traced answer.1 answer.2
  | grow n => exact (h.grow n).map Answer.grown

theorem Alike.serveAll (h : a.Alike b) (history : List (Request α)) :
    (a.serveAll history).1.Alike (b.serveAll history).1 ∧
      (a.serveAll history).2 = (b.serveAll history).2 := by
  induction history generalizing a b with
  | nil => exact ⟨h, rfl⟩
  | cons request rest ih =>
      obtain ⟨next, events, _⟩ := h.serve request
      obtain ⟨later, others⟩ := ih next
      refine ⟨later, ?_⟩
      show (a.serve request).events ++ _ = (b.serve request).events ++ _
      rw [events, others]

/-- A grammar and the same grammar without its inert rules, loaded with the same
settings and the same tape. Whatever is asked of both from then on, both have the
same generations and have counted the same passes, their tapes have come to the same
place, they have reported the same events, and they give the same answer to the next
request, faults and drawings included. -/
theorem inert_rules_change_nothing (engine other : Engine α)
    (settings : engine.settings = other.settings) (tape : engine.tape = other.tape)
    (lines : List Word) (history : List (Request α)) :
    let whole := (engine.load lines).engine.serveAll history
    let pruned := (other.load (Line.dropInert lines)).engine.serveAll history
    whole.1.generations = pruned.1.generations ∧ whole.1.tape = pruned.1.tape ∧
      whole.1.settings = pruned.1.settings ∧ whole.2 = pruned.2 ∧
      ∀ request : Request α,
        (whole.1.serve request).answer = (pruned.1.serve request).answer := by
  intro whole pruned
  have fresh : engine.reset.Alike other.reset := ⟨fun _ => rfl, rfl, settings, tape⟩
  have loaded : (engine.load lines).engine.Alike (other.load (Line.dropInert lines)).engine :=
    fresh.addAll_dropInert lines
  obtain ⟨alike, events⟩ := loaded.serveAll history
  exact ⟨alike.generations, alike.tape, alike.settings, events,
    fun request => (alike.serve request).answer⟩

/-- The inert keys are spelled with symbols that have rules of their own, and one of
them stands in the word as it is. The drawing ends at a fault. -/
theorem inert_rules_change_nothing_for_wide_symbols :
    let lines : List Word :=
      ["é∧".toList, "é∧ -> X".toList, "-> Y".toList, "é -> ∧é".toList, "∧ -> ]".toList,
        "é -> é∧".toList, "∧∧∧ -> [".toList]
    let tape := RandomTape.start fun n => if n % 2 = 0 then 0 else 0xffffffffffffffff
    let engine : Engine Float32 := start Settings.standard tape
    let other : Engine Float32 := (engine.load ["Z".toList, "ZZ -> Z".toList]).engine
    let history : List (Request Float32) := [.trace 2 Skeleton.empty, .expand "é".toList]
    let whole := (engine.load lines).engine.serveAll history
    let pruned := (other.load (Line.dropInert lines)).engine.serveAll history
    engine.settings = other.settings ∧ engine.tape = other.tape ∧
      whole.1.generations = pruned.1.generations ∧ whole.1.tape = pruned.1.tape ∧
      (whole.1.serve (.grow 2)).answer = (pruned.1.serve (.grow 2)).answer := by
  intro lines tape engine other history whole pruned
  have settings : engine.settings = other.settings := rfl
  have same_tape : engine.tape = other.tape := rfl
  obtain ⟨generations, tapes, _, _, answers⟩ :=
    inert_rules_change_nothing engine other settings same_tape lines history
  exact ⟨settings, same_tape, generations, tapes, answers (.grow 2)⟩

end Engine
end PlantGrammar
