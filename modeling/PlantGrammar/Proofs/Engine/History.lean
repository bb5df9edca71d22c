import PlantGrammar.Proofs.Engine.Cache

/-!
# What lasts through a history of requests

However many requests there are, each is made of a few steps: a setting is
changed, the grammar is put away, a line is added, a word is expanded, or one
more generation is derived. A property that no step takes from an engine holds
after every history, also where drawings in it end at a fault. That every key has
an alternative is such a property.
-/
namespace PlantGrammar

namespace Request

variable {α : Type}

/-- Whether the request puts away the grammar there is, with its generations. -/
def forgets : Request α → Bool
  | reset | load _ | loadText _ | loadPreset _ => true
  | _ => false

/-- The lines of a grammar that the request brings. -/
def lines : Request α → List Word
  | add line => [line]
  | load lines => lines
  | loadText text => text.lines
  | loadPreset preset => preset.lines
  | _ => []

/-- Whether the request leaves the grammar as it is, so that nothing of it comes or goes. -/
def keepsGrammar : Request α → Bool
  | setAngle _ | setStep _ | expand _ | generation _ | trace _ _ | grow _ => true
  | _ => false

end Request

namespace Engine

variable {α : Type}

theorem words_prefix_add (engine : Engine α) (raw : Word) :
    engine.generations.words.toList <+: (engine.add raw).engine.generations.words.toList := by
  unfold add
  split
  · exact List.prefix_rfl
  · rename_i word _
    have pushed : (engine.generations.addInitiator word).words.toList =
        engine.generations.words.toList ++ [word] := Array.toList_push
    show _ <+: (engine.generations.addInitiator word).words.toList
    rw [pushed]
    exact List.prefix_append _ _
  · exact List.prefix_rfl

theorem words_prefix_generation (engine : Engine α) (n : Nat) :
    engine.generations.words.toList <+:
      (engine.generation n).engine.generations.words.toList := by
  rw [engine_generation]
  exact words_prefix_deriveMany engine _

/-- A generation that is kept is answered at once, and the engine stays as it is. -/
theorem generation_of_lt {engine : Engine α} {n : Nat} (there : n < engine.generations.size) :
    engine.generation n = ⟨engine, [], .ok (engine.generations.wordOr n)⟩ := by
  rw [generation, if_pos there]

/-- More generations behind it do not change the answer for a kept one. -/
theorem generation_of_prefix {engine later : Engine α} {n : Nat}
    (kept : engine.generations.words.toList <+: later.generations.words.toList)
    (there : n < engine.generations.size) :
    later.generation n = ⟨later, [], .ok (engine.generations.wordOr n)⟩ := by
  have sizes : engine.generations.size ≤ later.generations.size := by
    simpa only [Generations.size, Array.length_toList] using kept.length_le
  have still : n < later.generations.size := by omega
  rw [generation_of_lt still, Generations.wordOr_of_prefix kept there]

/-- A history keeps whatever each of its requests keeps. -/
theorem serveAll_induction [Scalar α] [Trigonometry α] {motive : Engine α → Prop}
    {history : List (Request α)}
    (step : ∀ request ∈ history, ∀ engine, motive engine → motive (engine.serve request).engine)
    {engine : Engine α} (start : motive engine) : motive (engine.serveAll history).1 := by
  induction history generalizing engine with
  | nil => exact start
  | cons request rest ih =>
      have next : motive (engine.serve request).engine :=
        step request List.mem_cons_self engine start
      exact ih (fun later hmem => step later (List.mem_cons_of_mem request hmem)) next

/-- A property of engines that lasts through every step a request can be made of. -/
structure Lasting (motive : Engine α → Prop) : Prop where
  setAngle : ∀ engine degrees, motive engine → motive (engine.setAngle degrees)
  setStep : ∀ engine distance, motive engine → motive (engine.setStep distance)
  reset : ∀ engine, motive engine → motive engine.reset
  add : ∀ engine raw, motive engine → motive (engine.add raw).engine
  expand : ∀ engine word, motive engine → motive (engine.expand word).engine
  derive : ∀ engine, motive engine → motive engine.derive.1

namespace Lasting

variable {motive : Engine α → Prop}

theorem load (h : Lasting motive) {engine : Engine α} (holds : motive engine)
    (lines : List Word) : motive (engine.load lines).engine := by
  have fresh : motive engine.reset := h.reset engine holds
  show motive (engine.reset.addAll lines).engine
  exact addAll_induction (fun raw _ later => h.add later raw) fresh

theorem generation (h : Lasting motive) {engine : Engine α} (holds : motive engine) (n : Nat) :
    motive (engine.generation n).engine := by
  rw [engine_generation]
  exact deriveMany_induction h.derive _ holds

variable [Scalar α] [Trigonometry α]

theorem serve (h : Lasting motive) {engine : Engine α} (holds : motive engine)
    (request : Request α) : motive (engine.serve request).engine := by
  cases request with
  | setAngle degrees => exact h.setAngle engine degrees holds
  | setStep distance => exact h.setStep engine distance holds
  | reset => exact h.reset engine holds
  | add line => exact h.add engine line holds
  | load lines => exact h.load holds lines
  | loadText text => exact h.load holds text.lines
  | loadPreset preset => exact h.load holds preset.lines
  | expand word => exact h.expand engine word holds
  | generation n => exact h.generation holds n
  | trace n skeleton =>
      rw [engine_serve rfl]
      exact h.generation holds n
  | grow n =>
      rw [engine_serve rfl]
      exact h.generation holds n

theorem serveAll (h : Lasting motive) {engine : Engine α} (holds : motive engine)
    (history : List (Request α)) : motive (engine.serveAll history).1 :=
  serveAll_induction (motive := motive) (fun request _ _ held => h.serve held request) holds

end Lasting

theorem lasting_productive : Lasting fun engine : Engine α => engine.rules.Productive where
  setAngle _ _ h := h
  setStep _ _ h := h
  reset _ _ := RuleSet.productive_empty
  add engine raw h := by
    rcases rules_add engine raw with same | ⟨key, replacement, _, added⟩
    · rwa [same]
    · rw [added]
      exact h.add key replacement
  expand _ _ h := h
  derive engine h := by rwa [rules_derive]

section Histories

variable [Scalar α] [Trigonometry α]

/-- A request that keeps the grammar moves settings or tape and no more, or it derives
what is missing for a generation. -/
theorem engine_serve_of_keepsGrammar {request : Request α} (keeps : request.keepsGrammar = true)
    (engine : Engine α) :
    (∃ settings tape,
      (engine.serve request).engine = { engine with settings := settings, tape := tape }) ∨
    ∃ n, (engine.serve request).engine = (engine.generation n).engine := by
  cases request with
  | setAngle degrees => exact .inl ⟨(engine.setAngle degrees).settings, engine.tape, rfl⟩
  | setStep distance => exact .inl ⟨(engine.setStep distance).settings, engine.tape, rfl⟩
  | expand word => exact .inl ⟨engine.settings, (engine.expand word).engine.tape, rfl⟩
  | generation n => exact .inr ⟨n, rfl⟩
  | trace n _ => exact .inr ⟨n, engine_serve rfl engine⟩
  | grow n => exact .inr ⟨n, engine_serve rfl engine⟩
  | _ => cases keeps

/-- Requests that keep the grammar change no rule, and keep whatever an expansion of the
current word keeps. -/
theorem serveAll_of_keepsGrammar {motive : Generations → Prop} {engine : Engine α}
    (step : ∀ g tape word later, engine.rules.expand g.current tape = ⟨.ok word, later⟩ →
      motive g → motive (g.addPass word))
    (start : motive engine.generations) {history : List (Request α)}
    (keeps : ∀ request ∈ history, request.keepsGrammar = true) :
    (engine.serveAll history).1.rules = engine.rules ∧
      motive (engine.serveAll history).1.generations := by
  refine serveAll_induction (motive := fun later => later.rules = engine.rules ∧
    motive later.generations) ?_ ⟨rfl, start⟩
  rintro request hmem later ⟨same, holds⟩
  rcases engine_serve_of_keepsGrammar (keeps request hmem) later with
    ⟨settings, tape, moved⟩ | ⟨n, asked⟩
  · rw [moved]
    exact ⟨same, holds⟩
  · rw [asked, engine_generation, rules_deriveMany]
    rw [← same] at step
    exact ⟨same, generations_deriveMany step holds _⟩

/-- No request takes a generation away, unless it puts the whole grammar away. -/
theorem words_prefix_serve (engine : Engine α) {request : Request α}
    (keeps : request.forgets = false) :
    engine.generations.words.toList <+:
      (engine.serve request).engine.generations.words.toList := by
  cases request with
  | setAngle _ => exact List.prefix_rfl
  | setStep _ => exact List.prefix_rfl
  | add line => exact words_prefix_add engine line
  | expand _ => exact List.prefix_rfl
  | generation n => exact words_prefix_generation engine n
  | trace n _ =>
      rw [engine_serve rfl]
      exact words_prefix_generation engine n
  | grow n =>
      rw [engine_serve rfl]
      exact words_prefix_generation engine n
  | reset => cases keeps
  | load _ => cases keeps
  | loadText _ => cases keeps
  | loadPreset _ => cases keeps

theorem words_prefix_serveAll (engine : Engine α) {history : List (Request α)}
    (keeps : ∀ request ∈ history, request.forgets = false) :
    engine.generations.words.toList <+:
      (engine.serveAll history).1.generations.words.toList := by
  induction history generalizing engine with
  | nil => exact List.prefix_rfl
  | cons request rest ih =>
      have first := words_prefix_serve engine (keeps request List.mem_cons_self)
      have others := ih (engine.serve request).engine
        fun later hmem => keeps later (List.mem_cons_of_mem request hmem)
      exact first.trans others

/-- Whatever is asked of an engine, each of its keys has an alternative. -/
theorem productive_serveAll (settings : Settings α) (tape : RandomTape)
    (history : List (Request α)) :
    ((start settings tape).serveAll history).1.rules.Productive :=
  lasting_productive.serveAll RuleSet.productive_empty history

end Histories

end Engine
end PlantGrammar
