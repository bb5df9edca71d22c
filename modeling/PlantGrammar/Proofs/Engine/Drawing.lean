import PlantGrammar.Proofs.Engine.History
import PlantGrammar.Proofs.Turtle.Journey

/-!
# Drawings behind other drawings

A generation can be drawn behind whatever a skeleton holds, on its own, or by
reading its word with a fresh turtle. All three give the same drawing and come to
the same end, since a walk neither looks at the skeleton that it is given nor
changes what is there. The engine only derives what is missing, so the second
drawing of a generation is the first one over again.
-/
namespace PlantGrammar

namespace Walk

variable {α : Type} [Scalar α] [Trigonometry α]

/-- A walk that starts with a skeleton draws behind it what it draws on its own. -/
theorem skeleton_read_start (settings : Settings α) (skeleton : Skeleton α) (word : Word) :
    ((start settings skeleton).read word).walk.skeleton =
      skeleton ++ ((start settings Skeleton.empty).read word).walk.skeleton := by
  have behind : ((start settings skeleton).read word).walk.skeleton =
      skeleton ++ ((Turtle.start settings).journey word).drawn := by
    rw [read_walk]
    rfl
  have alone : ((start settings Skeleton.empty).read word).walk.skeleton =
      ((Turtle.start settings).journey word).drawn := by
    rw [read_walk]
    exact Skeleton.empty_append _
  rw [behind, alone]

theorem outcome_read_start (settings : Settings α) (skeleton : Skeleton α) (word : Word) :
    ((start settings skeleton).read word).outcome =
      ((start settings Skeleton.empty).read word).outcome := by
  rw [read_outcome, read_outcome]
  rfl

/-- Only a bracket without a partner ends a walk before its word. -/
theorem outcome_read_cases (walk : Walk α) (word : Word) :
    (walk.read word).outcome = .ok () ∨
      ∃ k, (walk.read word).outcome = .error (.unmatchedBracket k) := by
  rw [read_outcome]
  cases hstop : (walk.turtle.journey word).stop with
  | none => exact .inl (Journey.outcome_of_none hstop 0)
  | some k => exact .inr ⟨0 + k, Journey.outcome_of_some hstop 0⟩

end Walk

namespace Engine

variable {α : Type} [Scalar α] [Trigonometry α]

theorem answer_trace_append {engine : Engine α} {n : Nat} {word : Word}
    (derived : (engine.generation n).answer = .ok word) (skeleton : Skeleton α) :
    let alone := (Walk.start engine.settings Skeleton.empty).read word
    (engine.trace n skeleton).answer =
      (skeleton ++ alone.walk.skeleton, alone.outcome) := by
  intro alone
  rw [answer_trace derived, Walk.skeleton_read_start, Walk.outcome_read_start]

theorem answer_grow {engine : Engine α} {n : Nat} {word : Word}
    (derived : (engine.generation n).answer = .ok word) :
    let alone := (Walk.start engine.settings Skeleton.empty).read word
    (engine.grow n).answer = alone.outcome.map fun _ => alone.walk.skeleton := by
  intro alone
  have traced := answer_trace_append derived Skeleton.empty
  show (engine.trace n Skeleton.empty).answer.2.map
    (fun _ => (engine.trace n Skeleton.empty).answer.1) = _
  rw [traced, Skeleton.empty_append]

/-- A generation that is kept is drawn in the same way ever after, as long as the
settings are the same, and the engine has nothing to do for it. -/
theorem trace_of_prefix {engine later : Engine α} {n : Nat}
    (kept : engine.generations.words.toList <+: later.generations.words.toList)
    (there : n < engine.generations.size) (skeleton : Skeleton α) :
    let alone := (Walk.start later.settings Skeleton.empty).read (engine.generations.wordOr n)
    (later.trace n skeleton).answer = (skeleton ++ alone.walk.skeleton, alone.outcome) ∧
      (later.trace n skeleton).engine = later := by
  intro alone
  have same := generation_of_prefix kept there
  have derived : (later.generation n).answer = .ok (engine.generations.wordOr n) := by rw [same]
  refine ⟨answer_trace_append derived skeleton, ?_⟩
  rw [engine_trace, same]

/-- After any history, a generation is drawn behind a skeleton just as a fresh
turtle draws its word on its own. Growing it alone gives the same drawing, or
ends at the same fault. Either way the engine is left as by asking for the
generation, and a later drawing with the same settings repeats the first one and
leaves the engine as it is. -/
theorem drawing_repeats (settings : Settings α) (tape : RandomTape)
    (history : List (Request α)) (n : Nat) (skeleton : Skeleton α) :
    let engine := ((start settings tape).serveAll history).1
    let derived := engine.generation n
    let traced := engine.trace n skeleton
    let grown := engine.grow n
    ∃ word, derived.answer = .ok word ∧
      let alone := (Walk.start engine.settings Skeleton.empty).read word
      traced.answer = (skeleton ++ alone.walk.skeleton, alone.outcome) ∧
      (alone.outcome = .ok () ∨ ∃ k, alone.outcome = .error (.unmatchedBracket k)) ∧
      (∀ drawn, grown.answer = .ok drawn ↔
        traced.answer.2 = .ok () ∧ drawn = alone.walk.skeleton) ∧
      (∀ fault, grown.answer = .error fault ↔ traced.answer.2 = .error fault) ∧
      traced.engine = derived.engine ∧ grown.engine = derived.engine ∧
      ∀ (more : List (Request α)) (other : Skeleton α),
        (∀ request ∈ more, request.forgets = false) →
        let later := (traced.engine.serveAll more).1
        later.settings = engine.settings →
          (later.trace n other).answer = (other ++ alone.walk.skeleton, alone.outcome) ∧
          (later.trace n other).engine = later := by
  intro engine derived traced grown
  have hp : engine.rules.Productive := productive_serveAll settings tape history
  have answered : derived.answer = .ok (derived.engine.generations.wordOr n) :=
    answer_generation hp n
  refine ⟨derived.engine.generations.wordOr n, answered, ?_⟩
  intro alone
  have htraced : traced.answer = (skeleton ++ alone.walk.skeleton, alone.outcome) :=
    answer_trace_append answered skeleton
  have hgrown : grown.answer = alone.outcome.map fun _ => alone.walk.skeleton :=
    answer_grow answered
  have hengine : traced.engine = derived.engine := engine_trace engine n skeleton
  refine ⟨htraced, Walk.outcome_read_cases _ _, ?_, ?_, hengine, engine_grow engine n, ?_⟩
  · intro drawn
    rw [hgrown, htraced]
    cases alone.outcome with
    | ok => simp [Except.map, eq_comm]
    | error fault => simp [Except.map]
  · intro fault
    rw [hgrown, htraced]
    cases alone.outcome with
    | ok => simp [Except.map]
    | error other => simp [Except.map]
  · intro more other keeps later same
    have kept := words_prefix_serveAll traced.engine keeps
    have there : n < traced.engine.generations.size := by
      have hsize := size_generation hp n
      rw [hengine, hsize]
      omega
    have word_kept : traced.engine.generations.wordOr n =
        derived.engine.generations.wordOr n := by rw [hengine]
    have repeated := trace_of_prefix kept there other
    rw [same, word_kept] at repeated
    exact repeated

/-- The part before the fault is drawn again, behind itself. In between the angle
is changed and changed back. -/
theorem drawing_repeats_after_fault :
    let engine : Engine Float32 :=
      ((start Settings.standard (RandomTape.start fun _ => 0)).serveAll
        [.load ["F".toList, "F -> F]L".toList]]).1
    let more : List (Request Float32) := [.setAngle 90.0, .expand "F".toList, .setAngle 45.0]
    let later := ((engine.trace 1 Skeleton.empty).engine.serveAll more).1
    (∀ request ∈ more, request.forgets = false) ∧ later.settings = engine.settings ∧
      ∃ drawn : Skeleton Float32,
        (engine.trace 1 Skeleton.empty).answer = (drawn, .error (.unmatchedBracket 1)) ∧
        (later.trace 1 drawn).answer = (drawn ++ drawn, .error (.unmatchedBracket 1)) ∧
        (later.trace 1 drawn).engine = later := by
  have hword : (((start (Settings.standard : Settings Float32)
      (RandomTape.start fun _ => 0)).serveAll
        [.load ["F".toList, "F -> F]L".toList]]).1.generation 1).answer =
      .ok "F]L".toList := rfl
  intro engine more later
  have keeps : ∀ request ∈ more, request.forgets = false := by simp [more, Request.forgets]
  have same : later.settings = engine.settings := rfl
  obtain ⟨word, derived, traced, _, _, _, _, _, repeats⟩ := drawing_repeats
    (Settings.standard : Settings Float32) (RandomTape.start fun _ => 0)
    [.load ["F".toList, "F -> F]L".toList]] 1 Skeleton.empty
  rw [hword] at derived
  cases derived
  rw [Skeleton.empty_append] at traced
  exact ⟨keeps, same, _, traced, repeats more _ keeps same⟩

end Engine
end PlantGrammar
