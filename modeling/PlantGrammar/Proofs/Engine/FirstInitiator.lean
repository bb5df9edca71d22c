import PlantGrammar.Proofs.Engine.Origins
import PlantGrammar.Proofs.Rule.Reading

/-!
# Which word is generation zero

As long as the grammar is not put away, the word that is kept first stays the first.
It is the first initiator, unless a generation was asked for before there was one. Then
the engine has derived from the empty word what it was asked for, and the initiator
comes behind these empty generations.
-/
namespace PlantGrammar

theorem Line.ne_nil_of_mem_initiators {lines : List Word} {word : Word}
    (hmem : word ∈ initiators lines) : word ≠ [] := by
  obtain ⟨raw, _, read⟩ := List.mem_filterMap.1 hmem
  obtain ⟨line, parsed, found⟩ := Option.bind_eq_some_iff.1 read
  cases line with
  | rule key replacement => cases found
  | initiator other =>
      cases found
      exact ne_nil_of_parse? parsed

namespace Request

variable {α : Type}

/-- Whether a history that begins with nothing asks for a generation before it brings
an initiator. -/
def asksEarly : List (Request α) → Bool
  | [] => false
  | request :: rest =>
      request.asked?.isSome || (request.initiatorsAfter []).isEmpty && asksEarly rest

/-- Initiators come behind those there are. -/
theorem isPrefix_foldl_initiatorsAfter {history : List (Request α)}
    (keeps : ∀ request ∈ history, request.forgets = false) (words : List Word) :
    words <+: history.foldl initiatorsAfter words := by
  induction history generalizing words with
  | nil => exact List.prefix_rfl
  | cons request rest ih =>
      have first : words <+: request.initiatorsAfter words := by
        cases request with
        | add line => exact List.prefix_append words _
        | reset => cases keeps _ List.mem_cons_self
        | load _ => cases keeps _ List.mem_cons_self
        | loadText _ => cases keeps _ List.mem_cons_self
        | loadPreset _ => cases keeps _ List.mem_cons_self
        | _ => exact List.prefix_rfl
      exact first.trans (ih (fun later hmem => keeps later (List.mem_cons_of_mem request hmem)) _)

theorem ne_nil_of_mem_initiatorsSince {history : List (Request α)} {word : Word}
    (hmem : word ∈ initiatorsSince history) : word ≠ [] := by
  refine List.foldlRecOn history initiatorsAfter
    (motive := fun words => ∀ word ∈ words, word ≠ []) ?_ ?_ word hmem
  · nofun
  · intro words visible request _ other hother
    cases request with
    | reset => cases hother
    | add line =>
        rcases List.mem_append.1 hother with old | new
        · exact visible other old
        · exact Line.ne_nil_of_mem_initiators new
    | load _ => exact Line.ne_nil_of_mem_initiators hother
    | loadText _ => exact Line.ne_nil_of_mem_initiators hother
    | loadPreset _ => exact Line.ne_nil_of_mem_initiators hother
    | _ => exact visible other hother

end Request

namespace Engine

variable {α : Type} [Scalar α] [Trigonometry α]

/-- A request that asks for no generation and puts nothing away keeps the initiators
that it brings, and nothing else. -/
theorem generations_serve {request : Request α} (keeps : request.forgets = false)
    (asked : request.asked? = none) (engine : Engine α) :
    (engine.serve request).engine.generations =
      (request.initiatorsAfter []).foldl Generations.addInitiator engine.generations := by
  cases request with
  | setAngle _ => rfl
  | setStep _ => rfl
  | expand _ => rfl
  | add line => exact generations_addAll engine [line]
  | generation _ => cases asked
  | trace _ _ => cases asked
  | grow _ => cases asked
  | reset => cases keeps
  | load _ => cases keeps
  | loadText _ => cases keeps
  | loadPreset _ => cases keeps

/-- An engine without an initiator derives from the empty word. -/
theorem zero_serve_of_asked {engine : Engine α} (hp : engine.rules.Productive)
    (bare : engine.generations = Generations.empty) {request : Request α} {n : Nat}
    (asked : request.asked? = some n) :
    0 < (engine.serve request).engine.generations.size ∧
      (engine.serve request).engine.generations.wordOr 0 = [] := by
  rw [engine_serve asked]
  constructor
  · rw [size_generation hp]
    omega
  · have silent : engine.generations.All (· = []) := by
      rw [bare]
      exact ⟨rfl, nofun⟩
    have closed : ∀ word tape result later,
        engine.rules.expand word tape = ⟨.ok result, later⟩ → word = [] → result = [] := by
      rintro word tape result later expanded rfl
      cases expanded
      rfl
    rw [engine_generation]
    exact (all_deriveMany closed silent _).wordOr rfl 0

theorem zero_serve_of_initiator {engine : Engine α}
    (bare : engine.generations = Generations.empty) {request : Request α}
    (keeps : request.forgets = false) (asked : request.asked? = none) {word : Word}
    {others : List Word} (brought : request.initiatorsAfter [] = word :: others) :
    0 < (engine.serve request).engine.generations.size ∧
      (engine.serve request).engine.generations.wordOr 0 = word := by
  rw [generations_serve keeps asked, bare, brought, Generations.foldl_addInitiator]
  simp [Generations.size, Generations.wordOr, Generations.word?, Generations.empty]

/-- Whatever is kept first is generation zero from then on. A request that keeps no word
leaves the engine as bare as it was. -/
theorem zero_serveAll {engine : Engine α} (hp : engine.rules.Productive)
    (bare : engine.generations = Generations.empty) {history : List (Request α)}
    (keeps : ∀ request ∈ history, request.forgets = false) {word : Word}
    (first : (history.foldl Request.initiatorsAfter []).head? = some word) :
    ((engine.serveAll history).1.generation 0).answer =
      .ok (if Request.asksEarly history then [] else word) := by
  induction history generalizing engine with
  | nil => cases first
  | cons request rest ih =>
      have keeps_request := keeps request List.mem_cons_self
      have keeps_rest : ∀ later ∈ rest, later.forgets = false :=
        fun later hmem => keeps later (List.mem_cons_of_mem request hmem)
      have kept := words_prefix_serveAll (engine.serve request).engine keeps_rest
      rw [List.foldl_cons] at first
      show (((engine.serve request).engine.serveAll rest).1.generation 0).answer = _
      cases asked : request.asked? with
      | some n =>
          have early : Request.asksEarly (request :: rest) = true := by
            simp [Request.asksEarly, asked]
          obtain ⟨there, silent⟩ := zero_serve_of_asked hp bare asked
          have stays := generation_of_prefix kept there
          rw [stays, silent, if_pos early]
      | none =>
          cases brought : request.initiatorsAfter [] with
          | nil =>
              have later : Request.asksEarly (request :: rest) = Request.asksEarly rest := by
                simp [Request.asksEarly, asked, brought]
              have still : (engine.serve request).engine.generations = Generations.empty := by
                rw [generations_serve keeps_request asked, brought, bare]
                rfl
              rw [brought] at first
              rw [later]
              exact ih (lasting_productive.serve hp request) still keeps_rest first
          | cons initiator others =>
              have late : Request.asksEarly (request :: rest) = false := by
                simp [Request.asksEarly, asked, brought]
              obtain ⟨there, zero⟩ := zero_serve_of_initiator bare keeps_request asked brought
              obtain ⟨more, all⟩ :=
                Request.isPrefix_foldl_initiatorsAfter keeps_rest (initiator :: others)
              have same : initiator = word := by
                rw [brought, ← all] at first
                exact Option.some.inj first
              have stays := generation_of_prefix kept there
              rw [stays, zero, same, late]
              rfl

/-- After any requests to an engine that was reset, or never had a grammar, the first of
the initiators among them is generation zero exactly if no generation was asked for
before it. Otherwise generation zero is the empty word. -/
theorem first_initiator_unless_asked_early (engine : Engine α) (history : List (Request α))
    (keeps : ∀ request ∈ history, request.forgets = false) (word : Word)
    (first : (Request.initiatorsSince history).head? = some word) :
    let zero := ((engine.reset.serveAll history).1.generation 0).answer
    zero = .ok (if Request.asksEarly history then [] else word) ∧
      (zero = .ok word ↔ Request.asksEarly history = false) := by
  intro zero
  have answered : zero = .ok (if Request.asksEarly history then [] else word) :=
    zero_serveAll RuleSet.productive_empty rfl keeps first
  have visible : word ≠ [] :=
    Request.ne_nil_of_mem_initiatorsSince (List.mem_of_head? first)
  refine ⟨answered, ?_⟩
  rw [answered]
  cases Request.asksEarly history with
  | false => simp
  | true => simpa using visible.symm

/-- A word is expanded before the first initiator comes, but no generation is asked for. -/
theorem first_initiator_unless_asked_early_after_expansion :
    let engine : Engine Float32 := start Settings.standard (RandomTape.start fun _ => 0)
    let history : List (Request Float32) :=
      [.add "B -> AB".toList, .expand "B".toList, .add " A B\r".toList, .grow 1, .add "C".toList]
    (∀ request ∈ history, request.forgets = false) ∧
      (Request.initiatorsSince history).head? = some "AB".toList ∧
      Request.asksEarly history = false ∧
      ((engine.reset.serveAll history).1.generation 0).answer = .ok "AB".toList := by
  intro engine history
  have keeps : ∀ request ∈ history, request.forgets = false := by
    simp [history, Request.forgets]
  have first : (Request.initiatorsSince history).head? = some "AB".toList := by decide
  have late : Request.asksEarly history = false := by decide
  obtain ⟨_, exact_when⟩ := first_initiator_unless_asked_early engine history keeps _ first
  exact ⟨keeps, first, late, exact_when.2 late⟩

/-- An engine that was asked for a generation before its first initiator came keeps the
empty word as generation zero. -/
theorem first_initiator_not_always_zero :
    ¬ ∀ (engine : Engine Float32) (history : List (Request Float32)),
      (∀ request ∈ history, request.forgets = false) →
      ∀ word, (Request.initiatorsSince history).head? = some word →
        ((engine.reset.serveAll history).1.generation 0).answer = .ok word := by
  intro promised
  let engine : Engine Float32 := start Settings.standard (RandomTape.start fun _ => 0)
  let history : List (Request Float32) := [.generation 0, .add "F".toList]
  have keeps : ∀ request ∈ history, request.forgets = false := by
    simp [history, Request.forgets]
  have first : (Request.initiatorsSince history).head? = some "F".toList := by decide
  have silent : ((engine.reset.serveAll history).1.generation 0).answer = .ok [] := rfl
  have answered := promised engine history keeps "F".toList first
  rw [silent] at answered
  cases answered

end Engine
end PlantGrammar
