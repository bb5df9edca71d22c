import PlantGrammar.Proofs.Engine.Drawing
import PlantGrammar.Proofs.Rule.Keys
import PlantGrammar.Proofs.Rule.Reading

/-!
# Symbols that never come up

Lines are read without their spaces, and a text is cut at its line feeds before its
lines are read. A symbol that no rule and no initiator brings in is in no
generation, whatever the choices are, since an expansion only copies symbols and
alternatives. So it is in no drawing either, where it would be a marker.
-/
namespace PlantGrammar

namespace RuleSet

/-- An expansion brings in no symbol that the alternatives lack. -/
theorem All.not_mem_expand {P : Word → Prop} {rules : RuleSet} {symbol : Symbol}
    (h : rules.All P fun replacement => symbol ∉ replacement) (hp : rules.Productive)
    {word result : Word} {tape later : RandomTape}
    (expanded : rules.expand word tape = ⟨.ok result, later⟩) (lacks : symbol ∉ word) :
    symbol ∉ result := by
  induction word generalizing result tape with
  | nil =>
      cases expanded
      exact lacks
  | cons first rest ih =>
      obtain ⟨lacks_first, lacks_rest⟩ := not_or.1 (mt List.mem_cons.2 lacks)
      obtain ⟨replacement, next, others, chosen, remaining, rfl⟩ := hp.expand_cons_inv expanded
      obtain ⟨same, last, replaced, cases⟩ := hp.replace_ok first tape
      rw [replaced] at chosen
      cases chosen
      have lacks_replacement : symbol ∉ replacement := by
        rcases cases with ⟨_, rfl⟩ | ⟨alternatives, found, hmem⟩
        · exact mt List.mem_singleton.1 lacks_first
        · exact h.alternatives [first] alternatives found replacement hmem
      intro hmem
      rcases List.mem_append.1 hmem with before | after
      · exact lacks_replacement before
      · exact ih remaining lacks_rest after

end RuleSet

namespace Request

variable {α : Type}

/-- Whether the request brings lines that were not cut from one text or preset. -/
def bringsLines : Request α → Bool
  | add _ | load _ => true
  | _ => false

theorem newline_not_mem_lines {request : Request α} (h : request.bringsLines = false) :
    ∀ raw ∈ request.lines, '\n' ∉ raw := by
  have presets : ∀ preset : Preset, ∀ raw ∈ preset.lines, '\n' ∉ raw := by
    intro preset
    cases preset <;> decide
  cases request with
  | add line => cases h
  | load lines => cases h
  | loadText text => exact fun raw hmem => Word.newline_not_mem_of_mem_lines hmem
  | loadPreset preset => exact presets preset
  | _ =>
      intro raw hmem
      cases hmem

end Request

namespace Engine

variable {α : Type}

/-- A symbol that is in no key, in no alternative and in no generation. -/
structure Lacks (symbol : Symbol) (engine : Engine α) : Prop where
  rules : engine.rules.All (fun key => symbol ∉ key) fun replacement => symbol ∉ replacement
  generations : engine.generations.All fun word => symbol ∉ word

theorem lacks_reset (engine : Engine α) (symbol : Symbol) : engine.reset.Lacks symbol := by
  refine ⟨RuleSet.all_empty, List.not_mem_nil, fun word hmem => ?_⟩
  exact absurd hmem (Array.not_mem_empty word)

theorem Lacks.add {symbol : Symbol} {engine : Engine α} (h : engine.Lacks symbol) {raw : Word}
    (clean : ∀ line, Line.parse? raw = some line → symbol ∉ line.symbols) :
    (engine.add raw).engine.Lacks symbol := by
  unfold Engine.add
  split
  · rename_i key replacement parsed
    obtain ⟨hkey, hreplacement⟩ := not_or.1 (mt List.mem_append.2 (clean _ parsed))
    exact ⟨h.rules.add hkey hreplacement, h.generations⟩
  · rename_i word parsed
    exact ⟨h.rules, h.generations.addInitiator (clean _ parsed)⟩
  · exact h

theorem lacks_load (engine : Engine α) {symbol : Symbol} {lines : List Word}
    (clean : ∀ raw ∈ lines, ∀ line, Line.parse? raw = some line → symbol ∉ line.symbols) :
    (engine.load lines).engine.Lacks symbol :=
  addAll_induction (motive := Lacks symbol) (fun raw hmem _ held => held.add (clean raw hmem))
    (lacks_reset engine symbol)

theorem Lacks.generation {symbol : Symbol} {engine : Engine α} (h : engine.Lacks symbol)
    (hp : engine.rules.Productive) (n : Nat) : (engine.generation n).engine.Lacks symbol := by
  rw [engine_generation]
  refine ⟨?_, all_deriveMany (fun _ _ _ _ => h.rules.not_mem_expand hp) h.generations _⟩
  rw [rules_deriveMany]
  exact h.rules

/-- A key ends before the first arrow of its line. -/
theorem lasting_keys_without_arrow : Lasting fun engine : Engine α =>
    engine.rules.All (fun key => ¬ ['-', '>'] <:+: key) fun _ => True where
  setAngle _ _ h := h
  setStep _ _ h := h
  reset _ _ := RuleSet.all_empty
  add engine raw h := by
    rcases rules_add engine raw with same | ⟨key, replacement, parsed, added⟩
    · rwa [same]
    · rw [added]
      exact h.add (Line.arrow_not_infix_of_parse? parsed) trivial
  expand _ _ h := h
  derive engine h := by rwa [rules_derive]

variable [Scalar α] [Trigonometry α]

/-- No request brings in a symbol but with the lines of a grammar. -/
theorem Lacks.serve {symbol : Symbol} {engine : Engine α} (h : engine.Lacks symbol)
    (hp : engine.rules.Productive) {request : Request α}
    (clean : ∀ raw ∈ request.lines, ∀ line, Line.parse? raw = some line →
      symbol ∉ line.symbols) :
    (engine.serve request).engine.Lacks symbol := by
  cases request with
  | setAngle degrees => exact ⟨h.rules, h.generations⟩
  | setStep distance => exact ⟨h.rules, h.generations⟩
  | expand word => exact ⟨h.rules, h.generations⟩
  | reset => exact lacks_reset engine symbol
  | add line => exact h.add (clean line (List.mem_singleton_self line))
  | load lines => exact lacks_load engine clean
  | loadText text => exact lacks_load engine clean
  | loadPreset preset => exact lacks_load engine clean
  | generation n => exact h.generation hp n
  | trace n skeleton =>
      rw [engine_serve rfl]
      exact h.generation hp n
  | grow n =>
      rw [engine_serve rfl]
      exact h.generation hp n

theorem lacks_serveAll (settings : Settings α) (tape : RandomTape) {symbol : Symbol}
    {history : List (Request α)}
    (clean : ∀ request ∈ history, ∀ raw ∈ request.lines, ∀ line, Line.parse? raw = some line →
      symbol ∉ line.symbols) :
    ((start settings tape).serveAll history).1.Lacks symbol := by
  have both := serveAll_induction
    (motive := fun engine : Engine α => engine.rules.Productive ∧ engine.Lacks symbol)
    (fun request hmem engine held => ⟨lasting_productive.serve held.1 request,
      held.2.serve held.1 (clean request hmem)⟩)
    ⟨RuleSet.productive_empty, lacks_reset (start settings tape) symbol⟩
  exact both.2

/-- No drawing leaves this symbol as a marker. -/
def NeverMarks (symbol : Symbol) (engine : Engine α) : Prop :=
  ∀ n skeleton,
    (∃ drawn, (engine.trace n skeleton).answer.1 = skeleton ++ drawn ∧
      ∀ marker ∈ drawn.markers, marker.symbol ≠ symbol) ∧
    ∀ grown, (engine.grow n).answer = .ok grown → ∀ marker ∈ grown.markers, marker.symbol ≠ symbol

theorem Lacks.neverMarks {symbol : Symbol} {engine : Engine α} (h : engine.Lacks symbol)
    (hp : engine.rules.Productive) : engine.NeverMarks symbol := by
  intro n skeleton
  have derived := answer_generation hp n
  have lacks : symbol ∉ (engine.generation n).engine.generations.wordOr n :=
    (h.generation hp n).generations.wordOr List.not_mem_nil n
  have plain : ∀ marker ∈ ((Walk.start engine.settings Skeleton.empty).read
      ((engine.generation n).engine.generations.wordOr n)).walk.skeleton.markers,
      marker.symbol ≠ symbol := by
    intro marker hmem
    rw [Walk.read_walk] at hmem
    have drawn : marker ∈ ((Turtle.start engine.settings).journey
        ((engine.generation n).engine.generations.wordOr n)).drawn.markers := by
      simpa [Walk.start] using hmem
    rintro rfl
    exact lacks (Turtle.symbol_mem_of_journey drawn)
  refine ⟨⟨_, congrArg Prod.fst (answer_trace_append derived skeleton), plain⟩, ?_⟩
  intro grown hgrown
  rw [answer_grow derived] at hgrown
  cases ended : ((Walk.start engine.settings Skeleton.empty).read
      ((engine.generation n).engine.generations.wordOr n)).outcome with
  | error fault =>
      rw [ended] at hgrown
      cases hgrown
  | ok =>
      rw [ended] at hgrown
      cases hgrown
      exact plain

/-- Whatever is asked of an engine, no space comes up in its rules, its generations or
its drawings, and no arrow in a key. If all lines were cut from texts or presets, no
line feed comes up either. -/
theorem spaces_never_come_up (settings : Settings α) (tape : RandomTape)
    (history : List (Request α)) :
    let engine := ((start settings tape).serveAll history).1
    engine.Lacks ' ' ∧ (∀ key ∈ engine.rules.keys, ¬ ['-', '>'] <:+: key) ∧
      engine.NeverMarks ' ' ∧
      ((∀ request ∈ history, request.bringsLines = false) →
        engine.Lacks '\n' ∧ engine.NeverMarks '\n') := by
  intro engine
  have hp : engine.rules.Productive := productive_serveAll settings tape history
  have no_space : engine.Lacks ' ' := lacks_serveAll settings tape
    fun _ _ raw _ line parsed hmem => (Line.mem_symbols_of_parse? parsed hmem).2 rfl
  have keys : engine.rules.All (fun key => ¬ ['-', '>'] <:+: key) fun _ => True :=
    lasting_keys_without_arrow.serveAll RuleSet.all_empty history
  refine ⟨no_space, keys.keys, no_space.neverMarks hp, fun cut => ?_⟩
  have no_newline : engine.Lacks '\n' := lacks_serveAll settings tape
    fun request hrequest raw hraw line parsed hmem =>
      Request.newline_not_mem_lines (cut request hrequest) raw hraw
        (Line.mem_symbols_of_parse? parsed hmem).1
  exact ⟨no_newline, no_newline.neverMarks hp⟩

/-- The arrow of the second line is written with a space inside, and the second
generation is a tabulator, which is no space. -/
theorem spaces_never_come_up_text_with_tabulator :
    let history : List (Request Float32) :=
      [.loadPreset .plant, .loadText " A \n A - > \t \r\n".toList, .expand "A A".toList, .grow 1]
    let engine := ((start Settings.standard (RandomTape.start fun _ => 0)).serveAll history).1
    (∀ request ∈ history, request.bringsLines = false) ∧
      engine.generations.words = #["A".toList, "\t".toList] ∧
      engine.Lacks '\n' ∧ engine.NeverMarks '\n' := by
  intro history engine
  have cut : ∀ request ∈ history, request.bringsLines = false := by
    simp [history, Request.bringsLines]
  have kept : engine.generations.words = #["A".toList, "\t".toList] := by decide
  obtain ⟨_, _, _, no_newline⟩ := spaces_never_come_up
    (Settings.standard : Settings Float32) (RandomTape.start fun _ => 0) history
  exact ⟨cut, kept, no_newline cut⟩

end Engine
end PlantGrammar
