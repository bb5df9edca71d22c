import PlantGrammar.Engine.Request
import PlantGrammar.Proofs.Engine.Grammar
import PlantGrammar.Proofs.Rule.Spaces

/-!
# Texts with returns before their line feeds

A text is cut at its line feeds, so a return before a line feed comes to stand at the
end of a line. There it is dropped, with the returns that the line ended in before. The
line is read as if the return were not there, and an engine keeps nothing of a line but
what it is read as.
-/
namespace PlantGrammar

namespace Word

/-- The text with a return before each line feed. -/
def withReturns (text : Word) : Word :=
  text.flatMap fun symbol => if symbol = '\n' then ['\r', '\n'] else [symbol]

theorem withReturns_cons (symbol : Symbol) (text : Word) :
    withReturns (symbol :: text) =
      if symbol = '\n' then '\r' :: '\n' :: withReturns text else symbol :: withReturns text := by
  by_cases feed : symbol = '\n' <;> simp [withReturns, feed]

/-- Every line gets a return at its end but the last one, which no line feed ends. Read from
the front, a line feed ends a line that is empty so far, with a return in it, and any other
symbol goes to the front of the first line. -/
theorem lines_withReturns (text : Word) :
    lines text.withReturns =
      (lines text).dropLast.map (· ++ ['\r']) ++ (lines text).getLast?.toList := by
  induction text with
  | nil => rfl
  | cons symbol text ih =>
      obtain ⟨first, rest, hlines⟩ : ∃ first rest, lines text = first :: rest :=
        List.exists_cons_of_ne_nil (List.splitOn_ne_nil '\n' text)
      rw [withReturns_cons, lines_cons symbol text]
      by_cases feed : symbol = '\n'
      · have return_feed : ('\r' : Symbol) ≠ '\n' := by decide
        simp only [if_pos feed, lines_cons, if_neg return_feed, ih]
        simp [hlines]
      · simp only [if_neg feed, lines_cons, ih, hlines]
        cases rest <;> simp

end Word

namespace Line

/-- A return at the end of a raw line is dropped, whatever stands before it. -/
theorem parse?_append_return (raw : Word) : parse? (raw ++ ['\r']) = parse? raw := by
  have dropped : dropReturns (raw ++ ['\r']) = dropReturns raw :=
    dropReturns_append_replicate raw 1
  rw [parse?_eq_parse?_iff, dropped]

theorem map_parse?_withReturns (text : Word) :
    text.withReturns.lines.map parse? = text.lines.map parse? := by
  have whole : text.lines.dropLast ++ text.lines.getLast?.toList = text.lines := by
    cases last : text.lines.getLast? with
    | none => simp [List.getLast?_eq_none_iff.1 last]
    | some raw => exact List.dropLast_append_getLast? raw last
  calc text.withReturns.lines.map parse?
      = text.lines.dropLast.map parse? ++ text.lines.getLast?.toList.map parse? := by
        rw [Word.lines_withReturns, List.map_append, List.map_map]
        simp only [Function.comp_def, parse?_append_return]
    _ = text.lines.map parse? := by rw [← List.map_append, whole]

/-- What is gathered from lines one by one depends on what they are read as. -/
theorem filterMap_parse?_congr {β : Type} {lines others : List Word}
    (same : lines.map parse? = others.map parse?) (part : Line → Option β) :
    (lines.filterMap fun raw => (parse? raw).bind part) =
      others.filterMap fun raw => (parse? raw).bind part := by
  have read : ∀ raws : List Word, (raws.filterMap fun raw => (parse? raw).bind part) =
      (raws.map parse?).filterMap (·.bind part) := fun raws => by
    rw [List.filterMap_map]
    rfl
  rw [read, read, same]

end Line

namespace Engine

variable {α : Type}

/-- Grammars whose lines are read alike are the same grammar. -/
theorem engine_load_eq_of_map_parse? (engine : Engine α) {lines others : List Word}
    (same : lines.map Line.parse? = others.map Line.parse?) :
    (engine.load lines).engine = (engine.load others).engine := by
  have rules : Line.rules lines = Line.rules others := Line.filterMap_parse?_congr same Line.rule?
  have initiators : Line.initiators lines = Line.initiators others :=
    Line.filterMap_parse?_congr same Line.initiator?
  have rule_sets : RuleSet.ofLines lines = RuleSet.ofLines others :=
    RuleSet.ofLines_eq_iff.2 fun key => by rw [Line.replacements, Line.replacements, rules]
  rw [engine_load, engine_load, rule_sets, initiators]

variable [Scalar α] [Trigonometry α]

/-- A text leaves the same engine behind if each of its line feeds has a return before
it, also where there are returns already: the same alternatives in the same order, the
same generations, the same settings and the same place of the tape. So nothing that is
asked of it later shows which of the texts it was. -/
theorem returns_before_line_feeds_change_nothing (engine : Engine α) (text : Word) :
    let plain := (engine.loadText text).engine
    let returned := (engine.loadText text.withReturns).engine
    returned = plain ∧
      ∀ (history : List (Request α)) (request : Request α),
        ((returned.serveAll history).1.serve request).answer =
          ((plain.serveAll history).1.serve request).answer := by
  intro plain returned
  have same : returned = plain :=
    engine_load_eq_of_map_parse? engine (Line.map_parse?_withReturns text)
  refine ⟨same, fun history request => ?_⟩
  rw [same]

end Engine
end PlantGrammar
