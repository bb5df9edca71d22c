import Mathlib.Data.Finset.Card
import PlantGrammar.Proofs.Engine.Loading
import PlantGrammar.Proofs.Rule.Keys

/-!
# What a loaded grammar is

The lines of a grammar are of three kinds, and each kind goes to one place. The rules
for a key become its alternatives, the initiators become the first generations, and
the blank lines are reported, all of them in the order of the lines. Nothing else of
the lines matters, and nothing of an earlier grammar. So two grammars are the same
exactly if they have the same initiators and the same replacements for each key.
-/
namespace PlantGrammar

namespace Line

def rule? : Line → Option (Word × Word)
  | rule key replacement => some (key, replacement)
  | initiator _ => none

/-- The rules among the lines, each as its key with its replacement. -/
def rules (lines : List Word) : List (Word × Word) :=
  lines.filterMap fun raw => (parse? raw).bind rule?

/-- What the rules for a key replace it with. -/
def replacements (key : Word) (lines : List Word) : List Word :=
  ((rules lines).filter fun rule => rule.1 = key).map Prod.snd

/-- The keys of the rules, as often as there are rules for them. -/
def ruleKeys (lines : List Word) : List Word := (rules lines).map Prod.fst

def isBlank (raw : Word) : Bool := (parse? raw).isNone

theorem replacements_nil (key : Word) : replacements key [] = [] := rfl

theorem replacements_cons_of_rule {raw key replacement : Word}
    (h : (parse? raw).bind rule? = some (key, replacement)) (other : Word) (rest : List Word) :
    replacements other (raw :: rest) =
      if key = other then replacement :: replacements other rest else replacements other rest := by
  by_cases same : key = other <;> simp [replacements, rules, h, same]

theorem replacements_cons_of_not_rule {raw : Word} (h : (parse? raw).bind rule? = none)
    (key : Word) (rest : List Word) :
    replacements key (raw :: rest) = replacements key rest := by
  simp [replacements, rules, h]

/-- A key has a replacement exactly if a rule is for it. -/
theorem replacements_ne_nil_iff {key : Word} {lines : List Word} :
    replacements key lines ≠ [] ↔ key ∈ ruleKeys lines := by
  simp [replacements, ruleKeys, List.filter_eq_nil_iff]

end Line

namespace RuleSet

theorem addLine_eq (rules : RuleSet) (raw : Word) :
    rules.addLine raw =
      match (Line.parse? raw).bind Line.rule? with
      | some (key, replacement) => rules.add key replacement
      | none => rules := by
  rw [addLine]
  cases Line.parse? raw with
  | none => rfl
  | some line => cases line <;> rfl

/-- Rule lines put their replacements behind the alternatives there are. -/
theorem alternatives?_foldl_addLine (rules : RuleSet) (lines : List Word) (key : Word) :
    (lines.foldl addLine rules).alternatives? key =
      if Line.replacements key lines = [] then rules.alternatives? key
      else some ((rules.alternatives? key).getD [] ++ Line.replacements key lines) := by
  induction lines generalizing rules with
  | nil => simp [Line.replacements_nil]
  | cons raw rest ih =>
      rw [List.foldl_cons, ih, addLine_eq]
      cases found : (Line.parse? raw).bind Line.rule? with
      | none => rw [Line.replacements_cons_of_not_rule found]
      | some rule =>
          obtain ⟨other, replacement⟩ := rule
          simp only [alternatives?_add, Line.replacements_cons_of_rule found]
          by_cases same : other = key
          · subst same
            by_cases last : Line.replacements other rest = []
            · simp [last]
            · simp [last]
          · have different : ¬ key = other := fun h => same h.symm
            simp only [if_neg same, if_neg different]

theorem alternatives?_ofLines (lines : List Word) (key : Word) :
    (ofLines lines).alternatives? key =
      if Line.replacements key lines = [] then none else some (Line.replacements key lines) := by
  rw [ofLines, alternatives?_foldl_addLine, alternatives?_empty]
  rfl

theorem mem_keys_ofLines {lines : List Word} {key : Word} :
    key ∈ (ofLines lines).keys ↔ key ∈ Line.ruleKeys lines := by
  rw [mem_keys_iff, alternatives?_ofLines, ← Line.replacements_ne_nil_iff]
  by_cases silent : Line.replacements key lines = [] <;> simp [silent]

theorem size_ofLines (lines : List Word) :
    (ofLines lines).size = (Line.ruleKeys lines).toFinset.card := by
  have same_keys : (ofLines lines).keys.toFinset = (Line.ruleKeys lines).toFinset := by
    ext key
    rw [List.mem_toFinset, List.mem_toFinset, mem_keys_ofLines]
  rw [← same_keys, List.toFinset_card_of_nodup (nodup_keys _), size, keys, List.length_map]

/-- The replacements for each key are all that matters about rule lines. -/
theorem ofLines_eq_iff {lines others : List Word} :
    ofLines lines = ofLines others ↔
      ∀ key, Line.replacements key lines = Line.replacements key others := by
  constructor
  · intro same key
    have alternatives : (ofLines lines).alternatives? key = (ofLines others).alternatives? key := by
      rw [same]
    rw [alternatives?_ofLines, alternatives?_ofLines] at alternatives
    by_cases silent : Line.replacements key lines = [] <;>
      by_cases silent' : Line.replacements key others = [] <;> simp_all
  · intro same
    refine eq_of_alternatives? fun key => ?_
    rw [alternatives?_ofLines, alternatives?_ofLines, same]

end RuleSet

namespace Generations

theorem ofInitiators_inj {words others : List Word} :
    ofInitiators words = ofInitiators others ↔ words = others := by
  constructor
  · intro same
    have arrays : words.toArray = others.toArray := congrArg Generations.words same
    simpa using arrays
  · rintro rfl
    rfl

end Generations

namespace Engine

variable {α : Type}

/-- Blank lines are reported as they are given, and no other line is. -/
theorem events_addAll (engine : Engine α) (lines : List Word) :
    (engine.addAll lines).events = (lines.filter Line.isBlank).map Event.skippedLine := by
  induction lines generalizing engine with
  | nil => rfl
  | cons raw rest ih =>
      show (engine.add raw).events ++ ((engine.add raw).engine.addAll rest).events = _
      rw [ih]
      cases parsed : Line.parse? raw with
      | none => simp [add, Line.isBlank, parsed]
      | some line => cases line <;> simp [add, Line.isBlank, parsed]

theorem events_load (engine : Engine α) (lines : List Word) :
    (engine.load lines).events =
      (lines.filter Line.isBlank).map Event.skippedLine ++
        [.loaded (Line.ruleKeys lines).toFinset.card (Line.firstInitiator lines)] := by
  have keys : (engine.reset.addAll lines).engine.rules.size =
      (Line.ruleKeys lines).toFinset.card := by
    rw [← RuleSet.size_ofLines, ← rules_load engine lines]
    rfl
  have first : (engine.reset.addAll lines).engine.generations.wordOr 0 =
      Line.firstInitiator lines := by
    show (engine.load lines).engine.generations.wordOr 0 = _
    rw [generations_load, Line.firstInitiator]
    cases Line.initiators lines with
    | nil => rfl
    | cons word words => rfl
  show (engine.reset.addAll lines).events ++ [Event.loaded _ _] = _
  rw [events_addAll, keys, first]

/-- The engine after a grammar was loaded, from settings, tape and lines alone. -/
theorem engine_load (engine : Engine α) (lines : List Word) :
    (engine.load lines).engine =
      ⟨RuleSet.ofLines lines, Generations.ofInitiators (Line.initiators lines),
        engine.settings, engine.tape⟩ := by
  rw [← rules_load engine, ← generations_load engine, ← settings_load engine lines,
    ← tape_load engine lines]

/-- Loading a grammar gives each key the replacements of its rules, and makes the
initiators the generations, before any pass. Settings and tape go on, and blank lines
are reported before the grammar is. An engine that had no grammar before is left in the
same state, and grammars whose lines stand in another order are the same as long as the
initiators keep their order and the replacements for each key theirs. -/
theorem loading_depends_on_lines_alone (engine : Engine α) (lines : List Word) :
    let loaded := engine.load lines
    (∀ key, loaded.engine.rules.alternatives? key =
      if Line.replacements key lines = [] then none else some (Line.replacements key lines)) ∧
    loaded.engine.rules.size = (Line.ruleKeys lines).toFinset.card ∧
    loaded.engine.generations =
      ⟨(Line.initiators lines).getLast?.getD [], (Line.initiators lines).toArray, 0⟩ ∧
    loaded.engine.settings = engine.settings ∧ loaded.engine.tape = engine.tape ∧
    loaded.events = (lines.filter Line.isBlank).map Event.skippedLine ++
      [.loaded (Line.ruleKeys lines).toFinset.card (Line.firstInitiator lines)] ∧
    loaded.events.map Event.level = (lines.filter Line.isBlank).map (fun _ => .trace) ++ [.debug] ∧
    loaded = (start engine.settings engine.tape).load lines ∧
    ∀ others, (engine.load others).engine = loaded.engine ↔
      Line.initiators others = Line.initiators lines ∧
        ∀ key, Line.replacements key others = Line.replacements key lines := by
  intro loaded
  refine ⟨fun key => ?_, ?_, generations_load engine lines, settings_load engine lines,
    tape_load engine lines, events_load engine lines, ?_, rfl, fun others => ?_⟩
  · rw [rules_load, RuleSet.alternatives?_ofLines]
  · rw [rules_load, RuleSet.size_ofLines]
  · show (engine.load lines).events.map Event.level = _
    rw [events_load, List.map_append, List.map_map]
    rfl
  · show (engine.load others).engine = (engine.load lines).engine ↔ _
    rw [engine_load, engine_load, Engine.mk.injEq, RuleSet.ofLines_eq_iff,
      Generations.ofInitiators_inj]
    simp only [and_true]
    exact and_comm

end Engine
end PlantGrammar
