import PlantGrammar.Word

/-!
# Built-in grammars

Each grammar is an initiator followed by its rules, as lines.
-/
namespace PlantGrammar

inductive Preset where
  /-- A symmetric bush. -/
  | bush
  /-- A sparse plant that forks. -/
  | sparse
  /-- A weed with doubled stems. -/
  | weed
  /-- A fern that grows from an apex which is not drawn. -/
  | fern
  /-- A twig with paired shoots. -/
  | twig
  /-- A plant in space that chooses among its rules, with leaves. -/
  | plant
  deriving DecidableEq, Repr

namespace Preset

def all : List Preset := [bush, sparse, weed, fern, twig, plant]

/-- The grammar as text. -/
def texts : Preset → List String
  | bush => ["F", "F -> F[+F]F[-F]F"]
  | sparse => ["F", "F -> [+F]F[-F][F]"]
  | weed => ["F", "F -> FF-[-F+F+F]+[+F-F-F]"]
  | fern => ["X", "X -> F[+X]F[-X]+X", "F -> FF"]
  | twig => ["X", "X -> F[+X][-X]FX", "F -> FF"]
  | plant =>
      ["R", "R -> FA", "A -> [&FL!A]/////[&FL!A]///////[&FL!A]", "F -> S/////F", "F -> LS//L//F",
        "S -> FL", "L -> [^^\x7b-f+f+f-|-f+f+f\x7d]"]

def lines (preset : Preset) : List Word := preset.texts.map String.toList

def name : Preset → String
  | bush => "bush"
  | sparse => "sparse"
  | weed => "weed"
  | fern => "fern"
  | twig => "twig"
  | plant => "plant"

/-- The name as a title. -/
def title : Preset → String
  | bush => "Bush"
  | sparse => "Sparse"
  | weed => "Weed"
  | fern => "Fern"
  | twig => "Twig"
  | plant => "Plant"

/-- Upper and lower case of the letters from a to z do not matter in a name. -/
def ofName? (text : String) : Option Preset :=
  all.find? fun preset => preset.name.toList = text.toList.map Char.toLower

def ofTitle? (text : String) : Option Preset := all.find? fun preset => preset.title = text

theorem mem_all (preset : Preset) : preset ∈ all := by cases preset <;> decide

theorem ofName?_name (preset : Preset) : ofName? preset.name = some preset := by
  cases preset <;> decide

theorem ofTitle?_title (preset : Preset) : ofTitle? preset.title = some preset := by
  cases preset <;> decide

end Preset
end PlantGrammar
