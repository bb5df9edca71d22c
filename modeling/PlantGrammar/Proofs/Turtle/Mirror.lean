import PlantGrammar.Proofs.Binary.Arithmetic
import PlantGrammar.Proofs.Turtle.Journey

/-!
# Mirrored words

Each kind of turn has two symbols, whose factors differ in sign. The factor is only used
in its product with the angle, and in such a product a minus sign may stand at either
factor. So the opposite angle makes of every symbol what its counterpart is otherwise,
and a turtle with the opposite angle goes through a word as one with the angle itself
goes through the mirrored word.
-/
namespace PlantGrammar

/-- The symbol for the same kind of turn in the other sense. No other symbol changes. -/
def Symbol.mirrored : Symbol → Symbol
  | '+' => '-'
  | '-' => '+'
  | '&' => '^'
  | '^' => '&'
  | '\\' => '/'
  | '/' => '\\'
  | symbol => symbol

theorem Symbol.mirrored_ne {symbol other : Symbol} (h : symbol ≠ other)
    (fixed : other ∉ "+-&^\\/".toList) : symbol.mirrored ≠ other := by
  unfold mirrored
  split <;> first | assumption | (rintro rfl; exact fixed (by decide))

/-- The same settings but for the sense of all turns. -/
def Settings.opposite {α : Type} [Neg α] (settings : Settings α) : Settings α :=
  { settings with angle := -settings.angle }

def Turtle.opposite {α : Type} [Neg α] (turtle : Turtle α) : Turtle α :=
  { turtle with settings := turtle.settings.opposite }

section

variable {α : Type} [Scalar α] (crosses : ∀ a b : α, -a * b = a * -b)
  (cancels : ∀ a b : α, -a * -b = a * b)

namespace Command

theorem drawn_mirrored (settings : Settings α) (symbol : Symbol) (pose : Pose α) :
    (ofSymbol symbol).drawn settings.opposite pose =
      (ofSymbol symbol.mirrored).drawn settings pose := by
  unfold Symbol.mirrored
  split <;> rfl

variable [Trigonometry α]

include crosses cancels

theorem poseAfter_mirrored (settings : Settings α) (symbol : Symbol) (pose : Pose α) :
    (ofSymbol symbol).poseAfter settings.opposite pose =
      (ofSymbol symbol.mirrored).poseAfter settings pose := by
  unfold Symbol.mirrored
  split
  · exact congrArg (Pose.yaw · pose) (crosses settings.angle 1)
  · exact congrArg (Pose.yaw · pose) (cancels settings.angle 1)
  · exact congrArg (Pose.pitch · pose) (crosses settings.angle 1)
  · exact congrArg (Pose.pitch · pose) (cancels settings.angle 1)
  · exact congrArg (Pose.roll · pose) (crosses settings.angle 1)
  · exact congrArg (Pose.roll · pose) (cancels settings.angle 1)
  · unfold ofSymbol
    split <;> first | rfl | contradiction

end Command

namespace Turtle

variable [Trigonometry α]

include crosses cancels

/-- Brackets are their own counterparts and do not look at the angle. Any other symbol only
moves the pose, and so does its counterpart. -/
theorem obey?_opposite (turtle : Turtle α) (symbol : Symbol) :
    turtle.opposite.obey? (Command.ofSymbol symbol) =
      (turtle.obey? (Command.ofSymbol symbol.mirrored)).map opposite := by
  by_cases hopen : symbol = '['
  · subst hopen
    rfl
  · by_cases hclose : symbol = ']'
    · subst hclose
      cases hsaved : turtle.saved with
      | nil =>
          have saved : turtle.opposite.saved = [] := hsaved
          rw [obey?_close_of_nil saved]
          exact congrArg (Option.map opposite) (obey?_close_of_nil hsaved).symm
      | cons pose rest =>
          have saved : turtle.opposite.saved = pose :: rest := hsaved
          rw [obey?_close_of_cons saved]
          exact congrArg (Option.map opposite) (obey?_close_of_cons hsaved).symm
    · rw [obey?_plain hopen hclose, obey?_plain (Symbol.mirrored_ne hopen (by decide))
        (Symbol.mirrored_ne hclose (by decide))]
      have change := funext (Command.poseAfter_mirrored crosses cancels turtle.settings symbol)
      exact congrArg (fun change => some (turtle.opposite.changePose change)) change

/-- A turtle with the opposite angle does along a word what the turtle itself does along
the mirrored word. -/
theorem journey_opposite (turtle : Turtle α) (w : Word) :
    turtle.opposite.journey w =
      ⟨(turtle.journey (w.map Symbol.mirrored)).turtle.opposite,
        (turtle.journey (w.map Symbol.mirrored)).drawn,
        (turtle.journey (w.map Symbol.mirrored)).stop⟩ := by
  have nothing : id Skeleton.empty = (Skeleton.empty : Skeleton α) := rfl
  exact journey_image nothing (fun _ _ => rfl) (obey?_opposite crosses cancels)
    (fun turtle symbol => Command.drawn_mirrored turtle.settings symbol turtle.pose) turtle w

end Turtle

namespace Walk

variable [Trigonometry α]

include crosses cancels

theorem follow_opposite (settings : Settings α) (before : Skeleton α) (word : Word) :
    (start settings.opposite before).follow 0 word =
      let mirrored := (start settings before).follow 0 (word.map Symbol.mirrored)
      (⟨mirrored.1.turtle.opposite, mirrored.1.skeleton⟩, mirrored.2) := by
  have journey : (start settings.opposite before).turtle.journey word = _ :=
    Turtle.journey_opposite crosses cancels (Turtle.start settings) word
  rw [follow_eq, follow_eq, journey]
  rfl

theorem read_opposite (settings : Settings α) (before : Skeleton α) (word : Word) :
    (start settings.opposite before).read word =
      let mirrored := (start settings before).read (word.map Symbol.mirrored)
      ⟨⟨mirrored.walk.turtle.opposite, mirrored.walk.skeleton⟩, mirrored.outcome,
        mirrored.events⟩ := by
  rw [read, read, follow_opposite crosses cancels, List.length_map]
  cases (start settings before).follow 0 (word.map Symbol.mirrored) with
  | mk last outcome => cases outcome <;> rfl

end Walk

end

namespace Walk

/-- A fresh turtle with the opposite angle ends as one with the angle itself does that
reads the mirrored word: at the same bracket without a partner if at any, with the same
drawing, the same pose and the same saved poses, to the last bit. -/
theorem opposite_angle_mirrors_word (angle step : Float32) (before : Skeleton Float32)
    (word : Word) :
    let opposite := (start ⟨-angle, step⟩ before).read word
    let mirrored := (start ⟨angle, step⟩ before).read (word.map Symbol.mirrored)
    opposite.outcome = mirrored.outcome ∧ opposite.events = mirrored.events ∧
      opposite.walk.skeleton = mirrored.walk.skeleton ∧
      opposite.walk.turtle.pose = mirrored.walk.turtle.pose ∧
      opposite.walk.turtle.saved = mirrored.walk.turtle.saved := by
  intro opposite mirrored
  have same := read_opposite Single.neg_mul_comm Single.neg_mul_neg ⟨angle, step⟩ before word
  have reading : opposite = _ := same
  rw [reading]
  exact ⟨rfl, rfl, rfl, rfl, rfl⟩

end Walk
end PlantGrammar
