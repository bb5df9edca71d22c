import PlantGrammar.Proofs.Turtle.Account

/-!
# Edits that a turtle does not notice

What a turtle draws is not read again, so a symbol that only draws can be taken out of a
word, and one that draws on its way can be made silent. An edit of this kind changes each
symbol or leaves it out. If every symbol leads each turtle where it did, so does the
word, and of the drawing there is left what the edit leaves of each symbol's part. A
bracket without a partner comes as much earlier as symbols were left out before it.
-/
namespace PlantGrammar

namespace Skeleton

variable {α : Type}

def withoutSegments (s : Skeleton α) : Skeleton α := { s with segments := #[] }

def withoutMarkers (s : Skeleton α) : Skeleton α := { s with markers := #[] }

theorem withoutSegments_append (s t : Skeleton α) :
    (s ++ t).withoutSegments = s.withoutSegments ++ t.withoutSegments := by
  ext1 <;> simp [withoutSegments]

theorem withoutMarkers_append (s t : Skeleton α) :
    (s ++ t).withoutMarkers = s.withoutMarkers ++ t.withoutMarkers := by
  ext1 <;> simp [withoutMarkers]

theorem append_withoutSegments (s t : Skeleton α) :
    s ++ t.withoutSegments = ⟨s.segments, (s ++ t).markers⟩ := by
  ext1 <;> simp [withoutSegments]

theorem append_withoutMarkers (s t : Skeleton α) :
    s ++ t.withoutMarkers = ⟨(s ++ t).segments, s.markers⟩ := by
  ext1 <;> simp [withoutMarkers]

end Skeleton

namespace Command

variable {α : Type} [Scalar α]

/-- The command only leaves a marker. -/
def isMark : Command α → Bool
  | mark _ => true
  | _ => false

theorem obey?_of_isMark [Trigonometry α] {command : Command α} (h : command.isMark)
    (turtle : Turtle α) :
    turtle.obey? command = some turtle ∧
      (command.drawn turtle.settings turtle.pose).withoutMarkers = Skeleton.empty := by
  cases command with
  | mark symbol => exact ⟨rfl, rfl⟩
  | _ => cases h

theorem drawn_of_not_isMark {command : Command α} (h : command.isMark = false)
    (settings : Settings α) (pose : Pose α) :
    (command.drawn settings pose).withoutMarkers = command.drawn settings pose := by
  cases command with
  | mark symbol => cases h
  | _ => rfl

end Command

variable {α : Type} [Scalar α] [Trigonometry α]

/-- No turtle is led elsewhere by what the edit makes of a symbol, and what is kept of a
drawing is what the edited symbols draw. -/
structure Unnoticed (edit : Symbol → Option Symbol) (keep : Skeleton α → Skeleton α) :
    Prop where
  keep_empty : keep Skeleton.empty = Skeleton.empty
  keep_append : ∀ s t, keep (s ++ t) = keep s ++ keep t
  replaced : ∀ {symbol other}, edit symbol = some other → ∀ turtle : Turtle α,
    turtle.obey? (Command.ofSymbol other) = turtle.obey? (Command.ofSymbol symbol) ∧
      (Command.ofSymbol other).drawn turtle.settings turtle.pose =
        keep ((Command.ofSymbol symbol).drawn turtle.settings turtle.pose)
  omitted : ∀ {symbol}, edit symbol = none → ∀ turtle : Turtle α,
    turtle.obey? (Command.ofSymbol symbol) = some turtle ∧
      keep ((Command.ofSymbol symbol).drawn turtle.settings turtle.pose) = Skeleton.empty

namespace Unnoticed

/-- The journey along an edited word. -/
theorem journey_filterMap {edit : Symbol → Option Symbol} {keep : Skeleton α → Skeleton α}
    (h : Unnoticed edit keep) (turtle : Turtle α) (w : Word) :
    turtle.journey (w.filterMap edit) =
      ⟨(turtle.journey w).turtle, keep (turtle.journey w).drawn,
        (turtle.journey w).stop.map fun k => ((w.take k).filterMap edit).length⟩ := by
  induction w generalizing turtle with
  | nil => simp [h.keep_empty]
  | cons symbol w ih =>
      cases hedit : edit symbol with
      | none =>
          obtain ⟨stays, undrawn⟩ := h.omitted hedit turtle
          rw [List.filterMap_cons_none hedit, ih, Turtle.journey_cons_of_some stays]
          simp [h.keep_append, undrawn, hedit, Function.comp_def]
      | some other =>
          obtain ⟨same, redrawn⟩ := h.replaced hedit turtle
          rw [List.filterMap_cons_some hedit]
          cases hobey : turtle.obey? (Command.ofSymbol symbol) with
          | none =>
              rw [hobey] at same
              rw [Turtle.journey_cons_of_none hobey, Turtle.journey_cons_of_none same]
              simp [h.keep_empty]
          | some next =>
              rw [hobey] at same
              rw [Turtle.journey_cons_of_some hobey, Turtle.journey_cons_of_some same, ih, redrawn]
              simp [h.keep_append, hedit, Function.comp_def]

end Unnoticed

/-- A step that draws becomes a silent one, and all other symbols stay. -/
def Symbol.silenced (symbol : Symbol) : Symbol := if symbol = 'F' then 'f' else symbol

theorem unnoticed_silenced :
    Unnoticed (some ∘ Symbol.silenced) (Skeleton.withoutSegments : Skeleton α → Skeleton α) := by
  refine ⟨rfl, Skeleton.withoutSegments_append, fun hedit turtle => ?_, fun hedit => ?_⟩
  · cases hedit
    unfold Symbol.silenced
    split
    · rename_i steps
      subst steps
      exact ⟨rfl, rfl⟩
    · rename_i symbol still
      refine ⟨rfl, ?_⟩
      unfold Command.ofSymbol
      split
      all_goals first | rfl | contradiction
  · cases hedit

theorem unnoticed_unmarked :
    Unnoticed (Option.guard fun symbol => !(Command.ofSymbol symbol : Command α).isMark)
      (Skeleton.withoutMarkers : Skeleton α → Skeleton α) := by
  refine ⟨rfl, Skeleton.withoutMarkers_append, fun hedit turtle => ?_, fun hedit turtle => ?_⟩
  · obtain ⟨rfl, plain⟩ := Option.guard_eq_some_iff.1 hedit
    exact ⟨rfl, (Command.drawn_of_not_isMark (by simpa using plain) _ _).symm⟩
  · exact Command.obey?_of_isMark (by simpa [Option.guard_eq_none_iff] using hedit) turtle

namespace Turtle

/-- A bracket that ends a journey has all symbols before it in the word. -/
theorem length_take_of_stop {turtle : Turtle α} {w : Word} {k : Nat}
    (hstop : (turtle.journey w).stop = some k) : (w.take k).length = k := by
  have inside := (List.getElem?_eq_some_iff.1 (first_close_of_stop hstop).1).1
  exact List.length_take_of_le (Nat.le_of_lt inside)

theorem journey_silenced (turtle : Turtle α) (w : Word) :
    turtle.journey (w.map Symbol.silenced) =
      ⟨(turtle.journey w).turtle, (turtle.journey w).drawn.withoutSegments,
        (turtle.journey w).stop⟩ := by
  rw [← List.filterMap_eq_map, unnoticed_silenced.journey_filterMap]
  congr 1
  cases hstop : (turtle.journey w).stop with
  | none => rfl
  | some k =>
      rw [Option.map_some, List.filterMap_eq_map, List.length_map, length_take_of_stop hstop]

theorem journey_unmarked (turtle : Turtle α) (w : Word) :
    let plain := fun symbol => !(Command.ofSymbol symbol : Command α).isMark
    turtle.journey (w.filter plain) =
      ⟨(turtle.journey w).turtle, (turtle.journey w).drawn.withoutMarkers,
        (turtle.journey w).stop.map fun k => ((w.take k).filter plain).length⟩ := by
  intro plain
  rw [← List.filterMap_eq_filter, unnoticed_unmarked.journey_filterMap, List.filterMap_eq_filter]

end Turtle

namespace Walk

/-- What a walk draws does not lead it anywhere. If its steps are silenced, it ends in the
same way with the same turtle and the same markers, and adds no segment. If the symbols
that are commands to mark are taken out of its word, it ends with the same turtle and the
same segments and adds no marker, and it fails exactly if it did, as many symbols earlier
as were taken out before the bracket. -/
theorem drawing_never_leads (walk : Walk α) (w : Word) :
    let reading := walk.read w
    let silent := walk.read (w.map Symbol.silenced)
    let isMark := fun symbol => (Command.ofSymbol symbol : Command α).isMark
    let bare := walk.read (w.filter fun symbol => !isMark symbol)
    (silent.outcome = reading.outcome ∧ silent.walk.turtle = reading.walk.turtle ∧
      silent.walk.skeleton = ⟨walk.skeleton.segments, reading.walk.skeleton.markers⟩) ∧
    (bare.walk.turtle = reading.walk.turtle ∧
      bare.walk.skeleton = ⟨reading.walk.skeleton.segments, walk.skeleton.markers⟩ ∧
      (bare.outcome = .ok () ↔ reading.outcome = .ok ()) ∧
      ∀ fault, reading.outcome = .error fault →
        ∃ k j, fault = .unmatchedBracket k ∧ bare.outcome = .error (.unmatchedBracket j) ∧
          j + (w.take k).countP isMark = k) := by
  intro reading silent isMark bare
  have silenced := Turtle.journey_silenced walk.turtle w
  have unmarked := Turtle.journey_unmarked walk.turtle w
  refine ⟨⟨?_, ?_, ?_⟩, ?_, ?_, ?_, fun fault failed => ?_⟩
  · rw [read_outcome, read_outcome, silenced]
    rfl
  · rw [read_walk, read_walk, silenced]
  · rw [read_walk, read_walk, silenced, Skeleton.append_withoutSegments]
  · rw [read_walk, read_walk, unmarked]
  · rw [read_walk, read_walk, unmarked, Skeleton.append_withoutMarkers]
  · rw [read_ok_iff, read_ok_iff, unmarked, Option.map_eq_none_iff]
  · cases hstop : (walk.turtle.journey w).stop with
    | none =>
        rw [(read_ok_iff walk w).2 hstop] at failed
        cases failed
    | some k =>
        rw [read_outcome_of_stop hstop] at failed
        cases failed
        have earlier : (walk.turtle.journey (w.filter fun symbol => !isMark symbol)).stop =
            some ((w.take k).filter fun symbol => !isMark symbol).length := by
          rw [unmarked, hstop, Option.map_some]
        refine ⟨k, _, rfl, read_outcome_of_stop earlier, ?_⟩
        have parts := List.length_eq_countP_add_countP isMark (l := w.take k)
        rw [Turtle.length_take_of_stop hstop] at parts
        rw [← List.countP_eq_length_filter]
        simp only [Bool.not_eq_true, Bool.decide_eq_false] at parts
        omega

/-- Three marks come before the bracket that has no partner, one of them inside a group,
and there is a segment and a marker from before. -/
theorem drawing_never_leads_before_unmatched_bracket :
    let there : Skeleton Float32 := ⟨#[⟨Vec.zero, Vec.zero⟩], #[⟨Vec.zero, 'é'⟩]⟩
    let reading := (start Settings.standard there).read "L[+FéF]∧]FL".toList
    let silent := (start Settings.standard there).read "L[+féf]∧]fL".toList
    let bare := (start Settings.standard there).read "[+FF]]F".toList
    reading.outcome = .error (.unmatchedBracket 8) ∧
      silent.outcome = .error (.unmatchedBracket 8) ∧
      bare.outcome = .error (.unmatchedBracket 5) ∧
      silent.walk = ⟨reading.walk.turtle, ⟨there.segments, reading.walk.skeleton.markers⟩⟩ ∧
      bare.walk = ⟨reading.walk.turtle, ⟨reading.walk.skeleton.segments, there.markers⟩⟩ := by
  intro there reading silent bare
  have failed : reading.outcome = .error (.unmatchedBracket 8) := rfl
  obtain ⟨⟨same, silenced, withoutSegments⟩, cleared, withoutMarkers, _, stops⟩ :=
    drawing_never_leads (start Settings.standard there) "L[+FéF]∧]FL".toList
  obtain ⟨k, j, position, earlier, counted⟩ := stops _ failed
  cases position
  have marks : ("L[+FéF]∧]FL".toList.take 8).countP
      (fun symbol => (Command.ofSymbol symbol : Command Float32).isMark) = 3 := by decide
  obtain rfl : j = 5 := by omega
  exact ⟨failed, same.trans failed, earlier, Walk.ext silenced withoutSegments,
    Walk.ext cleared withoutMarkers⟩

end Walk
end PlantGrammar
