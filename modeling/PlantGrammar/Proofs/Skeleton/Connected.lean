import PlantGrammar.Proofs.Engine.Drawing

/-!
# Skeletons that hang together

A turtle that draws wherever it goes leaves no gap. It stands at the origin or
where some segment ends, and so it did at each pose that it has saved. Each
segment therefore starts at the origin or at the end of an earlier one. Places
are copied and never worked out a second time, so this holds to the last bit and
for any numbers, those that are not finite included.
-/
namespace PlantGrammar

/-- A symbol is a step without drawing only if it says so. -/
theorem Command.ofSymbol_ne_move {α : Type} [Scalar α] {symbol : Symbol} (h : symbol ≠ 'f') :
    (Command.ofSymbol symbol : Command α) ≠ .move := by
  intro silent
  unfold Command.ofSymbol at silent
  split at silent <;> contradiction

namespace Skeleton

variable {α : Type} [Scalar α]

/-- The place is the origin, or one of the segments ends there. -/
def Reached (segments : List (Segment α)) (place : Vec α) : Prop :=
  place = Vec.zero ∨ ∃ segment ∈ segments, segment.finish = place

theorem Reached.append {segments : List (Segment α)} {place : Vec α}
    (h : Reached segments place) (more : List (Segment α)) :
    Reached (segments ++ more) place := by
  rcases h with origin | ⟨segment, hmem, ends⟩
  · exact .inl origin
  · exact .inr ⟨segment, List.mem_append_left more hmem, ends⟩

theorem reached_finish (segments : List (Segment α)) (segment : Segment α) :
    Reached (segments ++ [segment]) segment.finish :=
  .inr ⟨segment, List.mem_append_right segments List.mem_cons_self, rfl⟩

/-- Each segment starts at a place that earlier ones reach, and each marker stands
at a place that the segments reach. -/
structure Connected (s : Skeleton α) : Prop where
  segments : ∀ earlier segment later, s.segments.toList = earlier ++ segment :: later →
    Reached earlier segment.start
  markers : ∀ marker ∈ s.markers, Reached s.segments.toList marker.position

theorem connected_empty : (empty : Skeleton α).Connected := by
  constructor
  · intro earlier segment later split
    exact absurd split.symm (List.append_ne_nil_of_right_ne_nil _ (List.cons_ne_nil _ _))
  · intro marker hmem
    exact absurd hmem (Array.not_mem_empty marker)

theorem Connected.addSegment {s : Skeleton α} (h : s.Connected) {segment : Segment α}
    (starts : Reached s.segments.toList segment.start) : (s.addSegment segment).Connected := by
  constructor
  · intro earlier other later split
    rw [segments_addSegment, Array.toList_push] at split
    rcases List.eq_nil_or_concat later with rfl | ⟨before, last, rfl⟩
    · obtain ⟨same, new⟩ := List.append_inj' split rfl
      cases new
      rwa [← same]
    · rw [List.concat_eq_append, ← List.cons_append, ← List.append_assoc] at split
      obtain ⟨old, _⟩ := List.append_inj' split rfl
      exact h.segments earlier other before old
  · intro marker hmem
    rw [markers_addSegment] at hmem
    rw [segments_addSegment, Array.toList_push]
    exact (h.markers marker hmem).append [segment]

theorem Connected.addMarker {s : Skeleton α} (h : s.Connected) {marker : Marker α}
    (stands : Reached s.segments.toList marker.position) : (s.addMarker marker).Connected := by
  refine ⟨h.segments, fun other hmem => ?_⟩
  rw [markers_addMarker] at hmem
  rcases Array.mem_push.1 hmem with old | rfl
  · exact h.markers other old
  · exact stands

end Skeleton

namespace Walk

variable {α : Type} [Scalar α]

/-- The skeleton is connected, and reaches the turtle and each pose it has saved. -/
structure Connected (walk : Walk α) : Prop where
  skeleton : walk.skeleton.Connected
  pose : Skeleton.Reached walk.skeleton.segments.toList walk.turtle.pose.position
  saved : ∀ pose ∈ walk.turtle.saved,
    Skeleton.Reached walk.skeleton.segments.toList pose.position

theorem connected_start (settings : Settings α) : (start settings Skeleton.empty).Connected := by
  refine ⟨Skeleton.connected_empty, .inl rfl, fun pose hmem => ?_⟩
  cases hmem

/-- A turn changes no place. -/
theorem Connected.changePose {walk : Walk α} (h : walk.Connected) {change : Pose α → Pose α}
    (stays : (change walk.turtle.pose).position = walk.turtle.pose.position) :
    (walk.changePose change).Connected := by
  refine ⟨h.skeleton, ?_, h.saved⟩
  show Skeleton.Reached _ (change walk.turtle.pose).position
  rw [stays]
  exact h.pose

/-- A segment is drawn from where the turtle stands to where it stands then. -/
theorem Connected.draw {walk : Walk α} (h : walk.Connected) : walk.draw.Connected := by
  have grown : ∀ segment : Segment α, (walk.skeleton.addSegment segment).segments.toList =
      walk.skeleton.segments.toList ++ [segment] := fun segment => Array.toList_push
  refine ⟨h.skeleton.addSegment h.pose, ?_, fun pose hmem => ?_⟩
  · show Skeleton.Reached (walk.skeleton.addSegment _).segments.toList _
    rw [grown]
    exact Skeleton.reached_finish _ ⟨walk.turtle.pose.position, walk.move.turtle.pose.position⟩
  · show Skeleton.Reached (walk.skeleton.addSegment _).segments.toList _
    rw [grown]
    exact (h.saved pose hmem).append _

theorem Connected.mark {walk : Walk α} (h : walk.Connected) (symbol : Symbol) :
    (walk.mark symbol).Connected :=
  ⟨h.skeleton.addMarker h.pose, h.pose, h.saved⟩

theorem Connected.save {walk : Walk α} (h : walk.Connected) :
    ({ walk with turtle := walk.turtle.save } : Walk α).Connected := by
  refine ⟨h.skeleton, h.pose, fun pose hmem => ?_⟩
  rcases List.mem_cons.1 hmem with rfl | old
  · exact h.pose
  · exact h.saved pose old

variable [Trigonometry α]

/-- A turtle returns to a pose that was saved, or the walk stays as it is. -/
theorem Connected.restore {walk : Walk α} (h : walk.Connected) (position : Nat) :
    (walk.obey position .restore).1.Connected := by
  cases hsaved : walk.turtle.saved with
  | nil =>
      have stays : (walk.obey position .restore).1 = walk := by
        simp only [obey, Turtle.restore, hsaved]
      rw [stays]
      exact h
  | cons pose rest =>
      have returns : (walk.obey position .restore).1 =
          { walk with turtle := { walk.turtle with pose, saved := rest } } := by
        simp only [obey, Turtle.restore, hsaved]
      have reached : ∀ other ∈ pose :: rest,
          Skeleton.Reached walk.skeleton.segments.toList other.position := by
        rw [← hsaved]
        exact h.saved
      rw [returns]
      exact ⟨h.skeleton, reached pose List.mem_cons_self,
        fun other hmem => reached other (List.mem_cons_of_mem pose hmem)⟩

/-- Any command but the silent step keeps a walk connected. -/
theorem Connected.obey {walk : Walk α} (h : walk.Connected) (position : Nat)
    {command : Command α} (drawing : command ≠ .move) :
    (walk.obey position command).1.Connected := by
  cases command with
  | draw => exact h.draw
  | move => exact absurd rfl drawing
  | yaw factor => exact h.changePose rfl
  | pitch factor => exact h.changePose rfl
  | roll factor => exact h.changePose rfl
  | reverse => exact h.changePose rfl
  | save => exact h.save
  | restore => exact h.restore position
  | mark symbol => exact h.mark symbol

theorem Connected.read {walk : Walk α} (h : walk.Connected) {word : Word}
    (drawing : 'f' ∉ word) : (walk.read word).walk.Connected := by
  rw [read_walk_eq_follow]
  refine follow_induction ?_ h 0
  intro later position symbol hmem holds
  have loud : symbol ≠ 'f' := by
    rintro rfl
    exact drawing hmem
  exact holds.obey position (Command.ofSymbol_ne_move loud)

/-- A word without silent steps leaves a connected walk behind, even if it ends at
a bracket without a partner. The drawings of a generation with such a word are the
skeletons of this walk. -/
theorem drawn_words_are_connected :
    (∀ (settings : Settings α) (word : Word), 'f' ∉ word →
      ((start settings Skeleton.empty).read word).walk.Connected) ∧
    ∀ (engine : Engine α) (n : Nat) (word : Word),
      (engine.generation n).answer = .ok word → 'f' ∉ word →
      let reading := (start engine.settings Skeleton.empty).read word
      reading.walk.Connected ∧
        (engine.trace n Skeleton.empty).answer = (reading.walk.skeleton, reading.outcome) ∧
        (engine.grow n).answer = reading.outcome.map fun _ => reading.walk.skeleton := by
  have connected : ∀ (settings : Settings α) (word : Word), 'f' ∉ word →
      ((start settings Skeleton.empty).read word).walk.Connected :=
    fun settings word drawing => (connected_start settings).read drawing
  refine ⟨connected, ?_⟩
  intro engine n word derived drawing reading
  exact ⟨connected engine.settings word drawing, Engine.answer_trace derived Skeleton.empty,
    Engine.answer_grow derived⟩

/-- The step is not finite, and the last bracket has no partner. What the shoot and
its side shoot have drawn up to there hangs together. -/
theorem drawn_words_are_connected_up_to_fault :
    let engine : Engine Float32 :=
      ((Engine.start Settings.standard (RandomTape.start fun _ => 0)).serveAll
        [.setStep (1.0 / 0.0), .load ["F".toList, "F -> F[+FL]]F".toList]]).1
    let traced := engine.trace 1 Skeleton.empty
    (engine.generation 1).answer = .ok "F[+FL]]F".toList ∧ 'f' ∉ "F[+FL]]F".toList ∧
      traced.answer.2 = .error (.unmatchedBracket 6) ∧ traced.answer.1.Connected := by
  have derived : (((Engine.start (Settings.standard : Settings Float32)
      (RandomTape.start fun _ => 0)).serveAll
        [.setStep (1.0 / 0.0), .load ["F".toList, "F -> F[+FL]]F".toList]]).1.generation 1).answer =
      .ok "F[+FL]]F".toList := rfl
  have drawing : 'f' ∉ "F[+FL]]F".toList := by decide
  intro engine traced
  obtain ⟨connected, drawn, _⟩ :=
    drawn_words_are_connected.2 engine 1 "F[+FL]]F".toList derived drawing
  refine ⟨derived, drawing, ?_, ?_⟩
  · show (engine.trace 1 Skeleton.empty).answer.2 = _
    rw [drawn]
    rfl
  · show (engine.trace 1 Skeleton.empty).answer.1.Connected
    rw [drawn]
    exact connected.skeleton

end Walk
end PlantGrammar
