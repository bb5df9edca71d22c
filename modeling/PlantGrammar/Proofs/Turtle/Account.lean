import PlantGrammar.Proofs.Turtle.Underflow

/-!
# What a walk leaves and reports

Each symbol that a turtle obeys leaves a segment, a marker or nothing, and which it is
depends on the symbol alone. So the word tells how many segments a walk adds and which
markers, and the brackets tell where it ends. The pose, the angle and the step only
decide where these things are put, and the report of a walk says nothing of that.
-/
namespace PlantGrammar

namespace Word

/-- The symbols with a meaning of their own. -/
def commands : Word := ['F', 'f', '+', '-', '&', '^', '\\', '/', '|', '[', ']']

/-- The symbols of a word that mark places. -/
def marks (w : Word) : Word := w.filter (· ∉ commands)

theorem marks_append (u v : Word) : marks (u ++ v) = marks u ++ marks v := List.filter_append ..

end Word

namespace Skeleton

variable {α : Type}

/-- The skeleton has a segment for each `F` of the word, and a marker for each symbol
that marks a place, in the order of the word. -/
structure Shows (s : Skeleton α) (w : Word) : Prop where
  segments : s.segments.size = w.count 'F'
  markers : s.markers.toList.map Marker.symbol = w.marks

theorem shows_empty : (empty : Skeleton α).Shows [] := ⟨rfl, rfl⟩

theorem Shows.append {s t : Skeleton α} {u v : Word} (hs : s.Shows u) (ht : t.Shows v) :
    (s ++ t).Shows (u ++ v) := by
  constructor
  · simp [hs.segments, ht.segments]
  · simp [hs.markers, ht.markers, Word.marks_append]

theorem Shows.size_markers {s : Skeleton α} {w : Word} (h : s.Shows w) :
    s.markers.size = w.marks.length := by
  rw [← h.markers, List.length_map, Array.length_toList]

end Skeleton

variable {α : Type} [Scalar α]

theorem Command.shows_drawn (settings : Settings α) (symbol : Symbol) (pose : Pose α) :
    ((Command.ofSymbol symbol).drawn settings pose).Shows [symbol] := by
  unfold Command.ofSymbol
  split
  all_goals constructor <;> simp_all [drawn, Skeleton.empty, Word.marks, Word.commands]

namespace Turtle

variable [Trigonometry α]

/-- A journey to the end of its word draws what the word says. -/
theorem shows_journey {turtle : Turtle α} {w : Word} (hstop : (turtle.journey w).stop = none) :
    (turtle.journey w).drawn.Shows w := by
  induction w generalizing turtle with
  | nil => exact Skeleton.shows_empty
  | cons symbol w ih =>
      cases h : turtle.obey? (Command.ofSymbol symbol) with
      | none =>
          rw [journey_cons_of_none h] at hstop
          cases hstop
      | some next =>
          rw [journey_cons_of_some h] at hstop ⊢
          have now := Command.shows_drawn turtle.settings symbol turtle.pose
          exact now.append (ih (Option.map_eq_none_iff.1 hstop))

theorem shows_journey_of_stop {turtle : Turtle α} {w : Word} {k : Nat}
    (hstop : (turtle.journey w).stop = some k) :
    (turtle.journey w).drawn.Shows (w.take k) := by
  have before := (journey_take_of_stop hstop).2
  have shown : (turtle.journey (w.take k)).drawn.Shows (w.take k) :=
    shows_journey (by rw [before])
  rwa [before] at shown

/-- Where a journey stops is a matter of its depth, whatever the numbers are that the
turtle reckons with. Only a closing bracket with nothing saved stops a turtle, so one symbol
stops both turtles or leads both to the same depth again. -/
theorem stop_eq_of_depth {β : Type} [Scalar β] [Trigonometry β] {turtle : Turtle α}
    {other : Turtle β} (same : other.depth = turtle.depth) (w : Word) :
    (other.journey w).stop = (turtle.journey w).stop := by
  induction w generalizing turtle other with
  | nil => rfl
  | cons symbol w ih =>
      cases h : turtle.obey? (Command.ofSymbol symbol) with
      | none =>
          obtain ⟨rfl, hsaved⟩ := obey?_eq_none h
          have bare : other.saved = [] := by simpa [depth, hsaved] using same
          rw [journey_cons_of_none h, journey_cons_of_none (obey?_close_of_nil bare)]
      | some next =>
          cases h' : other.obey? (Command.ofSymbol symbol) with
          | none =>
              obtain ⟨rfl, hsaved⟩ := obey?_eq_none h'
              have bare : turtle.saved = [] := by simpa [depth, hsaved] using same.symm
              rw [obey?_close_of_nil bare] at h
              cases h
          | some next' =>
              have deeper := depth_obey? h'
              rw [same, depth_obey? h] at deeper
              rw [journey_cons_of_some h, journey_cons_of_some h', ih (Option.some.inj deeper).symm]

end Turtle

namespace Walk

variable [Trigonometry α]

/-- A walk that comes to the end of its word is given by its journey, and its report by
the word and the depth that it ends at. -/
theorem read_of_none {walk : Walk α} {w : Word} (hstop : (walk.turtle.journey w).stop = none) :
    walk.read w =
      ⟨⟨(walk.turtle.journey w).turtle, walk.skeleton ++ (walk.turtle.journey w).drawn⟩, .ok (),
        [.walked w.length (w.count 'F') w.marks.length (walk.turtle.journey w).turtle.depth]⟩ := by
  have shown := Turtle.shows_journey hstop
  rw [read, follow_eq, Journey.outcome_of_none hstop]
  simp [depth, shown.segments, shown.size_markers]

theorem size_le_size_read (walk : Walk α) (w : Word) :
    walk.skeleton.segments.size ≤ (walk.read w).walk.skeleton.segments.size ∧
      walk.skeleton.markers.size ≤ (walk.read w).walk.skeleton.markers.size := by
  rw [read_walk]
  simp

/-- How a walk ends and what it reports is a matter of the word and of the depth that it
begins at. -/
theorem report_eq_of_depth {β : Type} [Scalar β] [Trigonometry β] {walk : Walk α}
    {other : Walk β} (same : other.depth = walk.depth) (w : Word) :
    (other.read w).outcome = (walk.read w).outcome ∧
      (other.read w).events = (walk.read w).events := by
  have stops := Turtle.stop_eq_of_depth same w
  cases hstop : (walk.turtle.journey w).stop with
  | some k =>
      rw [hstop] at stops
      rw [read_of_stop hstop, read_of_stop stops]
      exact ⟨rfl, rfl⟩
  | none =>
      rw [hstop] at stops
      have rise := Turtle.depth_of_stop_eq_none hstop
      have rise' := Turtle.depth_of_stop_eq_none stops
      have depths : (other.turtle.journey w).turtle.depth =
          (walk.turtle.journey w).turtle.depth := by
        have start : other.turtle.depth = walk.turtle.depth := same
        omega
      rw [read_of_none hstop, read_of_none stops, depths]
      exact ⟨rfl, rfl⟩

/-- A walk that comes to the end of its word puts behind the skeleton that was there a
segment for each `F` and the markers of the word, and reports once, with the number of
symbols, of segments and of markers and the depth that it ends at. A walk that ends
before puts there what the symbols before the bracket say, and reports nothing. Nothing
is taken out of the skeleton, so the numbers of what was added are exact. All this is
the same for any walk that begins at the same depth. -/
theorem readings_account_for_words (walk : Walk α) (w : Word) :
    let reading := walk.read w
    (reading.outcome = .ok () →
      ∃ drawn depth, reading.walk.skeleton = walk.skeleton ++ drawn ∧ drawn.Shows w ∧
        ((depth : Nat) : Int) = walk.depth + w.rise ∧ reading.walk.depth = depth ∧
        reading.events = [.walked w.length (w.count 'F') w.marks.length depth]) ∧
    (∀ fault, reading.outcome = .error fault →
      ∃ k drawn, fault = .unmatchedBracket k ∧ w[k]? = some ']' ∧
        reading.walk.skeleton = walk.skeleton ++ drawn ∧ drawn.Shows (w.take k) ∧
        reading.events = []) ∧
    walk.skeleton.segments.size ≤ reading.walk.skeleton.segments.size ∧
    walk.skeleton.markers.size ≤ reading.walk.skeleton.markers.size ∧
    ∀ (β : Type) [Scalar β] [Trigonometry β] (other : Walk β), other.depth = walk.depth →
      (other.read w).outcome = reading.outcome ∧ (other.read w).events = reading.events := by
  intro reading
  obtain ⟨segments, markers⟩ := size_le_size_read walk w
  refine ⟨fun ok => ?_, fun fault failed => ?_, segments, markers,
    fun _ _ _ _ same => report_eq_of_depth same w⟩
  · have hstop := (read_ok_iff walk w).1 ok
    have whole : reading = _ := read_of_none hstop
    rw [whole]
    exact ⟨_, _, rfl, Turtle.shows_journey hstop, Turtle.depth_of_stop_eq_none hstop, rfl, rfl⟩
  · cases hstop : (walk.turtle.journey w).stop with
    | none =>
        rw [(read_ok_iff walk w).2 hstop] at failed
        cases failed
    | some k =>
        have whole : reading = _ := read_of_stop hstop
        rw [whole] at failed ⊢
        cases failed
        exact ⟨k, _, rfl, (Turtle.first_close_of_stop hstop).1, rfl,
          Turtle.shows_journey_of_stop hstop, rfl⟩

/-- Both walks begin at depth one and draw behind what is there. The second one ends at
its second bracket, with what follows left out. -/
theorem readings_account_for_words_behind_others :
    let there : Skeleton Float32 := ⟨#[⟨Vec.zero, Vec.zero⟩], #[⟨Vec.zero, 'é'⟩]⟩
    let walk : Walk Float32 := ⟨⟨Settings.standard, Pose.home, [Pose.home]⟩, there⟩
    let whole := walk.read "F∧[f+LF]é]F".toList
    let short := walk.read "F]é]LF".toList
    (whole.outcome = .ok () ∧ whole.events = [.walked 11 3 3 0] ∧
      ∃ drawn, whole.walk.skeleton = there ++ drawn ∧ drawn.segments.size = 3 ∧
        drawn.markers.toList.map Marker.symbol = "∧Lé".toList) ∧
    (short.outcome = .error (.unmatchedBracket 3) ∧ short.events = [] ∧
      ∃ drawn, short.walk.skeleton = there ++ drawn ∧ drawn.segments.size = 1 ∧
        drawn.markers.toList.map Marker.symbol = "é".toList) := by
  intro there walk whole short
  have ok : whole.outcome = .ok () := rfl
  have failed : short.outcome = .error (.unmatchedBracket 3) := rfl
  obtain ⟨ends, _⟩ := readings_account_for_words walk "F∧[f+LF]é]F".toList
  obtain ⟨_, stops, _⟩ := readings_account_for_words walk "F]é]LF".toList
  obtain ⟨drawn, depth, behind, shown, rise, _, events⟩ := ends ok
  obtain ⟨k, drawn', position, _, behind', shown', events'⟩ := stops _ failed
  cases position
  have ground : depth = 0 := by
    have flat : (walk.depth : Int) + Word.rise "F∧[f+LF]é]F".toList = 0 := by decide
    omega
  rw [ground] at events
  exact ⟨⟨ok, events, drawn, behind, shown.segments, shown.markers⟩,
    failed, events', drawn', behind', shown'.segments, shown'.markers⟩

end Walk
end PlantGrammar
