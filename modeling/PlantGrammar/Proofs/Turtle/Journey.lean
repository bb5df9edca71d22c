import PlantGrammar.Turtle.Walk

/-!
# What a turtle does along a word

A walk carries the skeleton that it draws into. The turtle never looks at it, so
a walk comes apart into the journey of its turtle and what the journey draws,
which is put behind the skeleton that was there. A journey says where the turtle
is left, what is new, and where a bracket without a partner ended it.
-/
namespace PlantGrammar

namespace Skeleton

variable {α : Type}

/-- One skeleton behind another, segments and markers each for themselves. -/
instance : Append (Skeleton α) :=
  ⟨fun s t => ⟨s.segments ++ t.segments, s.markers ++ t.markers⟩⟩

@[simp] theorem segments_append (s t : Skeleton α) :
    (s ++ t).segments = s.segments ++ t.segments := rfl

@[simp] theorem markers_append (s t : Skeleton α) :
    (s ++ t).markers = s.markers ++ t.markers := rfl

@[simp] theorem append_empty (s : Skeleton α) : s ++ empty = s := by
  ext1 <;> simp [empty]

@[simp] theorem empty_append (s : Skeleton α) : empty ++ s = s := by
  ext1 <;> simp [empty]

theorem append_assoc (s t u : Skeleton α) : s ++ t ++ u = s ++ (t ++ u) := by
  ext1 <;> simp

end Skeleton

namespace Command

variable {α : Type} [Scalar α]

/-- Where a command takes a pose. Saving, returning and marking do not move it. -/
def poseAfter [Trigonometry α] (settings : Settings α) : Command α → Pose α → Pose α
  | draw, pose => pose.advance settings.step
  | move, pose => pose.advance settings.step
  | yaw factor, pose => pose.yaw (settings.angle * factor)
  | pitch factor, pose => pose.pitch (settings.angle * factor)
  | roll factor, pose => pose.roll (settings.angle * factor)
  | reverse, pose => pose.reverse
  | save, pose => pose
  | restore, pose => pose
  | mark _, pose => pose

/-- What a command draws at a pose. -/
def drawn (settings : Settings α) : Command α → Pose α → Skeleton α
  | draw, pose => ⟨#[⟨pose.position, (pose.advance settings.step).position⟩], #[]⟩
  | mark symbol, pose => ⟨#[], #[⟨pose.position, symbol⟩]⟩
  | _, _ => Skeleton.empty

/-- A marker is the symbol whose command left it. -/
theorem symbol_of_mem_drawn {settings : Settings α} {symbol : Symbol} {pose : Pose α}
    {marker : Marker α} (h : marker ∈ ((ofSymbol symbol).drawn settings pose).markers) :
    marker.symbol = symbol := by
  unfold ofSymbol at h
  split at h
  all_goals simp_all [drawn, Skeleton.empty]

end Command

structure Journey (α : Type) where
  turtle : Turtle α
  drawn : Skeleton α
  /-- The place of the bracket that ended the journey before the end of the word. -/
  stop : Option Nat

/-- How a walk ends whose word begins at this position. -/
def Journey.outcome {α : Type} (journey : Journey α) (position : Nat) : Except Fault Unit :=
  match journey.stop with
  | none => .ok ()
  | some i => .error (.unmatchedBracket (position + i))

theorem Journey.outcome_of_none {α : Type} {journey : Journey α} (h : journey.stop = none)
    (position : Nat) : journey.outcome position = .ok () := by
  rw [outcome, h]

theorem Journey.outcome_of_some {α : Type} {journey : Journey α} {i : Nat}
    (h : journey.stop = some i) (position : Nat) :
    journey.outcome position = .error (.unmatchedBracket (position + i)) := by
  rw [outcome, h]

namespace Turtle

variable {α : Type} [Scalar α] [Trigonometry α]

/-- The turtle after a command, unless it is to return and has saved nothing. -/
def obey? (turtle : Turtle α) : Command α → Option (Turtle α)
  | .save => some turtle.save
  | .restore =>
      match turtle.saved with
      | [] => none
      | pose :: rest => some { turtle with pose, saved := rest }
  | command => some (turtle.changePose (command.poseAfter turtle.settings))

def journey (turtle : Turtle α) : Word → Journey α
  | [] => ⟨turtle, Skeleton.empty, none⟩
  | symbol :: rest =>
      let command := Command.ofSymbol symbol
      match turtle.obey? command with
      | none => ⟨turtle, Skeleton.empty, some 0⟩
      | some next =>
          let later := next.journey rest
          ⟨later.turtle, command.drawn turtle.settings turtle.pose ++ later.drawn,
            later.stop.map (· + 1)⟩

@[simp] theorem journey_nil (turtle : Turtle α) :
    turtle.journey [] = ⟨turtle, Skeleton.empty, none⟩ := rfl

theorem journey_cons_of_some {turtle next : Turtle α} {symbol : Symbol}
    (h : turtle.obey? (Command.ofSymbol symbol) = some next) (rest : Word) :
    turtle.journey (symbol :: rest) =
      ⟨(next.journey rest).turtle,
        (Command.ofSymbol symbol).drawn turtle.settings turtle.pose ++ (next.journey rest).drawn,
        (next.journey rest).stop.map (· + 1)⟩ := by
  rw [journey, h]

theorem journey_cons_of_none {turtle : Turtle α} {symbol : Symbol}
    (h : turtle.obey? (Command.ofSymbol symbol) = none) (rest : Word) :
    turtle.journey (symbol :: rest) = ⟨turtle, Skeleton.empty, some 0⟩ := by
  rw [journey, h]

/-- A symbol that is no bracket only moves the pose. -/
theorem obey?_plain {symbol : Symbol} (hopen : symbol ≠ '[') (hclose : symbol ≠ ']')
    (turtle : Turtle α) :
    turtle.obey? (Command.ofSymbol symbol) =
      some (turtle.changePose ((Command.ofSymbol symbol).poseAfter turtle.settings)) := by
  unfold Command.ofSymbol
  split <;> first | rfl | contradiction

theorem obey?_open (turtle : Turtle α) :
    turtle.obey? (Command.ofSymbol '[') = some turtle.save := rfl

theorem obey?_close_of_nil {turtle : Turtle α} (h : turtle.saved = []) :
    turtle.obey? (Command.ofSymbol ']') = none := by
  change turtle.obey? .restore = none
  simp only [obey?, h]

theorem obey?_close_of_cons {turtle : Turtle α} {pose : Pose α} {rest : List (Pose α)}
    (h : turtle.saved = pose :: rest) :
    turtle.obey? (Command.ofSymbol ']') = some { turtle with pose, saved := rest } := by
  change turtle.obey? .restore = _
  simp only [obey?, h]

/-- A command fails only if it is to return and nothing is saved. -/
theorem obey?_eq_none {turtle : Turtle α} {symbol : Symbol}
    (h : turtle.obey? (Command.ofSymbol symbol) = none) : symbol = ']' ∧ turtle.saved = [] := by
  by_cases hopen : symbol = '['
  · subst hopen
    rw [obey?_open] at h
    cases h
  · by_cases hclose : symbol = ']'
    · subst hclose
      refine ⟨rfl, ?_⟩
      cases hsaved : turtle.saved with
      | nil => rfl
      | cons pose rest =>
          rw [obey?_close_of_cons hsaved] at h
          cases h
    · rw [obey?_plain hopen hclose] at h
      cases h

theorem settings_obey? {turtle next : Turtle α} {command : Command α}
    (h : turtle.obey? command = some next) : next.settings = turtle.settings := by
  cases command with
  | restore =>
      cases hsaved : turtle.saved with
      | nil => simp [obey?, hsaved] at h
      | cons pose rest =>
          simp only [obey?, hsaved, Option.some.injEq] at h
          rw [← h]
  | _ =>
      cases h
      rfl

/-- No command changes what turns and steps refer to. -/
theorem settings_journey (turtle : Turtle α) (w : Word) :
    (turtle.journey w).turtle.settings = turtle.settings := by
  induction w generalizing turtle with
  | nil => rfl
  | cons symbol w ih =>
      cases h : turtle.obey? (Command.ofSymbol symbol) with
      | none => rw [journey_cons_of_none h]
      | some next =>
          rw [journey_cons_of_some h]
          exact (ih next).trans (settings_obey? h)

/-- What a journey marks places with are symbols of its word. -/
theorem symbol_mem_of_journey {turtle : Turtle α} {w : Word} {marker : Marker α}
    (h : marker ∈ (turtle.journey w).drawn.markers) : marker.symbol ∈ w := by
  induction w generalizing turtle with
  | nil => exact absurd h (Array.not_mem_empty marker)
  | cons symbol w ih =>
      cases hobey : turtle.obey? (Command.ofSymbol symbol) with
      | none =>
          rw [journey_cons_of_none hobey] at h
          exact absurd h (Array.not_mem_empty marker)
      | some next =>
          rw [journey_cons_of_some hobey, Skeleton.markers_append] at h
          rcases Array.mem_append.1 h with now | later
          · rw [Command.symbol_of_mem_drawn now]
            exact List.mem_cons_self
          · exact List.mem_cons_of_mem symbol (ih later)

/-- A journey along two words in a row. The second word is not looked at if the
first ends the journey. -/
theorem journey_append (turtle : Turtle α) (u v : Word) :
    turtle.journey (u ++ v) =
      match (turtle.journey u).stop with
      | some i => ⟨(turtle.journey u).turtle, (turtle.journey u).drawn, some i⟩
      | none =>
          let later := (turtle.journey u).turtle.journey v
          ⟨later.turtle, (turtle.journey u).drawn ++ later.drawn,
            later.stop.map (· + u.length)⟩ := by
  induction u generalizing turtle with
  | nil => simp
  | cons symbol u ih =>
      rw [List.cons_append]
      cases h : turtle.obey? (Command.ofSymbol symbol) with
      | none => simp only [journey_cons_of_none h]
      | some next =>
          rw [journey_cons_of_some h, journey_cons_of_some h, ih]
          cases hstop : (next.journey u).stop with
          | some i => simp
          | none =>
              simp only [Option.map_none, Option.map_map, Skeleton.append_assoc,
                List.length_cons]
              congr 2

/-- If every symbol takes the image of a turtle where its counterpart takes the turtle,
and draws the image of what its counterpart draws, then a word does so as well. -/
theorem journey_image {image : Turtle α → Turtle α} {redrawn : Skeleton α → Skeleton α}
    {counterpart : Symbol → Symbol} (nothing : redrawn Skeleton.empty = Skeleton.empty)
    (behind : ∀ s t, redrawn (s ++ t) = redrawn s ++ redrawn t)
    (obeys : ∀ turtle symbol, (image turtle).obey? (Command.ofSymbol symbol) =
      (turtle.obey? (Command.ofSymbol (counterpart symbol))).map image)
    (draws : ∀ turtle symbol,
      (Command.ofSymbol symbol).drawn (image turtle).settings (image turtle).pose =
        redrawn ((Command.ofSymbol (counterpart symbol)).drawn turtle.settings turtle.pose))
    (turtle : Turtle α) (w : Word) :
    (image turtle).journey w =
      ⟨image (turtle.journey (w.map counterpart)).turtle,
        redrawn (turtle.journey (w.map counterpart)).drawn,
        (turtle.journey (w.map counterpart)).stop⟩ := by
  induction w generalizing turtle with
  | nil =>
      rw [List.map_nil, journey_nil, journey_nil, nothing]
  | cons symbol w ih =>
      have step := obeys turtle symbol
      rw [List.map_cons]
      cases h : turtle.obey? (Command.ofSymbol (counterpart symbol)) with
      | none =>
          rw [h] at step
          rw [journey_cons_of_none step, journey_cons_of_none h, nothing]
      | some next =>
          rw [h] at step
          rw [journey_cons_of_some step, journey_cons_of_some h, ih, draws, behind]

end Turtle

namespace Walk

variable {α : Type} [Scalar α] [Trigonometry α]

/-- A command acts on the turtle alone, and what it draws is added. -/
theorem obey_eq (walk : Walk α) (position : Nat) (command : Command α) :
    walk.obey position command =
      match walk.turtle.obey? command with
      | some next =>
          (⟨next, walk.skeleton ++ command.drawn walk.turtle.settings walk.turtle.pose⟩, .ok ())
      | none => (walk, .error (.unmatchedBracket position)) := by
  cases command with
  | draw => rfl
  | mark symbol => rfl
  | restore =>
      simp only [obey, Turtle.restore, Turtle.obey?, Command.drawn, Skeleton.append_empty]
      cases walk.turtle.saved <;> rfl
  | save => simp only [obey, Turtle.obey?, Command.drawn, Skeleton.append_empty]
  | _ =>
      simp only [obey, changePose, Turtle.obey?, Command.drawn, Skeleton.append_empty]
      rfl

/-- Following a word is the journey of the turtle. -/
theorem follow_eq (walk : Walk α) (position : Nat) (word : Word) :
    walk.follow position word =
      (⟨(walk.turtle.journey word).turtle, walk.skeleton ++ (walk.turtle.journey word).drawn⟩,
        (walk.turtle.journey word).outcome position) := by
  induction word generalizing walk position with
  | nil => simp [Journey.outcome]
  | cons symbol rest ih =>
      rw [follow_cons, obey_eq]
      cases h : walk.turtle.obey? (Command.ofSymbol symbol) with
      | none => simp [Turtle.journey_cons_of_none h, Journey.outcome]
      | some next =>
          simp only [ih, Turtle.journey_cons_of_some h, Skeleton.append_assoc, Journey.outcome]
          cases (next.journey rest).stop with
          | none => rfl
          | some i => simp only [Option.map_some]; congr 3; omega

/-- Following a word keeps whatever obeying one symbol of it keeps, also if the
walk ends before the word. -/
theorem follow_induction {motive : Walk α → Prop} {word : Word}
    (step : ∀ walk position, ∀ symbol ∈ word,
      motive walk → motive (walk.obey position (Command.ofSymbol symbol)).1)
    {walk : Walk α} (start : motive walk) (position : Nat) :
    motive (walk.follow position word).1 := by
  induction word generalizing walk position with
  | nil => exact start
  | cons symbol rest ih =>
      have next := step walk position symbol List.mem_cons_self start
      rw [follow_cons]
      cases hobey : walk.obey position (Command.ofSymbol symbol) with
      | mk later outcome =>
          rw [hobey] at next
          cases outcome with
          | error fault => exact next
          | ok =>
              have others := fun walk position symbol hmem =>
                step walk position symbol (List.mem_cons_of_mem _ hmem)
              exact ih others next (position + 1)

/-- The walk at every point of a word: before its first symbol and after each symbol
that it obeys, the one at which it ends included. -/
def stages (walk : Walk α) (position : Nat) : Word → List (Walk α)
  | [] => [walk]
  | symbol :: rest =>
      match walk.obey position (Command.ofSymbol symbol) with
      | (next, .ok ()) => walk :: next.stages (position + 1) rest
      | (last, .error _) => [walk, last]

/-- The points of a word are what following its beginnings comes to. -/
theorem mem_stages_iff {walk later : Walk α} {position : Nat} {word : Word} :
    later ∈ walk.stages position word ↔
      ∃ u, u <+: word ∧ (walk.follow position u).1 = later := by
  induction word generalizing walk position with
  | nil =>
      simp only [stages, List.mem_singleton, List.prefix_nil, exists_eq_left, follow_nil]
      exact eq_comm
  | cons symbol rest ih =>
      cases hobey : walk.obey position (Command.ofSymbol symbol) with
      | mk next outcome =>
          cases outcome with
          | error fault =>
              simp only [stages, hobey, List.mem_cons, List.not_mem_nil, or_false,
                List.prefix_cons_iff]
              constructor
              · rintro (rfl | rfl)
                · exact ⟨[], .inl rfl, rfl⟩
                · exact ⟨[symbol], .inr ⟨[], rfl, List.nil_prefix⟩, by rw [follow_cons, hobey]⟩
              · rintro ⟨u, rfl | ⟨v, rfl, _⟩, rfl⟩
                · exact .inl rfl
                · exact .inr (by rw [follow_cons, hobey])
          | ok =>
              simp only [stages, hobey, List.mem_cons, ih, List.prefix_cons_iff]
              constructor
              · rintro (rfl | ⟨v, begins, rfl⟩)
                · exact ⟨[], .inl rfl, rfl⟩
                · exact ⟨symbol :: v, .inr ⟨v, rfl, begins⟩, by rw [follow_cons, hobey]⟩
              · rintro ⟨u, rfl | ⟨v, rfl, begins⟩, rfl⟩
                · exact .inl rfl
                · exact .inr ⟨v, begins, by rw [follow_cons, hobey]⟩

theorem follow_mem_stages (walk : Walk α) (position : Nat) (word : Word) :
    (walk.follow position word).1 ∈ walk.stages position word :=
  mem_stages_iff.2 ⟨word, List.prefix_refl word, rfl⟩

theorem stages_induction {motive : Walk α → Prop} {word : Word}
    (step : ∀ walk position, ∀ symbol ∈ word,
      motive walk → motive (walk.obey position (Command.ofSymbol symbol)).1)
    {walk : Walk α} (start : motive walk) (position : Nat) :
    ∀ later ∈ walk.stages position word, motive later := by
  intro later hmem
  obtain ⟨u, begins, rfl⟩ := mem_stages_iff.1 hmem
  exact follow_induction
    (fun walk position symbol h => step walk position symbol (begins.subset h)) start position

theorem read_walk_eq_follow (walk : Walk α) (word : Word) :
    (walk.read word).walk = (walk.follow 0 word).1 := by
  rw [read]
  rcases walk.follow 0 word with ⟨last, fault | ⟨⟩⟩ <;> rfl

theorem read_walk (walk : Walk α) (word : Word) :
    (walk.read word).walk =
      ⟨(walk.turtle.journey word).turtle, walk.skeleton ++ (walk.turtle.journey word).drawn⟩ := by
  rw [read, follow_eq]
  cases (walk.turtle.journey word).outcome 0 <;> rfl

theorem read_outcome (walk : Walk α) (word : Word) :
    (walk.read word).outcome = (walk.turtle.journey word).outcome 0 := by
  rw [read, follow_eq]
  cases (walk.turtle.journey word).outcome 0 <;> rfl

end Walk
end PlantGrammar
