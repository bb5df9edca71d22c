import PlantGrammar.Preset
import PlantGrammar.Proofs.Derivation.Growth
import PlantGrammar.Proofs.Engine.BalancedGrammar
import PlantGrammar.Proofs.Engine.Drawing
import PlantGrammar.Proofs.Engine.Numbered
import PlantGrammar.Proofs.Skeleton.Enclosure
import PlantGrammar.Proofs.Turtle.Account

/-!
# How much the presets draw

All presets but the plant have no choice, and only `F` and `X` are replaced in them. So
the counts of these two in a generation are linear in those of the one before, and as all
other symbols are commands, they are the numbers of segments and of markers. The plant
has choices, but every word that it can put in place of `F` holds `F` again, and its
initiator leads to one.
-/
namespace PlantGrammar

namespace Word

/-- A word of commands and `X`, with so many `F` and so many `X`. -/
structure Grown (segments markers : Nat) (w : Word) : Prop where
  segments : w.count 'F' = segments
  markers : w.count 'X' = markers
  alphabet : w ⊆ 'X' :: commands

theorem Grown.marks {segments markers : Nat} {w : Word} (h : w.Grown segments markers) :
    w.marks = List.replicate markers 'X' := by
  have only : w.filter (· ∉ commands) = w.filter (· = 'X') := by
    refine List.filter_congr fun symbol hmem => decide_eq_decide.2 ?_
    rcases List.mem_cons.1 (h.alphabet hmem) with rfl | command
    · exact iff_of_true (by decide) rfl
    · have apart : symbol ≠ 'X' := fun same => absurd (same ▸ command) (by decide)
      exact iff_of_false (fun other => other command) apart
  rw [Word.marks, only, List.filter_eq, h.markers]

end Word

namespace RuleSet

/-- How many `F` and how many `X` come of each of the two. -/
structure Rates where
  fOfF : Nat
  xOfF : Nat
  fOfX : Nat
  xOfX : Nat

/-- Only `F` and `X` are replaced, without a choice and by words of commands and `X`, and
that at these rates. -/
structure Grows (rules : RuleSet) (rates : Rates) : Prop where
  deterministic : rules.Deterministic
  replaces : rules.Replaces ['F', 'X']
  closed : (rules.image ['F', 'X']).all (· ∈ 'X' :: Word.commands) = true
  fOfF : (rules.imageOf 'F').count 'F' = rates.fOfF
  xOfF : (rules.imageOf 'F').count 'X' = rates.xOfF
  fOfX : (rules.imageOf 'X').count 'F' = rates.fOfX
  xOfX : (rules.imageOf 'X').count 'X' = rates.xOfX

theorem Grows.expand {rules : RuleSet} {rates : Rates} (h : rules.Grows rates)
    {segments markers : Nat} {w result : Word} {tape later : RandomTape}
    (expanded : rules.expand w tape = ⟨.ok result, later⟩) (grown : w.Grown segments markers) :
    result.Grown (segments * rates.fOfF + markers * rates.fOfX)
      (segments * rates.xOfF + markers * rates.xOfX) := by
  obtain ⟨last, image⟩ := h.deterministic.expand w tape
  rw [image] at expanded
  cases expanded
  have closed : rules.image ['F', 'X'] ⊆ 'X' :: Word.commands := fun symbol hmem =>
    of_decide_eq_true (List.all_eq_true.1 h.closed symbol hmem)
  have count {symbol : Symbol} (live : symbol ∈ ['F', 'X']) :=
    h.replaces.count_image (by decide) live w
  refine ⟨?_, ?_, h.replaces.image_subset closed grown.alphabet⟩
  · rw [count (by decide)]
    simp [grown.segments, grown.markers, h.fOfF, h.fOfX]
  · rw [count (by decide)]
    simp [grown.segments, grown.markers, h.xOfF, h.xOfX]

end RuleSet

namespace Preset

/-- The numbers of segments and of markers in a generation, unless there is a choice. -/
def size? : Preset → Nat → Option (Nat × Nat)
  | bush, n => some (5 ^ n, 0)
  | sparse, n => some (4 ^ n, 0)
  | weed, n => some (8 ^ n, 0)
  | fern, n => some (2 * (3 ^ n - 2 ^ n), 3 ^ n)
  | twig, n => some (2 * (3 ^ n - 2 ^ n), 3 ^ n)
  | plant, _ => none

/-- What is known of the words of a generation: the counts, or else one symbol that is
there whatever was chosen. -/
def Sized (preset : Preset) (n : Nat) (w : Word) : Prop :=
  match preset.size? n with
  | some (segments, markers) => w.Grown segments markers
  | none => if n = 0 then 'R' ∈ w else 'F' ∈ w

theorem sized_initiator (preset : Preset) :
    ∃ word, Line.initiators preset.lines = [word] ∧ preset.Sized 0 word := by
  cases preset with
  | bush | sparse | weed => exact ⟨['F'], by decide, by decide, by decide, by decide⟩
  | fern | twig => exact ⟨['X'], by decide, by decide, by decide, by decide⟩
  | plant => exact ⟨['R'], by decide, List.mem_cons_self⟩

def rates? : Preset → Option RuleSet.Rates
  | bush => some ⟨5, 0, 0, 1⟩
  | sparse => some ⟨4, 0, 0, 1⟩
  | weed => some ⟨8, 0, 0, 1⟩
  | fern => some ⟨2, 0, 2, 3⟩
  | twig => some ⟨2, 0, 2, 3⟩
  | plant => none

theorem grows {preset : Preset} {rates : RuleSet.Rates} (h : preset.rates? = some rates) :
    (RuleSet.ofLines preset.lines).Grows rates := by
  cases preset with
  | bush | sparse | weed | fern | twig =>
      cases h
      constructor <;> decide
  | plant => cases h

theorem leads_plant :
    (RuleSet.ofLines plant.lines).Leads 'R' 'F' ∧ (RuleSet.ofLines plant.lines).Leads 'F' 'F' :=
  ⟨⟨["FA".toList], by decide, by decide⟩,
    ⟨["S/////F".toList, "LS//L//F".toList], by decide, by decide⟩⟩

/-- An apex adds two segments, and each segment is doubled. -/
theorem size_succ_of_apex (n : Nat) :
    2 * (3 ^ n - 2 ^ n) * 2 + 3 ^ n * 2 = 2 * (3 ^ (n + 1) - 2 ^ (n + 1)) := by
  have below : 2 ^ n ≤ 3 ^ n := Nat.pow_le_pow_left (by decide) n
  rw [pow_succ, pow_succ]
  omega

/-- The plant has no fixed counts: its initiator leads to an `F`, and from then on one is
left. -/
theorem sized_expand (preset : Preset) (n : Nat) (w : Word) (tape : RandomTape) (result : Word)
    (later : RandomTape)
    (expanded : (RuleSet.ofLines preset.lines).expand w tape = ⟨.ok result, later⟩)
    (h : preset.Sized n w) : preset.Sized (n + 1) result := by
  cases preset with
  | bush | sparse | weed => exact (grows rfl).expand expanded h
  | fern | twig =>
      have next := (grows rfl).expand expanded h
      rw [size_succ_of_apex, mul_zero, zero_add, ← pow_succ] at next
      exact next
  | plant =>
      have productive := RuleSet.productive_ofLines plant.lines
      cases n with
      | zero => exact leads_plant.1.mem_expand productive expanded h
      | succ n => exact leads_plant.2.mem_expand productive expanded h

theorem Sized.exists_mem {preset : Preset} {n : Nat} {w : Word} (h : preset.Sized n w) :
    ∃ symbol ∈ w, symbol = 'F' ∨ symbol ∉ Word.commands := by
  have stem {segments markers : Nat} (grown : w.Grown segments markers) (some_f : 0 < segments) :
      ∃ symbol ∈ w, symbol = 'F' ∨ symbol ∉ Word.commands :=
    ⟨'F', List.count_pos_iff.1 (grown.segments ▸ some_f), .inl rfl⟩
  have apex {segments markers : Nat} (grown : w.Grown segments markers) (some_x : 0 < markers) :
      ∃ symbol ∈ w, symbol = 'F' ∨ symbol ∉ Word.commands :=
    ⟨'X', List.count_pos_iff.1 (grown.markers ▸ some_x), .inr (by decide)⟩
  cases preset with
  | bush | sparse | weed => exact stem h (Nat.pow_pos (by decide))
  | fern | twig => exact apex h (Nat.pow_pos (by decide))
  | plant =>
      cases n with
      | zero => exact ⟨'R', h, .inr (by decide)⟩
      | succ n => exact ⟨'F', h, .inl rfl⟩

end Preset

namespace Skeleton

variable {α : Type}

theorem Shows.size_of_grown {s : Skeleton α} {w : Word} (h : s.Shows w) {segments markers : Nat}
    (grown : w.Grown segments markers) :
    s.segments.size = segments ∧ s.markers.size = markers ∧
      ∀ marker ∈ s.markers, marker.symbol = 'X' := by
  have symbols := h.markers.trans grown.marks
  refine ⟨h.segments.trans grown.segments, ?_, fun marker hmem => ?_⟩
  · rw [h.size_markers, grown.marks, List.length_replicate]
  · have among := List.mem_map_of_mem (f := Marker.symbol) hmem.val
    rw [symbols] at among
    exact List.eq_of_mem_replicate among

/-- A skeleton has an extent as soon as the word has a symbol that leaves something. -/
theorem Shows.extent?_ne_none [Scalar α] {s : Skeleton α} {w : Word} (h : s.Shows w)
    {symbol : Symbol} (hmem : symbol ∈ w) (leaves : symbol = 'F' ∨ symbol ∉ Word.commands) :
    s.extent? ≠ none := by
  intro nothing
  obtain ⟨segments, markers⟩ := points_eq_nil_iff.1 (extent?_eq_none_iff.1 nothing)
  rcases leaves with rfl | mark
  · have drawn := h.segments
    rw [segments] at drawn
    exact List.count_pos_iff.2 hmem |>.ne drawn
  · have left := h.markers
    rw [markers] at left
    have there : symbol ∈ w.marks := List.mem_filter.2 ⟨hmem, decide_eq_true mark⟩
    rw [← left] at there
    cases there

end Skeleton

namespace Engine

variable {α : Type} [Scalar α] [Trigonometry α]

theorem grow_of_balanced {engine : Engine α} {n : Nat} {word : Word}
    (derived : (engine.generation n).answer = .ok word) (balanced : word.Balanced) :
    ∃ skeleton, (engine.grow n).answer = .ok skeleton ∧ skeleton.Shows word := by
  have complete := (Walk.read_of_balanced (Walk.start engine.settings Skeleton.empty) balanced).1
  have grown := answer_grow derived
  dsimp only at grown
  rw [complete, Walk.read_walk] at grown
  refine ⟨_, grown, ?_⟩
  have fresh : (Walk.start engine.settings (Skeleton.empty : Skeleton α)).skeleton =
      Skeleton.empty := rfl
  rw [fresh, Skeleton.empty_append]
  exact Turtle.shows_journey ((Walk.read_ok_iff _ _).1 complete)

/-- Every generation of a preset is drawn to its end and has an extent, whatever the
settings and the tape are and whatever was asked before. Its numbers of segments and
markers are fixed where there is no choice, with `X` at all markers, and the plant has a
segment from the first pass on. -/
theorem presets_grow_to_size (engine : Engine α) (preset : Preset) {history : List (Request α)}
    (keeps : ∀ request ∈ history, request.keepsGrammar = true) (n : Nat) :
    ∃ skeleton,
      (((engine.loadPreset preset).engine.serveAll history).1.grow n).answer = .ok skeleton ∧
      (∀ segments markers, preset.size? n = some (segments, markers) →
        skeleton.segments.size = segments ∧ skeleton.markers.size = markers ∧
        ∀ marker ∈ skeleton.markers, marker.symbol = 'X') ∧
      (preset = .plant → 1 ≤ n → 1 ≤ skeleton.segments.size) ∧
      skeleton.extent? ≠ none := by
  obtain ⟨initiator, single, sized⟩ := preset.sized_initiator
  have grammar := balancedGrammar_preset preset
  have balanced : initiator.Balanced := grammar.initiators _ (single ▸ List.mem_cons_self)
  have productive := RuleSet.productive_ofLines preset.lines
  have brackets : (RuleSet.ofLines preset.lines).Balanced :=
    rules_load engine preset.lines ▸ balanced_load engine grammar
  obtain ⟨word, derived, sized, balanced⟩ := generation_numbered single
    (P := fun n word => preset.Sized n word ∧ word.Balanced) ⟨sized, balanced⟩
    (fun n word tape result later expanded h =>
      ⟨preset.sized_expand n word tape result later expanded h.1,
        brackets.expand productive expanded h.2⟩)
    engine keeps n
  obtain ⟨skeleton, grown, shows⟩ := grow_of_balanced derived balanced
  obtain ⟨symbol, hmem, leaves⟩ := sized.exists_mem
  refine ⟨skeleton, grown, fun segments markers size => ?_, fun plant later => ?_,
    shows.extent?_ne_none hmem leaves⟩
  · rw [Preset.Sized, size] at sized
    exact shows.size_of_grown sized
  · subst plant
    have stem : 'F' ∈ word := by
      obtain ⟨m, rfl⟩ := Nat.exists_eq_add_of_le' later
      exact sized
    rw [shows.segments]
    exact List.count_pos_iff.2 stem

/-- The tape has nothing but greatest words, the angle is changed, and another generation is
drawn before. -/
theorem presets_grow_to_size_after_requests :
    let engine : Engine Float32 :=
      start Settings.standard (RandomTape.start fun _ => 0xffffffffffffffff)
    let history : List (Request Float32) := [.setAngle (-30.0), .grow 4, .expand "F".toList]
    (∀ request ∈ history, request.keepsGrammar = true) ∧
      (∃ skeleton,
        (((engine.loadPreset .fern).engine.serveAll history).1.grow 3).answer = .ok skeleton ∧
        skeleton.segments.size = 38 ∧ skeleton.markers.size = 27) ∧
      ∃ skeleton,
        (((engine.loadPreset .plant).engine.serveAll history).1.grow 2).answer = .ok skeleton ∧
        1 ≤ skeleton.segments.size := by
  intro engine history
  have keeps : ∀ request ∈ history, request.keepsGrammar = true := by
    simp [history, Request.keepsGrammar]
  obtain ⟨fern, grown, size, _⟩ := presets_grow_to_size engine .fern keeps 3
  obtain ⟨segments, markers, _⟩ := size _ _ rfl
  obtain ⟨plant, grown', _, segment, _⟩ := presets_grow_to_size engine .plant keeps 2
  exact ⟨keeps, ⟨fern, grown, segments, markers⟩, plant, grown', segment rfl (by decide)⟩

end Engine
end PlantGrammar
