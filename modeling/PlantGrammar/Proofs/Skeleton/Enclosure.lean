import PlantGrammar.Proofs.Binary.Single
import PlantGrammar.Skeleton.Extent

/-!
# What an extent encloses

The corners of an extent are worked out one point at a time, and of two values that do
not compare the later one stays. So a coordinate that is not a number puts away all that
came before it and is put away by the next one, and of values in a tie the last one
stays. Each coordinate of a corner is therefore the last of the extreme values behind the
last one that is not a number.
-/
namespace PlantGrammar

/-- A comparison that orders the numbers up to ties and holds of nothing else. -/
structure WeakOrder {α : Type} (less : α → α → Prop) (isNaN : α → Bool) : Prop where
  numbers : ∀ {a b}, less a b → isNaN a = false ∧ isNaN b = false
  asymm : ∀ {a b}, less a b → ¬ less b a
  trans : ∀ {a b c}, less a b → less b c → less a c
  cotrans : ∀ {a b c}, isNaN b = false → less a c → less a b ∨ less b c

/-- The value is the last of those that no other value comes before. -/
structure LastLeast {α : Type} (less : α → α → Prop) (values : List α) (v : α) : Prop where
  least : ∀ u ∈ values, ¬ less u v
  last : ∃ earlier later, values = earlier ++ v :: later ∧ ∀ u ∈ later, less v u

/-- The values behind the last one that is not a number. -/
def behindNaN {α : Type} (isNaN : α → Bool) (values : List α) : List α :=
  values.rtakeWhile fun v => !isNaN v

/-- The first of two values if it comes before the second, and else the second. -/
def prefer {α : Type} (less : α → α → Prop) [DecidableRel less] (a b : α) : α :=
  if less a b then a else b

section

variable {α : Type} {less : α → α → Prop} {isNaN : α → Bool}

theorem WeakOrder.flip (h : WeakOrder less isNaN) : WeakOrder (fun a b => less b a) isNaN where
  numbers hless := (h.numbers hless).symm
  asymm := h.asymm
  trans hab hbc := h.trans hbc hab
  cotrans hb hless := (h.cotrans hb hless).symm

theorem LastLeast.mem {values : List α} {v : α} (h : LastLeast less values v) : v ∈ values := by
  obtain ⟨earlier, later, rfl, _⟩ := h.last
  exact List.mem_append_right earlier List.mem_cons_self

theorem behindNaN_concat (values : List α) (u : α) :
    behindNaN isNaN (values ++ [u]) =
      if isNaN u then [] else behindNaN isNaN values ++ [u] := by
  rw [behindNaN, List.rtakeWhile_concat]
  cases isNaN u <;> rfl

theorem isNaN_of_mem_behindNaN {values : List α} {v : α} (h : v ∈ behindNaN isNaN values) :
    isNaN v = false := by
  simpa using List.mem_rtakeWhile_imp h

theorem behindNaN_eq_self {values : List α} (h : ∀ v ∈ values, isNaN v = false) :
    behindNaN isNaN values = values :=
  List.rtakeWhile_eq_self_iff.2 fun v hmem => by simp [h v hmem]

theorem prefer_of_isNaN [DecidableRel less] (order : WeakOrder less isNaN) {a b : α}
    (h : isNaN a = true ∨ isNaN b = true) : prefer less a b = b := by
  refine if_neg fun before => ?_
  obtain ⟨ha, hb⟩ := order.numbers before
  simp [ha, hb] at h

theorem LastLeast.single (order : WeakOrder less isNaN) (u : α) : LastLeast less [u] u := by
  refine ⟨fun w hmem before => ?_, [], [], rfl, fun w hmem => nomatch hmem⟩
  rw [List.mem_singleton.1 hmem] at before
  exact order.asymm before before

/-- One more number leaves the value in place if it comes after it, and takes its place
if not. -/
theorem LastLeast.concat [DecidableRel less] (order : WeakOrder less isNaN) {values : List α}
    {v u : α} (h : LastLeast less values v) (hv : isNaN v = false) :
    LastLeast less (values ++ [u]) (prefer less v u) := by
  obtain ⟨earlier, later, split, after⟩ := h.last
  by_cases hless : less v u
  · rw [prefer, if_pos hless]
    refine ⟨fun w hmem => ?_, earlier, later ++ [u], by simp [split], fun w hmem => ?_⟩
    · rcases List.mem_append.1 hmem with old | new
      · exact h.least w old
      · rw [List.mem_singleton.1 new]
        exact order.asymm hless
    · rcases List.mem_append.1 hmem with old | new
      · exact after w old
      · rwa [List.mem_singleton.1 new]
  · rw [prefer, if_neg hless]
    refine ⟨fun w hmem before => ?_, values, [], rfl, fun w hmem => nomatch hmem⟩
    rcases List.mem_append.1 hmem with old | new
    · exact (order.cotrans hv before).elim (h.least w old) hless
    · rw [List.mem_singleton.1 new] at before
      exact order.asymm before before

/-- Preferring one value after the other finds the last extreme value behind the last one
that is not a number, and that one itself if nothing is behind it. The induction splits off
the last value, since a value that is no number forgets all before it. -/
theorem foldl_prefer [DecidableRel less] (order : WeakOrder less isNaN) (first : α)
    (rest : List α) :
    (behindNaN isNaN (first :: rest) = [] ∧ isNaN (rest.foldl (prefer less) first) = true) ∨
      LastLeast less (behindNaN isNaN (first :: rest)) (rest.foldl (prefer less) first) := by
  induction rest using List.reverseRecOn with
  | nil =>
      have alone := @behindNaN_concat α isNaN [] first
      rw [List.nil_append] at alone
      rw [alone]
      cases hfirst : isNaN first with
      | true => exact .inl ⟨rfl, hfirst⟩
      | false => exact .inr (LastLeast.single order first)
  | append_singleton rest u ih =>
      rw [← List.cons_append, behindNaN_concat, List.foldl_append, List.foldl_cons,
        List.foldl_nil]
      cases hu : isNaN u with
      | true =>
          rw [prefer_of_isNaN order (.inr hu)]
          exact .inl ⟨rfl, hu⟩
      | false =>
          rcases ih with ⟨nothing, special⟩ | found
          · rw [nothing, prefer_of_isNaN order (.inl special)]
            exact .inr (LastLeast.single order u)
          · exact .inr (found.concat order (isNaN_of_mem_behindNaN found.mem))

theorem behindNaN_eq_nil_iff {values : List α} {final : α} (h : values.getLast? = some final) :
    behindNaN isNaN values = [] ↔ isNaN final = true := by
  obtain ⟨earlier, rfl⟩ := List.getLast?_eq_some_iff.1 h
  rw [behindNaN_concat]
  cases isNaN final <;> simp

/-- Which of the two it is can be told by the final value. -/
theorem foldl_prefer_of_getLast? [DecidableRel less] (order : WeakOrder less isNaN)
    {first final : α} {rest : List α} (h : (first :: rest).getLast? = some final) :
    if isNaN final then isNaN (rest.foldl (prefer less) first) = true
    else LastLeast less (behindNaN isNaN (first :: rest)) (rest.foldl (prefer less) first) := by
  have ends : behindNaN isNaN (first :: rest) = [] ↔ isNaN final = true := behindNaN_eq_nil_iff h
  split
  · rename_i special
    rcases foldl_prefer order first rest with ⟨_, none_left⟩ | found
    · exact none_left
    · have inside := found.mem
      rw [ends.2 special] at inside
      cases inside
  · rename_i number
    rcases foldl_prefer order first rest with ⟨nothing, _⟩ | found
    · exact absurd (ends.1 nothing) number
    · exact found

end

/-- The three coordinates. -/
def Vec.axes {α : Type} : List (Vec α → α) := [Vec.x, Vec.y, Vec.z]

namespace Extent

variable {α : Type} [Scalar α]

/-- The coordinates of both corners evolve each for itself. -/
theorem foldl_enclose {axis : Vec α → α} (haxis : axis ∈ Vec.axes) (box : Extent α)
    (points : List (Vec α)) :
    axis (points.foldl enclose box).low =
        (points.map axis).foldl (prefer fun a b => a < b) (axis box.low) ∧
      axis (points.foldl enclose box).high =
        (points.map axis).foldl (prefer fun a b => b < a) (axis box.high) := by
  have step : ∀ (box : Extent α) (p : Vec α),
      axis (box.enclose p).low = prefer (fun a b => a < b) (axis box.low) (axis p) ∧
        axis (box.enclose p).high = prefer (fun a b => b < a) (axis box.high) (axis p) := by
    intro box p
    simp only [Vec.axes, List.mem_cons, List.not_mem_nil, or_false] at haxis
    rcases haxis with rfl | rfl | rfl <;> exact ⟨rfl, rfl⟩
  induction points generalizing box with
  | nil => exact ⟨rfl, rfl⟩
  | cons p points ih =>
      obtain ⟨low, high⟩ := step box p
      simp only [List.foldl_cons, List.map_cons]
      rw [← low, ← high]
      exact ih (box.enclose p)

/-- If the last coordinate of the points is not a number, the corners have none there.
Otherwise they have the last of the least and of the greatest behind the last one that
is not a number. -/
theorem corners_of_ofPoints? {isNaN : α → Bool} (order : WeakOrder (fun a b : α => a < b) isNaN)
    {points : List (Vec α)} {box : Extent α} (h : ofPoints? points = some box)
    {axis : Vec α → α} (haxis : axis ∈ Vec.axes) {final : α}
    (hfinal : (points.map axis).getLast? = some final) :
    if isNaN final then isNaN (axis box.low) = true ∧ isNaN (axis box.high) = true
    else
      LastLeast (fun a b => a < b) (behindNaN isNaN (points.map axis)) (axis box.low) ∧
        LastLeast (fun a b => b < a) (behindNaN isNaN (points.map axis)) (axis box.high) := by
  cases points with
  | nil => cases h
  | cons p points =>
      cases h
      obtain ⟨low, high⟩ := foldl_enclose haxis (ofPoint p) points
      have least := foldl_prefer_of_getLast? order hfinal
      have greatest := foldl_prefer_of_getLast? order.flip hfinal
      rw [low, high, List.map_cons]
      cases hnumber : isNaN final with
      | true =>
          rw [hnumber] at least greatest
          exact ⟨least, greatest⟩
      | false =>
          rw [hnumber] at least greatest
          exact ⟨least, greatest⟩

end Extent

/-- Single-precision numbers are in order, as far as they are numbers. -/
theorem Single.weakOrder : WeakOrder (fun a b : Float32 => a < b) Float32.isNaN where
  numbers h := ⟨(lt_iff.1 h).1, (lt_iff.1 h).2.1⟩
  asymm hab hba := lt_asymm (lt_iff.1 hab).2.2 (lt_iff.1 hba).2.2
  trans hab hbc := by
    obtain ⟨ha, _, less⟩ := lt_iff.1 hab
    obtain ⟨_, hc, less'⟩ := lt_iff.1 hbc
    exact lt_iff.2 ⟨ha, hc, less.trans less'⟩
  cotrans hb hac := by
    obtain ⟨ha, hc, less⟩ := lt_iff.1 hac
    rcases lt_or_ge (rank _) (rank _) with below | above
    · exact .inl (lt_iff.2 ⟨ha, hb, below⟩)
    · exact .inr (lt_iff.2 ⟨hb, hc, above.trans_lt less⟩)

namespace Skeleton

theorem points_eq_nil_iff {α : Type} {s : Skeleton α} :
    s.points = [] ↔ s.segments = #[] ∧ s.markers = #[] := by
  simp [points, List.flatMap_eq_nil_iff, Array.eq_empty_iff_forall_not_mem]

/-- Points in another order, if the segments and the markers are. -/
theorem points_perm {α : Type} {s t : Skeleton α}
    (segments : t.segments.toList.Perm s.segments.toList)
    (markers : t.markers.toList.Perm s.markers.toList) : t.points.Perm s.points :=
  (segments.flatMap_right _).append (markers.map _)

theorem extent?_eq_none_iff {α : Type} [Scalar α] {s : Skeleton α} :
    s.extent? = none ↔ s.points = [] := by
  rw [extent?]
  cases s.points <;> simp [Extent.ofPoints?]

theorem exists_final_point {α β : Type} [Scalar α] {s : Skeleton α} {box : Extent α}
    (hbox : s.extent? = some box) (f : Vec α → β) :
    ∃ final, (s.points.map f).getLast? = some final := by
  have points : s.points ≠ [] := fun none_there => by
    rw [extent?_eq_none_iff.2 none_there] at hbox
    cases hbox
  exact ⟨_, List.getLast?_eq_some_getLast (by simpa using points)⟩

/-- Where all coordinates are numbers, none has to be left out. -/
theorem corners_of_numbers {s : Skeleton Float32} {box : Extent Float32}
    (hbox : s.extent? = some box) {axis : Vec Float32 → Float32} (haxis : axis ∈ Vec.axes)
    (numbers : ∀ v ∈ s.points.map axis, v.isNaN = false) :
    LastLeast (fun a b => a < b) (s.points.map axis) (axis box.low) ∧
      LastLeast (fun a b => b < a) (s.points.map axis) (axis box.high) := by
  obtain ⟨final, hfinal⟩ := exists_final_point hbox axis
  have corners := Extent.corners_of_ofPoints? Single.weakOrder hbox haxis hfinal
  rwa [numbers final (List.mem_of_getLast? hfinal), if_neg Bool.false_ne_true,
    behindNaN_eq_self numbers] at corners

/-- Another order of the same coordinates can change no more than the sign of a zero. -/
theorem corners_of_perm {s t : Skeleton Float32} (perm : t.points.Perm s.points)
    {box : Extent Float32} (hbox : s.extent? = some box) {axis : Vec Float32 → Float32}
    (haxis : axis ∈ Vec.axes) (numbers : ∀ v ∈ s.points.map axis, v.isNaN = false) :
    ∃ other, t.extent? = some other ∧
      Single.SameUpToZero (axis other.low) (axis box.low) ∧
      Single.SameUpToZero (axis other.high) (axis box.high) := by
  have values : (t.points.map axis).Perm (s.points.map axis) := perm.map axis
  have numbers' : ∀ v ∈ t.points.map axis, v.isNaN = false :=
    fun v hv => numbers v (values.mem_iff.1 hv)
  have there : t.extent? ≠ none := fun nothing => by
    rw [extent?_eq_none_iff] at nothing
    rw [nothing, List.nil_perm, ← extent?_eq_none_iff, hbox] at perm
    cases perm
  obtain ⟨other, hother⟩ := Option.ne_none_iff_exists'.1 there
  obtain ⟨low, high⟩ := corners_of_numbers hbox haxis numbers
  obtain ⟨low', high'⟩ := corners_of_numbers hother haxis numbers'
  have inside : ∀ v ∈ t.points.map axis, v ∈ s.points.map axis := fun v => values.mem_iff.1
  have inside' : ∀ v ∈ s.points.map axis, v ∈ t.points.map axis := fun v => values.mem_iff.2
  refine ⟨other, hother, ?_, ?_⟩
  · exact Single.sameUpToZero_of_not_lt (numbers' _ low'.mem) (numbers _ low.mem)
      (low.least _ (inside _ low'.mem)) (low'.least _ (inside' _ low.mem))
  · exact Single.sameUpToZero_of_not_lt (numbers' _ high'.mem) (numbers _ high.mem)
      (high'.least _ (inside' _ high.mem)) (high.least _ (inside _ high'.mem))

/-- Only an empty skeleton has no extent. In each coordinate both corners are no numbers if
the last one of the points is not. Otherwise they are the least and the greatest of the
coordinates behind the last one that is not a number, to the bit: of values that differ in
the sign of zero only, it is the last. In particular, where all are numbers, all lie
between the corners, the corners are among them, and another order of the segments and of
the markers can change no more than the sign of a zero. -/
theorem extents_are_exact (s : Skeleton Float32) :
    (s.extent? = none ↔ s.segments = #[] ∧ s.markers = #[]) ∧
    (s.isEmpty = true ↔ s.extent? = none) ∧
    ∀ box, s.extent? = some box → ∀ axis ∈ Vec.axes,
      let values := s.points.map axis
      let numbers := behindNaN Float32.isNaN values
      (∃ final, values.getLast? = some final ∧
        if final.isNaN then (axis box.low).isNaN = true ∧ (axis box.high).isNaN = true
        else
          LastLeast (fun a b => a < b) numbers (axis box.low) ∧
            LastLeast (fun a b => b < a) numbers (axis box.high)) ∧
      ((∀ v ∈ values, v.isNaN = false) →
        (∀ v ∈ values, axis box.low ≤ v ∧ v ≤ axis box.high) ∧
        axis box.low ∈ values ∧ axis box.high ∈ values ∧
        ∀ t : Skeleton Float32, t.segments.toList.Perm s.segments.toList →
          t.markers.toList.Perm s.markers.toList →
          ∃ other, t.extent? = some other ∧
            Single.SameUpToZero (axis other.low) (axis box.low) ∧
            Single.SameUpToZero (axis other.high) (axis box.high)) := by
  have nothing : s.extent? = none ↔ s.segments = #[] ∧ s.markers = #[] :=
    extent?_eq_none_iff.trans points_eq_nil_iff
  refine ⟨nothing, ?_, fun box hbox axis haxis => ?_⟩
  · rw [nothing, isEmpty, Bool.and_eq_true, Array.isEmpty_iff, Array.isEmpty_iff]
  · intro values numbers
    obtain ⟨final, hfinal⟩ := exists_final_point hbox axis
    refine ⟨⟨final, hfinal, Extent.corners_of_ofPoints? Single.weakOrder hbox haxis hfinal⟩,
      fun all => ?_⟩
    obtain ⟨low, high⟩ := corners_of_numbers hbox haxis all
    refine ⟨fun v hv => ⟨?_, ?_⟩, low.mem, high.mem, fun t segments markers => ?_⟩
    · exact Single.le_of_not_lt (all _ low.mem) (all v hv) (low.least v hv)
    · exact Single.le_of_not_lt (all v hv) (all _ high.mem) (high.least v hv)
    · exact corners_of_perm (points_perm segments markers) hbox haxis all

/-- Of the first coordinates only those behind the one that is no number count. Of the
second ones all count, and the two zeros tie. The last of the third ones is no number. -/
theorem extents_are_exact_behind_no_number :
    let nan : Float32 := 0 / 0
    let early : Marker Float32 := ⟨⟨2, 0, 1⟩, 'L'⟩
    let late : Marker Float32 := ⟨⟨1, -0, nan⟩, 'K'⟩
    let s : Skeleton Float32 := ⟨#[⟨⟨9, 3, 0⟩, ⟨nan, 4, 0⟩⟩], #[early, late]⟩
    let t : Skeleton Float32 := ⟨s.segments, #[late, early]⟩
    let box : Extent Float32 := ⟨⟨1, -0, nan⟩, ⟨2, 4, nan⟩⟩
    s.extent? = some box ∧
      behindNaN Float32.isNaN (s.points.map Vec.x) = [2, 1] ∧
      LastLeast (fun a b => a < b) [2, 1] box.low.x ∧
      LastLeast (fun a b => b < a) [2, 1] box.high.x ∧
      (∀ v ∈ s.points.map Vec.y, v.isNaN = false) ∧
      (∀ v ∈ s.points.map Vec.y, box.low.y ≤ v ∧ v ≤ box.high.y) ∧
      (∃ other, t.extent? = some other ∧ other.low.y = 0 ∧
        Single.SameUpToZero other.low.y box.low.y) ∧
      box.low.z.isNaN = true := by
  intro nan early late s t box
  have hbox : s.extent? = some box := by decide +kernel
  have there : t.extent? = some ⟨⟨1, 0, 1⟩, ⟨2, 4, 1⟩⟩ := by decide +kernel
  have numbers : ∀ v ∈ s.points.map Vec.y, v.isNaN = false := by decide +kernel
  have some_numbers : behindNaN Float32.isNaN (s.points.map Vec.x) = [2, 1] := by decide +kernel
  obtain ⟨_, _, corners⟩ := extents_are_exact s
  obtain ⟨⟨first, hfirst, x⟩, _⟩ := corners box hbox Vec.x (by simp [Vec.axes])
  obtain ⟨_, y⟩ := corners box hbox Vec.y (by simp [Vec.axes])
  obtain ⟨⟨last, hlast, z⟩, _⟩ := corners box hbox Vec.z (by simp [Vec.axes])
  obtain rfl : first = 1 := by simpa [points, s, early, late] using hfirst.symm
  obtain rfl : last = nan := by simpa [points, s, early, late] using hlast.symm
  obtain ⟨between, _, _, reordered⟩ := y numbers
  obtain ⟨other, hother, same, _⟩ := reordered t (List.Perm.refl _) (List.Perm.swap _ _ _)
  rw [there] at hother
  cases hother
  rw [some_numbers] at x
  rw [if_pos (by decide +kernel)] at z
  exact ⟨hbox, some_numbers, x.1, x.2, numbers, between, ⟨_, there, rfl, same⟩, z.1⟩

end Skeleton
end PlantGrammar
