import Mathlib.Algebra.Order.Ring.Nat
import Mathlib.Data.Nat.SuccPred
import PlantGrammar.Proofs.Engine.Grammar
import PlantGrammar.Proofs.Engine.Origins

/-!
# Reports of new generations

An engine that has derived generations reports their numbers and the size of the last one.
The account of a history names the generations that a pass made, and one equation ties the
reports to it: the numbers that were reported, one report behind the other, are the numbers
of these generations, from the first to the last. So no number is reported twice, none is
left out, and the reports are in order. A line of the grammar adds to the account and not to
the numbers, and what puts the grammar away begins both again.
-/
namespace PlantGrammar

/-- A report that generations `first` to `last` were derived, the last one of this size. -/
structure Extension where
  first : Nat
  last : Nat
  size : Nat
  deriving DecidableEq, Repr

namespace Extension

/-- The numbers of the generations that were derived. -/
def range (e : Extension) : List Nat := List.range' e.first (e.last + 1 - e.first)

/-- Whether a generation was derived with this report. -/
def covers (n : Nat) (e : Extension) : Bool := e.first ≤ n ∧ n ≤ e.last

theorem mem_range {e : Extension} {n : Nat} : n ∈ e.range ↔ e.first ≤ n ∧ n ≤ e.last := by
  rw [range, List.mem_range'_1]
  omega

theorem count_range (e : Extension) (n : Nat) : e.range.count n = if e.covers n then 1 else 0 := by
  have once : e.range.Nodup := List.nodup_range'
  simp only [once.count, mem_range, covers, decide_eq_true_eq]

theorem count_flatMap_range (reports : List Extension) (n : Nat) :
    (reports.flatMap range).count n = reports.countP (covers n) := by
  induction reports with
  | nil => rfl
  | cons e reports ih =>
      rw [List.flatMap_cons, List.count_append, ih, count_range, List.countP_cons, Nat.add_comm]

end Extension

/-- What an event reports of new generations, if it does. -/
def Event.extension? : Event → Option Extension
  | .extended first last size => some ⟨first, last, size⟩
  | _ => none

/-- What a reply reports of new generations. -/
def Reply.extensions {α β : Type} (reply : Reply α β) : List Extension :=
  reply.events.filterMap Event.extension?

namespace Origin

def isPass : Origin → Bool
  | initiator _ => false
  | pass _ _ => true

theorem findIdxs_ofLines (lines : List Word) (start : Nat) :
    (ofLines lines).findIdxs isPass start = [] := by
  rw [List.findIdxs_eq_nil_iff]
  intro origin hmem
  obtain ⟨word, _, rfl⟩ := List.mem_map.1 hmem
  rfl

theorem countP_isPass (origins : List Origin) :
    origins.countP isPass + (origins.filterMap initiator?).length = origins.length := by
  induction origins with
  | nil => rfl
  | cons origin origins ih =>
      cases origin with
      | initiator word =>
          show origins.countP isPass + ((origins.filterMap initiator?).length + 1) = _
          rw [← Nat.add_assoc, ih, List.length_cons]
      | pass rules tape =>
          rw [List.countP_cons_of_pos rfl, List.filterMap_cons_none rfl, Nat.add_right_comm, ih,
            List.length_cons]

end Origin

namespace Generations

/-- The reports name the generations that passes made and the size of the last one of each
report. -/
structure Reported (kept : Generations) (origins : List Origin) (reports : List Extension) :
    Prop where
  numbers : reports.flatMap Extension.range = origins.findIdxs Origin.isPass
  proper : ∀ e ∈ reports, e.first ≤ e.last
  sizes : ∀ e ∈ reports, e.size = (kept.wordOr e.last).byteSize

theorem reported_ofLines (kept : Generations) (lines : List Word) :
    kept.Reported (Origin.ofLines lines) [] where
  numbers := (Origin.findIdxs_ofLines lines 0).symm
  proper := nofun
  sizes := nofun

namespace Reported

variable {kept : Generations} {origins : List Origin} {reports : List Extension}

theorem last_lt (h : kept.Reported origins reports) {e : Extension} (hmem : e ∈ reports) :
    e.last < origins.length := by
  have reported : e.last ∈ reports.flatMap Extension.range :=
    List.mem_flatMap.2 ⟨e, hmem, Extension.mem_range.2 ⟨h.proper e hmem, le_rfl⟩⟩
  rw [h.numbers, List.mem_findIdxs_iff_exists_getElem_pos] at reported
  exact reported.1

/-- More generations do not matter if no pass made them. -/
theorem of_prefix (h : kept.Reported origins reports) (size : kept.size = origins.length)
    {later : Generations} (same : kept.words.toList <+: later.words.toList) (lines : List Word) :
    later.Reported (origins ++ Origin.ofLines lines) reports where
  numbers := by rw [List.findIdxs_append, Origin.findIdxs_ofLines, List.append_nil, h.numbers]
  proper := h.proper
  sizes e hmem := by rw [h.sizes e hmem, wordOr_of_prefix same (size ▸ h.last_lt hmem)]

theorem pairwise (h : kept.Reported origins reports) :
    reports.Pairwise fun a b => a.last < b.first := by
  have increasing : (reports.flatMap Extension.range).Pairwise (· < ·) :=
    h.numbers ▸ List.pairwise_findIdxs
  refine (List.pairwise_flatMap.1 increasing).2.imp_of_mem fun ha hb before => ?_
  exact before _ (Extension.mem_range.2 ⟨h.proper _ ha, le_rfl⟩) _
    (Extension.mem_range.2 ⟨le_rfl, h.proper _ hb⟩)

theorem sum_eq (h : kept.Reported origins reports) :
    (reports.map fun e => e.last - e.first + 1).sum = origins.countP Origin.isPass := by
  have widths : reports.map (fun e => e.last - e.first + 1) =
      reports.map fun e => e.range.length := by
    refine List.map_congr_left fun e hmem => ?_
    have proper := h.proper e hmem
    rw [Extension.range, List.length_range']
    omega
  rw [widths, ← List.length_flatMap, h.numbers, List.length_findIdxs]

/-- A number is reported once if a pass made the generation, and not at all otherwise. -/
theorem countP_covers (h : kept.Reported origins reports) (n : Nat) :
    reports.countP (Extension.covers n) = if origins[n]?.any Origin.isPass then 1 else 0 := by
  have once : (origins.findIdxs Origin.isPass).Nodup := List.nodup_findIdxs
  have there : n ∈ origins.findIdxs Origin.isPass ↔ origins[n]?.any Origin.isPass = true := by
    simp only [List.mem_findIdxs_iff_exists_getElem_pos, Option.any_eq_true,
      List.getElem?_eq_some_iff, exists_exists_eq_and]
  rw [← Extension.count_flatMap_range, h.numbers]
  simp only [once.count, there]

end Reported

end Generations

namespace Engine

variable {α : Type}

theorem findIdxs_passes (engine : Engine α) (count start : Nat) :
    (engine.passes count).findIdxs Origin.isPass start = List.range' start count := by
  induction count generalizing engine start with
  | zero => rfl
  | succ count ih =>
      show start :: (engine.derive.1.passes count).findIdxs Origin.isPass (start + 1) = _
      rw [ih, List.range'_succ]

/-- Asking for a generation reports those that are derived for it, if there are any. -/
theorem extensions_generation {engine : Engine α} (hp : engine.rules.Productive) (n : Nat) :
    (engine.generation n).extensions =
      if n < engine.generations.size then []
      else [⟨engine.generations.size, n,
        ((engine.generation n).engine.generations.wordOr n).byteSize⟩] := by
  split
  · rename_i there
    rw [generation_of_lt there]
    rfl
  · rename_i missing
    have current := (answer_generation hp n).symm.trans
      (answer_generation_of_size_le hp (Nat.le_of_not_lt missing))
    rw [Except.ok.inj current, generation, if_neg missing]
    have derived := deriveMany_ok hp (n + 1 - engine.generations.size)
    cases made : engine.deriveMany (n + 1 - engine.generations.size) with
    | mk later outcome =>
        rw [made] at derived
        cases derived
        rfl

theorem reported_generation {engine : Engine α} (hp : engine.rules.Productive)
    {origins : List Origin} {reports : List Extension}
    (arisen : engine.generations.Arisen origins)
    (h : engine.generations.Reported origins reports) (n : Nat) :
    (engine.generation n).engine.generations.Reported (origins ++ engine.passesTo n)
      (reports ++ (engine.generation n).extensions) := by
  have size := arisen.size_eq
  rw [extensions_generation hp]
  split
  · rename_i there
    have nothing : engine.passesTo n = [] := by
      rw [passesTo, Nat.sub_eq_zero_of_le there]
      rfl
    rw [nothing, List.append_nil, List.append_nil, generation_of_lt there]
    exact h
  · rename_i missing
    refine ⟨?_, fun e hmem => ?_, fun e hmem => ?_⟩
    · rw [List.flatMap_append, List.findIdxs_append, passesTo, findIdxs_passes, h.numbers,
        Nat.zero_add, ← size, List.flatMap_singleton]
      rfl
    · rcases List.mem_append.1 hmem with old | new
      · exact h.proper e old
      · cases List.mem_singleton.1 new
        exact Nat.le_of_not_lt missing
    · rcases List.mem_append.1 hmem with old | new
      · rw [h.sizes e old, Generations.wordOr_of_prefix (words_prefix_generation engine n)
          (size ▸ h.last_lt old)]
      · cases List.mem_singleton.1 new
        rfl

theorem extensions_addAll (engine : Engine α) (lines : List Word) :
    (engine.addAll lines).extensions = [] := by
  rw [Reply.extensions, events_addAll, List.filterMap_map]
  exact List.filterMap_eq_nil_iff.2 fun _ _ => rfl

theorem extensions_add (engine : Engine α) (raw : Word) : (engine.add raw).extensions = [] := by
  have alone : (engine.addAll [raw]).events = (engine.add raw).events := List.append_nil _
  have none := extensions_addAll engine [raw]
  rwa [Reply.extensions, alone] at none

theorem extensions_load (engine : Engine α) (lines : List Word) :
    (engine.load lines).extensions = [] := by
  show ((engine.reset.addAll lines).events ++ [_]).filterMap Event.extension? = []
  rw [List.filterMap_append]
  exact List.append_eq_nil_iff.2 ⟨extensions_addAll engine.reset lines, rfl⟩

variable [Scalar α] [Trigonometry α]

/-- A walk reports at most that it came to the end of its word. -/
theorem filterMap_events_read (walk : Walk α) (word : Word) :
    (walk.read word).events.filterMap Event.extension? = [] := by
  rw [Walk.read]
  cases walk.follow 0 word with
  | mk last outcome => cases outcome <;> rfl

theorem extensions_trace (engine : Engine α) (n : Nat) (skeleton : Skeleton α) :
    (engine.trace n skeleton).extensions = (engine.generation n).extensions := by
  cases derived : (engine.generation n).answer with
  | error fault =>
      have events : (engine.trace n skeleton).events = (engine.generation n).events := by
        simp only [trace, derived]
      rw [Reply.extensions, events, Reply.extensions]
  | ok word =>
      have events : (engine.trace n skeleton).events = (engine.generation n).events ++
          ((Walk.start engine.settings skeleton).read word).events := by
        simp only [trace, derived]
      rw [Reply.extensions, events, List.filterMap_append, filterMap_events_read, List.append_nil,
        Reply.extensions]

/-- Drawing a generation reports what asking for it does, also when the walk ends at a fault. -/
theorem extensions_serve {request : Request α} {n : Nat} (asked : request.asked? = some n)
    (engine : Engine α) : (engine.serve request).extensions = (engine.generation n).extensions := by
  cases request with
  | generation m => cases asked; rfl
  | trace m skeleton => cases asked; exact extensions_trace engine n skeleton
  | grow m => cases asked; exact extensions_trace engine n Skeleton.empty
  | _ => cases asked

theorem extensions_serve_of_asked_none {request : Request α} (asked : request.asked? = none)
    (engine : Engine α) : (engine.serve request).extensions = [] := by
  cases request with
  | setAngle | setStep | reset | expand => rfl
  | add line => exact extensions_add engine line
  | load lines => exact extensions_load engine lines
  | loadText text => exact extensions_load engine text.lines
  | loadPreset preset => exact extensions_load engine preset.lines
  | generation | trace | grow => cases asked

/-- The reports since the grammar was last put away, after one more request. -/
def reportsAfter (engine : Engine α) (reports : List Extension) (request : Request α) :
    List Extension :=
  let now := (engine.serve request).extensions
  if request.forgets then now else reports ++ now

/-- The reports of a history, request by request. -/
def reportsFrom (engine : Engine α) (reports : List Extension) :
    List (Request α) → List Extension
  | [] => reports
  | request :: rest =>
      (engine.serve request).engine.reportsFrom (engine.reportsAfter reports request) rest

/-- What a history that begins with nothing kept has reported of new generations since it
last put the grammar away. -/
def reports (engine : Engine α) (history : List (Request α)) : List Extension :=
  engine.reportsFrom [] history

/-- Serving a request keeps reports and account in accord. -/
theorem reported_serve {engine : Engine α} (hp : engine.rules.Productive)
    {origins : List Origin} {reports : List Extension}
    (arisen : engine.generations.Arisen origins)
    (h : engine.generations.Reported origins reports) (request : Request α) :
    (engine.serve request).engine.generations.Reported (engine.originsAfter origins request)
      (engine.reportsAfter reports request) := by
  cases hasked : request.asked? with
  | some n =>
      have served := reported_generation hp arisen h n
      rw [← engine_serve hasked, ← extensions_serve hasked] at served
      cases request with
      | generation | trace | grow =>
          cases hasked
          exact served
      | _ => cases hasked
  | none =>
      rw [reportsAfter, extensions_serve_of_asked_none hasked, List.append_nil]
      cases request with
      | setAngle | setStep | expand => exact h
      | reset => exact Generations.reported_ofLines _ []
      | add line => exact h.of_prefix arisen.size_eq (words_prefix_add engine line) [line]
      | load lines => exact Generations.reported_ofLines _ lines
      | loadText text => exact Generations.reported_ofLines _ text.lines
      | loadPreset preset => exact Generations.reported_ofLines _ preset.lines
      | generation | trace | grow => cases hasked

theorem reported_serveAll {engine : Engine α} (hp : engine.rules.Productive)
    {origins : List Origin} {reports : List Extension}
    (arisen : engine.generations.Arisen origins)
    (h : engine.generations.Reported origins reports) (history : List (Request α)) :
    (engine.serveAll history).1.generations.Reported (engine.originsFrom origins history)
      (engine.reportsFrom reports history) := by
  induction history generalizing engine origins reports with
  | nil => exact h
  | cons request rest ih =>
      exact ih (lasting_productive.serve hp request) (arisen_serve hp arisen request)
        (reported_serve hp arisen h request)

/-- A request that asks for no generation makes no pass. -/
theorem passes_serve_le {request : Request α} (asked : request.asked? = none)
    (engine : Engine α) :
    (engine.serve request).engine.generations.passes ≤ engine.generations.passes := by
  have loaded : ∀ lines, (engine.load lines).engine.generations.passes = 0 := by
    intro lines
    rw [generations_load]
    rfl
  cases request with
  | setAngle | setStep | expand => exact le_rfl
  | reset => exact Nat.zero_le _
  | add line =>
      show (engine.addAll [line]).engine.generations.passes ≤ _
      rw [generations_addAll, Generations.foldl_addInitiator]
  | load lines => exact (loaded lines).trans_le (Nat.zero_le _)
  | loadText text => exact (loaded text.lines).trans_le (Nat.zero_le _)
  | loadPreset preset => exact (loaded preset.lines).trans_le (Nat.zero_le _)
  | generation | trace | grow => cases asked

/-- There is one report of new generations if passes have been made, and none otherwise. -/
theorem length_extensions_serve {engine : Engine α} (hp : engine.rules.Productive)
    (request : Request α) :
    (engine.serve request).extensions.length =
      if engine.generations.passes < (engine.serve request).engine.generations.passes then 1
      else 0 := by
  cases hasked : request.asked? with
  | none =>
      rw [extensions_serve_of_asked_none hasked, if_neg (passes_serve_le hasked engine).not_gt]
      rfl
  | some n =>
      rw [extensions_serve hasked, engine_serve hasked, extensions_generation hp, engine_generation,
        passes_deriveMany hp]
      by_cases there : n < engine.generations.size
      · rw [if_pos there, if_neg (by omega)]
        rfl
      · rw [if_neg there, if_pos (by omega)]
        rfl

/-- After any history, a request reports new generations once if it makes passes and not at
all otherwise; only asking for a generation can make passes. The reports since the grammar was
last put away name ranges of kept generations, none of them empty, in increasing order and
apart from each other, each with the size of its last word. Together the ranges are as wide
as there were passes. Each kept generation came from a pass and is in one of the ranges, or it
came from a line of the grammar and is in none. -/
theorem reports_account_for_passes (settings : Settings α) (tape : RandomTape)
    (history : List (Request α)) :
    let fresh := start settings tape
    let reached := (fresh.serveAll history).1
    let kept := reached.generations
    let account := fresh.origins history
    let reports := fresh.reports history
    (∀ request : Request α,
      (reached.serve request).extensions.length =
        (if kept.passes < (reached.serve request).engine.generations.passes then 1 else 0) ∧
      (request.asked? = none → (reached.serve request).extensions = [])) ∧
    (∀ report ∈ reports, report.first ≤ report.last ∧ report.last < kept.size ∧
      report.size = (kept.wordOr report.last).byteSize) ∧
    reports.Pairwise (fun earlier later => earlier.last < later.first) ∧
    (reports.map fun report => report.last - report.first + 1).sum = kept.passes ∧
    account.length = kept.size ∧
    account.filterMap Origin.initiator? = Request.initiatorsSince history ∧
    ∀ n, reports.countP (Extension.covers n) = if account[n]?.any Origin.isPass then 1 else 0 := by
  intro fresh reached kept account reports
  have hp : reached.rules.Productive := productive_serveAll settings tape history
  have none_yet : fresh.generations.Arisen [] := Generations.Arisen.empty
  have arisen : kept.Arisen account := arisen_serveAll RuleSet.productive_empty none_yet history
  have reported : kept.Reported account reports :=
    reported_serveAll RuleSet.productive_empty none_yet (Generations.reported_ofLines _ []) history
  refine ⟨fun request => ⟨length_extensions_serve hp request, fun asked =>
      extensions_serve_of_asked_none asked reached⟩, fun report hmem => ?_, reported.pairwise, ?_,
    arisen.size_eq.symm, filterMap_originsFrom fresh [] history, reported.countP_covers⟩
  · refine ⟨reported.proper report hmem, ?_, reported.sizes report hmem⟩
    rw [arisen.size_eq]
    exact reported.last_lt hmem
  · have counted := arisen.passes
    have parted := Origin.countP_isPass account
    rw [reported.sum_eq]
    omega

/-- The first generation is a pass over nothing and the second one a line that came later.
The third one was derived for a drawing that ends at a fault, and the last two together;
in between a generation that is kept was asked for again. -/
theorem reports_account_for_passes_around_late_initiator :
    let history : List (Request Float32) :=
      [.generation 0, .add "F".toList, .add "F -> F]".toList, .trace 2 Skeleton.empty,
        .generation 1, .grow 4]
    let fresh : Engine Float32 := start Settings.standard (RandomTape.start fun _ => 0)
    let reached := (fresh.serveAll history).1
    let reports := fresh.reports history
    reports = [⟨0, 0, 0⟩, ⟨2, 2, 2⟩, ⟨3, 4, 4⟩] ∧
      (reached.serve (.expand "F".toList)).extensions = [] ∧
      (reached.serve (.generation 5)).extensions.length = 1 ∧
      (reports.map fun report => report.last - report.first + 1).sum =
        reached.generations.passes ∧
      (∀ report ∈ reports, report.size = (reached.generations.wordOr report.last).byteSize) ∧
      reports.countP (Extension.covers 1) = 0 ∧ reports.countP (Extension.covers 3) = 1 := by
  refine ⟨by decide +kernel, ((reports_account_for_passes _ _ _).1 _).2 rfl,
    ((reports_account_for_passes _ _ _).1 _).1.trans (if_pos (by decide +kernel)),
    (reports_account_for_passes _ _ _).2.2.2.1,
    fun report hmem => ((reports_account_for_passes _ _ _).2.1 report hmem).2.2, ?_, ?_⟩
  · exact ((reports_account_for_passes _ _ _).2.2.2.2.2.2 1).trans (if_neg (by decide +kernel))
  · exact ((reports_account_for_passes _ _ _).2.2.2.2.2.2 3).trans (if_pos (by decide +kernel))

end Engine
end PlantGrammar
