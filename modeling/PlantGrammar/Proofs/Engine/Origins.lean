import PlantGrammar.Proofs.Engine.History

/-!
# Where the generations of an engine come from

A generation is there because a line of the grammar put it there, or because a
pass expanded the one before it. A history of requests has an account of this: an
origin for each generation that is kept, written down with the rules and the tape
of the moment at which a pass was made. The account is complete, so the words
that are kept follow from it, and nothing else about them is left open.
-/
namespace PlantGrammar

inductive Origin where
  /-- A line of the grammar. -/
  | initiator (word : Word)
  /-- A pass over the generation before, with the rules and the tape of its moment. -/
  | pass (rules : RuleSet) (tape : RandomTape)

namespace Origin

/-- What a generation of this origin is, behind the word before it. -/
def yield (origin : Origin) (before : Word) : Except Fault Word :=
  match origin with
  | initiator word => .ok word
  | pass rules tape => (rules.expand before tape).outcome

def initiator? : Origin → Option Word
  | initiator word => some word
  | pass _ _ => none

/-- The generations that lines bring with them. -/
def ofLines (lines : List Word) : List Origin := (Line.initiators lines).map initiator

/-- Words one behind the other, each of its origin. The first one stands behind a
word that is given. -/
inductive Succession : Word → List Origin → List Word → Prop where
  | nil (before : Word) : Succession before [] []
  | cons {before word : Word} {origin : Origin} {origins : List Origin} {words : List Word}
      (arises : origin.yield before = .ok word) (rest : Succession word origins words) :
      Succession before (origin :: origins) (word :: words)

theorem Succession.length_eq {before : Word} {origins : List Origin} {words : List Word}
    (h : Succession before origins words) : origins.length = words.length := by
  induction h with
  | nil => rfl
  | cons _ _ ih => rw [List.length_cons, List.length_cons, ih]

/-- One more word, behind the last one that is there. -/
theorem Succession.snoc {before word : Word} {origins : List Origin} {words : List Word}
    (h : Succession before origins words) {origin : Origin}
    (arises : origin.yield (words.getLast?.getD before) = .ok word) :
    Succession before (origins ++ [origin]) (words ++ [word]) := by
  induction h with
  | nil before => exact .cons arises (.nil word)
  | cons first _ ih =>
      rw [List.getLast?_cons] at arises
      exact .cons first (ih arises)

/-- Each word is what its origin makes of the word before it. -/
theorem Succession.getElem? {before : Word} {origins : List Origin} {words : List Word}
    (h : Succession before origins words) {i : Nat} {origin : Origin}
    (found : origins[i]? = some origin) :
    ∃ previous word, (before :: words)[i]? = some previous ∧ words[i]? = some word ∧
      origin.yield previous = .ok word := by
  induction h generalizing i with
  | nil => cases found
  | @cons before word first _ _ arises _ ih =>
      cases i with
      | zero =>
          cases found
          exact ⟨before, word, rfl, rfl, arises⟩
      | succ i => exact ih found

theorem filterMap_ofLines (lines : List Word) :
    (ofLines lines).filterMap initiator? = Line.initiators lines := by
  rw [ofLines, List.filterMap_map]
  exact List.filterMap_some

end Origin

namespace Generations

/-- The word that stands before generation `n`, which is empty for the first one. -/
def wordBefore (g : Generations) : Nat → Word
  | 0 => []
  | n + 1 => g.wordOr n

/-- Generations as an account tells them. -/
structure Arisen (g : Generations) (origins : List Origin) : Prop where
  current : g.current = g.words.toList.getLast?.getD []
  succession : Origin.Succession [] origins g.words.toList
  passes : g.passes + (origins.filterMap Origin.initiator?).length = origins.length

theorem Arisen.empty : empty.Arisen [] := ⟨rfl, .nil [], rfl⟩

/-- A word that an origin makes of the current word is kept as the new current word. -/
theorem Arisen.push {g : Generations} {origins : List Origin} (h : g.Arisen origins)
    {origin : Origin} {word : Word} (arises : origin.yield g.current = .ok word) :
    (g.words.push word).toList.getLast?.getD [] = word ∧
      Origin.Succession [] (origins ++ [origin]) (g.words.push word).toList := by
  rw [h.current] at arises
  rw [Array.toList_push]
  refine ⟨?_, h.succession.snoc arises⟩
  rw [List.getLast?_concat, Option.getD_some]

theorem Arisen.addInitiator {g : Generations} {origins : List Origin} (h : g.Arisen origins)
    (word : Word) : (g.addInitiator word).Arisen (origins ++ [.initiator word]) := by
  have arises : (Origin.initiator word).yield g.current = .ok word := rfl
  obtain ⟨last, succession⟩ := h.push arises
  have counted := h.passes
  refine ⟨last.symm, succession, ?_⟩
  rw [List.filterMap_append, List.length_append, List.length_append, passes_addInitiator]
  show g.passes + ((origins.filterMap Origin.initiator?).length + 1) = origins.length + 1
  omega

theorem Arisen.addPass {g : Generations} {origins : List Origin} (h : g.Arisen origins)
    {rules : RuleSet} {tape later : RandomTape} {word : Word}
    (expanded : rules.expand g.current tape = ⟨.ok word, later⟩) :
    (g.addPass word).Arisen (origins ++ [.pass rules tape]) := by
  have arises : (Origin.pass rules tape).yield g.current = .ok word := by
    rw [Origin.yield, expanded]
  obtain ⟨last, succession⟩ := h.push arises
  have counted := h.passes
  refine ⟨last.symm, succession, ?_⟩
  rw [List.filterMap_append, List.length_append, List.length_append, passes_addPass]
  show g.passes + 1 + ((origins.filterMap Origin.initiator?).length + 0) = origins.length + 1
  omega

theorem Arisen.addInitiators {g : Generations} {origins : List Origin} (h : g.Arisen origins)
    (words : List Word) :
    (words.foldl Generations.addInitiator g).Arisen (origins ++ words.map .initiator) := by
  induction words generalizing g origins with
  | nil =>
      rw [List.map_nil, List.append_nil]
      exact h
  | cons word words ih =>
      have next := ih (h.addInitiator word)
      rwa [List.append_assoc] at next

theorem Arisen.size_eq {g : Generations} {origins : List Origin} (h : g.Arisen origins) :
    g.size = origins.length := by
  rw [h.succession.length_eq, size, Array.length_toList]

/-- An account gives the origin of each generation that is kept. -/
theorem Arisen.yield_eq {g : Generations} {origins : List Origin} (h : g.Arisen origins) {i : Nat}
    {origin : Origin} (found : origins[i]? = some origin) :
    origin.yield (g.wordBefore i) = .ok (g.wordOr i) := by
  obtain ⟨previous, word, hprevious, hword, arises⟩ := h.succession.getElem? found
  have last : g.wordOr i = word := by
    rw [wordOr, word?, ← Array.getElem?_toList, hword, Option.getD_some]
  have first : g.wordBefore i = previous := by
    cases i with
    | zero => exact Option.some.inj hprevious
    | succ i =>
        rw [List.getElem?_cons_succ] at hprevious
        rw [wordBefore, wordOr, word?, ← Array.getElem?_toList, hprevious, Option.getD_some]
  rw [first, last, arises]

end Generations

namespace Request

variable {α : Type}

/-- The initiators among the lines since the grammar was last put away, after one
more request. -/
def initiatorsAfter (words : List Word) : Request α → List Word
  | reset => []
  | add line => words ++ Line.initiators [line]
  | load lines => Line.initiators lines
  | loadText text => Line.initiators text.lines
  | loadPreset preset => Line.initiators preset.lines
  | _ => words

/-- The initiators that a history has brought since it last put the grammar away. -/
def initiatorsSince (history : List (Request α)) : List Word :=
  history.foldl initiatorsAfter []

end Request

namespace Engine

variable {α : Type}

/-- The passes by which an engine derives so many generations. -/
def passes (engine : Engine α) : Nat → List Origin
  | 0 => []
  | count + 1 => .pass engine.rules engine.tape :: engine.derive.1.passes count

/-- The passes that are missing for generation `n`. -/
def passesTo (engine : Engine α) (n : Nat) : List Origin :=
  engine.passes (n + 1 - engine.generations.size)

/-- The account of an engine after one more request. -/
def originsAfter (engine : Engine α) (origins : List Origin) : Request α → List Origin
  | .reset => []
  | .add line => origins ++ Origin.ofLines [line]
  | .load lines => Origin.ofLines lines
  | .loadText text => Origin.ofLines text.lines
  | .loadPreset preset => Origin.ofLines preset.lines
  | .generation n => origins ++ engine.passesTo n
  | .trace n _ => origins ++ engine.passesTo n
  | .grow n => origins ++ engine.passesTo n
  | .setAngle _ => origins
  | .setStep _ => origins
  | .expand _ => origins

theorem filterMap_passes (engine : Engine α) (count : Nat) :
    (engine.passes count).filterMap Origin.initiator? = [] := by
  induction count generalizing engine with
  | zero => rfl
  | succ count ih => exact ih engine.derive.1

theorem filterMap_originsAfter (engine : Engine α) (origins : List Origin)
    (request : Request α) :
    (engine.originsAfter origins request).filterMap Origin.initiator? =
      request.initiatorsAfter (origins.filterMap Origin.initiator?) := by
  have passed : ∀ n, (origins ++ engine.passesTo n).filterMap Origin.initiator? =
      origins.filterMap Origin.initiator? := by
    intro n
    rw [List.filterMap_append, passesTo, filterMap_passes, List.append_nil]
  cases request with
  | setAngle degrees => rfl
  | setStep distance => rfl
  | expand word => rfl
  | reset => rfl
  | add line =>
      show (origins ++ Origin.ofLines [line]).filterMap Origin.initiator? = _
      rw [List.filterMap_append, Origin.filterMap_ofLines]
      rfl
  | load lines => exact Origin.filterMap_ofLines lines
  | loadText text => exact Origin.filterMap_ofLines text.lines
  | loadPreset preset => exact Origin.filterMap_ofLines preset.lines
  | generation n => exact passed n
  | trace n skeleton => exact passed n
  | grow n => exact passed n

theorem arisen_addAll {engine : Engine α} {origins : List Origin}
    (h : engine.generations.Arisen origins) (lines : List Word) :
    (engine.addAll lines).engine.generations.Arisen (origins ++ Origin.ofLines lines) := by
  rw [generations_addAll]
  exact h.addInitiators (Line.initiators lines)

theorem arisen_load (engine : Engine α) (lines : List Word) :
    (engine.load lines).engine.generations.Arisen (Origin.ofLines lines) := by
  have fresh : engine.reset.generations.Arisen [] := Generations.Arisen.empty
  exact arisen_addAll fresh lines

theorem arisen_deriveMany {engine : Engine α} (hp : engine.rules.Productive)
    {origins : List Origin} (h : engine.generations.Arisen origins) (count : Nat) :
    (engine.deriveMany count).1.generations.Arisen (origins ++ engine.passes count) := by
  induction count generalizing engine origins with
  | zero =>
      rw [passes, List.append_nil]
      exact h
  | succ count ih =>
      obtain ⟨word, later, expanded, derived⟩ := derive_of_productive hp
      have hnext : engine.derive.1.rules.Productive := by rwa [rules_derive]
      have next : engine.derive.1.generations.Arisen
          (origins ++ [.pass engine.rules engine.tape]) := by
        rw [derived]
        exact h.addPass expanded
      have all := ih hnext next
      rw [deriveMany_succ hp, passes]
      rwa [List.append_assoc] at all

theorem arisen_generation {engine : Engine α} (hp : engine.rules.Productive)
    {origins : List Origin} (h : engine.generations.Arisen origins) (n : Nat) :
    (engine.generation n).engine.generations.Arisen (origins ++ engine.passesTo n) := by
  rw [engine_generation]
  exact arisen_deriveMany hp h _

variable [Scalar α] [Trigonometry α]

/-- The account of a history, request by request. -/
def originsFrom (engine : Engine α) (origins : List Origin) : List (Request α) → List Origin
  | [] => origins
  | request :: rest =>
      (engine.serve request).engine.originsFrom (engine.originsAfter origins request) rest

/-- The account of a history that begins with nothing kept. -/
def origins (engine : Engine α) (history : List (Request α)) : List Origin :=
  engine.originsFrom [] history

/-- Serving a request keeps the account true. -/
theorem arisen_serve {engine : Engine α} (hp : engine.rules.Productive) {origins : List Origin}
    (h : engine.generations.Arisen origins) (request : Request α) :
    (engine.serve request).engine.generations.Arisen (engine.originsAfter origins request) := by
  cases request with
  | setAngle degrees => exact h
  | setStep distance => exact h
  | expand word => exact h
  | reset => exact Generations.Arisen.empty
  | add line => exact arisen_addAll h [line]
  | load lines => exact arisen_load engine lines
  | loadText text => exact arisen_load engine text.lines
  | loadPreset preset => exact arisen_load engine preset.lines
  | generation n => exact arisen_generation hp h n
  | trace n skeleton =>
      rw [engine_serve rfl]
      exact arisen_generation hp h n
  | grow n =>
      rw [engine_serve rfl]
      exact arisen_generation hp h n

theorem arisen_serveAll {engine : Engine α} (hp : engine.rules.Productive)
    {origins : List Origin} (h : engine.generations.Arisen origins)
    (history : List (Request α)) :
    (engine.serveAll history).1.generations.Arisen (engine.originsFrom origins history) := by
  induction history generalizing engine origins with
  | nil => exact h
  | cons request rest ih =>
      have hnext := lasting_productive.serve hp request
      exact ih hnext (arisen_serve hp h request)

/-- The account names the initiators of the history, in their order. -/
theorem filterMap_originsFrom (engine : Engine α) (origins : List Origin)
    (history : List (Request α)) :
    (engine.originsFrom origins history).filterMap Origin.initiator? =
      history.foldl Request.initiatorsAfter (origins.filterMap Origin.initiator?) := by
  induction history generalizing engine origins with
  | nil => rfl
  | cons request rest ih =>
      rw [originsFrom, ih, filterMap_originsAfter]
      rfl

/-- After any history, the last generation is the current word, there are as many
generations as passes and initiators, and each generation is what its origin makes
of the one before. Whatever is asked next, the generations stay, unless the grammar
is put away. A request for generation `n` derives as many as that takes, and
nothing if it is there. -/
theorem generations_have_origins (settings : Settings α) (tape : RandomTape)
    (history : List (Request α)) :
    let fresh := start settings tape
    let reached := (fresh.serveAll history).1
    let kept := reached.generations
    let account := fresh.origins history
    kept.current = kept.words.back?.getD [] ∧
    kept.size = kept.passes + (Request.initiatorsSince history).length ∧
    (account.length = kept.size ∧
      account.filterMap Origin.initiator? = Request.initiatorsSince history ∧
      ∀ (i : Nat) (origin : Origin), account[i]? = some origin →
        origin.yield (kept.wordBefore i) = .ok (kept.wordOr i)) ∧
    (∀ request : Request α, request.forgets = false →
      kept.words.toList <+: (reached.serve request).engine.generations.words.toList) ∧
    ∀ (request : Request α) (n : Nat), request.asked? = some n →
      let later := (reached.serve request).engine
      later.generations.size = max kept.size (n + 1) ∧
      (reached.generation n).answer = .ok (later.generations.wordOr n) ∧
      (n < kept.size →
        later = reached ∧ (reached.generation n).answer = .ok (kept.wordOr n)) := by
  intro fresh reached kept account
  have hp : reached.rules.Productive := productive_serveAll settings tape history
  have none_yet : fresh.generations.Arisen [] := Generations.Arisen.empty
  have arisen : kept.Arisen account :=
    arisen_serveAll RuleSet.productive_empty none_yet history
  have named : account.filterMap Origin.initiator? = Request.initiatorsSince history :=
    filterMap_originsFrom fresh [] history
  refine ⟨?_, ?_, ⟨arisen.size_eq.symm, named, fun i origin => arisen.yield_eq⟩,
    fun request => words_prefix_serve reached, ?_⟩
  · rw [arisen.current, Array.getLast?_toList]
  · have counted := arisen.passes
    have size := arisen.size_eq
    rw [named] at counted
    omega
  · intro request n asked later
    have served : later = (reached.generation n).engine := engine_serve asked reached
    refine ⟨?_, ?_, ?_⟩
    · rw [served]
      exact size_generation hp n
    · rw [served]
      exact answer_generation hp n
    · intro there
      have known := generation_of_lt there
      rw [served, known]
      exact ⟨rfl, rfl⟩

/-- The first generation is a pass over nothing, the second one a line that came
later, and the third one a pass whose drawing ends at a fault. -/
theorem generations_have_origins_late_initiator :
    let history : List (Request Float32) :=
      [.generation 0, .add "F".toList, .add "F -> F]".toList, .trace 2 Skeleton.empty]
    let reached := ((start Settings.standard (RandomTape.start fun _ => 0)).serveAll history).1
    let kept := reached.generations
    kept.size = kept.passes + 1 ∧
      kept.words.toList <+:
        (reached.serve (.add "X".toList)).engine.generations.words.toList ∧
      1 < kept.size ∧ (reached.serve (.grow 1)).engine = reached ∧
      (reached.generation 1).answer = .ok "F".toList := by
  intro history reached kept
  obtain ⟨_, counted, _, keeps, asks⟩ := generations_have_origins
    (Settings.standard : Settings Float32) (RandomTape.start fun _ => 0) history
  have there : 1 < kept.size := by decide
  obtain ⟨_, _, known⟩ := asks (.grow 1) 1 rfl
  obtain ⟨same, answered⟩ := known there
  exact ⟨counted, keeps (.add "X".toList) rfl, there, same, answered⟩

end Engine
end PlantGrammar
