import PlantGrammar.Engine.Basic

/-!
# Requests to an engine

All that can be asked of an engine, as data. A history is a list of requests,
and serving one changes an engine just as its call does.
-/
namespace PlantGrammar

inductive Request (α : Type) where
  | setAngle (degrees : α)
  | setStep (distance : α)
  | reset
  | add (line : Word)
  | load (lines : List Word)
  | loadText (text : Word)
  | loadPreset (preset : Preset)
  | expand (word : Word)
  | generation (n : Nat)
  | trace (n : Nat) (skeleton : Skeleton α)
  | grow (n : Nat)

/-- What an engine answers. A request that only changes the engine is `done`. -/
inductive Answer (α : Type) where
  | done
  | word (outcome : Except Fault Word)
  | traced (skeleton : Skeleton α) (outcome : Except Fault Unit)
  | grown (outcome : Except Fault (Skeleton α))

/-- The same reply with another answer. -/
def Reply.map {α β γ : Type} (f : β → γ) (reply : Reply α β) : Reply α γ :=
  ⟨reply.engine, reply.events, f reply.answer⟩

namespace Engine

variable {α : Type} [Scalar α] [Trigonometry α]

def serve (engine : Engine α) : Request α → Reply α (Answer α)
  | .setAngle degrees => ⟨engine.setAngle degrees, [], .done⟩
  | .setStep distance => ⟨engine.setStep distance, [], .done⟩
  | .reset => ⟨engine.reset, [], .done⟩
  | .add line => (engine.add line).map fun _ => .done
  | .load lines => (engine.load lines).map fun _ => .done
  | .loadText text => (engine.loadText text).map fun _ => .done
  | .loadPreset preset => (engine.loadPreset preset).map fun _ => .done
  | .expand word => (engine.expand word).map .word
  | .generation n => (engine.generation n).map .word
  | .trace n skeleton => (engine.trace n skeleton).map fun answer => .traced answer.1 answer.2
  | .grow n => (engine.grow n).map .grown

/-- Serve a history of requests, and collect the events of all of them. -/
def serveAll (engine : Engine α) : List (Request α) → Engine α × List Event
  | [] => (engine, [])
  | request :: rest =>
      let reply := engine.serve request
      let later := reply.engine.serveAll rest
      (later.1, reply.events ++ later.2)

end Engine
end PlantGrammar
