import Verdict.Engine

/-!
# Requests

An engine is kept, and asked to do one thing after the other. A request changes the
engine or asks it for something, and is answered by a reply or refused with an error.
-/

namespace Verdict

/-- What an engine can be asked to do. -/
inductive Request where
  | addRule (rule : Rule)
  | addFact (name : String) (value : Json)
  | setFacts (facts : Facts)
  | setTarget (name : String)
  | setOptions (options : EngineOptions)
  | run
  | evaluate
  | evaluateDetailed
  | interpret

/-- What an engine gives out in answer to a request. -/
inductive Reply where
  | done
  | outcomes (outcomes : List Outcome)
  | outcome (outcome : Outcome)
  | evaluation (evaluation : Evaluation)
  | explanation (text : String)

namespace Engine

variable {α : Type}

/-- Puts a changed engine in place of the one at hand, unless the change fails. -/
def change (changed : Engine → Except Error Engine) : EStateM Error Engine Reply := do
  set (← MonadExcept.ofExcept (changed (← get)))
  return .done

/-- Asks the engine at hand for something. -/
def ask (found : Engine → Except Error α) (reply : α → Reply) : EStateM Error Engine Reply := do
  return reply (← MonadExcept.ofExcept (found (← get)))

/-- Does what a request asks for. -/
def perform : Request → EStateM Error Engine Reply
  | .addRule rule => change fun engine => engine.addRule rule
  | .addFact name value => change fun engine => .ok (engine.addFact name value)
  | .setFacts facts => change fun engine => .ok (engine.setFacts facts)
  | .setTarget name => change fun engine => engine.setTarget name
  | .setOptions options => change fun engine => .ok (engine.setOptions options)
  | .run => ask run .outcomes
  | .evaluate => ask evaluate .outcome
  | .evaluateDetailed => ask evaluateDetailed .evaluation
  | .interpret => ask interpret .explanation

end Engine

end Verdict
