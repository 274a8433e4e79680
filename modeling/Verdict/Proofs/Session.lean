import Verdict.Error

/-!
# Sessions

A session is a state on which calls are made one after the other. A call may fail, and
the session goes on from what the call leaves behind in either case. A log has all calls
and what came of them.

What the beginning satisfies and every call keeps holds however many calls are made.
-/

namespace Verdict

variable {κ σ α β : Type}

/-- A call goes on from an outcome that is a value. -/
theorem bind_ofExcept_of_ok
    {found : Except Error β}
    {next : β → EStateM Error σ α}
    {state : σ}
    {value : β}
    (succeeded : found = .ok value) :
    EStateM.bind (MonadExcept.ofExcept found) next state = next value state := by
  rw [succeeded]
  rfl

/-- A call fails with an outcome that is an error, and leaves the state as it is. -/
theorem bind_ofExcept_of_error
    {found : Except Error β}
    {next : β → EStateM Error σ α}
    {state : σ}
    {error : Error}
    (failed : found = .error error) :
    EStateM.bind (MonadExcept.ofExcept found) next state = .error error state := by
  rw [failed]
  rfl

/-- A state after calls, with each call and what came of it, from first to last. -/
structure Session (κ σ α : Type) where
  state : σ
  log : List (κ × Except Error α) := []

namespace Session

variable {perform : κ → EStateM Error σ α} {session : Session κ σ α} {request : κ}

/-- Makes another call. -/
def call (perform : κ → EStateM Error σ α) (session : Session κ σ α) (request : κ) :
    Session κ σ α :=
  match perform request session.state with
  | .ok answer state => ⟨state, session.log ++ [(request, .ok answer)]⟩
  | .error error state => ⟨state, session.log ++ [(request, .error error)]⟩

/-- Makes calls one after the other. -/
def calls (perform : κ → EStateM Error σ α) (session : Session κ σ α) (requests : List κ) :
    Session κ σ α :=
  requests.foldl (call perform) session

theorem call_of_ok
    {answer : α}
    {state : σ}
    (performed : perform request session.state = .ok answer state) :
    session.call perform request = ⟨state, session.log ++ [(request, .ok answer)]⟩ := by
  rw [call, performed]

theorem call_of_error
    {error : Error}
    {state : σ}
    (failed : perform request session.state = .error error state) :
    session.call perform request = ⟨state, session.log ++ [(request, .error error)]⟩ := by
  rw [call, failed]

/-- What every call keeps is kept by all calls. -/
theorem calls_induction
    {motive : Session κ σ α → Prop}
    (keeps : ∀ session request, motive session → motive (session.call perform request))
    {session : Session κ σ α}
    (start : motive session)
    (requests : List κ) :
    motive (session.calls perform requests) := by
  induction requests generalizing session with
  | nil => exact start
  | cons request rest inductionHypothesis => exact inductionHypothesis (keeps _ request start)

/-- The log has the calls in the order in which they were made. -/
theorem map_fst_log_calls
    (perform : κ → EStateM Error σ α)
    (session : Session κ σ α)
    (requests : List κ) :
    (session.calls perform requests).log.map Prod.fst = session.log.map Prod.fst ++ requests := by
  induction requests generalizing session with
  | nil => exact (List.append_nil _).symm
  | cons request rest inductionHypothesis =>
    have logged : (session.call perform request).log.map Prod.fst =
        session.log.map Prod.fst ++ [request] := by
      unfold call
      split <;> simp
    refine (inductionHypothesis _).trans ?_
    rw [logged, List.append_assoc, List.singleton_append]

end Session
end Verdict
