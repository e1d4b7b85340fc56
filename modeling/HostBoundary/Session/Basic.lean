import HostBoundary.Session.Step

/-!
# Sessions

A session is a run of steps on one host.  Each step is replied to with its
answer, the length that the arena has then, and the lines that the step added
to the trace.  A step that fails, or that ends in a fault, does not end the
session; what it did before stays done.
-/

namespace HostBoundary

/-- A host, and what is held beside it. -/
structure Session where
  /-- The host. -/
  host : Host
  /-- The builders and the invocation. -/
  locals : Locals

/-- What is seen of a step. -/
structure StepReply where
  /-- Its answer. -/
  answer : Answer
  /-- The length of the arena after it. -/
  arenaLength : Nat
  /-- The lines that it added to the trace. -/
  trace : List TraceEvent

namespace Session

/-- A session on a fresh host. -/
def initial : Session := ⟨.initial, .none⟩

/-- Carries out one step. -/
def step (session : Session) (step : Step) : StepReply × Session :=
  match step.run session.locals ⟨session.host, []⟩ with
  | .ok (answer, locals) world =>
    (⟨answer, world.host.memory.size, world.trace⟩, ⟨world.host, locals⟩)
  | .error fault world =>
    (⟨.fault fault, world.host.memory.size, world.trace⟩, ⟨world.host, session.locals⟩)

/-- What is seen of a step that could not be taken, since one of its arguments
is not what it should be. -/
def decline (session : Session) (error : BoundaryError) : StepReply :=
  ⟨.failed error, session.host.memory.size, []⟩

/-- Carries out steps in order, where a step that could not be formed is
declined.  Answers what is seen of each. -/
def run : Session → List (Except BoundaryError Step) → List StepReply × Session
  | session, [] => ([], session)
  | session, .ok first :: rest =>
    let (reply, session) := session.step first
    let (replies, session) := run session rest
    (reply :: replies, session)
  | session, .error error :: rest =>
    let (replies, after) := run session rest
    (session.decline error :: replies, after)

@[simp] theorem run_nil (session : Session) : session.run [] = ([], session) := rfl

theorem run_ok_cons (session : Session) (first : Step)
    (rest : List (Except BoundaryError Step)) :
    session.run (.ok first :: rest) =
      ((session.step first).1 :: ((session.step first).2.run rest).1,
        ((session.step first).2.run rest).2) := rfl

theorem run_error_cons (session : Session) (error : BoundaryError)
    (rest : List (Except BoundaryError Step)) :
    session.run (.error error :: rest) =
      (session.decline error :: (session.run rest).1, (session.run rest).2) := rfl

end Session

end HostBoundary
