/-!
# Hooks

A hook is a moment of a build at which others may step in: `run` before anything is done, `done`
when everything has been written.  A tap is a callback for a hook under a name.  All callbacks share
one state, and a callback says what went wrong, if anything did.
-/

namespace Bindle

inductive Hook where
  | run
  | done
  deriving DecidableEq, Inhabited

def Hook.name : Hook → String
  | run => "run"
  | done => "done"

structure Tap (σ : Type) where
  name : String
  /-- the message of a failure, and the state afterwards -/
  callback : σ → Option String × σ

end Bindle
