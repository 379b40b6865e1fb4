import Folio.Session.CacheStep
import Folio.Session.DocumentStep
import Folio.Session.ParagraphStep
import Folio.Session.WordStep

/-!
# Running a session

A step carries out a command and then sweeps.  A session runs until its commands end or an
answer is fatal.
-/

namespace Folio.Session

/-- Carry out a command, leaving what nobody holds any more in place. -/
def perform (session : Session) : Command → Session × Reply
  | .cache command => session.runCache command
  | .paragraph command => session.runParagraph command
  | .document number command =>
      let (document, reply) := runDocument (session.workspace.document number) command
      ({ session with workspace := session.workspace.setDocument number document }, reply)
  | .sameDocument left right => (session, .flag (left == right))
  | .markFinish mark => (session, .offset mark.finishOffset)
  | .word command => session.runWord command

/-- Carry out a command, and then sweep. -/
def step (session : Session) (command : Command) : Session × Reply :=
  let (session, reply) := session.perform command
  (session.sweep, reply)

/-- What is seen after a step: the answer, the counters of the pool, the size of the cache. -/
structure Observation where
  reply : Reply
  counters : Pool.Counters
  cacheSize : Nat
  deriving Repr

/-- Carry out commands until an answer is fatal. -/
def run (session : Session) : List Command → List Observation
  | [] => []
  | command :: rest =>
      let (session, reply) := session.step command
      let seen := ⟨reply, session.workspace.pool.counters, session.workspace.cache.size⟩
      if reply.isFatal then [seen] else seen :: session.run rest

end Folio.Session
