import DoubleEntry.Database.Session

/-!
# A database that answers from a script

For trying out sessions without a database: a `Script` holds what every command is answered with,
and `Session.play` runs a session against it and lists the statements sent, in order. After a
broken connection nothing is sent any more, a rollback included.
-/

namespace DoubleEntry.Database

/-- What there is of the pool of connections. -/
inductive Pool where
  | free
  | held
  | closed
deriving DecidableEq

/-- What commands are answered with. -/
structure Script where
  /-- The answers to statements in order; further ones change one row each. -/
  answers : List (Except SessionFault Answer)
  beginFault : Option SessionFault
  commitFault : Option SessionFault
  scriptFault : Option SessionFault
  connectFault : Option SessionFault

/-- Where a played session stands. -/
structure Stage where
  pool : Pool
  script : Script
  broken : Bool
  /-- The statements sent, the last one first. -/
  sent : List Statement

/-- No rows, and one row changed. -/
def Answer.plain : Answer := ⟨[], 1⟩

def breaks : Except SessionFault Answer → Bool
  | .error .broken => true
  | _ => false

/-- A fault, or the plain answer. -/
def orPlain : Option SessionFault → Except SessionFault Answer
  | some f => .error f
  | none => .ok .plain

namespace Stage

def note (st : Stage) (text : String) : Stage := { st with sent := ⟨text, []⟩ :: st.sent }

def answer (st : Stage) (s : Statement) : Except SessionFault Answer × Stage :=
  let reply := st.script.answers.headD (.ok .plain)
  (reply, { st with
    script := { st.script with answers := st.script.answers.tail }
    sent := s :: st.sent
    broken := st.broken || breaks reply })

def serve (st : Stage) : Command → Except SessionFault Answer × Stage
  | .connect => (orPlain st.script.connectFault, { st with pool := .free })
  | .begin => (orPlain st.script.beginFault, st.note "BEGIN")
  | .commit => (orPlain st.script.commitFault, st.note "COMMIT")
  | .rollback => (.ok .plain, if st.broken then st else st.note "ROLLBACK")
  | .statement s => st.answer s
  | .script text => (orPlain st.script.scriptFault, st.note text)

/-- Answer a command; only connecting does not need the pool. -/
def step (st : Stage) (c : Command) : Except SessionFault Answer × Stage :=
  match c, st.pool with
  | .connect, _ => st.serve .connect
  | _, .closed => (.error .poolClosed, st)
  | _, .held => (.error .poolTimedOut, st)
  | c, .free => st.serve c

end Stage

/-- Run a session; its result and where it ends. -/
def Session.play {α : Type} : Session α → Stage → StoreResult α × Stage
  | .done result, st => (result, st)
  | .send c next, st =>
    let (answer, st') := st.step c
    (next answer).play st'

end DoubleEntry.Database
