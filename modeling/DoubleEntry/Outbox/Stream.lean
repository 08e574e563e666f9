import DoubleEntry.Config
import DoubleEntry.Engine.Error
import DoubleEntry.OrdMap
import DoubleEntry.Store.Call

/-!
# Reading the outbox

A stream hands out the outbox records after a position one by one. It reads a batch from the store
when everything it read before is handed out, and moves its position with each record handed out.
A read that fails is handed out as an error; the position stays, and the next read starts from it.
So no record is skipped, repeated or out of order.

A batch that is not full is all there was. After it, and after a failed read, the stream waits for
a commit or for the poll interval to pass; after a full batch it reads again at once.

Consumers of a stream keep the number of the last record each of them has dealt with. A consumer
that was never heard of, or whose position was forgotten, is at the beginning.
-/

namespace DoubleEntry

/-! ## Streams -/

/-- What a stream hands out: a record, or the error of a read. -/
abbrev OutboxItem := Except EngineError OutboxRecord

/-- A reader of the outbox. -/
structure OutboxStream where
  /-- The number of the last record handed out. -/
  cursor : UInt64
  /-- How many records a read asks for. -/
  batchSize : UInt64
  /-- What was read and is not handed out yet. -/
  pending : List OutboxItem
  /-- The stream waits before it reads again. -/
  waits : Bool

namespace OutboxStream

/-- A stream after a position; a batch has one record at least. -/
def start (cursor : UInt64) (config : OutboxConfig) : OutboxStream :=
  ⟨cursor, if config.batchSize = 0 then 1 else config.batchSize, [], false⟩

def readCall (s : OutboxStream) : StoreCall := .loadOutboxAfter s.cursor s.batchSize

/-- Everything read is handed out, and the stream waits. -/
def isWaiting (s : OutboxStream) : Bool := s.pending.isEmpty && s.waits

/-- Everything read is handed out, and the stream reads next. -/
def isReading (s : OutboxStream) : Bool := s.pending.isEmpty && !s.waits

/-- Take over what a read came out with. -/
def receive (s : OutboxStream) : Except StoreError (List OutboxRecord) → OutboxStream
  | .ok batch =>
    { s with pending := batch.map .ok, waits := decide (batch.length < s.batchSize.toNat) }
  | .error e => { s with pending := [.error (.ofStore e)], waits := true }

/-- Stop waiting, once everything read is handed out. -/
def wake (s : OutboxStream) : OutboxStream := if s.isWaiting then { s with waits := false } else s

/-- The position once an item is handed out. -/
def cursorAfter (cursor : UInt64) : OutboxItem → UInt64
  | .ok r => r.sequence
  | .error _ => cursor

/-- Hand out the next item, if there is one. -/
def handOut (s : OutboxStream) : Option OutboxItem × OutboxStream :=
  match s.pending with
  | [] => (none, s)
  | i :: rest => (some i, { s with cursor := cursorAfter s.cursor i, pending := rest })

/-- Read the next batch. -/
def read {ε : Type} (s : OutboxStream) : Prog ε OutboxStream :=
  .call s.readCall fun reply => .done (.ok (s.receive reply))

/-- The next item, without waiting; none when a read finds nothing after the position. -/
def next {ε : Type} (s : OutboxStream) : Prog ε (Option OutboxItem × OutboxStream) :=
  if s.pending.isEmpty then do
    let s ← s.read
    pure s.handOut
  else pure s.handOut

end OutboxStream

/-! ## Positions of consumers -/

/-- Positions of consumers by name. -/
abbrev OutboxCursors := NameMap UInt64

namespace OutboxCursors

def load (cursors : OutboxCursors) (consumer : String) : UInt64 :=
  (OrdMap.get? consumer cursors).getD 0

def save (cursors : OutboxCursors) (consumer : String) (sequence : UInt64) : OutboxCursors :=
  OrdMap.put consumer sequence cursors

def reset (cursors : OutboxCursors) (consumer : String) : OutboxCursors :=
  OrdMap.erase consumer cursors

end OutboxCursors

end DoubleEntry
