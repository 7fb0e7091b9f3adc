import Stackline.Exchange
import Stackline.Input.Source

/-!
# Sinks

Where output goes. A capture collects it and a callback is handed each fragment; neither fails, and
there is nothing to flush. A writer takes fragments that are not empty, can be flushed, and may
fail at a chosen write or flush.
-/

namespace Stackline

/-- A writer that counts what it is asked to do. -/
structure Writer where
  /-- The write that fails, counted from one; zero for none. -/
  failWrite : Nat := 0
  /-- The flush that fails, counted from one; zero for none. -/
  failFlush : Nat := 0
  writes : Nat := 0
  flushes : Nat := 0
  deriving DecidableEq, Repr

/-- Where output goes. -/
inductive Sink where
  | capture
  | callback
  | writer (w : Writer)
  deriving DecidableEq, Repr

namespace Sink

/-- The failure of a write. -/
def writeFailed : Failure := ⟨"write failed"⟩

/-- The failure of a flush. -/
def flushFailed : Failure := ⟨"flush failed"⟩

/-- Hand over a fragment: what passed to the host, and the sink afterwards. -/
def write (s : Sink) (text : String) : Except Failure (List Exchange) × Sink :=
  match s with
  | capture => (.ok [.text text], s)
  | callback => (.ok [.text text], s)
  | writer w =>
    if text.isEmpty then (.ok [], s)
    else
      let w := { w with writes := w.writes + 1 }
      (if w.writes = w.failWrite then .error writeFailed else .ok [.text text], writer w)

/-- Bring out what has been written. -/
def flush (s : Sink) : Except Failure (List Exchange) × Sink :=
  match s with
  | capture => (.ok [], s)
  | callback => (.ok [], s)
  | writer w =>
    let w := { w with flushes := w.flushes + 1 }
    (if w.flushes = w.failFlush then .error flushFailed else .ok [.flush], writer w)

end Sink

end Stackline
