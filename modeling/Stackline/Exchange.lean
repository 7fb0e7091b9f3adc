/-!
# What passes between a program and its host

A machine keeps everything that it has handed to its host, in order, so that prompts and output
can be told in the order in which they came.
-/

namespace Stackline

/-- Something handed to the host. -/
inductive Exchange where
  /-- A prompt for a line of input. -/
  | prompt (s : String)
  /-- Output. -/
  | text (s : String)
  /-- The request to bring out what has been written. -/
  | flush
  deriving DecidableEq, Repr

/-- The output in an exchange. -/
def Exchange.output : Exchange → String
  | text s => s
  | _ => ""

end Stackline
