/-!
# The instruction set

Every operation of the machine and its mnemonic. Operands are named from the oldest to the newest.
-/

namespace Stackline

/-- The operations of the machine. -/
inductive Opcode where
  /-- Push the values of the parameters, which are literals. -/
  | push
  /-- Pop a prompt, read a line and push the value of the literal on it. -/
  | input
  /-- Push a character of input. -/
  | getc
  /-- Push a line of input. -/
  | getl
  /-- Push a word of input. -/
  | getw
  /-- `a b c` becomes `b c a`. -/
  | rot
  | dup
  | pop
  | swap
  /-- `a b` becomes `a b a`. -/
  | copyOver
  /-- Move the newest operand to the registers. -/
  | yeet
  /-- Move the newest register to the operands. -/
  | yoink
  /-- Push the number of operands. -/
  | size
  /-- Push the number of registers. -/
  | rsize
  | goto
  /-- Jump if the newest operand is positive. -/
  | jp
  /-- Jump if the newest operand is not positive. -/
  | jnp
  /-- Jump if the newest operand is negative. -/
  | jn
  /-- Jump if the newest operand is not negative. -/
  | jnn
  /-- Jump if the newest operand is zero. -/
  | jz
  /-- Pop the newest operand and jump, if it is null. -/
  | jnl
  /-- Remember the line and jump. -/
  | gosub
  /-- Go on after the line remembered last. -/
  | ret
  | inc
  | dec
  | add
  | sub
  | mul
  | div
  | mod
  /-- `a b` becomes the quotient and the remainder. -/
  | divmod
  | makei
  | makef
  | makes
  | ord
  | chr
  | eq
  | less
  | more
  | lesseq
  | moreeq
  /-- Report the stacks. -/
  | debug
  /-- Stop. -/
  | exit
  /-- Pop a value and write it on a line. -/
  | print
  deriving DecidableEq, Repr

namespace Opcode

/-- The name of an operation in program text. -/
def mnemonic : Opcode → String
  | push => "PUSH"
  | input => "INPUT"
  | getc => "GETC"
  | getl => "GETL"
  | getw => "GETW"
  | rot => "ROT"
  | dup => "DUP"
  | pop => "POP"
  | swap => "SWAP"
  | copyOver => "OVER"
  | yeet => "YEET"
  | yoink => "YOINK"
  | size => "SIZE"
  | rsize => "RSIZE"
  | goto => "GOTO"
  | jp => "JP"
  | jnp => "JNP"
  | jn => "JN"
  | jnn => "JNN"
  | jz => "JZ"
  | jnl => "JNL"
  | gosub => "GOSUB"
  | ret => "RETURN"
  | inc => "INC"
  | dec => "DEC"
  | add => "ADD"
  | sub => "SUB"
  | mul => "MUL"
  | div => "DIV"
  | mod => "MOD"
  | divmod => "DIVMOD"
  | makei => "MAKEI"
  | makef => "MAKEF"
  | makes => "MAKES"
  | ord => "ORD"
  | chr => "CHR"
  | eq => "EQ"
  | less => "LESS"
  | more => "MORE"
  | lesseq => "LESSEQ"
  | moreeq => "MOREEQ"
  | debug => "DEBUG"
  | exit => "EXIT"
  | print => "PRINT"

/-- All operations. -/
def all : List Opcode :=
  [push, input, getc, getl, getw, rot, dup, pop, swap, copyOver, yeet, yoink, size, rsize, goto, jp,
   jnp, jn, jnn, jz, jnl, gosub, ret, inc, dec, add, sub, mul, div, mod, divmod, makei, makef,
   makes, ord, chr, eq, less, more, lesseq, moreeq, debug, exit, print]

/-- The operation with a mnemonic. -/
def ofMnemonic? (s : String) : Option Opcode := all.find? fun o => o.mnemonic = s

/-- The mnemonic with a capital at the front only, as messages about an instruction show it. -/
def title (o : Opcode) : String :=
  match o.mnemonic.toList with
  | c :: cs => .ofList (c :: cs.map Char.toLower)
  | [] => ""

end Opcode

end Stackline
