import TapeMachine.Instruction

/-! Events: what an instruction did when it succeeded, with the effective addresses and the values
involved.  An event determines the cell that is written, the position that follows and the text
that a trace shows. -/

namespace TapeMachine

/-- The result of an operation, wrapped to 64 bits; there is none if the divisor is zero.  Division
goes toward zero and a remainder has the sign of the dividend. -/
def Arithmetic.apply? (operation : Arithmetic) (x y : Int64) : Option Int64 :=
  match operation with
  | add => some (x + y)
  | sub => some (x - y)
  | mul => some (x * y)
  | div => if y = 0 then none else some (x / y)
  | mod => if y = 0 then none else some (x % y)

/-- Whether a comparison of two cell values holds. -/
def Comparison.holds (condition : Comparison) (x y : Int64) : Bool :=
  match condition with
  | greater => x > y
  | equal => x = y
  | less => x < y

/-- The sign of a comparison in traces. -/
def Comparison.symbol : Comparison → String
  | greater => ">"
  | equal => "=="
  | less => "<"

/-- The address of a cell and the value read from it. -/
structure Reading where
  address : Int64
  value : Int64
  deriving DecidableEq, Repr

/-- A reading in traces. -/
def Reading.text (r : Reading) : String :=
  s!"#{Numeral.ofInt64 r.address} ('{Numeral.ofInt64 r.value}')"

/-- What a successful instruction did. -/
inductive Event where
  | set (value dst : Int64)
  | move (src : Reading) (dst : Int64)
  | time (now dst : Int64)
  | input (value dst : Int64)
  | output (src : Reading)
  | arithmetic (operation : Arithmetic) (a b : Reading) (dst result : Int64)
  | jump (target : Position)
  | branch (condition : Comparison) (a b : Reading) (target : Position) (taken : Bool)
  | call (target : Position)
  /-- A return to the position after a call. -/
  | ret (resume : Nat)
  /-- A return without a call to return from. -/
  | idleReturn
  | terminate
  deriving DecidableEq, Repr

namespace Event

/-- The address and the value that an event writes. -/
def write? : Event → Option (Int64 × Int64)
  | set value dst => some (dst, value)
  | move src dst => some (dst, src.value)
  | time now dst => some (dst, now)
  | input value dst => some (dst, value)
  | arithmetic _ _ _ dst result => some (dst, result)
  | output _ | jump _ | branch _ _ _ _ _ | call _ | ret _ | idleReturn | terminate => none

/-- The position after an event at `pc`. -/
def successor (pc : Nat) : Event → Nat
  | jump target | call target | branch _ _ _ target true => target.val
  | ret resume => resume
  | terminate => pc
  | set _ _ | move _ _ | time _ _ | input _ _ | output _ | arithmetic _ _ _ _ _
  | branch _ _ _ _ false | idleReturn => pc + 1

/-- The positions of the calls not returned from, after an event at `pc`; the last call is first. -/
def calls (pc : Nat) (pending : List Nat) : Event → List Nat
  | call _ => pc :: pending
  | ret _ => pending.tail
  | set _ _ | move _ _ | time _ _ | input _ _ | output _ | arithmetic _ _ _ _ _ | jump _
  | branch _ _ _ _ _ | idleReturn | terminate => pending

/-- The text of an arithmetic event up to its destination. -/
def combination (operation : Arithmetic) (a b : Reading) : String :=
  match operation with
  | .add => s!"Add {a.text} and {b.text}"
  | .sub => s!"Subtract {b.text} from {a.text}"
  | .mul => s!"Multiply {a.text} and {b.text}"
  | .div => s!"Divide {a.text} by {b.text}"
  | .mod => s!"Modulo {a.text} by {b.text}"

/-- The text that a trace shows for an event. -/
def detail : Event → String
  | set value dst => s!"Set value '{Numeral.ofInt64 value}' into #{Numeral.ofInt64 dst}"
  | move src dst => s!"Move {src.text} into #{Numeral.ofInt64 dst}"
  | time now dst => s!"Time {Numeral.ofInt64 now} into #{Numeral.ofInt64 dst}"
  | input value dst => s!"Input value '{Numeral.ofInt64 value}' into #{Numeral.ofInt64 dst}"
  | output src => s!"Output from {src.text}"
  | arithmetic operation a b dst result =>
    s!"{combination operation a b} into {(Reading.mk dst result).text}"
  | jump target => s!"Jump to {Text.decimal target}"
  | branch condition a b target true =>
    s!"Jump to {Text.decimal target} [{a.text} {condition.symbol} {b.text}]"
  | branch condition a b _ false => s!"No jump [{a.text} {condition.symbol} {b.text} is false]"
  | call target => s!"Call {Text.decimal target}"
  | ret resume => s!"Return to {Text.decimal resume}"
  | idleReturn => "Return (noop)"
  | terminate => "Terminate"

end Event

end TapeMachine
