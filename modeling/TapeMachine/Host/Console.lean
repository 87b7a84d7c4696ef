import TapeMachine.Clock
import TapeMachine.Host
import TapeMachine.Text.Blank
import TapeMachine.Text.Utf8

/-! The console of a process: standard input as bytes, standard output as text, and a clock.  A line
is the bytes up to and with the next line feed, and only lines that are read have to be UTF-8. -/

namespace TapeMachine.Host

/-- The state of a console. -/
structure Console where
  /-- The bytes of standard input not yet read. -/
  input : List UInt8
  /-- What was written to standard output. -/
  output : String
  /-- What is written before each line is read. -/
  prompt? : Option String
  /-- The clock, in nanoseconds. -/
  clock : Clock Int64

namespace Console

/-- A console on which nothing was read or written. -/
def start (input : List UInt8) (prompt? : Option String) (clock : Clock Int64) :
    Console :=
  ⟨input, "", prompt?, clock⟩

/-- The first line of the input, with its line feed, and what follows it. -/
def splitLine : List UInt8 → List UInt8 × List UInt8
  | [] => ([], [])
  | byte :: rest =>
    if byte = 10 then ([byte], rest)
    else
      let (line, rest) := splitLine rest
      (byte :: line, rest)

/-- A line without the line feeds and carriage returns at its end. -/
def stripLineEnd (line : String) : String :=
  String.ofList (Text.dropEndWhile (fun c => c == '\n' || c == '\r') line.toList)

instance : Host Console where
  readLine console :=
    let (line, rest) := splitLine console.input
    let output := console.output ++ console.prompt?.getD ""
    ((Text.decode line).map stripLineEnd, { console with input := rest, output })
  writeLine line console := (.ok (), { console with output := console.output ++ line ++ "\n" })
  now console :=
    let (time, clock) := console.clock.now
    (time, { console with clock })

end Console

end TapeMachine.Host
