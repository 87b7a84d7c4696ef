import TapeMachine.Text.Layout

/-! Traces: a record of every executed instruction, and the sinks that take such records.  A sink
that is not enabled is given none, so that no text is made for it. -/

namespace TapeMachine.Trace

/-- One executed instruction. -/
structure Entry where
  /-- The number of instructions executed before it. -/
  cycle : Nat
  /-- Its position. -/
  pc : Nat
  mnemonic : String
  /-- What it did, with the addresses and values involved. -/
  detail : String
  deriving DecidableEq, Repr

/-- The line that shows an entry: the position in at least four digits, the mnemonic in at least
four characters and the detail. -/
def Entry.text (entry : Entry) : String :=
  "[" ++ Text.zeroPad 4 entry.pc ++ "] " ++ Text.padRight 4 entry.mnemonic ++ " " ++ entry.detail

/-- What takes the entries of a run, over states of type `τ`. -/
class Sink (τ : Type) where
  /-- Whether entries are wanted. -/
  enabled : τ → Bool
  record : τ → Entry → τ

/-- The sink that wants no entries. -/
structure Discard where
  deriving DecidableEq, Repr

instance : Sink Discard where
  enabled _ := false
  record sink _ := sink

/-- The sink that keeps every entry. -/
structure Memory where
  /-- The entries, in order of execution. -/
  entries : Array Entry
  deriving DecidableEq, Repr

instance : Sink Memory where
  enabled _ := true
  record sink entry := ⟨sink.entries.push entry⟩

/-- A sink that its owner lends to a machine and takes back with what it then holds. -/
structure Lent (τ : Type) where
  sink : τ
  deriving DecidableEq, Repr

/-- A lent sink wants and keeps what it would without being lent. -/
instance {τ : Type} [Sink τ] : Sink (Lent τ) where
  enabled lent := Sink.enabled lent.sink
  record lent entry := ⟨Sink.record lent.sink entry⟩

/-- A sink that may be absent wants and keeps what it would if it is there. -/
instance {τ : Type} [Sink τ] : Sink (Option τ) where
  enabled sink? :=
    match sink? with
    | some sink => Sink.enabled sink
    | none => false
  record sink? entry := sink?.map fun sink => Sink.record sink entry

end TapeMachine.Trace
