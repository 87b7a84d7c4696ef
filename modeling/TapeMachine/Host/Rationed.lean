import TapeMachine.Host

/-! A host whose console gives out: it answers a number of reads and a number of writes, and refuses
all later ones without touching the host behind it. -/

namespace TapeMachine.Host

/-- A host with the numbers of reads and writes it still answers; no number means no bound. -/
structure Rationed (σ : Type) where
  host : σ
  readsLeft? : Option Nat
  writesLeft? : Option Nat

namespace Rationed

variable {σ : Type} [Host σ]

instance : Host (Rationed σ) where
  readLine r :=
    if r.readsLeft? = some 0 then (.error "read refused", r)
    else
      let (line, host) := Host.readLine r.host
      (line, { r with host, readsLeft? := r.readsLeft?.map (· - 1) })
  writeLine line r :=
    if r.writesLeft? = some 0 then (.error "write refused", r)
    else
      let (done, host) := Host.writeLine line r.host
      (done, { r with host, writesLeft? := r.writesLeft?.map (· - 1) })
  now r :=
    let (reading, host) := Host.now r.host
    (reading, { r with host })

end Rationed

end TapeMachine.Host
