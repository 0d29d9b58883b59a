import Hakawi.Common.Valkey
import Hakawi.Effects.Program

/-!
# Programs that call Valkey

A call reads the clock or sends one command. One clock serves the store and every
process. A command may fail, and a failed command may have been performed.
-/

namespace Common
open Effects

inductive Call (K : Type) where
  /-- `Date.now()` -/
  | now
  | valkey (command : Command K)

/-- The clock answers; a command answers or throws. -/
def CallResult {K : Type} : Call K → Type
  | .now => Int
  | .valkey command => Except Failure command.Answer

/-- What a method of a service does: it calls, and returns or throws. -/
abbrev Calls (K : Type) (α : Type) : Type := Fallible (Call K) CallResult Failure α

def now {K : Type} : Calls K Int := ExceptT.mk (.call .now fun time => .done (.ok time))

def valkey {K : Type} (command : Command K) : Calls K command.Answer :=
  ExceptT.mk (.call (.valkey command) .done)

structure ValkeyWorld (K : Type) where
  /-- In milliseconds. -/
  clock : Int
  store : Valkey K

inductive Outcome where
  | performed
  /-- The command throws and is not performed. -/
  | refused
  /-- The command is performed and throws. -/
  | lost
  deriving DecidableEq, Repr

structure Choice where
  /-- Milliseconds since the last call. -/
  elapsed : Nat
  outcome : Outcome
  deriving DecidableEq, Repr

def disconnected : Failure := .error "Connection is closed."

namespace ValkeyWorld
variable {K : Type} [DecidableEq K]

def exec (choice : Choice) (world : ValkeyWorld K) (call : Call K) :
    CallResult call × ValkeyWorld K :=
  let time : Int := world.clock + choice.elapsed
  match call with
  | .now => (time, ⟨time, world.store⟩)
  | .valkey command => match choice.outcome with
    | .performed => ((world.store.exec time command).1, ⟨time, (world.store.exec time command).2⟩)
    | .refused => (.error disconnected, ⟨time, world.store⟩)
    | .lost => (.error disconnected, ⟨time, (world.store.exec time command).2⟩)

end ValkeyWorld
end Common
