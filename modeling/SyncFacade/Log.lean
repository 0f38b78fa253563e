/-! Log records, and computations that leave some behind whether or not they succeed. -/
namespace SyncFacade

/-- The part of the program that a record comes from. -/
inductive Channel where
  | reader
  | adapter
  | compiler
  | runtime
deriving DecidableEq

def Channel.name : Channel → String
  | .reader => "suspendwrap.reader"
  | .adapter => "suspendwrap.codegen.adapter"
  | .compiler => "suspendwrap.codegen.compile"
  | .runtime => "suspendwrap.runtime"

inductive Level where
  | debug
  | warning
deriving DecidableEq

def Level.name : Level → String
  | .debug => "DEBUG"
  | .warning => "WARNING"

structure Record where
  level : Level
  channel : Channel
  message : String
deriving DecidableEq

def Record.line (r : Record) : String := r.level.name ++ " " ++ r.channel.name ++ ": " ++ r.message

/-- The outcome of a computation and the records it left, oldest first. An error keeps the records
from before it. -/
structure Logged (ε α : Type) where
  records : List Record
  outcome : Except ε α

namespace Logged

variable {ε α β : Type}

instance : Monad (Logged ε) where
  pure a := ⟨[], .ok a⟩
  bind x f := match x.outcome with
    | .ok a => ⟨x.records ++ (f a).records, (f a).outcome⟩
    | .error e => ⟨x.records, .error e⟩

def log (level : Level) (channel : Channel) (message : String) : Logged ε Unit :=
  ⟨[⟨level, channel, message⟩], .ok ()⟩

def tell (records : List Record) : Logged ε Unit := ⟨records, .ok ()⟩

def fail (e : ε) : Logged ε α := ⟨[], .error e⟩

/-- The outcome of a computation that leaves no record. -/
def ofExcept (outcome : Except ε α) : Logged ε α := ⟨[], outcome⟩

end Logged
end SyncFacade
