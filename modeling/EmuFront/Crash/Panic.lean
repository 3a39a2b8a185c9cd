/-!
# Panics

A panic ends what a thread is doing. It carries a message, or something that has no text, and tells
where it struck.
-/

namespace EmuFront

/-- Where a panic strikes. -/
structure PanicSite where
  /-- The name of the thread, if it has one. -/
  thread : Option String
  /-- The file, line and column, if they are known. -/
  location : Option String
  /-- The calls that led there, as they are printed. -/
  backtrace : String
deriving Repr, DecidableEq

/-- A site of which nothing is known. -/
def PanicSite.unknown : PanicSite := ⟨none, none, ""⟩

/-- A panic on a thread of the process. -/
structure Panic where
  site : PanicSite
  /-- The message, if what the panic carries is a text. -/
  message? : Option String
deriving Repr, DecidableEq

namespace Panic

/-- The message, or what stands for a panic without text. -/
def message (p : Panic) : String := p.message?.getD "Box<dyn Any>"

/-- The trace of a panic: its thread, its place in the program, its message and the calls that led
to it. -/
def trace (p : Panic) : String :=
  "thread '" ++ p.site.thread.getD "<unnamed>" ++ "' panicked at "
    ++ p.site.location.getD "<unknown>" ++ ":\n" ++ p.message ++ "\n" ++ p.site.backtrace

end Panic

end EmuFront
