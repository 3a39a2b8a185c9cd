import EmuFront.Engine.Call

/-!
# Recorded calls

The calls that an engine has received, oldest first, for those who check what it was sent. Two calls
are the same if they carry the same, where coordinates are compared as numbers.
-/

namespace EmuFront

/-- Whether two calls are the same. -/
def EngineCall.same : EngineCall → EngineCall → Bool
  | touch a, touch b => a.equal b
  | a, b => decide (a = b)

/-- The calls received so far. -/
structure Recording where
  calls : List EngineCall

namespace Recording

def empty : Recording := ⟨[]⟩

/-- The recording after one more call. -/
def add (r : Recording) (call : EngineCall) : Recording := ⟨r.calls ++ [call]⟩

/-- How many of the calls are the same as a given one. -/
def count (r : Recording) (call : EngineCall) : Nat := r.calls.countP fun c => c.same call

end Recording
end EmuFront
