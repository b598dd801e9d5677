import IdlBridge.Live.Remote

/-!
# Wrappers

A wrapper stands for one remote object on the local side. It holds one reference to the object
for its whole life, and it has a reference count of its own, which says when it ends.
-/

set_option autoImplicit false

namespace IdlBridge.Live

/-- A wrapper around a remote object. -/
structure Wrapper where
  /-- The interface it was made for. -/
  interface : ScopedName
  /-- The interfaces as which it gives access to its object. -/
  closure : List ScopedName
  remote : RemoteId
  /-- The name of the object adapter that hosts it. -/
  context : String
  /-- The local references to the wrapper. -/
  count : UInt32
  deriving DecidableEq, Repr, Inhabited

namespace Wrapper

/-- The context of a wrapper that is made without naming one. -/
def defaultContext : String := "RootPOA"

/-- A new wrapper has one local reference. -/
def make (interface : ScopedName) (closure : List ScopedName) (remote : RemoteId)
    (context : String) : Wrapper :=
  ⟨interface, closure, remote, context, 1⟩

/-- Counts one more local reference. -/
def addRef (wrapper : Wrapper) : Wrapper :=
  { wrapper with count := wrapper.count + 1 }

/-- Counts one local reference less; there are never fewer than none. -/
def dropRef (wrapper : Wrapper) : Wrapper :=
  { wrapper with count := if wrapper.count = 0 then 0 else wrapper.count - 1 }

/-- No local reference is left. -/
def isUnused (wrapper : Wrapper) : Bool :=
  wrapper.count == 0

/-- The wrapper gives access to its object as the interface. -/
def answers (wrapper : Wrapper) (interface : ScopedName) : Bool :=
  interface == wrapper.interface || wrapper.closure.contains interface

/-- The object of the wrapper as the interface, if it has that. -/
def downcast? (wrapper : Wrapper) (interface : ScopedName) : Option RemoteId :=
  if wrapper.answers interface then some wrapper.remote else none

end Wrapper

end IdlBridge.Live
