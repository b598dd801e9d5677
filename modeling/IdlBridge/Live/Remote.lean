import IdlBridge.ScopedName

/-!
# Remote objects

A remote object counts the references that its clients hold. It can refuse a reference, report
an error although it gave one back, and grant other objects to clients that ask for a
capability by name.
-/

set_option autoImplicit false

namespace IdlBridge.Live

/-- The number of a remote object. -/
abbrev RemoteId := Nat

/-- An exception that a remote object raises. -/
structure RemoteException where
  repositoryId : String
  minor : UInt32
  deriving DecidableEq, Repr, Inhabited

/-- The wording of a remote exception. -/
def RemoteException.message (exception : RemoteException) : String :=
  "distributed-object exception " ++ exception.repositoryId ++ " (minor " ++
    toString exception.minor.toNat ++ ")"

/-- The one exception that adapters raise. It does not tell which remote exception is behind
it. -/
inductive AdapterException
  | remoteFailed
  deriving DecidableEq, Repr, Inhabited

namespace AdapterException

/-- Every remote exception becomes the one adapter exception. -/
def ofRemote (_ : RemoteException) : AdapterException :=
  remoteFailed

/-- The wording of the adapter exception. -/
def message : AdapterException → String
  | remoteFailed => "a distributed-object exception occurred"

end AdapterException

/-- A remote object. -/
structure Remote where
  repositoryId : String
  /-- The interfaces that the object implements. -/
  interfaces : List ScopedName
  /-- The objects that it grants, the latest grant of a name first. -/
  grants : List (String × RemoteId)
  /-- The references that clients hold. -/
  refs : Int
  refusesReferences : Bool
  failsReleases : Bool
  deriving DecidableEq, Repr, Inhabited

namespace Remote

/-- The exception of an object that refuses a reference. -/
def noPermission : RemoteException := ⟨"IDL:omg.org/CORBA/NO_PERMISSION:1.0", 1⟩

/-- The exception of an object that reports an error on release. -/
def commFailure : RemoteException := ⟨"IDL:omg.org/CORBA/COMM_FAILURE:1.0", 2⟩

/-- Counts one more reference, unless the object refuses. -/
def addRef (remote : Remote) : Except RemoteException Remote :=
  if remote.refusesReferences then .error noPermission
  else .ok { remote with refs := remote.refs + 1 }

/-- Counts one reference less. -/
def release (remote : Remote) : Remote :=
  { remote with refs := remote.refs - 1 }

/-- The error that the object reports on release, although the reference is gone. -/
def releaseError? (remote : Remote) : Option RemoteException :=
  if remote.failsReleases then some commFailure else none

/-- The object implements the interface. -/
def narrows (remote : Remote) (interface : ScopedName) : Bool :=
  remote.interfaces.contains interface

/-- The object that is granted under a name. -/
def granted? (remote : Remote) (capability : String) : Option RemoteId :=
  remote.grants.lookup capability

end Remote

end IdlBridge.Live
