import IdlBridge.DeclTree.Inheritance
import IdlBridge.Live.Wrapper

/-!
# The world of adapters

Remote objects, factories that make wrappers around them, and the registry that finds a factory
by the name of its interface. Every operation returns the world after it together with its
outcome, also when it fails half way.
-/

set_option autoImplicit false

namespace IdlBridge.Live

/-- The number of a factory. -/
abbrev FactoryId := Nat

/-- A factory makes wrappers for one interface. -/
structure Factory where
  interface : ScopedName
  /-- The interfaces as which its wrappers give access to their objects. -/
  closure : List ScopedName
  /-- How many wrappers it has made. -/
  made : Nat
  deriving DecidableEq, Repr, Inhabited

namespace Factory

/-- A factory that has made nothing yet. -/
def new (interface : ScopedName) (closure : List ScopedName) : Factory :=
  ⟨interface, closure, 0⟩

/-- The name under which the factory is registered. -/
def name (factory : Factory) : String :=
  factory.interface.text

end Factory

/-- The registered factories by name. -/
structure Registry where
  entries : List (String × FactoryId)
  /-- How often a factory was looked up to wrap an object. -/
  lookups : Nat
  deriving DecidableEq, Repr, Inhabited

namespace Registry

/-- A registry without factories. -/
def empty : Registry := ⟨[], 0⟩

/-- The factory with a name. -/
def find? (registry : Registry) (name : String) : Option FactoryId :=
  registry.entries.lookup name

/-- Removes the factory with a name. -/
def erase (registry : Registry) (name : String) : Registry :=
  { registry with entries := registry.entries.filter fun entry => entry.1 != name }

/-- Registers a factory in place of any other with its name. -/
def insert (registry : Registry) (name : String) (factory : FactoryId) : Registry :=
  { registry with entries := (name, factory) :: (registry.erase name).entries }

/-- The names of all registered factories, in ascending order. -/
def names (registry : Registry) : List String :=
  (registry.entries.map (·.1)).mergeSort fun a b => decide (a ≤ b)

/-- The number of registered factories. -/
def size (registry : Registry) : Nat :=
  registry.entries.length

/-- Counts a lookup. -/
def countLookup (registry : Registry) : Registry :=
  { registry with lookups := registry.lookups + 1 }

end Registry

/-- The remote objects, the factories and the registry. -/
structure World where
  remotes : Array Remote
  factories : Array Factory
  registry : Registry
  deriving Repr, Inhabited

namespace World

/-- A world without anything in it. -/
def empty : World := ⟨#[], #[], .empty⟩

/-- Changes a remote object. -/
def modifyRemote (world : World) (id : RemoteId) (change : Remote → Remote) : World :=
  { world with remotes := world.remotes.modify id change }

/-- Adds a remote object. -/
def addRemote (world : World) (remote : Remote) : World × RemoteId :=
  ({ world with remotes := world.remotes.push remote }, world.remotes.size)

/-- Adds a factory without registering it. -/
def addFactory (world : World) (factory : Factory) : World × FactoryId :=
  ({ world with factories := world.factories.push factory }, world.factories.size)

/-- The name of a factory. -/
def factoryName (world : World) (id : FactoryId) : String :=
  (world.factories[id]?.map Factory.name).getD ""

/-- The repository identifier of a remote object. -/
def repositoryId (world : World) (id : RemoteId) : String :=
  (world.remotes[id]?.map Remote.repositoryId).getD ""

/-- Takes a reference to a remote object. -/
def addRef (world : World) (id : RemoteId) : World × Except AdapterException Unit :=
  match world.remotes[id]? with
  | none => (world, .ok ())
  | some remote =>
    match remote.addRef with
    | .ok counted => ({ world with remotes := world.remotes.modify id fun _ => counted }, .ok ())
    | .error exception => (world, .error (.ofRemote exception))

/-- Gives back a reference to a remote object. -/
def release (world : World) (id : RemoteId) : World :=
  world.modifyRemote id Remote.release

/-- Gives back a reference and asks what the object says to that. -/
def releaseReporting (world : World) (id : RemoteId) : World × Option RemoteException :=
  (world.release id, (world.remotes[id]?).bind Remote.releaseError?)

/-- Makes a wrapper, which takes a reference to its object. -/
def makeWrapper (world : World) (interface : ScopedName) (closure : List ScopedName)
    (remote : RemoteId) (context : String) : World × Except AdapterException Wrapper :=
  match world.addRef remote with
  | (world, .ok ()) => (world, .ok (.make interface closure remote context))
  | (world, .error exception) => (world, .error exception)

/-- Lets a factory wrap an object, unless the object does not implement its interface. -/
def make (world : World) (factory : FactoryId) (remote : RemoteId) (context : String) :
    World × Except AdapterException (Option Wrapper) :=
  match world.factories[factory]?, world.remotes[remote]? with
  | some maker, some object =>
    if object.narrows maker.interface then
      match world.makeWrapper maker.interface maker.closure remote context with
      | (world, .ok wrapper) =>
        ({ world with
          factories := world.factories.modify factory fun maker =>
            { maker with made := maker.made + 1 } }, .ok (some wrapper))
      | (world, .error exception) => (world, .error exception)
    else (world, .ok none)
  | _, _ => (world, .ok none)

/-- Wraps an object with the factory that is registered under a name, if there is one. -/
def wrap (world : World) (name : String) (remote : RemoteId) (context : String) :
    World × Except AdapterException (Option Wrapper) :=
  let world := { world with registry := world.registry.countLookup }
  match world.registry.find? name with
  | some factory => world.make factory remote context
  | none => (world, .ok none)

/-- Ends a wrapper, which gives back its reference. What the object says to that is not passed
on. -/
def drop (world : World) (wrapper : Wrapper) : World :=
  world.release wrapper.remote

/-- Drops one local reference to a wrapper and ends it with the last. The wrapper is returned
while references remain. -/
def releaseWrapper (world : World) (wrapper : Wrapper) : World × Option Wrapper :=
  let dropped := wrapper.dropRef
  if dropped.isUnused then (world.drop dropped, none) else (world, some dropped)

/-- Hands out the object of a wrapper with a reference of its own. -/
def unwrap (world : World) (wrapper : Wrapper) (interface : ScopedName) :
    World × Except AdapterException (Option RemoteId) :=
  match wrapper.downcast? interface with
  | none => (world, .ok none)
  | some remote =>
    match world.addRef remote with
    | (world, .ok ()) => (world, .ok (some remote))
    | (world, .error exception) => (world, .error exception)

/-- The object that is granted by another. The grant carries a reference to it. -/
def grant? (world : World) (remote : RemoteId) (capability : String) :
    Option (World × RemoteId) :=
  ((world.remotes[remote]?).bind (·.granted? capability)).map fun granted =>
    (world.modifyRemote granted fun object => { object with refs := object.refs + 1 }, granted)

/-- Asks the object of a wrapper for a capability and wraps the answer. The registry is not
consulted unless the capability is granted, and the granted reference is given back whether or
not wrapping succeeds. -/
def query (world : World) (wrapper : Wrapper) (root : ScopedName) (capability : String) :
    World × Except AdapterException (Option Wrapper) :=
  match (wrapper.downcast? root).bind (world.grant? · capability) with
  | none => (world, .ok none)
  | some (world, granted) =>
    let (world, outcome) := world.wrap capability granted wrapper.context
    (world.release granted, outcome)

/-- Registers a factory and returns the one it replaces. -/
def register (world : World) (factory : FactoryId) : World × Option FactoryId :=
  let name := world.factoryName factory
  ({ world with registry := world.registry.insert name factory }, world.registry.find? name)

/-- Removes the factory with a name and returns it. -/
def unregister (world : World) (name : String) : World × Option FactoryId :=
  ({ world with registry := world.registry.erase name }, world.registry.find? name)

/-- Adds a factory and registers it. -/
def registerNew (world : World) (factory : Factory) : World :=
  let (world, id) := world.addFactory factory
  (world.register id).1

end World

end IdlBridge.Live

namespace IdlBridge.DeclTree

/-- The interfaces that the main file declares, in the order of declaration. -/
def localInterfaces (tree : DeclTree) : List DeclId :=
  tree.ids.filter fun id => tree.isInterface id && tree.isLocal id

end IdlBridge.DeclTree

namespace IdlBridge.Live.World

/-- Registers a factory for every interface of a tree's main file. -/
def registerTree (world : World) (tree : DeclTree) : World × Nat :=
  let interfaces := tree.localInterfaces
  (interfaces.foldl
    (fun world id => world.registerNew (.new (tree.scopedName id) (tree.closure id))) world,
   interfaces.length)

end IdlBridge.Live.World
