import IdlBridge.Document.Resolution
import IdlBridge.Live.World
import IdlBridge.Text.Printable

/-!
# Sessions

A session works on a world through commands that refer to objects, factories and wrappers by
labels of the user's choice. A label can be given again: a wrapper that loses its label this
way ends, after the new one was made.
-/

set_option autoImplicit false

namespace IdlBridge.Live

/-- A wrapper as its holder knows it. -/
structure Held where
  wrapper : Wrapper
  /-- The holder made the wrapper itself and still knows its final class. -/
  concrete : Bool
  deriving DecidableEq, Repr, Inhabited

/-- What labels stand for. No label occurs twice. -/
abbrev Labels (α : Type) := List (String × α)

namespace Labels

/-- Takes a label away. -/
def erase {α : Type} (labels : Labels α) (label : String) : Labels α :=
  labels.filter fun entry => entry.1 != label

/-- Gives a label, which no longer stands for anything else. -/
def give {α : Type} (labels : Labels α) (label : String) (value : α) : Labels α :=
  (label, value) :: labels.erase label

end Labels

/-- A world and the labels of what is in it. -/
structure Session where
  world : World
  remotes : Labels RemoteId
  factories : Labels FactoryId
  wrappers : Labels Held
  deriving Repr, Inhabited

/-- A command of a session. -/
inductive Command
  | addRemote (label repositoryId : String) (interfaces : List ScopedName)
      (refusesReferences failsReleases : Bool)
  | setFailures (remote : String) (refusesReferences failsReleases : Bool)
  | grant (remote capability granted : String)
  | releaseRemote (remote : String)
  | addFactory (label : String) (interface : ScopedName) (closure : List ScopedName)
  | register (factory : String)
  | registerDocument (document : String)
  | unregister (name : String)
  | lookup (name : String)
  | make (label factory remote : String) (context : Option String)
  | wrap (label name remote : String) (context : Option String)
  | new (label remote : String) (interface : ScopedName) (closure : List ScopedName)
      (context : Option String)
  | addRef (wrapper : String)
  | dropRef (wrapper : String)
  | release (wrapper : String)
  | drop (wrapper : String)
  | downcast (wrapper : String) (interface : ScopedName)
  | unwrap (wrapper : String) (interface : ScopedName)
  | query (label wrapper : String) (root : ScopedName) (capability : String)
  | showWrapper (wrapper : String)
  | showRegistry
  deriving DecidableEq, Repr, Inhabited

/-- What a session answers to a command. -/
inductive Reply
  | done
  /-- No such label. -/
  | unknown (label : String)
  /-- The label holds no wrapper any more. -/
  | gone
  | released
  | factory (name? : Option String)
  | registered (count : Nat)
  | made
  | nothing
  | count (references : UInt32)
  | unused (isUnused : Bool)
  | kept
  | destroyed
  | dropped
  | remote (repositoryId? : Option String)
  | shown (text : String)
  | adapterFailed (exception : AdapterException)
  | remoteFailed (exception : RemoteException)
  | loadFailed (error : LoadError)
  deriving DecidableEq, Repr, Inhabited

/-! ## Descriptions -/

/-- A character inside a quoted text. Quotes, backslashes and characters that are not printable are
written as escapes. -/
def quotedChar (c : Char) : List Char :=
  match c with
  | '"' => ['\\', '"']
  | '\\' => ['\\', '\\']
  | '\n' => ['\\', 'n']
  | '\r' => ['\\', 'r']
  | '\t' => ['\\', 't']
  | '\x00' => ['\\', '0']
  | c =>
    if Text.isPrintable c then [c]
    else ['\\', 'u', '\x7b'] ++ Nat.toDigits 16 c.toNat ++ ['\x7d']

/-- A text between quotes. -/
def quoted (text : String) : String :=
  "\"" ++ String.ofList (text.toList.flatMap quotedChar) ++ "\""

/-- Texts between quotes in brackets. -/
def quotedList (texts : List String) : String :=
  "[" ++ Text.join ", " (texts.map quoted) ++ "]"

/-- The description of a wrapper around the object with the given repository identifier. -/
def Wrapper.describe (wrapper : Wrapper) (repositoryId : String) : String :=
  "FinalWrapper \x7b interface: ScopedName(" ++ quotedList wrapper.interface.parts ++
    "), repository_id: " ++ quoted repositoryId ++ ", refcount: " ++
    toString wrapper.count.toNat ++ " \x7d"

/-- The description of a registry. -/
def Registry.describe (registry : Registry) : String :=
  "WrapperRegistry \x7b factories: " ++ quotedList registry.names ++ " \x7d"

/-! ## Commands -/

namespace Session

/-- A session without anything in it. -/
def empty : Session := ⟨.empty, [], [], []⟩

/-- Forgets the label of a wrapper without ending it. -/
def forget (session : Session) (label : String) : Session :=
  { session with wrappers := session.wrappers.erase label }

/-- Changes the wrapper under a label. -/
def update (session : Session) (label : String) (held : Held) : Session :=
  { session with wrappers := session.wrappers.give label held }

/-- Ends the wrapper under a label, if there is one. -/
def dropLabel (session : Session) (label : String) : Session :=
  match session.wrappers.lookup label with
  | some held => { session.forget label with world := session.world.drop held.wrapper }
  | none => session

/-- Stores a new wrapper under a label. The wrapper that was there ends. -/
def store (session : Session) (label : String) (held : Held) : Session :=
  (session.dropLabel label).update label held

/-- Goes on with a changed world. -/
def withWorld (session : Session) (world : World) : Session :=
  { session with world }

/-- Goes on after an attempt to make a wrapper. -/
def afterMaking (session : Session) (label : String) (concrete : Bool)
    (attempt : World × Except AdapterException (Option Wrapper)) : Session × Reply :=
  let session := session.withWorld attempt.1
  match attempt.2 with
  | .ok (some wrapper) => (session.store label ⟨wrapper, concrete⟩, .made)
  | .ok none => (session, .nothing)
  | .error exception => (session, .adapterFailed exception)

/-- Continues with the remote object under a label. -/
def onRemote (session : Session) (label : String)
    (act : RemoteId → Session × Reply) : Session × Reply :=
  match session.remotes.lookup label with
  | some id => act id
  | none => (session, .unknown label)

/-- Continues with the factory under a label. -/
def onFactory (session : Session) (label : String)
    (act : FactoryId → Session × Reply) : Session × Reply :=
  match session.factories.lookup label with
  | some id => act id
  | none => (session, .unknown label)

/-- Continues with the wrapper under a label. -/
def onWrapper (session : Session) (label : String)
    (act : Held → Session × Reply) : Session × Reply :=
  match session.wrappers.lookup label with
  | some held => act held
  | none => (session, .gone)

/-- The context that a command names, or the default. -/
def contextOr (context : Option String) : String :=
  context.getD Wrapper.defaultContext

/-- The name of a factory that a command found. -/
def factoryReply (session : Session) (found : Option FactoryId) : Reply :=
  .factory (found.map session.world.factoryName)

/-- Carries out a command. -/
def step (session : Session) : Command → Session × Reply
  | .addRemote label repositoryId interfaces refusesReferences failsReleases =>
    let (world, id) := session.world.addRemote
      ⟨repositoryId, interfaces, [], 0, refusesReferences, failsReleases⟩
    ({ session with world, remotes := session.remotes.give label id }, .done)
  | .setFailures label refusesReferences failsReleases =>
    session.onRemote label fun id =>
      (session.withWorld (session.world.modifyRemote id fun remote =>
        { remote with refusesReferences, failsReleases }), .done)
  | .grant label capability granted =>
    session.onRemote label fun id => session.onRemote granted fun target =>
      (session.withWorld (session.world.modifyRemote id fun remote =>
        { remote with grants := (capability, target) :: remote.grants }), .done)
  | .releaseRemote label =>
    session.onRemote label fun id =>
      match session.world.releaseReporting id with
      | (world, none) => (session.withWorld world, .released)
      | (world, some exception) => (session.withWorld world, .remoteFailed exception)
  | .addFactory label interface closure =>
    let (world, id) := session.world.addFactory (.new interface closure)
    ({ session with world, factories := session.factories.give label id },
     .factory (some (world.factoryName id)))
  | .register label =>
    session.onFactory label fun id =>
      let (world, replaced) := session.world.register id
      (session.withWorld world, session.factoryReply replaced)
  | .registerDocument document =>
    match DeclTree.ofDocument document with
    | .ok tree =>
      let (world, count) := session.world.registerTree tree
      (session.withWorld world, .registered count)
    | .error error => (session, .loadFailed error)
  | .unregister name =>
    let (world, removed) := session.world.unregister name
    (session.withWorld world, session.factoryReply removed)
  | .lookup name => (session, session.factoryReply (session.world.registry.find? name))
  | .make label factory remote context =>
    session.onFactory factory fun factoryId => session.onRemote remote fun id =>
      session.afterMaking label false (session.world.make factoryId id (contextOr context))
  | .wrap label name remote context =>
    session.onRemote remote fun id =>
      session.afterMaking label false (session.world.wrap name id (contextOr context))
  | .new label remote interface closure context =>
    session.onRemote remote fun id =>
      let (world, made) :=
        session.world.makeWrapper interface closure id (contextOr context)
      session.afterMaking label true (world, made.map some)
  | .addRef label =>
    session.onWrapper label fun held =>
      let wrapper := held.wrapper.addRef
      (session.update label { held with wrapper }, .count wrapper.count)
  | .dropRef label =>
    session.onWrapper label fun held =>
      let wrapper := held.wrapper.dropRef
      (session.update label { held with wrapper }, .unused wrapper.isUnused)
  | .release label =>
    session.onWrapper label fun held =>
      match session.world.releaseWrapper held.wrapper with
      | (world, some wrapper) =>
        ((session.withWorld world).update label ⟨wrapper, false⟩, .kept)
      | (world, none) => ((session.withWorld world).forget label, .destroyed)
  | .drop label => session.onWrapper label fun _ => (session.dropLabel label, .dropped)
  | .downcast label interface =>
    session.onWrapper label fun held =>
      (session,
       .remote ((held.wrapper.downcast? interface).map session.world.repositoryId))
  | .unwrap label interface =>
    session.onWrapper label fun held =>
      match session.world.unwrap held.wrapper interface with
      | (world, .ok found) =>
        (session.withWorld world, .remote (found.map session.world.repositoryId))
      | (world, .error exception) => (session.withWorld world, .adapterFailed exception)
  | .query label wrapper root capability =>
    session.onWrapper wrapper fun held =>
      session.afterMaking label false (session.world.query held.wrapper root capability)
  | .showWrapper label =>
    session.onWrapper label fun held =>
      (session, .shown (if held.concrete then
        held.wrapper.describe (session.world.repositoryId held.wrapper.remote) else "boxed"))
  | .showRegistry => (session, .shown session.world.registry.describe)

/-- Ends all wrappers and empties the registry. -/
def close (session : Session) : Session :=
  let world := session.wrappers.foldl (fun world entry => world.drop entry.2.wrapper)
    session.world
  { session with
    world := { world with registry := { world.registry with entries := [] } }
    wrappers := [] }

end Session

end IdlBridge.Live
