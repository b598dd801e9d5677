import IdlBridge.Adapter.Layout

/-!
# Namespace scopes

While a tree is gone through, the modules around the current declaration form a stack of
scopes. A namespace block is opened in the text only when something is written inside it, and
all blocks can be closed at once to write something outside. The outermost scope is the
namespace of all adapters.
-/

set_option autoImplicit false

namespace IdlBridge.Adapter

/-- The scopes around the current declaration and the blocks that are open in the text. -/
structure Scopes where
  /-- The names of the scopes, outermost first. -/
  stack : List String
  /-- The number of scopes, counted from the outermost, whose block is open. -/
  depth : Nat
  /-- How many blocks have been opened. -/
  opened : Nat
  /-- How many blocks have been closed. -/
  closed : Nat
  deriving DecidableEq, Repr, Inhabited

namespace Scopes

/-- Only the outermost scope, with no block open. -/
def start (outer : String) : Scopes :=
  ⟨[outer], 0, 0, 0⟩

/-- The text that opens a block. -/
def openBlock (name : String) : Layout :=
  [.line ("namespace " ++ name), .line "\x7b", .indent]

/-- The text that closes a block. -/
def closeBlock : Layout :=
  [.dedent, .line "\x7d;"]

/-- Enters a scope without opening its block. -/
def enter (scopes : Scopes) (name : String) : Scopes :=
  { scopes with stack := scopes.stack ++ [name] }

/-- Leaves the innermost scope and closes its block if it is open. -/
def leave (scopes : Scopes) : Scopes × Layout :=
  let stack := scopes.stack.dropLast
  if scopes.depth > stack.length then
    ({ scopes with stack, depth := stack.length, closed := scopes.closed + 1 }, closeBlock)
  else ({ scopes with stack }, [])

/-- Opens the blocks of all scopes. -/
def materialize (scopes : Scopes) : Scopes × Layout :=
  let missing := scopes.stack.drop scopes.depth
  ({ scopes with depth := scopes.stack.length, opened := scopes.opened + missing.length },
   missing.flatMap openBlock)

/-- Closes all open blocks. -/
def escape (scopes : Scopes) : Scopes × Layout :=
  ({ scopes with depth := 0, closed := scopes.closed + scopes.depth },
   (List.replicate scopes.depth closeBlock).flatten)

end Scopes

end IdlBridge.Adapter
