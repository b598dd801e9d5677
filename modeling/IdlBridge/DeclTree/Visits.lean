import IdlBridge.DeclTree.Basic

/-!
# Visits

The order in which the declarations of a tree are looked at when adapters are written: depth
first, in the order of declaration, never below a declaration that another file declares.
-/

set_option autoImplicit false

namespace IdlBridge

/-- One event of going through a tree. -/
inductive Visit
  /-- A module of the main file begins. -/
  | enter (name : String)
  | leave
  /-- An interface of the main file. -/
  | interface (id : DeclId)
  /-- A declaration of another file. -/
  | external (file : String)
  deriving DecidableEq, Repr, Inhabited

namespace DeclTree

/-- The events for the given declarations, down to the given depth. -/
def visitsOf (tree : DeclTree) : (depth : Nat) → List DeclId → List Visit
  | 0, _ => []
  | depth + 1, ids => ids.flatMap fun id =>
    match tree.decl? id with
    | none => []
    | some decl =>
      if decl.file == tree.file then
        match decl.kind with
        | .module members => .enter decl.name :: tree.visitsOf depth members ++ [.leave]
        | .interface _ => [.interface id]
        | _ => []
      else [.external decl.file]

/-- The events of going through the whole tree. No chain of modules is longer than the number
of declarations. -/
def visits (tree : DeclTree) : List Visit :=
  tree.visitsOf (tree.size + 1) tree.declarations

end DeclTree

end IdlBridge
